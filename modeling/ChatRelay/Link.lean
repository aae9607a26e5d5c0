import ChatRelay.Address
import ChatRelay.Store

/-! # Links

A link is a connection's end of its socket. A session asks it to read, to write or to close; it may
refuse a read or a write at once, and it keeps a log of what it was asked.
-/

namespace ChatRelay

inductive LinkEvent where
  | receive (limit : Nat)
  | receiveRefused (limit : Nat)
  | send (packet : Bytes)
  | sendRefused (packet : Bytes)
  | close
deriving DecidableEq

/-- Answers still to be given: those listed, and after them always the same one. -/
structure Answers where
  next : List Bool
  rest : Bool

namespace Answers

def always (b : Bool) : Answers :=
  ⟨[], b⟩

def head (a : Answers) : Bool :=
  a.next.headD a.rest

def tail (a : Answers) : Answers :=
  ⟨a.next.tail, a.rest⟩

end Answers

structure Link where
  /-- The slot and the session that the link was made for; its completions carry them. -/
  slot : Nat
  session : SessionId
  peer : Option SocketAddress
  sendAnswers : Answers
  receiveAnswers : Answers
  log : List LinkEvent

namespace Link

def fresh (slot : Nat) (session : SessionId) (peer : Option SocketAddress) : Link :=
  ⟨slot, session, peer, .always true, .always true, []⟩

def record (l : Link) (e : LinkEvent) : Link :=
  { l with log := l.log ++ [e] }

def send (l : Link) (packet : Bytes) : Bool × Link :=
  (l.sendAnswers.head,
    { l with sendAnswers := l.sendAnswers.tail }.record
      (if l.sendAnswers.head then .send packet else .sendRefused packet))

def receive (l : Link) (limit : Nat) : Bool × Link :=
  (l.receiveAnswers.head,
    { l with receiveAnswers := l.receiveAnswers.tail }.record
      (if l.receiveAnswers.head then .receive limit else .receiveRefused limit))

end Link

/-- A link's place among all links that were ever made. -/
abbrev LinkId := Nat

abbrev Links := List Link

namespace Links

def refusal : String := "link down"

/-- Asks link `i`; a link that was never made refuses. -/
def ask (ls : Links) (i : LinkId) (f : Link → Bool × Link) : Bool × Links :=
  match ls[i]? with
  | some l => ((f l).1, ls.set i (f l).2)
  | none => (false, ls)

def send (ls : Links) (i : LinkId) (packet : Bytes) : Bool × Links :=
  ls.ask i (·.send packet)

def receive (ls : Links) (i : LinkId) (limit : Nat) : Bool × Links :=
  ls.ask i (·.receive limit)

def close (ls : Links) (i : LinkId) : Links :=
  ls.modify i (·.record .close)

def logs (ls : Links) : List (LinkId × List LinkEvent) :=
  (ls.zipIdx.map fun (l, i) => (i, l.log)).filter (!·.2.isEmpty)

def clearLogs (ls : Links) : Links :=
  ls.map fun l => { l with log := [] }

end Links

end ChatRelay
