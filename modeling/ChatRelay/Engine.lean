import ChatRelay.Relay.Stream
import ChatRelay.Relay.Teardown
import ChatRelay.Server

/-! # The engine

Connections come in, reads and writes complete, connections end. Every step is driven by one of
these, and a completion names the slot and the session that it was started for.
-/

namespace ChatRelay

structure Engine (S : Type) where
  relay : Relay S
  running : Bool
  nextId : SessionId

structure Incoming where
  peer : Option SocketAddress
  /-- Whether a link can be made of its socket. -/
  usable : Bool
  sendAnswers : Answers
  receiveAnswers : Answers

namespace Incoming

def ofPeer (peer : Option SocketAddress) : Incoming :=
  ⟨peer, true, .always true, .always true⟩

def link (c : Incoming) (slot : Nat) (session : SessionId) : Link :=
  ⟨slot, session, c.peer, c.sendAnswers, c.receiveAnswers, []⟩

end Incoming

inductive Completion where
  /-- A read ended; no octets mean that the peer has closed the connection. -/
  | received (slot : Nat) (session : SessionId) (result : Except String Bytes)
  | sent (slot : Nat) (session : SessionId) (result : Except String Nat)

namespace Engine

variable {S : Type}

def start (capacity : Nat) (limits : Limits) (store : S) : Engine S :=
  ⟨.start capacity limits store, true, 1⟩

/-- Ids are counted up and wrap around; 0 is skipped. -/
def allocate (e : Engine S) : SessionId × Engine S :=
  let id := if e.nextId = 0 then 1 else e.nextId
  (id, { e with nextId := id + 1 })

/-- A connection comes in. It is served if there is a slot for it, and dropped otherwise. -/
def accept (e : Engine S) (c : Incoming) : Option (Nat × SessionId) × Engine S :=
  if !e.running then (none, e)
  else
    match e.relay.acquire with
    | none => (none, e)
    | some (slot, r) =>
      let (id, e) := e.allocate
      if !c.usable then (none, { e with relay := r.release slot })
      else
        let (link, r) := r.addLink (c.link slot id)
        match (r.connect slot id link).armRead slot id with
        | (.ok (), r) => (some (slot, id), { e with relay := r })
        | (.error _, r) => (none, { e with relay := r.release slot })

def disconnect (v : Service S) (slot : Nat) (id : SessionId) (e : Engine S) : Engine S :=
  { e with relay := e.relay.disconnect v slot id e.running }

/-- Whether an error ends the connection; a connection that is gone needs no ending. -/
def isFatal : SessionError → Bool
  | .stale .. | .closed => false
  | .overflow .. | .link _ => true

def afterRead (v : Service S) (slot : Nat) (id : SessionId) (result : Except String Bytes)
    (e : Engine S) : Engine S :=
  match result with
  | .error _ | .ok [] => e.disconnect v slot id
  | .ok bs =>
    match e.relay.receive slot id bs with
    | (.error err, r) =>
      let e := { e with relay := r }
      if isFatal err then e.disconnect v slot id else e
    | (.ok (), r) =>
      match r.drain v slot id with
      | (.error _, r) => { e with relay := r }.disconnect v slot id
      | (.ok _, r) =>
        match r.armRead slot id with
        | (.ok (), r) => { e with relay := r }
        | (.error err, r) =>
          let e := { e with relay := r }
          if isFatal err then e.disconnect v slot id else e

def afterWrite (v : Service S) (slot : Nat) (id : SessionId) (result : Except String Nat)
    (e : Engine S) : Engine S :=
  match result with
  | .ok _ => { e with relay := e.relay.sent slot id }
  | .error _ => e.disconnect v slot id

/-- A completion for a slot that is not there is dropped. -/
def complete (v : Service S) (e : Engine S) : Completion → Engine S
  | .received slot id result =>
    if slot < e.relay.capacity then e.afterRead v slot id result else e
  | .sent slot id result => if slot < e.relay.capacity then e.afterWrite v slot id result else e

def endAll (v : Service S) (e : Engine S) : List Nat → Engine S
  | [] => e
  | slot :: slots =>
    let id := (e.relay.session slot).id
    endAll v (if id = 0 then e else e.disconnect v slot id) slots

/-- Takes nothing more in, and announces no departures from now on. -/
def halt (e : Engine S) : Engine S :=
  { e with running := false }

def stop (v : Service S) (e : Engine S) : Engine S :=
  e.halt.endAll v (List.range e.relay.capacity)

inductive Step where
  | accept (c : Incoming)
  | complete (c : Completion)
  | halt
  | stop

def step (v : Service S) (e : Engine S) : Step → Engine S
  | .accept c => (e.accept c).2
  | .complete c => e.complete v c
  | .halt => e.halt
  | .stop => e.stop v

def run (v : Service S) (e : Engine S) (steps : List Step) : Engine S :=
  steps.foldl (step v) e

end Engine

def Server.listen (h : Host) (s : Server) : Except ServerError (Engine Store) :=
  match h.bindFault? s.config.bind with
  | some f => .error (.bindFailed s.config.bind f.message)
  | none => .ok (.start s.config.maxSessions.toNat s.config.limits s.store)

end ChatRelay
