import ChatRelay.CommandLine
import ChatRelay.Housekeeping
import ChatRelay.Token
import Std.Async.Signal
import Std.Async.TCP
import Std.Async.Timer
import Std.Sync.Channel

/-! # The server program

Reads the settings and the users file, listens, and turns what the sockets report into steps of an
engine, with rounds of housekeeping in between. What the links were asked in a turn is done before
the next one.
-/

namespace ChatRelay

open Std.Async

inductive Event where
  | incoming (result : Except IO.Error TCP.Socket.Client)
  | completed (c : Completion)
  | due
  | interrupted

instance : Inhabited Event :=
  ⟨.interrupted⟩

structure Program where
  service : Service Store
  listener : TCP.Socket.Server
  events : Std.Channel Event
  idleTimeout : Option Nat
  startedAt : Nat

namespace Program

def nativeAddress (a : SocketAddress) : Std.Net.SocketAddress :=
  match a.ip with
  | .v4 a₀ a₁ a₂ a₃ => .v4 ⟨.ofParts a₀ a₁ a₂ a₃, a.port⟩
  | .v6 gs _ =>
    let g (i : Nat) := gs.getD i 0
    .v6 ⟨.ofParts (g 0) (g 1) (g 2) (g 3) (g 4) (g 5) (g 6) (g 7), a.port⟩

/-- Reports how an operation ended, whenever that is. -/
def await {α : Type} (p : Program) (operation : Async α) (event : Except IO.Error α → Event) :
    IO Unit := do
  let task : Task (Except IO.Error α) ← operation.toIO
  BaseIO.chainTask task fun result => do
    let _ ← p.events.send (event result)

def perform (p : Program) (l : Link) (socket : TCP.Socket.Client) : LinkEvent → IO Unit
  | .receive limit =>
    p.await (socket.recv? (UInt64.ofNat limit)) fun result =>
      .completed <| .received l.slot l.session <|
        match result with
        | .ok (some bs) => .ok bs.toList
        | .ok none => .ok []
        | .error e => .error (toString e)
  | .send packet =>
    p.await (socket.send ⟨packet.toArray⟩) fun result =>
      .completed <| .sent l.slot l.session <|
        match result with
        | .ok () => .ok packet.length
        | .error e => .error (toString e)
  | .close => discard socket.shutdown.toIO
  | .receiveRefused _ | .sendRefused _ => return

/-- Does what the links were asked in the last turn; `sockets` are theirs, in their order. -/
def performAll (p : Program) (sockets : Array TCP.Socket.Client) (w : Watch) : IO Watch := do
  let links := w.engine.relay.links
  for (i, log) in links.logs do
    if let (some l, some socket) := (links[i]?, sockets[i]?) then
      for event in log do
        p.perform l socket event
  return { w with engine.relay.links := links.clearLogs }

def wakeUp (p : Program) (w : Watch) : IO Watch := do
  return w.wait ((← IO.monoMsNow) - p.startedAt - w.now)

def schedule (p : Program) : IO Unit :=
  p.await (sleep (.ofNat (Watch.interval p.idleTimeout))) fun _ => .due

/-- Takes one turn for every event until the program is interrupted. -/
partial def loop (p : Program) (sockets : Array TCP.Socket.Client) (w : Watch) : IO Unit := do
  let event ← IO.wait (← p.events.recv)
  let w ← p.wakeUp w
  let take := w.take p.service p.idleTimeout
  match event with
  | .interrupted => discard (p.performAll sockets (take (.step .stop)))
  | .completed c => p.loop sockets (← p.performAll sockets (take (.step (.complete c))))
  | .due =>
    p.schedule
    p.loop sockets (← p.performAll sockets (take .round))
  | .incoming result =>
    p.await p.listener.accept .incoming
    match result with
    | .error _ => p.loop sockets w
    | .ok socket =>
      let before := w.engine.relay.links.length
      let w := take (.step (.accept (.ofPeer none)))
      if before < w.engine.relay.links.length then
        let sockets := sockets.push socket
        p.loop sockets (← p.performAll sockets w)
      else
        discard socket.shutdown.toIO
        p.loop sockets w

def serve (s : Server) : IO Unit := do
  let listener ← TCP.Socket.Server.mk
  try
    listener.bind (nativeAddress s.config.bind)
    listener.listen 1024
  catch e =>
    throw (IO.userError (ServerError.bindFailed s.config.bind (toString e)).message)
  let secret := (← IO.getRandomBytes 32).toList
  let p : Program :=
    { service := .direct (sessionToken secret) s.config.tokenLifetime
      listener := listener
      events := ← Std.Channel.new
      idleTimeout := s.config.idleTimeout
      startedAt := ← IO.monoMsNow }
  let interrupt ← Signal.Waiter.mk .sigint false
  BaseIO.chainTask (← interrupt.wait) fun _ => do
    let _ ← p.events.send .interrupted
  p.await listener.accept .incoming
  p.schedule
  p.loop #[] (.start (.start s.config.maxSessions.toNat s.config.limits s.store))

def start (c : Config) : IO Unit := do
  let content ← (IO.FS.readBinFile c.users).toBaseIO
  let isThere :=
    match content with
    | .error (.noFileOrDirectory ..) => false
    | _ => true
  match c.validate fun _ => isThere with
  | .error e => throw (IO.userError e.message)
  | .ok () =>
    let store :=
      match content with
      | .ok bs => Store.ofDocument bs.toList
      | .error e => .error (.loadFailed c.users (toString e))
    match store with
    | .error e => throw (IO.userError (ServerError.store e).message)
    | .ok store => serve ⟨c, store⟩

end Program

end ChatRelay

def main (args : List String) : IO UInt32 := do
  let environment ← ChatRelay.Flag.all.mapM fun f => do
    return (f.variableName, ← IO.getEnv f.variableName)
  match ChatRelay.Config.ofArguments args fun name => (environment.lookup name).join with
  | .error e =>
    if e = .help ∨ e = .version then
      IO.println e.message
      return 0
    else
      IO.eprintln ("error: " ++ e.message)
      return 2
  | .ok c =>
    try
      ChatRelay.Program.start c
      return 0
    catch e =>
      IO.eprintln ("Error: " ++ toString e)
      return 1
