import ChatRelay.Link
import ChatRelay.Ring
import ChatRelay.Text.Quoted
import ChatRelay.Wire.Header

/-! # Sessions

A session serves one connection after another. Whatever completes for a connection carries the id it
was started under, and an id that is not the session's own any more has no effect.
-/

namespace ChatRelay

inductive Phase where
  | connected
  | authenticated
  /-- Being torn down, or waiting for a connection. -/
  | disconnecting
deriving DecidableEq, Repr

def Phase.name : Phase → String
  | connected => "Connected"
  | authenticated => "Authenticated"
  | disconnecting => "Disconnecting"

structure Limits where
  receiveBuffer : Nat
  readChunk : Nat
  sendSize : Nat
  sendBacklog : Nat
deriving DecidableEq, Repr

def Limits.standard : Limits :=
  ⟨2 * maxPacketSize, maxPacketSize, maxPacketSize, 256⟩

inductive SessionError where
  | stale (expected current : SessionId)
  | closed
  | overflow (incoming free : Nat)
  | link (cause : String)
deriving DecidableEq, Repr

def SessionError.message : SessionError → String
  | stale expected current =>
    s!"Stale completion for session {expected.toNat}, slot now holds {current.toNat}"
  | closed => "Session is closed"
  | overflow incoming free => s!"Receive buffer overflow: {incoming} bytes, {free} free"
  | link cause => s!"Link error: {cause}"

structure Session where
  limits : Limits
  leased : Bool
  inbound : Ring
  /-- Packets to be sent, the one in flight first. -/
  queue : List Bytes
  sending : Bool
  id : SessionId
  phase : Phase
  username : String
  token : Option String
  link : Option LinkId

structure Departure where
  session : SessionId
  username : Option String
  token : Option String
deriving DecidableEq, Repr

namespace Session

def idle (limits : Limits) : Session where
  limits := limits
  leased := false
  inbound := .empty limits.receiveBuffer
  queue := []
  sending := false
  id := 0
  phase := .disconnecting
  username := ""
  token := none
  link := none

def isLive (s : Session) : Bool :=
  s.link.isSome && s.phase ≠ .disconnecting

def isAuthenticated (s : Session) : Bool :=
  s.link.isSome && s.phase = .authenticated

def loggedInAs (s : Session) : Option String :=
  if s.phase = .authenticated then some s.username else none

/-- The name of connection `id`, if it is still served here and logged in. -/
def nameOf (s : Session) (id : SessionId) : Option String :=
  if s.id = id then s.loggedInAs else none

/-- The id and name under which the directory may know the session. -/
def listing? (s : Session) : Option (SessionId × String) :=
  if s.username = "" then none else some (s.id, s.username)

/-- Why connection `id` is not served here, if it is not. -/
def obstacle? (s : Session) (id : SessionId) : Option SessionError :=
  if s.id ≠ id then some (.stale id s.id)
  else if s.link.isNone then some .closed
  else none

/-- Forgets the connection; the phase is `phase` from now on. -/
def cleared (s : Session) (id : SessionId) (phase : Phase) (link : Option LinkId) : Session :=
  { s with
    inbound := s.inbound.clear
    queue := []
    sending := false
    id := id
    phase := phase
    username := ""
    token := none
    link := link }

def hangUp (s : Session) (ls : Links) : Links :=
  match s.link with
  | some l => ls.close l
  | none => ls

def connect (s : Session) (id : SessionId) (link : LinkId) (ls : Links) : Session × Links :=
  (s.cleared id .connected (some link), s.hangUp ls)

def reset (s : Session) (ls : Links) : Session × Links :=
  (s.cleared 0 .disconnecting none, s.hangUp ls)

/-- Asks for the next read, for as much as there is room for. -/
def armRead (s : Session) (id : SessionId) (ls : Links) : Except SessionError Unit × Links :=
  match s.obstacle? id, s.link with
  | some e, _ => (.error e, ls)
  | none, none => (.error .closed, ls)
  | none, some l =>
    if s.inbound.free = 0 then (.error (.overflow 0 0), ls)
    else
      match ls.receive l (min s.limits.readChunk s.inbound.free) with
      | (true, ls') => (.ok (), ls')
      | (false, ls') => (.error (.link Links.refusal), ls')

def admits (s : Session) (id : SessionId) (n : Nat) : Except SessionError Unit :=
  match s.obstacle? id with
  | some e => .error e
  | none => if n ≤ s.inbound.free then .ok () else .error (.overflow n s.inbound.free)

/-- Takes in what a read brought, all of it or nothing. -/
def receive (s : Session) (id : SessionId) (bs : Bytes) : Session :=
  match s.admits id bs.length with
  | .ok () => { s with inbound := s.inbound.append bs }
  | .error _ => s

/-- Hands packets to the link until it takes one; those that it refuses are dropped. -/
def post (l : LinkId) (ls : Links) : List Bytes → List Bytes × Links
  | [] => ([], ls)
  | p :: ps =>
    match ls.send l p with
    | (true, ls') => (p :: ps, ls')
    | (false, ls') => post l ls' ps

def postNext (s : Session) (l : LinkId) (ls : Links) : Session × Links :=
  let (queue, ls') := post l ls s.queue
  ({ s with queue := queue, sending := !queue.isEmpty }, ls')

def accepts (s : Session) (target : Option SessionId) (packet : Bytes) : Bool :=
  packet.length ≤ s.limits.sendSize && s.isLive && target.all (· = s.id) &&
    s.queue.length < s.limits.sendBacklog

/-- Queues a packet, and starts sending if nothing is in flight. The answer says whether the packet
was taken. -/
def send (s : Session) (target : Option SessionId) (packet : Bytes) (ls : Links) :
    Bool × Session × Links :=
  match s.link with
  | none => (false, s, ls)
  | some l =>
    if s.accepts target packet then
      let s' := { s with queue := s.queue ++ [packet] }
      if s.sending then (true, s', ls) else (true, s'.postNext l ls)
    else (false, s, ls)

def sent (s : Session) (id : SessionId) (ls : Links) : Session × Links :=
  if s.id ≠ id then (s, ls)
  else
    let s' := { s with queue := s.queue.tail }
    match s.link with
    | some l => s'.postNext l ls
    | none => ({ s' with sending := false }, ls)

/-- Begins the teardown of connection `id`; only the first to ask gets an answer. -/
def depart (s : Session) (id : SessionId) : Option (Departure × Session) :=
  if s.id = id ∧ s.isLive then
    some (⟨id, s.loggedInAs, s.token⟩, { s with phase := .disconnecting, token := none })
  else none

def authenticate (s : Session) (id : SessionId) (username token : String) : Option Session :=
  if s.id = id ∧ s.link.isSome ∧ s.phase = .connected then
    some { s with phase := .authenticated, username := username, token := some token }
  else none

def describe (slot : Nat) (s : Session) : String :=
  s!"Session \x7b slot: {slot}, id: {s.id.toNat}, state: {s.phase.name}, username: " ++
    Quoted.quote s.username ++ ", .. \x7d"

end Session

end ChatRelay
