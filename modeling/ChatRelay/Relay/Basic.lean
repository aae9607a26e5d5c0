import ChatRelay.Session

/-! # The relay

A fixed pool of sessions, a directory of those that are logged in, the links, and the account store.
How the store is asked is left open: a service may answer from the store that the relay holds, fail,
or let other things happen to the relay while the call is under way.
-/

namespace ChatRelay

/-- Who is logged in: the id that each name belongs to, and the slot that serves each id. -/
structure Directory where
  byName : Table String SessionId
  byId : Table SessionId Nat

def Directory.empty : Directory :=
  ⟨.empty, .empty⟩

structure Relay (S : Type) where
  limits : Limits
  pool : List Session
  /-- Slots that may be taken, the next one first. -/
  free : List Nat
  directory : Directory
  links : Links
  store : S
  drawn : Nat

/-- How handlers reach the account store, where tokens come from, and how long they last. -/
structure Service (S : Type) where
  ask : (c : StoreCall) → Relay S → Except StoreError c.Answer × Relay S
  token : Nat → String
  lifetime : Nat

/-- A service that only asks the store; nothing else happens meanwhile. -/
def Service.ofStore {S : Type}
    (answer : (c : StoreCall) → S → Except StoreError c.Answer × S)
    (token : Nat → String) (lifetime : Nat) : Service S where
  ask c r :=
    let (a, store) := answer c r.store
    (a, { r with store := store })
  token := token
  lifetime := lifetime

def Service.direct : (Nat → String) → Nat → Service Store :=
  .ofStore fun c s => s.answer c

inductive DirectoryError where
  | nameTaken (name : String)
  | invalidSession (id : SessionId)
deriving DecidableEq, Repr

def DirectoryError.message : DirectoryError → String
  | nameTaken name => s!"Username already registered: {name}"
  | invalidSession id => s!"Session {id.toNat} is not valid"

namespace Relay

variable {S : Type}

def start (capacity : Nat) (limits : Limits) (store : S) : Relay S where
  limits := limits
  pool := List.replicate capacity (.idle limits)
  free := List.range capacity
  directory := .empty
  links := []
  store := store
  drawn := 0

def capacity (r : Relay S) : Nat :=
  r.pool.length

def available (r : Relay S) : Nat :=
  r.free.length

def authenticated (r : Relay S) : Nat :=
  r.directory.byId.size

/-- The session in a slot; a slot that is not there holds an idle one. -/
def session (r : Relay S) (slot : Nat) : Session :=
  r.pool[slot]?.getD (.idle r.limits)

def setSession (r : Relay S) (slot : Nat) (s : Session) : Relay S :=
  { r with pool := r.pool.set slot s }

def put (r : Relay S) (slot : Nat) (sl : Session × Links) : Relay S :=
  { r.setSession slot sl.1 with links := sl.2 }

def acquire (r : Relay S) : Option (Nat × Relay S) :=
  match r.free with
  | [] => none
  | slot :: free =>
    some (slot, { r.setSession slot { r.session slot with leased := true } with free := free })

/-- Makes a link for a slot and a connection; the link's number is its place. -/
def addLink (r : Relay S) (l : Link) : LinkId × Relay S :=
  (r.links.length, { r with links := r.links ++ [l] })

def connect (r : Relay S) (slot : Nat) (id : SessionId) (link : LinkId) : Relay S :=
  r.put slot ((r.session slot).connect id link r.links)

def reset (r : Relay S) (slot : Nat) : Relay S :=
  r.put slot ((r.session slot).reset r.links)

/-- Takes a session out of the directory; a name that belongs to another id by now stays. -/
def unregister (r : Relay S) (slot : Nat) : Relay S :=
  match (r.session slot).listing? with
  | none => r
  | some (id, name) =>
    let byName :=
      if r.directory.byName.get? name = some id then r.directory.byName.erase name
      else r.directory.byName
    { r with directory := ⟨byName, r.directory.byId.erase id⟩ }

/-- Gives a slot back to the pool, unless it is there already. -/
def giveBack (r : Relay S) (slot : Nat) : Relay S :=
  if (r.session slot).leased then
    { r.setSession slot { r.session slot with leased := false } with free := slot :: r.free }
  else r

/-- Takes a session out of the directory, forgets its connection and returns its slot. -/
def release (r : Relay S) (slot : Nat) : Relay S :=
  ((r.unregister slot).reset slot).giveBack slot

def findId (r : Relay S) (id : SessionId) : Option Nat :=
  (r.directory.byId.get? id).filter fun slot => (r.session slot).isLive

def findName (r : Relay S) (name : String) : Option Nat :=
  (r.directory.byName.get? name).bind r.findId

/-- Logs connection `id` of `slot` in under `name`. A name whose owner is being torn down is taken
from it. Also an attempt that fails answers with the relay as it is afterwards. -/
def register (r : Relay S) (slot : Nat) (id : SessionId) (name token : String) :
    Except DirectoryError Unit × Relay S :=
  if (r.findName name).isSome then (.error (.nameTaken name), r)
  else
    let byName := r.directory.byName.erase name
    match (r.session slot).authenticate id name token with
    | none => (.error (.invalidSession id), { r with directory := ⟨byName, r.directory.byId⟩ })
    | some s =>
      (.ok (), { r.setSession slot s with
        directory := ⟨byName.insert name id, r.directory.byId.insert id slot⟩ })

/-- Queues a packet for whatever connection `slot` serves, or for `target` only. -/
def send (r : Relay S) (slot : Nat) (target : Option SessionId) (packet : Bytes) : Bool × Relay S :=
  let (taken, sl) := (r.session slot).send target packet r.links
  (taken, r.put slot sl)

def sent (r : Relay S) (slot : Nat) (id : SessionId) : Relay S :=
  r.put slot ((r.session slot).sent id r.links)

def armRead (r : Relay S) (slot : Nat) (id : SessionId) : Except SessionError Unit × Relay S :=
  let (answer, links) := (r.session slot).armRead id r.links
  (answer, { r with links := links })

def receive (r : Relay S) (slot : Nat) (id : SessionId) (bs : Bytes) :
    Except SessionError Unit × Relay S :=
  ((r.session slot).admits id bs.length,
    { r with pool := r.pool.modify slot (·.receive id bs) })

def depart (r : Relay S) (slot : Nat) (id : SessionId) : Option Departure × Relay S :=
  match (r.session slot).depart id with
  | some (d, s) => (some d, r.setSession slot s)
  | none => (none, r)

/-- Queues a packet for the live session that goes by `name`: nothing if there is none, otherwise
whether the packet was taken. -/
def sendToName (r : Relay S) (name : String) (packet : Bytes) : Option Bool × Relay S :=
  match r.findName name with
  | none => (none, r)
  | some slot => let (taken, r') := r.send slot none packet; (some taken, r')

/-- Queues a packet for each of `slots` that is live and not `except`, and counts those that take
it. -/
def sendEach (except : Option Nat) (packet : Bytes) : List Nat → Relay S → Nat × Relay S
  | [], r => (0, r)
  | slot :: slots, r =>
    if except = some slot ∨ !(r.session slot).isLive then sendEach except packet slots r
    else
      let (taken, r') := r.send slot none packet
      let (n, r'') := sendEach except packet slots r'
      (if taken then n + 1 else n, r'')

def broadcast (r : Relay S) (except : Option Nat) (packet : Bytes) : Nat × Relay S :=
  sendEach except packet r.directory.byId.values r

end Relay

end ChatRelay
