import ChatRelay.Engine

/-! # Housekeeping

Now and then expired tokens are dropped, and connections of which nothing has been heard for too
long are ended. Time is counted in milliseconds.
-/

namespace ChatRelay

namespace Engine

variable {S : Type}

/-- The slot that is heard of in a step: a connection is accepted there, or octets are taken in. -/
def heard? (e : Engine S) : Step → Option Nat
  | .accept c => (e.accept c).1.map Prod.fst
  | .complete (.received slot id (.ok bs)) =>
    if bs ≠ [] ∧ ((e.relay.session slot).admits id bs.length).isOk then some slot else none
  | _ => none

def sweep (v : Service S) (silent : Nat → Bool) (e : Engine S) : List Nat → Engine S
  | [] => e
  | slot :: slots =>
    let s := e.relay.session slot
    let e := if s.id ≠ 0 ∧ s.isLive ∧ silent slot then e.disconnect v slot s.id else e
    sweep v silent e slots

def purge (e : Engine Store) : Engine Store :=
  { e with relay.store := e.relay.store.purge.2 }

end Engine

/-- An engine, when its slots were heard of last, and what time it is. -/
structure Watch where
  engine : Engine Store
  heardAt : Table Nat Nat
  now : Nat

inductive Turn where
  | step (s : Engine.Step)
  | round

namespace Watch

def start (e : Engine Store) : Watch :=
  ⟨e, .empty, 0⟩

/-- Lets time pass. The store counts whole seconds. -/
def wait (elapsed : Nat) (w : Watch) : Watch :=
  let store := w.engine.relay.store
  { w with
    engine.relay.store := store.wait ((w.now + elapsed) / 1000 - store.now)
    now := w.now + elapsed }

def silence (w : Watch) (slot : Nat) : Nat :=
  w.now - (w.heardAt.get? slot).getD 0

def step (v : Service Store) (s : Engine.Step) (w : Watch) : Watch :=
  { w with
    engine := w.engine.step v s
    heardAt :=
      match w.engine.heard? s with
      | some slot => w.heardAt.insert slot w.now
      | none => w.heardAt }

/-- One round. Without a timeout, in seconds, silence is tolerated. -/
def tidy (v : Service Store) (idleTimeout : Option Nat) (w : Watch) : Watch :=
  match idleTimeout with
  | none => { w with engine := w.engine.purge }
  | some seconds =>
    let silent (slot : Nat) : Bool := 1000 * seconds ≤ w.silence slot
    { w with
      engine := w.engine.purge.sweep v silent (List.range w.engine.relay.capacity) }

def take (v : Service Store) (idleTimeout : Option Nat) (w : Watch) : Turn → Watch
  | .step s => w.step v s
  | .round => w.tidy v idleTimeout

/-- The time between two rounds: a quarter of the timeout, but neither very short nor very long. -/
def interval (idleTimeout : Option Nat) : Nat :=
  match idleTimeout with
  | none => 5000
  | some seconds => min 5000 (max 100 (1000 * seconds / 4))

end Watch

end ChatRelay
