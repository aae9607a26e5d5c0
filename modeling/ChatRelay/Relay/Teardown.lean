import ChatRelay.Relay.Basic
import ChatRelay.Wire.Packet

/-! # Teardown

A connection ends once, whatever ends it: the store forgets its user, its slot goes back to the
pool, and those who are left are told.
-/

namespace ChatRelay.Relay

variable {S : Type}

def announceLeave (r : Relay S) (name : String) : Nat × Relay S :=
  r.broadcast none (Packet.userLeaveNotify (.truncated name)).encode

def forget (v : Service S) (name : String) (token : Option String) (r : Relay S) : Relay S :=
  let r :=
    match token with
    | some t => (v.ask (.deleteToken t) r).2
    | none => r
  (v.ask (.clearPresence name) r).2

/-- Tears connection `id` down, unless that has begun already. Whether a departure is announced is
left to the caller. -/
def disconnect (v : Service S) (slot : Nat) (id : SessionId) (announced : Bool) (r : Relay S) :
    Relay S :=
  match r.depart slot id with
  | (none, _) => r
  | (some d, r) =>
    match d.username with
    | none => r.release slot
    | some name =>
      let r := (r.forget v name d.token).release slot
      if announced then (r.announceLeave name).2 else r

end ChatRelay.Relay
