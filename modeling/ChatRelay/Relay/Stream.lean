import ChatRelay.Relay.Chat
import ChatRelay.Wire.Framing

/-! # Streams

What a connection sends is buffered in its ring. Packets that are complete are taken off and handled
one by one; a framing error is left to whoever feeds the connection.
-/

namespace ChatRelay

def Ring.takePacket (r : Ring) : Except FramingError (Option (Bytes × Ring)) :=
  match (r.peek? headerLength).bind Header.ofBytes? with
  | none => .ok none
  | some h =>
    match FramingError.ofSize? h.declaredSize with
    | some e => .error e
    | none => .ok ((r.peek? h.declaredSize).map fun packet => (packet, r.consume h.declaredSize))

namespace Relay

variable {S : Type}

/-- Handles up to `limit` complete packets of connection `id`, and counts them. It stops early if
the connection is no longer served in the slot. -/
def serve (v : Service S) (slot : Nat) (id : SessionId) :
    Nat → Relay S → Except FramingError Nat × Relay S
  | 0, r => (.ok 0, r)
  | limit + 1, r =>
    match (r.session slot).obstacle? id with
    | some _ => (.ok 0, r)
    | none =>
      match (r.session slot).inbound.takePacket with
      | .error e => (.error e, r)
      | .ok none => (.ok 0, r)
      | .ok (some (packet, ring)) =>
        let r := r.setSession slot { r.session slot with inbound := ring }
        match serve v slot id limit (r.handle v slot id packet) with
        | (.ok n, r) => (.ok (n + 1), r)
        | (.error e, r) => (.error e, r)

/-- Handles every complete packet of connection `id`. No read is armed meanwhile, so nothing is
added to the buffer, and it holds at most as many packets as octets. -/
def drain (v : Service S) (slot : Nat) (id : SessionId) (r : Relay S) :
    Except FramingError Nat × Relay S :=
  r.serve v slot id (r.session slot).inbound.size

inductive FeedError where
  | session (e : SessionError)
  | framing (e : FramingError)
deriving DecidableEq, Repr

/-- Takes in chunk after chunk, each with the packets that it completes; counts the packets. -/
def feed (v : Service S) (slot : Nat) (id : SessionId) :
    List Bytes → Relay S → Except FeedError Nat × Relay S
  | [], r => (.ok 0, r)
  | chunk :: chunks, r =>
    match r.receive slot id chunk with
    | (.error e, r) => (.error (.session e), r)
    | (.ok (), r) =>
      match r.drain v slot id with
      | (.error e, r) => (.error (.framing e), r)
      | (.ok n, r) =>
        match feed v slot id chunks r with
        | (.ok m, r) => (.ok (n + m), r)
        | (.error e, r) => (.error e, r)

end Relay

end ChatRelay
