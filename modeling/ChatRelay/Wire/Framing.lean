import ChatRelay.Wire.Header

/-! # Framing

The octets of a connection are packets end to end, each as long as its header declares. A declared
size that no packet can have ends the stream.
-/

namespace ChatRelay

inductive FramingError where
  | oversized (size limit : Nat)
  | undersized (size : Nat)
deriving DecidableEq, Repr

namespace FramingError

def message : FramingError → String
  | oversized size limit => s!"Declared packet size {size} exceeds limit of {limit}"
  | undersized size => s!"Declared packet size {size} is smaller than the header"

def ofSize? (size : Nat) : Option FramingError :=
  if maxPacketSize < size then some (.oversized size maxPacketSize)
  else if size < headerLength then some (.undersized size)
  else none

theorem headerLength_le_of_ofSize? {size : Nat} (h : ofSize? size = none) :
    headerLength ≤ size := by
  unfold ofSize? at h
  split at h
  · cases h
  · split at h
    · cases h
    · omega

end FramingError

/-- A stream cut into packets: those that are complete, the error that ends the stream, if any, and
the octets after the last packet. -/
structure Framing where
  packets : List Bytes
  error : Option FramingError
  rest : Bytes
deriving DecidableEq

namespace Framing

/-- The first packet of a stream and what follows it, if the packet is complete. -/
def first (bs : Bytes) : Except FramingError (Option (Bytes × Bytes)) :=
  match Header.ofBytes? bs with
  | none => .ok none
  | some h =>
    match FramingError.ofSize? h.declaredSize with
    | some e => .error e
    | none =>
      if bs.length < h.declaredSize then .ok none
      else .ok (some (bs.take h.declaredSize, bs.drop h.declaredSize))

theorem length_rest_lt {bs packet rest : Bytes} (h : first bs = .ok (some (packet, rest))) :
    rest.length < bs.length := by
  unfold first at h
  split at h
  · cases h
  · next header _ =>
    split at h
    · cases h
    · next hs =>
      split at h
      · cases h
      · have := FramingError.headerLength_le_of_ofSize? hs
        cases h
        simp only [List.length_drop, headerLength] at *
        omega

def ofBytes (bs : Bytes) : Framing :=
  match _h : first bs with
  | .error e => ⟨[], some e, bs⟩
  | .ok none => ⟨[], none, bs⟩
  | .ok (some (packet, rest)) =>
    let f := ofBytes rest
    ⟨packet :: f.packets, f.error, f.rest⟩
termination_by bs.length
decreasing_by exact length_rest_lt _h

end Framing

end ChatRelay
