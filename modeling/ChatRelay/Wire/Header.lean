import ChatRelay.Wire.Kind

/-! # Headers

Every packet starts with its kind's code and its total size, two octets each.
-/

namespace ChatRelay

structure Header where
  kind : UInt16
  size : UInt16
deriving DecidableEq, Repr

namespace Header

def ofKind (k : PacketKind) : Header :=
  ⟨k.code, UInt16.ofNat k.wireLength⟩

def toBytes (h : Header) : Bytes :=
  Word.toBytes h.kind ++ Word.toBytes h.size

def ofBytes? : Bytes → Option Header
  | a :: b :: c :: d :: _ => some ⟨Word.ofBytes a b, Word.ofBytes c d⟩
  | _ => none

/-- The declared size, header included. -/
def declaredSize (h : Header) : Nat :=
  h.size.toNat

def packetKind? (h : Header) : Option PacketKind :=
  PacketKind.ofCode? h.kind

@[simp] theorem length_toBytes (h : Header) : h.toBytes.length = headerLength := rfl

theorem ofBytes?_toBytes_append (h : Header) (bs : Bytes) :
    ofBytes? (h.toBytes ++ bs) = some h := by
  simp only [toBytes, Word.toBytes, List.cons_append, List.nil_append, ofBytes?,
    Word.ofBytes_toBytes]

theorem ofBytes?_eq_none_iff {bs : Bytes} : ofBytes? bs = none ↔ bs.length < headerLength := by
  unfold headerLength
  match bs with
  | [] | [_] | [_, _] | [_, _, _] => simp [ofBytes?]
  | _ :: _ :: _ :: _ :: _ => simp [ofBytes?]

theorem declaredSize_ofKind (k : PacketKind) : (ofKind k).declaredSize = k.wireLength := by
  cases k <;> decide

end Header

end ChatRelay
