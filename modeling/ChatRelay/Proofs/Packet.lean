import ChatRelay.Proofs.Text
import ChatRelay.Wire.Packet

/-! # Packets on the wire

A packet is read back as it was written, whatever follows it.
-/

namespace ChatRelay

namespace Packet

theorem readOutcome_toBytes_append (o : Outcome) (bs : Bytes) :
    readOutcome (Word.toBytes o.code ++ bs) = .ok o := by
  simp only [Word.toBytes, List.cons_append, List.nil_append, readOutcome, Word.ofBytes_toBytes,
    Outcome.ofCode?_code]

theorem readBody_body_append (p : Packet) (bs : Bytes) :
    readBody (p.body ++ bs) p.kind = .ok p := by
  have hdrop {width : Nat} (f : Field width) (cs : Bytes) : (f.raw ++ cs).drop width = cs :=
    List.drop_left' f.length_raw
  have htwo {width : Nat} (f g : Field width) (cs : Bytes) :
      (f.raw ++ (g.raw ++ cs)).drop (2 * width) = cs := by
    rw [Nat.two_mul, ← List.drop_drop, hdrop, hdrop]
  have hword {width : Nat} (o : Outcome) (f : Field width) (cs : Bytes) :
      (Word.toBytes o.code ++ (f.raw ++ cs)).drop (2 + width) = cs := by
    rw [← List.drop_drop]
    exact hdrop f cs
  cases p with
  | loginRequest userId password username =>
    simp only [body, kind, readBody, List.append_assoc, Field.read_raw_append, hdrop, htwo]
  | loginResponse result =>
    simp only [body, kind, readBody, readOutcome_toBytes_append]
    rfl
  | broadcastRequest message => simp only [body, kind, readBody, Field.read_raw_append]
  | broadcastResponse user message =>
    simp only [body, kind, readBody, List.append_assoc, Field.read_raw_append, hdrop]
  | whisperRequest receiver message =>
    simp only [body, kind, readBody, List.append_assoc, Field.read_raw_append, hdrop]
  | whisperResponse result sender message =>
    have hsender : (Word.toBytes result.code ++ (sender.raw ++ (message.raw ++ bs))).drop 2 =
        sender.raw ++ (message.raw ++ bs) := rfl
    simp only [body, kind, readBody, List.append_assoc, readOutcome_toBytes_append, hsender,
      hword, Field.read_raw_append]
    rfl
  | userJoinNotify user => simp only [body, kind, readBody, Field.read_raw_append]
  | userLeaveNotify user => simp only [body, kind, readBody, Field.read_raw_append]

theorem decode_encode_append (p : Packet) (bs : Bytes) : decode (p.encode ++ bs) = .ok p := by
  have hheader : Header.ofBytes? (p.encode ++ bs) = some (.ofKind p.kind) := by
    rw [encode, List.append_assoc]
    exact Header.ofBytes?_toBytes_append ..
  have hkind : (Header.ofKind p.kind).packetKind? = some p.kind := p.kind.ofCode?_code
  have hsize := Header.declaredSize_ofKind p.kind
  have hlength : ¬ (p.encode ++ bs).length < p.kind.wireLength := by
    rw [List.length_append, length_encode]
    omega
  have hbody : (p.encode ++ bs).drop headerLength = p.body ++ bs := by
    rw [encode, List.append_assoc]
    exact List.drop_left' (Header.length_toBytes _)
  simp only [decode, hheader, hkind, hsize, ne_eq, not_true_eq_false, if_false, if_neg hlength]
  rw [hbody, readBody_body_append]

@[simp] theorem decode_encode (p : Packet) : decode p.encode = .ok p := by
  simpa using p.decode_encode_append []

end Packet

end ChatRelay
