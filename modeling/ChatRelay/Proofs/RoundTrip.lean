import ChatRelay.Proofs.Packet

/-! # Round trips

A packet is what its octets say, and its octets are what it says: octets are read as a packet
exactly if they start with the encoding of it.
-/

namespace ChatRelay

variable {bs : Bytes}

theorem Field.raw_read {width : Nat} (h : width ≤ bs.length) :
    (Field.read bs : Field width).raw = bs.take width := by
  have hlength : (bs.take width).length = width := by
    rw [List.length_take, Nat.min_eq_left h]
  change Bytes.padded width (bs.take width) = bs.take width
  rw [Bytes.padded, hlength, Nat.sub_self, List.replicate_zero, List.append_nil]

theorem Field.read?_eq_some {width : Nat} (h : width ≤ bs.length) :
    (read? bs : Option (Field width)) = some (read bs) := by
  have hraw := raw_read h
  rw [read?, dif_pos h]
  cases hf : (read bs : Field width) with
  | mk raw hlength =>
    rw [hf] at hraw
    cases hraw
    rfl

theorem Field.take_append_raw_read {m width : Nat} (h : m + width ≤ bs.length) :
    bs.take m ++ (Field.read (bs.drop m) : Field width).raw = bs.take (m + width) := by
  have hrest : width ≤ (bs.drop m).length := by
    rw [List.length_drop]
    omega
  rw [raw_read hrest, List.take_add]

theorem Field.read_take {width n : Nat} (h : width ≤ n) (bs : Bytes) :
    (Field.read (bs.take n) : Field width) = Field.read bs := by
  have htake : (bs.take n).take width = bs.take width := by
    rw [List.take_take, Nat.min_eq_left h]
  simp only [Field.read, htake]

theorem Header.toBytes_of_ofBytes? {h : Header} (hh : ofBytes? bs = some h) :
    h.toBytes = bs.take headerLength := by
  match bs with
  | [] | [_] | [_, _] | [_, _, _] => simp [ofBytes?] at hh
  | a :: b :: c :: d :: _ =>
    obtain rfl := Option.some.inj hh
    simp only [toBytes, Word.toBytes_ofBytes]
    rfl

theorem Header.eq_ofKind {h : Header} {k : PacketKind} (hkind : h.packetKind? = some k)
    (hsize : h.declaredSize = k.wireLength) : h = ofKind k := by
  obtain ⟨kind, size⟩ := h
  have hcode : k.code = kind := PacketKind.code_eq_of_ofCode? hkind
  have hlength : (ofKind k).size = size :=
    UInt16.toNat_inj.1 ((declaredSize_ofKind k).trans hsize.symm)
  rw [← hcode, ← hlength]
  rfl

namespace Packet

variable {p : Packet} {k : PacketKind} {o : Outcome}

theorem toBytes_of_readOutcome (h : readOutcome bs = .ok o) : Word.toBytes o.code = bs.take 2 := by
  match bs with
  | [] | [_] => cases h
  | a :: b :: _ =>
    simp only [readOutcome] at h
    split at h
    · next ho =>
      cases h
      rw [Outcome.code_eq_of_ofCode? ho, Word.toBytes_ofBytes]
      rfl
    · cases h

theorem body_of_readBody (hl : k.bodyLength ≤ bs.length) (h : readBody bs k = .ok p) :
    p.kind = k ∧ p.body = bs.take k.bodyLength := by
  have hbehind {m width : Nat} (hm : m + width ≤ k.bodyLength) :
      bs.take m ++ (Field.read (bs.drop m) : Field width).raw = bs.take (m + width) :=
    Field.take_append_raw_read (hm.trans hl)
  have hfront {width : Nat} (hw : width ≤ k.bodyLength) :
      (Field.read bs : Field width).raw = bs.take width := Field.raw_read (hw.trans hl)
  cases k with
  | loginRequest =>
    cases h
    refine ⟨rfl, ?_⟩
    rw [body, hfront (by decide), hbehind (by decide), ← Nat.two_mul, hbehind (by decide)]
    rfl
  | loginResponse =>
    cases ho : readOutcome bs with
    | error e => simp only [readBody, ho] at h; cases h
    | ok o =>
      simp only [readBody, ho] at h
      cases h
      exact ⟨rfl, toBytes_of_readOutcome ho⟩
  | whisperResponse =>
    cases ho : readOutcome bs with
    | error e => simp only [readBody, ho] at h; cases h
    | ok o =>
      simp only [readBody, ho] at h
      cases h
      refine ⟨rfl, ?_⟩
      rw [body, toBytes_of_readOutcome ho, hbehind (by decide), hbehind (by decide)]
      rfl
  | broadcastRequest | userJoinNotify | userLeaveNotify =>
    cases h
    exact ⟨rfl, hfront (by decide)⟩
  | broadcastResponse | whisperRequest =>
    cases h
    refine ⟨rfl, ?_⟩
    rw [body, hfront (by decide), hbehind (by decide)]
    rfl

/-- Octets are a packet if they start with the header of its kind, go on for as long as that says,
and have a body that can be read. -/
theorem decode_eq_ok_iff : decode bs = .ok p ↔ ∃ k, Header.ofBytes? bs = some (.ofKind k) ∧
    k.wireLength ≤ bs.length ∧ readBody (bs.drop headerLength) k = .ok p := by
  constructor
  · intro h
    unfold decode at h
    split at h
    · cases h
    · next header hheader =>
      split at h
      · cases h
      · next k hkind =>
        split at h
        · cases h
        · next hsize =>
          split at h
          · cases h
          · next hlength =>
            have heq := Header.eq_ofKind hkind (not_not.1 hsize)
            exact ⟨k, heq ▸ hheader, Nat.not_lt.1 hlength, h⟩
  · rintro ⟨k, hheader, hlength, hbody⟩
    have hkind : (Header.ofKind k).packetKind? = some k := k.ofCode?_code
    have hsize := Header.declaredSize_ofKind k
    simp only [decode, hheader, hkind, hsize, ne_eq, not_true_eq_false, if_false,
      if_neg (Nat.not_lt.2 hlength)]
    exact hbody

theorem header_of_decode (h : decode bs = .ok p) :
    Header.ofBytes? bs = some (.ofKind p.kind) ∧
      p.body = (bs.drop headerLength).take p.kind.bodyLength := by
  obtain ⟨k, hheader, hlength, hread⟩ := decode_eq_ok_iff.1 h
  have hrest : k.bodyLength ≤ (bs.drop headerLength).length := by
    rw [PacketKind.wireLength] at hlength
    rw [List.length_drop]
    omega
  obtain ⟨rfl, hbody⟩ := body_of_readBody hrest hread
  exact ⟨hheader, hbody⟩

theorem encode_of_decode (h : decode bs = .ok p) : bs.take p.kind.wireLength = p.encode := by
  obtain ⟨hheader, hbody⟩ := header_of_decode h
  rw [encode, Header.toBytes_of_ofBytes? hheader, hbody, PacketKind.wireLength, List.take_add]

/-- Encoding gives as many octets as the kind of the packet has, headed by the code of the kind and
that number. Octets are read as the packet exactly if these are the first of them, so whatever
follows does not matter, and what was read is written again as it was. -/
theorem decode_eq_ok_iff_take (p : Packet) :
    p.encode.length = p.kind.wireLength ∧
    (∃ h, Header.ofBytes? p.encode = some h ∧ h.kind = p.kind.code ∧
      h.declaredSize = p.kind.wireLength) ∧
    (∀ rest, decode (p.encode ++ rest) = .ok p) ∧
    ∀ bs, decode bs = .ok p ↔ bs.take p.kind.wireLength = p.encode := by
  have hheader := Header.ofBytes?_toBytes_append (.ofKind p.kind) p.body
  refine ⟨p.length_encode, ⟨_, hheader, rfl, Header.declaredSize_ofKind _⟩,
    p.decode_encode_append, fun bs => ⟨encode_of_decode, fun h => ?_⟩⟩
  rw [← List.take_append_drop p.kind.wireLength bs, h]
  exact p.decode_encode_append _

example : (loginResponse .userNotFound).encode = [0xd2, 7, 6, 0, 0xed, 3] := by decide

end Packet

end ChatRelay
