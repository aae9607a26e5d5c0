import ChatRelay.Proofs.Ring
import ChatRelay.Relay.Stream

/-! # Framing of growing streams

The packets of a stream and the error that ends it stay what they are when more octets follow, so a
stream can be framed piece by piece. Taking a packet off a ring frames the octets that it holds.
-/

namespace ChatRelay

theorem Header.ofBytes?_append {as : Bytes} {h : Header} (ha : ofBytes? as = some h) (bs : Bytes) :
    ofBytes? (as ++ bs) = some h := by
  match as with
  | [] | [_] | [_, _] | [_, _, _] => simp [ofBytes?] at ha
  | _ :: _ :: _ :: _ :: _ => simpa [ofBytes?] using ha

theorem Header.ofBytes?_take (bs : Bytes) : ofBytes? (bs.take headerLength) = ofBytes? bs := by
  match bs with
  | [] | [_] | [_, _] | [_, _, _] => rfl
  | _ :: _ :: _ :: _ :: _ => rfl

namespace Framing

variable {as bs packet rest : Bytes} {e : FramingError}

/-! ## The first packet -/

theorem first_of_header {h : Header} (hh : Header.ofBytes? bs = some h) :
    first bs = match FramingError.ofSize? h.declaredSize with
      | some e => .error e
      | none => if bs.length < h.declaredSize then .ok none
        else .ok (some (bs.take h.declaredSize, bs.drop h.declaredSize)) := by
  unfold first
  split
  · next hn => cases hh.symm.trans hn
  · next hs =>
    cases hh.symm.trans hs
    rfl

theorem first_eq_some_iff : first bs = .ok (some (packet, rest)) ↔
    ∃ h, Header.ofBytes? bs = some h ∧ FramingError.ofSize? h.declaredSize = none ∧
      h.declaredSize ≤ bs.length ∧ packet = bs.take h.declaredSize ∧
      rest = bs.drop h.declaredSize := by
  cases hh : Header.ofBytes? bs with
  | none => simp [first, hh]
  | some h =>
    rw [first_of_header hh]
    cases hs : FramingError.ofSize? h.declaredSize with
    | some e => simp [hs]
    | none =>
      rcases Nat.lt_or_ge bs.length h.declaredSize with hlt | hge
      · simp [hlt, Nat.not_le.2 hlt]
      · simp [hs, Nat.not_lt.2 hge, hge, eq_comm]

theorem first_eq_error_iff : first bs = .error e ↔
    ∃ h, Header.ofBytes? bs = some h ∧ FramingError.ofSize? h.declaredSize = some e := by
  cases hh : Header.ofBytes? bs with
  | none => simp [first, hh]
  | some h =>
    rw [first_of_header hh]
    cases hs : FramingError.ofSize? h.declaredSize with
    | some e => simp [hs]
    | none =>
      rcases Nat.lt_or_ge bs.length h.declaredSize with hlt | hge
      · simp [hlt, hs]
      · simp [Nat.not_lt.2 hge, hs]

theorem append_of_first (h : first bs = .ok (some (packet, rest))) : packet ++ rest = bs := by
  obtain ⟨_, _, _, _, rfl, rfl⟩ := first_eq_some_iff.1 h
  exact List.take_append_drop _ _

theorem headerLength_le_of_first (h : first bs = .ok (some (packet, rest))) :
    headerLength ≤ packet.length := by
  obtain ⟨h, _, hs, hl, rfl, _⟩ := first_eq_some_iff.1 h
  rw [List.length_take, Nat.min_eq_left hl]
  exact FramingError.headerLength_le_of_ofSize? hs

theorem first_append_of_some (h : first as = .ok (some (packet, rest))) (bs : Bytes) :
    first (as ++ bs) = .ok (some (packet, rest ++ bs)) := by
  obtain ⟨header, hh, hs, hl, rfl, rfl⟩ := first_eq_some_iff.1 h
  refine first_eq_some_iff.2 ⟨header, Header.ofBytes?_append hh bs, hs, ?_, ?_, ?_⟩
  · rw [List.length_append]; omega
  · rw [List.take_append_of_le_length hl]
  · rw [List.drop_append_of_le_length hl]

theorem first_append_of_error (h : first as = .error e) (bs : Bytes) :
    first (as ++ bs) = .error e := by
  obtain ⟨h, hh, hs⟩ := first_eq_error_iff.1 h
  exact first_eq_error_iff.2 ⟨h, Header.ofBytes?_append hh bs, hs⟩

/-! ## The whole stream -/

theorem ofBytes_of_none (h : first bs = .ok none) : ofBytes bs = ⟨[], none, bs⟩ := by
  rw [ofBytes]
  split <;> simp_all

theorem ofBytes_of_error (h : first bs = .error e) : ofBytes bs = ⟨[], some e, bs⟩ := by
  rw [ofBytes]
  split <;> simp_all

theorem ofBytes_of_some (h : first bs = .ok (some (packet, rest))) :
    ofBytes bs = ⟨packet :: (ofBytes rest).packets, (ofBytes rest).error, (ofBytes rest).rest⟩ := by
  rw [ofBytes]
  split <;> simp_all

@[simp] theorem ofBytes_nil : ofBytes [] = ⟨[], none, []⟩ :=
  ofBytes_of_none rfl

/-- Induction on a stream, packet by packet. -/
theorem stream_induction {motive : Bytes → Prop}
    (wait : ∀ bs, first bs = .ok none → motive bs)
    (fail : ∀ bs e, first bs = .error e → motive bs)
    (packet : ∀ bs p rest, first bs = .ok (some (p, rest)) → motive rest → motive bs)
    (bs : Bytes) : motive bs := by
  induction hn : bs.length using Nat.strong_induction_on generalizing bs with
  | _ n ih =>
    cases h : first bs with
    | error e => exact fail bs e h
    | ok o =>
      cases o with
      | none => exact wait bs h
      | some pr => exact packet bs pr.1 pr.2 h (ih _ (hn ▸ length_rest_lt h) _ rfl)

theorem flatten_packets_append_rest (bs : Bytes) :
    (ofBytes bs).packets.flatten ++ (ofBytes bs).rest = bs := by
  induction bs using stream_induction with
  | wait bs h => simp [ofBytes_of_none h]
  | fail bs e h => simp [ofBytes_of_error h]
  | packet bs p rest h ih =>
    rw [ofBytes_of_some h, List.flatten_cons, List.append_assoc, ih, append_of_first h]

theorem first_rest (h : (ofBytes bs).error = none) : first (ofBytes bs).rest = .ok none := by
  induction bs using stream_induction with
  | wait bs hb => simpa [ofBytes_of_none hb] using hb
  | fail bs e hb => simp [ofBytes_of_error hb] at h
  | packet bs p rest hb ih =>
    rw [ofBytes_of_some hb] at h ⊢
    exact ih h

theorem ofBytes_append_of_error (h : (ofBytes as).error = some e) (bs : Bytes) :
    ofBytes (as ++ bs) = ⟨(ofBytes as).packets, some e, (ofBytes as).rest ++ bs⟩ := by
  induction as using stream_induction with
  | wait as ha => simp [ofBytes_of_none ha] at h
  | fail as e' ha =>
    simp only [ofBytes_of_error ha, Option.some.injEq] at h ⊢
    rw [ofBytes_of_error (first_append_of_error ha bs), h]
  | packet as p rest ha ih =>
    rw [ofBytes_of_some ha] at h ⊢
    rw [ofBytes_of_some (first_append_of_some ha bs), ih h]

/-- Without an error, framing goes on with the octets after the last packet. -/
theorem ofBytes_append (h : (ofBytes as).error = none) (bs : Bytes) :
    ofBytes (as ++ bs) =
      ⟨(ofBytes as).packets ++ (ofBytes ((ofBytes as).rest ++ bs)).packets,
        (ofBytes ((ofBytes as).rest ++ bs)).error, (ofBytes ((ofBytes as).rest ++ bs)).rest⟩ := by
  induction as using stream_induction with
  | wait as ha => simp [ofBytes_of_none ha]
  | fail as e ha => simp [ofBytes_of_error ha] at h
  | packet as p rest ha ih =>
    rw [ofBytes_of_some ha] at h ⊢
    rw [ofBytes_of_some (first_append_of_some ha bs), ih h, List.cons_append]

theorem packets_isPrefix_append (as bs : Bytes) :
    (ofBytes as).packets <+: (ofBytes (as ++ bs)).packets := by
  cases he : (ofBytes as).error with
  | some e => exact (congrArg Framing.packets (ofBytes_append_of_error he bs)) ▸ List.prefix_rfl
  | none =>
    rw [ofBytes_append he]
    exact List.prefix_append ..

end Framing

theorem Ring.takePacket_eq (r : Ring) :
    r.takePacket =
      (Framing.first r.toList).map (Option.map fun pr => (pr.1, r.skip pr.1.length)) := by
  have hhead : (r.peek? headerLength).bind Header.ofBytes? = Header.ofBytes? r.toList := by
    rw [peek?_eq]
    split
    · exact Header.ofBytes?_take _
    · next h => exact (Header.ofBytes?_eq_none_iff.2 (Nat.not_le.1 h)).symm
  rw [takePacket, hhead]
  cases hh : Header.ofBytes? r.toList with
  | none => simp [Framing.first, hh]; rfl
  | some h =>
    rw [Framing.first_of_header hh]
    cases hs : FramingError.ofSize? h.declaredSize with
    | some e => simp only [hs]; rfl
    | none =>
      simp only [hs, peek?_eq]
      rcases Nat.lt_or_ge r.toList.length h.declaredSize with hlt | hge
      · simp only [hlt, Nat.not_le.2 hlt, if_true, if_false]; rfl
      · simp only [hge, Nat.not_lt.2 hge, if_true, if_false, consume_eq_skip, ← length_toList,
          Nat.min_eq_left hge, Except.map, Option.map, List.length_take]

theorem Ring.toList_skip_packets (r : Ring) :
    (r.skip (Framing.ofBytes r.toList).packets.flatten.length).toList =
      (Framing.ofBytes r.toList).rest := by
  set f := Framing.ofBytes r.toList
  have hsplit : f.packets.flatten ++ f.rest = r.toList := Framing.flatten_packets_append_rest _
  have hlen := congrArg List.length hsplit
  rw [List.length_append, length_toList] at hlen
  rw [toList_skip (by omega)]
  calc r.toList.drop f.packets.flatten.length
      = (f.packets.flatten ++ f.rest).drop f.packets.flatten.length := by rw [hsplit]
    _ = f.rest := List.drop_left

end ChatRelay
