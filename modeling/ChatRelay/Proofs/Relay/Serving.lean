import ChatRelay.Proofs.Relay.Chat

/-! # Serving, packet by packet

A drain takes one packet after another. The relay between any two of them is what serving so many
packets comes to, so whatever is brought about while packets are served is brought about by one.
-/

namespace ChatRelay.Relay

open Relation (ReflTransGen)

variable {S : Type} {v : Service S} {r : Relay S} {slot k : Nat} {id : SessionId} {packet : Bytes}
  {ring : Ring}

/-- The packet of connection `id` that is served next, and the ring without it. -/
def next? (r : Relay S) (slot : Nat) (id : SessionId) : Option (Bytes × Ring) :=
  match (r.session slot).obstacle? id, (r.session slot).inbound.takePacket with
  | none, .ok taken? => taken?
  | _, _ => none

theorem next?_eq_some_iff : r.next? slot id = some (packet, ring) ↔
    (r.session slot).obstacle? id = none ∧
      (r.session slot).inbound.takePacket = .ok (some (packet, ring)) := by
  unfold next?
  split
  · next ho ht => simp [ho, ht]
  · next hno => exact ⟨nofun, fun ⟨ho, ht⟩ => absurd ht (hno _ ho)⟩

theorem first_of_next? (h : r.next? slot id = some (packet, ring)) :
    ∃ rest, Framing.first (r.session slot).inbound.toList = .ok (some (packet, rest)) ∧
      ring.toList = rest := by
  have ht := (next?_eq_some_iff.1 h).2
  rw [Ring.takePacket_eq] at ht
  rcases hf : Framing.first (r.session slot).inbound.toList with e | _ | ⟨p, rest⟩
  · rw [hf] at ht
    cases ht
  · rw [hf] at ht
    cases ht
  · rw [hf] at ht
    cases ht
    have hsplit := Framing.append_of_first hf
    have hlen := congrArg List.length hsplit
    rw [List.length_append, Ring.length_toList] at hlen
    refine ⟨rest, rfl, ?_⟩
    rw [Ring.toList_skip (Nat.le.intro hlen), ← hsplit, List.drop_left]

theorem serve_of_next?_eq_none (h : r.next? slot id = none) (limit : Nat) :
    (r.serve v slot id limit).2 = r := by
  cases limit with
  | zero => rfl
  | succ limit =>
    unfold serve
    split
    · rfl
    · next ho =>
      split
      · rfl
      · rfl
      · next packet ring ht =>
        rw [next?_eq_some_iff.2 ⟨ho, ht⟩] at h
        cases h

theorem serve_of_next?_eq_some (h : r.next? slot id = some (packet, ring)) (limit : Nat) :
    (r.serve v slot id (limit + 1)).2 =
      (((r.withInbound slot ring).handle v slot id packet).serve v slot id limit).2 := by
  obtain ⟨ho, ht⟩ := next?_eq_some_iff.1 h
  rw [serve, ho, ht]
  dsimp only
  rw [← withInbound]
  split
  · next h => rw [h]
  · next h => rw [h]

theorem serve_add (n m : Nat) (r : Relay S) :
    (r.serve v slot id (n + m)).2 = ((r.serve v slot id n).2.serve v slot id m).2 := by
  induction n generalizing r with
  | zero => rw [Nat.zero_add]; rfl
  | succ n ih =>
    cases hnext : r.next? slot id with
    | none => rw [serve_of_next?_eq_none hnext, serve_of_next?_eq_none hnext,
        serve_of_next?_eq_none hnext]
    | some taken =>
      rw [Nat.add_right_comm, serve_of_next?_eq_some hnext, serve_of_next?_eq_some hnext, ih]

theorem serve_succ_of_next? {n : Nat}
    (h : (r.serve v slot id n).2.next? slot id = some (packet, ring)) :
    (r.serve v slot id (n + 1)).2 =
      ((r.serve v slot id n).2.withInbound slot ring).handle v slot id packet := by
  rw [serve_add, serve_of_next?_eq_some h]
  rfl

/-- What holds once packets are served, and did not hold before, came about with one of them. -/
theorem serve_switch {Q : Relay S → Prop} {limit : Nat} (h : ¬ Q r)
    (hl : Q (r.serve v slot id limit).2) :
    ∃ n < limit, ¬ Q (r.serve v slot id n).2 ∧ Q (r.serve v slot id (n + 1)).2 ∧
      ((r.serve v slot id n).2.next? slot id).isSome := by
  induction limit with
  | zero => exact absurd hl h
  | succ limit ih =>
    by_cases hq : Q (r.serve v slot id limit).2
    · obtain ⟨n, hn, hrest⟩ := ih hq
      exact ⟨n, Nat.lt_succ_of_lt hn, hrest⟩
    · refine ⟨limit, Nat.lt_succ_self limit, hq, hl, ?_⟩
      by_contra hnext
      rw [serve_add, serve_of_next?_eq_none (Option.not_isSome_iff_eq_none.1 hnext)] at hl
      exact hq hl

theorem identity_withInbound (r : Relay S) (slot k : Nat) (ring : Ring) :
    ((r.withInbound slot ring).session k).identity = (r.session k).identity :=
  identity_setSession (s := { r.session slot with inbound := ring }) rfl k

section

variable (hd : v.Within Deed)

include hd

theorem identity_serve (slot : Nat) (id : SessionId) (limit : Nat)
    (hp : (r.session k).phase = .authenticated) :
    ((r.serve v slot id limit).2.session k).identity = (r.session k).identity := by
  induction limit generalizing r with
  | zero => rfl
  | succ limit ih =>
    cases hnext : r.next? slot id with
    | none => rw [serve_of_next?_eq_none hnext]
    | some taken =>
      have htaken := identity_withInbound r slot k taken.2
      have hphase := (congrArg Identity.phase htaken).trans hp
      have hhandled := identity_of_deeds (handle_deeds hd slot id taken.1 _) hphase
      rw [serve_of_next?_eq_some hnext,
        ih ((congrArg Identity.phase hhandled).trans hphase), hhandled, htaken]

theorem identity_of_served {name : String} {n m : Nat}
    (hname : ((r.serve v slot id (n + 1)).2.session k).nameOf id = some name) (hm : n < m) :
    ((r.serve v slot id m).2.session k).identity =
      ((r.serve v slot id (n + 1)).2.session k).identity := by
  obtain ⟨d, rfl⟩ := Nat.exists_eq_add_of_le hm
  rw [Nat.succ_eq_add_one, serve_add]
  exact identity_serve hd slot id d (Session.nameOf_eq_some_iff.1 hname).2.1

theorem getElem?_packets_of_next? {n : Nat}
    (h : (r.serve v slot id n).2.next? slot id = some (packet, ring)) :
    (Framing.ofBytes (r.session slot).inbound.toList).packets[n]? = some packet := by
  induction n generalizing r with
  | zero =>
    have hnow : r.next? slot id = some (packet, ring) := h
    obtain ⟨rest, hf, -⟩ := first_of_next? hnow
    rw [Framing.ofBytes_of_some hf]
    rfl
  | succ n ih =>
    cases hnext : r.next? slot id with
    | none =>
      rw [serve_of_next?_eq_none hnext, hnext] at h
      cases h
    | some taken =>
      obtain ⟨p, ring'⟩ := taken
      rw [serve_of_next?_eq_some hnext] at h
      have hrest := ih h
      obtain ⟨rest, hf, hring⟩ := first_of_next? hnext
      have hslot := lt_capacity_of_obstacle? (next?_eq_some_iff.1 hnext).1
      obtain ⟨_, _, _, _, _, hhandled⟩ :=
        session_eq_of_deeds (handle_deeds hd slot id p (r.withInbound slot ring')) slot
      rw [hhandled, session_withInbound_self hslot, hring] at hrest
      rw [Framing.ofBytes_of_some hf]
      exact hrest

end

end ChatRelay.Relay
