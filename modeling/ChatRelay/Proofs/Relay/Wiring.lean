import ChatRelay.Proofs.Outgoing
import ChatRelay.Proofs.Relay.Moves

/-! # Slots and links

A slot in the pool serves nobody, every connection has a link of its own, and a packet is in flight
whenever there is one to be sent.
-/

namespace ChatRelay.Relay

open Relation (ReflTransGen)

variable {S : Type} {r r' : Relay S} {slot j k : Nat} {id : SessionId}

/-- What holds of slots and links between any two moves. -/
structure Wired (r : Relay S) : Prop where
  link_lt : ∀ k l, (r.session k).link = some l → l < r.links.length
  link_injective : ∀ j k l, (r.session j).link = some l → (r.session k).link = some l → j = k
  sends : ∀ k, (r.session k).Sends
  unleased : ∀ k, (r.session k).leased = false → (r.session k).link = none
  free_nodup : r.free.Nodup
  free_lt : ∀ k ∈ r.free, k < r.capacity
  free_unleased : ∀ k ∈ r.free, (r.session k).leased = false

namespace Wired

variable (h : Wired r)

include h

theorem link_ne (hjk : j ≠ k) {l : LinkId} (hl : (r.session k).link = some l) :
    (r.session j).link ≠ some l :=
  fun hj => hjk (h.link_injective j k l hj hl)

theorem congr (hlink : ∀ k, (r'.session k).link = (r.session k).link)
    (hleased : ∀ k, (r'.session k).leased = (r.session k).leased)
    (hsends : ∀ k, (r'.session k).Sends)
    (hlinks : r.links.length ≤ r'.links.length) (hfree : r'.free = r.free)
    (hcapacity : r'.capacity = r.capacity) : Wired r' := by
  constructor
  case sends => exact hsends
  all_goals simp only [hlink, hleased, hfree, hcapacity]
  · exact fun k l hl => Nat.lt_of_lt_of_le (h.link_lt k l hl) hlinks
  · exact h.link_injective
  · exact h.unleased
  · exact h.free_nodup
  · exact h.free_lt
  · exact h.free_unleased

theorem setSession {s : Session} (hlink : s.link = (r.session j).link)
    (hleased : s.leased = (r.session j).leased)
    (hsends : s.Sends) : Wired (r.setSession j s) := by
  have hs := session_setSession r j
  refine h.congr (fun k => ?_) (fun k => ?_) (fun k => ?_) (Nat.le_refl _) rfl
    (capacity_setSession ..)
  · rw [hs]; split
    · next hk => rw [← hk.1, hlink]
    · rfl
  · rw [hs]; split
    · next hk => rw [← hk.1, hleased]
    · rfl
  · rw [hs]; split
    · exact hsends
    · exact h.sends k

theorem setLinks {ls : Links} (hlinks : r.links.length ≤ ls.length) :
    Wired { r with links := ls } :=
  h.congr (fun _ => rfl) (fun _ => rfl) h.sends hlinks rfl rfl

theorem send (j : Nat) (target : Option SessionId) (packet : Bytes) :
    Wired (r.send j target packet).2 := by
  obtain ⟨q, b, hs⟩ := (r.session j).send_eq target packet r.links
  have hset := h.setSession (j := j) (s := ((r.session j).send target packet r.links).2.1)
    (by rw [hs]) (by rw [hs]) (Session.Sends.send (h.sends j) target packet r.links)
  exact hset.setLinks (Nat.le_of_eq (Session.length_links_send ..).symm)

theorem sent (j : Nat) (id : SessionId) : Wired (r.sent j id) := by
  obtain ⟨q, b, hs⟩ := (r.session j).sent_eq id r.links
  have hset := h.setSession (j := j) (s := ((r.session j).sent id r.links).1)
    (by rw [hs]) (by rw [hs]) (Session.Sends.sent (h.sends j) id r.links)
  exact hset.setLinks (Nat.le_of_eq (Session.length_links_sent ..).symm)

theorem acquire (ha : r.acquire = some (slot, r')) : Wired r' := by
  obtain ⟨free, hfree, rfl⟩ := acquire_eq_some_iff.1 ha
  have hslot : slot < r.capacity := h.free_lt slot (hfree ▸ List.mem_cons_self)
  have hnodup := List.nodup_cons.1 (hfree ▸ h.free_nodup)
  have hmem {k : Nat} (hk : k ∈ free) : k ∈ r.free := hfree ▸ List.mem_cons_of_mem slot hk
  set s := { r.session slot with leased := true } with hs
  have hsession (k : Nat) : (r.setSession slot s).session k =
      if slot = k then s else r.session k := by
    rw [session_setSession]
    by_cases hk : slot = k
    · subst hk; simp [hslot]
    · simp [hk]
  have hlink (k : Nat) : ((r.setSession slot s).session k).link = (r.session k).link := by
    rw [hsession]; split
    · next hk => rw [← hk]
    · rfl
  have hother {k : Nat} (hk : slot ≠ k) : (r.setSession slot s).session k = r.session k := by
    rw [hsession, if_neg hk]
  refine ⟨fun k l hl => h.link_lt k l ((hlink k).symm.trans hl),
    fun j k l hj hk => h.link_injective j k l ((hlink j).symm.trans hj) ((hlink k).symm.trans hk),
    fun k => ?_, fun k hl => ?_, hnodup.2, fun k hk => ?_, fun k hk => ?_⟩
  · change ((r.setSession slot s).session k).Sends
    rw [hsession]; split
    · exact h.sends slot
    · exact h.sends k
  · have hk : slot ≠ k := by
      rintro rfl
      change ((r.setSession slot s).session slot).leased = false at hl
      rw [hsession, if_pos rfl] at hl
      cases hl
    exact (hlink k).trans (h.unleased k ((congrArg Session.leased (hother hk)).symm.trans hl))
  · exact (capacity_setSession r slot s).symm ▸ h.free_lt k (hmem hk)
  · have hne : slot ≠ k := by
      rintro rfl
      exact hnodup.1 hk
    exact (congrArg Session.leased (hother hne)).trans (h.free_unleased k (hmem hk))

theorem acquired (ha : r.acquire = some (slot, r')) :
    (r'.session slot).leased = true ∧ (r'.session slot).link = none ∧
      ∀ k, (r'.session k).identity = (r.session k).identity := by
  obtain ⟨free, hfree, rfl⟩ := acquire_eq_some_iff.1 ha
  have hmem : slot ∈ r.free := hfree ▸ List.mem_cons_self
  have hself : (r.setSession slot { r.session slot with leased := true }).session slot =
      { r.session slot with leased := true } := session_setSession_self (h.free_lt slot hmem) _
  refine ⟨congrArg Session.leased hself, ?_, identity_setSession rfl⟩
  exact (congrArg Session.link hself).trans (h.unleased slot (h.free_unleased slot hmem))

theorem ne_of_acquire (ha : r.acquire = some (slot, r')) (hl : (r.session k).link.isSome) :
    slot ≠ k := by
  rintro rfl
  obtain ⟨-, hlink, hi⟩ := h.acquired ha
  rw [← show (r'.session slot).link = (r.session slot).link from congrArg Identity.link (hi slot),
    hlink] at hl
  cases hl

theorem release (slot : Nat) : Wired (r.release slot) := by
  have hlink (k : Nat) : ((r.release slot).session k).link =
      if slot = k then none else (r.session k).link :=
    (congrArg Identity.link (identity_release r slot k)).trans (apply_ite Identity.link ..)
  have hstill {k : Nat} {l : LinkId} (hl : ((r.release slot).session k).link = some l) :
      slot ≠ k ∧ (r.session k).link = some l := by
    rw [hlink] at hl
    split at hl
    · cases hl
    · next hk => exact ⟨hk, hl⟩
  have hleased := leased_release r slot
  refine ⟨fun k l hl => ?_, fun j k l hj hk => ?_, fun k hl => ?_, fun k hl => ?_, ?_,
    fun k hk => ?_, fun k hk => ?_⟩
  · rw [links_release, Session.length_hangUp]
    exact h.link_lt k l (hstill hl).2
  · exact h.link_injective j k l (hstill hj).2 (hstill hk).2
  · obtain ⟨l, hl⟩ := Option.isSome_iff_exists.1 hl
    obtain ⟨hk, hl⟩ := hstill hl
    have hsome : (r.session k).link.isSome := by rw [hl]; rfl
    rw [session_release (lt_capacity_of_link hsome), if_neg hk]
    exact h.sends k hsome
  · rw [hlink]
    rw [hleased] at hl
    split
    · rfl
    · next hk => exact h.unleased k (by rwa [if_neg hk] at hl)
  · rw [free_release]
    split
    · next hl =>
      refine List.nodup_cons.2 ⟨fun hmem => ?_, h.free_nodup⟩
      rw [h.free_unleased slot hmem] at hl
      cases hl
    · exact h.free_nodup
  · rw [free_release] at hk
    rw [capacity_release]
    split at hk
    · next hl =>
      obtain rfl | hk := List.mem_cons.1 hk
      · exact lt_capacity_of_leased hl
      · exact h.free_lt k hk
    · exact h.free_lt k hk
  · rw [hleased]
    split
    · rfl
    · next hne =>
      rw [free_release] at hk
      split at hk
      · exact h.free_unleased k ((List.mem_cons.1 hk).resolve_left (Ne.symm hne))
      · exact h.free_unleased k hk

theorem begin (hleased : (r.session slot).leased = true) (id : SessionId) (l : Link) :
    Wired (r.begin slot id l) := by
  have hsession := session_begin (lt_capacity_of_leased hleased) id l
  have hlinks : (r.begin slot id l).links.length = r.links.length + 1 := by
    refine (Session.length_hangUp ..).trans ?_
    simp [addLink]
  have hfree : (r.begin slot id l).free = r.free := rfl
  have hcapacity : (r.begin slot id l).capacity = r.capacity := capacity_put ..
  refine ⟨fun k l hl => ?_, fun j k l hj hk => ?_, fun k => ?_, fun k hl => ?_, h.free_nodup,
    fun k hk => ?_, fun k hk => ?_⟩
  · rw [hsession] at hl
    rw [hlinks]
    split at hl
    · obtain rfl := Option.some.inj hl
      exact Nat.lt_succ_self _
    · exact Nat.lt_succ_of_lt (h.link_lt k l hl)
  · rw [hsession] at hj hk
    split at hj <;> split at hk
    · simp_all
    · cases hj; exact absurd (h.link_lt k _ hk) (Nat.lt_irrefl _)
    · cases hk; exact absurd (h.link_lt j _ hj) (Nat.lt_irrefl _)
    · exact h.link_injective j k l hj hk
  · rw [hsession]; split
    · exact fun _ => rfl
    · exact h.sends k
  · rw [hsession] at hl ⊢
    split at hl
    · next hk =>
      subst hk
      exact absurd (hleased.symm.trans hl) nofun
    · next hk => rw [if_neg hk, h.unleased k hl]
  · rw [hcapacity]
    exact h.free_lt k hk
  · rw [hsession]; split
    · exact h.free_unleased k hk
    · exact h.free_unleased k hk

theorem register (slot : Nat) (id : SessionId) (name token : String) :
    Wired (r.register slot id name token).2 := by
  rcases register_cases r slot id name token with ⟨-, he⟩ | ⟨-, -, he⟩ | ⟨s, -, ha, he⟩
  · rwa [he]
  · rw [he]
    exact h.congr (fun _ => rfl) (fun _ => rfl) h.sends (Nat.le_refl _) rfl rfl
  · obtain ⟨-, rfl⟩ := Session.authenticate_eq_some_iff.1 ha
    rw [he]
    have hset := h.setSession (j := slot)
      (s := { r.session slot with phase := .authenticated, username := name, token := some token })
      rfl rfl (h.sends slot)
    exact hset.congr (fun _ => rfl) (fun _ => rfl) hset.sends (Nat.le_refl _) rfl rfl

theorem depart (slot : Nat) (id : SessionId) : Wired (r.depart slot id).2 := by
  rcases depart_cases r slot id with ⟨-, he⟩ | ⟨-, he⟩
  · rwa [he]
  · rw [he]
    exact h.setSession rfl rfl (h.sends slot)

end Wired

theorem Deed.wired (hd : Deed r r') (h : Wired r) : Wired r' := by
  cases hd with
  | store => exact h.congr (fun _ => rfl) (fun _ => rfl) h.sends (Nat.le_refl _) rfl rfl
  | register slot id token _ => exact h.register slot id _ token
  | send slot target packet => exact h.send slot target packet

theorem Act.wired (ha : Act slot r r') (h : Wired r) : Wired r' := by
  cases ha with
  | deed hd => exact hd.wired h
  | acquire ha => exact h.acquire ha
  | depart id => exact h.depart slot id
  | release => exact h.release slot
  | sent id => exact h.sent slot id
  | armRead id => exact h.setLinks (Nat.le_of_eq (Session.length_links_armRead ..).symm)
  | receive id bs =>
    obtain ⟨ring, hs⟩ := (r.session slot).receive_eq id bs
    rw [receive_eq_setSession, hs]
    exact h.setSession rfl rfl (h.sends slot)
  | take _ => exact h.setSession rfl rfl (h.sends slot)

theorem Wired.of_acts (h : Wired r) (ha : ReflTransGen (Act slot) r r') : Wired r' := by
  induction ha with
  | refl => exact h
  | tail _ ha ih => exact ha.wired ih

theorem Move.wired (hm : Move r r') (h : Wired r) : Wired r' := by
  cases hm with
  | act ha => exact ha.wired h
  | connect l hleased _ _ => exact h.begin hleased _ l

theorem Wired.start (capacity : Nat) (limits : Limits) (store : S) :
    Wired (Relay.start capacity limits store) := by
  have hs := session_start capacity limits store
  constructor
  case free_nodup => exact List.nodup_range
  case free_lt => simp [Relay.start, Relay.capacity]
  all_goals simp only [hs]
  · simp [Session.idle]
  · simp [Session.idle]
  · simp [Session.Sends, Session.idle]
  · exact fun _ _ => rfl
  · exact fun _ _ => rfl

end ChatRelay.Relay
