import ChatRelay.Proofs.Relay.Moves
import Mathlib.Data.List.Nodup
import Mathlib.Data.List.Perm.Basic

/-! # Slots and leases

Two records say which slots are in the pool: the list of those that are free, and a flag of each
session. Whatever is asked of a relay, and in whatever order, both say the same, and no slot is
free twice.
-/

namespace ChatRelay

variable {S : Type}

/-- What may be asked of a relay. Nothing is taken for granted about when: a slot may be released
that was never taken, or twice, and a connection may begin anywhere. -/
inductive Errand where
  | acquire
  | release (slot : Nat)
  | begin (slot : Nat) (id : SessionId) (l : Link)
  | reset (slot : Nat)
  | register (slot : Nat) (id : SessionId) (name token : String)
  | unregister (slot : Nat)
  | depart (slot : Nat) (id : SessionId)
  | send (slot : Nat) (target : Option SessionId) (packet : Bytes)
  | sent (slot : Nat) (id : SessionId)
  | receive (slot : Nat) (id : SessionId) (bs : Bytes)
  | armRead (slot : Nat) (id : SessionId)

namespace Relay

def perform (r : Relay S) : Errand → Relay S
  | .acquire =>
    match r.acquire with
    | some (_, r') => r'
    | none => r
  | .release slot => r.release slot
  | .begin slot id l => r.begin slot id l
  | .reset slot => r.reset slot
  | .register slot id name token => (r.register slot id name token).2
  | .unregister slot => r.unregister slot
  | .depart slot id => (r.depart slot id).2
  | .send slot target packet => (r.send slot target packet).2
  | .sent slot id => r.sent slot id
  | .receive slot id bs => (r.receive slot id bs).2
  | .armRead slot id => (r.armRead slot id).2

def performAll (r : Relay S) (es : List Errand) : Relay S :=
  es.foldl perform r

variable {r r' : Relay S} {slot k : Nat}

/-! ## Counting slots -/

theorem pool_eq (r : Relay S) : r.pool = (List.range r.capacity).map r.session := by
  apply List.ext_getElem
  · simp [capacity]
  · intro k hk _
    rw [List.getElem_map, List.getElem_range, session_eq_getElem hk]

theorem countP_pool (p : Session → Bool) (r : Relay S) :
    r.pool.countP p = ((List.range r.capacity).filter fun k => p (r.session k)).length := by
  rw [pool_eq, List.countP_map, List.countP_eq_length_filter]
  rfl

theorem available_add_countP {p : Session → Bool} (hnodup : r.free.Nodup)
    (hmem : ∀ k, k ∈ r.free ↔ k < r.capacity ∧ p (r.session k) = false) :
    r.available + r.pool.countP p = r.capacity := by
  have hperm : r.free.Perm ((List.range r.capacity).filter fun k => !p (r.session k)) := by
    apply (List.perm_ext_iff_of_nodup hnodup (List.nodup_range.filter _)).2
    simp [hmem]
  have hsplit := List.length_eq_length_filter_add (l := List.range r.capacity)
    fun k => p (r.session k)
  rw [List.length_range] at hsplit
  rw [available, hperm.length_eq, countP_pool, Nat.add_comm]
  exact hsplit.symm

/-! ## What leaves both records alone -/

structure SameLeases (r r' : Relay S) : Prop where
  free : r'.free = r.free
  capacity : r'.capacity = r.capacity
  leased : ∀ k, (r'.session k).leased = (r.session k).leased

theorem sameLeases_put {s : Session} (ls : Links) (h : s.leased = (r.session slot).leased) :
    SameLeases r (r.put slot (s, ls)) := by
  constructor
  · rfl
  · exact capacity_put ..
  · intro k
    rw [session_put, session_setSession]
    split
    · next hk => rw [h, hk.1]
    · rfl

theorem sameLeases_register (r : Relay S) (slot : Nat) (id : SessionId) (name token : String) :
    SameLeases r (r.register slot id name token).2 := by
  constructor
  · rcases register_cases r slot id name token with ⟨-, he⟩ | ⟨-, -, he⟩ | ⟨s, -, -, he⟩ <;> rw [he]
    rfl
  · exact capacity_register ..
  · intro k
    obtain ⟨p, u, t, hs⟩ := session_register r slot k id name token
    rw [hs]

theorem sameLeases_unregister (r : Relay S) (slot : Nat) : SameLeases r (r.unregister slot) := by
  rw [unregister_eq]
  exact ⟨rfl, rfl, fun _ => rfl⟩

theorem sameLeases_depart (r : Relay S) (slot : Nat) (id : SessionId) :
    SameLeases r (r.depart slot id).2 := by
  rcases depart_cases r slot id with ⟨-, he⟩ | ⟨-, he⟩ <;> rw [he]
  · exact ⟨rfl, rfl, fun _ => rfl⟩
  · exact sameLeases_put r.links rfl

theorem sameLeases_send (r : Relay S) (slot : Nat) (target : Option SessionId) (packet : Bytes) :
    SameLeases r (r.send slot target packet).2 := by
  obtain ⟨q, b, hs⟩ := (r.session slot).send_eq target packet r.links
  have hleased : ((r.session slot).send target packet r.links).2.1.leased =
      (r.session slot).leased := by rw [hs]
  exact sameLeases_put _ hleased

theorem sameLeases_sent (r : Relay S) (slot : Nat) (id : SessionId) :
    SameLeases r (r.sent slot id) := by
  obtain ⟨q, b, hs⟩ := (r.session slot).sent_eq id r.links
  have hleased : ((r.session slot).sent id r.links).1.leased = (r.session slot).leased := by rw [hs]
  exact sameLeases_put _ hleased

theorem sameLeases_receive (r : Relay S) (slot : Nat) (id : SessionId) (bs : Bytes) :
    SameLeases r (r.receive slot id bs).2 := by
  obtain ⟨ring, hs⟩ := (r.session slot).receive_eq id bs
  rw [receive_eq_setSession, hs]
  exact sameLeases_put r.links rfl

/-! ## Both records -/

/-- A slot is free exactly if its session is not leased, and no slot is free twice. -/
structure Pooled (r : Relay S) : Prop where
  nodup : r.free.Nodup
  mem_iff : ∀ k, k ∈ r.free ↔ k < r.capacity ∧ (r.session k).leased = false

theorem pooled_start (capacity : Nat) (limits : Limits) (store : S) :
    Pooled (Relay.start capacity limits store) := by
  constructor
  · exact List.nodup_range
  · intro k
    rw [session_start]
    simp [Relay.start, Relay.capacity, Session.idle]

namespace Pooled

variable (h : Pooled r)

include h

theorem frame (hs : SameLeases r r') : Pooled r' := by
  constructor
  · rw [hs.free]
    exact h.nodup
  · intro k
    rw [hs.free, hs.capacity, hs.leased]
    exact h.mem_iff k

theorem acquire_eq_none_iff :
    r.acquire = none ↔ ∀ k < r.capacity, (r.session k).leased = true := by
  have hfree : r.acquire = none ↔ r.free = [] := by
    unfold Relay.acquire
    split <;> simp_all
  rw [hfree, List.eq_nil_iff_forall_not_mem]
  simp [h.mem_iff]

theorem leased_of_acquire (ha : r.acquire = some (slot, r')) :
    slot < r.capacity ∧ (r.session slot).leased = false ∧
      ∀ k, (r'.session k).leased = if slot = k then true else (r.session k).leased := by
  obtain ⟨free, hfree, rfl⟩ := acquire_eq_some_iff.1 ha
  obtain ⟨hlt, hleased⟩ := (h.mem_iff slot).1 (by simp [hfree])
  refine ⟨hlt, hleased, fun k => ?_⟩
  have hs := session_setSession r slot k { r.session slot with leased := true }
  refine (congrArg Session.leased hs).trans ?_
  rcases eq_or_ne slot k with rfl | hne
  · simp [hlt]
  · simp [hne]

theorem acquire (ha : r.acquire = some (slot, r')) : Pooled r' := by
  obtain ⟨-, -, hleased⟩ := h.leased_of_acquire ha
  obtain ⟨free, hfree, rfl⟩ := acquire_eq_some_iff.1 ha
  have hnodup := h.nodup
  rw [hfree, List.nodup_cons] at hnodup
  constructor
  · exact hnodup.2
  · intro k
    have hk := h.mem_iff k
    rw [hfree, List.mem_cons] at hk
    rw [hleased k]
    change k ∈ free ↔ k < (r.setSession slot _).capacity ∧ _
    rw [capacity_setSession]
    rcases eq_or_ne slot k with rfl | hne
    · simp [hnodup.1]
    · simp [hne, ← hk, hne.symm]

theorem release (slot : Nat) : Pooled (r.release slot) := by
  constructor
  · rw [free_release]
    split
    · next hleased =>
      apply List.nodup_cons.2
      constructor
      · rw [h.mem_iff, hleased]
        simp
      · exact h.nodup
    · exact h.nodup
  · intro k
    rw [free_release, capacity_release, leased_release]
    rcases eq_or_ne slot k with rfl | hne
    · split
      · next hleased => simp [lt_capacity_of_leased hleased]
      · next hleased => simp [h.mem_iff, hleased]
    · split <;> simp [h.mem_iff, hne.symm]

theorem perform (e : Errand) : Pooled (r.perform e) := by
  cases e with
  | acquire =>
    simp only [Relay.perform]
    split
    · next ha => exact h.acquire ha
    · exact h
  | release slot => exact h.release slot
  | begin slot id l => exact (h.frame ⟨rfl, rfl, fun _ => rfl⟩).frame (sameLeases_put _ rfl)
  | reset slot => exact h.frame (sameLeases_put _ rfl)
  | register slot id name token => exact h.frame (sameLeases_register ..)
  | unregister slot => exact h.frame (sameLeases_unregister ..)
  | depart slot id => exact h.frame (sameLeases_depart ..)
  | send slot target packet => exact h.frame (sameLeases_send ..)
  | sent slot id => exact h.frame (sameLeases_sent ..)
  | receive slot id bs => exact h.frame (sameLeases_receive ..)
  | armRead slot id => exact h.frame ⟨rfl, rfl, fun _ => rfl⟩

theorem performAll (es : List Errand) : Pooled (r.performAll es) := by
  induction es generalizing r with
  | nil => exact h
  | cons e es ih => exact ih (h.perform e)

end Pooled

theorem capacity_perform (r : Relay S) (e : Errand) : (r.perform e).capacity = r.capacity := by
  cases e with
  | acquire =>
    simp only [perform]
    split
    · next ha =>
      obtain ⟨free, -, rfl⟩ := acquire_eq_some_iff.1 ha
      exact capacity_setSession ..
    · rfl
  | release slot => exact capacity_release ..
  | begin slot id l => exact capacity_put ..
  | reset slot => exact capacity_put ..
  | register slot id name token => exact capacity_register ..
  | unregister slot => exact (sameLeases_unregister r slot).capacity
  | depart slot id => exact capacity_depart ..
  | send slot target packet => exact capacity_send ..
  | sent slot id => exact capacity_sent ..
  | receive slot id bs => exact capacity_receive ..
  | armRead slot id => rfl

theorem capacity_performAll (r : Relay S) (es : List Errand) :
    (r.performAll es).capacity = r.capacity := by
  induction es generalizing r with
  | nil => rfl
  | cons e es ih => exact (ih (r.perform e)).trans (capacity_perform r e)

/-- Whatever was asked of a relay, its free slots are those whose sessions are not leased, each of
them once. So a slot is to be had unless all are leased, one that is handed out was not leased
before, one that comes back was and is to be had again, and those that are free and those that are
leased add up. -/
theorem free_iff_unleased (capacity : Nat) (limits : Limits) (store : S) (es : List Errand) :
    let r := (Relay.start capacity limits store).performAll es
    r.capacity = capacity ∧ r.free.Nodup ∧
      (∀ slot, slot ∈ r.free ↔ slot < capacity ∧ (r.session slot).leased = false) ∧
      (r.acquire = none ↔ ∀ slot < capacity, (r.session slot).leased = true) ∧
      (∀ slot r', r.acquire = some (slot, r') →
        slot < capacity ∧ (r.session slot).leased = false ∧ r.free = slot :: r'.free ∧
          ∀ k, (r'.session k).leased = if slot = k then true else (r.session k).leased) ∧
      (∀ slot, (r.release slot).free =
          (if (r.session slot).leased = true then slot :: r.free else r.free) ∧
        ∀ k, ((r.release slot).session k).leased =
          if slot = k then false else (r.session k).leased) ∧
      r.available + r.pool.countP Session.leased = capacity := by
  intro r
  have h : Pooled r := (pooled_start capacity limits store).performAll es
  have hcapacity : r.capacity = capacity :=
    (capacity_performAll _ es).trans (by simp [Relay.start, Relay.capacity])
  have hcount := available_add_countP h.nodup h.mem_iff
  have hnone := h.acquire_eq_none_iff
  have hmem := h.mem_iff
  rw [hcapacity] at hcount hnone
  simp only [hcapacity] at hmem
  refine ⟨hcapacity, h.nodup, hmem, hnone, ?_, ?_, hcount⟩
  · rintro slot r' ha
    obtain ⟨hlt, hfree, hleased⟩ := h.leased_of_acquire ha
    obtain ⟨free, hcons, rfl⟩ := acquire_eq_some_iff.1 ha
    exact ⟨hcapacity ▸ hlt, hfree, hcons, hleased⟩
  · exact fun slot => ⟨free_release r slot, fun k => leased_release r slot k⟩

example : ((Relay.start 2 .standard ()).performAll
    [.acquire, .acquire, .release 1, .release 1, .release 0, .release 5]).free = [0, 1] := by
  decide

end Relay

end ChatRelay
