import ChatRelay.Proofs.Armed
import Mathlib.Data.Nat.ModEq

/-! # Ids in the long run

Ids are given out in turn, and the last one is followed by the first, whoever still has it. Two
connections have the same id exactly if all ids were given out, once or several times, between the
first of them and the second.
-/

namespace ChatRelay.Engine

open Relation (ReflTransGen)
open Relay

variable {S : Type} {v : Service S} {e : Engine S} {slot k : Nat} {id : SessionId} {i : LinkId}
  {m n : Nat} {before steps : List Step}

/-! ## The order of ids -/

def idCount : Nat :=
  UInt32.size - 1

def nthId (n : Nat) : SessionId :=
  UInt32.ofNat (n % idCount + 1)

theorem toNat_nthId (n : Nat) : (nthId n).toNat = n % idCount + 1 := by
  have hlt : n % idCount < idCount := Nat.mod_lt n (by decide)
  rw [nthId, UInt32.toNat_ofNat']
  exact Nat.mod_eq_of_lt (Nat.add_lt_of_lt_sub hlt)

theorem nthId_eq_iff : nthId m = nthId n ↔ m ≡ n [MOD idCount] := by
  rw [← UInt32.toNat_inj, toNat_nthId, toNat_nthId, Nat.add_right_cancel_iff, Nat.ModEq]

theorem nthId_succ (n : Nat) :
    (if nthId n + 1 = 0 then 1 else nthId n + 1) = nthId (n + 1) := by
  have hcount : idCount = 4294967295 := rfl
  have hnext : (nthId n + 1).toNat = (n % idCount + 2) % 2 ^ 32 := by
    rw [UInt32.toNat_add, toNat_nthId]
    rfl
  have hzero : nthId n + 1 = 0 ↔ (nthId n + 1).toNat = 0 := UInt32.toNat_inj.symm
  apply UInt32.toNat_inj.1
  rw [toNat_nthId, apply_ite UInt32.toNat]
  simp only [hzero, hnext, hcount]
  split
  · change 1 = _
    omega
  · omega

example : nthId 4294967294 = 4294967295 ∧ nthId 4294967295 = 1 := by decide

/-- Whether the step gives an id out: it does if a connection comes in, the engine is running, and
there is a slot left. -/
def draws (e : Engine S) : Step → Bool
  | .accept _ => e.running && !e.relay.free.isEmpty
  | _ => false

/-- How many ids the steps give out. -/
def issued (v : Service S) : Engine S → List Step → Nat
  | _, [] => 0
  | e, s :: steps => (e.draws s).toNat + issued v (e.step v s) steps

theorem issued_append (as bs : List Step) :
    e.issued v (as ++ bs) = e.issued v as + (e.run v as).issued v bs := by
  induction as generalizing e with
  | nil => exact (Nat.zero_add _).symm
  | cons s as ih =>
    rw [List.cons_append, issued, issued, ih, Nat.add_assoc]
    rfl

theorem accept_of_not_draws {c : Incoming} (h : e.draws (.accept c) = false) :
    e.accept c = (none, e) := by
  unfold accept
  split
  · rfl
  · next hrun =>
    have hfree : e.relay.free = [] := by
      rw [Bool.not_eq_true, Bool.not_eq_false'] at hrun
      simpa [draws, hrun] using h
    simp only [acquire, hfree]

theorem nextId_of_draws {c : Incoming} (h : e.draws (.accept c) = true) :
    (e.accept c).2.nextId = e.allocate.1 + 1 := by
  obtain ⟨hrun, hfree⟩ : e.running = true ∧ e.relay.free ≠ [] := by simpa [draws] using h
  obtain ⟨slot, free, hfree⟩ := List.exists_cons_of_ne_nil hfree
  simp only [accept, hrun, acquire, hfree, Bool.not_true, Bool.false_eq_true, if_false]
  split
  · rfl
  · split <;> rfl

theorem draws_of_accepted {c : Incoming} {x : Nat × SessionId} (h : (e.accept c).1 = some x) :
    e.draws (.accept c) = true := by
  by_contra hno
  rw [accept_of_not_draws (Bool.not_eq_true _ ▸ hno)] at h
  cases h

theorem id_of_accepted {c : Incoming} (h : (e.accept c).1 = some (slot, id)) :
    id = e.allocate.1 := by
  obtain he | ⟨j, r, -, ⟨hnone, -⟩ | ⟨-, hsome, -⟩ | ⟨-, hnone, -⟩⟩ := e.accept_eq c
  · rw [he] at h
    cases h
  · cases hnone.symm.trans h
  · exact (congrArg Prod.snd (Option.some.inj (hsome.symm.trans h))).symm
  · cases hnone.symm.trans h

theorem allocate_congr {e' : Engine S} (h : e'.nextId = e.nextId) :
    e'.allocate.1 = e.allocate.1 := by
  simp only [allocate, h]

theorem allocate_step (h : e.allocate.1 = nthId n) (s : Step) :
    (e.step v s).allocate.1 = nthId (n + (e.draws s).toNat) := by
  cases s with
  | accept c =>
    change (e.accept c).2.allocate.1 = _
    cases hdraws : e.draws (.accept c) with
    | false =>
      rw [accept_of_not_draws hdraws]
      exact h
    | true =>
      rw [Bool.toNat_true, ← nthId_succ, ← h, ← nextId_of_draws hdraws]
      rfl
  | complete c => exact (allocate_congr (nextId_complete e c)).trans h
  | halt => exact h
  | stop => exact (allocate_congr (nextId_endAll e.halt _)).trans h

theorem allocate_run (h : e.allocate.1 = nthId n) (steps : List Step) :
    (e.run v steps).allocate.1 = nthId (n + e.issued v steps) := by
  induction steps generalizing e n with
  | nil => exact h
  | cons s steps ih =>
    rw [issued, ← Nat.add_assoc]
    exact ih (allocate_step h s)

theorem allocate_run_start {capacity : Nat} {limits : Limits} {store : S} (steps : List Step) :
    ((start capacity limits store).run v steps).allocate.1 =
      nthId ((start capacity limits store).issued v steps) := by
  have hfirst : (start capacity limits store).allocate.1 = nthId 0 := rfl
  rw [allocate_run hfirst, Nat.zero_add]

/-! ## When a connection came in -/

/-- Whoever is served in slot `k` after the steps is the connection that came in right after the
steps `before`. -/
def CameIn (v : Service S) (e : Engine S) (steps before : List Step) (k : Nat) : Prop :=
  ∃ c id since, steps = before ++ .accept c :: since ∧
    ((e.run v before).accept c).1 = some (k, id) ∧
    ((e.run v steps).relay.session k).link = some (e.run v before).relay.links.length

theorem link_accept_or (hw : Wired e.relay) {c : Incoming}
    (hl : ((e.accept c).2.relay.session k).link = some i) :
    (e.relay.session k).link = some i ∨
      ∃ id, (e.accept c).1 = some (k, id) ∧ i = e.relay.links.length := by
  obtain he | ⟨j, r, ha, hcases⟩ := e.accept_eq c
  · rw [he] at hl
    exact .inl hl
  · by_cases hk : j = k
    · subst hk
      have hreleased (r : Relay S) : ((r.release j).session j).link ≠ some i := by
        have hnone := identity_release r j j
        rw [if_pos rfl] at hnone
        exact fun hl => nomatch (congrArg Identity.link hnone).symm.trans hl
      obtain ⟨-, he⟩ | ⟨-, hserved, -⟩ | ⟨-, -, he⟩ := hcases
      · exact absurd (he ▸ hl) (hreleased _)
      · have hbegun := (served_accepted hw hserved).1.link
        exact .inr ⟨_, hserved, Option.some.inj (hl.symm.trans hbegun)⟩
      · exact absurd (he ▸ hl) (hreleased _)
    · obtain ⟨hleased, -, hid⟩ := hw.acquired ha
      have hs := session_begin (lt_capacity_of_leased hleased) e.allocate.1
        (c.link j e.allocate.1) k
      rw [if_neg hk] at hs
      refine .inl ((congrArg Identity.link (hid k)).symm.trans ?_)
      obtain ⟨-, he⟩ | ⟨-, -, he⟩ | ⟨-, -, he⟩ := hcases <;> rw [he] at hl
      · rwa [session_release_ne hk] at hl
      · rwa [session_armRead, hs] at hl
      · rwa [session_release_ne hk, session_armRead, hs] at hl

section

variable (hv : v.Mute)

include hv

/-- A step by which somebody is served in slot `k` over a link that is not older is the one by which
that connection comes in. -/
theorem accepted_of_link (hw : Wired e.relay) {s : Step}
    (hl : ((e.step v s).relay.session k).link = some i) (hi : e.relay.links.length ≤ i) :
    ∃ c id, s = .accept c ∧ (e.accept c).1 = some (k, id) ∧ i = e.relay.links.length := by
  obtain ⟨c, rfl⟩ | hs := s.accept_or
  · obtain hold | ⟨id, hserved, heq⟩ := link_accept_or hw hl
    · exact absurd (hw.link_lt k i hold) (Nat.not_lt.2 hi)
    · exact ⟨c, id, rfl, hserved, heq⟩
  · have hacts : Acts e.relay (e.step v s).relay := (step_through hv hs).acts hv
    have hlength : (e.step v s).relay.links.length = e.relay.links.length := by
      simpa [labels] using congrArg List.length hacts.labels_eq
    have hlt := (hw.of_stirs hacts.stirs).link_lt k i hl
    exact absurd (hlength ▸ hlt) (Nat.not_lt.2 hi)

theorem exists_cameIn (hw : Wired e.relay) (hidle : ∀ k, (e.relay.session k).link = none)
    (hl : ((e.run v steps).relay.session k).link = some i) : ∃ before, CameIn v e steps before k := by
  induction steps using List.reverseRecOn generalizing i with
  | nil => cases (hidle k).symm.trans hl
  | append_singleton steps s ih =>
    have hw' := hw.of_stirs (run_stirs (mute_stir hv) hw steps)
    have hlast : e.run v (steps ++ [s]) = (e.run v steps).step v s := run_append ..
    rw [hlast] at hl
    rcases Nat.lt_or_ge i (e.run v steps).relay.links.length with hi | hi
    · have hages := ages_of_stirs (step_stirs (mute_stir hv) hw' s) hl hi
      obtain ⟨before, c, id, since, hsteps, hserved, hlink⟩ := ih (hages.link.symm.trans hl)
      refine ⟨before, c, id, since ++ [s], ?_, hserved, ?_⟩
      · rw [hsteps, List.append_assoc, List.cons_append]
      · rw [hlast, hages.link, hlink]
    · obtain ⟨c, id, rfl, hserved, rfl⟩ := accepted_of_link hv hw' hl hi
      exact ⟨steps, c, id, [], rfl, hserved, hlast ▸ hl⟩

theorem CameIn.id_eq (hw : Wired e.relay) (h : CameIn v e steps before k) :
    ((e.run v steps).relay.session k).id = (e.run v before).allocate.1 := by
  obtain ⟨c, id, since, rfl, hserved, hlink⟩ := h
  have hw₀ := hw.of_stirs (run_stirs (mute_stir hv) hw before)
  have hw₁ : Wired ((e.run v before).accept c).2.relay :=
    hw₀.of_stirs (step_stirs (mute_stir hv) hw₀ (.accept c))
  have hlast : e.run v (before ++ .accept c :: since) =
      ((e.run v before).accept c).2.run v since := run_append ..
  obtain ⟨hbegun, -, -⟩ := served_accepted hw₀ hserved
  rw [hlast] at hlink ⊢
  have hages := ages_of_stirs (run_stirs (mute_stir hv) hw₁ since) hlink
    (hw₁.link_lt k _ hbegun.link)
  exact (hages.id.trans hbegun.id).trans (id_of_accepted hserved)

end

/-- Of two moments, more ids were given out before the later one if a connection came in between. -/
theorem CameIn.issued_lt (h : CameIn v e steps before k) {later : List Step}
    (hlater : later <+: steps) (hlt : before.length < later.length) :
    e.issued v before < e.issued v later := by
  obtain ⟨c, id, since, rfl, hserved, -⟩ := h
  have hfirst : before ++ [.accept c] <+: before ++ .accept c :: since :=
    ⟨since, by rw [List.append_assoc, List.singleton_append]⟩
  obtain ⟨more, rfl⟩ := List.prefix_of_prefix_length_le hfirst hlater
    (by rw [List.length_append]; exact hlt)
  rw [issued_append, issued_append, issued, draws_of_accepted hserved, Bool.toNat_true]
  omega

theorem CameIn.isPrefix (h : CameIn v e steps before k) : before <+: steps := by
  obtain ⟨c, id, since, rfl, -⟩ := h
  exact List.prefix_append ..

theorem CameIn.lt_issued (h : CameIn v e steps before k) : e.issued v before < e.issued v steps :=
  h.issued_lt List.prefix_rfl (by
    obtain ⟨c, id, since, rfl, -⟩ := h
    rw [List.length_append, List.length_cons]
    omega)

theorem CameIn.slot_eq {j : Nat} {before' : List Step} (h : CameIn v e steps before j)
    (h' : CameIn v e steps before' k) (hissued : e.issued v before = e.issued v before') :
    j = k := by
  have hlength : before.length = before'.length := by
    rcases Nat.lt_trichotomy before.length before'.length with hlt | heq | hgt
    · exact absurd hissued (h.issued_lt h'.isPrefix hlt).ne
    · exact heq
    · exact absurd hissued (h'.issued_lt h.isPrefix hgt).ne'
  obtain rfl : before = before' := by
    rw [List.prefix_iff_eq_take.1 h.isPrefix, List.prefix_iff_eq_take.1 h'.isPrefix, hlength]
  obtain ⟨c, id, since, hsteps, hserved, -⟩ := h
  obtain ⟨c', id', since', hsteps', hserved', -⟩ := h'
  obtain ⟨hc, -⟩ := List.cons.inj (List.append_cancel_left (hsteps.symm.trans hsteps'))
  cases hc
  exact congrArg Prod.fst (Option.some.inj (hserved.symm.trans hserved'))

/-- No two connections that are served have the same id. -/
def DistinctIds (e : Engine S) : Prop :=
  ∀ j k, (e.relay.session j).isLive = true → (e.relay.session k).isLive = true →
    (e.relay.session j).id = (e.relay.session k).id → j = k

/-- However long an engine runs and whatever its store answers: the next id is never 0, and everybody
who is served has the id whose turn it was when the connection came in. No two of them share an id
exactly if no two of them came in a multiple of `idCount` ids apart, and none did as long as no id
was given out again. -/
theorem distinctIds_iff (answer : (c : StoreCall) → S → Except StoreError c.Answer × S)
    (token : Nat → String) (lifetime capacity : Nat) (limits : Limits) (store : S)
    (steps : List Step) :
    let v := Service.ofStore answer token lifetime
    let e₀ := start capacity limits store
    let e := e₀.run v steps
    e.allocate.1 = nthId (e₀.issued v steps) ∧ e.allocate.1 ≠ 0 ∧
      (∀ k, (e.relay.session k).isLive = true → ∃ before, CameIn v e₀ steps before k) ∧
      (∀ k before, CameIn v e₀ steps before k →
        (e.relay.session k).id = nthId (e₀.issued v before)) ∧
      (e.DistinctIds ↔ ∀ j k before before',
        (e.relay.session j).isLive = true → (e.relay.session k).isLive = true →
        CameIn v e₀ steps before j → CameIn v e₀ steps before' k →
        e₀.issued v before ≡ e₀.issued v before' [MOD idCount] → j = k) ∧
      (e₀.issued v steps ≤ idCount → e.DistinctIds) := by
  intro v e₀ e
  have hv : v.Mute := Service.ofStore_mute
  have hw : Wired e₀.relay := .start ..
  have hexists (k : Nat) (hlive : (e.relay.session k).isLive = true) :
      ∃ before, CameIn v e₀ steps before k := by
    obtain ⟨i, hl⟩ := Option.isSome_iff_exists.1 (Session.isLive_iff.1 hlive).1
    refine exists_cameIn hv hw (fun k => ?_) hl
    exact congrArg Session.link (session_start ..)
  have hid {k : Nat} {before : List Step} (h : CameIn v e₀ steps before k) :
      (e.relay.session k).id = nthId (e₀.issued v before) :=
    (h.id_eq hv hw).trans (allocate_run_start before)
  have hround {j k : Nat} (hj : (e.relay.session j).isLive = true)
      (hk : (e.relay.session k).isLive = true)
      (heq : (e.relay.session j).id = (e.relay.session k).id) :
      ∃ before before', CameIn v e₀ steps before j ∧ CameIn v e₀ steps before' k ∧
        e₀.issued v before ≡ e₀.issued v before' [MOD idCount] := by
    obtain ⟨before, h⟩ := hexists j hj
    obtain ⟨before', h'⟩ := hexists k hk
    rw [hid h, hid h', nthId_eq_iff] at heq
    exact ⟨before, before', h, h', heq⟩
  refine ⟨allocate_run_start steps, e.allocate_ne_zero, hexists, fun k before => hid, ⟨?_, ?_⟩, ?_⟩
  · intro hdistinct j k before before' hj hk h h' hmod
    refine hdistinct j k hj hk ?_
    rw [hid h, hid h', nthId_eq_iff]
    exact hmod
  · intro hapart j k hj hk heq
    obtain ⟨before, before', h, h', hmod⟩ := hround hj hk heq
    exact hapart j k before before' hj hk h h' hmod
  · intro hle j k hj hk heq
    obtain ⟨before, before', h, h', hmod⟩ := hround hj hk heq
    have hlt := h.lt_issued.trans_le hle
    have hlt' := h'.lt_issued.trans_le hle
    exact h.slot_eq h' (hmod.eq_of_lt_of_lt hlt hlt')

/-! ## A guest who stays for a whole round -/

theorem running_accept (e : Engine S) (c : Incoming) : (e.accept c).2.running = e.running := by
  unfold accept
  split
  · rfl
  · split
    · rfl
    · dsimp only
      split
      · rfl
      · split <;> rfl

theorem armRead_begin {r : Relay S} {l : Link} (hslot : slot < r.capacity)
    (hlink : (r.session slot).link = none) (hl : l.receiveAnswers.head = true) (id : SessionId) :
    ((r.begin slot id l).armRead slot id).1 = .ok () := by
  have hs := session_begin hslot id l slot
  rw [if_pos rfl] at hs
  have hasked (limit : Nat) :
      ((r.begin slot id l).links.receive r.links.length limit).1 = true := by
    rw [links_begin hlink, Links.receive, Links.ask, List.getElem?_concat_length]
    exact hl
  have hfree : (r.session slot).inbound.clear.free ≠ 0 := by
    have hempty := (r.session slot).inbound.clear.size_add_free
    have := (r.session slot).inbound.clear.two_le_size
    rw [← Ring.length_toList, Ring.toList_clear, List.length_nil] at hempty
    omega
  rw [Relay.armRead, hs]
  simp only [Session.armRead, Session.obstacle?, Session.cleared, hfree, ne_eq, not_true_eq_false,
    Option.isNone_some, Bool.false_eq_true, if_false]
  split
  · rfl
  · next hno =>
    have := hasked (min (r.session slot).limits.readChunk (r.session slot).inbound.clear.free)
    rw [hno] at this
    cases this

theorem accept_of_free (hw : Wired e.relay) (hrun : e.running = true) {free : List Nat}
    (hfree : e.relay.free = slot :: free) {c : Incoming} (husable : c.usable = true)
    (hanswer : c.receiveAnswers.head = true) : (e.accept c).1 = some (slot, e.allocate.1) := by
  have ha := acquire_eq_some_iff.2 ⟨free, hfree, rfl⟩
  obtain ⟨hleased, hlink, -⟩ := hw.acquired ha
  have harm := armRead_begin (l := c.link slot e.allocate.1) (lt_capacity_of_leased hleased) hlink
    hanswer e.allocate.1
  simp only [accept, hrun, ha, husable, Bool.not_true, Bool.false_eq_true, if_false]
  split
  · rfl
  · next hno =>
    rw [begin, hno] at harm
    cases harm

theorem disconnect_of_connected {r : Relay S} (h : r.Served i slot id)
    (hphase : (r.session slot).phase = .connected) (announced : Bool) :
    r.disconnect v slot id announced = (r.depart slot id).2.release slot := by
  rcases depart_cases r slot id with ⟨hno, -⟩ | ⟨-, he⟩
  · exact absurd ⟨h.id, h.isLive⟩ hno
  · have hname : (r.session slot).loggedInAs = none := by rw [Session.loggedInAs, hphase]; rfl
    rw [Relay.disconnect, he, hname]

/-- The first connection is served in slot 0, slot 1 is left, and `n` ids were given out. -/
structure Lone (e : Engine S) (n : Nat) : Prop where
  running : e.running = true
  wired : Wired e.relay
  free : e.relay.free = [1]
  next : e.allocate.1 = nthId n
  served : ∃ i, e.relay.Served i 0 1

/-- A connection comes in after `n` ids were given out, and it is closed by its peer. -/
def visit (n : Nat) : List Step :=
  [.accept (.ofPeer none), .complete (.received 1 (nthId n) (.ok []))]

section

variable (hv : v.Mute)

include hv

theorem Lone.after_visit (h : Lone e n) : Lone (e.run v (visit n)) (n + 1) := by
  set c := Incoming.ofPeer none
  set e₁ := (e.accept c).2
  have hserved : (e.accept c).1 = some (1, nthId n) :=
    h.next ▸ accept_of_free h.wired h.running h.free rfl rfl
  obtain ⟨hbegun, hphase, hfree⟩ := served_accepted h.wired hserved
  have hw₁ : Wired e₁.relay := h.wired.of_stirs (step_stirs (mute_stir hv) h.wired (.accept c))
  have hlast : e.run v (visit n) = e₁.disconnect v 1 (nthId n) :=
    if_pos (lt_capacity_of_isLive hbegun.isLive)
  have hrelay : (e.run v (visit n)).relay =
      (e₁.relay.depart 1 (nthId n)).2.release 1 := by
    rw [hlast]
    exact disconnect_of_connected hbegun hphase e₁.running
  have hleased : ((e₁.relay.depart 1 (nthId n)).2.session 1).leased = true := by
    have hlink := (ages_depart e₁.relay 1 (nthId n) 1).link.trans hbegun.link
    by_contra hno
    cases ((hw₁.depart 1 (nthId n)).unleased 1 (by simpa using hno)).symm.trans hlink
  constructor
  case running =>
    rw [hlast]
    exact (running_accept e c).trans h.running
  case wired => exact h.wired.of_stirs (run_stirs (mute_stir hv) h.wired _)
  case free =>
    have hkept : (e₁.relay.depart 1 (nthId n)).2.free = e₁.relay.free := by
      rcases depart_cases e₁.relay 1 (nthId n) with ⟨-, he⟩ | ⟨-, he⟩ <;> rw [he]
      rfl
    rw [hrelay, free_release, if_pos hleased, hkept, ← hfree, h.free]
  case next =>
    have hnext := allocate_run h.next (visit n) (v := v)
    rw [hnext, visit, issued, draws_of_accepted hserved]
    rfl
  case served =>
    obtain ⟨i, hstays⟩ := h.served
    refine ⟨i, (served_accept h.wired c hstays).1.congr ?_⟩
    rw [hrelay, identity_release, if_neg (by decide)]
    obtain hi | ⟨h10, -⟩ := identity_depart e₁.relay 1 0 (nthId n)
    · exact hi
    · cases h10

theorem Lone.after_visits (h : Lone e n) (m : Nat) :
    Lone (e.run v ((List.range m).flatMap fun i => visit (n + i))) (n + m) := by
  induction m with
  | zero => exact h
  | succ m ih =>
    rw [List.range_succ, List.flatMap_append, run_append, List.flatMap_singleton]
    exact ih.after_visit hv

theorem lone_of_first (hw : Wired e.relay) (hrun : e.running = true) (hfree : e.relay.free = [0, 1])
    (hnext : e.allocate.1 = 1) : Lone (e.step v (.accept (.ofPeer none))) 1 := by
  have hserved : (e.accept (.ofPeer none)).1 = some (0, 1) :=
    hnext ▸ accept_of_free hw hrun hfree rfl rfl
  obtain ⟨hbegun, -, hleft⟩ := served_accepted hw hserved
  constructor
  case running => exact (running_accept ..).trans hrun
  case wired => exact hw.of_stirs (step_stirs (mute_stir hv) hw _)
  case free => exact (List.cons.inj (hfree.symm.trans hleft)).2.symm
  case next =>
    have hfirst : e.allocate.1 = nthId 0 := hnext
    rw [allocate_step hfirst, draws_of_accepted hserved]
    rfl
  case served => exact ⟨_, hbegun⟩

omit hv in
/-- Whoever comes in when all ids were given out gets that of the first. -/
theorem Lone.shared (h : Lone e idCount) :
    ∃ i j, (e.step v (.accept (.ofPeer none))).relay.Served i 0 1 ∧
      (e.step v (.accept (.ofPeer none))).relay.Served j 1 1 := by
  have hnext : e.allocate.1 = 1 := h.next
  have hserved : (e.accept (.ofPeer none)).1 = some (1, 1) :=
    hnext ▸ accept_of_free h.wired h.running h.free rfl rfl
  obtain ⟨i, hstays⟩ := h.served
  exact ⟨i, _, (served_accept h.wired _ hstays).1, (served_accepted h.wired hserved).1⟩

end

theorem run_between (s s' : Step) (steps : List Step) :
    e.run v (s :: steps ++ [s']) = ((e.step v s).run v steps).step v s' :=
  run_append (s :: steps) [s']

/-- A connection comes in and stays. As many others as there are further ids come and go, and the
next one gets the id of the first. -/
theorem shared_id_after_visits :
    let v := Service.direct (fun _ => "t") 60
    let visits := (List.range (idCount - 1)).flatMap fun i => visit (1 + i)
    let e := (start 2 .standard Store.empty).run v
      (.accept (.ofPeer none) :: visits ++ [.accept (.ofPeer none)])
    (e.relay.session 0).isLive = true ∧ (e.relay.session 0).id = 1 ∧
      (e.relay.session 1).isLive = true ∧ (e.relay.session 1).id = 1 ∧ ¬ e.DistinctIds := by
  intro v visits e
  have hv : v.Mute := Service.ofStore_mute
  have hfirst := lone_of_first hv (e := start 2 .standard Store.empty) (.start ..) rfl rfl rfl
  obtain ⟨i, j, h₀, h₁⟩ := Lone.shared (v := v) (hfirst.after_visits hv (idCount - 1))
  have hlast := run_between (v := v) (e := start 2 .standard Store.empty)
    (.accept (.ofPeer none)) (.accept (.ofPeer none)) visits
  rw [show e = _ from hlast]
  refine ⟨h₀.isLive, h₀.id, h₁.isLive, h₁.id, fun hdistinct => ?_⟩
  have h01 := hdistinct 0 1 h₀.isLive h₁.isLive (h₀.id.trans h₁.id.symm)
  exact absurd h01 (by decide)

end ChatRelay.Engine
