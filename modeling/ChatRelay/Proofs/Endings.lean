import ChatRelay.Proofs.Origins
import ChatRelay.Proofs.Relay.Ending

/-! # One teardown for each connection

Connections are ended by what completes and by the engine when it stops, in any order and any number
of times. Of all these calls one ends a connection, if it has ended: it closes the link, returns the
slot, and if somebody was logged in and the engine is running, the others are told.
-/

namespace ChatRelay

open Relation (ReflTransGen)

variable {S : Type} {v : Service S}

namespace Relay

variable {r r' : Relay S} {slot k : Nat} {id : SessionId} {i : LinkId} {xs : List (Ending S)}

/-- The calls `xs` are made one after another, and between them nobody is torn down. -/
inductive Through (v : Service S) : Relay S → List (Ending S) → Relay S → Prop
  | nil {slot : Nat} {r r' : Relay S} : ReflTransGen (Bustle slot) r r' → Through v r [] r'
  | cons {slot : Nat} {r r' : Relay S} {x : Ending S} {xs : List (Ending S)} :
      ReflTransGen (Bustle slot) r x.relay → Through v (x.result v) xs r' →
      Through v r (x :: xs) r'

theorem through_refl (r : Relay S) : Through v r [] r :=
  @Through.nil _ _ 0 _ _ .refl

abbrev Acts : Relay S → Relay S → Prop :=
  ReflTransGen fun r r' => ∃ slot, Act slot r r'

theorem acts_of_act (ha : ReflTransGen (Act slot) r r') : Acts r r' :=
  ReflTransGen.mono (fun _ _ ha => ⟨slot, ha⟩) _ _ ha

theorem Acts.stirs (ha : Acts r r') : ReflTransGen Stir r r' :=
  ReflTransGen.mono (fun _ _ ⟨_, ha⟩ => .act ha) _ _ ha

theorem Acts.moves (ha : Acts r r') : ReflTransGen Move r r' :=
  ReflTransGen.mono (fun _ _ ⟨_, ha⟩ => .act ha) _ _ ha

namespace Through

theorem acts_of_mem (hv : v.Mute) (ht : Through v r xs r') {x : Ending S} (hx : x ∈ xs) :
    Acts r x.relay := by
  induction ht with
  | nil => cases hx
  | @cons _ _ _ y _ hb _ ih =>
    have hfirst := acts_of_act (acts_of_bustles hb)
    obtain rfl | hx := List.mem_cons.1 hx
    · exact hfirst
    · exact (hfirst.trans (acts_of_act (Ending.result_acts hv y))).trans (ih hx)

theorem acts (hv : v.Mute) (ht : Through v r xs r') : Acts r r' := by
  induction ht with
  | nil hb => exact acts_of_act (acts_of_bustles hb)
  | @cons _ _ _ y _ hb _ ih =>
    exact ((acts_of_act (acts_of_bustles hb)).trans (acts_of_act (Ending.result_acts hv y))).trans
      ih

theorem filter_of_over (hv : v.Mute) (ht : Through v r xs r') (h : r.Over i)
    (hi : i < r.links.length) : xs.filter (·.ends i) = [] := by
  rw [List.filter_eq_nil_iff]
  intro x hx hends
  have hover := h.of_stirs (ht.acts_of_mem hv hx).stirs hi
  exact hover x.slot (Ending.ends_iff.1 hends).1

/-- A connection that is served goes on being served, or one of the calls ends it. -/
theorem served_or (hv : v.Mute) (ht : Through v r xs r') (hw : Wired r)
    (h : r.Served i slot id) :
    r'.Served i slot id ∧ xs.filter (·.ends i) = [] ∨
      r'.Over i ∧ ∃ x ∈ xs, xs.filter (·.ends i) = [x] ∧ x.relay.Served i slot id ∧
        x.slot = slot ∧ x.id = id := by
  induction ht with
  | nil hb => exact .inl ⟨h.bustles hb, rfl⟩
  | @cons j r r' x xs hb ht ih =>
    have hfirst := acts_of_bustles hb
    have hwx := hw.of_acts hfirst
    have hx := h.bustles hb
    have hwr := hwx.of_acts (Ending.result_acts hv x)
    by_cases hhere : x.slot = slot ∧ x.id = id
    · obtain ⟨rfl, rfl⟩ := hhere
      have hends : x.ends i = true := Ending.ends_iff.2 ⟨hx.link, hx.id, hx.isLive⟩
      have hover := Ending.over_result hv hwx hends
      have hlt : i < (x.result v).links.length :=
        Nat.lt_of_lt_of_le (hwx.link_lt _ _ hx.link)
          (length_links_le_of_stirs (stirs_of_acts (Ending.result_acts hv x)))
      refine .inr ⟨hover.of_stirs (ht.acts hv).stirs hlt, x, List.mem_cons_self, ?_, hx, rfl, rfl⟩
      rw [List.filter_cons, if_pos hends, ht.filter_of_over hv hover hlt]
    · have hskip : ¬ x.ends i = true := by
        intro hends
        obtain ⟨hl, hid, -⟩ := Ending.ends_iff.1 hends
        obtain rfl : x.slot = slot := hwx.link_injective _ _ i hl hx.link
        exact hhere ⟨rfl, hid.symm.trans hx.id⟩
      rw [List.filter_cons, if_neg hskip]
      refine (ih hwr (Ending.served_result hv hx hhere)).imp_right ?_
      rintro ⟨hover, y, hy, hrest⟩
      exact ⟨hover, y, List.mem_cons_of_mem x hy, hrest⟩

theorem taken (hv : v.Mute) (ht : Through v r xs r') (ho : Orderly r)
    (h : r.Served i k id) (h' : r'.Served i k id) :
    ∃ new, r'.taken k = r.taken k ++ new ∧
      (new.filterMap Packet.leaver?).Sublist
        ((xs.filterMap Ending.notice?).map Field.truncated) := by
  induction ht with
  | nil hb =>
    obtain ⟨new, hnew, hnone⟩ := taken_of_bustles hb ho.wired h
    exact ⟨new, hnew, by rw [List.filterMap_eq_nil_iff.2 hnone]; exact List.nil_sublist _⟩
  | @cons j r r' x xs hb ht ih =>
    have hox := ho.of_moves (acts_of_act (acts_of_bustles hb)).moves
    have hx := h.bustles hb
    have hor := hox.of_moves (acts_of_act (Ending.result_acts hv x)).moves
    obtain ⟨new, hnew, hnone⟩ := taken_of_bustles hb ho.wired h
    have hresult : (x.result v).Served i k id ∧ ∃ more,
        (x.result v).taken k = x.relay.taken k ++ more ∧
          (more.filterMap Packet.leaver?).Sublist (x.notice?.map Field.truncated).toList := by
      by_cases hhere : x.slot = k ∧ x.id = id
      · obtain ⟨rfl, rfl⟩ := hhere
        have hends : x.ends i = true := Ending.ends_iff.2 ⟨hx.link, hx.id, hx.isLive⟩
        have hlt : i < (x.result v).links.length :=
          Nat.lt_of_lt_of_le (hox.wired.link_lt _ _ hx.link)
            (length_links_le_of_stirs (stirs_of_acts (Ending.result_acts hv x)))
        exact absurd ((Ending.over_result hv hox.wired hends).of_stirs (ht.acts hv).stirs hlt)
          h'.not_over
      · refine ⟨Ending.served_result hv hx hhere, ?_⟩
        by_cases hne : x.slot = k
        · have hnone : (x.relay.depart x.slot x.id).1 = none := by
            rcases depart_cases x.relay x.slot x.id with ⟨-, he⟩ | ⟨⟨hid, -⟩, -⟩
            · rw [he]
            · exact absurd ⟨hne, hid.symm.trans (hne ▸ hx.id)⟩ hhere
          obtain ⟨hsame, hnotice⟩ := Ending.result_of_none (v := v) hnone
          exact ⟨[], by rw [hsame, List.append_nil], List.nil_sublist _⟩
        · exact Ending.taken_result hv hox hne
    obtain ⟨hserved, more, hmore, hsub⟩ := hresult
    obtain ⟨rest, hrest, hsub'⟩ := ih hor hserved h'
    refine ⟨new ++ (more ++ rest), ?_, ?_⟩
    · rw [hrest, hmore, hnew, List.append_assoc, List.append_assoc]
    · rw [List.filterMap_append, List.filterMap_eq_nil_iff.2 hnone, List.nil_append,
        List.filterMap_append, List.filterMap_cons]
      cases hn : x.notice? with
      | none =>
        rw [hn] at hsub
        rw [List.sublist_nil.1 hsub]
        exact hsub'
      | some name =>
        rw [hn] at hsub
        exact hsub.append hsub'

theorem free_eq (hv : v.Mute) (ht : Through v r xs r') (hw : Wired r) :
    r'.free = (xs.filterMap Ending.freed?).reverse ++ r.free := by
  induction ht with
  | nil hb => exact free_eq_of_bustles hb
  | @cons _ _ _ x xs hb ht ih =>
    have hwx := hw.of_acts (acts_of_bustles hb)
    rw [ih (hwx.of_acts (Ending.result_acts hv x)), Ending.free_result hv hwx,
      free_eq_of_bustles hb, List.filterMap_cons]
    cases x.freed? <;> simp

end Through

/-- The life of the connection that is served in `slot` over link `i`, whatever else happens and
whoever else is served afterwards. It is served in no other slot, passes through its phases in order
and keeps its name and its token while it is logged in. Its teardown begins once. Its link is open
and its slot out of the pool until its slot is released; then the link is closed, and it is never
closed again. -/
structure Life (r : Relay S) (i : LinkId) (slot : Nat) : Prop where
  ages : ∀ r₁ r₂ k, ReflTransGen Stir r r₁ → ReflTransGen Stir r₁ r₂ →
    (r₂.session k).link = some i → slot = k ∧ Ages r₁ r₂ k
  departs_once : ∀ r₁ r₂ j k id₁ id₂, ReflTransGen Stir r r₁ → (r₁.session j).link = some i →
    (r₁.depart j id₁).1.isSome = true → ReflTransGen Stir (r₁.depart j id₁).2 r₂ →
    (r₂.session k).link = some i → r₂.depart k id₂ = (none, r₂)
  closings : ∀ r', ReflTransGen Stir r r' →
    r'.closings[i]? = some (if (r'.session slot).link = some i then 0 else 1)
  pooled : ∀ r', ReflTransGen Stir r r' →
    r'.free.Nodup ∧ ((r'.session slot).link = some i → slot ∉ r'.free)

theorem life (hw : Wired r) (ht : Tally r) (hl : (r.session slot).link = some i) :
    Life r i slot := by
  have hi := hw.link_lt slot i hl
  have hlt {r' : Relay S} (hs : ReflTransGen Stir r r') : i < r'.links.length :=
    Nat.lt_of_lt_of_le hi (length_links_le_of_stirs hs)
  have hself {r' : Relay S} {k : Nat} (hs : ReflTransGen Stir r r')
      (hk : (r'.session k).link = some i) : slot = k :=
    hw.link_injective slot k i hl ((ages_of_stirs hs hk hi).link.symm.trans hk)
  constructor
  case ages =>
    intro r₁ r₂ k hs hs' hk
    exact ⟨hself (hs.trans hs') hk, ages_of_stirs hs' hk (hlt hs)⟩
  case departs_once =>
    intro r₁ r₂ j k id₁ id₂ hs hj hd hs' hk
    obtain ⟨d, hd⟩ := Option.isSome_iff_exists.1 hd
    exact depart_once (hw.of_stirs hs) hj hd hs' hk id₂
  case closings =>
    intro r' hs
    have ht' := ht.of_stirs hw hs
    split
    · next hk => exact ht'.served slot i hk
    · next hk =>
      refine ht'.closed i (hlt hs) fun k hk' => hk ?_
      rwa [hself hs hk']
  case pooled =>
    intro r' hs
    exact ⟨(hw.of_stirs hs).free_nodup, fun hk => ((hw.of_stirs hs).notMem_free hk).2⟩

end Relay

namespace Engine

open Relay

variable {e : Engine S} {slot k : Nat} {id : SessionId} {i : LinkId}

/-! ## The calls of a step -/

def ending (e : Engine S) (slot : Nat) (id : SessionId) : Ending S :=
  ⟨e.relay, slot, id, e.running⟩

def endingsAll (v : Service S) (e : Engine S) : List Nat → List (Ending S)
  | [] => []
  | slot :: slots =>
    let id := (e.relay.session slot).id
    if id = 0 then endingsAll v e slots
    else e.ending slot id :: endingsAll v (e.disconnect v slot id) slots

/-- The calls that a step makes to end connections. -/
def endings (v : Service S) (e : Engine S) : Step → List (Ending S)
  | .accept _ | .halt => []
  | .complete (.received slot id result) =>
    let o := e.relay.takeIn v slot id result
    if slot < e.relay.capacity ∧ o.1 then [{ e with relay := o.2 }.ending slot id] else []
  | .complete (.sent slot id result) =>
    match result with
    | .ok _ => []
    | .error _ => if slot < e.relay.capacity then [e.ending slot id] else []
  | .stop => e.halt.endingsAll v (List.range e.relay.capacity)

/-- The calls of a run that end the connection over link `i`. -/
def teardowns (v : Service S) (i : LinkId) : Engine S → List Step → List (Ending S)
  | _, [] => []
  | e, s :: steps => (e.endings v s).filter (·.ends i) ++ teardowns v i (e.step v s) steps

theorem running_endAll (v : Service S) (e : Engine S) (slots : List Nat) :
    (e.endAll v slots).running = e.running := by
  induction slots generalizing e with
  | nil => rfl
  | cons slot slots ih =>
    unfold endAll
    dsimp only
    split
    · exact ih e
    · exact ih _

theorem announced_of_mem_endingsAll {x : Ending S} {slots : List Nat}
    (hx : x ∈ e.endingsAll v slots) : x.announced = e.running := by
  induction slots generalizing e with
  | nil => cases hx
  | cons slot slots ih =>
    unfold endingsAll at hx
    dsimp only at hx
    split at hx
    · exact ih hx
    · obtain rfl | hx := List.mem_cons.1 hx
      · rfl
      · exact ih (e := e.disconnect v slot (e.relay.session slot).id) hx

theorem announced_of_mem_endings {x : Ending S} {s : Step} (hx : x ∈ e.endings v s) :
    x.announced = (e.step v s).running := by
  cases s with
  | accept c => cases hx
  | complete c =>
    cases c with
    | received slot id result =>
      simp only [endings] at hx
      split at hx
      · next h =>
        obtain rfl := List.mem_singleton.1 hx
        simp only [step, complete, if_pos h.1, afterRead_takeIn, if_pos h.2]
        rfl
      · cases hx
    | sent slot id result =>
      simp only [endings] at hx
      split at hx
      · cases hx
      · split at hx
        · next h =>
          obtain rfl := List.mem_singleton.1 hx
          simp only [step, complete, if_pos h]
          rfl
        · cases hx
  | halt => cases hx
  | stop =>
    have hstop := announced_of_mem_endingsAll hx
    exact hstop.trans (running_endAll v e.halt _).symm

theorem through_endAll (slots : List Nat) (e : Engine S) :
    Through v e.relay (e.endingsAll v slots) (e.endAll v slots).relay := by
  induction slots generalizing e with
  | nil => exact through_refl e.relay
  | cons slot slots ih =>
    unfold endingsAll endAll
    dsimp only
    split
    · exact ih e
    · have hrest := ih (e.disconnect v slot (e.relay.session slot).id)
      exact @Through.cons _ _ 0 _ _ (e.ending slot (e.relay.session slot).id) _ .refl hrest

theorem step_through (hv : v.Mute) {s : Step} (hs : ∀ c, s ≠ .accept c) :
    Through v e.relay (e.endings v s) (e.step v s).relay := by
  cases s with
  | accept c => exact absurd rfl (hs c)
  | complete c =>
    cases c with
    | received slot id result =>
      have hb := takeIn_bustles hv slot id result e.relay
      simp only [endings, step, complete]
      by_cases hlt : slot < e.relay.capacity
      · rw [if_pos hlt, afterRead_takeIn]
        cases hends : (e.relay.takeIn v slot id result).1 with
        | true =>
          rw [if_pos ⟨hlt, rfl⟩]
          exact .cons hb (through_refl _)
        | false =>
          rw [if_neg (by simp)]
          exact .nil hb
      · rw [if_neg hlt, if_neg fun h => hlt h.1]
        exact through_refl _
    | sent slot id result =>
      simp only [endings, step, complete]
      by_cases hlt : slot < e.relay.capacity
      · cases result with
        | ok n =>
          simp only [if_pos hlt]
          exact .nil (.single (.sent e.relay id))
        | error err =>
          simp only [if_pos hlt]
          exact @Through.cons _ _ slot _ _ (e.ending slot id) _ .refl (through_refl _)
      · cases result <;> simp only [if_neg hlt] <;> exact through_refl _
  | halt => exact through_refl _
  | stop => exact through_endAll _ e.halt

/-! ## Runs -/

theorem Step.accept_or (s : Step) : (∃ c, s = .accept c) ∨ ∀ c, s ≠ .accept c := by
  cases s <;> simp

theorem served_accept (hw : Wired e.relay) (c : Incoming) (h : e.relay.Served i k id) :
    (e.accept c).2.relay.Served i k id ∧ (e.accept c).2.relay.taken k = e.relay.taken k := by
  obtain he | ⟨slot, r, ha, hcases⟩ := e.accept_eq c
  · rw [he]
    exact ⟨h, rfl⟩
  · have hne := hw.ne_of_acquire ha (Option.isSome_iff_exists.2 ⟨i, h.link⟩)
    obtain ⟨hleased, hlink, hi⟩ := hw.acquired ha
    have hr : r.Served i k id ∧ r.taken k = e.relay.taken k :=
      ⟨h.congr (hi k), taken_acquire ha⟩
    have hreleased {r : Relay S} (hr : r.Served i k id ∧ r.taken k = e.relay.taken k) :
        (r.release slot).Served i k id ∧ (r.release slot).taken k = e.relay.taken k :=
      ⟨hr.1.congr ((identity_release r slot k).trans (if_neg hne)),
        (taken_release hne).trans hr.2⟩
    have hbegun :
        let r' := ((r.begin slot e.allocate.1 (c.link slot e.allocate.1)).armRead slot e.allocate.1).2
        r'.Served i k id ∧ r'.taken k = e.relay.taken k := by
      have hs := session_begin (lt_capacity_of_leased hleased) e.allocate.1
        (c.link slot e.allocate.1) k
      rw [if_neg hne] at hs
      exact ⟨hr.1.congr (congrArg Session.identity hs),
        (taken_armRead ..).trans ((taken_begin (hw.acquire ha) hlink hne ..).trans hr.2)⟩
    obtain ⟨-, he⟩ | ⟨-, -, he⟩ | ⟨-, -, he⟩ := hcases <;> rw [he]
    · exact hreleased hr
    · exact hbegun
    · exact hreleased hbegun

section

variable (hv : v.Mute)

include hv

theorem mute_stir : v.Within Stir :=
  (Service.Mute.deed hv).mono fun _ _ hd => hd.stir

theorem acts_of_mem_endings {s : Step} {x : Ending S} (hx : x ∈ e.endings v s) :
    Acts e.relay x.relay := by
  obtain ⟨c, rfl⟩ | hs := s.accept_or
  · cases hx
  · exact (step_through hv hs).acts_of_mem hv hx

theorem step_served_or (hw : Wired e.relay) (h : e.relay.Served i slot id) (s : Step) :
    (e.step v s).relay.Served i slot id ∧ (e.endings v s).filter (·.ends i) = [] ∨
      (e.step v s).relay.Over i ∧ ∃ x ∈ e.endings v s,
        (e.endings v s).filter (·.ends i) = [x] ∧ x.relay.Served i slot id ∧
          x.slot = slot ∧ x.id = id := by
  obtain ⟨c, rfl⟩ | hs := s.accept_or
  · exact .inl ⟨(served_accept hw c h).1, rfl⟩
  · exact (step_through hv hs).served_or hv hw h

theorem teardowns_of_over (hw : Wired e.relay) (h : e.relay.Over i) (hi : i < e.relay.links.length)
    (steps : List Step) : e.teardowns v i steps = [] := by
  induction steps generalizing e with
  | nil => rfl
  | cons s steps ih =>
    have hs := step_stirs (mute_stir hv) hw s
    have hnone : (e.endings v s).filter (·.ends i) = [] := by
      obtain ⟨c, rfl⟩ | hs := s.accept_or
      · rfl
      · exact (step_through hv hs).filter_of_over hv h hi
    rw [teardowns, hnone, List.nil_append]
    exact ih (hw.of_stirs hs) (h.of_stirs hs hi)
      (Nat.lt_of_lt_of_le hi (length_links_le_of_stirs hs))

/-- Whoever is served still is at the end of a run, or one call of one of its steps has ended the
connection, and no other has. -/
theorem run_served_or (hw : Wired e.relay) (h : e.relay.Served i slot id) (steps : List Step) :
    (e.run v steps).relay.Served i slot id ∧ e.teardowns v i steps = [] ∨
      (e.run v steps).relay.Over i ∧ ∃ x before s after, steps = before ++ s :: after ∧
        x ∈ (e.run v before).endings v s ∧ e.teardowns v i steps = [x] ∧
          x.relay.Served i slot id ∧ x.slot = slot ∧ x.id = id := by
  induction steps generalizing e with
  | nil => exact .inl ⟨h, rfl⟩
  | cons s steps ih =>
    have hs := step_stirs (mute_stir hv) hw s
    have hw' := hw.of_stirs hs
    obtain ⟨hserved, hnone⟩ | ⟨hover, x, hx, hone, hthen⟩ := step_served_or hv hw h s
    · rw [teardowns, hnone, List.nil_append]
      refine (ih hw' hserved).imp_right ?_
      rintro ⟨hover, x, before, s', after, rfl, hx, hrest⟩
      exact ⟨hover, x, s :: before, s', after, rfl, hx, hrest⟩
    · have hi : i < (e.step v s).relay.links.length :=
        Nat.lt_of_lt_of_le (hw.link_lt slot i h.link) (length_links_le_of_stirs hs)
      refine .inr ⟨hover.of_stirs (run_stirs (mute_stir hv) hw' steps) hi, x, [], s, steps, rfl, hx,
        ?_, hthen⟩
      rw [teardowns, hone, teardowns_of_over hv hw' hover hi]
      rfl

/-- Those who stay are told of the connections that a step ends and that were logged in, of each of
them once, and of no others. -/
theorem step_taken (ho : Orderly e.relay) {s : Step} (h : e.relay.Served i k id)
    (h' : (e.step v s).relay.Served i k id) :
    ∃ new, (e.step v s).relay.taken k = e.relay.taken k ++ new ∧
      (new.filterMap Packet.leaver?).Sublist
        (((e.endings v s).filterMap Ending.notice?).map Field.truncated) := by
  obtain ⟨c, rfl⟩ | hs := s.accept_or
  · refine ⟨[], (served_accept ho.wired c h).2.trans (List.append_nil _).symm, ?_⟩
    exact List.nil_sublist _
  · exact (step_through hv hs).taken hv ho h h'

end

theorem served_accepted (hw : Wired e.relay) {c : Incoming}
    (hserved : (e.accept c).1 = some (slot, id)) :
    (e.accept c).2.relay.Served e.relay.links.length slot id ∧
      ((e.accept c).2.relay.session slot).phase = .connected ∧
      e.relay.free = slot :: (e.accept c).2.relay.free := by
  obtain he | ⟨j, r, ha, hcases⟩ := e.accept_eq c
  · rw [he] at hserved
    cases hserved
  · obtain ⟨hnone, -⟩ | ⟨-, hsome, he⟩ | ⟨-, hnone, -⟩ := hcases
    · cases hnone.symm.trans hserved
    · obtain ⟨rfl, rfl⟩ := Prod.mk.inj (Option.some.inj (hsome.symm.trans hserved))
      have hs := session_begin (lt_capacity_of_leased (hw.acquired ha).1) e.allocate.1
        (c.link j e.allocate.1) j
      rw [if_pos rfl] at hs
      obtain ⟨free, hfree, rfl⟩ := acquire_eq_some_iff.1 ha
      rw [he]
      refine ⟨⟨?_, ?_, ?_⟩, ?_, hfree⟩ <;> rw [session_armRead, hs]
      · rfl
      · rfl
      · exact nofun
      · rfl
    · cases hnone.symm.trans hserved

/-- Ids being fresh, and whatever else happens: a connection that is accepted takes a slot out of
the pool and lives its life there. Either it is served to the last, or one call has torn it down,
and no other call of the run has. Slots go back to the pool by such calls and at no other time, and
those who stay are told of those who were logged in and whose connections have ended while the
engine was running, of each of them once. -/
theorem torn_down_once (answer : (c : StoreCall) → S → Except StoreError c.Answer × S)
    (token : Nat → String) (lifetime capacity : Nat) (limits : Limits) (store : S)
    (before after : List Step) (c : Incoming) (slot : Nat) (id : SessionId) :
    let v := Service.ofStore answer token lifetime
    let e₀ := (start capacity limits store).run v before
    let e₁ := (e₀.accept c).2
    let i := e₀.relay.links.length
    (start capacity limits store).FreshIds v (before ++ .accept c :: after) →
    (e₀.accept c).1 = some (slot, id) →
    e₁.relay.Served i slot id ∧ (e₁.relay.session slot).phase = .connected ∧
      e₀.relay.free = slot :: e₁.relay.free ∧
      Life e₁.relay i slot ∧ ReflTransGen Stir e₁.relay (e₁.run v after).relay ∧
      ((e₁.run v after).relay.Served i slot id ∧ e₁.teardowns v i after = [] ∨
        (e₁.run v after).relay.Over i ∧ ∃ x pre s post, after = pre ++ s :: post ∧
          x ∈ (e₁.run v pre).endings v s ∧ e₁.teardowns v i after = [x] ∧
          x.announced = ((e₁.run v pre).step v s).running ∧
          ReflTransGen Stir e₁.relay x.relay ∧ x.TearsDown v i slot id) ∧
      ∀ pre s post, after = pre ++ s :: post →
        let e₂ := e₁.run v pre
        let e₃ := e₂.step v s
        ((∀ c, s ≠ .accept c) → Through v e₂.relay (e₂.endings v s) e₃.relay ∧
          e₃.relay.free = ((e₂.endings v s).filterMap Ending.freed?).reverse ++ e₂.relay.free) ∧
        ∀ j k id', e₂.relay.Served j k id' → e₃.relay.Served j k id' →
          ∃ new, e₃.relay.taken k = e₂.relay.taken k ++ new ∧
            (new.filterMap Packet.leaver?).Sublist
              (((e₂.endings v s).filterMap Ending.notice?).map Field.truncated) := by
  intro v e₀ e₁ i hf hserved
  have hv : v.Mute := Service.ofStore_mute
  have hd : v.Within Deed := Service.Mute.deed hv
  obtain ⟨hf₀, hf₁, hf₂⟩ := freshIds_append.1 hf
  have ho₀ : Orderly e₀.relay := (Orderly.start ..).of_moves (moves_run hd (.start ..) hf₀)
  have ho₁ : Orderly e₁.relay := orderly_step hd ho₀ hf₁
  have hstirs : ReflTransGen Stir (Relay.start capacity limits store) e₁.relay :=
    (run_stirs (mute_stir hv) (.start ..) before).trans
      (step_stirs (mute_stir hv) ho₀.wired (.accept c))
  have ht : Tally e₁.relay := (Tally.start ..).of_stirs (.start ..) hstirs
  have hrun (steps : List Step) := run_stirs (mute_stir hv) ho₁.wired steps
  have hmid {pre post : List Step} {s : Step} (hsplit : after = pre ++ s :: post) :
      Orderly (e₁.run v pre).relay :=
    ho₁.of_moves (moves_run hd ho₁ (freshIds_append.1 (hsplit ▸ hf₂)).1)
  obtain ⟨hbegins, hphase, hfree⟩ := served_accepted ho₀.wired hserved
  refine ⟨hbegins, hphase, hfree, life ho₁.wired ht hbegins.link, hrun after, ?_, ?_⟩
  · refine (run_served_or hv ho₁.wired hbegins after).imp_right ?_
    rintro ⟨hover, x, pre, s, post, hsplit, hx, hone, hthen, rfl, rfl⟩
    have hacts := acts_of_mem_endings hv hx
    have hx' := (hrun pre).trans hacts.stirs
    exact ⟨hover, x, pre, s, post, hsplit, hx, hone, announced_of_mem_endings hx, hx',
      Ending.tearsDown hv ((hmid hsplit).of_moves hacts.moves) (ht.of_stirs ho₁.wired hx') hthen⟩
  · intro pre s post hsplit
    have ho₂ := hmid hsplit
    refine ⟨fun hs => ?_, fun j k id' h h' => step_taken hv ho₂ h h'⟩
    have hthrough := step_through hv hs (e := e₁.run v pre)
    exact ⟨hthrough, hthrough.free_eq hv ho₂.wired⟩

/-- Ann logs in and bob does. Ann's connection fails twice, and when her slot is taken again and the
engine stops, nothing more comes of it: it was torn down once, and bob was told. -/
theorem torn_down_once_failing_twice :
    let v := Service.direct (fun _ => "t") 60
    let login (name : String) : Bytes :=
      (Packet.loginRequest .blank .blank (.truncated name)).encode
    let e₁ := ((start 2 ⟨512, 128, maxPacketSize, 4⟩ (Store.empty.addUser "" "")).accept
      (.ofPeer none)).2
    let after : List Step := [.accept (.ofPeer none), .complete (.received 0 1 (.ok (login "ann"))),
      .complete (.received 1 2 (.ok (login "bob"))), .complete (.received 0 1 (.error "reset")),
      .complete (.sent 0 1 (.error "reset")), .accept (.ofPeer none), .stop]
    ∃ x, e₁.teardowns v 0 after = [x] ∧ x.TearsDown v 0 0 1 ∧ x.notice? = some "ann" ∧
      (e₁.run v after).relay.closings = [1, 1, 1] := by
  intro v login e₁ after
  have hrun : (e₁.teardowns v 0 after).map Ending.notice? = [some "ann"] ∧
      (e₁.run v after).relay.closings = [1, 1, 1] := by
    decide +kernel
  obtain ⟨hnotice, hclosings⟩ := hrun
  obtain ⟨-, -, -, -, -, ⟨-, hnone⟩ | ⟨-, x, _, _, _, -, -, hone, -, -, hx⟩, -⟩ :=
    torn_down_once (fun c s => s.answer c) (fun _ => "t") 60 2 ⟨512, 128, maxPacketSize, 4⟩
      (Store.empty.addUser "" "") [] after (.ofPeer none) 0 1
      (freshIds_of_length (Service.ofStore_within fun _ _ hd => hd) (by decide)) (by decide +kernel)
  · rw [show e₁.teardowns v 0 after = [] from hnone] at hnotice
    cases hnotice
  · have hone : e₁.teardowns v 0 after = [x] := hone
    rw [hone] at hnotice
    exact ⟨x, hone, hx, List.head_eq_of_cons_eq hnotice, hclosings⟩

end Engine

end ChatRelay
