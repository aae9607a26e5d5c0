import ChatRelay.Proofs.Reads

/-! # The life of a connection

A connection begins, may log in, is torn down and never goes back. Its link is closed when its slot
is released. Neither its teardown nor that happens to it twice, whatever comes between.
-/

namespace ChatRelay

open Relation (ReflTransGen)

variable {S : Type}

def Phase.stage : Phase → Nat
  | connected => 0
  | authenticated => 1
  | disconnecting => 2

theorem Phase.stage_le (p : Phase) : p.stage ≤ disconnecting.stage := by
  cases p <;> decide

theorem Phase.eq_disconnecting_of_stage {p : Phase} (h : 2 ≤ p.stage) : p = .disconnecting := by
  cases p with
  | connected => exact absurd h (by decide)
  | authenticated => exact absurd h (by decide)
  | disconnecting => rfl

theorem Phase.eq_authenticated_of_stage {p q : Phase} (h : authenticated.stage ≤ q.stage)
    (h' : q.stage ≤ p.stage) (hp : p = .authenticated) : q = .authenticated := by
  subst hp
  cases q with
  | connected => exact absurd h (by decide)
  | authenticated => rfl
  | disconnecting => exact absurd h' (by decide)

def Link.closings (l : Link) : Nat :=
  l.log.count .close

@[simp] theorem Link.closings_send (l : Link) (packet : Bytes) :
    (l.send packet).2.closings = l.closings := by
  simp only [send, record, closings, List.count_append]
  split <;> simp

@[simp] theorem Link.closings_receive (l : Link) (limit : Nat) :
    (l.receive limit).2.closings = l.closings := by
  simp only [receive, record, closings, List.count_append]
  split <;> simp

@[simp] theorem Link.closings_close (l : Link) :
    (l.record .close).closings = l.closings + 1 := by
  simp [record, closings]

namespace Relay

variable {r r' : Relay S} {slot k : Nat} {id : SessionId} {i : LinkId}

/-! ## Stages -/

/-- Who is served in `k` by now was served there before over the same link, and is as far as then or
farther; as long as it is logged in, its name and its token stay. -/
structure Ages (r r' : Relay S) (k : Nat) : Prop where
  link : (r'.session k).link = (r.session k).link
  id : (r'.session k).id = (r.session k).id
  stage : (r.session k).phase.stage ≤ (r'.session k).phase.stage
  identity : (r.session k).phase = .authenticated → (r'.session k).phase = .authenticated →
    (r'.session k).identity = (r.session k).identity

theorem ages_of_identity (h : (r'.session k).identity = (r.session k).identity) : Ages r r' k where
  link := congrArg Identity.link h
  id := congrArg Identity.id h
  stage := Nat.le_of_eq (congrArg (Phase.stage ∘ Identity.phase) h.symm)
  identity _ _ := h

theorem Ages.trans {r'' : Relay S} (h : Ages r r' k) (h' : Ages r' r'' k) : Ages r r'' k where
  link := h'.link.trans h.link
  id := h'.id.trans h.id
  stage := h.stage.trans h'.stage
  identity hp hp'' := by
    have hp' := Phase.eq_authenticated_of_stage (hp ▸ h.stage) h'.stage hp''
    exact (h'.identity hp' hp'').trans (h.identity hp hp')

theorem ages_depart (r : Relay S) (slot : Nat) (id : SessionId) (k : Nat) :
    Ages r (r.depart slot id).2 k := by
  rcases depart_cases r slot id with ⟨-, he⟩ | ⟨-, he⟩ <;> rw [he]
  · exact ages_of_identity rfl
  · have hs := session_setSession r slot k
      { r.session slot with phase := .disconnecting, token := none }
    split at hs
    · next hk =>
      obtain ⟨rfl, -⟩ := hk
      constructor <;> rw [hs]
      · exact Phase.stage_le _
      · exact fun _ => nofun
    · exact ages_of_identity (by rw [hs])

theorem ages_register (r : Relay S) (slot : Nat) (id : SessionId) (name token : String) (k : Nat) :
    Ages r (r.register slot id name token).2 k := by
  by_cases hp : (r.session k).phase = .connected
  · obtain ⟨p, u, t, hs⟩ := session_register r slot k id name token
    constructor <;> rw [hs]
    · rw [hp]
      exact Nat.zero_le _
    · exact fun ha => absurd (hp.symm.trans ha) nofun
  · exact ages_of_identity (identity_register hp ..)

theorem Act.ages_or (ha : Act slot r r') : (∀ k, Ages r r' k) ∨ r' = r.release slot := by
  obtain ht | ⟨j, i, name, token, -, rfl⟩ | ⟨i, rfl⟩ | rfl := ha.traffic_or
  · exact .inl fun k => ages_of_identity (ht.identity k)
  · exact .inl fun k => ages_register ..
  · exact .inl fun k => ages_depart ..
  · exact .inr rfl

theorem Act.length_links (ha : Act slot r r') : r'.links.length = r.links.length := by
  obtain hsame | ⟨id, rfl⟩ | rfl := ha.map_links_or (g := fun _ => ()) fun _ _ => rfl
  · simpa using congrArg List.length hsame
  · exact Session.length_links_armRead ..
  · rw [links_release]
    exact Session.length_hangUp ..

theorem Stir.length_links_le (hs : Stir r r') : r.links.length ≤ r'.links.length := by
  cases hs with
  | act ha => exact Nat.le_of_eq ha.length_links.symm
  | begin id _ hlink _ =>
    rw [links_begin hlink, List.length_append]
    exact Nat.le_add_right ..

theorem length_links_le_of_stirs (hs : ReflTransGen Stir r r') :
    r.links.length ≤ r'.links.length := by
  induction hs with
  | refl => exact Nat.le_refl _
  | tail _ hs ih => exact ih.trans hs.length_links_le

/-- Nobody comes to be served over a link that was made before. -/
theorem Stir.ages (hs : Stir r r') (hl : (r'.session k).link = some i)
    (hi : i < r.links.length) : Ages r r' k := by
  cases hs with
  | @act _ slot ha =>
    obtain hages | rfl := ha.ages_or
    · exact hages k
    · have hk : slot ≠ k := by
        rintro rfl
        have hgone := identity_release r slot slot
        rw [if_pos rfl] at hgone
        cases (congrArg Identity.link hgone).symm.trans hl
      exact ages_of_identity (by rw [session_release_ne hk])
  | begin id hleased _ _ =>
    have hs := session_begin (lt_capacity_of_leased hleased) id ‹Link› k
    split at hs
    · rw [hs] at hl
      obtain rfl := Option.some.inj hl
      exact absurd hi (Nat.lt_irrefl _)
    · exact ages_of_identity (by rw [hs])

theorem ages_of_stirs (hs : ReflTransGen Stir r r') (hl : (r'.session k).link = some i)
    (hi : i < r.links.length) : Ages r r' k := by
  induction hs with
  | refl => exact ages_of_identity rfl
  | tail hfirst hs ih =>
    have hlast := hs.ages hl (Nat.lt_of_lt_of_le hi (length_links_le_of_stirs hfirst))
    exact (ih (hlast.link.symm.trans hl)).trans hlast

/-- Nobody is served over the link any more. -/
def Over (r : Relay S) (i : LinkId) : Prop :=
  ∀ k, (r.session k).link ≠ some i

theorem Over.of_stirs (h : r.Over i) (hs : ReflTransGen Stir r r') (hi : i < r.links.length) :
    r'.Over i :=
  fun k hl => h k ((ages_of_stirs hs hl hi).link.symm.trans hl)

/-! ## Teardowns -/

theorem phase_depart {d : Departure} (h : (r.depart slot id).1 = some d) :
    (r.session slot).id = id ∧ (r.session slot).isLive = true ∧
      ((r.depart slot id).2.session slot).phase = .disconnecting := by
  rcases depart_cases r slot id with ⟨-, he⟩ | ⟨⟨hid, hlive⟩, he⟩
  · rw [he] at h
    cases h
  · rw [he]
    exact ⟨hid, hlive,
      congrArg Session.phase (session_setSession_self (lt_capacity_of_isLive hlive) _)⟩

/-- The teardown of a connection begins once: whatever happens afterwards, whoever asks for it again
gets no answer. -/
theorem depart_once {d : Departure} (hw : Wired r) (hl : (r.session slot).link = some i)
    (h : (r.depart slot id).1 = some d) (hs : ReflTransGen Stir (r.depart slot id).2 r')
    (hk : (r'.session k).link = some i) (id' : SessionId) : r'.depart k id' = (none, r') := by
  obtain ⟨-, -, hphase⟩ := phase_depart h
  have hw' := hw.depart slot id
  have hself := (ages_depart r slot id slot).link.trans hl
  have hages := ages_of_stirs hs hk (hw'.link_lt slot i hself)
  obtain rfl : slot = k := hw'.link_injective slot k i hself (hages.link.symm.trans hk)
  have hstage := hages.stage
  rw [hphase] at hstage
  rcases depart_cases r' slot id' with ⟨-, he⟩ | ⟨⟨-, hlive⟩, -⟩
  · exact he
  · exact absurd (Phase.eq_disconnecting_of_stage hstage) (Session.isLive_iff.1 hlive).2

/-! ## Links -/

def closings (r : Relay S) : List Nat :=
  r.links.map Link.closings

theorem closings_getElem? (r : Relay S) (i : LinkId) :
    r.closings[i]? = r.links[i]?.map Link.closings :=
  List.getElem?_map ..

/-- A link is open as long as somebody is served over it, and has been closed once when nobody is
any more. -/
structure Tally (r : Relay S) : Prop where
  served : ∀ k i, (r.session k).link = some i → r.closings[i]? = some 0
  closed : ∀ i < r.links.length, r.Over i → r.closings[i]? = some 1

theorem Act.closings_or (ha : Act slot r r') :
    (∀ k, (r'.session k).link = (r.session k).link) ∧ r'.closings = r.closings ∨
      r' = r.release slot := by
  obtain hages | hrelease := ha.ages_or
  · obtain hsame | ⟨id, rfl⟩ | hrelease := ha.map_links_or Link.closings_send
    · exact .inl ⟨fun k => (hages k).link, hsame⟩
    · exact .inl ⟨fun k => (hages k).link, Session.map_armRead Link.closings_receive ..⟩
    · exact .inr hrelease
  · exact .inr hrelease

theorem closings_hangUp {l : Link} (hl : (r.session slot).link = some i)
    (hi : r.links[i]? = some l) :
    (((r.session slot).hangUp r.links).map Link.closings)[i]? = some (l.closings + 1) := by
  simp [Session.hangUp, hl, Links.close, hi]

theorem Tally.release (h : Tally r) (hw : Wired r) (slot : Nat) : Tally (r.release slot) := by
  have hlink (k : Nat) : ((r.release slot).session k).link =
      if slot = k then none else (r.session k).link :=
    (congrArg Identity.link (identity_release r slot k)).trans (apply_ite Identity.link ..)
  have hother {i : LinkId} (hi : (r.session slot).link ≠ some i) :
      (r.release slot).closings[i]? = r.closings[i]? := by
    rw [closings_getElem?, links_release, Session.hangUp_ne hi, closings_getElem?]
  constructor
  case served =>
    intro k i hl
    rw [hlink] at hl
    split at hl
    · cases hl
    · next hk => rw [hother (hw.link_ne hk hl), h.served k i hl]
  case closed =>
    intro i hi hover
    rw [links_release, Session.length_hangUp] at hi
    by_cases hself : (r.session slot).link = some i
    · have hopen := h.served slot i hself
      have hclosed := closings_hangUp hself (List.getElem?_eq_getElem hi)
      rw [closings_getElem?, List.getElem?_eq_getElem hi] at hopen
      rw [closings, links_release, hclosed, Option.some.inj hopen]
    · rw [hother hself]
      refine h.closed i hi fun k hk => ?_
      have hne : slot ≠ k := by
        rintro rfl
        exact hself hk
      exact hover k ((hlink k).trans ((if_neg hne).trans hk))

theorem Tally.begin (h : Tally r) (hw : Wired r) (hleased : (r.session slot).leased = true)
    (hlink : (r.session slot).link = none) (id : SessionId) {l : Link} (hlog : l.log = []) :
    Tally (r.begin slot id l) := by
  have hs := session_begin (lt_capacity_of_leased hleased) id l
  have hclosings : (r.begin slot id l).closings = r.closings ++ [0] := by
    rw [closings, links_begin hlink, List.map_append, List.map_singleton, Link.closings, hlog]
    rfl
  have hlength : r.closings.length = r.links.length := List.length_map ..
  have hold {i : LinkId} (hi : i < r.links.length) :
      (r.begin slot id l).closings[i]? = r.closings[i]? := by
    rw [hclosings, List.getElem?_append_left (hlength ▸ hi)]
  constructor
  case served =>
    intro k i hk
    rw [hs] at hk
    split at hk
    · obtain rfl := Option.some.inj hk
      rw [hclosings, ← hlength]
      exact List.getElem?_concat_length ..
    · rw [hold (hw.link_lt k i hk), h.served k i hk]
  case closed =>
    intro i hi hover
    rw [links_begin hlink, List.length_append, List.length_singleton] at hi
    have hne : i ≠ r.links.length := by
      rintro rfl
      refine hover slot ?_
      rw [hs, if_pos rfl]
      rfl
    have hi : i < r.links.length := by omega
    rw [hold hi]
    refine h.closed i hi fun k hk => hover k ?_
    have hslot : slot ≠ k := by
      rintro rfl
      cases hlink.symm.trans hk
    rw [hs, if_neg hslot, hk]

theorem Stir.tally (hs : Stir r r') (h : Tally r) (hw : Wired r) : Tally r' := by
  cases hs with
  | @act _ slot ha =>
    obtain ⟨hlink, hclosings⟩ | rfl := ha.closings_or
    · refine ⟨fun k i hl => ?_, fun i hi hover => ?_⟩
      · rw [hclosings]
        exact h.served k i ((hlink k).symm.trans hl)
      · rw [hclosings]
        exact h.closed i (ha.length_links ▸ hi) fun k hk => hover k ((hlink k).trans hk)
    · exact h.release hw slot
  | begin id hleased hlink hlog => exact h.begin hw hleased hlink id hlog

theorem Tally.of_stirs (h : Tally r) (hw : Wired r) (hs : ReflTransGen Stir r r') : Tally r' := by
  induction hs with
  | refl => exact h
  | tail hfirst hs ih => exact hs.tally ih (hw.of_stirs hfirst)

theorem Tally.start (capacity : Nat) (limits : Limits) (store : S) :
    Tally (Relay.start capacity limits store) := by
  refine ⟨fun k i hl => ?_, fun i hi => absurd hi (Nat.not_lt_zero i)⟩
  rw [session_start] at hl
  cases hl

theorem Wired.notMem_free (hw : Wired r) (hl : (r.session k).link = some i) :
    (r.session k).leased = true ∧ k ∉ r.free := by
  have hleased : (r.session k).leased = true := by
    by_contra hno
    cases (hw.unleased k (by simpa using hno)).symm.trans hl
  refine ⟨hleased, fun hmem => ?_⟩
  cases hleased.symm.trans (hw.free_unleased k hmem)

end Relay

end ChatRelay
