import ChatRelay.Proofs.Relay.Login

/-! # Verdicts on logins

A login is turned down for the first of eight reasons that applies, and changes nothing but the
store then. If none does, the connection is entered into the directory.
-/

namespace ChatRelay

variable {S : Type}

/-- Looking up an account leaves what is seen of a store alone, and so does a token that cannot be
made; presence can always be marked. -/
structure Steady {α : Type} (answer : (c : StoreCall) → S → Except StoreError c.Answer × S)
    (view : S → α) : Prop where
  lookup : ∀ userId s, view (answer (.passwordHash userId) s).2 = view s
  refused : ∀ token userId lifetime s e,
    (answer (.createToken token userId lifetime) s).1 = .error e →
      view (answer (.createToken token userId lifetime) s).2 = view s
  marked : ∀ name id s, (answer (.setPresence name id) s).1 = .ok ()

theorem Store.steady :
    Steady (fun c (s : Store) => s.answer c) fun s => (s.tokens, s.presence) where
  lookup _ _ := rfl
  refused token userId lifetime s e he := by
    obtain ⟨a, s', ha, hp, ⟨-, ht⟩ | ⟨rfl, -⟩⟩ := s.answer_createToken token userId lifetime
    · simp only [ha, hp, ht]
    · rw [ha] at he
      cases he
  marked _ _ _ := rfl

def Untouched (answer : (c : StoreCall) → S → Except StoreError c.Answer × S) (s s' : S) : Prop :=
  ∀ {α : Type} (view : S → α), Steady answer view → view s' = view s

namespace Relay

variable {r : Relay S} {slot : Nat} {id : SessionId} {name : String}

/-- Connection `id` of `slot` is served, and is not logged in. -/
structure Guest (r : Relay S) (slot : Nat) (id : SessionId) : Prop where
  id : (r.session slot).id = id
  link : (r.session slot).link.isSome
  phase : (r.session slot).phase = .connected

theorem Guest.withStore (hg : r.Guest slot id) (s : S) (n : Nat) :
    { r with store := s, drawn := n }.Guest slot id :=
  ⟨hg.id, hg.link, hg.phase⟩

theorem Guest.register (hg : r.Guest slot id) (hf : r.findName name = none) (drawn : String) :
    ∃ r', r.register slot id name drawn = (.ok (), r') := by
  have hyes : (r.session slot).authenticate id name drawn = some _ :=
    if_pos ⟨hg.id, hg.link, hg.phase⟩
  rcases register_cases r slot id name drawn with ⟨ht, -⟩ | ⟨-, hno, -⟩ | ⟨s, -, -, he⟩
  · simp [hf] at ht
  · cases hno.symm.trans hyes
  · exact ⟨_, he⟩

theorem guest_of_isLive (hid : (r.session slot).id = id) (hlive : (r.session slot).isLive = true)
    (hout : (r.session slot).isAuthenticated = false) : r.Guest slot id := by
  obtain ⟨hlink, hphase⟩ := Session.isLive_iff.1 hlive
  refine ⟨hid, hlink, ?_⟩
  cases hp : (r.session slot).phase with
  | connected => rfl
  | authenticated => simp [Session.isAuthenticated, hlink, hp] at hout
  | disconnecting => exact absurd hp hphase

/-! ## Reasons to turn a login down -/

def firstOf (reasons : List (Bool × Outcome)) : Outcome :=
  ((reasons.find? (·.1)).map (·.2)).getD .success

@[simp] theorem firstOf_cons (b : Bool) (o : Outcome) (reasons : List (Bool × Outcome)) :
    firstOf ((b, o) :: reasons) = if b then o else firstOf reasons := by
  cases b <;> rfl

section

variable (answer : (c : StoreCall) → S → Except StoreError c.Answer × S) (token : Nat → String)
  (lifetime : Nat)

/-- Why a login may be turned down; of the reasons that apply the first one counts. -/
def reasons (r : Relay S) (a : Attempt) : List (Bool × Outcome) :=
  let name := a.username.text
  let looked := answer (.passwordHash a.userId.text) r.store
  let created := answer (.createToken (token r.drawn) a.userId.text lifetime) looked.2
  let marked := answer (.setPresence name a.id) created.2
  [((r.session a.slot).isAuthenticated, .alreadyLoggedIn),
    (name = "", .invalidPacket),
    (!looked.1.isOk, .serverError),
    (looked.1.toOption = some none, .userNotFound),
    (looked.1.toOption ≠ some (some (hashPassword a.password.text)), .authFailed),
    ((r.findName name).isSome, .alreadyLoggedIn),
    (!created.1.isOk, .serverError),
    (!marked.1.isOk, .serverError)]

/-- A login comes to `o`: it is refused, and nothing changes that is seen of the store, or the
connection is entered into the directory. -/
inductive Decided (r : Relay S) (slot : Nat) (id : SessionId) (name : String) :
    Outcome → Outcome × Relay S → Prop where
  | refused (o : Outcome) (s : S) (n : Nat) : o ≠ .success → Untouched answer r.store s →
      Decided r slot id name o (o, { r with store := s, drawn := n })
  | entered (s : S) (n : Nat) (drawn : String) {r' : Relay S} :
      { r with store := s, drawn := n }.register slot id name drawn = (.ok (), r') →
      Decided r slot id name .success (.success, r')

variable (hg : r.Guest slot id)

include hg

theorem enter_decided (hf : r.findName name = none) (s : S) (n : Nat) (drawn : String) :
    Decided answer r slot id name
      (firstOf [(!(answer (.setPresence name id) s).1.isOk, .serverError)])
      ({ r with store := s, drawn := n }.enter (.ofStore answer token lifetime) slot id name
        drawn) := by
  set v := Service.ofStore answer token lifetime
  have hask : v.ask (.setPresence name id) { r with store := s, drawn := n } =
      ((answer (.setPresence name id) s).1,
        { r with store := (answer (.setPresence name id) s).2, drawn := n }) := rfl
  rcases ha : answer (.setPresence name id) s with ⟨e | _, s'⟩
  · simp only [enter, hask, ha]
    apply Decided.refused .serverError _ n (by decide)
    intro _ view hv
    have hmarked := hv.marked name id s
    simp [ha] at hmarked
  · obtain ⟨r', he⟩ := (hg.withStore s' n).register hf drawn
    simp only [enter, hask, ha, he]
    exact .entered s' n drawn he

theorem grant_decided {s : S} (hs : Untouched answer r.store s) (n : Nat) (user : String) :
    let created := answer (.createToken (token n) user lifetime) s
    Decided answer r slot id name
      (firstOf [((r.findName name).isSome, .alreadyLoggedIn), (!created.1.isOk, .serverError),
        (!(answer (.setPresence name id) created.2).1.isOk, .serverError)])
      ({ r with store := s, drawn := n }.grant (.ofStore answer token lifetime) slot id user
        name) := by
  intro created
  set v := Service.ofStore answer token lifetime
  have hask : v.ask (.createToken (v.token n) user v.lifetime)
      { r with store := s, drawn := n + 1 } =
    (created.1, { r with store := created.2, drawn := n + 1 }) := rfl
  have hfind : { r with store := s, drawn := n }.findName name = r.findName name := rfl
  unfold grant
  rw [hfind]
  cases hf : r.findName name with
  | some j => exact .refused .alreadyLoggedIn s n (by decide) hs
  | none =>
    simp only [Option.isSome_none, Bool.false_eq_true, if_false, hask]
    rcases hc : created with ⟨e | _, s'⟩
    · apply Decided.refused .serverError s' (n + 1) (by decide)
      intro _ view hv
      have hrefused := hv.refused (token n) user lifetime s e (congrArg Prod.fst hc)
      exact (congrArg (view ·.2) hc).symm.trans (hrefused.trans (hs view hv))
    · exact enter_decided answer token lifetime hg hf s' (n + 1) _

omit hg in
theorem verdict_decided {a : Attempt} (hid : (r.session a.slot).id = a.id)
    (hlive : (r.session a.slot).isLive = true) :
    Decided answer r a.slot a.id a.username.text (firstOf (reasons answer token lifetime r a))
      (r.verdict (.ofStore answer token lifetime) a) := by
  set v := Service.ofStore answer token lifetime
  have hask : v.ask (.passwordHash a.userId.text) r =
    ((answer (.passwordHash a.userId.text) r.store).1,
      { r with store := (answer (.passwordHash a.userId.text) r.store).2 }) := rfl
  have hlookup : Untouched answer r.store (answer (.passwordHash a.userId.text) r.store).2 :=
    fun view hv => hv.lookup a.userId.text r.store
  unfold reasons verdict login
  cases hin : (r.session a.slot).isAuthenticated with
  | true =>
    have hname : ((r.session a.slot).nameOf a.id).isSome = true := by
      simp [Session.nameOf, Session.loggedInAs, hid, (Session.isAuthenticated_iff.1 hin).2]
    rw [if_pos hname]
    exact .refused .alreadyLoggedIn r.store r.drawn (by decide) fun _ _ => rfl
  | false =>
    have hg := guest_of_isLive hid hlive hin
    have hname : ¬ ((r.session a.slot).nameOf a.id).isSome = true := by
      simp [Session.nameOf, Session.loggedInAs, hg.phase]
    rw [if_neg hname]
    by_cases hempty : a.username.text = ""
    · simp only [hempty, if_true, firstOf_cons, decide_true, Bool.false_eq_true, if_false]
      exact .refused .invalidPacket r.store r.drawn (by decide) fun _ _ => rfl
    · simp only [hempty, if_false, firstOf_cons, decide_false, hask, Bool.false_eq_true]
      rcases hl : answer (.passwordHash a.userId.text) r.store with ⟨e | _ | hash, s⟩ <;>
        rw [hl] at hlookup
      · exact .refused .serverError s r.drawn (by decide) hlookup
      · exact .refused .userNotFound s r.drawn (by decide) hlookup
      · by_cases hhash : hashPassword a.password.text = hash
        · have hgrant : Decided answer r a.slot a.id a.username.text _ _ :=
            grant_decided answer token lifetime hg hlookup r.drawn a.userId.text
          simpa [hhash, Except.isOk, Except.toBool, Except.toOption] using hgrant
        · have hfailed : Decided answer r a.slot a.id a.username.text .authFailed
              (.authFailed, { r with store := s }) :=
            .refused .authFailed s r.drawn (by decide) hlookup
          simpa [hhash, Ne.symm hhash, Except.isOk, Except.toBool, Except.toOption] using hfailed

end

namespace Decided

variable {answer : (c : StoreCall) → S → Except StoreError c.Answer × S} {o : Outcome}
  {p : Outcome × Relay S} (h : Decided answer r slot id name o p)

include h

theorem outcome_eq : p.1 = o := by
  cases h <;> rfl

theorem links_eq : p.2.links = r.links := by
  cases h with
  | refused => rfl
  | entered s n drawn he =>
    have hlinks := links_register { r with store := s, drawn := n } slot id name drawn
    rwa [he] at hlinks

theorem session (k : Nat) : ∃ phase username token, p.2.session k =
    { r.session k with phase := phase, username := username, token := token } := by
  cases h with
  | refused => exact ⟨_, _, _, rfl⟩
  | entered s n drawn he =>
    have hsession := session_register { r with store := s, drawn := n } slot k id name drawn
    rwa [he] at hsession

theorem spared {k : Nat} (hne : slot ≠ k) : Spared r p.2 k := by
  refine ⟨?_, fun l _ => by rw [h.links_eq]⟩
  cases h with
  | refused => rfl
  | entered s n drawn he =>
    have hsession := session_register_of_ok he k
    rwa [if_neg hne] at hsession

theorem eq_of_ne_success (ho : o ≠ .success) :
    ∃ s n, p.2 = { r with store := s, drawn := n } ∧ Untouched answer r.store s := by
  cases h with
  | refused o s n _ hs => exact ⟨s, n, rfl, hs⟩
  | entered => exact absurd rfl ho

theorem nameOf_of_success (ho : o = .success) :
    (r.session slot).nameOf id = none ∧ (p.2.session slot).nameOf id = some name := by
  cases h with
  | refused o s n hne => exact absurd ho hne
  | entered s n drawn he =>
    have hsession := session_register_of_ok he slot
    rw [if_pos rfl] at hsession
    refine ⟨?_, hsession⟩
    rcases register_cases { r with store := s, drawn := n } slot id name drawn with
      ⟨-, he'⟩ | ⟨-, -, he'⟩ | ⟨s', -, ha, -⟩
    · cases he.symm.trans he'
    · cases he.symm.trans he'
    · have hphase : (r.session slot).phase = .connected :=
        (Session.authenticate_eq_some_iff.1 ha).1.2.2
      simp [Session.nameOf, Session.loggedInAs, hphase]

variable (hlive : (r.session slot).isLive = true)

include hlive

theorem isAuthenticated (ho : o = .success) : (p.2.session slot).isAuthenticated = true := by
  obtain ⟨phase, username, token, hsession⟩ := h.session slot
  obtain ⟨-, hname⟩ := h.nameOf_of_success ho
  apply Session.isAuthenticated_iff.2
  constructor
  · rw [congrArg Session.link hsession]
    exact (Session.isLive_iff.1 hlive).1
  · exact (Session.nameOf_eq_some_iff.1 hname).2.1

theorem isLive : (p.2.session slot).isLive = true := by
  by_cases ho : o = .success
  · exact Session.isLive_of_isAuthenticated (h.isAuthenticated hlive ho)
  · obtain ⟨s, n, he, -⟩ := h.eq_of_ne_success ho
    rw [he]
    exact hlive

end Decided

end Relay

end ChatRelay
