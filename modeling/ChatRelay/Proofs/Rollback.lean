import ChatRelay.Proofs.Relay.Login

/-! # Logins that are taken back

A login that fails may have drawn a token, marked its user online and freed a name. Whichever calls
of the store fail, sessions and the directory are as before then. So are tokens and presence, unless
a call failed that was to take something back.
-/

namespace ChatRelay

/-! ## Stores that fail -/

abbrev Tables : Type :=
  Table String TokenGrant × Table String SessionId

def Store.tables (s : Store) : Tables :=
  (s.tokens, s.presence)

namespace StoreCall

def takesBack : StoreCall → Bool
  | deleteToken _ | clearPresence _ => true
  | passwordHash _ | createToken .. | setPresence .. => false

def effect (now : Nat) (t : Tables) : StoreCall → Tables
  | passwordHash _ => t
  | createToken token userId lifetime => (t.1.insert token ⟨userId, now + lifetime⟩, t.2)
  | deleteToken token => (t.1.erase token, t.2)
  | setPresence name id => (t.1, t.2.insert name id)
  | clearPresence name => (t.1, t.2.erase name)

end StoreCall

theorem Store.tables_answer (s : Store) (c : StoreCall) :
    (s.answer c).2.tables =
      if (s.answer c).1.isOk then c.effect s.now s.tables else s.tables := by
  cases c with
  | passwordHash | deleteToken | setPresence | clearPresence => rfl
  | createToken =>
    simp only [answer, createToken?]
    split
    · rfl
    · rfl

/-- A store and what it was asked, oldest first, each call with whether it succeeded. -/
structure Journal where
  store : Store
  calls : List (StoreCall × Bool)

namespace Journal

def answer (fault : Nat → Option StoreError) (c : StoreCall) (j : Journal) :
    Except StoreError c.Answer × Journal :=
  match fault j.calls.length with
  | some e => (.error e, ⟨j.store, j.calls ++ [(c, false)]⟩)
  | none =>
    let (a, s) := j.store.answer c
    (a, ⟨s, j.calls ++ [(c, a.isOk)]⟩)

/-- Everything was taken back that was to be. -/
def TakenBack (made : List (StoreCall × Bool)) : Prop :=
  ∀ c ∈ made, c.1.takesBack = true → c.2 = true

instance TakenBack.decidable (made : List (StoreCall × Bool)) : Decidable (TakenBack made) :=
  inferInstanceAs (Decidable (∀ c ∈ made, _))

/-- `j'` comes of `j` by calls, and its tables are `t` if everything was taken back. -/
def Reaches (j j' : Journal) (t : Tables) : Prop :=
  ∃ made, j'.calls = j.calls ++ made ∧ (TakenBack made → j'.store.tables = t)

theorem Reaches.refl (j : Journal) : j.Reaches j j.store.tables :=
  ⟨[], (List.append_nil _).symm, fun _ => rfl⟩

theorem Reaches.answer {j j' : Journal} {t : Tables} (h : j.Reaches j' t)
    (fault : Nat → Option StoreError) (c : StoreCall) :
    ∃ now a j'', j'.answer fault c = (a, j'') ∧
      j.Reaches j'' (if a.isOk || c.takesBack then c.effect now t else t) := by
  obtain ⟨made, hmade, htables⟩ := h
  have hstep (b : Bool) (s : Store) (hs : s.tables =
      if b then c.effect j'.store.now j'.store.tables else j'.store.tables) :
      j.Reaches ⟨s, j'.calls ++ [(c, b)]⟩
        (if b || c.takesBack then c.effect j'.store.now t else t) := by
    refine ⟨made ++ [(c, b)], by simp [hmade], fun hback => ?_⟩
    have hbefore := htables fun d hd => hback d (List.mem_append_left _ hd)
    have hlast : c.takesBack = true → b = true :=
      hback (c, b) (List.mem_append_right _ List.mem_cons_self)
    rw [hs, hbefore]
    cases b <;> simp_all
  refine ⟨j'.store.now, ?_⟩
  unfold Journal.answer
  cases fault j'.calls.length with
  | some e => exact ⟨_, _, rfl, hstep false _ rfl⟩
  | none => exact ⟨_, _, rfl, hstep _ _ (j'.store.tables_answer c)⟩

end Journal

def Service.faulty (fault : Nat → Option StoreError) : (Nat → String) → Nat → Service Journal :=
  .ofStore (Journal.answer fault)

namespace Relay

/-! ## What is taken back -/

/-- What sessions know of their connections is the same, and who is found is. -/
structure Unmoved {S : Type} (r r' : Relay S) : Prop where
  identity : ∀ k, (r'.session k).identity = (r.session k).identity
  byId : r'.directory.byId = r.directory.byId
  findName : ∀ name, r'.findName name = r.findName name

section

variable {S : Type} {r r' r'' : Relay S} {slot : Nat} {id : SessionId} {name drawn : String}

theorem Unmoved.trans (h : Unmoved r r') (h' : Unmoved r' r'') : Unmoved r r'' :=
  ⟨fun k => (h'.identity k).trans (h.identity k), h'.byId.trans h.byId,
    fun name => (h'.findName name).trans (h.findName name)⟩

theorem Traffic.unmoved (h : Traffic r r') : Unmoved r r' :=
  ⟨h.identity, congrArg Directory.byId h.directory, h.findName_eq⟩

theorem unmoved_register {e : DirectoryError}
    (he : r.register slot id name drawn = (.error e, r')) : Unmoved r r' := by
  rcases register_cases r slot id name drawn with ⟨-, he'⟩ | ⟨hf, -, he'⟩ | ⟨s, -, -, he'⟩
  · cases he.symm.trans he'
    exact ⟨fun _ => rfl, rfl, fun _ => rfl⟩
  · cases he.symm.trans he'
    refine ⟨fun _ => rfl, rfl, fun other => ?_⟩
    have hfind := Table.get?_erase r.directory.byName name other
    split at hfind
    · next hn =>
      rw [← hn] at hfind ⊢
      rw [hf, findName, hfind]
      rfl
    · rw [findName, hfind]
      rfl
  · cases he.symm.trans he'

end

/-- Sessions and the directory are as before, and so are the tables if everything was taken back. -/
structure Undone (r r' : Relay Journal) : Prop where
  unmoved : Unmoved r r'
  reaches : r.store.Reaches r'.store r.store.store.tables

theorem undone_of_reaches {r : Relay Journal} {j : Journal}
    (h : r.store.Reaches j r.store.store.tables) (n : Nat) :
    Undone r { r with store := j, drawn := n } :=
  ⟨⟨fun _ => rfl, rfl, fun _ => rfl⟩, h⟩

section

variable (fault : Nat → Option StoreError) (token : Nat → String) (lifetime : Nat)
  {r : Relay Journal} {j : Journal} {t : Tables} {slot : Nat} {id : SessionId}
  {user password name drawn : String}

/-! ## Calls -/

theorem ask_faulty (h : j.Reaches r.store t) (c : StoreCall) :
    ∃ now a j', (Service.faulty fault token lifetime).ask c r = (a, { r with store := j' }) ∧
      j.Reaches j' (if a.isOk || c.takesBack then c.effect now t else t) := by
  obtain ⟨now, a, j', ha, hj⟩ := h.answer fault c
  exact ⟨now, a, j', congrArg (fun p => (p.1, { r with store := p.2 })) ha, hj⟩

theorem reaches_dropToken {g : TokenGrant} (h : j.Reaches r.store (t.1.insert drawn g, t.2))
    (ht : t.1.get? drawn = none) :
    ∃ j', r.dropToken (.faulty fault token lifetime) drawn = { r with store := j' } ∧
      j.Reaches j' t := by
  obtain ⟨now, a, j', ha, hj⟩ := ask_faulty fault token lifetime h (.deleteToken drawn)
  refine ⟨j', congrArg Prod.snd ha, ?_⟩
  simpa [StoreCall.takesBack, StoreCall.effect, Table.erase_insert_self ht] using hj

theorem reaches_clearPresence (h : j.Reaches r.store (t.1, t.2.insert name id))
    (hp : t.2.get? name = none) :
    ∃ j', ((Service.faulty fault token lifetime).ask (.clearPresence name) r).2 =
      { r with store := j' } ∧ j.Reaches j' t := by
  obtain ⟨now, a, j', ha, hj⟩ := ask_faulty fault token lifetime h (.clearPresence name)
  refine ⟨j', congrArg Prod.snd ha, ?_⟩
  simpa [StoreCall.takesBack, StoreCall.effect, Table.erase_insert_self hp] using hj

/-! ## Logins -/

section

variable (hf : r.findName name = none) (hp : r.store.store.presence.get? name = none)

include hf hp

theorem enter_undone (ht : r.store.store.tokens.get? drawn = none) {g : TokenGrant}
    (hj : r.store.Reaches j (r.store.store.tokens.insert drawn g, r.store.store.presence))
    (n : Nat) :
    let o := { r with store := j, drawn := n }.enter (.faulty fault token lifetime) slot id name
      drawn
    o.1 ≠ .success → Undone r o.2 := by
  intro o ho
  obtain ⟨now, a, j₁, ha, hj₁⟩ := ask_faulty fault token lifetime
    (r := { r with store := j, drawn := n }) hj (.setPresence name id)
  set r₁ : Relay Journal := { r with store := j₁, drawn := n }
  cases a with
  | error e =>
    obtain ⟨j₂, hdrop, hj₂⟩ := reaches_dropToken fault token lifetime
      (r := r₁) (t := r.store.store.tables) hj₁ ht
    have ho' : o = (.serverError, { r₁ with store := j₂ }) := by
      simp only [o, enter, ha, hdrop]
    rw [ho']
    exact undone_of_reaches hj₂ n
  | ok =>
    rcases he : r₁.register slot id name drawn with ⟨e | _, r'⟩
    · obtain rfl := eq_invalidSession_of_free (r := r₁) hf he
      have hunmoved := unmoved_register he
      have hstore : r'.store = r₁.store := by
        rw [← store_register r₁ slot id name drawn, he]
      rw [← show r'.store = j₁ from hstore] at hj₁
      obtain ⟨j₂, hdrop, hj₂⟩ := reaches_dropToken fault token lifetime
        (r := r') (t := (r.store.store.tokens, r.store.store.presence.insert name id)) hj₁ ht
      obtain ⟨j₃, hclear, hj₃⟩ := reaches_clearPresence fault token lifetime
        (r := { r' with store := j₂ }) (t := r.store.store.tables) hj₂ hp
      have ho' : o = (.serverError, { r' with store := j₃ }) := by
        simp only [o, enter, ha, he, hdrop, hclear]
      rw [ho']
      exact ⟨⟨hunmoved.identity, hunmoved.byId, hunmoved.findName⟩, hj₃⟩
    · exact absurd (by simp only [o, enter, ha, he]) ho

end

variable (hp : (r.store.store.presence? name).isSome → (r.findName name).isSome)

include hp

theorem grant_undone (hj : r.store.Reaches j r.store.store.tables)
    (ht : r.store.store.tokens.get? (token r.drawn) = none) :
    let o := { r with store := j }.grant (.faulty fault token lifetime) slot id user name
    o.1 ≠ .success → Undone r o.2 := by
  intro o ho
  by_cases hf : (r.findName name).isSome
  · have ho' : o = (.alreadyLoggedIn, { r with store := j }) := if_pos hf
    rw [ho']
    exact undone_of_reaches hj r.drawn
  have ho' : o = _ := if_neg hf
  obtain ⟨now, a, j₁, ha, hj₁⟩ := ask_faulty fault token lifetime
    (r := { r with store := j, drawn := r.drawn + 1 }) hj
    (.createToken (token r.drawn) user lifetime)
  change (Service.faulty fault token lifetime).ask (.createToken
    ((Service.faulty fault token lifetime).token r.drawn) user
    (Service.faulty fault token lifetime).lifetime) _ = _ at ha
  simp only [ha] at ho'
  cases a with
  | error e =>
    rw [ho']
    exact undone_of_reaches hj₁ (r.drawn + 1)
  | ok =>
    have hp' : r.store.store.presence.get? name = none :=
      Option.not_isSome_iff_eq_none.1 fun hin => hf (hp hin)
    rw [ho'] at ho ⊢
    exact enter_undone fault token lifetime (Option.not_isSome_iff_eq_none.1 hf) hp' ht hj₁ _ ho

theorem login_undone (ht : r.store.store.tokens.get? (token r.drawn) = none) :
    let o := r.login (.faulty fault token lifetime) slot id user password name
    o.1 ≠ .success → Undone r o.2 := by
  intro o ho
  have hstart : r.store.Reaches r.store r.store.store.tables := .refl _
  obtain ⟨now, a, j, ha, hj⟩ := ask_faulty fault token lifetime hstart (.passwordHash user)
  replace hj : r.store.Reaches j r.store.store.tables := by
    simpa [StoreCall.takesBack, StoreCall.effect] using hj
  by_cases hlogged : ((r.session slot).nameOf id).isSome
  · have ho' : o = (.alreadyLoggedIn, r) := if_pos hlogged
    rw [ho']
    exact undone_of_reaches hstart r.drawn
  by_cases hn : name = ""
  · have ho' : o = (.invalidPacket, r) := (if_neg hlogged).trans (if_pos hn)
    rw [ho']
    exact undone_of_reaches hstart r.drawn
  have ho' : o = _ := (if_neg hlogged).trans (if_neg hn)
  rw [ha] at ho'
  rcases a with e | _ | hash
  · rw [ho']
    exact undone_of_reaches hj r.drawn
  · rw [ho']
    exact undone_of_reaches hj r.drawn
  · by_cases hpassword : hashPassword password = hash
    · replace ho' := ho'.trans (if_pos hpassword)
      rw [ho'] at ho ⊢
      exact grant_undone fault token lifetime hp hj ht ho
    · replace ho' := ho'.trans (if_neg hpassword)
      rw [ho']
      exact undone_of_reaches hj r.drawn

end

/-- A login that fails, for whatever reason and whichever calls of the store fail, leaves what
sessions know and who is found as it was. If moreover every call succeeded that was to take
something back, tokens and presence are as they were. -/
theorem login_rolled_back (fault : Nat → Option StoreError) (token : Nat → String) (lifetime : Nat)
    (r : Relay Journal) (a : Attempt)
    (hp : ∀ name id, r.store.store.presence? name = some id → (r.findName name).isSome)
    (ht : r.store.store.tokens.get? (token r.drawn) = none)
    (ho : (r.verdict (.faulty fault token lifetime) a).1 ≠ .success) :
    let r' := r.attempt (.faulty fault token lifetime) a
    (∀ k, (r'.session k).identity = (r.session k).identity) ∧
      (∀ name, r'.findName name = r.findName name) ∧
      (∀ id, r'.findId id = r.findId id) ∧
      r'.authenticated = r.authenticated ∧
      ∃ made, r'.store.calls = r.store.calls ++ made ∧
        (Journal.TakenBack made → r'.store.store.tokens = r.store.store.tokens ∧
          r'.store.store.presence = r.store.store.presence) := by
  intro r'
  have hpresence : (r.store.store.presence? a.username.text).isSome →
      (r.findName a.username.text).isSome := by
    intro hin
    obtain ⟨id, hid⟩ := Option.isSome_iff_exists.1 hin
    exact hp _ id hid
  obtain ⟨hverdict, made, hmade, htables⟩ := login_undone fault token lifetime hpresence ht ho
  have hunmoved : Unmoved r r' := hverdict.trans (traffic_attempt _ r a).unmoved
  have hstore : r'.store = (r.verdict (.faulty fault token lifetime) a).2.store :=
    store_attempt _ r a
  refine ⟨hunmoved.identity, hunmoved.findName, ?_, ?_, made, ?_, fun hback => ?_⟩
  · exact congrFun (findId_congr hunmoved.identity hunmoved.byId)
  · exact congrArg Table.size hunmoved.byId
  · rw [hstore]
    exact hmade
  · rw [hstore]
    exact Prod.ext_iff.1 (htables hback)

/-- Ann has been forgotten, but her slot is not given back yet when she asks to be logged in. Her
name is freed, under which nobody was found, and the new token is deleted if the store can. -/
theorem login_rolled_back_departing :
    let login (name : String) := Packet.loginRequest .blank .blank (.truncated name)
    let failing (n : Nat) : Option StoreError := if n = 8 then some (.unavailable "down") else none
    let v := Service.faulty (fun _ => none) (fun _ => "t") 60
    let w := Service.faulty failing (fun _ => "t") 60
    let e := Engine.start 1 ⟨1024, 1024, maxPacketSize, 4⟩
      (⟨Store.empty.addUser "" "", []⟩ : Journal)
    let steps : List Engine.Step :=
      [.accept (.ofPeer none), .complete (.received 0 1 (.ok (login "ann").encode))]
    let r := ((e.run v steps).relay.depart 0 1).2.forget v "ann" (some "t")
    let ann : Attempt := ⟨0, 1, .blank, .blank, .truncated "ann"⟩
    (r.attempt v ann).directory.byName.get? "ann" ≠ r.directory.byName.get? "ann" ∧
      (r.attempt v ann).findName "ann" = r.findName "ann" ∧
      (r.attempt v ann).store.store.tokens = r.store.store.tokens ∧
      (r.attempt v ann).store.store.presence = r.store.store.presence ∧
      (r.attempt w ann).findName "ann" = r.findName "ann" ∧
      (r.attempt w ann).store.store.tokens.contains "t" = true := by
  intro login failing v w e steps r ann
  have hready : r.store.store.presence.size = 0 ∧ r.store.store.tokens.get? "t" = none ∧
      (r.verdict v ann).1 ≠ .success ∧ (r.verdict w ann).1 ≠ .success ∧
      (r.attempt v ann).directory.byName.get? "ann" ≠ r.directory.byName.get? "ann" ∧
      Journal.TakenBack ((r.attempt v ann).store.calls.drop r.store.calls.length) ∧
      (r.attempt w ann).store.store.tokens.contains "t" = true := by
    decide +kernel
  clear_value r
  obtain ⟨hempty, ht, hv, hw, hfreed, hback, hkept⟩ := hready
  have hp (name : String) (id : SessionId) (hid : r.store.store.presence? name = some id) :
      (r.findName name).isSome := by
    cases (Table.size_eq_zero_iff.1 hempty name).symm.trans hid
  obtain ⟨-, hfind, -, -, made, hmade, htables⟩ :=
    login_rolled_back (fun _ => none) (fun _ => "t") 60 r ann hp ht hv
  obtain ⟨-, hfind', -⟩ := login_rolled_back failing (fun _ => "t") 60 r ann hp ht hw
  rw [hmade, List.drop_left] at hback
  exact ⟨hfreed, hfind "ann", (htables hback).1, (htables hback).2, hfind' "ann", hkept⟩

end Relay

end ChatRelay
