import ChatRelay.Proofs.Relay.Teardown
import ChatRelay.Proofs.Runs

/-! # Logins that fail

A login marks its user online before it knows whether the session can be logged in, and takes the
mark back by a call of its own. While the store is asked, others log in and are torn down. Presence
is right afterwards unless the call that takes the mark back says what is not true any more.
-/

namespace ChatRelay

open Relation (ReflTransGen)

/-- What others do while a call is under way, each thing from beginning to end. -/
inductive Occurrence where
  | attempt (a : Attempt)
  | disconnect (slot : Nat) (id : SessionId) (announced : Bool)

def Relay.occur {S : Type} (v : Service S) (r : Relay S) : Occurrence → Relay S
  | .attempt a => r.attempt v a
  | .disconnect slot id announced => r.disconnect v slot id announced

def Relay.occurs {S : Type} (v : Service S) (r : Relay S) (os : List Occurrence) : Relay S :=
  os.foldl (Relay.occur v) r

/-- The service `v`, but others come first whenever a call is about to do its work. -/
def Service.during {S : Type} (v : Service S) (before : StoreCall → Relay S → List Occurrence) :
    Service S where
  ask c r := v.ask c (r.occurs v (before c r))
  token := v.token
  lifetime := v.lifetime

/-- What the call says of presence is so. -/
def StoreCall.Truthful (c : StoreCall) (r : Relay Store) : Prop :=
  match c with
  | .setPresence name id => (r.findName name).map (fun k => (r.session k).id) = some id
  | .clearPresence name => r.findName name = none
  | _ => True

instance StoreCall.Truthful.decidable : (c : StoreCall) → (r : Relay Store) →
    Decidable (c.Truthful r)
  | .setPresence .., _ => inferInstanceAs (Decidable (_ = _))
  | .clearPresence _, _ => inferInstanceAs (Decidable (_ = _))
  | .passwordHash _, _ | .createToken .., _ | .deleteToken _, _ => .isTrue trivial

namespace Relay

/-! ## What a login takes back -/

section

variable {S : Type} (v : Service S) (slot : Nat) (id : SessionId) (user password name : String)

def granted (r : Relay S) : Option (String × Relay S) :=
  if (r.findName name).isSome then none
  else
    let token := v.token r.drawn
    match v.ask (.createToken token user v.lifetime) { r with drawn := r.drawn + 1 } with
    | (.error _, _) => none
    | (.ok (), r) =>
      match v.ask (.setPresence name id) r with
      | (.error _, _) => none
      | (.ok (), r) => some (token, r)

/-- The token with which a login marks its user online, if it does, and the relay then. -/
def marked (r : Relay S) : Option (String × Relay S) :=
  if ((r.session slot).nameOf id).isSome then none
  else if name = "" then none
  else
    match v.ask (.passwordHash user) r with
    | (.error _, _) | (.ok none, _) => none
    | (.ok (some hash), r) =>
      if hashPassword password = hash then r.granted v id user name else none

/-- The last steps of a login that has marked its user online. -/
def settle (token : String) (r : Relay S) : Outcome × Relay S :=
  match r.register slot id name token with
  | (.ok (), r) => (.success, r)
  | (.error (.nameTaken _), r) => (.alreadyLoggedIn, (r.dropToken v token).restorePresence v name)
  | (.error (.invalidSession _), r) =>
    (.serverError, (v.ask (.clearPresence name) (r.dropToken v token)).2)

/-- The call by which such a login takes the mark back, if it does, and the relay that makes it. -/
def retraction (token : String) (r : Relay S) : Option (StoreCall × Relay S) :=
  match r.register slot id name token with
  | (.ok (), _) => none
  | (.error (.nameTaken _), r) =>
    let r := r.dropToken v token
    (r.findName name).map fun winner => (.setPresence name (r.session winner).id, r)
  | (.error (.invalidSession _), r) => some (.clearPresence name, r.dropToken v token)

end

variable {token : Nat → String} {lifetime : Nat}
  {before : StoreCall → Relay Store → List Occurrence} {r r' : Relay Store} {slot k : Nat}
  {id : SessionId} {user password name drawn : String}

theorem agrees_ask_iff (token : Nat → String) (lifetime : Nat) (c : StoreCall) (r : Relay Store)
    (hc : (∃ i, c = .setPresence name i) ∨ c = .clearPresence name) :
    (((Service.direct token lifetime).ask c r).2.Agrees name ↔ c.Truthful r) := by
  obtain ⟨i, rfl⟩ | rfl := hc
  · have hp : ((Service.direct token lifetime).ask (.setPresence name i) r).2.store.presence? name =
        some i := (Table.get?_insert ..).trans (if_pos rfl)
    rw [Agrees, hp]
    exact eq_comm
  · have hp : ((Service.direct token lifetime).ask (.clearPresence name) r).2.store.presence? name =
        none := (Table.get?_erase ..).trans (if_pos rfl)
    rw [Agrees, hp, eq_comm, Option.map_eq_none_iff]
    exact Iff.rfl

/-! ## What others do meanwhile -/

theorem occur_moves (token : Nat → String) (lifetime : Nat) (r : Relay Store) (o : Occurrence) :
    ReflTransGen Move r (r.occur (.direct token lifetime) o) := by
  have hv := direct_within token lifetime
  cases o with
  | attempt a => exact ReflTransGen.mono (fun _ _ => Deed.move) _ _ (attempt_deeds hv r a)
  | disconnect slot id announced =>
    exact disconnect_moves (hv.mono fun _ _ => Deed.move) r slot id announced

theorem Orderly.occurs (h : Orderly r) (os : List Occurrence) :
    Orderly (r.occurs (.direct token lifetime) os) := by
  induction os generalizing r with
  | nil => exact h
  | cons o os ih => exact ih (h.of_moves (occur_moves token lifetime r o))

theorem Agrees.occur (ha : r.Agrees name) (h : Orderly r) (o : Occurrence) :
    (r.occur (.direct token lifetime) o).Agrees name := by
  cases o with
  | attempt a => exact ha.attempt h a
  | disconnect slot id announced => exact ha.disconnect h slot id announced

theorem Agrees.occurs (ha : r.Agrees name) (h : Orderly r) (os : List Occurrence) :
    (r.occurs (.direct token lifetime) os).Agrees name := by
  induction os generalizing r with
  | nil => exact ha
  | cons o os ih => exact ih (ha.occur h o) (h.of_moves (occur_moves token lifetime r o))

theorem found_or_agrees_occur (token : Nat → String) (lifetime : Nat) (h : Orderly r)
    (hk : r.findName name = some k) (o : Occurrence) :
    (r.occur (.direct token lifetime) o).findName name = some k ∨
      (r.occur (.direct token lifetime) o).Agrees name := by
  cases o with
  | attempt a =>
    have hd := attempt_deeds (direct_within token lifetime) r a
    exact .inl (findName_of_deeds h hd hk).1
  | disconnect slot id announced =>
    have hfind := findName_disconnect token lifetime h slot id announced name
    by_cases hx : (r.session slot).nameOf id = some name
    · refine .inr ((agrees_of_free ?_).2 ?_)
      · exact Option.eq_none_iff_forall_ne_some.2 fun k hk => ((hfind k).1 hk).1 hx
      · exact (presence_disconnect token lifetime h slot id announced name).trans (if_pos hx)
    · exact .inl ((hfind k).2 ⟨hx, hk⟩)

theorem found_or_agrees_occurs (token : Nat → String) (lifetime : Nat) (h : Orderly r)
    (hk : r.findName name = some k) (os : List Occurrence) :
    (r.occurs (.direct token lifetime) os).findName name = some k ∨
      (r.occurs (.direct token lifetime) os).Agrees name := by
  induction os generalizing r with
  | nil => exact .inl hk
  | cons o os ih =>
    have h' := h.of_moves (occur_moves token lifetime r o)
    obtain hk' | ha := found_or_agrees_occur token lifetime h hk o
    · exact ih h' hk'
    · exact .inr (ha.occurs h' os)

/-! ## Logins among others -/

section

variable (token : Nat → String) (lifetime : Nat)
  (before : StoreCall → Relay Store → List Occurrence) (slot : Nat) (id : SessionId)
  (user password : String) (h : Orderly r) (ha : r.Agrees name)

include h ha

/-- A login that does not get as far as to mark its user online leaves presence right. -/
theorem grant_cases :
    let v := (Service.direct token lifetime).during before
    (r.granted v id user name = none ∧ (r.grant v slot id user name).1 ≠ .success ∧
      (r.grant v slot id user name).2.Agrees name) ∨
    ∃ drawn r', r.granted v id user name = some (drawn, r') ∧ Orderly r' ∧
      r.grant v slot id user name = r'.settle v slot id name drawn := by
  intro v
  unfold granted grant
  by_cases hfound : (r.findName name).isSome
  · rw [if_pos hfound, if_pos hfound]
    exact .inl ⟨rfl, nofun, ha⟩
  · rw [if_neg hfound, if_neg hfound]
    set r₀ : Relay Store := { r with drawn := r.drawn + 1 }
    set r₁ := r₀.occurs (.direct token lifetime)
      (before (.createToken (v.token r.drawn) user v.lifetime) r₀)
    have h₀ : Orderly r₀ := (Deed.store r _ _).orderly h
    have ha₁ : r₁.Agrees name := Agrees.occurs (r := r₀) ha h₀ _
    obtain ⟨a, s, hs, hp, -⟩ := r₁.store.answer_createToken (v.token r.drawn) user v.lifetime
    have hask : v.ask (.createToken (v.token r.drawn) user v.lifetime) r₀ =
        (a, { r₁ with store := s }) := congrArg (fun p => (p.1, { r₁ with store := p.2 })) hs
    have h₂ : Orderly { r₁ with store := s } := (Deed.store r₁ s _).orderly (h₀.occurs _)
    have ha₂ : Agrees { r₁ with store := s } name := (congrArg (Table.get? · name) hp).trans ha₁
    dsimp only
    rw [hask]
    cases a with
    | error e => exact .inl ⟨rfl, nofun, ha₂⟩
    | ok => exact .inr ⟨_, _, rfl, (Deed.store _ _ _).orderly (h₂.occurs _), rfl⟩

theorem login_cases :
    let v := (Service.direct token lifetime).during before
    (r.marked v slot id user password name = none ∧
      (r.login v slot id user password name).1 ≠ .success ∧
      (r.login v slot id user password name).2.Agrees name) ∨
    ∃ drawn r', r.marked v slot id user password name = some (drawn, r') ∧ Orderly r' ∧
      r.login v slot id user password name = r'.settle v slot id name drawn := by
  intro v
  unfold marked login
  by_cases hlogged : ((r.session slot).nameOf id).isSome
  · rw [if_pos hlogged, if_pos hlogged]
    exact .inl ⟨rfl, nofun, ha⟩
  rw [if_neg hlogged, if_neg hlogged]
  by_cases hn : name = ""
  · rw [if_pos hn, if_pos hn]
    exact .inl ⟨rfl, nofun, ha⟩
  rw [if_neg hn, if_neg hn]
  set r₁ := r.occurs (.direct token lifetime) (before (.passwordHash user) r)
  have hhash : v.ask (.passwordHash user) r = (.ok (r₁.store.passwordHash? user), r₁) := rfl
  have ha₁ : r₁.Agrees name := ha.occurs h _
  rw [hhash]
  cases r₁.store.passwordHash? user with
  | none => exact .inl ⟨rfl, nofun, ha₁⟩
  | some hash =>
    by_cases hpassword : hashPassword password = hash
    · simp only [if_pos hpassword]
      exact grant_cases token lifetime before slot id user (h.occurs _) ha₁
    · simp only [if_neg hpassword]
      exact .inl ⟨trivial, nofun, ha₁⟩

end

/-- Once a login has marked its user online, presence is right in the end exactly if the call that
takes the mark back, if there is one, is truthful when it does its work. -/
theorem settle_agrees_iff (token : Nat → String) (lifetime : Nat)
    (before : StoreCall → Relay Store → List Occurrence) (slot : Nat) (id : SessionId)
    (name drawn : String) (h : Orderly r) :
    let v := (Service.direct token lifetime).during before
    (r.settle v slot id name drawn).1 ≠ .success →
    ((r.settle v slot id name drawn).2.Agrees name ↔
      ∀ c r₁, r.retraction v slot id name drawn = some (c, r₁) →
        c.Truthful (r₁.occurs (.direct token lifetime) (before c r₁))) := by
  intro v
  unfold settle retraction
  rcases register_cases r slot id name drawn with ⟨hfound, he⟩ | ⟨-, -, he⟩ | ⟨s, -, -, he⟩
  · rw [he]
    obtain ⟨k, hk⟩ := Option.isSome_iff_exists.1 hfound
    have hdropped := found_or_agrees_occurs token lifetime h hk (before (.deleteToken drawn) r)
    set r₁ := r.dropToken v drawn with hr₁
    replace hdropped : r₁.findName name = some k ∨ r₁.Agrees name := hdropped
    intro _
    dsimp only
    rw [restorePresence]
    cases hw : r₁.findName name with
    | none =>
      have ha := hdropped.resolve_left (by simp [hw])
      exact iff_of_true ha fun _ _ => nofun
    | some winner =>
      refine (agrees_ask_iff token lifetime (.setPresence name (r₁.session winner).id) _
        (.inl ⟨_, rfl⟩)).trans ?_
      simp [← hr₁]
  · rw [he]
    intro _
    refine (agrees_ask_iff token lifetime (.clearPresence name) _ (.inr rfl)).trans ?_
    simp
  · rw [he]
    exact fun ho => absurd rfl ho

/-- After a login that fails, whatever others did while the store was asked, presence is right
exactly if the login did not mark its user online in vain, or the call that took the mark back was
truthful when it did its work: that is, if the winner of the name was still logged in, or if nobody
had logged in under the name of a session that was gone. -/
theorem login_agrees_iff {capacity : Nat} {limits : Limits} {store : Store} (token : Nat → String)
    (lifetime : Nat) (before : StoreCall → Relay Store → List Occurrence)
    (hm : ReflTransGen Move (.start capacity limits store) r) (ha : r.Agrees name)
    (user password : String) :
    let v := (Service.direct token lifetime).during before
    let o := r.login v slot id user password name
    o.1 ≠ .success →
    (o.2.Agrees name ↔ ∀ drawn r' c r₁, r.marked v slot id user password name = some (drawn, r') →
      r'.retraction v slot id name drawn = some (c, r₁) →
      c.Truthful (r₁.occurs (.direct token lifetime) (before c r₁))) := by
  intro v o ho
  have h : Orderly r := (Orderly.start ..).of_moves hm
  obtain ⟨hnone, -, hagrees⟩ | ⟨drawn, r', hsome, h', he⟩ :=
    login_cases token lifetime before slot id user password h ha
  · refine iff_of_true hagrees fun drawn r' c r₁ hs => ?_
    cases hnone.symm.trans hs
  · have hiff := settle_agrees_iff token lifetime before slot id name drawn h'
    dsimp only at hiff
    rw [← he] at hiff
    refine (hiff ho).trans ⟨fun hc drawn' r'' c r₁ hs => ?_, fun hc c r₁ => hc _ _ c r₁ hsome⟩
    cases hsome.symm.trans hs
    exact hc c r₁

def guests : Engine Store :=
  (Engine.start 2 ⟨128, 128, maxPacketSize, 4⟩ (Store.empty.addUser "" "")).run
    (.direct (fun n => String.ofList (List.replicate n 't')) 60)
    [.accept (.ofPeer none), .accept (.ofPeer none)]

/-- The second of them logs in as ann before the first is marked online. -/
def overtaking : StoreCall → Relay Store → List Occurrence
  | .setPresence _ 1, _ => [.attempt ⟨1, 2, .blank, .blank, .truncated "ann"⟩]
  | _, _ => []

/-- It does, but is torn down before it gets its presence back. -/
def vanishing : StoreCall → Relay Store → List Occurrence
  | .setPresence _ 2, _ => [.disconnect 1 2 true]
  | c, r => overtaking c r

/-- The first is torn down before it is marked online, and the second logs in as ann before the mark
is cleared. -/
def replacing : StoreCall → Relay Store → List Occurrence
  | .setPresence _ 1, _ => [.disconnect 0 1 true]
  | .clearPresence _, _ => [.attempt ⟨1, 2, .blank, .blank, .truncated "ann"⟩]
  | _, _ => []

theorem guests_reachable :
    ReflTransGen Move (.start 2 ⟨128, 128, maxPacketSize, 4⟩ (Store.empty.addUser "" ""))
      guests.relay :=
  Engine.moves_run_start (direct_within _ _) (by decide)

/-- The call gives the name back to the winner of the race. -/
theorem login_agrees_iff_overtaken :
    let v := (Service.direct (fun n => String.ofList (List.replicate n 't')) 60).during overtaking
    let o := guests.relay.login v 0 1 "" "" "ann"
    o.1 = .alreadyLoggedIn ∧ o.2.findName "ann" = some 1 ∧ o.2.Agrees "ann" := by
  intro v o
  have hrun : guests.relay.Agrees "ann" ∧ o.1 = .alreadyLoggedIn ∧ o.2.findName "ann" = some 1 ∧
      ∀ p ∈ guests.relay.marked v 0 1 "" "" "ann", ∀ q ∈ p.2.retraction v 0 1 "ann" p.1,
        q.1.Truthful (q.2.occurs (.direct (fun n => String.ofList (List.replicate n 't')) 60)
          (overtaking q.1 q.2)) := by
    decide +kernel
  obtain ⟨ha, ho, hk, htruthful⟩ := hrun
  refine ⟨ho, hk, (login_agrees_iff _ 60 overtaking guests_reachable ha "" "" ?_).2 ?_⟩
  · exact fun hs => nomatch ho.symm.trans hs
  · exact fun drawn r' c r₁ hmarked hretraction => htruthful _ hmarked _ hretraction

/-- The name may be given back to a winner that is gone, and the mark of one that has logged in
meanwhile may be cleared. -/
theorem login_disagrees :
    let v := Service.direct (fun n => String.ofList (List.replicate n 't')) 60
    let o := guests.relay.login (v.during vanishing) 0 1 "" "" "ann"
    let o' := guests.relay.login (v.during replacing) 0 1 "" "" "ann"
    ReflTransGen Move (.start 2 ⟨128, 128, maxPacketSize, 4⟩ (Store.empty.addUser "" ""))
        guests.relay ∧
      guests.relay.Agrees "ann" ∧
      (o.1 = .alreadyLoggedIn ∧ o.2.findName "ann" = none ∧
        o.2.store.presence? "ann" = some 2) ∧
      o'.1 = .serverError ∧ o'.2.findName "ann" = some 1 ∧ (o'.2.session 1).id = 2 ∧
        o'.2.store.presence? "ann" = none := by
  refine ⟨guests_reachable, ?_⟩
  decide +kernel

end Relay

end ChatRelay
