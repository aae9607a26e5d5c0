import ChatRelay.Proofs.Directory

/-! # Registrations that fail

A session that is refused a name may have cost another one its entry: the name of a session that is
being torn down is dropped before it is known whether the new one may have it. Nobody can tell. What
is asked of the relay from then on is answered as if the registration had not been tried.
-/

namespace ChatRelay

open Relation (ReflTransGen)

variable {S : Type}

namespace Relay

variable {r r' : Relay S} {slot k : Nat} {id : SessionId} {name token : String}

/-! ## Why a registration fails -/

/-- The session in slot `k` is live, and the directory leads to it from `name`. -/
structure Owns (r : Relay S) (k : Nat) (name : String) : Prop where
  isLive : (r.session k).isLive = true
  byName : r.directory.byName.get? name = some (r.session k).id
  byId : r.directory.byId.get? (r.session k).id = some k

theorem Consistent.findName_eq_some_iff_owns (h : Consistent r) :
    r.findName name = some k ↔ r.Owns k name := by
  simp only [findName, findId, Option.bind_eq_some_iff, Option.filter_eq_some_iff]
  constructor
  · rintro ⟨id, hname, hid, hlive⟩
    obtain ⟨rfl, -⟩ := h.byId id k hid
    exact ⟨hlive, hname, hid⟩
  · rintro ⟨hlive, hname, hid⟩
    exact ⟨_, hname, hid, hlive⟩

theorem Consistent.isSome_findName_iff (h : Consistent r) :
    (r.findName name).isSome ↔ ∃ k, r.Owns k name := by
  simp only [Option.isSome_iff_exists, h.findName_eq_some_iff_owns]

theorem authenticate_eq_none_iff {s : Session} : s.authenticate id name token = none ↔
    s.id ≠ id ∨ s.link = none ∨ s.phase ≠ .connected := by
  rw [Session.authenticate, ite_eq_right_iff]
  simp [imp_iff_not_or, Option.isSome_iff_ne_none]

theorem register_eq_nameTaken_iff : (r.register slot id name token).1 = .error (.nameTaken name) ↔
    (r.findName name).isSome := by
  rcases register_cases r slot id name token with ⟨hf, he⟩ | ⟨hf, -, he⟩ | ⟨s, hf, -, he⟩ <;>
    simp [hf, he]

theorem register_eq_invalidSession_iff :
    (r.register slot id name token).1 = .error (.invalidSession id) ↔
      r.findName name = none ∧ (r.session slot).authenticate id name token = none := by
  rcases register_cases r slot id name token with ⟨hf, he⟩ | ⟨hf, ha, he⟩ | ⟨s, hf, ha, he⟩
  · simp [he, Option.isSome_iff_ne_none.1 hf]
  · simp [he, hf, ha]
  · simp [he, hf, ha]

/-! ## What may be asked -/

inductive Request where
  | acquire
  | begin (slot : Nat) (id : SessionId) (l : Link)
  | register (slot : Nat) (id : SessionId) (name token : String)
  | depart (slot : Nat) (id : SessionId)
  | release (slot : Nat)
  | findName (name : String)
  | findId (id : SessionId)
  | sendToName (name : String) (packet : Bytes)
  | broadcast (except : Option Nat) (packet : Bytes)
  | authenticated

inductive Reply where
  | done
  | slot (k : Option Nat)
  | outcome (result : Except DirectoryError Unit)
  | departure (d : Option Departure)
  | taken (b : Option Bool)
  | count (n : Nat)
deriving DecidableEq

def ask (r : Relay S) : Request → Reply × Relay S
  | .acquire =>
    match r.acquire with
    | some (slot, r') => (.slot (some slot), r')
    | none => (.slot none, r)
  | .begin slot id l => (.done, r.begin slot id l)
  | .register slot id name token =>
    (.outcome (r.register slot id name token).1, (r.register slot id name token).2)
  | .depart slot id => (.departure (r.depart slot id).1, (r.depart slot id).2)
  | .release slot => (.done, r.release slot)
  | .findName name => (.slot (r.findName name), r)
  | .findId id => (.slot (r.findId id), r)
  | .sendToName name packet => (.taken (r.sendToName name packet).1, (r.sendToName name packet).2)
  | .broadcast except packet =>
    (.count (r.broadcast except packet).1, (r.broadcast except packet).2)
  | .authenticated => (.count r.authenticated, r)

def history : Relay S → List Request → List Reply × Relay S
  | r, [] => ([], r)
  | r, q :: qs =>
    let (reply, r') := r.ask q
    let (replies, r'') := history r' qs
    (reply :: replies, r'')

/-- A connection begins in a slot that was just taken, under a fresh id, and nobody registers the
empty name. -/
def Request.Allowed (r : Relay S) : Request → Prop
  | .begin slot id _ => (r.session slot).leased = true ∧ (r.session slot).link = none ∧ r.Fresh id
  | .register _ _ name _ => name ≠ ""
  | _ => True

def AllAllowed : Relay S → List Request → Prop
  | _, [] => True
  | r, q :: qs => q.Allowed r ∧ AllAllowed (r.ask q).2 qs

instance Request.Allowed.decidable (r : Relay S) : (q : Request) → Decidable (q.Allowed r)
  | .begin slot id _ => inferInstanceAs (Decidable ((r.session slot).leased = true ∧
      (r.session slot).link = none ∧ r.Fresh id))
  | .register _ _ name _ => inferInstanceAs (Decidable (name ≠ ""))
  | .acquire | .depart .. | .release _ | .findName _ | .findId _ | .sendToName .. | .broadcast .. |
    .authenticated => .isTrue trivial

instance AllAllowed.decidable : (r : Relay S) → (qs : List Request) → Decidable (r.AllAllowed qs)
  | _, [] => .isTrue trivial
  | r, q :: qs =>
    have := AllAllowed.decidable (r.ask q).2 qs
    inferInstanceAs (Decidable (q.Allowed r ∧ (r.ask q).2.AllAllowed qs))

theorem ask_moves {q : Request} (hq : q.Allowed r) : ReflTransGen Move r (r.ask q).2 := by
  cases q with
  | acquire =>
    simp only [ask]
    split
    · next h => exact .single (.act (.acquire h))
    · exact .refl
  | begin slot id l => exact .single (.connect l hq.1 hq.2.1 hq.2.2)
  | register slot id name token => exact .single (Deed.register r slot id token hq).move
  | depart slot id => exact .single (.act (.depart r id))
  | release slot => exact .single (.act (.release r))
  | findName | findId | authenticated => exact .refl
  | sendToName name packet => exact sendToName_chain (fun _ _ h => h.move) r name packet
  | broadcast except packet => exact broadcast_chain (fun _ _ h => h.move) r except packet

theorem history_moves {qs : List Request} (hqs : r.AllAllowed qs) :
    ReflTransGen Move r (r.history qs).2 := by
  induction qs generalizing r with
  | nil => exact .refl
  | cons q qs ih => exact (ask_moves hqs.1).trans (ih hqs.2)

/-! ## Other names, same answers -/

def withNames (r : Relay S) (names : Table String SessionId) : Relay S :=
  { r with directory := ⟨names, r.directory.byId⟩ }

variable (names : Table String SessionId)

theorem session_withNames (r : Relay S) (slot : Nat) :
    (r.withNames names).session slot = r.session slot := rfl

theorem Consistent.findName_withNames (h : Consistent r) (h' : Consistent (r.withNames names))
    (name : String) : (r.withNames names).findName name = r.findName name := by
  ext k
  exact h'.findName_eq_some_iff.trans h.findName_eq_some_iff.symm

theorem acquire_withNames (r : Relay S) :
    (r.withNames names).acquire = r.acquire.map fun sr => (sr.1, sr.2.withNames names) := by
  have hfree : (r.withNames names).free = r.free := rfl
  unfold acquire
  rw [hfree]
  cases r.free <;> rfl

theorem depart_withNames (r : Relay S) (slot : Nat) (id : SessionId) :
    (r.withNames names).depart slot id =
      ((r.depart slot id).1, (r.depart slot id).2.withNames names) := by
  unfold depart
  rw [session_withNames]
  cases (r.session slot).depart id <;> rfl

theorem unregister_withNames (r : Relay S) (slot : Nat) :
    ∃ names', (r.withNames names).unregister slot = (r.unregister slot).withNames names' := by
  unfold unregister
  rw [session_withNames]
  cases (r.session slot).listing? with
  | none => exact ⟨names, rfl⟩
  | some listing => exact ⟨_, rfl⟩

theorem giveBack_withNames (r : Relay S) (slot : Nat) :
    (r.withNames names).giveBack slot = (r.giveBack slot).withNames names := by
  unfold giveBack
  rw [session_withNames]
  split <;> rfl

theorem release_withNames (r : Relay S) (slot : Nat) :
    ∃ names', (r.withNames names).release slot = (r.release slot).withNames names' := by
  obtain ⟨names', hunregister⟩ := unregister_withNames names r slot
  have hreset : ((r.withNames names).unregister slot).reset slot =
      ((r.unregister slot).reset slot).withNames names' := by
    rw [hunregister]
    rfl
  exact ⟨names', by rw [release, hreset, giveBack_withNames, release]⟩

theorem sendEach_withNames (except : Option Nat) (packet : Bytes) (slots : List Nat)
    (r : Relay S) : sendEach except packet slots (r.withNames names) =
      ((sendEach except packet slots r).1, (sendEach except packet slots r).2.withNames names) := by
  induction slots generalizing r with
  | nil => rfl
  | cons slot slots ih =>
    have hsend : (r.withNames names).send slot none packet =
        ((r.send slot none packet).1, (r.send slot none packet).2.withNames names) := rfl
    rw [sendEach, sendEach, session_withNames, hsend]
    split
    · exact ih r
    · simp only [ih]

section

variable (hf : ∀ name, (r.withNames names).findName name = r.findName name)

include hf

theorem sendToName_withNames (name : String) (packet : Bytes) :
    (r.withNames names).sendToName name packet =
      ((r.sendToName name packet).1, (r.sendToName name packet).2.withNames names) := by
  unfold sendToName
  rw [hf]
  cases r.findName name <;> rfl

theorem register_withNames (slot : Nat) (id : SessionId) (name token : String) :
    ∃ names', (r.withNames names).register slot id name token =
      ((r.register slot id name token).1, (r.register slot id name token).2.withNames names') := by
  unfold register
  rw [hf, session_withNames]
  split
  · exact ⟨names, rfl⟩
  · cases (r.session slot).authenticate id name token with
    | none => exact ⟨_, rfl⟩
    | some s => exact ⟨_, rfl⟩

theorem ask_withNames (q : Request) :
    ∃ names', (r.withNames names).ask q = ((r.ask q).1, (r.ask q).2.withNames names') := by
  cases q with
  | acquire =>
    simp only [ask, acquire_withNames]
    cases r.acquire <;> exact ⟨names, rfl⟩
  | begin slot id l => exact ⟨names, rfl⟩
  | register slot id name token =>
    obtain ⟨names', h⟩ := register_withNames names hf slot id name token
    exact ⟨names', by simp only [ask, h]⟩
  | depart slot id => exact ⟨names, by simp only [ask, depart_withNames]⟩
  | release slot =>
    obtain ⟨names', h⟩ := release_withNames names r slot
    exact ⟨names', by simp only [ask, h]⟩
  | findName name => exact ⟨names, by simp only [ask, hf]⟩
  | findId id => exact ⟨names, rfl⟩
  | sendToName name packet => exact ⟨names, by simp only [ask, sendToName_withNames names hf]⟩
  | broadcast except packet =>
    have h := sendEach_withNames names except packet r.directory.byId.values r
    exact ⟨names, congrArg (fun nr => (Reply.count nr.1, nr.2)) h⟩
  | authenticated => exact ⟨names, rfl⟩

end

/-- Whatever is asked, consistent relays that differ in their entries by name answer the same, and
they go on to differ in nothing else. -/
theorem history_withNames (h : Consistent r) (h' : Consistent (r.withNames names))
    {qs : List Request} (hqs : r.AllAllowed qs) :
    (r.withNames names).AllAllowed qs ∧ ∃ names', (r.withNames names).history qs =
      ((r.history qs).1, (r.history qs).2.withNames names') := by
  induction qs generalizing r names with
  | nil => exact ⟨trivial, names, rfl⟩
  | cons q qs ih =>
    obtain ⟨hq, hqs⟩ := hqs
    have hq' : q.Allowed (r.withNames names) := by cases q <;> exact hq
    obtain ⟨names', hask⟩ := ask_withNames names (h.findName_withNames names h') q
    have hnext' := h'.of_moves (ask_moves hq')
    rw [hask] at hnext'
    obtain ⟨hqs', names'', hhistory⟩ := ih names' (h.of_moves (ask_moves hq)) hnext' hqs
    refine ⟨⟨hq', ?_⟩, names'', ?_⟩
    · rw [hask]
      exact hqs'
    · simp only [history, hask, hhistory]

theorem Consistent.register_error (h : Consistent r) {e : DirectoryError}
    (he : (r.register slot id name token).1 = .error e) :
    (e = .nameTaken name ∨ e = .invalidSession id) ∧ ∃ names,
      (r.register slot id name token).2 = r.withNames names ∧ Consistent (r.withNames names) := by
  rcases register_cases r slot id name token with ⟨-, heq⟩ | ⟨hf, -, heq⟩ | ⟨s, -, -, heq⟩ <;>
    rw [heq] at he ⊢ <;> cases he
  · exact ⟨.inl rfl, r.directory.byName, rfl, h⟩
  · exact ⟨.inr rfl, r.directory.byName.erase name, rfl, h.vacate hf⟩

/-- A registration that fails is for a name that a live session has, or for a session that is not
that connection's, or has no link, or is logged in or torn down. It leaves all sessions alone. It
may drop the entry of a name, but whatever is asked afterwards, the replies are those there would be
without it, and so is everything else. -/
theorem register_error_invisible {capacity : Nat} {limits : Limits} {store : S}
    (hm : ReflTransGen Move (.start capacity limits store) r) (slot : Nat) (id : SessionId)
    (name token : String) :
    let tried := r.register slot id name token
    (tried.1 = .error (.nameTaken name) ↔ ∃ k, r.Owns k name) ∧
    (tried.1 = .error (.invalidSession id) ↔ (¬ ∃ k, r.Owns k name) ∧
      ((r.session slot).id ≠ id ∨ (r.session slot).link = none ∨
        (r.session slot).phase ≠ .connected)) ∧
    ∀ e, tried.1 = .error e →
      (e = .nameTaken name ∨ e = .invalidSession id) ∧
      (∀ k, tried.2.session k = r.session k) ∧
      ∀ qs, (tried.2.AllAllowed qs ↔ r.AllAllowed qs) ∧
        (r.AllAllowed qs → (tried.2.history qs).1 = (r.history qs).1 ∧
          ∃ names, (tried.2.history qs).2 = (r.history qs).2.withNames names) := by
  intro tried
  have h : Consistent r := (Consistent.start capacity limits store).of_moves hm
  refine ⟨?_, ?_, fun e he => ?_⟩
  · rw [register_eq_nameTaken_iff, h.isSome_findName_iff]
  · rw [register_eq_invalidSession_iff, authenticate_eq_none_iff, ← h.isSome_findName_iff,
      Option.not_isSome_iff_eq_none]
  · obtain ⟨herror, names, htried, h'⟩ : (e = .nameTaken name ∨ e = .invalidSession id) ∧
        ∃ names, tried.2 = r.withNames names ∧ Consistent (r.withNames names) :=
      h.register_error he
    rw [htried]
    refine ⟨herror, fun _ => rfl, fun qs => ⟨⟨fun hqs => ?_, fun hqs => ?_⟩, fun hqs => ?_⟩⟩
    · exact (history_withNames (r := r.withNames names) r.directory.byName h' h hqs).1
    · exact (history_withNames names h h' hqs).1
    · obtain ⟨-, names', hhistory⟩ := history_withNames names h h' hqs
      rw [hhistory]
      exact ⟨rfl, names', rfl⟩

/-- The name of a session that is torn down loses its entry to a registration for a connection that
is not there, and is taken over later all the same. -/
theorem register_error_invisible_dying :
    let r := ((start 2 ⟨8, 8, 8, 8⟩ Store.empty).history [.acquire, .begin 0 1 (.fresh 0 1 none),
      .acquire, .begin 1 2 (.fresh 1 2 none), .register 0 1 "ann" "t", .depart 0 1]).2
    let tried := r.register 1 9 "ann" "u"
    let later := [.register 1 2 "ann" "u", .release 0, .findName "ann", .findId 1, .authenticated]
    tried.1 = .error (.invalidSession 9) ∧ r.directory.byName.get? "ann" = some 1 ∧
      tried.2.directory.byName.get? "ann" = none ∧
      (r.history later).1 = [.outcome (.ok ()), .done, .slot (some 1), .slot none, .count 1] ∧
      (tried.2.history later).1 = (r.history later).1 := by
  intro r tried later
  have hm : ReflTransGen Move (.start 2 ⟨8, 8, 8, 8⟩ Store.empty) r :=
    history_moves (by decide +kernel)
  have herror : tried.1 = .error (.invalidSession 9) := by decide +kernel
  have hqs : r.AllAllowed later := by decide +kernel
  have hsame := (((register_error_invisible hm 1 9 "ann" "u").2.2 _ herror).2.2 later).2 hqs
  exact ⟨herror, by decide +kernel, by decide +kernel, by decide +kernel, hsame.1⟩

end Relay

end ChatRelay
