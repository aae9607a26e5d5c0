import ChatRelay.Proofs.Session
import ChatRelay.Relay.Basic

/-! # What the relay's operations do to each session

Every operation is seen through the session in each slot, and changes the sessions of few slots.
-/

namespace ChatRelay.Relay

variable {S : Type} {r : Relay S} {j k slot : Nat}

theorem session_of_capacity_le (h : r.capacity ≤ k) : r.session k = .idle r.limits := by
  rw [session, List.getElem?_eq_none h]; rfl

theorem session_start (capacity : Nat) (limits : Limits) (store : S) (k : Nat) :
    (Relay.start capacity limits store).session k = .idle limits := by
  rcases Nat.lt_or_ge k capacity with h | h <;> simp [session, Relay.start, h]

theorem session_eq_getElem (h : k < r.pool.length) : r.session k = r.pool[k] := by
  rw [session, List.getElem?_eq_getElem h]; rfl

theorem lt_capacity_of_link (h : (r.session k).link.isSome) : k < r.capacity := by
  by_contra hk
  rw [session_of_capacity_le (Nat.not_lt.1 hk)] at h
  cases h

theorem lt_capacity_of_leased (h : (r.session k).leased = true) : k < r.capacity := by
  by_contra hk
  rw [session_of_capacity_le (Nat.not_lt.1 hk)] at h
  cases h

theorem ext_sessions {r' : Relay S} (hl : r.limits = r'.limits) (hc : r.capacity = r'.capacity)
    (hs : ∀ k, r.session k = r'.session k) (hf : r.free = r'.free)
    (hd : r.directory = r'.directory) (hk : r.links = r'.links) (ht : r.store = r'.store)
    (hn : r.drawn = r'.drawn) : r = r' := by
  have hp : r.pool = r'.pool := by
    apply List.ext_getElem hc
    intro k h h'
    rw [← session_eq_getElem h, ← session_eq_getElem h', hs k]
  cases r; cases r'
  simp_all

/-! ## Setting sessions -/

@[simp] theorem capacity_setSession (r : Relay S) (j : Nat) (s : Session) :
    (r.setSession j s).capacity = r.capacity := by
  simp [capacity, setSession]

theorem session_setSession (r : Relay S) (j k : Nat) (s : Session) :
    (r.setSession j s).session k = if j = k ∧ k < r.capacity then s else r.session k := by
  unfold session setSession
  rw [List.getElem?_set]
  by_cases hjk : j = k
  · subst hjk
    by_cases hk : j < r.pool.length
    · simp [hk, capacity]
    · simp [hk, capacity]
  · simp [hjk]

theorem session_setSession_ne (h : j ≠ k) (s : Session) :
    (r.setSession j s).session k = r.session k := by
  rw [session_setSession, if_neg fun h' => h h'.1]

theorem session_setSession_self (h : k < r.capacity) (s : Session) :
    (r.setSession k s).session k = s := by
  rw [session_setSession, if_pos ⟨rfl, h⟩]

theorem session_setSession_map (f : Session → Session) (hf : f (.idle r.limits) = .idle r.limits)
    (j k : Nat) :
    (r.setSession j (f (r.session j))).session k =
      if j = k then f (r.session k) else r.session k := by
  rw [session_setSession]
  by_cases hjk : j = k
  · subst hjk
    rcases Nat.lt_or_ge j r.capacity with h | h
    · simp [h]
    · rw [if_neg fun h' => Nat.not_lt.2 h h'.2, if_pos rfl, session_of_capacity_le h, hf]
  · rw [if_neg fun h' => hjk h'.1, if_neg hjk]

@[simp] theorem setSession_session (r : Relay S) (k : Nat) : r.setSession k (r.session k) = r := by
  apply ext_sessions <;> try rfl
  · exact capacity_setSession ..
  · intro j
    rw [session_setSession]
    split
    · next h => rw [h.1]
    · rfl

theorem identity_setSession {s : Session} (h : s.identity = (r.session j).identity) (k : Nat) :
    ((r.setSession j s).session k).identity = (r.session k).identity := by
  rw [session_setSession]
  split
  · next hk => rw [h, hk.1]
  · rfl

theorem setSession_setSession (r : Relay S) (k : Nat) (s s' : Session) :
    (r.setSession k s).setSession k s' = r.setSession k s' := by
  simp [setSession]

theorem setSession_comm (r : Relay S) (h : j ≠ k) (s s' : Session) :
    (r.setSession j s).setSession k s' = (r.setSession k s').setSession j s := by
  simp [setSession, List.set_comm _ _ h]

@[simp] theorem capacity_put (r : Relay S) (j : Nat) (sl : Session × Links) :
    (r.put j sl).capacity = r.capacity :=
  capacity_setSession ..

theorem session_put (r : Relay S) (j k : Nat) (sl : Session × Links) :
    (r.put j sl).session k = (r.setSession j sl.1).session k := rfl

/-! ## Traffic -/

@[simp] theorem capacity_send (r : Relay S) (j : Nat) (target : Option SessionId) (p : Bytes) :
    (r.send j target p).2.capacity = r.capacity :=
  capacity_put ..

theorem session_send (r : Relay S) (j k : Nat) (target : Option SessionId) (p : Bytes) :
    (r.send j target p).2.session k =
      if j = k then ((r.session k).send target p r.links).2.1 else r.session k :=
  session_setSession_map (fun s => (s.send target p r.links).2.1)
    (by rw [Session.send_of_link_none rfl]) j k

@[simp] theorem store_sendEach (except : Option Nat) (packet : Bytes) (slots : List Nat)
    (r : Relay S) : (sendEach except packet slots r).2.store = r.store := by
  induction slots generalizing r with
  | nil => rfl
  | cons slot slots ih =>
    unfold sendEach
    split
    · exact ih r
    · exact ih _

@[simp] theorem store_broadcast (r : Relay S) (except : Option Nat) (packet : Bytes) :
    (r.broadcast except packet).2.store = r.store :=
  store_sendEach ..

@[simp] theorem capacity_sent (r : Relay S) (j : Nat) (id : SessionId) :
    (r.sent j id).capacity = r.capacity :=
  capacity_put ..

theorem session_sent (r : Relay S) (j k : Nat) (id : SessionId) :
    (r.sent j id).session k =
      if j = k then ((r.session k).sent id r.links).1 else r.session k :=
  session_setSession_map (fun s => (s.sent id r.links).1) (by rw [Session.sent_idle]) j k

@[simp] theorem session_armRead (r : Relay S) (j k : Nat) (id : SessionId) :
    (r.armRead j id).2.session k = r.session k := rfl

@[simp] theorem capacity_receive (r : Relay S) (j : Nat) (id : SessionId) (bs : Bytes) :
    (r.receive j id bs).2.capacity = r.capacity := by
  simp [capacity, receive]

theorem receive_eq_setSession (r : Relay S) (j : Nat) (id : SessionId) (bs : Bytes) :
    (r.receive j id bs).2 = r.setSession j ((r.session j).receive id bs) := by
  simp only [receive, setSession, mk.injEq, true_and, and_true]
  apply List.ext_getElem?
  intro i
  rw [List.getElem?_modify, List.getElem?_set]
  split
  · next h =>
    subst h
    split
    · next h => rw [session_eq_getElem h, List.getElem?_eq_getElem h]; rfl
    · next h => rw [List.getElem?_eq_none (Nat.not_lt.1 h)]; rfl
  · simp

theorem session_receive (r : Relay S) (j k : Nat) (id : SessionId) (bs : Bytes) :
    (r.receive j id bs).2.session k =
      if j = k ∧ k < r.capacity then (r.session k).receive id bs else r.session k := by
  rw [receive_eq_setSession, session_setSession]
  split
  · next h => rw [h.1]
  · rfl

/-! ## Logging in -/

/-- A name is taken, or its entry is dropped and the session may refuse, or the session enters. -/
theorem register_cases (r : Relay S) (slot : Nat) (id : SessionId) (name token : String) :
    ((r.findName name).isSome ∧ r.register slot id name token = (.error (.nameTaken name), r)) ∨
    (r.findName name = none ∧ (r.session slot).authenticate id name token = none ∧
      r.register slot id name token = (.error (.invalidSession id),
        { r with directory := ⟨r.directory.byName.erase name, r.directory.byId⟩ })) ∨
    ∃ s, r.findName name = none ∧ (r.session slot).authenticate id name token = some s ∧
      r.register slot id name token = (.ok (), { r.setSession slot s with
        directory := ⟨(r.directory.byName.erase name).insert name id,
          r.directory.byId.insert id slot⟩ }) := by
  cases hf : r.findName name with
  | some l => exact .inl ⟨rfl, by simp [register, hf]⟩
  | none =>
    cases ha : (r.session slot).authenticate id name token with
    | none => exact .inr (.inl ⟨rfl, rfl, by simp [register, hf, ha]⟩)
    | some s => exact .inr (.inr ⟨s, rfl, rfl, by simp [register, hf, ha]⟩)

theorem session_register (r : Relay S) (slot k : Nat) (id : SessionId) (name token : String) :
    ∃ p u t, (r.register slot id name token).2.session k =
      { r.session k with phase := p, username := u, token := t } := by
  rcases register_cases r slot id name token with ⟨_, h⟩ | ⟨_, _, h⟩ | ⟨s, _, ha, h⟩
  · exact ⟨_, _, _, by rw [h]⟩
  · exact ⟨_, _, _, by rw [h]; rfl⟩
  · obtain ⟨_, rfl⟩ := Session.authenticate_eq_some_iff.1 ha
    have hs := session_setSession r slot k
      { r.session slot with phase := .authenticated, username := name, token := some token }
    rw [h]
    split at hs
    · next hk => exact ⟨_, _, _, hs.trans (by rw [hk.1])⟩
    · exact ⟨_, _, _, hs⟩

@[simp] theorem links_register (r : Relay S) (slot : Nat) (id : SessionId) (name token : String) :
    (r.register slot id name token).2.links = r.links := by
  rcases register_cases r slot id name token with ⟨-, he⟩ | ⟨-, -, he⟩ | ⟨s, -, -, he⟩
  · rw [he]
  · rw [he]
  · rw [he]; rfl

@[simp] theorem store_register (r : Relay S) (slot : Nat) (id : SessionId) (name token : String) :
    (r.register slot id name token).2.store = r.store := by
  rcases register_cases r slot id name token with ⟨-, he⟩ | ⟨-, -, he⟩ | ⟨s, -, -, he⟩ <;> rw [he]
  rfl

@[simp] theorem drawn_register (r : Relay S) (slot : Nat) (id : SessionId) (name token : String) :
    (r.register slot id name token).2.drawn = r.drawn := by
  rcases register_cases r slot id name token with ⟨-, he⟩ | ⟨-, -, he⟩ | ⟨s, -, -, he⟩ <;> rw [he]
  rfl

theorem eq_invalidSession_of_free {r' : Relay S} {name token : String} {id : SessionId}
    {e : DirectoryError} (hf : r.findName name = none)
    (he : r.register slot id name token = (.error e, r')) : e = .invalidSession id := by
  rcases register_cases r slot id name token with ⟨hfound, -⟩ | ⟨-, -, he'⟩ | ⟨s, -, -, he'⟩
  · rw [hf] at hfound
    cases hfound
  · cases he.symm.trans he'
    rfl
  · cases he.symm.trans he'

theorem session_register_of_error {r' : Relay S} {name token : String} {id : SessionId}
    {e : DirectoryError} (he : r.register slot id name token = (.error e, r')) (k : Nat) :
    r'.session k = r.session k := by
  rcases register_cases r slot id name token with ⟨-, he'⟩ | ⟨-, -, he'⟩ | ⟨s, -, -, he'⟩
  · cases he.symm.trans he'
    rfl
  · cases he.symm.trans he'
    rfl
  · cases he.symm.trans he'

theorem session_register_of_ok {r' : Relay S} {name token : String} {id : SessionId}
    (he : r.register slot id name token = (.ok (), r')) (k : Nat) :
    if slot = k then (r'.session k).nameOf id = some name else r'.session k = r.session k := by
  rcases register_cases r slot id name token with ⟨-, he'⟩ | ⟨-, -, he'⟩ | ⟨s, -, ha, he'⟩
  · cases he.symm.trans he'
  · cases he.symm.trans he'
  · cases he.symm.trans he'
    obtain ⟨⟨hid, hlink, -⟩, rfl⟩ := Session.authenticate_eq_some_iff.1 ha
    split
    · next hk =>
      subst hk
      have hs := session_setSession_self (lt_capacity_of_link hlink)
        { r.session slot with phase := .authenticated, username := name, token := some token }
      exact (congrArg (Session.nameOf · id) hs).trans
        (Session.nameOf_eq_some_iff.2 ⟨hid, rfl, rfl⟩)
    · next hk => exact session_setSession_ne hk _

/-- Only a session that is not logged in, and not torn down either, can be logged in. -/
theorem identity_register (h : (r.session k).phase ≠ .connected) (slot : Nat) (id : SessionId)
    (name token : String) :
    ((r.register slot id name token).2.session k).identity = (r.session k).identity := by
  rcases register_cases r slot id name token with ⟨-, he⟩ | ⟨-, -, he⟩ | ⟨s, -, ha, he⟩
  · rw [he]
  · rw [he]; rfl
  · obtain ⟨⟨-, -, hphase⟩, -⟩ := Session.authenticate_eq_some_iff.1 ha
    have hk : slot ≠ k := by
      rintro rfl
      exact h hphase
    rw [he]
    exact congrArg Session.identity (session_setSession_ne hk s)

@[simp] theorem capacity_register (r : Relay S) (slot : Nat) (id : SessionId)
    (name token : String) : (r.register slot id name token).2.capacity = r.capacity := by
  rcases register_cases r slot id name token with ⟨_, h⟩ | ⟨_, _, h⟩ | ⟨s, _, _, h⟩ <;> rw [h]
  · rfl
  · exact capacity_setSession ..

/-! ## Beginnings and ends -/

theorem acquire_eq_some_iff {r' : Relay S} :
    r.acquire = some (slot, r') ↔ ∃ free, r.free = slot :: free ∧
      r' = { r.setSession slot { r.session slot with leased := true } with free := free } := by
  unfold acquire
  cases r.free with
  | nil => simp
  | cons j free =>
    simp only [Option.some.injEq, Prod.mk.injEq, List.cons.injEq]
    constructor
    · rintro ⟨rfl, rfl⟩
      exact ⟨free, ⟨rfl, rfl⟩, rfl⟩
    · rintro ⟨_, ⟨rfl, rfl⟩, rfl⟩
      exact ⟨rfl, rfl⟩

theorem depart_cases (r : Relay S) (slot : Nat) (id : SessionId) :
    (¬ ((r.session slot).id = id ∧ (r.session slot).isLive = true) ∧
      r.depart slot id = (none, r)) ∨
    ((r.session slot).id = id ∧ (r.session slot).isLive = true) ∧
      r.depart slot id = (some ⟨id, (r.session slot).loggedInAs, (r.session slot).token⟩,
        r.setSession slot { r.session slot with phase := .disconnecting, token := none }) := by
  unfold depart
  by_cases h : (r.session slot).id = id ∧ (r.session slot).isLive = true
  · exact .inr ⟨h, by rw [Session.depart_eq_some h]⟩
  · exact .inl ⟨h, by rw [Session.depart_eq_none_iff.2 h]⟩

theorem identity_depart (r : Relay S) (slot k : Nat) (id : SessionId) :
    ((r.depart slot id).2.session k).identity = (r.session k).identity ∨
      slot = k ∧ ((r.depart slot id).2.session k).phase = .disconnecting := by
  rcases depart_cases r slot id with ⟨-, he⟩ | ⟨⟨-, hlive⟩, he⟩
  · exact .inl (by rw [he])
  · rw [he]
    by_cases hk : slot = k
    · subst hk
      have hslot := lt_capacity_of_link (Session.isLive_iff.1 hlive).1
      exact .inr ⟨rfl, congrArg Session.phase (session_setSession_self hslot _)⟩
    · exact .inl (congrArg Session.identity (session_setSession_ne hk _))

theorem lt_capacity_of_isLive (h : (r.session k).isLive = true) : k < r.capacity :=
  lt_capacity_of_link (Session.isLive_iff.1 h).1

@[simp] theorem capacity_depart (r : Relay S) (slot : Nat) (id : SessionId) :
    (r.depart slot id).2.capacity = r.capacity := by
  rcases depart_cases r slot id with ⟨_, h⟩ | ⟨_, h⟩ <;> rw [h]
  exact capacity_setSession ..

theorem unregister_eq (r : Relay S) (slot : Nat) :
    r.unregister slot = { r with directory := (r.unregister slot).directory } := by
  unfold unregister
  split <;> rfl

@[simp] theorem session_unregister (r : Relay S) (slot k : Nat) :
    (r.unregister slot).session k = r.session k := by
  rw [unregister_eq]; rfl

theorem byId_unregister (r : Relay S) (slot : Nat) (id : SessionId) :
    (r.unregister slot).directory.byId.get? id =
      if (r.session slot).username ≠ "" ∧ (r.session slot).id = id then none
      else r.directory.byId.get? id := by
  unfold unregister Session.listing?
  by_cases hn : (r.session slot).username = ""
  · simp [hn]
  · simp [hn, Table.get?_erase]

theorem byName_unregister (r : Relay S) (slot : Nat) (name : String) :
    (r.unregister slot).directory.byName.get? name =
      if (r.session slot).username ≠ "" ∧ (r.session slot).username = name ∧
          r.directory.byName.get? name = some (r.session slot).id then none
      else r.directory.byName.get? name := by
  unfold unregister Session.listing?
  by_cases hn : (r.session slot).username = ""
  · simp [hn]
  · by_cases ho : r.directory.byName.get? (r.session slot).username = some (r.session slot).id
    · simp only [hn, if_false, ho, if_true, Table.get?_erase, ne_eq, not_false_eq_true, true_and]
      by_cases hname : (r.session slot).username = name
      · subst hname; simp [ho]
      · simp [hname]
    · simp only [hn, if_false, ho, ne_eq, not_false_eq_true, true_and]
      by_cases hname : (r.session slot).username = name
      · subst hname; simp [ho]
      · simp [hname]

theorem session_giveBack (r : Relay S) (slot k : Nat) :
    (r.giveBack slot).session k =
      if slot = k then { r.session k with leased := false } else r.session k := by
  unfold giveBack
  split
  · exact session_setSession_map (fun s => { s with leased := false }) rfl slot k
  · next h =>
    split
    · next hk =>
      subst hk
      have hleased : (r.session slot).leased = false := (Bool.not_eq_true _).mp h
      exact congrArg (fun b => { r.session slot with leased := b }) hleased
    · rfl

@[simp] theorem capacity_giveBack (r : Relay S) (slot : Nat) :
    (r.giveBack slot).capacity = r.capacity := by
  unfold giveBack
  split
  · exact capacity_setSession ..
  · rfl

theorem session_release (h : k < r.capacity) (slot : Nat) :
    (r.release slot).session k =
      if slot = k then { (r.session k).cleared 0 .disconnecting none with leased := false }
      else r.session k := by
  rw [release, session_giveBack, reset, session_put, session_setSession, session_unregister,
    session_unregister]
  have hc : (r.unregister slot).capacity = r.capacity := by rw [unregister_eq]; rfl
  by_cases hk : slot = k
  · subst hk; simp [hc, h, Session.reset]
  · simp [hk]

@[simp] theorem store_release (r : Relay S) (slot : Nat) : (r.release slot).store = r.store := by
  rw [release, giveBack, unregister_eq]
  split <;> rfl

@[simp] theorem capacity_release (r : Relay S) (slot : Nat) :
    (r.release slot).capacity = r.capacity := by
  rw [release, capacity_giveBack, reset, capacity_put, unregister_eq]
  rfl

theorem identity_release (r : Relay S) (slot k : Nat) :
    ((r.release slot).session k).identity =
      if slot = k then ⟨0, .disconnecting, "", none, none⟩ else (r.session k).identity := by
  rcases Nat.lt_or_ge k r.capacity with h | h
  · rw [session_release h]
    split <;> rfl
  · rw [session_of_capacity_le h, session_of_capacity_le (by simpa using h)]
    split <;> rfl

theorem leased_release (r : Relay S) (slot k : Nat) :
    ((r.release slot).session k).leased = if slot = k then false else (r.session k).leased := by
  rcases Nat.lt_or_ge k r.capacity with h | h
  · rw [session_release h]
    split <;> rfl
  · rw [session_of_capacity_le h, session_of_capacity_le (by simpa using h)]
    split <;> rfl

theorem limits_release (r : Relay S) (slot : Nat) : (r.release slot).limits = r.limits := by
  rw [release, giveBack, unregister_eq]
  split <;> rfl

theorem session_release_ne (h : slot ≠ k) : (r.release slot).session k = r.session k := by
  rcases Nat.lt_or_ge k r.capacity with hk | hk
  · rw [session_release hk, if_neg h]
  · rw [session_of_capacity_le hk, session_of_capacity_le (by simpa using hk), limits_release]

theorem free_release (r : Relay S) (slot : Nat) :
    (r.release slot).free =
      if (r.session slot).leased = true then slot :: r.free else r.free := by
  have hleased : (((r.unregister slot).reset slot).session slot).leased =
      (r.session slot).leased := by
    rw [reset, session_put, session_setSession, session_unregister]
    split <;> rfl
  rw [release, giveBack, hleased, unregister_eq]
  split <;> rfl

theorem links_release (r : Relay S) (slot : Nat) :
    (r.release slot).links = (r.session slot).hangUp r.links := by
  have hlinks : ((r.unregister slot).reset slot).links = (r.session slot).hangUp r.links := by
    rw [reset, session_unregister, unregister_eq]
    rfl
  rw [release, giveBack]
  split <;> exact hlinks

@[simp] theorem drawn_release (r : Relay S) (slot : Nat) : (r.release slot).drawn = r.drawn := by
  rw [release, giveBack, unregister_eq]
  split <;> rfl

theorem directory_release (r : Relay S) (slot : Nat) :
    (r.release slot).directory = (r.unregister slot).directory := by
  rw [release, giveBack]
  split <;> rfl

end ChatRelay.Relay
