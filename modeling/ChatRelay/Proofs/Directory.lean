import ChatRelay.Proofs.Relay.Moves

/-! # The directory and the sessions

The directory knows exactly the sessions that are logged in, and those that are being torn down
until their slots are released.
-/

namespace ChatRelay

open Relation (ReflTransGen)

variable {S : Type}

/-- What holds of every session's connection. -/
structure Identity.Proper (i : Identity) : Prop where
  idle : i.link = none → i.id = 0 ∧ i.phase = .disconnecting ∧ i.username = ""
  id_ne_zero : i.link.isSome → i.id ≠ 0
  guest : i.phase = .connected → i.username = ""
  named : i.phase = .authenticated → i.username ≠ ""

theorem Identity.proper_idle : Identity.Proper ⟨0, .disconnecting, "", none, none⟩ := by
  constructor <;> simp

namespace Relay

variable {r r' : Relay S} {slot k : Nat} {id : SessionId} {name : String}

/-- What holds of the sessions and the directory between any two moves. -/
structure Consistent (r : Relay S) : Prop where
  proper : ∀ k, (r.session k).identity.Proper
  id_injective : ∀ j k, (r.session j).id = (r.session k).id → (r.session k).id ≠ 0 → j = k
  byId : ∀ id k, r.directory.byId.get? id = some k →
    (r.session k).id = id ∧ (r.session k).username ≠ ""
  byName : ∀ name id, r.directory.byName.get? name = some id →
    ∃ k, r.directory.byId.get? id = some k ∧ (r.session k).username = name
  listed : ∀ k, (r.session k).phase = .authenticated →
    r.directory.byName.get? (r.session k).username = some (r.session k).id ∧
      r.directory.byId.get? (r.session k).id = some k

namespace Consistent

variable (h : Consistent r)

include h

theorem link_of_username (hn : (r.session k).username ≠ "") : (r.session k).link.isSome := by
  rw [Option.isSome_iff_ne_none]
  exact fun hl => hn ((h.proper k).idle hl).2.2

theorem link_of_phase (hp : (r.session k).phase ≠ .disconnecting) : (r.session k).link.isSome := by
  rw [Option.isSome_iff_ne_none]
  exact fun hl => hp ((h.proper k).idle hl).2.1

theorem id_ne_zero_of_username (hn : (r.session k).username ≠ "") : (r.session k).id ≠ 0 :=
  (h.proper k).id_ne_zero (h.link_of_username hn)

theorem isAuthenticated_iff :
    (r.session k).isAuthenticated = true ↔ (r.session k).phase = .authenticated := by
  rw [Session.isAuthenticated_iff, and_iff_right_iff_imp]
  exact fun hp => h.link_of_phase (by simp [hp])

theorem isLive_iff (hn : (r.session k).username ≠ "") :
    (r.session k).isLive = true ↔ (r.session k).phase = .authenticated := by
  rw [Session.isLive_iff]
  constructor
  · rintro ⟨-, hp⟩
    cases hphase : (r.session k).phase with
    | connected => exact absurd ((h.proper k).guest hphase) hn
    | authenticated => rfl
    | disconnecting => exact absurd hphase hp
  · exact fun hp => ⟨h.link_of_username hn, by simp [hp]⟩

theorem findId_eq_some_iff :
    r.findId id = some k ↔ (r.session k).isAuthenticated = true ∧ (r.session k).id = id := by
  rw [findId, Option.filter_eq_some_iff, h.isAuthenticated_iff]
  constructor
  · rintro ⟨hid, hlive⟩
    obtain ⟨hi, hn⟩ := h.byId id k hid
    exact ⟨(h.isLive_iff hn).1 hlive, hi⟩
  · rintro ⟨hp, rfl⟩
    exact ⟨(h.listed k hp).2, (h.isLive_iff ((h.proper k).named hp)).2 hp⟩

theorem findName_eq_some_iff :
    r.findName name = some k ↔
      (r.session k).isAuthenticated = true ∧ (r.session k).username = name := by
  rw [findName, Option.bind_eq_some_iff]
  constructor
  · rintro ⟨id, hname, hid⟩
    obtain ⟨ha, rfl⟩ := h.findId_eq_some_iff.1 hid
    obtain ⟨j, hj, rfl⟩ := h.byName name _ hname
    obtain ⟨-, hk⟩ := h.listed k (h.isAuthenticated_iff.1 ha)
    obtain rfl : k = j := Option.some.inj (hk.symm.trans hj)
    exact ⟨ha, rfl⟩
  · rintro ⟨ha, rfl⟩
    exact ⟨_, (h.listed k (h.isAuthenticated_iff.1 ha)).1, h.findId_eq_some_iff.2 ⟨ha, rfl⟩⟩

theorem username_ne_of_findName (hf : r.findName name = none)
    (hp : (r.session k).phase = .authenticated) : (r.session k).username ≠ name := by
  intro hn
  rw [h.findName_eq_some_iff.2 ⟨h.isAuthenticated_iff.2 hp, hn⟩] at hf
  cases hf

theorem username_injective {j : Nat} (hj : (r.session j).phase = .authenticated)
    (hk : (r.session k).phase = .authenticated)
    (hn : (r.session j).username = (r.session k).username) : j = k := by
  have hfj := h.findName_eq_some_iff.2 ⟨h.isAuthenticated_iff.2 hj, hn⟩
  have hfk := h.findName_eq_some_iff.2 ⟨h.isAuthenticated_iff.2 hk, rfl⟩
  exact Option.some.inj (hfj.symm.trans hfk)

theorem congr (hi : ∀ k, (r'.session k).identity = (r.session k).identity)
    (hd : r'.directory = r.directory) : Consistent r' := by
  have hid k : (r'.session k).id = (r.session k).id := congrArg Identity.id (hi k)
  have hphase k : (r'.session k).phase = (r.session k).phase := congrArg Identity.phase (hi k)
  have hname k : (r'.session k).username = (r.session k).username :=
    congrArg Identity.username (hi k)
  constructor <;> simp only [hi, hid, hphase, hname, hd]
  · exact h.proper
  · exact h.id_injective
  · exact h.byId
  · exact h.byName
  · exact h.listed

end Consistent

/-- Of what sessions know of their connections, only that of `slot` changes. -/
structure Becomes (r r' : Relay S) (slot : Nat) (i : Identity) : Prop where
  identity : ∀ k, (r'.session k).identity = if slot = k then i else (r.session k).identity

theorem becomes_setSession (h : slot < r.capacity) (s : Session) :
    Becomes r (r.setSession slot s) slot s.identity := by
  refine ⟨fun k => ?_⟩
  rw [session_setSession]
  by_cases hk : slot = k
  · subst hk; simp [h]
  · simp [hk]

namespace Becomes

variable {i : Identity} (h : Becomes r r' slot i)

include h

theorem id_eq (k : Nat) : (r'.session k).id = if slot = k then i.id else (r.session k).id :=
  (congrArg Identity.id (h.identity k)).trans (apply_ite Identity.id ..)

theorem phase_eq (k : Nat) :
    (r'.session k).phase = if slot = k then i.phase else (r.session k).phase :=
  (congrArg Identity.phase (h.identity k)).trans (apply_ite Identity.phase ..)

theorem username_eq (k : Nat) :
    (r'.session k).username = if slot = k then i.username else (r.session k).username :=
  (congrArg Identity.username (h.identity k)).trans (apply_ite Identity.username ..)

theorem proper (hc : Consistent r) (hi : i.Proper) (k : Nat) :
    (r'.session k).identity.Proper := by
  rw [h.identity]
  split
  · exact hi
  · exact hc.proper k

theorem id_injective (hc : Consistent r) (hi : i.id ≠ 0 → ∀ k, (r.session k).id = i.id → slot = k)
    (j k : Nat) (he : (r'.session j).id = (r'.session k).id) (hne : (r'.session k).id ≠ 0) :
    j = k := by
  rw [h.id_eq, h.id_eq] at he
  rw [h.id_eq] at hne
  by_cases hj : slot = j <;> by_cases hk : slot = k
  · exact hj.symm.trans hk
  · rw [if_pos hj, if_neg hk] at he
    rw [if_neg hk] at hne
    exact hj.symm.trans (hi (he ▸ hne) k he.symm)
  · rw [if_neg hj, if_pos hk] at he
    rw [if_pos hk] at hne
    exact (hi hne j he).symm.trans hk
  · rw [if_neg hj, if_neg hk] at he
    rw [if_neg hk] at hne
    exact hc.id_injective j k he hne

end Becomes

namespace Consistent

/-! ## Moves -/

theorem start (capacity : Nat) (limits : Limits) (store : S) :
    Consistent (Relay.start capacity limits store) := by
  have hs := session_start capacity limits store
  constructor <;> simp only [hs]
  · exact fun _ => Identity.proper_idle
  · exact fun _ _ _ hne => absurd rfl hne
  · simp [Relay.start, Directory.empty]
  · simp [Relay.start, Directory.empty]
  · simp [Session.idle]

variable (h : Consistent r)

include h

theorem depart (slot : Nat) (id : SessionId) : Consistent (r.depart slot id).2 := by
  rcases depart_cases r slot id with ⟨-, he⟩ | ⟨⟨-, hlive⟩, he⟩
  · rwa [he]
  · rw [he]
    have hlink := (Session.isLive_iff.1 hlive).1
    have hb := becomes_setSession (lt_capacity_of_isLive hlive)
      { r.session slot with phase := .disconnecting, token := none }
    set r' := r.setSession slot { r.session slot with phase := .disconnecting, token := none }
    have hd : r'.directory = r.directory := rfl
    have hid (k : Nat) : (r'.session k).id = (r.session k).id := by
      rw [hb.id_eq]
      split
      · next hk => rw [← hk]; rfl
      · rfl
    have hname (k : Nat) : (r'.session k).username = (r.session k).username := by
      rw [hb.username_eq]
      split
      · next hk => rw [← hk]; rfl
      · rfl
    refine ⟨hb.proper h ⟨?_, fun _ => (h.proper slot).id_ne_zero hlink, by simp [Session.identity],
      by simp [Session.identity]⟩, ?_, ?_, ?_, ?_⟩
    · intro hl
      exact absurd hl (Option.isSome_iff_ne_none.1 hlink)
    · simpa only [hid] using h.id_injective
    · simpa only [hid, hname, hd] using h.byId
    · simpa only [hname, hd] using h.byName
    · intro k hp
      rw [hb.phase_eq] at hp
      split at hp
      · cases hp
      · rw [hid, hname, hd]
        exact h.listed k hp

/-- A session that is forgotten leaves the directory, but not a name that is another's by now. -/
theorem release (slot : Nat) : Consistent (r.release slot) := by
  have hb : Becomes r (r.release slot) slot ⟨0, .disconnecting, "", none, none⟩ :=
    ⟨identity_release r slot⟩
  have hother {k : Nat} (hk : slot ≠ k) :
      ((r.release slot).session k).identity = (r.session k).identity := by
    rw [hb.identity, if_neg hk]
  -- an id that differs from the one released still serves the same slot
  have hbyId (id : SessionId) : (r.release slot).directory.byId.get? id =
      if (r.session slot).username ≠ "" ∧ (r.session slot).id = id then none
      else r.directory.byId.get? id := by
    rw [directory_release, byId_unregister]
  have hbyName (name : String) : (r.release slot).directory.byName.get? name =
      if (r.session slot).username ≠ "" ∧ (r.session slot).username = name ∧
          r.directory.byName.get? name = some (r.session slot).id then none
      else r.directory.byName.get? name := by
    rw [directory_release, byName_unregister]
  have hkept {id : SessionId} {k : Nat} (hid : (r.session k).id = id) (hk : slot ≠ k) :
      (r.release slot).directory.byId.get? id = r.directory.byId.get? id := by
    rw [hbyId, if_neg]
    rintro ⟨hn, hs⟩
    exact hk (h.id_injective slot k (hs.trans hid.symm) (hid ▸ hs ▸ h.id_ne_zero_of_username hn))
  refine ⟨hb.proper h Identity.proper_idle,
    hb.id_injective h (fun hne => absurd rfl hne), ?_, ?_, ?_⟩
  · intro id k he
    rw [hbyId] at he
    split at he
    · cases he
    · next hn =>
      obtain ⟨hid, hname⟩ := h.byId id k he
      have hk : slot ≠ k := by
        rintro rfl
        exact hn ⟨hname, hid⟩
      rw [hb.id_eq, hb.username_eq, if_neg hk, if_neg hk]
      exact ⟨hid, hname⟩
  · intro name id he
    rw [hbyName] at he
    split at he
    · cases he
    · next hn =>
      obtain ⟨k, hk, hname⟩ := h.byName name id he
      obtain ⟨hid, hne⟩ := h.byId id k hk
      have hslot : slot ≠ k := by
        rintro rfl
        exact hn ⟨hne, hname, by rw [he, hid]⟩
      refine ⟨k, by rw [hkept hid hslot, hk], ?_⟩
      rw [hb.username_eq, if_neg hslot, hname]
  · intro k hp
    have hk : slot ≠ k := by
      rintro rfl
      rw [hb.phase_eq, if_pos rfl] at hp
      cases hp
    rw [hb.phase_eq, if_neg hk] at hp
    rw [hb.id_eq, hb.username_eq, if_neg hk, if_neg hk, hkept rfl hk, hbyName]
    obtain ⟨hname, hid⟩ := h.listed k hp
    refine ⟨?_, hid⟩
    rw [if_neg, hname]
    rintro ⟨hn, -, ho⟩
    rw [hname] at ho
    exact hk (h.id_injective slot k (Option.some.inj ho).symm
      (h.id_ne_zero_of_username ((h.proper k).named hp)))

/-- A name that nobody who is logged in goes by can be taken out of the directory. -/
theorem vacate (hf : r.findName name = none) :
    Consistent { r with directory := ⟨r.directory.byName.erase name, r.directory.byId⟩ } := by
  refine ⟨h.proper, h.id_injective, h.byId, fun n i hi => ?_, fun k hp => ?_⟩
  · refine h.byName n i ?_
    rw [Table.get?_erase] at hi
    split at hi
    · cases hi
    · exact hi
  · have hname := (h.username_ne_of_findName hf hp).symm
    exact ⟨(Table.get?_erase ..).trans ((if_neg hname).trans (h.listed k hp).1),
      (h.listed k hp).2⟩

theorem enrol (hlink : (r.session slot).link.isSome) (hp : (r.session slot).phase = .connected)
    (hn : name ≠ "") (hfree : r.directory.byName.get? name = none) (token : String) :
    Consistent
      { r.setSession slot { r.session slot with
          phase := .authenticated, username := name, token := some token } with
        directory := ⟨r.directory.byName.insert name (r.session slot).id,
          r.directory.byId.insert (r.session slot).id slot⟩ } := by
  have hguest := (h.proper slot).guest hp
  have hne := (h.proper slot).id_ne_zero hlink
  set s : Session :=
    { r.session slot with phase := .authenticated, username := name, token := some token }
  set d : Directory := ⟨r.directory.byName.insert name (r.session slot).id,
    r.directory.byId.insert (r.session slot).id slot⟩
  have hs : s.identity = ⟨(r.session slot).id, .authenticated, name, some token,
    (r.session slot).link⟩ := rfl
  have hb : Becomes r { r.setSession slot s with directory := d } slot s.identity :=
    ⟨(becomes_setSession (lt_capacity_of_link hlink) s).identity⟩
  have hself {k : Nat} (hk : (r.session slot).id = (r.session k).id) : slot = k :=
    (h.id_injective k slot hk.symm hne).symm
  refine ⟨hb.proper h ⟨fun hl => ?_, fun _ => hne, by simp [hs], fun _ => hn⟩,
    hb.id_injective h (fun _ k hk => hself hk.symm), fun i k hi => ?_, fun n i hi => ?_,
    fun k hp => ?_⟩
  · exact absurd hl (Option.isSome_iff_ne_none.1 hlink)
  · rw [hb.id_eq, hb.username_eq]
    rw [Table.get?_insert] at hi
    split at hi
    · next hid =>
      obtain rfl := Option.some.inj hi
      rw [if_pos rfl, if_pos rfl]
      exact ⟨hid, hn⟩
    · next hid =>
      obtain ⟨rfl, hname⟩ := h.byId i k hi
      have hk : slot ≠ k := by
        rintro rfl
        exact hid rfl
      rw [if_neg hk, if_neg hk]
      exact ⟨rfl, hname⟩
  · rw [Table.get?_insert] at hi
    split at hi
    · next hname =>
      obtain rfl := Option.some.inj hi
      refine ⟨slot, (Table.get?_insert ..).trans (if_pos rfl), ?_⟩
      rw [hb.username_eq, if_pos rfl, hs, hname]
    · obtain ⟨k, hk, rfl⟩ := h.byName n i hi
      obtain ⟨rfl, hne⟩ := h.byId i k hk
      have hslot : slot ≠ k := by
        rintro rfl
        exact hne hguest
      refine ⟨k, (Table.get?_insert ..).trans ((if_neg fun hid => hslot (hself hid)).trans hk), ?_⟩
      rw [hb.username_eq, if_neg hslot]
  · rw [hb.phase_eq] at hp
    rw [hb.id_eq, hb.username_eq]
    by_cases hk : slot = k
    · subst hk
      rw [if_pos rfl, if_pos rfl]
      exact ⟨(Table.get?_insert ..).trans (if_pos rfl), (Table.get?_insert ..).trans (if_pos rfl)⟩
    · rw [if_neg hk] at hp
      rw [if_neg hk, if_neg hk]
      obtain ⟨hname, hid⟩ := h.listed k hp
      have hother : name ≠ (r.session k).username := by
        rintro rfl
        rw [hfree] at hname
        cases hname
      exact ⟨(Table.get?_insert ..).trans ((if_neg hother).trans hname),
        (Table.get?_insert ..).trans ((if_neg fun hid => hk (hself hid)).trans hid)⟩

/-- A session that logs in takes its name over from one that is being torn down, if need be. -/
theorem register (slot : Nat) (id : SessionId) {name : String} (hn : name ≠ "") (token : String) :
    Consistent (r.register slot id name token).2 := by
  rcases register_cases r slot id name token with ⟨-, he⟩ | ⟨hf, -, he⟩ | ⟨s, hf, ha, he⟩
  · rwa [he]
  · rw [he]
    exact h.vacate hf
  · obtain ⟨⟨rfl, hlink, hphase⟩, rfl⟩ := Session.authenticate_eq_some_iff.1 ha
    rw [he]
    exact (h.vacate hf).enrol hlink hphase hn ((Table.get?_erase ..).trans (if_pos rfl)) token

theorem begin {slot : Nat} {id : SessionId} (l : Link) (hslot : slot < r.capacity)
    (hlink : (r.session slot).link = none) (hf : r.Fresh id) : Consistent (r.begin slot id l) := by
  have hb : Becomes r (r.begin slot id l) slot ⟨id, .connected, "", none, some r.links.length⟩ :=
    ⟨(becomes_setSession hslot _).identity⟩
  have hd : (r.begin slot id l).directory = r.directory := rfl
  have hname := ((h.proper slot).idle hlink).2.2
  refine ⟨hb.proper h ⟨by simp, fun _ => hf.1, fun _ => rfl, by simp⟩,
    hb.id_injective h (fun _ k hk => absurd hk (hf.2 k)), fun i k hi => ?_, fun n i hi => ?_,
    fun k hp => ?_⟩
  · rw [hd] at hi
    obtain ⟨rfl, hne⟩ := h.byId i k hi
    have hk : slot ≠ k := by
      rintro rfl
      exact hne hname
    rw [hb.id_eq, hb.username_eq, if_neg hk, if_neg hk]
    exact ⟨rfl, hne⟩
  · rw [hd] at hi
    obtain ⟨k, hk, rfl⟩ := h.byName n i hi
    have hslot : slot ≠ k := by
      rintro rfl
      exact (h.byId i _ hk).2 hname
    exact ⟨k, hk, by rw [hb.username_eq, if_neg hslot]⟩
  · have hk : slot ≠ k := by
      rintro rfl
      rw [hb.phase_eq, if_pos rfl] at hp
      cases hp
    rw [hb.phase_eq, if_neg hk] at hp
    rw [hb.id_eq, hb.username_eq, if_neg hk, if_neg hk]
    exact h.listed k hp

end Consistent

/-! ## Names -/

theorem Consistent.findName_register {token other : String} {a : Except DirectoryError Unit}
    (h : Consistent r) (hn : name ≠ "") (hf : r.findName other = none)
    (he : r.register slot id name token = (a, r')) (hk : r'.findName other = some k) :
    a = .ok () ∧ name = other ∧ (r'.session k).id = id := by
  have h' := h.register slot id hn token
  rw [he] at h'
  have hfound := h'.findName_eq_some_iff.1 hk
  have hfree : ¬ ((r.session k).isAuthenticated = true ∧ (r.session k).username = other) := by
    intro hfound
    rw [h.findName_eq_some_iff.2 hfound] at hf
    cases hf
  rcases register_cases r slot id name token with ⟨-, he'⟩ | ⟨-, -, he'⟩ | ⟨s, -, ha, he'⟩
  · cases he.symm.trans he'
    exact absurd hfound hfree
  · cases he.symm.trans he'
    exact absurd hfound hfree
  · cases he.symm.trans he'
    obtain ⟨⟨hid, -, -⟩, rfl⟩ := Session.authenticate_eq_some_iff.1 ha
    have hs := session_setSession r slot k
      { r.session slot with phase := .authenticated, username := name, token := some token }
    split at hs
    · exact ⟨rfl, (congrArg Session.username hs).symm.trans hfound.2,
        (congrArg Session.id hs).trans hid⟩
    · have hsame : (r.session k).isAuthenticated = true ∧ (r.session k).username = other :=
        ⟨(congrArg Session.isAuthenticated hs).symm.trans hfound.1,
          (congrArg Session.username hs).symm.trans hfound.2⟩
      exact absurd hsame hfree

theorem Consistent.findName_of_register {token : String} (h : Consistent r) (hn : name ≠ "")
    (he : r.register slot id name token = (.ok (), r')) : r'.findName name = some slot := by
  have h' := h.register slot id hn token
  rw [he] at h'
  rcases register_cases r slot id name token with ⟨-, he'⟩ | ⟨-, -, he'⟩ | ⟨s, -, ha, he'⟩
  · cases he.symm.trans he'
  · cases he.symm.trans he'
  · cases he.symm.trans he'
    obtain ⟨⟨-, hlink, -⟩, rfl⟩ := Session.authenticate_eq_some_iff.1 ha
    refine h'.findName_eq_some_iff.2 ?_
    have hs := session_setSession_self (lt_capacity_of_link hlink)
      { r.session slot with phase := .authenticated, username := name, token := some token }
    exact ⟨(congrArg Session.isAuthenticated hs).trans (by simpa [Session.isAuthenticated]),
      congrArg Session.username hs⟩

theorem Consistent.findName_depart (h : Consistent r)
    (hx : (r.session slot).nameOf id = some name) :
    (r.depart slot id).2.findName name = none := by
  obtain ⟨hid, hp, hu⟩ := Session.nameOf_eq_some_iff.1 hx
  have hlive := Session.isLive_of_isAuthenticated (h.isAuthenticated_iff.2 hp)
  have h' := h.depart slot id
  by_contra hne
  obtain ⟨k, hk⟩ := Option.ne_none_iff_exists'.1 hne
  obtain ⟨ha, hname⟩ := h'.findName_eq_some_iff.1 hk
  have hphase := h'.isAuthenticated_iff.1 ha
  rcases depart_cases r slot id with ⟨hn, -⟩ | ⟨-, he⟩
  · exact hn ⟨hid, hlive⟩
  · rw [he] at hphase hname
    by_cases hs : slot = k
    · subst hs
      rw [session_setSession_self (lt_capacity_of_isLive hlive)] at hphase
      cases hphase
    · rw [session_setSession_ne hs] at hphase hname
      exact hs (h.username_injective hp hphase (hu.trans hname.symm))

theorem Consistent.findName_of_release (h : Consistent r)
    (hk : (r.release slot).findName name = some k) :
    slot ≠ k ∧ r.findName name = some k := by
  obtain ⟨ha, hname⟩ := (h.release slot).findName_eq_some_iff.1 hk
  have hne : slot ≠ k := by
    rintro rfl
    have hi := identity_release r slot slot
    rw [if_pos rfl] at hi
    cases ((h.release slot).isAuthenticated_iff.1 ha).symm.trans (congrArg Identity.phase hi)
  rw [session_release_ne hne] at ha hname
  exact ⟨hne, h.findName_eq_some_iff.2 ⟨ha, hname⟩⟩

/-! ## Runs -/

theorem Traffic.consistent (ht : Traffic r r') (h : Consistent r) : Consistent r' :=
  h.congr ht.identity ht.directory

theorem Deed.consistent (hd : Deed r r') (h : Consistent r) : Consistent r' := by
  obtain ht | ⟨slot, id, name, token, hn, rfl⟩ := hd.traffic_or
  · exact ht.consistent h
  · exact h.register slot id hn token

theorem Act.consistent (ha : Act slot r r') (h : Consistent r) : Consistent r' := by
  obtain ht | ⟨j, id, name, token, hn, rfl⟩ | ⟨id, rfl⟩ | rfl := ha.traffic_or
  · exact ht.consistent h
  · exact h.register j id hn token
  · exact h.depart slot id
  · exact h.release slot

theorem Consistent.of_acts (h : Consistent r) (ha : ReflTransGen (Act slot) r r') :
    Consistent r' := by
  induction ha with
  | refl => exact h
  | tail _ ha ih => exact ha.consistent ih

theorem Move.consistent (hm : Move r r') (h : Consistent r) : Consistent r' := by
  cases hm with
  | act ha => exact ha.consistent h
  | connect l hslot hlink hf => exact h.begin l (lt_capacity_of_leased hslot) hlink hf

theorem Consistent.of_moves (h : Consistent r) (hm : ReflTransGen Move r r') : Consistent r' := by
  induction hm with
  | refl => exact h
  | tail _ hm ih => exact hm.consistent ih

/-- At all times the directory has those who are logged in, each by name and by id, and nobody else
but sessions that are being torn down. A name or an id leads to the one session that goes by it. -/
theorem directory_eq_authenticated {capacity : Nat} {limits : Limits} {store : S}
    (hm : ReflTransGen Move (.start capacity limits store) r) :
    (∀ id k, r.directory.byId.get? id = some k →
      (r.session k).id = id ∧ (r.session k).username ≠ "" ∧ (r.session k).link.isSome ∧
        ((r.session k).phase = .authenticated ∨ (r.session k).phase = .disconnecting)) ∧
    (∀ name id, r.directory.byName.get? name = some id →
      ∃ k, r.directory.byId.get? id = some k ∧ (r.session k).username = name) ∧
    (∀ k, (r.session k).phase = .authenticated →
      r.directory.byName.get? (r.session k).username = some (r.session k).id ∧
        r.directory.byId.get? (r.session k).id = some k) ∧
    (∀ name k, r.findName name = some k ↔
      (r.session k).isAuthenticated = true ∧ (r.session k).username = name) ∧
    (∀ id k, r.findId id = some k ↔
      (r.session k).isAuthenticated = true ∧ (r.session k).id = id) ∧
    ∀ j k, (r.session j).isLive = true → (r.session k).isLive = true →
      (r.session j).username ≠ "" → (r.session j).username = (r.session k).username → j = k := by
  have h := (Consistent.start capacity limits store).of_moves hm
  refine ⟨fun id k hid => ?_, h.byName, h.listed, fun name k => h.findName_eq_some_iff,
    fun id k => h.findId_eq_some_iff, fun j k hj hk hne hn => ?_⟩
  · obtain ⟨hi, hn⟩ := h.byId id k hid
    refine ⟨hi, hn, h.link_of_username hn, ?_⟩
    cases hp : (r.session k).phase with
    | connected => exact absurd ((h.proper k).guest hp) hn
    | authenticated => exact .inl rfl
    | disconnecting => exact .inr rfl
  · exact h.username_injective ((h.isLive_iff hne).1 hj) ((h.isLive_iff (hn ▸ hne)).1 hk) hn

/-- A name is taken over while its owner is torn down, and stays when the owner is gone. -/
theorem directory_eq_authenticated_takeOver : ∃ r : Relay Store,
    ReflTransGen Move (.start 2 ⟨8, 8, 8, 8⟩ .empty) r ∧ r.directory.byId.get? 1 = none ∧
      r.findName "ann" = some 1 ∧ ∀ k, r.findName "ann" = some k ↔
        (r.session k).isAuthenticated = true ∧ (r.session k).username = "ann" := by
  have hann : "ann" ≠ "" := by decide
  have hboth := ReflTransGen.refl
    |>.tail (.act (@Act.acquire _ 0 (Relay.start 2 ⟨8, 8, 8, 8⟩ Store.empty) _ rfl))
    |>.tail (@Move.connect _ _ 0 1 (.fresh 0 1 none) rfl rfl (by decide))
    |>.tail (.act (.acquire rfl))
    |>.tail (@Move.connect _ _ 1 2 (.fresh 1 2 none) rfl rfl (by decide))
  have hm := hboth
    |>.tail (Deed.register _ 0 1 "t" hann).move
    |>.tail (.act (@Act.depart _ 0 _ 1))
    |>.tail (Deed.register _ 1 2 "u" hann).move
    |>.tail (.act (@Act.release _ 0 _))
  exact ⟨_, hm, by decide +kernel, by decide +kernel,
    (directory_eq_authenticated hm).2.2.2.1 "ann"⟩

end Relay

end ChatRelay
