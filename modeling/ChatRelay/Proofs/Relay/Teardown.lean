import ChatRelay.Proofs.Relay.Login

/-! # Teardowns and presence

A teardown that nothing comes between forgets one connection, and the store forgets its user. As
long as logins and teardowns run one after another, a name's presence is that of the session that
goes by it.
-/

namespace ChatRelay

open Relation (ReflTransGen)

def Store.forget (s : Store) (name token : Option String) : Store :=
  match name with
  | none => s
  | some name =>
    { s with
      tokens := (token.map s.tokens.erase).getD s.tokens
      presence := s.presence.erase name }

theorem Store.presence?_forget (s : Store) (name token : Option String) (other : String) :
    (s.forget name token).presence? other =
      if name = some other then none else s.presence? other := by
  cases name with
  | none => rfl
  | some name => simpa [forget, presence?] using Table.get?_erase s.presence name other

theorem Store.contains_forget (s : Store) (name : String) (token : Option String) (t : String) :
    (s.forget (some name) token).tokens.contains t = true ↔
      token ≠ some t ∧ s.tokens.contains t = true := by
  cases token with
  | none => simp [forget]
  | some token => simpa [forget] using Table.contains_erase

namespace Relay

def farewell {S : Type} (r : Relay S) (name : String) (announced : Bool) : Relay S :=
  if announced then (r.announceLeave name).2 else r

variable {token : Nat → String} {lifetime : Nat} {r : Relay Store} {slot k : Nat}
  {id : SessionId} {name : String}

theorem disconnect_eq {S : Type} (v : Service S) {r : Relay S} (h : Consistent r)
    (hx : (r.session slot).nameOf id = some name) (announced : Bool) :
    r.disconnect v slot id announced =
      (((r.depart slot id).2.forget v name (r.session slot).token).release slot).farewell name
        announced := by
  obtain ⟨hid, hp, hu⟩ := Session.nameOf_eq_some_iff.1 hx
  have hlive := Session.isLive_of_isAuthenticated (h.isAuthenticated_iff.2 hp)
  rcases depart_cases r slot id with ⟨hn, -⟩ | ⟨-, he⟩
  · exact absurd ⟨hid, hlive⟩ hn
  · have hlogged : (r.session slot).loggedInAs = some name := by
      rw [Session.loggedInAs, if_pos hp, hu]
    rw [disconnect, he, hlogged]
    rfl

theorem traffic_farewell (r : Relay Store) (name : String) (announced : Bool) :
    Traffic r (r.farewell name announced) := by
  unfold farewell
  split
  · exact traffic_broadcast ..
  · exact ⟨fun _ => rfl, rfl⟩

@[simp] theorem store_farewell (r : Relay Store) (name : String) (announced : Bool) :
    (r.farewell name announced).store = r.store := by
  unfold farewell
  split
  · exact store_broadcast ..
  · rfl

theorem farewell_deeds (r : Relay Store) (name : String) (announced : Bool) :
    ReflTransGen Deed r (r.farewell name announced) := by
  unfold farewell
  split
  · exact broadcast_chain (fun _ _ hd => hd) ..
  · exact .refl

theorem Hears.outgoing_farewell {receiver : String} (hr : r.Hears k receiver) (h : Orderly r)
    (announced : Bool) (hroom : (r.farewell name announced).Room k) :
    (r.farewell name announced).outgoing k = r.outgoing k ++
      if announced then [(Packet.userLeaveNotify (.truncated name)).encode] else [] := by
  have hexcept : none ≠ some k := nofun
  unfold farewell at hroom ⊢
  split
  · next ha =>
    rw [if_pos ha] at hroom
    exact hr.outgoing_broadcast h hexcept (.userLeaveNotify (.truncated name)) hroom
  · exact (List.append_nil _).symm

/-! ## Teardowns from beginning to end -/

theorem forget_direct (name : String) (drawn : Option String) (r : Relay Store) :
    r.forget (.direct token lifetime) name drawn =
      { r with store := r.store.forget (some name) drawn } := by
  cases drawn <;> rfl

/-- The relay when the store has forgotten the user in `slot`, whose teardown has begun. -/
def departed (r : Relay Store) (slot : Nat) : Relay Store :=
  { r.setSession slot { r.session slot with phase := .disconnecting, token := none } with
    store := r.store.forget (r.session slot).loggedInAs (r.session slot).token }

theorem disconnect_direct (token : Nat → String) (lifetime : Nat)
    (hid : (r.session slot).id = id) (hlive : (r.session slot).isLive = true) (announced : Bool) :
    ∃ name announced', r.disconnect (.direct token lifetime) slot id announced =
      ((r.departed slot).release slot).farewell name announced' := by
  rcases depart_cases r slot id with ⟨hn, -⟩ | ⟨-, he⟩
  · exact absurd ⟨hid, hlive⟩ hn
  · unfold disconnect
    rw [he]
    cases hlogged : (r.session slot).loggedInAs with
    | none =>
      refine ⟨"", false, ?_⟩
      simp only [departed, hlogged]
      rfl
    | some name =>
      refine ⟨name, announced, ?_⟩
      simp only [departed, hlogged, forget_direct]
      rfl

theorem disconnect_of_not_live (h : ¬ ((r.session slot).id = id ∧ (r.session slot).isLive = true))
    {v : Service Store} (announced : Bool) : r.disconnect v slot id announced = r := by
  rcases depart_cases r slot id with ⟨-, he⟩ | ⟨hlive, -⟩
  · rw [disconnect, he]
  · exact absurd hlive h

theorem identity_disconnect (token : Nat → String) (lifetime : Nat)
    (hid : (r.session slot).id = id) (hlive : (r.session slot).isLive = true) (announced : Bool)
    (k : Nat) :
    ((r.disconnect (.direct token lifetime) slot id announced).session k).identity =
      if slot = k then ⟨0, .disconnecting, "", none, none⟩ else (r.session k).identity := by
  obtain ⟨name, b, he⟩ := disconnect_direct token lifetime hid hlive announced
  rw [he, (traffic_farewell ..).identity, identity_release]
  split
  · rfl
  · next hk => exact congrArg Session.identity (session_setSession_ne hk _)

theorem Consistent.findName_iff {S : Type} {r : Relay S} (h : Consistent r) :
    r.findName name = some k ↔
      (r.session k).identity.phase = .authenticated ∧ (r.session k).identity.username = name :=
  h.findName_eq_some_iff.trans (and_congr_left fun _ => h.isAuthenticated_iff)

theorem disconnect_moves {S : Type} {v : Service S} (hv : v.Within Move) (r : Relay S) (slot : Nat)
    (id : SessionId) (announced : Bool) :
    ReflTransGen Move r (r.disconnect v slot id announced) :=
  disconnect_chain (fun _ _ => .act) hv id announced r

theorem Orderly.disconnect (h : Orderly r) (token : Nat → String) (lifetime slot : Nat)
    (id : SessionId) (announced : Bool) :
    Orderly (r.disconnect (.direct token lifetime) slot id announced) :=
  h.of_moves (disconnect_moves ((direct_within token lifetime).mono fun _ _ => Deed.move) ..)

section

variable (token : Nat → String) (lifetime : Nat) (h : Orderly r) (slot : Nat) (id : SessionId)
  (announced : Bool) (name : String)

include h

theorem presence_disconnect :
    (r.disconnect (.direct token lifetime) slot id announced).store.presence? name =
      if (r.session slot).nameOf id = some name then none else r.store.presence? name := by
  by_cases hlive : (r.session slot).id = id ∧ (r.session slot).isLive = true
  · obtain ⟨user, b, he⟩ := disconnect_direct token lifetime hlive.1 hlive.2 announced
    rw [he, store_farewell, store_release, Session.nameOf, if_pos hlive.1]
    exact Store.presence?_forget ..
  · rw [disconnect_of_not_live hlive, if_neg]
    intro hx
    obtain ⟨hid, hp, -⟩ := Session.nameOf_eq_some_iff.1 hx
    exact hlive ⟨hid, Session.isLive_of_isAuthenticated (h.consistent.isAuthenticated_iff.2 hp)⟩

theorem findName_disconnect (k : Nat) :
    (r.disconnect (.direct token lifetime) slot id announced).findName name = some k ↔
      (r.session slot).nameOf id ≠ some name ∧ r.findName name = some k := by
  by_cases hlive : (r.session slot).id = id ∧ (r.session slot).isLive = true
  · have h' := h.disconnect token lifetime slot id announced
    have hi := identity_disconnect token lifetime hlive.1 hlive.2 announced k
    rw [h'.consistent.findName_iff, h.consistent.findName_iff, hi]
    split
    · next hk =>
      subst hk
      refine iff_of_false nofun fun ⟨hne, hp, hu⟩ => hne ?_
      exact Session.nameOf_eq_some_iff.2 ⟨hlive.1, hp, hu⟩
    · next hk =>
      refine ⟨fun hfound => ⟨fun hx => hk ?_, hfound⟩, And.right⟩
      obtain ⟨-, hp, hu⟩ := Session.nameOf_eq_some_iff.1 hx
      exact h.consistent.username_injective hp hfound.1 (hu.trans hfound.2.symm)
  · rw [disconnect_of_not_live hlive]
    refine (and_iff_right fun hx => hlive ?_).symm
    obtain ⟨hid, hp, -⟩ := Session.nameOf_eq_some_iff.1 hx
    exact ⟨hid, Session.isLive_of_isAuthenticated (h.consistent.isAuthenticated_iff.2 hp)⟩

theorem id_disconnect
    (hk : (r.disconnect (.direct token lifetime) slot id announced).findName name = some k) :
    ((r.disconnect (.direct token lifetime) slot id announced).session k).id =
      (r.session k).id := by
  by_cases hlive : (r.session slot).id = id ∧ (r.session slot).isLive = true
  · have h' := h.disconnect token lifetime slot id announced
    have hi := identity_disconnect token lifetime hlive.1 hlive.2 announced k
    split at hi
    · cases ((h'.consistent.findName_iff).1 hk).1.symm.trans (congrArg Identity.phase hi)
    · exact congrArg Identity.id hi
  · rw [disconnect_of_not_live hlive]

end

/-! ## Presence -/

/-- The presence of `name` is the session that goes by it. -/
def Agrees (r : Relay Store) (name : String) : Prop :=
  r.store.presence? name = (r.findName name).map fun k => (r.session k).id

instance Agrees.decidable (r : Relay Store) (name : String) : Decidable (r.Agrees name) :=
  inferInstanceAs (Decidable (_ = _))

theorem agrees_of_found (hk : r.findName name = some k) :
    r.Agrees name ↔ r.store.presence? name = some (r.session k).id := by
  rw [Agrees, hk, Option.map_some]

theorem agrees_of_free (hf : r.findName name = none) :
    r.Agrees name ↔ r.store.presence? name = none := by
  rw [Agrees, hf, Option.map_none]

theorem Agrees.attempt (ha : r.Agrees name) (h : Orderly r) (a : Attempt) :
    (r.attempt (.direct token lifetime) a).Agrees name := by
  have hd := attempt_deeds (direct_within token lifetime) r a
  cases hf : r.findName name with
  | some k =>
    obtain ⟨hk, hid⟩ := findName_of_deeds h hd hf
    rw [agrees_of_found hk, presence_attempt_of_found hf, hid]
    exact (agrees_of_found hf).1 ha
  | none =>
    cases hk : (r.attempt (.direct token lifetime) a).findName name with
    | some k => exact (agrees_of_found hk).2 (attempt_of_free h.consistent hf hk).2.2
    | none =>
      exact (agrees_of_free hk).2
        (presence_attempt_of_free h.consistent ((agrees_of_free hf).1 ha) hk)

theorem Agrees.disconnect (ha : r.Agrees name) (h : Orderly r) (slot : Nat) (id : SessionId)
    (announced : Bool) :
    (r.disconnect (.direct token lifetime) slot id announced).Agrees name := by
  have hpresence := presence_disconnect token lifetime h slot id announced name
  have hfind := findName_disconnect token lifetime h slot id announced name
  have hid (k) := id_disconnect token lifetime h slot id announced name (k := k)
  set r' := r.disconnect (.direct token lifetime) slot id announced
  cases hf : r'.findName name with
  | some k =>
    obtain ⟨hne, hk⟩ := (hfind k).1 hf
    rw [agrees_of_found hf, hpresence, if_neg hne, hid k hf]
    exact (agrees_of_found hk).1 ha
  | none =>
    rw [agrees_of_free hf, hpresence]
    split
    · rfl
    · next hne =>
      refine (agrees_of_free ?_).1 ha
      by_contra hsome
      obtain ⟨k, hk⟩ := Option.ne_none_iff_exists'.1 hsome
      cases hf.symm.trans ((hfind k).2 ⟨hne, hk⟩)

end Relay

end ChatRelay
