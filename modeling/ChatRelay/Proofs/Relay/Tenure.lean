import ChatRelay.Proofs.Relay.Delivery

/-! # Tenure

A session that is logged in stays what it is until its teardown begins: nothing that happens to it
or to others changes its id, its name or its token before that.
-/

namespace ChatRelay.Relay

open Relation (ReflTransGen)

variable {S : Type} {r r' : Relay S} {slot k : Nat} {id : SessionId} {name : String}

theorem Act.identity_eq (ha : Act slot r r') (hp : (r.session k).phase = .authenticated)
    (hp' : (r'.session k).phase ≠ .disconnecting) :
    (r'.session k).identity = (r.session k).identity := by
  obtain ht | ⟨j, i, n, t, -, rfl⟩ | ⟨i, rfl⟩ | rfl := ha.traffic_or
  · exact ht.identity k
  · exact identity_register (by simp [hp]) ..
  · exact (identity_depart r slot k i).resolve_right fun h => hp' h.2
  · have hi := identity_release r slot k
    split at hi
    · exact absurd (congrArg Identity.phase hi) hp'
    · exact hi

/-- Who is served in `k` by now was served there before, and if it was logged in, then under the
same name and with the same token. -/
structure Lasts (r r' : Relay S) (k : Nat) : Prop where
  live : (r.session k).phase ≠ .disconnecting
  id : (r'.session k).id = (r.session k).id
  identity : (r.session k).phase = .authenticated →
    (r'.session k).identity = (r.session k).identity

theorem Lasts.refl (hp : (r.session k).phase ≠ .disconnecting) : Lasts r r k :=
  ⟨hp, rfl, fun _ => rfl⟩

theorem Lasts.trans {r'' : Relay S} (h : Lasts r r' k) (h' : Lasts r' r'' k) : Lasts r r'' k where
  live := h.live
  id := h'.id.trans h.id
  identity hp := by
    have hi := h.identity hp
    exact (h'.identity ((congrArg Identity.phase hi).trans hp)).trans hi

theorem Act.lasts (ha : Act slot r r') (hp' : (r'.session k).phase ≠ .disconnecting) :
    Lasts r r' k where
  live := fun hp => hp' (ha.disconnecting hp)
  id := by
    obtain ht | ⟨j, i, n, t, -, rfl⟩ | ⟨i, rfl⟩ | rfl := ha.traffic_or
    · exact congrArg Identity.id (ht.identity k)
    · obtain ⟨p, u, t, hs⟩ := session_register r j k i n t
      rw [hs]
    · exact congrArg Identity.id ((identity_depart r slot k i).resolve_right fun h => hp' h.2)
    · have hi := identity_release r slot k
      split at hi
      · exact absurd (congrArg Identity.phase hi) hp'
      · exact congrArg Identity.id hi
  identity hp := ha.identity_eq hp hp'

theorem lasts_of_acts (ha : ReflTransGen (fun r r' => ∃ slot, Act slot r r') r r')
    (hp' : (r'.session k).phase ≠ .disconnecting) : Lasts r r' k := by
  induction ha with
  | refl => exact .refl hp'
  | tail _ hlast ih =>
    obtain ⟨_, hlast⟩ := hlast
    have hl := hlast.lasts hp'
    exact (ih hl.live).trans hl

def Keeps (slot : Nat) (r r' : Relay S) : Prop :=
  Move r r' ∧ (r'.session slot).phase ≠ .disconnecting

theorem Keeps.identity_eq (hk : Keeps slot r r') (h : Consistent r)
    (hp : (r.session slot).phase = .authenticated) :
    (r'.session slot).identity = (r.session slot).identity := by
  obtain ⟨hm, hp'⟩ := hk
  cases hm with
  | act ha => exact ha.identity_eq hp hp'
  | @connect j i l _ hlink _ =>
    have hj : j ≠ slot := by
      rintro rfl
      have hsome := h.link_of_phase (k := j) (by simp [hp])
      rw [hlink] at hsome
      cases hsome
    exact congrArg Session.identity (session_setSession_ne hj _)

theorem moves_of_keeps (hk : ReflTransGen (Keeps slot) r r') : ReflTransGen Move r r' :=
  ReflTransGen.mono (fun _ _ hk => hk.1) _ _ hk

theorem nameOf_of_keeps (h : Orderly r) (hk : ReflTransGen (Keeps slot) r r')
    (hn : (r.session slot).nameOf id = some name) :
    (r'.session slot).nameOf id = some name := by
  induction hk with
  | refl => exact hn
  | tail hfirst hlast ih =>
    obtain ⟨hid, hp, hu⟩ := Session.nameOf_eq_some_iff.1 ih
    have hi := hlast.identity_eq (h.of_moves (moves_of_keeps hfirst)).consistent hp
    exact Session.nameOf_eq_some_iff.2 ⟨(congrArg Identity.id hi).trans hid,
      (congrArg Identity.phase hi).trans hp, (congrArg Identity.username hi).trans hu⟩

theorem Consistent.findName_of_nameOf (h : Consistent r)
    (hn : (r.session slot).nameOf id = some name) : r.findName name = some slot := by
  obtain ⟨-, hp, hu⟩ := Session.nameOf_eq_some_iff.1 hn
  exact h.findName_eq_some_iff.2 ⟨h.isAuthenticated_iff.2 hp, hu⟩

end ChatRelay.Relay
