import ChatRelay.Proofs.Relay.Delivery
import ChatRelay.Proofs.Relay.Speech
import ChatRelay.Proofs.SingleFlight
import ChatRelay.Proofs.Views

/-! # What a connection has taken

The packets that a connection has taken are those that its link was offered and those that wait,
whatever the link refuses. A handler adds to them what it says, and a fan-out one packet at most.
-/

namespace ChatRelay

open Relation (ReflTransGen)

variable {S : Type}

@[simp] theorem Link.offers_receive (l : Link) (limit : Nat) :
    (l.receive limit).2.offers = l.offers := by
  simp only [receive, record, offers, List.filterMap_append]
  split <;> simp [LinkEvent.offer?]

namespace Session

variable {s : Session} {ls ls' : Links} {l : LinkId} {link : Link}

/-- The packets that the connection has taken since it began, oldest first. -/
def taken (s : Session) (ls : Links) : List Bytes :=
  (s.offers ls).map Prod.fst ++ s.queue.tail

theorem taken_congr {t : Session} (hl : t.link = s.link) (hq : t.queue = s.queue)
    (h : ∀ l, s.link = some l → (ls'.map Link.offers)[l]? = (ls.map Link.offers)[l]?) :
    t.taken ls' = s.taken ls := by
  have hoffers : (t.linkIn ls').map Link.offers = (s.linkIn ls).map Link.offers := by
    rw [linkIn, hl, linkIn]
    cases hs : s.link with
    | none => rfl
    | some l => simpa using h l hs
  rw [taken, offers, hoffers, hq, taken, offers]

theorem taken_postNext (h : s.linkIn ls = some link) (hl : s.link = some l) :
    (s.postNext l ls).1.taken (s.postNext l ls).2 = (s.offers ls).map Prod.fst ++ s.queue := by
  obtain ⟨refused, queue, hsplit, hs, hoffers⟩ := offers_postNext h hl
  rw [taken, hoffers, hs, hsplit]
  cases queue <;> simp [Function.comp_def]

theorem taken_send (h : s.linkIn ls = some link) (hl : s.link = some l) (hs : s.Sends)
    (target : Option SessionId) (packet : Bytes) :
    (s.send target packet ls).2.1.taken (s.send target packet ls).2.2 =
      s.taken ls ++ if s.accepts target packet then [packet] else [] := by
  cases ha : s.accepts target packet with
  | false => simp [send_of_refused ha]
  | true =>
    have hsending := hs (by rw [hl]; rfl)
    cases hq : s.queue with
    | nil =>
      rw [hq] at hsending
      rw [send_of_not_sending hl ha hsending]
      have hpost := taken_postNext (s := { s with queue := s.queue ++ [packet] }) h hl
      refine hpost.trans ?_
      simp [taken, hq, offers, linkIn]
    | cons p ps =>
      rw [hq] at hsending
      rw [send_of_sending hl ha hsending]
      simp [taken, hq, offers, linkIn]

theorem taken_sent (h : s.linkIn ls = some link) (hl : s.link = some l) (id : SessionId) :
    (s.sent id ls).1.taken (s.sent id ls).2 = s.taken ls := by
  unfold sent
  split
  · rfl
  · dsimp only
    split
    · next l' hl' =>
      exact taken_postNext (s := { s with queue := s.queue.tail }) h hl'
    · next hn => cases hl.symm.trans hn

end Session

namespace Relay

variable {r r' : Relay S} {slot k : Nat} {id : SessionId} {i : LinkId} {P : Bytes → Prop}
  {N : String → Prop}

/-- The packets that the connection in `k` has taken since it began. -/
def taken (r : Relay S) (k : Nat) : List Bytes :=
  (r.session k).taken r.links

theorem taken_congr (hs : r'.session k = r.session k)
    (h : ∀ i, (r.session k).link = some i →
      (r'.links.map Link.offers)[i]? = (r.links.map Link.offers)[i]?) :
    r'.taken k = r.taken k :=
  Session.taken_congr (by rw [hs]) (by rw [hs]) h

theorem taken_setSession {s : Session} (hl : s.link = (r.session slot).link)
    (hq : s.queue = (r.session slot).queue) : (r.setSession slot s).taken k = r.taken k := by
  refine Session.taken_congr ?_ ?_ (fun _ _ => rfl) <;> rw [session_setSession]
  · split
    · next hk => rw [hl, hk.1]
    · rfl
  · split
    · next hk => rw [hq, hk.1]
    · rfl

theorem taken_armRead (r : Relay S) (slot : Nat) (id : SessionId) (k : Nat) :
    (r.armRead slot id).2.taken k = r.taken k :=
  taken_congr rfl fun i _ => congrArg (·[i]?) (Session.map_armRead Link.offers_receive ..)

theorem taken_release (hne : slot ≠ k) : (r.release slot).taken k = r.taken k := by
  refine taken_congr (session_release_ne hne) fun i _ => ?_
  rw [links_release, Session.map_hangUp Link.offers_close]

theorem taken_depart (r : Relay S) (slot : Nat) (id : SessionId) (k : Nat) :
    (r.depart slot id).2.taken k = r.taken k := by
  rcases depart_cases r slot id with ⟨-, he⟩ | ⟨-, he⟩ <;> rw [he]
  exact taken_setSession rfl rfl

theorem taken_acquire (ha : r.acquire = some (slot, r')) : r'.taken k = r.taken k := by
  obtain ⟨free, -, rfl⟩ := acquire_eq_some_iff.1 ha
  have hs : { r.session slot with leased := true }.link = (r.session slot).link := rfl
  exact taken_setSession (k := k) hs rfl

section

variable (hw : Wired r)

include hw

theorem Wired.exists_linkIn (hl : (r.session k).link = some i) :
    ∃ link, (r.session k).linkIn r.links = some link := by
  have hat := List.getElem?_eq_getElem (hw.link_lt k i hl)
  exact ⟨_, by rw [Session.linkIn, hl, Option.bind_some, hat]⟩

theorem taken_begin (hlink : (r.session slot).link = none) (hne : slot ≠ k) (id : SessionId)
    (l : Link) : (r.begin slot id l).taken k = r.taken k := by
  refine taken_congr (session_setSession_ne hne _) fun i hi => ?_
  have hlt := hw.link_lt k i hi
  rw [links_begin hlink, List.map_append, List.getElem?_append_left (by simpa using hlt)]

theorem taken_send_ne (hne : slot ≠ k) (target : Option SessionId) (packet : Bytes) :
    (r.send slot target packet).2.taken k = r.taken k := by
  have hs : (r.send slot target packet).2.session k = r.session k := by
    rw [session_send, if_neg hne]
  refine taken_congr hs fun i hi => ?_
  rw [List.getElem?_map, List.getElem?_map, links_send_ne hw hne target packet i hi]

theorem taken_send (slot : Nat) (target : Option SessionId) (packet : Bytes) :
    ∃ new, (r.send slot target packet).2.taken k = r.taken k ++ new ∧ new.Sublist [packet] := by
  by_cases hne : slot = k
  · subst hne
    have hs : (r.send slot target packet).2.session slot =
        ((r.session slot).send target packet r.links).2.1 := by
      rw [session_send, if_pos rfl]
    cases hl : (r.session slot).link with
    | none =>
      have hnone := Session.send_of_link_none hl target packet r.links
      refine ⟨[], ?_, List.nil_sublist _⟩
      rw [taken, hs]
      simp only [Relay.send, put, hnone, taken, List.append_nil]
    | some i =>
      obtain ⟨link, hlink⟩ := hw.exists_linkIn hl
      refine ⟨if (r.session slot).accepts target packet then [packet] else [], ?_, ?_⟩
      · rw [taken, hs]
        exact Session.taken_send hlink hl (hw.sends slot) target packet
      · split
        · exact List.Sublist.refl _
        · exact List.nil_sublist _
  · exact ⟨[], by rw [taken_send_ne hw hne, List.append_nil], List.nil_sublist _⟩

theorem taken_sent (hl : (r.session k).link = some i) (slot : Nat) (id : SessionId) :
    (r.sent slot id).taken k = r.taken k := by
  have hs := session_sent r slot k id
  by_cases hne : slot = k
  · subst hne
    obtain ⟨link, hlink⟩ := hw.exists_linkIn hl
    rw [if_pos rfl] at hs
    rw [taken, hs]
    exact Session.taken_sent hlink hl id
  · rw [if_neg hne] at hs
    refine taken_congr hs fun j hj => ?_
    have hother := Session.links_sent_ne (hw.link_ne hne hj) id r.links
    rw [List.getElem?_map, List.getElem?_map]
    exact congrArg (Option.map Link.offers) hother

theorem Speaks.taken (hs : Speaks P N r r') (k : Nat) :
    ∃ new, r'.taken k = r.taken k ++ new ∧ ∀ p ∈ new, P p := by
  cases hs with
  | store => exact ⟨[], (List.append_nil _).symm, nofun⟩
  | register slot id token _ _ =>
    obtain ⟨p, u, t, hs⟩ := session_register r slot k id _ token
    refine ⟨[], ?_, nofun⟩
    rw [List.append_nil]
    exact Session.taken_congr (by rw [hs]) (by rw [hs]) fun _ _ => by rw [links_register]
  | send slot target hp =>
    obtain ⟨new, hnew, hsub⟩ := taken_send hw slot target _ (k := k)
    exact ⟨new, hnew, fun p hmem => List.mem_singleton.1 (hsub.subset hmem) ▸ hp⟩

theorem taken_sendEach_of_notMem {slots : List Nat} (hk : k ∉ slots) (except : Option Nat)
    (packet : Bytes) : (sendEach except packet slots r).2.taken k = r.taken k := by
  induction slots generalizing r with
  | nil => rfl
  | cons slot slots ih =>
    obtain ⟨hne, hmem⟩ := not_or.1 (mt List.mem_cons.2 hk)
    unfold sendEach
    split
    · exact ih hw hmem
    · exact (ih ((Deed.send r slot none packet).wired hw) hmem).trans
        (taken_send_ne hw (Ne.symm hne) ..)

/-- A fan-out over distinct slots reaches nobody twice. -/
theorem taken_sendEach {slots : List Nat} (hnodup : slots.Nodup) (except : Option Nat)
    (packet : Bytes) :
    ∃ new, (sendEach except packet slots r).2.taken k = r.taken k ++ new ∧ new.Sublist [packet] := by
  induction slots generalizing r with
  | nil => exact ⟨[], (List.append_nil _).symm, List.nil_sublist _⟩
  | cons slot slots ih =>
    obtain ⟨hmem, hnodup⟩ := List.nodup_cons.1 hnodup
    unfold sendEach
    split
    · exact ih hw hnodup
    · have hw' := (Deed.send r slot none packet).wired hw
      by_cases hne : slot = k
      · subst hne
        obtain ⟨new, hnew, hsub⟩ := taken_send hw slot none packet (k := slot)
        exact ⟨new, (taken_sendEach_of_notMem hw' hmem ..).trans hnew, hsub⟩
      · obtain ⟨new, hnew, hsub⟩ := ih hw' hnodup
        exact ⟨new, hnew.trans (by rw [taken_send_ne hw hne]), hsub⟩

end

theorem taken_broadcast (h : Orderly r) (except : Option Nat) (packet : Bytes) :
    ∃ new, (r.broadcast except packet).2.taken k = r.taken k ++ new ∧ new.Sublist [packet] :=
  taken_sendEach h.wired h.consistent.nodup_values except packet

end Relay

end ChatRelay
