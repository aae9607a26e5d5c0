import ChatRelay.Proofs.Reads

/-! # Staleness

What completes late finds its slot empty or in other hands, or names a slot that is not there. It
leaves everything as it is, whatever it brings.
-/

namespace ChatRelay

open Relation (ReflTransGen)

variable {S : Type}

def Session.Hushed (s : Session) : Prop :=
  s.link = none → s.queue = [] ∧ s.sending = false

namespace Session

variable {s : Session}

theorem Hushed.send (h : s.Hushed) (target : Option SessionId) (packet : Bytes) (ls : Links) :
    (s.send target packet ls).2.1.Hushed := by
  intro hl
  obtain ⟨q, b, hs⟩ := s.send_eq target packet ls
  have hlink : s.link = none := by rwa [hs] at hl
  rw [send_of_link_none hlink]
  exact h hlink

theorem Hushed.sent_of_link_none (h : s.Hushed) (hl : s.link = none) (id : SessionId)
    (ls : Links) : s.sent id ls = (s, ls) := by
  obtain ⟨hq, hb⟩ := h hl
  have hsame : { s with queue := s.queue.tail, sending := false } = s := by
    rw [hq, ← hb, List.tail_nil, ← hq]
  unfold sent
  split
  · rfl
  · dsimp only
    split
    · next l hl' => cases hl.symm.trans hl'
    · exact congrArg (·, ls) hsame

theorem Hushed.sent (h : s.Hushed) (id : SessionId) (ls : Links) : (s.sent id ls).1.Hushed := by
  intro hl
  obtain ⟨q, b, hs⟩ := s.sent_eq id ls
  have hlink : s.link = none := by rwa [hs] at hl
  rw [h.sent_of_link_none hlink]
  exact h hlink

end Session

namespace Relay

variable {r r' : Relay S} {slot k : Nat}

def Silent (r : Relay S) : Prop :=
  ∀ k, (r.session k).Hushed

theorem Silent.setSession (h : r.Silent) (slot : Nat) {s : Session} (hs : s.Hushed) :
    (r.setSession slot s).Silent := by
  intro k
  rw [session_setSession]
  split
  · exact hs
  · exact h k

theorem Deed.silent (hd : Deed r r') (h : r.Silent) : r'.Silent := by
  cases hd with
  | store => exact h
  | register j id token _ =>
    intro k
    obtain ⟨p, u, t, hs⟩ := session_register r j k id _ token
    rw [hs]
    exact h k
  | send j target packet => exact h.setSession j ((h j).send target packet r.links)

theorem Act.silent (ha : Act slot r r') (h : r.Silent) : r'.Silent := by
  cases ha with
  | deed hd => exact hd.silent h
  | acquire ha =>
    obtain ⟨free, -, rfl⟩ := acquire_eq_some_iff.1 ha
    have hs : Session.Hushed { r.session slot with leased := true } := h slot
    have hset := h.setSession slot hs
    exact hset
  | depart id =>
    rcases depart_cases r slot id with ⟨-, he⟩ | ⟨-, he⟩ <;> rw [he]
    · exact h
    · exact h.setSession slot (h slot)
  | release =>
    intro k
    rcases Nat.lt_or_ge k r.capacity with hk | hk
    · rw [session_release hk]
      split
      · exact fun _ => ⟨rfl, rfl⟩
      · exact h k
    · rw [session_of_capacity_le (by simpa using hk)]
      exact fun _ => ⟨rfl, rfl⟩
  | sent id => exact h.setSession slot ((h slot).sent id r.links)
  | armRead id => exact h
  | receive id bs =>
    obtain ⟨ring, hs⟩ := (r.session slot).receive_eq id bs
    rw [receive_eq_setSession, hs]
    exact h.setSession slot (h slot)
  | take _ => exact h.setSession slot (h slot)

theorem Stir.silent (hs : Stir r r') (h : r.Silent) : r'.Silent := by
  cases hs with
  | act ha => exact ha.silent h
  | begin id hleased _ _ =>
    intro k
    rw [session_begin (lt_capacity_of_leased hleased)]
    split
    · exact nofun
    · exact h k

theorem silent_of_stirs {capacity : Nat} {limits : Limits} {store : S}
    (hs : ReflTransGen Stir (Relay.start capacity limits store) r) : r.Silent := by
  induction hs with
  | refl =>
    intro k
    rw [session_start]
    exact fun _ => ⟨rfl, rfl⟩
  | tail _ hs ih => exact hs.silent ih

/-- Why connection `id` is not served in `slot`: the slot is not there, it has another id, or it
serves nobody. -/
def Gone (r : Relay S) (slot : Nat) (id : SessionId) : Prop :=
  r.capacity ≤ slot ∨ (r.session slot).id ≠ id ∨ (r.session slot).link = none

theorem gone_iff {id : SessionId} :
    r.Gone slot id ↔ ∃ err, (r.session slot).obstacle? id = some err := by
  have hnone : (r.session slot).obstacle? id ≠ none ↔
      (r.session slot).id ≠ id ∨ (r.session slot).link = none := by
    rw [Ne, Session.obstacle?_eq_none_iff, not_and_or, Option.not_isSome_iff_eq_none]
  rw [← Option.ne_none_iff_exists', hnone, Gone, or_iff_right_iff_imp]
  intro hle
  right
  rw [session_of_capacity_le hle]
  rfl

theorem depart_of_obstacle {id : SessionId} {err : SessionError}
    (ho : (r.session slot).obstacle? id = some err) : r.depart slot id = (none, r) := by
  rcases depart_cases r slot id with ⟨-, he⟩ | ⟨⟨hid, hlive⟩, -⟩
  · exact he
  · rw [Session.obstacle?_eq_none_iff.2 ⟨hid, (Session.isLive_iff.1 hlive).1⟩] at ho
    cases ho

theorem Silent.sent_of_obstacle (h : r.Silent) {id : SessionId} {err : SessionError}
    (ho : (r.session slot).obstacle? id = some err) : r.sent slot id = r := by
  have hsession : (r.session slot).sent id r.links = (r.session slot, r.links) := by
    cases hl : (r.session slot).link with
    | none => exact (h slot).sent_of_link_none hl id r.links
    | some l =>
      refine if_pos fun hid => ?_
      rw [Session.obstacle?_eq_none_iff.2 ⟨hid, by rw [hl]; rfl⟩] at ho
      cases ho
  rw [Relay.sent, hsession]
  exact setSession_session r slot

end Relay

namespace Engine

open Relay

variable {v : Service S} {e : Engine S}

theorem run_stirs (hv : v.Within Stir) (h : Wired e.relay) (steps : List Step) :
    ReflTransGen Stir e.relay (e.run v steps).relay := by
  induction steps generalizing e with
  | nil => exact .refl
  | cons s steps ih =>
    have hs := step_stirs hv h s
    exact hs.trans (ih (h.of_stirs hs))

/-- However the engine came to be in its state, and whatever the service does when it is asked: a
completion for a connection that is gone leaves everything as it is, the logs of all links included.
Nothing that it brings is taken in, and no teardown begins, so nobody is told of one. -/
theorem complete_of_gone {capacity : Nat} {limits : Limits} {store : S}
    (he : ReflTransGen Stir (Relay.start capacity limits store) e.relay) (c : Completion)
    (hc : e.relay.Gone c.connection.1 c.connection.2) :
    (∀ v : Service S, e.complete v c = e) ∧
      e.relay.depart c.connection.1 c.connection.2 = (none, e.relay) ∧
      ∀ bs, ∃ err, e.relay.receive c.connection.1 c.connection.2 bs = (.error err, e.relay) := by
  obtain ⟨err, ho⟩ := gone_iff.1 hc
  refine ⟨fun v => ?_, depart_of_obstacle ho, fun bs => ⟨err, receive_of_obstacle ho bs⟩⟩
  cases c with
  | received slot id result =>
    change (e.relay.session slot).obstacle? id = some err at ho
    simp only [complete, afterRead_of_obstacle ho, ite_self]
  | sent slot id result =>
    change (e.relay.session slot).obstacle? id = some err at ho
    have hwrite : e.afterWrite v slot id result = e := by
      unfold afterWrite
      split
      · rw [(silent_of_stirs he).sent_of_obstacle ho]
      · rw [Engine.disconnect, disconnect_of_obstacle ho]
    simp only [complete, hwrite, ite_self]

/-- Two connections were served in the only slot and have ended. Neither what the first one was
sent, nor a write without a connection, nor a read for a slot that is not there matters any more. -/
theorem complete_of_gone_idle_slot :
    let v := Service.direct (fun _ => "t") 60
    let e := (start 1 .standard Store.empty).run v
      [.accept (.ofPeer none), .complete (.received 0 1 (.ok [])),
        .accept (.ofPeer none), .complete (.received 0 2 (.error "reset"))]
    (e.relay.session 0).id = 0 ∧ e.complete v (.sent 0 0 (.ok 4)) = e ∧
      e.complete v (.sent 0 1 (.error "reset")) = e ∧ e.complete v (.received 7 0 (.ok [9])) = e := by
  intro v e
  have hv : v.Within Stir := Service.ofStore_within fun _ _ hd => hd.stir
  have he : ReflTransGen Stir (Relay.start 1 .standard Store.empty) e.relay :=
    run_stirs (e := start 1 .standard Store.empty) hv (.start ..) _
  have hid : (e.relay.session 0).id = 0 ∧ (e.relay.session 0).link = none ∧
      e.relay.capacity = 1 := by
    decide +kernel
  obtain ⟨hid, hlink, hcapacity⟩ := hid
  refine ⟨hid, (complete_of_gone he (.sent 0 0 (.ok 4)) ?_).1 v,
    (complete_of_gone he (.sent 0 1 (.error "reset")) ?_).1 v,
    (complete_of_gone he (.received 7 0 (.ok [9])) ?_).1 v⟩
  · exact .inr (.inr hlink)
  · exact .inr (.inl (hid ▸ nofun))
  · exact .inl (hcapacity ▸ (by decide))

end Engine

end ChatRelay
