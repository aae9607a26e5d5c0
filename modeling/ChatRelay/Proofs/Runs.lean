import ChatRelay.Proofs.Reassembly
import ChatRelay.Proofs.Relay.Delivery

/-! # Runs

A completion acts on its own slot only, and on none if it is stale. A connection that comes in gets
a slot that nobody is served in. So relays stay orderly throughout a run, as long as no id is given
out that is still in use.
-/

namespace ChatRelay

open Relation (ReflTransGen)

variable {S : Type}

namespace Relay

variable {v : Service S} {r r' : Relay S} {slot k : Nat} {id : SessionId}

theorem Act.inbound_eq (ha : Act slot r r') (hk : slot ≠ k) :
    (r'.session k).inbound = (r.session k).inbound := by
  cases ha with
  | deed hd =>
    obtain ⟨p, u, t, q, b, h⟩ := hd.session_eq k
    rw [h]
  | acquire ha =>
    obtain ⟨free, -, rfl⟩ := acquire_eq_some_iff.1 ha
    exact congrArg Session.inbound (session_setSession_ne hk _)
  | depart id =>
    rcases depart_cases r slot id with ⟨-, he⟩ | ⟨-, he⟩
    · rw [he]
    · rw [he]
      exact congrArg Session.inbound (session_setSession_ne hk _)
  | release =>
    rcases Nat.lt_or_ge k r.capacity with h | h
    · rw [session_release h, if_neg hk]
    · rw [session_of_capacity_le h, session_of_capacity_le (by simpa using h), limits_release]
  | sent id => rw [session_sent, if_neg hk]
  | armRead id => rfl
  | receive id bs =>
    rw [receive_eq_setSession]
    exact congrArg Session.inbound (session_setSession_ne hk _)
  | take _ => exact congrArg Session.inbound (session_setSession_ne hk _)

theorem Act.limits_eq (ha : Act slot r r') (k : Nat) :
    (r'.session k).limits = (r.session k).limits := by
  have hset {s : Session} (hs : s.limits = (r.session slot).limits) :
      ((r.setSession slot s).session k).limits = (r.session k).limits := by
    rw [session_setSession]
    split
    · next hk => rw [hs, hk.1]
    · rfl
  cases ha with
  | deed hd =>
    obtain ⟨p, u, t, q, b, h⟩ := hd.session_eq k
    rw [h]
  | acquire ha =>
    obtain ⟨free, -, rfl⟩ := acquire_eq_some_iff.1 ha
    have hs := hset (s := { r.session slot with leased := true }) rfl
    exact hs
  | depart id =>
    rcases depart_cases r slot id with ⟨-, he⟩ | ⟨-, he⟩ <;> rw [he]
    exact hset rfl
  | release =>
    rcases Nat.lt_or_ge k r.capacity with h | h
    · rw [session_release h]
      split <;> rfl
    · rw [session_of_capacity_le h, session_of_capacity_le (by simpa using h), limits_release]
  | sent id =>
    obtain ⟨q, b, hs⟩ := (r.session k).sent_eq id r.links
    rw [session_sent, hs]
    split <;> rfl
  | armRead id => rfl
  | receive id bs =>
    obtain ⟨ring, hs⟩ := (r.session slot).receive_eq id bs
    rw [receive_eq_setSession, hs]
    exact hset rfl
  | take _ => exact hset rfl

theorem limits_of_moves (hm : ReflTransGen Move r r') (k : Nat) :
    (r'.session k).limits = (r.session k).limits := by
  induction hm with
  | refl => rfl
  | tail _ hm ih =>
    refine Eq.trans ?_ ih
    cases hm with
    | act ha => exact ha.limits_eq k
    | connect l hleased _ _ =>
      rw [session_begin (lt_capacity_of_leased hleased)]
      split <;> rfl

theorem inbound_of_acts (ha : ReflTransGen (Act slot) r r') (hk : slot ≠ k) :
    (r'.session k).inbound = (r.session k).inbound := by
  induction ha with
  | refl => rfl
  | tail _ ha ih => exact (ha.inbound_eq hk).trans ih

theorem disconnecting_of_acts (ha : ReflTransGen (Act slot) r r')
    (hp : (r.session k).phase = .disconnecting) : (r'.session k).phase = .disconnecting := by
  induction ha with
  | refl => exact hp
  | tail _ ha ih => exact ha.disconnecting ih

theorem disconnecting_disconnect (ho : (r.session slot).obstacle? id = none)
    (announced : Bool) :
    ((r.disconnect v slot id announced).session slot).phase = .disconnecting := by
  have hrelease (r : Relay S) : ((r.release slot).session slot).phase = .disconnecting := by
    have hi := identity_release r slot slot
    rw [if_pos rfl] at hi
    exact congrArg Identity.phase hi
  unfold disconnect
  rcases depart_cases r slot id with ⟨hno, he⟩ | ⟨-, he⟩
  · rw [he]
    obtain ⟨hid, hl⟩ := Session.obstacle?_eq_none_iff.1 ho
    by_contra hp
    exact hno ⟨hid, Session.isLive_iff.2 ⟨hl, hp⟩⟩
  · rw [he]
    dsimp only
    split
    · exact hrelease _
    · split
      · exact disconnecting_of_acts (broadcast_chain (fun _ _ => @Act.deed _ slot _ _) ..)
          (hrelease _)
      · exact hrelease _

theorem disconnect_of_obstacle {e : SessionError} (ho : (r.session slot).obstacle? id = some e)
    (announced : Bool) : r.disconnect v slot id announced = r := by
  unfold disconnect
  rcases depart_cases r slot id with ⟨-, he⟩ | ⟨⟨hid, hlive⟩, -⟩
  · rw [he]
  · rw [Session.obstacle?_eq_none_iff.2 ⟨hid, (Session.isLive_iff.1 hlive).1⟩] at ho
    cases ho

/-- No packet is complete in the ring of `k`, if anybody is served there. -/
def Waits (r : Relay S) (k : Nat) : Prop :=
  (r.session k).phase ≠ .disconnecting →
    Framing.first (r.session k).inbound.toList = .ok none

theorem not_fatal_of_obstacle? {s : Session} {id : SessionId} {err : SessionError}
    (h : s.obstacle? id = some err) : Engine.isFatal err = false := by
  unfold Session.obstacle? at h
  split at h
  · cases h
    rfl
  · split at h
    · cases h
      rfl
    · cases h

theorem receive_of_error {bs : Bytes} {e : SessionError}
    (h : (r.session slot).admits id bs.length = .error e) :
    r.receive slot id bs = (.error e, r) := by
  apply Prod.ext
  · exact h
  · rw [receive_eq_setSession, Session.receive, h]
    exact setSession_session r slot

theorem receive_of_obstacle {err : SessionError}
    (ho : (r.session slot).obstacle? id = some err) (bs : Bytes) :
    r.receive slot id bs = (.error err, r) :=
  receive_of_error (by rw [Session.admits, ho])

theorem receive_of_overflow {bs : Bytes} (ho : (r.session slot).obstacle? id = none)
    (h : ¬ bs.length ≤ (r.session slot).inbound.free) :
    r.receive slot id bs =
      (.error (.overflow bs.length (r.session slot).inbound.free), r) := by
  refine receive_of_error ?_
  rw [Session.admits, ho]
  exact if_neg h

theorem fits_of_receive {bs : Bytes} (h : (r.receive slot id bs).1 = .ok ()) :
    (r.session slot).obstacle? id = none ∧ bs.length ≤ (r.session slot).inbound.free := by
  cases ho : (r.session slot).obstacle? id with
  | some err =>
    rw [receive_of_obstacle ho] at h
    cases h
  | none =>
    refine ⟨rfl, ?_⟩
    by_contra hroom
    rw [receive_of_overflow ho hroom] at h
    cases h

end Relay

namespace Engine

open Relay

variable {v : Service S} {e : Engine S} {k : Nat}

theorem afterRead_of_obstacle {slot : Nat} {id : SessionId} {err : SessionError}
    (ho : (e.relay.session slot).obstacle? id = some err) (result : Except String Bytes) :
    e.afterRead v slot id result = e := by
  have hends : e.disconnect v slot id = e := by
    rw [Engine.disconnect, disconnect_of_obstacle ho]
  unfold afterRead
  split
  · exact hends
  · exact hends
  · simp only [receive_of_obstacle ho, not_fatal_of_obstacle? ho, Bool.false_eq_true, if_false]

section

variable {slot : Nat} {id : SessionId} (h : (e.relay.session slot).id ≠ id)

include h

theorem obstacle?_of_stale :
    (e.relay.session slot).obstacle? id = some (.stale id (e.relay.session slot).id) :=
  if_pos h

theorem disconnect_of_stale : e.disconnect v slot id = e := by
  rw [Engine.disconnect, disconnect_of_obstacle (obstacle?_of_stale h)]

theorem afterRead_of_stale (result : Except String Bytes) : e.afterRead v slot id result = e :=
  afterRead_of_obstacle (obstacle?_of_stale h) result

theorem afterWrite_of_stale (result : Except String Nat) : e.afterWrite v slot id result = e := by
  unfold afterWrite
  split
  · have hsent : e.relay.sent slot id = e.relay := by
      rw [Relay.sent, Session.sent, if_pos h]
      exact setSession_session e.relay slot
    rw [hsent]
  · exact disconnect_of_stale h

end

/-- A completion for a connection that is not served in its slot any more changes nothing. -/
theorem complete_of_stale {c : Completion}
    (h : (e.relay.session c.connection.1).id ≠ c.connection.2) : e.complete v c = e := by
  cases c with
  | received slot id result =>
    change (e.relay.session slot).id ≠ id at h
    simp only [complete, afterRead_of_stale h, ite_self]
  | sent slot id result =>
    change (e.relay.session slot).id ≠ id at h
    simp only [complete, afterWrite_of_stale h, ite_self]

/-! ## What a step is made of -/

/-- A connection that comes in is served in a slot if there is one and its link agrees to read, and
the slot is given back otherwise. -/
theorem accept_eq (e : Engine S) (c : Incoming) :
    e.accept c = (none, e) ∨ ∃ slot r, e.relay.acquire = some (slot, r) ∧
      let id := e.allocate.1
      let r' := (r.begin slot id (c.link slot id)).armRead slot id
      ((e.accept c).1 = none ∧ (e.accept c).2.relay = r.release slot ∨
        r'.1 = .ok () ∧ (e.accept c).1 = some (slot, id) ∧ (e.accept c).2.relay = r'.2 ∨
        r'.1 ≠ .ok () ∧ (e.accept c).1 = none ∧
          (e.accept c).2.relay = r'.2.release slot) := by
  unfold accept
  split
  · exact .inl rfl
  · split
    · exact .inl rfl
    · next slot r ha =>
      refine .inr ⟨slot, r, ha, ?_⟩
      dsimp only
      split
      · exact .inl ⟨rfl, rfl⟩
      · split
        · next h =>
          rw [begin, h]
          exact .inr (.inl ⟨rfl, rfl, rfl⟩)
        · next h =>
          rw [begin, h]
          exact .inr (.inr ⟨nofun, rfl, rfl⟩)

theorem accept_cases (e : Engine S) (c : Incoming) :
    (e.accept c).2.relay = e.relay ∨ ∃ slot r, e.relay.acquire = some (slot, r) ∧
      ((e.accept c).2.relay = r.release slot ∨ ∃ l,
        let r' := ((r.begin slot e.allocate.1 l).armRead slot e.allocate.1).2
        (e.accept c).2.relay = r' ∨ (e.accept c).2.relay = r'.release slot) := by
  obtain h | ⟨slot, r, ha, ⟨-, h⟩ | ⟨-, -, h⟩ | ⟨-, -, h⟩⟩ := e.accept_eq c
  · exact .inl (by rw [h])
  · exact .inr ⟨slot, r, ha, .inl h⟩
  · exact .inr ⟨slot, r, ha, .inr ⟨_, .inl h⟩⟩
  · exact .inr ⟨slot, r, ha, .inr ⟨_, .inr h⟩⟩

theorem accept_acts (e : Engine S) (c : Incoming) :
    (e.accept c).2.relay = e.relay ∨ ∃ slot r, e.relay.acquire = some (slot, r) ∧
      (ReflTransGen (Act slot) r (e.accept c).2.relay ∨
        ∃ l, ReflTransGen (Act slot) (r.begin slot e.allocate.1 l) (e.accept c).2.relay) := by
  obtain h | ⟨slot, r, ha, h | ⟨l, h | h⟩⟩ := e.accept_cases c
  · exact .inl h
  · exact .inr ⟨slot, r, ha, .inl (h ▸ .single (.release r))⟩
  · exact .inr ⟨slot, r, ha, .inr ⟨l, h ▸ .single (.armRead _ _)⟩⟩
  · exact .inr ⟨slot, r, ha, .inr ⟨l, h ▸ .tail (.single (.armRead _ _)) (.release _)⟩⟩

section

variable (hd : v.Within Deed)

include hd

theorem complete_acts (c : Completion) :
    ReflTransGen (Act c.connection.1) e.relay (e.complete v c).relay :=
  complete_chain (hd.mono fun _ _ => .deed) c (fun _ _ ha => ha) e

theorem endAll_acts (slots : List Nat) :
    ReflTransGen (fun r r' => ∃ slot, Act slot r r') e.relay (e.endAll v slots).relay :=
  endAll_chain (hd.mono fun _ _ hd => ⟨0, .deed hd⟩) (fun slot _ _ ha => ⟨slot, ha⟩) slots e

end

def FreshFor (e : Engine S) : Step → Prop
  | .accept _ => e.relay.Fresh e.allocate.1
  | _ => True

/-- No connection is given an id that another still has. -/
def FreshIds (v : Service S) : Engine S → List Step → Prop
  | _, [] => True
  | e, s :: steps => e.FreshFor s ∧ FreshIds v (e.step v s) steps

instance FreshFor.decidable (e : Engine S) : (s : Step) → Decidable (e.FreshFor s)
  | .accept _ => inferInstanceAs (Decidable (e.relay.Fresh _))
  | .complete _ | .halt | .stop => .isTrue trivial

instance FreshIds.decidable (v : Service S) :
    (e : Engine S) → (steps : List Step) → Decidable (e.FreshIds v steps)
  | _, [] => .isTrue trivial
  | e, s :: steps =>
    have := FreshIds.decidable v (e.step v s) steps
    inferInstanceAs (Decidable (_ ∧ _))

theorem accept_moves (h : Wired e.relay) {c : Incoming} (hf : e.FreshFor (.accept c)) :
    ReflTransGen Move e.relay (e.accept c).2.relay := by
  have hmove {slot : Nat} {r r' : Relay S} (ha : ReflTransGen (Act slot) r r') :
      ReflTransGen Move r r' := ReflTransGen.mono (fun _ _ => .act) _ _ ha
  obtain he | ⟨slot, r, hacquire, ha⟩ := e.accept_acts c
  · rw [he]
  · have hfirst : ReflTransGen Move e.relay r := .single (.act (.acquire hacquire))
    obtain ha | ⟨l, ha⟩ := ha
    · exact hfirst.trans (hmove ha)
    · obtain ⟨hleased, hlink, hi⟩ := h.acquired hacquire
      refine (hfirst.tail (.connect l hleased hlink ⟨hf.1, fun k hk => ?_⟩)).trans (hmove ha)
      exact hf.2 k ((congrArg Identity.id (hi k)).symm.trans hk)

theorem step_moves (hv : v.Within Deed) (h : Wired e.relay) {s : Step} (hf : e.FreshFor s) :
    ReflTransGen Move e.relay (e.step v s).relay := by
  have hv' : v.Within Move := hv.mono fun _ _ => Deed.move
  cases s with
  | accept c => exact accept_moves h hf
  | complete c => exact complete_chain hv' c (fun _ _ => .act) e
  | halt => exact .refl
  | stop => exact endAll_chain hv' (fun _ _ _ => .act) _ e.halt

theorem orderly_step (hv : v.Within Deed) (h : Orderly e.relay) {s : Step} (hf : e.FreshFor s) :
    Orderly (e.step v s).relay :=
  h.of_moves (step_moves hv h.wired hf)

theorem moves_run (hd : v.Within Deed) {steps : List Step} (h : Orderly e.relay)
    (hf : e.FreshIds v steps) : ReflTransGen Move e.relay (e.run v steps).relay := by
  induction steps generalizing e with
  | nil => exact .refl
  | cons s steps ih =>
    exact (step_moves hd h.wired hf.1).trans (ih (orderly_step hd h hf.1) hf.2)

theorem freshIds_append {as bs : List Step} :
    e.FreshIds v (as ++ bs) ↔ e.FreshIds v as ∧ (e.run v as).FreshIds v bs := by
  induction as generalizing e with
  | nil => exact (true_and _).symm ▸ Iff.rfl
  | cons s as ih =>
    exact (and_congr_right fun _ => ih).trans and_assoc.symm

/-! ## Ids do not run out -/

def Below (r : Relay S) (n : Nat) : Prop :=
  ∀ k, (r.session k).id.toNat < n

theorem Below.of_act {r r' : Relay S} {n slot : Nat} (hn : 0 < n) (hb : Below r n)
    (ha : Act slot r r') : Below r' n := by
  intro k
  obtain ht | ⟨j, id, name, token, -, rfl⟩ | ⟨id, rfl⟩ | rfl := ha.traffic_or
  · rw [show (r'.session k).id = _ from congrArg Identity.id (ht.identity k)]
    exact hb k
  · obtain ⟨p, u, t, hs⟩ := session_register r j k id name token
    rw [hs]
    exact hb k
  · rcases depart_cases r slot id with ⟨-, he⟩ | ⟨-, he⟩ <;> rw [he]
    · exact hb k
    · rw [session_setSession]
      split
      · exact hb slot
      · exact hb k
  · rw [show ((r.release slot).session k).id = _ from
        congrArg Identity.id (identity_release r slot k)]
    split
    · exact hn
    · exact hb k

theorem Below.of_acts {r r' : Relay S} {n : Nat} (hn : 0 < n) (hb : Below r n)
    (ha : ReflTransGen (fun r r' => ∃ slot, Act slot r r') r r') : Below r' n := by
  induction ha with
  | refl => exact hb
  | tail _ ha ih =>
    obtain ⟨_, ha⟩ := ha
    exact ih.of_act hn ha

theorem nextId_afterRead (e : Engine S) (slot : Nat) (id : SessionId)
    (result : Except String Bytes) : (e.afterRead v slot id result).nextId = e.nextId := by
  unfold afterRead
  split
  · rfl
  · rfl
  · split
    · dsimp only
      split <;> rfl
    · split
      · rfl
      · split
        · rfl
        · dsimp only
          split <;> rfl

theorem nextId_complete (e : Engine S) (c : Completion) :
    (e.complete v c).nextId = e.nextId := by
  unfold complete
  split
  · split
    · exact nextId_afterRead ..
    · rfl
  · split
    · unfold afterWrite
      split <;> rfl
    · rfl

theorem nextId_endAll (e : Engine S) (slots : List Nat) :
    (e.endAll v slots).nextId = e.nextId := by
  induction slots generalizing e with
  | nil => rfl
  | cons slot slots ih =>
    unfold endAll
    dsimp only
    split
    · exact ih e
    · exact ih _

theorem nextId_accept (e : Engine S) (c : Incoming) :
    (e.accept c).2 = e ∨ (e.accept c).2.nextId = e.allocate.1 + 1 := by
  unfold accept
  split
  · exact .inl rfl
  · split
    · exact .inl rfl
    · refine .inr ?_
      dsimp only
      split
      · rfl
      · split <;> rfl

/-- Ids are given out in order, so far. -/
structure Counts (e : Engine S) (n : Nat) : Prop where
  pos : 0 < e.nextId.toNat
  le : e.nextId.toNat ≤ n
  below : Below e.relay e.nextId.toNat

theorem Counts.allocate {n : Nat} (h : e.Counts n) : e.allocate.1 = e.nextId := by
  have hne : e.nextId ≠ 0 := by
    intro h0
    have := h.pos
    rw [h0] at this
    exact absurd this (by decide)
  exact if_neg hne

theorem Counts.freshFor {n : Nat} (h : e.Counts n) (s : Step) : e.FreshFor s := by
  cases s with
  | accept c =>
    rw [FreshFor, h.allocate]
    refine ⟨fun h0 => ?_, fun k hk => ?_⟩
    · have := h.pos
      rw [h0] at this
      exact absurd this (by decide)
    · have := h.below k
      rw [hk] at this
      exact Nat.lt_irrefl _ this
  | complete | halt | stop => trivial

theorem Counts.step (hd : v.Within Deed) {n : Nat} (h : e.Counts n) (hw : Wired e.relay)
    (hn : n + 1 < UInt32.size) (s : Step) : (e.step v s).Counts (n + 1) := by
  have hquiet {e' : Engine S} (hnext : e'.nextId = e.nextId)
      (ha : ReflTransGen (fun r r' => ∃ slot, Act slot r r') e.relay e'.relay) :
      e'.Counts (n + 1) := by
    refine ⟨hnext ▸ h.pos, hnext ▸ Nat.le_succ_of_le h.le, ?_⟩
    rw [hnext]
    exact h.below.of_acts h.pos ha
  have hsome {slot : Nat} {r r' : Relay S} (ha : ReflTransGen (Act slot) r r') :
      ReflTransGen (fun r r' => ∃ slot, Act slot r r') r r' :=
    ReflTransGen.mono (fun _ _ ha => ⟨slot, ha⟩) _ _ ha
  cases s with
  | accept c =>
    obtain he | hnext := e.nextId_accept c
    · refine hquiet (congrArg nextId he) ?_
      change ReflTransGen _ e.relay (e.accept c).2.relay
      rw [he]
    · rw [h.allocate] at hnext
      have hle := h.le
      have hsucc : (e.accept c).2.nextId.toNat = e.nextId.toNat + 1 := by
        rw [hnext, UInt32.toNat_add]
        exact Nat.mod_eq_of_lt (Nat.lt_of_le_of_lt (Nat.succ_le_succ hle) hn)
      have hgrown : Below e.relay (e.nextId.toNat + 1) := fun k => Nat.lt_succ_of_lt (h.below k)
      refine ⟨hsucc ▸ Nat.succ_pos _, hsucc ▸ Nat.succ_le_succ hle, ?_⟩
      change Below (e.accept c).2.relay (e.accept c).2.nextId.toNat
      rw [hsucc]
      obtain he | ⟨slot, r, ha, hacts⟩ := e.accept_acts c
      · rwa [he]
      · have hr := hgrown.of_act (Nat.succ_pos _) (Act.acquire ha)
        obtain hacts | ⟨l, hacts⟩ := hacts
        · exact hr.of_acts (Nat.succ_pos _) (hsome hacts)
        · refine Below.of_acts (Nat.succ_pos _) (fun k => ?_) (hsome hacts)
          rw [session_begin (lt_capacity_of_leased (hw.acquired ha).1)]
          split
          · rw [h.allocate]
            exact Nat.lt_succ_self _
          · exact hr k
  | complete c => exact hquiet (nextId_complete e c) (hsome (complete_acts hd c))
  | halt => exact hquiet rfl .refl
  | stop => exact hquiet (nextId_endAll e.halt _) (endAll_acts hd (e := e.halt) _)

/-- As long as there are fewer steps than ids, no id is given out twice. -/
theorem freshIds_of_length (hd : v.Within Deed) {capacity : Nat} {limits : Limits} {store : S}
    {steps : List Step} (h : steps.length + 1 < UInt32.size) :
    (Engine.start capacity limits store).FreshIds v steps := by
  have hgo {e : Engine S} {n : Nat} (hc : e.Counts n) (ho : Orderly e.relay)
      (hn : n + steps.length < UInt32.size) : e.FreshIds v steps := by
    clear h
    induction steps generalizing e n with
    | nil => trivial
    | cons s steps ih =>
      rw [List.length_cons] at hn
      have hf := hc.freshFor s
      exact ⟨hf, ih (hc.step hd ho.wired (by omega) s) (orderly_step hd ho hf) (by omega)⟩
  refine hgo (n := 1) ⟨Nat.one_pos, Nat.le_refl _, fun k => ?_⟩ (.start ..) (by omega)
  change ((Relay.start capacity limits store).session k).id.toNat < 1
  rw [session_start]
  exact Nat.one_pos

theorem moves_run_start (hd : v.Within Deed) {capacity : Nat} {limits : Limits} {store : S}
    {steps : List Step} (h : steps.length + 1 < UInt32.size) :
    ReflTransGen Move (.start capacity limits store)
      ((Engine.start capacity limits store).run v steps).relay :=
  moves_run hd (.start ..) (freshIds_of_length hd h)

/-! ## Reads -/

theorem armRead_fatal {slot : Nat} {id : SessionId} (r : Relay S)
    (ho : (r.session slot).obstacle? id = none) (err : SessionError)
    (he : (r.armRead slot id).1 = .error err) : isFatal err = true := by
  obtain ⟨-, hlink⟩ := Session.obstacle?_eq_none_iff.1 ho
  obtain ⟨l, hl⟩ := Option.isSome_iff_exists.1 hlink
  simp only [Relay.armRead, Session.armRead, ho, hl] at he
  split at he
  · cases he
    rfl
  · split at he
    · cases he
    · cases he
      rfl

section

variable (hv : v.Blind) (hd : v.Within Deed)

include hv hd

/-- A read completes the packets of what it brings and the next one is asked for, or the connection
is ended: because of what came in, or because of what is left of it. -/
theorem afterRead_cases {slot : Nat} {id : SessionId} {bs : Bytes}
    (ho : (e.relay.session slot).obstacle? id = none) (hne : bs ≠ []) :
    (bs.length ≤ (e.relay.session slot).inbound.free ∧ (e.relay.framing slot bs).error = none ∧
      (e.relay.absorb v slot id bs).armRead slot id =
        (.ok (), (e.afterRead v slot id (.ok bs)).relay)) ∨
    ∃ r : Relay S, (e.afterRead v slot id (.ok bs)).relay = r.disconnect v slot id e.running ∧
      (r.session slot = e.relay.session slot ∨
        r.session slot = (e.relay.absorb v slot id bs).session slot) := by
  obtain ⟨b, bs', rfl⟩ := List.exists_cons_of_ne_nil hne
  unfold afterRead
  by_cases hroom : (b :: bs').length ≤ (e.relay.session slot).inbound.free
  · have hreceive := receive_of_fits ho hroom
    have hdrain := drain_receive hv hd ho hroom
    rw [hreceive] at hdrain
    simp only [hreceive, hdrain, Framing.outcome]
    cases he : (e.relay.framing slot (b :: bs')).error with
    | some err => exact .inr ⟨_, rfl, .inr rfl⟩
    | none =>
      have hserved : ((e.relay.absorb v slot id (b :: bs')).session slot).obstacle? id = none := by
        rw [obstacle?_absorb hd, ho]
      have hsession := session_armRead (e.relay.absorb v slot id (b :: bs')) slot slot id
      have hfatal := armRead_fatal (e.relay.absorb v slot id (b :: bs')) hserved
      dsimp only
      rcases harm : (e.relay.absorb v slot id (b :: bs')).armRead slot id with ⟨err | _, r⟩ <;>
        rw [harm] at hsession hfatal
      · simp only [hfatal err rfl, if_true]
        exact .inr ⟨r, rfl, .inr hsession⟩
      · exact .inl ⟨hroom, rfl, rfl⟩
  · simp only [receive_of_overflow ho hroom, isFatal, if_true]
    exact .inr ⟨_, rfl, .inl rfl⟩

theorem afterRead_armed {slot : Nat} {id : SessionId} {bs : Bytes}
    (ho : (e.relay.session slot).obstacle? id = none) (hne : bs ≠ [])
    (hp : ((e.afterRead v slot id (.ok bs)).relay.session slot).phase ≠ .disconnecting) :
    bs.length ≤ (e.relay.session slot).inbound.free ∧ (e.relay.framing slot bs).error = none ∧
      (e.relay.absorb v slot id bs).armRead slot id =
        (.ok (), (e.afterRead v slot id (.ok bs)).relay) := by
  obtain harmed | ⟨r, heq, hr⟩ := afterRead_cases hv hd ho hne
  · exact harmed
  · have hserved : (r.session slot).obstacle? id = none := by
      obtain hr | hr := hr <;> rw [hr]
      · exact ho
      · rw [obstacle?_absorb hd, ho]
    rw [heq] at hp
    exact absurd (disconnecting_disconnect hserved e.running) hp

theorem afterRead_eq {slot : Nat} {id : SessionId} {bs : Bytes}
    (ho : (e.relay.session slot).obstacle? id = none) (hne : bs ≠ [])
    (hp : ((e.afterRead v slot id (.ok bs)).relay.session slot).phase ≠ .disconnecting) :
    bs.length ≤ (e.relay.session slot).inbound.free ∧ (e.relay.framing slot bs).error = none ∧
      (e.afterRead v slot id (.ok bs)).relay =
      ((e.relay.absorb v slot id bs).armRead slot id).2 := by
  obtain ⟨hroom, he, harm⟩ := afterRead_armed hv hd ho hne hp
  exact ⟨hroom, he, (congrArg Prod.snd harm).symm⟩

omit hv in
theorem waits_disconnect {slot : Nat} {id : SessionId} {r : Relay S} (announced : Bool)
    (hw : r.Waits k) : (r.disconnect v slot id announced).Waits k := by
  have hchain := @Relay.disconnect_chain _ _ v slot (fun _ _ h => h)
    (hd.mono fun _ _ => .deed) id announced r
  intro hp
  cases ho : (r.session slot).obstacle? id with
  | some err =>
    rw [disconnect_of_obstacle ho] at hp ⊢
    exact hw hp
  | none =>
    by_cases hk : slot = k
    · subst hk
      exact absurd (disconnecting_disconnect ho announced) hp
    · rw [inbound_of_acts hchain hk]
      exact hw fun hbefore => hp (disconnecting_of_acts hchain hbefore)

theorem waits_complete (h : Consistent e.relay) (hw : e.relay.Waits k) (c : Completion) :
    (e.complete v c).relay.Waits k := by
  have hchain := complete_acts hd (e := e) c
  intro hp
  have hbefore : (e.relay.session k).phase ≠ .disconnecting :=
    fun hb => hp (disconnecting_of_acts hchain hb)
  by_cases hk : c.connection.1 = k
  · by_cases hid : (e.relay.session k).id = c.connection.2
    · have ho : (e.relay.session k).obstacle? c.connection.2 = none :=
        Session.obstacle?_eq_none_iff.2 ⟨hid, h.link_of_phase hbefore⟩
      have hlt := lt_capacity_of_obstacle? ho
      have hends (hp : ((e.disconnect v k c.connection.2).relay.session k).phase ≠
          .disconnecting) : False := hp (disconnecting_disconnect ho e.running)
      cases c with
      | received slot id result =>
        obtain rfl : slot = k := hk
        simp only [complete, if_pos hlt] at hp ⊢
        rcases result with _ | _ | ⟨b, bs⟩
        · exact (hends hp).elim
        · exact (hends hp).elim
        · change (e.relay.session slot).obstacle? id = none at ho
          obtain ⟨hroom, he, heq⟩ := afterRead_eq hv hd ho (List.cons_ne_nil b bs) hp
          rw [heq, session_armRead]
          exact first_absorb hd ho hroom he
      | sent slot id result =>
        obtain rfl : slot = k := hk
        simp only [complete, if_pos hlt] at hp ⊢
        rcases result with _ | n
        · exact (hends hp).elim
        · obtain ⟨q, b, hs⟩ := (e.relay.session slot).sent_eq id e.relay.links
          have hsession : ((e.afterWrite v slot id (.ok n)).relay.session slot).inbound =
              (e.relay.session slot).inbound := by
            change ((e.relay.sent slot id).session slot).inbound = _
            rw [session_sent, if_pos rfl, hs]
          rw [hsession]
          exact hw hbefore
    · rw [complete_of_stale (by rw [hk]; exact hid)]
      exact hw hbefore
  · rw [inbound_of_acts hchain hk]
    exact hw hbefore

omit hv in
theorem waits_endAll (slots : List Nat) (hw : e.relay.Waits k) :
    (e.endAll v slots).relay.Waits k := by
  induction slots generalizing e with
  | nil => exact hw
  | cons slot slots ih =>
    unfold endAll
    dsimp only
    split
    · exact ih hw
    · exact ih (waits_disconnect hd e.running hw)

omit hv hd in
theorem waits_accept (h : Wired e.relay) (hw : e.relay.Waits k) (c : Incoming) :
    (e.accept c).2.relay.Waits k := by
  have hreleased {r : Relay S} {slot : Nat} (hk : slot = k) : (r.release slot).Waits k := by
    have hi := identity_release r slot k
    rw [if_pos hk] at hi
    exact fun hp => absurd (congrArg Identity.phase hi) hp
  have hother {r r' : Relay S} {slot : Nat} (hk : slot ≠ k) (ha : ReflTransGen (Act slot) r r')
      (hw : r.Waits k) : r'.Waits k := by
    intro hp
    rw [inbound_of_acts ha hk]
    exact hw fun hb => hp (disconnecting_of_acts ha hb)
  obtain he | ⟨slot, r, hacquire, ha⟩ := e.accept_cases c
  · rwa [he]
  · have hslot := lt_capacity_of_leased (h.acquired hacquire).1
    have hbegin (l : Link) := session_begin hslot e.allocate.1 l k
    by_cases hk : slot = k
    · obtain ha | ⟨l, ha | ha⟩ := ha
      · rw [ha]
        exact hreleased hk
      · intro _
        rw [ha, session_armRead, hbegin, if_pos hk, Session.cleared, Ring.toList_clear]
        rfl
      · rw [ha]
        exact hreleased hk
    · have hwr : r.Waits k := hother hk (.single (.acquire hacquire)) hw
      have hwb (l : Link) : (r.begin slot e.allocate.1 l).Waits k := by
        rw [Waits, hbegin, if_neg hk]
        exact hwr
      obtain ha | ⟨l, ha | ha⟩ := ha
      · rw [ha]
        exact hother hk (.single (.release _)) hwr
      · rw [ha]
        exact hother hk (.single (.armRead _ _)) (hwb l)
      · rw [ha]
        exact hother hk (.tail (.single (.armRead _ _)) (.release _)) (hwb l)

theorem waits_step (h : Orderly e.relay) (hw : e.relay.Waits k) (s : Step) :
    (e.step v s).relay.Waits k := by
  cases s with
  | accept c => exact waits_accept h.wired hw c
  | complete c => exact waits_complete hv hd h.consistent hw c
  | halt => exact hw
  | stop => exact waits_endAll hd _ (e := e.halt) hw

theorem waits_run {steps : List Step} (h : Orderly e.relay) (hf : e.FreshIds v steps)
    (hw : e.relay.Waits k) : (e.run v steps).relay.Waits k := by
  induction steps generalizing e with
  | nil => exact hw
  | cons s steps ih => exact ih (orderly_step hd h hf.1) hf.2 (waits_step hv hd h hw s)

end

end Engine

end ChatRelay
