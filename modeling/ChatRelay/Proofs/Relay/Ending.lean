import ChatRelay.Proofs.Relay.Lifetime
import ChatRelay.Proofs.Relay.Taken
import ChatRelay.Proofs.Staleness

/-! # How a connection ends

Whatever ends a connection, it is a call that finds it live. Between such calls nobody is torn down,
no slot goes back to the pool and nobody is said to have left. The first call that finds the
connection closes its link, returns its slot and takes it out of the directory; what is told of it
is told then. Later calls do nothing.
-/

namespace ChatRelay

open Relation (ReflTransGen)

variable {S : Type}

def Packet.leaver? (packet : Bytes) : Option NameField :=
  match decode packet with
  | .ok (.userLeaveNotify user) => some user
  | _ => none

theorem Packet.Prompts.leaver?_eq_none {N : String → Prop} {request q : Packet}
    (h : Prompts N request q) : Packet.leaver? q.encode = none := by
  cases h <;> simp [Packet.leaver?, Packet.decode_encode]

theorem Packet.leaver?_leave (user : NameField) :
    Packet.leaver? (Packet.userLeaveNotify user).encode = some user := by
  simp [Packet.leaver?, Packet.decode_encode]

/-- While the service is asked, nothing happens but in the store. -/
def Service.Mute (v : Service S) : Prop :=
  v.Within (Relay.Speaks (fun _ => False) fun _ => False)

theorem Service.ofStore_mute {answer : (c : StoreCall) → S → Except StoreError c.Answer × S}
    {token : Nat → String} {lifetime : Nat} : (Service.ofStore answer token lifetime).Mute :=
  Relay.speaks_ofStore

namespace Relay

variable {v : Service S} {r r' : Relay S} {slot j k : Nat} {id : SessionId} {i : LinkId}

theorem Speaks.mono {P P' : Bytes → Prop} {N N' : String → Prop} (h : Speaks P N r r')
    (hP : ∀ p, P p → P' p) (hN : ∀ name, N name → N' name) : Speaks P' N' r r' := by
  cases h with
  | store s n => exact .store r s n
  | register slot id token hn hname => exact .register r slot id token hn (hN _ hname)
  | send slot target hp => exact .send r slot target (hP _ hp)

theorem stored_of_mute (h : ReflTransGen (Speaks (fun _ => False) fun _ => False) r r') :
    ∃ s n, r' = { r with store := s, drawn := n } := by
  induction h with
  | refl => exact ⟨r.store, r.drawn, rfl⟩
  | tail _ hs ih =>
    obtain ⟨s, n, rfl⟩ := ih
    cases hs with
    | store s' n' => exact ⟨s', n', rfl⟩
    | register _ _ _ _ hname => exact hname.elim
    | send _ _ hp => exact hp.elim

theorem Service.Mute.speaks {P : Bytes → Prop} {N : String → Prop} (hv : v.Mute) :
    v.Within (Speaks P N) :=
  hv.mono fun _ _ h => h.mono (fun _ => False.elim) fun _ => False.elim

theorem Service.Mute.deed (hv : v.Mute) : v.Within Deed :=
  hv.mono fun _ _ h => h.deed

/-! ## Between two endings -/

/-- What may happen on behalf of `slot` while nobody is torn down. -/
inductive Bustle (slot : Nat) : Relay S → Relay S → Prop
  | speaks {r r' : Relay S} : Speaks (fun p => Packet.leaver? p = none) (fun _ => True) r r' →
      Bustle slot r r'
  | sent (r : Relay S) (id : SessionId) : Bustle slot r (r.sent slot id)
  | armRead (r : Relay S) (id : SessionId) : Bustle slot r (r.armRead slot id).2
  | receive (r : Relay S) (id : SessionId) (bs : Bytes) : Bustle slot r (r.receive slot id bs).2
  | take {r : Relay S} {packet : Bytes} {ring : Ring} :
      (r.session slot).inbound.takePacket = .ok (some (packet, ring)) →
      Bustle slot r (r.setSession slot { r.session slot with inbound := ring })

theorem Bustle.act (h : Bustle slot r r') : Act slot r r' := by
  cases h with
  | speaks h => exact .deed h.deed
  | sent id => exact .sent r id
  | armRead id => exact .armRead r id
  | receive id bs => exact .receive r id bs
  | take h => exact .take h

theorem Bustle.free_eq (h : Bustle slot r r') : r'.free = r.free := by
  cases h with
  | speaks h => exact h.deed.free_eq
  | sent | armRead | receive | take => rfl

theorem Bustle.identity_or (h : Bustle slot r r') :
    (∀ k, (r'.session k).identity = (r.session k).identity) ∨
      ∃ j id name token, name ≠ "" ∧ r' = (r.register j id name token).2 := by
  cases h with
  | speaks h => exact h.deed.traffic_or.imp_left Traffic.identity
  | sent id => exact .inl (identity_setSession (Session.identity_sent id))
  | armRead id => exact .inl fun _ => rfl
  | receive id bs =>
    rw [receive_eq_setSession]
    exact .inl (identity_setSession (Session.identity_receive id bs))
  | take _ => exact .inl (identity_setSession rfl)

theorem Bustle.ages (h : Bustle slot r r') (k : Nat) : Ages r r' k := by
  obtain hi | ⟨j, id, name, token, -, rfl⟩ := h.identity_or
  · exact ages_of_identity (hi k)
  · exact ages_register ..

theorem Bustle.live (h : Bustle slot r r') (hp : (r.session k).phase ≠ .disconnecting) :
    (r'.session k).phase ≠ .disconnecting := by
  obtain hi | ⟨j, id, name, token, hn, rfl⟩ := h.identity_or
  · rwa [show (r'.session k).phase = _ from congrArg Identity.phase (hi k)]
  · exact (Deed.register r j id token hn).live hp

theorem Bustle.taken (h : Bustle slot r r') (hw : Wired r) (hl : (r.session k).link = some i) :
    ∃ new, r'.taken k = r.taken k ++ new ∧ ∀ p ∈ new, Packet.leaver? p = none := by
  have hsame {r' : Relay S} (h : r'.taken k = r.taken k) :
      ∃ new, r'.taken k = r.taken k ++ new ∧ ∀ p ∈ new, Packet.leaver? p = none :=
    ⟨[], h.trans (List.append_nil _).symm, nofun⟩
  cases h with
  | speaks h => exact h.taken hw k
  | sent id => exact hsame (taken_sent hw hl slot id)
  | armRead id => exact hsame (taken_armRead r slot id k)
  | receive id bs =>
    obtain ⟨ring, hs⟩ := (r.session slot).receive_eq id bs
    rw [receive_eq_setSession, hs]
    exact hsame (taken_setSession rfl rfl)
  | take _ => exact hsame (taken_setSession rfl rfl)

/-- Connection `id` of `slot` is served over link `i`. -/
structure Served (r : Relay S) (i : LinkId) (slot : Nat) (id : SessionId) : Prop where
  link : (r.session slot).link = some i
  id : (r.session slot).id = id
  live : (r.session slot).phase ≠ .disconnecting

theorem Served.isLive (h : r.Served i slot id) : (r.session slot).isLive = true :=
  Session.isLive_iff.2 ⟨by rw [h.link]; rfl, h.live⟩

theorem Served.not_over (h : r.Served i slot id) : ¬ r.Over i :=
  fun hover => hover slot h.link

theorem Served.congr (h : r.Served i slot id)
    (hi : (r'.session slot).identity = (r.session slot).identity) : r'.Served i slot id where
  link := (congrArg Identity.link hi).trans h.link
  id := (congrArg Identity.id hi).trans h.id
  live := by
    rw [show (r'.session slot).phase = _ from congrArg Identity.phase hi]
    exact h.live

theorem Served.bustle (h : r.Served i slot id) (hb : Bustle j r r') : r'.Served i slot id where
  link := (hb.ages slot).link.trans h.link
  id := (hb.ages slot).id.trans h.id
  live := hb.live h.live

theorem Served.bustles (h : r.Served i slot id) (hb : ReflTransGen (Bustle j) r r') :
    r'.Served i slot id := by
  induction hb with
  | refl => exact h
  | tail _ hb ih => exact ih.bustle hb

theorem acts_of_bustles (hb : ReflTransGen (Bustle slot) r r') : ReflTransGen (Act slot) r r' :=
  ReflTransGen.mono (fun _ _ hb => hb.act) _ _ hb

theorem stirs_of_acts (ha : ReflTransGen (Act slot) r r') : ReflTransGen Stir r r' :=
  ReflTransGen.mono (fun _ _ ha => .act ha) _ _ ha

theorem free_eq_of_bustles (hb : ReflTransGen (Bustle slot) r r') : r'.free = r.free := by
  induction hb with
  | refl => rfl
  | tail _ hb ih => exact hb.free_eq.trans ih

theorem taken_of_bustles (hb : ReflTransGen (Bustle j) r r') (hw : Wired r)
    (h : r.Served i k id) :
    ∃ new, r'.taken k = r.taken k ++ new ∧ ∀ p ∈ new, Packet.leaver? p = none := by
  induction hb with
  | refl => exact ⟨[], (List.append_nil _).symm, nofun⟩
  | tail hfirst hb ih =>
    obtain ⟨new, hnew, hnone⟩ := ih
    obtain ⟨more, hmore, hnone'⟩ :=
      hb.taken (hw.of_acts (acts_of_bustles hfirst)) (h.bustles hfirst).link
    refine ⟨new ++ more, ?_, fun p hp => ?_⟩
    · rw [hmore, hnew, List.append_assoc]
    · exact (List.mem_append.1 hp).elim (hnone p) (hnone' p)

/-! ## Reads -/

/-- What a read comes to before its connection is ended, if it is, and whether it is. -/
def takeIn (v : Service S) (slot : Nat) (id : SessionId) (result : Except String Bytes)
    (r : Relay S) : Bool × Relay S :=
  match result with
  | .error _ | .ok [] => (true, r)
  | .ok bs =>
    match r.receive slot id bs with
    | (.error err, r) => (Engine.isFatal err, r)
    | (.ok (), r) =>
      match r.drain v slot id with
      | (.error _, r) => (true, r)
      | (.ok _, r) =>
        match r.armRead slot id with
        | (.ok (), r) => (false, r)
        | (.error err, r) => (Engine.isFatal err, r)

/-- A read is refused, or it is received, and then it is served and another one is posted as far as
that goes. -/
theorem takeIn_cases (v : Service S) (slot : Nat) (id : SessionId) (result : Except String Bytes)
    (r : Relay S) :
    (r.takeIn v slot id result).2 = r ∨ ∃ bs, result = .ok bs ∧
      let received := (r.receive slot id bs).2
      let served := (received.drain v slot id).2
      ((r.takeIn v slot id result).2 = received ∨ (r.takeIn v slot id result).2 = served ∨
        (r.takeIn v slot id result).2 = (served.armRead slot id).2) := by
  unfold takeIn
  split
  · exact .inl rfl
  · exact .inl rfl
  · next bs _ =>
    refine .inr ⟨bs, rfl, ?_⟩
    dsimp only
    split
    · next h => exact .inl (by rw [h])
    · next h =>
      rw [h]
      dsimp only
      split
      · next h => exact .inr (.inl (by rw [h]))
      · next h =>
        rw [h]
        dsimp only
        split <;> next h => exact .inr (.inr (by rw [h]))

theorem takeIn_bustles (hv : v.Mute) (slot : Nat) (id : SessionId)
    (result : Except String Bytes) (r : Relay S) :
    ReflTransGen (Bustle slot) r (r.takeIn v slot id result).2 := by
  obtain he | ⟨bs, -, hcases⟩ := r.takeIn_cases v slot id result
  · rw [he]
  · have hreceive := ReflTransGen.single (@Bustle.receive _ slot r id bs)
    have hserve (r : Relay S) : ReflTransGen (Bustle slot) r (r.drain v slot id).2 := by
      refine serve_takes (fun _ h => .take h) (fun packet r => ?_) _ r
      exact ReflTransGen.mono (fun _ _ => .speaks) _ _ (handle_speaks (Service.Mute.speaks hv)
        (fun _ => trivial) (fun _ _ => trivial) fun _ _ _ h => h.leaver?_eq_none)
    have hserved := hreceive.trans (hserve _)
    obtain he | he | he := hcases <;> rw [he]
    · exact hreceive
    · exact hserved
    · exact hserved.tail (.armRead _ id)

end Relay

namespace Engine

open Relay

theorem afterRead_takeIn (v : Service S) (slot : Nat) (id : SessionId)
    (result : Except String Bytes) (e : Engine S) :
    let o := e.relay.takeIn v slot id result
    e.afterRead v slot id result =
      if o.1 then { e with relay := o.2 }.disconnect v slot id else { e with relay := o.2 } := by
  unfold afterRead takeIn
  rcases result with err | _ | ⟨b, bs⟩
  · rfl
  · rfl
  · cases hreceive : e.relay.receive slot id (b :: bs) with
    | mk received r =>
      simp only [hreceive]
      cases received with
      | error err => rfl
      | ok _ =>
        cases hdrain : r.drain v slot id with
        | mk drained r =>
          simp only [hdrain]
          cases drained with
          | error err => rfl
          | ok n =>
            cases harm : r.armRead slot id with
            | mk armed r =>
              simp only [harm]
              cases armed <;> rfl

theorem complete_received (v : Service S) (e : Engine S) (slot : Nat) (id : SessionId)
    (result : Except String Bytes) :
    e.complete v (.received slot id result) = e.afterRead v slot id result := by
  rw [complete]
  split
  · rfl
  · next hlt =>
    cases ho : (e.relay.session slot).obstacle? id with
    | none => exact absurd (lt_capacity_of_obstacle? ho) hlt
    | some err => exact (afterRead_of_obstacle ho result).symm

end Engine

/-- A call to end connection `id` of `slot`, with the relay as it is when the call is made. -/
structure Ending (S : Type) where
  relay : Relay S
  slot : Nat
  id : SessionId
  announced : Bool

namespace Ending

open Relay

variable {v : Service S} {x : Ending S} {i : LinkId} {slot k : Nat} {id : SessionId}

def result (v : Service S) (x : Ending S) : Relay S :=
  x.relay.disconnect v x.slot x.id x.announced

/-- Whether it is this call that ends the connection over link `i`. -/
def ends (x : Ending S) (i : LinkId) : Bool :=
  (x.relay.session x.slot).link = some i && (x.relay.depart x.slot x.id).1.isSome

/-- The name that the connection was logged in under, if it was and that is told. -/
def notice? (x : Ending S) : Option String :=
  if x.announced then (x.relay.depart x.slot x.id).1.bind Departure.username else none

/-- The slot that the call gives back to the pool, if it is the one that ends the connection. -/
def freed? (x : Ending S) : Option Nat :=
  (x.relay.depart x.slot x.id).1.map fun _ => x.slot

/-- The relay when the slot is back in the pool; nobody has been told. -/
def released (v : Service S) (x : Ending S) : Relay S :=
  let r := (x.relay.depart x.slot x.id).2
  (match (x.relay.depart x.slot x.id).1 with
    | some ⟨_, some name, token⟩ => r.forget v name token
    | _ => r).release x.slot

theorem ends_iff : x.ends i = true ↔ (x.relay.session x.slot).link = some i ∧
    (x.relay.session x.slot).id = x.id ∧ (x.relay.session x.slot).isLive = true := by
  rw [ends, Bool.and_eq_true, decide_eq_true_eq, and_congr_right_iff]
  intro _
  rcases depart_cases x.relay x.slot x.id with ⟨hno, he⟩ | ⟨hlive, he⟩ <;> rw [he]
  · exact iff_of_false nofun hno
  · exact iff_of_true rfl hlive

theorem result_of_none (h : (x.relay.depart x.slot x.id).1 = none) :
    x.result v = x.relay ∧ x.notice? = none := by
  refine ⟨?_, by simp [notice?, h]⟩
  rcases depart_cases x.relay x.slot x.id with ⟨-, he⟩ | ⟨-, he⟩
  · rw [result, Relay.disconnect, he]
  · rw [he] at h
    cases h

theorem result_of_some {d : Departure} (h : (x.relay.depart x.slot x.id).1 = some d) :
    x.result v = match x.notice? with
      | some name => ((x.released v).announceLeave name).2
      | none => x.released v := by
  obtain ⟨r, hr⟩ : ∃ r, x.relay.depart x.slot x.id = (some d, r) := ⟨_, Prod.ext h rfl⟩
  obtain ⟨_, _ | name, token⟩ := d
  · simp [result, Relay.disconnect, released, notice?, hr]
  · cases ha : x.announced <;> simp [result, Relay.disconnect, released, notice?, hr, ha]

theorem over_of_identity (hw : Wired x.relay) (hends : x.ends i = true) {r : Relay S}
    (hi : ∀ k, (r.session k).identity = if x.slot = k then ⟨0, .disconnecting, "", none, none⟩
      else (x.relay.session k).identity) : r.Over i := by
  intro k hk
  have hlink := congrArg Identity.link (hi k)
  split at hlink
  · cases hlink.symm.trans hk
  · next hne => exact hne (hw.link_injective _ _ i (ends_iff.1 hends).1 (hlink.symm.trans hk))

section

variable (hv : v.Mute)

include hv

theorem released_eq (x : Ending S) :
    ∃ s n, x.released v =
      { (x.relay.depart x.slot x.id).2 with store := s, drawn := n }.release x.slot := by
  unfold released
  dsimp only
  split
  · next name token _ =>
    obtain ⟨s, n, hs⟩ := stored_of_mute (forget_chain hv name token (x.relay.depart x.slot x.id).2)
    exact ⟨s, n, congrArg (Relay.release · x.slot) hs⟩
  · exact ⟨_, _, rfl⟩

theorem released_acts (x : Ending S) : ReflTransGen (Act x.slot) x.relay (x.released v) := by
  obtain ⟨s, n, he⟩ := released_eq hv x
  rw [he]
  exact ((ReflTransGen.single (.depart x.relay x.id)).tail (.deed (.store _ s n))).tail
    (.release _)

theorem result_acts (x : Ending S) : ReflTransGen (Act x.slot) x.relay (x.result v) :=
  disconnect_chain (fun _ _ ha => ha) ((Service.Mute.deed hv).mono fun _ _ => .deed) ..

theorem identity_released (x : Ending S) (k : Nat) :
    ((x.released v).session k).identity =
      if x.slot = k then ⟨0, .disconnecting, "", none, none⟩
      else (x.relay.session k).identity := by
  obtain ⟨s, n, he⟩ := released_eq hv x
  rw [he, identity_release]
  split
  · rfl
  · next hk =>
    exact (identity_depart x.relay x.slot k x.id).resolve_right fun h => hk h.1

/-- Nobody else notices the call in what is known of connections. -/
theorem identity_result {d : Departure} (h : (x.relay.depart x.slot x.id).1 = some d) (k : Nat) :
    ((x.result v).session k).identity =
      if x.slot = k then ⟨0, .disconnecting, "", none, none⟩
      else (x.relay.session k).identity := by
  rw [result_of_some h, ← identity_released hv x k]
  split
  · exact (traffic_broadcast ..).identity k
  · rfl

theorem served_result (h : x.relay.Served i slot id)
    (hno : ¬ (x.slot = slot ∧ x.id = id)) : (x.result v).Served i slot id := by
  cases hd : (x.relay.depart x.slot x.id).1 with
  | none => rwa [(result_of_none hd).1]
  | some d =>
    have hslot : x.slot ≠ slot := by
      rintro rfl
      exact hno ⟨rfl, (phase_depart hd).1.symm.trans h.id⟩
    exact h.congr ((identity_result hv hd slot).trans (if_neg hslot))

theorem over_released (hw : Wired x.relay) (hends : x.ends i = true) : (x.released v).Over i :=
  over_of_identity hw hends (identity_released hv x)

theorem over_result (hw : Wired x.relay) (hends : x.ends i = true) : (x.result v).Over i := by
  obtain ⟨d, hd⟩ := Option.isSome_iff_exists.1 ((Bool.and_eq_true _ _).mp hends).2
  exact over_of_identity hw hends (identity_result hv hd)

/-- Whoever takes anything because of the call is told of the one who has left, and once. -/
theorem taken_result (ho : Orderly x.relay) (hne : x.slot ≠ k) :
    ∃ new, (x.result v).taken k = x.relay.taken k ++ new ∧
      (new.filterMap Packet.leaver?).Sublist (x.notice?.map Field.truncated).toList := by
  cases hd : (x.relay.depart x.slot x.id).1 with
  | none => exact ⟨[], by rw [(result_of_none hd).1, List.append_nil], List.nil_sublist _⟩
  | some d =>
    have hreleased : (x.released v).taken k = x.relay.taken k := by
      obtain ⟨s, n, he⟩ := released_eq hv x
      rw [he, taken_release hne]
      exact taken_depart ..
    rw [result_of_some hd]
    cases hnotice : x.notice? with
    | none => exact ⟨[], hreleased.trans (List.append_nil _).symm, List.nil_sublist _⟩
    | some name =>
      have hmoves := ReflTransGen.mono (fun _ _ => Move.act) _ _ (released_acts hv x)
      obtain ⟨new, hnew, hsub⟩ := taken_broadcast (ho.of_moves hmoves) none
        (Packet.userLeaveNotify (.truncated name)).encode (k := k)
      refine ⟨new, hnew.trans (by rw [hreleased]), ?_⟩
      have hleavers := hsub.filterMap Packet.leaver?
      simpa [Packet.leaver?_leave] using hleavers

theorem free_result (hw : Wired x.relay) :
    (x.result v).free = x.freed?.toList ++ x.relay.free := by
  cases hd : (x.relay.depart x.slot x.id).1 with
  | none => rw [(result_of_none hd).1, freed?, hd, Option.map_none, Option.toList_none,
      List.nil_append]
  | some d =>
    obtain ⟨s, n, he⟩ := released_eq hv x
    obtain ⟨-, hlive, -⟩ := phase_depart hd
    obtain ⟨i, hl⟩ := Option.isSome_iff_exists.1 (Session.isLive_iff.1 hlive).1
    have hreleased : (x.released v).free = x.slot :: x.relay.free := by
      rw [he, free_release]
      rcases depart_cases x.relay x.slot x.id with ⟨-, hc⟩ | ⟨-, hc⟩
      · rw [hc] at hd
        cases hd
      · rw [hc]
        have hset := session_setSession_self (lt_capacity_of_isLive hlive)
          { x.relay.session x.slot with phase := .disconnecting, token := none }
        exact if_pos ((congrArg Session.leased hset).trans (hw.notMem_free hl).1)
    rw [freed?, hd, Option.map_some, Option.toList_some, List.singleton_append, ← hreleased,
      result_of_some hd]
    split
    · exact free_eq_of_deeds (broadcast_chain (fun _ _ hd => hd) ..)
    · rfl

end

/-- The call tears down connection `id` of `slot`, which is served over link `i`: it closes the link
and gives the slot back, neither of which was done before. When the directory knows nothing of the
connection any more, the others are told of it, if they are told at all: everybody who is logged in
is offered the notice once. -/
structure TearsDown (v : Service S) (x : Ending S) (i : LinkId) (slot : Nat) (id : SessionId) :
    Prop where
  slot_eq : x.slot = slot
  id_eq : x.id = id
  served : x.relay.Served i slot id
  departs : (x.relay.depart slot id).1.isSome = true
  opened : x.relay.closings[i]? = some 0
  closed : (x.released v).closings[i]? = some 1
  leased : slot ∉ x.relay.free
  freed : (x.result v).free = slot :: x.relay.free
  unlisted : (x.released v).directory.byId.get? id = none ∧
    ∀ name, (x.released v).directory.byName.get? name ≠ some id
  told : x.result v = match x.notice? with
    | some name => ((x.released v).announceLeave name).2
    | none => x.released v
  notice : x.notice? = if x.announced then (x.relay.session slot).loggedInAs else none
  offered : ∀ name, x.notice? = some name → ∀ k, slot ≠ k →
    (x.relay.session k).isAuthenticated = true →
      Offered (Packet.userLeaveNotify (.truncated name)).encode (x.released v) (x.result v) k

theorem unlisted_released (hv : v.Mute) (ho : Orderly x.relay)
    (hid : (x.relay.session x.slot).id = x.id) (hne : x.id ≠ 0) :
    (x.released v).directory.byId.get? x.id = none ∧
      ∀ name, (x.released v).directory.byName.get? name ≠ some x.id := by
  have hc : Consistent (x.released v) := ho.consistent.of_acts (released_acts hv x)
  have hgone (k : Nat) : ((x.released v).session k).id ≠ x.id := by
    have hi := congrArg Identity.id (identity_released hv x k)
    split at hi
    · exact fun h => hne (h.symm.trans hi)
    · next hk =>
      refine fun h => hk (ho.consistent.id_injective x.slot k ?_ ?_)
      · exact hid.trans (h.symm.trans hi)
      · exact fun h0 => hne (h.symm.trans (hi.trans h0))
  have hlist : (x.released v).directory.byId.get? x.id = none := by
    rw [Option.eq_none_iff_forall_ne_some]
    exact fun k hk => hgone k (hc.byId x.id k hk).1
  refine ⟨hlist, fun name hname => ?_⟩
  obtain ⟨k, hk, -⟩ := hc.byName name x.id hname
  cases hlist.symm.trans hk

theorem offered_result (hv : v.Mute) (ho : Orderly x.relay) {name : String}
    (hn : x.notice? = some name) (hne : x.slot ≠ k)
    (hin : (x.relay.session k).isAuthenticated = true) :
    Offered (Packet.userLeaveNotify (.truncated name)).encode (x.released v) (x.result v) k := by
  have ho' := ho.of_moves (ReflTransGen.mono (fun _ _ => Move.act) _ _ (released_acts hv x))
  have hi : ((x.released v).session k).identity = (x.relay.session k).identity :=
    (identity_released hv x k).trans (if_neg hne)
  have hphase := ho.consistent.isAuthenticated_iff.1 hin
  have hin' := ho'.consistent.isAuthenticated_iff.2 ((congrArg Identity.phase hi).trans hphase)
  obtain ⟨d, hd⟩ : ∃ d, (x.relay.depart x.slot x.id).1 = some d := by
    rw [← Option.ne_none_iff_exists']
    intro hd
    cases (result_of_none (v := v) hd).2.symm.trans hn
  rw [result_of_some hd, hn]
  exact offered_broadcast ho' nofun hin'

theorem tearsDown (hv : v.Mute) (ho : Orderly x.relay) (ht : Tally x.relay)
    (h : x.relay.Served i x.slot x.id) : x.TearsDown v i x.slot x.id := by
  have hw := ho.wired
  have hne : x.id ≠ 0 :=
    h.id ▸ (ho.consistent.proper x.slot).id_ne_zero (Option.isSome_iff_exists.2 ⟨i, h.link⟩)
  have hends : x.ends i = true := ends_iff.2 ⟨h.link, h.id, h.isLive⟩
  obtain ⟨d, hd⟩ : ∃ d, (x.relay.depart x.slot x.id).1 = some d :=
    Option.isSome_iff_exists.1 ((Bool.and_eq_true _ _).mp hends).2
  have hacts := stirs_of_acts (released_acts hv x)
  constructor
  case slot_eq => rfl
  case id_eq => rfl
  case served => exact h
  case departs => rw [hd]; rfl
  case opened => exact ht.served x.slot i h.link
  case closed =>
    refine (ht.of_stirs hw hacts).closed i ?_ (over_released hv hw hends)
    exact Nat.lt_of_lt_of_le (hw.link_lt x.slot i h.link) (length_links_le_of_stirs hacts)
  case leased => exact (hw.notMem_free h.link).2
  case freed => rw [free_result hv hw, freed?, hd]; rfl
  case unlisted => exact unlisted_released hv ho h.id hne
  case told => exact result_of_some hd
  case notice =>
    rcases depart_cases x.relay x.slot x.id with ⟨-, hc⟩ | ⟨-, hc⟩
    · rw [hc] at hd
      cases hd
    · rw [notice?, hc]
      rfl
  case offered => exact fun name hn k hk hin => offered_result hv ho hn hk hin

end Ending

end ChatRelay
