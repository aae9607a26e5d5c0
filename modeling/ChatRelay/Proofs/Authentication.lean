import ChatRelay.Proofs.Origins
import ChatRelay.Proofs.Recycling
import ChatRelay.Proofs.Relay.Serving
import ChatRelay.Proofs.Relay.Settled

/-! # Authentication

A connection is logged in by a request of its own and by nothing else. The request brings the
password of an account, under a name that nobody goes by. From then on no packet of anybody changes
whom the connection is logged in as.
-/

namespace ChatRelay

open Relation (ReflTransGen)

theorem Store.answer_eq (s : Store) (c : StoreCall) :
    ∃ tokens presence overrun,
      (s.answer c).2 = { s with tokens := tokens, presence := presence, overrun := overrun } := by
  cases c with
  | createToken token userId lifetime =>
    simp only [answer, createToken?]
    split
    · next h =>
      split at h
      · cases h
        exact ⟨_, _, _, rfl⟩
      · cases h
    · exact ⟨_, _, _, rfl⟩
  | passwordHash | deleteToken | setPresence | clearPresence => exact ⟨_, _, _, rfl⟩

/-- Whatever a store is asked, `view` shows the same of it afterwards. -/
def Store.Lasting {α : Type} (view : Store → α) : Prop :=
  ∀ s c, view (s.answer c).2 = view s

theorem Store.lasting_accounts : Lasting accounts := by
  intro s c
  obtain ⟨_, _, _, h⟩ := s.answer_eq c
  rw [h]

theorem Store.Lasting.forget {α : Type} {view : Store → α} (h : Lasting view) (s : Store)
    (name token : Option String) : view (s.forget name token) = view s := by
  cases name with
  | none => rfl
  | some name =>
    cases token with
    | none => exact h s (.clearPresence name)
    | some token =>
      exact (h (s.deleteToken token).2 (.clearPresence name)).trans (h s (.deleteToken token))

namespace Relay

variable {token : Nat → String} {lifetime : Nat} {r r' : Relay Store} {slot k : Nat}
  {id : SessionId} {name : String}

/-! ## Requests -/

/-- The packet asks to be logged in under `name`, which nobody goes by, with the password of an
account. -/
structure Grants (r : Relay Store) (packet : Bytes) (name : String) : Prop where
  request : ∃ userId password username,
    Packet.decode packet = .ok (.loginRequest userId password username) ∧ username.text = name ∧
      r.store.passwordHash? userId.text = some (hashPassword password.text)
  name_ne : name ≠ ""
  free : r.findName name = none

theorem passwordHash?_of_login {user password : String}
    (h : (r.login (.direct token lifetime) slot id user password name).1 = .success) :
    r.store.passwordHash? user = some (hashPassword password) := by
  have hask : (Service.direct token lifetime).ask (.passwordHash user) r =
    (.ok (r.store.passwordHash? user), r) := rfl
  simp only [login, hask] at h
  split at h
  · cases h
  · split at h
    · cases h
    · cases hp : r.store.passwordHash? user with
      | none =>
        rw [hp] at h
        cases h
      | some hash =>
        simp only [hp] at h
        split at h
        · next heq => rw [heq]
        · cases h

theorem Settles.identity_or {drawn : String} {o : Outcome × Relay Store}
    (h : r.Settles slot id name drawn o) (k : Nat) :
    (o.2.session k).identity = (r.session k).identity ∨
      slot = k ∧ o.1 = .success ∧ name ≠ "" ∧ r.findName name = none ∧
        (o.2.session k).nameOf id = some name := by
  cases h with
  | refused => exact .inl rfl
  | @entered r' s g hn hf hp ht he =>
    have hsession := session_register_of_ok he k
    split at hsession
    · next hk => exact .inr ⟨hk, rfl, hn, hf, hsession⟩
    · exact .inl (congrArg Session.identity hsession)
  | @withdrawn r' e s s' g hn hf hp ht he =>
    exact .inl (congrArg Session.identity (session_register_of_error he k))

/-- A packet that changes what is known of a connection is that connection's own login request. -/
theorem identity_handle_or (token : Nat → String) (lifetime slot : Nat) (id : SessionId)
    (packet : Bytes) (r : Relay Store) (k : Nat) :
    ((r.handle (.direct token lifetime) slot id packet).session k).identity =
        (r.session k).identity ∨
      slot = k ∧ ∃ name, r.Grants packet name ∧
        ((r.handle (.direct token lifetime) slot id packet).session k).nameOf id = some name := by
  unfold handle
  split
  · next userId password username hp =>
    let a : Attempt := ⟨slot, id, userId, password, username⟩
    have ht := (traffic_attempt (.direct token lifetime) r a).identity k
    obtain hsame | ⟨hk, ho, hn, hf, hname⟩ :=
      (verdict_settles token lifetime r a).identity_or k
    · exact .inl (ht.trans hsame)
    · refine .inr ⟨hk, username.text, ⟨⟨_, _, _, hp, rfl, passwordHash?_of_login ho⟩, hn, hf⟩, ?_⟩
      exact (Session.nameOf_congr ht id).trans hname
  · exact .inl ((quiet_relayBroadcast ..).traffic.identity k)
  · exact .inl ((quiet_relayWhisper ..).traffic.identity k)
  · exact .inl rfl

theorem grants_withInbound {ring : Ring} {packet : Bytes}
    (h : (r.withInbound slot ring).Grants packet name) : r.Grants packet name :=
  ⟨h.request, h.name_ne, findName_withInbound r slot ring name ▸ h.free⟩

/-- A connection that is logged in by the time that packets are served was so by one of them. -/
theorem exists_granted (limit : Nat)
    (hbefore : (r.session slot).nameOf id ≠ some name)
    (hafter : ((r.serve (.direct token lifetime) slot id limit).2.session slot).nameOf id =
      some name) :
    ∃ n < limit, ∃ packet ring,
      (r.serve (.direct token lifetime) slot id n).2.next? slot id = some (packet, ring) ∧
      (r.serve (.direct token lifetime) slot id n).2.Grants packet name ∧
      ((r.serve (.direct token lifetime) slot id n).2.session slot).nameOf id = none ∧
      ((r.serve (.direct token lifetime) slot id (n + 1)).2.session slot).nameOf id =
        some name := by
  obtain ⟨n, hlt, hnot, hnow, hnext⟩ :=
    serve_switch (Q := fun r => (r.session slot).nameOf id = some name) hbefore hafter
  obtain ⟨⟨packet, ring⟩, hnext⟩ := Option.isSome_iff_exists.1 hnext
  set r₁ := (r.serve (.direct token lifetime) slot id n).2
  have htaken := identity_withInbound r₁ slot slot ring
  have hserved := serve_succ_of_next? (v := .direct token lifetime) hnext
  have hhandled := identity_handle_or token lifetime slot id packet (r₁.withInbound slot ring) slot
  rw [hserved] at hnow
  obtain hsame | ⟨-, other, hgrants, hother⟩ := hhandled
  · rw [Session.nameOf_congr (hsame.trans htaken)] at hnow
    exact absurd hnow hnot
  · obtain rfl : other = name := Option.some.inj (hother.symm.trans hnow)
    refine ⟨n, hlt, packet, ring, hnext, grants_withInbound hgrants, ?_, hserved ▸ hother⟩
    -- Whoever was logged in before would be still, under the name of then.
    by_contra hsome
    obtain ⟨old, hold⟩ := Option.ne_none_iff_exists'.1 hsome
    have hkept := nameOf_of_deeds (handle_deeds (direct_within token lifetime) slot id packet
      (r₁.withInbound slot ring)) ((Session.nameOf_congr htaken id).trans hold)
    exact hnot (hold.trans (hkept.symm.trans hother))

/-! ## What lasts in a store -/

theorem store_disconnect (token : Nat → String) (lifetime : Nat) (r : Relay Store) (slot : Nat)
    (id : SessionId) (announced : Bool) :
    ∃ name drawn, (r.disconnect (.direct token lifetime) slot id announced).store =
      r.store.forget name drawn := by
  by_cases hlive : (r.session slot).id = id ∧ (r.session slot).isLive = true
  · obtain ⟨name, b, he⟩ := disconnect_direct token lifetime hlive.1 hlive.2 announced
    rw [he, store_farewell, store_release]
    exact ⟨_, _, rfl⟩
  · rw [disconnect_of_not_live hlive]
    exact ⟨none, none, rfl⟩

section

variable {α : Type} {view : Store → α}

theorem view_of_chain
    (h : ReflTransGen (fun r r' : Relay Store => view r'.store = view r.store) r r') :
    view r'.store = view r.store := by
  induction h with
  | refl => rfl
  | tail _ hlast ih => exact hlast.trans ih

variable (hview : Store.Lasting view)

include hview

theorem Tread.view_eq (ht : Tread (.direct token lifetime) slot id r r') :
    view r'.store = view r.store := by
  cases ht with
  | ask c => exact hview r.store c
  | draw => rfl
  | register => rw [store_register]
  | reply => rfl
  | send => rfl

theorem view_handle (packet : Bytes) (r : Relay Store) :
    view (r.handle (.direct token lifetime) slot id packet).store = view r.store := by
  have htreads : ReflTransGen (Tread (.direct token lifetime) slot id) r
      (r.handle (.direct token lifetime) slot id packet) := handle_treads packet r
  exact view_of_chain (ReflTransGen.mono (fun _ _ ht => ht.view_eq hview) _ _ htreads)

theorem view_disconnect (announced : Bool) (r : Relay Store) :
    view (r.disconnect (.direct token lifetime) slot id announced).store = view r.store := by
  obtain ⟨name, drawn, he⟩ := store_disconnect token lifetime r slot id announced
  rw [he, hview.forget]

theorem view_parts (token : Nat → String) (lifetime slot : Nat) (id : SessionId) :
    Parts (fun r r' => view r'.store = view r.store) (.direct token lifetime) slot id where
  take _ _ := rfl
  handle packet r := .single (view_handle hview packet r)
  receive _ _ := rfl
  armRead _ := rfl
  sent _ := rfl
  disconnect announced r := .single (view_disconnect hview announced r)

end

/-! ## Who may be logged in -/

/-- Nobody is logged in meanwhile, but possibly the connection `c`. -/
def EntersOnly (c : Option (Nat × SessionId)) (r r' : Relay Store) : Prop :=
  ∀ k id name, (r'.session k).nameOf id = some name →
    (r.session k).nameOf id = some name ∨ c = some (k, id)

namespace EntersOnly

variable {c : Option (Nat × SessionId)}

theorem of_identity (h : ∀ k, (r'.session k).identity = (r.session k).identity ∨
    (r'.session k).phase ≠ .authenticated) : EntersOnly c r r' := by
  intro k id name hname
  obtain hsame | hp := h k
  · exact .inl ((Session.nameOf_congr hsame id).symm.trans hname)
  · exact absurd (Session.nameOf_eq_some_iff.1 hname).2.1 hp

theorem trans {r'' : Relay Store} (h : EntersOnly c r r') (h' : EntersOnly c r' r'') :
    EntersOnly c r r'' :=
  fun k id name hname => (h' k id name hname).elim (h k id name) .inr

theorem of_chain (h : ReflTransGen (EntersOnly c) r r') : EntersOnly c r r' := by
  induction h with
  | refl => exact .of_identity fun _ => .inl rfl
  | tail _ hlast ih => exact ih.trans hlast

theorem release (slot : Nat) (r : Relay Store) : EntersOnly c r (r.release slot) := by
  refine .of_identity fun k => ?_
  have hi := identity_release r slot k
  split at hi
  · refine .inr ?_
    rw [show ((r.release slot).session k).phase = _ from congrArg Identity.phase hi]
    exact nofun
  · exact .inl hi

theorem disconnect (slot : Nat) (id : SessionId) (announced : Bool) (r : Relay Store) :
    EntersOnly c r (r.disconnect (.direct token lifetime) slot id announced) := by
  by_cases hlive : (r.session slot).id = id ∧ (r.session slot).isLive = true
  · refine .of_identity fun k => ?_
    have hi := identity_disconnect token lifetime hlive.1 hlive.2 announced k
    split at hi
    · exact .inr fun hp => absurd ((congrArg Identity.phase hi).symm.trans hp) nofun
    · exact .inl hi
  · rw [disconnect_of_not_live hlive]
    exact .of_identity fun _ => .inl rfl

theorem handle (packet : Bytes) (r : Relay Store) :
    EntersOnly (some (slot, id)) r (r.handle (.direct token lifetime) slot id packet) := by
  intro k i name hname
  obtain hsame | ⟨rfl, other, -, hother⟩ := identity_handle_or token lifetime slot id packet r k
  · exact .inl ((Session.nameOf_congr hsame i).symm.trans hname)
  · right
    rw [← (Session.nameOf_eq_some_iff.1 hname).1, (Session.nameOf_eq_some_iff.1 hother).1]

theorem parts (token : Nat → String) (lifetime slot : Nat) (id : SessionId) :
    Parts (EntersOnly (some (slot, id))) (.direct token lifetime) slot id where
  take _ _ := .of_identity fun k => .inl (identity_withInbound _ slot k _)
  handle packet r := .single (handle packet r)
  receive bs r := .of_identity fun k => .inl ((quiet_receive r slot id bs).traffic.identity k)
  armRead _ := .of_identity fun _ => .inl rfl
  sent r := .of_identity fun k => .inl ((quiet_sent r slot id).traffic.identity k)
  disconnect announced r := .single (disconnect slot id announced r)

end EntersOnly

end Relay

namespace Engine

open Relay

variable {token : Nat → String} {lifetime : Nat} {e : Engine Store} {slot k : Nat}
  {id : SessionId} {name : String}

/-! ## Steps -/

theorem store_accept {S : Type} (e : Engine S) (c : Incoming) :
    (e.accept c).2.relay.store = e.relay.store := by
  obtain he | ⟨slot, r, ha, hcases⟩ := e.accept_cases c
  · rw [he]
  · obtain ⟨free, -, hr⟩ := acquire_eq_some_iff.1 ha
    have hstore : r.store = e.relay.store := by rw [hr]; rfl
    obtain he | ⟨l, he | he⟩ := hcases <;> rw [he]
    · rw [store_release, hstore]
    · exact hstore
    · rw [store_release]
      exact hstore

section

variable {α : Type} {view : Store → α} (hview : Store.Lasting view)

include hview

theorem view_step (e : Engine Store) (s : Step) :
    view (e.step (.direct token lifetime) s).relay.store = view e.relay.store := by
  cases s with
  | accept c => exact congrArg view (store_accept e c)
  | complete c => exact view_of_chain (complete_parts (view_parts hview ..) e)
  | halt => rfl
  | stop =>
    exact view_of_chain (endAll_parts (fun slot id => (view_parts hview _ _ slot id).disconnect)
      _ e.halt)

theorem view_run (steps : List Step) (e : Engine Store) :
    view (e.run (.direct token lifetime) steps).relay.store = view e.relay.store := by
  induction steps generalizing e with
  | nil => rfl
  | cons s steps ih => exact (ih _).trans (view_step hview e s)

end

theorem entersOnly_accept (h : Wired e.relay) (c : Incoming) :
    EntersOnly none e.relay (e.accept c).2.relay := by
  obtain he | ⟨slot, r, ha, hcases⟩ := e.accept_cases c
  · rw [he]
    exact .of_identity fun _ => .inl rfl
  · obtain ⟨hleased, -, hi⟩ := h.acquired ha
    have hfirst : EntersOnly none e.relay r := .of_identity fun k => .inl (hi k)
    have hbegin (l : Link) : EntersOnly none r
        ((r.begin slot e.allocate.1 l).armRead slot e.allocate.1).2 := by
      refine .of_identity fun k => ?_
      rw [session_armRead, session_begin (lt_capacity_of_leased hleased)]
      split
      · exact .inr nofun
      · exact .inl rfl
    obtain he | ⟨l, he | he⟩ := hcases <;> rw [he]
    · exact hfirst.trans (.release slot _)
    · exact hfirst.trans (hbegin l)
    · exact (hfirst.trans (hbegin l)).trans (.release slot _)

theorem entersOnly_step (h : Wired e.relay) (s : Step) :
    EntersOnly s.connection? e.relay (e.step (.direct token lifetime) s).relay := by
  cases s with
  | accept c => exact entersOnly_accept h c
  | complete c => exact .of_chain (complete_parts (EntersOnly.parts ..) e)
  | halt => exact .of_identity fun _ => .inl rfl
  | stop =>
    exact .of_chain (endAll_parts (fun slot id b r => .single (EntersOnly.disconnect slot id b r))
      _ e.halt)

theorem exists_read (h : Wired e.relay) {s : Step}
    (hbefore : (e.relay.session slot).nameOf id ≠ some name)
    (hafter : ((e.step (.direct token lifetime) s).relay.session slot).nameOf id = some name) :
    ∃ bs limit, s = .complete (.received slot id (.ok bs)) ∧
      (e.relay.session slot).obstacle? id = none ∧
      bs.length ≤ (e.relay.session slot).inbound.free ∧
      (e.step (.direct token lifetime) s).relay.session slot =
        (((e.relay.receive slot id bs).2.serve (.direct token lifetime) slot id limit).2).session
          slot := by
  have hnot {r : Relay Store} (ho : EntersOnly none e.relay r)
      (hr : (r.session slot).nameOf id = some name) : False := by
    obtain hsame | hown := ho slot id name hr
    · exact hbefore hsame
    · cases hown
  have hown := (entersOnly_step h s slot id name hafter).resolve_left hbefore
  cases s with
  | accept | halt | stop => cases hown
  | complete c =>
    cases c with
    | received slot' id' result =>
      obtain ⟨rfl, rfl⟩ : slot' = slot ∧ id' = id := Prod.mk.inj (Option.some.inj hown)
      cases ho : (e.relay.session slot').obstacle? id' with
      | some err =>
        simp only [Engine.step, complete, afterRead_of_obstacle ho, ite_self] at hafter
        exact absurd hafter hbefore
      | none =>
        simp only [Engine.step, complete, if_pos (lt_capacity_of_obstacle? ho)] at hafter ⊢
        rcases result with _ | _ | ⟨b, bs⟩
        · exact (hnot (EntersOnly.disconnect _ _ _ _) hafter).elim
        · exact (hnot (EntersOnly.disconnect _ _ _ _) hafter).elim
        · have hv : (Service.direct token lifetime).Blind := Service.ofStore_blind
          have hd := direct_within token lifetime
          have hp : ((e.afterRead (.direct token lifetime) slot' id' (.ok (b :: bs))).relay.session
              slot').phase ≠ .disconnecting := by
            rw [(Session.nameOf_eq_some_iff.1 hafter).2.1]
            decide
          obtain ⟨hfits, -, heq⟩ := afterRead_eq hv hd ho (List.cons_ne_nil b bs) hp
          have hdrain := congrArg Prod.snd (drain_receive hv hd ho hfits)
          refine ⟨b :: bs, ((e.relay.receive slot' id' (b :: bs)).2.session slot').inbound.size,
            rfl, trivial, hfits, ?_⟩
          rw [heq, session_armRead]
          exact congrArg (Relay.session · slot') hdrain.symm
    | sent slot' id' result =>
      obtain ⟨rfl, rfl⟩ : slot' = slot ∧ id' = id := Prod.mk.inj (Option.some.inj hown)
      exfalso
      simp only [Engine.step, complete] at hafter
      split at hafter
      · rcases result with _ | n
        · exact hnot (EntersOnly.disconnect _ _ _ _) hafter
        · exact hnot (.of_identity fun k => .inl ((quiet_sent ..).traffic.identity k)) hafter
      · exact hbefore hafter

/-! ## Runs -/

/-- The relay when the first `n` packets that a step brings are handled; only a read brings any. -/
def midway (v : Service Store) (e : Engine Store) (n : Nat) : Step → Relay Store
  | .complete (.received slot id (.ok bs)) => ((e.relay.receive slot id bs).2.serve v slot id n).2
  | _ => e.relay

theorem acts_midway (token : Nat → String) (lifetime : Nat) (e : Engine Store) (n : Nat)
    (c : Completion) :
    ReflTransGen (Act c.connection.1) e.relay
      (e.midway (.direct token lifetime) n (.complete c)) := by
  unfold midway
  split
  · next slot id bs h =>
    cases h
    have hparts := parts_of_acts (fun _ _ ha => ha)
      ((direct_within token lifetime).mono fun _ _ => @Act.deed _ slot _ _) id
    exact .head (.receive e.relay id bs) (hparts.serve n _)
  · exact .refl

theorem view_midway {α : Type} {view : Store → α} (hview : Store.Lasting view) (e : Engine Store)
    (n : Nat) (s : Step) :
    view (e.midway (.direct token lifetime) n s).store = view e.relay.store := by
  unfold midway
  split
  · next slot id bs =>
    have hserved := view_of_chain
      ((view_parts hview token lifetime slot id).serve n (e.relay.receive slot id bs).2)
    exact hserved
  · rfl

theorem identity_midway (e : Engine Store) (n : Nat) (s : Step)
    (hp : (e.relay.session k).phase = .authenticated) :
    ((e.midway (.direct token lifetime) n s).session k).identity =
      (e.relay.session k).identity := by
  unfold midway
  split
  · next slot id bs =>
    have hreceived := (quiet_receive e.relay slot id bs).traffic.identity k
    exact (identity_serve (direct_within token lifetime) slot id n
      ((congrArg Identity.phase hreceived).trans hp)).trans hreceived
  · rfl

/-- Whoever is logged in at the end of a run sent a request for that, and has been logged in ever
since. -/
theorem exists_login (h : Orderly e.relay) (hidle : (e.relay.session slot).phase = .disconnecting)
    {steps : List Step} (hf : e.FreshIds (.direct token lifetime) steps)
    (hname : ((e.run (.direct token lifetime) steps).relay.session slot).nameOf id = some name) :
    ∃ earlier bs after, steps = earlier ++ .complete (.received slot id (.ok bs)) :: after ∧
      ((e.run (.direct token lifetime) earlier).relay.session slot).nameOf id ≠ some name ∧
      ((e.run (.direct token lifetime) earlier).step (.direct token lifetime)
        (.complete (.received slot id (.ok bs)))).StaysAs (.direct token lifetime) after slot id
        name := by
  have hd := direct_within token lifetime
  induction steps using List.reverseRecOn with
  | nil => exact absurd (hidle.symm.trans (Session.nameOf_eq_some_iff.1 hname).2.1) nofun
  | append_singleton steps s ih =>
    have hf := (freshIds_append.1 hf).1
    have h' := h.of_moves (moves_run hd h hf)
    have hlast : e.run (.direct token lifetime) (steps ++ [s]) =
      (e.run (.direct token lifetime) steps).step (.direct token lifetime) s := run_append ..
    by_cases hbefore :
        ((e.run (.direct token lifetime) steps).relay.session slot).nameOf id = some name
    · obtain ⟨earlier, bs, after, rfl, hnot, hstays⟩ := ih hf hbefore
      refine ⟨earlier, bs, after ++ [s], by rw [List.append_assoc, List.cons_append], hnot, ?_⟩
      intro p hp
      obtain rfl | hp := List.prefix_concat_iff.1 hp
      · rwa [List.append_assoc, run_append, List.cons_append] at hname
      · exact hstays p hp
    · rw [hlast] at hname
      obtain ⟨bs, -, rfl, -⟩ := exists_read h'.wired hbefore hname
      refine ⟨steps, bs, [], rfl, hbefore, fun p hp => ?_⟩
      rw [List.prefix_nil.1 hp]
      exact hname

theorem identity_of_stays {steps : List Step} (h : Orderly e.relay)
    (hf : e.FreshIds (.direct token lifetime) steps)
    (hs : e.StaysAs (.direct token lifetime) steps slot id name) :
    (∀ p, p <+: steps → ((e.run (.direct token lifetime) p).relay.session slot).identity =
        (e.relay.session slot).identity) ∧
      ∀ p s n, p ++ [s] <+: steps →
        (((e.run (.direct token lifetime) p).midway (.direct token lifetime) n s).session
          slot).identity = (e.relay.session slot).identity := by
  have hd := direct_within token lifetime
  have hphase {p : List Step} (hp : p <+: steps) :
      ((e.run (.direct token lifetime) p).relay.session slot).phase = .authenticated :=
    (Session.nameOf_eq_some_iff.1 (hs p hp)).2.1
  have hwhole (p : List Step) (hp : p <+: steps) :
      ((e.run (.direct token lifetime) p).relay.session slot).identity =
        (e.relay.session slot).identity := by
    induction p using List.reverseRecOn with
    | nil => rfl
    | append_singleton p s ih =>
      have hbefore := (List.prefix_append p [s]).trans hp
      obtain ⟨rest, rfl⟩ := hbefore
      have hwired := (h.of_moves (moves_run hd h (freshIds_append.1 hf).1)).wired
      have hnow := hphase hp
      have hlast : e.run (.direct token lifetime) (p ++ [s]) =
        (e.run (.direct token lifetime) p).step (.direct token lifetime) s := run_append ..
      rw [hlast] at hnow ⊢
      obtain ⟨c, rfl, -, hconnected, -⟩ | hl :=
        step_begins_or hd hwired fun hp => absurd (hnow.symm.trans hp) nofun
      · exact absurd (hconnected.symm.trans hnow) nofun
      · exact (hl.identity (hphase (List.prefix_append p rest))).trans
          (ih (List.prefix_append p rest))
  refine ⟨hwhole, fun p s n hp => ?_⟩
  have hbefore := (List.prefix_append p [s]).trans hp
  exact (identity_midway _ n s (hphase hbefore)).trans (hwhole p hbefore)

theorem getElem?_inflow_of_next? {S : Type} {v : Service S} {e : Engine S} {packet bs : Bytes}
    {ring : Ring} {n : Nat} {before : List Step} (hd : v.Within Deed)
    (herror : (inflow slot id before).error = none)
    (hrest : (inflow slot id before).rest = (e.relay.session slot).inbound.toList)
    (ho : (e.relay.session slot).obstacle? id = none)
    (hfits : bs.length ≤ (e.relay.session slot).inbound.free)
    (hnext : ((e.relay.receive slot id bs).2.serve v slot id n).2.next? slot id =
      some (packet, ring)) (after : List Step) :
    (inflow slot id (before ++ .complete (.received slot id (.ok bs)) :: after)).packets[
      (inflow slot id before).packets.length + n]? = some packet := by
  have hheld : ((e.relay.receive slot id bs).2.session slot).inbound.toList =
      (inflow slot id before).rest ++ bs := by
    rw [receive_of_fits ho hfits, session_withInbound_self (lt_capacity_of_obstacle? ho), hrest]
    exact Ring.toList_append hfits
  have hpacket := getElem?_packets_of_next? hd hnext
  rw [hheld] at hpacket
  have hbrings : (Step.complete (.received slot id (.ok bs))).brings slot id = bs :=
    if_pos ⟨rfl, rfl⟩
  rw [inflow_append herror, List.flatMap_cons, hbrings, ← List.append_assoc,
    List.getElem?_append_right (Nat.le_add_right ..), Nat.add_sub_cancel_left]
  obtain ⟨more, hmore⟩ := Framing.packets_isPrefix_append ((inflow slot id before).rest ++ bs)
    (after.flatMap (Step.brings slot id))
  rw [← hmore, List.getElem?_append_left (List.getElem?_eq_some_iff.1 hpacket).1, hpacket]

theorem passwordHash?_midway (capacity : Nat) (limits : Limits) (store : Store) (steps : List Step)
    (n : Nat) (s : Step) (userId : String) :
    (((start capacity limits store).run (.direct token lifetime) steps).midway
      (.direct token lifetime) n s).store.passwordHash? userId = store.passwordHash? userId :=
  congrArg (Table.get? · userId)
    ((view_midway Store.lasting_accounts ..).trans (view_run Store.lasting_accounts ..))

/-- Nobody is logged in but by a login request of its own: one of the packets of its inflow names
an account and brings its password, and the name it asks for is nobody's when it is served. From
then on, after whatever packet of whatever connection, id, name and token are what they are now. -/
theorem logged_in_by_request (token : Nat → String) (lifetime capacity : Nat) (limits : Limits)
    (store : Store) (steps : List Step) (slot : Nat) (id : SessionId) (name : String) :
    let v := Service.direct token lifetime
    let e := start capacity limits store
    let now := (e.run v steps).relay.session slot
    e.FreshIds v steps →
    now.nameOf id = some name →
    ∃ before c mid bs after n packet ring userId password username,
      let read : Step := .complete (.received slot id (.ok bs))
      let e₁ := e.run v (before ++ .accept c :: mid)
      steps = before ++ .accept c :: (mid ++ read :: after) ∧
      ((e.run v before).accept c).1 = some (slot, id) ∧
      (inflow slot id (mid ++ read :: after)).packets[(inflow slot id mid).packets.length + n]? =
        some packet ∧
      (e₁.midway v n read).next? slot id = some (packet, ring) ∧
      Packet.decode packet = .ok (.loginRequest userId password username) ∧
      username.text = name ∧ name ≠ "" ∧
      store.passwordHash? userId.text = some (hashPassword password.text) ∧
      (e₁.midway v n read).findName name = none ∧
      (∀ k i, ((e₁.midway v n read).session k).nameOf i ≠ some name) ∧
      ((e₁.midway v n read).session slot).nameOf id = none ∧
      (∀ m, n < m → ((e₁.midway v m read).session slot).identity = now.identity) ∧
      (∀ p, p <+: after →
        (((e₁.step v read).run v p).relay.session slot).identity = now.identity) ∧
      ∀ p s m, p ++ [s] <+: after →
        ((((e₁.step v read).run v p).midway v m s).session slot).identity = now.identity := by
  intro v e now hf hname
  have hv : v.Blind := Service.ofStore_blind
  have hd : v.Within Deed := direct_within token lifetime
  have hstart : Orderly e.relay := .start ..
  have hidle : (e.relay.session slot).phase = .disconnecting :=
    congrArg Session.phase (session_start capacity limits store slot)
  obtain ⟨earlier, bs, after, rfl, hnot, hstays⟩ := exists_login hstart hidle hf hname
  obtain ⟨hf₁, hf₂⟩ := freshIds_append.1 hf
  have h₁ := hstart.of_moves (moves_run hd hstart hf₁)
  have h₂ := orderly_step hd h₁ hf₂.1
  -- The read that logs the connection in, and the packet of it that does so.
  obtain ⟨bs', limit, hread, ho, hfits, hserved⟩ := exists_read h₁.wired hnot hstays.now
  cases hread
  have hreceived := (quiet_receive (e.run v earlier).relay slot id bs).traffic.identity slot
  obtain ⟨n, hn, packet, ring, hnext, hgrants, hnone, hlogged⟩ :=
    exists_granted limit (by rwa [Session.nameOf_congr hreceived]) (hserved ▸ hstays.now)
  -- The connection was accepted before, and what it has sent since ends with the read.
  have hlive : ((e.run v earlier).relay.session slot).phase ≠ .disconnecting := by
    obtain ⟨c, hc, -⟩ | hl := step_begins_or hd h₁.wired hstays.phase
    · cases hc
    · exact hl.live
  obtain ⟨before, c, mid, rfl, haccepted, herror, hrest⟩ :=
    exists_accepted hd hv hstart hidle hf₁ (Session.obstacle?_eq_none_iff.1 ho).1 hlive
  obtain ⟨userId, password, username, hdecode, htext, hpassword⟩ := hgrants.request
  have hconsistent := h₁.consistent.of_acts
    (acts_midway token lifetime _ n (.received slot id (.ok bs)))
  obtain ⟨hwhole, hwithin⟩ := identity_of_stays h₂ hf₂.2 hstays
  -- What is known of the connection at the end is what was known after that packet.
  have hnow : now.identity =
      (((e.run v (before ++ .accept c :: mid)).step v
        (.complete (.received slot id (.ok bs)))).relay.session slot).identity := by
    rw [← hwhole after List.prefix_rfl]
    exact congrArg (fun e : Engine Store => (e.relay.session slot).identity) (run_append ..)
  refine ⟨before, c, mid, bs, after, n, packet, ring, userId, password, username, ?_, haccepted,
    getElem?_inflow_of_next? hd herror hrest ho hfits hnext after, hnext, hdecode, htext,
    hgrants.name_ne, ?_, hgrants.free, fun k i hother => ?_, hnone, fun m hm => ?_,
    fun p hp => ?_, fun p s m hp => ?_⟩
  · rw [List.append_assoc, List.cons_append]
  · rw [← hpassword]
    exact (passwordHash?_midway capacity limits store _ n
      (.complete (.received slot id (.ok bs))) _).symm
  · exact absurd (hgrants.free.symm.trans (hconsistent.findName_of_nameOf hother)) nofun
  · rw [hnow, hserved]
    exact (identity_of_served hd hlogged hm).trans (identity_of_served hd hlogged hn).symm
  · exact (hwhole p hp).trans hnow.symm
  · exact (hwithin p s m hp).trans hnow.symm

theorem logged_in_by_request_second_try :
    let login (password : String) :=
      (Packet.loginRequest .blank (.truncated password) (.truncated "ann")).encode
    let steps : List Step := [.accept (.ofPeer none), .complete (.received 0 1 (.ok (login "x"))),
      .complete (.received 0 1 (.ok ((login "").take 50))),
      .complete (.received 0 1 (.ok ((login "").drop 50)))]
    let v := Service.direct (fun _ => "t") 60
    let e := start 1 ⟨128, 128, maxPacketSize, 4⟩ (Store.empty.addUser "" "")
    ((e.run v steps).relay.session 0).nameOf 1 = some "ann" ∧
      ∃ since packet userId password username, packet ∈ (inflow 0 1 since).packets ∧
        Packet.decode packet = .ok (.loginRequest userId password username) ∧
        username.text = "ann" ∧
        (Store.empty.addUser "" "").passwordHash? userId.text =
          some (hashPassword password.text) := by
  intro login steps v e
  have hname : ((e.run v steps).relay.session 0).nameOf 1 = some "ann" := by decide +kernel
  have hfresh : e.FreshIds v steps := freshIds_of_length (direct_within _ _) (by decide)
  obtain ⟨_, _, _, _, _, _, packet, _, userId, password, username, -, -, hpacket, -, hdecode, htext,
    -, hpassword, -⟩ := logged_in_by_request _ _ _ _ _ steps 0 1 "ann" hfresh hname
  exact ⟨hname, _, packet, userId, password, username, List.mem_of_getElem? hpacket, hdecode, htext,
    hpassword⟩

end Engine

end ChatRelay
