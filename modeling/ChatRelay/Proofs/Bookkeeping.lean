import ChatRelay.Proofs.Relay.Leases
import ChatRelay.Proofs.Relay.Settled
import ChatRelay.Proofs.Transcript

/-! # Bookkeeping

Sessions, directory, store and pool are kept apart and updated one after another. When a step is
over they agree: who is logged in is in the directory and online and holds a token, and whoever is
not served leaves a slot in the pool. An engine that is stopped has given everything back.
-/

namespace ChatRelay

open Relation (ReflTransGen)

namespace Relay

variable {token : Nat → String} {lifetime : Nat} {r r' : Relay Store} {slot k : Nat}
  {id : SessionId}

/-! ## Completions -/

/-- What completions are made of, if nothing comes between: traffic, logins and teardowns. -/
inductive Stride (token : Nat → String) (lifetime : Nat) : Relay Store → Relay Store → Prop where
  | quiet {r r' : Relay Store} : Quiet r r' → Stride token lifetime r r'
  | attempt (r : Relay Store) (a : Attempt) :
      Stride token lifetime r (r.attempt (.direct token lifetime) a)
  | disconnect (r : Relay Store) (slot : Nat) (id : SessionId) (announced : Bool) :
      Stride token lifetime r (r.disconnect (.direct token lifetime) slot id announced)

theorem handle_strides (packet : Bytes) (r : Relay Store) :
    ReflTransGen (Stride token lifetime) r
      (r.handle (.direct token lifetime) slot id packet) := by
  unfold handle
  split
  · next user password name _ => exact .single (.attempt r ⟨slot, id, user, password, name⟩)
  · exact .single (.quiet (quiet_relayBroadcast ..))
  · exact .single (.quiet (quiet_relayWhisper ..))
  · exact .refl

theorem strides_parts (token : Nat → String) (lifetime slot : Nat) (id : SessionId) :
    Parts (Stride token lifetime) (.direct token lifetime) slot id where
  take ho _ := .quiet (quiet_withInbound (Session.obstacle?_eq_none_iff.1 ho).2 _)
  handle := handle_strides
  receive bs r := .quiet (quiet_receive r slot id bs)
  armRead r := .quiet (quiet_armRead r slot id)
  sent r := .quiet (quiet_sent r slot id)
  disconnect announced r := .single (.disconnect r slot id announced)

theorem drawn_le_attempt (token : Nat → String) (lifetime : Nat) (r : Relay Store) (a : Attempt) :
    r.drawn ≤ (r.attempt (.direct token lifetime) a).drawn := by
  rw [(quiet_attempt ..).drawn]
  exact (verdict_settles ..).drawn_le

theorem drawn_capacity_disconnect (token : Nat → String) (lifetime : Nat) (r : Relay Store)
    (slot : Nat) (id : SessionId) (announced : Bool) :
    (r.disconnect (.direct token lifetime) slot id announced).drawn = r.drawn ∧
      (r.disconnect (.direct token lifetime) slot id announced).capacity = r.capacity := by
  by_cases hlive : (r.session slot).id = id ∧ (r.session slot).isLive = true
  · obtain ⟨name, b, he⟩ := disconnect_direct token lifetime hlive.1 hlive.2 announced
    have hq := quiet_farewell ((r.departed slot).release slot) name b
    rw [he, hq.drawn, hq.capacity, capacity_release]
    exact ⟨drawn_release .., capacity_setSession ..⟩
  · rw [disconnect_of_not_live hlive]
    exact ⟨rfl, rfl⟩

theorem Stride.drawn_le (hs : Stride token lifetime r r') : r.drawn ≤ r'.drawn := by
  cases hs with
  | quiet hq => exact Nat.le_of_eq hq.drawn.symm
  | attempt a => exact drawn_le_attempt ..
  | disconnect slot id announced => exact Nat.le_of_eq (drawn_capacity_disconnect ..).1.symm

theorem drawn_le_of_strides (hs : ReflTransGen (Stride token lifetime) r r') :
    r.drawn ≤ r'.drawn := by
  induction hs with
  | refl => exact Nat.le_refl _
  | tail _ hlast ih => exact Nat.le_trans ih hlast.drawn_le

theorem Distinct.mono {m n : Nat} (h : Distinct token n) (hm : m ≤ n) : Distinct token m :=
  fun i j hij hj => h i j hij (Nat.lt_of_lt_of_le hj hm)

namespace Settled

variable (h : Settled token r)

include h

theorem stride (hs : Stride token lifetime r r') (hd : Distinct token r'.drawn) :
    Settled token r' := by
  cases hs with
  | quiet hq => exact h.quiet hq
  | attempt a => exact h.attempt a hd
  | disconnect slot id announced => exact h.disconnect slot id announced

theorem strides (hs : ReflTransGen (Stride token lifetime) r r') (hd : Distinct token r'.drawn) :
    Settled token r' := by
  -- Tokens are told apart at the end, so those drawn until any stride before it are, too.
  induction hs with
  | refl => exact h
  | tail _ hlast ih => exact (ih (hd.mono hlast.drawn_le)).stride hlast hd

end Settled

/-! ## Counting -/

/-- Who is logged in is in the directory, online and holds a token; sessions that are served and
slots in the pool add up. -/
structure Balanced (r : Relay Store) : Prop where
  presence : ∀ name id, r.store.presence? name = some id ↔
    ∃ k, (r.session k).isAuthenticated = true ∧ (r.session k).username = name ∧
      (r.session k).id = id
  tokens : ∀ t, r.store.tokens.contains t = true ↔
    ∃ k, (r.session k).isAuthenticated = true ∧ (r.session k).token = some t
  token : ∀ k, (r.session k).isAuthenticated = true ↔ (r.session k).token.isSome
  token_injective : ∀ j k t, (r.session j).token = some t → (r.session k).token = some t → j = k
  authenticated : r.authenticated = r.pool.countP Session.isAuthenticated
  available : r.available + r.pool.countP Session.isLive = r.capacity

structure Deserted (r : Relay Store) : Prop where
  vacant : ∀ k < r.capacity, (r.session k).Vacant
  available : r.available = r.capacity
  authenticated : r.authenticated = 0
  tokens : r.store.tokens.size = 0
  presence : r.store.presence.size = 0

namespace Settled

variable (h : Settled token r)

include h

theorem mem_byId_iff :
    k ∈ r.directory.byId.values ↔ (r.session k).isAuthenticated = true := by
  have hc := h.orderly.consistent
  rw [Table.mem_values_iff, hc.isAuthenticated_iff]
  constructor
  · rintro ⟨id, hid⟩
    have hn := (hc.byId id k hid).2
    rw [← hc.isLive_iff hn]
    by_contra hlive
    have hk := lt_capacity_of_link (hc.link_of_username hn)
    have hvacant := h.tidy.vacant_of_not_live hk (Bool.eq_false_iff.2 hlive)
    rw [hvacant.2] at hn
    exact hn rfl
  · exact fun hp => ⟨_, (hc.listed k hp).2⟩

theorem authenticated_eq : r.authenticated = r.pool.countP Session.isAuthenticated := by
  have hc := h.orderly.consistent
  have hnodup : r.directory.byId.values.Nodup := Table.nodup_values fun i j k hi hj =>
    (hc.byId i k hi).1.symm.trans (hc.byId j k hj).1
  have hperm : r.directory.byId.values.Perm
      ((List.range r.capacity).filter fun k => (r.session k).isAuthenticated) := by
    refine (List.perm_ext_iff_of_nodup hnodup (List.nodup_range.filter _)).2 fun k => ?_
    rw [h.mem_byId_iff, List.mem_filter, List.mem_range]
    refine (and_iff_right_of_imp fun ha => ?_).symm
    exact lt_capacity_of_isLive (Session.isLive_of_isAuthenticated ha)
  have hsize : r.authenticated = r.directory.byId.values.length := by
    rw [authenticated, Table.size, Table.values, List.length_map]
  rw [hsize, hperm.length_eq, countP_pool]

theorem mem_free_iff : k ∈ r.free ↔ k < r.capacity ∧ (r.session k).isLive = false := by
  constructor
  · intro hmem
    have hk := h.orderly.wired.free_lt k hmem
    have hleased := h.orderly.wired.free_unleased k hmem
    exact ⟨hk, (h.tidy.vacant_of_not_leased hk hleased).not_live⟩
  · rintro ⟨hk, hlive⟩
    obtain ⟨-, hmem⟩ | ⟨-, hlive'⟩ := h.tidy k hk
    · exact hmem
    · cases hlive.symm.trans hlive'

theorem available_add_live : r.available + r.pool.countP Session.isLive = r.capacity :=
  available_add_countP h.orderly.wired.free_nodup fun _ => h.mem_free_iff

theorem balanced : Balanced r := by
  have hc := h.orderly.consistent
  have htoken (k : Nat) : (r.session k).isAuthenticated = true ↔ (r.session k).token.isSome :=
    hc.isAuthenticated_iff.trans (h.ledger.held k).symm
  constructor
  case presence =>
    intro name id
    rw [h.agrees name, Option.map_eq_some_iff]
    simp only [hc.findName_eq_some_iff, and_assoc]
  case tokens =>
    intro t
    rw [h.ledger.stored]
    refine exists_congr fun k => (and_iff_right_of_imp fun ht => ?_).symm
    rw [htoken, ht]
    rfl
  case token => exact htoken
  case token_injective => exact h.ledger.injective
  case authenticated => exact h.authenticated_eq
  case available => exact h.available_add_live

theorem deserted (hp : ∀ k < r.capacity, (r.session k).phase = .disconnecting) : Deserted r := by
  have hlive (k : Nat) : (r.session k).isLive = false := by
    refine Bool.eq_false_iff.2 fun hlive => ?_
    exact (Session.isLive_iff.1 hlive).2 (hp k (lt_capacity_of_isLive hlive))
  have hnobody (k : Nat) : (r.session k).isAuthenticated = false := by
    refine Bool.eq_false_iff.2 fun ha => ?_
    cases (hlive k).symm.trans (Session.isLive_of_isAuthenticated ha)
  have hcount {p : Session → Bool} (hp : ∀ k, p (r.session k) = false) : r.pool.countP p = 0 := by
    rw [countP_pool, List.length_eq_zero_iff, List.filter_eq_nil_iff]
    exact fun k _ => Bool.not_eq_true _ ▸ hp k
  have hb := h.balanced
  constructor
  case vacant => exact fun k hk => h.tidy.vacant_of_not_live hk (hlive k)
  case available => rw [← hb.available, hcount hlive, Nat.add_zero]
  case authenticated => rw [hb.authenticated, hcount hnobody]
  case tokens =>
    rw [Table.size_eq_zero_iff]
    intro t
    by_contra hne
    obtain ⟨k, ha, -⟩ := (hb.tokens t).1 (Option.isSome_iff_ne_none.2 hne)
    cases (hnobody k).symm.trans ha
  case presence =>
    rw [Table.size_eq_zero_iff]
    intro name
    by_contra hne
    obtain ⟨id, hid⟩ := Option.ne_none_iff_exists'.1 hne
    obtain ⟨k, ha, -⟩ := (hb.presence name id).1 hid
    cases (hnobody k).symm.trans ha

end Settled

end Relay

namespace Engine

open Relay

variable {token : Nat → String} {lifetime : Nat} {e : Engine Store}

/-! ## Runs -/

theorem settled_accept (h : Settled token e.relay) {c : Incoming}
    (hf : e.FreshFor (.accept c)) : Settled token (e.accept c).2.relay := by
  obtain he | ⟨slot, r, ha, hcases⟩ := e.accept_cases c
  · rwa [he]
  obtain ⟨-, hlink, hi⟩ := h.orderly.wired.acquired ha
  have hfresh : r.Fresh e.allocate.1 :=
    ⟨hf.1, fun k hk => hf.2 k ((congrArg Identity.id (hi k)).symm.trans hk)⟩
  have hr := h.acquire ha
  have hserved (l : Link) := (hr.begin hlink hfresh l).quiet (quiet_armRead _ slot e.allocate.1)
  -- No link can be made, the first read is asked for, or it cannot be.
  obtain he | ⟨l, he | he⟩ := hcases
  · rw [he]
    exact hr.release h
  · rw [he]
    refine (hserved l).settled h ?_
    rw [session_armRead, session_begin (lt_capacity_of_leased hr.leased), if_pos rfl]
    rfl
  · rw [he]
    exact (hserved l).release h

theorem drawn_accept (e : Engine Store) (c : Incoming) :
    (e.accept c).2.relay.drawn = e.relay.drawn := by
  obtain he | ⟨slot, r, ha, hcases⟩ := e.accept_cases c
  · rw [he]
  obtain ⟨free, -, hr⟩ := acquire_eq_some_iff.1 ha
  have hdrawn : r.drawn = e.relay.drawn := by rw [hr]; rfl
  obtain he | ⟨l, he | he⟩ := hcases
  · rw [he, drawn_release, hdrawn]
  · rw [he]
    exact hdrawn
  · rw [he, drawn_release]
    exact hdrawn

theorem complete_strides (e : Engine Store) (c : Completion) :
    ReflTransGen (Stride token lifetime) e.relay
      (e.complete (.direct token lifetime) c).relay :=
  complete_parts (strides_parts ..) e

theorem endAll_strides (slots : List Nat) (e : Engine Store) :
    ReflTransGen (Stride token lifetime) e.relay
      (e.endAll (.direct token lifetime) slots).relay :=
  endAll_parts (fun slot id announced r => .single (.disconnect r slot id announced)) slots e

theorem drawn_capacity_endAll (token : Nat → String) (lifetime : Nat) (slots : List Nat)
    (e : Engine Store) :
    (e.endAll (.direct token lifetime) slots).relay.drawn = e.relay.drawn ∧
      (e.endAll (.direct token lifetime) slots).relay.capacity = e.relay.capacity := by
  induction slots generalizing e with
  | nil => exact ⟨rfl, rfl⟩
  | cons slot slots ih =>
    unfold endAll
    dsimp only
    split
    · exact ih e
    · set id := (e.relay.session slot).id
      have hslot := drawn_capacity_disconnect token lifetime e.relay slot id e.running
      obtain ⟨hdrawn, hcapacity⟩ := ih (e.disconnect (.direct token lifetime) slot _)
      exact ⟨hdrawn.trans hslot.1, hcapacity.trans hslot.2⟩

theorem drawn_le_step (token : Nat → String) (lifetime : Nat) (e : Engine Store) (s : Step) :
    e.relay.drawn ≤ (e.step (.direct token lifetime) s).relay.drawn := by
  cases s with
  | accept c => exact Nat.le_of_eq (drawn_accept e c).symm
  | complete c => exact drawn_le_of_strides (complete_strides e c)
  | halt => exact Nat.le_refl _
  | stop => exact drawn_le_of_strides (endAll_strides _ e.halt)

theorem drawn_le_run (token : Nat → String) (lifetime : Nat) (steps : List Step)
    (e : Engine Store) : e.relay.drawn ≤ (e.run (.direct token lifetime) steps).relay.drawn := by
  induction steps generalizing e with
  | nil => exact Nat.le_refl _
  | cons s steps ih => exact Nat.le_trans (drawn_le_step token lifetime e s) (ih _)

theorem settled_step (h : Settled token e.relay) {s : Step} (hf : e.FreshFor s)
    (hd : Distinct token (e.step (.direct token lifetime) s).relay.drawn) :
    Settled token (e.step (.direct token lifetime) s).relay := by
  cases s with
  | accept c => exact settled_accept h hf
  | complete c => exact h.strides (complete_strides e c) hd
  | halt => exact h
  | stop => exact h.strides (endAll_strides _ e.halt) hd

theorem settled_run {steps : List Step} (h : Settled token e.relay)
    (hf : e.FreshIds (.direct token lifetime) steps)
    (hd : Distinct token (e.run (.direct token lifetime) steps).relay.drawn) :
    Settled token (e.run (.direct token lifetime) steps).relay := by
  induction steps generalizing e with
  | nil => exact h
  | cons s steps ih =>
    have hstep := settled_step h hf.1 (hd.mono (drawn_le_run token lifetime steps _))
    exact ih hstep hf.2 hd

/-- An engine that is stopped serves nobody and has given everything back. -/
theorem deserted_stop (h : Settled token e.relay) (hd : Distinct token e.relay.drawn) :
    Deserted (e.stop (.direct token lifetime)).relay := by
  obtain ⟨hdrawn, hcapacity⟩ :=
    drawn_capacity_endAll token lifetime (List.range e.relay.capacity) e.halt
  have hstop : Settled token (e.stop (.direct token lifetime)).relay :=
    h.strides (endAll_strides _ e.halt) (hdrawn ▸ hd)
  refine hstop.deserted fun k hk => ?_
  exact disconnecting_stop (direct_within token lifetime) h.orderly.consistent (hcapacity ▸ hk)

/-- If no id is given out that is in use and no token is drawn twice, then sessions, directory,
store and pool agree after every run, and once the engine is stopped nothing is left in them. -/
theorem run_balanced {capacity : Nat} {limits : Limits} {store : Store} (token : Nat → String)
    (lifetime : Nat) (steps : List Step) (ht : store.tokens.size = 0)
    (hp : store.presence.size = 0) :
    let v := Service.direct token lifetime
    let e := (start capacity limits store).run v steps
    (start capacity limits store).FreshIds v steps → Distinct token e.relay.drawn →
      Balanced e.relay ∧ Deserted (e.stop v).relay := by
  intro v e hf hd
  have h : Settled token e.relay := settled_run (.start capacity limits ht hp) hf hd
  exact ⟨h.balanced, deserted_stop h hd⟩

theorem run_balanced_turnover :
    let token (n : Nat) := String.ofList (List.replicate n 't')
    let v := Service.direct token 60
    let login := (Packet.loginRequest .blank .blank (.truncated "ann")).encode
    let e₀ := start 2 ⟨128, 128, maxPacketSize, 4⟩ (Store.empty.addUser "" "")
    let steps : List Step := [.accept (.ofPeer none), .accept (.ofPeer none),
      .complete (.received 1 2 (.ok [])), .accept (.ofPeer none),
      .complete (.sent 1 2 (.error "gone")), .complete (.received 0 1 (.ok login)),
      .complete (.received 0 1 (.ok login))]
    let e := e₀.run v steps
    Balanced e.relay ∧ Deserted (e.stop v).relay ∧
      e.relay.store.presence? "ann" = some 1 ∧ e.relay.drawn = 1 ∧ e.relay.available = 0 := by
  intro token v login e₀ steps e
  have hdistinct (n : Nat) : Distinct token n := by
    intro i j hij _ heq
    have hlength := congrArg String.length heq
    simp only [token, String.length_ofList, List.length_replicate] at hlength
    exact Nat.ne_of_lt hij hlength
  have hfresh : e₀.FreshIds v steps := freshIds_of_length (direct_within token 60) (by decide)
  obtain ⟨hbalanced, hdeserted⟩ := run_balanced token 60 steps rfl rfl hfresh (hdistinct _)
  refine ⟨hbalanced, hdeserted, ?_⟩
  decide +kernel

end Engine

end ChatRelay
