import ChatRelay.Proofs.Relay.Teardown
import ChatRelay.Proofs.Runs

/-! # Names that are taken over

A name is free as soon as its owner's teardown begins, and others may log in while the store is told
that the owner has left. Whoever takes the name over before its presence is cleared goes offline in
the store's eyes, and everybody is told of a departure after the new owner has joined.
-/

namespace ChatRelay

open Relation (ReflTransGen)

def Relay.attempts {S : Type} (v : Service S) (r : Relay S) (as : List Attempt) : Relay S :=
  as.foldl (Relay.attempt v) r

/-- The service `v`, but others log in before and after every call does its work. -/
def Service.amid {S : Type} (v : Service S) (before after : StoreCall → List Attempt) :
    Service S where
  ask c r :=
    let (a, r) := v.ask c (r.attempts v (before c))
    (a, r.attempts v (after c))
  token := v.token
  lifetime := v.lifetime

namespace Relay

variable {token : Nat → String} {lifetime : Nat} {before after : StoreCall → List Attempt}
  {r r' : Relay Store} {slot j k : Nat} {id : SessionId} {name : String}

/-- What happens while a user is forgotten: others log in, and the store does its work. -/
inductive Interlude (v : Service Store) : Relay Store → Relay Store → Prop where
  | attempt (r : Relay Store) (a : Attempt) : Interlude v r (r.attempt v a)
  | store (r : Relay Store) (s : Store) : Interlude v r { r with store := s }

theorem attempts_chain (v : Service Store) (as : List Attempt) (r : Relay Store) :
    ReflTransGen (Interlude v) r (r.attempts v as) := by
  induction as generalizing r with
  | nil => exact .refl
  | cons a as ih => exact .head (.attempt r a) (ih _)

theorem amid_within (token : Nat → String) (lifetime : Nat)
    (before after : StoreCall → List Attempt) :
    ((Service.direct token lifetime).amid before after).Within
      (Interlude (.direct token lifetime)) := by
  intro c r
  have hbefore := attempts_chain (.direct token lifetime) (before c) r
  exact (hbefore.tail (.store _ _)).trans (attempts_chain _ (after c) _)

theorem deeds_of_interludes (hi : ReflTransGen (Interlude (.direct token lifetime)) r r') :
    ReflTransGen Deed r r' := by
  induction hi with
  | refl => exact .refl
  | tail _ hi ih =>
    cases hi with
    | attempt a => exact ih.trans (attempt_deeds (direct_within token lifetime) _ a)
    | store s => exact ih.tail (.store _ s _)

/-! ## Presence -/

def Online (r : Relay Store) (name : String) : Prop :=
  ∀ k, r.findName name = some k → r.store.presence? name = some (r.session k).id

theorem Online.attempt (ho : r.Online name) (h : Orderly r) (a : Attempt) :
    (r.attempt (.direct token lifetime) a).Online name := by
  intro k hk
  cases hf : r.findName name with
  | none => exact (attempt_of_free h.consistent hf hk).2.2
  | some j =>
    obtain ⟨hj, hid⟩ := findName_of_deeds h (attempt_deeds (direct_within token lifetime) r a) hf
    obtain rfl : j = k := Option.some.inj (hj.symm.trans hk)
    rw [presence_attempt_of_found hf, hid]
    exact ho j hf

theorem Online.attempts (ho : r.Online name) (h : Orderly r) (as : List Attempt) :
    (r.attempts (.direct token lifetime) as).Online name := by
  induction as generalizing r with
  | nil => exact ho
  | cons a as ih =>
    have hd := attempt_deeds (direct_within token lifetime) r a
    exact ih (ho.attempt h a) (h.of_deeds hd)

theorem presence_attempts_of_found (h : Orderly r) (hk : r.findName name = some k)
    (as : List Attempt) :
    (r.attempts (.direct token lifetime) as).store.presence? name = r.store.presence? name := by
  induction as generalizing r with
  | nil => rfl
  | cons a as ih =>
    have hd := attempt_deeds (direct_within token lifetime) r a
    exact (ih (h.of_deeds hd) (findName_of_deeds h hd hk).1).trans (presence_attempt_of_found hk)

/-- The relay when the presence of a user is cleared, whose token is forgotten first. -/
def clearing {S : Type} (v : Service S) (before after : StoreCall → List Attempt) (name : String)
    (token : Option String) (r : Relay S) : Relay S :=
  let r :=
    match token with
    | some t => ((v.amid before after).ask (.deleteToken t) r).2
    | none => r
  r.attempts v (before (.clearPresence name))

theorem clearing_chain (drawn : Option String) (r : Relay Store) :
    ReflTransGen (Interlude (.direct token lifetime)) r
      (r.clearing (.direct token lifetime) before after name drawn) := by
  unfold clearing
  dsimp only
  split
  · exact (amid_within ..).trans (attempts_chain ..)
  · exact attempts_chain ..

/-- Who goes by the name in the end is online, unless somebody went by it when it was cleared. -/
theorem presence_forget_iff (h : Orderly r) (drawn : Option String)
    (hk : (r.forget ((Service.direct token lifetime).amid before after) name drawn).findName name =
      some k) :
    (r.forget ((Service.direct token lifetime).amid before after) name drawn).store.presence? name =
        some ((r.forget ((Service.direct token lifetime).amid before after) name
          drawn).session k).id ↔
      (r.clearing (.direct token lifetime) before after name drawn).findName name = none := by
  set v := Service.direct token lifetime
  set r₁ := r.clearing v before after name drawn
  set r₂ : Relay Store := { r₁ with store := (r₁.store.clearPresence name).2 } with hr₂
  have hforget : r.forget (v.amid before after) name drawn =
      r₂.attempts v (after (.clearPresence name)) := by
    cases drawn <;> rfl
  have h₁ : Orderly r₁ := h.of_deeds (deeds_of_interludes (clearing_chain drawn r))
  have h₂ : Orderly r₂ := (Deed.store r₁ _ r₁.drawn).orderly h₁
  have hsame : r₂.findName name = r₁.findName name := rfl
  have hcleared : r₂.store.presence? name = none := by
    rw [hr₂, Store.presence?_clearPresence, if_pos rfl]
  rw [hforget] at hk ⊢
  constructor
  · intro honline
    by_contra hne
    obtain ⟨j, hj⟩ := Option.ne_none_iff_exists'.1 hne
    rw [presence_attempts_of_found h₂ (hsame.trans hj), hcleared] at honline
    cases honline
  · intro hf
    have honline : r₂.Online name := fun j hj => by
      cases hf.symm.trans (hsame.symm.trans hj)
    exact honline.attempts h₂ _ k hk

/-! ## News -/

/-- Whoever hears is told of everybody who takes a free name meanwhile. -/
theorem tells_of_interludes {receiver : String} (h : Orderly r) (hr : r.Hears k receiver)
    (hf : r.findName name = none)
    (hi : ReflTransGen (Interlude (.direct token lifetime)) r r') (hroom : r'.Room k) :
    ∃ news, Tells r r' k news ∧ ∀ j, r'.findName name = some j →
      ∃ a : Attempt, a.username.text = name ∧ a.notice ∈ news := by
  induction hi with
  | refl =>
    refine ⟨[], Tells.nil rfl, fun j hj => ?_⟩
    cases hf.symm.trans hj
  | @tail m r' hm hi ih =>
    have hd := deeds_of_interludes hm
    have h' := h.of_deeds hd
    have hr' := hr.of_deeds h hd
    have hlast := deeds_of_interludes (.single hi)
    obtain ⟨news, ht, hjoin⟩ := ih (hroom.of_deeds h' hr'.willing hlast)
    cases hi with
    | attempt a =>
      obtain ⟨more, ht', hmore⟩ := tells_attempt h' hr' hroom
      refine ⟨news ++ more, ht.trans ht', fun j hj => ?_⟩
      cases hfm : m.findName name with
      | none =>
        obtain ⟨hs, htext, -⟩ := attempt_of_free h'.consistent hfm hj
        exact ⟨a, htext, List.mem_append_right _ (hmore hs)⟩
      | some i =>
        obtain ⟨a', htext, hmem⟩ := hjoin i hfm
        exact ⟨a', htext, List.mem_append_left _ hmem⟩
    | store s => exact ⟨news, ⟨ht.outgoing, ht.stays⟩, hjoin⟩

/-! ## Teardown -/

theorem forget_of_disconnect {v : Service Store} (h : Consistent r)
    (hx : (r.session slot).nameOf id = some name) {announced : Bool}
    (hk : (r.disconnect v slot id announced).findName name = some k) :
    let r' := (r.depart slot id).2.forget v name (r.session slot).token
    Consistent r' → r'.findName name = some k ∧
      ((r.disconnect v slot id announced).session k).id = (r'.session k).id ∧
      (r.disconnect v slot id announced).store = r'.store := by
  intro r' h'
  rw [disconnect_eq v h hx] at hk ⊢
  have ht := traffic_farewell (r'.release slot) name announced
  obtain ⟨hne, hk'⟩ := h'.findName_of_release ((ht.findName_eq name).symm.trans hk)
  refine ⟨hk', ?_, ?_⟩
  · rw [← session_release_ne (r := r') hne]
    exact congrArg Identity.id (ht.identity k)
  · rw [store_farewell, store_release]

section

variable (h : Orderly r) (hx : (r.session slot).nameOf id = some name) (announced : Bool)
  (hk : (r.disconnect ((Service.direct token lifetime).amid before after) slot id
    announced).findName name = some k)

include h hx hk

theorem presence_disconnect_iff :
    (r.disconnect ((Service.direct token lifetime).amid before after) slot id
        announced).store.presence? name =
      some ((r.disconnect ((Service.direct token lifetime).amid before after) slot id
        announced).session k).id ↔
      ((r.depart slot id).2.clearing (.direct token lifetime) before after name
        (r.session slot).token).findName name = none := by
  have h₁ : Orderly (r.depart slot id).2 := (Move.act (.depart r id)).orderly h
  have hforget := forget_chain (amid_within token lifetime before after) name
    (r.session slot).token (r.depart slot id).2
  have h₂ := h₁.of_deeds (deeds_of_interludes hforget)
  obtain ⟨hk', hid, hstore⟩ := forget_of_disconnect h.consistent hx hk h₂.consistent
  rw [hid, hstore]
  exact presence_forget_iff h₁ _ hk'

theorem tells_disconnect {receiver : String} (hne : slot ≠ j) (hr : r.Hears j receiver)
    (hroom : (r.disconnect ((Service.direct token lifetime).amid before after) slot id
      announced).Room j) :
    ∃ (a : Attempt) (told : List Bytes), a.username.text = name ∧ a.notice ∈ told ∧
      (∀ user, (Packet.userLeaveNotify user).encode ∉ told) ∧
      (r.disconnect ((Service.direct token lifetime).amid before after) slot id
        announced).outgoing j = r.outgoing j ++ told ++
          if announced then [(Packet.userLeaveNotify (.truncated name)).encode] else [] := by
  have h₁ : Orderly (r.depart slot id).2 := (Move.act (.depart r id)).orderly h
  have hforget := forget_chain (amid_within token lifetime before after) name
    (r.session slot).token (r.depart slot id).2
  have hdeeds := deeds_of_interludes hforget
  have h₂ := h₁.of_deeds hdeeds
  obtain ⟨hk', -, -⟩ := forget_of_disconnect h.consistent hx hk h₂.consistent
  obtain ⟨hr₁, hout₁⟩ := hr.depart hne id
  have hr₂ := hr₁.of_deeds h₁ hdeeds
  obtain ⟨hr₃, hout₃⟩ := hr₂.release h₂.wired hne
  have h₃ := (Move.act (@Act.release _ slot _)).orderly h₂
  rw [disconnect_eq _ h.consistent hx] at hroom ⊢
  have hroom₃ := hroom.of_deeds h₃ hr₃.willing (farewell_deeds ..)
  rw [Room, session_release_ne hne] at hroom₃
  obtain ⟨told, ht, hjoin⟩ := tells_of_interludes h₁ hr₁ (h.consistent.findName_depart hx)
    hforget hroom₃
  obtain ⟨a, htext, hmem⟩ := hjoin k hk'
  refine ⟨a, told, htext, hmem, ht.stays, ?_⟩
  rw [hr₃.outgoing_farewell h₃ announced hroom, hout₃, ht.outgoing, hout₁]

end

/-- Somebody else who goes by the name of a user when the user's teardown is over is online if and
only if nobody went by it when its presence was cleared. Whoever else hears is told that somebody
has joined under the name, and after that, if departures are announced, that the name has left. -/
theorem takeOver_online_iff {capacity : Nat} {limits : Limits} {store : Store}
    (token : Nat → String) (lifetime : Nat) (before after : StoreCall → List Attempt)
    (hm : ReflTransGen Move (.start capacity limits store) r)
    (hx : (r.session slot).nameOf id = some name) (announced : Bool) :
    let v := Service.direct token lifetime
    let r' := r.disconnect (v.amid before after) slot id announced
    r'.findName name = some k →
    (r'.store.presence? name = some (r'.session k).id ↔
      ((r.depart slot id).2.clearing v before after name (r.session slot).token).findName name =
        none) ∧
    ∀ j receiver, slot ≠ j → r.Hears j receiver → r'.Room j →
      ∃ (a : Attempt) (told : List Bytes), a.username.text = name ∧ a.notice ∈ told ∧
        (∀ user, (Packet.userLeaveNotify user).encode ∉ told) ∧
        r'.outgoing j = r.outgoing j ++ told ++
          if announced then [(Packet.userLeaveNotify (.truncated name)).encode] else [] := by
  intro v r' hk
  have h : Orderly r := (Orderly.start ..).of_moves hm
  exact ⟨presence_disconnect_iff h hx announced hk,
    fun j receiver hne hr hroom => tells_disconnect h hx announced hk hne hr hroom⟩

def crowd : Engine Store :=
  let login (name : String) := (Packet.loginRequest .blank .blank (.truncated name)).encode
  (Engine.start 3 ⟨128, 128, maxPacketSize, 4⟩ (Store.empty.addUser "" "")).run
    (.direct (fun n => String.ofList (List.replicate n 't')) 60)
    [.accept (.ofPeer none), .accept (.ofPeer none), .accept (.ofPeer none),
      .complete (.received 0 1 (.ok (login "ann"))),
      .complete (.received 2 3 (.ok (login "bob")))]

def newcomer : StoreCall → List Attempt
  | .clearPresence _ => [⟨1, 2, .blank, .blank, .truncated "ann"⟩]
  | _ => []

theorem crowd_reachable :
    ReflTransGen Move (.start 3 ⟨128, 128, maxPacketSize, 4⟩ (Store.empty.addUser "" ""))
      crowd.relay :=
  Engine.moves_run_start (direct_within _ _) (by decide)

theorem takeOver_online_iff_after_clear :
    let v := Service.direct (fun n => String.ofList (List.replicate n 't')) 60
    let r' := crowd.relay.disconnect (v.amid (fun _ => []) newcomer) 0 1 true
    r'.findName "ann" = some 1 ∧ r'.store.presence? "ann" = some (r'.session 1).id ∧
      ∃ (a : Attempt) (told : List Bytes), a.username.text = "ann" ∧ a.notice ∈ told ∧
        (∀ user, (Packet.userLeaveNotify user).encode ∉ told) ∧
        r'.outgoing 2 = crowd.relay.outgoing 2 ++ told ++
          [(Packet.userLeaveNotify (.truncated "ann")).encode] := by
  intro v r'
  have hrun : ((crowd.relay.session 0).nameOf 1 = some "ann" ∧ r'.findName "ann" = some 1 ∧
      ((crowd.relay.depart 0 1).2.clearing v (fun _ => []) newcomer "ann"
        (crowd.relay.session 0).token).findName "ann" = none) ∧
      crowd.relay.Hears 2 "bob" ∧ r'.Room 2 := by
    decide +kernel
  obtain ⟨⟨hx, hk, hfree⟩, hr, hroom⟩ := hrun
  have hiff := takeOver_online_iff _ 60 _ newcomer crowd_reachable hx true hk
  exact ⟨hk, hiff.1.2 hfree, hiff.2 2 "bob" (by decide) hr hroom⟩

theorem takeOver_offline_before_clear :
    let v := Service.direct (fun n => String.ofList (List.replicate n 't')) 60
    let r' := crowd.relay.disconnect (v.amid newcomer (fun _ => [])) 0 1 true
    ReflTransGen Move (.start 3 ⟨128, 128, maxPacketSize, 4⟩ (Store.empty.addUser "" ""))
      crowd.relay ∧
      (crowd.relay.session 0).nameOf 1 = some "ann" ∧ r'.findName "ann" = some 1 ∧
      r'.store.presence? "ann" = none ∧
      r'.outgoing 2 = crowd.relay.outgoing 2 ++ [(Packet.userJoinNotify (.truncated "ann")).encode,
        (Packet.userLeaveNotify (.truncated "ann")).encode] := by
  refine ⟨crowd_reachable, ?_⟩
  decide +kernel

end Relay

end ChatRelay
