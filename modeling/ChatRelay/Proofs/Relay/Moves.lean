import ChatRelay.Engine
import ChatRelay.Proofs.Relay.Basic
import Mathlib.Logic.Relation

/-! # What may happen to a relay

A handler sends packets, registers a session and asks the store. Completions besides move octets and
end connections, and new connections take slots. Whatever a handler, a completion or an engine does
is a chain of such moves, so what every move preserves holds throughout every run.
-/

namespace ChatRelay

open Relation (ReflTransGen)

variable {S : Type}

namespace Relay

/-- What a handler may do. -/
inductive Deed : Relay S → Relay S → Prop where
  | store (r : Relay S) (s : S) (n : Nat) : Deed r { r with store := s, drawn := n }
  | register (r : Relay S) (slot : Nat) (id : SessionId) {name : String} (token : String) :
      name ≠ "" → Deed r (r.register slot id name token).2
  | send (r : Relay S) (slot : Nat) (target : Option SessionId) (packet : Bytes) :
      Deed r (r.send slot target packet).2

/-- What may happen to the session in `slot`, short of a new connection, and what a handler may do
meanwhile. -/
inductive Act (slot : Nat) : Relay S → Relay S → Prop where
  | deed {r r' : Relay S} : Deed r r' → Act slot r r'
  | acquire {r r' : Relay S} : r.acquire = some (slot, r') → Act slot r r'
  | depart (r : Relay S) (id : SessionId) : Act slot r (r.depart slot id).2
  | release (r : Relay S) : Act slot r (r.release slot)
  | sent (r : Relay S) (id : SessionId) : Act slot r (r.sent slot id)
  | armRead (r : Relay S) (id : SessionId) : Act slot r (r.armRead slot id).2
  | receive (r : Relay S) (id : SessionId) (bs : Bytes) : Act slot r (r.receive slot id bs).2
  | take {r : Relay S} {packet : Bytes} {ring : Ring} :
      (r.session slot).inbound.takePacket = .ok (some (packet, ring)) →
      Act slot r (r.setSession slot { r.session slot with inbound := ring })

/-- No session goes by `id`. -/
def Fresh (r : Relay S) (id : SessionId) : Prop :=
  id ≠ 0 ∧ ∀ k, (r.session k).id ≠ id

theorem fresh_iff {r : Relay S} {id : SessionId} :
    r.Fresh id ↔ id ≠ 0 ∧ ∀ s ∈ r.pool, s.id ≠ id := by
  refine and_congr_right fun hid => ⟨fun h s hs => ?_, fun h k => ?_⟩
  · obtain ⟨k, hk, rfl⟩ := List.getElem_of_mem hs
    rw [← session_eq_getElem hk]
    exact h k
  · rcases Nat.lt_or_ge k r.capacity with hk | hk
    · rw [session_eq_getElem hk]
      exact h _ (List.getElem_mem hk)
    · rw [session_of_capacity_le hk]
      exact hid.symm

instance Fresh.decidable (r : Relay S) (id : SessionId) : Decidable (r.Fresh id) :=
  decidable_of_iff _ fresh_iff.symm

/-- Begins connection `id` in a slot over a link of its own. -/
def begin (r : Relay S) (slot : Nat) (id : SessionId) (l : Link) : Relay S :=
  (r.addLink l).2.connect slot id (r.addLink l).1

theorem session_begin {r : Relay S} {slot : Nat} (h : slot < r.capacity) (id : SessionId) (l : Link)
    (k : Nat) : (r.begin slot id l).session k =
      if slot = k then (r.session k).cleared id .connected (some r.links.length)
      else r.session k := by
  refine (session_setSession r slot k _).trans ?_
  by_cases hk : slot = k
  · subst hk
    rw [if_pos ⟨rfl, h⟩, if_pos rfl]
    rfl
  · rw [if_neg fun h => hk h.1, if_neg hk]

theorem links_begin {r : Relay S} {slot : Nat} (h : (r.session slot).link = none) (id : SessionId)
    (l : Link) : (r.begin slot id l).links = r.links ++ [l] := by
  have hhang : (r.session slot).hangUp (r.links ++ [l]) = r.links ++ [l] := by
    rw [Session.hangUp, h]
  exact hhang

/-- What may happen. A connection begins in a slot that is taken and not in use yet, and has a fresh
id. -/
inductive Move : Relay S → Relay S → Prop where
  | act {r r' : Relay S} {slot : Nat} : Act slot r r' → Move r r'
  | connect {r : Relay S} {slot : Nat} {id : SessionId} (l : Link) :
      (r.session slot).leased = true → (r.session slot).link = none → r.Fresh id →
      Move r (r.begin slot id l)

theorem Deed.move {r r' : Relay S} (h : Deed r r') : Move r r' :=
  .act (@Act.deed _ 0 _ _ h)

end Relay

def Service.Within (v : Service S) (T : Relay S → Relay S → Prop) : Prop :=
  ∀ c r, ReflTransGen T r (v.ask c r).2

theorem Service.Within.mono {T T' : Relay S → Relay S → Prop} {v : Service S} (hv : v.Within T)
    (hT : ∀ r r', T r r' → T' r r') : v.Within T' :=
  fun c r => ReflTransGen.mono hT _ _ (hv c r)

theorem Service.ofStore_within {answer : (c : StoreCall) → S → Except StoreError c.Answer × S}
    {token : Nat → String} {lifetime : Nat} {T : Relay S → Relay S → Prop}
    (hT : ∀ r r', Relay.Deed r r' → T r r') :
    (Service.ofStore answer token lifetime).Within T :=
  fun c r => .single (hT _ _ (.store r (answer c r.store).2 r.drawn))

namespace Relay

variable {T : Relay S → Relay S → Prop} {v : Service S} {r r' : Relay S}

/-! ## What handlers leave alone -/

theorem Deed.capacity_eq (h : Deed r r') : r'.capacity = r.capacity := by
  cases h with
  | store => rfl
  | register => exact capacity_register ..
  | send => exact capacity_send ..

theorem Deed.free_eq (h : Deed r r') : r'.free = r.free := by
  cases h with
  | store => rfl
  | register slot id token _ =>
    rcases register_cases r slot id _ token with ⟨-, he⟩ | ⟨-, -, he⟩ | ⟨s, -, -, he⟩ <;> rw [he]
    rfl
  | send => rfl

theorem Deed.session_eq (h : Deed r r') (k : Nat) :
    ∃ p u t q b, r'.session k = { r.session k with
      phase := p, username := u, token := t, queue := q, sending := b } := by
  cases h with
  | store => exact ⟨_, _, _, _, _, rfl⟩
  | register slot id token _ =>
    obtain ⟨p, u, t, h⟩ := session_register r slot k id _ token
    exact ⟨p, u, t, _, _, h⟩
  | send slot target packet =>
    have h := session_send r slot k target packet
    split at h
    · obtain ⟨q, b, hq⟩ := (r.session k).send_eq target packet r.links
      exact ⟨_, _, _, q, b, h.trans hq⟩
    · exact ⟨_, _, _, _, _, h⟩

structure Traffic (r r' : Relay S) : Prop where
  identity : ∀ k, (r'.session k).identity = (r.session k).identity
  directory : r'.directory = r.directory

theorem traffic_setSession {slot : Nat} {s : Session}
    (h : s.identity = (r.session slot).identity) : Traffic r (r.setSession slot s) :=
  ⟨identity_setSession h, rfl⟩

theorem traffic_send (r : Relay S) (slot : Nat) (target : Option SessionId) (packet : Bytes) :
    Traffic r (r.send slot target packet).2 :=
  ⟨identity_setSession (Session.identity_send target packet), rfl⟩

theorem findId_congr (hi : ∀ k, (r'.session k).identity = (r.session k).identity)
    (hb : r'.directory.byId = r.directory.byId) : r'.findId = r.findId := by
  have hlive (k : Nat) := Session.isLive_congr (hi k)
  funext id
  simp only [findId, hlive, hb]

theorem Traffic.findName_eq (ht : Traffic r r') (name : String) :
    r'.findName name = r.findName name := by
  rw [findName, findName, findId_congr ht.identity (by rw [ht.directory]), ht.directory]

theorem Traffic.trans {r'' : Relay S} (h : Traffic r r') (h' : Traffic r' r'') : Traffic r r'' :=
  ⟨fun k => (h'.identity k).trans (h.identity k), h'.directory.trans h.directory⟩

theorem traffic_sendEach (except : Option Nat) (packet : Bytes) (slots : List Nat) (r : Relay S) :
    Traffic r (sendEach except packet slots r).2 := by
  induction slots generalizing r with
  | nil => exact ⟨fun _ => rfl, rfl⟩
  | cons slot slots ih =>
    unfold sendEach
    split
    · exact ih r
    · exact (traffic_send r slot none packet).trans (ih _)

theorem traffic_broadcast (r : Relay S) (except : Option Nat) (packet : Bytes) :
    Traffic r (r.broadcast except packet).2 :=
  traffic_sendEach ..

/-- A handler changes connections and the directory only by logging somebody in. -/
theorem Deed.traffic_or (h : Deed r r') : Traffic r r' ∨
    ∃ slot id name token, name ≠ "" ∧ r' = (r.register slot id name token).2 := by
  cases h with
  | store => exact .inl ⟨fun _ => rfl, rfl⟩
  | register slot id token hn => exact .inr ⟨slot, id, _, token, hn, rfl⟩
  | send slot target packet => exact .inl (traffic_send ..)

/-- Connections and the directory change by a login, the beginning of a teardown and its end. -/
theorem Act.traffic_or {slot : Nat} (h : Act slot r r') : Traffic r r' ∨
    (∃ j id name token, name ≠ "" ∧ r' = (r.register j id name token).2) ∨
    (∃ id, r' = (r.depart slot id).2) ∨ r' = r.release slot := by
  cases h with
  | deed hd => exact hd.traffic_or.imp_right .inl
  | acquire ha =>
    obtain ⟨free, -, rfl⟩ := acquire_eq_some_iff.1 ha
    have hs : { r.session slot with leased := true }.identity = (r.session slot).identity := rfl
    exact .inl ⟨(traffic_setSession hs).identity, rfl⟩
  | depart id => exact .inr (.inr (.inl ⟨id, rfl⟩))
  | release => exact .inr (.inr (.inr rfl))
  | sent id => exact .inl ⟨identity_setSession (Session.identity_sent id), rfl⟩
  | armRead id => exact .inl ⟨fun _ => rfl, rfl⟩
  | receive id bs =>
    rw [receive_eq_setSession]
    exact .inl (traffic_setSession (Session.identity_receive id bs))
  | take _ => exact .inl (traffic_setSession rfl)

theorem capacity_eq_of_deeds (h : ReflTransGen Deed r r') : r'.capacity = r.capacity := by
  induction h with
  | refl => rfl
  | tail _ hd ih => exact hd.capacity_eq.trans ih

theorem free_eq_of_deeds (h : ReflTransGen Deed r r') : r'.free = r.free := by
  induction h with
  | refl => rfl
  | tail _ hd ih => exact hd.free_eq.trans ih

theorem session_eq_of_deeds (h : ReflTransGen Deed r r') (k : Nat) :
    ∃ p u t q b, r'.session k = { r.session k with
      phase := p, username := u, token := t, queue := q, sending := b } := by
  induction h with
  | refl => exact ⟨_, _, _, _, _, rfl⟩
  | tail _ hd ih =>
    obtain ⟨_, _, _, _, _, h⟩ := ih
    obtain ⟨p, u, t, q, b, h'⟩ := hd.session_eq k
    exact ⟨p, u, t, q, b, by rw [h', h]⟩

/-! ## Handlers -/

section Sending

variable {packet : Bytes} (hsend : ∀ r slot target, T r (r.send slot target packet).2)

include hsend

theorem sendEach_sends (except : Option Nat) (slots : List Nat) (r : Relay S) :
    ReflTransGen T r (sendEach except packet slots r).2 := by
  induction slots generalizing r with
  | nil => exact .refl
  | cons slot slots ih =>
    unfold sendEach
    split
    · exact ih r
    · exact (ReflTransGen.single (hsend r slot none)).trans (ih _)

theorem broadcast_sends (except : Option Nat) (r : Relay S) :
    ReflTransGen T r (r.broadcast except packet).2 :=
  sendEach_sends hsend ..

theorem sendToName_sends (name : String) (r : Relay S) :
    ReflTransGen T r (r.sendToName name packet).2 := by
  unfold sendToName
  split
  · exact .refl
  · exact .single (hsend ..)

end Sending

section Entering

variable (hv : v.Within T)

include hv

theorem dropToken_chain (r : Relay S) (token : String) : ReflTransGen T r (r.dropToken v token) :=
  hv ..

theorem restorePresence_chain (r : Relay S) (name : String) :
    ReflTransGen T r (r.restorePresence v name) := by
  unfold restorePresence
  split
  · exact .refl
  · exact hv ..

variable {slot : Nat} {id : SessionId} {name : String}
  (hregister : ∀ r token, T r (r.register slot id name token).2)

include hregister

theorem enter_registers (token : String) (r : Relay S) :
    ReflTransGen T r (r.enter v slot id name token).2 := by
  unfold enter
  have hask := hv (.setPresence name id) r
  split
  · next h => rw [h] at hask; exact hask.trans (dropToken_chain hv ..)
  · next r₁ h =>
    rw [h] at hask
    have hreg := ReflTransGen.single (hregister r₁ token)
    split
    · next h => rw [h] at hreg; exact hask.trans hreg
    · next h =>
      rw [h] at hreg
      exact ((hask.trans hreg).trans (dropToken_chain hv ..)).trans (restorePresence_chain hv ..)
    · next h =>
      rw [h] at hreg
      exact ((hask.trans hreg).trans (dropToken_chain hv ..)).trans (hv ..)

variable (hstore : ∀ (r : Relay S) s n, T r { r with store := s, drawn := n })

include hstore

theorem grant_registers (user : String) (r : Relay S) :
    ReflTransGen T r (r.grant v slot id user name).2 := by
  unfold grant
  split
  · exact .refl
  · have hask := hv (.createToken (v.token r.drawn) user v.lifetime) { r with drawn := r.drawn + 1 }
    have hdraw := (ReflTransGen.single (hstore r r.store (r.drawn + 1))).trans hask
    dsimp only
    split
    · next h => rw [h] at hdraw; exact hdraw
    · next h => rw [h] at hdraw; exact hdraw.trans (enter_registers hv hregister ..)

omit hregister in
theorem login_registers (hregister : name ≠ "" → ∀ r token, T r (r.register slot id name token).2)
    (user password : String) (r : Relay S) :
    ReflTransGen T r (r.login v slot id user password name).2 := by
  unfold login
  split
  · exact .refl
  · split
    · exact .refl
    · next hn =>
      have hask := hv (.passwordHash user) r
      split
      · next h => rw [h] at hask; exact hask
      · next h => rw [h] at hask; exact hask
      · next h =>
        rw [h] at hask
        split
        · exact hask.trans (grant_registers hv (hregister hn) hstore user _)
        · exact hask

end Entering

section Handlers

variable (hT : ∀ r r', Deed r r' → T r r')

include hT

theorem reply_chain (r : Relay S) (slot : Nat) (id : SessionId) (p : Packet) :
    ReflTransGen T r (r.reply slot id p) :=
  .single (hT _ _ (.send ..))

theorem sendEach_chain (except : Option Nat) (packet : Bytes) (slots : List Nat) (r : Relay S) :
    ReflTransGen T r (sendEach except packet slots r).2 :=
  sendEach_sends (fun _ _ _ => hT _ _ (.send ..)) ..

theorem broadcast_chain (r : Relay S) (except : Option Nat) (packet : Bytes) :
    ReflTransGen T r (r.broadcast except packet).2 :=
  sendEach_chain hT ..

theorem sendToName_chain (r : Relay S) (name : String) (packet : Bytes) :
    ReflTransGen T r (r.sendToName name packet).2 :=
  sendToName_sends (fun _ _ _ => hT _ _ (.send ..)) ..

theorem relayBroadcast_chain (slot : Nat) (id : SessionId) (message : MessageField)
    (r : Relay S) : ReflTransGen T r (r.relayBroadcast slot id message) := by
  unfold relayBroadcast
  split
  · exact .refl
  · exact broadcast_chain hT ..

theorem relayWhisper_chain (slot : Nat) (id : SessionId) (receiver : NameField)
    (message : MessageField) (r : Relay S) :
    ReflTransGen T r (r.relayWhisper slot id receiver message) := by
  unfold relayWhisper
  split
  · exact .refl
  · next name _ =>
    have h := sendToName_chain hT r receiver.text
      (Packet.whisperResponse .success (.truncated name) message).encode
    split
    · next _ hs => rwa [hs] at h
    · next _ hs =>
      rw [hs] at h
      exact h.trans (reply_chain hT ..)

variable (hv : v.Within T)

include hv

variable (slot : Nat) (id : SessionId)

theorem login_chain (user password name : String) (r : Relay S) :
    ReflTransGen T r (r.login v slot id user password name).2 :=
  login_registers hv (fun _ _ _ => hT _ _ (.store ..)) (fun hn _ _ => hT _ _ (.register _ _ _ _ hn))
    ..

theorem answerLogin_chain (userId password username : NameField) (r : Relay S) :
    ReflTransGen T r (r.answerLogin v slot id userId password username) := by
  have h := login_chain hT hv slot id userId.text password.text username.text r
  unfold answerLogin
  dsimp only
  split
  · exact (h.trans (reply_chain hT ..)).trans (broadcast_chain hT ..)
  · exact h.trans (reply_chain hT ..)

theorem handle_chain (packet : Bytes) (r : Relay S) :
    ReflTransGen T r (r.handle v slot id packet) := by
  unfold handle
  split
  · exact answerLogin_chain hT hv slot id ..
  · exact relayBroadcast_chain hT ..
  · exact relayWhisper_chain hT ..
  · exact .refl

end Handlers

/-! ## Completions -/

section Teardown

variable {slot : Nat} (hv : v.Within T) (id : SessionId)

include hv

theorem forget_chain (name : String) (token : Option String) (r : Relay S) :
    ReflTransGen T r (r.forget v name token) := by
  unfold forget
  dsimp only
  split
  · exact (hv ..).trans (hv ..)
  · exact hv ..

theorem disconnect_ends (hdeed : ∀ r r', Deed r r' → T r r')
    (hdepart : ∀ r, T r (r.depart slot id).2) (hrelease : ∀ r, T r (r.release slot))
    (announced : Bool) (r : Relay S) : ReflTransGen T r (r.disconnect v slot id announced) := by
  have hdepart := ReflTransGen.single (hdepart r)
  unfold disconnect
  split
  · exact .refl
  · next d r₁ h =>
    rw [h] at hdepart
    split
    · exact hdepart.tail (hrelease _)
    · next name _ =>
      have hforget := hdepart.trans (forget_chain hv name d.token r₁)
      have hrelease := hforget.tail (hrelease _)
      dsimp only
      split
      · exact hrelease.trans (broadcast_chain hdeed ..)
      · exact hrelease

end Teardown

theorem disconnect_chain {slot : Nat} (hT : ∀ r r', Act slot r r' → T r r') (hv : v.Within T)
    (id : SessionId) (announced : Bool) (r : Relay S) :
    ReflTransGen T r (r.disconnect v slot id announced) :=
  disconnect_ends hv id (fun _ _ hd => hT _ _ (.deed hd)) (fun r => hT _ _ (.depart r id))
    (fun r => hT _ _ (.release r)) announced r

theorem serve_takes {slot : Nat} {id : SessionId}
    (htake : ∀ {r : Relay S} {packet ring}, (r.session slot).obstacle? id = none →
      (r.session slot).inbound.takePacket = .ok (some (packet, ring)) →
      T r (r.setSession slot { r.session slot with inbound := ring }))
    (hhandle : ∀ packet r, ReflTransGen T r (r.handle v slot id packet)) (limit : Nat)
    (r : Relay S) : ReflTransGen T r (r.serve v slot id limit).2 := by
  induction limit generalizing r with
  | zero => exact .refl
  | succ limit ih =>
    unfold Relay.serve
    split
    · exact .refl
    · next ho =>
      split
      · exact .refl
      · exact .refl
      · next packet ring h =>
        have hrest := (ReflTransGen.head (htake ho h) (hhandle packet _)).trans (ih _)
        dsimp only
        split
        · next h => rw [h] at hrest; exact hrest
        · next h => rw [h] at hrest; exact hrest

/-- What completions for connection `id` of `slot` are made of stays within `T`. -/
structure Parts (T : Relay S → Relay S → Prop) (v : Service S) (slot : Nat) (id : SessionId) :
    Prop where
  take {r : Relay S} {packet : Bytes} {ring : Ring} : (r.session slot).obstacle? id = none →
    (r.session slot).inbound.takePacket = .ok (some (packet, ring)) →
    T r (r.setSession slot { r.session slot with inbound := ring })
  handle (packet : Bytes) (r : Relay S) : ReflTransGen T r (r.handle v slot id packet)
  receive (bs : Bytes) (r : Relay S) : T r (r.receive slot id bs).2
  armRead (r : Relay S) : T r (r.armRead slot id).2
  sent (r : Relay S) : T r (r.sent slot id)
  disconnect (announced : Bool) (r : Relay S) :
    ReflTransGen T r (r.disconnect v slot id announced)

theorem parts_of_acts {slot : Nat} (hT : ∀ r r', Act slot r r' → T r r') (hv : v.Within T)
    (id : SessionId) : Parts T v slot id where
  take _ h := hT _ _ (.take h)
  handle := handle_chain (fun r r' h => hT r r' (.deed h)) hv slot id
  receive bs r := hT _ _ (.receive r id bs)
  armRead r := hT _ _ (.armRead r id)
  sent r := hT _ _ (.sent r id)
  disconnect := disconnect_chain hT hv id

namespace Parts

variable {slot : Nat} {id : SessionId} (hp : Parts T v slot id)

include hp

theorem serve (limit : Nat) (r : Relay S) : ReflTransGen T r (r.serve v slot id limit).2 :=
  serve_takes hp.take hp.handle limit r

theorem drain (r : Relay S) : ReflTransGen T r (r.drain v slot id).2 :=
  hp.serve ..

end Parts

end Relay

def Completion.connection : Completion → Nat × SessionId
  | .received slot id _ => (slot, id)
  | .sent slot id _ => (slot, id)

namespace Engine

open Relay

variable {T : Relay S → Relay S → Prop} {v : Service S}

section

variable {slot : Nat} {id : SessionId} (hp : Parts T v slot id)

include hp

theorem disconnect_parts (e : Engine S) : ReflTransGen T e.relay (e.disconnect v slot id).relay :=
  hp.disconnect ..

theorem afterRead_parts (result : Except String Bytes) (e : Engine S) :
    ReflTransGen T e.relay (e.afterRead v slot id result).relay := by
  unfold afterRead
  split
  · exact disconnect_parts hp e
  · exact disconnect_parts hp e
  · next bs _ =>
    have hreceive := ReflTransGen.single (hp.receive bs e.relay)
    split
    · next r h =>
      rw [h] at hreceive
      dsimp only
      split
      · exact hreceive.trans (disconnect_parts hp { e with relay := r })
      · exact hreceive
    · next r h =>
      rw [h] at hreceive
      have hdrain := hreceive.trans (hp.drain r)
      split
      · next r' h =>
        rw [h] at hdrain
        exact hdrain.trans (disconnect_parts hp { e with relay := r' })
      · next r' h =>
        rw [h] at hdrain
        have harm := hdrain.tail (hp.armRead r')
        split
        · next h => rw [h] at harm; exact harm
        · next err r'' h =>
          rw [h] at harm
          dsimp only
          split
          · exact harm.trans (disconnect_parts hp { e with relay := r'' })
          · exact harm

theorem afterWrite_parts (result : Except String Nat) (e : Engine S) :
    ReflTransGen T e.relay (e.afterWrite v slot id result).relay := by
  unfold afterWrite
  split
  · exact .single (hp.sent _)
  · exact disconnect_parts hp e

end

theorem complete_parts {c : Completion} (hp : Parts T v c.connection.1 c.connection.2)
    (e : Engine S) : ReflTransGen T e.relay (e.complete v c).relay := by
  unfold complete
  split
  · split
    · exact afterRead_parts hp ..
    · exact .refl
  · split
    · exact afterWrite_parts hp ..
    · exact .refl

theorem endAll_parts
    (hd : ∀ slot id announced r, ReflTransGen T r (r.disconnect v slot id announced))
    (slots : List Nat) (e : Engine S) : ReflTransGen T e.relay (e.endAll v slots).relay := by
  induction slots generalizing e with
  | nil => exact .refl
  | cons slot slots ih =>
    unfold endAll
    dsimp only
    split
    · exact ih e
    · exact (hd slot _ e.running e.relay).trans (ih (e.disconnect v slot _))

theorem complete_chain (hv : v.Within T) (c : Completion)
    (hT : ∀ r r', Act c.connection.1 r r' → T r r') (e : Engine S) :
    ReflTransGen T e.relay (e.complete v c).relay :=
  complete_parts (parts_of_acts hT hv _) e

theorem endAll_chain (hv : v.Within T) (hT : ∀ slot r r', Act slot r r' → T r r')
    (slots : List Nat) (e : Engine S) : ReflTransGen T e.relay (e.endAll v slots).relay :=
  endAll_parts (fun slot id => disconnect_chain (hT slot) hv id) slots e

end Engine

end ChatRelay
