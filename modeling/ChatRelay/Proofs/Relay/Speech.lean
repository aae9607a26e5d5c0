import ChatRelay.Proofs.Packet
import ChatRelay.Proofs.Relay.Moves

/-! # What handlers say

Every packet that a handler sends is prompted by the request that it handles. Requests prompt five
kinds of packets; that somebody has left is not among them.
-/

namespace ChatRelay

open Relation (ReflTransGen)

variable {S : Type}

/-- What a request may lead to, for its author or for others, if users go by names in `N`. -/
inductive Packet.Prompts (N : String → Prop) : Packet → Packet → Prop
  | outcome (userId password username : NameField) (result : Outcome) :
      Prompts N (.loginRequest userId password username) (.loginResponse result)
  | joined (userId password username : NameField) :
      Prompts N (.loginRequest userId password username) (.userJoinNotify username)
  | broadcast {name : String} (message : MessageField) : N name →
      Prompts N (.broadcastRequest message) (.broadcastResponse (.truncated name) message)
  | whisper {name : String} (receiver : NameField) (message : MessageField) : N name →
      Prompts N (.whisperRequest receiver message)
        (.whisperResponse .success (.truncated name) message)
  | notFound (receiver : NameField) (message : MessageField) :
      Prompts N (.whisperRequest receiver message)
        (.whisperResponse .userNotFound .blank (.truncated s!"User '{receiver.text}' not found"))

namespace Relay

/-- What a handler may do that sends packets in `P` only and logs nobody in but under names in
`N`. -/
inductive Speaks (P : Bytes → Prop) (N : String → Prop) : Relay S → Relay S → Prop
  | store (r : Relay S) (s : S) (n : Nat) : Speaks P N r { r with store := s, drawn := n }
  | register (r : Relay S) (slot : Nat) (id : SessionId) {name : String} (token : String) :
      name ≠ "" → N name → Speaks P N r (r.register slot id name token).2
  | send (r : Relay S) (slot : Nat) (target : Option SessionId) {packet : Bytes} :
      P packet → Speaks P N r (r.send slot target packet).2

variable {P : Bytes → Prop} {N : String → Prop} {r r' : Relay S}

theorem Speaks.deed (h : Speaks P N r r') : Deed r r' := by
  cases h with
  | store s n => exact .store r s n
  | register slot id token hn _ => exact .register r slot id token hn
  | send slot target _ => exact .send r slot target _

theorem speaks_ofStore {answer : (c : StoreCall) → S → Except StoreError c.Answer × S}
    {token : Nat → String} {lifetime : Nat} :
    (Service.ofStore answer token lifetime).Within (Speaks P N) :=
  fun c r => .single (.store r (answer c r.store).2 r.drawn)

variable {v : Service S} {slot : Nat} {id : SessionId}

theorem reply_speaks (slot : Nat) (id : SessionId) {p : Packet} (hp : P p.encode) (r : Relay S) :
    ReflTransGen (Speaks P N) r (r.reply slot id p) :=
  .single (.send r slot (some id) hp)

theorem broadcast_speaks {packet : Bytes} (hp : P packet) (except : Option Nat) (r : Relay S) :
    ReflTransGen (Speaks P N) r (r.broadcast except packet).2 :=
  broadcast_sends (fun r slot target => .send r slot target hp) except r

theorem answerLogin_speaks (hv : v.Within (Speaks P N)) {userId password username : NameField}
    (hN : N username.text)
    (hP : ∀ q, Packet.Prompts N (.loginRequest userId password username) q → P q.encode)
    (r : Relay S) :
    ReflTransGen (Speaks P N) r (r.answerLogin v slot id userId password username) := by
  have hregister (hn : username.text ≠ "") (r : Relay S) (token : String) :
      Speaks P N r (r.register slot id username.text token).2 := .register r slot id token hn hN
  have hlogin := login_registers hv Speaks.store hregister userId.text password.text r
  set o := r.login v slot id userId.text password.text username.text
  have hreply := hlogin.trans (reply_speaks slot id (hP _ (.outcome _ _ _ o.1)) o.2)
  unfold answerLogin
  dsimp only
  split
  · exact hreply.trans (broadcast_speaks (hP _ (.joined ..)) ..)
  · exact hreply

theorem relayBroadcast_speaks {message : MessageField}
    (hname : ∀ name, (r.session slot).nameOf id = some name → N name)
    (hP : ∀ q, Packet.Prompts N (.broadcastRequest message) q → P q.encode) :
    ReflTransGen (Speaks P N) r (r.relayBroadcast slot id message) := by
  unfold relayBroadcast
  split
  · exact .refl
  · next name hn => exact broadcast_speaks (hP _ (.broadcast message (hname name hn))) ..

theorem relayWhisper_speaks {receiver : NameField} {message : MessageField}
    (hname : ∀ name, (r.session slot).nameOf id = some name → N name)
    (hP : ∀ q, Packet.Prompts N (.whisperRequest receiver message) q → P q.encode) :
    ReflTransGen (Speaks P N) r (r.relayWhisper slot id receiver message) := by
  unfold relayWhisper
  split
  · exact .refl
  · next name hn =>
    have hp := hP _ (.whisper receiver message (hname name hn))
    have hsend : ReflTransGen (Speaks P N) r _ :=
      sendToName_sends (fun r k target => .send r k target hp) receiver.text r
    split
    · next h => rwa [h] at hsend
    · next h =>
      rw [h] at hsend
      exact hsend.trans (reply_speaks slot id (hP _ (.notFound receiver message)) _)

/-- What a handler sends is prompted by the packet that it handles. -/
theorem handle_speaks {packet : Bytes} (hv : v.Within (Speaks P N)) (hN : ∀ f : NameField, N f.text)
    (hname : ∀ name, (r.session slot).nameOf id = some name → N name)
    (hP : ∀ request q, Packet.decode packet = .ok request → Packet.Prompts N request q →
      P q.encode) :
    ReflTransGen (Speaks P N) r (r.handle v slot id packet) := by
  unfold handle
  split
  · next h => exact answerLogin_speaks hv (hN _) (fun q => hP _ q h) r
  · next h => exact relayBroadcast_speaks hname fun q => hP _ q h
  · next h => exact relayWhisper_speaks hname fun q => hP _ q h
  · exact .refl

end Relay

end ChatRelay
