import ChatRelay.Proofs.Relay.Moves

/-! # Handlers do not see what is buffered

What a handler does is the same whatever a session's ring holds, and it leaves every ring alone.
-/

namespace ChatRelay

open Relation (ReflTransGen)

variable {S : Type}

theorem Session.send_inbound (s : Session) (ring : Ring) (target : Option SessionId)
    (packet : Bytes) (ls : Links) :
    { s with inbound := ring }.send target packet ls =
      ((s.send target packet ls).1, { (s.send target packet ls).2.1 with inbound := ring },
        (s.send target packet ls).2.2) := by
  obtain ⟨limits, leased, inbound, queue, sending, id, phase, username, token, link⟩ := s
  let t (ring : Ring) : Session :=
    ⟨limits, leased, ring, queue, sending, id, phase, username, token, link⟩
  change (t ring).send target packet ls = (((t inbound).send target packet ls).1,
    { ((t inbound).send target packet ls).2.1 with inbound := ring },
    ((t inbound).send target packet ls).2.2)
  have haccepts : (t ring).accepts target packet = (t inbound).accepts target packet := rfl
  unfold send
  rw [haccepts]
  cases link with
  | none => rfl
  | some l => cases (t inbound).accepts target packet <;> cases sending <;> rfl

theorem Session.authenticate_inbound (s : Session) (ring : Ring) (id : SessionId)
    (name token : String) :
    { s with inbound := ring }.authenticate id name token =
      (s.authenticate id name token).map fun s => { s with inbound := ring } := by
  unfold authenticate
  split <;> rfl

namespace Relay

variable {r : Relay S} {slot : Nat} {ring : Ring}

def withInbound (r : Relay S) (slot : Nat) (ring : Ring) : Relay S :=
  r.setSession slot { r.session slot with inbound := ring }

theorem withInbound_of_capacity_le (h : r.capacity ≤ slot) (ring : Ring) :
    r.withInbound slot ring = r := by
  have hset (s : Session) : r.pool.set slot s = r.pool := List.set_eq_of_length_le h
  simp [withInbound, setSession, hset]

theorem session_withInbound_ne {k : Nat} (h : slot ≠ k) (ring : Ring) :
    (r.withInbound slot ring).session k = r.session k :=
  session_setSession_ne h _

theorem session_withInbound_self (h : slot < r.capacity) (ring : Ring) :
    (r.withInbound slot ring).session slot = { r.session slot with inbound := ring } :=
  session_setSession_self h _

theorem session_withInbound (r : Relay S) (slot k : Nat) (ring : Ring) :
    ∃ ring', (r.withInbound slot ring).session k = { r.session k with inbound := ring' } := by
  rw [withInbound, session_setSession]
  split
  · next h => exact ⟨ring, by rw [h.1]⟩
  · exact ⟨_, rfl⟩

theorem withInbound_withInbound (r : Relay S) (slot : Nat) (ring ring' : Ring) :
    (r.withInbound slot ring).withInbound slot ring' = r.withInbound slot ring' := by
  rcases Nat.lt_or_ge slot r.capacity with h | h
  · rw [withInbound, session_withInbound_self h, withInbound, setSession_setSession, withInbound]
  · rw [withInbound_of_capacity_le h]

@[simp] theorem withInbound_inbound (r : Relay S) (slot : Nat) :
    r.withInbound slot (r.session slot).inbound = r :=
  setSession_session r slot

theorem setSession_withInbound_self (r : Relay S) (slot : Nat) (ring : Ring) (s : Session) :
    (r.withInbound slot ring).setSession slot { s with inbound := ring } =
      (r.setSession slot s).withInbound slot ring := by
  rcases Nat.lt_or_ge slot r.capacity with h | h
  · rw [withInbound, withInbound, setSession_setSession, session_setSession_self h,
      setSession_setSession]
  · have hset (s : Session) : r.pool.set slot s = r.pool := List.set_eq_of_length_le h
    simp [withInbound, setSession, hset]

theorem setSession_withInbound_ne {k : Nat} (h : slot ≠ k) (ring : Ring) (s : Session) :
    (r.withInbound slot ring).setSession k s = (r.setSession k s).withInbound slot ring := by
  rw [withInbound, withInbound, session_setSession_ne (Ne.symm h), setSession_comm _ h]

/-! ## Reading -/

@[simp] theorem isLive_withInbound (r : Relay S) (slot k : Nat) (ring : Ring) :
    ((r.withInbound slot ring).session k).isLive = (r.session k).isLive := by
  obtain ⟨ring', h⟩ := session_withInbound r slot k ring
  rw [h]; rfl

@[simp] theorem nameOf_withInbound (r : Relay S) (slot k : Nat) (ring : Ring) (id : SessionId) :
    ((r.withInbound slot ring).session k).nameOf id = (r.session k).nameOf id := by
  obtain ⟨ring', h⟩ := session_withInbound r slot k ring
  rw [h]; rfl

@[simp] theorem id_withInbound (r : Relay S) (slot k : Nat) (ring : Ring) :
    ((r.withInbound slot ring).session k).id = (r.session k).id := by
  obtain ⟨ring', h⟩ := session_withInbound r slot k ring
  rw [h]

@[simp] theorem findId_withInbound (r : Relay S) (slot : Nat) (ring : Ring) (id : SessionId) :
    (r.withInbound slot ring).findId id = r.findId id := by
  simp only [findId, isLive_withInbound]
  rfl

@[simp] theorem findName_withInbound (r : Relay S) (slot : Nat) (ring : Ring) (name : String) :
    (r.withInbound slot ring).findName name = r.findName name := by
  have h : (r.withInbound slot ring).findId = r.findId := funext (findId_withInbound r slot ring)
  simp only [findName, h]
  rfl

/-! ## Sending -/

theorem send_withInbound (r : Relay S) (slot k : Nat) (ring : Ring) (target : Option SessionId)
    (packet : Bytes) :
    (r.withInbound slot ring).send k target packet =
      ((r.send k target packet).1, (r.send k target packet).2.withInbound slot ring) := by
  have hlinks : (r.withInbound slot ring).links = r.links := rfl
  rcases Nat.lt_or_ge slot r.capacity with hs | hs
  · by_cases hk : slot = k
    · subst hk
      simp only [send, session_withInbound_self hs, hlinks, Session.send_inbound, put,
        setSession_withInbound_self]
      rfl
    · simp only [send, session_withInbound_ne hk, hlinks, put, setSession_withInbound_ne hk]
      rfl
  · rw [withInbound_of_capacity_le hs, withInbound_of_capacity_le (by simpa using hs)]

theorem reply_withInbound (r : Relay S) (slot k : Nat) (ring : Ring) (id : SessionId)
    (p : Packet) :
    (r.withInbound slot ring).reply k id p = (r.reply k id p).withInbound slot ring := by
  rw [reply, send_withInbound, reply]

theorem sendEach_withInbound (slot : Nat) (ring : Ring) (except : Option Nat) (packet : Bytes)
    (slots : List Nat) (r : Relay S) :
    sendEach except packet slots (r.withInbound slot ring) =
      ((sendEach except packet slots r).1,
        (sendEach except packet slots r).2.withInbound slot ring) := by
  induction slots generalizing r with
  | nil => rfl
  | cons k slots ih =>
    simp only [sendEach, isLive_withInbound]
    split
    · exact ih r
    · simp only [send_withInbound, ih]

theorem broadcast_withInbound (r : Relay S) (slot : Nat) (ring : Ring) (except : Option Nat)
    (packet : Bytes) :
    (r.withInbound slot ring).broadcast except packet =
      ((r.broadcast except packet).1, (r.broadcast except packet).2.withInbound slot ring) :=
  sendEach_withInbound ..

theorem sendToName_withInbound (r : Relay S) (slot : Nat) (ring : Ring) (name : String)
    (packet : Bytes) :
    (r.withInbound slot ring).sendToName name packet =
      ((r.sendToName name packet).1, (r.sendToName name packet).2.withInbound slot ring) := by
  unfold sendToName
  rw [findName_withInbound]
  split <;> simp only [send_withInbound]

/-! ## Logging in -/

theorem register_withInbound (r : Relay S) (slot k : Nat) (ring : Ring) (id : SessionId)
    (name token : String) :
    (r.withInbound slot ring).register k id name token =
      ((r.register k id name token).1,
        (r.register k id name token).2.withInbound slot ring) := by
  unfold register
  rw [findName_withInbound]
  split
  · rfl
  · rcases Nat.lt_or_ge slot r.capacity with hs | hs
    · by_cases hk : slot = k
      · subst hk
        rw [session_withInbound_self hs, Session.authenticate_inbound]
        cases (r.session slot).authenticate id name token with
        | none => rfl
        | some s => simp only [Option.map_some, setSession_withInbound_self]; rfl
      · rw [session_withInbound_ne hk]
        cases (r.session k).authenticate id name token with
        | none => rfl
        | some s => simp only [setSession_withInbound_ne hk]; rfl
    · rw [withInbound_of_capacity_le hs, withInbound_of_capacity_le]
      split <;> simpa [capacity, setSession] using hs

end Relay

/-- What happens while the store is asked does not see what is buffered. -/
def Service.Blind (v : Service S) : Prop :=
  ∀ c r slot ring, v.ask c (r.withInbound slot ring) =
    ((v.ask c r).1, (v.ask c r).2.withInbound slot ring)

theorem Service.ofStore_blind {answer : (c : StoreCall) → S → Except StoreError c.Answer × S}
    {token : Nat → String} {lifetime : Nat} : (Service.ofStore answer token lifetime).Blind :=
  fun _ _ _ _ => rfl

namespace Relay

section

variable {v : Service S} (hv : v.Blind) (slot : Nat) (ring : Ring)

include hv

theorem dropToken_withInbound (r : Relay S) (token : String) :
    (r.withInbound slot ring).dropToken v token = (r.dropToken v token).withInbound slot ring := by
  rw [dropToken, hv, dropToken]

theorem restorePresence_withInbound (r : Relay S) (name : String) :
    (r.withInbound slot ring).restorePresence v name =
      (r.restorePresence v name).withInbound slot ring := by
  unfold restorePresence
  rw [findName_withInbound]
  split
  · rfl
  · rw [id_withInbound, hv]

theorem enter_withInbound (k : Nat) (id : SessionId) (name token : String) (r : Relay S) :
    (r.withInbound slot ring).enter v k id name token =
      ((r.enter v k id name token).1, (r.enter v k id name token).2.withInbound slot ring) := by
  unfold enter
  rw [hv]
  rcases v.ask (.setPresence name id) r with ⟨_ | _, r₁⟩
  · simp only [dropToken_withInbound hv]
  · simp only [register_withInbound]
    rcases r₁.register k id name token with ⟨(_ | _) | _, r₂⟩
    · simp only [dropToken_withInbound hv, restorePresence_withInbound hv]
    · simp only [dropToken_withInbound hv, hv _ _ slot ring]
    · rfl

theorem grant_withInbound (k : Nat) (id : SessionId) (user name : String) (r : Relay S) :
    (r.withInbound slot ring).grant v k id user name =
      ((r.grant v k id user name).1, (r.grant v k id user name).2.withInbound slot ring) := by
  have hask : v.ask (.createToken (v.token (r.withInbound slot ring).drawn) user v.lifetime)
      { r.withInbound slot ring with drawn := (r.withInbound slot ring).drawn + 1 } = _ :=
    hv (.createToken (v.token r.drawn) user v.lifetime) { r with drawn := r.drawn + 1 } slot ring
  unfold grant
  rw [findName_withInbound]
  split
  · rfl
  · dsimp only
    rw [hask]
    rcases v.ask (.createToken (v.token r.drawn) user v.lifetime) { r with drawn := r.drawn + 1 }
      with ⟨_ | _, r₁⟩
    · rfl
    · exact enter_withInbound hv ..

theorem login_withInbound (k : Nat) (id : SessionId) (user password name : String)
    (r : Relay S) :
    (r.withInbound slot ring).login v k id user password name =
      ((r.login v k id user password name).1,
        (r.login v k id user password name).2.withInbound slot ring) := by
  unfold login
  rw [nameOf_withInbound, hv]
  split
  · rfl
  · split
    · rfl
    · rcases v.ask (.passwordHash user) r with ⟨_ | _ | _, r₁⟩
      · rfl
      · rfl
      · dsimp only
        split
        · exact grant_withInbound hv ..
        · rfl

theorem answerLogin_withInbound (k : Nat) (id : SessionId) (userId password username : NameField)
    (r : Relay S) :
    (r.withInbound slot ring).answerLogin v k id userId password username =
      (r.answerLogin v k id userId password username).withInbound slot ring := by
  simp only [answerLogin, login_withInbound hv, reply_withInbound, broadcast_withInbound]
  split <;> rfl

omit hv in
theorem relayBroadcast_withInbound (k : Nat) (id : SessionId) (message : MessageField)
    (r : Relay S) :
    (r.withInbound slot ring).relayBroadcast k id message =
      (r.relayBroadcast k id message).withInbound slot ring := by
  unfold relayBroadcast
  rw [nameOf_withInbound]
  split
  · rfl
  · rw [broadcast_withInbound]

omit hv in
theorem relayWhisper_withInbound (k : Nat) (id : SessionId) (receiver : NameField)
    (message : MessageField) (r : Relay S) :
    (r.withInbound slot ring).relayWhisper k id receiver message =
      (r.relayWhisper k id receiver message).withInbound slot ring := by
  unfold relayWhisper
  rw [nameOf_withInbound]
  split
  · rfl
  · next name _ =>
    rw [sendToName_withInbound]
    rcases r.sendToName receiver.text
      (Packet.whisperResponse .success (.truncated name) message).encode with ⟨_ | _, r₁⟩
    · exact reply_withInbound ..
    · rfl

/-- Handling a packet and exchanging a ring can be done in either order. -/
theorem handle_withInbound (k : Nat) (id : SessionId) (packet : Bytes) (r : Relay S) :
    (r.withInbound slot ring).handle v k id packet =
      (r.handle v k id packet).withInbound slot ring := by
  unfold handle
  split
  · exact answerLogin_withInbound hv ..
  · exact relayBroadcast_withInbound ..
  · exact relayWhisper_withInbound ..
  · rfl

end

end Relay

end ChatRelay
