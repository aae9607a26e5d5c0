import ChatRelay.Proofs.Relay.Chat
import ChatRelay.Proofs.Relay.Ending

/-! # Who has said what is heard

All the chat that somebody is told is said by the packets that are handled meanwhile, each of them
under the name of the connection that has sent it. Logins and teardowns add no chat to that, and
neither does anything else.
-/

namespace ChatRelay

open Relation (ReflTransGen)

variable {S : Type}

namespace Packet

def isChat (packet : Bytes) : Bool :=
  match decode packet with
  | .ok (.broadcastResponse ..) | .ok (.whisperResponse .success ..) => true
  | _ => false

def isBroadcast (packet : Bytes) : Bool :=
  match decode packet with
  | .ok (.broadcastRequest _) => true
  | _ => false

theorem Prompts.isChat_eq_false {N : String → Prop} {userId password username : NameField}
    {q : Packet} (h : Prompts N (.loginRequest userId password username) q) :
    isChat q.encode = false := by
  cases h <;> simp [isChat]

end Packet

namespace Relay

variable {v : Service S} {r r' r'' : Relay S} {slot k : Nat} {id : SessionId} {receiver : String}
  {chat chat' : List Bytes}

/-- What connection `id` of `slot` says with a packet to `k`, who goes by `receiver`. Nobody is told
of broadcasts of their own. -/
def says? (r : Relay S) (slot : Nat) (id : SessionId) (k : Nat) (receiver : String)
    (packet : Bytes) : Option Bytes :=
  match (r.session slot).nameOf id with
  | none => none
  | some sender =>
    if slot = k ∧ Packet.isBroadcast packet = true then none
    else Packet.relayed? sender receiver packet

/-- What connection `id` of `slot` says to `k` with packets that are handled one after another, each
under the name that the connection has by then. -/
def speech (v : Service S) (slot : Nat) (id : SessionId) (k : Nat) (receiver : String) :
    List Bytes → Relay S → List Bytes
  | [], _ => []
  | packet :: packets, r =>
    (r.says? slot id k receiver packet).toList ++
      speech v slot id k receiver packets (r.handle v slot id packet)

/-- The packets of connection `id` of `slot` that `bs` completes, if it is taken in. -/
def completed (r : Relay S) (slot : Nat) (id : SessionId) (bs : Bytes) : List Bytes :=
  if bs ≠ [] ∧ (r.session slot).obstacle? id = none ∧
      bs.length ≤ (r.session slot).inbound.free then
    (r.framing slot bs).packets
  else []

/-- Whoever hears in `k` still does. Room that is left was there before, and if there is some, `k` is
told more, of which `chat` is chat. -/
structure Told (chat : List Bytes) (r r' : Relay S) (k : Nat) (receiver : String) : Prop where
  hears : r'.Hears k receiver
  room : r'.Room k → r.Room k
  outgoing : r'.Room k →
    ∃ new, r'.outgoing k = r.outgoing k ++ new ∧ new.filter Packet.isChat = chat

theorem told_of_eq (hears : r'.Hears k receiver) (hout : r'.outgoing k = r.outgoing k)
    (hroom : r'.Room k → r.Room k) : Told [] r r' k receiver :=
  ⟨hears, hroom, fun _ => ⟨[], hout.trans (List.append_nil _).symm, rfl⟩⟩

theorem Told.refl (hr : r.Hears k receiver) : Told [] r r k receiver :=
  told_of_eq hr rfl fun hroom => hroom

theorem Told.trans (h : Told chat r r' k receiver) (h' : Told chat' r' r'' k receiver) :
    Told (chat ++ chat') r r'' k receiver := by
  refine ⟨h'.hears, fun hroom => h.room (h'.room hroom), fun hroom => ?_⟩
  obtain ⟨new, hnew, hchat⟩ := h.outgoing (h'.room hroom)
  obtain ⟨more, hmore, hchat'⟩ := h'.outgoing hroom
  refine ⟨new ++ more, ?_, ?_⟩
  · rw [hmore, hnew, List.append_assoc]
  · rw [List.filter_append, hchat, hchat']

theorem Told.quiet (h : Told chat r r' k receiver) (h' : Told [] r' r'' k receiver) :
    Told chat r r'' k receiver := by
  simpa using h.trans h'

theorem Spared.told (hs : Spared r r' k) (hr : r.Hears k receiver) : Told [] r r' k receiver := by
  obtain ⟨hears, hout⟩ := hr.frame hs.session hs.link
  refine told_of_eq hears hout fun hroom => ?_
  rwa [Room, hs.session] at hroom

/-! ## Packets -/

theorem Speaks.outgoing {P : Bytes → Prop} {N : String → Prop} (hs : Speaks P N r r')
    (h : Wired r) (hw : r.Willing k) :
    ∃ new, r'.outgoing k = r.outgoing k ++ new ∧ ∀ p ∈ new, P p := by
  have hsame {r' : Relay S} (h : r'.outgoing k = r.outgoing k) :
      ∃ new, r'.outgoing k = r.outgoing k ++ new ∧ ∀ p ∈ new, P p :=
    ⟨[], h.trans (List.append_nil _).symm, nofun⟩
  cases hs with
  | store => exact hsame rfl
  | register slot id token _ _ => exact hsame (outgoing_register ..)
  | @send slot target packet hp =>
    by_cases hslot : slot = k
    · subst hslot
      obtain hout | hout := outgoing_send_self_or h hw target packet
      · exact hsame hout
      · exact ⟨[packet], hout, fun p hmem => List.mem_singleton.1 hmem ▸ hp⟩
    · exact hsame (outgoing_send_ne h hslot target packet)

/-- Who speaks, but not of chat, adds no chat to what anybody is told. -/
theorem told_of_speaks {N : String → Prop}
    (hs : ReflTransGen (Speaks (fun p => Packet.isChat p = false) N) r r') (h : Orderly r)
    (hr : r.Hears k receiver) : Told [] r r' k receiver := by
  induction hs with
  | refl => exact .refl hr
  | tail hfirst hlast ih =>
    have h' := h.of_deeds (ReflTransGen.mono (fun _ _ hs => Speaks.deed hs) _ _ hfirst)
    have hdeed := ReflTransGen.single hlast.deed
    obtain ⟨new, hnew, hnone⟩ := hlast.outgoing h'.wired ih.hears.willing
    refine ih.quiet ⟨ih.hears.of_deeds h' hdeed,
      fun hroom => hroom.of_deeds h' ih.hears.willing hdeed, fun _ => ⟨new, hnew, ?_⟩⟩
    rw [List.filter_eq_nil_iff]
    exact fun p hp => by rw [hnone p hp]; exact Bool.false_ne_true

section

variable (h : Orderly r) (hr : r.Hears k receiver)

include h hr

theorem told_of_deeds {new : List Bytes} (hd : ReflTransGen Deed r r')
    (hnew : r'.Room k → r'.outgoing k = r.outgoing k ++ new) :
    Told (new.filter Packet.isChat) r r' k receiver :=
  ⟨hr.of_deeds h hd, fun hroom => hroom.of_deeds h hr.willing hd,
    fun hroom => ⟨new, hnew hroom, rfl⟩⟩

theorem told_answerLogin (hv : v.Mute) (slot : Nat) (id : SessionId)
    (userId password username : NameField) :
    Told [] r (r.answerLogin v slot id userId password username) k receiver :=
  told_of_speaks (answerLogin_speaks (N := fun _ => True) (Service.Mute.speaks hv) trivial
    (fun _ hq => hq.isChat_eq_false) r) h hr

theorem told_relayBroadcast {sender : String} (hs : (r.session slot).nameOf id = some sender)
    (message : MessageField) :
    Told (if slot = k then []
        else [(Packet.broadcastResponse (.truncated sender) message).encode])
      r (r.relayBroadcast slot id message) k receiver := by
  split
  · next hk =>
    unfold relayBroadcast
    simp only [hs]
    exact (spared_broadcast h (.inl (congrArg some hk))).told hr
  · next hk =>
    have htold := told_of_deeds h hr (relayBroadcast_chain (fun _ _ hd => hd) slot id message r)
      (outgoing_relayBroadcast h hk hs hr message)
    simpa [Packet.isChat] using htold

theorem told_relayWhisper {sender : String} (hs : (r.session slot).nameOf id = some sender)
    (addressee : NameField) (message : MessageField) :
    Told (if addressee.text = receiver then
        [(Packet.whisperResponse .success (.truncated sender) message).encode] else [])
      r (r.relayWhisper slot id addressee message) k receiver := by
  let p := Packet.whisperResponse .success (.truncated sender) message
  have hsend := sendToName_chain (fun _ _ hd => hd) r addressee.text p.encode
  have hsent := told_of_deeds h hr hsend fun hroom =>
    hr.outgoing_sendToName h addressee.text p (hroom.of_deeds h hr.willing hsend)
  have hchat : (if addressee.text = receiver then [p.encode] else []).filter Packet.isChat =
      if addressee.text = receiver then [p.encode] else [] := by
    split <;> simp [p, Packet.isChat]
  rw [hchat] at hsent
  obtain he | ⟨text, he⟩ := relayWhisper_or hs addressee message <;> rw [he]
  · exact hsent
  · have hreply : Packet.isChat
        (Packet.whisperResponse .userNotFound .blank text).encode = false := by
      simp [Packet.isChat]
    exact hsent.quiet (told_of_speaks (reply_speaks (N := fun _ => True) slot id hreply _)
      (h.of_deeds hsend) hsent.hears)

/-- The chat that a packet adds to what is heard is what the packet says. -/
theorem told_handle (hv : v.Mute) (slot : Nat) (id : SessionId) (packet : Bytes) :
    Told (r.says? slot id k receiver packet).toList r (r.handle v slot id packet) k receiver := by
  have hsilent (hno : ∀ sender, Packet.relayed? sender receiver packet = none) :
      (r.says? slot id k receiver packet).toList = [] := by
    unfold says?
    split
    · rfl
    · rw [hno, ite_self]
      rfl
  unfold handle
  cases hp : Packet.decode packet with
  | error e =>
    rw [hsilent fun sender => by simp [Packet.relayed?, hp]]
    exact .refl hr
  | ok p =>
    cases p with
    | loginRequest userId password username =>
      rw [hsilent fun sender => by simp [Packet.relayed?, hp]]
      exact told_answerLogin h hr hv slot id userId password username
    | broadcastRequest message =>
      cases hn : (r.session slot).nameOf id with
      | none =>
        simp only [says?, hn, relayBroadcast]
        exact .refl hr
      | some sender =>
        have htold := told_relayBroadcast h hr hn message
        simp only [says?, hn, Packet.isBroadcast, hp, and_true, Packet.relayed?]
        split
        · next hk => rwa [if_pos hk] at htold
        · next hk => rwa [if_neg hk] at htold
    | whisperRequest addressee message =>
      cases hn : (r.session slot).nameOf id with
      | none =>
        simp only [says?, hn, relayWhisper]
        exact .refl hr
      | some sender =>
        have htold := told_relayWhisper h hr hn addressee message
        simp only [says?, hn, Packet.isBroadcast, hp, Bool.false_eq_true, and_false, if_false,
          Packet.relayed?]
        split
        · next hto => rwa [if_pos hto] at htold
        · next hto => rwa [if_neg hto] at htold
    | loginResponse | broadcastResponse | whisperResponse | userJoinNotify | userLeaveNotify =>
      rw [hsilent fun sender => by simp [Packet.relayed?, hp]]
      exact .refl hr

end

theorem told_handleAll (hv : v.Mute) (h : Orderly r) (hr : r.Hears k receiver) (slot : Nat)
    (id : SessionId) (packets : List Bytes) :
    Told (r.speech v slot id k receiver packets) r (r.handleAll v slot id packets) k receiver := by
  induction packets generalizing r with
  | nil => exact .refl hr
  | cons packet packets ih =>
    have hfirst := told_handle h hr hv slot id packet
    have h' := h.of_deeds (handle_deeds (Service.Mute.deed hv) slot id packet r)
    rw [handleAll_cons]
    exact hfirst.trans (ih h' hfirst.hears)

/-! ## Reads, writes and teardowns -/

theorem told_withInbound (hr : r.Hears k receiver) (slot : Nat) (ring : Ring) :
    Told [] r (r.withInbound slot ring) k receiver := by
  obtain ⟨ring', hs⟩ := session_withInbound r slot k ring
  refine told_of_eq ⟨?_, ?_, ?_, ?_⟩ (outgoing_withInbound ..) fun hroom => ?_
  · rw [hs]; exact hr.phase
  · rw [hs]; exact hr.username
  · exact Session.Willing.congr hr.willing (by rw [hs]) fun _ _ => rfl
  · rw [hs]; exact hr.size
  · rwa [Room, hs] at hroom

theorem told_armRead (hr : r.Hears k receiver) (slot : Nat) (id : SessionId) :
    Told [] r (r.armRead slot id).2 k receiver :=
  told_of_eq ⟨hr.phase, hr.username, Session.Willing.armRead hr.willing _ id, hr.size⟩
    (outgoing_armRead ..) fun hroom => hroom

theorem told_absorb (hv : v.Mute) (h : Orderly r) (hr : r.Hears k receiver) (slot : Nat)
    (id : SessionId) (bs : Bytes) :
    Told (r.speech v slot id k receiver (r.framing slot bs).packets) r (r.absorb v slot id bs) k
      receiver :=
  have hhandled := told_handleAll hv h hr slot id (r.framing slot bs).packets
  hhandled.quiet (told_withInbound hhandled.hears slot _)

/-- The chat that a read adds to what is heard is what the packets say that it completes. -/
theorem told_takeIn (hv : v.Mute) (hb : v.Blind) (h : Orderly r) (hr : r.Hears k receiver)
    (slot : Nat) (id : SessionId) (bs : Bytes) :
    Told (r.speech v slot id k receiver (r.completed slot id bs)) r
      (r.takeIn v slot id (.ok bs)).2 k receiver := by
  have hnone {bs : Bytes} (hc : r.completed slot id bs = [])
      (he : (r.takeIn v slot id (.ok bs)).2 = r) :
      Told (r.speech v slot id k receiver (r.completed slot id bs)) r
        (r.takeIn v slot id (.ok bs)).2 k receiver := by
    rw [hc, he]
    exact .refl hr
  rcases bs with _ | ⟨b, bs⟩
  · exact hnone (if_neg fun hc => hc.1 rfl) rfl
  cases ho : (r.session slot).obstacle? id with
  | some err =>
    refine hnone (if_neg fun hc => ?_) (by simp only [takeIn, receive_of_obstacle ho])
    rw [ho] at hc
    cases hc.2.1
  | none =>
    by_cases hfits : (b :: bs).length ≤ (r.session slot).inbound.free
    · have hc : r.completed slot id (b :: bs) = (r.framing slot (b :: bs)).packets :=
        if_pos ⟨List.cons_ne_nil b bs, ho, hfits⟩
      have habsorbed := told_absorb hv h hr slot id (b :: bs)
      have hdrain := drain_receive hb (Service.Mute.deed hv) ho hfits
      rw [receive_of_fits ho hfits] at hdrain
      simp only [hc, takeIn, receive_of_fits ho hfits, hdrain, Framing.outcome]
      cases (r.framing slot (b :: bs)).error with
      | some err => exact habsorbed
      | none =>
        have harmed := habsorbed.quiet (told_armRead habsorbed.hears slot id)
        dsimp only
        split <;> next heq => rwa [heq] at harmed
    · refine hnone (if_neg fun hc => hfits hc.2.2) ?_
      simp only [takeIn, receive_of_overflow ho hfits]

theorem told_disconnect (hv : v.Mute) (h : Orderly r) (hr : r.Hears k receiver) (slot : Nat)
    (id : SessionId) (announced : Bool)
    (hp : ((r.disconnect v slot id announced).session k).phase ≠ .disconnecting) :
    Told [] r (r.disconnect v slot id announced) k receiver := by
  let x : Ending S := ⟨r, slot, id, announced⟩
  change Told [] r (x.result v) k receiver
  cases hd : (x.relay.depart x.slot x.id).1 with
  | none =>
    rw [(Ending.result_of_none hd).1]
    exact .refl hr
  | some d =>
    have hne : slot ≠ k := by
      rintro rfl
      have hi := Ending.identity_result hv hd slot
      rw [if_pos rfl] at hi
      exact hp (congrArg Identity.phase hi)
    have hreleased : Told [] r (x.released v) k receiver := by
      obtain ⟨s, n, he⟩ := Ending.released_eq hv x
      have hdeparted := (spared_depart r hne id).told hr
      have hw := (Deed.store _ s n).wired (h.wired.depart slot id)
      have hstored : Told [] r { (r.depart slot id).2 with store := s, drawn := n } k receiver :=
        hdeparted.quiet (Spared.told ⟨rfl, fun _ _ => rfl⟩ hdeparted.hears)
      rw [he]
      exact hstored.quiet ((spared_release hw hne).told hstored.hears)
    rw [Ending.result_of_some hd]
    split
    · next name _ =>
      have hleave : Packet.isChat (Packet.userLeaveNotify (.truncated name)).encode = false := by
        simp [Packet.isChat]
      have hmoves := ReflTransGen.mono (fun _ _ => Move.act) _ _ (Ending.released_acts hv x)
      exact hreleased.quiet (told_of_speaks (broadcast_speaks (N := fun _ => True) hleave none _)
        (h.of_moves hmoves) hreleased.hears)
    · exact hreleased

theorem Hears.sent (hr : r.Hears k receiver) (h : Wired r) (slot : Nat) (id : SessionId) :
    (r.sent slot id).Hears k receiver ∧ (r.sent slot id).outgoing k = r.outgoing k := by
  by_cases hk : slot = k
  · subst hk
    obtain ⟨q, b, hsent⟩ := (r.session slot).sent_eq id r.links
    obtain ⟨hwilling, hout⟩ := Session.sent_of_willing hr.willing id
    have hs : (r.sent slot id).session slot = ((r.session slot).sent id r.links).1 := by
      rw [session_sent, if_pos rfl]
    refine ⟨⟨?_, ?_, ?_, ?_⟩, ?_⟩
    · rw [hs, hsent]; exact hr.phase
    · rw [hs, hsent]; exact hr.username
    · rw [Willing, hs]; exact hwilling
    · rw [hs, hsent]; exact hr.size
    · rw [outgoing, hs]; exact hout
  · have hs : (r.sent slot id).session k = r.session k := by
      rw [session_sent, if_neg hk]
    exact hr.frame hs fun l hl => Session.links_sent_ne (h.link_ne hk hl) ..

end Relay

namespace Engine

def Step.connection? : Step → Option (Nat × SessionId)
  | .complete c => some c.connection
  | _ => none

/-- The chat that a step has for `k`: what the packets say that it completes. -/
def speech (v : Service S) (k : Nat) (receiver : String) (e : Engine S) : Step → List Bytes
  | .complete (.received slot id (.ok bs)) =>
    e.relay.speech v slot id k receiver (e.relay.completed slot id bs)
  | _ => []

/-- The chat for `k` in the course of a run, each packet with the connection that has said it. -/
def conversation (v : Service S) (k : Nat) (receiver : String) :
    Engine S → List Step → List (Option (Nat × SessionId) × Bytes)
  | _, [] => []
  | e, s :: steps =>
    (e.speech v k receiver s).map (s.connection?, ·) ++
      conversation v k receiver (e.step v s) steps

end Engine

end ChatRelay
