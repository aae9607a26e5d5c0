import ChatRelay.Proofs.Reassembly
import ChatRelay.Proofs.Relay.Delivery

/-! # What is relayed

Every packet that a connection sends adds at most one packet to what another one has to be told:
its broadcasts, and the whispers that name the other.
-/

namespace ChatRelay

open Relation (ReflTransGen)

variable {S : Type}

theorem PacketKind.wireLength_le_maxWireLength (k : PacketKind) :
    k.wireLength ≤ maxWireLength := by
  cases k <;> decide

/-- What `receiver` is told of a packet from `sender`. -/
def Packet.relayed? (sender receiver : String) (packet : Bytes) : Option Bytes :=
  match Packet.decode packet with
  | .ok (.broadcastRequest message) =>
    some (Packet.broadcastResponse (.truncated sender) message).encode
  | .ok (.whisperRequest addressee message) =>
    if addressee.text = receiver then
      some (Packet.whisperResponse .success (.truncated sender) message).encode
    else none
  | _ => none

namespace Relay

variable {v : Service S} {r r' : Relay S} {slot k : Nat} {id : SessionId}
  {sender receiver : String}

/-- `k` is logged in under `name`, and its link takes every packet, also the largest. -/
structure Hears (r : Relay S) (k : Nat) (name : String) : Prop where
  phase : (r.session k).phase = .authenticated
  username : (r.session k).username = name
  willing : r.Willing k
  size : PacketKind.maxWireLength ≤ (r.session k).limits.sendSize

instance Hears.decidable (r : Relay S) (k : Nat) (name : String) : Decidable (r.Hears k name) :=
  decidable_of_iff ((r.session k).phase = .authenticated ∧ (r.session k).username = name ∧
      r.Willing k ∧ PacketKind.maxWireLength ≤ (r.session k).limits.sendSize)
    ⟨fun ⟨hp, hu, hw, hs⟩ => ⟨hp, hu, hw, hs⟩, fun h => ⟨h.phase, h.username, h.willing, h.size⟩⟩

/-- The queue of `k` has room in `r'` for one packet more. -/
def Room (r' : Relay S) (k : Nat) : Prop :=
  (r'.session k).queue.length < (r'.session k).limits.sendBacklog

instance Room.decidable (r' : Relay S) (k : Nat) : Decidable (r'.Room k) :=
  inferInstanceAs (Decidable (_ < _))

theorem limits_of_deeds (hd : ReflTransGen Deed r r') (k : Nat) :
    (r'.session k).limits = (r.session k).limits := by
  obtain ⟨p, u, t, q, b, h⟩ := session_eq_of_deeds hd k
  rw [h]

theorem identity_of_deeds (hd : ReflTransGen Deed r r')
    (hp : (r.session k).phase = .authenticated) :
    (r'.session k).identity = (r.session k).identity := by
  induction hd with
  | refl => rfl
  | tail _ hlast ih =>
    have hphase := congrArg Identity.phase ih
    exact (hlast.identity_eq (hphase.trans hp)).trans ih

theorem nameOf_of_deeds (hd : ReflTransGen Deed r r') {name : String}
    (hn : (r.session k).nameOf id = some name) : (r'.session k).nameOf id = some name := by
  obtain ⟨hid, hp, hu⟩ := Session.nameOf_eq_some_iff.1 hn
  have hi := identity_of_deeds hd hp
  exact Session.nameOf_eq_some_iff.2 ⟨(congrArg Identity.id hi).trans hid,
    (congrArg Identity.phase hi).trans hp, (congrArg Identity.username hi).trans hu⟩

theorem findName_of_deeds (h : Orderly r) (hd : ReflTransGen Deed r r')
    (hk : r.findName name = some k) :
    r'.findName name = some k ∧ (r'.session k).id = (r.session k).id := by
  obtain ⟨ha, hu⟩ := h.consistent.findName_eq_some_iff.1 hk
  have hi := identity_of_deeds hd (h.consistent.isAuthenticated_iff.1 ha)
  have h' := (h.of_deeds hd).consistent
  have hphase : (r'.session k).phase = .authenticated :=
    (congrArg Identity.phase hi).trans (h.consistent.isAuthenticated_iff.1 ha)
  exact ⟨h'.findName_eq_some_iff.2 ⟨h'.isAuthenticated_iff.2 hphase,
    (congrArg Identity.username hi).trans hu⟩, congrArg Identity.id hi⟩

theorem Hears.of_deeds (hr : r.Hears k receiver) (h : Orderly r) (hd : ReflTransGen Deed r r') :
    r'.Hears k receiver := by
  have hi := identity_of_deeds hd hr.phase
  refine ⟨(congrArg Identity.phase hi).trans hr.phase,
    (congrArg Identity.username hi).trans hr.username,
    (extends_of_deeds hd h hr.willing).willing, ?_⟩
  rw [limits_of_deeds hd]
  exact hr.size

theorem Hears.frame {receiver : String} (hr : r.Hears k receiver)
    (hs : r'.session k = r.session k)
    (hl : ∀ l, (r.session k).link = some l → r'.links[l]? = r.links[l]?) :
    r'.Hears k receiver ∧ r'.outgoing k = r.outgoing k := by
  refine ⟨⟨?_, ?_, ?_, ?_⟩, Session.outgoing_congr (by rw [hs]) (by rw [hs]) hl⟩
  · rw [hs]; exact hr.phase
  · rw [hs]; exact hr.username
  · exact Session.Willing.congr hr.willing (by rw [hs]) hl
  · rw [hs]; exact hr.size

theorem spared_depart (r : Relay S) (hne : slot ≠ k) (id : SessionId) :
    Spared r (r.depart slot id).2 k := by
  rcases depart_cases r slot id with ⟨-, he⟩ | ⟨-, he⟩ <;> rw [he]
  · exact .refl r k
  · exact ⟨session_setSession_ne hne _, fun _ _ => rfl⟩

theorem spared_release (h : Wired r) (hne : slot ≠ k) : Spared r (r.release slot) k where
  session := session_release_ne hne
  link l hl := by
    rw [links_release]
    exact Session.hangUp_ne (h.link_ne hne hl) _

theorem Hears.depart {receiver : String} (hr : r.Hears k receiver) (hne : slot ≠ k)
    (id : SessionId) : (r.depart slot id).2.Hears k receiver ∧
      (r.depart slot id).2.outgoing k = r.outgoing k :=
  have hs := spared_depart r hne id
  hr.frame hs.session hs.link

theorem Hears.release {receiver : String} (hr : r.Hears k receiver) (h : Wired r)
    (hne : slot ≠ k) : (r.release slot).Hears k receiver ∧
      (r.release slot).outgoing k = r.outgoing k :=
  have hs := spared_release h hne
  hr.frame hs.session hs.link

theorem Room.of_deeds (hroom : r'.Room k) (h : Orderly r) (hw : r.Willing k)
    (hd : ReflTransGen Deed r r') : r.Room k := by
  have hqueue := (extends_of_deeds hd h hw).queue.length_le
  unfold Room at hroom ⊢
  rw [limits_of_deeds hd] at hroom
  omega

theorem Hears.size_le (hr : r.Hears k receiver) (p : Packet) :
    p.encode.length ≤ (r.session k).limits.sendSize := by
  rw [Packet.length_encode]
  exact (p.kind.wireLength_le_maxWireLength).trans hr.size

theorem Hears.outgoing_broadcast (hr : r.Hears k receiver) (h : Orderly r) {except : Option Nat}
    (hexcept : except ≠ some k) (p : Packet) (hroom : (r.broadcast except p.encode).2.Room k) :
    (r.broadcast except p.encode).2.outgoing k = r.outgoing k ++ [p.encode] := by
  have hd := broadcast_chain (fun _ _ hd => hd) r except p.encode
  have hlimits := limits_of_deeds hd k
  rw [Room, hlimits] at hroom
  exact Relay.outgoing_broadcast h hr.willing hr.phase hexcept (hr.size_le p) hroom

theorem Hears.outgoing_sendToName (hr : r.Hears k receiver) (h : Orderly r) (name : String)
    (p : Packet) (hroom : r.Room k) :
    (r.sendToName name p.encode).2.outgoing k =
      r.outgoing k ++ if name = receiver then [p.encode] else [] := by
  have hauth : (r.session k).isAuthenticated = true :=
    h.consistent.isAuthenticated_iff.2 hr.phase
  have hfound (hname : name = receiver) : r.findName name = some k :=
    h.consistent.findName_eq_some_iff.2 ⟨hauth, hr.username.trans hname.symm⟩
  unfold sendToName
  cases hf : r.findName name with
  | none =>
    rw [if_neg fun hname => by rw [hfound hname] at hf; cases hf]
    exact (List.append_nil _).symm
  | some j =>
    by_cases hj : j = k
    · subst hj
      rw [if_pos ((h.consistent.findName_eq_some_iff.1 hf).2.symm.trans hr.username)]
      refine outgoing_send_self h.wired hr.willing ?_
      have hlt : (r.session j).queue.length < (r.session j).limits.sendBacklog := hroom
      simp [Session.accepts, Session.isLive_of_isAuthenticated hauth, hr.size_le p, hlt]
    · rw [if_neg fun hname => by rw [hfound hname] at hf; exact hj (Option.some.inj hf).symm,
        List.append_nil]
      exact outgoing_send_ne h.wired hj _ _

/-- A whisper is sent to the name that it is for, and its author may be told that this is nobody's.
-/
theorem relayWhisper_or (hs : (r.session slot).nameOf id = some sender) (addressee : NameField)
    (message : MessageField) :
    let sent := (r.sendToName addressee.text
      (Packet.whisperResponse .success (.truncated sender) message).encode).2
    r.relayWhisper slot id addressee message = sent ∨ ∃ text,
      r.relayWhisper slot id addressee message =
        sent.reply slot id (.whisperResponse .userNotFound .blank text) := by
  unfold relayWhisper
  simp only [hs]
  split
  · next h => exact .inl (by rw [h])
  · next h => exact .inr ⟨_, by rw [h]⟩

section

variable (h : Orderly r) (hne : slot ≠ k)

include h hne

theorem outgoing_reply (id : SessionId) (p : Packet) :
    (r.reply slot id p).outgoing k = r.outgoing k :=
  outgoing_send_ne h.wired hne ..

theorem outgoing_answerLogin (hs : (r.session slot).nameOf id = some sender)
    (userId password username : NameField) :
    (r.answerLogin v slot id userId password username).outgoing k = r.outgoing k := by
  have hlogin : r.login v slot id userId.text password.text username.text =
      (.alreadyLoggedIn, r) := by
    rw [login, if_pos (by rw [hs]; rfl)]
  unfold answerLogin
  rw [hlogin]
  exact outgoing_reply h hne id _

variable (hs : (r.session slot).nameOf id = some sender) (hr : r.Hears k receiver)

include hs hr

theorem outgoing_relayBroadcast (message : MessageField)
    (hroom : (r.relayBroadcast slot id message).Room k) :
    (r.relayBroadcast slot id message).outgoing k =
      r.outgoing k ++ [(Packet.broadcastResponse (.truncated sender) message).encode] := by
  unfold relayBroadcast at hroom ⊢
  simp only [hs] at hroom ⊢
  exact hr.outgoing_broadcast h (by simp [hne]) _ hroom

theorem outgoing_relayWhisper (addressee : NameField) (message : MessageField)
    (hroom : (r.relayWhisper slot id addressee message).Room k) :
    (r.relayWhisper slot id addressee message).outgoing k = r.outgoing k ++
      (if addressee.text = receiver then
        some (Packet.whisperResponse .success (.truncated sender) message).encode
      else none).toList := by
  have hd := relayWhisper_chain (fun _ _ hd => hd) slot id addressee message r
  have hsent := hr.outgoing_sendToName h addressee.text
    (.whisperResponse .success (.truncated sender) message) (hroom.of_deeds h hr.willing hd)
  have hreply (text : MessageField) :
      ((r.sendToName addressee.text
        (Packet.whisperResponse .success (.truncated sender) message).encode).2.reply slot id
          (.whisperResponse .userNotFound .blank text)).outgoing k = _ :=
    outgoing_reply (h.of_deeds (sendToName_chain (fun _ _ hd => hd) r ..)) hne id _
  obtain he | ⟨text, he⟩ := relayWhisper_or hs addressee message
  · rw [he, hsent]
    split <;> rfl
  · rw [he, hreply, hsent]
    split <;> rfl

/-- A packet adds to what another is told what is relayed of it, and nothing else. -/
theorem outgoing_handle (packet : Bytes) (hroom : (r.handle v slot id packet).Room k) :
    (r.handle v slot id packet).outgoing k =
      r.outgoing k ++ (Packet.relayed? sender receiver packet).toList := by
  unfold handle at hroom ⊢
  unfold Packet.relayed?
  cases hp : Packet.decode packet with
  | error e => simp
  | ok p =>
    rw [hp] at hroom
    cases p with
    | loginRequest userId password username =>
      simpa using outgoing_answerLogin h hne hs userId password username
    | broadcastRequest message => exact outgoing_relayBroadcast h hne hs hr message hroom
    | whisperRequest addressee message =>
      exact outgoing_relayWhisper h hne hs hr addressee message hroom
    | loginResponse | broadcastResponse | whisperResponse | userJoinNotify | userLeaveNotify => simp

end

theorem handle_deeds (hd : v.Within Deed) (slot : Nat) (id : SessionId) (packet : Bytes)
    (r : Relay S) : ReflTransGen Deed r (r.handle v slot id packet) :=
  handle_chain (fun _ _ hd => hd) hd slot id packet r

theorem outgoing_handleAll (hd : v.Within Deed) (h : Orderly r) (hne : slot ≠ k)
    (hs : (r.session slot).nameOf id = some sender) (hr : r.Hears k receiver)
    (packets : List Bytes) (hroom : (r.handleAll v slot id packets).Room k) :
    (r.handleAll v slot id packets).outgoing k =
      r.outgoing k ++ packets.filterMap (Packet.relayed? sender receiver) := by
  induction packets generalizing r with
  | nil => simp [handleAll]
  | cons packet packets ih =>
    rw [handleAll_cons] at hroom ⊢
    have hfirst := handle_deeds hd slot id packet r
    have hrest : ReflTransGen Deed (r.handle v slot id packet)
        ((r.handle v slot id packet).handleAll v slot id packets) :=
      handleAll_chain (fun _ _ hd => hd) hd packets _
    have h' := h.of_deeds hfirst
    have hr' := hr.of_deeds h hfirst
    rw [ih h' (nameOf_of_deeds hfirst hs) hr' hroom,
      outgoing_handle h hne hs hr packet (hroom.of_deeds h' hr'.willing hrest),
      List.append_assoc]
    congr 1
    cases hp : Packet.relayed? sender receiver packet <;> simp [hp]

theorem outgoing_withInbound (r : Relay S) (slot k : Nat) (ring : Ring) :
    (r.withInbound slot ring).outgoing k = r.outgoing k := by
  obtain ⟨ring', hs⟩ := session_withInbound r slot k ring
  exact Session.outgoing_congr (by rw [hs]) (by rw [hs]) (fun _ _ => rfl)

theorem outgoing_absorb (hd : v.Within Deed) (h : Orderly r) (hne : slot ≠ k)
    (hs : (r.session slot).nameOf id = some sender) (hr : r.Hears k receiver) (bs : Bytes)
    (hroom : (r.absorb v slot id bs).Room k) :
    (r.absorb v slot id bs).outgoing k = r.outgoing k ++
      (r.framing slot bs).packets.filterMap (Packet.relayed? sender receiver) := by
  rw [absorb, outgoing_withInbound]
  refine outgoing_handleAll hd h hne hs hr _ ?_
  rwa [Room, absorb, session_withInbound_ne hne] at hroom

end Relay

end ChatRelay
