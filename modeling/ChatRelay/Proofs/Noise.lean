import ChatRelay.Proofs.Acceptance
import ChatRelay.Proofs.Queue
import ChatRelay.Proofs.Reassembly

/-! # Frames that are no requests

A client may send frames that make no sense or are not for it to send. Each is taken off its stream
as long as it says it is, and counted; nothing else comes of it. So a stream does the same with and
without such frames.
-/

namespace ChatRelay

variable {S : Type}

/-! ## Frames -/

namespace Framing

variable {frame rest : Bytes} {frames : List Bytes}

structure Whole (frame : Bytes) : Prop where
  declaredSize : (Header.ofBytes? frame).map Header.declaredSize = some frame.length
  headerLength_le : headerLength ≤ frame.length
  le_maxPacketSize : frame.length ≤ maxPacketSize

instance Whole.decidable (frame : Bytes) : Decidable (Whole frame) :=
  decidable_of_iff ((Header.ofBytes? frame).map Header.declaredSize = some frame.length ∧
      headerLength ≤ frame.length ∧ frame.length ≤ maxPacketSize)
    ⟨fun ⟨h, h', h''⟩ => ⟨h, h', h''⟩, fun h => ⟨h.1, h.2, h.3⟩⟩

theorem Whole.first_append (h : Whole frame) (rest : Bytes) :
    first (frame ++ rest) = .ok (some (frame, rest)) := by
  obtain ⟨header, hheader, hsize⟩ := Option.map_eq_some_iff.1 h.declaredSize
  have hpossible : FramingError.ofSize? header.declaredSize = none := by
    rw [hsize, FramingError.ofSize?, if_neg (Nat.not_lt.2 h.le_maxPacketSize),
      if_neg (Nat.not_lt.2 h.headerLength_le)]
  refine first_eq_some_iff.2 ⟨header, Header.ofBytes?_append hheader rest, hpossible, ?_, ?_, ?_⟩
  · rw [hsize, List.length_append]
    exact Nat.le_add_right ..
  · exact (List.take_left' hsize.symm).symm
  · exact (List.drop_left' hsize.symm).symm

theorem ofBytes_flatten_append (h : ∀ frame ∈ frames, Whole frame) (rest : Bytes) :
    ofBytes (frames.flatten ++ rest) =
      ⟨frames ++ (ofBytes rest).packets, (ofBytes rest).error, (ofBytes rest).rest⟩ := by
  induction frames with
  | nil => rfl
  | cons frame frames ih =>
    obtain ⟨hframe, hframes⟩ := List.forall_mem_cons.1 h
    rw [List.flatten_cons, List.append_assoc, ofBytes_of_some (hframe.first_append _), ih hframes]
    rfl

theorem outcome_append (frames : List Bytes) (f : Framing) :
    (Framing.mk (frames ++ f.packets) f.error f.rest).outcome =
      f.outcome.map (frames.length + ·) := by
  simp only [outcome, List.length_append]
  cases f.error <;> rfl

end Framing

/-! ## Requests -/

def PacketKind.isRequest : PacketKind → Bool
  | loginRequest | broadcastRequest | whisperRequest => true
  | loginResponse | broadcastResponse | whisperResponse | userJoinNotify | userLeaveNotify => false

namespace Packet

variable {bs frame : Bytes} {p : Packet}

def isRequest (bs : Bytes) : Bool :=
  (decode bs).toOption.any (·.kind.isRequest)

/-- What a frame may be that is no request. -/
inductive Noise (frame : Bytes) : Prop
  | kind {c : UInt16} (hc : Bytes.word? frame 0 = some c) (h : PacketKind.ofCode? c = none)
  | size {k : PacketKind} {n : UInt16} (hk : kindOf? frame = some k)
    (hn : Bytes.word? frame 2 = some n) (h : n.toNat ≠ k.wireLength)
  | outcome {k : PacketKind} {c : UInt16} (hk : kindOf? frame = some k)
    (hcarries : k.carriesOutcome = true) (hc : Bytes.word? frame headerLength = some c)
    (h : Outcome.ofCode? c = none)
  | toClient {k : PacketKind} (hk : kindOf? frame = some k) (h : k.isRequest = false)

theorem kindOf?_of_decode (h : decode bs = .ok p) : kindOf? bs = some p.kind := by
  obtain ⟨-, hcode, -⟩ := Header.ofBytes?_eq_some_iff.1 (header_of_decode h).1
  rw [kindOf?, hcode]
  exact p.kind.ofCode?_code

theorem Noise.isRequest_eq_false (h : Noise frame) : isRequest frame = false := by
  unfold isRequest
  cases hdecode : decode frame with
  | error e => rfl
  | ok p =>
    have hkind := kindOf?_of_decode hdecode
    obtain ⟨k, haccepted⟩ := exists_decode_iff.1 ⟨p, hdecode⟩
    cases h with
    | kind hc h => exact absurd (.kind hc h) haccepted.not_flaw
    | size hk hn h => exact absurd (.size hk hn h) haccepted.not_flaw
    | outcome hk hcarries hc h => exact absurd (.outcome hk hcarries hc h) haccepted.not_flaw
    | toClient hk h =>
      cases hk.symm.trans hkind
      exact h

theorem isRequest_eq_false_iff (hwhole : Framing.Whole frame) :
    isRequest frame = false ↔ Noise frame := by
  refine ⟨fun h => ?_, Noise.isRequest_eq_false⟩
  obtain ⟨p, k, hdecode, -⟩ | ⟨e, -, i, hflaw, -⟩ := decode_cases frame
  · rw [isRequest, hdecode] at h
    exact .toClient (kindOf?_of_decode hdecode) h
  · cases hflaw with
    | header hlt => exact absurd hwhole.headerLength_le (Nat.not_le.2 hlt)
    | kind hc hnone => exact .kind hc hnone
    | size hk hn hne => exact .size hk hn hne
    | body hk hlt =>
      -- a frame that is whole and too short for its kind says so itself
      obtain ⟨header, hheader, hsize⟩ := Option.map_eq_some_iff.1 hwhole.declaredSize
      exact .size hk (Header.ofBytes?_eq_some_iff.1 hheader).2.2
        (Nat.ne_of_lt (hsize.trans_lt hlt))
    | outcome hk hcarries hc hnone => exact .outcome hk hcarries hc hnone

end Packet

/-! ## Streams -/

/-- Answers as `answer` does, and notes what it was asked, oldest first. -/
def StoreCall.noting (answer : (c : StoreCall) → S → Except StoreError c.Answer × S)
    (c : StoreCall) (s : S × List StoreCall) :
    Except StoreError c.Answer × (S × List StoreCall) :=
  ((answer c s.1).1, ((answer c s.1).2, s.2 ++ [c]))

namespace Relay

variable {v : Service S} {r : Relay S} {slot : Nat} {id : SessionId}

theorem handle_of_not_isRequest {packet : Bytes} (h : Packet.isRequest packet = false) :
    r.handle v slot id packet = r := by
  unfold handle
  unfold Packet.isRequest at h
  cases hdecode : Packet.decode packet with
  | error e => rfl
  | ok p =>
    rw [hdecode] at h
    cases p with
    | loginRequest | broadcastRequest | whisperRequest => cases h
    | loginResponse | broadcastResponse | whisperResponse | userJoinNotify | userLeaveNotify => rfl

/-- What is no request can be left out anywhere. -/
theorem handleAll_filter (packets : List Bytes) (r : Relay S) :
    r.handleAll v slot id (packets.filter Packet.isRequest) = r.handleAll v slot id packets := by
  induction packets generalizing r with
  | nil => rfl
  | cons packet packets ih =>
    rw [handleAll_cons]
    by_cases h : Packet.isRequest packet = true
    · rw [List.filter_cons_of_pos h, handleAll_cons, ih]
    · rw [List.filter_cons_of_neg h, ih, handle_of_not_isRequest (Bool.not_eq_true _ ▸ h)]

/-- Draining whole frames handles each of them, and then what follows them. -/
theorem drain_frames (hv : v.Blind) (hd : v.Within Deed) {frames : List Bytes} {rest : Bytes}
    (hserved : (r.session slot).obstacle? id = none)
    (hwhole : ∀ frame ∈ frames, Framing.Whole frame)
    (hheld : (r.session slot).inbound.toList = frames.flatten ++ rest) :
    let f := Framing.ofBytes rest
    ∃ left : Ring, left.capacity = (r.session slot).inbound.capacity ∧ left.toList = f.rest ∧
      r.drain v slot id = (f.outcome.map (frames.length + ·),
        (r.handleAll v slot id (frames ++ f.packets)).withInbound slot left) := by
  have hdrain := drain_eq hv hd hserved
  have hleft := (r.session slot).inbound.toList_skip_packets
  simp only [hheld, Framing.ofBytes_flatten_append hwhole, Framing.outcome_append] at hdrain hleft
  exact ⟨(r.session slot).inbound.skip _, rfl, hleft, hdrain⟩

/-- Frames that are no requests leave no trace. With and without them, whatever follows, a drain
makes the same of all sessions, the directory and the store, asks the links and the store the same,
and leaves the same octets in the ring. Only the count differs, by as many frames. -/
theorem drain_without_noise (answer : (c : StoreCall) → S → Except StoreError c.Answer × S)
    (token : Nat → String) (lifetime : Nat) {r : Relay (S × List StoreCall)} {slot : Nat}
    {id : SessionId} {frames : List Bytes} {rest : Bytes} {ring : Ring}
    (hserved : (r.session slot).obstacle? id = none)
    (hwhole : ∀ frame ∈ frames, Framing.Whole frame)
    (hheld : (r.session slot).inbound.toList = frames.flatten ++ rest)
    (hcapacity : ring.capacity = (r.session slot).inbound.capacity)
    (hkept : ring.toList = (frames.filter Packet.isRequest).flatten ++ rest) :
    let v := Service.ofStore (StoreCall.noting answer) token lifetime
    let deleted := frames.filter (!Packet.isRequest ·)
    let drained := r.drain v slot id
    let drained' := (r.withInbound slot ring).drain v slot id
    (∀ frame ∈ frames, frame ∈ deleted ↔ Packet.Noise frame) ∧
    drained.1 = (Framing.ofBytes rest).outcome.map (frames.length + ·) ∧
    drained.1 = drained'.1.map (deleted.length + ·) ∧
    ∃ left : Ring, drained.2 = drained'.2.withInbound slot left ∧
      left.toList = (Framing.ofBytes rest).rest ∧
      left.toQueue = (drained'.2.session slot).inbound.toQueue := by
  intro v deleted drained drained'
  have hv : v.Blind := Service.ofStore_blind
  have hd : v.Within Deed := Service.ofStore_within fun _ _ h => h
  have hslot : slot < r.capacity := lt_capacity_of_obstacle? hserved
  have hring : ((r.withInbound slot ring).session slot).inbound = ring := by
    rw [session_withInbound_self hslot]
  have hkeptWhole : ∀ frame ∈ frames.filter Packet.isRequest, Framing.Whole frame :=
    fun frame hframe => hwhole frame (List.mem_of_mem_filter hframe)
  set f := Framing.ofBytes rest
  set after := r.handleAll v slot id (frames ++ f.packets)
  obtain ⟨left, hleftCapacity, hleft, hdrain⟩ :
      ∃ left : Ring, left.capacity = (r.session slot).inbound.capacity ∧ left.toList = f.rest ∧
        drained = (f.outcome.map (frames.length + ·), after.withInbound slot left) :=
    drain_frames hv hd hserved hwhole hheld
  obtain ⟨left', hleftCapacity', hleft', hdrain'⟩ :
      ∃ left' : Ring, left'.capacity = ring.capacity ∧ left'.toList = f.rest ∧
        drained' = (f.outcome.map ((frames.filter Packet.isRequest).length + ·),
          after.withInbound slot left') := by
    obtain ⟨left', hleftCapacity', hleft', hdrain'⟩ := drain_frames hv hd
      ((obstacle?_withInbound ..).trans hserved) hkeptWhole (hring ▸ hkept)
    rw [handleAll_withInbound hv, withInbound_withInbound, handleAll_append, handleAll_filter,
      ← handleAll_append] at hdrain'
    exact ⟨left', hring ▸ hleftCapacity', hleft', hdrain'⟩
  refine ⟨fun frame hframe => ?_, congrArg Prod.fst hdrain, ?_, left, ?_, hleft, ?_⟩
  · rw [← Packet.isRequest_eq_false_iff (hwhole frame hframe)]
    simp [deleted, hframe]
  · have hlength : frames.length =
        deleted.length + (frames.filter Packet.isRequest).length :=
      (List.length_eq_length_filter_add Packet.isRequest).trans (Nat.add_comm ..)
    rw [hdrain, hdrain', hlength]
    cases f.outcome with
    | error e => rfl
    | ok n => exact congrArg Except.ok (Nat.add_assoc ..)
  · rw [hdrain, hdrain', withInbound_withInbound]
  · have hcapacityAfter : after.capacity = r.capacity :=
      capacity_eq_of_deeds (handleAll_chain (fun _ _ h => h) hd _ r)
    rw [hdrain', session_withInbound_self (hcapacityAfter ▸ hslot)]
    simp only [Ring.toQueue, hleft, hleft', hleftCapacity, hleftCapacity', hcapacity]

theorem drain_without_noise_login :
    let login := (Packet.loginRequest (.truncated "") (.truncated "") (.truncated "ann")).encode
    let frames : List Bytes := [[9, 0, 5, 0, 1], [0xd1, 7, 4, 0], login,
      (Packet.userJoinNotify (.truncated "eve")).encode, [0xd2, 7, 6, 0, 1, 0]]
    let v := Service.ofStore (StoreCall.noting fun c s => Store.answer s c) (fun _ => "t") 60
    let r := ((start 1 ⟨256, 256, maxPacketSize, 4⟩ (Store.empty.addUser "" "", [])).begin 0 1
      (.fresh 0 1 none)).receive 0 1 frames.flatten
    let r' := r.2.withInbound 0 ((Ring.empty 256).append login)
    r.1 = .ok () ∧ (r.2.drain v 0 1).1 = .ok 5 ∧ (r'.drain v 0 1).1 = .ok 1 ∧
      (r.2.drain v 0 1).2.store = (r'.drain v 0 1).2.store ∧
      (r.2.drain v 0 1).2.links = (r'.drain v 0 1).2.links := by
  intro login frames v r r'
  have htaken : r.1 = .ok () := by decide +kernel
  have hserved : (r.2.session 0).obstacle? 1 = none := by decide +kernel
  have hwhole : ∀ frame ∈ frames, Framing.Whole frame := by decide +kernel
  have hheld : (r.2.session 0).inbound.toList = frames.flatten ++ [] := by decide +kernel
  have hcapacity : ((Ring.empty 256).append login).capacity = (r.2.session 0).inbound.capacity := by
    decide +kernel
  have hkept : ((Ring.empty 256).append login).toList =
      (frames.filter Packet.isRequest).flatten ++ [] := by
    decide +kernel
  have hdeleted : (frames.filter (!Packet.isRequest ·)).length = 4 := by decide +kernel
  obtain ⟨-, hcount, hcount', left, hdrained, -⟩ := drain_without_noise
    (fun c s => Store.answer s c) (fun _ => "t") 60 hserved hwhole hheld hcapacity hkept
  rw [Framing.ofBytes_nil] at hcount
  have hkeptCount : (r'.drain v 0 1).1 = .ok 1 := by
    rw [hcount, hdeleted] at hcount'
    cases hdrain : (r'.drain v 0 1).1 with
    | error e =>
      rw [hdrain] at hcount'
      cases hcount'
    | ok n =>
      rw [hdrain] at hcount'
      have hn : 5 = 4 + n := Except.ok.inj hcount'
      rw [show n = 1 by omega]
  have hdrained : (r.2.drain v 0 1).2 = (r'.drain v 0 1).2.withInbound 0 left := hdrained
  generalize (r'.drain v 0 1).2 = s at hdrained ⊢
  rw [hdrained]
  exact ⟨htaken, hcount, hkeptCount, rfl, rfl⟩

end Relay

end ChatRelay
