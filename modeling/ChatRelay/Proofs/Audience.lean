import ChatRelay.Proofs.Canonical
import ChatRelay.Proofs.Packet
import ChatRelay.Proofs.Relay.Chat
import ChatRelay.Proofs.Relay.Login
import ChatRelay.Proofs.Runs

/-! # Audiences

A broadcast is offered once to everybody who is logged in, but for the one it spares. A whisper is
offered to the one it names, and if there is nobody of that name, its author is told so. What becomes
of the packet at one session is the same whatever the others do with it, and nothing else changes.
-/

namespace ChatRelay

open Relation (ReflTransGen)

variable {S : Type}

theorem Session.fst_send (s : Session) (target : Option SessionId) (packet : Bytes) (ls : Links) :
    (s.send target packet ls).1 = s.accepts target packet := by
  unfold Session.send
  split
  · next hl => simp [accepts, isLive, hl]
  · split
    · next ha => rw [ha]; split <;> rfl
    · next ha => exact ((Bool.not_eq_true _).mp ha).symm

theorem Session.accepts_eq_false_iff {s : Session} (hlive : s.isLive = true) {packet : Bytes} :
    s.accepts none packet = false ↔
      s.limits.sendSize < packet.length ∨ s.limits.sendBacklog ≤ s.queue.length := by
  simp [accepts, hlive, imp_iff_not_or]

theorem Session.send_some (s : Session) (packet : Bytes) (ls : Links) :
    s.send (some s.id) packet ls = s.send none packet ls := by
  simp [send, accepts]

namespace Relay

variable {r r' r'' : Relay S} {slot k : Nat} {id : SessionId} {packet : Bytes} {p : Nat → Prop}

/-- Nothing changes but the queues and the links of the sessions in `p`. -/
structure Confined (p : Nat → Prop) (r r' : Relay S) : Prop where
  rest : r' = { r with pool := r'.pool, links := r'.links }
  capacity : r'.capacity = r.capacity
  session : ∀ k, ∃ q b, r'.session k = { r.session k with queue := q, sending := b }
  others : ∀ k, ¬ p k → r'.session k = r.session k
  link : ∀ l, (∀ k, p k → (r.session k).link ≠ some l) → r'.links[l]? = r.links[l]?

namespace Confined

theorem refl (p : Nat → Prop) (r : Relay S) : Confined p r r :=
  ⟨rfl, rfl, fun _ => ⟨_, _, rfl⟩, fun _ _ => rfl, fun _ _ => rfl⟩

theorem trans (h : Confined p r r') (h' : Confined p r' r'') : Confined p r r'' where
  rest := by
    have hrest := h'.rest
    rw [h.rest] at hrest
    exact hrest
  capacity := h'.capacity.trans h.capacity
  session k := by
    obtain ⟨q, b, hs⟩ := h.session k
    obtain ⟨q', b', hs'⟩ := h'.session k
    exact ⟨q', b', by rw [hs', hs]⟩
  others k hk := (h'.others k hk).trans (h.others k hk)
  link l hl := by
    refine (h'.link l fun k hk => ?_).trans (h.link l hl)
    obtain ⟨q, b, hs⟩ := h.session k
    rw [hs]
    exact hl k hk

theorem spared (h : Confined p r r') (hw : Wired r) (hk : ¬ p k) : Spared r r' k := by
  refine ⟨h.others k hk, fun l hl => h.link l fun j hj => ?_⟩
  have hne : j ≠ k := by
    rintro rfl
    exact hk hj
  exact hw.link_ne hne hl

theorem isLive_eq (h : Confined p r r') (k : Nat) :
    (r'.session k).isLive = (r.session k).isLive := by
  obtain ⟨q, b, hs⟩ := h.session k
  rw [hs]
  rfl

end Confined

theorem fst_send (r : Relay S) (slot : Nat) (target : Option SessionId) (packet : Bytes) :
    (r.send slot target packet).1 = (r.session slot).accepts target packet :=
  Session.fst_send ..

theorem confined_send (hp : p slot) (target : Option SessionId) (packet : Bytes) :
    Confined p r (r.send slot target packet).2 where
  rest := rfl
  capacity := capacity_send ..
  session k := by
    rw [session_send]
    split
    · exact (r.session k).send_eq target packet r.links
    · exact ⟨_, _, rfl⟩
  others k hk := by
    rw [session_send, if_neg]
    rintro rfl
    exact hk hp
  link l hl := Session.links_send_ne (hl slot hp) target packet r.links

/-! ## Broadcasts -/

def Meant (r : Relay S) (except : Option Nat) (k : Nat) : Prop :=
  except ≠ some k ∧ (r.session k).isAuthenticated = true

instance Meant.decidable (r : Relay S) (except : Option Nat) (k : Nat) :
    Decidable (r.Meant except k) :=
  inferInstanceAs (Decidable (_ ∧ _))

section

variable {except : Option Nat} {slots : List Nat}

theorem confined_sendEach
    (hp : ∀ k ∈ slots, except ≠ some k → (r.session k).isLive = true → p k) :
    Confined p r (sendEach except packet slots r).2 := by
  induction slots generalizing r with
  | nil => exact .refl p r
  | cons slot slots ih =>
    unfold sendEach
    split
    · exact ih fun k hk => hp k (List.mem_cons_of_mem slot hk)
    · next hmeant =>
      obtain ⟨hexcept, hlive⟩ := not_or.1 hmeant
      have hfirst : Confined p r (r.send slot none packet).2 :=
        confined_send (hp slot List.mem_cons_self hexcept (by simpa using hlive)) none packet
      refine hfirst.trans (ih fun k hk hexcept hlive => ?_)
      rw [hfirst.isLive_eq] at hlive
      exact hp k (List.mem_cons_of_mem slot hk) hexcept hlive

/-- Those are counted who take the packet, whatever the ones before them have done with it. -/
theorem fst_sendEach (h : Wired r) (hnodup : slots.Nodup) :
    (sendEach except packet slots r).1 =
      slots.countP fun k => except ≠ some k ∧ (r.session k).accepts none packet = true := by
  induction slots generalizing r with
  | nil => rfl
  | cons slot slots ih =>
    obtain ⟨hmem, hnodup⟩ := List.nodup_cons.1 hnodup
    unfold sendEach
    split
    · next hnot =>
      have hslot : ¬ (except ≠ some slot ∧ (r.session slot).accepts none packet = true) := by
        rintro ⟨hexcept, ha⟩
        rcases hnot with heq | hdead
        · exact hexcept heq
        · simp_all [Session.accepts]
      rw [ih h hnodup, List.countP_cons_of_neg (by simpa using hslot)]
    · next hmeant =>
      obtain ⟨hexcept, -⟩ := not_or.1 hmeant
      have hrest : (sendEach except packet slots (r.send slot none packet).2).1 = slots.countP
          fun k => except ≠ some k ∧ (r.session k).accepts none packet = true := by
        rw [ih (h.send ..) hnodup]
        refine List.countP_congr fun k hk => ?_
        have hne : slot ≠ k := by
          rintro rfl
          exact hmem hk
        rw [(spared_send h hne none packet).session]
      simp only [hrest, fst_send, List.countP_cons, hexcept, ne_eq, not_false_eq_true, true_and,
        decide_eq_true_eq]
      split <;> rfl

variable (h : Orderly r)

include h

theorem Orderly.isAuthenticated_of_listed (hk : k ∈ r.directory.byId.values)
    (hlive : (r.session k).isLive = true) : (r.session k).isAuthenticated = true := by
  obtain ⟨id, hid⟩ := Table.mem_values_iff.1 hk
  exact h.consistent.isAuthenticated_iff.2
    ((h.consistent.isLive_iff (h.consistent.byId id k hid).2).1 hlive)

theorem confined_broadcast : Confined (r.Meant except) r (r.broadcast except packet).2 :=
  confined_sendEach fun _ hk hexcept hlive => ⟨hexcept, h.isAuthenticated_of_listed hk hlive⟩

theorem fst_broadcast : (r.broadcast except packet).1 = (List.range r.capacity).countP
    fun k => r.Meant except k ∧ (r.send k none packet).1 = true := by
  rw [broadcast, fst_sendEach h.wired h.consistent.nodup_values, List.countP_eq_length_filter,
    List.countP_eq_length_filter]
  apply List.Perm.length_eq
  apply (List.perm_ext_iff_of_nodup (h.consistent.nodup_values.filter _)
    (List.nodup_range.filter _)).2
  intro k
  simp only [List.mem_filter, List.mem_range, decide_eq_true_eq, fst_send]
  constructor
  · rintro ⟨hk, hexcept, ha⟩
    have hlive : (r.session k).isLive = true := by
      simp_all [Session.accepts]
    exact ⟨lt_capacity_of_isLive hlive, ⟨hexcept, h.isAuthenticated_of_listed hk hlive⟩, ha⟩
  · rintro ⟨-, ⟨hexcept, hin⟩, ha⟩
    have hlisted := (h.consistent.listed k (h.consistent.isAuthenticated_iff.1 hin)).2
    exact ⟨Table.mem_values_iff.2 ⟨_, hlisted⟩, hexcept, ha⟩

end

/-- A broadcast is offered once to everybody who is logged in but for the one it spares, and nobody
else's session or link is touched. Those are counted who take it; it is refused for its size or for
want of room. What comes of it at one session does not depend on the others. -/
theorem broadcast_offered_once {capacity : Nat} {limits : Limits} {store : S}
    (hm : ReflTransGen Move (.start capacity limits store) r) (except : Option Nat)
    (packet : Bytes) :
    let r' := (r.broadcast except packet).2
    (∀ k, r.Meant except k → Offered packet r r' k) ∧
      (∀ k, ¬ r.Meant except k → Spared r r' k) ∧
      Confined (r.Meant except) r r' ∧
      (r.broadcast except packet).1 = (List.range r.capacity).countP
        (fun k => r.Meant except k ∧ (r.send k none packet).1 = true) ∧
      ∀ k, r.Meant except k → ((r.send k none packet).1 = false ↔
        limits.sendSize < packet.length ∨
          limits.sendBacklog ≤ (r.session k).queue.length) := by
  have h : Orderly r := (Orderly.start ..).of_moves hm
  refine ⟨?_, ?_, confined_broadcast h, fst_broadcast h, ?_⟩
  · rintro k ⟨hexcept, hin⟩
    exact offered_broadcast h hexcept hin
  · intro k hk
    exact (confined_broadcast h).spared h.wired hk
  · rintro k ⟨-, hin⟩
    have hlimits : (r.session k).limits = limits := by
      rw [limits_of_moves hm, session_start]
      rfl
    rw [fst_send, Session.accepts_eq_false_iff (Session.isLive_of_isAuthenticated hin), hlimits]

theorem broadcast_offered_once_ann :
    let login (name : String) := Packet.loginRequest .blank .blank (.truncated name)
    let steps : List Engine.Step := [.accept (.ofPeer none), .accept (.ofPeer none),
      .accept (.ofPeer none), .complete (.received 0 1 (.ok (login "ann").encode)),
      .complete (.received 1 2 (.ok (login "bob").encode)), .complete (.sent 0 1 (.ok 6))]
    let e := Engine.start 3 ⟨1024, 1024, maxPacketSize, 1⟩ (Store.empty.addUser "" "")
    let r := (e.run (.direct (fun _ => "t") 60) steps).relay
    let packet := (Packet.userLeaveNotify (.truncated "dan")).encode
    let r' := (r.broadcast none packet).2
    (r.broadcast none packet).1 = 1 ∧ Offered packet r r' 0 ∧ (r'.session 0).queue = [packet] ∧
      Offered packet r r' 1 ∧ (r.send 1 none packet).1 = false ∧ Spared r r' 2 := by
  intro login steps e r packet r'
  have hm : ReflTransGen Move e.relay r :=
    Engine.moves_run_start (direct_within _ _) (by decide)
  obtain ⟨hoffered, hspared, -, hcount, hrefused⟩ := broadcast_offered_once hm none packet
  have hready : r.Meant none 0 ∧ r.Meant none 1 ∧ ¬ r.Meant none 2 ∧
      ((r.session 0).send none packet r.links).2.1.queue = [packet] ∧
      1 ≤ (r.session 1).queue.length ∧ (List.range r.capacity).countP
        (fun k => r.Meant none k ∧ (r.send k none packet).1 = true) = 1 := by
    decide +kernel
  obtain ⟨hann, hbob, hguest, hqueue, hfull, hone⟩ := hready
  have htold := hoffered 0 hann
  exact ⟨hcount.trans hone, htold, (congrArg Session.queue htold.session).trans hqueue,
    hoffered 1 hbob, (hrefused 1 hbob).2 (.inr hfull), hspared 2 hguest⟩

/-! ## Whispers -/

/-- The report that somebody is not there fits its field, whatever octets the name was read from. -/
theorem text_notFound (receiver : NameField) :
    (Field.truncated s!"User '{receiver.text}' not found" : MessageField).text =
      s!"User '{receiver.text}' not found" := by
  rw [Field.text_truncated_eq_iff (Packet.nulFree_notFound receiver)]
  have hname := receiver.length_encode_text_le
  have hbefore : (Utf8.encode "User '").length = 6 := rfl
  have hafter : (Utf8.encode "' not found").length = 11 := rfl
  change (Utf8.encode ("User '" ++ receiver.text ++ "' not found")).length ≤ maxMessageLength
  rw [Utf8.encode_append, Utf8.encode_append, List.length_append, List.length_append, hbefore,
    hafter]
  simp only [maxNameLength, maxMessageLength] at hname ⊢
  omega

section

variable {name : String} {receiver : NameField} {message : MessageField}
  (hs : (r.session slot).nameOf id = some name)

include hs

theorem relayWhisper_of_findName (hk : r.findName receiver.text = some k) :
    r.relayWhisper slot id receiver message =
      (r.send k none (Packet.whisperResponse .success (.truncated name) message).encode).2 := by
  unfold relayWhisper
  simp only [hs, sendToName, hk]

theorem relayWhisper_of_findName_eq_none (hf : r.findName receiver.text = none) :
    r.relayWhisper slot id receiver message =
      (r.send slot none (Packet.whisperResponse .userNotFound .blank
        (.truncated s!"User '{receiver.text}' not found")).encode).2 := by
  obtain ⟨rfl, -, -⟩ := Session.nameOf_eq_some_iff.1 hs
  unfold relayWhisper
  simp only [hs, sendToName, hf, reply, send, Session.send_some]

end

/-- To `k` the packet has been offered once, and nothing else has changed. -/
structure OfferedOnly (packet : Bytes) (r r' : Relay S) (k : Nat) : Prop where
  offered : Offered packet r r' k
  spared : ∀ j, j ≠ k → Spared r r' j
  confined : Confined (· = k) r r'

theorem offeredOnly_send (h : Wired r) (k : Nat) (packet : Bytes) :
    OfferedOnly packet r (r.send k none packet).2 k where
  offered := offered_send r k packet
  spared _ hj := spared_send h hj.symm none packet
  confined := confined_send (p := (· = k)) rfl none packet

/-- A whisper is offered to the one it names, under the name of its author. If there is nobody of
that name, the author is offered a report of it instead, in full. Either way nothing else changes. -/
theorem whisper_confined {capacity : Nat} {limits : Limits} {store : S} (v : Service S)
    (hm : ReflTransGen Move (.start capacity limits store) r) {name : String}
    (hs : (r.session slot).nameOf id = some name) {receiver : NameField} {message : MessageField}
    (hp : Packet.decode packet = .ok (.whisperRequest receiver message)) :
    let r' := r.handle v slot id packet
    let report : MessageField := .truncated s!"User '{receiver.text}' not found"
    (∀ k, (r.session k).isAuthenticated = true → (r.session k).username = receiver.text →
        OfferedOnly (Packet.whisperResponse .success (.truncated name) message).encode r r' k) ∧
      ((∀ k, (r.session k).isAuthenticated = true → (r.session k).username ≠ receiver.text) →
        OfferedOnly (Packet.whisperResponse .userNotFound .blank report).encode r r' slot) ∧
      report.text = s!"User '{receiver.text}' not found" := by
  intro r' report
  have h : Orderly r := (Orderly.start ..).of_moves hm
  have hr' : r' = r.relayWhisper slot id receiver message := by
    change r.handle v slot id packet = _
    rw [handle, hp]
  refine ⟨?_, ?_, text_notFound receiver⟩
  · intro k hin hname
    rw [hr', relayWhisper_of_findName hs (h.consistent.findName_eq_some_iff.2 ⟨hin, hname⟩)]
    exact offeredOnly_send h.wired k _
  · intro hnobody
    have hf : r.findName receiver.text = none := by
      rw [Option.eq_none_iff_forall_ne_some]
      intro k hk
      obtain ⟨hin, hname⟩ := h.consistent.findName_eq_some_iff.1 hk
      exact hnobody k hin hname
    rw [hr', relayWhisper_of_findName_eq_none hs hf]
    exact offeredOnly_send h.wired slot _

theorem whisper_confined_ann :
    let login (name : String) := Packet.loginRequest .blank .blank (.truncated name)
    let steps : List Engine.Step := [.accept (.ofPeer none), .accept (.ofPeer none),
      .complete (.received 0 1 (.ok (login "ann").encode)),
      .complete (.received 1 2 (.ok (login "bob").encode))]
    let e := Engine.start 2 ⟨1024, 1024, maxPacketSize, 4⟩ (Store.empty.addUser "" "")
    let v := Service.direct (fun _ => "t") 60
    let r := (e.run v steps).relay
    let lost : NameField := ⟨List.replicate 33 0xFF, rfl⟩
    let whisper (receiver : NameField) :=
      r.handle v 0 1 (Packet.whisperRequest receiver (.truncated "hi")).encode
    OfferedOnly (Packet.whisperResponse .success (.truncated "ann") (.truncated "hi")).encode r
        (whisper (.truncated "bob")) 1 ∧
      OfferedOnly (Packet.whisperResponse .userNotFound .blank
        (.truncated s!"User '{lost.text}' not found")).encode r (whisper lost) 0 := by
  intro login steps e v r lost whisper
  have hm : ReflTransGen Move e.relay r :=
    Engine.moves_run_start (direct_within _ _) (by decide)
  have h : Orderly r := (Orderly.start ..).of_moves hm
  have hready : (r.session 0).nameOf 1 = some "ann" ∧ (r.session 1).isAuthenticated = true ∧
      (r.session 1).username = (Field.truncated "bob" : NameField).text ∧
      r.findName lost.text = none := by
    decide +kernel
  obtain ⟨hs, hin, hname, hf⟩ := hready
  have hall (receiver : NameField) :=
    whisper_confined v hm hs (Packet.decode_encode (.whisperRequest receiver (.truncated "hi")))
  refine ⟨(hall (.truncated "bob")).1 1 hin hname, (hall lost).2.1 fun k hk => ?_⟩
  exact h.consistent.username_ne_of_findName hf (h.consistent.isAuthenticated_iff.1 hk)

end Relay

end ChatRelay
