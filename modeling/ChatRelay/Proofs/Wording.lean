import ChatRelay.Proofs.Canonical
import ChatRelay.Proofs.Endings
import ChatRelay.Proofs.Relay.Serving

/-! # What is put on the wire

Every packet that anybody is sent was prompted by a request that somebody has sent, or it tells that
somebody has left. So all text fields are canonical but those that are copied from requests.
-/

namespace ChatRelay

open Relation (ReflTransGen)

variable {S : Type} {P P' : Bytes → Prop} {N : String → Prop}

def Links.Offered (P : Bytes → Prop) (ls : Links) : Prop :=
  ∀ offers ∈ ls.map Link.offers, ∀ offer ∈ offers, P offer.1

theorem Links.Offered.send {ls : Links} (h : ls.Offered P) {packet : Bytes} (hp : P packet)
    (i : LinkId) : Offered P (ls.send i packet).2 := by
  unfold Links.send Links.ask
  split
  · next l hl =>
    have hold : l.offers ∈ ls.map Link.offers := List.mem_map_of_mem (List.mem_of_getElem? hl)
    intro offers hoffers offer hoffer
    rw [List.map_set, Link.offers_send] at hoffers
    obtain hoffers | rfl := List.mem_or_eq_of_mem_set hoffers
    · exact h offers hoffers offer hoffer
    · obtain hoffer | hoffer := List.mem_append.1 hoffer
      · exact h _ hold offer hoffer
      · rwa [List.mem_singleton.1 hoffer]
  · exact h

namespace Session

variable {s : Session} {ls : Links} (hs : ∀ p ∈ s.queue, P p) (hl : ls.Offered P)

include hl

theorem offered_post {queue : List Bytes} (hq : ∀ p ∈ queue, P p) (i : LinkId) :
    (∀ p ∈ (post i ls queue).1, P p) ∧ Links.Offered P (post i ls queue).2 := by
  induction queue generalizing ls with
  | nil => exact ⟨hq, hl⟩
  | cons packet queue ih =>
    have hsent := hl.send (hq packet List.mem_cons_self) i
    unfold post
    split
    · next h => exact ⟨hq, by rwa [h] at hsent⟩
    · next h =>
      rw [h] at hsent
      exact ih hsent fun p hp => hq p (List.mem_cons_of_mem packet hp)

include hs

theorem offered_postNext (i : LinkId) :
    (∀ p ∈ (s.postNext i ls).1.queue, P p) ∧ Links.Offered P (s.postNext i ls).2 :=
  offered_post hl hs i

theorem offered_send {packet : Bytes} (hp : P packet) (target : Option SessionId) :
    (∀ p ∈ (s.send target packet ls).2.1.queue, P p) ∧
      Links.Offered P (s.send target packet ls).2.2 := by
  have hqueued : ∀ p ∈ s.queue ++ [packet], P p := by
    intro p hmem
    obtain hmem | hmem := List.mem_append.1 hmem
    · exact hs p hmem
    · rwa [List.mem_singleton.1 hmem]
  unfold send
  split
  · exact ⟨hs, hl⟩
  · split
    · dsimp only
      split
      · exact ⟨hqueued, hl⟩
      · exact offered_postNext (s := { s with queue := s.queue ++ [packet] }) hqueued hl _
    · exact ⟨hs, hl⟩

theorem offered_sent (id : SessionId) :
    (∀ p ∈ (s.sent id ls).1.queue, P p) ∧ Links.Offered P (s.sent id ls).2 := by
  have hrest : ∀ p ∈ s.queue.tail, P p := fun p hp => hs p (List.mem_of_mem_tail hp)
  unfold sent
  split
  · exact ⟨hs, hl⟩
  · dsimp only
    split
    · exact offered_postNext (s := { s with queue := s.queue.tail }) hrest hl _
    · exact ⟨hrest, hl⟩

end Session

namespace Relay

variable {r r' : Relay S} {slot k : Nat} {id : SessionId}

def Carries (r : Relay S) (packet : Bytes) : Prop :=
  (∃ k, packet ∈ (r.session k).queue) ∨ ∃ l ∈ r.links, packet ∈ l.offers.map Prod.fst

/-- Users go by names in `N`, and all packets that wait or were offered are in `P`. -/
structure Worded (P : Bytes → Prop) (N : String → Prop) (r : Relay S) : Prop where
  named : ∀ k, N (r.session k).username
  queued : ∀ k, ∀ p ∈ (r.session k).queue, P p
  offered : r.links.Offered P

theorem Worded.of_carries (h : Worded P N r) {packet : Bytes} (hc : r.Carries packet) :
    P packet := by
  obtain ⟨k, hmem⟩ | ⟨l, hl, hmem⟩ := hc
  · exact h.queued k packet hmem
  · obtain ⟨offer, hoffer, rfl⟩ := List.mem_map.1 hmem
    exact h.offered l.offers (List.mem_map_of_mem hl) offer hoffer

namespace Worded

variable (h : Worded P N r)

include h

theorem mono (hP : ∀ p, P p → P' p) : Worded P' N r where
  named := h.named
  queued k p hp := hP p (h.queued k p hp)
  offered offers hoffers offer hoffer := hP _ (h.offered offers hoffers offer hoffer)

theorem setSession (slot : Nat) {s : Session} (hn : N s.username) (hq : ∀ p ∈ s.queue, P p) :
    Worded P N (r.setSession slot s) := by
  have hs := session_setSession r slot
  refine ⟨fun k => ?_, fun k => ?_, h.offered⟩ <;> rw [hs] <;> split
  · exact hn
  · exact h.named k
  · exact hq
  · exact h.queued k

theorem put (slot : Nat) {sl : Session × Links} (hn : N sl.1.username)
    (hq : (∀ p ∈ sl.1.queue, P p) ∧ sl.2.Offered P) : Worded P N (r.put slot sl) := by
  have hset := h.setSession slot hn hq.1
  exact ⟨hset.named, hset.queued, hq.2⟩

theorem register (slot : Nat) (id : SessionId) {name : String} (hn : N name) (token : String) :
    Worded P N (r.register slot id name token).2 := by
  rcases register_cases r slot id name token with ⟨-, he⟩ | ⟨-, -, he⟩ | ⟨s, -, ha, he⟩ <;> rw [he]
  · exact h
  · exact ⟨h.named, h.queued, h.offered⟩
  · obtain ⟨-, rfl⟩ := Session.authenticate_eq_some_iff.1 ha
    have hset := h.setSession slot (s := { r.session slot with
      phase := .authenticated, username := name, token := some token }) hn (h.queued slot)
    exact ⟨hset.named, hset.queued, hset.offered⟩

theorem send (slot : Nat) (target : Option SessionId) {packet : Bytes} (hp : P packet) :
    Worded P N (r.send slot target packet).2 := by
  have hn : N ((r.session slot).send target packet r.links).2.1.username := by
    obtain ⟨q, b, hs⟩ := (r.session slot).send_eq target packet r.links
    rw [hs]
    exact h.named slot
  exact h.put slot hn (Session.offered_send (h.queued slot) h.offered hp target)

theorem sent (slot : Nat) (id : SessionId) : Worded P N (r.sent slot id) := by
  have hn : N ((r.session slot).sent id r.links).1.username := by
    obtain ⟨q, b, hs⟩ := (r.session slot).sent_eq id r.links
    rw [hs]
    exact h.named slot
  exact h.put slot hn (Session.offered_sent (h.queued slot) h.offered id)

theorem acquire (ha : r.acquire = some (slot, r')) : Worded P N r' := by
  obtain ⟨free, -, rfl⟩ := acquire_eq_some_iff.1 ha
  have hset := h.setSession slot (s := { r.session slot with leased := true }) (h.named slot)
    (h.queued slot)
  exact ⟨hset.named, hset.queued, hset.offered⟩

theorem depart (slot : Nat) (id : SessionId) : Worded P N (r.depart slot id).2 := by
  rcases depart_cases r slot id with ⟨-, he⟩ | ⟨-, he⟩ <;> rw [he]
  · exact h
  · exact h.setSession slot (h.named slot) (h.queued slot)

theorem receive (slot : Nat) (id : SessionId) (bs : Bytes) :
    Worded P N (r.receive slot id bs).2 := by
  obtain ⟨ring, hs⟩ := (r.session slot).receive_eq id bs
  rw [receive_eq_setSession, hs]
  exact h.setSession slot (h.named slot) (h.queued slot)

theorem withInbound (slot : Nat) (ring : Ring) : Worded P N (r.withInbound slot ring) :=
  h.setSession slot (h.named slot) (h.queued slot)

theorem armRead (slot : Nat) (id : SessionId) : Worded P N (r.armRead slot id).2 where
  named := h.named
  queued := h.queued
  offered := by
    have hsame := Session.map_armRead Link.offers_receive (r.session slot) id r.links
    have hoffered := h.offered
    rw [Links.Offered, ← hsame] at hoffered
    exact hoffered

theorem release (hN : N "") (slot : Nat) : Worded P N (r.release slot) where
  named k := by
    rw [show ((r.release slot).session k).username = _ from
      congrArg Identity.username (identity_release r slot k)]
    split
    · exact hN
    · exact h.named k
  queued k := by
    by_cases hk : slot = k
    · subst hk
      rcases Nat.lt_or_ge slot r.capacity with hlt | hle
      · rw [session_release hlt, if_pos rfl]
        exact nofun
      · rw [session_of_capacity_le (by simpa using hle)]
        exact nofun
    · rw [session_release_ne hk]
      exact h.queued k
  offered := by
    have hsame := Session.map_hangUp Link.offers_close (r.session slot) r.links
    rw [Links.Offered, links_release, hsame]
    exact h.offered

theorem begin (hN : N "") (hslot : slot < r.capacity) (hlink : (r.session slot).link = none)
    (id : SessionId) {l : Link} (hlog : l.log = []) : Worded P N (r.begin slot id l) := by
  have hs := session_begin hslot id l
  refine ⟨fun k => ?_, fun k => ?_, ?_⟩
  · rw [hs]
    split
    · exact hN
    · exact h.named k
  · rw [hs]
    split
    · exact nofun
    · exact h.queued k
  · intro offers hoffers offer hoffer
    rw [links_begin hlink, List.map_append] at hoffers
    obtain hoffers | hoffers := List.mem_append.1 hoffers
    · exact h.offered offers hoffers offer hoffer
    · rw [List.mem_singleton.1 hoffers, Link.offers, hlog] at hoffer
      cases hoffer

end Worded

theorem worded_start (hN : N "") (capacity : Nat) (limits : Limits) (store : S) :
    Worded P N (Relay.start capacity limits store) := by
  refine ⟨fun k => ?_, fun k => ?_, fun _ => nofun⟩ <;> rw [session_start]
  · exact hN
  · exact nofun

theorem worded_of_speaks (h : Worded P N r) (hs : ReflTransGen (Speaks P N) r r') :
    Worded P N r' := by
  induction hs with
  | refl => exact h
  | tail _ hs ih =>
    cases hs with
    | store s n => exact ⟨ih.named, ih.queued, ih.offered⟩
    | register slot id token _ hname => exact ih.register slot id hname token
    | send slot target hp => exact ih.send slot target hp

section

variable {v : Service S} (hv : v.Mute)

include hv

/-- However many packets are served: what is said is prompted by them. -/
theorem Worded.serve (h : Worded P N r) (hN : ∀ f : NameField, N f.text)
    (hP : ∀ frame ∈ (Framing.ofBytes (r.session slot).inbound.toList).packets, ∀ request q,
      Packet.decode frame = .ok request → Packet.Prompts N request q → P q.encode) (n : Nat) :
    Worded P N (r.serve v slot id n).2 := by
  induction n with
  | zero => exact h
  | succ n ih =>
    cases hnext : (r.serve v slot id n).2.next? slot id with
    | none =>
      rw [serve_add, serve_of_next?_eq_none hnext]
      exact ih
    | some taken =>
      obtain ⟨frame, ring⟩ := taken
      have hframe := List.mem_of_getElem?
        (getElem?_packets_of_next? (Service.Mute.deed hv) hnext)
      rw [serve_succ_of_next? hnext]
      have hring := ih.withInbound slot ring
      refine worded_of_speaks hring (handle_speaks (Service.Mute.speaks hv) hN
        (fun name hname => ?_) (hP frame hframe))
      rw [← (Session.nameOf_eq_some_iff.1 hname).2.2]
      exact hring.named slot

theorem Worded.disconnect (h : Worded P N r) (hN : N "")
    (hP : ∀ name, N name → P (Packet.userLeaveNotify (.truncated name)).encode) (slot : Nat)
    (id : SessionId) (announced : Bool) : Worded P N (r.disconnect v slot id announced) := by
  have hdepart := h.depart slot id
  unfold Relay.disconnect
  rcases depart_cases r slot id with ⟨-, he⟩ | ⟨-, he⟩
  · rw [he]
    exact h
  · rw [he] at hdepart ⊢
    dsimp only at hdepart ⊢
    split
    · exact hdepart.release hN slot
    · next name hname =>
      have hname : N name := by
        unfold Session.loggedInAs at hname
        split at hname
        · rw [← Option.some.inj hname]
          exact h.named slot
        · cases hname
      have hforget := worded_of_speaks hdepart
        (forget_chain (Service.Mute.speaks hv) name (r.session slot).token _)
      have hrelease := hforget.release hN slot
      split
      · exact worded_of_speaks hrelease (broadcast_speaks (hP name hname) ..)
      · exact hrelease

end

end Relay

/-! ## What is said in the course of a run -/

namespace Packet

/-- What is said if those packets came in: something that they prompt, or that somebody has
left. -/
inductive Follows (requests : List Bytes) : Packet → Prop
  | prompted {frame : Bytes} {request q : Packet} : frame ∈ requests → decode frame = .ok request →
      Prompts NulFree request q → Follows requests q
  | left {name : String} : NulFree name → Follows requests (userLeaveNotify (.truncated name))

variable {requests more : List Bytes}

theorem Follows.mono {q : Packet} (h : Follows requests q) (hsub : requests ⊆ more) :
    Follows more q := by
  cases h with
  | prompted hmem hdecode hprompts => exact .prompted (hsub hmem) hdecode hprompts
  | left hname => exact .left hname

theorem Follows.canonical_or {q : Packet} (h : Follows requests q) :
    ∀ raw ∈ q.fields, raw.Canonical ∨ q.copied? = some raw := by
  cases h with
  | prompted _ _ hprompts => exact hprompts.canonical_or
  | left hname => exact fun raw hraw => .inl (canonical_leave hname raw hraw)

theorem Follows.passedOn? {q : Packet} (h : Follows requests q) {raw : Bytes}
    (hraw : q.copied? = some raw) :
    ∃ frame ∈ requests, ∃ request, decode frame = .ok request ∧ request.passedOn? = some raw := by
  cases h with
  | prompted hmem hdecode hprompts => exact ⟨_, hmem, _, hdecode, hprompts.passedOn? hraw⟩
  | left => cases hraw

/-- The octets of such a packet. -/
def Phrased (requests : List Bytes) (packet : Bytes) : Prop :=
  ∃ q, Follows requests q ∧ packet = q.encode

theorem Phrased.append (packet : Bytes) (h : Phrased requests packet) :
    Phrased (requests ++ more) packet :=
  h.imp fun _ h => ⟨h.1.mono (List.subset_append_left requests more), h.2⟩

theorem phrased_leave {name : String} (h : NulFree name) :
    Phrased requests (userLeaveNotify (.truncated name)).encode :=
  ⟨_, .left h, rfl⟩

theorem first_encode (p : Packet) : Framing.first p.encode = .ok (some (p.encode, [])) := by
  have hsize : (Header.ofKind p.kind).declaredSize = p.encode.length := by
    rw [Header.declaredSize_ofKind, length_encode]
  have hfine : FramingError.ofSize? p.encode.length = none := by
    rw [length_encode]
    cases p.kind <;> rfl
  refine Framing.first_eq_some_iff.2 ⟨.ofKind p.kind, Header.ofBytes?_toBytes_append .., ?_⟩
  rw [hsize, List.take_length, List.drop_length]
  exact ⟨hfine, Nat.le_refl _, rfl, rfl⟩

end Packet

namespace Engine

open Relay Packet

variable {v : Service S} {e : Engine S} {requests : List Bytes} {slot : Nat} {id : SessionId}

/-- The packets that the ring holds whole once a step has brought its octets. -/
def frames (e : Engine S) : Step → List Bytes
  | .complete (.received slot id (.ok bs)) =>
    (Framing.ofBytes ((e.relay.receive slot id bs).2.session slot).inbound.toList).packets
  | _ => []

def allFrames (v : Service S) : Engine S → List Step → List Bytes
  | _, [] => []
  | e, s :: steps => e.frames s ++ allFrames v (e.step v s) steps

/-- What the relay is found as once a step is made, or when the first packets that a read brings are
handled and the next one is not. -/
inductive Reaches (v : Service S) (e : Engine S) : Step → Relay S → Prop
  | step (s : Step) : Reaches v e s (e.step v s).relay
  | serve (slot : Nat) (id : SessionId) (bs : Bytes) (n : Nat) :
      Reaches v e (.complete (.received slot id (.ok bs)))
        ((e.relay.receive slot id bs).2.serve v slot id n).2

theorem nulFree_empty : NulFree "" :=
  List.not_mem_nil

section

variable (hv : v.Mute) (h : Worded (Phrased requests) NulFree e.relay)

include hv h

theorem worded_serve (slot : Nat) (id : SessionId) (bs : Bytes) (n : Nat) :
    Worded (Phrased (requests ++ e.frames (.complete (.received slot id (.ok bs))))) NulFree
      ((e.relay.receive slot id bs).2.serve v slot id n).2 := by
  refine ((h.receive slot id bs).mono Phrased.append).serve hv (fun f => f.nul_notMem_text)
    (fun frame hframe request q hd hq => ?_) n
  exact ⟨q, .prompted (List.mem_append_right requests hframe) hd hq, rfl⟩

theorem worded_takeIn (slot : Nat) (id : SessionId) (result : Except String Bytes) :
    Worded (Phrased (requests ++ e.frames (.complete (.received slot id result)))) NulFree
      (e.relay.takeIn v slot id result).2 := by
  obtain he | ⟨bs, rfl, hcases⟩ := e.relay.takeIn_cases v slot id result
  · rw [he]
    exact h.mono Phrased.append
  · have hserved := worded_serve hv h slot id bs
    obtain he | he | he := hcases <;> rw [he]
    · exact hserved 0
    · exact hserved _
    · exact (hserved _).armRead slot id

theorem worded_disconnect (slot : Nat) (id : SessionId) :
    Worded (Phrased requests) NulFree (e.disconnect v slot id).relay :=
  h.disconnect hv nulFree_empty (fun _ => phrased_leave) slot id e.running

theorem worded_complete (c : Completion) :
    Worded (Phrased (requests ++ e.frames (.complete c))) NulFree (e.complete v c).relay := by
  have hsame : Worded (Phrased (requests ++ e.frames (.complete c))) NulFree e.relay :=
    h.mono Phrased.append
  cases c with
  | received slot id result =>
    have htakeIn := worded_takeIn hv h slot id result
    unfold complete
    dsimp only
    split
    · rw [afterRead_takeIn]
      split
      · exact worded_disconnect hv htakeIn slot id
      · exact htakeIn
    · exact hsame
  | sent slot id result =>
    unfold complete
    dsimp only
    split
    · cases result with
      | error err => exact worded_disconnect hv hsame slot id
      | ok n => exact hsame.sent slot id
    · exact hsame

theorem worded_endAll (slots : List Nat) :
    Worded (Phrased requests) NulFree (e.endAll v slots).relay := by
  induction slots generalizing e with
  | nil => exact h
  | cons slot slots ih =>
    unfold endAll
    dsimp only
    split
    · exact ih h
    · exact ih (worded_disconnect hv h slot _)

omit hv in
theorem worded_accept (hw : Wired e.relay) (c : Incoming) :
    Worded (Phrased requests) NulFree (e.accept c).2.relay := by
  obtain he | ⟨slot, r, ha, hcases⟩ := e.accept_eq c
  · rwa [he]
  · obtain ⟨hleased, hlink, -⟩ := hw.acquired ha
    have hacquired := h.acquire ha
    have harmed := (hacquired.begin nulFree_empty (lt_capacity_of_leased hleased) hlink
      e.allocate.1 (l := c.link slot e.allocate.1) rfl).armRead slot e.allocate.1
    obtain ⟨-, he⟩ | ⟨-, -, he⟩ | ⟨-, -, he⟩ := hcases <;> rw [he]
    · exact hacquired.release nulFree_empty slot
    · exact harmed
    · exact harmed.release nulFree_empty slot

theorem worded_step (hw : Wired e.relay) (s : Step) :
    Worded (Phrased (requests ++ e.frames s)) NulFree (e.step v s).relay := by
  cases s with
  | accept c => exact worded_accept (h.mono Phrased.append) hw c
  | complete c => exact worded_complete hv h c
  | halt => exact h.mono Phrased.append
  | stop => exact worded_endAll (e := e.halt) hv (h.mono Phrased.append) _

theorem worded_of_reaches (hw : Wired e.relay) {s : Step} {r : Relay S} (hr : e.Reaches v s r) :
    Worded (Phrased (requests ++ e.frames s)) NulFree r := by
  cases hr with
  | step => exact worded_step hv h hw s
  | serve slot id bs n => exact worded_serve hv h slot id bs n

theorem worded_run (hw : Wired e.relay) (steps : List Step) :
    Worded (Phrased (requests ++ e.allFrames v steps)) NulFree (e.run v steps).relay := by
  induction steps generalizing e requests with
  | nil =>
    rw [allFrames, List.append_nil]
    exact h
  | cons s steps ih =>
    have hstep := worded_step hv h hw s
    rw [allFrames, ← List.append_assoc]
    exact ih hstep (hw.of_stirs (step_stirs (mute_stir hv) hw s))

end

theorem allFrames_append (v : Service S) (e : Engine S) (steps : List Step) (s : Step) :
    e.allFrames v (steps ++ [s]) = e.allFrames v steps ++ (e.run v steps).frames s := by
  induction steps generalizing e with
  | nil => exact List.append_nil _
  | cons s' steps ih =>
    rw [List.cons_append, allFrames, ih, ← List.append_assoc]
    rfl

/-- A packet that comes in whole for an empty ring is handled. -/
theorem reaches_handle (hv : v.Blind) (ho : (e.relay.session slot).obstacle? id = none) {bs : Bytes}
    (hnil : (e.relay.session slot).inbound.toList = [])
    (hfits : bs.length ≤ (e.relay.session slot).inbound.free)
    (hf : Framing.first bs = .ok (some (bs, []))) :
    ∃ ring, e.Reaches v (.complete (.received slot id (.ok bs)))
      ((e.relay.handle v slot id bs).withInbound slot ring) := by
  have hreceive := receive_of_fits ho hfits
  have hheld : ((e.relay.receive slot id bs).2.session slot).inbound.toList = bs := by
    rw [hreceive, session_withInbound_self (lt_capacity_of_obstacle? ho)]
    exact (Ring.toList_append hfits).trans (by rw [hnil, List.nil_append])
  have ho' : ((e.relay.receive slot id bs).2.session slot).obstacle? id = none := by
    rw [hreceive, obstacle?_withInbound, ho]
  have hreaches : e.Reaches v _ _ := .serve slot id bs 1
  rw [serve_of_some hv ho' (by rw [hheld, hf]), hreceive, handle_withInbound hv,
    withInbound_withInbound] at hreaches
  exact ⟨_, hreaches⟩

/-- Whatever anybody sends, all packets that are queued or sent can be decoded, and a field of theirs
is canonical unless it was copied from a request: a name from a login, or a message. So a packet is
canonical exactly if the field of the request was. -/
theorem canonical_iff_copied (answer : (c : StoreCall) → S → Except StoreError c.Answer × S)
    (token : Nat → String) (lifetime capacity : Nat) (limits : Limits) (store : S)
    (steps : List Step) (s : Step) (r : Relay S) (packet : Bytes) :
    let v := Service.ofStore answer token lifetime
    let e := start capacity limits store
    (e.run v steps).Reaches v s r → r.Carries packet →
    ∃ q, packet = q.encode ∧ Packet.decode packet = .ok q ∧
      (∀ raw ∈ q.fields, raw.Canonical ∨ q.copied? = some raw) ∧
      (q.Canonical ↔ ∀ raw ∈ q.copied?, raw.Canonical) ∧
      ∀ raw ∈ q.copied?, ∃ frame ∈ e.allFrames v (steps ++ [s]), ∃ request,
        Packet.decode frame = .ok request ∧ request.passedOn? = some raw := by
  intro v e hr hcarries
  have hv : v.Mute := Service.ofStore_mute
  have hstart : Wired e.relay := .start ..
  have hwired := hstart.of_stirs (run_stirs (mute_stir hv) hstart steps)
  have hworded₀ : Worded (Phrased []) NulFree e.relay := worded_start nulFree_empty ..
  have hworded := worded_run hv hworded₀ hstart steps
  obtain ⟨q, hq, rfl⟩ := (worded_of_reaches hv hworded hwired hr).of_carries hcarries
  refine ⟨q, rfl, decode_encode q, hq.canonical_or, canonical_iff hq.canonical_or,
    fun raw hraw => ?_⟩
  rw [allFrames_append]
  exact hq.passedOn? hraw

/-- Somebody fills its name field with something behind the NUL, and the other one is shown that. -/
theorem canonical_iff_copied_trailing :
    let name : NameField := ⟨98 :: 0 :: List.replicate 31 120, rfl⟩
    let steps : List Step := [.accept (.ofPeer none), .accept (.ofPeer none), .complete
      (.received 0 1 (.ok (Packet.loginRequest .blank .blank (.truncated "ann")).encode))]
    let login := (Packet.loginRequest .blank .blank name).encode
    let v := Service.direct (fun _ => "t") 60
    let e := start 2 ⟨128, 128, maxPacketSize, 4⟩ (Store.empty.addUser "" "")
    let r := (((e.run v steps).relay.receive 1 2 login).2.serve v 1 2 1).2
    let notice := Packet.userJoinNotify name
    r.Carries notice.encode ∧ (notice.Canonical ↔ name.raw.Canonical) := by
  intro name steps login v e r notice
  have hcarries : r.Carries notice.encode := .inl ⟨0, by decide +kernel⟩
  obtain ⟨q, -, hdecode, -, hiff, -⟩ := canonical_iff_copied (fun c (s : Store) => s.answer c)
    (fun _ => "t") 60 2 _ _ steps _ r _ (.serve 1 2 login 1) hcarries
  obtain rfl : notice = q := Except.ok.inj ((decode_encode notice).symm.trans hdecode)
  exact ⟨hcarries, hiff.trans (by simp [notice, copied?])⟩

def annAndBob : Engine Store :=
  let login (name : String) := (Packet.loginRequest .blank .blank (.truncated name)).encode
  (start 2 ⟨1030, 1030, maxPacketSize, 4⟩ (Store.empty.addUser "" "")).run
    (.direct (fun _ => "t") 60) [.accept (.ofPeer none), .accept (.ofPeer none),
      .complete (.received 0 1 (.ok (login "ann"))), .complete (.received 1 2 (.ok (login "bob")))]

/-- A message without a NUL is passed on as it is, so a packet is sent whose last octet is not a
NUL. -/
theorem unterminated_passed_on :
    let v := Service.direct (fun _ => "t") 60
    let message : MessageField := ⟨List.replicate 1025 97, List.length_replicate⟩
    let request := Packet.broadcastRequest message
    let q := Packet.broadcastResponse (.truncated "ann") message
    ∃ r, annAndBob.Reaches v (.complete (.received 0 1 (.ok request.encode))) r ∧
      r.Carries q.encode ∧ Packet.decode q.encode = .ok q ∧ ¬ q.Canonical := by
  intro v message request q
  have hrun : (annAndBob.relay.session 0).obstacle? 1 = none ∧
      (annAndBob.relay.session 0).inbound.toList = [] ∧
      1029 ≤ (annAndBob.relay.session 0).inbound.free ∧
      q.encode ∈ ((annAndBob.relay.handle v 0 1 request.encode).session 1).queue := by
    decide +kernel
  obtain ⟨ho, hnil, hfree, hqueued⟩ := hrun
  have hfits := Nat.le_trans (Nat.le_of_eq (length_encode request)) hfree
  obtain ⟨ring, hr⟩ := reaches_handle (v := v) Service.ofStore_blind ho hnil hfits
    (first_encode request)
  refine ⟨_, hr, .inl ⟨1, ?_⟩, decode_encode q, fun hcanonical => ?_⟩
  · rwa [session_withInbound_ne (by decide)]
  · have hmessage : message.raw.Canonical := hcanonical _ (by simp [q, fields])
    cases hmessage.getLast?.symm.trans List.getLast?_replicate

end Engine

end ChatRelay
