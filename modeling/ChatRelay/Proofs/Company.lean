import ChatRelay.Proofs.Relay.Hearing
import ChatRelay.Proofs.Relay.Serving

/-! # In company

While one connection sends whole packets, in whatever chunks, and the writes to another are done one
by one, both stay logged in. What waits for the other is at most what came in and is not done yet.
-/

namespace ChatRelay

open Relation (ReflTransGen)

variable {S : Type}

theorem Session.queue_sent_of_willing {s : Session} {ls : Links} {id : SessionId}
    (hw : s.Willing ls) (hid : s.id = id) : (s.sent id ls).1.queue = s.queue.tail := by
  unfold sent
  rw [if_neg (not_not.2 hid)]
  dsimp only
  split
  · next l hl =>
    rw [(postNext_of_willing (s := { s with queue := s.queue.tail }) hw hl).1]
  · next hl =>
    obtain ⟨l, hsome⟩ := hw.link
    cases hsome.symm.trans hl

namespace Relay

variable {v : Service S} {r r' : Relay S} {slot k : Nat} {id : SessionId}
  {sender receiver : String}

def Eager (r : Relay S) (slot : Nat) : Prop :=
  ∃ l, (r.session slot).linkIn r.links = some l ∧ l.receiveAnswers.Yes

instance Eager.decidable (r : Relay S) (slot : Nat) : Decidable (r.Eager slot) :=
  match hl : (r.session slot).linkIn r.links with
  | none => .isFalse fun ⟨l, h, _⟩ => by rw [hl] at h; cases h
  | some l =>
    if hy : l.receiveAnswers.Yes then .isTrue ⟨l, hl, hy⟩
    else .isFalse fun ⟨l', h, hy'⟩ => by rw [hl] at h; cases h; exact hy hy'

theorem Eager.congr (h : r.Eager slot) (hl : (r'.session slot).link = (r.session slot).link)
    (hmap : r'.links.map Link.receiveAnswers = r.links.map Link.receiveAnswers) :
    r'.Eager slot := by
  obtain ⟨l, hlink, hyes⟩ := h
  obtain ⟨i, hi, hat⟩ := Option.bind_eq_some_iff.1 hlink
  have hsame := congrArg (·[i]?) hmap
  simp only [List.getElem?_map, hat, Option.map_some] at hsame
  obtain ⟨l', hat', hanswers⟩ := Option.map_eq_some_iff.1 hsame
  refine ⟨l', ?_, hanswers ▸ hyes⟩
  rw [Session.linkIn, hl, hi]
  exact hat'

theorem Eager.armRead (h : r.Eager slot) (hid : (r.session slot).id = id)
    (hfree : (r.session slot).inbound.free ≠ 0) :
    (r.armRead slot id).1 = .ok () ∧ (r.armRead slot id).2.Eager slot := by
  obtain ⟨l, hlink, hyes⟩ := h
  obtain ⟨i, hi, hat⟩ := Option.bind_eq_some_iff.1 hlink
  have ho : (r.session slot).obstacle? id = none :=
    Session.obstacle?_eq_none_iff.2 ⟨hid, by rw [hi]; rfl⟩
  set limit := min (r.session slot).limits.readChunk (r.session slot).inbound.free with hlimit
  have hask : r.links.receive i limit = (true, (r.links.receive i limit).2) := by
    refine Prod.ext ?_ rfl
    rw [Links.receive, Links.ask_of_some hat]
    exact hyes.head
  have harm : r.armRead slot id = (.ok (), { r with links := (r.links.receive i limit).2 }) := by
    simp only [Relay.armRead, Session.armRead, ho, hi, if_neg hfree, ← hlimit]
    rw [hask]
  rw [harm]
  refine ⟨rfl, (l.receive limit).2, ?_, hyes.tail⟩
  exact (congrArg (Option.bind · _) hi).trans (Links.getElem?_ask_self hat _)

section

variable (h : Orderly r) (hr : r.Hears k receiver) (hne : slot ≠ k)

include hr in
theorem length_queue_send_le (hw : Wired r) (j : Nat) (target : Option SessionId)
    (packet : Bytes) :
    ((r.send j target packet).2.session k).queue.length ≤ (r.session k).queue.length + 1 := by
  rw [session_send]
  split
  · cases ha : (r.session k).accepts target packet with
    | true =>
      rw [(Session.send_of_accepts hr.willing (hw.sends k) ha).1]
      simp
    | false =>
      rw [Session.send_of_refused ha]
      exact Nat.le_succ _
  · exact Nat.le_succ _

include h hr hne in
theorem length_queue_handle_le (hs : (r.session slot).nameOf id = some sender)
    (packet : Bytes) : ((r.handle v slot id packet).session k).queue.length ≤
      (r.session k).queue.length + 1 := by
  have hreply (r : Relay S) (p : Packet) : (r.reply slot id p).session k = r.session k := by
    rw [reply, session_send, if_neg hne]
  unfold handle
  split
  · have hlogin (user password name : String) :
        r.login v slot id user password name = (.alreadyLoggedIn, r) := by
      rw [login, if_pos (by rw [hs]; rfl)]
    rw [answerLogin, hlogin]
    simp [hreply]
  · simp only [relayBroadcast, hs]
    have hauth := h.consistent.isAuthenticated_iff.2 hr.phase
    rw [(offered_broadcast h (by simp [hne]) hauth).session]
    have hsend := length_queue_send_le hr h.wired k none
    simpa [session_send] using hsend _
  · next addressee message _ =>
    have hsent (p : Bytes) : ((r.sendToName addressee.text p).2.session k).queue.length ≤
        (r.session k).queue.length + 1 := by
      unfold sendToName
      split
      · exact Nat.le_succ _
      · exact length_queue_send_le hr h.wired _ none p
    obtain he | ⟨text, he⟩ := relayWhisper_or hs addressee message <;> rw [he]
    · exact hsent _
    · rw [hreply]
      exact hsent _
  · exact Nat.le_succ _

theorem length_queue_handleAll_le (hd : v.Within Deed) (h : Orderly r)
    (hr : r.Hears k receiver) (hne : slot ≠ k) (hs : (r.session slot).nameOf id = some sender)
    (packets : List Bytes) : ((r.handleAll v slot id packets).session k).queue.length ≤
      (r.session k).queue.length + packets.length := by
  induction packets generalizing r with
  | nil => exact Nat.le_refl _
  | cons packet packets ih =>
    have hfirst := handle_deeds hd slot id packet r
    have hone := length_queue_handle_le (v := v) h hr hne hs packet
    have hrest := ih (h.of_deeds hfirst) (hr.of_deeds h hfirst) (nameOf_of_deeds hfirst hs)
    rw [handleAll_cons, List.length_cons]
    omega

theorem length_queue_absorb_le (hd : v.Within Deed) (h : Orderly r) (hr : r.Hears k receiver)
    (hne : slot ≠ k) (hs : (r.session slot).nameOf id = some sender) (bs : Bytes) :
    ((r.absorb v slot id bs).session k).queue.length ≤
      (r.session k).queue.length + (r.framing slot bs).packets.length := by
  rw [absorb, session_withInbound_ne hne]
  exact length_queue_handleAll_le hd h hr hne hs _

theorem identity_absorb (hd : v.Within Deed) (slot : Nat) (id : SessionId) (bs : Bytes)
    (hp : (r.session k).phase = .authenticated) :
    ((r.absorb v slot id bs).session k).identity = (r.session k).identity :=
  (identity_withInbound ..).trans (identity_of_deeds (handleAll_chain (fun _ _ h => h) hd ..) hp)

theorem Eager.absorb (hd : v.Within Deed) (h : r.Eager slot)
    (hp : (r.session slot).phase = .authenticated) (id : SessionId) (bs : Bytes) :
    (r.absorb v slot id bs).Eager slot := by
  refine h.congr (congrArg Identity.link (identity_absorb hd slot id bs hp)) ?_
  have hmap : (r.handleAll v slot id (r.framing slot bs).packets).links.map Link.receiveAnswers =
      r.links.map Link.receiveAnswers :=
    map_links_of_deeds (fun _ _ => rfl) (handleAll_chain (fun _ _ h => h) hd ..)
  exact hmap

theorem speech_of_nameOf (hd : v.Within Deed) (hne : slot ≠ k)
    (hs : (r.session slot).nameOf id = some sender) (packets : List Bytes) :
    r.speech v slot id k receiver packets =
      packets.filterMap (Packet.relayed? sender receiver) := by
  induction packets generalizing r with
  | nil => rfl
  | cons packet packets ih =>
    have hsays : r.says? slot id k receiver packet = Packet.relayed? sender receiver packet := by
      simp only [says?, hs, hne, false_and, if_false]
    rw [speech, hsays, ih (nameOf_of_deeds (handle_deeds hd slot id packet r) hs),
      List.filterMap_cons]
    cases Packet.relayed? sender receiver packet <;> rfl

end

end Relay

namespace Engine

open Relay

variable {v : Service S} {e : Engine S} {slot k : Nat} {id rid : SessionId}
  {sender receiver : String} {capacity n : Nat} {held : Bytes}

/-- Connection `id` of `slot` is logged in as `sender`, has `held` of a packet in a ring of so many
cells, and may read on; `rid` in `k` is logged in as `receiver`, and its link takes every packet. At
most `n` packets wait for it. -/
structure Company (e : Engine S) (slot : Nat) (id : SessionId) (sender : String) (capacity : Nat)
    (k : Nat) (rid : SessionId) (receiver : String) (held : Bytes) (n : Nat) : Prop where
  orderly : Orderly e.relay
  ne : slot ≠ k
  name : (e.relay.session slot).nameOf id = some sender
  eager : e.relay.Eager slot
  cells : (e.relay.session slot).inbound.capacity = capacity
  held : (e.relay.session slot).inbound.toList = held
  listener : (e.relay.session k).nameOf rid = some receiver
  hears : e.relay.Hears k receiver
  waiting : (e.relay.session k).queue.length ≤ n

namespace Company

variable (h : e.Company slot id sender capacity k rid receiver held n)

include h

theorem served : (e.relay.session slot).obstacle? id = none := by
  obtain ⟨hid, hp, -⟩ := Session.nameOf_eq_some_iff.1 h.name
  exact Session.obstacle?_eq_none_iff.2 ⟨hid, h.orderly.consistent.link_of_phase (by simp [hp])⟩

theorem free_eq : (e.relay.session slot).inbound.free = capacity - 1 - held.length := by
  have hfree := (e.relay.session slot).inbound.size_add_free
  have hcells : (e.relay.session slot).inbound.cells.size = capacity := h.cells
  rw [← Ring.length_toList, h.held, hcells] at hfree
  omega

theorem write (hd : v.Within Deed) (m : Nat) :
    (e.step v (.complete (.sent k rid (.ok m)))).Company slot id sender capacity k rid receiver
      held (n - 1) := by
  have hid := (Session.nameOf_eq_some_iff.1 h.listener).1
  have hlink := h.orderly.consistent.link_of_phase (k := k) (by simp [h.hears.phase])
  have hstep : e.step v (.complete (.sent k rid (.ok m))) =
      { e with relay := e.relay.sent k rid } := by
    rw [step, complete, if_pos (lt_capacity_of_link hlink)]
    rfl
  have horderly := orderly_step (s := .complete (.sent k rid (.ok m))) hd h.orderly trivial
  rw [hstep] at horderly ⊢
  have hslot : (e.relay.sent k rid).session slot = e.relay.session slot := by
    rw [session_sent, if_neg h.ne.symm]
  have hself : (e.relay.sent k rid).session k = ((e.relay.session k).sent rid e.relay.links).1 := by
    rw [session_sent, if_pos rfl]
  obtain ⟨q, b, hsent⟩ := (e.relay.session k).sent_eq rid e.relay.links
  constructor
  case orderly => exact horderly
  case ne => exact h.ne
  case name => rw [hslot]; exact h.name
  case eager =>
    exact h.eager.congr (by rw [hslot]) (Session.map_sent (fun _ _ => rfl) (e.relay.session k) rid _)
  case cells => rw [hslot]; exact h.cells
  case held => rw [hslot]; exact h.held
  case listener => rw [hself, hsent]; exact h.listener
  case hears => exact (h.hears.sent h.orderly.wired k rid).1
  case waiting =>
    rw [hself, Session.queue_sent_of_willing h.hears.willing hid, List.length_tail]
    exact Nat.sub_le_sub_right h.waiting 1

/-- A chunk that fits and completes whole packets is taken in, and the next read is asked for. -/
theorem step_received (hb : v.Blind) (hd : v.Within Deed) {bs rest : Bytes}
    {packets : List Bytes} (hne : bs ≠ []) (hfits : held.length + bs.length < capacity)
    (hrest : rest.length + 1 < capacity)
    (hframing : Framing.ofBytes (held ++ bs) = ⟨packets, none, rest⟩) :
    let r := e.relay.absorb v slot id bs
    e.relay.framing slot bs = ⟨packets, none, rest⟩ ∧
      bs.length ≤ (e.relay.session slot).inbound.free ∧
      (r.session slot).inbound.toList = rest ∧ (r.session slot).inbound.capacity = capacity ∧
      (r.armRead slot id).2.Eager slot ∧
      e.step v (.complete (.received slot id (.ok bs))) =
        { e with relay := (r.armRead slot id).2 } := by
  intro r
  have ho := h.served
  obtain ⟨hid, hp, -⟩ := Session.nameOf_eq_some_iff.1 h.name
  have hroom : bs.length ≤ (e.relay.session slot).inbound.free := by
    rw [h.free_eq]
    omega
  have hf : e.relay.framing slot bs = ⟨packets, none, rest⟩ := by
    rw [framing, h.held, hframing]
  have hinbound : (r.session slot).inbound = _ := inbound_absorb (v := v) hd ho bs
  have hheld : (r.session slot).inbound.toList = rest := by
    rw [hinbound, toList_leftAfter hroom, hf]
  have hcells : (r.session slot).inbound.capacity = capacity := by
    rw [hinbound, ← h.cells]
    exact Ring.size_cells_append ..
  have hfree : (r.session slot).inbound.free ≠ 0 := by
    have hsize := (r.session slot).inbound.size_add_free
    have hcells : (r.session slot).inbound.cells.size = capacity := hcells
    rw [← Ring.length_toList, hheld, hcells] at hsize
    omega
  have hself := identity_absorb hd slot id bs hp
  obtain ⟨harm, heager⟩ := (h.eager.absorb hd hp id bs).armRead
    ((congrArg Identity.id hself).trans hid) hfree
  refine ⟨hf, hroom, hheld, hcells, heager, ?_⟩
  have hdrain := drain_receive hb hd ho hroom
  rw [receive_of_fits ho hroom, hf] at hdrain
  obtain ⟨b, bs, rfl⟩ := List.exists_cons_of_ne_nil hne
  have harmed : r.armRead slot id = (.ok (), (r.armRead slot id).2) := Prod.ext harm rfl
  have htaken : e.relay.takeIn v slot id (.ok (b :: bs)) = (false, (r.armRead slot id).2) := by
    simp only [takeIn, receive_of_fits ho hroom, hdrain, Framing.outcome]
    rw [harmed]
  rw [step, complete_received, afterRead_takeIn, htaken]
  rfl

/-- The company stays, with the rest of the chunk held, and what the packets say is said. -/
theorem read (hv : v.Mute) (hb : v.Blind) {bs rest : Bytes} {packets : List Bytes} (hne : bs ≠ [])
    (hfits : held.length + bs.length < capacity) (hrest : rest.length + 1 < capacity)
    (hframing : Framing.ofBytes (held ++ bs) = ⟨packets, none, rest⟩) :
    (e.step v (.complete (.received slot id (.ok bs)))).Company slot id sender capacity k rid
        receiver rest (n + packets.length) ∧
      e.speech v k receiver (.complete (.received slot id (.ok bs))) =
        packets.filterMap (Packet.relayed? sender receiver) := by
  have hd : v.Within Deed := Service.Mute.deed hv
  obtain ⟨hf, hroom, hheld, hcells, heager, hstep⟩ := h.step_received hb hd hne hfits hrest hframing
  obtain ⟨hid, hp, hu⟩ := Session.nameOf_eq_some_iff.1 h.name
  have hpackets : (e.relay.framing slot bs).packets = packets := congrArg Framing.packets hf
  have hname {j : Nat} {i : SessionId} {name : String}
      (hn : (e.relay.session j).nameOf i = some name) :
      ((e.relay.absorb v slot id bs).session j).nameOf i = some name := by
    obtain ⟨hid, hp, hu⟩ := Session.nameOf_eq_some_iff.1 hn
    have hi := identity_absorb hd slot id bs hp
    exact Session.nameOf_eq_some_iff.2 ⟨(congrArg Identity.id hi).trans hid,
      (congrArg Identity.phase hi).trans hp, (congrArg Identity.username hi).trans hu⟩
  have hears := (told_absorb hv h.orderly h.hears slot id bs).hears
  have horderly := orderly_step (s := .complete (.received slot id (.ok bs))) hd h.orderly trivial
  have hqueue := length_queue_absorb_le hd h.orderly h.hears h.ne h.name bs
  constructor
  · rw [hstep] at horderly ⊢
    constructor
    case orderly => exact horderly
    case ne => exact h.ne
    case name => exact hname h.name
    case eager => exact heager
    case cells => exact hcells
    case held => exact hheld
    case listener => exact hname h.listener
    case hears => exact (told_armRead hears slot id).hears
    case waiting =>
      rw [hpackets] at hqueue
      exact hqueue.trans (Nat.add_le_add_right h.waiting _)
  · rw [speech, completed, if_pos ⟨hne, h.served, hroom⟩, hpackets]
    exact speech_of_nameOf hd h.ne h.name packets

end Company

/-- The steps are chunks from connection `id` of `slot`, which fit a ring of so many cells and
complete `packets`, one after another, and writes to `rid` in `k` that are done. With `held` in the
ring and `n` packets waiting for `rid` at first, there are never `backlog` of them, and none at the
end. -/
inductive Flows (slot : Nat) (id : SessionId) (capacity k : Nat) (rid : SessionId) (backlog : Nat) :
    Bytes → Nat → List Step → List Bytes → Prop
  | nil {held : Bytes} : 0 < backlog → Flows slot id capacity k rid backlog held 0 [] []
  | read {held bs rest : Bytes} {n : Nat} {packets more : List Bytes} {steps : List Step} :
      n < backlog → bs ≠ [] → held.length + bs.length < capacity → rest.length + 1 < capacity →
      Framing.ofBytes (held ++ bs) = ⟨packets, none, rest⟩ →
      Flows slot id capacity k rid backlog rest (n + packets.length) steps more →
      Flows slot id capacity k rid backlog held n
        (.complete (.received slot id (.ok bs)) :: steps) (packets ++ more)
  | write {held : Bytes} {n m : Nat} {packets : List Bytes} {steps : List Step} :
      n < backlog → Flows slot id capacity k rid backlog held (n - 1) steps packets →
      Flows slot id capacity k rid backlog held n (.complete (.sent k rid (.ok m)) :: steps) packets

/-- Both connections are logged in, and there is room in the queue of the other. -/
def Keeping (e : Engine S) (slot : Nat) (id : SessionId) (sender : String) (k : Nat)
    (rid : SessionId) (receiver : String) (backlog : Nat) : Prop :=
  (e.relay.session slot).nameOf id = some sender ∧
    (e.relay.session k).nameOf rid = some receiver ∧
    (e.relay.session k).queue.length < backlog

/-- Two connections stay logged in while whole packets flow from the one, in whatever chunks, and
the writes to the other keep up. What is said meanwhile is what the packets say. -/
theorem Company.run (hv : v.Mute) (hb : v.Blind) {backlog : Nat} {steps : List Step}
    {packets : List Bytes}
    (h : e.Company slot id sender capacity k rid receiver held n)
    (hf : Flows slot id capacity k rid backlog held n steps packets) :
    (∀ p, p <+: steps → (e.run v p).Keeping slot id sender k rid receiver backlog) ∧
      ((e.run v steps).relay.session k).queue = [] ∧
      e.conversation v k receiver steps =
        (packets.filterMap (Packet.relayed? sender receiver)).map (some (slot, id), ·) := by
  have hcons {e : Engine S} {s : Step} {steps : List Step} {held : Bytes} {n : Nat}
      (h : e.Company slot id sender capacity k rid receiver held n) (hn : n < backlog)
      (hall : ∀ p, p <+: steps →
        ((e.step v s).run v p).Keeping slot id sender k rid receiver backlog) :
      ∀ p, p <+: s :: steps → (e.run v p).Keeping slot id sender k rid receiver backlog := by
    intro p hp
    cases p with
    | nil => exact ⟨h.name, h.listener, Nat.lt_of_le_of_lt h.waiting hn⟩
    | cons s' p =>
      obtain ⟨rfl, hrest⟩ := List.cons_prefix_cons.1 hp
      exact hall p hrest
  induction hf generalizing e with
  | nil hpos =>
    refine ⟨fun p hp => ?_, List.length_eq_zero_iff.1 (Nat.le_zero.1 h.waiting), rfl⟩
    rw [List.prefix_nil.1 hp]
    exact ⟨h.name, h.listener, Nat.lt_of_le_of_lt h.waiting hpos⟩
  | read hn hne hfits hrest hframing _ ih =>
    obtain ⟨hnext, hspeech⟩ := h.read hv hb hne hfits hrest hframing
    obtain ⟨hall, hdone, hchat⟩ := ih hnext
    refine ⟨hcons h hn hall, hdone, ?_⟩
    rw [conversation, hspeech, hchat, List.filterMap_append, List.map_append]
    rfl
  | write hn _ ih =>
    obtain ⟨hall, hdone, hchat⟩ := ih (h.write (Service.Mute.deed hv) _)
    refine ⟨hcons h hn hall, hdone, ?_⟩
    rw [conversation, hchat]
    rfl

end Engine

end ChatRelay
