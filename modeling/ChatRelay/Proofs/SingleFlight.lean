import ChatRelay.Proofs.Outgoing
import Mathlib.Logic.Relation

/-! # One write at a time

A session has at most one write under way, and that is the front of its queue. Whatever links refuse
and however late the completions of earlier connections come, every packet that is taken is offered
to the link of its own connection, once and in order.
-/

namespace ChatRelay

open Relation (ReflTransGen)

def LinkEvent.offer? : LinkEvent → Option (Bytes × Bool)
  | .send packet => some (packet, true)
  | .sendRefused packet => some (packet, false)
  | _ => none

def Link.offers (l : Link) : List (Bytes × Bool) :=
  l.log.filterMap LinkEvent.offer?

theorem Link.handed_eq (l : Link) : l.handed = (l.offers.filter (·.2)).map Prod.fst := by
  unfold handed offers
  induction l.log with
  | nil => rfl
  | cons e log ih =>
    cases e <;> simp [List.filterMap_cons, LinkEvent.packet?, LinkEvent.offer?, ih]

theorem Link.offers_send (l : Link) (packet : Bytes) :
    (l.send packet).2.offers = l.offers ++ [(packet, l.sendAnswers.head)] := by
  cases h : l.sendAnswers.head <;>
    simp [Link.send, Link.record, Link.offers, LinkEvent.offer?, h]

@[simp] theorem Link.offers_close (l : Link) : (l.record .close).offers = l.offers := by
  simp [record, offers, LinkEvent.offer?]

namespace Session

variable {s : Session} {ls : Links} {l : LinkId} {link : Link}

def offers (s : Session) (ls : Links) : List (Bytes × Bool) :=
  ((s.linkIn ls).map Link.offers).getD []

theorem offers_of_linkIn (h : s.linkIn ls = some link) : s.offers ls = link.offers := by
  rw [offers, h]; rfl

theorem handed_eq (s : Session) (ls : Links) :
    s.handed ls = ((s.offers ls).filter (·.2)).map Prod.fst := by
  unfold handed offers
  cases s.linkIn ls with
  | none => rfl
  | some link => exact link.handed_eq

theorem offers_post (h : ls[l]? = some link) (packets : List Bytes) :
    ∃ link' refused, (post l ls packets).2[l]? = some link' ∧
      packets = refused ++ (post l ls packets).1 ∧
      link'.offers = link.offers ++ refused.map (·, false) ++
        ((post l ls packets).1.take 1).map (·, true) := by
  induction packets generalizing ls link with
  | nil => exact ⟨link, [], h, rfl, by simp [post]⟩
  | cons packet packets ih =>
    have hsend : ls.send l packet = (link.sendAnswers.head, ls.set l (link.send packet).2) :=
      Links.ask_of_some h _
    have hat : (ls.set l (link.send packet).2)[l]? = some (link.send packet).2 := by
      simpa only [Links.ask_of_some h] using Links.getElem?_ask_self h (·.send packet)
    have hoffers := link.offers_send packet
    unfold post
    rw [hsend]
    cases hyes : link.sendAnswers.head with
    | true => exact ⟨_, [], hat, rfl, by simp [hoffers, hyes]⟩
    | false =>
      obtain ⟨link', refused, hat', hsplit, hlink'⟩ := ih hat
      refine ⟨link', packet :: refused, hat', congrArg (packet :: ·) hsplit, ?_⟩
      simp [hlink', hoffers, hyes]

theorem offers_postNext (h : s.linkIn ls = some link) (hl : s.link = some l) :
    ∃ refused queue, s.queue = refused ++ queue ∧
      (s.postNext l ls).1 = { s with queue := queue, sending := !queue.isEmpty } ∧
      (s.postNext l ls).1.offers (s.postNext l ls).2 =
        s.offers ls ++ refused.map (·, false) ++ (queue.take 1).map (·, true) := by
  have hat : ls[l]? = some link := by simpa [linkIn, hl] using h
  obtain ⟨link', refused, hat', hsplit, hoffers⟩ := offers_post hat s.queue
  refine ⟨refused, (post l ls s.queue).1, hsplit, rfl, ?_⟩
  have hnext : (s.postNext l ls).1.linkIn (s.postNext l ls).2 = some link' := by
    simpa [postNext, linkIn, hl] using hat'
  rw [offers_of_linkIn hnext, hoffers, offers_of_linkIn h]

theorem handed_of_offers {s' : Session} {ls' : Links} {refused queue : List Bytes}
    (h : s'.offers ls' = s.offers ls ++ refused.map (·, false) ++ (queue.take 1).map (·, true)) :
    s'.handed ls' = s.handed ls ++ queue.take 1 := by
  simp only [handed_eq, h, List.filter_append, List.map_append, List.filter_map,
    Function.comp_def, List.map_map, List.map_id', List.append_assoc]
  simp [List.filter_eq_nil_iff.2, List.filter_eq_self.2]

theorem send_of_sending {target : Option SessionId} {packet : Bytes} (hl : s.link = some l)
    (ha : s.accepts target packet = true) (hs : s.sending = true) :
    s.send target packet ls = (true, { s with queue := s.queue ++ [packet] }, ls) := by
  simp [send, hl, ha, hs]

theorem send_of_not_sending {target : Option SessionId} {packet : Bytes} (hl : s.link = some l)
    (ha : s.accepts target packet = true) (hs : s.sending = false) :
    s.send target packet ls = (true, { s with queue := s.queue ++ [packet] }.postNext l ls) := by
  simp [send, hl, ha, hs]

theorem handed_of_mem_hangUp (h : link ∈ s.hangUp ls) :
    ∃ link' ∈ ls, link.handed = link'.handed := by
  unfold hangUp at h
  split at h
  · next l _ =>
    obtain ⟨i, hi⟩ := List.mem_iff_getElem?.1 h
    rw [Links.close, List.getElem?_modify] at hi
    simp only [Option.map_eq_map, Option.map_eq_some_iff] at hi
    obtain ⟨link', hi, rfl⟩ := hi
    refine ⟨link', List.mem_iff_getElem?.2 ⟨i, hi⟩, ?_⟩
    split
    · simp [Link.handed_eq]
    · rfl
  · exact ⟨link, h, rfl⟩

end Session

/-- A session with the links that were made for it. -/
structure Outbox where
  session : Session
  links : Links
  /-- Writes that a link took and that are not done with yet, each with its connection. -/
  inFlight : List (SessionId × Bytes)
  /-- The packets that were taken since the connection began, oldest first. -/
  taken : List Bytes
  past : List SessionId

namespace Outbox

variable {b b' : Outbox} {limits : Limits}

def start (limits : Limits) : Outbox :=
  ⟨.idle limits, [], [], [], []⟩

def put (b : Outbox) (sl : Session × Links) : Outbox :=
  let posted := (sl.1.handed sl.2).drop (b.session.handed b.links).length
  { b with
    session := sl.1
    links := sl.2
    inFlight := b.inFlight ++ posted.map (b.session.id, ·) }

def send (b : Outbox) (target : Option SessionId) (packet : Bytes) : Outbox :=
  let (accepted, sl) := b.session.send target packet b.links
  { b.put sl with taken := if accepted then b.taken ++ [packet] else b.taken }

def depart (b : Outbox) (id : SessionId) : Outbox :=
  match b.session.depart id with
  | some (_, s) => { b with session := s }
  | none => b

def reset (b : Outbox) : Outbox :=
  let (s, ls) := b.session.reset b.links
  { b with session := s, links := ls, taken := [] }

def connect (b : Outbox) (id : SessionId) (l : Link) : Outbox :=
  let (s, ls) := b.session.connect id b.links.length (b.links ++ [l])
  { b with session := s, links := ls, taken := [], past := id :: b.past }

/-- What may happen to a session that sends. Every write that a link took is done with once, at any
time later; a connection has an id and a link of its own. -/
inductive Step : Outbox → Outbox → Prop where
  | send (b : Outbox) (target : Option SessionId) (packet : Bytes) : Step b (b.send target packet)
  | complete {b : Outbox} {before after : List (SessionId × Bytes)} {id : SessionId}
      {packet : Bytes} : b.inFlight = before ++ (id, packet) :: after →
      Step b ({ b with inFlight := before ++ after }.put (b.session.sent id b.links))
  | depart (b : Outbox) (id : SessionId) : Step b (b.depart id)
  | reset (b : Outbox) : Step b b.reset
  | connect {b : Outbox} {id : SessionId} (l : Link) : id ≠ 0 → id ∉ b.past → l.log = [] →
      Step b (b.connect id l)

/-- The writes of the connection that is served which are not done with yet. -/
def outstanding (b : Outbox) : List Bytes :=
  (b.inFlight.filter (·.1 = b.session.id)).map Prod.snd

/-- What holds whether or not a write is under way. -/
structure Kept (limits : Limits) (b : Outbox) : Prop where
  limits_eq : b.session.limits = limits
  idle : b.session.link = none → b.session.id = 0 ∧ b.session.queue = []
  linked : ∀ l, b.session.link = some l → l < b.links.length
  id_mem : b.session.link.isSome → b.session.id ∈ b.past
  zero_notMem : 0 ∉ b.past
  inFlight_mem : ∀ w ∈ b.inFlight, w.1 ∈ b.past
  backlog : b.session.queue.length ≤ limits.sendBacklog
  queue_size : ∀ packet ∈ b.session.queue, packet.length ≤ limits.sendSize
  size : ∀ link ∈ b.links, ∀ packet ∈ link.handed, packet.length ≤ limits.sendSize

/-- What holds between any two steps. -/
structure Flies (limits : Limits) (b : Outbox) : Prop where
  kept : Kept limits b
  sending : b.session.sending = !b.session.queue.isEmpty
  outstanding : b.outstanding = b.session.queue.take 1
  taken : b.taken = (b.session.offers b.links).map Prod.fst ++ b.session.queue.tail

/-! ## Steps -/

theorem inFlight_put {sl : Session × Links} {packets : List Bytes}
    (h : sl.1.handed sl.2 = b.session.handed b.links ++ packets) :
    (b.put sl).inFlight = b.inFlight ++ packets.map (b.session.id, ·) := by
  simp [put, h]

theorem filter_inFlight (id : SessionId) (packets : List Bytes) :
    ((packets.map (id, ·)).filter (·.1 = id)).map Prod.snd = packets := by
  simp [List.filter_map, Function.comp_def]

theorem filter_inFlight_of_notMem {ws : List (SessionId × Bytes)} {id : SessionId}
    (h : ∀ w ∈ ws, w.1 ∈ b.past) (hid : id ∉ b.past) : ws.filter (·.1 = id) = [] := by
  rw [List.filter_eq_nil_iff]
  intro w hw heq
  have hw := h w hw
  simp only [decide_eq_true_eq] at heq
  exact hid (heq ▸ hw)

theorem Kept.exists_link {l : LinkId} (h : Kept limits b) (hl : b.session.link = some l) :
    ∃ link, b.links[l]? = some link ∧ b.session.linkIn b.links = some link := by
  have hat := List.getElem?_eq_getElem (h.linked l hl)
  exact ⟨_, hat, by simp [Session.linkIn, hl, hat]⟩

theorem Kept.requeue {l : LinkId} (h : Kept limits b) (hl : b.session.link = some l)
    {queue : List Bytes} {ws : List (SessionId × Bytes)} (taken : List Bytes)
    (hws : ∀ w ∈ ws, w.1 ∈ b.past) (hlength : queue.length ≤ limits.sendBacklog)
    (hsize : ∀ packet ∈ queue, packet.length ≤ limits.sendSize) :
    Kept limits { b with
      session := { b.session with queue := queue }
      inFlight := ws
      taken := taken } := by
  refine ⟨h.limits_eq, fun hn => ?_, h.linked, h.id_mem, h.zero_notMem, hws, hlength, hsize,
    h.size⟩
  cases hl.symm.trans hn

theorem Kept.postNext {l : LinkId} (h : Kept limits b) (hl : b.session.link = some l) :
    Kept limits (b.put (b.session.postNext l b.links)) := by
  obtain ⟨link, hat, hlink⟩ := h.exists_link hl
  obtain ⟨refused, queue, hsplit, hs, hoffers⟩ := Session.offers_postNext hlink hl
  have hhanded := Session.handed_of_offers hoffers
  have hlength : (b.session.postNext l b.links).2.length = b.links.length :=
    Session.length_post ..
  have hother {i : LinkId} (hi : l ≠ i) : (b.session.postNext l b.links).2[i]? = b.links[i]? :=
    Session.getElem?_post_ne hi ..
  set sl := b.session.postNext l b.links
  have hsub {packet : Bytes} (hp : packet ∈ queue) : packet ∈ b.session.queue := by
    rw [hsplit]
    exact List.mem_append_right _ hp
  have hid : sl.1.id = b.session.id := by rw [hs]
  have hlink' : sl.1.link = some l := by rw [hs]; exact hl
  constructor
  case limits_eq =>
    change sl.1.limits = limits
    rw [hs]
    exact h.limits_eq
  case idle =>
    intro hn
    cases hlink'.symm.trans hn
  case linked =>
    intro i hi
    obtain rfl : l = i := Option.some.inj (hlink'.symm.trans hi)
    exact hlength.symm ▸ h.linked l hl
  case id_mem =>
    intro _
    change sl.1.id ∈ b.past
    rw [hid]
    exact h.id_mem (by rw [hl]; rfl)
  case zero_notMem => exact h.zero_notMem
  case inFlight_mem =>
    intro w hw
    rw [inFlight_put hhanded, List.mem_append, List.mem_map] at hw
    obtain hw | ⟨packet, -, rfl⟩ := hw
    · exact h.inFlight_mem w hw
    · exact h.id_mem (by rw [hl]; rfl)
  case backlog =>
    change sl.1.queue.length ≤ _
    rw [hs]
    refine Nat.le_trans ?_ h.backlog
    simp [hsplit]
  case queue_size =>
    intro packet hp
    change packet ∈ sl.1.queue at hp
    rw [hs] at hp
    exact h.queue_size packet (hsub hp)
  case size =>
    intro link' hmem packet hp
    obtain ⟨i, hi⟩ := List.mem_iff_getElem?.1 hmem
    by_cases hli : l = i
    · subst hli
      have hlinkIn : sl.1.linkIn sl.2 = some link' := by
        rw [Session.linkIn, hlink']
        exact hi
      rw [← Session.handed_of_linkIn hlinkIn, hhanded, List.mem_append] at hp
      obtain hp | hp := hp
      · rw [Session.handed_of_linkIn hlink] at hp
        exact h.size link (List.mem_iff_getElem?.2 ⟨l, hat⟩) packet hp
      · exact h.queue_size packet (hsub (List.mem_of_mem_take hp))
    · rw [show (b.put sl).links[i]? = b.links[i]? from hother hli] at hi
      exact h.size link' (List.mem_iff_getElem?.2 ⟨i, hi⟩) packet hp

/-- With nothing under way, packets are offered to the link until it takes one, which is under way
from then on. -/
theorem Kept.flies_postNext {l : LinkId} (h : Kept limits b) (hl : b.session.link = some l)
    (ho : b.outstanding = [])
    (ht : b.taken = (b.session.offers b.links).map Prod.fst ++ b.session.queue) :
    Flies limits (b.put (b.session.postNext l b.links)) := by
  obtain ⟨link, -, hlink⟩ := h.exists_link hl
  obtain ⟨refused, queue, hsplit, hs, hoffers⟩ := Session.offers_postNext hlink hl
  have hhanded := Session.handed_of_offers hoffers
  have hkept := h.postNext hl
  set sl := b.session.postNext l b.links
  have hid : sl.1.id = b.session.id := by rw [hs]
  have hq : sl.1.queue = queue := by rw [hs]
  constructor
  case kept => exact hkept
  case sending =>
    change sl.1.sending = !sl.1.queue.isEmpty
    rw [hs]
  case outstanding =>
    change ((b.put sl).inFlight.filter (·.1 = sl.1.id)).map Prod.snd = sl.1.queue.take 1
    rw [inFlight_put hhanded, hid, List.filter_append, List.map_append, filter_inFlight, hq]
    exact congrArg (· ++ _) ho
  case taken =>
    change b.taken = (sl.1.offers sl.2).map Prod.fst ++ sl.1.queue.tail
    rw [ht, hoffers, hq, hsplit]
    cases queue <;> simp [Function.comp_def]

theorem put_of_handed {sl : Session × Links}
    (h : sl.1.handed sl.2 = b.session.handed b.links) :
    b.put sl = { b with session := sl.1, links := sl.2 } := by
  simp [put, h]

theorem Flies.send (h : Flies limits b) (target : Option SessionId) (packet : Bytes) :
    Flies limits (b.send target packet) := by
  cases ha : b.session.accepts target packet with
  | false =>
    have hsame : b.send target packet = b := by
      rw [Outbox.send, Session.send_of_refused ha]
      have hput : b.put (b.session, b.links) = b := put_of_handed rfl
      exact hput
    rwa [hsame]
  | true =>
    obtain ⟨hsize, hlive, hbacklog⟩ : packet.length ≤ limits.sendSize ∧
        b.session.isLive = true ∧ b.session.queue.length < limits.sendBacklog := by
      simp only [Session.accepts, Bool.and_eq_true, decide_eq_true_eq] at ha
      rw [h.kept.limits_eq] at ha
      exact ⟨ha.1.1.1, ha.1.1.2, ha.2⟩
    obtain ⟨l, hl⟩ := Option.isSome_iff_exists.1 (Session.isLive_iff.1 hlive).1
    set b₁ : Outbox := { b with
      session := { b.session with queue := b.session.queue ++ [packet] }
      taken := b.taken ++ [packet] } with hb₁
    have hkept : Kept limits b₁ := by
      refine h.kept.requeue hl _ h.kept.inFlight_mem ?_ ?_
      · simp only [List.length_append, List.length_singleton]
        omega
      · intro p hp
        obtain hp | hp := List.mem_append.1 hp
        · exact h.kept.queue_size p hp
        · rwa [List.mem_singleton.1 hp]
    have hsending := h.sending
    have hout := h.outstanding
    have htaken := h.taken
    cases hq : b.session.queue with
    | nil =>
      rw [hq] at hsending hout htaken
      have hsend : b.send target packet = b₁.put (b₁.session.postNext l b₁.links) := by
        rw [Outbox.send, Session.send_of_not_sending hl ha hsending]
        rfl
      rw [hsend]
      refine hkept.flies_postNext hl hout ?_
      change b.taken ++ [packet] = (b.session.offers b.links).map Prod.fst ++ (_ ++ [packet])
      simp [hq, htaken]
    | cons p ps =>
      rw [hq] at hsending hout htaken
      have hsend : b.send target packet = b₁ := by
        have hput : b.put (b₁.session, b.links) = { b with session := b₁.session } :=
          put_of_handed rfl
        rw [Outbox.send, Session.send_of_sending hl ha hsending]
        exact congrArg (fun o : Outbox => { o with taken := b.taken ++ [packet] }) hput
      rw [hsend]
      constructor
      case kept => exact hkept
      case sending => simp [hb₁, hsending, hq]
      case outstanding => exact hout.trans (by simp [hb₁, hq])
      case taken =>
        change b.taken ++ [packet] =
          (b.session.offers b.links).map Prod.fst ++ (b.session.queue ++ [packet]).tail
        simp [hq, htaken]

theorem append_eq_nil_of_take {xs ys zs : List Bytes} {x : Bytes}
    (h : xs ++ x :: ys = zs.take 1) : xs ++ ys = [] ∧ zs ≠ [] := by
  have hlength := congrArg List.length h
  simp only [List.length_append, List.length_cons, List.length_take] at hlength
  refine ⟨List.eq_nil_of_length_eq_zero ?_, ?_⟩
  · rw [List.length_append]
    omega
  · rintro rfl
    rw [List.length_nil] at hlength
    omega

theorem Flies.complete (h : Flies limits b) {before after : List (SessionId × Bytes)}
    {id : SessionId} {packet : Bytes} (hw : b.inFlight = before ++ (id, packet) :: after) :
    Flies limits ({ b with inFlight := before ++ after }.put (b.session.sent id b.links)) := by
  have hmem (w) (hw' : w ∈ before ++ after) : w.1 ∈ b.past := by
    refine h.kept.inFlight_mem w ?_
    rw [hw]
    simp only [List.mem_append, List.mem_cons] at hw' ⊢
    tauto
  have hout := h.outstanding
  simp only [Outbox.outstanding, hw, List.filter_append, List.filter_cons, List.map_append] at hout
  by_cases hid : b.session.id = id
  · subst hid
    simp only [decide_true, if_true, List.map_cons] at hout
    obtain ⟨hnone, hqueue⟩ := append_eq_nil_of_take hout
    obtain ⟨l, hl⟩ : ∃ l, b.session.link = some l := by
      cases hl : b.session.link with
      | none => exact absurd (h.kept.idle hl).2 hqueue
      | some l => exact ⟨l, rfl⟩
    set b₁ : Outbox := { b with
      session := { b.session with queue := b.session.queue.tail }
      inFlight := before ++ after } with hb₁
    have hkept : Kept limits b₁ := by
      refine h.kept.requeue hl _ hmem ?_ ?_
      · refine Nat.le_trans ?_ h.kept.backlog
        simp
      · exact fun p hp => h.kept.queue_size p (List.mem_of_mem_tail hp)
    have hsent : b.session.sent b.session.id b.links = b₁.session.postNext l b₁.links := by
      simp [Session.sent, hl, hb₁]
    rw [hsent]
    refine hkept.flies_postNext hl ?_ h.taken
    simpa [Outbox.outstanding, hb₁] using hnone
  · have hsent : b.session.sent id b.links = (b.session, b.links) := if_pos hid
    rw [hsent, put_of_handed rfl]
    refine ⟨⟨h.kept.limits_eq, h.kept.idle, h.kept.linked, h.kept.id_mem, h.kept.zero_notMem, hmem,
      h.kept.backlog, h.kept.queue_size, h.kept.size⟩, h.sending, ?_, h.taken⟩
    have hne : decide (id = b.session.id) = false := by simp [Ne.symm hid]
    simpa [Outbox.outstanding, hne] using hout

theorem Flies.depart (h : Flies limits b) (id : SessionId) : Flies limits (b.depart id) := by
  unfold Outbox.depart Session.depart
  split
  · next hs =>
    split at hs
    · cases hs
      exact ⟨⟨h.kept.limits_eq, h.kept.idle, h.kept.linked, h.kept.id_mem, h.kept.zero_notMem,
        h.kept.inFlight_mem, h.kept.backlog, h.kept.queue_size, h.kept.size⟩, h.sending,
        h.outstanding, h.taken⟩
    · cases hs
  · exact h

theorem Flies.reset (h : Flies limits b) : Flies limits b.reset := by
  constructor
  case kept =>
    constructor
    case limits_eq => exact h.kept.limits_eq
    case idle => exact fun _ => ⟨rfl, rfl⟩
    case linked => exact nofun
    case id_mem => exact nofun
    case zero_notMem => exact h.kept.zero_notMem
    case inFlight_mem => exact h.kept.inFlight_mem
    case backlog => exact Nat.zero_le _
    case queue_size => exact nofun
    case size =>
      intro link hmem packet hp
      obtain ⟨link', hmem', hhanded⟩ := Session.handed_of_mem_hangUp hmem
      exact h.kept.size link' hmem' packet (hhanded ▸ hp)
  case sending => rfl
  case outstanding =>
    exact congrArg (List.map Prod.snd)
      (filter_inFlight_of_notMem h.kept.inFlight_mem h.kept.zero_notMem)
  case taken => rfl

theorem Flies.connect (h : Flies limits b) {id : SessionId} {l : Link} (hid : id ≠ 0)
    (hnew : id ∉ b.past) (hl : l.log = []) : Flies limits (b.connect id l) := by
  have hat : (b.connect id l).links[b.links.length]? = some l := by
    have hne : b.session.link ≠ some b.links.length :=
      fun hlink => Nat.lt_irrefl _ (h.kept.linked _ hlink)
    exact (Session.hangUp_ne hne _).trans (by simp)
  constructor
  case kept =>
    constructor
    case limits_eq => exact h.kept.limits_eq
    case idle => exact nofun
    case linked =>
      rintro _ ⟨⟩
      exact (List.getElem?_eq_some_iff.1 hat).1
    case id_mem => exact fun _ => List.mem_cons_self
    case zero_notMem =>
      intro hmem
      obtain hz | hmem := List.mem_cons.1 hmem
      · exact hid hz.symm
      · exact h.kept.zero_notMem hmem
    case inFlight_mem => exact fun w hw => List.mem_cons_of_mem _ (h.kept.inFlight_mem w hw)
    case backlog => exact Nat.zero_le _
    case queue_size => exact nofun
    case size =>
      intro link hmem packet hp
      obtain ⟨link', hmem', hhanded⟩ := Session.handed_of_mem_hangUp hmem
      rw [hhanded] at hp
      obtain hmem' | hmem' := List.mem_append.1 hmem'
      · exact h.kept.size link' hmem' packet hp
      · rw [List.mem_singleton.1 hmem', Link.handed, hl] at hp
        cases hp
  case sending => rfl
  case outstanding =>
    exact congrArg (List.map Prod.snd) (filter_inFlight_of_notMem h.kept.inFlight_mem hnew)
  case taken =>
    have hoffers : (b.connect id l).session.offers (b.connect id l).links = l.offers :=
      Session.offers_of_linkIn hat
    rw [hoffers, Link.offers, hl]
    rfl

theorem Step.flies (h : Step b b') (hb : Flies limits b) : Flies limits b' := by
  cases h with
  | send target packet => exact hb.send target packet
  | complete hw => exact hb.complete hw
  | depart id => exact hb.depart id
  | reset => exact hb.reset
  | connect l hid hnew hl => exact hb.connect hid hnew hl

theorem flies_start (limits : Limits) : Flies limits (start limits) := by
  refine ⟨⟨rfl, fun _ => ⟨rfl, rfl⟩, nofun, nofun, nofun, nofun, Nat.zero_le _, nofun, nofun⟩,
    rfl, rfl, rfl⟩

theorem flies_of_reaches (h : ReflTransGen Step (start limits) b) : Flies limits b := by
  induction h with
  | refl => exact flies_start limits
  | tail _ hstep ih => exact hstep.flies ih

/-- What is under way is the front of the queue, and nothing else is; there is such a write exactly
when the session is sending and exactly when anything waits. The packets that were taken are those
that the link was offered, once each, and behind them those that wait for their turn; the link was
handed those of them that it did not refuse. -/
theorem single_flight (h : ReflTransGen Step (start limits) b) :
    b.outstanding = b.session.queue.take 1 ∧ b.outstanding.length ≤ 1 ∧
      (b.session.sending = true ↔ b.session.queue ≠ []) ∧
      (b.session.sending = true ↔ b.outstanding.length = 1) ∧
      b.taken = (b.session.offers b.links).map Prod.fst ++ b.session.queue.tail ∧
      b.session.handed b.links = ((b.session.offers b.links).filter (·.2)).map Prod.fst ∧
      b.session.queue.length ≤ limits.sendBacklog ∧
      ∀ link ∈ b.links, ∀ packet ∈ link.handed, packet.length ≤ limits.sendSize := by
  have hb := flies_of_reaches h
  refine ⟨hb.outstanding, ?_, ?_, ?_, hb.taken, Session.handed_eq .., hb.kept.backlog,
    hb.kept.size⟩
  · rw [hb.outstanding, List.length_take]
    exact Nat.min_le_left ..
  · rw [hb.sending]
    cases b.session.queue <;> simp
  · rw [hb.sending, hb.outstanding]
    cases b.session.queue <;> simp

def resumed : Outbox :=
  start .standard
    |>.connect 1 ⟨0, 1, none, ⟨[false], true⟩, .always true, []⟩
    |>.send none [1] |>.send none [2] |>.send (some 1) [3]
    |>.reset
    |>.connect 2 (.fresh 0 2 none)
    |>.send (some 2) [4] |>.send none [5]

theorem reaches_resumed : ReflTransGen Step (start .standard) resumed :=
  .tail (.tail (.tail (.tail (.tail (.tail (.tail (.single
    (.connect _ (by decide) (by decide) rfl))
    (.send ..)) (.send ..)) (.send ..)) (.reset ..)) (.connect _ (by decide) (by decide) rfl))
    (.send ..)) (.send ..)

theorem single_flight_resumed :
    ∃ b, ReflTransGen Step (start .standard) b ∧ b.session.id = 2 ∧
      b.inFlight = [(2, [4])] ∧ b.outstanding = b.session.queue.take 1 ∧
      b.session.queue = [[4], [5]] ∧ b.taken = [[4], [5]] := by
  have hflight : resumed.inFlight = [] ++ (1, [2]) :: [(2, [4])] := rfl
  have h := reaches_resumed.tail (.complete hflight)
  exact ⟨_, h, rfl, by decide +kernel, (single_flight h).1, by decide +kernel, by decide +kernel⟩

end Outbox

end ChatRelay
