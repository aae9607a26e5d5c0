import ChatRelay.Proofs.Queue
import ChatRelay.Proofs.Session

/-! # Sessions that serve again

A slot's session serves one connection after another, and the cells of its ring are never wiped.
Still, once it serves a new connection, it answers and asks of its links what a session would that
never served anybody: two sessions that differ in nothing but their leases and in octets that were
dropped cannot be told apart.
-/

namespace ChatRelay

namespace Ring

theorem toQueue_clear (r : Ring) : r.clear.toQueue = .empty r.toQueue.limit :=
  (congrArg Prod.snd (perform_toQueue r .clear)).symm

variable {r r' : Ring} (h : r'.toQueue = r.toQueue)

include h

theorem gauge_congr : r'.gauge = r.gauge := by
  rw [← gauge_toQueue, ← gauge_toQueue, h]

theorem size_congr : r'.size = r.size :=
  congrArg Buffer.Gauge.size (gauge_congr h)

theorem free_congr : r'.free = r.free :=
  congrArg Buffer.Gauge.free (gauge_congr h)

/-- What is done with rings that hold the same has the same replies, and they hold the same then. -/
theorem history_congr (qs : List Buffer.Request) :
    (Buffer.history perform r' qs).1 = (Buffer.history perform r qs).1 ∧
      (Buffer.history perform r' qs).2.toQueue = (Buffer.history perform r qs).2.toQueue := by
  have hq := Buffer.history_map perform_toQueue r qs
  rw [← h, Buffer.history_map perform_toQueue] at hq
  exact Prod.ext_iff.1 hq

theorem toQueue_append {bs : Bytes} (hfree : bs.length ≤ r.free) :
    (r'.append bs).toQueue = (r.append bs).toQueue := by
  have hwrite := (history_congr h [.write bs]).2
  simpa [Buffer.history, perform, write?, free_congr h, hfree] using hwrite

end Ring

namespace Session

variable {s t : Session} {ls ls' : Links}

theorem clearLogs_hangUp (s : Session) (ls : Links) : (s.hangUp ls).clearLogs = ls.clearLogs := by
  unfold hangUp
  split
  · apply List.ext_getElem?
    intro i
    simp only [Links.clearLogs, Links.close, List.getElem?_map, List.getElem?_modify]
    split <;> cases ls[i]? <;> rfl
  · rfl

inductive Request where
  | receive (id : SessionId) (bs : Bytes)
  | inspect (id : SessionId) (qs : List Buffer.Request)
  | armRead (id : SessionId)
  | send (target : Option SessionId) (packet : Bytes)
  | sent (id : SessionId)
  | authenticate (id : SessionId) (name token : String)
  | depart (id : SessionId)
  | identify
  | username
  | buffered
  | pending
  | reset
  | connect (id : SessionId) (link : LinkId)

inductive Reply where
  | done
  | flag (b : Bool)
  | count (n : Nat)
  | name (name : Option String)
  | identity (i : Identity)
  | outcome (result : Except SessionError Unit)
  | octets (result : Except SessionError (List Buffer.Reply × Buffer.Gauge))
  | departure (d : Option Departure)

def inspect (s : Session) (id : SessionId) (qs : List Buffer.Request) :
    Except SessionError (List Buffer.Reply × Buffer.Gauge) × Session :=
  match s.obstacle? id with
  | some e => (.error e, s)
  | none =>
    let (replies, ring) := Buffer.history Ring.perform s.inbound qs
    (.ok (replies, ring.gauge), { s with inbound := ring })

def ask (s : Session) (ls : Links) : Request → Reply × Session × Links
  | .receive id bs => (.outcome (s.admits id bs.length), s.receive id bs, ls)
  | .inspect id qs => (.octets (s.inspect id qs).1, (s.inspect id qs).2, ls)
  | .armRead id => (.outcome (s.armRead id ls).1, s, (s.armRead id ls).2)
  | .send target packet => (.flag (s.send target packet ls).1, (s.send target packet ls).2)
  | .sent id => (.done, s.sent id ls)
  | .authenticate id name token =>
    match s.authenticate id name token with
    | some s' => (.flag true, s', ls)
    | none => (.flag false, s, ls)
  | .depart id =>
    match s.depart id with
    | some (d, s') => (.departure (some d), s', ls)
    | none => (.departure none, s, ls)
  | .identify => (.identity s.identity, s, ls)
  | .username => (.name s.loggedInAs, s, ls)
  | .buffered => (.count s.inbound.size, s, ls)
  | .pending => (.count s.queue.length, s, ls)
  | .reset => (.done, s.reset ls)
  | .connect id link => (.done, s.connect id link ls)

/-- The replies to requests, each with what links were asked meanwhile. -/
def history : Session × Links → List Request → List (Reply × List (LinkId × List LinkEvent))
  | _, [] => []
  | (s, ls), q :: qs =>
    let (reply, sl) := s.ask ls.clearLogs q
    (reply, sl.2.logs) :: history sl qs

def bounds (s : Session) : Limits × Nat :=
  (s.limits, s.inbound.toQueue.limit)

theorem bounds_ask (s : Session) (ls : Links) (q : Request) :
    (s.ask ls q).2.1.bounds = s.bounds := by
  cases q with
  | receive id bs =>
    change (s.receive id bs).bounds = s.bounds
    unfold receive
    split
    · exact congrArg (fun n => (s.limits, n - 1)) (Ring.size_cells_append s.inbound bs)
    · rfl
  | inspect id qs =>
    have hcapacity := Buffer.history_snd_eq Ring.capacity_perform s.inbound qs
    change (s.inspect id qs).2.bounds = s.bounds
    unfold inspect
    split
    · rfl
    · exact congrArg (fun n => (s.limits, n - 1)) hcapacity
  | send target packet =>
    obtain ⟨queue, sending, hs⟩ := s.send_eq target packet ls
    exact (congrArg bounds hs).trans rfl
  | sent id =>
    obtain ⟨queue, sending, hs⟩ := s.sent_eq id ls
    exact (congrArg bounds hs).trans rfl
  | authenticate id name token =>
    simp only [ask]
    split
    · next s' hs => rw [(authenticate_eq_some_iff.1 hs).2]; rfl
    · rfl
  | depart id =>
    by_cases hid : s.id = id ∧ s.isLive
    · simp only [ask, depart_eq_some hid]
      rfl
    · simp only [ask, depart_eq_none_iff.2 hid]
  | _ => rfl

/-! ## Sessions that cannot be told apart -/

/-- The sessions differ in nothing but their leases and what the cells of their rings hold besides
what is buffered. -/
structure Alike (s t : Session) : Prop where
  rest : t = { s with leased := t.leased, inbound := t.inbound }
  inbound : t.inbound.toQueue = s.inbound.toQueue

namespace Alike

variable {leased : Bool} {ring ring' : Ring}

theorem of_toQueue (h : ring.toQueue = s.inbound.toQueue) :
    Alike s { s with leased := leased, inbound := ring } :=
  ⟨rfl, h⟩

theorem exists_eq (h : Alike s t) :
    ∃ leased ring, t = { s with leased := leased, inbound := ring } ∧
      ring.toQueue = s.inbound.toQueue :=
  ⟨_, _, h.rest, h.inbound⟩

theorem withInbound (h : Alike s t) (hq : ring'.toQueue = ring.toQueue) :
    Alike { s with inbound := ring } { t with inbound := ring' } :=
  ⟨congrArg (fun t' : Session => { t' with inbound := ring' }) h.rest, hq⟩

theorem obstacle? (h : Alike s t) (id : SessionId) : t.obstacle? id = s.obstacle? id := by
  rw [h.rest]
  rfl

theorem bounds_eq (h : Alike s t) : t.bounds = s.bounds := by
  rw [bounds, h.inbound, congrArg limits h.rest]
  rfl

theorem admits (h : Alike s t) (id : SessionId) (n : Nat) : t.admits id n = s.admits id n := by
  rw [Session.admits, Session.admits, h.obstacle?, Ring.free_congr h.inbound]

theorem receive (h : Alike s t) (id : SessionId) (bs : Bytes) :
    Alike (s.receive id bs) (t.receive id bs) := by
  unfold Session.receive
  rw [h.admits]
  cases ha : s.admits id bs.length with
  | error e => exact h
  | ok u =>
    have hfree : bs.length ≤ s.inbound.free := by
      unfold Session.admits at ha
      cases ho : s.obstacle? id with
      | some e => simp [ho] at ha
      | none =>
        by_contra hlt
        simp [ho, hlt] at ha
    exact h.withInbound (Ring.toQueue_append h.inbound hfree)

theorem inspect (h : Alike s t) (id : SessionId) (qs : List Buffer.Request) :
    (t.inspect id qs).1 = (s.inspect id qs).1 ∧
      Alike (s.inspect id qs).2 (t.inspect id qs).2 := by
  obtain ⟨hreplies, hqueue⟩ := Ring.history_congr h.inbound qs
  unfold Session.inspect
  rw [h.obstacle?]
  cases s.obstacle? id with
  | some e => exact ⟨rfl, h⟩
  | none =>
    constructor
    · simp only [hreplies, Ring.gauge_congr hqueue]
    · exact h.withInbound hqueue

theorem armRead (h : Alike s t) (id : SessionId) (ls : Links) :
    t.armRead id ls = s.armRead id ls := by
  obtain ⟨leased, ring, rfl, hinbound⟩ := h.exists_eq
  simp only [Session.armRead, Ring.free_congr hinbound]
  rfl

theorem send (h : Alike s t) (target : Option SessionId) (packet : Bytes) (ls : Links) :
    (t.send target packet ls).1 = (s.send target packet ls).1 ∧
      Alike (s.send target packet ls).2.1 (t.send target packet ls).2.1 ∧
      (t.send target packet ls).2.2 = (s.send target packet ls).2.2 := by
  obtain ⟨leased, ring, rfl, hinbound⟩ := h.exists_eq
  have haccepts : { s with leased := leased, inbound := ring }.accepts target packet =
      s.accepts target packet := rfl
  unfold Session.send
  rw [haccepts]
  generalize s.accepts target packet = accepted
  obtain ⟨limits, _, inbound, queue, sending, id, phase, username, token, link⟩ := s
  cases link with
  | none => exact ⟨rfl, h, rfl⟩
  | some l =>
    cases accepted with
    | false => exact ⟨rfl, h, rfl⟩
    | true => cases sending <;> exact ⟨rfl, of_toQueue hinbound, rfl⟩

theorem sent (h : Alike s t) (id : SessionId) (ls : Links) :
    Alike (s.sent id ls).1 (t.sent id ls).1 ∧ (t.sent id ls).2 = (s.sent id ls).2 := by
  obtain ⟨leased, ring, rfl, hinbound⟩ := h.exists_eq
  unfold Session.sent
  by_cases hid : s.id = id
  · simp only [hid, ne_eq, not_true_eq_false, if_false]
    cases s.link <;> exact ⟨of_toQueue hinbound, rfl⟩
  · simp only [ne_eq, hid, not_false_eq_true, if_true]
    exact ⟨h, trivial⟩

theorem cleared (h : t.bounds = s.bounds) (id : SessionId) (phase : Phase)
    (link : Option LinkId) : Alike (s.cleared id phase link) (t.cleared id phase link) := by
  have hlimits : t.limits = s.limits := congrArg Prod.fst h
  have hlimit : t.inbound.toQueue.limit = s.inbound.toQueue.limit := congrArg Prod.snd h
  constructor
  · simp only [Session.cleared, hlimits]
  · change t.inbound.clear.toQueue = s.inbound.clear.toQueue
    rw [Ring.toQueue_clear, Ring.toQueue_clear]
    exact congrArg Queue.empty hlimit

/-- Whatever is asked of such sessions, they reply the same and ask the same of their links. -/
theorem ask (h : Alike s t) (ls : Links) (q : Request) :
    (t.ask ls q).1 = (s.ask ls q).1 ∧ Alike (s.ask ls q).2.1 (t.ask ls q).2.1 ∧
      (t.ask ls q).2.2 = (s.ask ls q).2.2 := by
  have hread := h.armRead
  have hbounds := h.bounds_eq
  obtain ⟨leased, ring, rfl, hinbound⟩ := h.exists_eq
  cases q with
  | receive id bs => exact ⟨congrArg Reply.outcome (h.admits id _), h.receive id bs, rfl⟩
  | inspect id qs =>
    obtain ⟨hreplies, halike⟩ := h.inspect id qs
    exact ⟨congrArg Reply.octets hreplies, halike, rfl⟩
  | armRead id =>
    simp only [Session.ask, hread]
    exact ⟨trivial, h, trivial⟩
  | send target packet =>
    obtain ⟨htaken, hrest⟩ := h.send target packet ls
    exact ⟨congrArg Reply.flag htaken, hrest⟩
  | sent id => exact ⟨rfl, h.sent id ls⟩
  | authenticate id name token =>
    by_cases hfree : s.id = id ∧ s.link.isSome ∧ s.phase = .connected
    · simp only [Session.ask, Session.authenticate, if_pos hfree]
      exact ⟨trivial, of_toQueue hinbound, trivial⟩
    · simp only [Session.ask, Session.authenticate, if_neg hfree]
      exact ⟨trivial, h, trivial⟩
  | depart id =>
    have hlive : { s with leased := leased, inbound := ring }.isLive = s.isLive := rfl
    by_cases hid : s.id = id ∧ s.isLive
    · simp only [Session.ask, Session.depart, hlive, if_pos hid]
      exact ⟨rfl, of_toQueue hinbound, trivial⟩
    · simp only [Session.ask, Session.depart, hlive, if_neg hid]
      exact ⟨trivial, h, trivial⟩
  | identify => exact ⟨rfl, h, rfl⟩
  | username => exact ⟨rfl, h, rfl⟩
  | buffered => exact ⟨congrArg Reply.count (Ring.size_congr hinbound), h, rfl⟩
  | pending => exact ⟨rfl, h, rfl⟩
  | reset => exact ⟨rfl, cleared hbounds .., rfl⟩
  | connect id link => exact ⟨rfl, cleared hbounds .., rfl⟩

theorem history (h : Alike s t) (hlinks : ls'.clearLogs = ls.clearLogs) (qs : List Request) :
    history (t, ls') qs = history (s, ls) qs := by
  induction qs generalizing s t ls ls' with
  | nil => rfl
  | cons q qs ih =>
    obtain ⟨hreply, halike, hcalls⟩ := h.ask ls.clearLogs q
    simp only [Session.history, hlinks, hreply, hcalls]
    rw [ih halike (congrArg Links.clearLogs hcalls)]

end Alike

/-! ## Whatever a session went through -/

inductive Event where
  | ask (ls : Links) (q : Request)
  /-- The slot is taken out of the pool, or given back. -/
  | lease (taken : Bool)

def undergo (s : Session) : Event → Session
  | .ask ls q => (s.ask ls q).2.1
  | .lease taken => { s with leased := taken }

theorem bounds_undergo (s : Session) (e : Event) : (s.undergo e).bounds = s.bounds := by
  cases e with
  | ask ls q => exact bounds_ask s ls q
  | lease taken => rfl

def undergoAll (s : Session) (es : List Event) : Session :=
  es.foldl undergo s

theorem bounds_undergoAll (s : Session) (es : List Event) :
    (s.undergoAll es).bounds = s.bounds := by
  induction es generalizing s with
  | nil => rfl
  | cons e es ih => exact (ih (s.undergo e)).trans (bounds_undergo s e)

/-- Whatever a session went through, once it serves connection `id` nothing that is asked of it
tells it from one that never served anybody: not its replies, and not what it asks of its links. -/
theorem history_connect (limits : Limits) (past : List Event) (id : SessionId) (link : LinkId)
    (ls : Links) (qs : List Request) :
    history (((idle limits).undergoAll past).connect id link ls) qs =
      history ((idle limits).connect id link ls) qs := by
  apply Alike.history
  · apply Alike.cleared
    exact bounds_undergoAll (idle limits) past
  · exact clearLogs_hangUp ..

end Session

end ChatRelay
