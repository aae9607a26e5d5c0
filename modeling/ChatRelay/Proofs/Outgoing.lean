import ChatRelay.Proofs.Session

/-! # What a session has to say

The packets that a link was handed, and behind them those that wait for the one in flight. As long
as the link refuses nothing, a packet that is queued comes last, and nothing is lost or overtaken.
-/

namespace ChatRelay

def LinkEvent.packet? : LinkEvent → Option Bytes
  | .send packet => some packet
  | _ => none

def Link.handed (l : Link) : List Bytes :=
  l.log.filterMap LinkEvent.packet?

def Answers.Yes (a : Answers) : Prop :=
  (∀ b ∈ a.next, b = true) ∧ a.rest = true

namespace Answers

instance Yes.decidable (a : Answers) : Decidable a.Yes :=
  inferInstanceAs (Decidable (_ ∧ _))

variable {a : Answers} (h : a.Yes)

include h

theorem Yes.head : a.head = true := by
  obtain ⟨next, rest⟩ := a
  cases next with
  | nil => exact h.2
  | cons b next => exact h.1 b List.mem_cons_self

theorem Yes.tail : a.tail.Yes :=
  ⟨fun b hb => h.1 b (List.mem_of_mem_tail hb), h.2⟩

end Answers

namespace Links

variable {ls ls' : Links} {i j : LinkId} {l : Link}

@[simp] theorem length_ask (ls : Links) (i : LinkId) (f : Link → Bool × Link) :
    (ls.ask i f).2.length = ls.length := by
  unfold ask
  split
  · exact List.length_set
  · rfl

theorem ask_of_some (h : ls[i]? = some l) (f : Link → Bool × Link) :
    ls.ask i f = ((f l).1, ls.set i (f l).2) := by
  unfold ask
  rw [h]

theorem getElem?_ask_self (h : ls[i]? = some l) (f : Link → Bool × Link) :
    (ls.ask i f).2[i]? = some (f l).2 := by
  obtain ⟨hi, rfl⟩ := List.getElem?_eq_some_iff.1 h
  rw [ask_of_some h, List.getElem?_set_self hi]

theorem getElem?_ask_ne (h : i ≠ j) (ls : Links) (f : Link → Bool × Link) :
    (ls.ask i f).2[j]? = ls[j]? := by
  unfold ask
  split
  · exact List.getElem?_set_ne h
  · rfl

theorem ask_congr (h : ls'[i]? = ls[i]?) (f : Link → Bool × Link) :
    (ls'.ask i f).1 = (ls.ask i f).1 ∧ (ls'.ask i f).2[i]? = (ls.ask i f).2[i]? := by
  cases hl : ls[i]? with
  | none => simp [ask, h, hl]
  | some l =>
    constructor
    · simp only [ask_of_some (h.trans hl), ask_of_some hl]
    · exact (getElem?_ask_self (h.trans hl) f).trans (getElem?_ask_self hl f).symm

end Links

theorem Link.handed_send_of_yes {l : Link} (h : l.sendAnswers.Yes) (packet : Bytes) :
    (l.send packet).2.handed = l.handed ++ [packet] := by
  simp [Link.send, Link.record, Link.handed, h.head, LinkEvent.packet?]

theorem Link.yes_send {l : Link} (h : l.sendAnswers.Yes) (packet : Bytes) :
    (l.send packet).2.sendAnswers.Yes :=
  h.tail

theorem Link.handed_receive (l : Link) (limit : Nat) :
    (l.receive limit).2.handed = l.handed := by
  simp only [Link.receive, Link.record, Link.handed, List.filterMap_append]
  split <;> simp [LinkEvent.packet?]

namespace Session

variable {s : Session} {ls ls' : Links} {l : LinkId}

def linkIn (s : Session) (ls : Links) : Option Link :=
  s.link.bind (ls[·]?)

/-- The packets that the link of the session took. -/
def handed (s : Session) (ls : Links) : List Bytes :=
  ((s.linkIn ls).map Link.handed).getD []

/-- The packets that the link of the session took and those that wait. -/
def outgoing (s : Session) (ls : Links) : List Bytes :=
  s.handed ls ++ s.queue.tail

/-- The link of the session is there and takes everything. -/
def Willing (s : Session) (ls : Links) : Prop :=
  ∃ l, s.linkIn ls = some l ∧ l.sendAnswers.Yes

instance Willing.decidable (s : Session) (ls : Links) : Decidable (s.Willing ls) :=
  match hl : s.linkIn ls with
  | none => .isFalse fun ⟨l, h, _⟩ => by rw [hl] at h; cases h
  | some l =>
    if hy : l.sendAnswers.Yes then .isTrue ⟨l, hl, hy⟩
    else .isFalse fun ⟨l', h, hy'⟩ => by rw [hl] at h; cases h; exact hy hy'

theorem linkIn_congr (h : ∀ l, s.link = some l → ls'[l]? = ls[l]?) :
    s.linkIn ls' = s.linkIn ls := by
  unfold linkIn
  cases hl : s.link with
  | none => rfl
  | some l => exact h l hl

theorem handed_of_linkIn {l : Link} (h : s.linkIn ls = some l) : s.handed ls = l.handed := by
  rw [handed, h]; rfl

theorem outgoing_of_queue_eq_nil (h : s.queue = []) : s.outgoing ls = s.handed ls := by
  rw [outgoing, h, List.tail_nil, List.append_nil]

theorem outgoing_congr {t : Session} (hl : t.link = s.link) (hq : t.queue = s.queue)
    (h : ∀ l, s.link = some l → ls'[l]? = ls[l]?) : t.outgoing ls' = s.outgoing ls := by
  have hlink : t.linkIn ls' = s.linkIn ls := by
    rw [linkIn, hl]
    exact linkIn_congr h
  rw [outgoing, handed, hlink, hq, outgoing, handed]

theorem Willing.congr {t : Session} (hw : s.Willing ls) (hl : t.link = s.link)
    (h : ∀ l, s.link = some l → ls'[l]? = ls[l]?) : t.Willing ls' := by
  obtain ⟨l, hlink, hyes⟩ := hw
  refine ⟨l, ?_, hyes⟩
  rw [linkIn, hl]
  exact (linkIn_congr h).trans hlink

/-! ## One link asked by one session -/

@[simp] theorem length_post (l : LinkId) (ls : Links) (packets : List Bytes) :
    (post l ls packets).2.length = ls.length := by
  induction packets generalizing ls with
  | nil => rfl
  | cons packet packets ih =>
    have hsend := Links.length_ask ls l (·.send packet)
    unfold post Links.send
    split
    · next h => rw [h] at hsend; exact hsend
    · next h => rw [h] at hsend; exact (ih _).trans hsend

theorem getElem?_post_ne {j : LinkId} (h : l ≠ j) (ls : Links) (packets : List Bytes) :
    (post l ls packets).2[j]? = ls[j]? := by
  induction packets generalizing ls with
  | nil => rfl
  | cons packet packets ih =>
    have hsend := Links.getElem?_ask_ne h ls (·.send packet)
    unfold post Links.send
    split
    · next h => rw [h] at hsend; exact hsend
    · next h => rw [h] at hsend; exact (ih _).trans hsend

theorem post_congr (h : ls'[l]? = ls[l]?) (packets : List Bytes) :
    (post l ls' packets).1 = (post l ls packets).1 ∧
      (post l ls' packets).2[l]? = (post l ls packets).2[l]? := by
  induction packets generalizing ls ls' with
  | nil => exact ⟨rfl, h⟩
  | cons packet packets ih =>
    obtain ⟨hanswer, hlink⟩ := Links.ask_congr h (·.send packet)
    simp only [post, Links.send]
    rcases ha : ls.ask l (·.send packet) with ⟨b, ls₁⟩
    rcases ha' : ls'.ask l (·.send packet) with ⟨b', ls₁'⟩
    simp only [ha, ha'] at hanswer hlink
    subst hanswer
    cases b' with
    | true => exact ⟨rfl, hlink⟩
    | false => exact ih hlink

@[simp] theorem length_links_send (s : Session) (target : Option SessionId) (packet : Bytes)
    (ls : Links) : (s.send target packet ls).2.2.length = ls.length := by
  unfold send
  split
  · rfl
  · split
    · dsimp only
      split
      · rfl
      · exact length_post ..
    · rfl

theorem links_send_ne (h : s.link ≠ some l) (target : Option SessionId) (packet : Bytes)
    (ls : Links) : (s.send target packet ls).2.2[l]? = ls[l]? := by
  unfold send
  split
  · rfl
  · next j hj =>
    have hne : j ≠ l := by
      rintro rfl
      exact h hj
    split
    · dsimp only
      split
      · rfl
      · exact getElem?_post_ne hne ..
    · rfl

theorem send_congr (h : ∀ l, s.link = some l → ls'[l]? = ls[l]?) (target : Option SessionId)
    (packet : Bytes) :
    (s.send target packet ls').2.1 = (s.send target packet ls).2.1 ∧
      ∀ l, s.link = some l →
        (s.send target packet ls').2.2[l]? = (s.send target packet ls).2.2[l]? := by
  unfold send
  split
  · exact ⟨rfl, h⟩
  · next l hl =>
    obtain ⟨hqueue, hlink⟩ := post_congr (h l hl) (s.queue ++ [packet])
    split
    · split
      · exact ⟨rfl, h⟩
      · constructor
        · simp only [postNext, hqueue]
        · rintro l' hl'
          obtain rfl : l = l' := Option.some.inj (hl.symm.trans hl')
          exact hlink
    · exact ⟨rfl, h⟩

@[simp] theorem length_links_sent (s : Session) (id : SessionId) (ls : Links) :
    (s.sent id ls).2.length = ls.length := by
  unfold sent
  split
  · rfl
  · dsimp only
    split
    · exact length_post ..
    · rfl

theorem links_sent_ne (h : s.link ≠ some l) (id : SessionId) (ls : Links) :
    (s.sent id ls).2[l]? = ls[l]? := by
  unfold sent
  split
  · rfl
  · dsimp only
    split
    · next j hj =>
      have hne : j ≠ l := by
        rintro rfl
        exact h hj
      exact getElem?_post_ne hne ..
    · rfl

theorem armRead_links (s : Session) (id : SessionId) (ls : Links) :
    (s.armRead id ls).2 = ls ∨ ∃ l limit, (s.armRead id ls).2 = (ls.receive l limit).2 := by
  unfold armRead
  split
  · exact .inl rfl
  · exact .inl rfl
  · next l _ _ =>
    split
    · exact .inl rfl
    · refine .inr ⟨l, min s.limits.readChunk s.inbound.free, ?_⟩
      split
      · next h => rw [h]
      · next h => rw [h]

@[simp] theorem length_links_armRead (s : Session) (id : SessionId) (ls : Links) :
    (s.armRead id ls).2.length = ls.length := by
  rcases s.armRead_links id ls with h | ⟨l, limit, h⟩ <;> rw [h]
  exact Links.length_ask ..

theorem linkIn_receive (s : Session) (ls : Links) (i : LinkId) (limit : Nat) :
    s.linkIn (ls.receive i limit).2 = s.linkIn ls ∨
      ∃ l, s.linkIn ls = some l ∧ s.linkIn (ls.receive i limit).2 = some (l.receive limit).2 := by
  by_cases hs : s.link = some i
  · cases hl : ls[i]? with
    | none =>
      refine .inl ?_
      simp [linkIn, hs, hl, Links.receive, Links.ask]
    | some l =>
      refine .inr ⟨l, ?_, ?_⟩
      · simp [linkIn, hs, hl]
      · rw [linkIn, hs, Option.bind_some]
        exact Links.getElem?_ask_self hl _
  · refine .inl (linkIn_congr fun l hl => Links.getElem?_ask_ne ?_ ..)
    rintro rfl
    exact hs hl

theorem handed_armRead (s t : Session) (id : SessionId) (ls : Links) :
    t.handed (s.armRead id ls).2 = t.handed ls := by
  rcases s.armRead_links id ls with h | ⟨i, limit, h⟩ <;> rw [h]
  rcases t.linkIn_receive ls i limit with h | ⟨l, hl, h⟩
  · rw [handed, h, handed]
  · rw [handed_of_linkIn h, handed_of_linkIn hl, Link.handed_receive]

theorem Willing.armRead {t : Session} (h : t.Willing ls) (s : Session) (id : SessionId) :
    t.Willing (s.armRead id ls).2 := by
  obtain ⟨l, hl, hyes⟩ := h
  rcases s.armRead_links id ls with h | ⟨i, limit, h⟩ <;> rw [h]
  · exact ⟨l, hl, hyes⟩
  · rcases t.linkIn_receive ls i limit with h | ⟨l', hl', h⟩
    · exact ⟨l, h.trans hl, hyes⟩
    · obtain rfl : l = l' := Option.some.inj (hl.symm.trans hl')
      exact ⟨_, h, hyes⟩

/-! ## What is in flight -/

/-- A packet is in flight whenever there is one to be sent. -/
def Sends (s : Session) : Prop :=
  s.link.isSome → s.sending = !s.queue.isEmpty

theorem Sends.send (h : s.Sends) (target : Option SessionId) (packet : Bytes) (ls : Links) :
    (s.send target packet ls).2.1.Sends := by
  unfold Session.send
  split
  · exact h
  · split
    · dsimp only
      split
      · next hs => exact fun _ => by simp [hs]
      · exact fun _ => rfl
    · exact h

theorem Sends.sent (h : s.Sends) (id : SessionId) (ls : Links) : (s.sent id ls).1.Sends := by
  unfold Session.sent
  split
  · exact h
  · dsimp only
    split
    · exact fun _ => rfl
    · next hn => exact fun hl => by simp [hn] at hl

theorem send_of_refused {target : Option SessionId} {packet : Bytes}
    (ha : s.accepts target packet = false) : s.send target packet ls = (false, s, ls) := by
  unfold send
  split
  · rfl
  · simp [ha]

/-! ## Willing links -/

section

variable (hw : s.Willing ls)

include hw

theorem Willing.link : ∃ l, s.link = some l := by
  obtain ⟨_, h, -⟩ := hw
  obtain ⟨l, hl, -⟩ := Option.bind_eq_some_iff.1 h
  exact ⟨l, hl⟩

theorem postNext_of_willing (hl : s.link = some l) :
    (s.postNext l ls).1 = { s with sending := !s.queue.isEmpty } ∧
      (s.postNext l ls).1.Willing (s.postNext l ls).2 ∧
      (s.postNext l ls).1.handed (s.postNext l ls).2 = s.handed ls ++ s.queue.head?.toList := by
  obtain ⟨link, hlink, hyes⟩ := hw
  have hat : ls[l]? = some link := by
    simpa only [linkIn, hl, Option.bind_some] using hlink
  cases hq : s.queue with
  | nil =>
    have hpost : s.postNext l ls = ({ s with sending := false }, ls) := by
      simp [postNext, hq, post]
    rw [hpost]
    exact ⟨by simp [hq], ⟨link, hlink, hyes⟩, by simp [handed, linkIn]⟩
  | cons packet packets =>
    have hsend : ls.send l packet = (true, ls.set l (link.send packet).2) := by
      rw [Links.send, Links.ask_of_some hat]
      exact congrArg (·, _) hyes.head
    have hpost : s.postNext l ls =
        ({ s with sending := true }, ls.set l (link.send packet).2) := by
      simp [postNext, hq, post, hsend]
    have hnext : { s with sending := true }.linkIn (ls.set l (link.send packet).2) =
        some (link.send packet).2 := by
      have hset := Links.getElem?_ask_self hat (·.send packet)
      rw [Links.ask_of_some hat] at hset
      simpa only [linkIn, hl, Option.bind_some] using hset
    rw [hpost]
    refine ⟨by simp [hq], ⟨_, hnext, Link.yes_send hyes packet⟩, ?_⟩
    rw [handed_of_linkIn hnext, Link.handed_send_of_yes hyes, handed_of_linkIn hlink]
    rfl

theorem send_of_accepts (hs : s.Sends) {target : Option SessionId}
    {packet : Bytes} (ha : s.accepts target packet = true) :
    (s.send target packet ls).2.1 = { s with queue := s.queue ++ [packet], sending := true } ∧
      (s.send target packet ls).2.1.Willing (s.send target packet ls).2.2 ∧
      (s.send target packet ls).2.1.outgoing (s.send target packet ls).2.2 =
        s.outgoing ls ++ [packet] := by
  obtain ⟨l, hl⟩ := hw.link
  have hs := hs (by rw [hl]; rfl)
  cases hq : s.queue with
  | nil =>
    have hpost := postNext_of_willing (s := { s with queue := [packet] }) hw hl
    have hsend : s.send target packet ls = (true, { s with queue := [packet] }.postNext l ls) := by
      have hidle : s.sending = false := by simpa [hq] using hs
      simp [send, hl, ha, hidle, hq]
    rw [hsend]
    obtain ⟨hsession, hwilling, hhanded⟩ := hpost
    refine ⟨by simpa using hsession, hwilling, ?_⟩
    rw [outgoing, hhanded, hsession, outgoing, hq]
    simp [handed, linkIn]
  | cons p ps =>
    have hbusy : s.sending = true := by simpa [hq] using hs
    have hsend : s.send target packet ls =
        (true, { s with queue := s.queue ++ [packet] }, ls) := by
      simp [send, hl, ha, hbusy]
    rw [hsend]
    refine ⟨by simp [hq, hbusy], hw, ?_⟩
    simp [outgoing, hq, handed, linkIn]

/-- Whether a packet is taken or not, nothing that was there is lost. -/
theorem send_of_willing (hs : s.Sends) (target : Option SessionId)
    (packet : Bytes) :
    (s.send target packet ls).2.1.Willing (s.send target packet ls).2.2 ∧
      s.outgoing ls <+: (s.send target packet ls).2.1.outgoing (s.send target packet ls).2.2 ∧
      s.queue <+: (s.send target packet ls).2.1.queue := by
  cases ha : s.accepts target packet with
  | true =>
    obtain ⟨hsession, hwilling, hout⟩ := send_of_accepts hw hs ha
    refine ⟨hwilling, hout ▸ List.prefix_append .., ?_⟩
    rw [hsession]
    exact List.prefix_append ..
  | false =>
    rw [send_of_refused ha]
    exact ⟨hw, List.prefix_rfl, List.prefix_rfl⟩

/-- A write that is done with makes room for the next, and says nothing new. -/
theorem sent_of_willing (id : SessionId) :
    (s.sent id ls).1.Willing (s.sent id ls).2 ∧
      (s.sent id ls).1.outgoing (s.sent id ls).2 = s.outgoing ls := by
  unfold sent
  split
  · exact ⟨hw, rfl⟩
  · dsimp only
    split
    · next l hl =>
      obtain ⟨hsession, hwilling, hhanded⟩ :=
        postNext_of_willing (s := { s with queue := s.queue.tail }) hw hl
      refine ⟨hwilling, ?_⟩
      rw [outgoing, hhanded, hsession, outgoing, List.append_assoc]
      exact congrArg _ (by cases s.queue.tail <;> rfl)
    · next hl =>
      obtain ⟨l, hsome⟩ := hw.link
      cases hsome.symm.trans hl

end

end Session

end ChatRelay
