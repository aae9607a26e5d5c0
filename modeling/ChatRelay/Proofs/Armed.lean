import Mathlib.Data.List.Count
import ChatRelay.Proofs.Endings

/-! # One read at a time

Wherever anybody is served, one read has been posted that has not completed yet, and never two.
Whatever a read brings, the next one is posted, or the connection is torn down; reads of connections
that are gone may complete at any time.
-/

namespace ChatRelay

open Relation (ReflTransGen)

variable {S : Type}

/-- The reads that a link has agreed to, each under the slot and the connection that the link was
made for. -/
def Link.posted (l : Link) : List (Nat × SessionId) :=
  List.replicate (l.reads.countP (·.2)) (l.slot, l.session)

@[simp] theorem Link.posted_send (l : Link) (packet : Bytes) :
    (l.send packet).2.posted = l.posted := by
  rw [posted, reads_send]
  rfl

@[simp] theorem Link.posted_close (l : Link) : (l.record .close).posted = l.posted := by
  rw [posted, reads_close]
  rfl

theorem Link.posted_receive (l : Link) (limit : Nat) :
    (l.receive limit).2.posted =
      l.posted ++ if (l.receive limit).1 then [(l.slot, l.session)] else [] := by
  rw [posted, reads_receive, List.countP_append]
  cases (l.receive limit).1
  · exact (List.append_nil _).symm
  · exact List.replicate_succ'

namespace Relay

variable {v : Service S} {r r' : Relay S} {slot k : Nat} {id : SessionId} {i : LinkId}
  {done ts : List (Nat × SessionId)}

def labels (r : Relay S) : List (Nat × SessionId) :=
  r.links.map fun l => (l.slot, l.session)

/-- All reads that were ever posted. -/
def posted (r : Relay S) : List (Nat × SessionId) :=
  (r.links.map Link.posted).flatten

/-- The reads that were posted and are not among those that have completed. -/
def pending (r : Relay S) (done : List (Nat × SessionId)) : List (Nat × SessionId) :=
  r.posted.diff done

theorem mem_labels_of_posted {t : Nat × SessionId} (h : t ∈ r.posted) : t ∈ r.labels := by
  obtain ⟨reads, hreads, ht⟩ := List.mem_flatten.1 h
  obtain ⟨l, hl, rfl⟩ := List.mem_map.1 hreads
  exact List.mem_map.2 ⟨l, hl, (List.eq_of_mem_replicate ht).symm⟩

theorem getElem?_of_prefix {ls ls' : List (Nat × SessionId)} (h : ls <+: ls')
    {t : Nat × SessionId} (ht : ls[i]? = some t) : ls'[i]? = some t := by
  obtain ⟨hi, rfl⟩ := List.getElem?_eq_some_iff.1 ht
  exact List.prefix_iff_getElem?.1 h i hi

theorem Act.labels_eq (ha : Act slot r r') : r'.labels = r.labels := by
  obtain hsame | ⟨id, rfl⟩ | rfl := ha.map_links_or (g := fun l => (l.slot, l.session)) fun _ _ => rfl
  · exact hsame
  · exact Session.map_armRead (fun _ _ => rfl) ..
  · rw [labels, links_release]
    exact Session.map_hangUp (fun _ => rfl) ..

theorem Acts.labels_eq (ha : Acts r r') : r'.labels = r.labels := by
  induction ha with
  | refl => rfl
  | tail _ ha ih =>
    obtain ⟨_, ha⟩ := ha
    exact ha.labels_eq.trans ih

/-! ## Where reads are posted -/

theorem Deed.posted_eq (hd : Deed r r') : r'.posted = r.posted :=
  congrArg List.flatten (hd.map_links Link.posted_send)

theorem posted_depart (r : Relay S) (slot : Nat) (id : SessionId) :
    (r.depart slot id).2.posted = r.posted := by
  rcases depart_cases r slot id with ⟨-, he⟩ | ⟨-, he⟩ <;> rw [he]
  rfl

theorem posted_release (r : Relay S) (slot : Nat) : (r.release slot).posted = r.posted := by
  rw [posted, links_release, Session.map_hangUp Link.posted_close, posted]

theorem posted_sent (r : Relay S) (slot : Nat) (id : SessionId) :
    (r.sent slot id).posted = r.posted :=
  congrArg List.flatten (Session.map_sent Link.posted_send ..)

theorem labels_begin (hlink : (r.session slot).link = none) (id : SessionId) (l : Link) :
    (r.begin slot id l).labels = r.labels ++ [(l.slot, l.session)] := by
  rw [labels, links_begin hlink, List.map_append, List.map_singleton, labels]

theorem posted_begin (hlink : (r.session slot).link = none) (id : SessionId) {l : Link}
    (hlog : l.log = []) : (r.begin slot id l).posted = r.posted := by
  rw [posted, links_begin hlink]
  simp [posted, Link.posted, Link.reads, hlog]

theorem posted_of_chain (h : ReflTransGen (fun r r' : Relay S => r'.posted = r.posted) r r') :
    r'.posted = r.posted := by
  induction h with
  | refl => rfl
  | tail _ hs ih => exact hs.trans ih

theorem posted_armRead (r : Relay S) (slot : Nat) (id : SessionId) :
    ((r.armRead slot id).1 = .ok () ∧ ∃ i t, (r.session slot).link = some i ∧
      r.labels[i]? = some t ∧ (r.armRead slot id).2.posted.Perm (t :: r.posted)) ∨
    (r.armRead slot id).1 ≠ .ok () ∧ (r.armRead slot id).2.posted = r.posted := by
  obtain ⟨err, he⟩ | ⟨i, l, hi, hl, -, he⟩ := (r.session slot).armRead_cases r.links id
  · have harm : r.armRead slot id = (.error err, r) := by
      rw [Relay.armRead, he]
    rw [harm]
    exact .inr ⟨by rintro ⟨⟩, rfl⟩
  · set read := l.receive (min (r.session slot).limits.readChunk (r.session slot).inbound.free)
      with hread
    have harm : r.armRead slot id = (if read.1 then .ok () else .error (.link Links.refusal),
        { r with links := r.links.set i read.2 }) := by
      rw [Relay.armRead, he]
    obtain ⟨hlt, rfl⟩ := List.getElem?_eq_some_iff.1 hl
    obtain ⟨before, after, hsplit, -, hset⟩ := @List.exists_of_set _ _ read.2 _ hlt
    have hposted : (r.armRead slot id).2.posted =
        (before.map Link.posted).flatten ++ (read.2.posted ++ (after.map Link.posted).flatten) := by
      rw [harm, posted]
      simp only [hset, List.map_append, List.map_cons, List.flatten_append, List.flatten_cons]
    have hbefore : r.posted = (before.map Link.posted).flatten ++
        (r.links[i].posted ++ (after.map Link.posted).flatten) := by
      rw [posted]
      conv_lhs => rw [hsplit]
      simp only [List.map_append, List.map_cons, List.flatten_append, List.flatten_cons]
    rw [hposted, hread, Link.posted_receive, ← hread, harm]
    cases hagrees : read.1 with
    | true =>
      refine .inl ⟨rfl, i, (r.links[i].slot, r.links[i].session), hi, ?_, ?_⟩
      · simp [labels, hlt]
      · rw [hbefore, if_pos rfl, List.append_assoc]
        exact (List.perm_middle.append_left _).trans List.perm_middle
    | false => exact .inr ⟨by rintro ⟨⟩, by rw [hbefore]; simp⟩

section

variable (hd : v.Within Deed)

include hd

theorem posted_disconnect (slot : Nat) (id : SessionId) (announced : Bool) (r : Relay S) :
    (r.disconnect v slot id announced).posted = r.posted :=
  posted_of_chain (disconnect_ends (hd.mono fun _ _ hd => hd.posted_eq) id
    (fun _ _ hd => hd.posted_eq) (posted_depart · slot id) (posted_release · slot) announced r)

theorem posted_absorb (slot : Nat) (id : SessionId) (bs : Bytes) (r : Relay S) :
    (r.absorb v slot id bs).posted = r.posted := by
  have hchain : ReflTransGen (fun r r' : Relay S => r'.posted = r.posted) r
      (r.handleAll v slot id (r.framing slot bs).packets) :=
    handleAll_chain (fun _ _ hd => hd.posted_eq) (hd.mono fun _ _ hd => hd.posted_eq) ..
  have hposted := posted_of_chain hchain
  exact hposted

theorem labels_absorb (slot : Nat) (id : SessionId) (bs : Bytes) (r : Relay S) :
    (r.absorb v slot id bs).labels = r.labels := by
  have hchain : Acts r (r.handleAll v slot id (r.framing slot bs).packets) :=
    handleAll_chain (fun _ _ hd => ⟨0, .deed hd⟩) (hd.mono fun _ _ hd => ⟨0, .deed hd⟩) ..
  exact hchain.labels_eq

theorem link_absorb (slot : Nat) (id : SessionId) (bs : Bytes) (r : Relay S) :
    ((r.absorb v slot id bs).session slot).link = (r.session slot).link := by
  obtain ⟨ring, hs⟩ := session_withInbound
    (r.handleAll v slot id (r.framing slot bs).packets) slot slot (r.leftAfter slot bs)
  have hchain : ReflTransGen Deed r (r.handleAll v slot id (r.framing slot bs).packets) :=
    handleAll_chain (fun _ _ hd => hd) hd ..
  obtain ⟨_, _, _, _, _, hs'⟩ := session_eq_of_deeds hchain slot
  rw [absorb, hs, hs']

end

/-- What a read of connection `id` brings is taken in, and the next read is posted: something comes,
there is room for it, its packets are well formed and the link agrees to read on. -/
def Rearms (v : Service S) (slot : Nat) (id : SessionId) (result : Except String Bytes)
    (r : Relay S) : Prop :=
  ∃ bs, result = .ok bs ∧ bs ≠ [] ∧ bs.length ≤ (r.session slot).inbound.free ∧
    (r.framing slot bs).error = none ∧ ((r.absorb v slot id bs).armRead slot id).1 = .ok ()

/-- The next read of a connection that is served is posted, or none is and the connection is to be
torn down. -/
theorem takeIn_of_served (hv : v.Blind) (hd : v.Within Deed)
    (ho : (r.session slot).obstacle? id = none) (result : Except String Bytes) :
    (r.Rearms v slot id result ∧ ∃ bs,
      r.takeIn v slot id result = (false, ((r.absorb v slot id bs).armRead slot id).2) ∧
        ((r.absorb v slot id bs).armRead slot id).1 = .ok ()) ∨
    ¬ r.Rearms v slot id result ∧ (r.takeIn v slot id result).1 = true ∧
      (r.takeIn v slot id result).2.posted = r.posted := by
  rcases result with err | _ | ⟨b, bs⟩
  · refine .inr ⟨?_, rfl, rfl⟩
    rintro ⟨_, ⟨⟩, -⟩
  · refine .inr ⟨?_, rfl, rfl⟩
    rintro ⟨_, ⟨⟩, hne, -⟩
    exact hne rfl
  · by_cases hroom : (b :: bs).length ≤ (r.session slot).inbound.free
    · have hdrain := drain_receive hv hd ho hroom
      rw [receive_of_fits ho hroom] at hdrain
      cases he : (r.framing slot (b :: bs)).error with
      | some err =>
        have htake : r.takeIn v slot id (.ok (b :: bs)) = (true, r.absorb v slot id (b :: bs)) := by
          simp only [takeIn, receive_of_fits ho hroom, hdrain, Framing.outcome, he]
        rw [htake]
        refine .inr ⟨?_, rfl, posted_absorb hd ..⟩
        rintro ⟨_, ⟨⟩, -, -, hnone, -⟩
        cases he.symm.trans hnone
      | none =>
        have ho' : ((r.absorb v slot id (b :: bs)).session slot).obstacle? id = none := by
          rw [obstacle?_absorb hd, ho]
        have hfatal := Engine.armRead_fatal (r.absorb v slot id (b :: bs)) ho'
        have hposted := posted_armRead (r.absorb v slot id (b :: bs)) slot id
        rcases harm : (r.absorb v slot id (b :: bs)).armRead slot id with ⟨err | _, r'⟩
        · have htake : r.takeIn v slot id (.ok (b :: bs)) = (Engine.isFatal err, r') := by
            simp only [takeIn, receive_of_fits ho hroom, hdrain, Framing.outcome, he, harm]
          rw [harm] at hfatal hposted
          rw [htake]
          obtain ⟨hok, -⟩ | ⟨-, hposted⟩ := hposted
          · cases hok
          · refine .inr ⟨?_, hfatal err rfl, hposted.trans (posted_absorb hd ..)⟩
            rintro ⟨_, ⟨⟩, -, -, -, hok⟩
            rw [harm] at hok
            cases hok
        · have htake : r.takeIn v slot id (.ok (b :: bs)) = (false, r') := by
            simp only [takeIn, receive_of_fits ho hroom, hdrain, Framing.outcome, he, harm]
          have hok : ((r.absorb v slot id (b :: bs)).armRead slot id).1 = .ok () := by
            rw [harm]
          refine .inl ⟨⟨b :: bs, rfl, List.cons_ne_nil b bs, hroom, he, hok⟩, b :: bs, ?_, hok⟩
          rw [htake, harm]
    · refine .inr ⟨?_, ?_⟩
      · rintro ⟨_, ⟨⟩, -, hfits, -⟩
        exact hroom hfits
      · simp only [takeIn, receive_of_overflow ho hroom, Engine.isFatal, and_self]

/-! ## Pending reads -/

/-- What holds of the reads that were posted and those that have completed: the link of whoever is
served was made for it, no read completes that was not posted, and wherever anybody is served one
read has not completed yet. -/
structure Booked (r : Relay S) (done : List (Nat × SessionId)) : Prop where
  labelled : ∀ k i, (r.session k).link = some i → r.labels[i]? = some (k, (r.session k).id)
  done_le : ∀ t, done.count t ≤ r.posted.count t
  armed : ∀ k, (r.session k).link.isSome →
    r.posted.count (k, (r.session k).id) = done.count (k, (r.session k).id) + 1

/-- Nobody comes to be served. -/
def Still (r r' : Relay S) : Prop :=
  ∀ k i, (r'.session k).link = some i →
    (r.session k).link = some i ∧ (r'.session k).id = (r.session k).id

theorem Acts.still (ha : Acts r r') (hw : Wired r) : Still r r' := by
  intro k i hl
  have hlength : r'.links.length = r.links.length := by
    have hlabels := congrArg List.length ha.labels_eq
    simpa [labels] using hlabels
  have hages := ages_of_stirs ha.stirs hl (hlength ▸ (hw.of_stirs ha.stirs).link_lt k i hl)
  exact ⟨hages.link.symm.trans hl, hages.id⟩

namespace Booked

variable {t : Nat × SessionId} (h : Booked r done)

include h

theorem count_pending (hl : (r.session k).link.isSome) :
    (r.pending done).count (k, (r.session k).id) = 1 := by
  rw [pending, List.count_diff, h.armed k hl, Nat.add_sub_cancel_left]

theorem settle (hstill : Still r r') (hlabels : r.labels <+: r'.labels)
    (hposted : r'.posted.Perm (ts ++ r.posted)) : Booked r' (done ++ ts) := by
  have hcount (t : Nat × SessionId) : r'.posted.count t = ts.count t + r.posted.count t := by
    rw [hposted.count_eq, List.count_append]
  constructor
  case labelled =>
    intro k i hl
    obtain ⟨hl, hid⟩ := hstill k i hl
    rw [hid]
    exact getElem?_of_prefix hlabels (h.labelled k i hl)
  case done_le =>
    intro t
    have hle := h.done_le t
    rw [hcount, List.count_append]
    omega
  case armed =>
    intro k hl
    obtain ⟨i, hl⟩ := Option.isSome_iff_exists.1 hl
    obtain ⟨hl, hid⟩ := hstill k i hl
    have harmed := h.armed k (Option.isSome_iff_exists.2 ⟨i, hl⟩)
    rw [hid, hcount, List.count_append]
    omega

theorem quiet (hstill : Still r r') (hlabels : r.labels <+: r'.labels)
    (hposted : r'.posted = r.posted) : Booked r' done := by
  have hsettled : Booked r' (done ++ []) := h.settle hstill hlabels (.of_eq hposted)
  rwa [List.append_nil] at hsettled

theorem complete (hstill : Still r r') (hlabels : r.labels <+: r'.labels)
    (hposted : r'.posted = r.posted) (ht : t ∈ r.pending done)
    (hne : ∀ k, (r'.session k).link.isSome → (k, (r'.session k).id) ≠ t) :
    Booked r' (done ++ [t]) := by
  have hsettled := h.quiet hstill hlabels hposted
  constructor
  case labelled => exact hsettled.labelled
  case done_le =>
    intro t'
    rw [hposted, List.count_append]
    by_cases heq : t' = t
    · subst heq
      have hpos := List.count_pos_iff.2 ht
      rw [pending, List.count_diff] at hpos
      rw [List.count_singleton_self]
      omega
    · rw [List.count_singleton, if_neg (by simpa using Ne.symm heq)]
      exact h.done_le t'
  case armed =>
    intro k hl
    rw [hsettled.armed k hl, List.count_append, List.count_singleton,
      if_neg (by simpa using (hne k hl).symm)]

theorem begun (hlink : (r.session slot).link = none) (hslot : slot < r.capacity)
    (hnew : ∀ t ∈ r.labels, t.2 ≠ id) {l : Link} (hlog : l.log = [])
    (hl : (l.slot, l.session) = (slot, id))
    (harm : ((r.begin slot id l).armRead slot id).1 = .ok ()) :
    Booked ((r.begin slot id l).armRead slot id).2 done := by
  have hs (k : Nat) := session_begin hslot id l k
  have hself := hs slot
  rw [if_pos rfl] at hself
  have hlabels : (r.begin slot id l).labels = r.labels ++ [(slot, id)] := by
    rw [labels_begin hlink, hl]
  have hlabels' : ((r.begin slot id l).armRead slot id).2.labels = r.labels ++ [(slot, id)] :=
    (Act.labels_eq (@Act.armRead _ slot _ id)).trans hlabels
  have hat : (r.begin slot id l).labels[r.links.length]? = some (slot, id) := by
    rw [hlabels]
    simp [labels]
  have hunseen : r.posted.count (slot, id) = 0 :=
    List.count_eq_zero.2 fun hmem => hnew _ (mem_labels_of_posted hmem) rfl
  obtain ⟨-, i, t, hi, ht, hposted⟩ | ⟨hno, -⟩ := posted_armRead (r.begin slot id l) slot id
  · rw [hself] at hi
    obtain rfl := Option.some.inj hi
    obtain rfl := Option.some.inj (hat.symm.trans ht)
    rw [posted_begin hlink id hlog] at hposted
    constructor
    case labelled =>
      intro k i hk
      rw [session_armRead, hs] at hk
      rw [session_armRead, hs, hlabels']
      split at hk
      · next hslot =>
        subst hslot
        obtain rfl := Option.some.inj hk
        rw [if_pos rfl, ← hlabels]
        exact hat
      · next hne =>
        rw [if_neg hne]
        exact getElem?_of_prefix (List.prefix_append ..) (h.labelled k i hk)
    case done_le =>
      intro t
      rw [hposted.count_eq]
      exact (h.done_le t).trans (List.count_le_count_cons ..)
    case armed =>
      intro k hk
      rw [session_armRead, hs] at hk
      rw [session_armRead, hs, hposted.count_eq]
      split at hk
      · next hslot =>
        subst hslot
        have hle := h.done_le (slot, id)
        rw [if_pos rfl]
        change List.count (slot, id) ((slot, id) :: r.posted) = List.count (slot, id) done + 1
        rw [List.count_cons_self]
        omega
      · next hne =>
        rw [if_neg hne, List.count_cons_of_ne (fun heq => hne (congrArg Prod.fst heq))]
        exact h.armed k hk
  · exact absurd harm hno

end Booked

end Relay

namespace Engine

open Relay

variable {v : Service S} {e : Engine S} {done : List (Nat × SessionId)}

def Step.read? : Step → Option (Nat × SessionId)
  | .complete (.received slot id _) => some (slot, id)
  | _ => none

/-- What may come next when the reads in `done` have completed: a connection has an id that no other
has had, and a read completes that was posted and has not completed yet. -/
def Allows (e : Engine S) (done : List (Nat × SessionId)) : Step → Prop
  | .accept _ => ∀ l ∈ e.relay.links, l.session ≠ e.allocate.1
  | .complete (.received slot id _) => (slot, id) ∈ e.relay.pending done
  | _ => True

/-- No id is given out twice, and every read completes once, if it does. -/
def Regular (v : Service S) : Engine S → List (Nat × SessionId) → List Step → Prop
  | _, _, [] => True
  | e, done, s :: steps =>
    e.Allows done s ∧ Regular v (e.step v s) (done ++ (Step.read? s).toList) steps

instance Allows.decidable (e : Engine S) (done : List (Nat × SessionId)) :
    (s : Step) → Decidable (e.Allows done s)
  | .accept _ => inferInstanceAs (Decidable (∀ l ∈ e.relay.links, l.session ≠ _))
  | .complete (.received ..) => inferInstanceAs (Decidable (_ ∈ _))
  | .complete (.sent ..) | .halt | .stop => .isTrue trivial

instance Regular.decidable (v : Service S) :
    (e : Engine S) → (done : List (Nat × SessionId)) → (steps : List Step) →
      Decidable (e.Regular v done steps)
  | _, _, [] => .isTrue trivial
  | e, done, s :: steps =>
    have := Regular.decidable v (e.step v s) (done ++ (Step.read? s).toList) steps
    inferInstanceAs (Decidable (_ ∧ _))

theorem allocate_ne_zero (e : Engine S) : e.allocate.1 ≠ 0 := by
  unfold allocate
  dsimp only
  split
  · decide
  · assumption

theorem freshFor_of_allows (ho : Orderly e.relay) (h : Booked e.relay done) {s : Step}
    (hs : e.Allows done s) : e.FreshFor s := by
  cases s with
  | accept c =>
    refine ⟨e.allocate_ne_zero, fun k hk => ?_⟩
    cases hl : (e.relay.session k).link with
    | none =>
      have hidle := ((ho.consistent.proper k).idle hl).1
      exact e.allocate_ne_zero (hk.symm.trans hidle)
    | some i =>
      obtain ⟨l, hl, hlabel⟩ := List.mem_map.1 (List.mem_of_getElem? (h.labelled k i hl))
      exact hs l hl ((congrArg Prod.snd hlabel).trans hk)
  | complete | halt | stop => trivial

theorem booked_accept (hw : Wired e.relay) (h : Booked e.relay done) {c : Incoming}
    (hnew : ∀ l ∈ e.relay.links, l.session ≠ e.allocate.1) :
    Booked (e.accept c).2.relay done := by
  obtain he | ⟨slot, r, ha, hcases⟩ := e.accept_eq c
  · rwa [he]
  · have hacquire := acts_of_act (.single (Act.acquire ha))
    obtain ⟨hleased, hlink, -⟩ := hw.acquired ha
    have hposted : r.posted = e.relay.posted := by
      obtain ⟨free, -, rfl⟩ := acquire_eq_some_iff.1 ha
      rfl
    have hlabels := hacquire.labels_eq
    have hr : Booked r done :=
      h.quiet (hacquire.still hw) (hlabels ▸ List.prefix_rfl) hposted
    have hslot := lt_capacity_of_leased hleased
    obtain ⟨-, he⟩ | ⟨harm, -, he⟩ | ⟨hno, -, he⟩ := hcases <;> rw [he]
    · have hrelease := acts_of_act (.single (@Act.release _ slot r))
      exact hr.quiet (hrelease.still (hw.acquire ha)) (hrelease.labels_eq ▸ List.prefix_rfl)
        (posted_release r slot)
    · refine hr.begun hlink hslot (fun t ht => ?_) rfl rfl harm
      obtain ⟨l, hl, rfl⟩ := List.mem_map.1 (hlabels ▸ ht)
      exact hnew l hl
    · set l := c.link slot e.allocate.1
      have harm := @Act.armRead _ slot (r.begin slot e.allocate.1 l) e.allocate.1
      refine hr.quiet (fun k i hl => ?_) ?_ ?_
      · have hne : slot ≠ k := by
          rintro rfl
          have hi := identity_release ((r.begin slot e.allocate.1 l).armRead slot e.allocate.1).2
            slot slot
          rw [if_pos rfl] at hi
          cases (congrArg Identity.link hi).symm.trans hl
        have hs := session_begin hslot e.allocate.1 l k
        rw [if_neg hne] at hs
        rw [session_release_ne hne, session_armRead, hs] at hl
        rw [session_release_ne hne, session_armRead, hs]
        exact ⟨hl, rfl⟩
      · rw [(Act.release _).labels_eq, harm.labels_eq, labels_begin hlink]
        exact List.prefix_append ..
      · obtain ⟨hok, -⟩ | ⟨-, hposted⟩ :=
          posted_armRead (r.begin slot e.allocate.1 l) slot e.allocate.1
        · exact absurd hok hno
        · rw [posted_release, hposted, posted_begin hlink _ rfl]

section

variable (hv : v.Mute) (hb : v.Blind)

include hv hb

/-- A read of a connection that is served ends with the next read posted, or with the connection
torn down: one call is made to end it, nothing is posted, and nobody is served in its slot. -/
theorem received_of_served (h : Booked e.relay done) {i : LinkId} {slot : Nat} {id : SessionId}
    (hs : e.relay.Served i slot id) (result : Except String Bytes) :
    let s := Step.complete (.received slot id result)
    let r := (e.step v s).relay
    (e.relay.Rearms v slot id result ∧ r.Served i slot id ∧
      r.posted.Perm ((slot, id) :: e.relay.posted)) ∨
    ¬ e.relay.Rearms v slot id result ∧ r.posted = e.relay.posted ∧
      (r.session slot).link = none ∧ ∃ x, e.endings v s = [x] ∧ r = x.result v ∧
        x.relay.Served i slot id ∧ x.slot = slot ∧ x.id = id ∧ Acts e.relay x.relay := by
  intro s r
  have hd : v.Within Deed := Service.Mute.deed hv
  have ho : (e.relay.session slot).obstacle? id = none :=
    Session.obstacle?_eq_none_iff.2 ⟨hs.id, Option.isSome_iff_exists.2 ⟨i, hs.link⟩⟩
  have hslot := lt_capacity_of_obstacle? ho
  have hbustles := takeIn_bustles hv slot id result e.relay
  have hserved := hs.bustles hbustles
  have hr : r = (e.afterRead v slot id result).relay := by
    simp only [r, s, step, Engine.complete, if_pos hslot]
  rw [afterRead_takeIn] at hr
  obtain ⟨hrearms, bs, htake, hok⟩ | ⟨hno, hends, hposted⟩ :=
    takeIn_of_served hb hd ho result
  · rw [htake] at hr hserved
    have hr : r = ((e.relay.absorb v slot id bs).armRead slot id).2 := hr
    refine .inl ⟨hrearms, hr ▸ hserved, ?_⟩
    obtain ⟨-, j, t, hj, ht, hposted⟩ | ⟨hfails, -⟩ :=
      posted_armRead (e.relay.absorb v slot id bs) slot id
    · rw [link_absorb hd, hs.link] at hj
      obtain rfl := Option.some.inj hj
      rw [labels_absorb hd, h.labelled slot i hs.link, hs.id] at ht
      obtain rfl := Option.some.inj ht
      rw [posted_absorb hd] at hposted
      rwa [hr]
    · exact absurd hok hfails
  · set o := e.relay.takeIn v slot id result with ho'
    have hr : r = o.2.disconnect v slot id e.running := by
      rw [hr, hends]
      rfl
    have hendings : e.endings v s = [⟨o.2, slot, id, e.running⟩] := by
      simp only [s, endings, ← ho', hends, hslot, and_self, if_true]
      rfl
    refine .inr ⟨hno, ?_, ?_, ⟨o.2, slot, id, e.running⟩, hendings, hr, hserved, rfl, rfl, ?_⟩
    · rw [hr, posted_disconnect hd, hposted]
    · rw [hr]
      exact link_disconnect (Session.obstacle?_eq_none_iff.2 ⟨hserved.id,
        Option.isSome_iff_exists.2 ⟨i, hserved.link⟩⟩) hserved.live e.running
    · exact acts_of_act (acts_of_bustles hbustles)

theorem booked_received (hw : Wired e.relay) (h : Booked e.relay done) {slot : Nat}
    {id : SessionId} (hlive : (e.relay.session slot).link.isSome →
      (e.relay.session slot).phase ≠ .disconnecting)
    (ht : (slot, id) ∈ e.relay.pending done) (result : Except String Bytes) :
    Booked (e.step v (.complete (.received slot id result))).relay (done ++ [(slot, id)]) := by
  have hacts : Acts e.relay (e.step v (.complete (.received slot id result))).relay :=
    acts_of_act (complete_acts (Service.Mute.deed hv) (.received slot id result))
  have hstill := hacts.still hw
  have hlabels : e.relay.labels <+: (e.step v (.complete (.received slot id result))).relay.labels :=
    hacts.labels_eq ▸ List.prefix_rfl
  cases ho : (e.relay.session slot).obstacle? id with
  | some err =>
    have hsame : e.step v (.complete (.received slot id result)) = e := by
      simp only [step, Engine.complete, afterRead_of_obstacle ho, ite_self]
    rw [hsame]
    refine h.complete (fun k i hl => ⟨hl, rfl⟩) List.prefix_rfl rfl ht fun k hk heq => ?_
    obtain ⟨rfl, hid⟩ := Prod.mk.inj heq
    cases ho.symm.trans (Session.obstacle?_eq_none_iff.2 ⟨hid, hk⟩)
  | none =>
    obtain ⟨hid, hlink⟩ := Session.obstacle?_eq_none_iff.1 ho
    obtain ⟨i, hl⟩ := Option.isSome_iff_exists.1 hlink
    obtain ⟨-, -, hposted⟩ | ⟨-, hposted, hnone, -⟩ :=
      received_of_served hv hb h ⟨hl, hid, hlive hlink⟩ result
    · exact h.settle hstill hlabels hposted
    · refine h.complete hstill hlabels hposted ht fun k hk heq => ?_
      obtain ⟨rfl, -⟩ := Prod.mk.inj heq
      rw [hnone] at hk
      cases hk

omit hb in
theorem posted_endAll (slots : List Nat) (e : Engine S) :
    (e.endAll v slots).relay.posted = e.relay.posted :=
  posted_of_chain (endAll_parts (fun slot id announced r =>
    .single (posted_disconnect (Service.Mute.deed hv) slot id announced r)) slots e)

theorem booked_step (hw : Wired e.relay) (h : Booked e.relay done)
    (hlive : ∀ k, (e.relay.session k).link.isSome → (e.relay.session k).phase ≠ .disconnecting)
    {s : Step} (hs : e.Allows done s) :
    Booked (e.step v s).relay (done ++ (Step.read? s).toList) := by
  have hd : v.Within Deed := Service.Mute.deed hv
  cases s with
  | accept c =>
    simp only [Step.read?, Option.toList_none, List.append_nil]
    exact booked_accept hw h hs
  | complete c =>
    cases c with
    | received slot id result => exact booked_received hv hb hw h (hlive slot) hs result
    | sent slot id result =>
      have hacts : Acts e.relay (e.step v (.complete (.sent slot id result))).relay :=
        acts_of_act (complete_acts hd (.sent slot id result))
      simp only [Step.read?, Option.toList_none, List.append_nil]
      refine h.quiet (hacts.still hw) (hacts.labels_eq ▸ List.prefix_rfl) ?_
      simp only [step, Engine.complete]
      split
      · rcases result with err | n
        · exact posted_disconnect hd slot id e.running e.relay
        · exact posted_sent e.relay slot id
      · rfl
  | halt =>
    simp only [Step.read?, Option.toList_none, List.append_nil]
    exact h
  | stop =>
    have hacts : Acts e.relay (e.step v .stop).relay := endAll_acts hd (e := e.halt) _
    simp only [Step.read?, Option.toList_none, List.append_nil]
    exact h.quiet (hacts.still hw) (hacts.labels_eq ▸ List.prefix_rfl) (posted_endAll hv _ e.halt)

/-- As long as ids are given out once and reads complete once, the relay stays orderly and the books
are in order. -/
theorem regular_run (ho : Orderly e.relay) (hp : ∀ k, e.relay.Poised k)
    (h : Booked e.relay done) {steps : List Step} (hs : e.Regular v done steps) :
    e.FreshIds v steps ∧ (∀ k, (e.run v steps).relay.Poised k) ∧
      Booked (e.run v steps).relay (done ++ steps.filterMap Step.read?) := by
  have hd : v.Within Deed := Service.Mute.deed hv
  induction steps generalizing e done with
  | nil => exact ⟨trivial, hp, by rwa [List.filterMap_nil, List.append_nil]⟩
  | cons s steps ih =>
    have hfresh := freshFor_of_allows ho h hs.1
    have hbooked := booked_step hv hb ho.wired h (fun k => (hp k).live) hs.1
    obtain ⟨hfreshs, hposed, hbooks⟩ := ih (orderly_step hd ho hfresh)
      (fun k => poised_step hd hb (hp k) ho.wired s) hbooked hs.2
    refine ⟨⟨hfresh, hfreshs⟩, hposed, ?_⟩
    have hread : done ++ (s :: steps).filterMap Step.read? =
        done ++ (Step.read? s).toList ++ steps.filterMap Step.read? := by
      cases hread : Step.read? s <;> simp [hread]
    rw [hread]
    exact hbooks

end

theorem booked_start (capacity : Nat) (limits : Limits) (store : S) :
    Booked (Relay.start capacity limits store) [] := by
  have hnone (k : Nat) : ((Relay.start capacity limits store).session k).link = none :=
    congrArg Session.link (session_start ..)
  refine ⟨fun k i hl => ?_, fun t => Nat.zero_le _, fun k hk => ?_⟩
  · cases (hnone k).symm.trans hl
  · rw [hnone k] at hk
    cases hk

/-- Ids are given out once, and reads complete once and in any order, those of connections that are
gone included. Then wherever anybody is served, one read is pending under its slot and its id,
neither none nor two. A read of a connection that is served ends with the next one posted; if that
cannot be done, one call tears the connection down. -/
theorem one_read_pending (answer : (c : StoreCall) → S → Except StoreError c.Answer × S)
    (token : Nat → String) (lifetime capacity : Nat) (limits : Limits) (store : S)
    {steps : List Step}
    (hs : (start capacity limits store).Regular (.ofStore answer token lifetime) [] steps) :
    let v := Service.ofStore answer token lifetime
    let e := (start capacity limits store).run v steps
    let done := steps.filterMap Step.read?
    (∀ k, (e.relay.session k).link.isSome → (e.relay.session k).isLive = true ∧
      (e.relay.pending done).count (k, (e.relay.session k).id) = 1) ∧
    ∀ i slot id result, e.relay.Served i slot id →
      let s := Step.complete (.received slot id result)
      let r := (e.step v s).relay
      (e.relay.Rearms v slot id result →
        r.Served i slot id ∧ r.posted.Perm ((slot, id) :: e.relay.posted)) ∧
      (¬ e.relay.Rearms v slot id result →
        r.posted = e.relay.posted ∧ (r.session slot).link = none ∧
          ∃ x, e.endings v s = [x] ∧ r = x.result v ∧ x.TearsDown v i slot id) := by
  intro v e done
  have hv : v.Mute := Service.ofStore_mute
  have hb : v.Blind := Service.ofStore_blind
  have hd : v.Within Deed := Service.Mute.deed hv
  obtain ⟨hfresh, hp, hbooked⟩ := regular_run hv hb (.start ..)
    (fun k => poised_of_link_none (congrArg Session.link (session_start ..)))
    (booked_start capacity limits store) hs
  have ho : Orderly e.relay := (Orderly.start ..).of_moves (moves_run hd (.start ..) hfresh)
  have ht : Tally e.relay :=
    (Tally.start capacity limits store).of_stirs (.start ..)
      (run_stirs (e := start capacity limits store) (mute_stir hv) (.start ..) steps)
  refine ⟨fun k hk => ⟨?_, hbooked.count_pending hk⟩, fun i slot id result hserved => ?_⟩
  · exact Session.isLive_iff.2 ⟨hk, (hp k).live hk⟩
  · obtain ⟨hrearms, hstays, hposted⟩ | ⟨hno, hposted, hnone, x, hx, hr, hthen, rfl, rfl, hacts⟩ :=
      received_of_served hv hb hbooked hserved result
    · exact ⟨fun _ => ⟨hstays, hposted⟩, fun hno => absurd hrearms hno⟩
    · refine ⟨fun hrearms => absurd hrearms hno, fun _ => ⟨hposted, hnone, x, hx, hr, ?_⟩⟩
      exact Ending.tearsDown hv (ho.of_moves hacts.moves) (ht.of_stirs ho.wired hacts.stirs) hthen

/-- The second connection is ended by a write, its slot is taken again, and its read completes late.
The third one's link refuses a second read, and its connection is torn down. -/
theorem one_read_pending_refused :
    let v := Service.direct (fun _ => "t") 60
    let steps : List Step := [.accept (.ofPeer none), .accept (.ofPeer none),
      .complete (.received 0 1 (.ok [9, 0, 5])), .complete (.sent 1 2 (.error "reset")),
      .accept ⟨none, true, .always true, ⟨[true], false⟩⟩, .complete (.received 1 2 (.ok []))]
    let e := (start 2 .standard Store.empty).run v steps
    let done := steps.filterMap Step.read?
    done = [(0, 1), (1, 2)] ∧ (e.relay.pending done).count (0, 1) = 1 ∧
      (e.relay.pending done).count (1, 3) = 1 ∧
      ((e.step v (.complete (.received 1 3 (.ok [9])))).relay.session 1).link = none := by
  intro v steps e done
  have hregular : (start 2 .standard Store.empty).Regular v [] steps := by
    decide +kernel
  have hrun : (e.relay.session 0).link = some 0 ∧ (e.relay.session 0).id = 1 ∧
      (e.relay.session 1).link = some 2 ∧ (e.relay.session 1).id = 3 ∧
      (e.relay.session 1).phase = .connected := by
    decide +kernel
  have hrefused : ((e.relay.absorb v 1 3 [9]).armRead 1 3).1.isOk = false := by
    decide +kernel
  obtain ⟨hl, hid, hl', hid', hphase⟩ := hrun
  obtain ⟨hpending, hreads⟩ :=
    one_read_pending (fun c (s : Store) => s.answer c) (fun _ => "t") 60 2 .standard Store.empty
      hregular
  obtain ⟨-, hfirst⟩ := hpending 0 (Option.isSome_iff_exists.2 ⟨0, hl⟩)
  obtain ⟨-, hsecond⟩ := hpending 1 (Option.isSome_iff_exists.2 ⟨2, hl'⟩)
  obtain ⟨-, hrefuses⟩ := hreads 2 1 3 (.ok [9]) ⟨hl', hid', hphase ▸ nofun⟩
  refine ⟨rfl, hid ▸ hfirst, hid' ▸ hsecond, (hrefuses ?_).2.1⟩
  rintro ⟨_, ⟨⟩, -, -, -, hok⟩
  rw [show ((e.relay.absorb v 1 3 [9]).armRead 1 3).1 = .ok () from hok] at hrefused
  cases hrefused

end Engine

end ChatRelay
