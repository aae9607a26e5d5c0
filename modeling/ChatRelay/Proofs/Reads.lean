import ChatRelay.Config
import ChatRelay.Proofs.Runs
import ChatRelay.Proofs.Views

/-! # Reads

A read is asked for as much as there is room for. What a drain leaves behind is less than a packet,
so under settings that pass validation there is always room for a whole one, and a connection whose
reads bring no more than they were asked for never overflows its ring.
-/

namespace ChatRelay

open Relation (ReflTransGen)

variable {S : Type}

def LinkEvent.read? : LinkEvent → Option (Nat × Bool)
  | .receive limit => some (limit, true)
  | .receiveRefused limit => some (limit, false)
  | _ => none

def Link.reads (l : Link) : List (Nat × Bool) :=
  l.log.filterMap LinkEvent.read?

@[simp] theorem Link.reads_send (l : Link) (packet : Bytes) :
    (l.send packet).2.reads = l.reads := by
  simp only [Link.send, Link.record, Link.reads, List.filterMap_append]
  split <;> simp [LinkEvent.read?]

@[simp] theorem Link.reads_close (l : Link) : (l.record .close).reads = l.reads := by
  simp [Link.record, Link.reads, LinkEvent.read?]

@[simp] theorem Link.reads_receive (l : Link) (limit : Nat) :
    (l.receive limit).2.reads = l.reads ++ [(limit, (l.receive limit).1)] := by
  simp only [Link.receive, Link.record, Link.reads, List.filterMap_append]
  cases l.receiveAnswers.head <;> simp [LinkEvent.read?]

namespace Links

def reads (ls : Links) : List (List (Nat × Bool)) :=
  ls.map Link.reads

end Links

namespace Session

variable (s : Session) (ls : Links)

@[simp] theorem reads_sent (id : SessionId) : (s.sent id ls).2.reads = ls.reads :=
  map_sent Link.reads_send ..

@[simp] theorem reads_hangUp : (s.hangUp ls).reads = ls.reads :=
  map_hangUp Link.reads_close ..

theorem armRead_cases (id : SessionId) :
    (∃ err, s.armRead id ls = (.error err, ls)) ∨ ∃ i l, s.link = some i ∧ ls[i]? = some l ∧
      s.inbound.free ≠ 0 ∧
      let read := l.receive (min s.limits.readChunk s.inbound.free)
      s.armRead id ls =
        (if read.1 then .ok () else .error (.link Links.refusal), ls.set i read.2) := by
  unfold armRead
  split
  · exact .inl ⟨_, rfl⟩
  · exact .inl ⟨_, rfl⟩
  · next i _ hi =>
    split
    · exact .inl ⟨_, rfl⟩
    · next hfree =>
      simp only [Links.receive, Links.ask]
      cases hl : ls[i]? with
      | none => exact .inl ⟨_, rfl⟩
      | some l =>
        refine .inr ⟨i, l, hi, hl, hfree, ?_⟩
        dsimp only
        rcases l.receive (min s.limits.readChunk s.inbound.free) with ⟨_ | _, l'⟩ <;> rfl

end Session

theorem Framing.length_lt_of_first {bs : Bytes} (h : first bs = .ok none) :
    bs.length < maxPacketSize := by
  unfold first at h
  split at h
  · next hh => exact Nat.lt_trans (Header.ofBytes?_eq_none_iff.1 hh) (by decide)
  · next header _ =>
    split at h
    · cases h
    · next hs =>
      split at h
      · next hlt =>
        have hle : ¬ maxPacketSize < header.declaredSize := by
          intro hover
          rw [FramingError.ofSize?, if_pos hover] at hs
          cases hs
        omega
      · cases h

namespace Relay

variable {r r' : Relay S} {slot k : Nat} {id : SessionId}

/-- How much the read that is under way for `k` may bring. -/
def asked? (r : Relay S) (k : Nat) : Option Nat :=
  match ((r.session k).link.bind (r.links.reads[·]?)).bind List.getLast? with
  | some (limit, true) => some limit
  | _ => none

/-- What happens to others leaves a session's link, its ring and its limits alone, and does not
begin its teardown. -/
structure Aloof (r r' : Relay S) (k : Nat) : Prop where
  link : (r'.session k).link = (r.session k).link
  inbound : (r'.session k).inbound = (r.session k).inbound
  limits : (r'.session k).limits = (r.session k).limits
  live : (r.session k).phase ≠ .disconnecting → (r'.session k).phase ≠ .disconnecting
  reads : ∀ i, (r.session k).link = some i → r'.links.reads[i]? = r.links.reads[i]?

theorem Deed.live (hd : Deed r r') (h : (r.session k).phase ≠ .disconnecting) :
    (r'.session k).phase ≠ .disconnecting := by
  obtain ht | ⟨j, i, name, token, -, rfl⟩ := hd.traffic_or
  · rwa [show (r'.session k).phase = _ from congrArg Identity.phase (ht.identity k)]
  · rcases register_cases r j i name token with ⟨-, he⟩ | ⟨-, -, he⟩ | ⟨s, -, ha, he⟩ <;> rw [he]
    · exact h
    · exact h
    · obtain ⟨-, rfl⟩ := Session.authenticate_eq_some_iff.1 ha
      have hs := session_setSession r j k
        { r.session j with phase := .authenticated, username := name, token := some token }
      split at hs
      · exact fun hp => absurd ((congrArg Session.phase hs).symm.trans hp) nofun
      · exact fun hp => h ((congrArg Session.phase hs).symm.trans hp)

theorem Act.reads_eq (ha : Act slot r r') :
    r'.links.reads = r.links.reads ∨ ∃ id, r' = (r.armRead slot id).2 := by
  obtain hsame | harm | rfl := ha.map_links_or Link.reads_send
  · exact .inl hsame
  · exact .inr harm
  · exact .inl (by rw [links_release]; exact Session.reads_hangUp ..)

theorem Act.link_eq (ha : Act slot r r') (hne : slot ≠ k) :
    (r'.session k).link = (r.session k).link := by
  obtain ht | ⟨j, i, name, token, -, rfl⟩ | ⟨i, rfl⟩ | rfl := ha.traffic_or
  · exact congrArg Identity.link (ht.identity k)
  · obtain ⟨p, u, t, hs⟩ := session_register r j k i name token
    rw [hs]
  · rcases depart_cases r slot i with ⟨-, he⟩ | ⟨-, he⟩ <;> rw [he]
    exact congrArg Session.link (session_setSession_ne hne _)
  · rw [session_release_ne hne]

theorem Act.live (ha : Act slot r r') (hne : slot ≠ k)
    (h : (r.session k).phase ≠ .disconnecting) : (r'.session k).phase ≠ .disconnecting := by
  obtain ht | ⟨j, i, name, token, hn, rfl⟩ | ⟨i, rfl⟩ | rfl := ha.traffic_or
  · rwa [show (r'.session k).phase = _ from congrArg Identity.phase (ht.identity k)]
  · exact (Deed.register r j i token hn).live h
  · rcases depart_cases r slot i with ⟨-, he⟩ | ⟨-, he⟩ <;> rw [he]
    · exact h
    · rwa [session_setSession_ne hne]
  · rwa [session_release_ne hne]

theorem Act.aloof (ha : Act slot r r') (hw : Wired r) (hne : slot ≠ k) : Aloof r r' k where
  link := ha.link_eq hne
  inbound := ha.inbound_eq hne
  limits := ha.limits_eq k
  live := ha.live hne
  reads i hi := by
    obtain hsame | ⟨id, rfl⟩ := ha.reads_eq
    · rw [hsame]
    · obtain ⟨err, hsame⟩ | ⟨j, l, hj, -, -, hset⟩ := (r.session slot).armRead_cases r.links id
      · exact congrArg (fun o : _ × Links => o.2.reads[i]?) hsame
      · have hij : j ≠ i := by
          rintro rfl
          exact hw.link_ne hne hi hj
        have hlinks : (r.armRead slot id).2.links = _ := congrArg Prod.snd hset
        rw [hlinks, Links.reads, List.map_set, List.getElem?_set_ne hij, Links.reads]

theorem Aloof.trans {r'' : Relay S} (h : Aloof r r' k) (h' : Aloof r' r'' k) : Aloof r r'' k where
  link := h'.link.trans h.link
  inbound := h'.inbound.trans h.inbound
  limits := h'.limits.trans h.limits
  live hp := h'.live (h.live hp)
  reads i hi := (h'.reads i (h.link.trans hi)).trans (h.reads i hi)

theorem aloof_of_acts (ha : ReflTransGen (Act slot) r r') (hw : Wired r) (hne : slot ≠ k) :
    Aloof r r' k := by
  induction ha with
  | refl => exact ⟨rfl, rfl, rfl, id, fun _ _ => rfl⟩
  | tail hfirst ha ih => exact ih.trans (ha.aloof (hw.of_acts hfirst) hne)

theorem Aloof.asked?_eq (h : Aloof r r' k) : r'.asked? k = r.asked? k := by
  have hreads : (r'.session k).link.bind (r'.links.reads[·]?) =
      (r.session k).link.bind (r.links.reads[·]?) := by
    rw [h.link]
    cases hi : (r.session k).link with
    | none => rfl
    | some i => exact h.reads i hi
  rw [asked?, hreads, asked?]

/-- If anybody is served in `k`, no packet is complete there, and a read is under way for as much as
there is room for. -/
structure Poised (r : Relay S) (k : Nat) : Prop where
  live : (r.session k).link.isSome → (r.session k).phase ≠ .disconnecting
  waits : (r.session k).link.isSome → Framing.first (r.session k).inbound.toList = .ok none
  asked : (r.session k).link.isSome →
    r.asked? k = some (min (r.session k).limits.readChunk (r.session k).inbound.free)

theorem Poised.aloof (hp : r.Poised k) (h : Aloof r r' k) : r'.Poised k := by
  constructor <;> rw [h.link]
  · exact fun hl => h.live (hp.live hl)
  · rw [h.inbound]
    exact hp.waits
  · rw [h.inbound, h.limits, h.asked?_eq]
    exact hp.asked

theorem aloof_begin (hw : Wired r) (hne : slot ≠ k) (hlink : (r.session slot).link = none)
    (id : SessionId) (l : Link) : Aloof r (r.begin slot id l) k := by
  have hsame : (r.begin slot id l).session k = r.session k := session_setSession_ne hne _
  constructor
  case reads =>
    intro i hi
    have hlt := hw.link_lt k i hi
    rw [links_begin hlink, Links.reads, List.map_append,
      List.getElem?_append_left (by simpa using hlt), Links.reads]
  all_goals simp [hsame]

/-- What comes in for connection `id` is no more than its read was asked for. -/
def Delivers (r : Relay S) (slot : Nat) (id : SessionId) (bs : Bytes) : Prop :=
  (r.session slot).id = id → ∀ n ∈ r.asked? slot, bs.length ≤ n

theorem Poised.fits {bs : Bytes} (hp : r.Poised slot)
    (ho : (r.session slot).obstacle? id = none) (hb : r.Delivers slot id bs) :
    bs.length ≤ (r.session slot).inbound.free := by
  obtain ⟨hid, hlink⟩ := Session.obstacle?_eq_none_iff.1 ho
  have hle := hb hid _ (hp.asked hlink)
  omega

theorem Poised.sent (hp : r.Poised k) (id : SessionId) : (r.sent k id).Poised k := by
  obtain ⟨q, b, hs⟩ := (r.session k).sent_eq id r.links
  have hsession := session_sent r k k id
  rw [if_pos rfl, hs] at hsession
  refine hp.aloof ⟨?_, ?_, ?_, ?_, fun i _ => ?_⟩
  · rw [hsession]
  · rw [hsession]
  · rw [hsession]
  · rw [hsession]
    exact fun h => h
  · exact congrArg (·[i]?) (Session.reads_sent ..)

theorem poised_of_link_none (h : (r.session k).link = none) : r.Poised k := by
  constructor <;> simp [h]

theorem Act.link_none (ha : Act slot r r') (h : (r.session k).link = none) :
    (r'.session k).link = none := by
  by_cases hne : slot = k
  · subst hne
    obtain ht | ⟨j, i, name, token, -, rfl⟩ | ⟨i, rfl⟩ | rfl := ha.traffic_or
    · exact (congrArg Identity.link (ht.identity slot)).trans h
    · obtain ⟨p, u, t, hs⟩ := session_register r j slot i name token
      rw [hs]
      exact h
    · rcases depart_cases r slot i with ⟨-, he⟩ | ⟨⟨-, hlive⟩, -⟩
      · rwa [he]
      · rw [Session.isLive, h] at hlive
        cases hlive
    · have hi := identity_release r slot slot
      rw [if_pos rfl] at hi
      exact congrArg Identity.link hi
  · rw [ha.link_eq hne, h]

theorem link_none_of_acts (ha : ReflTransGen (Act slot) r r') (h : (r.session k).link = none) :
    (r'.session k).link = none := by
  induction ha with
  | refl => exact h
  | tail _ ha ih => exact ha.link_none ih

section

variable {v : Service S}

theorem link_disconnect (ho : (r.session slot).obstacle? id = none)
    (hp : (r.session slot).phase ≠ .disconnecting) (announced : Bool) :
    ((r.disconnect v slot id announced).session slot).link = none := by
  obtain ⟨hid, hlink⟩ := Session.obstacle?_eq_none_iff.1 ho
  have hrelease (r : Relay S) : ((r.release slot).session slot).link = none := by
    have hi := identity_release r slot slot
    rw [if_pos rfl] at hi
    exact congrArg Identity.link hi
  unfold disconnect
  rcases depart_cases r slot id with ⟨hno, -⟩ | ⟨-, he⟩
  · exact absurd ⟨hid, Session.isLive_iff.2 ⟨hlink, hp⟩⟩ hno
  · rw [he]
    dsimp only
    split
    · exact hrelease _
    · split
      · exact link_none_of_acts (broadcast_chain (fun _ _ => @Act.deed _ slot _ _) ..) (hrelease _)
      · exact hrelease _

variable (hd : v.Within Deed)

include hd

theorem Poised.disconnect (hp : r.Poised k) (hw : Wired r) (slot : Nat) (id : SessionId)
    (announced : Bool) : (r.disconnect v slot id announced).Poised k := by
  cases ho : (r.session slot).obstacle? id with
  | some err => rwa [disconnect_of_obstacle ho]
  | none =>
    by_cases hne : slot = k
    · subst hne
      have hlink := (Session.obstacle?_eq_none_iff.1 ho).2
      exact poised_of_link_none (link_disconnect ho (hp.live hlink) announced)
    · have hchain := disconnect_chain (fun _ _ ha => ha) (hd.mono fun _ _ => @Act.deed _ slot _ _)
        id announced r
      exact hp.aloof (aloof_of_acts hchain hw hne)

end

theorem asked?_armRead (h : (r.armRead slot id).1 = .ok ()) :
    (r.armRead slot id).2.asked? slot =
      some (min (r.session slot).limits.readChunk (r.session slot).inbound.free) := by
  change ((r.session slot).armRead id r.links).1 = .ok () at h
  obtain ⟨err, hsame⟩ | ⟨i, l, hi, hl, -, hset⟩ := (r.session slot).armRead_cases r.links id
  · rw [hsame] at h
    cases h
  · set n := min (r.session slot).limits.readChunk (r.session slot).inbound.free
    obtain ⟨hlt, -⟩ := List.getElem?_eq_some_iff.1 hl
    have hagrees : (l.receive n).1 = true := by
      rw [hset] at h
      by_contra hno
      simp [hno] at h
    have hlinks : (r.armRead slot id).2.links = r.links.set i (l.receive n).2 :=
      congrArg Prod.snd hset
    have hreads : (r.armRead slot id).2.links.reads[i]? = some (l.reads ++ [(n, true)]) := by
      rw [hlinks, Links.reads, List.map_set, Link.reads_receive, hagrees]
      simp [hlt]
    rw [asked?, session_armRead, hi, Option.bind_some, hreads]
    simp

theorem poised_armRead (hlive : (r.session slot).phase ≠ .disconnecting)
    (hf : Framing.first (r.session slot).inbound.toList = .ok none)
    (h : (r.armRead slot id).1 = .ok ()) : (r.armRead slot id).2.Poised slot where
  live _ := hlive
  waits _ := hf
  asked _ := asked?_armRead h

theorem first_drain {v : Service S} (hv : v.Blind) (hd : v.Within Deed) {bs : Bytes}
    (ho : (r.session slot).obstacle? id = none)
    (hroom : bs.length ≤ (r.session slot).inbound.free) {n : Nat}
    (hr : (r.receive slot id bs).2.drain v slot id = (.ok n, r')) :
    Framing.first (r'.session slot).inbound.toList = .ok none := by
  rw [drain_receive hv hd ho hroom] at hr
  obtain ⟨houtcome, rfl⟩ := Prod.mk.inj hr
  refine first_absorb hd ho hroom ?_
  rw [Framing.outcome] at houtcome
  split at houtcome
  · assumption
  · cases houtcome

/-- What a read brings that delivers no more than it was asked for fits. -/
theorem Poised.receive_ne_overflow {bs : Bytes} (hp : r.Poised slot) (hb : r.Delivers slot id bs)
    (incoming free : Nat) : (r.receive slot id bs).1 ≠ .error (.overflow incoming free) := by
  cases ho : (r.session slot).obstacle? id with
  | some err =>
    have hharmless := not_fatal_of_obstacle? ho
    rw [receive_of_obstacle ho]
    rintro ⟨⟩
    cases hharmless
  | none =>
    rw [receive_of_fits ho (hp.fits ho hb)]
    exact nofun

theorem armRead_ne_overflow (h : (r.session slot).inbound.free ≠ 0) (incoming free : Nat) :
    (r.armRead slot id).1 ≠ .error (.overflow incoming free) := by
  simp only [Relay.armRead, Session.armRead]
  split
  · next err ho =>
    have hharmless := not_fatal_of_obstacle? ho
    rintro ⟨⟩
    cases hharmless
  · rintro ⟨⟩
  · rw [if_neg h]
    split <;> rintro ⟨⟩

/-! ## Room -/

theorem live_absorb {v : Service S} (hd : v.Within Deed)
    (h : (r.session slot).phase ≠ .disconnecting) (bs : Bytes) :
    ((r.absorb v slot id bs).session slot).phase ≠ .disconnecting := by
  have hlive {r' : Relay S} (hd : ReflTransGen Deed r r') :
      (r'.session slot).phase ≠ .disconnecting := by
    induction hd with
    | refl => exact h
    | tail _ hlast ih => exact hlast.live ih
  obtain ⟨ring, hs⟩ := session_withInbound
    (r.handleAll v slot id (r.framing slot bs).packets) slot slot (r.leftAfter slot bs)
  rw [absorb, hs]
  exact hlive (handleAll_chain (fun _ _ hd => hd) hd ..)

/-- Every session has the limits `l`, and a ring that is made for them. -/
def Roomy (l : Limits) (r : Relay S) : Prop :=
  ∀ k, (r.session k).limits = l ∧ (r.session k).inbound.cells.size = max l.receiveBuffer 2

/-- Every read that was ever asked for is one of `1` to `n` octets. -/
def Measured (n : Nat) (r : Relay S) : Prop :=
  ∀ reads ∈ r.links.reads, ∀ read ∈ reads, 1 ≤ read.1 ∧ read.1 ≤ n

/-- What may happen, whatever ids are given out. -/
inductive Stir : Relay S → Relay S → Prop where
  | act {r r' : Relay S} {slot : Nat} : Act slot r r' → Stir r r'
  | begin {r : Relay S} {slot : Nat} (id : SessionId) {l : Link} :
      (r.session slot).leased = true → (r.session slot).link = none → l.log = [] →
      Stir r (r.begin slot id l)

theorem Act.size_cells (ha : Act slot r r') (k : Nat) :
    (r'.session k).inbound.cells.size = (r.session k).inbound.cells.size := by
  have hset {s : Session} (hs : s.inbound.cells.size = (r.session slot).inbound.cells.size) :
      ((r.setSession slot s).session k).inbound.cells.size =
        (r.session k).inbound.cells.size := by
    rw [session_setSession]
    split
    · next hk => rw [hs, hk.1]
    · rfl
  cases ha with
  | deed hd =>
    obtain ⟨p, u, t, q, b, h⟩ := hd.session_eq k
    rw [h]
  | acquire ha =>
    obtain ⟨free, -, rfl⟩ := acquire_eq_some_iff.1 ha
    have hs := hset (s := { r.session slot with leased := true }) rfl
    exact hs
  | depart id =>
    rcases depart_cases r slot id with ⟨-, he⟩ | ⟨-, he⟩ <;> rw [he]
    exact hset rfl
  | release =>
    rcases Nat.lt_or_ge k r.capacity with h | h
    · rw [session_release h]
      split <;> rfl
    · rw [session_of_capacity_le h, session_of_capacity_le (by simpa using h), limits_release]
  | sent id =>
    obtain ⟨q, b, hs⟩ := (r.session k).sent_eq id r.links
    rw [session_sent, hs]
    split <;> rfl
  | armRead id => rfl
  | receive id bs =>
    rw [receive_eq_setSession]
    refine hset ?_
    unfold Session.receive
    split
    · exact Ring.size_cells_append ..
    · rfl
  | take ht =>
    refine hset ?_
    rw [Ring.takePacket_eq] at ht
    rcases hf : Framing.first (r.session slot).inbound.toList with _ | _ | pr <;> rw [hf] at ht
    · cases ht
    · cases ht
    · cases ht
      rfl

theorem Deed.stir (hd : Deed r r') : Stir r r' :=
  .act (@Act.deed _ 0 _ _ hd)

theorem Stir.wired (hs : Stir r r') (h : Wired r) : Wired r' := by
  cases hs with
  | act ha => exact ha.wired h
  | begin id hleased _ _ => exact h.begin hleased id _

theorem Wired.of_stirs (h : Wired r) (hs : ReflTransGen Stir r r') : Wired r' := by
  induction hs with
  | refl => exact h
  | tail _ hs ih => exact hs.wired ih

theorem Stir.roomy {l : Limits} (hs : Stir r r') (h : Roomy l r) : Roomy l r' := by
  intro k
  cases hs with
  | act ha =>
    rw [ha.limits_eq k, ha.size_cells k]
    exact h k
  | begin id hleased _ _ =>
    rw [session_begin (lt_capacity_of_leased hleased)]
    split
    · exact h k
    · exact h k

theorem Stir.measured {l : Limits} (hs : Stir r r') (hr : Roomy l r) (hl : 1 ≤ l.readChunk)
    (h : Measured l.readChunk r) : Measured l.readChunk r' := by
  cases hs with
  | @act _ slot ha =>
    obtain hsame | ⟨id, rfl⟩ := ha.reads_eq
    · rwa [Measured, hsame]
    · obtain ⟨err, hsame⟩ | ⟨i, link, -, hi, hfree, hset⟩ :=
        (r.session slot).armRead_cases r.links id
      · have hlinks : (r.armRead slot id).2.links = _ := congrArg Prod.snd hsame
        rwa [Measured, hlinks]
      · have hlinks : (r.armRead slot id).2.links = _ := congrArg Prod.snd hset
        have hlink : link.reads ∈ r.links.reads := List.mem_map_of_mem (List.mem_of_getElem? hi)
        rw [Measured, hlinks, Links.reads, List.map_set, Link.reads_receive]
        intro reads hreads read hread
        obtain hreads | rfl := List.mem_or_eq_of_mem_set hreads
        · exact h reads hreads read hread
        · obtain hread | hread := List.mem_append.1 hread
          · exact h _ hlink read hread
          · obtain rfl := List.mem_singleton.1 hread
            rw [(hr slot).1]
            dsimp only
            omega
  | begin id _ hlink hlog =>
    intro reads hreads
    rw [links_begin hlink, Links.reads, List.map_append] at hreads
    obtain hreads | hreads := List.mem_append.1 hreads
    · exact h reads hreads
    · obtain rfl := List.mem_singleton.1 hreads
      simp [Link.reads, hlog]

/-- What holds of a relay throughout every run: there is room for two of the largest packets, and
every read is one of at least an octet. -/
structure Spacious (l : Limits) (r : Relay S) : Prop where
  wired : Wired r
  roomy : Roomy l r
  measured : Measured l.readChunk r

theorem Spacious.of_stirs {l : Limits} (h : Spacious l r) (hl : 1 ≤ l.readChunk)
    (hs : ReflTransGen Stir r r') : Spacious l r' := by
  induction hs with
  | refl => exact h
  | tail _ hs ih =>
    exact ⟨hs.wired ih.wired, hs.roomy ih.roomy, hs.measured ih.roomy hl ih.measured⟩

theorem Spacious.start (capacity : Nat) (l : Limits) (store : S) :
    Spacious l (Relay.start capacity l store) := by
  refine ⟨.start .., fun k => ?_, fun reads hreads => ?_⟩
  · rw [session_start]
    exact ⟨rfl, by simp [Session.idle, Ring.empty]⟩
  · cases hreads

theorem Spacious.free_ge {l : Limits} (h : Spacious l r) (hl : 2 * maxPacketSize ≤ l.receiveBuffer)
    (hf : Framing.first (r.session k).inbound.toList = .ok none) :
    (r.session k).inbound.size < maxPacketSize ∧ maxPacketSize ≤ (r.session k).inbound.free := by
  have hlt := Framing.length_lt_of_first hf
  have hsum := (r.session k).inbound.size_add_free
  rw [Ring.length_toList] at hlt
  rw [(h.roomy k).2] at hsum
  omega

end Relay

namespace Engine

open Relay

variable {v : Service S} {e : Engine S} {k : Nat}

theorem step_stirs (hv : v.Within Stir) (h : Wired e.relay) (s : Step) :
    ReflTransGen Stir e.relay (e.step v s).relay := by
  cases s with
  | accept c =>
    change ReflTransGen Stir e.relay (e.accept c).2.relay
    obtain he | ⟨slot, r, ha, hcases⟩ := e.accept_eq c
    · rw [he]
    · obtain ⟨hleased, hlink, -⟩ := h.acquired ha
      have hfirst : ReflTransGen Stir e.relay r := .single (.act (.acquire ha))
      have hbegin := hfirst.tail (.begin e.allocate.1 hleased hlink
        (rfl : (c.link slot e.allocate.1).log = []))
      have harm := hbegin.tail (.act (@Act.armRead _ slot _ e.allocate.1))
      obtain ⟨-, he⟩ | ⟨-, -, he⟩ | ⟨-, -, he⟩ := hcases <;> rw [he]
      · exact hfirst.tail (.act (.release r))
      · exact harm
      · exact harm.tail (.act (.release _))
  | complete c => exact complete_chain hv c (fun _ _ => .act) e
  | halt => exact .refl
  | stop => exact endAll_chain hv (fun _ _ _ => .act) _ e.halt

theorem poised_accept (hp : e.relay.Poised k) (hw : Wired e.relay) (c : Incoming) :
    (e.accept c).2.relay.Poised k := by
  have hreleased {r : Relay S} {slot : Nat} (hk : slot = k) : (r.release slot).Poised k := by
    subst hk
    have hi := identity_release r slot slot
    rw [if_pos rfl] at hi
    exact poised_of_link_none (congrArg Identity.link hi)
  obtain he | ⟨slot, r, ha, hcases⟩ := e.accept_eq c
  · rwa [he]
  · have hacquire := Act.acquire ha
    have hwr := hacquire.wired hw
    obtain ⟨hleased, hlink, -⟩ := hw.acquired ha
    have hslot := lt_capacity_of_leased hleased
    have hwb := hwr.begin hleased e.allocate.1 (c.link slot e.allocate.1)
    by_cases hk : slot = k
    · obtain ⟨-, he⟩ | ⟨harm, -, he⟩ | ⟨-, -, he⟩ := hcases <;> rw [he]
      · exact hreleased hk
      · subst hk
        have hbegin := session_begin hslot e.allocate.1 (c.link slot e.allocate.1) slot
        rw [if_pos rfl] at hbegin
        refine poised_armRead ?_ ?_ harm <;> rw [hbegin]
        · exact nofun
        · rw [Session.cleared, Ring.toList_clear]
          rfl
      · exact hreleased hk
    · have hpr : r.Poised k := hp.aloof (hacquire.aloof hw hk)
      have hpb := hpr.aloof (aloof_begin hwr hk hlink e.allocate.1 (c.link slot e.allocate.1))
      have harm := @Act.armRead _ slot (r.begin slot e.allocate.1 (c.link slot e.allocate.1))
        e.allocate.1
      obtain ⟨-, he⟩ | ⟨-, -, he⟩ | ⟨-, -, he⟩ := hcases <;> rw [he]
      · exact hpr.aloof ((Act.release r).aloof hwr hk)
      · exact hpb.aloof (harm.aloof hwb hk)
      · exact (hpb.aloof (harm.aloof hwb hk)).aloof ((Act.release _).aloof (harm.wired hwb) hk)

section

variable (hd : v.Within Deed)

include hd

theorem poised_endAll (hp : e.relay.Poised k) (hw : Wired e.relay) (slots : List Nat) :
    (e.endAll v slots).relay.Poised k := by
  induction slots generalizing e with
  | nil => exact hp
  | cons slot slots ih =>
    unfold endAll
    dsimp only
    split
    · exact ih hp hw
    · have hchain := @Relay.disconnect_chain _ _ v slot (fun _ _ ha => ha)
        (hd.mono fun _ _ => .deed) (e.relay.session slot).id e.running e.relay
      exact ih (hp.disconnect hd hw slot _ e.running) (hw.of_acts hchain)

variable (hv : v.Blind)

include hv

/-- A read ends the connection, whatever it brings, or the next one is asked for. -/
theorem poised_afterRead {slot : Nat} {id : SessionId} (hp : e.relay.Poised slot)
    (hw : Wired e.relay) (result : Except String Bytes) :
    (e.afterRead v slot id result).relay.Poised slot := by
  have hends : (e.disconnect v slot id).relay.Poised slot := hp.disconnect hd hw slot id e.running
  rcases result with _ | _ | ⟨b, bs⟩
  · exact hends
  · exact hends
  · cases ho : (e.relay.session slot).obstacle? id with
    | some err => rwa [afterRead_of_obstacle ho]
    | none =>
      have hlive := hp.live (Session.obstacle?_eq_none_iff.1 ho).2
      obtain ⟨hroom, he, harm⟩ | ⟨r, heq, hr⟩ := afterRead_cases hv hd ho (List.cons_ne_nil b bs)
      · have hposed := @poised_armRead _ _ slot id (live_absorb hd hlive (b :: bs))
          (first_absorb hd ho hroom he)
        rw [harm] at hposed
        exact hposed rfl
      · rw [heq]
        obtain hr | hr := hr <;> refine poised_of_link_none (link_disconnect ?_ ?_ _) <;> rw [hr]
        · exact ho
        · exact hlive
        · rw [obstacle?_absorb hd, ho]
        · exact live_absorb hd hlive (b :: bs)

theorem poised_complete (hp : e.relay.Poised k) (hw : Wired e.relay) (c : Completion) :
    (e.complete v c).relay.Poised k := by
  by_cases hk : c.connection.1 = k
  · subst hk
    cases c with
    | received slot id result =>
      simp only [complete]
      split
      · exact poised_afterRead hd hv hp hw result
      · exact hp
    | sent slot id result =>
      simp only [complete]
      split
      · rcases result with _ | n
        · exact hp.disconnect hd hw slot id e.running
        · exact hp.sent id
      · exact hp
  · exact hp.aloof (aloof_of_acts (complete_acts hd c) hw hk)

theorem poised_step (hp : e.relay.Poised k) (hw : Wired e.relay) (s : Step) :
    (e.step v s).relay.Poised k := by
  cases s with
  | accept c => exact poised_accept hp hw c
  | complete c => exact poised_complete hd hv hp hw c
  | halt => exact hp
  | stop => exact poised_endAll hd (e := e.halt) hp hw _

theorem poised_run (hp : e.relay.Poised k) (hw : Wired e.relay) (steps : List Step) :
    (e.run v steps).relay.Poised k := by
  induction steps generalizing e with
  | nil => exact hp
  | cons s steps ih =>
    exact ih (poised_step hd hv hp hw s) (hw.of_stirs (step_stirs (hd.mono fun _ _ => Deed.stir) hw s))

end

theorem spacious_run (hd : v.Within Deed) {l : Limits} (hl : 1 ≤ l.readChunk)
    (h : Spacious l e.relay) (steps : List Step) : Spacious l (e.run v steps).relay := by
  induction steps generalizing e with
  | nil => exact h
  | cons s steps ih =>
    exact ih (h.of_stirs hl (step_stirs (hd.mono fun _ _ => Deed.stir) h.wired s))

end Engine

/-- Settings that pass validation leave room for two packets of the largest size, and let a read
bring something. -/
theorem Config.of_validate {pathExists : String → Bool} {c : Config}
    (h : c.validate pathExists = .ok ()) :
    1 ≤ c.limits.readChunk ∧ 2 * maxPacketSize ≤ c.limits.receiveBuffer := by
  unfold validate at h
  split at h
  · cases h
  · split at h
    · cases h
    · next hpositive =>
      have hchunk := List.find?_eq_none.1 hpositive ("read_chunk", c.readChunk) (by simp [positive])
      have hne : c.readChunk.toNat ≠ 0 := by
        intro h0
        exact hchunk (decide_eq_true (UInt64.toNat_inj.1 h0))
      split at h
      · cases h
      · split at h
        · cases h
        · next hbuffer => exact ⟨Nat.one_le_iff_ne_zero.2 hne, Nat.not_lt.1 hbuffer⟩

namespace Engine

open Relay

/-- Under settings that pass validation: wherever anybody is served, a read is under way for as much
as there is room for, and there is room for a whole packet besides what is held. Every read that was
ever asked for is one of at least an octet and at most a chunk. What comes in next fits the ring if
it is no more than was asked for, and after the packets that it completes there is room for the next
read. -/
theorem reads_fit {pathExists : String → Bool} {c : Config} (hc : c.validate pathExists = .ok ())
    (answer : (c : StoreCall) → S → Except StoreError c.Answer × S) (token : Nat → String)
    (lifetime : Nat) (store : S) (steps : List Step) :
    let v := Service.ofStore answer token lifetime
    let r := ((start c.maxSessions.toNat c.limits store).run v steps).relay
    (∀ k, (r.session k).link.isSome →
      let ring := (r.session k).inbound
      (r.session k).isLive = true ∧ r.asked? k = some (min c.readChunk.toNat ring.free) ∧
        ring.size < maxPacketSize ∧ maxPacketSize ≤ ring.free) ∧
    (∀ l ∈ r.links, ∀ read ∈ l.reads, 1 ≤ read.1 ∧ read.1 ≤ c.readChunk.toNat) ∧
    ∀ slot id bs, r.Delivers slot id bs →
      (∀ incoming free, (r.receive slot id bs).1 ≠ .error (.overflow incoming free)) ∧
      ((r.receive slot id bs).1 = .ok () →
        ∀ n r', (r.receive slot id bs).2.drain v slot id = (.ok n, r') →
          ∀ incoming free, (r'.armRead slot id).1 ≠ .error (.overflow incoming free)) := by
  intro v r
  obtain ⟨hchunk, hbuffer⟩ := c.of_validate hc
  have hd : v.Within Deed := Service.ofStore_within fun _ _ hd => hd
  have hv : v.Blind := Service.ofStore_blind
  have hspacious : Spacious c.limits r := spacious_run hd hchunk (.start ..) steps
  have hp (k : Nat) : r.Poised k :=
    poised_run hd hv (poised_of_link_none (congrArg Session.link (session_start ..))) (.start ..)
      steps
  refine ⟨fun k hlink => ⟨?_, ?_, hspacious.free_ge hbuffer ((hp k).waits hlink)⟩, ?_, ?_⟩
  · exact Session.isLive_iff.2 ⟨hlink, (hp k).live hlink⟩
  · have hasked := (hp k).asked hlink
    rwa [(hspacious.roomy k).1] at hasked
  · exact fun l hl => hspacious.measured _ (List.mem_map_of_mem hl)
  · intro slot id bs hb
    refine ⟨(hp slot).receive_ne_overflow hb, fun hok n r' hr => ?_⟩
    have ho : (r.session slot).obstacle? id = none := by
      rcases ho : (r.session slot).obstacle? id with _ | err
      · rfl
      · rw [receive_of_obstacle ho] at hok
        cases hok
    have hparts : Parts Stir v slot id := parts_of_acts (fun _ _ => .act)
      (hd.mono fun _ _ hd => .act (@Act.deed _ 0 _ _ hd)) id
    have hchain := (ReflTransGen.single (hparts.receive bs r)).trans (hparts.drain _)
    rw [hr] at hchain
    have hdone := hspacious.of_stirs hchunk hchain
    have hfree := (hdone.free_ge hbuffer (first_drain hv hd ho ((hp slot).fits ho hb) hr)).2
    exact armRead_ne_overflow (Nat.ne_of_gt (Nat.lt_of_lt_of_le (by decide) hfree))

/-- Three octets of a packet have come in, and a whole chunk still fits. -/
theorem reads_fit_partial_packet :
    let c := { Config.simple ⟨.v4 127 0 0 1, 0⟩ "users.json" with maxSessions := 1 }
    let v := Service.direct (fun _ => "t") 60
    let r := ((start c.maxSessions.toNat c.limits Store.empty).run v
      [.accept (.ofPeer none), .complete (.received 0 1 (.ok [9, 0, 5]))]).relay
    c.validate (fun _ => true) = .ok () ∧ (r.session 0).inbound.size = 3 ∧
      ∀ bs : Bytes, bs.length ≤ 2048 →
        ∀ incoming free, (r.receive 0 1 bs).1 ≠ .error (.overflow incoming free) := by
  intro c v r
  have hc : c.validate (fun _ => true) = .ok () := rfl
  have hrun : (r.session 0).inbound.size = 3 ∧ r.asked? 0 = some 2048 := by
    decide +kernel
  obtain ⟨hsize, hasked⟩ := hrun
  have hall := (reads_fit hc (fun c s => s.answer c) (fun _ => "t") 60 Store.empty
    [.accept (.ofPeer none), .complete (.received 0 1 (.ok [9, 0, 5]))]).2.2
  refine ⟨hc, hsize, fun bs hbs => (hall 0 1 bs fun _ n hn => ?_).1⟩
  exact Option.some.inj (hasked.symm.trans hn) ▸ hbs

end Engine

end ChatRelay
