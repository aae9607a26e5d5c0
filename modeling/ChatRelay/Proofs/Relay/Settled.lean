import ChatRelay.Proofs.Relay.Teardown

/-! # Relays between steps

Between two steps no teardown is under way: every slot is either vacant and in the pool or serves a
live connection, every token in the store is held by one session that is logged in, and presence
agrees with the directory. Traffic, logins and teardowns keep it so.
-/

namespace ChatRelay

open Relation (ReflTransGen)

/-- The session is like one that never served anybody, but for what the cells of its ring hold. -/
def Session.Vacant (s : Session) : Prop :=
  s.inbound.isEmpty = true ∧ s = { Session.idle s.limits with inbound := s.inbound }

namespace Session.Vacant

variable {s : Session} (h : s.Vacant)

include h

theorem link : s.link = none := by rw [h.2]; rfl

theorem not_live : s.isLive = false := by rw [h.2]; rfl

end Session.Vacant

theorem Session.vacant_idle (limits : Limits) : (Session.idle limits).Vacant :=
  ⟨by simp [idle, Ring.empty, Ring.isEmpty], rfl⟩

theorem Session.vacant_cleared (s : Session) :
    Session.Vacant { s.cleared 0 .disconnecting none with leased := false } :=
  ⟨by simp [cleared, Ring.clear, Ring.isEmpty], rfl⟩

namespace Relay

variable {r r' r'' : Relay Store} {slot j k : Nat} {id : SessionId}

/-! ## Traffic -/

structure Quiet (r r' : Relay Store) : Prop where
  traffic : Traffic r r'
  leased : ∀ k, (r'.session k).leased = (r.session k).leased
  vacant : ∀ k, (r.session k).Vacant → (r'.session k).Vacant
  free : r'.free = r.free
  capacity : r'.capacity = r.capacity
  store : r'.store = r.store
  drawn : r'.drawn = r.drawn
  wired : Wired r → Wired r'

namespace Quiet

theorem refl (r : Relay Store) : Quiet r r :=
  ⟨⟨fun _ => rfl, rfl⟩, fun _ => rfl, fun _ => id, rfl, rfl, rfl, rfl, id⟩

theorem orderly (h : Quiet r r') (ho : Orderly r) : Orderly r' :=
  ⟨h.traffic.consistent ho.consistent, h.wired ho.wired⟩

theorem trans (h : Quiet r r') (h' : Quiet r' r'') : Quiet r r'' where
  traffic := h.traffic.trans h'.traffic
  leased k := (h'.leased k).trans (h.leased k)
  vacant k hv := h'.vacant k (h.vacant k hv)
  free := h'.free.trans h.free
  capacity := h'.capacity.trans h.capacity
  store := h'.store.trans h.store
  drawn := h'.drawn.trans h.drawn
  wired hw := h'.wired (h.wired hw)

end Quiet

theorem quiet_setSession {s : Session} (hi : s.identity = (r.session j).identity)
    (hl : s.leased = (r.session j).leased) (hv : (r.session j).Vacant → s = r.session j)
    (hs : Wired r → s.Sends) : Quiet r (r.setSession j s) := by
  have hsession (k : Nat) : (r.setSession j s).session k = r.session k ∨
      j = k ∧ (r.setSession j s).session k = s := by
    rw [session_setSession]
    split
    · next hk => exact .inr ⟨hk.1, rfl⟩
    · exact .inl rfl
  constructor
  case traffic => exact traffic_setSession hi
  case leased =>
    intro k
    obtain h | ⟨rfl, h⟩ := hsession k
    · rw [h]
    · rw [h, hl]
  case vacant =>
    intro k hk
    obtain h | ⟨rfl, h⟩ := hsession k
    · rwa [h]
    · rwa [h, hv hk]
  case free => rfl
  case capacity => exact capacity_setSession ..
  case store => rfl
  case drawn => rfl
  case wired => exact fun hw => hw.setSession (congrArg Identity.link hi) hl (hs hw)

theorem quiet_links {ls : Links} (hls : ls.length = r.links.length) :
    Quiet r { r with links := ls } :=
  ⟨⟨fun _ => rfl, rfl⟩, fun _ => rfl, fun _ => id, rfl, rfl, rfl, rfl,
    fun hw => hw.setLinks (Nat.le_of_eq hls.symm)⟩

theorem quiet_send (r : Relay Store) (slot : Nat) (target : Option SessionId) (packet : Bytes) :
    Quiet r (r.send slot target packet).2 := by
  obtain ⟨q, b, hs⟩ := (r.session slot).send_eq target packet r.links
  have hset : Quiet r (r.setSession slot ((r.session slot).send target packet r.links).2.1) :=
    quiet_setSession (by simp) (by rw [hs]) (fun hv => by rw [Session.send_of_link_none hv.link])
      fun hw => Session.Sends.send (hw.sends slot) target packet r.links
  exact hset.trans (quiet_links (Session.length_links_send ..))

theorem quiet_sendEach (except : Option Nat) (packet : Bytes) (slots : List Nat)
    (r : Relay Store) : Quiet r (sendEach except packet slots r).2 := by
  induction slots generalizing r with
  | nil => exact .refl r
  | cons slot slots ih =>
    unfold sendEach
    split
    · exact ih r
    · exact (quiet_send r slot none packet).trans (ih _)

theorem quiet_broadcast (r : Relay Store) (except : Option Nat) (packet : Bytes) :
    Quiet r (r.broadcast except packet).2 :=
  quiet_sendEach ..

theorem quiet_farewell (r : Relay Store) (name : String) (announced : Bool) :
    Quiet r (r.farewell name announced) := by
  unfold farewell
  split
  · exact quiet_broadcast ..
  · exact .refl r

theorem quiet_sent (r : Relay Store) (slot : Nat) (id : SessionId) : Quiet r (r.sent slot id) := by
  obtain ⟨q, b, hs⟩ := (r.session slot).sent_eq id r.links
  have hset : Quiet r (r.setSession slot ((r.session slot).sent id r.links).1) := by
    refine quiet_setSession (by simp) (by rw [hs]) (fun hv => ?_)
      fun hw => Session.Sends.sent (hw.sends slot) id r.links
    have hsame : { r.session slot with queue := (r.session slot).queue.tail, sending := false } =
        r.session slot := by rw [hv.2]; rfl
    unfold Session.sent
    split
    · rfl
    · dsimp only
      split
      · next l hl => cases hv.link.symm.trans hl
      · exact hsame
  exact hset.trans (quiet_links (Session.length_links_sent ..))

theorem quiet_armRead (r : Relay Store) (slot : Nat) (id : SessionId) :
    Quiet r (r.armRead slot id).2 :=
  quiet_links (Session.length_links_armRead ..)

theorem quiet_receive (r : Relay Store) (slot : Nat) (id : SessionId) (bs : Bytes) :
    Quiet r (r.receive slot id bs).2 := by
  obtain ⟨ring, hs⟩ := (r.session slot).receive_eq id bs
  rw [receive_eq_setSession]
  refine quiet_setSession (by simp) (by rw [hs]) (fun hv => ?_) fun hw => by
    rw [hs]; exact hw.sends slot
  have hobstacle : (r.session slot).obstacle? id ≠ none := by
    rw [Ne, Session.obstacle?_eq_none_iff, hv.link]
    simp
  obtain ⟨e, he⟩ := Option.ne_none_iff_exists'.1 hobstacle
  rw [Session.receive, Session.admits, he]

theorem quiet_withInbound (hl : (r.session slot).link.isSome) (ring : Ring) :
    Quiet r (r.withInbound slot ring) := by
  refine quiet_setSession rfl rfl (fun hv => ?_) fun hw => hw.sends slot
  rw [hv.link] at hl
  cases hl

theorem quiet_attempt (v : Service Store) (r : Relay Store) (a : Attempt) :
    Quiet (r.verdict v a).2 (r.attempt v a) := by
  rw [attempt_eq]
  dsimp only
  split
  · exact (quiet_send ..).trans (quiet_broadcast ..)
  · exact quiet_send ..

theorem quiet_relayBroadcast (slot : Nat) (id : SessionId) (message : MessageField)
    (r : Relay Store) : Quiet r (r.relayBroadcast slot id message) := by
  unfold relayBroadcast
  split
  · exact .refl r
  · exact quiet_broadcast ..

theorem quiet_relayWhisper (slot : Nat) (id : SessionId) (receiver : NameField)
    (message : MessageField) (r : Relay Store) :
    Quiet r (r.relayWhisper slot id receiver message) := by
  unfold relayWhisper sendToName
  split
  · exact .refl r
  · cases r.findName receiver.text with
    | none => exact quiet_send ..
    | some k => exact quiet_send ..

/-! ## Slots -/

/-- The slot is vacant and in the pool, or it is taken and serves a live connection. -/
def InOrder (r : Relay Store) (k : Nat) : Prop :=
  (r.session k).Vacant ∧ k ∈ r.free ∨ (r.session k).leased = true ∧ (r.session k).isLive = true

def Tidy (r : Relay Store) : Prop :=
  ∀ k < r.capacity, r.InOrder k

theorem InOrder.congr (h : r.InOrder k) (hfree : k ∈ r.free → k ∈ r'.free)
    (hleased : (r'.session k).leased = (r.session k).leased)
    (hvacant : (r.session k).Vacant → (r'.session k).Vacant)
    (hlive : (r.session k).isLive = true → (r'.session k).isLive = true) : r'.InOrder k := by
  obtain ⟨hv, hk⟩ | ⟨hl, h⟩ := h
  · exact .inl ⟨hvacant hv, hfree hk⟩
  · exact .inr ⟨hleased.trans hl, hlive h⟩

theorem InOrder.frame (h : r.InOrder k) (hfree : k ∈ r.free → k ∈ r'.free)
    (hs : r'.session k = r.session k) : r'.InOrder k :=
  h.congr hfree (by rw [hs]) (by rw [hs]; exact fun hv => hv) (by rw [hs]; exact fun hl => hl)

theorem InOrder.quiet (h : r.InOrder k) (hq : Quiet r r') : r'.InOrder k := by
  refine h.congr (fun hmem => hq.free ▸ hmem) (hq.leased k) (hq.vacant k) fun hlive => ?_
  rwa [Session.isLive_congr (hq.traffic.identity k)]

theorem tidy_release (hl : (r.session slot).leased = true)
    (hother : ∀ k < r.capacity, slot ≠ k → r.InOrder k) : Tidy (r.release slot) := by
  intro k hk
  rw [capacity_release] at hk
  have hfree : (r.release slot).free = slot :: r.free := by rw [free_release, if_pos hl]
  by_cases hslot : slot = k
  · subst hslot
    refine .inl ⟨?_, ?_⟩
    · rw [session_release hk, if_pos rfl]
      exact Session.vacant_cleared _
    · rw [hfree]
      exact List.mem_cons_self
  · refine (hother k hk hslot).frame (fun hmem => ?_) (session_release_ne hslot)
    rw [hfree]
    exact List.mem_cons_of_mem slot hmem

namespace Tidy

variable (h : Tidy r)

include h

theorem vacant_of_not_leased (hk : k < r.capacity) (hl : (r.session k).leased = false) :
    (r.session k).Vacant := by
  obtain ⟨hv, -⟩ | ⟨hleased, -⟩ := h k hk
  · exact hv
  · cases hl.symm.trans hleased

theorem vacant_of_not_live (hk : k < r.capacity) (hl : (r.session k).isLive = false) :
    (r.session k).Vacant := by
  obtain ⟨hv, -⟩ | ⟨-, hlive⟩ := h k hk
  · exact hv
  · cases hl.symm.trans hlive

theorem leased_of_live (hl : (r.session k).isLive = true) : (r.session k).leased = true := by
  obtain ⟨hv, -⟩ | ⟨hleased, -⟩ := h k (lt_capacity_of_isLive hl)
  · cases hv.not_live.symm.trans hl
  · exact hleased

theorem quiet (hq : Quiet r r') : Tidy r' :=
  fun k hk => (h k (hq.capacity ▸ hk)).quiet hq

theorem register (slot : Nat) (id : SessionId) (name token : String) :
    Tidy (r.register slot id name token).2 := by
  rcases register_cases r slot id name token with ⟨-, he⟩ | ⟨-, -, he⟩ | ⟨s, -, ha, he⟩
  · rwa [he]
  · rwa [he]
  · obtain ⟨⟨-, hlink, hphase⟩, rfl⟩ := Session.authenticate_eq_some_iff.1 ha
    rw [he]
    intro k hk
    have hk : k < r.capacity := (capacity_setSession ..) ▸ hk
    by_cases hslot : slot = k
    · subst hslot
      have hs := session_setSession_self hk
        { r.session slot with phase := .authenticated, username := name, token := some token }
      have hlive : (r.session slot).isLive = true :=
        Session.isLive_iff.2 ⟨hlink, by simp [hphase]⟩
      refine .inr ⟨(congrArg Session.leased hs).trans (h.leased_of_live hlive),
        (congrArg Session.isLive hs).trans ?_⟩
      exact Session.isLive_iff.2 ⟨hlink, nofun⟩
    · exact (h k hk).frame (fun hmem => hmem) (session_setSession_ne hslot _)

theorem departed (hlive : (r.session slot).isLive = true) :
    Tidy ((r.departed slot).release slot) := by
  have hslot := lt_capacity_of_isLive hlive
  refine tidy_release ?_ fun k hk hne => ?_
  · have hs := session_setSession_self hslot
      { r.session slot with phase := .disconnecting, token := none }
    exact (congrArg Session.leased hs).trans (h.leased_of_live hlive)
  · have hk : k < r.capacity := (capacity_setSession ..) ▸ hk
    exact (h k hk).frame (fun hmem => hmem) (session_setSession_ne hne _)

theorem acquire (ha : r.acquire = some (slot, r')) :
    ∀ k < r'.capacity, slot ≠ k → r'.InOrder k := by
  obtain ⟨free, hfree, rfl⟩ := acquire_eq_some_iff.1 ha
  intro k hk hne
  have hk : k < r.capacity := (capacity_setSession ..) ▸ hk
  refine (h k hk).frame (fun hmem => ?_) (session_setSession_ne hne _)
  rw [hfree] at hmem
  exact (List.mem_cons.1 hmem).resolve_left (Ne.symm hne)

end Tidy

/-! ## Those who are logged in -/

/-- Whoever is logged in was so before and is left alone, and so are all tokens. -/
structure SameUsers (r r' : Relay Store) : Prop where
  identity : ∀ k, (r.session k).phase = .authenticated ∨ (r'.session k).phase = .authenticated →
    (r'.session k).identity = (r.session k).identity
  token : ∀ k, (r'.session k).token = (r.session k).token

theorem sameUsers_of_identity (hi : ∀ k, (r'.session k).identity = (r.session k).identity) :
    SameUsers r r' :=
  ⟨fun k _ => hi k, fun k => congrArg Identity.token (hi k)⟩

theorem Quiet.sameUsers (hq : Quiet r r') : SameUsers r r' :=
  sameUsers_of_identity hq.traffic.identity

namespace SameUsers

variable (h : SameUsers r r')

include h

theorem phase_iff (k : Nat) :
    (r'.session k).phase = .authenticated ↔ (r.session k).phase = .authenticated := by
  constructor
  · exact fun hp => (congrArg Identity.phase (h.identity k (.inr hp))).symm.trans hp
  · exact fun hp => (congrArg Identity.phase (h.identity k (.inl hp))).trans hp

theorem trans (h' : SameUsers r' r'') : SameUsers r r'' where
  identity k hp := by
    have hp' : (r'.session k).phase = .authenticated := by
      obtain hp | hp := hp
      · exact (h.phase_iff k).2 hp
      · exact (h'.phase_iff k).1 hp
    exact (h'.identity k (.inl hp')).trans (h.identity k (.inr hp'))
  token k := (h'.token k).trans (h.token k)

theorem agrees (hc : Consistent r) (hc' : Consistent r') (hs : r'.store = r.store) {name : String}
    (ha : r.Agrees name) : r'.Agrees name := by
  have hfind (k : Nat) : r'.findName name = some k ↔ r.findName name = some k := by
    rw [hc.findName_iff, hc'.findName_iff]
    constructor
    · rintro ⟨hp, hu⟩
      have hi := h.identity k (.inr hp)
      exact ⟨hi ▸ hp, hi ▸ hu⟩
    · rintro ⟨hp, hu⟩
      have hi := h.identity k (.inl hp)
      exact ⟨hi.symm ▸ hp, hi.symm ▸ hu⟩
  cases hf : r.findName name with
  | none =>
    have hf' : r'.findName name = none :=
      Option.eq_none_iff_forall_ne_some.2 fun k hk => nomatch hf.symm.trans ((hfind k).1 hk)
    rw [agrees_of_free hf', hs]
    exact (agrees_of_free hf).1 ha
  | some k =>
    have hi := h.identity k (.inl (hc.findName_iff.1 hf).1)
    have hid : (r'.session k).id = (r.session k).id := congrArg Identity.id hi
    rw [agrees_of_found ((hfind k).2 hf), hs, hid]
    exact (agrees_of_found hf).1 ha

end SameUsers

theorem sameUsers_release (hp : (r.session slot).phase ≠ .authenticated)
    (ht : (r.session slot).token = none) : SameUsers r (r.release slot) := by
  have hi := identity_release r slot
  constructor
  · intro k hk
    by_cases hslot : slot = k
    · subst hslot
      have hphase : ((r.release slot).session slot).phase = .disconnecting :=
        congrArg Identity.phase ((hi slot).trans (if_pos rfl))
      rw [hphase] at hk
      exact absurd hk (not_or_intro hp nofun)
    · exact (hi k).trans (if_neg hslot)
  · intro k
    by_cases hslot : slot = k
    · subst hslot
      exact (congrArg Identity.token ((hi slot).trans (if_pos rfl))).trans ht.symm
    · exact congrArg Identity.token ((hi k).trans (if_neg hslot))

theorem sameUsers_begin (hl : (r.session slot).leased = true)
    (hp : (r.session slot).phase ≠ .authenticated) (ht : (r.session slot).token = none)
    (id : SessionId) (l : Link) : SameUsers r (r.begin slot id l) := by
  have hs := session_begin (lt_capacity_of_leased hl) id l
  constructor
  · intro k hk
    by_cases hslot : slot = k
    · subst hslot
      rw [hs, if_pos rfl] at hk
      exact absurd hk (not_or_intro hp nofun)
    · rw [hs, if_neg hslot]
  · intro k
    by_cases hslot : slot = k
    · subst hslot
      rw [hs, if_pos rfl]
      exact ht.symm
    · rw [hs, if_neg hslot]

/-! ## Tokens -/

def Distinct (token : Nat → String) (n : Nat) : Prop :=
  ∀ i j, i < j → j < n → token i ≠ token j

/-- Every token in the store is held by one session that is logged in, and has been drawn. -/
structure Ledger (token : Nat → String) (r : Relay Store) : Prop where
  held : ∀ k, (r.session k).token.isSome ↔ (r.session k).phase = .authenticated
  stored : ∀ t, r.store.tokens.contains t = true ↔ ∃ k, (r.session k).token = some t
  injective : ∀ j k t, (r.session j).token = some t → (r.session k).token = some t → j = k
  drawn : ∀ k t, (r.session k).token = some t → ∃ n < r.drawn, t = token n

namespace Ledger

variable {token : Nat → String} {lifetime : Nat} (h : Ledger token r)

include h

theorem congr (hs : SameUsers r r')
    (ht : ∀ t, r'.store.tokens.contains t = r.store.tokens.contains t)
    (hn : r.drawn ≤ r'.drawn) : Ledger token r' := by
  constructor <;> simp only [hs.token, hs.phase_iff, ht]
  · exact h.held
  · exact h.stored
  · exact h.injective
  · intro k t hk
    obtain ⟨n, hlt, rfl⟩ := h.drawn k t hk
    exact ⟨n, Nat.lt_of_lt_of_le hlt hn, rfl⟩

theorem quiet (hq : Quiet r r') : Ledger token r' :=
  h.congr hq.sameUsers (fun _ => by rw [hq.store]) (Nat.le_of_eq hq.drawn.symm)

theorem not_contains (hd : Distinct token (r.drawn + 1)) :
    r.store.tokens.contains (token r.drawn) = false := by
  by_contra hmem
  obtain ⟨k, hk⟩ := (h.stored _).1 (Bool.not_eq_false _ ▸ hmem)
  obtain ⟨n, hn, heq⟩ := h.drawn k _ hk
  exact hd n r.drawn hn (Nat.lt_succ_self _) heq.symm

theorem token_eq_none (hp : (r.session k).phase ≠ .authenticated) :
    (r.session k).token = none := by
  by_contra hne
  exact hp ((h.held k).1 (Option.isSome_iff_ne_none.2 hne))

/-- Whoever is in `slot` holds `held` instead of the token held before, and the store follows. -/
theorem exchange (held : Option String) (hself : (r'.session slot).token = held)
    (hphase : (r'.session slot).phase = .authenticated ↔ held.isSome)
    (hother : ∀ k, slot ≠ k → (r'.session k).identity = (r.session k).identity)
    (hstore : ∀ t, r'.store.tokens.contains t = true ↔
      held = some t ∨ (r.session slot).token ≠ some t ∧ r.store.tokens.contains t = true)
    (hnew : ∀ t, held = some t → r.store.tokens.contains t = false ∧ ∃ n < r'.drawn, t = token n)
    (hdrawn : r.drawn ≤ r'.drawn) : Ledger token r' := by
  have htoken {k : Nat} (hk : slot ≠ k) : (r'.session k).token = (r.session k).token :=
    congrArg Identity.token (hother k hk)
  have hfresh {k : Nat} {t : String} (ht : held = some t) : (r.session k).token ≠ some t := by
    intro hk
    cases (hnew t ht).1.symm.trans ((h.stored t).2 ⟨k, hk⟩)
  constructor
  case held =>
    intro k
    by_cases hk : slot = k
    · subst hk
      rw [hself, hphase]
    · have hp : (r'.session k).phase = (r.session k).phase := congrArg Identity.phase (hother k hk)
      rw [htoken hk, hp]
      exact h.held k
  case stored =>
    intro t
    rw [hstore, h.stored]
    constructor
    · rintro (ht | ⟨hne, k, hk⟩)
      · exact ⟨slot, hself.trans ht⟩
      · have hslot : slot ≠ k := by
          rintro rfl
          exact hne hk
        exact ⟨k, (htoken hslot).trans hk⟩
    · rintro ⟨k, hk⟩
      by_cases hslot : slot = k
      · subst hslot
        exact .inl (hself.symm.trans hk)
      · rw [htoken hslot] at hk
        exact .inr ⟨fun ht => hslot (h.injective slot k t ht hk), k, hk⟩
  case injective =>
    intro j k t hj hk
    -- Nobody else has the token that is held in the slot now, since it was not in the store.
    by_cases hj' : slot = j <;> by_cases hk' : slot = k
    · exact hj'.symm.trans hk'
    · subst hj'
      exact absurd ((htoken hk').symm.trans hk) (hfresh (hself.symm.trans hj))
    · subst hk'
      exact absurd ((htoken hj').symm.trans hj) (hfresh (hself.symm.trans hk))
    · exact h.injective j k t ((htoken hj').symm.trans hj) ((htoken hk').symm.trans hk)
  case drawn =>
    intro k t hk
    by_cases hslot : slot = k
    · subst hslot
      exact (hnew t (hself.symm.trans hk)).2
    · obtain ⟨n, hn, ht⟩ := h.drawn k t ((htoken hslot).symm.trans hk)
      exact ⟨n, Nat.lt_of_lt_of_le hn hdrawn, ht⟩

theorem enrol {s : Store} {g : TokenGrant} {name : String}
    (hd : Distinct token (r.drawn + 1)) (ht : s.tokens = r.store.tokens.insert (token r.drawn) g)
    (he : { r with store := s, drawn := r.drawn + 1 }.register slot id name (token r.drawn) =
      (.ok (), r')) : Ledger token r' := by
  set drawn := token r.drawn
  set r₀ : Relay Store := { r with store := s, drawn := r.drawn + 1 }
  rcases register_cases r₀ slot id name drawn with ⟨-, he'⟩ | ⟨-, -, he'⟩ | ⟨s', -, ha, he'⟩
  · cases he.symm.trans he'
  · cases he.symm.trans he'
  cases he.symm.trans he'
  obtain ⟨⟨-, hlink, hphase⟩, rfl⟩ := Session.authenticate_eq_some_iff.1 ha
  set s' : Session :=
    { r₀.session slot with phase := .authenticated, username := name, token := some drawn }
  have hself : (r.setSession slot s').session slot = s' :=
    session_setSession_self (lt_capacity_of_link hlink) s'
  have hnone : (r.session slot).token = none :=
    h.token_eq_none fun hp => nomatch hp.symm.trans hphase
  refine h.exchange (some drawn) (congrArg Session.token hself) ?_ (fun k hk => ?_) (fun t => ?_)
    ?_ (Nat.le_succ _)
  · exact iff_of_true (congrArg Session.phase hself) rfl
  · exact congrArg Session.identity (session_setSession_ne hk s')
  · change s.tokens.contains t = true ↔ _
    simp [ht, Table.contains_insert, hnone]
  · intro t ht'
    obtain rfl := Option.some.inj ht'
    exact ⟨h.not_contains hd, r.drawn, Nat.lt_succ_self _, rfl⟩

theorem settles {name : String} {o : Outcome × Relay Store}
    (ho : r.Settles slot id name (token r.drawn) o) (hd : Distinct token o.2.drawn) :
    Ledger token o.2 := by
  cases ho with
  | refused _ _ ht hn =>
    exact h.congr (sameUsers_of_identity fun _ => rfl) (fun _ => by rw [ht]) hn
  | entered r' hne hf hp ht he =>
    have hdrawn : r'.drawn = r.drawn + 1 :=
      (congrArg (fun p => p.2.drawn) he).symm.trans (drawn_register ..)
    exact h.enrol (hdrawn ▸ hd) ht he
  | @withdrawn r' e s s' g hne hf hp ht he =>
    have hs := session_register_of_error he
    have hdrawn : r'.drawn = r.drawn + 1 :=
      (congrArg (fun p => p.2.drawn) he).symm.trans (drawn_register ..)
    have hfresh := h.not_contains (show Distinct token (r.drawn + 1) from hdrawn ▸ hd)
    refine h.congr (sameUsers_of_identity fun k => congrArg Session.identity (hs k)) (fun t => ?_)
      (Nat.le_trans (Nat.le_succ _) (Nat.le_of_eq hdrawn.symm))
    -- The token was put in and taken out again, and it had not been there before.
    refine Bool.eq_iff_iff.2 ?_
    change s'.tokens.contains t = true ↔ _
    rw [ht, Table.contains_erase, Table.contains_insert]
    refine ⟨fun ⟨hne, ht⟩ => ht.resolve_left hne, fun ht => ⟨?_, .inr ht⟩⟩
    rintro rfl
    cases ht.symm.trans hfresh

theorem departed : Ledger token ((r.departed slot).release slot) := by
  have hi := identity_release (r.departed slot) slot
  have hself := (hi slot).trans (if_pos rfl)
  have hphase : (((r.departed slot).release slot).session slot).phase = .disconnecting :=
    congrArg Identity.phase hself
  have hdrawn : ((r.departed slot).release slot).drawn = r.drawn := drawn_release ..
  refine h.exchange none (congrArg Identity.token hself) ?_ (fun k hk => ?_) (fun t => ?_)
    (fun _ ht => nomatch ht) (Nat.le_of_eq hdrawn.symm)
  · simp [hphase]
  · refine (hi k).trans ((if_neg hk).trans ?_)
    exact congrArg Session.identity (session_setSession_ne hk _)
  · rw [store_release]
    change (r.store.forget _ _).tokens.contains t = true ↔ _
    by_cases hp : (r.session slot).phase = .authenticated
    · rw [Session.loggedInAs, if_pos hp, Store.contains_forget]
      simp
    · rw [Session.loggedInAs, if_neg hp, h.token_eq_none hp]
      simp [Store.forget]

end Ledger

/-! ## All of it -/

/-- What holds between two steps. -/
structure Settled (token : Nat → String) (r : Relay Store) : Prop where
  orderly : Orderly r
  tidy : Tidy r
  ledger : Ledger token r
  agrees : ∀ name, r.Agrees name

namespace Settled

variable {token : Nat → String} {lifetime : Nat} (h : Settled token r)

include h

theorem of_sameUsers (ho : Orderly r') (ht : Tidy r') (hs : SameUsers r r')
    (hstore : r'.store = r.store) (hdrawn : r'.drawn = r.drawn) : Settled token r' where
  orderly := ho
  tidy := ht
  ledger := h.ledger.congr hs (fun _ => by rw [hstore]) (Nat.le_of_eq hdrawn.symm)
  agrees _ := hs.agrees h.orderly.consistent ho.consistent hstore (h.agrees _)

theorem quiet (hq : Quiet r r') : Settled token r' :=
  h.of_sameUsers (hq.orderly h.orderly) (h.tidy.quiet hq) hq.sameUsers hq.store hq.drawn

theorem attempt (a : Attempt) (hd : Distinct token (r.attempt (.direct token lifetime) a).drawn) :
    Settled token (r.attempt (.direct token lifetime) a) := by
  have hs := verdict_settles token lifetime r a
  have hq := quiet_attempt (.direct token lifetime) r a
  have hdeeds := attempt_deeds (direct_within token lifetime) r a
  rw [hq.drawn] at hd
  have htidy : Tidy (r.verdict (.direct token lifetime) a).2 := by
    generalize r.verdict (.direct token lifetime) a = o at hs
    cases hs with
    | refused => exact h.tidy
    | @entered r' s g hn hf hp ht he =>
      have hr : Tidy { r with store := s, drawn := r.drawn + 1 } := h.tidy
      have hregister := hr.register a.slot a.id a.username.text (token r.drawn)
      rwa [he] at hregister
    | @withdrawn r' e s s' g hn hf hp ht he =>
      have hr : Tidy { r with store := s, drawn := r.drawn + 1 } := h.tidy
      have hregister := hr.register a.slot a.id a.username.text (token r.drawn)
      rw [he] at hregister
      exact hregister
  exact ⟨h.orderly.of_deeds hdeeds, htidy.quiet hq, (h.ledger.settles hs hd).quiet hq,
    fun name => (h.agrees name).attempt h.orderly a⟩

theorem disconnect (slot : Nat) (id : SessionId) (announced : Bool) :
    Settled token (r.disconnect (.direct token lifetime) slot id announced) := by
  by_cases hlive : (r.session slot).id = id ∧ (r.session slot).isLive = true
  · have horderly := h.orderly.disconnect token lifetime slot id announced
    have hagrees (name : String) :
        (r.disconnect (.direct token lifetime) slot id announced).Agrees name :=
      (h.agrees name).disconnect h.orderly slot id announced
    obtain ⟨name, b, he⟩ := disconnect_direct token lifetime hlive.1 hlive.2 announced
    rw [he] at horderly hagrees ⊢
    have hq := quiet_farewell ((r.departed slot).release slot) name b
    exact ⟨horderly, (h.tidy.departed hlive.2).quiet hq, h.ledger.departed.quiet hq, hagrees⟩
  · rwa [disconnect_of_not_live hlive]

end Settled

theorem Settled.start {token : Nat → String} {store : Store} (capacity : Nat) (limits : Limits)
    (ht : store.tokens.size = 0) (hp : store.presence.size = 0) :
    Settled token (Relay.start capacity limits store) := by
  have hs := session_start capacity limits store
  have hidle (k : Nat) : ((Relay.start capacity limits store).session k).token = none := by
    rw [hs]
    rfl
  constructor
  case orderly => exact .start ..
  case tidy =>
    intro k hk
    refine .inl ⟨?_, List.mem_range.2 ?_⟩
    · rw [hs]
      exact Session.vacant_idle limits
    · exact Nat.lt_of_lt_of_eq hk List.length_replicate
  case ledger =>
    constructor <;> simp only [hidle]
    · simp [hs, Session.idle]
    · intro t
      have hnone : store.tokens.get? t = none := Table.size_eq_zero_iff.1 ht t
      simp [Relay.start, Table.contains, hnone]
    · intro j k t hj
      cases hj
    · intro k t hk
      cases hk
  case agrees =>
    intro name
    exact Table.size_eq_zero_iff.1 hp name

/-! ## Connections that come in -/

/-- A slot is taken for somebody who is not logged in; all users are those of `r`. -/
structure Reserved (r r' : Relay Store) (slot : Nat) : Prop where
  orderly : Orderly r'
  leased : (r'.session slot).leased = true
  others : ∀ k < r'.capacity, slot ≠ k → r'.InOrder k
  guest : (r'.session slot).phase ≠ .authenticated
  token : (r'.session slot).token = none
  users : SameUsers r r'
  store : r'.store = r.store
  drawn : r'.drawn = r.drawn

theorem Settled.acquire {token : Nat → String} (h : Settled token r)
    (ha : r.acquire = some (slot, r')) : Reserved r r' slot := by
  obtain ⟨hleased, hlink, hi⟩ := h.orderly.wired.acquired ha
  have hguest : (r'.session slot).phase ≠ .authenticated := by
    have hproper := h.orderly.consistent.proper slot
    rw [← hi slot] at hproper
    exact fun hp => nomatch hp.symm.trans (hproper.idle hlink).2.1
  have hsame : SameUsers r r' := sameUsers_of_identity hi
  constructor
  case orderly => exact (Move.act (.acquire ha)).orderly h.orderly
  case leased => exact hleased
  case others => exact h.tidy.acquire ha
  case guest => exact hguest
  case token =>
    rw [hsame.token]
    exact h.ledger.token_eq_none ((hsame.phase_iff slot).not.1 hguest)
  case users => exact hsame
  all_goals
    obtain ⟨free, -, rfl⟩ := acquire_eq_some_iff.1 ha
    rfl

namespace Reserved

variable (h : Reserved r r' slot)

include h

theorem quiet (hq : Quiet r' r'') : Reserved r r'' slot where
  orderly := hq.orderly h.orderly
  leased := (hq.leased slot).trans h.leased
  others k hk hslot := (h.others k (hq.capacity ▸ hk) hslot).quiet hq
  guest := (hq.sameUsers.phase_iff slot).not.2 h.guest
  token := (hq.sameUsers.token slot).trans h.token
  users := h.users.trans hq.sameUsers
  store := hq.store.trans h.store
  drawn := hq.drawn.trans h.drawn

theorem begin (hlink : (r'.session slot).link = none) (hf : r'.Fresh id) (l : Link) :
    Reserved r (r'.begin slot id l) slot := by
  have hs := session_begin (lt_capacity_of_leased h.leased) id l
  have hself := (hs slot).trans (if_pos rfl)
  constructor
  case orderly => exact (Move.connect l h.leased hlink hf).orderly h.orderly
  case leased => exact (congrArg Session.leased hself).trans h.leased
  case others =>
    intro k hk hslot
    have hk : k < r'.capacity := (capacity_put ..) ▸ hk
    exact (h.others k hk hslot).frame (fun hmem => hmem) ((hs k).trans (if_neg hslot))
  case guest =>
    rw [hself]
    exact nofun
  case token => exact congrArg Session.token hself
  case users => exact h.users.trans (sameUsers_begin h.leased h.guest h.token id l)
  case store => exact h.store
  case drawn => exact h.drawn

theorem release {token : Nat → String} (hs : Settled token r) :
    Settled token (r'.release slot) := by
  refine hs.of_sameUsers ((Move.act (.release r')).orderly h.orderly)
    (tidy_release h.leased h.others) (h.users.trans (sameUsers_release h.guest h.token)) ?_ ?_
  · exact (store_release ..).trans h.store
  · exact (drawn_release ..).trans h.drawn

/-- Once a connection has begun in the slot, all slots are in order again. -/
theorem settled {token : Nat → String} (hs : Settled token r)
    (hlive : (r'.session slot).isLive = true) : Settled token r' := by
  refine hs.of_sameUsers h.orderly (fun k hk => ?_) h.users h.store h.drawn
  by_cases hslot : slot = k
  · subst hslot
    exact .inr ⟨h.leased, hlive⟩
  · exact h.others k hk hslot

end Reserved

end Relay

end ChatRelay
