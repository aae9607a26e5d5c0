import ChatRelay.Proofs.Relay.Serving
import ChatRelay.Proofs.Relay.Verdict
import ChatRelay.Proofs.Runs

/-! # Guests

A connection that is not logged in can say what it likes: as long as it stays a guest, nobody else
is affected, and all that it is told is that its logins have failed.
-/

namespace ChatRelay

open Relation (ReflTransGen)

variable {S : Type} {answer : (c : StoreCall) → S → Except StoreError c.Answer × S}

def Packet.IsRefusal (packet : Bytes) : Prop :=
  ∃ o : Outcome, o ≠ .success ∧ packet = (Packet.loginResponse o).encode

namespace Session

variable {s : Session} {ls : Links} {i : LinkId} {l : Link}

theorem post_singleton (i : LinkId) (ls : Links) (packet : Bytes) :
    ((post i ls [packet]).1 = [packet] ∨ (post i ls [packet]).1 = []) ∧
      (post i ls [packet]).2 = (ls.send i packet).2 := by
  unfold post
  split
  · next h => exact ⟨.inl rfl, by rw [h]⟩
  · next h => exact ⟨.inr rfl, by rw [h]; rfl⟩

theorem send_grows (hs : s.Sends) (target : Option SessionId) (packet : Bytes) (ls : Links) :
    (∃ news, (s.send target packet ls).2.1.queue = s.queue ++ news ∧ ∀ p ∈ news, p = packet) ∧
      ∀ i l, s.link = some i → ls[i]? = some l →
        ∃ l' events, (s.send target packet ls).2.2[i]? = some l' ∧ l'.log = l.log ++ events ∧
          ∀ e ∈ events, e = .send packet ∨ e = .sendRefused packet := by
  have hnone {ls' : Links} (h : ls' = ls) (i : LinkId) (l : Link) (hl : ls[i]? = some l) :
      ∃ l' events, ls'[i]? = some l' ∧ l'.log = l.log ++ events ∧
        ∀ e ∈ events, e = LinkEvent.send packet ∨ e = .sendRefused packet :=
    ⟨l, [], h ▸ hl, (List.append_nil _).symm, nofun⟩
  unfold send
  split
  · exact ⟨⟨[], (List.append_nil _).symm, nofun⟩, fun i l _ => hnone rfl i l⟩
  · next j hj =>
    split
    · dsimp only
      split
      · exact ⟨⟨[packet], rfl, fun p hp => List.mem_singleton.1 hp⟩, fun i l _ => hnone rfl i l⟩
      · next hidle =>
        have hempty : s.queue = [] := by
          have hsends := hs (by rw [hj]; rfl)
          simpa [hidle] using hsends
        obtain ⟨hqueue, hlinks⟩ := post_singleton j ls packet
        rw [hempty]
        refine ⟨?_, fun i l hi hl => ?_⟩
        · obtain hqueue | hqueue := hqueue
          · exact ⟨[packet], hqueue, fun p hp => List.mem_singleton.1 hp⟩
          · exact ⟨[], hqueue, nofun⟩
        · obtain rfl : j = i := Option.some.inj (hj.symm.trans hi)
          refine ⟨(l.send packet).2, [if l.sendAnswers.head then .send packet else
            .sendRefused packet], ?_, rfl, fun e he => ?_⟩
          · exact (congrArg (·[j]?) hlinks).trans (Links.getElem?_ask_self hl _)
          · rw [List.mem_singleton.1 he]
            split
            · exact .inl rfl
            · exact .inr rfl
    · exact ⟨⟨[], (List.append_nil _).symm, nofun⟩, fun i l _ => hnone rfl i l⟩

end Session

namespace Relay

variable {r r' : Relay S} {slot : Nat} {id : SessionId}

/-- Nobody is affected but the session in `slot`, and that is only told that logins have failed. -/
structure Harmless (answer : (c : StoreCall) → S → Except StoreError c.Answer × S) (slot : Nat)
    (r r' : Relay S) : Prop where
  session : ∀ k, slot ≠ k → r'.session k = r.session k
  identity : (r'.session slot).identity = (r.session slot).identity
  directory : r'.directory = r.directory
  store : Untouched answer r.store r'.store
  links : ∀ i, (r.session slot).link ≠ some i → r'.links[i]? = r.links[i]?
  queue : ∃ news, (r'.session slot).queue = (r.session slot).queue ++ news ∧
    ∀ p ∈ news, Packet.IsRefusal p
  log : ∀ i l, (r.session slot).link = some i → r.links[i]? = some l →
    ∃ l' events, r'.links[i]? = some l' ∧ l'.log = l.log ++ events ∧
      ∀ e ∈ events, ∃ p, Packet.IsRefusal p ∧ (e = .send p ∨ e = .sendRefused p)

namespace Harmless

theorem of_quiet (hs : ∀ k, slot ≠ k → r'.session k = r.session k)
    (hi : (r'.session slot).identity = (r.session slot).identity)
    (hq : (r'.session slot).queue = (r.session slot).queue) (hd : r'.directory = r.directory)
    (hl : r'.links = r.links) (ht : Untouched answer r.store r'.store) :
    Harmless answer slot r r' where
  session := hs
  identity := hi
  directory := hd
  store := ht
  links _ _ := by rw [hl]
  queue := ⟨[], by rw [hq, List.append_nil], nofun⟩
  log _ l _ h := ⟨l, [], by rw [hl, h], (List.append_nil _).symm, nofun⟩

theorem refl (r : Relay S) : Harmless answer slot r r :=
  .of_quiet (fun _ _ => rfl) rfl rfl rfl rfl fun _ _ => rfl

theorem trans {r'' : Relay S} (h : Harmless answer slot r r') (h' : Harmless answer slot r' r'') :
    Harmless answer slot r r'' := by
  have hlink : (r'.session slot).link = (r.session slot).link :=
    congrArg Identity.link h.identity
  constructor
  case session => exact fun k hk => (h'.session k hk).trans (h.session k hk)
  case identity => exact h'.identity.trans h.identity
  case directory => exact h'.directory.trans h.directory
  case store => exact fun view hv => (h'.store view hv).trans (h.store view hv)
  case links => exact fun i hi => (h'.links i (hlink ▸ hi)).trans (h.links i hi)
  case queue =>
    obtain ⟨news, hq, hn⟩ := h.queue
    obtain ⟨more, hq', hm⟩ := h'.queue
    refine ⟨news ++ more, by rw [hq', hq, List.append_assoc], fun p hp => ?_⟩
    exact (List.mem_append.1 hp).elim (hn p) (hm p)
  case log =>
    intro i l hi hl
    obtain ⟨l₁, events, hl₁, hlog, he⟩ := h.log i l hi hl
    obtain ⟨l₂, more, hl₂, hlog', hm⟩ := h'.log i l₁ (hlink ▸ hi) hl₁
    refine ⟨l₂, events ++ more, hl₂, by rw [hlog', hlog, List.append_assoc], fun e hmem => ?_⟩
    exact (List.mem_append.1 hmem).elim (he e) (hm e)

theorem guest (h : Harmless answer slot r r') (hg : r.Guest slot id) : r'.Guest slot id where
  id := (congrArg Identity.id h.identity).trans hg.id
  link := (congrArg (·.link.isSome) h.identity).trans hg.link
  phase := (congrArg Identity.phase h.identity).trans hg.phase

theorem reply (hs : (r.session slot).Sends) (id : SessionId) {o : Outcome} (ho : o ≠ .success) :
    Harmless answer slot r (r.reply slot id (.loginResponse o)) := by
  have hrefusal : Packet.IsRefusal (Packet.loginResponse o).encode := ⟨o, ho, rfl⟩
  have hsession := session_send r slot slot (some id) (Packet.loginResponse o).encode
  rw [if_pos rfl] at hsession
  obtain ⟨⟨news, hqueue, hnews⟩, hlog⟩ :=
    Session.send_grows hs (some id) (Packet.loginResponse o).encode r.links
  constructor
  case session => exact fun k hk => (session_send r slot k _ _).trans (if_neg hk)
  case identity => exact (traffic_send ..).identity slot
  case directory => rfl
  case store => exact fun _ _ => rfl
  case links => exact fun i hi => Session.links_send_ne hi ..
  case queue =>
    refine ⟨news, ?_, fun p hp => hnews p hp ▸ hrefusal⟩
    exact (congrArg Session.queue hsession).trans hqueue
  case log =>
    intro i l hi hl
    obtain ⟨l', events, hl', hlog, he⟩ := hlog i l hi hl
    exact ⟨l', events, hl', hlog, fun e hmem => ⟨_, hrefusal, he e hmem⟩⟩

end Harmless

/-- Nobody is affected but the session in `slot`, unless that is logged in. -/
def HarmlessUnlessIn (answer : (c : StoreCall) → S → Except StoreError c.Answer × S) (slot : Nat)
    (r r' : Relay S) : Prop :=
  Harmless answer slot r r' ∨ (r'.session slot).isAuthenticated = true

/-! ## Packets -/

section

variable {token : Nat → String} {lifetime : Nat} (hg : r.Guest slot id)

include hg

theorem handle_harmless (hs : (r.session slot).Sends) (packet : Bytes) :
    HarmlessUnlessIn answer slot r
      (r.handle (.ofStore answer token lifetime) slot id packet) := by
  set v := Service.ofStore answer token lifetime
  have hname : (r.session slot).nameOf id = none := by
    simp [Session.nameOf, Session.loggedInAs, hg.phase]
  unfold handle
  split
  · next userId password username _ =>
    let a : Attempt := ⟨slot, id, userId, password, username⟩
    have hlive : (r.session slot).isLive = true :=
      Session.isLive_iff.2 ⟨hg.link, by simp [hg.phase]⟩
    have hdecided := verdict_decided answer token lifetime (a := a) hg.id hlive
    rw [← hdecided.outcome_eq] at hdecided
    by_cases ho : (r.verdict v a).1 = .success
    · right
      have ht := traffic_attempt v r a
      exact (Session.isAuthenticated_congr (ht.identity slot)).trans
        (hdecided.isAuthenticated hlive ho)
    · left
      obtain ⟨s, n, he, hkept⟩ := hdecided.eq_of_ne_success ho
      have hattempt := attempt_eq v r a
      simp only [if_neg ho] at hattempt
      have hquiet : Harmless answer slot r (r.verdict v a).2 := by
        rw [he]
        exact .of_quiet (fun _ _ => rfl) rfl rfl rfl rfl hkept
      have hsends : ((r.verdict v a).2.session slot).Sends := by
        rw [he]
        exact hs
      change Harmless answer slot r (r.attempt v a)
      rw [hattempt]
      exact hquiet.trans (.reply hsends id ho)
  · rw [relayBroadcast, hname]
    exact .inl (.refl r)
  · rw [relayWhisper, hname]
    exact .inl (.refl r)
  · exact .inl (.refl r)

theorem serve_harmless (hw : Wired r) (limit : Nat) :
    HarmlessUnlessIn answer slot r
      (r.serve (.ofStore answer token lifetime) slot id limit).2 := by
  set v := Service.ofStore answer token lifetime
  have hd : v.Within Deed := Service.ofStore_within fun _ _ hd => hd
  induction limit generalizing r with
  | zero => exact .inl (.refl r)
  | succ limit ih =>
    cases hnext : r.next? slot id with
    | none =>
      rw [serve_of_next?_eq_none hnext]
      exact .inl (.refl r)
    | some taken =>
      obtain ⟨packet, ring⟩ := taken
      rw [serve_of_next?_eq_some hnext]
      have hw₁ : Wired (r.withInbound slot ring) :=
        (Act.take (next?_eq_some_iff.1 hnext).2).wired hw
      have htaken : Harmless answer slot r (r.withInbound slot ring) := by
        refine .of_quiet (fun k hk => session_withInbound_ne hk ring)
          (identity_withInbound r slot slot ring) ?_ rfl rfl fun _ _ => rfl
        obtain ⟨ring', h⟩ := session_withInbound r slot slot ring
        rw [h]
      have hg₁ := htaken.guest hg
      obtain hhandled | hin : HarmlessUnlessIn answer slot (r.withInbound slot ring)
          ((r.withInbound slot ring).handle v slot id packet) :=
        handle_harmless hg₁ (hw₁.sends slot) packet
      · have hacts := handle_chain (fun _ _ => @Act.deed _ slot _ _)
          (hd.mono fun _ _ => .deed) slot id packet (r.withInbound slot ring)
        exact (ih (hhandled.guest hg₁) (hw₁.of_acts hacts)).imp_left
          (htaken.trans hhandled).trans
      · right
        have hkept := identity_serve hd slot id limit (Session.isAuthenticated_iff.1 hin).2
        exact (Session.isAuthenticated_congr hkept).trans hin

theorem receive_harmless (bs : Bytes) : Harmless answer slot r (r.receive slot id bs).2 := by
  obtain ⟨ring, hs⟩ := (r.session slot).receive_eq id bs
  refine .of_quiet (fun k hk => ?_) ?_ ?_ rfl rfl fun _ _ => rfl
  · rw [session_receive, if_neg fun h => hk h.1]
  · rw [session_receive, if_pos ⟨rfl, lt_capacity_of_link hg.link⟩, Session.identity_receive]
  · rw [session_receive, if_pos ⟨rfl, lt_capacity_of_link hg.link⟩, hs]

end

/-! ## What comes in -/

/-- Octets are buffered for connection `id` of `slot`, or those that are buffered are served. -/
inductive Intake (v : Service S) (slot : Nat) (id : SessionId) : Relay S → Relay S → Prop where
  | receive (r : Relay S) (bs : Bytes) : Intake v slot id r (r.receive slot id bs).2
  | drain (r : Relay S) : Intake v slot id r (r.drain v slot id).2

section

variable {v : Service S}

theorem Intake.acts (hd : v.Within Deed) (hi : Intake v slot id r r') :
    ReflTransGen (Act slot) r r' := by
  cases hi with
  | receive bs => exact .single (.receive r id bs)
  | drain =>
    exact (parts_of_acts (fun _ _ ha => ha) (hd.mono fun _ _ => .deed) id).drain r

theorem wired_of_intakes (hd : v.Within Deed) (hi : ReflTransGen (Intake v slot id) r r')
    (hw : Wired r) : Wired r' := by
  induction hi with
  | refl => exact hw
  | tail _ hlast ih => exact ih.of_acts (hlast.acts hd)

theorem Intake.isAuthenticated (hd : v.Within Deed) (hi : Intake v slot id r r')
    (hin : (r.session slot).isAuthenticated = true) :
    (r'.session slot).isAuthenticated = true := by
  cases hi with
  | receive bs =>
    rw [receive_eq_setSession]
    have hkept := identity_setSession (Session.identity_receive (s := r.session slot) id bs) slot
    exact (Session.isAuthenticated_congr hkept).trans hin
  | drain =>
    have hkept := identity_serve hd slot id (r.session slot).inbound.size
      (Session.isAuthenticated_iff.1 hin).2
    exact (Session.isAuthenticated_congr hkept).trans hin

end

/-- Guests affect nobody: whatever a connection that is not logged in sends, in whatever pieces, as
long as it is not logged in by that. -/
theorem guests_affect_nobody (answer : (c : StoreCall) → S → Except StoreError c.Answer × S)
    (token : Nat → String) (lifetime capacity : Nat) (limits : Limits) (store : S) {r r' : Relay S}
    (hm : ReflTransGen Move (.start capacity limits store) r)
    (hid : (r.session slot).id = id) (hlive : (r.session slot).isLive = true)
    (hout : (r.session slot).isAuthenticated = false)
    (hi : ReflTransGen (Intake (.ofStore answer token lifetime) slot id) r r')
    (hout' : (r'.session slot).isAuthenticated = false) :
    Harmless answer slot r r' ∧
      ∀ k i, slot ≠ k → (r.session k).link = some i → r'.links[i]? = r.links[i]? := by
  have hd : (Service.ofStore answer token lifetime).Within Deed :=
    Service.ofStore_within fun _ _ hd => hd
  have hw : Wired r := ((Orderly.start capacity limits store).of_moves hm).wired
  obtain ⟨hlink, hphase⟩ := Session.isLive_iff.1 hlive
  have hg : r.Guest slot id := by
    refine ⟨hid, hlink, ?_⟩
    cases hp : (r.session slot).phase with
    | connected => rfl
    | authenticated => exact absurd (Session.isAuthenticated_iff.2 ⟨hlink, hp⟩) (by simp [hout])
    | disconnecting => exact absurd hp hphase
  have hall : HarmlessUnlessIn answer slot r r' := by
    clear hout'
    induction hi with
    | refl => exact .inl (.refl r)
    | tail hfirst hlast ih =>
      obtain hbefore | hin := ih
      · have hg' := hbefore.guest hg
        cases hlast with
        | receive bs => exact .inl (hbefore.trans (receive_harmless hg' bs))
        | drain =>
          exact (serve_harmless hg' (wired_of_intakes hd hfirst hw) _).imp_left hbefore.trans
      · exact .inr (hlast.isAuthenticated hd hin)
  have hharmless := hall.resolve_right (by simp [hout'])
  exact ⟨hharmless, fun k i hk hl => hharmless.links i (hw.link_ne hk hl)⟩

theorem guests_affect_nobody_noise :
    let login (user name : String) :=
      (Packet.loginRequest (.truncated user) (.truncated "") (.truncated name)).encode
    let steps : List Engine.Step := [.accept (.ofPeer none), .accept (.ofPeer none),
      .complete (.received 0 1 (.ok (login "" "ann")))]
    let noise := login "dan" "bob" ++ (Packet.userJoinNotify (.truncated "eve")).encode ++ [9]
    let v := Service.direct (fun _ => "t") 60
    let e := Engine.start 2 ⟨1024, 1024, maxPacketSize, 4⟩ (Store.empty.addUser "" "")
    let r := (e.run v steps).relay
    let r' := ((r.receive 1 2 noise).2.drain v 1 2).2
    (r'.session 1).queue.length = 1 ∧ r'.session 0 = r.session 0 ∧
      (r'.store.tokens, r'.store.presence) = (r.store.tokens, r.store.presence) := by
  intro login steps noise v e r r'
  have hguest : ((r.session 1).id = 2 ∧ (r.session 1).isLive = true ∧
      (r.session 1).isAuthenticated = false) ∧
      (r'.session 1).isAuthenticated = false ∧ (r'.session 1).queue.length = 1 := by
    decide +kernel
  have hm : ReflTransGen Move e.relay r :=
    Engine.moves_run (direct_within _ _) (.start ..)
      (Engine.freshIds_of_length (direct_within _ _) (by decide))
  have hi : ReflTransGen (Intake v 1 2) r r' := .tail (.single (.receive r noise)) (.drain _)
  have ⟨⟨hid, hlive, hout⟩, hout', hqueue⟩ := hguest
  have hharmless := (guests_affect_nobody _ _ _ _ _ _ hm hid hlive hout hi hout').1
  have hstore := hharmless.store (fun s : Store => (s.tokens, s.presence)) Store.steady
  exact ⟨hqueue, hharmless.session 0 Nat.one_ne_zero, hstore⟩

end Relay

end ChatRelay
