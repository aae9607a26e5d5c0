import ChatRelay.Proofs.Packet
import ChatRelay.Proofs.Relay.Tenure
import ChatRelay.Proofs.Relay.Verdict
import ChatRelay.Proofs.Runs

/-! # Answers to logins

A login request is answered once, whatever it comes to. Only a login that succeeds is told to others,
and everybody else who is logged in is offered the news once, whether there is room for it or not.
-/

namespace ChatRelay.Relay

open Relation (ReflTransGen)

variable {S : Type} {answer : (c : StoreCall) → S → Except StoreError c.Answer × S} {r : Relay S}
  {slot k : Nat} {id : SessionId} {name : String}

theorem outgoing_reply_self (h : Wired r) (hw : r.Willing slot) (hid : (r.session slot).id = id)
    (hlive : (r.session slot).isLive = true) (hroom : r.Room slot)
    (hsize : PacketKind.maxWireLength ≤ (r.session slot).limits.sendSize) (p : Packet) :
    (r.reply slot id p).outgoing slot = r.outgoing slot ++ [p.encode] := by
  have hlength : p.encode.length ≤ (r.session slot).limits.sendSize := by
    rw [Packet.length_encode]
    exact p.kind.wireLength_le_maxWireLength.trans hsize
  have hlt : (r.session slot).queue.length < (r.session slot).limits.sendBacklog := hroom
  apply outgoing_send_self h hw
  simp [Session.accepts, hlength, hlive, hid, hlt]

theorem Decided.outgoing_reply {o : Outcome} {p : Outcome × Relay S}
    (h : Decided answer r slot id name o p) (hwired : Wired p.2) (hw : r.Willing slot)
    (hid : (r.session slot).id = id) (hlive : (r.session slot).isLive = true)
    (hroom : r.Room slot)
    (hsize : PacketKind.maxWireLength ≤ (r.session slot).limits.sendSize) (reply : Packet) :
    (p.2.reply slot id reply).outgoing slot = r.outgoing slot ++ [reply.encode] := by
  obtain ⟨phase, username, token, hsession⟩ := h.session slot
  have hlink : (p.2.session slot).link = (r.session slot).link := by rw [hsession]
  have hqueue : (p.2.session slot).queue = (r.session slot).queue := by rw [hsession]
  have hlinks (l : LinkId) (_ : (r.session slot).link = some l) : p.2.links[l]? = r.links[l]? := by
    rw [h.links_eq]
  have hout : p.2.outgoing slot = r.outgoing slot := Session.outgoing_congr hlink hqueue hlinks
  rw [← hout]
  apply outgoing_reply_self hwired
  · exact Session.Willing.congr hw hlink hlinks
  · rwa [hsession]
  · exact h.isLive hlive
  · unfold Room
    rwa [hsession]
  · rwa [hsession]

def replied (v : Service S) (r : Relay S) (a : Attempt) : Relay S :=
  (r.verdict v a).2.reply a.slot a.id (.loginResponse (r.verdict v a).1)

section

variable {v : Service S} {a : Attempt} (hd : v.Within Deed) (h : Orderly r)

theorem attempt_of_success (ho : (r.verdict v a).1 = .success) :
    r.attempt v a = ((r.replied v a).broadcast (some a.slot) a.notice).2 := by
  rw [attempt_eq]
  exact if_pos ho

theorem attempt_of_ne_success (ho : (r.verdict v a).1 ≠ .success) :
    r.attempt v a = r.replied v a := by
  rw [attempt_eq]
  exact if_neg ho

include hd h

theorem orderly_replied : Orderly (r.replied v a) := by
  have hreply := reply_chain (fun _ _ hd => hd) (r.verdict v a).2 a.slot a.id
    (.loginResponse (r.verdict v a).1)
  exact (h.of_deeds (verdict_deeds hd r a)).of_deeds hreply

theorem outgoing_attempt_self :
    (r.attempt v a).outgoing a.slot = (r.replied v a).outgoing a.slot := by
  by_cases ho : (r.verdict v a).1 = .success
  · rw [attempt_of_success ho]
    apply Spared.outgoing_eq
    exact spared_broadcast (orderly_replied hd h) (.inl rfl)
  · rw [attempt_of_ne_success ho]

variable (hne : a.slot ≠ k) (hverdict : Spared r (r.verdict v a).2 k)

include hne hverdict

theorem spared_replied : Spared r (r.replied v a) k := by
  apply hverdict.trans
  exact spared_send (h.of_deeds (verdict_deeds hd r a)).wired hne ..

/-- Everybody else who is logged in is told of a login that succeeds. -/
theorem offered_attempt (ho : (r.verdict v a).1 = .success)
    (hin : (r.session k).isAuthenticated = true) : Offered a.notice r (r.attempt v a) k := by
  have hreplied := spared_replied hd h hne hverdict
  rw [attempt_of_success ho]
  apply hreplied.offered
  apply offered_broadcast (orderly_replied hd h)
  · simpa using hne
  · rwa [hreplied.session]

theorem spared_attempt
    (hquiet : (r.verdict v a).1 = .success → (r.session k).isAuthenticated = false) :
    Spared r (r.attempt v a) k := by
  have hreplied := spared_replied hd h hne hverdict
  by_cases ho : (r.verdict v a).1 = .success
  · rw [attempt_of_success ho]
    apply hreplied.trans
    apply spared_broadcast (orderly_replied hd h)
    right
    rw [hreplied.session]
    exact hquiet ho
  · rwa [attempt_of_ne_success ho]

end

/-- A login request is answered once, with the outcome of the first reason to turn it down. Only if
there is none, the connection is logged in, and everybody else who is logged in is offered the news
once. Nobody else is affected, and a connection that is turned down is as much logged in as before. -/
theorem login_answered {capacity : Nat} {limits : Limits} {store : S}
    (answer : (c : StoreCall) → S → Except StoreError c.Answer × S) (token : Nat → String)
    (lifetime : Nat) (hm : ReflTransGen Move (.start capacity limits store) r) (a : Attempt)
    (hid : (r.session a.slot).id = a.id) (hlive : (r.session a.slot).isLive = true)
    (hroom : r.Room a.slot) (hw : r.Willing a.slot)
    (hsize : PacketKind.maxWireLength ≤ limits.sendSize) {packet : Bytes}
    (hp : Packet.decode packet = .ok (.loginRequest a.userId a.password a.username)) :
    let r' := r.handle (.ofStore answer token lifetime) a.slot a.id packet
    let o := firstOf (reasons answer token lifetime r a)
    r'.outgoing a.slot = r.outgoing a.slot ++ [(Packet.loginResponse o).encode] ∧
      ((r.session a.slot).nameOf a.id = none ∧
        (r'.session a.slot).nameOf a.id = some a.username.text ↔ o = .success) ∧
      (∀ k, a.slot ≠ k → o = .success → (r.session k).isAuthenticated = true →
        Offered a.notice r r' k) ∧
      (∀ k, a.slot ≠ k → (o = .success → (r.session k).isAuthenticated = false) →
        Spared r r' k) ∧
      (o = .success → r'.findName a.username.text = some a.slot) ∧
      (o ≠ .success → (r'.session a.slot).identity = (r.session a.slot).identity ∧
        r'.directory = r.directory) := by
  intro r' o
  set v := Service.ofStore answer token lifetime
  have hd : v.Within Deed := Service.ofStore_within fun _ _ hd => hd
  have h : Orderly r := (Orderly.start ..).of_moves hm
  have h' : Orderly r' := h.of_deeds (handle_deeds hd a.slot a.id packet r)
  have hr' : r' = r.attempt v a := by
    change r.handle v a.slot a.id packet = _
    rw [handle, hp]
    rfl
  have hsend : PacketKind.maxWireLength ≤ (r.session a.slot).limits.sendSize := by
    rw [limits_of_moves hm, session_start]
    exact hsize
  have hdecided : Decided answer r a.slot a.id a.username.text o (r.verdict v a) :=
    verdict_decided answer token lifetime hid hlive
  have ho : (r.verdict v a).1 = o := hdecided.outcome_eq
  have ht := traffic_attempt v r a
  rw [← hr'] at ht
  have hname : (r'.session a.slot).nameOf a.id = ((r.verdict v a).2.session a.slot).nameOf a.id :=
    Session.nameOf_congr (ht.identity a.slot) a.id
  refine ⟨?_, ⟨?_, ?_⟩, ?_, ?_, ?_, ?_⟩
  · rw [hr', outgoing_attempt_self hd h, replied, ho]
    have hwired := (h.of_deeds (verdict_deeds hd r a)).wired
    exact hdecided.outgoing_reply hwired hw hid hlive hroom hsend _
  · rintro ⟨hbefore, hafter⟩
    by_contra hrefused
    obtain ⟨s, n, he, -⟩ := hdecided.eq_of_ne_success hrefused
    rw [hname, he] at hafter
    cases hbefore.symm.trans hafter
  · intro hyes
    rw [hname]
    exact hdecided.nameOf_of_success hyes
  · intro k hne hyes hin
    rw [hr']
    exact offered_attempt hd h hne (hdecided.spared hne) (ho.trans hyes) hin
  · intro k hne hquiet
    rw [hr']
    exact spared_attempt hd h hne (hdecided.spared hne) (ho ▸ hquiet)
  · intro hyes
    exact h'.consistent.findName_of_nameOf (hname.trans (hdecided.nameOf_of_success hyes).2)
  · intro hrefused
    obtain ⟨s, n, he, -⟩ := hdecided.eq_of_ne_success hrefused
    have hidentity := ht.identity a.slot
    have hdirectory := ht.directory
    rw [he] at hidentity hdirectory
    exact ⟨hidentity, hdirectory⟩

/-- Bob asks to be logged in where ann is: of a store that answers, and of one that marks nobody
online. -/
theorem login_answered_bob :
    let login (name : String) := Packet.loginRequest .blank .blank (.truncated name)
    let steps : List Engine.Step := [.accept (.ofPeer none), .accept (.ofPeer none),
      .complete (.received 0 1 (.ok (login "ann").encode))]
    let e := Engine.start 2 ⟨1024, 1024, maxPacketSize, 4⟩ (Store.empty.addUser "" "")
    let r := (e.run (.direct (fun _ => "t") 60) steps).relay
    let bob : Attempt := ⟨1, 2, .blank, .blank, .truncated "bob"⟩
    let answering (c : StoreCall) (s : Store) := s.answer c
    let failing : (c : StoreCall) → Store → Except StoreError c.Answer × Store
      | .setPresence .., s => (.error (.unavailable "down"), s)
      | c, s => s.answer c
    let handled (answer : (c : StoreCall) → Store → Except StoreError c.Answer × Store) :=
      r.handle (.ofStore answer (fun _ => "t") 60) 1 2 (login "bob").encode
    (handled answering).outgoing 1 =
        r.outgoing 1 ++ [(Packet.loginResponse .success).encode] ∧
      (handled answering).findName bob.username.text = some 1 ∧
      Offered bob.notice r (handled answering) 0 ∧
      (handled failing).outgoing 1 =
        r.outgoing 1 ++ [(Packet.loginResponse .serverError).encode] ∧
      Spared r (handled failing) 0 := by
  intro login steps e r bob answering failing handled
  have hm : ReflTransGen Move e.relay r :=
    Engine.moves_run (direct_within _ _) (.start ..)
      (Engine.freshIds_of_length (direct_within _ _) (by decide))
  have hready : ((r.session 1).id = 2 ∧ (r.session 1).isLive = true ∧ r.Room 1 ∧ r.Willing 1) ∧
      (r.session 0).isAuthenticated = true ∧
      firstOf (reasons answering (fun _ => "t") 60 r bob) = .success ∧
      firstOf (reasons failing (fun _ => "t") 60 r bob) = .serverError := by
    decide +kernel
  obtain ⟨⟨hid, hlive, hroom, hw⟩, hann, hyes, hno⟩ := hready
  have hall (answer : (c : StoreCall) → Store → Except StoreError c.Answer × Store) :=
    login_answered answer (fun _ => "t") 60 hm bob hid hlive hroom hw (by decide)
      (Packet.decode_encode (login "bob"))
  have hne : bob.slot ≠ 0 := by decide
  obtain ⟨hsaid, -, htold, -, hfound, -⟩ := hall answering
  obtain ⟨hsaid', -, -, hspared, -, -⟩ := hall failing
  rw [hyes] at hsaid htold hfound
  rw [hno] at hsaid' hspared
  exact ⟨hsaid, hfound rfl, htold 0 hne rfl hann, hsaid', hspared 0 hne nofun⟩

end ChatRelay.Relay
