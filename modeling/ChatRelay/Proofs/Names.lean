import ChatRelay.Proofs.Packet
import ChatRelay.Proofs.Relay.Teardown
import ChatRelay.Proofs.Relay.Tenure
import ChatRelay.Proofs.Runs

/-! # Names

A user is registered under the text of the field that it logs in with, and announced with that field
as it is. What it says later, and that it leaves, carries the name cut to a field that ends in a NUL.
So others know a user by one name if and only if the name leaves room for the NUL.
-/

namespace ChatRelay

open Relation (ReflTransGen)

def displayed (name : String) : String :=
  (Field.truncated name : NameField).text

theorem displayed_text_iff {width : Nat} (f : Field width) :
    displayed f.text = f.text ↔ (Utf8.encode f.text).length ≤ maxNameLength :=
  Field.text_truncated_eq_iff f.nul_notMem_text

namespace Packet

/-- Whom a reader takes a packet to come from, or to be about. -/
def subject? (packet : Bytes) : Option String :=
  match decode packet with
  | .ok (.broadcastResponse user _) => some user.text
  | .ok (.whisperResponse .success sender _) => some sender.text
  | .ok (.userJoinNotify user) => some user.text
  | .ok (.userLeaveNotify user) => some user.text
  | _ => none

theorem subject?_relayed {sender receiver : String} {packet p : Bytes}
    (h : p ∈ relayed? sender receiver packet) : subject? p = some (displayed sender) := by
  unfold relayed? at h
  split at h
  · obtain rfl := Option.some.inj h
    simp only [subject?, decode_encode]
    rfl
  · split at h
    · obtain rfl := Option.some.inj h
      simp only [subject?, decode_encode]
      rfl
    · cases h
  · cases h

theorem subject?_leave (name : String) :
    subject? (userLeaveNotify (.truncated name)).encode = some (displayed name) := by
  simp only [subject?, decode_encode]
  rfl

theorem subject?_notice (a : Attempt) : subject? a.notice = some a.username.text := by
  simp only [subject?, Attempt.notice, decode_encode]

end Packet

namespace Relay

variable {token : Nat → String} {lifetime : Nat} {r r' : Relay Store} {slot k : Nat}
  {id : SessionId} {name receiver : String} {a : Attempt}

/-- What connection `id` says is relayed under the name `shown`, and so is the news that it has
left. -/
structure ShownAs (v : Service Store) (r : Relay Store) (slot : Nat) (id : SessionId)
    (name shown : String) : Prop where
  speaks {k : Nat} {receiver : String} (packet : Bytes) : slot ≠ k → r.Hears k receiver →
    (r.handle v slot id packet).Room k →
    (r.handle v slot id packet).outgoing k =
      r.outgoing k ++ (Packet.relayed? name receiver packet).toList ∧
    ∀ p ∈ Packet.relayed? name receiver packet, Packet.subject? p = some shown
  leaves {k : Nat} {receiver : String} : slot ≠ k → r.Hears k receiver →
    (r.disconnect v slot id true).Room k →
    ∃ p, (r.disconnect v slot id true).outgoing k = r.outgoing k ++ [p] ∧
      Packet.subject? p = some shown

/-- Who logs in is registered under the text of the field. -/
theorem nameOf_attempt (hs : (r.verdict (.direct token lifetime) a).1 = .success) :
    ((r.attempt (.direct token lifetime) a).session a.slot).nameOf a.id =
      some a.username.text := by
  have hi := (traffic_attempt (.direct token lifetime) r a).identity a.slot
  have hv := verdict_settles token lifetime r a
  have hname : ((r.verdict (.direct token lifetime) a).2.session a.slot).nameOf a.id =
      some a.username.text := by
    generalize r.verdict (.direct token lifetime) a = o at hs hv
    cases hv with
    | refused hne => exact absurd hs hne
    | entered r' _ _ _ _ he =>
      have hself := session_register_of_ok he a.slot
      rwa [if_pos rfl] at hself
    | withdrawn => cases hs
  exact (Session.nameOf_congr hi _).trans hname

theorem outgoing_disconnect (h : Orderly r) (hx : (r.session slot).nameOf id = some name)
    (hne : slot ≠ k) (hr : r.Hears k receiver) (announced : Bool)
    (hroom : (r.disconnect (.direct token lifetime) slot id announced).Room k) :
    (r.disconnect (.direct token lifetime) slot id announced).outgoing k = r.outgoing k ++
      if announced then [(Packet.userLeaveNotify (.truncated name)).encode] else [] := by
  have h₁ : Orderly (r.depart slot id).2 := (Move.act (.depart r id)).orderly h
  have hforget := forget_chain (direct_within token lifetime) name (r.session slot).token
    (r.depart slot id).2
  have h₂ := h₁.of_deeds hforget
  have h₃ := (Move.act (@Act.release _ slot _)).orderly h₂
  obtain ⟨hr₁, hout₁⟩ := hr.depart hne id
  obtain ⟨hr₃, hout₃⟩ := (hr₁.of_deeds h₁ hforget).release h₂.wired hne
  rw [disconnect_eq _ h.consistent hx] at hroom ⊢
  rw [hr₃.outgoing_farewell h₃ announced hroom, hout₃, forget_direct]
  exact congrArg (· ++ _) hout₁

theorem shownAs (h : Orderly r) (hx : (r.session slot).nameOf id = some name) :
    r.ShownAs (.direct token lifetime) slot id name (displayed name) where
  speaks packet hne hr hroom :=
    ⟨outgoing_handle h hne hx hr packet hroom, fun _ hp => Packet.subject?_relayed hp⟩
  leaves hne hr hroom :=
    ⟨_, outgoing_disconnect h hx hne hr true hroom, Packet.subject?_leave name⟩

theorem findName_displayed_iff (h : Consistent r) (hx : (r.session slot).nameOf id = some name) :
    r.findName (displayed name) = some slot ↔ displayed name = name := by
  constructor
  · intro hf
    obtain ⟨-, -, hu⟩ := Session.nameOf_eq_some_iff.1 hx
    exact (h.findName_eq_some_iff.1 hf).2.symm.trans hu
  · intro hs
    rw [hs]
    exact h.findName_of_nameOf hx

/-- A login that succeeds is announced to whoever hears under the name that it is registered under.
From then on until its teardown the session is registered under that name, and shown under what is
left of it in a field that ends in a NUL. The two are the same, and lead to the user, if and only if
the name is no longer than that; users whose names are no longer are shown under different names. -/
theorem name_shown_iff_fits {capacity : Nat} {limits : Limits} {store : Store}
    (token : Nat → String) (lifetime : Nat)
    (hm : ReflTransGen Move (.start capacity limits store) r) (a : Attempt)
    (hs : (r.verdict (.direct token lifetime) a).1 = .success) :
    let v := Service.direct token lifetime
    let name := a.username.text
    (∀ k receiver, r.Hears k receiver → (r.attempt v a).Room k →
      (r.attempt v a).outgoing k = r.outgoing k ++ [a.notice] ∧
        Packet.subject? a.notice = some name) ∧
    ∀ r', ReflTransGen (Keeps a.slot) (r.attempt v a) r' →
      (r'.session a.slot).nameOf a.id = some name ∧ r'.findName name = some a.slot ∧
      r'.ShownAs v a.slot a.id name (displayed name) ∧
      (displayed name = name ↔ (Utf8.encode name).length ≤ maxNameLength) ∧
      (r'.findName (displayed name) = some a.slot ↔
        (Utf8.encode name).length ≤ maxNameLength) ∧
      ∀ k (other : NameField), a.slot ≠ k → r'.findName other.text = some k →
        (Utf8.encode name).length ≤ maxNameLength →
        (Utf8.encode other.text).length ≤ maxNameLength → displayed name ≠ displayed other.text := by
  intro v name
  have h : Orderly r := (Orderly.start ..).of_moves hm
  have hd := attempt_deeds (direct_within token lifetime) r a
  constructor
  · intro k receiver hr hroom
    exact ⟨outgoing_attempt h hr hs hroom, Packet.subject?_notice a⟩
  · intro r' hk
    have h₁ := h.of_deeds hd
    have h' : Orderly r' := h₁.of_moves (moves_of_keeps hk)
    have hx := nameOf_of_keeps h₁ hk (nameOf_attempt hs)
    have hfound := h'.consistent.findName_of_nameOf hx
    have hfits := displayed_text_iff a.username
    refine ⟨hx, hfound, shownAs h' hx, hfits, ?_, ?_⟩
    · exact (findName_displayed_iff h'.consistent hx).trans hfits
    · intro k other hne hother hname hlength heq
      have hsame : name = other.text :=
        (hfits.2 hname).symm.trans (heq.trans ((displayed_text_iff other).2 hlength))
      rw [← hsame, hfound] at hother
      exact hne (Option.some.inj hother)

def letters (n : Nat) : String :=
  String.ofList (List.replicate n 'a')

/-- Three connections, of which the second goes by the longest name that leaves room for a NUL. -/
def namesakes : Engine Store :=
  let login (name : String) := (Packet.loginRequest .blank .blank (.truncated name)).encode
  (Engine.start 3 ⟨128, 128, maxPacketSize, 8⟩ (Store.empty.addUser "" "")).run
    (.direct letters 60)
    [.accept (.ofPeer none), .accept (.ofPeer none), .accept (.ofPeer none),
      .complete (.received 1 2 (.ok (login (letters maxNameLength)))),
      .complete (.received 2 3 (.ok (login "cat")))]

theorem namesakes_reachable :
    ReflTransGen Move (.start 3 ⟨128, 128, maxPacketSize, 8⟩ (Store.empty.addUser "" ""))
      namesakes.relay :=
  Engine.moves_run_start (direct_within _ _) (by decide)

theorem name_shown_iff_fits_bob :
    let v := Service.direct letters 60
    let bob : Attempt := ⟨0, 1, .blank, .blank, .truncated "bob"⟩
    let r := namesakes.relay.attempt v bob
    r.outgoing 2 = namesakes.relay.outgoing 2 ++ [bob.notice] ∧
      r.ShownAs v 0 1 bob.username.text (displayed bob.username.text) ∧
      r.findName (displayed bob.username.text) = some 0 := by
  intro v bob r
  have hrun : (namesakes.relay.verdict v bob).1 = .success ∧ namesakes.relay.Hears 2 "cat" ∧
      r.Room 2 ∧ (Utf8.encode bob.username.text).length ≤ maxNameLength := by
    decide +kernel
  obtain ⟨hs, hr, hroom, hfits⟩ := hrun
  have hall := name_shown_iff_fits letters 60 namesakes_reachable bob hs
  obtain ⟨-, -, hshown, -, hfound, -⟩ := hall.2 r .refl
  exact ⟨(hall.1 2 "cat" hr hroom).1, hshown, hfound.2 hfits⟩

/-- A field without a NUL holds a name that is one octet longer. It is announced as it is, and what
its user says and that it leaves is shown under the name of somebody else. -/
theorem name_shown_of_unterminated :
    let v := Service.direct letters 60
    let a : Attempt := ⟨0, 1, .blank, .blank, ⟨List.replicate 33 97, rfl⟩⟩
    let r := namesakes.relay.attempt v a
    let hello := (Packet.broadcastRequest (.truncated "hello")).encode
    let shown (r' : Relay Store) := ((r'.outgoing 2).drop (r.outgoing 2).length).map Packet.subject?
    ReflTransGen Move (.start 3 ⟨128, 128, maxPacketSize, 8⟩ (Store.empty.addUser "" ""))
      namesakes.relay ∧
      (namesakes.relay.verdict v a).1 = .success ∧
      r.findName (letters 33) = some 0 ∧ r.findName (letters 32) = some 1 ∧
      r.outgoing 2 = namesakes.relay.outgoing 2 ++ [a.notice] ∧
      Packet.subject? a.notice = some (letters 33) ∧
      shown (r.handle v 0 1 hello) = [some (letters 32)] ∧
      shown (r.handle v 1 2 hello) = [some (letters 32)] ∧
      shown (r.disconnect v 0 1 true) = [some (letters 32)] := by
  refine ⟨namesakes_reachable, ?_⟩
  decide +kernel

end Relay

end ChatRelay
