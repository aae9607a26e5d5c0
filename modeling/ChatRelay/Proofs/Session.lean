import ChatRelay.Session
import Mathlib.Tactic.Common

/-! # Sessions and their connections

What a session knows of its connection changes when the connection begins, logs in, is torn down or
is forgotten. Traffic changes nothing but the buffers.
-/

namespace ChatRelay

/-- What a session knows of its connection. -/
structure Identity where
  id : SessionId
  phase : Phase
  username : String
  token : Option String
  link : Option LinkId
deriving DecidableEq

namespace Session

variable {s : Session} {ls : Links} {l : LinkId}

def identity (s : Session) : Identity :=
  ⟨s.id, s.phase, s.username, s.token, s.link⟩

theorem isLive_iff : s.isLive = true ↔ s.link.isSome ∧ s.phase ≠ .disconnecting := by
  simp [isLive]

theorem isLive_congr {s' : Session} (h : s'.identity = s.identity) : s'.isLive = s.isLive :=
  congrArg (fun i : Identity => i.link.isSome && i.phase ≠ .disconnecting) h

theorem isAuthenticated_iff :
    s.isAuthenticated = true ↔ s.link.isSome ∧ s.phase = .authenticated := by
  simp [isAuthenticated]

theorem isLive_of_isAuthenticated (h : s.isAuthenticated = true) : s.isLive = true := by
  obtain ⟨hl, hp⟩ := isAuthenticated_iff.1 h
  exact isLive_iff.2 ⟨hl, by simp [hp]⟩

theorem nameOf_eq_some_iff {id : SessionId} {name : String} :
    s.nameOf id = some name ↔ s.id = id ∧ s.phase = .authenticated ∧ s.username = name := by
  simp [nameOf, loggedInAs]

theorem nameOf_congr {s' : Session} (h : s'.identity = s.identity) (id : SessionId) :
    s'.nameOf id = s.nameOf id :=
  congrArg (fun i : Identity =>
    if i.id = id then (if i.phase = .authenticated then some i.username else none) else none) h

theorem isAuthenticated_congr {s' : Session} (h : s'.identity = s.identity) :
    s'.isAuthenticated = s.isAuthenticated :=
  congrArg (fun i : Identity => i.link.isSome && decide (i.phase = .authenticated)) h

theorem obstacle?_eq_none_iff {id : SessionId} :
    s.obstacle? id = none ↔ s.id = id ∧ s.link.isSome := by
  unfold obstacle?
  split
  · simp_all
  · split <;> simp_all [Option.isNone_iff_eq_none, Option.isSome_iff_ne_none]

/-! ## Traffic -/

theorem send_eq (s : Session) (target : Option SessionId) (packet : Bytes) (ls : Links) :
    ∃ q b, (s.send target packet ls).2.1 = { s with queue := q, sending := b } := by
  unfold send
  split
  · exact ⟨_, _, rfl⟩
  · split
    · dsimp only
      split <;> exact ⟨_, _, rfl⟩
    · exact ⟨_, _, rfl⟩

theorem sent_eq (s : Session) (id : SessionId) (ls : Links) :
    ∃ q b, (s.sent id ls).1 = { s with queue := q, sending := b } := by
  unfold sent
  split
  · exact ⟨_, _, rfl⟩
  · dsimp only
    split <;> exact ⟨_, _, rfl⟩

theorem receive_eq (s : Session) (id : SessionId) (bs : Bytes) :
    ∃ ring, s.receive id bs = { s with inbound := ring } := by
  unfold receive
  split <;> exact ⟨_, rfl⟩

@[simp] theorem identity_send (target : Option SessionId) (packet : Bytes) :
    (s.send target packet ls).2.1.identity = s.identity := by
  obtain ⟨q, b, h⟩ := s.send_eq target packet ls
  rw [h]; rfl

@[simp] theorem identity_sent (id : SessionId) : (s.sent id ls).1.identity = s.identity := by
  obtain ⟨q, b, h⟩ := s.sent_eq id ls
  rw [h]; rfl

@[simp] theorem identity_receive (id : SessionId) (bs : Bytes) :
    (s.receive id bs).identity = s.identity := by
  obtain ⟨ring, h⟩ := s.receive_eq id bs
  rw [h]; rfl

/-! ## Sessions without a connection -/

theorem send_of_link_none (h : s.link = none) (target : Option SessionId) (packet : Bytes)
    (ls : Links) : s.send target packet ls = (false, s, ls) := by
  unfold send
  rw [h]

theorem sent_idle (limits : Limits) (id : SessionId) (ls : Links) :
    (idle limits).sent id ls = (idle limits, ls) := by
  unfold sent
  split <;> rfl

/-! ## Beginnings and ends -/

@[simp] theorem length_hangUp (s : Session) (ls : Links) : (s.hangUp ls).length = ls.length := by
  unfold hangUp
  split
  · exact List.length_modify ..
  · rfl

theorem hangUp_ne (h : s.link ≠ some l) (ls : Links) : (s.hangUp ls)[l]? = ls[l]? := by
  unfold hangUp
  split
  · next j hj =>
    have hne : j ≠ l := by
      rintro rfl
      exact h hj
    exact List.getElem?_modify_ne _ ls hne
  · rfl

theorem depart_eq_none_iff {id : SessionId} :
    s.depart id = none ↔ ¬ (s.id = id ∧ s.isLive = true) := by
  unfold depart
  split <;> simp_all

theorem depart_eq_some {id : SessionId} (h : s.id = id ∧ s.isLive = true) :
    s.depart id =
      some (⟨id, s.loggedInAs, s.token⟩, { s with phase := .disconnecting, token := none }) :=
  if_pos h

theorem authenticate_eq_some_iff {s' : Session} {id : SessionId} {name token : String} :
    s.authenticate id name token = some s' ↔
      (s.id = id ∧ s.link.isSome ∧ s.phase = .connected) ∧
        s' = { s with phase := .authenticated, username := name, token := some token } := by
  unfold authenticate
  split
  · next h => simp only [h, true_and, Option.some.injEq, and_self]; exact eq_comm
  · next h => simp only [h, false_and, reduceCtorEq]

end Session

end ChatRelay
