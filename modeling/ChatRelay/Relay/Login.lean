import ChatRelay.Relay.Basic
import ChatRelay.Wire.Packet

/-! # Logging in

A login asks the store for the account, draws a token, marks the user online and enters the session
into the directory. What was done before a step that fails is undone.
-/

namespace ChatRelay.Relay

variable {S : Type}

def reply (r : Relay S) (slot : Nat) (id : SessionId) (p : Packet) : Relay S :=
  (r.send slot (some id) p.encode).2

/-- Asks the store to forget a token; there is nothing to be done if it does not. -/
def dropToken (v : Service S) (r : Relay S) (token : String) : Relay S :=
  (v.ask (.deleteToken token) r).2

/-- The presence of a name that another session took first goes back to that session. -/
def restorePresence (v : Service S) (r : Relay S) (name : String) : Relay S :=
  match r.findName name with
  | none => r
  | some winner => (v.ask (.setPresence name (r.session winner).id) r).2

def enter (v : Service S) (slot : Nat) (id : SessionId) (name token : String) (r : Relay S) :
    Outcome × Relay S :=
  match v.ask (.setPresence name id) r with
  | (.error _, r) => (.serverError, r.dropToken v token)
  | (.ok (), r) =>
    match r.register slot id name token with
    | (.ok (), r) => (.success, r)
    | (.error (.nameTaken _), r) =>
      (.alreadyLoggedIn, (r.dropToken v token).restorePresence v name)
    | (.error (.invalidSession _), r) =>
      (.serverError, (v.ask (.clearPresence name) (r.dropToken v token)).2)

def grant (v : Service S) (slot : Nat) (id : SessionId) (user name : String) (r : Relay S) :
    Outcome × Relay S :=
  if (r.findName name).isSome then (.alreadyLoggedIn, r)
  else
    let token := v.token r.drawn
    match v.ask (.createToken token user v.lifetime) { r with drawn := r.drawn + 1 } with
    | (.error _, r) => (.serverError, r)
    | (.ok (), r) => r.enter v slot id name token

def login (v : Service S) (slot : Nat) (id : SessionId) (user password name : String)
    (r : Relay S) : Outcome × Relay S :=
  if ((r.session slot).nameOf id).isSome then (.alreadyLoggedIn, r)
  else if name = "" then (.invalidPacket, r)
  else
    match v.ask (.passwordHash user) r with
    | (.error _, r) => (.serverError, r)
    | (.ok none, r) => (.userNotFound, r)
    | (.ok (some hash), r) =>
      if hashPassword password = hash then r.grant v slot id user name else (.authFailed, r)

/-- Answers a login request; the others are told of one that succeeds. -/
def answerLogin (v : Service S) (slot : Nat) (id : SessionId)
    (userId password username : NameField) (r : Relay S) : Relay S :=
  let (outcome, r) := r.login v slot id userId.text password.text username.text
  let r := r.reply slot id (.loginResponse outcome)
  if outcome = .success then (r.broadcast (some slot) (Packet.userJoinNotify username).encode).2
  else r

end ChatRelay.Relay
