import ChatRelay.Account.Document
import ChatRelay.Table

/-! # The account store

Accounts, session tokens with the time at which they expire, and the session that each online user
is on. Time is counted in whole seconds by a clock that holds signed 64-bit numbers.
-/

namespace ChatRelay

/-- The number of a connection; 0 belongs to none. -/
abbrev SessionId := UInt32

/-- The first moment that the clock cannot hold. -/
def clockEnd : Nat := 9223372036854775808

structure TokenGrant where
  userId : String
  expiresAt : Nat
deriving DecidableEq, Repr

structure Store where
  accounts : Table String String
  tokens : Table String TokenGrant
  presence : Table String SessionId
  now : Nat
  /-- Whether a token was asked for that would have outlived the clock; the task that asked for it
  is lost, and what it does afterwards means nothing. -/
  overrun : Bool

namespace Store

def empty : Store :=
  ⟨.empty, .empty, .empty, 0, false⟩

instance : Inhabited Store :=
  ⟨empty⟩

def add (s : Store) (a : Account) : Except StoreError Store :=
  match a.fault? with
  | some f => .error (.ofFault a f)
  | none =>
    if s.accounts.contains a.userId then .error (.duplicateUser a.userId)
    else .ok { s with accounts := s.accounts.insert a.userId a.passwordHash }

def addAll (s : Store) : List Account → Except StoreError Store
  | [] => .ok s
  | a :: as =>
    match s.add a with
    | .ok s' => s'.addAll as
    | .error e => .error e

def ofAccounts (as : List Account) : Except StoreError Store :=
  empty.addAll as

def ofDocument (bs : Bytes) : Except StoreError Store :=
  match Account.parseList? bs with
  | none => .error .malformed
  | some [] => .error .noAccounts
  | some as => ofAccounts as

def wait (s : Store) (seconds : Nat) : Store :=
  { s with now := s.now + seconds }

def addUser (s : Store) (userId password : String) : Store :=
  { s with accounts := s.accounts.insert userId (hashPassword password) }

def accountCount (s : Store) : Nat :=
  s.accounts.size

def passwordHash? (s : Store) (userId : String) : Option String :=
  s.accounts.get? userId

/-- Nothing, if the clock cannot hold the time at which the token would expire. -/
def createToken? (s : Store) (token userId : String) (lifetime : Nat) : Option Store :=
  if s.now + lifetime < clockEnd then
    some { s with tokens := s.tokens.insert token ⟨userId, s.now + lifetime⟩ }
  else none

/-- Also says whether the token was there, expired or not. -/
def deleteToken (s : Store) (token : String) : Bool × Store :=
  (s.tokens.contains token, { s with tokens := s.tokens.erase token })

def isLive (s : Store) (g : TokenGrant) : Bool :=
  s.now < g.expiresAt

def liveTokens (s : Store) : Nat :=
  (s.tokens.filter fun _ g => s.isLive g).size

def purge (s : Store) : Nat × Store :=
  let live := s.tokens.filter fun _ g => s.isLive g
  (s.tokens.size - live.size, { s with tokens := live })

def presence? (s : Store) (username : String) : Option SessionId :=
  s.presence.get? username

def setPresence (s : Store) (username : String) (id : SessionId) : Store :=
  { s with presence := s.presence.insert username id }

def clearPresence (s : Store) (username : String) : Bool × Store :=
  (s.presence.contains username, { s with presence := s.presence.erase username })

end Store

inductive StoreCall where
  | passwordHash (userId : String)
  | createToken (token userId : String) (lifetime : Nat)
  | deleteToken (token : String)
  | setPresence (username : String) (id : SessionId)
  | clearPresence (username : String)
deriving DecidableEq, Repr

@[reducible] def StoreCall.Answer : StoreCall → Type
  | passwordHash _ => Option String
  | createToken .. => Unit
  | deleteToken _ => Bool
  | setPresence .. => Unit
  | clearPresence _ => Bool

def Store.answer (s : Store) : (c : StoreCall) → Except StoreError c.Answer × Store
  | .passwordHash userId => (.ok (s.passwordHash? userId), s)
  | .createToken token userId lifetime =>
    match s.createToken? token userId lifetime with
    | some s' => (.ok (), s')
    | none => (.error (.unavailable "token lifetime out of range"), { s with overrun := true })
  | .deleteToken token => let (b, s') := s.deleteToken token; (.ok b, s')
  | .setPresence username id => (.ok (), s.setPresence username id)
  | .clearPresence username => let (b, s') := s.clearPresence username; (.ok b, s')

end ChatRelay
