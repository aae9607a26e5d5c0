import ChatRelay.Wire.Field

/-! # Packet kinds and outcomes

The codes of the protocol. Every kind of packet has exactly one size on the wire.
-/

namespace ChatRelay

inductive PacketKind where
  | loginRequest
  | loginResponse
  | broadcastRequest
  | broadcastResponse
  | whisperRequest
  | whisperResponse
  | userJoinNotify
  | userLeaveNotify
deriving DecidableEq, Repr

def headerLength : Nat := 4

/-- The largest packet a peer may declare. -/
def maxPacketSize : Nat := 2048

namespace PacketKind

def all : List PacketKind :=
  [loginRequest, loginResponse, broadcastRequest, broadcastResponse, whisperRequest,
    whisperResponse, userJoinNotify, userLeaveNotify]

def code : PacketKind → UInt16
  | loginRequest => 2001
  | loginResponse => 2002
  | broadcastRequest => 3001
  | broadcastResponse => 3002
  | whisperRequest => 3005
  | whisperResponse => 3006
  | userJoinNotify => 5001
  | userLeaveNotify => 5002

def ofCode? (c : UInt16) : Option PacketKind :=
  all.find? (·.code = c)

def name : PacketKind → String
  | loginRequest => "LoginRequest"
  | loginResponse => "LoginResponse"
  | broadcastRequest => "BroadcastRequest"
  | broadcastResponse => "BroadcastResponse"
  | whisperRequest => "WhisperRequest"
  | whisperResponse => "WhisperResponse"
  | userJoinNotify => "UserJoinNotify"
  | userLeaveNotify => "UserLeaveNotify"

def ofName? (s : String) : Option PacketKind :=
  all.find? (·.name = s)

def bodyLength : PacketKind → Nat
  | loginRequest => 3 * (maxNameLength + 1)
  | loginResponse => 2
  | broadcastRequest => maxMessageLength + 1
  | broadcastResponse | whisperRequest => maxNameLength + 1 + (maxMessageLength + 1)
  | whisperResponse => 2 + (maxNameLength + 1) + (maxMessageLength + 1)
  | userJoinNotify | userLeaveNotify => maxNameLength + 1

/-- Octets of a packet of this kind, header included. -/
def wireLength (k : PacketKind) : Nat :=
  headerLength + k.bodyLength

def maxWireLength : Nat :=
  (all.map wireLength).foldl max 0

theorem ofCode?_code (k : PacketKind) : ofCode? k.code = some k := by
  cases k <;> decide

theorem code_eq_of_ofCode? {c : UInt16} {k : PacketKind} (h : ofCode? c = some k) : k.code = c := by
  simpa using List.find?_some h

end PacketKind

inductive Outcome where
  | success
  | invalidPacket
  | authFailed
  | alreadyLoggedIn
  | serverFull
  | userNotFound
  | permissionDenied
  | serverError
deriving DecidableEq, Repr

namespace Outcome

def all : List Outcome :=
  [success, invalidPacket, authFailed, alreadyLoggedIn, serverFull, userNotFound, permissionDenied,
    serverError]

def code : Outcome → UInt16
  | success => 0
  | invalidPacket => 1001
  | authFailed => 1002
  | alreadyLoggedIn => 1003
  | serverFull => 1004
  | userNotFound => 1005
  | permissionDenied => 1009
  | serverError => 9999

def ofCode? (c : UInt16) : Option Outcome :=
  all.find? (·.code = c)

def name : Outcome → String
  | success => "Success"
  | invalidPacket => "InvalidPacket"
  | authFailed => "AuthFailed"
  | alreadyLoggedIn => "AlreadyLoggedIn"
  | serverFull => "ServerFull"
  | userNotFound => "UserNotFound"
  | permissionDenied => "PermissionDenied"
  | serverError => "ServerError"

def label (o : Outcome) : String :=
  s!"{o.name}({o.code.toNat})"

def isSuccess (o : Outcome) : Bool :=
  o = success

theorem ofCode?_code (o : Outcome) : ofCode? o.code = some o := by
  cases o <;> decide

theorem code_eq_of_ofCode? {c : UInt16} {o : Outcome} (h : ofCode? c = some o) : o.code = c := by
  simpa using List.find?_some h

end Outcome

end ChatRelay
