import ChatRelay.Wire.Header

/-! # Packets

The eight packets of the protocol, their octets, and reading them back. Reading checks the header
against the kind's registered size before it looks at the body.
-/

namespace ChatRelay

inductive Packet where
  | loginRequest (userId password username : NameField)
  | loginResponse (result : Outcome)
  | broadcastRequest (message : MessageField)
  | broadcastResponse (user : NameField) (message : MessageField)
  | whisperRequest (receiver : NameField) (message : MessageField)
  | whisperResponse (result : Outcome) (sender : NameField) (message : MessageField)
  | userJoinNotify (user : NameField)
  | userLeaveNotify (user : NameField)
deriving DecidableEq

inductive DecodeError where
  | truncated (needed available : Nat)
  | unknownKind (code : UInt16)
  | sizeMismatch (kind : PacketKind) (expected actual : Nat)
  | unknownOutcome (code : UInt16)
deriving DecidableEq, Repr

def DecodeError.message : DecodeError → String
  | .truncated needed available => s!"Truncated packet: need {needed} bytes, have {available}"
  | .unknownKind code => s!"Unknown packet type: {code.toNat}"
  | .sizeMismatch kind expected actual =>
    s!"Size mismatch for {kind.name}: expected {expected} bytes, got {actual}"
  | .unknownOutcome code => s!"Unknown result code: {code.toNat}"

namespace Packet

def kind : Packet → PacketKind
  | loginRequest .. => .loginRequest
  | loginResponse .. => .loginResponse
  | broadcastRequest .. => .broadcastRequest
  | broadcastResponse .. => .broadcastResponse
  | whisperRequest .. => .whisperRequest
  | whisperResponse .. => .whisperResponse
  | userJoinNotify .. => .userJoinNotify
  | userLeaveNotify .. => .userLeaveNotify

def body : Packet → Bytes
  | loginRequest userId password username => userId.raw ++ password.raw ++ username.raw
  | loginResponse result => Word.toBytes result.code
  | broadcastRequest message => message.raw
  | broadcastResponse user message => user.raw ++ message.raw
  | whisperRequest receiver message => receiver.raw ++ message.raw
  | whisperResponse result sender message => Word.toBytes result.code ++ sender.raw ++ message.raw
  | userJoinNotify user => user.raw
  | userLeaveNotify user => user.raw

def encode (p : Packet) : Bytes :=
  (Header.ofKind p.kind).toBytes ++ p.body

def readOutcome : Bytes → Except DecodeError Outcome
  | a :: b :: _ =>
    match Outcome.ofCode? (Word.ofBytes a b) with
    | some o => .ok o
    | none => .error (.unknownOutcome (Word.ofBytes a b))
  | bs => .error (.truncated 2 bs.length)

def readBody (bs : Bytes) : PacketKind → Except DecodeError Packet
  | .loginRequest =>
    .ok (.loginRequest (Field.read bs) (Field.read (bs.drop (maxNameLength + 1)))
      (Field.read (bs.drop (2 * (maxNameLength + 1)))))
  | .loginResponse => do return .loginResponse (← readOutcome bs)
  | .broadcastRequest => .ok (.broadcastRequest (Field.read bs))
  | .broadcastResponse =>
    .ok (.broadcastResponse (Field.read bs) (Field.read (bs.drop (maxNameLength + 1))))
  | .whisperRequest =>
    .ok (.whisperRequest (Field.read bs) (Field.read (bs.drop (maxNameLength + 1))))
  | .whisperResponse => do
    return .whisperResponse (← readOutcome bs) (Field.read (bs.drop 2))
      (Field.read (bs.drop (2 + (maxNameLength + 1))))
  | .userJoinNotify => .ok (.userJoinNotify (Field.read bs))
  | .userLeaveNotify => .ok (.userLeaveNotify (Field.read bs))

/-- The packet at the start of `bs`; what follows it does not matter. -/
def decode (bs : Bytes) : Except DecodeError Packet :=
  match Header.ofBytes? bs with
  | none => .error (.truncated headerLength bs.length)
  | some h =>
    match h.packetKind? with
    | none => .error (.unknownKind h.kind)
    | some k =>
      if h.declaredSize ≠ k.wireLength then .error (.sizeMismatch k k.wireLength h.declaredSize)
      else if bs.length < k.wireLength then .error (.truncated k.wireLength bs.length)
      else readBody (bs.drop headerLength) k

def ofLogin (userId password username : String) : Except FieldError Packet := do
  return .loginRequest (← Field.ofText userId) (← Field.ofText password) (← Field.ofText username)

def ofBroadcast (message : String) : Except FieldError Packet := do
  return .broadcastRequest (← Field.ofText message)

def ofWhisper (receiver message : String) : Except FieldError Packet := do
  return .whisperRequest (← Field.ofText receiver) (← Field.ofText message)

theorem length_body (p : Packet) : p.body.length = p.kind.bodyLength := by
  cases p <;> simp [body, kind, PacketKind.bodyLength, Field.length_raw, maxNameLength,
    maxMessageLength]

theorem length_encode (p : Packet) : p.encode.length = p.kind.wireLength := by
  rw [encode, List.length_append, Header.length_toBytes, length_body, PacketKind.wireLength]

end Packet

end ChatRelay
