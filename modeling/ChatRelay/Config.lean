import ChatRelay.Address
import ChatRelay.Session

/-! # Configuration

The settings of a server and what makes them acceptable.
-/

namespace ChatRelay

structure Config where
  bind : SocketAddress
  users : String
  maxSessions : UInt64
  workers : UInt64
  ioThreads : UInt64
  recvBufferSize : UInt64
  readChunk : UInt64
  sendSlotSize : UInt64
  maxSendBacklog : UInt64
  completionQueueDepth : UInt64
  tokenTtlSecs : UInt64
  idleTimeoutSecs : UInt64
deriving DecidableEq, Repr

inductive ConfigError where
  | invalidValue (field reason : String)
  | missingRequired (what : String)
deriving DecidableEq, Repr

def ConfigError.message : ConfigError → String
  | invalidValue field reason => s!"Invalid {field}: {reason}"
  | missingRequired what => s!"Missing required configuration: {what}"

namespace Config

def simple (bind : SocketAddress) (users : String) : Config where
  bind := bind
  users := users
  maxSessions := 100
  workers := 4
  ioThreads := 1
  recvBufferSize := UInt64.ofNat Limits.standard.receiveBuffer
  readChunk := UInt64.ofNat Limits.standard.readChunk
  sendSlotSize := UInt64.ofNat Limits.standard.sendSize
  maxSendBacklog := UInt64.ofNat Limits.standard.sendBacklog
  completionQueueDepth := 4096
  tokenTtlSecs := 1800
  idleTimeoutSecs := 0

def limits (c : Config) : Limits :=
  ⟨c.recvBufferSize.toNat, c.readChunk.toNat, c.sendSlotSize.toNat, c.maxSendBacklog.toNat⟩

def tokenLifetime (c : Config) : Nat :=
  c.tokenTtlSecs.toNat

/-- After how many seconds a silent session is closed, if at all. -/
def idleTimeout (c : Config) : Option Nat :=
  if c.idleTimeoutSecs = 0 then none else some c.idleTimeoutSecs.toNat

def positive (c : Config) : List (String × UInt64) :=
  [("max_sessions", c.maxSessions), ("workers", c.workers), ("io_threads", c.ioThreads),
    ("read_chunk", c.readChunk), ("max_send_backlog", c.maxSendBacklog),
    ("completion_queue_depth", c.completionQueueDepth)]

def maxSessionCount : Nat := 4294967295

def minReceiveBuffer : Nat := 2 * maxPacketSize

/-- What is wrong with the settings, given which paths exist; of several faults the first. -/
def validate (pathExists : String → Bool) (c : Config) : Except ConfigError Unit :=
  if !pathExists c.users then .error (.missingRequired s!"users file not found: {c.users}")
  else
    match c.positive.find? (·.2 = 0) with
    | some (field, _) => .error (.invalidValue field "must be greater than zero")
    | none =>
      if maxSessionCount < c.maxSessions.toNat then
        .error (.invalidValue "max_sessions" s!"must not exceed {maxSessionCount}")
      else if c.recvBufferSize.toNat < minReceiveBuffer then
        .error (.invalidValue "recv_buffer_size" s!"must be at least {minReceiveBuffer} bytes")
      else if c.sendSlotSize.toNat < PacketKind.maxWireLength then
        .error (.invalidValue "send_slot_size"
          s!"must be at least {PacketKind.maxWireLength} bytes")
      else .ok ()

end Config

end ChatRelay
