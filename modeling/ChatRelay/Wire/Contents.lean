import ChatRelay.Text.Quoted
import ChatRelay.Wire.Packet

/-! # Contents of packets

A packet as named values, and its one-line description.
-/

namespace ChatRelay.Packet

inductive Value where
  | outcome (o : Outcome)
  | text (raw : Bytes) (text : String)

def Value.ofField {width : Nat} (f : Field width) : Value :=
  .text f.raw f.text

def Value.describe : Value → String
  | .outcome o => o.name
  | .text _ s => Quoted.quote s

def contents : Packet → List (String × Value)
  | loginRequest userId password username =>
    [("user_id", .ofField userId), ("password", .ofField password),
      ("username", .ofField username)]
  | loginResponse result => [("result", .outcome result)]
  | broadcastRequest message => [("message", .ofField message)]
  | broadcastResponse user message => [("user", .ofField user), ("message", .ofField message)]
  | whisperRequest receiver message =>
    [("receiver", .ofField receiver), ("message", .ofField message)]
  | whisperResponse result sender message =>
    [("result", .outcome result), ("sender", .ofField sender), ("message", .ofField message)]
  | userJoinNotify user => [("user", .ofField user)]
  | userLeaveNotify user => [("user", .ofField user)]

def describe (p : Packet) : String :=
  let values := p.contents.map fun (name, v) => s!"{name}: " ++ v.describe
  s!"{p.kind.name}({p.kind.name} \x7b " ++ String.intercalate ", " values ++ " \x7d)"

end ChatRelay.Packet
