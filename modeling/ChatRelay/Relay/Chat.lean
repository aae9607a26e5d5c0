import ChatRelay.Relay.Login

/-! # Chat

Broadcasts go to everybody else who is logged in, whispers to the one they name. Only a connection
that is logged in is listened to.
-/

namespace ChatRelay.Relay

variable {S : Type}

def relayBroadcast (slot : Nat) (id : SessionId) (message : MessageField) (r : Relay S) :
    Relay S :=
  match (r.session slot).nameOf id with
  | none => r
  | some name =>
    (r.broadcast (some slot) (Packet.broadcastResponse (.truncated name) message).encode).2

/-- A whisper to nobody is reported to its author. -/
def relayWhisper (slot : Nat) (id : SessionId) (receiver : NameField) (message : MessageField)
    (r : Relay S) : Relay S :=
  match (r.session slot).nameOf id with
  | none => r
  | some name =>
    match r.sendToName receiver.text
        (Packet.whisperResponse .success (.truncated name) message).encode with
    | (some _, r) => r
    | (none, r) =>
      r.reply slot id
        (.whisperResponse .userNotFound .blank (.truncated s!"User '{receiver.text}' not found"))

/-- Handles one packet of connection `id`; what is no request is ignored. -/
def handle (v : Service S) (slot : Nat) (id : SessionId) (packet : Bytes) (r : Relay S) :
    Relay S :=
  match Packet.decode packet with
  | .ok (.loginRequest userId password username) => r.answerLogin v slot id userId password username
  | .ok (.broadcastRequest message) => r.relayBroadcast slot id message
  | .ok (.whisperRequest receiver message) => r.relayWhisper slot id receiver message
  | _ => r

end ChatRelay.Relay
