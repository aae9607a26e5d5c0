import ChatRelay.Config
import ChatRelay.Host
import ChatRelay.Store

/-! # Servers

A server is its settings and the store that its users file fills.
-/

namespace ChatRelay

inductive ServerError where
  | bindFailed (address : SocketAddress) (cause : String)
  | startFailed (what cause : String)
  | store (e : StoreError)
  | config (e : ConfigError)
  | shutdown (cause : String)
deriving DecidableEq, Repr

def ServerError.message : ServerError → String
  | bindFailed address cause => s!"Failed to bind TCP listener to {address.text}: {cause}"
  | startFailed what cause => s!"Failed to start {what}: {cause}"
  | store e => s!"Credential store error: {e.message}"
  | config e => s!"Configuration error: {e.message}"
  | shutdown cause => s!"Server shutdown error: {cause}"

/-- The store for the users file at `path`; a directory can be opened but holds no accounts. -/
def Store.load (h : Host) (path : String) : Except StoreError Store :=
  match h.find path with
  | .error e => .error (.loadFailed path e.message)
  | .ok .directory => .error .malformed
  | .ok (.file content) => Store.ofDocument content

structure Server where
  config : Config
  store : Store

def Server.create (h : Host) (c : Config) : Except ServerError Server :=
  match Store.load h c.users with
  | .ok s => .ok ⟨c, s⟩
  | .error e => .error (.store e)

end ChatRelay
