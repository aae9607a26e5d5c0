import ChatRelay.Hash.Sha256
import ChatRelay.Text.Utf8

/-! # Session tokens

Tokens are drawn from a secret one after another, by hashing it together with their number.
-/

namespace ChatRelay

/-- The token drawn at the `n`th place: 32 lowercase hexadecimal digits. -/
def sessionToken (secret : Bytes) (n : Nat) : String :=
  Bytes.toHex ((Sha256.digest (secret ++ Utf8.encode (toString n))).take 16)

end ChatRelay
