import ChatRelay.Hash.Sha256
import ChatRelay.Wire.Field

/-! # Accounts

An account is a user id and the hash of a password. It is usable if the id fits a name field and
the hash is one that `hashPassword` could have made.
-/

namespace ChatRelay

def hashPassword (password : String) : String :=
  (Sha256.digest (Utf8.encode password)).toHex

structure Account where
  userId : String
  passwordHash : String
deriving DecidableEq, Repr

inductive AccountFault where
  | idLength
  | hashLength (length : Nat)
  | hashDigits
deriving DecidableEq, Repr

namespace AccountFault

/-- The key under which the users file holds the faulty part. -/
def field : AccountFault → String
  | idLength => "user_id"
  | hashLength _ | hashDigits => "password_sha256"

def reason : AccountFault → String
  | idLength => s!"must be 1 to {maxNameLength} bytes"
  | hashLength length => s!"expected 64 hex characters, got {length} characters"
  | hashDigits => "contains characters other than lowercase hex"

end AccountFault

namespace Account

def ofPassword (userId password : String) : Account :=
  ⟨userId, hashPassword password⟩

def isHashDigit (c : Char) : Bool :=
  ('0' ≤ c && c ≤ '9') || ('a' ≤ c && c ≤ 'f')

/-- Lengths are counted in octets. -/
def fault? (a : Account) : Option AccountFault :=
  let idLength := (Utf8.encode a.userId).length
  let hashLength := (Utf8.encode a.passwordHash).length
  if idLength = 0 ∨ maxNameLength < idLength then some .idLength
  else if hashLength ≠ 64 then some (.hashLength hashLength)
  else if a.passwordHash.toList.all isHashDigit then none
  else some .hashDigits

end Account

inductive StoreError where
  | loadFailed (path cause : String)
  | malformed
  | noAccounts
  | invalidAccount (field userId reason : String)
  | duplicateUser (userId : String)
  | unavailable (cause : String)
deriving DecidableEq, Repr

namespace StoreError

def ofFault (a : Account) (f : AccountFault) : StoreError :=
  .invalidAccount f.field a.userId f.reason

def message : StoreError → String
  | loadFailed path cause => s!"Failed to load users from {path}: {cause}"
  | malformed => "Invalid JSON in users file"
  | noAccounts => "Users file is empty: no accounts loaded"
  | invalidAccount field userId reason => s!"Invalid {field} for user '{userId}': {reason}"
  | duplicateUser userId => s!"Duplicate user id: {userId}"
  | unavailable cause => s!"Credential store unavailable: {cause}"

end StoreError

end ChatRelay
