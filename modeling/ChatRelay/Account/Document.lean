import ChatRelay.Account
import ChatRelay.Json.Value

/-! # Accounts in JSON

The users file is an array of accounts. An account is an object with both its keys, each once, or an
array of the two values; other keys are ignored.
-/

namespace ChatRelay.Account

def member? (name : String) (members : List (String × Json.Value)) : Option String :=
  match members.filter (·.1 = name) with
  | [(_, .text ps)] => Json.text? ps
  | _ => none

def ofValue? : Json.Value → Option Account
  | .array [.text userId, .text passwordHash] => do
    return ⟨← Json.text? userId, ← Json.text? passwordHash⟩
  | .object members => do
    let named ← members.mapM fun (key, v) => (Json.text? key).map (·, v)
    return ⟨← member? "user_id" named, ← member? "password_sha256" named⟩
  | _ => none

def parse? (bs : Bytes) : Option Account :=
  (Json.parse? bs).bind ofValue?

def listOfValue? : Json.Value → Option (List Account)
  | .array items => items.mapM ofValue?
  | _ => none

def parseList? (bs : Bytes) : Option (List Account) :=
  (Json.parse? bs).bind listOfValue?

def toJson (a : Account) : String :=
  "\x7b\"user_id\":" ++ Json.quote a.userId ++
    ",\"password_sha256\":" ++ Json.quote a.passwordHash ++ "\x7d"

def listToJson (as : List Account) : String :=
  "[" ++ String.intercalate "," (as.map toJson) ++ "]"

end ChatRelay.Account
