import ChatRelay.Address
import ChatRelay.Bytes
import ChatRelay.Text.Utf8

/-! # Hosts

What a server finds on the machine that it runs on: files, and addresses to listen on.
-/

namespace ChatRelay

inductive FileError where
  | notFound
  | notDirectory
  | nameTooLong
  | embeddedNul
deriving DecidableEq, Repr

def FileError.message : FileError → String
  | notFound => "No such file or directory (os error 2)"
  | notDirectory => "Not a directory (os error 20)"
  | nameTooLong => "File name too long (os error 36)"
  | embeddedNul => "file name contained an unexpected NUL byte"

inductive BindFault where
  | notAllowed
  | noDevice
  | invalid
  | notAvailable
deriving DecidableEq, Repr

def BindFault.message : BindFault → String
  | notAllowed => "Permission denied (os error 13)"
  | noDevice => "No such device (os error 19)"
  | invalid => "Invalid argument (os error 22)"
  | notAvailable => "Cannot assign requested address (os error 99)"

inductive Node where
  | directory
  | file (content : Bytes)

structure Host where
  /-- Where relative paths start, as names from the root. -/
  workingDirectory : List String
  /-- What is there besides the root, by names from the root. -/
  nodes : List (List String × Node)
  bindFault? : SocketAddress → Option BindFault

namespace Host

def node? (h : Host) (names : List String) : Option Node :=
  if names = [] then some .directory else h.nodes.lookup names

/-- Follows names from a place; every place but the last has to be a directory. -/
def walk (h : Host) (place : List String) : List String → Except FileError Node
  | [] =>
    match h.node? place with
    | some n => .ok n
    | none => .error .notFound
  | name :: names =>
    match h.node? place with
    | none => .error .notFound
    | some (.file _) => .error .notDirectory
    | some .directory =>
      if name = "" ∨ name = "." then h.walk place names
      else if name = ".." then h.walk place.dropLast names
      else if 255 < (Utf8.encode name).length then .error .nameTooLong
      else h.walk (place ++ [name]) names

def splitPath (path : List Char) : List (List Char) :=
  match path with
  | [] => [[]]
  | c :: cs =>
    let rest := splitPath cs
    if c = '/' then [] :: rest
    else
      match rest with
      | [] => [[c]]
      | name :: names => (c :: name) :: names

def find (h : Host) (path : String) : Except FileError Node :=
  if path = "" then .error .notFound
  else if path.toList.contains '\x00' then .error .embeddedNul
  else if 4096 ≤ (Utf8.encode path).length then .error .nameTooLong
  else
    h.walk (if path.toList.head? = some '/' then [] else h.workingDirectory)
      ((splitPath path.toList).map String.ofList)

def hasPath (h : Host) (path : String) : Bool :=
  match h.find path with
  | .ok _ => true
  | .error _ => false

end Host

end ChatRelay
