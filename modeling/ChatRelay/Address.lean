/-! # Socket addresses

An address of the fourth or sixth generation with a port. In text an address of the sixth generation
stands in brackets, and its longest run of zero groups may be left out.
-/

namespace ChatRelay

inductive IpAddress where
  | v4 (a b c d : UInt8)
  /-- The eight groups, and the zone that the address belongs to. -/
  | v6 (groups : List UInt16) (zone : UInt32)
deriving DecidableEq, Repr

structure SocketAddress where
  ip : IpAddress
  port : UInt16
deriving DecidableEq, Repr

namespace Address

/-- A reader takes what it reads off the front. -/
abbrev Reader (α : Type) := List Char → Option (α × List Char)

def char (c : Char) : Reader Unit
  | [] => none
  | d :: cs => if d = c then some ((), cs) else none

def digitValue? (radix : Nat) (c : Char) : Option Nat :=
  let v :=
    if '0' ≤ c ∧ c ≤ '9' then c.toNat - '0'.toNat
    else if 'a' ≤ c ∧ c ≤ 'z' then c.toNat - 'a'.toNat + 10
    else if 'A' ≤ c ∧ c ≤ 'Z' then c.toNat - 'A'.toNat + 10
    else radix
  if v < radix then some v else none

def digits (radix : Nat) : List Char → List Nat × List Char
  | [] => ([], [])
  | c :: cs =>
    match digitValue? radix c with
    | some v => let (vs, rest) := digits radix cs; (v :: vs, rest)
    | none => ([], c :: cs)

def value (radix : Nat) (vs : List Nat) : Nat :=
  vs.foldl (fun n v => n * radix + v) 0

/-- A number up to `limit` of at most `width` digits (any number of them if `width` is absent). -/
def number (radix limit : Nat) (width : Option Nat) (leadingZeros : Bool) : Reader Nat := fun cs =>
  let (vs, rest) := digits radix cs
  let n := value radix vs
  if vs = [] ∨ limit < n ∨ width.any (· < vs.length) ∨
      (!leadingZeros ∧ vs.head? = some 0 ∧ 1 < vs.length) then none
  else some (n, rest)

def octet : Reader UInt8 := fun cs => do
  let (n, cs) ← number 10 255 (some 3) false cs
  return (UInt8.ofNat n, cs)

def v4 : Reader (UInt8 × UInt8 × UInt8 × UInt8) := fun cs => do
  let (a, cs) ← octet cs
  let (_, cs) ← char '.' cs
  let (b, cs) ← octet cs
  let (_, cs) ← char '.' cs
  let (c, cs) ← octet cs
  let (_, cs) ← char '.' cs
  let (d, cs) ← octet cs
  return ((a, b, c, d), cs)

def pair (high low : UInt8) : UInt16 :=
  UInt16.ofNat (high.toNat * 256 + low.toNat)

/-- `read`, after a colon unless it is the first group. -/
def separated {α : Type} (first : Bool) (read : Reader α) : Reader α := fun cs =>
  if first then read cs
  else do
    let (_, cs) ← char ':' cs
    read cs

/-- Up to `room` groups. The last two may be written as an address of the fourth generation, and
nothing follows them then. -/
def groups (first : Bool) : Nat → List Char → List UInt16 × Bool × List Char
  | 0, cs => ([], false, cs)
  | room + 1, cs =>
    match if 1 ≤ room then separated first v4 cs else none with
    | some ((a, b, c, d), rest) => ([pair a b, pair c d], true, rest)
    | none =>
      match separated first (number 16 0xFFFF (some 4) true) cs with
      | none => ([], false, cs)
      | some (n, rest) =>
        let (gs, dotted, rest) := groups false room rest
        (UInt16.ofNat n :: gs, dotted, rest)

/-- Eight groups, or fewer around a double colon that stands for at least one zero group. -/
def v6 : Reader (List UInt16) := fun cs =>
  let (front, dotted, rest) := groups true 8 cs
  if front.length = 8 then some (front, rest)
  else if dotted then none
  else do
    let (_, rest) ← char ':' rest
    let (_, rest) ← char ':' rest
    let (back, _, rest) := groups true (7 - front.length) rest
    return (front ++ List.replicate (8 - front.length - back.length) 0 ++ back, rest)

def port : Reader UInt16 := fun cs => do
  let (_, cs) ← char ':' cs
  let (n, cs) ← number 10 65535 none true cs
  return (UInt16.ofNat n, cs)

def zone : Reader UInt32 := fun cs => do
  let (_, cs) ← char '%' cs
  let (n, cs) ← number 10 4294967295 none true cs
  return (UInt32.ofNat n, cs)

def socketV4 : Reader SocketAddress := fun cs => do
  let ((a, b, c, d), cs) ← v4 cs
  let (p, cs) ← port cs
  return (⟨.v4 a b c d, p⟩, cs)

def socketV6 : Reader SocketAddress := fun cs => do
  let (_, cs) ← char '[' cs
  let (gs, cs) ← v6 cs
  let (z, cs) := (zone cs).getD (0, cs)
  let (_, cs) ← char ']' cs
  let (p, cs) ← port cs
  return (⟨.v6 gs z, p⟩, cs)

end Address

namespace IpAddress

def groupText (g : UInt16) : String :=
  String.ofList (Nat.toDigits 16 g.toNat)

def groupsText (gs : List UInt16) : String :=
  String.intercalate ":" (gs.map groupText)

def zerosAt (gs : List UInt16) : Nat :=
  (gs.takeWhile (· = 0)).length

/-- The first of the longest runs of zero groups: where it starts and how long it is. -/
def longestZeros (gs : List UInt16) : Nat × Nat :=
  (List.range gs.length).foldl
    (fun best i =>
      let n := zerosAt (gs.drop i)
      if best.2 < n then (i, n) else best)
    (0, 0)

def v4Text (a b c d : Nat) : String :=
  s!"{a}.{b}.{c}.{d}"

/-- An address of the fourth generation inside one of the sixth is shown as such; otherwise two or
more zero groups in a row are left out once. -/
def v6Text (gs : List UInt16) : String :=
  match gs with
  | [0, 0, 0, 0, 0, 0xFFFF, g, h] =>
    "::ffff:" ++ v4Text (g.toNat / 256) (g.toNat % 256) (h.toNat / 256) (h.toNat % 256)
  | _ =>
    let (start, n) := longestZeros gs
    if 1 < n then groupsText (gs.take start) ++ "::" ++ groupsText (gs.drop (start + n))
    else groupsText gs

def text : IpAddress → String
  | v4 a b c d => v4Text a.toNat b.toNat c.toNat d.toNat
  | v6 gs _ => v6Text gs

end IpAddress

namespace SocketAddress

def parse? (s : String) : Option SocketAddress :=
  match Address.socketV4 s.toList <|> Address.socketV6 s.toList with
  | some (a, []) => some a
  | _ => none

def text : SocketAddress → String
  | ⟨.v4 a b c d, p⟩ => s!"{(IpAddress.v4 a b c d).text}:{p.toNat}"
  | ⟨.v6 gs z, p⟩ =>
    let zone := if z = 0 then "" else s!"%{z.toNat}"
    s!"[{IpAddress.v6Text gs}{zone}]:{p.toNat}"

end SocketAddress

end ChatRelay
