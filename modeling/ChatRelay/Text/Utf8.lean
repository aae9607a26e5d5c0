import ChatRelay.Bytes

/-! # UTF-8

Text as octets and octets as text. Reading never fails: a run of octets that begins a character but
is not continued, or that begins none, is read as one replacement character.
-/

namespace ChatRelay.Utf8

def encode (s : String) : Bytes :=
  s.toList.flatMap String.utf8EncodeChar

/-- A character some of whose octets are still to come; the next one lies between the bounds. -/
structure Pending where
  value : Nat
  missing : Nat
  low : UInt8
  high : UInt8

inductive Lead where
  | char (c : Char)
  | more (p : Pending)
  | bad

def lead (b : UInt8) : Lead :=
  if b < 0x80 then .char (Char.ofNat b.toNat)
  else if b < 0xC2 then .bad
  else if b < 0xE0 then .more ⟨b.toNat - 0xC0, 1, 0x80, 0xBF⟩
  else if b < 0xF0 then
    .more ⟨b.toNat - 0xE0, 2, if b = 0xE0 then 0xA0 else 0x80, if b = 0xED then 0x9F else 0xBF⟩
  else if b < 0xF5 then
    .more ⟨b.toNat - 0xF0, 3, if b = 0xF0 then 0x90 else 0x80, if b = 0xF4 then 0x8F else 0xBF⟩
  else .bad

/-- The characters of an octet string, `none` standing for each run that is no character. -/
def scan : Option Pending → Bytes → List (Option Char)
  | none, [] => []
  | some _, [] => [none]
  | none, b :: bs =>
    match lead b with
    | .char c => some c :: scan none bs
    | .more p => scan (some p) bs
    | .bad => none :: scan none bs
  | some p, b :: bs =>
    if p.low ≤ b ∧ b ≤ p.high then
      let value := p.value * 64 + (b.toNat - 0x80)
      if p.missing ≤ 1 then some (Char.ofNat value) :: scan none bs
      else scan (some ⟨value, p.missing - 1, 0x80, 0xBF⟩) bs
    else
      match lead b with
      | .char c => none :: some c :: scan none bs
      | .more q => none :: scan (some q) bs
      | .bad => none :: none :: scan none bs

def decode (bs : Bytes) : String :=
  String.ofList ((scan none bs).map (·.getD '\uFFFD'))

def decode? (bs : Bytes) : Option String :=
  let cs := scan none bs
  if cs.all Option.isSome then some (String.ofList (cs.filterMap id)) else none

/-- The longest prefix of whole characters that takes at most `room` octets. -/
def fitting (room : Nat) : List Char → List Char
  | [] => []
  | c :: cs =>
    let n := (String.utf8EncodeChar c).length
    if n ≤ room then c :: fitting (room - n) cs else []

theorem length_fitting (room : Nat) (cs : List Char) :
    ((fitting room cs).flatMap String.utf8EncodeChar).length ≤ room := by
  induction cs generalizing room with
  | nil => simp [fitting]
  | cons c cs ih =>
    simp only [fitting]
    split
    · next h =>
      have := ih (room - (String.utf8EncodeChar c).length)
      simp only [List.flatMap_cons, List.length_append]; omega
    · simp

end ChatRelay.Utf8
