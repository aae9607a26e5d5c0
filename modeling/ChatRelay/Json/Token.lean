import ChatRelay.Bytes

/-! # JSON tokens

A JSON text is read octet by octet. A string becomes its octets and escapes as they stand; whether
they are text is not asked here, because a string that nobody looks at may hold anything.
-/

namespace ChatRelay.Json

/-- A part of a string: an octet that stands for itself, or the code unit of an escape. -/
inductive Piece where
  | octet (b : UInt8)
  | unit (u : Nat)
deriving DecidableEq

inductive Token where
  | openObject
  | closeObject
  | openArray
  | closeArray
  | colon
  | comma
  | text (pieces : List Piece)
  /-- A number, a truth value or null. -/
  | atom
deriving DecidableEq

inductive NumberPart where
  | minus
  | zero
  | integer
  | point
  | fraction
  | exponent
  | exponentSign
  | exponentDigits

namespace NumberPart

def isComplete : NumberPart → Bool
  | zero | integer | fraction | exponentDigits => true
  | minus | point | exponent | exponentSign => false

def next (p : NumberPart) (c : Char) : Option NumberPart :=
  match p with
  | minus => if c = '0' then some zero else if c.isDigit then some integer else none
  | zero => if c = '.' then some point else if c = 'e' ∨ c = 'E' then some exponent else none
  | integer =>
    if c.isDigit then some integer else if c = '.' then some point
    else if c = 'e' ∨ c = 'E' then some exponent else none
  | point => if c.isDigit then some fraction else none
  | fraction =>
    if c.isDigit then some fraction else if c = 'e' ∨ c = 'E' then some exponent else none
  | exponent =>
    if c = '+' ∨ c = '-' then some exponentSign else if c.isDigit then some exponentDigits else none
  | exponentSign | exponentDigits => if c.isDigit then some exponentDigits else none

end NumberPart

/-- What the reader is in the middle of; pieces are kept newest first. -/
inductive Mode where
  | between
  | text (pieces : List Piece)
  | escape (pieces : List Piece)
  | hex (pieces : List Piece) (value missing : Nat)
  | word (rest : List Char)
  | number (p : NumberPart)

namespace Mode

def hexValue? (c : Char) : Option Nat :=
  if '0' ≤ c ∧ c ≤ '9' then some (c.toNat - '0'.toNat)
  else if 'a' ≤ c ∧ c ≤ 'f' then some (c.toNat - 'a'.toNat + 10)
  else if 'A' ≤ c ∧ c ≤ 'F' then some (c.toNat - 'A'.toNat + 10)
  else none

def escaped? : Char → Option Nat
  | '"' => some 0x22
  | '\\' => some 0x5C
  | '/' => some 0x2F
  | 'b' => some 0x08
  | 'f' => some 0x0C
  | 'n' => some 0x0A
  | 'r' => some 0x0D
  | 't' => some 0x09
  | _ => none

def start : Char → Option (Mode × List Token)
  | ' ' | '\t' | '\n' | '\r' => some (between, [])
  | '\x7b' => some (between, [.openObject])
  | '\x7d' => some (between, [.closeObject])
  | '[' => some (between, [.openArray])
  | ']' => some (between, [.closeArray])
  | ':' => some (between, [.colon])
  | ',' => some (between, [.comma])
  | '"' => some (text [], [])
  | 't' => some (word ['r', 'u', 'e'], [])
  | 'f' => some (word ['a', 'l', 's', 'e'], [])
  | 'n' => some (word ['u', 'l', 'l'], [])
  | '-' => some (number .minus, [])
  | '0' => some (number .zero, [])
  | c => if c.isDigit then some (number .integer, []) else none

/-- One octet further: the mode after it and the tokens that it completes. -/
def step (m : Mode) (b : UInt8) : Option (Mode × List Token) :=
  let c := Char.ofNat b.toNat
  match m with
  | between => start c
  | text ps =>
    if c = '"' then some (between, [.text ps.reverse])
    else if c = '\\' then some (escape ps, [])
    else if b < 0x20 then none
    else some (text (.octet b :: ps), [])
  | escape ps =>
    if c = 'u' then some (hex ps 0 4, [])
    else (escaped? c).map fun u => (text (.unit u :: ps), [])
  | hex ps value missing =>
    (hexValue? c).map fun d =>
      let value := 16 * value + d
      (if missing ≤ 1 then text (.unit value :: ps) else hex ps value (missing - 1), [])
  | word [] => none
  | word (d :: rest) =>
    if c ≠ d then none
    else if rest = [] then some (between, [.atom])
    else some (word rest, [])
  | number p =>
    match p.next c with
    | some q => some (number q, [])
    | none =>
      if p.isComplete then (start c).map fun (m, ts) => (m, .atom :: ts) else none

def finish : Mode → Option (List Token)
  | between => some []
  | number p => if p.isComplete then some [.atom] else none
  | _ => none

/-- The tokens of `bs`, behind those read already, which stand newest first. -/
def run (m : Mode) (done : List Token) : Bytes → Option (List Token)
  | [] => m.finish.map fun ts => done.reverse ++ ts
  | b :: bs =>
    match m.step b with
    | none => none
    | some (m', ts) => m'.run (ts.reverse ++ done) bs

end Mode

def tokens? (bs : Bytes) : Option (List Token) :=
  Mode.between.run [] bs

end ChatRelay.Json
