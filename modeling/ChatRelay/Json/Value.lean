import ChatRelay.Json.Token
import ChatRelay.Text.Utf8

/-! # JSON values

Tokens are put together on a stack of arrays and objects that are still open, so nesting may be of
any depth.
-/

namespace ChatRelay.Json

inductive Value where
  | atom
  | text (pieces : List Piece)
  | array (items : List Value)
  | object (members : List (List Piece × Value))

/-- An array or object that is still open, its content newest first. -/
inductive Frame where
  | array (items : List Value)
  | object (members : List (List Piece × Value)) (key : Option (List Piece))

inductive Expect where
  | value
  | itemOrEnd
  | key
  | keyOrEnd
  | colon
  | commaOrEnd
  | nothing (v : Value)

structure Builder where
  expect : Expect
  stack : List Frame

namespace Builder

def place (v : Value) : List Frame → Option Builder
  | [] => some ⟨.nothing v, []⟩
  | .array items :: stack => some ⟨.commaOrEnd, .array (v :: items) :: stack⟩
  | .object members (some k) :: stack =>
    some ⟨.commaOrEnd, .object ((k, v) :: members) none :: stack⟩
  | .object _ none :: _ => none

def value (stack : List Frame) : Token → Option Builder
  | .atom => place .atom stack
  | .text ps => place (.text ps) stack
  | .openArray => some ⟨.itemOrEnd, .array [] :: stack⟩
  | .openObject => some ⟨.keyOrEnd, .object [] none :: stack⟩
  | _ => none

def key (ps : List Piece) : List Frame → Option Builder
  | .object members none :: stack => some ⟨.colon, .object members (some ps) :: stack⟩
  | _ => none

def close (t : Token) : List Frame → Option Builder
  | .array items :: stack =>
    if t = .closeArray then place (.array items.reverse) stack else none
  | .object members none :: stack =>
    if t = .closeObject then place (.object members.reverse) stack else none
  | _ => none

def step (b : Builder) (t : Token) : Option Builder :=
  match b.expect, t with
  | .value, t => value b.stack t
  | .itemOrEnd, .closeArray => close .closeArray b.stack
  | .itemOrEnd, t => value b.stack t
  | .keyOrEnd, .closeObject => close .closeObject b.stack
  | .keyOrEnd, .text ps => key ps b.stack
  | .key, .text ps => key ps b.stack
  | .colon, .colon => some ⟨.value, b.stack⟩
  | .commaOrEnd, .comma =>
    match b.stack with
    | .array _ :: _ => some ⟨.value, b.stack⟩
    | .object .. :: _ => some ⟨.key, b.stack⟩
    | [] => none
  | .commaOrEnd, t => close t b.stack
  | _, _ => none

def run (b : Builder) : List Token → Option Value
  | [] =>
    match b.expect with
    | .nothing v => some v
    | _ => none
  | t :: ts =>
    match b.step t with
    | none => none
    | some b' => b'.run ts

end Builder

/-- The value that an octet string spells, with nothing but blanks around it. -/
def parse? (bs : Bytes) : Option Value :=
  (tokens? bs).bind fun ts => Builder.run ⟨.value, []⟩ ts

/-- The octets of a string. An escape outside the basic plane comes as a pair of surrogates, and a
surrogate stands nowhere else; `high` is the first half of a pair. -/
def octets? (high : Option Nat) : List Piece → Option Bytes
  | [] => if high.isNone then some [] else none
  | .octet b :: ps => if high.isNone then (octets? none ps).map (b :: ·) else none
  | .unit u :: ps =>
    match high with
    | some h =>
      if 0xDC00 ≤ u ∧ u ≤ 0xDFFF then
        let c := Char.ofNat (0x10000 + 0x400 * (h - 0xD800) + (u - 0xDC00))
        (octets? none ps).map (String.utf8EncodeChar c ++ ·)
      else none
    | none =>
      if 0xD800 ≤ u ∧ u ≤ 0xDBFF then octets? (some u) ps
      else if 0xDC00 ≤ u ∧ u ≤ 0xDFFF then none
      else (octets? none ps).map (String.utf8EncodeChar (Char.ofNat u) ++ ·)

def text? (ps : List Piece) : Option String :=
  (octets? none ps).bind Utf8.decode?

def escape (c : Char) : List Char :=
  match c with
  | '"' => ['\\', '"']
  | '\\' => ['\\', '\\']
  | '\x08' => ['\\', 'b']
  | '\x0c' => ['\\', 'f']
  | '\n' => ['\\', 'n']
  | '\r' => ['\\', 'r']
  | '\t' => ['\\', 't']
  | c =>
    if c.toNat < 0x20 then
      ['\\', 'u', '0', '0', Bytes.hexDigit (c.toNat / 16), Bytes.hexDigit (c.toNat % 16)]
    else [c]

def quote (s : String) : String :=
  String.ofList ('"' :: s.toList.flatMap escape ++ ['"'])

end ChatRelay.Json
