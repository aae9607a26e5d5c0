/-! # Octets

Octet strings, their hexadecimal form, and 16-bit words with the low octet first.
-/

namespace ChatRelay

abbrev Bytes := List UInt8

namespace Bytes

def hexDigit (n : Nat) : Char :=
  if n < 10 then Char.ofNat ('0'.toNat + n) else Char.ofNat ('a'.toNat + (n - 10))

def toHex (bs : Bytes) : String :=
  String.ofList (bs.flatMap fun b => [hexDigit (b.toNat / 16), hexDigit (b.toNat % 16)])

def padded (width : Nat) (bs : Bytes) : Bytes :=
  bs ++ List.replicate (width - bs.length) 0

theorem length_padded {width : Nat} {bs : Bytes} (h : bs.length ≤ width) :
    (padded width bs).length = width := by
  simp [padded]; omega

def slice? (bs : Bytes) (i j : Nat) : Option Bytes :=
  if i ≤ j ∧ j ≤ bs.length then some ((bs.take j).drop i) else none

/-- `bs` cut into pieces of `n` octets, the last one shorter if need be. -/
def chunks (n : Nat) (bs : Bytes) : List Bytes :=
  if _h : n = 0 ∨ bs = [] then [] else bs.take n :: chunks n (bs.drop n)
termination_by bs.length
decreasing_by
  have := List.length_pos_iff.2 (not_or.1 _h).2
  have := (not_or.1 _h).1
  rw [List.length_drop]; omega

end Bytes

namespace Word

/-- The low octet comes first. -/
def toBytes (w : UInt16) : Bytes :=
  [UInt8.ofNat w.toNat, UInt8.ofNat (w.toNat / 256)]

def ofBytes (low high : UInt8) : UInt16 :=
  UInt16.ofNat (low.toNat + 256 * high.toNat)

@[simp] theorem length_toBytes (w : UInt16) : (toBytes w).length = 2 := rfl

theorem ofBytes_toBytes (w : UInt16) :
    ofBytes (UInt8.ofNat w.toNat) (UInt8.ofNat (w.toNat / 256)) = w := by
  have := w.toNat_lt
  apply UInt16.toNat_inj.1
  simp only [ofBytes, UInt16.toNat_ofNat', UInt8.toNat_ofNat']
  omega

theorem toNat_ofBytes (low high : UInt8) :
    (ofBytes low high).toNat = low.toNat + 256 * high.toNat := by
  have := low.toNat_lt
  have := high.toNat_lt
  simp only [ofBytes, UInt16.toNat_ofNat']
  omega

theorem toBytes_ofBytes (low high : UInt8) : toBytes (ofBytes low high) = [low, high] := by
  have := low.toNat_lt
  have := high.toNat_lt
  have hlow : UInt8.ofNat (low.toNat + 256 * high.toNat) = low := by
    apply UInt8.toNat_inj.1
    simp only [UInt8.toNat_ofNat']
    omega
  have hhigh : UInt8.ofNat ((low.toNat + 256 * high.toNat) / 256) = high := by
    apply UInt8.toNat_inj.1
    simp only [UInt8.toNat_ofNat']
    omega
  rw [toBytes, toNat_ofBytes, hlow, hhigh]

end Word

end ChatRelay
