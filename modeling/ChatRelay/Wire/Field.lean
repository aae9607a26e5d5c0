import ChatRelay.Text.Utf8

/-! # Text fields

A field takes a fixed number of octets on the wire: its text up to the first NUL, then padding.
A peer may fill the whole width and leave the NUL out.
-/

namespace ChatRelay

inductive FieldError where
  | tooLong (length limit : Nat)
deriving DecidableEq, Repr

def FieldError.message : FieldError → String
  | .tooLong length limit => s!"Field too long: {length} bytes exceeds maximum of {limit}"

structure Field (width : Nat) where
  raw : Bytes
  length_raw : raw.length = width
deriving DecidableEq

def maxNameLength : Nat := 32

def maxMessageLength : Nat := 1024

abbrev NameField := Field (maxNameLength + 1)

abbrev MessageField := Field (maxMessageLength + 1)

namespace Field

variable {width : Nat}

/-- The octets before the first NUL, all of them if there is none. -/
def bytes (f : Field width) : Bytes :=
  f.raw.takeWhile (· ≠ 0)

def text (f : Field width) : String :=
  Utf8.decode f.bytes

def isEmpty (f : Field width) : Bool :=
  f.raw.head?.all (· = 0)

def ofBytes (bs : Bytes) (h : bs.length ≤ width) : Field width :=
  ⟨bs.padded width, Bytes.length_padded h⟩

def blank : Field width :=
  ofBytes [] (Nat.zero_le _)

instance : Inhabited (Field width) :=
  ⟨blank⟩

def read? (bs : Bytes) : Option (Field width) :=
  if h : width ≤ bs.length then some ⟨bs.take width, by simp [h]⟩ else none

/-- Like `read?`, with NULs for octets that are not there. -/
def read (bs : Bytes) : Field width :=
  ofBytes (bs.take width) (List.length_take_le width bs)

/-- Room is left for one NUL. -/
def ofText (s : String) : Except FieldError (Field width) :=
  if h : (Utf8.encode s).length ≤ width - 1 then
    .ok (ofBytes (Utf8.encode s) (by omega))
  else
    .error (.tooLong (Utf8.encode s).length (width - 1))

/-- As many whole characters of `s` as leave room for one NUL. -/
def truncated (s : String) : Field width :=
  ofBytes ((Utf8.fitting (width - 1) s.toList).flatMap String.utf8EncodeChar)
    (Nat.le_trans (Utf8.length_fitting _ _) (Nat.sub_le _ _))

theorem read_raw_append (f : Field width) (bs : Bytes) : read (f.raw ++ bs) = f := by
  obtain ⟨raw, rfl⟩ := f
  simp [read, ofBytes, Bytes.padded]

end Field

end ChatRelay
