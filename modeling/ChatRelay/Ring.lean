import ChatRelay.Bytes

/-! # Ring buffers

A queue of octets in a fixed number of cells. One cell is always left empty, so that equal positions
mean an empty ring: a ring of capacity `c` holds at most `c - 1` octets.
-/

namespace ChatRelay

structure Ring where
  /-- The cell of the oldest octet. -/
  head : Nat
  /-- The cell that the next octet goes to. -/
  tail : Nat
  cells : Array UInt8
  two_le_size : 2 ≤ cells.size
  head_lt : head < cells.size
  tail_lt : tail < cells.size

namespace Ring

/-- An empty ring; one with fewer than two cells could hold nothing, so it has two at least. -/
def empty (capacity : Nat) : Ring where
  head := 0
  tail := 0
  cells := Array.replicate (max capacity 2) 0
  two_le_size := by rw [Array.size_replicate]; omega
  head_lt := by rw [Array.size_replicate]; omega
  tail_lt := by rw [Array.size_replicate]; omega

def capacity (r : Ring) : Nat :=
  r.cells.size

def size (r : Ring) : Nat :=
  if r.head ≤ r.tail then r.tail - r.head else r.capacity - r.head + r.tail

def free (r : Ring) : Nat :=
  r.capacity - 1 - r.size

def isEmpty (r : Ring) : Bool :=
  r.head = r.tail

def isFull (r : Ring) : Bool :=
  r.free = 0

theorem capacity_pos (r : Ring) : 0 < r.cells.size :=
  Nat.lt_of_lt_of_le (by decide) r.two_le_size

def push (r : Ring) (b : UInt8) : Ring where
  head := r.head
  tail := (r.tail + 1) % r.cells.size
  cells := r.cells.set r.tail b r.tail_lt
  two_le_size := by simpa using r.two_le_size
  head_lt := by simpa using r.head_lt
  tail_lt := by simpa using Nat.mod_lt _ r.capacity_pos

/-- Puts octets behind the newest one; there has to be room for all of them. -/
def append (r : Ring) (bs : Bytes) : Ring :=
  bs.foldl push r

/-- Appends all of `bs`, or refuses if that is more than there is room for. -/
def write? (r : Ring) (bs : Bytes) : Option Ring :=
  if bs.length ≤ r.free then some (r.append bs) else none

def get (r : Ring) (i : Nat) : UInt8 :=
  have : (r.head + i) % r.cells.size < r.cells.size := Nat.mod_lt _ r.capacity_pos
  r.cells[(r.head + i) % r.cells.size]

def peek? (r : Ring) (n : Nat) : Option Bytes :=
  if n ≤ r.size then some ((List.range n).map r.get) else none

/-- Drops the oldest `n` octets, or all if fewer are held. -/
def consume (r : Ring) (n : Nat) : Ring :=
  { r with
    head := (r.head + min n r.size) % r.cells.size
    head_lt := Nat.mod_lt _ r.capacity_pos }

/-- Drops everything; the cells keep what they hold. -/
def clear (r : Ring) : Ring :=
  { r with head := 0, tail := 0, head_lt := r.capacity_pos, tail_lt := r.capacity_pos }

def toList (r : Ring) : Bytes :=
  (List.range r.size).map r.get

end Ring

end ChatRelay
