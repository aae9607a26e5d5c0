import ChatRelay.Ring
import Mathlib.Data.List.Range
import Mathlib.Tactic.Common

/-! # Rings as queues

The octets that a ring holds are a queue: appending puts octets behind them and consuming drops
them from the front. Neither depends on where in the cells they lie.
-/

namespace ChatRelay.Ring

variable {r : Ring} {bs : Bytes} {n : Nat}

theorem size_lt (r : Ring) : r.size < r.cells.size := by
  have := r.head_lt
  have := r.tail_lt
  unfold size capacity
  split <;> omega

theorem size_add_free (r : Ring) : r.size + r.free = r.cells.size - 1 := by
  have := r.size_lt
  unfold free capacity
  omega

theorem tail_eq (r : Ring) : r.tail = (r.head + r.size) % r.cells.size := by
  have := r.head_lt
  have := r.tail_lt
  unfold size capacity
  split
  · rw [Nat.mod_eq_of_lt (by omega)]; omega
  · rw [Nat.mod_eq_sub_mod (by omega), Nat.mod_eq_of_lt (by omega)]; omega

theorem size_eq_of_tail (h : r.tail = (r.head + n) % r.cells.size) (hn : n < r.cells.size) :
    r.size = n := by
  have := r.head_lt
  unfold size capacity
  rcases Nat.lt_or_ge (r.head + n) r.cells.size with hlt | hge
  · rw [Nat.mod_eq_of_lt hlt] at h
    rw [if_pos (by omega)]; omega
  · rw [Nat.mod_eq_sub_mod hge, Nat.mod_eq_of_lt (by omega)] at h
    rw [if_neg (by omega)]; omega

@[simp] theorem length_toList (r : Ring) : r.toList.length = r.size := by
  simp [toList]

theorem toList_eq_nil_iff : r.toList = [] ↔ r.isEmpty = true := by
  have := r.head_lt
  have := r.tail_lt
  rw [← List.length_eq_zero_iff, length_toList, isEmpty, decide_eq_true_iff, size, capacity]
  split <;> omega

@[simp] theorem toList_empty (capacity : Nat) : (empty capacity).toList = [] :=
  toList_eq_nil_iff.2 rfl

@[simp] theorem toList_clear (r : Ring) : r.clear.toList = [] :=
  toList_eq_nil_iff.2 (by simp [isEmpty, clear])

theorem peek?_eq (r : Ring) (n : Nat) :
    r.peek? n = if n ≤ r.toList.length then some (r.toList.take n) else none := by
  rw [length_toList, peek?]
  split
  · next h => rw [toList, ← List.map_take, List.take_range, Nat.min_eq_left h]
  · rfl

/-! ## Appending -/

@[simp] theorem size_cells_push (r : Ring) (b : UInt8) : (r.push b).cells.size = r.cells.size := by
  simp [push]

theorem size_push (h : 0 < r.free) (b : UInt8) : (r.push b).size = r.size + 1 := by
  have := r.size_add_free
  apply size_eq_of_tail
  · change (r.tail + 1) % r.cells.size = (r.head + (r.size + 1)) % (r.push b).cells.size
    rw [size_cells_push, r.tail_eq, Nat.mod_add_mod, Nat.add_assoc]
  · rw [size_cells_push]; omega

theorem get_push_of_lt {i : Nat} (hi : i < r.size) (b : UInt8) : (r.push b).get i = r.get i := by
  have hlt := r.size_lt
  have hne : (r.head + i) % r.cells.size ≠ r.tail := by
    have := r.head_lt
    have := r.tail_lt
    have hs : r.size = if r.head ≤ r.tail then r.tail - r.head
      else r.cells.size - r.head + r.tail := rfl
    rcases Nat.lt_or_ge (r.head + i) r.cells.size with h | h
    · rw [Nat.mod_eq_of_lt h]
      split at hs <;> omega
    · rw [Nat.mod_eq_sub_mod h, Nat.mod_eq_of_lt (by omega)]
      split at hs <;> omega
  simp only [get, push, Array.size_set]
  exact Array.getElem_set_ne _ _ hne.symm

theorem get_push_size (r : Ring) (b : UInt8) : (r.push b).get r.size = b := by
  simp only [get, push, Array.size_set, ← r.tail_eq]
  exact Array.getElem_set_self _

theorem toList_push (h : 0 < r.free) (b : UInt8) : (r.push b).toList = r.toList ++ [b] := by
  rw [toList, size_push h, List.range_succ, List.map_append, List.map_singleton, get_push_size,
    toList]
  congr 1
  exact List.map_congr_left fun i hi => get_push_of_lt (List.mem_range.1 hi) b

@[simp] theorem append_nil (r : Ring) : r.append [] = r := rfl

@[simp] theorem append_cons (r : Ring) (b : UInt8) (bs : Bytes) :
    r.append (b :: bs) = (r.push b).append bs := rfl

theorem append_append (r : Ring) (as bs : Bytes) : r.append (as ++ bs) = (r.append as).append bs :=
  List.foldl_append ..

@[simp] theorem size_cells_append (r : Ring) (bs : Bytes) :
    (r.append bs).cells.size = r.cells.size := by
  induction bs generalizing r with
  | nil => rfl
  | cons b bs ih => rw [append_cons, ih, size_cells_push]

theorem toList_append (h : bs.length ≤ r.free) : (r.append bs).toList = r.toList ++ bs := by
  induction bs generalizing r with
  | nil => simp
  | cons b bs ih =>
    rw [List.length_cons] at h
    have hfree : (r.push b).free = r.free - 1 := by
      have := r.size_add_free
      have := (r.push b).size_add_free
      rw [size_push (by omega), size_cells_push] at this
      omega
    rw [append_cons, ih (by omega), toList_push (by omega), List.append_assoc,
      List.singleton_append]

/-! ## Dropping octets from the front -/

theorem head_add_mod_lt (r : Ring) (n : Nat) : (r.head + n) % r.cells.size < r.cells.size :=
  Nat.mod_lt _ r.capacity_pos

def skip (r : Ring) (n : Nat) : Ring :=
  { r with head := (r.head + n) % r.cells.size, head_lt := r.head_add_mod_lt n }

theorem consume_eq_skip (r : Ring) (n : Nat) : r.consume n = r.skip (min n r.size) := rfl

@[simp] theorem skip_zero (r : Ring) : r.skip 0 = r := by
  obtain ⟨head, tail, cells, h, hh, ht⟩ := r
  simp [skip, Nat.mod_eq_of_lt hh]

theorem skip_skip (r : Ring) (m n : Nat) : (r.skip m).skip n = r.skip (m + n) := by
  simp [skip, Nat.add_assoc]

theorem skip_push (r : Ring) (n : Nat) (b : UInt8) : (r.skip n).push b = (r.push b).skip n := by
  simp [skip, push]

theorem skip_append (r : Ring) (n : Nat) (bs : Bytes) :
    (r.skip n).append bs = (r.append bs).skip n := by
  induction bs generalizing r with
  | nil => rfl
  | cons b bs ih => rw [append_cons, append_cons, skip_push, ih]

theorem size_skip (h : n ≤ r.size) : (r.skip n).size = r.size - n := by
  have := r.size_lt
  apply size_eq_of_tail
  · change r.tail = ((r.head + n) % r.cells.size + (r.size - n)) % r.cells.size
    rw [Nat.mod_add_mod, Nat.add_assoc, Nat.add_sub_cancel' h, ← r.tail_eq]
  · change r.size - n < r.cells.size
    omega

theorem get_skip (r : Ring) (n i : Nat) : (r.skip n).get i = r.get (n + i) := by
  simp [get, skip, Nat.add_assoc]

theorem toList_skip (h : n ≤ r.size) : (r.skip n).toList = r.toList.drop n := by
  apply List.ext_getElem
  · rw [List.length_drop, length_toList, length_toList, size_skip h]
  · intro i _ _
    simp [toList, get_skip]

theorem toList_consume (r : Ring) (n : Nat) : (r.consume n).toList = r.toList.drop n := by
  rw [consume_eq_skip, toList_skip (Nat.min_le_right _ _), ← length_toList, ← List.drop_eq_drop_min]

end ChatRelay.Ring
