import ChatRelay.Proofs.Ring

/-! # Rings as bounded queues

Whatever is asked of a ring, it answers like a list of octets with a limit. It answers like bare
cells as well, where octets are copied in at most two pieces and every index and every difference is
checked, and none of these checks ever fails.
-/

namespace ChatRelay

namespace Buffer

inductive Request where
  | write (bs : Bytes)
  | peek (n : Nat)
  | consume (n : Nat)
  | clear

inductive Reply where
  | written (all : Bool)
  | peeked (octets : Option Bytes)
  | done
deriving DecidableEq, Repr

structure Gauge where
  size : Nat
  free : Nat
  isEmpty : Bool
  isFull : Bool
deriving DecidableEq, Repr

section

variable {σ τ : Type} {perform : σ → Request → Reply × σ}

def history (perform : σ → Request → Reply × σ) : σ → List Request → List Reply × σ
  | s, [] => ([], s)
  | s, q :: qs =>
    let (reply, s') := perform s q
    let (replies, s'') := history perform s' qs
    (reply :: replies, s'')

/-- The same of a buffer that may fail to answer. -/
def history? (perform : σ → Request → Option (Reply × σ)) :
    σ → List Request → Option (List Reply × σ)
  | s, [] => some ([], s)
  | s, q :: qs => do
    let (reply, s') ← perform s q
    let (replies, s'') ← history? perform s' qs
    return (reply :: replies, s'')

/-- Buffers that are images of others under a function that respects requests answer as these. -/
theorem history_map {perform' : τ → Request → Reply × τ} {f : σ → τ}
    (hf : ∀ s q, perform' (f s) q = (perform s q).map id f) (s : σ) (qs : List Request) :
    history perform' (f s) qs = (history perform s qs).map id f := by
  induction qs generalizing s with
  | nil => rfl
  | cons q qs ih => simp only [history, hf, Prod.map, id, ih]

theorem history?_map {perform' : τ → Request → Option (Reply × τ)} {f : σ → τ}
    (hf : ∀ s q, perform' (f s) q = some ((perform s q).map id f)) (s : σ) (qs : List Request) :
    history? perform' (f s) qs = some ((history perform s qs).map id f) := by
  induction qs generalizing s with
  | nil => rfl
  | cons q qs ih =>
    simp only [history?, history, hf, Prod.map, id, ih, Option.bind_eq_bind, Option.bind_some,
      Option.pure_def]

theorem history_snd_eq {α : Type} {f : σ → α} (hf : ∀ s q, f (perform s q).2 = f s) (s : σ)
    (qs : List Request) : f (history perform s qs).2 = f s := by
  induction qs generalizing s with
  | nil => rfl
  | cons q qs ih => exact (ih _).trans (hf s q)

end

end Buffer

open Buffer

/-! ## Lists with a limit -/

/-- A list of octets that may not grow beyond its limit. -/
structure Queue where
  limit : Nat
  octets : Bytes
  length_le : octets.length ≤ limit

namespace Queue

def empty (limit : Nat) : Queue :=
  ⟨limit, [], Nat.zero_le _⟩

def perform (q : Queue) : Request → Reply × Queue
  | .write bs =>
    if h : q.octets.length + bs.length ≤ q.limit then
      (.written true, ⟨q.limit, q.octets ++ bs, List.length_append ▸ h⟩)
    else (.written false, q)
  | .peek n => (.peeked (if n ≤ q.octets.length then some (q.octets.take n) else none), q)
  | .consume n =>
    (.done, ⟨q.limit, q.octets.drop (min n q.octets.length), by
      rw [List.length_drop]
      exact (Nat.sub_le ..).trans q.length_le⟩)
  | .clear => (.done, empty q.limit)

def gauge (q : Queue) : Gauge :=
  ⟨q.octets.length, q.limit - q.octets.length, q.octets.isEmpty, q.octets.length = q.limit⟩

end Queue

namespace Ring

def perform (r : Ring) : Request → Reply × Ring
  | .write bs =>
    match r.write? bs with
    | some r' => (.written true, r')
    | none => (.written false, r)
  | .peek n => (.peeked (r.peek? n), r)
  | .consume n => (.done, r.consume n)
  | .clear => (.done, r.clear)

def gauge (r : Ring) : Gauge :=
  ⟨r.size, r.free, r.isEmpty, r.isFull⟩

theorem capacity_empty (capacity : Nat) : (empty capacity).capacity = max capacity 2 :=
  Array.size_replicate

theorem capacity_perform (r : Ring) (q : Request) : (r.perform q).2.capacity = r.capacity := by
  cases q with
  | write bs =>
    simp only [perform, write?]
    by_cases h : bs.length ≤ r.free
    · rw [if_pos h]
      exact size_cells_append r bs
    · rw [if_neg h]
  | peek n => rfl
  | consume n => rfl
  | clear => rfl

def toQueue (r : Ring) : Queue where
  limit := r.capacity - 1
  octets := r.toList
  length_le := by
    rw [length_toList]
    exact Nat.le_sub_one_of_lt r.size_lt

theorem gauge_toQueue (r : Ring) : r.toQueue.gauge = r.gauge := by
  have := r.size_lt
  have hempty : r.toList.isEmpty = r.isEmpty := by
    rw [Bool.eq_iff_iff, List.isEmpty_iff, toList_eq_nil_iff]
  have hfull : decide (r.size = r.capacity - 1) = r.isFull := by
    rw [isFull, free, decide_eq_decide, capacity]
    omega
  simp only [Queue.gauge, gauge, toQueue, length_toList, hempty, hfull, free]

theorem perform_toQueue (r : Ring) (q : Request) :
    r.toQueue.perform q = (r.perform q).map id toQueue := by
  cases q with
  | write bs =>
    have hfree : r.toList.length + bs.length ≤ r.capacity - 1 ↔ bs.length ≤ r.free := by
      rw [length_toList, capacity, ← r.size_add_free, Nat.add_le_add_iff_left]
    by_cases h : bs.length ≤ r.free
    · have hcapacity : (r.append bs).capacity = r.capacity := size_cells_append r bs
      simp only [Queue.perform, perform, write?, toQueue, if_pos h, Prod.map, id, toList_append h,
        hcapacity]
      exact dif_pos (hfree.2 h)
    · simp only [Queue.perform, perform, write?, toQueue, if_neg h, Prod.map, id]
      exact dif_neg fun hq => h (hfree.1 hq)
  | peek n =>
    simp only [Queue.perform, perform, toQueue, peek?_eq, Prod.map, id]
    rfl
  | consume n =>
    simp only [Queue.perform, perform, toQueue, toList_consume, ← List.drop_eq_drop_min, Prod.map,
      id]
    rfl
  | clear =>
    simp only [Queue.perform, perform, toQueue, toList_clear, Prod.map, id]
    rfl

end Ring

/-! ## Bare cells

A ring without its invariants, where whatever could be out of range is checked. -/

structure Cells where
  head : Nat
  tail : Nat
  octets : Array UInt8

namespace Cells

def zeroed (capacity : Nat) : Cells :=
  ⟨0, 0, Array.replicate (max capacity 2) 0⟩

def sub? (m n : Nat) : Option Nat :=
  if n ≤ m then some (m - n) else none

def mod? (m n : Nat) : Option Nat :=
  if n = 0 then none else some (m % n)

def copy (octets : Array UInt8) (i : Nat) : Bytes → Array UInt8
  | [] => octets
  | b :: bs => copy (octets.setIfInBounds i b) (i + 1) bs

/-- Puts `bs` into the cells from `i` up to `j`, which have to be as many. -/
def copy? (octets : Array UInt8) (i j : Nat) (bs : Bytes) : Option (Array UInt8) :=
  if i ≤ j ∧ j ≤ octets.size ∧ j - i = bs.length then some (copy octets i bs) else none

def size? (c : Cells) : Option Nat :=
  if c.head ≤ c.tail then sub? c.tail c.head
  else return (← sub? c.octets.size c.head) + c.tail

def free? (c : Cells) : Option Nat := do
  sub? (← sub? c.octets.size 1) (← c.size?)

def gauge? (c : Cells) : Option Gauge := do
  return ⟨← c.size?, ← c.free?, c.head = c.tail, (← c.free?) = 0⟩

def write? (c : Cells) (bs : Bytes) : Option (Reply × Cells) := do
  if (← c.free?) < bs.length then
    return (.written false, c)
  let first := min bs.length (← sub? c.octets.size c.tail)
  let octets ← copy? c.octets c.tail (c.tail + first) (← bs.slice? 0 first)
  let rest ← sub? bs.length first
  let octets ← copy? octets 0 rest (← bs.slice? first bs.length)
  return (.written true, { c with tail := ← mod? (c.tail + bs.length) octets.size, octets })

def peek? (c : Cells) (n : Nat) : Option (Option Bytes) := do
  if (← c.size?) < n then
    return none
  let first := min n (← sub? c.octets.size c.head)
  let rest ← sub? n first
  return some ((← Bytes.slice? c.octets.toList c.head (c.head + first)) ++
    (← Bytes.slice? c.octets.toList 0 rest))

def consume? (c : Cells) (n : Nat) : Option Cells := do
  let n := min n (← c.size?)
  return { c with head := ← mod? (c.head + n) c.octets.size }

def perform? (c : Cells) : Request → Option (Reply × Cells)
  | .write bs => c.write? bs
  | .peek n => return (.peeked (← c.peek? n), c)
  | .consume n => return (.done, ← c.consume? n)
  | .clear => some (.done, { c with head := 0, tail := 0 })

theorem sub?_eq {m n : Nat} (h : n ≤ m) : sub? m n = some (m - n) :=
  if_pos h

theorem mod?_eq {m n : Nat} (h : 0 < n) : mod? m n = some (m % n) :=
  if_neg (Nat.ne_of_gt h)

@[simp] theorem size_copy (octets : Array UInt8) (i : Nat) (bs : Bytes) :
    (copy octets i bs).size = octets.size := by
  induction bs generalizing octets i with
  | nil => rfl
  | cons b bs ih => rw [copy, ih, Array.size_setIfInBounds]

theorem copy?_eq {octets : Array UInt8} {i j : Nat} {bs : Bytes} (hlen : i + bs.length = j)
    (hj : j ≤ octets.size) : copy? octets i j bs = some (copy octets i bs) :=
  if_pos ⟨by omega, hj, by omega⟩

end Cells

namespace Ring

open Cells

variable {r : Ring} {bs : Bytes}

@[simp] theorem head_append (r : Ring) (bs : Bytes) : (r.append bs).head = r.head := by
  induction bs generalizing r with
  | nil => rfl
  | cons b bs ih => exact ih (r.push b)

theorem tail_append (r : Ring) (bs : Bytes) :
    (r.append bs).tail = (r.tail + bs.length) % r.cells.size := by
  induction bs generalizing r with
  | nil => exact (Nat.mod_eq_of_lt r.tail_lt).symm
  | cons b bs ih =>
    rw [append_cons, ih, size_cells_push, List.length_cons, Nat.add_comm bs.length, ← Nat.add_assoc]
    exact Nat.mod_add_mod ..

theorem cells_append_of_fits (h : r.tail + bs.length ≤ r.cells.size) :
    (r.append bs).cells = copy r.cells r.tail bs := by
  induction bs generalizing r with
  | nil => rfl
  | cons b bs ih =>
    rw [List.length_cons] at h
    have hcells : (r.push b).cells = r.cells.setIfInBounds r.tail b := by
      rw [push, Array.setIfInBounds, dif_pos r.tail_lt]
    cases bs with
    | nil => exact hcells
    | cons b' bs =>
      rw [List.length_cons] at h
      have htail : (r.push b).tail = r.tail + 1 := Nat.mod_eq_of_lt (by omega)
      have hfits : (r.push b).tail + (b' :: bs).length ≤ (r.push b).cells.size := by
        rw [htail, size_cells_push, List.length_cons]
        omega
      rw [append_cons, ih hfits, hcells, htail]
      rfl

/-- Octets that do not fit behind the tail go on in the first cell. -/
theorem cells_append (h : bs.length ≤ r.free) :
    (r.append bs).cells =
      copy (copy r.cells r.tail (bs.take (r.cells.size - r.tail))) 0
        (bs.drop (r.cells.size - r.tail)) := by
  have := r.tail_lt
  have := r.size_add_free
  have hfirst : (r.append (bs.take (r.cells.size - r.tail))).cells =
      copy r.cells r.tail (bs.take (r.cells.size - r.tail)) :=
    cells_append_of_fits (by rw [List.length_take]; omega)
  rcases Nat.lt_or_ge (r.cells.size - r.tail) bs.length with hlt | hge
  · have htail : (r.append (bs.take (r.cells.size - r.tail))).tail = 0 := by
      rw [tail_append, List.length_take, Nat.min_eq_left hlt.le, Nat.add_sub_cancel' (by omega),
        Nat.mod_self]
    rw [← hfirst, ← htail, ← cells_append_of_fits, ← append_append, List.take_append_drop]
    rw [htail, size_cells_append, List.length_drop]
    omega
  · rw [← hfirst, List.drop_of_length_le hge, List.take_of_length_le hge, copy]

theorem map_get_range {n : Nat} (h : n ≤ r.size) :
    (List.range n).map r.get =
      (r.cells.toList.take (r.head + min n (r.cells.size - r.head))).drop r.head ++
        r.cells.toList.take (n - min n (r.cells.size - r.head)) := by
  have := r.head_lt
  have := r.size_lt
  apply List.ext_getElem
  · simp only [List.length_map, List.length_range, List.length_append, List.length_drop,
      List.length_take, Array.length_toList]
    omega
  · intro i hi _
    rw [List.length_map, List.length_range] at hi
    rw [List.getElem_map, List.getElem_range, List.getElem_append]
    split
    next hlt =>
      simp only [List.length_drop, List.length_take, Array.length_toList] at hlt
      simp only [get, List.getElem_drop, List.getElem_take, Array.getElem_toList,
        Nat.mod_eq_of_lt (show r.head + i < r.cells.size by omega)]
    next hge =>
      simp only [List.length_drop, List.length_take, Array.length_toList] at hge
      have hwrap : (r.head + i) % r.cells.size = r.head + i - r.cells.size := by
        rw [Nat.mod_eq_sub_mod (by omega), Nat.mod_eq_of_lt (by omega)]
      simp only [get, List.getElem_take, Array.getElem_toList, hwrap, List.length_drop,
        List.length_take, Array.length_toList]
      congr 1
      omega

def toCells (r : Ring) : Cells :=
  ⟨r.head, r.tail, r.cells⟩

theorem size?_toCells (r : Ring) : r.toCells.size? = some r.size := by
  by_cases h : r.head ≤ r.tail
  · calc r.toCells.size? = sub? r.tail r.head := if_pos h
      _ = some (r.tail - r.head) := sub?_eq h
      _ = some r.size := by rw [size, if_pos h]
  · calc r.toCells.size? = (sub? r.cells.size r.head).bind fun n => some (n + r.tail) := if_neg h
      _ = some (r.cells.size - r.head + r.tail) := by rw [sub?_eq r.head_lt.le, Option.bind_some]
      _ = some r.size := by rw [size, if_neg h, capacity]

theorem free?_toCells (r : Ring) : r.toCells.free? = some r.free := by
  have := r.size_lt
  have := r.capacity_pos
  rw [free?, size?_toCells]
  simp only [toCells, sub?_eq (show 1 ≤ r.cells.size by omega), Option.bind_eq_bind,
    Option.bind_some]
  exact sub?_eq (by omega)

theorem gauge?_toCells (r : Ring) : r.toCells.gauge? = some r.gauge := by
  simp only [gauge?, size?_toCells, free?_toCells, Option.bind_eq_bind, Option.bind_some]
  rfl

theorem write?_toCells (r : Ring) (bs : Bytes) :
    r.toCells.write? bs = some ((r.perform (.write bs)).map id toCells) := by
  have := r.tail_lt
  have := r.size_add_free
  rw [Cells.write?, free?_toCells, Option.bind_eq_bind, Option.bind_some, perform, Ring.write?]
  by_cases h : bs.length ≤ r.free
  · obtain ⟨room, hroom⟩ : ∃ room, room = r.cells.size - r.tail := ⟨_, rfl⟩
    have hfirst : bs.slice? 0 (min bs.length room) = some (bs.take room) := by
      rw [Bytes.slice?, if_pos ⟨Nat.zero_le _, Nat.min_le_left ..⟩, List.drop_zero, Nat.min_comm,
        ← List.take_eq_take_min]
    have hrest : bs.slice? (min bs.length room) bs.length = some (bs.drop room) := by
      rw [Bytes.slice?, if_pos ⟨Nat.min_le_left .., le_rfl⟩, List.take_length, Nat.min_comm,
        ← List.drop_eq_drop_min]
    have hcopy : copy? r.cells r.tail (r.tail + min bs.length room) (bs.take room) =
        some (copy r.cells r.tail (bs.take room)) :=
      copy?_eq (by rw [List.length_take, Nat.min_comm]) (by omega)
    have hwrap : copy? (copy r.cells r.tail (bs.take room)) 0 (bs.length - min bs.length room)
        (bs.drop room) = some (r.append bs).cells := by
      rw [cells_append h, ← hroom]
      exact copy?_eq (by rw [List.length_drop]; omega) (by rw [size_copy]; omega)
    rw [if_neg (by omega), if_pos h]
    simp only [toCells, sub?_eq r.tail_lt.le, ← hroom, hfirst, hcopy, hrest, hwrap,
      sub?_eq (Nat.min_le_left bs.length room), mod?_eq r.capacity_pos, size_cells_append,
      Option.bind_eq_bind, Option.bind_some, ← tail_append]
    rw [← head_append r bs]
    rfl
  · rw [if_pos (by omega), if_neg h]
    rfl

theorem peek?_toCells (r : Ring) (n : Nat) : r.toCells.peek? n = some (r.peek? n) := by
  have := r.head_lt
  have := r.size_lt
  rw [Cells.peek?, size?_toCells, Option.bind_eq_bind, Option.bind_some, Ring.peek?]
  by_cases h : n ≤ r.size
  · obtain ⟨first, hfirst⟩ : ∃ first, first = min n (r.cells.size - r.head) := ⟨_, rfl⟩
    have hold : Bytes.slice? r.cells.toList r.head (r.head + first) =
        some ((r.cells.toList.take (r.head + first)).drop r.head) :=
      if_pos ⟨Nat.le_add_right .., by rw [Array.length_toList]; omega⟩
    have hnew : Bytes.slice? r.cells.toList 0 (n - first) =
        some (r.cells.toList.take (n - first)) :=
      if_pos ⟨Nat.zero_le _, by rw [Array.length_toList]; omega⟩
    rw [if_neg (by omega), if_pos h, map_get_range h]
    simp only [toCells, sub?_eq r.head_lt.le, ← hfirst, sub?_eq (show first ≤ n by omega), hold,
      hnew, Option.bind_eq_bind, Option.bind_some]
    rfl
  · rw [if_pos (by omega), if_neg h]
    rfl

theorem consume?_toCells (r : Ring) (n : Nat) :
    r.toCells.consume? n = some (r.consume n).toCells := by
  rw [consume?, size?_toCells]
  simp only [toCells, Option.bind_eq_bind, Option.bind_some, mod?_eq r.capacity_pos]
  rfl

theorem perform?_toCells (r : Ring) (q : Request) :
    r.toCells.perform? q = some ((r.perform q).map id toCells) := by
  cases q with
  | write bs => exact r.write?_toCells bs
  | peek n => rw [perform?, peek?_toCells]; rfl
  | consume n => rw [perform?, consume?_toCells]; rfl
  | clear => rfl

/-- Whatever is asked of a new ring, the list with a limit one below the capacity gives the same
replies, and so do the cells, of which no check fails. In the end, and so after each request, they
hold the same octets, say the same of themselves, and both positions are cells. -/
theorem history_empty (capacity : Nat) (qs : List Request) :
    ∃ replies r, history perform (empty capacity) qs = (replies, r) ∧
      history Queue.perform (.empty (max capacity 2 - 1)) qs = (replies, r.toQueue) ∧
      r.toQueue.gauge = r.gauge ∧
      history? Cells.perform? (.zeroed capacity) qs = some (replies, r.toCells) ∧
      r.toCells.gauge? = some r.gauge ∧
      r.toCells.octets.size = max capacity 2 ∧ r.toCells.head < max capacity 2 ∧
      r.toCells.tail < max capacity 2 := by
  have hqueue : Queue.empty (max capacity 2 - 1) = (empty capacity).toQueue := by
    simp only [toQueue, Queue.empty, toList_empty, capacity_empty]
  have hcapacity : (history perform (empty capacity) qs).2.cells.size = max capacity 2 :=
    (history_snd_eq capacity_perform (empty capacity) qs).trans (capacity_empty capacity)
  refine ⟨_, _, rfl, ?_, gauge_toQueue _, ?_, gauge?_toCells _, hcapacity, ?_, ?_⟩
  · rw [hqueue]
    exact history_map perform_toQueue _ qs
  · exact history?_map perform?_toCells (empty capacity) qs
  · exact hcapacity ▸ head_lt _
  · exact hcapacity ▸ tail_lt _

example : (history perform (empty 3) [.write [1, 2], .consume 1, .write [3], .peek 2, .peek 3]).1 =
    [.written true, .done, .written true, .peeked (some [2, 3]), .peeked none] := by decide

end Ring

end ChatRelay
