/-! # Tables

Finite maps as lists of entries, the newest first. No key occurs twice, so the number of entries is
the number of keys.
-/

namespace ChatRelay

structure Table (κ : Type) (α : Type) where
  entries : List (κ × α)
  nodup : (entries.map Prod.fst).Nodup

namespace Table

variable {κ α : Type} [DecidableEq κ]

def empty : Table κ α :=
  ⟨[], List.nodup_nil⟩

instance : Inhabited (Table κ α) :=
  ⟨empty⟩

def size (t : Table κ α) : Nat :=
  t.entries.length

def values (t : Table κ α) : List α :=
  t.entries.map Prod.snd

def get? (t : Table κ α) (k : κ) : Option α :=
  (t.entries.find? (·.1 = k)).map Prod.snd

def contains (t : Table κ α) (k : κ) : Bool :=
  (t.get? k).isSome

def filter (t : Table κ α) (p : κ → α → Bool) : Table κ α :=
  ⟨t.entries.filter fun e => p e.1 e.2,
    t.nodup.sublist (List.filter_sublist.map _)⟩

def erase (t : Table κ α) (k : κ) : Table κ α :=
  t.filter fun k' _ => k' ≠ k

theorem notMem_keys_erase (t : Table κ α) (k : κ) : k ∉ (t.erase k).entries.map Prod.fst := by
  simp [erase, filter]

def insert (t : Table κ α) (k : κ) (a : α) : Table κ α :=
  ⟨(k, a) :: (t.erase k).entries, List.nodup_cons.2 ⟨t.notMem_keys_erase k, (t.erase k).nodup⟩⟩

@[simp] theorem get?_empty (k : κ) : (empty : Table κ α).get? k = none := rfl

theorem get?_insert (t : Table κ α) (k k' : κ) (a : α) :
    (t.insert k a).get? k' = if k = k' then some a else t.get? k' := by
  by_cases h : k = k'
  · simp [insert, get?, h]
  · simp only [insert, get?, h, decide_false, Bool.false_eq_true, not_false_eq_true,
      List.find?_cons_of_neg, erase, filter, List.find?_filter, if_false]
    congr 2
    funext e
    by_cases he : e.1 = k'
    · simp [he, Ne.symm h]
    · simp [he]

theorem get?_erase (t : Table κ α) (k k' : κ) :
    (t.erase k).get? k' = if k = k' then none else t.get? k' := by
  by_cases h : k = k'
  · simp [erase, filter, get?, h]
  · simp only [get?, erase, filter, List.find?_filter, h, if_false]
    congr 2
    funext e
    by_cases he : e.1 = k'
    · simp [he, Ne.symm h]
    · simp [he]

end Table

end ChatRelay
