import ChatRelay.Table
import Mathlib.Data.List.Nodup
import Mathlib.Data.List.Perm.Basic

/-! # Tables and their values -/

namespace ChatRelay.Table

variable {κ α : Type} [DecidableEq κ] {t : Table κ α} {k : κ} {a : α}

theorem get?_eq_some_iff : t.get? k = some a ↔ (k, a) ∈ t.entries := by
  rw [get?, Option.map_eq_some_iff]
  constructor
  · rintro ⟨e, he, rfl⟩
    have hk : e.1 = k := by simpa using List.find?_some he
    exact hk ▸ List.mem_of_find?_eq_some he
  · intro hmem
    have hfound : (t.entries.find? (·.1 = k)).isSome :=
      List.find?_isSome.2 ⟨(k, a), hmem, by simp⟩
    obtain ⟨e, he⟩ := Option.isSome_iff_exists.1 hfound
    have hk : e.1 = k := by simpa using List.find?_some he
    have heq : e = (k, a) :=
      List.inj_on_of_nodup_map t.nodup (List.mem_of_find?_eq_some he) hmem hk
    exact ⟨e, he, by rw [heq]⟩

theorem size_eq_zero_iff : t.size = 0 ↔ ∀ k, t.get? k = none := by
  rw [size, List.length_eq_zero_iff, List.eq_nil_iff_forall_not_mem]
  constructor
  · intro h k
    exact Option.eq_none_iff_forall_ne_some.2 fun a ha => h _ (get?_eq_some_iff.1 ha)
  · rintro h ⟨k, a⟩ hmem
    cases (h k).symm.trans (get?_eq_some_iff.2 hmem)

theorem contains_insert {k' : κ} :
    (t.insert k a).contains k' = true ↔ k = k' ∨ t.contains k' = true := by
  unfold contains
  rw [get?_insert]
  split
  · next h => simp [h]
  · next h => simp [h]

theorem contains_erase {k' : κ} :
    (t.erase k).contains k' = true ↔ k ≠ k' ∧ t.contains k' = true := by
  unfold contains
  rw [get?_erase]
  split
  · next h => simp [h]
  · next h => simp [h]

theorem erase_eq_self (h : t.get? k = none) : t.erase k = t := by
  have hne : ∀ e ∈ t.entries, e.1 ≠ k := by
    rintro ⟨k', a'⟩ hmem rfl
    cases h.symm.trans (get?_eq_some_iff.2 hmem)
  have hentries : (t.erase k).entries = t.entries := by simpa [erase, filter] using hne
  cases t
  simpa [erase, filter] using hentries

theorem erase_insert_self (h : t.get? k = none) : (t.insert k a).erase k = t := by
  have herase : (t.insert k a).erase k = t.erase k := by simp [insert, erase, filter]
  rw [herase, erase_eq_self h]

theorem size_insert (h : t.get? k = none) : (t.insert k a).size = t.size + 1 := by
  have hsize : (t.insert k a).size = (t.erase k).size + 1 := rfl
  rw [hsize, erase_eq_self h]

theorem mem_values_iff : a ∈ t.values ↔ ∃ k, t.get? k = some a := by
  simp only [values, List.mem_map, get?_eq_some_iff, Prod.exists, exists_eq_right]

@[simp] theorem get?_filter (t : Table κ α) (p : κ → α → Bool) (k : κ) :
    (t.filter p).get? k = (t.get? k).filter (p k) := by
  ext a
  rw [Option.filter_eq_some_iff, get?_eq_some_iff, get?_eq_some_iff]
  simp [filter]

theorem size_congr {t' : Table κ α} (h : ∀ k, t.get? k = t'.get? k) : t.size = t'.size := by
  apply List.Perm.length_eq
  apply (List.perm_ext_iff_of_nodup (.of_map _ t.nodup) (.of_map _ t'.nodup)).2
  rintro ⟨k, a⟩
  rw [← get?_eq_some_iff, ← get?_eq_some_iff, h]

theorem nodup_values (h : ∀ j k a, t.get? j = some a → t.get? k = some a → j = k) :
    t.values.Nodup := by
  refine List.Nodup.map_on ?_ (List.Nodup.of_map _ t.nodup)
  rintro ⟨j, a⟩ hj ⟨k, b⟩ hk rfl
  rw [h j k a (get?_eq_some_iff.2 hj) (get?_eq_some_iff.2 hk)]

end ChatRelay.Table
