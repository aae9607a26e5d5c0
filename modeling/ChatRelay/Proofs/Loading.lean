import ChatRelay.Proofs.Credentials
import ChatRelay.Proofs.Table

/-! # Loading accounts

A list of accounts is taken in as a whole or not at all, whatever its order. If it is not, the error
is for the first account in it that is not well-formed or has the id of an earlier one, and says the
first thing that is wrong with that account.
-/

namespace ChatRelay

namespace Account

variable {a : Account} {f : AccountFault}

def IdFits (a : Account) : Prop :=
  1 ≤ (Utf8.encode a.userId).length ∧ (Utf8.encode a.userId).length ≤ maxNameLength

structure WellFormed (a : Account) : Prop where
  idFits : a.IdFits
  hashLength : a.passwordHash.length = 64
  hashDigits : ∀ c ∈ a.passwordHash.toList, isHashDigit c = true

/-- The first thing that is wrong with an account. -/
inductive Flaw (a : Account) : AccountFault → Prop
  | id (h : ¬ a.IdFits) : Flaw a .idLength
  | hashLength (hid : a.IdFits) (h : (Utf8.encode a.passwordHash).length ≠ 64) :
      Flaw a (.hashLength (Utf8.encode a.passwordHash).length)
  | hashDigits (hid : a.IdFits) (hlen : (Utf8.encode a.passwordHash).length = 64)
      (h : ∃ c ∈ a.passwordHash.toList, isHashDigit c = false) : Flaw a .hashDigits

theorem fault?_of_not_idFits (h : ¬ a.IdFits) : a.fault? = some .idLength := by
  unfold IdFits at h
  exact if_pos (by omega)

theorem fault?_of_idFits (h : a.IdFits) : a.fault? =
    if (Utf8.encode a.passwordHash).length ≠ 64 then
      some (.hashLength (Utf8.encode a.passwordHash).length)
    else if a.passwordHash.toList.all isHashDigit then none
    else some .hashDigits := by
  unfold IdFits at h
  exact if_neg (by omega)

theorem length_encode_of_hashDigits {s : String} (h : ∀ c ∈ s.toList, isHashDigit c = true) :
    (Utf8.encode s).length = s.length := by
  have hone : ∀ c ∈ s.toList, (String.utf8EncodeChar c).length = 1 := by
    intro c hc
    have hdigit := h c hc
    simp only [isHashDigit, Bool.or_eq_true, Bool.and_eq_true, decide_eq_true_eq] at hdigit
    have hle : c ≤ '\x7f' := by
      obtain ⟨-, hle⟩ | ⟨-, hle⟩ := hdigit <;> exact Char.le_trans hle (by decide)
    rw [String.length_utf8EncodeChar]
    exact Char.utf8Size_eq_one_iff.2 hle
  rw [Utf8.encode, List.length_flatMap, List.map_congr_left hone, ← String.length_toList]
  simp

theorem fault?_eq_none_iff : a.fault? = none ↔ a.WellFormed := by
  by_cases hid : a.IdFits
  · rw [fault?_of_idFits hid]
    constructor
    · intro h
      by_cases hlen : (Utf8.encode a.passwordHash).length = 64
      · rw [if_neg (not_not.2 hlen)] at h
        have hdigits : ∀ c ∈ a.passwordHash.toList, isHashDigit c = true := by simpa using h
        exact ⟨hid, (length_encode_of_hashDigits hdigits).symm.trans hlen, hdigits⟩
      · rw [if_pos hlen] at h
        cases h
    · intro h
      have hlen := (length_encode_of_hashDigits h.hashDigits).trans h.hashLength
      rw [if_neg (not_not.2 hlen), if_pos (List.all_eq_true.2 h.hashDigits)]
  · rw [fault?_of_not_idFits hid]
    exact iff_of_false nofun fun h => hid h.idFits

theorem fault?_eq_some_iff : a.fault? = some f ↔ a.Flaw f := by
  constructor
  · intro h
    by_cases hid : a.IdFits
    · rw [fault?_of_idFits hid] at h
      split at h
      · next hlen =>
        cases h
        exact .hashLength hid hlen
      · next hlen =>
        split at h
        · cases h
        · next hdigits =>
          cases h
          refine .hashDigits hid (not_not.1 hlen) ?_
          simpa using hdigits
    · rw [fault?_of_not_idFits hid] at h
      cases h
      exact .id hid
  · intro h
    cases h with
    | id h => exact fault?_of_not_idFits h
    | hashLength hid h => rw [fault?_of_idFits hid, if_pos h]
    | hashDigits hid hlen h =>
      rw [fault?_of_idFits hid, if_neg (not_not.2 hlen), if_neg]
      simpa using h

end Account

namespace Store

variable {s s' : Store} {a : Account} {accounts : List Account} {e : StoreError}

/-- What is said of an account that comes after `before`. -/
inductive Offence (before : List Account) (a : Account) : StoreError → Prop
  | malformed {f : AccountFault} (h : a.Flaw f) : Offence before a (.ofFault a f)
  | repeated (h : a.WellFormed) (hid : a.userId ∈ before.map Account.userId) :
      Offence before a (.duplicateUser a.userId)

/-- `e` is about the first account in the list that is not well-formed or repeats an id. -/
def FirstOffence (accounts : List Account) (e : StoreError) : Prop :=
  ∃ before a after, accounts = before ++ a :: after ∧ (∀ b ∈ before, b.WellFormed) ∧
    (before.map Account.userId).Nodup ∧ Offence before a e

theorem add_eq_error_iff : s.add a = .error e ↔
    (∃ f, a.fault? = some f ∧ e = .ofFault a f) ∨
      a.fault? = none ∧ s.passwordHash? a.userId ≠ none ∧ e = .duplicateUser a.userId := by
  unfold add passwordHash?
  cases a.fault? with
  | some f => simp [eq_comm]
  | none =>
    cases hid : s.accounts.get? a.userId with
    | some hash => simp [Table.contains, hid, eq_comm]
    | none => simp [Table.contains, hid]

/-- An error is for the first account that cannot be added to those before it. -/
theorem addAll_eq_error_iff : s.addAll accounts = .error e ↔
    ∃ before a after s', accounts = before ++ a :: after ∧ s.addAll before = .ok s' ∧
      s'.add a = .error e := by
  constructor
  · intro h
    induction accounts generalizing s with
    | nil => cases h
    | cons a accounts ih =>
      unfold addAll at h
      split at h
      · next s₁ hadd =>
        obtain ⟨before, b, after, s', rfl, hbefore, hb⟩ := ih h
        refine ⟨a :: before, b, after, s', rfl, ?_, hb⟩
        rw [addAll, hadd]
        exact hbefore
      · next e' hadd =>
        cases h
        exact ⟨[], a, accounts, s, rfl, rfl, hadd⟩
  · rintro ⟨before, a, after, s', rfl, hbefore, ha⟩
    induction before generalizing s with
    | nil =>
      cases hbefore
      rw [List.nil_append, addAll, ha]
    | cons b before ih =>
      unfold addAll at hbefore
      split at hbefore
      · next s₁ hadd =>
        rw [List.cons_append, addAll, hadd]
        exact ih hbefore
      · cases hbefore

theorem exists_addAll (hfault : ∀ a ∈ accounts, a.fault? = none)
    (hfresh : ∀ a ∈ accounts, s.passwordHash? a.userId = none)
    (hnodup : (accounts.map Account.userId).Nodup) : ∃ s', s.addAll accounts = .ok s' := by
  induction accounts generalizing s with
  | nil => exact ⟨s, rfl⟩
  | cons a accounts ih =>
    rw [List.forall_mem_cons] at hfault hfresh
    rw [List.map_cons, List.nodup_cons, List.mem_map] at hnodup
    rw [addAll, add_eq_ok_iff.2 ⟨hfault.1, hfresh.1, rfl⟩]
    refine ih hfault.2 (fun b hb => ?_) hnodup.2
    have hne : a.userId ≠ b.userId := fun hid => hnodup.1 ⟨b, hb, hid.symm⟩
    rw [passwordHash?, Table.get?_insert, if_neg hne]
    exact hfresh.2 b hb

theorem accountCount_addAll (h : s.addAll accounts = .ok s') :
    s'.accountCount = s.accountCount + accounts.length := by
  induction accounts generalizing s with
  | nil =>
    cases h
    rfl
  | cons a accounts ih =>
    unfold addAll at h
    split at h
    · next s₁ hadd =>
      obtain ⟨-, hfresh, rfl⟩ := add_eq_ok_iff.1 hadd
      have hsize := Table.size_insert (a := a.passwordHash) hfresh
      rw [ih h, accountCount, hsize, List.length_cons, accountCount]
      omega
    · cases h

theorem ofAccounts_eq_ok_iff : (∃ s, ofAccounts accounts = .ok s) ↔
    (∀ a ∈ accounts, a.WellFormed) ∧ (accounts.map Account.userId).Nodup := by
  constructor
  · rintro ⟨s, h⟩
    have hloaded := loaded_addAll h
    exact ⟨fun a ha => Account.fault?_eq_none_iff.1 (hloaded.faultless a ha), hloaded.nodup⟩
  · rintro ⟨hwell, hnodup⟩
    have hfault : ∀ a ∈ accounts, a.fault? = none := fun a ha =>
      Account.fault?_eq_none_iff.2 (hwell a ha)
    exact exists_addAll hfault (fun _ _ => rfl) hnodup

theorem passwordHash?_eq_none_iff (h : ofAccounts accounts = .ok s) (id : String) :
    s.passwordHash? id = none ↔ id ∉ accounts.map Account.userId := by
  rw [passwordHash?_ofAccounts h, Option.map_eq_none_iff]
  simp

theorem passwordHash?_perm {others : List Account} (hperm : others.Perm accounts)
    (h : ofAccounts accounts = .ok s) (h' : ofAccounts others = .ok s') (id : String) :
    s'.passwordHash? id = s.passwordHash? id := by
  by_cases hid : id ∈ accounts.map Account.userId
  · obtain ⟨a, ha, rfl⟩ := List.mem_map.1 hid
    rw [passwordHash?_userId h ha, passwordHash?_userId h' (hperm.mem_iff.2 ha)]
  · have hid' : id ∉ others.map Account.userId := mt (hperm.map _).mem_iff.1 hid
    rw [(passwordHash?_eq_none_iff h id).2 hid, (passwordHash?_eq_none_iff h' id).2 hid']

theorem ofAccounts_eq_error_iff : ofAccounts accounts = .error e ↔ FirstOffence accounts e := by
  rw [ofAccounts, addAll_eq_error_iff]
  constructor
  · rintro ⟨before, a, after, s, rfl, hbefore, ha⟩
    obtain ⟨hwell, hnodup⟩ := ofAccounts_eq_ok_iff.1 ⟨s, hbefore⟩
    refine ⟨before, a, after, rfl, hwell, hnodup, ?_⟩
    obtain ⟨f, hf, rfl⟩ | ⟨hnone, hid, rfl⟩ := add_eq_error_iff.1 ha
    · exact .malformed (Account.fault?_eq_some_iff.1 hf)
    · rw [Ne, passwordHash?_eq_none_iff hbefore, not_not] at hid
      exact .repeated (Account.fault?_eq_none_iff.1 hnone) hid
  · rintro ⟨before, a, after, rfl, hwell, hnodup, hoffence⟩
    obtain ⟨s, hbefore⟩ := ofAccounts_eq_ok_iff.2 ⟨hwell, hnodup⟩
    refine ⟨before, a, after, s, rfl, hbefore, add_eq_error_iff.2 ?_⟩
    cases hoffence with
    | malformed h => exact .inl ⟨_, Account.fault?_eq_some_iff.2 h, rfl⟩
    | repeated h hid =>
      have hsome := mt (passwordHash?_eq_none_iff hbefore a.userId).1 (not_not.2 hid)
      exact .inr ⟨Account.fault?_eq_none_iff.2 h, hsome, rfl⟩

/-- A list is taken in exactly if every account in it is well-formed and no id repeats. Then the
store has all of them, each found by its id, and no others, in whatever order they came. Otherwise
the error is for the first account that offends. -/
theorem ofAccounts_whole_or_first_offence (accounts : List Account) :
    ((∃ s, ofAccounts accounts = .ok s) ↔
      (∀ a ∈ accounts, a.WellFormed) ∧ (accounts.map Account.userId).Nodup) ∧
    (∀ s, ofAccounts accounts = .ok s →
      s.accountCount = accounts.length ∧
      (∀ a ∈ accounts, s.passwordHash? a.userId = some a.passwordHash) ∧
      (∀ id, id ∉ accounts.map Account.userId → s.passwordHash? id = none) ∧
      ∀ others : List Account, others.Perm accounts → ∃ s', ofAccounts others = .ok s' ∧
        s'.accountCount = s.accountCount ∧ ∀ id, s'.passwordHash? id = s.passwordHash? id) ∧
    ∀ e, ofAccounts accounts = .error e ↔ FirstOffence accounts e := by
  refine ⟨ofAccounts_eq_ok_iff, fun s h => ?_, fun e => ofAccounts_eq_error_iff⟩
  have hcount : s.accountCount = accounts.length :=
    (accountCount_addAll h).trans (Nat.zero_add _)
  refine ⟨hcount, fun a ha => passwordHash?_userId h ha,
    fun id => (passwordHash?_eq_none_iff h id).2, fun others hperm => ?_⟩
  obtain ⟨hwell, hnodup⟩ := ofAccounts_eq_ok_iff.1 ⟨s, h⟩
  obtain ⟨s', h'⟩ : ∃ s', ofAccounts others = .ok s' :=
    ofAccounts_eq_ok_iff.2
      ⟨fun a ha => hwell a (hperm.mem_iff.1 ha), (hperm.map _).nodup_iff.2 hnodup⟩
  have hcount' : s'.accountCount = others.length :=
    (accountCount_addAll h').trans (Nat.zero_add _)
  exact ⟨s', h', by rw [hcount', hcount, hperm.length_eq], passwordHash?_perm hperm h h'⟩

/-- An account that repeats an id is reported for its hash, if that is not one either. -/
example :
    let hash := String.ofList (List.replicate 64 'a')
    (match ofAccounts [⟨"ann", hash⟩, ⟨"ann", "a"⟩, ⟨"", hash⟩] with
      | .ok _ => none
      | .error e => some e) = some (.invalidAccount "password_sha256" "ann"
        "expected 64 hex characters, got 1 characters") := by
  decide +kernel

end Store

end ChatRelay
