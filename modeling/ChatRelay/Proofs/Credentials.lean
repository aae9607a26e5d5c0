import ChatRelay.Proofs.Canonical
import ChatRelay.Proofs.Packet
import ChatRelay.Store
import Mathlib.Data.List.Nodup

/-! # Accounts that can be used

A store takes in a list of accounts if each is well-formed and no id repeats. An account is found by
the id that a login request carries for it, and by that alone, unless the id holds a NUL: a field
ends at the first one, so that it is the part before it that is looked up.
-/

namespace ChatRelay

def beforeNul (s : String) : String :=
  String.ofList (s.toList.takeWhile (· ≠ '\x00'))

theorem beforeNul_eq_self_iff {s : String} : beforeNul s = s ↔ NulFree s := by
  rw [beforeNul, ← String.toList_inj, String.toList_ofList, List.takeWhile_eq_self_iff]
  simp only [decide_eq_true_eq, NulFree]
  exact List.forall_mem_ne'

namespace Field

variable {width : Nat} {s : String} {f : Field width}

theorem takeWhile_padded (cs : List Char) (n : Nat) :
    (cs.flatMap String.utf8EncodeChar ++ List.replicate n 0).takeWhile (· ≠ 0) =
      (cs.takeWhile (· ≠ '\x00')).flatMap String.utf8EncodeChar := by
  induction cs with
  | nil => cases n <;> simp [List.replicate_succ]
  | cons c cs ih =>
    by_cases hc : c = '\x00'
    · subst hc
      simp [String.utf8EncodeChar]
    · have hne : ∀ b ∈ String.utf8EncodeChar c, decide (b ≠ 0) = true := fun b hb =>
        decide_eq_true fun h => Utf8.zero_notMem_encodeChar hc (h ▸ hb)
      rw [List.flatMap_cons, List.append_assoc, List.takeWhile_append_of_pos hne, ih,
        List.takeWhile_cons_of_pos (by simpa using hc), List.flatMap_cons]

theorem bytes_of_raw (h : f.raw = (Utf8.encode s).padded width) :
    f.bytes = Utf8.encode (beforeNul s) := by
  rw [bytes, h, Bytes.padded, Utf8.encode, takeWhile_padded, Utf8.encode, beforeNul,
    String.toList_ofList]

theorem ofText_eq_ok (h : ofText s = .ok f) :
    (Utf8.encode s).length ≤ width - 1 ∧ f.raw = (Utf8.encode s).padded width := by
  unfold ofText at h
  split at h
  · next hlen =>
    cases h
    exact ⟨hlen, rfl⟩
  · cases h

theorem text_ofText (h : ofText s = .ok f) : f.text = beforeNul s := by
  rw [text, bytes_of_raw (ofText_eq_ok h).2, Utf8.decode_encode]

theorem exists_ofText (h : (Utf8.encode s).length ≤ width - 1) :
    ∃ f : Field width, ofText s = .ok f :=
  ⟨_, dif_pos h⟩

end Field

namespace Account

theorem length_userId_le {a : Account} (h : a.fault? = none) :
    (Utf8.encode a.userId).length ≤ maxNameLength := by
  unfold fault? at h
  dsimp only at h
  split at h
  · cases h
  · next hlen => exact Nat.le_of_not_lt (not_or.1 hlen).2

end Account

namespace Store

variable {s s' : Store} {a b : Account} {accounts : List Account} {id : String}

theorem add_eq_ok_iff : s.add a = .ok s' ↔ a.fault? = none ∧ s.passwordHash? a.userId = none ∧
    s' = { s with accounts := s.accounts.insert a.userId a.passwordHash } := by
  unfold add passwordHash?
  cases a.fault? with
  | some f => simp
  | none =>
    cases hid : s.accounts.get? a.userId with
    | some hash => simp [Table.contains, hid]
    | none => simp [Table.contains, hid, eq_comm]

/-- `s'` is `s` with accounts that are well-formed and new, no two of them of one id. -/
structure Loaded (s : Store) (accounts : List Account) (s' : Store) : Prop where
  faultless : ∀ a ∈ accounts, a.fault? = none
  fresh : ∀ a ∈ accounts, s.passwordHash? a.userId = none
  nodup : (accounts.map Account.userId).Nodup
  lookup : ∀ id, s'.passwordHash? id =
    ((accounts.find? (·.userId = id)).map Account.passwordHash).or (s.passwordHash? id)

theorem loaded_addAll (h : s.addAll accounts = .ok s') : Loaded s accounts s' := by
  induction accounts generalizing s with
  | nil =>
    cases h
    constructor <;> simp
  | cons a accounts ih =>
    unfold addAll at h
    split at h
    · next s₁ hadd =>
      obtain ⟨hfault, hfresh, rfl⟩ := add_eq_ok_iff.1 hadd
      obtain ⟨hfaults, hrest, hnodup, hlookup⟩ := ih h
      simp only [passwordHash?, Table.get?_insert] at hrest hlookup
      have hne : ∀ b ∈ accounts, a.userId ≠ b.userId := by
        intro b hb heq
        have hb := hrest b hb
        rw [if_pos heq] at hb
        cases hb
      refine ⟨?_, ?_, ?_, fun id => ?_⟩
      · exact List.forall_mem_cons.2 ⟨hfault, hfaults⟩
      · refine List.forall_mem_cons.2 ⟨hfresh, fun b hb => ?_⟩
        have hb' := hrest b hb
        rwa [if_neg (hne b hb)] at hb'
      · simpa [hnodup] using fun b hb heq => hne b hb heq.symm
      · rw [passwordHash?, hlookup, List.find?_cons]
        by_cases hid : a.userId = id
        · have hnone : accounts.find? (·.userId = id) = none := by
            simpa [← hid] using fun b hb heq => hne b hb heq.symm
          simp [hid, hnone]
        · simp [hid, passwordHash?]
    · cases h

section

variable (h : ofAccounts accounts = .ok s)

include h

theorem passwordHash?_ofAccounts (id : String) :
    s.passwordHash? id = (accounts.find? (·.userId = id)).map Account.passwordHash := by
  rw [(loaded_addAll h).lookup]
  exact Option.or_none

theorem eq_of_userId_eq (ha : a ∈ accounts) (hb : b ∈ accounts) (hid : a.userId = b.userId) :
    a = b :=
  List.inj_on_of_nodup_map (loaded_addAll h).nodup ha hb hid

theorem passwordHash?_userId (ha : a ∈ accounts) :
    s.passwordHash? a.userId = some a.passwordHash := by
  rw [passwordHash?_ofAccounts h, Option.map_eq_some_iff]
  have hsome : (accounts.find? (·.userId = a.userId)).isSome :=
    List.find?_isSome.2 ⟨a, ha, decide_eq_true rfl⟩
  obtain ⟨b, hfound⟩ := Option.isSome_iff_exists.1 hsome
  have hid : b.userId = a.userId := by simpa using List.find?_some hfound
  have hb : b ∈ accounts := List.mem_of_find?_eq_some hfound
  exact ⟨b, hfound, congrArg Account.passwordHash (eq_of_userId_eq h hb ha hid)⟩

end

/-- For every account that was taken in there is a login request, whatever password and name that
fit go with it, and it is read back as it was written. What is looked up is the part of the id
before the first NUL. So a request leads to its account and no other exactly if there is no NUL in
the id, and no two such accounts are looked up alike. -/
theorem account_found_iff (h : ofAccounts accounts = .ok s) (ha : a ∈ accounts)
    (password username : String) (hpassword : (Utf8.encode password).length ≤ maxNameLength)
    (husername : (Utf8.encode username).length ≤ maxNameLength) :
    ∃ userId password' username' : NameField,
      let request := Packet.loginRequest userId password' username'
      Packet.ofLogin a.userId password username = .ok request ∧
        Packet.decode request.encode = .ok request ∧
        userId.text = beforeNul a.userId ∧
        ((∀ b ∈ accounts, b.userId = userId.text ↔ b = a) ↔ NulFree a.userId) ∧
        (NulFree a.userId → s.passwordHash? userId.text = some a.passwordHash) ∧
        ∀ b ∈ accounts, NulFree a.userId → NulFree b.userId →
          beforeNul b.userId = userId.text → b = a := by
  have hfits := Account.length_userId_le ((loaded_addAll h).faultless a ha)
  obtain ⟨userId, huserId⟩ : ∃ f : NameField, Field.ofText a.userId = .ok f :=
    Field.exists_ofText hfits
  obtain ⟨password', hpassword'⟩ : ∃ f : NameField, Field.ofText password = .ok f :=
    Field.exists_ofText hpassword
  obtain ⟨username', husername'⟩ : ∃ f : NameField, Field.ofText username = .ok f :=
    Field.exists_ofText husername
  have htext : userId.text = beforeNul a.userId := Field.text_ofText huserId
  have hwhole (hn : NulFree a.userId) : userId.text = a.userId :=
    htext.trans (beforeNul_eq_self_iff.2 hn)
  refine ⟨userId, password', username', ?_, Packet.decode_encode _, htext, ⟨?_, ?_⟩, ?_, ?_⟩
  · simp only [Packet.ofLogin, huserId, hpassword', husername']
    rfl
  · intro honly
    have hid : a.userId = userId.text := (honly a ha).2 rfl
    exact beforeNul_eq_self_iff.1 (htext.symm.trans hid.symm)
  · intro hn b hb
    rw [hwhole hn]
    refine ⟨fun hid => eq_of_userId_eq h hb ha hid, ?_⟩
    rintro rfl
    rfl
  · intro hn
    rw [hwhole hn]
    exact passwordHash?_userId h ha
  · intro b hb hn hn' hsame
    rw [beforeNul_eq_self_iff.2 hn', hwhole hn] at hsame
    exact eq_of_userId_eq h hb ha hsame

theorem account_found_iff_widest :
    let id := String.ofList (List.replicate 16 'ß')
    let hash := String.ofList (List.replicate 64 'a')
    ∃ s, ofAccounts [⟨id, hash⟩, ⟨"bob", hash⟩] = .ok s ∧ (Utf8.encode id).length = 32 ∧
      ∃ userId password username : NameField,
        Packet.ofLogin id "secret" "ann" = .ok (.loginRequest userId password username) ∧
          userId.text = id ∧ s.passwordHash? userId.text = some hash := by
  intro id hash
  obtain ⟨s, hs⟩ : ∃ s, ofAccounts [⟨id, hash⟩, ⟨"bob", hash⟩] = .ok s := by
    have hok : (ofAccounts [⟨id, hash⟩, ⟨"bob", hash⟩]).isOk = true := by decide +kernel
    cases h : ofAccounts [⟨id, hash⟩, ⟨"bob", hash⟩] with
    | ok s => exact ⟨s, rfl⟩
    | error e =>
      rw [h] at hok
      cases hok
  have hn : NulFree id := by decide +kernel
  obtain ⟨userId, password, username, hrequest, -, htext, -, hfound, -⟩ :=
    account_found_iff hs List.mem_cons_self "secret" "ann" (by decide +kernel) (by decide +kernel)
  exact ⟨s, hs, by decide +kernel, userId, password, username, hrequest,
    htext.trans (beforeNul_eq_self_iff.2 hn), hfound hn⟩

theorem account_of_nul_id :
    let hash (c : Char) := String.ofList (List.replicate 64 c)
    let accounts : List Account := [⟨"a\x00b", hash 'a'⟩, ⟨"a", hash 'b'⟩]
    let userId : NameField := .truncated "a\x00b"
    (ofAccounts accounts).toOption.map (·.passwordHash? userId.text) = some (some (hash 'b')) ∧
      Packet.ofLogin "a\x00b" "secret" "ann" =
        .ok (.loginRequest userId (.truncated "secret") (.truncated "ann")) ∧
      userId.text = "a" := by
  decide +kernel

end Store

end ChatRelay
