import ChatRelay.Wire.Field
import Mathlib.Algebra.Group.Nat.Defs
import Mathlib.Data.List.TakeWhile
import Mathlib.Tactic.Common

/-! # Text in fields

Text that is written is read back as it was, and whatever octets are read, no NUL comes out of
octets other than NUL. So a field that is written shows as much of its text as fits.
-/

namespace ChatRelay

namespace Utf8

variable {n : Nat} {bs : Bytes} {p : Pending}

/-! ## Reading what was written -/

theorem lead_ofNat (h : n < 256) :
    lead (UInt8.ofNat n) =
      if n < 128 then .char (Char.ofNat n)
      else if n < 194 then .bad
      else if n < 224 then .more ⟨n - 192, 1, 0x80, 0xBF⟩
      else if n < 240 then
        .more ⟨n - 224, 2, if n = 224 then 0xA0 else 0x80, if n = 237 then 0x9F else 0xBF⟩
      else if n < 245 then
        .more ⟨n - 240, 3, if n = 240 then 0x90 else 0x80, if n = 244 then 0x8F else 0xBF⟩
      else .bad := by
  have hn : (UInt8.ofNat n).toNat = n := by
    rw [UInt8.toNat_ofNat', Nat.mod_eq_of_lt h]
  simp only [lead, UInt8.lt_iff_toNat_lt, ← UInt8.toNat_inj, hn]
  rfl

theorem lead_one (h : n < 128) : lead (UInt8.ofNat n) = .char (Char.ofNat n) := by
  rw [lead_ofNat (by omega), if_pos h]

theorem lead_two (h : 2 ≤ n) (h' : n < 32) :
    lead (UInt8.ofNat (n + 192)) = .more ⟨n, 1, 0x80, 0xBF⟩ := by
  rw [lead_ofNat (by omega), if_neg (by omega), if_neg (by omega), if_pos (by omega),
    Nat.add_sub_cancel]

theorem lead_three (h : n < 16) :
    lead (UInt8.ofNat (n + 224)) =
      .more ⟨n, 2, if n = 0 then 0xA0 else 0x80, if n = 13 then 0x9F else 0xBF⟩ := by
  rw [lead_ofNat (by omega), if_neg (by omega), if_neg (by omega), if_neg (by omega),
    if_pos (by omega), Nat.add_sub_cancel]
  simp only [Nat.add_eq_right, Nat.reduceEqDiff]

theorem lead_four (h : n < 5) :
    lead (UInt8.ofNat (n + 240)) =
      .more ⟨n, 3, if n = 0 then 0x90 else 0x80, if n = 4 then 0x8F else 0xBF⟩ := by
  rw [lead_ofNat (by omega), if_neg (by omega), if_neg (by omega), if_neg (by omega),
    if_neg (by omega), if_pos (by omega), Nat.add_sub_cancel]
  simp only [Nat.add_eq_right, Nat.reduceEqDiff]

theorem scan_char {b : UInt8} {c : Char} (h : lead b = .char c) (bs : Bytes) :
    scan none (b :: bs) = some c :: scan none bs := by
  simp only [scan, h]

theorem scan_more {b : UInt8} (h : lead b = .more p) (bs : Bytes) :
    scan none (b :: bs) = scan (some p) bs := by
  simp only [scan, h]

theorem scan_continued {value missing : Nat} {low high : UInt8} (hlow : low.toNat ≤ n + 128)
    (hhigh : n + 128 ≤ high.toNat) (bs : Bytes) :
    scan (some ⟨value, missing, low, high⟩) (UInt8.ofNat (n + 128) :: bs) =
      if missing ≤ 1 then some (Char.ofNat (value * 64 + n)) :: scan none bs
      else scan (some ⟨value * 64 + n, missing - 1, 0x80, 0xBF⟩) bs := by
  have hn : (UInt8.ofNat (n + 128)).toNat = n + 128 := by
    have := high.toNat_lt
    rw [UInt8.toNat_ofNat', Nat.mod_eq_of_lt (by omega)]
  have hb : low ≤ UInt8.ofNat (n + 128) ∧ UInt8.ofNat (n + 128) ≤ high := by
    rw [UInt8.le_iff_toNat_le, UInt8.le_iff_toNat_le, hn]
    exact ⟨hlow, hhigh⟩
  simp only [scan, if_pos hb, hn, Nat.add_sub_cancel]

theorem scan_last {value : Nat} (h : n < 64) (bs : Bytes) :
    scan (some ⟨value, 1, 0x80, 0xBF⟩) (UInt8.ofNat (n + 128) :: bs) =
      some (Char.ofNat (value * 64 + n)) :: scan none bs :=
  scan_continued (Nat.le_add_left 128 n) (Nat.add_le_add_right (Nat.le_of_lt_succ h) 128) bs

theorem scan_next {value missing : Nat} (h : n < 64) (bs : Bytes) :
    scan (some ⟨value, missing + 2, 0x80, 0xBF⟩) (UInt8.ofNat (n + 128) :: bs) =
      scan (some ⟨value * 64 + n, missing + 1, 0x80, 0xBF⟩) bs :=
  scan_continued (Nat.le_add_left 128 n) (Nat.add_le_add_right (Nat.le_of_lt_succ h) 128) bs

theorem scan_encodeChar (c : Char) (bs : Bytes) :
    scan none (String.utf8EncodeChar c ++ bs) = some c :: scan none bs := by
  obtain ⟨v, hv⟩ : ∃ v, v = c.val.toNat := ⟨_, rfl⟩
  have hvalid : v < 0xD800 ∨ 0xDFFF < v ∧ v < 0x110000 := hv ▸ c.valid
  have hchar {n : Nat} (hn : n = v) :
      some (Char.ofNat n) :: scan none bs = some c :: scan none bs := by
    rw [hn, hv]
    exact congrArg (fun c => some c :: scan none bs) (Char.ofNat_toNat c)
  simp only [String.utf8EncodeChar, ← hv]
  -- one to four octets, the first of which tells how many
  split
  · next h => exact (scan_char (lead_one (by omega)) bs).trans (hchar rfl)
  · split
    · refine (scan_more (lead_two (by omega) (by omega)) _).trans ?_
      refine (scan_last (by omega) bs).trans (hchar ?_)
      omega
    · split
      · refine (scan_more (lead_three (by omega)) _).trans ?_
        refine (scan_continued (n := v / 64 % 64) ?_ ?_ _).trans ?_
        · simp only [apply_ite UInt8.toNat, UInt8.reduceToNat]
          split <;> omega
        · simp only [apply_ite UInt8.toNat, UInt8.reduceToNat]
          split <;> omega
        · refine (scan_last (by omega) bs).trans (hchar ?_)
          omega
      · refine (scan_more (lead_four (by omega)) _).trans ?_
        refine (scan_continued (n := v / 4096 % 64) ?_ ?_ _).trans ?_
        · simp only [apply_ite UInt8.toNat, UInt8.reduceToNat]
          split <;> omega
        · simp only [apply_ite UInt8.toNat, UInt8.reduceToNat]
          split <;> omega
        · refine (scan_next (by omega) _).trans ?_
          refine (scan_last (by omega) bs).trans (hchar ?_)
          omega

theorem scan_encode (s : String) : scan none (encode s) = s.toList.map some := by
  rw [encode]
  induction s.toList with
  | nil => rfl
  | cons c cs ih => rw [List.flatMap_cons, scan_encodeChar, ih, List.map_cons]

theorem decode_encode (s : String) : decode (encode s) = s := by
  rw [decode, scan_encode]
  simp [Function.comp_def]

/-! ## No NUL from other octets -/

def Pending.least (p : Pending) : Nat :=
  (p.value * 64 + (p.low.toNat - 0x80)) * 64 ^ (p.missing - 1)

def Pending.bound (p : Pending) : Nat :=
  (p.value * 64 + (p.high.toNat - 0x80) + 1) * 64 ^ (p.missing - 1)

/-- Whatever continues `p` makes a character of it, and not NUL. -/
structure Pending.Sound (p : Pending) : Prop where
  least_pos : 0 < p.least
  valid : p.bound ≤ 0xD800 ∨ 0xE000 ≤ p.least ∧ p.bound ≤ 0x110000

theorem char_ne_nul {v : Nat} (h : 0 < v) (hv : v < 0xD800 ∨ 0xE000 ≤ v ∧ v < 0x110000) :
    Char.ofNat v ≠ '\x00' := by
  have hvalid : v.isValidChar := hv.imp_right fun ⟨h, h'⟩ => ⟨Nat.lt_of_succ_le h, h'⟩
  intro h0
  rw [Char.ofNat, dif_pos hvalid] at h0
  exact absurd (congrArg Char.toNat h0) (Nat.ne_of_gt h)

theorem Pending.Sound.mono {q : Pending} (h : p.Sound) (hl : p.least ≤ q.least)
    (hb : q.bound ≤ p.bound) : q.Sound :=
  ⟨Nat.lt_of_lt_of_le h.least_pos hl,
    h.valid.imp (Nat.le_trans hb) fun hv => ⟨Nat.le_trans hv.1 hl, Nat.le_trans hb hv.2⟩⟩

section

variable {b : UInt8} (h : p.Sound) (hlow : p.low ≤ b) (hhigh : b ≤ p.high)

include hlow in
theorem Pending.least_le :
    p.least ≤ (p.value * 64 + (b.toNat - 0x80)) * 64 ^ (p.missing - 1) := by
  rw [UInt8.le_iff_toNat_le] at hlow
  exact Nat.mul_le_mul_right _ (by omega)

include hhigh in
theorem Pending.le_bound :
    (p.value * 64 + (b.toNat - 0x80) + 1) * 64 ^ (p.missing - 1) ≤ p.bound := by
  rw [UInt8.le_iff_toNat_le] at hhigh
  exact Nat.mul_le_mul_right _ (by omega)

include h hlow hhigh

theorem Pending.Sound.next (hm : ¬ p.missing ≤ 1) :
    Pending.Sound ⟨p.value * 64 + (b.toNat - 0x80), p.missing - 1, 0x80, 0xBF⟩ := by
  have hl := Pending.least_le hlow
  have hb := Pending.le_bound hhigh
  set base := p.value * 64 + (b.toNat - 0x80) with hbase
  obtain ⟨m, hm⟩ : ∃ m, p.missing - 1 = m + 1 := ⟨p.missing - 2, by omega⟩
  rw [hm, Nat.pow_succ', ← Nat.mul_assoc] at hl hb
  have hleast : Pending.least ⟨base, m + 1, 0x80, 0xBF⟩ = base * 64 * 64 ^ m := by
    simp only [Pending.least, UInt8.reduceToNat, Nat.sub_self, Nat.add_zero, Nat.add_sub_cancel]
  have hbound : Pending.bound ⟨base, m + 1, 0x80, 0xBF⟩ = (base * 64 + 64) * 64 ^ m := by
    simp only [Pending.bound, UInt8.reduceToNat, Nat.reduceSub, Nat.add_assoc, Nat.reduceAdd,
      Nat.add_sub_cancel]
  rw [hm]
  refine h.mono ?_ ?_
  · exact Nat.le_trans hl (Nat.le_of_eq hleast.symm)
  · rw [Nat.add_mul base, Nat.one_mul] at hb
    exact Nat.le_trans (Nat.le_of_eq hbound) hb

theorem Pending.Sound.last (hm : p.missing ≤ 1) :
    Char.ofNat (p.value * 64 + (b.toNat - 0x80)) ≠ '\x00' := by
  have hl := Pending.least_le hlow
  have hb := Pending.le_bound hhigh
  obtain ⟨hpos, hvalid⟩ := h
  rw [Nat.sub_eq_zero_of_le hm, Nat.pow_zero, Nat.mul_one] at hl hb
  apply char_ne_nul <;> omega

end

theorem sound_of_lead {b : UInt8} (h : lead b = .more p) : p.Sound := by
  have hb : UInt8.ofNat b.toNat = b := UInt8.ofNat_toNat
  rw [← hb, lead_ofNat b.toNat_lt] at h
  -- two, three or four octets
  split at h
  · cases h
  · split at h
    · cases h
    · split at h
      · obtain rfl := Lead.more.inj h
        constructor <;> simp only [Pending.least, Pending.bound, UInt8.reduceToNat] <;> omega
      · split at h
        · obtain rfl := Lead.more.inj h
          constructor <;>
            simp only [Pending.least, Pending.bound, apply_ite UInt8.toNat, UInt8.reduceToNat] <;>
            split <;> (try split) <;> omega
        · split at h
          · obtain rfl := Lead.more.inj h
            constructor <;>
              simp only [Pending.least, Pending.bound, apply_ite UInt8.toNat, UInt8.reduceToNat] <;>
              split <;> (try split) <;> omega
          · cases h

theorem ne_nul_of_lead {b : UInt8} {c : Char} (h : lead b = .char c) (hb : 0 ≠ b) :
    c ≠ '\x00' := by
  have hof : UInt8.ofNat b.toNat = b := UInt8.ofNat_toNat
  have hpos : 0 < b.toNat := by
    rw [Nat.pos_iff_ne_zero]
    intro h0
    exact hb (UInt8.toNat_inj.1 h0.symm)
  rw [← hof, lead_ofNat b.toNat_lt] at h
  split at h
  · next hlt =>
    obtain rfl := Lead.char.inj h
    exact char_ne_nul hpos (.inl (by omega))
  · split at h
    · cases h
    · split at h <;> (try split at h) <;> (try split at h) <;> cases h

theorem nul_notMem_scan (h : 0 ∉ bs) (o : Option Pending) (ho : ∀ p, o = some p → p.Sound) :
    some '\x00' ∉ scan o bs := by
  have hnone : ∀ p : Pending, none = some p → p.Sound := nofun
  induction bs generalizing o with
  | nil => cases o <;> simp [scan]
  | cons b bs ih =>
    obtain ⟨hb, hbs⟩ := not_or.1 (mt List.mem_cons.2 h)
    -- what an octet comes to that begins a character
    have hfirst : some '\x00' ∉ scan none (b :: bs) := by
      simp only [scan]
      split
      · next c hc =>
        have hne := ne_nul_of_lead hc hb
        simpa [hne.symm] using ih hbs none hnone
      · next q hq => exact ih hbs (some q) fun _ hp => Option.some.inj hp ▸ sound_of_lead hq
      · simpa using ih hbs none hnone
    cases o with
    | none => exact hfirst
    | some p =>
      have hp := ho p rfl
      simp only [scan] at hfirst ⊢
      split
      · next hin =>
        split
        · next hm =>
          have hne := hp.last hin.1 hin.2 hm
          simpa [hne.symm] using ih hbs none hnone
        · next hm => exact ih hbs _ fun _ hq => Option.some.inj hq ▸ hp.next hin.1 hin.2 hm
      · split at hfirst <;> simp_all

theorem nul_notMem_decode (h : 0 ∉ bs) : '\x00' ∉ (decode bs).toList := by
  have hscan := nul_notMem_scan h none nofun
  simp only [decode, String.toList_ofList, List.mem_map, not_exists, not_and]
  intro o ho hnul
  cases o with
  | none => cases hnul
  | some c => exact hscan (hnul ▸ ho)

theorem zero_notMem_encodeChar {c : Char} (h : c ≠ '\x00') : 0 ∉ String.utf8EncodeChar c := by
  have hpos : 0 < c.val.toNat := by
    rw [Nat.pos_iff_ne_zero]
    intro h0
    exact h (Char.ext (UInt32.toNat_inj.1 h0))
  have hne {n : Nat} (hn : 0 < n) (h256 : n < 256) : 0 ≠ UInt8.ofNat n := by
    intro h0
    have h0 := congrArg UInt8.toNat h0
    rw [UInt8.toNat_ofNat', Nat.mod_eq_of_lt h256] at h0
    exact absurd h0 (Nat.ne_of_lt hn)
  simp only [String.utf8EncodeChar]
  split
  · simpa using hne hpos (by omega)
  · split
    · simp only [List.mem_cons, List.not_mem_nil, or_false, not_or]
      exact ⟨hne (by omega) (by omega), hne (by omega) (by omega)⟩
    · split
      · simp only [List.mem_cons, List.not_mem_nil, or_false, not_or]
        exact ⟨hne (by omega) (by omega), hne (by omega) (by omega), hne (by omega) (by omega)⟩
      · simp only [List.mem_cons, List.not_mem_nil, or_false, not_or]
        exact ⟨hne (by omega) (by omega), hne (by omega) (by omega), hne (by omega) (by omega),
          hne (by omega) (by omega)⟩

theorem zero_notMem_flatMap_encodeChar {cs : List Char} (h : '\x00' ∉ cs) :
    0 ∉ cs.flatMap String.utf8EncodeChar := by
  rw [List.mem_flatMap]
  rintro ⟨c, hc, h0⟩
  exact zero_notMem_encodeChar (fun hnul => h (hnul ▸ hc)) h0

/-! ## What fits -/

theorem fitting_isPrefix (room : Nat) (cs : List Char) : fitting room cs <+: cs := by
  induction cs generalizing room with
  | nil => exact List.prefix_rfl
  | cons c cs ih =>
    simp only [fitting]
    split
    · exact List.cons_prefix_cons.2 ⟨rfl, ih _⟩
    · exact List.nil_prefix

theorem fitting_eq_self_iff {room : Nat} {cs : List Char} :
    fitting room cs = cs ↔ (cs.flatMap String.utf8EncodeChar).length ≤ room := by
  constructor
  · intro h
    rw [← h]
    exact length_fitting room cs
  · induction cs generalizing room with
    | nil => exact fun _ => rfl
    | cons c cs ih =>
      intro h
      rw [List.flatMap_cons, List.length_append] at h
      simp only [fitting]
      rw [if_pos (by omega), ih (by omega)]

/-! ## How long a text is -/

theorem encode_append (s t : String) : encode (s ++ t) = encode s ++ encode t := by
  simp only [encode, String.toList_append, List.flatMap_append]

theorem length_flatMap_encodeChar_le (cs : List Char) :
    (cs.flatMap String.utf8EncodeChar).length ≤ 4 * cs.length := by
  induction cs with
  | nil => exact Nat.le_refl 0
  | cons c cs ih =>
    have hc : (String.utf8EncodeChar c).length ≤ 4 :=
      (String.length_utf8EncodeChar c).trans_le c.utf8Size_le_four
    rw [List.flatMap_cons, List.length_append, List.length_cons]
    omega

theorem length_scan_le (o : Option Pending) (bs : Bytes) :
    (scan o bs).length ≤ o.toList.length + bs.length := by
  fun_induction scan o bs <;> simp_all <;> omega

theorem length_encode_decode_le (bs : Bytes) : (encode (decode bs)).length ≤ 4 * bs.length := by
  have hscan := length_scan_le none bs
  have hchars := length_flatMap_encodeChar_le (decode bs).toList
  simp only [decode, String.toList_ofList, List.length_map, Option.toList_none, List.length_nil]
    at hscan hchars
  rw [encode, decode, String.toList_ofList]
  omega

end Utf8

namespace Field

variable {width : Nat} {s : String}

theorem bytes_ofBytes {bs : Bytes} (h : bs.length ≤ width) (h0 : 0 ∉ bs) :
    (ofBytes bs h).bytes = bs := by
  have hbs : ∀ b ∈ bs, b ≠ 0 := fun b hb h => h0 (h ▸ hb)
  have hall : ∀ b ∈ bs, decide (b ≠ 0) = true := fun b hb => decide_eq_true (hbs b hb)
  simp only [bytes, ofBytes, Bytes.padded]
  rw [List.takeWhile_append_of_pos hall]
  cases width - bs.length with
  | zero => simp
  | succ n => simp [List.replicate_succ]

theorem length_encode_text_le (f : Field width) : (Utf8.encode f.text).length ≤ 4 * width := by
  have hbytes : f.bytes.length ≤ f.raw.length := (List.takeWhile_prefix _).length_le
  rw [f.length_raw] at hbytes
  exact (Utf8.length_encode_decode_le f.bytes).trans (Nat.mul_le_mul_left 4 hbytes)

theorem nul_notMem_text (f : Field width) : '\x00' ∉ f.text.toList := by
  refine Utf8.nul_notMem_decode fun h0 => ?_
  have h := List.mem_takeWhile_imp h0
  simp at h

/-- A text that is cut to a field shows as many of its characters as leave room for a NUL. -/
theorem text_truncated (h : '\x00' ∉ s.toList) :
    (truncated s : Field width).text = String.ofList (Utf8.fitting (width - 1) s.toList) := by
  have hfit : '\x00' ∉ Utf8.fitting (width - 1) s.toList := fun hnul =>
    h ((Utf8.fitting_isPrefix _ _).subset hnul)
  have hencode : Utf8.encode (String.ofList (Utf8.fitting (width - 1) s.toList)) =
      (Utf8.fitting (width - 1) s.toList).flatMap String.utf8EncodeChar := by
    rw [Utf8.encode, String.toList_ofList]
  rw [text, truncated, bytes_ofBytes _ (Utf8.zero_notMem_flatMap_encodeChar hfit), ← hencode,
    Utf8.decode_encode]

theorem text_truncated_eq_iff (h : '\x00' ∉ s.toList) :
    (truncated s : Field width).text = s ↔ (Utf8.encode s).length ≤ width - 1 := by
  rw [text_truncated h, Utf8.encode, ← Utf8.fitting_eq_self_iff]
  constructor
  · intro hs
    exact (String.toList_ofList).symm.trans (congrArg String.toList hs)
  · intro hs
    rw [hs, String.ofList_toList]

end Field

end ChatRelay
