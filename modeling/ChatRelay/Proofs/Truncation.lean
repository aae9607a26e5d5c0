import ChatRelay.Proofs.Credentials

/-! # Cutting a text to a field

A text that is too long for a field is cut where a search back from the last place that leaves room
for a NUL comes on a place between two characters. The search does not run off the front, and what
it keeps is the longest part of the text that fits.
-/

namespace ChatRelay

namespace Utf8

variable {bs : Bytes} {i j : Nat}

def continues (b : UInt8) : Bool :=
  0x80 ≤ b && b < 0xC0

/-- Whether no character is cut by a cut before place `i`. -/
def isBoundary (bs : Bytes) (i : Nat) : Bool :=
  i = 0 || i ≤ bs.length && (bs[i]?).all (!continues ·)

/-- Goes back from place `i` to a boundary, place by place. -/
def boundaryBefore? (bs : Bytes) : Nat → Option Nat
  | 0 => if isBoundary bs 0 then some 0 else none
  | i + 1 => if isBoundary bs (i + 1) then some (i + 1) else boundaryBefore? bs i

theorem boundaryBefore?_eq_some (h : boundaryBefore? bs i = some j) :
    j ≤ i ∧ isBoundary bs j = true ∧ ∀ k ≤ i, isBoundary bs k = true → k ≤ j := by
  induction i with
  | zero =>
    cases h
    exact ⟨Nat.le_refl 0, rfl, fun k hk _ => hk⟩
  | succ i ih =>
    unfold boundaryBefore? at h
    split at h
    · next hb =>
      cases h
      exact ⟨Nat.le_refl _, hb, fun k hk _ => hk⟩
    · next hb =>
      obtain ⟨hle, hj, hgreatest⟩ := ih h
      refine ⟨Nat.le_succ_of_le hle, hj, fun k hk hkb => ?_⟩
      obtain hk | rfl := Nat.le_or_eq_of_le_succ hk
      · exact hgreatest k hk hkb
      · exact absurd hkb hb

theorem exists_boundaryBefore? (bs : Bytes) (i : Nat) : ∃ j, boundaryBefore? bs i = some j := by
  induction i with
  | zero => exact ⟨0, rfl⟩
  | succ i ih =>
    unfold boundaryBefore?
    split
    · exact ⟨i + 1, rfl⟩
    · exact ih

theorem continues_ofNat {n : Nat} (h : n < 256) :
    continues (UInt8.ofNat n) = decide (128 ≤ n ∧ n < 192) := by
  have hn : (UInt8.ofNat n).toNat = n := by
    rw [UInt8.toNat_ofNat', Nat.mod_eq_of_lt h]
  simp only [continues, UInt8.le_iff_toNat_le, UInt8.lt_iff_toNat_lt, hn, UInt8.reduceToNat,
    Bool.decide_and]

theorem exists_encodeChar_eq (c : Char) : ∃ b rest, String.utf8EncodeChar c = b :: rest ∧
    continues b = false ∧ ∀ b' ∈ rest, continues b' = true := by
  have hvalid : c.val.toNat < 0x110000 := by
    have := c.valid
    unfold UInt32.isValidChar Nat.isValidChar at this
    omega
  simp only [String.utf8EncodeChar]
  -- one to four octets
  split
  · refine ⟨_, _, rfl, ?_, nofun⟩
    rw [continues_ofNat (by omega)]
    exact decide_eq_false (by omega)
  · split
    · refine ⟨_, _, rfl, ?_, ?_⟩
      · rw [continues_ofNat (by omega)]
        exact decide_eq_false (by omega)
      · simp only [List.mem_cons, List.not_mem_nil, or_false, forall_eq]
        rw [continues_ofNat (by omega)]
        exact decide_eq_true (by omega)
    · split
      · refine ⟨_, _, rfl, ?_, ?_⟩
        · rw [continues_ofNat (by omega)]
          exact decide_eq_false (by omega)
        · simp only [List.mem_cons, List.not_mem_nil, or_false, forall_eq_or_imp, forall_eq]
          rw [continues_ofNat (by omega), continues_ofNat (by omega)]
          exact ⟨decide_eq_true (by omega), decide_eq_true (by omega)⟩
      · refine ⟨_, _, rfl, ?_, ?_⟩
        · rw [continues_ofNat (by omega)]
          exact decide_eq_false (by omega)
        · simp only [List.mem_cons, List.not_mem_nil, or_false, forall_eq_or_imp, forall_eq]
          rw [continues_ofNat (by omega), continues_ofNat (by omega), continues_ofNat (by omega)]
          exact ⟨decide_eq_true (by omega), decide_eq_true (by omega), decide_eq_true (by omega)⟩

/-- The boundaries of a text lie behind its first characters. -/
theorem isBoundary_iff {cs : List Char} : isBoundary (cs.flatMap String.utf8EncodeChar) i = true ↔
    ∃ first, first <+: cs ∧ (first.flatMap String.utf8EncodeChar).length = i := by
  constructor
  · intro h
    induction cs generalizing i with
    | nil =>
      have hi : i = 0 := by simpa [isBoundary] using h
      exact ⟨[], List.prefix_rfl, hi.symm⟩
    | cons c cs ih =>
      obtain rfl | hpos := Nat.eq_zero_or_pos i
      · exact ⟨[], List.nil_prefix, rfl⟩
      · obtain ⟨b, rest, hc, -, hrest⟩ := exists_encodeChar_eq c
        obtain ⟨i, rfl⟩ := Nat.exists_eq_succ_of_ne_zero hpos.ne'
        simp only [isBoundary, List.flatMap_cons, hc, List.cons_append, List.length_cons,
          List.length_append, Nat.add_one_ne_zero, decide_false, Bool.false_or, Bool.and_eq_true,
          decide_eq_true_eq, List.getElem?_cons_succ] at h
        obtain ⟨hle, hall⟩ := h
        -- within the first character, or behind it
        obtain hlt | hge := Nat.lt_or_ge i rest.length
        · rw [List.getElem?_append_left hlt, List.getElem?_eq_getElem hlt] at hall
          simp [hrest rest[i] (List.getElem_mem hlt)] at hall
        · rw [List.getElem?_append_right hge] at hall
          obtain ⟨first, hfirst, hlen⟩ := @ih (i - rest.length) (by
            rw [isBoundary, hall, Bool.and_true, decide_eq_true (by omega : _ ≤ _), Bool.or_true])
          refine ⟨c :: first, List.cons_prefix_cons.2 ⟨rfl, hfirst⟩, ?_⟩
          rw [List.flatMap_cons, List.length_append, hlen, hc, List.length_cons]
          omega
  · rintro ⟨first, ⟨rest, rfl⟩, rfl⟩
    have hall : ((rest.flatMap String.utf8EncodeChar)[0]?).all (!continues ·) = true := by
      cases rest with
      | nil => rfl
      | cons c rest =>
        obtain ⟨b, bs, hc, hb, -⟩ := exists_encodeChar_eq c
        simp [hc, hb]
    rw [isBoundary, List.flatMap_append, List.getElem?_append_right (Nat.le_refl _), Nat.sub_self,
      hall, List.length_append, decide_eq_true (Nat.le_add_right _ _)]
    exact Bool.or_true _

theorem isPrefix_fitting {room : Nat} {cs first : List Char} (h : first <+: cs)
    (hlen : (first.flatMap String.utf8EncodeChar).length ≤ room) : first <+: fitting room cs := by
  induction cs generalizing room first with
  | nil => exact h
  | cons c cs ih =>
    cases first with
    | nil => exact List.nil_prefix
    | cons d first =>
      obtain ⟨rfl, hfirst⟩ := List.cons_prefix_cons.1 h
      rw [List.flatMap_cons, List.length_append] at hlen
      simp only [fitting]
      rw [if_pos (by omega)]
      exact List.cons_prefix_cons.2 ⟨rfl, ih hfirst (by omega)⟩

theorem flatMap_encodeChar_isPrefix {first cs : List Char} (h : first <+: cs) :
    first.flatMap String.utf8EncodeChar <+: cs.flatMap String.utf8EncodeChar := by
  obtain ⟨rest, rfl⟩ := h
  rw [List.flatMap_append]
  exact List.prefix_append _ _

/-- The search comes on the end of what fits. -/
theorem boundaryBefore?_encode (room : Nat) (s : String) :
    boundaryBefore? (encode s) (min (encode s).length room) =
      some ((fitting room s.toList).flatMap String.utf8EncodeChar).length := by
  obtain ⟨j, hj⟩ := exists_boundaryBefore? (encode s) (min (encode s).length room)
  obtain ⟨hle, hboundary, hgreatest⟩ := boundaryBefore?_eq_some hj
  obtain ⟨first, hfirst, hlen⟩ := isBoundary_iff.1 hboundary
  have hroom : (first.flatMap String.utf8EncodeChar).length ≤ room := by omega
  have hj_le := (flatMap_encodeChar_isPrefix (isPrefix_fitting hfirst hroom)).length_le
  have hfit := (flatMap_encodeChar_isPrefix (fitting_isPrefix room s.toList)).length_le
  have hle_j := hgreatest _ (Nat.le_min.2 ⟨hfit, length_fitting room s.toList⟩)
    (isBoundary_iff.2 ⟨_, fitting_isPrefix room s.toList, rfl⟩)
  rw [hj, Nat.le_antisymm (hlen ▸ hj_le) hle_j]

theorem decode?_encode (s : String) : decode? (encode s) = some s := by
  rw [decode?, scan_encode]
  simp [Function.comp_def]

end Utf8

/-- `kept` is `s` cut between two characters, and no such cut further on leaves at most `room`
octets. -/
structure LongestCut (room : Nat) (s kept : String) : Prop where
  isPrefix : Utf8.encode kept <+: Utf8.encode s
  isBoundary : Utf8.isBoundary (Utf8.encode s) (Utf8.encode kept).length = true
  length_le : (Utf8.encode kept).length ≤ room
  longest : ∀ n ≤ room, Utf8.isBoundary (Utf8.encode s) n = true → n ≤ (Utf8.encode kept).length

theorem longestCut_fitting (room : Nat) (s : String) :
    LongestCut room s (String.ofList (Utf8.fitting room s.toList)) := by
  have hfit := Utf8.fitting_isPrefix room s.toList
  constructor <;> simp only [Utf8.encode, String.toList_ofList]
  case isPrefix => exact Utf8.flatMap_encodeChar_isPrefix hfit
  case isBoundary => exact Utf8.isBoundary_iff.2 ⟨_, hfit, rfl⟩
  case length_le => exact Utf8.length_fitting room s.toList
  case longest =>
    intro n hn hboundary
    obtain ⟨first, hfirst, rfl⟩ := Utf8.isBoundary_iff.1 hboundary
    exact (Utf8.flatMap_encodeChar_isPrefix (Utf8.isPrefix_fitting hfirst hn)).length_le

namespace Field

variable {width : Nat} {s : String}

def copy? (bs : Bytes) : Option (Field width) :=
  if h : bs.length ≤ width then some (ofBytes bs h) else none

/-- Cuts the octets of `s` where the search back ends; `none` if there is no such place, or nothing
to cut off there, or the rest is too long for the field. -/
def truncate? (s : String) : Option (Field width) :=
  let bs := Utf8.encode s
  (Utf8.boundaryBefore? bs (min bs.length (width - 1))).bind fun j => (bs.slice? 0 j).bind copy?

theorem truncate?_eq (s : String) : truncate? s = some (truncated s : Field width) := by
  have hfit := Utf8.flatMap_encodeChar_isPrefix (Utf8.fitting_isPrefix (width - 1) s.toList)
  have hroom := Utf8.length_fitting (width - 1) s.toList
  rw [truncate?, Utf8.boundaryBefore?_encode, Option.bind_some, Bytes.slice?,
    if_pos ⟨Nat.zero_le _, hfit.length_le⟩, Option.bind_some, List.drop_zero,
    Utf8.encode, ← List.prefix_iff_eq_take.1 hfit, copy?, dif_pos (hroom.trans (Nat.sub_le _ _))]
  rfl

/-- The field has `s` at the front and NULs behind it, one of them at the end, and what is read back
are the octets and the characters of `s` up to its first NUL. -/
structure Holds (f : Field width) (s : String) : Prop where
  raw_eq : f.raw = Utf8.encode s ++ List.replicate (width - (Utf8.encode s).length) 0
  length_lt : (Utf8.encode s).length < width
  getLast?_raw : f.raw.getLast? = some 0
  bytes_eq : f.bytes = Utf8.encode (beforeNul s)
  text_eq : f.text = beforeNul s
  decode?_bytes : Utf8.decode? f.bytes = some (beforeNul s)

theorem holds_of_raw {f : Field width} (hraw : f.raw = (Utf8.encode s).padded width)
    (hlen : (Utf8.encode s).length < width) : Holds f s := by
  have hbytes := bytes_of_raw hraw
  refine ⟨hraw, hlen, ?_, hbytes, ?_, ?_⟩
  · rw [hraw, Bytes.getLast?_padded hlen]
  · rw [text, hbytes, Utf8.decode_encode]
  · rw [hbytes, Utf8.decode?_encode]

theorem truncated_eq_of_ofText {f : Field width} (h : ofText s = .ok f) : truncated s = f := by
  obtain ⟨hlen, hraw⟩ := ofText_eq_ok h
  obtain ⟨raw, hwidth⟩ := f
  simp only [truncated, ofBytes, mk.injEq]
  rw [Utf8.fitting_eq_self_iff.2 hlen]
  exact hraw.symm

theorem truncated_fitting (s : String) :
    truncated (String.ofList (Utf8.fitting (width - 1) s.toList)) =
      (truncated s : Field width) := by
  have hfit := Utf8.fitting_eq_self_iff.2 (Utf8.length_fitting (width - 1) s.toList)
  simp only [truncated, String.toList_ofList, hfit]

/-- A text goes into a field exactly if it leaves room for a NUL. Any text can be cut to the field:
the search for the place ends, and what is kept is the longest part that fits, all of a text that
fits. -/
theorem ofText_truncated_exact (room : Nat) (s : String) :
    ((∃ f : Field (room + 1), ofText s = .ok f) ↔ (Utf8.encode s).length ≤ room) ∧
    (∀ f : Field (room + 1), ofText s = .ok f → Holds f s ∧ truncated s = f) ∧
    truncate? s = some (truncated s : Field (room + 1)) ∧
    ∃ kept, LongestCut room s kept ∧ Holds (truncated s : Field (room + 1)) kept ∧
      (truncated kept : Field (room + 1)) = truncated s := by
  refine ⟨⟨?_, fun hlen => exists_ofText hlen⟩, fun f h => ⟨?_, truncated_eq_of_ofText h⟩,
    truncate?_eq s, String.ofList (Utf8.fitting room s.toList), longestCut_fitting room s, ?_,
    truncated_fitting s⟩
  · rintro ⟨f, h⟩
    exact (ofText_eq_ok h).1
  · obtain ⟨hlen, hraw⟩ := ofText_eq_ok h
    exact holds_of_raw hraw (Nat.lt_succ_of_le hlen)
  · have hencode : Utf8.encode (String.ofList (Utf8.fitting room s.toList)) =
        (Utf8.fitting room s.toList).flatMap String.utf8EncodeChar := by
      rw [Utf8.encode, String.toList_ofList]
    exact holds_of_raw (hencode ▸ rfl) (Nat.lt_succ_of_le (longestCut_fitting room s).length_le)

example : [0, 1, 2, 3, 4, 5, 6].map (fun room => (truncated "aé€" : Field (room + 1)).text) =
    ["", "a", "a", "aé", "aé", "aé", "aé€"] := by
  decide +kernel

end Field

end ChatRelay
