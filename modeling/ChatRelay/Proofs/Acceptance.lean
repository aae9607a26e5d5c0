import ChatRelay.Proofs.Framing
import ChatRelay.Proofs.RoundTrip

/-! # Acceptance

Which octets are a packet, and what is said of those that are not. Several things may be wrong with
them at once, and the first one in a fixed order is reported. A reader that has no answer as soon as
it reaches for octets that are not there always has one, and it is the same.
-/

namespace ChatRelay

variable {bs : Bytes} {i j : Nat}

def Bytes.word? (bs : Bytes) (i : Nat) : Option UInt16 :=
  match bs.drop i with
  | low :: high :: _ => some (Word.ofBytes low high)
  | _ => none

theorem Bytes.word?_drop (bs : Bytes) (i j : Nat) : word? (bs.drop i) j = word? bs (i + j) := by
  simp only [word?, List.drop_drop]

theorem Header.ofBytes?_eq_some_iff {h : Header} : ofBytes? bs = some h ↔
    headerLength ≤ bs.length ∧ Bytes.word? bs 0 = some h.kind ∧ Bytes.word? bs 2 = some h.size := by
  obtain ⟨kind, size⟩ := h
  match bs with
  | [] | [_] | [_, _] | [_, _, _] => simp [ofBytes?, headerLength]
  | a :: b :: c :: d :: _ => simp [ofBytes?, headerLength, Bytes.word?]

def PacketKind.carriesOutcome : PacketKind → Bool
  | loginResponse | whisperResponse => true
  | _ => false

namespace Packet

variable {e e' : DecodeError} {k : PacketKind} {p : Packet}

def kindOf? (bs : Bytes) : Option PacketKind :=
  (Bytes.word? bs 0).bind PacketKind.ofCode?

/-- What may be wrong with octets, whatever else is, in the order in which it is looked at. -/
inductive Flaw (bs : Bytes) : Nat → DecodeError → Prop
  | header : bs.length < headerLength → Flaw bs 0 (.truncated headerLength bs.length)
  | kind {c : UInt16} : Bytes.word? bs 0 = some c → PacketKind.ofCode? c = none →
      Flaw bs 1 (.unknownKind c)
  | size {k : PacketKind} {n : UInt16} : kindOf? bs = some k → Bytes.word? bs 2 = some n →
      n.toNat ≠ k.wireLength → Flaw bs 2 (.sizeMismatch k k.wireLength n.toNat)
  | body {k : PacketKind} : kindOf? bs = some k → bs.length < k.wireLength →
      Flaw bs 3 (.truncated k.wireLength bs.length)
  | outcome {k : PacketKind} {c : UInt16} : kindOf? bs = some k → k.carriesOutcome = true →
      Bytes.word? bs headerLength = some c → Outcome.ofCode? c = none →
      Flaw bs 4 (.unknownOutcome c)

theorem Flaw.unique (h : Flaw bs i e) (h' : Flaw bs i e') : e = e' := by
  cases h with
  | header => cases h'; rfl
  | kind hc => cases h' with | kind hc' => cases hc.symm.trans hc'; rfl
  | size hk hn => cases h' with | size hk' hn' => cases hk.symm.trans hk'; cases hn.symm.trans hn'; rfl
  | body hk => cases h' with | body hk' => cases hk.symm.trans hk'; rfl
  | outcome _ _ hc => cases h' with | outcome _ _ hc' => cases hc.symm.trans hc'; rfl

/-- The flaw that is looked at before all others there are. -/
def FirstFlaw (bs : Bytes) (e : DecodeError) : Prop :=
  ∃ i, Flaw bs i e ∧ ∀ j < i, ∀ e', ¬ Flaw bs j e'

theorem FirstFlaw.unique (h : FirstFlaw bs e) (h' : FirstFlaw bs e') : e = e' := by
  obtain ⟨i, hi, hbefore⟩ := h
  obtain ⟨j, hj, hbefore'⟩ := h'
  rcases Nat.lt_trichotomy i j with hlt | rfl | hlt
  · exact absurd hi (hbefore' i hlt e)
  · exact hi.unique hj
  · exact absurd hj (hbefore j hlt e')

/-- What the protocol asks of octets. -/
structure Accepted (bs : Bytes) (k : PacketKind) : Prop where
  header : headerLength ≤ bs.length
  kind : kindOf? bs = some k
  size : ∃ n, Bytes.word? bs 2 = some n ∧ n.toNat = k.wireLength
  body : k.wireLength ≤ bs.length
  outcome : k.carriesOutcome = true →
    ∃ c o, Bytes.word? bs headerLength = some c ∧ Outcome.ofCode? c = some o

section

variable (hk : kindOf? bs = some k)

theorem not_flaw_header (h : headerLength ≤ bs.length) (e : DecodeError) : ¬ Flaw bs 0 e := by
  intro hf
  cases hf with | header hlt => exact Nat.not_lt.2 h hlt

include hk

theorem not_flaw_kind (e : DecodeError) : ¬ Flaw bs 1 e := by
  intro hf
  cases hf with
  | kind hc hnone =>
    rw [kindOf?, hc, Option.bind_some, hnone] at hk
    cases hk

theorem not_flaw_size {n : UInt16} (hn : Bytes.word? bs 2 = some n) (h : n.toNat = k.wireLength)
    (e : DecodeError) : ¬ Flaw bs 2 e := by
  intro hf
  cases hf with
  | size hk' hn' hne =>
    cases hk.symm.trans hk'
    cases hn.symm.trans hn'
    exact hne h

theorem not_flaw_body (h : k.wireLength ≤ bs.length) (e : DecodeError) : ¬ Flaw bs 3 e := by
  intro hf
  cases hf with
  | body hk' hlt =>
    cases hk.symm.trans hk'
    exact Nat.not_lt.2 h hlt

theorem not_flaw_outcome (h : k.carriesOutcome = true →
    ∃ c o, Bytes.word? bs headerLength = some c ∧ Outcome.ofCode? c = some o) (e : DecodeError) :
    ¬ Flaw bs 4 e := by
  intro hf
  cases hf with
  | outcome hk' hcarries hc hnone =>
    cases hk.symm.trans hk'
    obtain ⟨c, o, hc', ho⟩ := h hcarries
    cases hc.symm.trans hc'
    cases hnone.symm.trans ho

end

theorem Accepted.not_flaw (h : Accepted bs k) : ¬ Flaw bs i e := by
  intro hf
  obtain ⟨n, hn, hsize⟩ := h.size
  cases hf with
  | header hlt => exact not_flaw_header h.header _ (.header hlt)
  | kind hc hnone => exact not_flaw_kind h.kind _ (.kind hc hnone)
  | size hk hn' hne => exact not_flaw_size h.kind hn hsize _ (.size hk hn' hne)
  | body hk hlt => exact not_flaw_body h.kind h.body _ (.body hk hlt)
  | outcome hk hcarries hc hnone =>
    exact not_flaw_outcome h.kind h.outcome _ (.outcome hk hcarries hc hnone)

/-! ## The answer -/

theorem readBody_cases (hl : k.bodyLength ≤ bs.length) :
    (∃ p, readBody bs k = .ok p) ∧
      (k.carriesOutcome = true → ∃ c o, Bytes.word? bs 0 = some c ∧ Outcome.ofCode? c = some o) ∨
    k.carriesOutcome = true ∧ ∃ c, Bytes.word? bs 0 = some c ∧ Outcome.ofCode? c = none ∧
      readBody bs k = .error (.unknownOutcome c) := by
  have hresult (h2 : 2 ≤ bs.length) : ∃ c, Bytes.word? bs 0 = some c ∧
      ((∃ o, Outcome.ofCode? c = some o ∧ readOutcome bs = .ok o) ∨
        Outcome.ofCode? c = none ∧ readOutcome bs = .error (.unknownOutcome c)) := by
    match bs with
    | [] | [_] => simp at h2
    | low :: high :: rest =>
      refine ⟨Word.ofBytes low high, rfl, ?_⟩
      simp only [readOutcome]
      cases Outcome.ofCode? (Word.ofBytes low high) with
      | none => exact .inr ⟨rfl, rfl⟩
      | some o => exact .inl ⟨o, rfl, rfl⟩
  cases k with
  | loginResponse | whisperResponse =>
    obtain ⟨c, hc, ⟨o, ho, hread⟩ | ⟨hnone, hread⟩⟩ := hresult ((by decide : 2 ≤ _).trans hl)
    · exact .inl ⟨⟨_, by simp only [readBody, hread]; rfl⟩, fun _ => ⟨c, o, hc, ho⟩⟩
    · refine .inr ⟨rfl, c, hc, hnone, ?_⟩
      simp only [readBody, hread]
      rfl
  | _ => exact .inl ⟨⟨_, rfl⟩, fun hcarries => absurd hcarries (by decide)⟩

theorem decode_of_header {h : Header} (hheader : Header.ofBytes? bs = some h)
    (hkind : h.packetKind? = some k) : decode bs =
      if h.declaredSize ≠ k.wireLength then .error (.sizeMismatch k k.wireLength h.declaredSize)
      else if bs.length < k.wireLength then .error (.truncated k.wireLength bs.length)
      else readBody (bs.drop headerLength) k := by
  simp only [decode, hheader, hkind]

/-- Either nothing is wrong with octets, or the flaw that is looked at first is reported. -/
theorem decode_cases (bs : Bytes) :
    (∃ p k, decode bs = .ok p ∧ Accepted bs k) ∨ ∃ e, decode bs = .error e ∧ FirstFlaw bs e := by
  cases hheader : Header.ofBytes? bs with
  | none =>
    have hlt := Header.ofBytes?_eq_none_iff.1 hheader
    exact .inr ⟨_, by simp only [decode, hheader], 0, .header hlt, nofun⟩
  | some h =>
    obtain ⟨hlong, hcode, hsize⟩ := Header.ofBytes?_eq_some_iff.1 hheader
    have hno₀ := not_flaw_header hlong
    cases hkind : h.packetKind? with
    | none =>
      refine .inr ⟨.unknownKind h.kind, ?_, 1, .kind hcode hkind, fun j hj => ?_⟩
      · simp only [decode, hheader, hkind]
      · obtain rfl : j = 0 := by omega
        exact hno₀
    | some k =>
      have hk : kindOf? bs = some k := by
        rw [kindOf?, hcode, Option.bind_some]
        exact hkind
      have hno₁ := not_flaw_kind hk
      have hdecode := decode_of_header hheader hkind
      by_cases hn : h.declaredSize = k.wireLength
      · have hno₂ := not_flaw_size hk hsize hn
        rw [if_neg (not_not.2 hn)] at hdecode
        by_cases hl : bs.length < k.wireLength
        · refine .inr ⟨_, hdecode.trans (if_pos hl), 3, .body hk hl, fun j hj => ?_⟩
          obtain rfl | rfl | rfl : j = 0 ∨ j = 1 ∨ j = 2 := by omega
          exacts [hno₀, hno₁, hno₂]
        · have hno₃ := not_flaw_body hk (Nat.not_lt.1 hl)
          have hbody : k.bodyLength ≤ (bs.drop headerLength).length := by
            rw [PacketKind.wireLength] at hl
            rw [List.length_drop]
            omega
          rw [if_neg hl] at hdecode
          obtain ⟨⟨p, hread⟩, hknown⟩ | ⟨hcarries, c, hc, hnone, hread⟩ := readBody_cases hbody
          · rw [Bytes.word?_drop] at hknown
            exact .inl ⟨p, k, hdecode.trans hread,
              hlong, hk, ⟨_, hsize, hn⟩, Nat.not_lt.1 hl, hknown⟩
          · rw [Bytes.word?_drop] at hc
            refine .inr ⟨_, hdecode.trans hread, 4, .outcome hk hcarries hc hnone, fun j hj => ?_⟩
            obtain rfl | rfl | rfl | rfl : j = 0 ∨ j = 1 ∨ j = 2 ∨ j = 3 := by omega
            exacts [hno₀, hno₁, hno₂, hno₃]
      · refine .inr ⟨_, hdecode.trans (if_pos hn), 2, .size hk hsize hn, fun j hj => ?_⟩
        obtain rfl | rfl : j = 0 ∨ j = 1 := by omega
        exacts [hno₀, hno₁]

theorem exists_decode_iff : (∃ p, decode bs = .ok p) ↔ ∃ k, Accepted bs k := by
  obtain ⟨p, k, hok, haccepted⟩ | ⟨e, herror, i, hflaw, -⟩ := decode_cases bs
  · exact ⟨fun _ => ⟨k, haccepted⟩, fun _ => ⟨p, hok⟩⟩
  · constructor
    · rintro ⟨p, hok⟩
      cases herror.symm.trans hok
    · rintro ⟨k, haccepted⟩
      exact absurd hflaw haccepted.not_flaw

theorem decode_eq_error_iff : decode bs = .error e ↔ FirstFlaw bs e := by
  obtain ⟨p, k, hok, haccepted⟩ | ⟨e', herror, hfirst⟩ := decode_cases bs
  · constructor
    · intro h
      cases hok.symm.trans h
    · rintro ⟨i, hflaw, -⟩
      exact absurd hflaw haccepted.not_flaw
  · constructor
    · intro h
      cases herror.symm.trans h
      exact hfirst
    · intro h
      rw [herror, hfirst.unique h]

/-! ## What follows a packet -/

theorem readOutcome_take {n : Nat} (h : 2 ≤ n) (bs : Bytes) :
    readOutcome (bs.take n) = readOutcome bs := by
  obtain ⟨m, rfl⟩ := Nat.exists_eq_add_of_le' h
  match bs with
  | [] | [_] | _ :: _ :: _ => rfl

theorem readBody_take {n : Nat} (h : k.bodyLength ≤ n) (bs : Bytes) :
    readBody (bs.take n) k = readBody bs k := by
  have hfield {m width : Nat} (hm : m + width ≤ k.bodyLength) :
      (Field.read ((bs.take n).drop m) : Field width) = Field.read (bs.drop m) := by
    rw [List.drop_take]
    exact Field.read_take (by omega) _
  have hfront {width : Nat} (hw : width ≤ k.bodyLength) :
      (Field.read (bs.take n) : Field width) = Field.read bs := Field.read_take (hw.trans h) bs
  cases k with
  | loginResponse => simp only [readBody, readOutcome_take h]
  | whisperResponse =>
    have htwo : 2 ≤ n := (by decide : 2 ≤ _).trans h
    simp (disch := decide) only [readBody, readOutcome_take htwo, hfield]
  | _ => simp (disch := decide) only [readBody, hfront, hfield]

theorem decode_take_append (hk : kindOf? bs = some k) (hl : k.wireLength ≤ bs.length)
    (rest : Bytes) : decode (bs.take k.wireLength ++ rest) = decode bs := by
  have hlong : headerLength ≤ k.wireLength := Nat.le_add_right ..
  obtain ⟨h, hheader⟩ : ∃ h, Header.ofBytes? bs = some h := by
    apply Option.ne_none_iff_exists'.1
    rw [Ne, Header.ofBytes?_eq_none_iff]
    omega
  have hkind : h.packetKind? = some k := by
    obtain ⟨-, hcode, -⟩ := Header.ofBytes?_eq_some_iff.1 hheader
    rwa [kindOf?, hcode, Option.bind_some] at hk
  have hcut : Header.ofBytes? (bs.take k.wireLength) = some h := by
    rw [← Header.ofBytes?_take, List.take_take, Nat.min_eq_left hlong, Header.ofBytes?_take, hheader]
  have hlength : ¬ (bs.take k.wireLength ++ rest).length < k.wireLength := by
    rw [List.length_append, List.length_take]
    omega
  have hbody : readBody ((bs.take k.wireLength ++ rest).drop headerLength) k =
      readBody (bs.drop headerLength) k := by
    have htake : ((bs.take k.wireLength ++ rest).drop headerLength).take k.bodyLength =
        (bs.drop headerLength).take k.bodyLength := by
      have hwire : (bs.take k.wireLength).length = headerLength + k.bodyLength := by
        rw [List.length_take, Nat.min_eq_left hl, PacketKind.wireLength]
      rw [List.take_drop, List.take_drop, List.take_left' hwire, PacketKind.wireLength]
    rw [← readBody_take (Nat.le_refl _), htake, readBody_take (Nat.le_refl _)]
  rw [decode_of_header hheader hkind, decode_of_header (Header.ofBytes?_append hcut rest) hkind,
    if_neg hlength, if_neg (Nat.not_lt.2 hl), hbody]

/-! ## Reading within bounds -/

/-- Reads octets off the front of those that are left. It has no answer if it reaches for octets
that are not there. -/
abbrev Reader (α : Type) :=
  StateT Bytes (ExceptT DecodeError Option) α

namespace Reader

def field (width : Nat) : Reader (Field width) := fun bs =>
  (Field.read? bs).map fun f => .ok (f, bs.drop width)

def outcome : Reader Outcome
  | low :: high :: rest =>
    match Outcome.ofCode? (Word.ofBytes low high) with
    | some o => some (.ok (o, rest))
    | none => some (.error (.unknownOutcome (Word.ofBytes low high)))
  | _ => none

def body : PacketKind → Reader Packet
  | .loginRequest => return .loginRequest (← field _) (← field _) (← field _)
  | .loginResponse => return .loginResponse (← outcome)
  | .broadcastRequest => return .broadcastRequest (← field _)
  | .broadcastResponse => return .broadcastResponse (← field _) (← field _)
  | .whisperRequest => return .whisperRequest (← field _) (← field _)
  | .whisperResponse => return .whisperResponse (← outcome) (← field _) (← field _)
  | .userJoinNotify => return .userJoinNotify (← field _)
  | .userLeaveNotify => return .userLeaveNotify (← field _)

variable {α β : Type} {a : α} {rest : Bytes} {f : α → Reader β} {x : Reader α}

theorem bind_of_ok (h : x bs = some (.ok (a, rest))) : (x >>= f) bs = f a rest := by
  change (x bs).bind _ = f a rest
  rw [h]
  rfl

theorem bind_of_error (h : x bs = some (.error e)) : (x >>= f) bs = some (.error e) := by
  change (x bs).bind _ = some (.error e)
  rw [h]
  rfl

theorem field_of_le {width : Nat} (h : width ≤ bs.length) :
    field width bs = some (.ok (Field.read bs, bs.drop width)) := by
  rw [field, Field.read?_eq_some h]
  rfl

theorem outcome_of_le (h : 2 ≤ bs.length) :
    outcome bs = some ((readOutcome bs).map fun o => (o, bs.drop 2)) := by
  match bs with
  | [] | [_] => simp at h
  | low :: high :: rest =>
    simp only [outcome, readOutcome]
    cases Outcome.ofCode? (Word.ofBytes low high) <;> rfl

theorem body_of_length (h : bs.length = k.bodyLength) :
    body k bs = some ((readBody bs k).map fun p => (p, [])) := by
  have hdone {n : Nat} (hn : k.bodyLength ≤ n) : bs.drop n = [] :=
    List.drop_eq_nil_of_le (h.trans_le hn)
  have hfront {width : Nat} (hw : width ≤ k.bodyLength) :
      field width bs = some (.ok (Field.read bs, bs.drop width)) := field_of_le (hw.trans_eq h.symm)
  have hfield {m width : Nat} (hm : m + width ≤ k.bodyLength) :
      field width (bs.drop m) = some (.ok (Field.read (bs.drop m), bs.drop (m + width))) := by
    rw [field_of_le (by rw [List.length_drop]; omega), List.drop_drop]
  have hpure {q : Packet} {n : Nat} (hn : k.bodyLength ≤ n) :
      (pure q : Reader Packet) (bs.drop n) = some (.ok (q, [])) := by
    rw [hdone hn]
    rfl
  cases k with
  | loginRequest =>
    rw [body, bind_of_ok (hfront (by decide)), bind_of_ok (hfield (by decide)),
      bind_of_ok (hfield (by decide)), hpure (by decide)]
    rfl
  | loginResponse =>
    have hread := outcome_of_le (h.symm.le)
    cases ho : readOutcome bs with
    | error e =>
      rw [ho] at hread
      rw [body, bind_of_error hread, readBody, ho]
      rfl
    | ok o =>
      rw [ho] at hread
      rw [body, bind_of_ok hread, hpure (by decide), readBody, ho]
      rfl
  | whisperResponse =>
    have hread := outcome_of_le ((by decide : 2 ≤ _).trans_eq h.symm)
    cases ho : readOutcome bs with
    | error e =>
      rw [ho] at hread
      rw [body, bind_of_error hread, readBody, ho]
      rfl
    | ok o =>
      rw [ho] at hread
      rw [body, bind_of_ok hread, bind_of_ok (hfield (by decide)), bind_of_ok (hfield (by decide)),
        hpure (by decide), readBody, ho]
      rfl
  | broadcastRequest | userJoinNotify | userLeaveNotify =>
    rw [body, bind_of_ok (hfront (by decide)), hpure (by decide)]
    rfl
  | broadcastResponse | whisperRequest =>
    rw [body, bind_of_ok (hfront (by decide)), bind_of_ok (hfield (by decide)), hpure (by decide)]
    rfl

end Reader

/-- Like `decode`, but without an answer if a slice or a field reaches for octets that are not there,
and with what is left of the body behind the packet. -/
def scan (bs : Bytes) : Option (Except DecodeError (Packet × Bytes)) :=
  match Header.ofBytes? bs with
  | none => some (.error (.truncated headerLength bs.length))
  | some h =>
    match h.packetKind? with
    | none => some (.error (.unknownKind h.kind))
    | some k =>
      if h.declaredSize ≠ k.wireLength then
        some (.error (.sizeMismatch k k.wireLength h.declaredSize))
      else if bs.length < k.wireLength then some (.error (.truncated k.wireLength bs.length))
      else (Bytes.slice? bs headerLength k.wireLength).bind (Reader.body k)

theorem scan_eq (bs : Bytes) : scan bs = some ((decode bs).map fun p => (p, [])) := by
  unfold scan decode
  cases Header.ofBytes? bs with
  | none => rfl
  | some h =>
    dsimp only
    cases h.packetKind? with
    | none => rfl
    | some k =>
      dsimp only
      split
      · rfl
      · split
        · rfl
        · next hl =>
          have hwire : headerLength ≤ k.wireLength := Nat.le_add_right ..
          have hlength : ((bs.take k.wireLength).drop headerLength).length = k.bodyLength := by
            rw [List.length_drop, List.length_take, Nat.min_eq_left (Nat.not_lt.1 hl),
              PacketKind.wireLength, Nat.add_sub_cancel_left]
          have hbody : readBody ((bs.take k.wireLength).drop headerLength) k =
              readBody (bs.drop headerLength) k := by
            rw [PacketKind.wireLength, ← List.take_drop, readBody_take (Nat.le_refl _)]
          rw [Bytes.slice?, if_pos ⟨hwire, Nat.not_lt.1 hl⟩, Option.bind_some,
            Reader.body_of_length hlength, hbody]

/-- Octets are a packet exactly if they are as many as a header has, start with the code of a kind,
go on with the size of that kind, are as many as it says, and have a known result in front of the
body if the kind carries one. Otherwise the first flaw is reported, in the order of the checks. What
follows a packet of the size that its kind has does not matter, whether it can be read or not. And
reading stays within the octets that it has checked, and takes the body up to its end. -/
theorem decode_answers (bs : Bytes) :
    ((∃ p, decode bs = .ok p) ↔ ∃ k, Accepted bs k) ∧
    (∀ e, decode bs = .error e ↔ FirstFlaw bs e) ∧
    (∀ k rest, kindOf? bs = some k → k.wireLength ≤ bs.length →
      decode (bs.take k.wireLength ++ rest) = decode bs) ∧
    scan bs = some ((decode bs).map fun p => (p, [])) :=
  ⟨exists_decode_iff, fun _ => decode_eq_error_iff,
    fun _ rest hk hl => decode_take_append hk hl rest, scan_eq bs⟩

example : decode [0xd1, 7, 99, 0] = .error (.sizeMismatch .loginRequest 103 99) := by decide

end Packet

end ChatRelay
