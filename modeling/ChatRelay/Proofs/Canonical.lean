import ChatRelay.Proofs.Relay.Speech
import ChatRelay.Proofs.Text

/-! # Canonical fields

A field that is written here holds text without a NUL and NULs behind it. A field that a peer wrote
may hold anything, and some of what is told to others is copied from such a field.
-/

namespace ChatRelay

/-- A text that a field can hold and give back whole, if it is wide enough. -/
def NulFree (s : String) : Prop :=
  '\x00' ∉ s.toList

instance NulFree.decidable (s : String) : Decidable (NulFree s) :=
  inferInstanceAs (Decidable (_ ∉ _))

/-- The octets of a field are text without a NUL, with at least one NUL and nothing else behind
it. -/
def Bytes.Canonical (raw : Bytes) : Prop :=
  ∃ s : String, NulFree s ∧ (Utf8.encode s).length < raw.length ∧
    raw = (Utf8.encode s).padded raw.length

theorem Bytes.getLast?_padded {bs : Bytes} {width : Nat} (h : bs.length < width) :
    (bs.padded width).getLast? = some 0 := by
  obtain ⟨n, hn⟩ : ∃ n, width - bs.length = n + 1 :=
    Nat.exists_eq_add_one.2 (Nat.sub_pos_of_lt h)
  rw [padded, hn, List.replicate_succ', ← List.append_assoc]
  exact List.getLast?_concat

theorem Bytes.Canonical.getLast? {raw : Bytes} (h : raw.Canonical) : raw.getLast? = some 0 := by
  obtain ⟨s, -, hlt, hraw⟩ := h
  exact hraw ▸ Bytes.getLast?_padded hlt

namespace Field

variable {width : Nat} {s : String}

theorem canonical_ofBytes (h : NulFree s) (hlt : (Utf8.encode s).length < width) :
    (ofBytes (Utf8.encode s) (Nat.le_of_lt hlt) : Field width).raw.Canonical := by
  refine ⟨s, h, ?_, ?_⟩ <;> rw [length_raw]
  · exact hlt
  · rfl

theorem canonical_blank (hw : 0 < width) : (blank : Field width).raw.Canonical :=
  canonical_ofBytes (s := "") (by simp [NulFree]) hw

theorem canonical_truncated (hw : 0 < width) (h : NulFree s) :
    (truncated s : Field width).raw.Canonical := by
  have hencode : Utf8.encode (String.ofList (Utf8.fitting (width - 1) s.toList)) =
      (Utf8.fitting (width - 1) s.toList).flatMap String.utf8EncodeChar := by
    rw [Utf8.encode, String.toList_ofList]
  have hfit : NulFree (String.ofList (Utf8.fitting (width - 1) s.toList)) := by
    rw [NulFree, String.toList_ofList]
    exact fun hnul => h ((Utf8.fitting_isPrefix _ _).subset hnul)
  have hlt : (Utf8.encode (String.ofList (Utf8.fitting (width - 1) s.toList))).length < width := by
    have hle := Utf8.length_fitting (width - 1) s.toList
    rw [hencode]
    omega
  have hcanonical : (ofBytes _ (Nat.le_of_lt hlt) : Field width).raw.Canonical :=
    canonical_ofBytes hfit hlt
  simpa only [truncated, hencode] using hcanonical

end Field

namespace Packet

def fields : Packet → List Bytes
  | loginRequest userId password username => [userId.raw, password.raw, username.raw]
  | loginResponse _ => []
  | broadcastRequest message => [message.raw]
  | broadcastResponse user message => [user.raw, message.raw]
  | whisperRequest receiver message => [receiver.raw, message.raw]
  | whisperResponse _ sender message => [sender.raw, message.raw]
  | userJoinNotify user | userLeaveNotify user => [user.raw]

def Canonical (p : Packet) : Prop :=
  ∀ raw ∈ p.fields, raw.Canonical

/-- The field of a request that others are shown as it came in. -/
def passedOn? : Packet → Option Bytes
  | loginRequest _ _ username => some username.raw
  | broadcastRequest message | whisperRequest _ message => some message.raw
  | _ => none

/-- The field of a packet that was copied from a request. -/
def copied? : Packet → Option Bytes
  | userJoinNotify user => some user.raw
  | broadcastResponse _ message | whisperResponse .success _ message => some message.raw
  | _ => none

theorem mem_fields_of_copied? {q : Packet} {raw : Bytes} (h : q.copied? = some raw) :
    raw ∈ q.fields := by
  unfold copied? at h
  split at h <;> cases h <;> simp [fields]

/-- If all fields are canonical but the one that was copied, that one decides. -/
theorem canonical_iff {q : Packet} (h : ∀ raw ∈ q.fields, raw.Canonical ∨ q.copied? = some raw) :
    q.Canonical ↔ ∀ raw ∈ q.copied?, raw.Canonical :=
  ⟨fun hq raw hraw => hq raw (mem_fields_of_copied? hraw),
    fun hcopied raw hraw => (h raw hraw).elim id (hcopied raw)⟩

theorem Prompts.passedOn? {N : String → Prop} {request q : Packet} (h : Prompts N request q)
    {raw : Bytes} (hraw : q.copied? = some raw) : request.passedOn? = some raw := by
  cases h with
  | outcome | notFound => cases hraw
  | joined | broadcast | whisper => exact hraw

theorem nulFree_notFound (receiver : NameField) :
    NulFree s!"User '{receiver.text}' not found" := by
  have hreceiver := Field.nul_notMem_text receiver
  change '\x00' ∉ ("User '" ++ receiver.text ++ "' not found").toList
  simp [hreceiver]

/-- What was not copied from the request is canonical. -/
theorem Prompts.canonical_or {request q : Packet} (h : Prompts NulFree request q) :
    ∀ raw ∈ q.fields, raw.Canonical ∨ q.copied? = some raw := by
  have hname {name : String} (hn : NulFree name) :
      (Field.truncated name : NameField).raw.Canonical :=
    Field.canonical_truncated (Nat.succ_pos _) hn
  cases h with
  | outcome | joined => simp [fields, copied?]
  | broadcast message hn | whisper receiver message hn => simp [fields, copied?, hname hn]
  | notFound receiver message =>
    have hblank : (Field.blank : NameField).raw.Canonical := Field.canonical_blank (Nat.succ_pos _)
    have hreport : (Field.truncated s!"User '{receiver.text}' not found" :
        MessageField).raw.Canonical :=
      Field.canonical_truncated (Nat.succ_pos _) (nulFree_notFound receiver)
    simp [fields, hblank, hreport]

theorem canonical_leave {name : String} (h : NulFree name) :
    (userLeaveNotify (.truncated name)).Canonical := by
  have hname : (Field.truncated name : NameField).raw.Canonical :=
    Field.canonical_truncated (Nat.succ_pos _) h
  simpa [Canonical, fields] using hname

end Packet

end ChatRelay
