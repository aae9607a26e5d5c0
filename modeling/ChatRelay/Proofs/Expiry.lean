import ChatRelay.Proofs.Table
import ChatRelay.Store
import Mathlib.Data.List.Induction

/-! # Expired tokens

Dropping expired tokens is housekeeping: what else a store is asked, it answers the same whether
they are dropped or kept. One answer is an exception. Who has a token deleted is told that it was
there also when it had expired, and is told otherwise once it has been dropped.
-/

namespace ChatRelay.Store

inductive Query where
  | wait (seconds : Nat)
  | addUser (userId password : String)
  | accountCount
  | passwordHash (userId : String)
  | createToken (token userId : String) (lifetime : Nat)
  | deleteToken (token : String)
  | liveTokens
  | setPresence (username : String) (id : SessionId)
  | clearPresence (username : String)
  | presence (username : String)
deriving DecidableEq

inductive Reply where
  | done
  | flag (b : Bool)
  | count (n : Nat)
  | hash (h : Option String)
  | online (id : Option SessionId)
deriving DecidableEq

def query (s : Store) : Query → Reply × Store
  | .wait seconds => (.done, s.wait seconds)
  | .addUser userId password => (.done, s.addUser userId password)
  | .accountCount => (.count s.accountCount, s)
  | .passwordHash userId => (.hash (s.passwordHash? userId), s)
  | .createToken token userId lifetime =>
    let (a, s') := s.answer (.createToken token userId lifetime)
    (.flag a.isOk, s')
  | .deleteToken token => let (b, s') := s.deleteToken token; (.flag b, s')
  | .liveTokens => (.count s.liveTokens, s)
  | .setPresence username id => (.done, s.setPresence username id)
  | .clearPresence username => let (b, s') := s.clearPresence username; (.flag b, s')
  | .presence username => (.online (s.presence? username), s)

inductive Event where
  | ask (q : Query)
  | purge
deriving DecidableEq

def step (s : Store) : Event → Store
  | .ask q => (s.query q).2
  | .purge => s.purge.2

def after (s : Store) (es : List Event) : Store :=
  es.foldl step s

def dialogue (s : Store) : List Event → List (Query × Reply)
  | [] => []
  | .ask q :: es => (q, (s.query q).1) :: dialogue (s.query q).2 es
  | .purge :: es => dialogue s.purge.2 es

/-- The same queries without any housekeeping. -/
def unpurged (es : List Event) : List Event :=
  es.filter (· ≠ .purge)

def Query.deletes : Query → Bool
  | .deleteToken _ => true
  | _ => false

/-- A token that has expired and was not dropped yet. -/
def Expired (s : Store) (token : String) : Prop :=
  ∃ g, s.tokens.get? token = some g ∧ s.isLive g = false

def holdsLive (s : Store) (token : String) : Bool :=
  (s.tokens.get? token).any s.isLive

/-! ## Stores that lag behind -/

/-- `u` is `p` with some expired tokens more. -/
structure Lags (u p : Store) : Prop where
  rest : { u with tokens := p.tokens } = p
  tokens : ∀ t, p.tokens.get? t = u.tokens.get? t ∨ p.tokens.get? t = none ∧ u.Expired t

variable {u p s : Store} {es : List Event} {t : String}

theorem Lags.refl (s : Store) : Lags s s :=
  ⟨rfl, fun _ => .inl rfl⟩

theorem isLive_mono {s' : Store} (h : s.now ≤ s'.now) {g : TokenGrant} (hg : s.isLive g = false) :
    s'.isLive g = false := by
  simp only [isLive, decide_eq_false_iff_not, Nat.not_lt] at hg ⊢
  exact Nat.le_trans hg h

theorem contains_eq_false_iff : s.tokens.contains t = false ↔ s.tokens.get? t = none := by
  simp [Table.contains]

namespace Lags

variable (h : Lags u p)

include h

theorem now : p.now = u.now := by rw [← h.rest]

theorem isLive : p.isLive = u.isLive := by
  funext g
  rw [Store.isLive, Store.isLive, h.now]

theorem contains (ht : p.tokens.contains t = true) : u.tokens.contains t = true := by
  rcases h.tokens t with he | ⟨he, -⟩
  · simpa [Table.contains, ← he] using ht
  · simp [Table.contains, he] at ht

theorem expired (ht : p.Expired t) : u.Expired t := by
  obtain ⟨g, hg, hlive⟩ := ht
  rcases h.tokens t with he | ⟨he, -⟩
  · exact ⟨g, he ▸ hg, h.isLive ▸ hlive⟩
  · cases he.symm.trans hg

theorem liveTokens : p.liveTokens = u.liveTokens := by
  apply Table.size_congr
  intro t
  rw [Table.get?_filter, Table.get?_filter, h.isLive]
  rcases h.tokens t with he | ⟨he, g, hg, hlive⟩
  · rw [he]
  · simp [he, hg, hlive, Option.filter]

theorem purge : Lags u p.purge.2 := by
  constructor
  · exact congrArg (fun s : Store => { s with tokens := p.purge.2.tokens }) h.rest
  · intro t
    have hget : p.purge.2.tokens.get? t = (p.tokens.get? t).filter p.isLive := Table.get?_filter ..
    rw [hget]
    rcases h.tokens t with he | ⟨he, hexp⟩
    · rw [he, h.isLive]
      cases hg : u.tokens.get? t with
      | none => exact .inl rfl
      | some g =>
        cases hlive : u.isLive g with
        | true => simp [hlive]
        | false => exact .inr ⟨by simp [hlive], g, hg, hlive⟩
    · exact .inr ⟨by simp [he], hexp⟩

theorem congr {u' p' : Store} (hrest : { u' with tokens := p'.tokens } = p')
    (hu : u'.tokens = u.tokens) (hp : p'.tokens = p.tokens) (hnow : u.now ≤ u'.now) :
    Lags u' p' := by
  constructor
  · exact hrest
  · intro t
    rw [hp, hu]
    rcases h.tokens t with he | ⟨he, g, hg, hlive⟩
    · exact .inl he
    · exact .inr ⟨he, g, hu ▸ hg, isLive_mono hnow hlive⟩

/-- Only a deletion can tell whether expired tokens are kept. -/
theorem query (q : Query) : Lags (u.query q).2 (p.query q).2 ∧
    ((p.query q).1 = (u.query q).1 ∨ ∃ t, q = .deleteToken t) := by
  obtain ⟨accounts, tokens, presence, now, overrun⟩ := u
  obtain ⟨accounts', tokens', presence', now', overrun'⟩ := p
  have hrest := h.rest
  simp only [mk.injEq, true_and] at hrest
  obtain ⟨rfl, rfl, rfl, rfl⟩ := hrest
  cases q with
  | wait seconds => exact ⟨h.congr rfl rfl rfl (Nat.le_add_right ..), .inl rfl⟩
  | addUser | setPresence | clearPresence =>
    exact ⟨h.congr rfl rfl rfl (Nat.le_refl _), .inl rfl⟩
  | accountCount | passwordHash | presence => exact ⟨h, .inl rfl⟩
  | liveTokens => exact ⟨h, .inl (congrArg Reply.count h.liveTokens)⟩
  | createToken token userId lifetime =>
    simp only [Store.query, answer, createToken?]
    by_cases hlt : now + lifetime < clockEnd
    · simp only [if_pos hlt]
      refine ⟨⟨rfl, fun t => ?_⟩, .inl trivial⟩
      simp only [Expired, Table.get?_insert]
      split
      · exact .inl rfl
      · exact h.tokens t
    · simp only [if_neg hlt]
      exact ⟨h.congr rfl rfl rfl (Nat.le_refl _), .inl trivial⟩
  | deleteToken token =>
    refine ⟨⟨rfl, fun t => ?_⟩, .inr ⟨token, rfl⟩⟩
    simp only [Store.query, deleteToken, Expired, Table.get?_erase]
    split
    · exact .inl rfl
    · exact h.tokens t

end Lags

/-! ## Queries with and without housekeeping -/

theorem after_append (s : Store) (es es' : List Event) :
    s.after (es ++ es') = (s.after es).after es' :=
  List.foldl_append

theorem unpurged_append (es es' : List Event) :
    unpurged (es ++ es') = unpurged es ++ unpurged es' :=
  List.filter_append ..

namespace Lags

variable (h : Lags u p)

include h

theorem after (es : List Event) : Lags (u.after (unpurged es)) (p.after es) := by
  induction es generalizing u p with
  | nil => exact h
  | cons e es ih =>
    cases e with
    | ask q => exact ih (h.query q).1
    | purge => exact ih h.purge

theorem dialogue_filter (es : List Event) :
    (p.dialogue es).filter (!·.1.deletes) = (u.dialogue (unpurged es)).filter (!·.1.deletes) := by
  induction es generalizing u p with
  | nil => rfl
  | cons e es ih =>
    cases e with
    | purge => exact ih h.purge
    | ask q =>
      obtain ⟨hlags, hreply⟩ := h.query q
      have hrest := ih hlags
      change ((q, (p.query q).1) :: (p.query q).2.dialogue es).filter _ =
        ((q, (u.query q).1) :: (u.query q).2.dialogue (unpurged es)).filter _
      rcases hreply with he | ⟨t, rfl⟩
      · rw [he, List.filter_cons, List.filter_cons, hrest]
      · exact hrest

theorem reply_eq_iff (q : Query) : (p.query q).1 = (u.query q).1 ↔
    ∀ t, q = .deleteToken t → u.tokens.contains t = true → p.tokens.contains t = true := by
  rcases (h.query q).2 with he | ⟨t, rfl⟩
  · simp only [he, true_iff]
    rintro t rfl ht
    have hflags : p.tokens.contains t = u.tokens.contains t := Reply.flag.inj he
    exact hflags.trans ht
  · have hflags : (p.query (.deleteToken t)).1 = (u.query (.deleteToken t)).1 ↔
        p.tokens.contains t = u.tokens.contains t := ⟨Reply.flag.inj, congrArg Reply.flag⟩
    rw [hflags, Bool.eq_iff_iff]
    constructor
    · rintro heq _ ⟨⟩ ht
      exact heq.2 ht
    · exact fun hall => ⟨h.contains, hall t rfl⟩

theorem dialogue_eq_iff (es : List Event) : p.dialogue es = u.dialogue (unpurged es) ↔
    ∀ before t rest, es = before ++ .ask (.deleteToken t) :: rest →
      (u.after (unpurged before)).tokens.contains t = true →
        (p.after before).tokens.contains t = true := by
  induction es generalizing u p with
  | nil => simp [dialogue, unpurged]
  | cons e es ih =>
    cases e with
    | purge =>
      refine (ih h.purge).trans ?_
      constructor
      · rintro hall (_ | ⟨e, before⟩) t rest he ht
        · simp at he
        · obtain ⟨rfl, rfl⟩ := List.cons.inj he
          exact hall before t rest rfl ht
      · rintro hall before t rest rfl ht
        exact hall (.purge :: before) t rest rfl ht
    | ask q =>
      have hsplit : p.dialogue (.ask q :: es) = u.dialogue (unpurged (.ask q :: es)) ↔
          (p.query q).1 = (u.query q).1 ∧
            (p.query q).2.dialogue es = (u.query q).2.dialogue (unpurged es) := by
        simp [dialogue, unpurged]
      rw [hsplit, h.reply_eq_iff, ih (h.query q).1]
      constructor
      · rintro ⟨hfirst, hall⟩ (_ | ⟨e, before⟩) t rest he ht
        · obtain ⟨hq, -⟩ := List.cons.inj he
          exact hfirst t (Event.ask.inj hq) ht
        · obtain ⟨rfl, rfl⟩ := List.cons.inj he
          exact hall before t rest rfl ht
      · intro hall
        constructor
        · rintro t rfl ht
          exact hall [] t es rfl ht
        · rintro before t rest rfl ht
          exact hall (.ask q :: before) t rest rfl ht

theorem missing_query (q : Query) (hu : (u.query q).2.tokens.contains t = true)
    (hp : (p.query q).2.tokens.contains t = false) :
    q ≠ .deleteToken t ∧ u.tokens.contains t = true ∧ p.tokens.contains t = false := by
  cases q with
  | createToken token userId lifetime =>
    simp only [Store.query, answer, createToken?, h.now] at hu hp
    by_cases hlt : u.now + lifetime < clockEnd
    · simp only [if_pos hlt] at hu hp
      rw [Table.contains_insert] at hu
      rw [Bool.eq_false_iff, ne_eq, Table.contains_insert, not_or] at hp
      exact ⟨nofun, hu.resolve_left hp.1, Bool.eq_false_iff.2 hp.2⟩
    · simp only [if_neg hlt] at hu hp
      exact ⟨nofun, hu, hp⟩
  | deleteToken token =>
    simp only [Store.query, deleteToken] at hu hp
    rw [Table.contains_erase] at hu
    rw [Bool.eq_false_iff, ne_eq, Table.contains_erase, not_and] at hp
    refine ⟨?_, hu.2, Bool.eq_false_iff.2 (hp hu.1)⟩
    rintro ⟨⟩
    exact hu.1 rfl
  | _ => exact ⟨nofun, hu, hp⟩

end Lags

theorem contains_query {q : Query} (hq : q ≠ .deleteToken t) (ht : s.tokens.contains t = true) :
    (s.query q).2.tokens.contains t = true := by
  cases q with
  | createToken token userId lifetime =>
    simp only [query, answer, createToken?]
    by_cases hlt : s.now + lifetime < clockEnd
    · simp only [if_pos hlt]
      exact Table.contains_insert.2 (.inr ht)
    · simpa only [if_neg hlt] using ht
  | deleteToken token =>
    apply Table.contains_erase.2
    refine ⟨?_, ht⟩
    rintro rfl
    exact hq rfl
  | _ => exact ht

theorem contains_after (hes : .ask (.deleteToken t) ∉ es) (ht : s.tokens.contains t = true) :
    (s.after (unpurged es)).tokens.contains t = true := by
  induction es generalizing s with
  | nil => exact ht
  | cons e es ih =>
    obtain ⟨hhead, htail⟩ := not_or.1 (mt List.mem_cons.2 hes)
    cases e with
    | ask q =>
      apply ih htail
      apply contains_query _ ht
      rintro rfl
      exact hhead rfl
    | purge => exact ih htail ht

theorem expired_of_purge (ht : s.tokens.contains t = true)
    (hp : s.purge.2.tokens.contains t = false) : s.Expired t := by
  obtain ⟨g, hg⟩ := Option.isSome_iff_exists.1 ht
  rw [contains_eq_false_iff] at hp
  refine ⟨g, hg, ?_⟩
  have hget := (Table.get?_filter s.tokens (fun _ g => s.isLive g) t).symm.trans hp
  simpa [hg, Option.filter] using hget

/-- A token that is not there would be there without housekeeping exactly if it was dropped when it
had expired, and not deleted since. -/
theorem contains_unpurged_iff (hp : (s.after es).tokens.contains t = false) :
    (s.after (unpurged es)).tokens.contains t = true ↔
      ∃ before mid, es = before ++ .purge :: mid ∧ .ask (.deleteToken t) ∉ mid ∧
        (s.after before).Expired t := by
  constructor
  · intro hu
    -- The last event is either the one that dropped the token, or it left the token alone.
    induction es using List.reverseRecOn with
    | nil => cases hp.symm.trans hu
    | append_singleton es e ih =>
      rw [after_append] at hp
      rw [unpurged_append, after_append] at hu
      cases e with
      | purge =>
        cases ht : (s.after es).tokens.contains t with
        | true => exact ⟨es, [], rfl, nofun, expired_of_purge ht hp⟩
        | false =>
          obtain ⟨before, mid, rfl, hmid, hexp⟩ := ih ht hu
          exact ⟨before, mid ++ [.purge], by simp, by simpa using hmid, hexp⟩
      | ask q =>
        obtain ⟨hq, hu, ht⟩ := ((Lags.refl s).after es).missing_query q hu hp
        obtain ⟨before, mid, rfl, hmid, hexp⟩ := ih ht hu
        exact ⟨before, mid ++ [.ask q], by simp, by simpa [hq.symm] using hmid, hexp⟩
  · rintro ⟨before, mid, rfl, hmid, hexp⟩
    obtain ⟨g, hg, -⟩ := ((Lags.refl s).after before).expired hexp
    rw [unpurged_append, after_append]
    apply contains_after
    · simpa using hmid
    · simp [Table.contains, hg]

/-- Housekeeping changes no reply but that to a deletion, and that exactly if it dropped the token
when it had expired, and the token was neither deleted nor created again since. A deletion tells
whether there was a live token exactly if the token had not expired. -/
theorem dialogue_unpurged_iff (s : Store) (es : List Event) :
    (s.dialogue es).filter (!·.1.deletes) =
        (s.dialogue (unpurged es)).filter (!·.1.deletes) ∧
      (s.dialogue es = s.dialogue (unpurged es) ↔
        ∀ t before mid rest, es = before ++ .purge :: mid ++ .ask (.deleteToken t) :: rest →
          .ask (.deleteToken t) ∉ mid → (s.after before).Expired t →
            (s.after (before ++ .purge :: mid)).tokens.contains t = true) ∧
      ∀ t, (s.query (.deleteToken t)).1 = .flag (s.holdsLive t) ↔ ¬ s.Expired t := by
  refine ⟨(Lags.refl s).dialogue_filter es, ?_, fun t => ?_⟩
  · rw [(Lags.refl s).dialogue_eq_iff]
    constructor
    · rintro hall t before mid rest rfl hmid hexp
      by_contra ht
      rw [Bool.not_eq_true] at ht
      cases ht.symm.trans
        (hall _ t rest rfl ((contains_unpurged_iff ht).2 ⟨before, mid, rfl, hmid, hexp⟩))
    · rintro hall before t rest rfl hu
      by_contra ht
      rw [Bool.not_eq_true] at ht
      obtain ⟨before, mid, rfl, hmid, hexp⟩ := (contains_unpurged_iff ht).1 hu
      cases ht.symm.trans (hall t before mid rest rfl hmid hexp)
  · simp only [query, deleteToken, Reply.flag.injEq, holdsLive, Table.contains, Expired]
    cases s.tokens.get? t <;> simp

theorem expired_token_deleted :
    let created : Event := .ask (.createToken "t" "ann" 0)
    let deleted : Event := .ask (.deleteToken "t")
    (empty.after [created]).holdsLive "t" = false ∧
      (empty.dialogue [created, deleted]).map Prod.snd = [.flag true, .flag true] ∧
      (empty.dialogue [created, .purge, deleted]).map Prod.snd = [.flag true, .flag false] := by
  decide

end ChatRelay.Store
