import ChatRelay.Proofs.Relay.Chat

/-! # Logins and presence

A login that succeeds takes a name that nobody is found under, puts its presence right and is
announced. No login touches the presence of a name that somebody is found under.
-/

namespace ChatRelay

open Relation (ReflTransGen)

theorem Packet.kind_eq_of_encode_eq {p q : Packet} (h : p.encode = q.encode) :
    p.kind = q.kind := by
  have hheader (p : Packet) : Header.ofBytes? p.encode = some (.ofKind p.kind) :=
    Header.ofBytes?_toBytes_append ..
  have hkind := (hheader p).symm.trans ((congrArg _ h).trans (hheader q))
  have hcode : p.kind.code = q.kind.code := congrArg Header.kind (Option.some.inj hkind)
  have hfound := p.kind.ofCode?_code
  rw [hcode, q.kind.ofCode?_code] at hfound
  exact (Option.some.inj hfound).symm

@[simp] theorem Store.presence?_clearPresence (s : Store) (name other : String) :
    (s.clearPresence name).2.presence? other =
      if name = other then none else s.presence? other :=
  Table.get?_erase ..

theorem Store.answer_createToken (s : Store) (token userId : String) (lifetime : Nat) :
    ∃ a s', s.answer (.createToken token userId lifetime) = (a, s') ∧ s'.presence = s.presence ∧
      ((∃ e, a = .error e) ∧ s'.tokens = s.tokens ∨
        a = .ok () ∧ ∃ g, s'.tokens = s.tokens.insert token g) := by
  simp only [answer, createToken?]
  split
  · next h =>
    split at h
    · cases h
      exact ⟨_, _, rfl, rfl, .inr ⟨rfl, _, rfl⟩⟩
    · cases h
  · exact ⟨_, _, rfl, rfl, .inl ⟨⟨_, rfl⟩, rfl⟩⟩

namespace Relay

/-- A login leaves everything but the store alone, or it finds its name free, marks it online and
enters it with a token of its own; mark and token are taken back if the session refuses. -/
inductive Settles (r : Relay Store) (slot : Nat) (id : SessionId) (name token : String) :
    Outcome × Relay Store → Prop where
  | refused {o : Outcome} {s : Store} {n : Nat} : o ≠ .success →
      s.presence = r.store.presence → s.tokens = r.store.tokens → r.drawn ≤ n →
      Settles r slot id name token (o, { r with store := s, drawn := n })
  | entered (r' : Relay Store) {s : Store} {g : TokenGrant} :
      name ≠ "" → r.findName name = none → s.presence = r.store.presence.insert name id →
      s.tokens = r.store.tokens.insert token g →
      { r with store := s, drawn := r.drawn + 1 }.register slot id name token = (.ok (), r') →
      Settles r slot id name token (.success, r')
  | withdrawn (r' : Relay Store) {e : DirectoryError} {s s' : Store} {g : TokenGrant} :
      name ≠ "" → r.findName name = none →
      s'.presence = (r.store.presence.insert name id).erase name →
      s'.tokens = (r.store.tokens.insert token g).erase token →
      { r with store := s, drawn := r.drawn + 1 }.register slot id name token = (.error e, r') →
      Settles r slot id name token (.serverError, { r' with store := s' })

section

variable {token : Nat → String} {lifetime : Nat} {r : Relay Store} {slot k : Nat}
  {id : SessionId} {user password name other drawn : String}

theorem enter_settles {s : Store} {g : TokenGrant} (hn : name ≠ "")
    (hf : r.findName name = none) (hp : s.presence = r.store.presence)
    (ht : s.tokens = r.store.tokens.insert drawn g) :
    r.Settles slot id name drawn
      ({ r with store := s, drawn := r.drawn + 1 }.enter (.direct token lifetime) slot id name
        drawn) := by
  set r₁ : Relay Store := { r with store := s.setPresence name id, drawn := r.drawn + 1 } with hr₁
  have hask : (Service.direct token lifetime).ask (.setPresence name id)
      { r with store := s, drawn := r.drawn + 1 } = (.ok (), r₁) := rfl
  simp only [enter, hask]
  rcases he : r₁.register slot id name drawn with ⟨_ | _, r'⟩
  · next e =>
    obtain rfl := eq_invalidSession_of_free (r := r₁) hf he
    have hstore : r'.store = r₁.store := by
      rw [← store_register r₁ slot id name drawn, he]
    refine .withdrawn r' (g := g) hn hf ?_ ?_ he
    · rw [← hp]
      exact congrArg (fun s => s.presence.erase name) hstore
    · rw [← ht]
      exact congrArg (fun s => s.tokens.erase drawn) hstore
  · exact .entered r' (s := s.setPresence name id) hn hf (congrArg (·.insert name id) hp) ht he

theorem grant_settles (hn : name ≠ "") :
    r.Settles slot id name (token r.drawn)
      (r.grant (.direct token lifetime) slot id user name) := by
  unfold grant
  split
  · exact .refused (by decide) rfl rfl (Nat.le_refl _)
  · next hf =>
    have hf := Option.not_isSome_iff_eq_none.1 hf
    set v := Service.direct token lifetime
    obtain ⟨a, s, ha, hp, ht⟩ := r.store.answer_createToken (v.token r.drawn) user v.lifetime
    have hask : v.ask (.createToken (v.token r.drawn) user v.lifetime)
        { r with drawn := r.drawn + 1 } = (a, { r with store := s, drawn := r.drawn + 1 }) :=
      congrArg (fun p => (p.1, { r with store := p.2, drawn := r.drawn + 1 })) ha
    simp only [hask]
    obtain ⟨⟨e, rfl⟩, ht⟩ | ⟨rfl, g, ht⟩ := ht
    · exact .refused (by decide) hp ht (Nat.le_succ _)
    · exact enter_settles hn hf hp ht

theorem login_settles (token : Nat → String) (lifetime : Nat) (r : Relay Store) (slot : Nat)
    (id : SessionId) (user password name : String) :
    r.Settles slot id name (token r.drawn)
      (r.login (.direct token lifetime) slot id user password name) := by
  have hask : (Service.direct token lifetime).ask (.passwordHash user) r =
    (.ok (r.store.passwordHash? user), r) := rfl
  simp only [login, hask]
  split
  · exact .refused (by decide) rfl rfl (Nat.le_refl _)
  · split
    · exact .refused (by decide) rfl rfl (Nat.le_refl _)
    · next hn =>
      cases r.store.passwordHash? user with
      | none => exact .refused (by decide) rfl rfl (Nat.le_refl _)
      | some hash =>
        dsimp only
        split
        · exact grant_settles hn
        · exact .refused (by decide) rfl rfl (Nat.le_refl _)

namespace Settles

variable {o : Outcome × Relay Store} (h : r.Settles slot id name drawn o)

include h

theorem outgoing_eq (k : Nat) : o.2.outgoing k = r.outgoing k := by
  cases h with
  | refused => rfl
  | @entered r' s g hn hf hp ht he =>
    have hout := outgoing_register { r with store := s, drawn := r.drawn + 1 } slot k id name drawn
    rw [he] at hout
    exact hout
  | @withdrawn r' e s s' g hn hf hp ht he =>
    have hout := outgoing_register { r with store := s, drawn := r.drawn + 1 } slot k id name drawn
    rw [he] at hout
    exact hout

theorem drawn_le : r.drawn ≤ o.2.drawn := by
  cases h with
  | refused _ _ _ hd => exact hd
  | @entered r' s g hn hf hp ht he =>
    have hdrawn := drawn_register { r with store := s, drawn := r.drawn + 1 } slot id name drawn
    rw [he] at hdrawn
    exact Nat.le_trans (Nat.le_succ _) (Nat.le_of_eq hdrawn.symm)
  | @withdrawn r' e s s' g hn hf hp ht he =>
    have hdrawn := drawn_register { r with store := s, drawn := r.drawn + 1 } slot id name drawn
    rw [he] at hdrawn
    exact Nat.le_trans (Nat.le_succ _) (Nat.le_of_eq hdrawn.symm)

theorem phase_of_success (ho : o.1 = .success) : (r.session slot).phase = .connected := by
  cases h with
  | refused hne => exact absurd ho hne
  | @entered r' s g hn hf hp ht he =>
    rcases register_cases { r with store := s, drawn := r.drawn + 1 } slot id name drawn with
      ⟨-, he'⟩ | ⟨-, -, he'⟩ | ⟨s', -, ha, -⟩
    · cases he.symm.trans he'
    · cases he.symm.trans he'
    · exact (Session.authenticate_eq_some_iff.1 ha).1.2.2
  | withdrawn => cases ho

theorem presence_of_found (hk : r.findName other = some k) :
    o.2.store.presence? other = r.store.presence? other := by
  have hne (hf : r.findName name = none) : name ≠ other := by
    rintro rfl
    cases hf.symm.trans hk
  cases h with
  | refused ho hp ht hd => exact congrArg (Table.get? · other) hp
  | @entered r' s g hn hf hp ht he =>
    have hstore := store_register { r with store := s, drawn := r.drawn + 1 } slot id name drawn
    rw [he] at hstore
    rw [Store.presence?, hstore, hp, Table.get?_insert, if_neg (hne hf), Store.presence?]
  | withdrawn r' hn hf hp ht he =>
    rw [Store.presence?, hp, Table.get?_erase, if_neg (hne hf), Table.get?_insert,
      if_neg (hne hf), Store.presence?]

/-- Who is found under a name that was free has just logged in, and is online. -/
theorem entered_of_free (hc : Consistent r) (hf : r.findName other = none)
    (hk : o.2.findName other = some k) :
    o.1 = .success ∧ name = other ∧ o.2.store.presence? other = some (o.2.session k).id := by
  cases h with
  | refused => cases hf.symm.trans hk
  | @entered r' s g hn hf' hp ht he =>
    have hc' : Consistent { r with store := s, drawn := r.drawn + 1 } := hc.congr (fun _ => rfl) rfl
    have hstore := store_register { r with store := s, drawn := r.drawn + 1 } slot id name drawn
    rw [he] at hstore
    obtain ⟨-, rfl, hid⟩ := hc'.findName_register hn hf he hk
    refine ⟨rfl, rfl, ?_⟩
    rw [Store.presence?, hstore, hp, Table.get?_insert, if_pos rfl, hid]
  | @withdrawn r' e s s' g hn hf' hp ht he =>
    have hc' : Consistent { r with store := s, drawn := r.drawn + 1 } := hc.congr (fun _ => rfl) rfl
    cases (hc'.findName_register hn hf he hk).1

theorem absent_of_free (hc : Consistent r) (hp : r.store.presence? other = none)
    (hf : o.2.findName other = none) : o.2.store.presence? other = none := by
  cases h with
  | refused ho hs ht hd => exact (congrArg (Table.get? · other) hs).trans hp
  | @entered r' s g hn hf' hs ht he =>
    have hc' : Consistent { r with store := s, drawn := r.drawn + 1 } := hc.congr (fun _ => rfl) rfl
    have hstore := store_register { r with store := s, drawn := r.drawn + 1 } slot id name drawn
    rw [he] at hstore
    have hne : name ≠ other := by
      rintro rfl
      cases hf.symm.trans (hc'.findName_of_register hn he)
    rw [Store.presence?, hstore, hs, Table.get?_insert, if_neg hne]
    exact hp
  | withdrawn r' hn hf' hs ht he =>
    rw [Store.presence?, hs, Table.get?_erase]
    split
    · rfl
    · next hne =>
      rw [Table.get?_insert, if_neg hne]
      exact hp

end Settles

end

end Relay

structure Attempt where
  slot : Nat
  id : SessionId
  userId : NameField
  password : NameField
  username : NameField

/-- Everybody else is told that somebody has joined. -/
def Attempt.notice (a : Attempt) : Bytes :=
  (Packet.userJoinNotify a.username).encode

namespace Relay

def attempt {S : Type} (v : Service S) (r : Relay S) (a : Attempt) : Relay S :=
  r.answerLogin v a.slot a.id a.userId a.password a.username

/-- What a login request comes to before it is answered. -/
def verdict {S : Type} (v : Service S) (r : Relay S) (a : Attempt) : Outcome × Relay S :=
  r.login v a.slot a.id a.userId.text a.password.text a.username.text

section

variable {S : Type} {v : Service S} {r : Relay S} {a : Attempt}

theorem attempt_eq (v : Service S) (r : Relay S) (a : Attempt) :
    r.attempt v a =
      let replied := (r.verdict v a).2.reply a.slot a.id (.loginResponse (r.verdict v a).1)
      if (r.verdict v a).1 = .success then (replied.broadcast (some a.slot) a.notice).2
      else replied := rfl

theorem verdict_deeds (hd : v.Within Deed) (r : Relay S) (a : Attempt) :
    ReflTransGen Deed r (r.verdict v a).2 :=
  login_chain (fun _ _ hd => hd) hd a.slot a.id ..

theorem attempt_deeds (hd : v.Within Deed) (r : Relay S) (a : Attempt) :
    ReflTransGen Deed r (r.attempt v a) :=
  answerLogin_chain (fun _ _ hd => hd) hd a.slot a.id ..

theorem traffic_attempt (v : Service S) (r : Relay S) (a : Attempt) :
    Traffic (r.verdict v a).2 (r.attempt v a) := by
  rw [attempt_eq]
  dsimp only
  split
  · exact (traffic_send ..).trans (traffic_broadcast ..)
  · exact traffic_send ..

theorem store_attempt (v : Service S) (r : Relay S) (a : Attempt) :
    (r.attempt v a).store = (r.verdict v a).2.store := by
  rw [attempt_eq]
  dsimp only
  split
  · exact store_broadcast ..
  · rfl

end

section

variable {S : Type} {token : Nat → String} {lifetime : Nat} {r : Relay Store} {k : Nat}
  {name : String} {a : Attempt}

theorem verdict_settles (token : Nat → String) (lifetime : Nat) (r : Relay Store) (a : Attempt) :
    r.Settles a.slot a.id a.username.text (token r.drawn) (r.verdict (.direct token lifetime) a) :=
  login_settles ..

theorem direct_within (token : Nat → String) (lifetime : Nat) :
    (Service.direct token lifetime).Within Deed :=
  Service.ofStore_within fun _ _ hd => hd

theorem presence_attempt_of_found (hk : r.findName name = some k) :
    (r.attempt (.direct token lifetime) a).store.presence? name = r.store.presence? name := by
  rw [store_attempt]
  exact (verdict_settles ..).presence_of_found hk

theorem attempt_of_free (h : Consistent r) (hf : r.findName name = none)
    (hk : (r.attempt (.direct token lifetime) a).findName name = some k) :
    (r.verdict (.direct token lifetime) a).1 = .success ∧ a.username.text = name ∧
      (r.attempt (.direct token lifetime) a).store.presence? name =
        some ((r.attempt (.direct token lifetime) a).session k).id := by
  have ht := traffic_attempt (.direct token lifetime) r a
  have hid : ((r.attempt (.direct token lifetime) a).session k).id =
      ((r.verdict (.direct token lifetime) a).2.session k).id :=
    congrArg Identity.id (ht.identity k)
  rw [ht.findName_eq] at hk
  rw [store_attempt, hid]
  exact (verdict_settles ..).entered_of_free h hf hk

theorem presence_attempt_of_free (h : Consistent r) (hp : r.store.presence? name = none)
    (hf : (r.attempt (.direct token lifetime) a).findName name = none) :
    (r.attempt (.direct token lifetime) a).store.presence? name = none := by
  rw [store_attempt]
  rw [(traffic_attempt ..).findName_eq] at hf
  exact (verdict_settles ..).absent_of_free h hp hf

/-- What `k` is told between `r` and `r'` is `news`, and that is not of anybody who leaves. -/
structure Tells (r r' : Relay S) (k : Nat) (news : List Bytes) : Prop where
  outgoing : r'.outgoing k = r.outgoing k ++ news
  stays : ∀ name, (Packet.userLeaveNotify name).encode ∉ news

theorem Tells.nil {r r' : Relay S} (h : r'.outgoing k = r.outgoing k) : Tells r r' k [] :=
  ⟨h.trans (List.append_nil _).symm, fun _ => List.not_mem_nil⟩

theorem Tells.single {r r' : Relay S} {p : Packet} (hp : p.kind ≠ .userLeaveNotify)
    (h : r'.outgoing k = r.outgoing k ++ [p.encode]) : Tells r r' k [p.encode] := by
  refine ⟨h, fun name hname => ?_⟩
  have heq := List.mem_singleton.1 hname
  exact hp (Packet.kind_eq_of_encode_eq heq).symm

theorem Tells.trans {r r' r'' : Relay S} {news more : List Bytes} (h : Tells r r' k news)
    (h' : Tells r' r'' k more) : Tells r r'' k (news ++ more) := by
  refine ⟨?_, fun name => ?_⟩
  · rw [h'.outgoing, h.outgoing, List.append_assoc]
  · rw [List.mem_append, not_or]
    exact ⟨h.stays name, h'.stays name⟩

theorem outgoing_attempt {receiver : String} (h : Orderly r) (hr : r.Hears k receiver)
    (ho : (r.verdict (.direct token lifetime) a).1 = .success)
    (hroom : (r.attempt (.direct token lifetime) a).Room k) :
    (r.attempt (.direct token lifetime) a).outgoing k = r.outgoing k ++ [a.notice] := by
  have hd := verdict_deeds (direct_within token lifetime) r a
  have hs := verdict_settles token lifetime r a
  have h' := h.of_deeds hd
  have hr' := hr.of_deeds h hd
  have hne : a.slot ≠ k := by
    rintro rfl
    cases (hs.phase_of_success ho).symm.trans hr.phase
  have hexcept : some a.slot ≠ some k := by simpa using hne
  rw [attempt_eq] at hroom ⊢
  simp only [if_pos ho] at hroom ⊢
  have hreply := reply_chain (fun _ _ hd => hd) (r.verdict (.direct token lifetime) a).2 a.slot a.id
    (.loginResponse (r.verdict (.direct token lifetime) a).1)
  have hjoin := (hr'.of_deeds h' hreply).outgoing_broadcast (h'.of_deeds hreply) hexcept
    (.userJoinNotify a.username) hroom
  rw [outgoing_reply h' hne, hs.outgoing_eq k] at hjoin
  exact hjoin

theorem tells_attempt {receiver : String} (h : Orderly r) (hr : r.Hears k receiver)
    (hroom : (r.attempt (.direct token lifetime) a).Room k) :
    ∃ news, Tells r (r.attempt (.direct token lifetime) a) k news ∧
      ((r.verdict (.direct token lifetime) a).1 = .success → a.notice ∈ news) := by
  by_cases ho : (r.verdict (.direct token lifetime) a).1 = .success
  · exact ⟨_, Tells.single (p := .userJoinNotify _) nofun (outgoing_attempt h hr ho hroom),
      fun _ => List.mem_singleton.2 rfl⟩
  · have hd := verdict_deeds (direct_within token lifetime) r a
    have hout := (verdict_settles token lifetime r a).outgoing_eq k
    have h' := h.of_deeds hd
    have hr' := hr.of_deeds h hd
    rw [attempt_eq]
    simp only [if_neg ho]
    by_cases hk : a.slot = k
    · subst hk
      obtain hsame | hnew := outgoing_send_self_or h'.wired hr'.willing (some a.id)
        (Packet.loginResponse (r.verdict (.direct token lifetime) a).1).encode
      · exact ⟨[], Tells.nil (hsame.trans hout), fun hs => absurd hs ho⟩
      · exact ⟨_, Tells.single (p := .loginResponse _) nofun (hnew.trans (by rw [hout])),
          fun hs => absurd hs ho⟩
    · exact ⟨[], Tells.nil ((outgoing_reply h' hk ..).trans hout), fun hs => absurd hs ho⟩

end

end Relay

end ChatRelay
