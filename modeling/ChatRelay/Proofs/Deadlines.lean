import ChatRelay.Proofs.Authentication
import ChatRelay.Proofs.Credentials
import ChatRelay.Proofs.Endings

/-! # Deadlines

A session token expires when its lifetime is over, at a time that the clock has to be able to hold.
A worker that asks for a token which would outlive the clock is lost. Settings are accepted whatever
lifetime they ask for, so a worker survives a run exactly if every token that is drawn in it expires
before the clock ends.
-/

namespace ChatRelay

/-- If a step keeps a property exactly under a condition, then a run keeps it exactly if each of its
steps meets the condition. -/
theorem foldl_keeps_iff {σ α : Type} {f : σ → α → σ} {P : σ → Prop} {C : σ → α → Prop}
    (h : ∀ s a, P (f s a) ↔ P s ∧ C s a) (s : σ) (as : List α) :
    P (as.foldl f s) ↔ P s ∧ ∀ before a, before ++ [a] <+: as → C (before.foldl f s) a := by
  -- From the end, since what a step has to meet depends on the steps before it.
  induction as using List.reverseRecOn with
  | nil => simp
  | append_singleton as a ih =>
    rw [List.foldl_append, List.foldl_cons, List.foldl_nil, h, ih, and_assoc]
    refine and_congr_right fun _ => ⟨?_, fun hall => ⟨fun before b hb => ?_, ?_⟩⟩
    · rintro ⟨hbefore, hlast⟩ before b hb
      obtain heq | hb := List.prefix_concat_iff.1 hb
      · obtain ⟨rfl, hsame⟩ := List.append_inj' heq rfl
        obtain rfl := List.singleton_inj.1 hsame
        exact hlast
      · exact hbefore before b hb
    · exact hall before b (hb.trans (List.prefix_append ..))
    · exact hall as a List.prefix_rfl

namespace Store

/-- No token was asked for that would have outlived the clock. -/
def Intact (s : Store) : Prop :=
  s.overrun = false

instance (s : Store) : Decidable s.Intact :=
  inferInstanceAs (Decidable (_ = _))

theorem lasting_now : Lasting now := by
  intro s c
  obtain ⟨_, _, _, h⟩ := s.answer_eq c
  rw [h]

theorem intact_createToken (s : Store) (token userId : String) (lifetime : Nat) :
    (s.answer (.createToken token userId lifetime)).2.Intact ↔
      s.Intact ∧ s.now + lifetime < clockEnd := by
  simp only [answer, createToken?]
  split
  · next h =>
    split at h
    · next hlt =>
      cases h
      exact (and_iff_left hlt).symm
    · cases h
  · next h =>
    split at h
    · cases h
    · next hge => simp [Intact, hge]

theorem intact_forget (s : Store) (name token : Option String) :
    (s.forget name token).Intact ↔ s.Intact := by
  cases name <;> rfl

theorem addAll_eq {s s' : Store} {as : List Account} (h : s.addAll as = .ok s') :
    ∃ accounts, s' = { s with accounts := accounts } := by
  induction as generalizing s with
  | nil =>
    cases h
    exact ⟨_, rfl⟩
  | cons a as ih =>
    unfold addAll at h
    split at h
    · next s₁ hadd =>
      obtain ⟨-, -, rfl⟩ := add_eq_ok_iff.1 hadd
      obtain ⟨accounts, he⟩ := ih h
      exact ⟨accounts, he⟩
    · cases h

theorem exists_of_load {h : Host} {path : String} {s : Store} (hs : load h path = .ok s) :
    ∃ as, ofAccounts as = .ok s := by
  unfold load at hs
  split at hs
  · cases hs
  · cases hs
  · unfold ofDocument at hs
    split at hs
    · cases hs
    · cases hs
    · exact ⟨_, hs⟩

theorem load_of_find {h : Host} {path : String} {bs : Bytes} {a : Account} {as : List Account}
    (hfind : h.find path = .ok (.file bs)) (hparse : Account.parseList? bs = some (a :: as)) :
    load h path = ofAccounts (a :: as) := by
  simp only [load, hfind, ofDocument, hparse]

end Store

namespace Relay

variable {token : Nat → String} {lifetime slot : Nat} {id : SessionId}
  {user password name : String}

/-! ## Logins that draw a token -/

/-- Connection `id` of `slot` is not logged in, and nothing is wrong with its request for that. -/
def Draws (r : Relay Store) (slot : Nat) (id : SessionId) (packet : Bytes) : Prop :=
  (r.session slot).nameOf id = none ∧ ∃ name, r.Grants packet name

theorem intact_enter (drawn : String) (r : Relay Store) :
    (r.enter (.direct token lifetime) slot id name drawn).2.store.Intact ↔ r.store.Intact := by
  set r₁ : Relay Store := { r with store := r.store.setPresence name id }
  have hask : (Service.direct token lifetime).ask (.setPresence name id) r = (.ok (), r₁) := rfl
  have hkept : (r₁.register slot id name drawn).2.store.Intact ↔ r₁.store.Intact := by
    rw [store_register]
  simp only [enter, hask]
  split
  · next r' h => rwa [h] at hkept
  · next r' h =>
    rw [h] at hkept
    dsimp only [restorePresence]
    split
    · exact hkept
    · exact hkept
  · next r' h =>
    rw [h] at hkept
    exact hkept

theorem intact_grant (r : Relay Store) :
    (r.grant (.direct token lifetime) slot id user name).2.store.Intact ↔
      r.store.Intact ∧ (r.findName name = none → r.store.now + lifetime < clockEnd) := by
  set v := Service.direct token lifetime
  have hcreated := r.store.intact_createToken (v.token r.drawn) user lifetime
  unfold grant
  by_cases hfound : (r.findName name).isSome
  · have hne : r.findName name ≠ none := Option.isSome_iff_ne_none.1 hfound
    simp [hfound, hne]
  · rw [if_neg hfound]
    rcases ha : r.store.answer (.createToken (v.token r.drawn) user lifetime) with ⟨a, s⟩
    have hask : v.ask (.createToken (v.token r.drawn) user v.lifetime)
        { r with drawn := r.drawn + 1 } = (a, { r with store := s, drawn := r.drawn + 1 }) :=
      congrArg (fun p => (p.1, { r with store := p.2, drawn := r.drawn + 1 })) ha
    rw [ha] at hcreated
    simp only [hask, Option.not_isSome_iff_eq_none.1 hfound, true_imp_iff, ← hcreated]
    cases a with
    | error e => rfl
    | ok _ => rw [intact_enter]

theorem intact_login (r : Relay Store) :
    (r.login (.direct token lifetime) slot id user password name).2.store.Intact ↔
      r.store.Intact ∧ ((r.session slot).nameOf id = none ∧ name ≠ "" ∧
        r.store.passwordHash? user = some (hashPassword password) ∧ r.findName name = none →
        r.store.now + lifetime < clockEnd) := by
  have hask : (Service.direct token lifetime).ask (.passwordHash user) r =
    (.ok (r.store.passwordHash? user), r) := rfl
  simp only [login, hask]
  by_cases hin : ((r.session slot).nameOf id).isSome
  · have hne : (r.session slot).nameOf id ≠ none := Option.isSome_iff_ne_none.1 hin
    simp [hin, hne]
  · rw [if_neg hin]
    have hout := Option.not_isSome_iff_eq_none.1 hin
    by_cases hname : name = ""
    · simp [hname]
    · rw [if_neg hname]
      cases r.store.passwordHash? user with
      | none => simp
      | some hash =>
        by_cases hhash : hashPassword password = hash
        · simp [hhash, hout, hname, intact_grant]
        · simp [hhash, Ne.symm hhash]

theorem intact_handle (packet : Bytes) (r : Relay Store) :
    (r.handle (.direct token lifetime) slot id packet).store.Intact ↔
      r.store.Intact ∧ (r.Draws slot id packet → r.store.now + lifetime < clockEnd) := by
  have hother (hno : ∀ userId password username,
      Packet.decode packet ≠ .ok (.loginRequest userId password username)) :
      ¬ r.Draws slot id packet := by
    rintro ⟨-, name, ⟨⟨userId, password, username, hp, -⟩, -, -⟩⟩
    exact hno _ _ _ hp
  unfold handle
  split
  · next userId password username hp =>
    have hstore := store_attempt (.direct token lifetime) r ⟨slot, id, userId, password, username⟩
    have hdraws : r.Draws slot id packet ↔ (r.session slot).nameOf id = none ∧
        username.text ≠ "" ∧
        r.store.passwordHash? userId.text = some (hashPassword password.text) ∧
        r.findName username.text = none := by
      refine and_congr_right fun _ => ⟨?_, ?_⟩
      · rintro ⟨name, ⟨_, _, _, hp', rfl, hpassword⟩, hname, hfree⟩
        cases hp.symm.trans hp'
        exact ⟨hname, hpassword, hfree⟩
      · rintro ⟨hname, hpassword, hfree⟩
        exact ⟨_, ⟨_, _, _, hp, rfl, hpassword⟩, hname, hfree⟩
    rw [hdraws]
    exact (congrArg Store.Intact hstore).to_iff.trans (intact_login r)
  · next hp =>
    have hno := hother (by simp [hp])
    simp [hno, (quiet_relayBroadcast ..).store]
  · next hp =>
    have hno := hother (by simp [hp])
    simp [hno, (quiet_relayWhisper ..).store]
  · next hlogin _ _ =>
    have hno := hother hlogin
    simp [hno]

theorem now_handleAll (packets : List Bytes) (r : Relay Store) :
    (r.handleAll (.direct token lifetime) slot id packets).store.now = r.store.now := by
  induction packets generalizing r with
  | nil => rfl
  | cons packet packets ih => rw [handleAll_cons, ih, view_handle Store.lasting_now]

def DrawsAmong (v : Service Store) (slot : Nat) (id : SessionId) (packets : List Bytes)
    (r : Relay Store) : Prop :=
  ∃ before packet, before ++ [packet] <+: packets ∧
    (r.handleAll v slot id before).Draws slot id packet

theorem intact_handleAll (packets : List Bytes) (r : Relay Store) :
    (r.handleAll (.direct token lifetime) slot id packets).store.Intact ↔ r.store.Intact ∧
      (r.DrawsAmong (.direct token lifetime) slot id packets →
        r.store.now + lifetime < clockEnd) := by
  have hkeeps := foldl_keeps_iff
    (f := fun (r : Relay Store) packet => r.handle (.direct token lifetime) slot id packet)
    (P := fun r => r.store.Intact) (fun r packet => intact_handle packet r) r packets
  refine hkeeps.trans (and_congr_right fun _ => ?_)
  simp only [DrawsAmong, forall_exists_index, and_imp]
  refine forall_congr' fun before => ?_
  have hnow : (r.handleAll (.direct token lifetime) slot id before).store.now = r.store.now :=
    now_handleAll before r
  rw [← hnow]
  rfl

theorem intact_disconnect (announced : Bool) (r : Relay Store) :
    (r.disconnect (.direct token lifetime) slot id announced).store.Intact ↔ r.store.Intact := by
  obtain ⟨name, drawn, he⟩ := store_disconnect token lifetime r slot id announced
  rw [he, Store.intact_forget]

theorem store_takeIn {v : Service Store} (r : Relay Store) (slot : Nat) (id : SessionId)
    {bs : Bytes} (hne : bs ≠ []) :
    ((r.receive slot id bs).1 = .ok () ∧
      (r.takeIn v slot id (.ok bs)).2.store = ((r.receive slot id bs).2.drain v slot id).2.store) ∨
    (r.receive slot id bs).1 ≠ .ok () ∧ (r.takeIn v slot id (.ok bs)).2.store = r.store := by
  obtain ⟨b, bs, rfl⟩ := List.exists_cons_of_ne_nil hne
  simp only [takeIn]
  rcases hreceive : r.receive slot id (b :: bs) with ⟨e | _, r₁⟩
  · exact .inr ⟨by simp, congrArg (fun p => p.2.store) hreceive.symm⟩
  · refine .inl ⟨rfl, ?_⟩
    dsimp only
    rcases r₁.drain v slot id with ⟨e | n, r₂⟩
    · rfl
    · dsimp only
      rcases harm : r₂.armRead slot id with ⟨e | _, r₃⟩
      · exact congrArg (fun p => p.2.store) harm.symm
      · exact congrArg (fun p => p.2.store) harm.symm

end Relay

namespace Engine

open Relay

variable {token : Nat → String} {lifetime : Nat} {e : Engine Store}

/-! ## Steps that draw a token -/

/-- The worker is not lost to a token that would have outlived the clock. -/
def Intact (e : Engine Store) : Prop :=
  e.relay.store.Intact

instance (e : Engine Store) : Decidable e.Intact :=
  inferInstanceAs (Decidable e.relay.store.Intact)

/-- In the course of the step a token is drawn: by one of the packets that a read completes. -/
def DrawsToken (v : Service Store) (e : Engine Store) : Step → Prop
  | .complete (.received slot id (.ok bs)) =>
    bs ≠ [] ∧ (e.relay.receive slot id bs).1 = .ok () ∧
      e.relay.DrawsAmong v slot id (e.relay.framing slot bs).packets
  | _ => False

theorem intact_afterRead (slot : Nat) (id : SessionId) (bs : Bytes) (e : Engine Store) :
    (e.afterRead (.direct token lifetime) slot id (.ok bs)).Intact ↔ e.Intact ∧
      (e.DrawsToken (.direct token lifetime) (.complete (.received slot id (.ok bs))) →
        e.relay.store.now + lifetime < clockEnd) := by
  by_cases hne : bs = []
  · subst hne
    have hended : (e.afterRead (.direct token lifetime) slot id (.ok [])).Intact ↔ e.Intact :=
      intact_disconnect e.running e.relay
    simp [hended, DrawsToken]
  · have htaken : (e.afterRead (.direct token lifetime) slot id (.ok bs)).Intact ↔
        (e.relay.takeIn (.direct token lifetime) slot id (.ok bs)).2.store.Intact := by
      rw [afterRead_takeIn]
      split
      · exact intact_disconnect e.running _
      · rfl
    rw [htaken]
    obtain ⟨hok, hstore⟩ | ⟨hno, hstore⟩ := e.relay.store_takeIn slot id hne
    · obtain ⟨ho, hfits⟩ := fits_of_receive hok
      have hb : (Service.direct token lifetime).Blind := Service.ofStore_blind
      have hserved : (e.relay.absorb (.direct token lifetime) slot id bs).store =
        (e.relay.handleAll (.direct token lifetime) slot id
          (e.relay.framing slot bs).packets).store := rfl
      rw [hstore, drain_receive hb (direct_within token lifetime) ho hfits, hserved,
        intact_handleAll]
      simp [DrawsToken, Intact, hne, hok]
    · rw [hstore]
      simp [DrawsToken, Intact, hno]

/-- A step keeps the store intact exactly if the clock can hold the deadlines of the tokens that are
drawn in its course. -/
theorem intact_step (e : Engine Store) (s : Step) :
    (e.step (.direct token lifetime) s).Intact ↔ e.Intact ∧
      (e.DrawsToken (.direct token lifetime) s → e.relay.store.now + lifetime < clockEnd) := by
  set v := Service.direct token lifetime
  -- All steps but a read that brings octets draw no token, and leave the store as intact as it was.
  have hkept {s : Step} (hno : ¬ e.DrawsToken v s) (h : (e.step v s).Intact ↔ e.Intact) :
      (e.step v s).Intact ↔
        e.Intact ∧ (e.DrawsToken v s → e.relay.store.now + lifetime < clockEnd) := by
    simp [h, hno]
  cases s with
  | accept c => exact hkept id (congrArg Store.Intact (store_accept e c)).to_iff
  | halt => exact hkept id .rfl
  | stop =>
    have hended := endAll_parts (v := v) (T := fun r r' => r'.store.Intact = r.store.Intact)
      (fun slot id b r => .single (propext (intact_disconnect b r)))
      (List.range e.relay.capacity) e.halt
    exact hkept id (view_of_chain hended).to_iff
  | complete c =>
    cases c with
    | sent slot id result =>
      refine hkept (fun h => h) ?_
      simp only [step, complete]
      split
      · cases result with
        | ok n => exact .rfl
        | error cause => exact intact_disconnect e.running e.relay
      · exact .rfl
    | received slot id result =>
      simp only [step, complete]
      by_cases hslot : slot < e.relay.capacity
      · rw [if_pos hslot]
        cases result with
        | ok bs => exact intact_afterRead slot id bs e
        | error cause =>
          have hended : (e.afterRead v slot id (.error cause)).Intact ↔ e.Intact :=
            intact_disconnect e.running e.relay
          simp [hended, DrawsToken]
      · rw [if_neg hslot]
        have hno : ¬ e.DrawsToken v (.complete (.received slot id result)) := by
          cases result with
          | ok bs =>
            rintro ⟨-, hok, -⟩
            exact hslot (lt_capacity_of_obstacle? (fits_of_receive hok).1)
          | error cause => exact fun h => h
        simp [hno]

/-! ## Runs by the clock -/

def wait (e : Engine Store) (seconds : Nat) : Engine Store :=
  { e with relay := { e.relay with store := e.relay.store.wait seconds } }

/-- Takes steps, each when as many seconds have passed as it says. -/
def clocked (v : Service Store) (e : Engine Store) (steps : List (Nat × Step)) : Engine Store :=
  steps.foldl (fun e s => (e.wait s.1).step v s.2) e

def elapsed : List (Nat × Step) → Nat
  | [] => 0
  | (seconds, _) :: steps => seconds + elapsed steps

theorem elapsed_append (as bs : List (Nat × Step)) :
    elapsed (as ++ bs) = elapsed as + elapsed bs := by
  induction as with
  | nil => exact (Nat.zero_add _).symm
  | cons s as ih => rw [List.cons_append, elapsed, ih, elapsed, Nat.add_assoc]

theorem now_clocked (token : Nat → String) (lifetime : Nat) (e : Engine Store)
    (steps : List (Nat × Step)) :
    (e.clocked (.direct token lifetime) steps).relay.store.now =
      e.relay.store.now + elapsed steps := by
  induction steps generalizing e with
  | nil => rfl
  | cons s steps ih =>
    have hwait : (e.wait s.1).relay.store.now = e.relay.store.now + s.1 := rfl
    have hrest := ih ((e.wait s.1).step (.direct token lifetime) s.2)
    rw [view_step Store.lasting_now, hwait, Nat.add_assoc] at hrest
    exact hrest

theorem elapsed_le_of_prefix {before steps : List (Nat × Step)} {seconds : Nat} {step : Step}
    (h : before ++ [(seconds, step)] <+: steps) : elapsed before + seconds ≤ elapsed steps := by
  obtain ⟨after, rfl⟩ := h
  rw [elapsed_append, elapsed_append]
  simp only [elapsed]
  omega

/-- A run keeps the store intact exactly if the clock can hold the deadline of every token that is
drawn in it. -/
theorem intact_clocked (e : Engine Store) (steps : List (Nat × Step)) :
    (e.clocked (.direct token lifetime) steps).Intact ↔ e.Intact ∧
      ∀ before seconds step, before ++ [(seconds, step)] <+: steps →
        ((e.clocked (.direct token lifetime) before).wait seconds).DrawsToken
          (.direct token lifetime) step →
        e.relay.store.now + elapsed before + seconds + lifetime < clockEnd := by
  have hkeeps := foldl_keeps_iff (P := fun e : Engine Store => e.Intact)
    (f := fun e s => (e.wait s.1).step (.direct token lifetime) s.2)
    (fun e s => intact_step (e.wait s.1) s.2) e steps
  refine hkeeps.trans (and_congr_right fun _ => forall_congr' fun before => ?_)
  rw [← now_clocked token lifetime e before]
  exact Prod.forall

end Engine

/-! ## Servers with any lifetime -/

namespace Server

variable {h : Host} {c : Config} {s : Server} {e : Engine Store}

theorem create_lifetime (hs : create h c = .ok s) (lifetime : UInt64) :
    create h { c with tokenTtlSecs := lifetime } =
      .ok { s with config := { c with tokenTtlSecs := lifetime } } := by
  simp only [create] at hs ⊢
  split at hs
  · cases hs
    rfl
  · cases hs

theorem config_of_create (hs : create h c = .ok s) : s.config = c := by
  unfold create at hs
  split at hs
  · cases hs
    rfl
  · cases hs

theorem now_of_create (hs : create h c = .ok s) : s.store.now = 0 ∧ s.store.Intact := by
  unfold create at hs
  split at hs
  · next store hload =>
    cases hs
    obtain ⟨as, has⟩ := Store.exists_of_load hload
    obtain ⟨accounts, rfl⟩ := Store.addAll_eq has
    exact ⟨rfl, rfl⟩
  · cases hs

theorem listen_lifetime (hs : create h c = .ok s) (he : s.listen h = .ok e) (lifetime : UInt64) :
    listen h { s with config := { c with tokenTtlSecs := lifetime } } = .ok e := by
  obtain rfl := config_of_create hs
  exact he

theorem store_of_listen (he : s.listen h = .ok e) : e.relay.store = s.store := by
  unfold listen at he
  split at he
  · cases he
  · cases he
    rfl

def annsHost : Host :=
  ⟨[], [(["users.json"], .file (Utf8.encode (Account.listToJson [.ofPassword "ann" ""])))],
    fun _ => none⟩

theorem create_annsHost (hc : c.users = "users.json") :
    create annsHost c = .ok ⟨c, Store.empty.addUser "ann" ""⟩ := by
  have hparse : Account.parseList? (Utf8.encode (Account.listToJson [.ofPassword "ann" ""])) =
    some [.ofPassword "ann" ""] := by decide +kernel
  have hfault : (Account.ofPassword "ann" "").fault? = none := by decide +kernel
  have hadd : Store.empty.add (.ofPassword "ann" "") = .ok (Store.empty.addUser "ann" "") :=
    Store.add_eq_ok_iff.2 ⟨hfault, rfl, rfl⟩
  have hload : Store.load annsHost "users.json" = .ok (Store.empty.addUser "ann" "") := by
    rw [Store.load_of_find rfl hparse, Store.ofAccounts, Store.addAll, hadd]
    rfl
  rw [create, hc, hload]

theorem listen_annsHost (s : Server) :
    s.listen annsHost = .ok (.start s.config.maxSessions.toNat s.config.limits s.store) := rfl

end Server

namespace Engine

/-- Settings are accepted, and a server with them listens, whatever lifetime they give to tokens. Its
store stays intact in a run exactly if, each time a login gets as far as its token, the clock can
hold the time at which that token expires. -/
theorem intact_iff_deadlines_fit {h : Host} {c : Config} {s : Server} {e : Engine Store}
    (hc : c.validate h.hasPath = .ok ()) (hs : Server.create h c = .ok s)
    (he : s.listen h = .ok e) (token : Nat → String) (lifetime : UInt64)
    (steps : List (Nat × Step)) :
    let c' := { c with tokenTtlSecs := lifetime }
    let s' := { s with config := c' }
    let v := Service.direct token c'.tokenLifetime
    c'.validate h.hasPath = .ok () ∧ Server.create h c' = .ok s' ∧ s'.listen h = .ok e ∧
      ((e.clocked v steps).Intact ↔
        ∀ before seconds step, before ++ [(seconds, step)] <+: steps →
          ((e.clocked v before).wait seconds).DrawsToken v step →
            elapsed before + seconds + lifetime.toNat < clockEnd) := by
  intro c' s' v
  refine ⟨hc, Server.create_lifetime hs lifetime, Server.listen_lifetime hs he lifetime, ?_⟩
  obtain ⟨hnow, hintact⟩ := Server.now_of_create hs
  rw [← Server.store_of_listen he] at hnow hintact
  refine (intact_clocked e steps).trans ((and_iff_right hintact).trans ?_)
  rw [hnow]
  simp only [Nat.zero_add]
  rfl

theorem intact_iff_deadlines_fit_last_second :
    let simple := { Config.simple ⟨.v4 127 0 0 1, 0⟩ "users.json" with maxSessions := 1 }
    let s : Server := ⟨simple, Store.empty.addUser "ann" ""⟩
    let e := Engine.start s.config.maxSessions.toNat s.config.limits s.store
    let c' := { simple with tokenTtlSecs := 9223372036854775797 }
    let s' := { s with config := c' }
    let v := Service.direct (fun _ => "t") c'.tokenLifetime
    let login := Packet.loginRequest (.truncated "ann") .blank (.truncated "ann")
    let steps (seconds : Nat) : List (Nat × Step) :=
      [(0, .accept (.ofPeer none)), (seconds, .complete (.received 0 1 (.ok login.encode)))]
    c'.validate Server.annsHost.hasPath = .ok () ∧ Server.create Server.annsHost c' = .ok s' ∧
      s'.listen Server.annsHost = .ok e ∧
      ((e.clocked v (steps 10)).relay.session 0).nameOf 1 = some "ann" ∧
      (e.clocked v (steps 10)).Intact ∧
      ¬ (e.clocked v (steps 11)).Intact := by
  intro simple s e c' s' v login steps
  have hc : simple.validate Server.annsHost.hasPath = .ok () := by decide +kernel
  obtain ⟨hc', hs', he', hintact⟩ := intact_iff_deadlines_fit hc (Server.create_annsHost rfl)
    (Server.listen_annsHost s) (fun _ => "t") 9223372036854775797 (steps 10)
  refine ⟨hc', hs', he', by decide +kernel, hintact.2 fun before seconds step hprefix _ => ?_,
    by decide +kernel⟩
  have hbound : elapsed before + seconds ≤ 10 := elapsed_le_of_prefix hprefix
  have hend : 10 + (9223372036854775797 : UInt64).toNat < clockEnd := by decide
  omega

/-- Settings are accepted with a lifetime that no clock reading leaves room for, and the first login
that is granted loses the worker. -/
theorem accepted_lifetime_overruns :
    let c : Config := { Config.simple ⟨.v4 127 0 0 1, 0⟩ "users.json" with
      maxSessions := 1, tokenTtlSecs := 9223372036854775808 }
    let s : Server := ⟨c, Store.empty.addUser "ann" ""⟩
    let e := Engine.start s.config.maxSessions.toNat s.config.limits s.store
    let v := Service.direct (fun _ => "t") c.tokenLifetime
    let e' := e.step v (.accept (.ofPeer none))
    let login := Packet.loginRequest (.truncated "ann") .blank (.truncated "ann")
    let read := Step.complete (.received 0 1 (.ok login.encode))
    c.validate Server.annsHost.hasPath = .ok () ∧ Server.create Server.annsHost c = .ok s ∧
      s.listen Server.annsHost = .ok e ∧ e'.Intact ∧ e'.DrawsToken v read ∧
      ¬ e'.relay.store.now + c.tokenLifetime < clockEnd ∧
      ¬ (e'.step v read).Intact := by
  intro c s e v e' login read
  have hintact : e'.Intact := by decide +kernel
  have hlost : ¬ (e'.step v read).Intact := by decide +kernel
  have hstep := mt (intact_step e' read).2 hlost
  obtain ⟨hdraws, hlate⟩ := Classical.not_imp.1 (not_and.1 hstep hintact)
  exact ⟨by decide +kernel, Server.create_annsHost rfl, Server.listen_annsHost s, hintact, hdraws,
    hlate, hlost⟩

end Engine

end ChatRelay
