import ChatRelay.Housekeeping
import ChatRelay.Proofs.Endings

/-! # What housekeeping comes to

A round ends exactly the connections of which nothing has been heard for so long, and it does so as
writes would that fail. So whatever holds of every run holds with rounds in between. Whoever is
served at any time was heard of within the timeout and what has passed since the last round.
-/

namespace ChatRelay

open Relation (ReflTransGen)

namespace Engine

open Relay

variable {S : Type} {v : Service S} {e : Engine S} {silent : Nat → Bool} {slot k : Nat}
  {slots : List Nat}

/-! ## Sweeps -/

def overdue (silent : Nat → Bool) (e : Engine S) (slot : Nat) : Bool :=
  (e.relay.session slot).id ≠ 0 && (e.relay.session slot).isLive && silent slot

def failedWrite (e : Engine S) (slot : Nat) : Step :=
  .complete (.sent slot (e.relay.session slot).id (.error "idle timeout"))

theorem overdue_iff : e.overdue silent slot = true ↔ (e.relay.session slot).id ≠ 0 ∧
    (e.relay.session slot).isLive = true ∧ silent slot = true := by
  simp [overdue, and_assoc]

theorem sweep_cons (v : Service S) (silent : Nat → Bool) (e : Engine S) (slot : Nat)
    (slots : List Nat) : e.sweep v silent (slot :: slots) =
      (if e.overdue silent slot then e.disconnect v slot (e.relay.session slot).id else e).sweep v
        silent slots := by
  simp [sweep, overdue, and_assoc]

section

variable {e' : Engine S} (hi : (e'.relay.session k).identity = (e.relay.session k).identity)

include hi

theorem overdue_congr : e'.overdue silent k = e.overdue silent k := by
  have hid : (e'.relay.session k).id = (e.relay.session k).id := congrArg Identity.id hi
  rw [overdue, overdue, hid, Session.isLive_congr hi]

theorem failedWrite_congr : e'.failedWrite k = e.failedWrite k := by
  have hid : (e'.relay.session k).id = (e.relay.session k).id := congrArg Identity.id hi
  rw [failedWrite, failedWrite, hid]

end

theorem step_failedWrite (h : e.overdue silent slot = true) :
    e.step v (e.failedWrite slot) = e.disconnect v slot (e.relay.session slot).id :=
  if_pos (lt_capacity_of_isLive (overdue_iff.1 h).2.1)

section

variable (hv : v.Mute)

include hv

theorem identity_ended (h : e.overdue silent slot = true) (k : Nat) :
    ((e.disconnect v slot (e.relay.session slot).id).relay.session k).identity =
      if slot = k then ⟨0, .disconnecting, "", none, none⟩
      else (e.relay.session k).identity := by
  obtain ⟨d, hd⟩ : ∃ d, (e.relay.depart slot (e.relay.session slot).id).1 = some d := by
    rcases depart_cases e.relay slot (e.relay.session slot).id with ⟨hno, -⟩ | ⟨-, he⟩
    · exact absurd ⟨rfl, (overdue_iff.1 h).2.1⟩ hno
    · exact ⟨_, congrArg Prod.fst he⟩
  have hi := @Ending.identity_result _ v (e.ending slot (e.relay.session slot).id) hv d hd k
  exact hi

theorem identity_sweep (slots : List Nat) (e : Engine S) (k : Nat) :
    ((e.sweep v silent slots).relay.session k).identity =
      if k ∈ slots ∧ e.overdue silent k = true then ⟨0, .disconnecting, "", none, none⟩
      else (e.relay.session k).identity := by
  induction slots generalizing e with
  | nil => simp [sweep]
  | cons slot slots ih =>
    rw [sweep_cons]
    by_cases hdue : e.overdue silent slot = true
    · have hi := identity_ended hv hdue k
      rw [if_pos hdue, ih]
      by_cases hk : slot = k
      · subst hk
        rw [if_pos rfl] at hi
        have hgone : ¬ (e.disconnect v slot (e.relay.session slot).id).overdue silent slot :=
          fun hstill => (overdue_iff.1 hstill).1 (congrArg Identity.id hi)
        rw [if_neg fun h => hgone h.2, if_pos ⟨List.mem_cons_self, hdue⟩, hi]
      · rw [if_neg hk] at hi
        rw [overdue_congr hi, hi]
        simp [Ne.symm hk]
    · rw [if_neg hdue, ih]
      by_cases hk : slot = k
      · subst hk
        simp [hdue]
      · simp [Ne.symm hk]

theorem orderly_sweep (h : Orderly e.relay) : Orderly (e.sweep v silent slots).relay := by
  induction slots generalizing e with
  | nil => exact h
  | cons slot slots ih =>
    rw [sweep_cons]
    apply ih
    split
    · have hacts := Ending.result_acts hv (e.ending slot (e.relay.session slot).id)
      exact h.of_moves (ReflTransGen.mono (fun _ _ => Move.act) _ _ hacts)
    · exact h

theorem sweep_eq_run (hnodup : slots.Nodup) :
    e.sweep v silent slots =
      e.run v ((slots.filter (e.overdue silent)).map e.failedWrite) := by
  induction slots generalizing e with
  | nil => rfl
  | cons slot slots ih =>
    obtain ⟨hslot, hrest⟩ := List.nodup_cons.1 hnodup
    rw [sweep_cons]
    by_cases hdue : e.overdue silent slot = true
    · have hother {k : Nat} (hk : k ∈ slots) := identity_ended hv hdue k
      set e' := e.disconnect v slot (e.relay.session slot).id with he'
      have hsame {k : Nat} (hk : k ∈ slots) :
          (e'.relay.session k).identity = (e.relay.session k).identity :=
        (hother hk).trans (if_neg (ne_of_mem_of_not_mem hk hslot).symm)
      have hfilter : slots.filter (e'.overdue silent) = slots.filter (e.overdue silent) :=
        List.filter_congr fun k hk => overdue_congr (hsame hk)
      have hmap : (slots.filter (e.overdue silent)).map e'.failedWrite =
          (slots.filter (e.overdue silent)).map e.failedWrite := by
        exact List.map_congr_left fun k hk => failedWrite_congr (hsame (List.mem_filter.1 hk).1)
      rw [if_pos hdue, ih hrest, hfilter, hmap, List.filter_cons_of_pos hdue, List.map_cons, run,
        run, List.foldl_cons, step_failedWrite hdue]
    · rw [if_neg hdue, ih hrest, List.filter_cons_of_neg hdue]

end

end Engine

namespace Watch

open Relay

variable {v : Service Store} {w : Watch} {idleTimeout : Option Nat} {seconds k : Nat}

/-! ## Rounds -/

theorem purge_deed (e : Engine Store) : Deed e.relay e.purge.relay :=
  .store e.relay e.relay.store.purge.2 e.relay.drawn

/-- A round drops the tokens that have expired, and is then a run of writes that fail to all those
who have been silent. -/
theorem tidy_eq_run (hv : v.Mute) (w : Watch) (seconds : Nat) :
    let store := w.engine.relay.store
    let e := w.engine.purge
    let silent (slot : Nat) : Bool := 1000 * seconds ≤ w.silence slot
    (∀ t, e.relay.store.tokens.get? t = (store.tokens.get? t).filter store.isLive) ∧
      (w.tidy v (some seconds)).engine =
        e.run v (((List.range e.relay.capacity).filter (e.overdue silent)).map e.failedWrite) :=
  ⟨fun _ => Table.get?_filter .., Engine.sweep_eq_run hv List.nodup_range⟩

/-- A round ends the connections that have been silent, and no others. -/
theorem isLive_tidy_iff (hv : v.Mute) (h : Orderly w.engine.relay) (k : Nat) :
    ((w.tidy v (some seconds)).engine.relay.session k).isLive = true ↔
      (w.engine.relay.session k).isLive = true ∧ w.silence k < 1000 * seconds := by
  let silent (slot : Nat) : Bool := 1000 * seconds ≤ w.silence slot
  have hi := @Engine.identity_sweep _ v silent hv (List.range w.engine.relay.capacity)
    w.engine.purge k
  change ((w.tidy v (some seconds)).engine.relay.session k).identity = _ at hi
  split at hi
  · next hdue =>
    have hsilent : 1000 * seconds ≤ w.silence k := of_decide_eq_true (Engine.overdue_iff.1 hdue.2).2.2
    refine iff_of_false (fun hlive => ?_) fun hkept => Nat.not_le.2 hkept.2 hsilent
    exact (Session.isLive_iff.1 hlive).2 (congrArg Identity.phase hi)
  · next hkept =>
    rw [Session.isLive_congr hi]
    constructor
    · intro hlive
      refine ⟨hlive, Nat.not_le.1 fun hsilent => hkept ⟨?_, Engine.overdue_iff.2 ⟨?_, hlive, ?_⟩⟩⟩
      · exact List.mem_range.2 (lt_capacity_of_isLive hlive)
      · exact (h.consistent.proper k).id_ne_zero (Session.isLive_iff.1 hlive).1
      · exact decide_eq_true hsilent
    · exact And.left

/-! ## Turns -/

def run (v : Service Store) (idleTimeout : Option Nat) (w : Watch) (turns : List (Nat × Turn)) :
    Watch :=
  turns.foldl (fun w t => (w.wait t.1).take v idleTimeout t.2) w

def FreshIds (v : Service Store) (idleTimeout : Option Nat) : Watch → List (Nat × Turn) → Prop
  | _, [] => True
  | w, (elapsed, t) :: turns =>
    (∀ s, t = .step s → (w.wait elapsed).engine.FreshFor s) ∧
      FreshIds v idleTimeout ((w.wait elapsed).take v idleTimeout t) turns

/-- What has passed since the last round, when `since` had before these turns. -/
def sinceRound : Nat → List (Nat × Turn) → Nat
  | since, [] => since
  | since, (elapsed, .step _) :: turns => sinceRound (since + elapsed) turns
  | _, (_, .round) :: turns => sinceRound 0 turns

/-- Whoever is served was heard of within `bound`. -/
structure Attended (w : Watch) (bound : Nat) : Prop where
  orderly : Orderly w.engine.relay
  silence_le : ∀ k, (w.engine.relay.session k).isLive = true → w.silence k ≤ bound

theorem silence_step_le (v : Service Store) (s : Engine.Step) (w : Watch) (k : Nat) :
    (w.step v s).silence k ≤ w.silence k := by
  unfold silence step
  dsimp only
  split
  · next slot _ =>
    rw [Table.get?_insert]
    split
    · simp
    · exact Nat.le_refl _
  · exact Nat.le_refl _

namespace Attended

variable {bound : Nat} (h : w.Attended bound)

include h

theorem wait (elapsed : Nat) : (w.wait elapsed).Attended (bound + elapsed) := by
  constructor
  · exact h.orderly.of_deeds (.single (.store _ _ w.engine.relay.drawn))
  · intro k hk
    have hbefore := h.silence_le k hk
    unfold silence at hbefore ⊢
    simp only [Watch.wait]
    omega

theorem step (hd : v.Within Deed) {s : Engine.Step} (hf : w.engine.FreshFor s) :
    (w.step v s).Attended bound := by
  constructor
  · exact Engine.orderly_step hd h.orderly hf
  · intro k hk
    have hp := (Session.isLive_iff.1 hk).2
    obtain ⟨c, rfl, haccepted, -⟩ | hlasts :=
      Engine.step_begins_or hd h.orderly.wired (e := w.engine) hp
    · have hheard : w.engine.heard? (.accept c) = some k := congrArg (Option.map Prod.fst) haccepted
      simp [silence, Watch.step, hheard, Table.get?_insert]
    · have hlive : (w.engine.relay.session k).isLive = true :=
        Session.isLive_iff.2 ⟨h.orderly.consistent.link_of_phase hlasts.live, hlasts.live⟩
      exact (silence_step_le v s w k).trans (h.silence_le k hlive)

theorem tidy (hv : v.Mute) : (w.tidy v (some seconds)).Attended (1000 * seconds) where
  orderly := Engine.orderly_sweep hv (h.orderly.of_deeds (.single (purge_deed w.engine)))
  silence_le k hk := ((isLive_tidy_iff hv h.orderly k).1 hk).2.le

end Attended

theorem Attended.run (hv : v.Mute) {since : Nat} {turns : List (Nat × Turn)}
    (h : w.Attended (1000 * seconds + since)) (hf : w.FreshIds v (some seconds) turns) :
    (w.run v (some seconds) turns).Attended (1000 * seconds + sinceRound since turns) := by
  induction turns generalizing w since with
  | nil => exact h
  | cons t turns ih =>
    obtain ⟨elapsed, t⟩ := t
    have hwaited := h.wait elapsed
    cases t with
    | step s =>
      rw [Nat.add_assoc] at hwaited
      exact ih (hwaited.step (Service.Mute.deed hv) (hf.1 s rfl)) hf.2
    | round =>
      have htidied : (w.wait elapsed |>.tidy v (some seconds)).Attended (1000 * seconds + 0) :=
        hwaited.tidy hv
      exact ih htidied hf.2

/-- Whoever is served after any turns was heard of within the timeout and what has passed since the
last round. -/
theorem silence_le_of_run (hv : v.Mute) (capacity : Nat) (limits : Limits) (store : Store)
    (seconds : Nat) (turns : List (Nat × Turn)) :
    let w := start (.start capacity limits store)
    w.FreshIds v (some seconds) turns →
    ∀ k, ((w.run v (some seconds) turns).engine.relay.session k).isLive = true →
      (w.run v (some seconds) turns).silence k ≤ 1000 * seconds + sinceRound 0 turns := by
  intro w hf
  have h : w.Attended (1000 * seconds + 0) :=
    ⟨Orderly.start .., fun k _ => (Nat.zero_le _).trans' (Nat.sub_le 0 _)⟩
  exact (h.run hv hf).silence_le

example :
    let w := (start (.start 1 ⟨16, 16, 16, 4⟩ .empty)).run (.direct (fun _ => "t") 60) (some 2)
      [(0, .step (.accept (.ofPeer none))), (1999, .round)]
    w.engine.relay.available = 0 ∧
      ((w.wait 1).tidy (.direct (fun _ => "t") 60) (some 2)).engine.relay.available = 1 := by
  decide +kernel

end Watch

end ChatRelay
