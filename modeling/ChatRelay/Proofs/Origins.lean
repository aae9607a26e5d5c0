import ChatRelay.Proofs.Relay.Tenure
import ChatRelay.Proofs.Transcript

/-! # Where a connection comes from

Whoever is served was accepted by a step of the run and has been served ever since. Its ring holds
what follows the packets of everything that has come in for it since then.
-/

namespace ChatRelay.Engine

open Relation (ReflTransGen)
open Relay

variable {S : Type} {v : Service S} {e : Engine S} {slot : Nat} {id : SessionId}

/-- What the steps bring for connection `id` of `slot`, cut into packets. -/
def inflow (slot : Nat) (id : SessionId) (steps : List Step) : Framing :=
  Framing.ofBytes (steps.flatMap (Step.brings slot id))

theorem inflow_nil (slot : Nat) (id : SessionId) : inflow slot id [] = ⟨[], none, []⟩ :=
  Framing.ofBytes_nil

theorem inflow_append {steps : List Step} (h : (inflow slot id steps).error = none)
    (more : List Step) :
    let f := Framing.ofBytes ((inflow slot id steps).rest ++ more.flatMap (Step.brings slot id))
    inflow slot id (steps ++ more) =
      ⟨(inflow slot id steps).packets ++ f.packets, f.error, f.rest⟩ := by
  have hsplit := Framing.ofBytes_append h (more.flatMap (Step.brings slot id))
  rw [← List.flatMap_append] at hsplit
  exact hsplit

theorem run_append (as bs : List Step) : e.run v (as ++ bs) = (e.run v as).run v bs :=
  List.foldl_append ..

/-- A connection that comes in begins in a slot with nothing in its ring; all others stay. -/
theorem accept_begins_or (hw : Wired e.relay) (c : Incoming)
    (hp : ((e.accept c).2.relay.session slot).phase ≠ .disconnecting) :
    ((e.accept c).1 = some (slot, ((e.accept c).2.relay.session slot).id) ∧
      ((e.accept c).2.relay.session slot).phase = .connected ∧
      ((e.accept c).2.relay.session slot).inbound.toList = []) ∨
    Lasts e.relay (e.accept c).2.relay slot := by
  obtain he | ⟨j, r, hacquire, hcases⟩ := e.accept_eq c
  · rw [he] at hp ⊢
    exact .inr (.refl hp)
  · have hj := lt_capacity_of_leased (hw.acquired hacquire).1
    have hreleased (r : Relay S) : ((r.release j).session j).phase = .disconnecting := by
      have hi := identity_release r j j
      rw [if_pos rfl] at hi
      exact congrArg Identity.phase hi
    by_cases hslot : j = slot
    · subst hslot
      obtain ⟨-, he⟩ | ⟨-, hserved, he⟩ | ⟨-, -, he⟩ := hcases
      · exact absurd (he ▸ hreleased _) hp
      · rw [hserved, he, session_armRead, session_begin hj, if_pos rfl]
        exact .inl ⟨rfl, rfl, Ring.toList_clear _⟩
      · exact absurd (he ▸ hreleased _) hp
    · have hacts {r r' : Relay S} (ha : ReflTransGen (Act j) r r') :
          ReflTransGen (fun r r' => ∃ slot, Act slot r r') r r' :=
        ReflTransGen.mono (fun _ _ ha => ⟨j, ha⟩) _ _ ha
      have hfirst {r' : Relay S} (hl : Lasts r r' slot) : Lasts e.relay r' slot :=
        ((Act.acquire hacquire).lasts hl.live).trans hl
      have hbegin (l : Link) : (r.begin j e.allocate.1 l).session slot = r.session slot :=
        session_setSession_ne hslot _
      have hbegun {r' : Relay S} (l : Link)
          (ha : ReflTransGen (Act j) (r.begin j e.allocate.1 l) r')
          (hp : (r'.session slot).phase ≠ .disconnecting) : Lasts e.relay r' slot := by
        have hl := lasts_of_acts (hacts ha) hp
        exact hfirst ⟨hbegin l ▸ hl.live, hl.id.trans (congrArg Session.id (hbegin l)),
          fun hp => (hl.identity (by rwa [hbegin])).trans (congrArg Session.identity (hbegin l))⟩
      right
      obtain ⟨-, he⟩ | ⟨-, -, he⟩ | ⟨-, -, he⟩ := hcases <;> rw [he] at hp ⊢
      · exact hfirst ((Act.release r).lasts hp)
      · exact hbegun _ (.single (.armRead _ _)) hp
      · exact hbegun _ (.tail (.single (.armRead _ _)) (.release _)) hp

section

variable (hd : v.Within Deed)

include hd

theorem step_begins_or (hw : Wired e.relay) {s : Step}
    (hp : ((e.step v s).relay.session slot).phase ≠ .disconnecting) :
    (∃ c, s = .accept c ∧
      (e.accept c).1 = some (slot, ((e.step v s).relay.session slot).id) ∧
      ((e.step v s).relay.session slot).phase = .connected ∧
      ((e.step v s).relay.session slot).inbound.toList = []) ∨
    Lasts e.relay (e.step v s).relay slot := by
  cases s with
  | accept c => exact (accept_begins_or hw c hp).imp_left fun hbegins => ⟨c, rfl, hbegins⟩
  | complete c =>
    refine .inr (lasts_of_acts ?_ hp)
    exact ReflTransGen.mono (fun _ _ ha => ⟨c.connection.1, ha⟩) _ _ (complete_acts hd c)
  | halt => exact .inr (.refl hp)
  | stop => exact .inr (lasts_of_acts (endAll_acts hd (e := e.halt) _) hp)

/-- Whoever is served at the end of a run was accepted in its course, and its ring holds what
follows the last packet of its inflow. -/
theorem exists_accepted (hv : v.Blind) (h : Orderly e.relay)
    (hidle : (e.relay.session slot).phase = .disconnecting) {steps : List Step}
    (hf : e.FreshIds v steps) (hid : ((e.run v steps).relay.session slot).id = id)
    (hp : ((e.run v steps).relay.session slot).phase ≠ .disconnecting) :
    ∃ before c since, steps = before ++ .accept c :: since ∧
      ((e.run v before).accept c).1 = some (slot, id) ∧
      (inflow slot id since).error = none ∧
      (inflow slot id since).rest = ((e.run v steps).relay.session slot).inbound.toList := by
  induction steps using List.reverseRecOn with
  | nil => exact absurd hidle hp
  | append_singleton steps s ih =>
    obtain ⟨hf, hf', -⟩ := freshIds_append.1 hf
    have h := h.of_moves (moves_run hd h hf)
    have hlast : e.run v (steps ++ [s]) = (e.run v steps).step v s := run_append ..
    rw [hlast] at hid hp ⊢
    obtain ⟨c, rfl, hserved, -, hnil⟩ | hl := step_begins_or hd h.wired hp
    · refine ⟨steps, c, [], rfl, hid ▸ hserved, ?_⟩
      rw [inflow_nil]
      exact ⟨rfl, hnil.symm⟩
    · have hbefore := hl.id.symm.trans hid
      obtain ⟨before, c, since, hsteps, hserved, herror, hrest⟩ := ih hf hbefore hl.live
      have hwaits : (e.run v steps).relay.Waits slot := fun _ => hrest ▸ Framing.first_rest herror
      obtain ⟨herror', hrest'⟩ := framing_step hd h hv hbefore hl.live hwaits hp
      have hinflow := inflow_append herror [s]
      rw [List.flatMap_singleton, hrest] at hinflow
      refine ⟨before, c, since ++ [s], ?_, hserved, ?_⟩
      · rw [hsteps, List.append_assoc, List.cons_append]
      · rw [hinflow]
        exact ⟨herror', hrest'.symm⟩

end

end ChatRelay.Engine
