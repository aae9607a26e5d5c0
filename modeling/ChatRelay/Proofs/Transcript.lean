import ChatRelay.Proofs.Company
import Mathlib.Data.List.Infix

/-! # Transcripts

What a connection is told, step by step, and on whose behalf. While two connections stay logged in,
the one is told exactly what the stream of the other says to it.
-/

namespace ChatRelay

open Relation (ReflTransGen)

variable {S : Type}

namespace Engine

open Relay

variable {v : Service S} {e : Engine S} {slot k : Nat} {id : SessionId}
  {sender receiver : String}

def Step.brings (slot : Nat) (id : SessionId) : Step → Bytes
  | .complete (.received slot' id' (.ok bs)) => if slot' = slot ∧ id' = id then bs else []
  | _ => []

theorem Step.brings_of_ne {s : Step} (h : s.connection? ≠ some (slot, id)) :
    s.brings slot id = [] := by
  unfold Step.brings
  split
  · next slot' id' bs =>
    rw [if_neg]
    rintro ⟨rfl, rfl⟩
    exact h rfl
  · rfl

def told (v : Service S) (k : Nat) (e : Engine S) (s : Step) : List Bytes :=
  ((e.step v s).relay.outgoing k).drop (e.relay.outgoing k).length

/-- What `k` is told in the course of a run, each packet with the connection on whose behalf. -/
def transcript (v : Service S) (k : Nat) :
    Engine S → List Step → List (Option (Nat × SessionId) × Bytes)
  | _, [] => []
  | e, s :: steps =>
    (e.told v k s).map (s.connection?, ·) ++ transcript v k (e.step v s) steps

/-! ## Who stays logged in is not disturbed -/

section

variable (hd : v.Within Deed)

include hd

theorem disconnecting_endAll {slots : List Nat} (h : Consistent e.relay) (hk : k ∈ slots) :
    ((e.endAll v slots).relay.session k).phase = .disconnecting := by
  have hstays {r r' : Relay S} (ha : ReflTransGen (fun r r' => ∃ slot, Act slot r r') r r')
      (hp : (r.session k).phase = .disconnecting) : (r'.session k).phase = .disconnecting := by
    induction ha with
    | refl => exact hp
    | tail _ ha ih =>
      obtain ⟨_, ha⟩ := ha
      exact ha.disconnecting ih
  induction slots generalizing e with
  | nil => cases hk
  | cons slot slots ih =>
    have hrest := endAll_acts hd (e := if (e.relay.session slot).id = 0 then e
      else e.disconnect v slot (e.relay.session slot).id) slots
    have hsplit : e.endAll v (slot :: slots) = (if (e.relay.session slot).id = 0 then e
        else e.disconnect v slot (e.relay.session slot).id).endAll v slots := rfl
    rw [hsplit]
    by_cases hslot : slot = k
    · subst hslot
      refine hstays hrest ?_
      split
      · next hid =>
        by_contra hp
        exact (h.proper slot).id_ne_zero (h.link_of_phase hp) hid
      · next hid =>
        have hlink : (e.relay.session slot).link.isSome := by
          by_contra hl
          exact hid ((h.proper slot).idle (Option.not_isSome_iff_eq_none.1 hl)).1
        exact disconnecting_disconnect (Session.obstacle?_eq_none_iff.2 ⟨rfl, hlink⟩) e.running
    · refine ih ?_ ((List.mem_cons.1 hk).resolve_left (Ne.symm hslot))
      split
      · exact h
      · have hv : v.Within (Act slot) := hd.mono fun _ _ => .deed
        exact h.of_acts (disconnect_chain (fun _ _ ha => ha) hv _ e.running e.relay)

theorem disconnecting_stop (h : Consistent e.relay) (hk : k < e.relay.capacity) :
    ((e.stop v).relay.session k).phase = .disconnecting :=
  disconnecting_endAll hd (e := e.halt) h (List.mem_range.2 hk)

end

section

variable (hd : v.Within Deed) (h : Orderly e.relay)

include hd h

theorem inbound_step (hid : (e.relay.session slot).id = id)
    (hbefore : (e.relay.session slot).phase ≠ .disconnecting) {s : Step}
    (hp : ((e.step v s).relay.session slot).phase ≠ .disconnecting)
    (hother : s.connection? ≠ some (slot, id)) :
    ((e.step v s).relay.session slot).inbound = (e.relay.session slot).inbound := by
  have hlink := h.consistent.link_of_phase hbefore
  cases s with
  | accept c =>
    obtain he | ⟨j, r, ha, hacts⟩ := e.accept_acts c
    · exact congrArg (fun r : Relay S => (r.session slot).inbound) he
    · have hj := h.wired.ne_of_acquire ha hlink
      have hfirst := (Act.acquire ha).inbound_eq hj
      obtain hacts | ⟨l, hacts⟩ := hacts
      · exact (inbound_of_acts hacts hj).trans hfirst
      · have hbegin : (r.begin j e.allocate.1 l).session slot = r.session slot :=
          session_setSession_ne hj _
        exact (inbound_of_acts hacts hj).trans ((congrArg Session.inbound hbegin).trans hfirst)
  | complete c =>
    by_cases hc : c.connection.1 = slot
    · have hstale : (e.relay.session c.connection.1).id ≠ c.connection.2 := by
        rw [hc, hid]
        rintro rfl
        exact hother (congrArg some (Prod.ext hc rfl))
      exact congrArg (fun e : Engine S => (e.relay.session slot).inbound) (complete_of_stale hstale)
    · exact inbound_of_acts (complete_acts hd c) hc
  | halt => rfl
  | stop => exact absurd (disconnecting_stop hd h.consistent (lt_capacity_of_link hlink)) hp

/-- A step adds to the stream of a connection what it brings: the packets that are complete by then
are taken off the ring, the rest stays there. -/
theorem framing_step (hv : v.Blind) (hid : (e.relay.session slot).id = id)
    (hbefore : (e.relay.session slot).phase ≠ .disconnecting) (hwaits : e.relay.Waits slot)
    {s : Step} (hp : ((e.step v s).relay.session slot).phase ≠ .disconnecting) :
    let f := e.relay.framing slot (s.brings slot id)
    f.error = none ∧ ((e.step v s).relay.session slot).inbound.toList = f.rest := by
  have hquiet (hbrings : s.brings slot id = []) :
      e.relay.framing slot (s.brings slot id) =
      ⟨[], none, (e.relay.session slot).inbound.toList⟩ := by
    rw [hbrings, framing_nil (hwaits hbefore)]
  have hlink := h.consistent.link_of_phase hbefore
  have ho : (e.relay.session slot).obstacle? id = none :=
    Session.obstacle?_eq_none_iff.2 ⟨hid, hlink⟩
  have hends (hp : ((e.disconnect v slot id).relay.session slot).phase ≠ .disconnecting) : False :=
    hp (disconnecting_disconnect ho e.running)
  by_cases hc : s.connection? = some (slot, id)
  · cases s with
    | accept | halt | stop => cases hc
    | complete c =>
      have hlt := lt_capacity_of_link hlink
      cases c with
      | received slot' id' result =>
        obtain ⟨rfl, rfl⟩ : slot' = slot ∧ id' = id := Prod.mk.inj (Option.some.inj hc)
        simp only [Engine.step, complete, if_pos hlt] at hp ⊢
        rcases result with _ | _ | ⟨b, bs⟩
        · exact (hends hp).elim
        · exact (hends hp).elim
        · have hbrings : Step.brings slot' id' (.complete (.received slot' id' (.ok (b :: bs)))) =
              b :: bs := if_pos ⟨rfl, rfl⟩
          obtain ⟨hfits, he, heq⟩ := afterRead_eq hv hd ho (List.cons_ne_nil b bs) hp
          rw [hbrings, heq, session_armRead, inbound_absorb hd ho, toList_leftAfter hfits]
          exact ⟨he, rfl⟩
      | sent slot' id' result =>
        obtain ⟨rfl, rfl⟩ : slot' = slot ∧ id' = id := Prod.mk.inj (Option.some.inj hc)
        rw [hquiet rfl]
        simp only [Engine.step, complete, if_pos hlt] at hp ⊢
        rcases result with _ | n
        · exact (hends hp).elim
        · obtain ⟨q, b, hsent⟩ := (e.relay.session slot').sent_eq id' e.relay.links
          refine ⟨trivial, ?_⟩
          change ((e.relay.sent slot' id').session slot').inbound.toList = _
          rw [session_sent, if_pos rfl, hsent]
  · rw [hquiet (Step.brings_of_ne hc)]
    exact ⟨rfl, congrArg Ring.toList (inbound_step hd h hid hbefore hp hc)⟩

/-- The own steps of a connection tell others what the packets say that are complete by then. -/
theorem stream_step (hv : v.Blind) (hne : slot ≠ k)
    (hs : (e.relay.session slot).nameOf id = some sender) (hr : e.relay.Hears k receiver)
    (hwaits : e.relay.Waits slot) {s : Step}
    (hp : ((e.step v s).relay.session slot).phase ≠ .disconnecting)
    (hroom : (e.step v s).relay.Room k) :
    let f := e.relay.framing slot (s.brings slot id)
    (s.connection? = some (slot, id) → (e.step v s).relay.outgoing k =
        e.relay.outgoing k ++ f.packets.filterMap (Packet.relayed? sender receiver)) ∧
      (s.connection? ≠ some (slot, id) → f.packets = []) := by
  obtain ⟨hid, hphase, -⟩ := Session.nameOf_eq_some_iff.1 hs
  have hbefore : (e.relay.session slot).phase ≠ .disconnecting := by
    rw [hphase]; exact nofun
  have hquiet (hbrings : s.brings slot id = []) :
      (e.relay.framing slot (s.brings slot id)).packets = [] := by
    rw [hbrings, framing_nil (hwaits hbefore)]
  have hlink := h.consistent.link_of_phase hbefore
  have ho : (e.relay.session slot).obstacle? id = none :=
    Session.obstacle?_eq_none_iff.2 ⟨hid, hlink⟩
  have hends (hp : ((e.disconnect v slot id).relay.session slot).phase ≠ .disconnecting) : False :=
    hp (disconnecting_disconnect ho e.running)
  refine ⟨fun hc => ?_, fun hc => hquiet (Step.brings_of_ne hc)⟩
  cases s with
  | accept | halt | stop => cases hc
  | complete c =>
    have hlt := lt_capacity_of_link hlink
    cases c with
    | received slot' id' result =>
      obtain ⟨rfl, rfl⟩ : slot' = slot ∧ id' = id := Prod.mk.inj (Option.some.inj hc)
      simp only [Engine.step, complete, if_pos hlt] at hp hroom ⊢
      rcases result with _ | _ | ⟨b, bs⟩
      · exact (hends hp).elim
      · exact (hends hp).elim
      · have hbrings : Step.brings slot' id' (.complete (.received slot' id' (.ok (b :: bs)))) =
            b :: bs := if_pos ⟨rfl, rfl⟩
        obtain ⟨-, -, heq⟩ := afterRead_eq hv hd ho (List.cons_ne_nil b bs) hp
        rw [heq] at hroom ⊢
        rw [hbrings, outgoing_armRead]
        exact outgoing_absorb hd h hne hs hr _ hroom
    | sent slot' id' result =>
      obtain ⟨rfl, rfl⟩ : slot' = slot ∧ id' = id := Prod.mk.inj (Option.some.inj hc)
      rw [hquiet rfl]
      simp only [Engine.step, complete, if_pos hlt] at hp ⊢
      rcases result with _ | n
      · exact (hends hp).elim
      · exact (outgoing_sent_ne h.wired hne id').trans (List.append_nil _).symm

end

theorem told_accept (h : Wired e.relay) (hlink : (e.relay.session k).link.isSome)
    (hr : e.relay.Hears k receiver) (c : Incoming) :
    Told [] e.relay (e.accept c).2.relay k receiver := by
  obtain he | ⟨j, r, ha, hcases⟩ := e.accept_cases c
  · rw [he]
    exact .refl hr
  · have hj := h.ne_of_acquire ha hlink
    obtain ⟨hleased, hnone, -⟩ := h.acquired ha
    have hw := (Act.acquire ha).wired h
    have hacquired : Told [] e.relay r k receiver := by
      obtain ⟨free, -, rfl⟩ := acquire_eq_some_iff.1 ha
      exact Spared.told ⟨session_setSession_ne hj _, fun _ _ => rfl⟩ hr
    obtain he | ⟨l, hbegun⟩ := hcases
    · rw [he]
      exact hacquired.quiet ((spared_release hw hj).told hacquired.hears)
    · have hspared : Spared r (r.begin j e.allocate.1 l) k := by
        refine ⟨session_setSession_ne hj _, fun i hi => ?_⟩
        rw [links_begin hnone, List.getElem?_append_left (hw.link_lt k i hi)]
      have hbegin := hacquired.quiet (hspared.told hacquired.hears)
      have harmed := hbegin.quiet (told_armRead hbegin.hears j e.allocate.1)
      obtain he | he := hbegun <;> rw [he]
      · exact harmed
      · have harm : Act j (r.begin j e.allocate.1 l) _ := .armRead _ e.allocate.1
        have hw' := harm.wired (hw.begin hleased e.allocate.1 l)
        exact harmed.quiet ((spared_release hw' hj).told harmed.hears)

/-- Whoever hears and stays is told by a step the chat of the packets that the step completes, and
no other chat. -/
theorem told_step (hv : v.Mute) (hb : v.Blind) (h : Orderly e.relay)
    (hr : e.relay.Hears k receiver) {s : Step}
    (hp : ((e.step v s).relay.session k).phase ≠ .disconnecting)
    (hroom : (e.step v s).relay.Room k) :
    (e.step v s).relay.Hears k receiver ∧ ∃ new,
      (e.step v s).relay.outgoing k = e.relay.outgoing k ++ new ∧
        new.filter Packet.isChat = e.speech v k receiver s := by
  have hlink := h.consistent.link_of_phase (by rw [hr.phase]; exact nofun)
  have hof {chat : List Bytes} {r' : Relay S} (ht : Told chat e.relay r' k receiver)
      (hroom : r'.Room k) : r'.Hears k receiver ∧ ∃ new,
        r'.outgoing k = e.relay.outgoing k ++ new ∧ new.filter Packet.isChat = chat :=
    ⟨ht.hears, ht.outgoing hroom⟩
  cases s with
  | accept c => exact hof (told_accept h.wired hlink hr c) hroom
  | halt => exact hof (.refl hr) hroom
  | stop =>
    exact absurd (disconnecting_stop (Service.Mute.deed hv) h.consistent
      (lt_capacity_of_link hlink)) hp
  | complete c =>
    rcases c with ⟨slot, id, err | bs⟩ | ⟨slot, id, err | n⟩
    · rw [Engine.step, complete_received] at hp hroom ⊢
      exact hof (told_disconnect hv h hr slot id e.running hp) hroom
    · rw [Engine.step, complete_received, afterRead_takeIn] at hp hroom ⊢
      have htaken := told_takeIn hv hb h hr slot id bs
      have horderly := h.of_moves (ReflTransGen.mono (fun _ _ => Move.act) _ _
        (acts_of_bustles (takeIn_bustles hv slot id (.ok bs) e.relay)))
      split at hp
      · next hends =>
        rw [if_pos hends] at hroom ⊢
        exact hof (htaken.quiet (told_disconnect hv horderly htaken.hears slot id e.running hp))
          hroom
      · next hends =>
        rw [if_neg hends] at hroom ⊢
        exact hof htaken hroom
    · rw [Engine.step, complete] at hp hroom ⊢
      split at hp
      · next hlt =>
        rw [if_pos hlt] at hroom ⊢
        exact hof (told_disconnect hv h hr slot id e.running hp) hroom
      · next hlt =>
        rw [if_neg hlt] at hroom ⊢
        exact hof (.refl hr) hroom
    · rw [Engine.step, complete]
      split
      · obtain ⟨hears, hout⟩ := hr.sent h.wired slot id
        exact ⟨hears, [], hout.trans (List.append_nil _).symm, rfl⟩
      · exact ⟨hr, [], (List.append_nil _).symm, rfl⟩

theorem told_of_eq {s : Step} {packets : List Bytes}
    (he : (e.step v s).relay.outgoing k = e.relay.outgoing k ++ packets) :
    e.told v k s = packets := by
  rw [told, he, List.drop_left]

/-- Throughout the run `slot` serves connection `id`, which is logged in under `name`. -/
def StaysAs (v : Service S) (e : Engine S) (steps : List Step) (slot : Nat) (id : SessionId)
    (name : String) : Prop :=
  ∀ p, p <+: steps → ((e.run v p).relay.session slot).nameOf id = some name

instance StaysAs.decidable (v : Service S) (e : Engine S) (steps : List Step) (slot : Nat)
    (id : SessionId) (name : String) : Decidable (e.StaysAs v steps slot id name) :=
  decidable_of_iff
    (∀ p ∈ steps.inits, ((e.run v p).relay.session slot).nameOf id = some name)
    (forall_congr' fun p => by rw [List.mem_inits])

theorem StaysAs.now {steps : List Step} (h : e.StaysAs v steps slot id sender) :
    (e.relay.session slot).nameOf id = some sender :=
  h [] (List.nil_prefix)

theorem StaysAs.next {s : Step} {steps : List Step} (h : e.StaysAs v (s :: steps) slot id sender) :
    (e.step v s).StaysAs v steps slot id sender :=
  fun p hp => h (s :: p) ((List.prefix_cons_inj s).2 hp)

theorem StaysAs.phase {steps : List Step} (h : e.StaysAs v steps slot id sender) :
    (e.relay.session slot).phase ≠ .disconnecting := by
  rw [(Session.nameOf_eq_some_iff.1 h.now).2.1]
  exact nofun

theorem map_snd_label (c : Option (Nat × SessionId)) (packets : List Bytes) :
    (packets.map (c, ·)).map Prod.snd = packets := by
  rw [List.map_map]
  exact List.map_id packets

theorem map_snd_filter_label (c c' : Option (Nat × SessionId)) (packets : List Bytes) :
    ((packets.map (c, ·)).filter (·.1 = c')).map Prod.snd = if c = c' then packets else [] := by
  rw [List.filter_map, List.map_map]
  split
  · next h => simp [h, Function.comp_def]
  · next h => simp [h, Function.comp_def]

/-- What `k` is told is the transcript, and the chat in it is the conversation. What is said on behalf
of another connection is what the packets of its stream say. -/
theorem transcript_of_stays (hv : v.Mute) (hb : v.Blind) {steps : List Step}
    {rid : SessionId} (h : Orderly e.relay) (hf : e.FreshIds v steps) (hne : slot ≠ k)
    (hs : e.StaysAs v steps slot id sender) (hk : e.StaysAs v steps k rid receiver)
    (hr : e.relay.Hears k receiver) (hwaits : e.relay.Waits slot)
    (hroom : ∀ p, p <+: steps → (e.run v p).relay.Room k) :
    let f := e.relay.framing slot (steps.flatMap (Step.brings slot id))
    f.error = none ∧
      ((e.transcript v k steps).filter (·.1 = some (slot, id))).map Prod.snd =
        f.packets.filterMap (Packet.relayed? sender receiver) ∧
      (e.transcript v k steps).filter (Packet.isChat ·.2) =
        e.conversation v k receiver steps ∧
      (e.run v steps).relay.outgoing k =
        e.relay.outgoing k ++ (e.transcript v k steps).map Prod.snd := by
  have hd : v.Within Deed := Service.Mute.deed hv
  induction steps generalizing e with
  | nil =>
    intro f
    have hnil : f = ⟨[], none, (e.relay.session slot).inbound.toList⟩ :=
      framing_nil (hwaits hs.phase)
    rw [hnil]
    exact ⟨rfl, rfl, rfl, (List.append_nil _).symm⟩
  | cons s steps ih =>
    intro f
    have hs' := hs.next
    have hk' := hk.next
    have h' := orderly_step hd h hf.1
    have hroom' := hroom [s] ⟨steps, rfl⟩
    obtain ⟨hr', new, hnew, hchat⟩ := told_step hv hb h hr hk'.phase hroom'
    have hid := (Session.nameOf_eq_some_iff.1 hs.now).1
    obtain ⟨he, hrest⟩ := framing_step hd h hb hid hs.phase hwaits hs'.phase
    obtain ⟨hown, hother⟩ := stream_step hd h hb hne hs.now hr hwaits hs'.phase hroom'
    obtain ⟨herror, hfilter, hspoken, hout⟩ :=
      ih h' hf.2 hs' hk' hr' (waits_step hb hd h hwaits s)
        fun p hp => hroom (s :: p) ((List.prefix_cons_inj s).2 hp)
    have htold := told_of_eq hnew
    set f₁ := e.relay.framing slot (s.brings slot id) with hf₁
    set f₂ := (e.step v s).relay.framing slot (steps.flatMap (Step.brings slot id)) with hf₂
    have hsplit : f = ⟨f₁.packets ++ f₂.packets, f₂.error, f₂.rest⟩ := by
      have happend := Framing.ofBytes_append he (steps.flatMap (Step.brings slot id))
      rw [hf₂, framing, hrest]
      exact (congrArg _ (List.append_assoc ..).symm).trans happend
    rw [hsplit]
    refine ⟨herror, ?_, ?_, ?_⟩
    · rw [transcript, List.filter_append, List.map_append, hfilter, List.filterMap_append, htold]
      congr 1
      rw [map_snd_filter_label]
      split
      · next hc => exact List.append_cancel_left (hnew.symm.trans (hown hc))
      · next hc => rw [hother hc, List.filterMap_nil]
    · rw [transcript, conversation, List.filter_append, hspoken, htold, ← hchat, List.filter_map]
      rfl
    · rw [transcript, List.map_append, htold, map_snd_label, ← List.append_assoc, ← hnew]
      exact hout

/-- Chat arrives. While two connections stay logged in and the link of the one refuses nothing and
never falls behind by a whole backlog, the link is handed its transcript. All the chat in that is
what the packets say that the steps complete, each laid to the connection that has sent it, and what
is laid to the other connection is every broadcast of its stream and every whisper to the one, in
order, once each. -/
theorem handed_eq_transcript (answer : (c : StoreCall) → S → Except StoreError c.Answer × S)
    (token : Nat → String) (lifetime capacity : Nat) (limits : Limits) (store : S)
    (before steps : List Step) (slot k : Nat) (id rid : SessionId) (sender receiver : String) :
    let v := Service.ofStore answer token lifetime
    let e := (start capacity limits store).run v before
    let stream := (e.relay.session slot).inbound.toList ++ steps.flatMap (Step.brings slot id)
    (start capacity limits store).FreshIds v (before ++ steps) →
    PacketKind.maxWireLength ≤ limits.sendSize →
    (slot, id) ≠ (k, rid) →
    e.StaysAs v steps slot id sender →
    e.StaysAs v steps k rid receiver →
    e.relay.Willing k →
    (∀ p, p <+: steps → ((e.run v p).relay.session k).queue.length < limits.sendBacklog) →
    ((e.run v steps).relay.session k).queue = [] →
    (e.run v steps).relay.handed k =
        e.relay.outgoing k ++ (e.transcript v k steps).map Prod.snd ∧
      (e.transcript v k steps).filter (Packet.isChat ·.2) = e.conversation v k receiver steps ∧
      ((e.transcript v k steps).filter (·.1 = some (slot, id))).map Prod.snd =
        (Framing.ofBytes stream).packets.filterMap (Packet.relayed? sender receiver) ∧
      (Framing.ofBytes stream).error = none := by
  intro v e stream hf hsize hne hs hk hwilling hroom hdone
  have hv : v.Mute := Service.ofStore_mute
  have hb : v.Blind := Service.ofStore_blind
  have hd : v.Within Deed := Service.Mute.deed hv
  have hstart : Orderly (start capacity limits store).relay := .start ..
  obtain ⟨hf₁, hf₂⟩ := freshIds_append.1 hf
  have hmoves := moves_run hd hstart hf₁
  have horderly : Orderly e.relay := hstart.of_moves hmoves
  have hlimits (p : List Step) (hp : p <+: steps) :
      ((e.run v p).relay.session k).limits = limits := by
    obtain ⟨q, rfl⟩ := hp
    have hrest := moves_run hd horderly (freshIds_append.1 hf₂).1
    exact (limits_of_moves (hmoves.trans hrest) k).trans
      (congrArg Session.limits (session_start capacity limits store k))
  have hslots : slot ≠ k := by
    rintro rfl
    have hid := (Session.nameOf_eq_some_iff.1 hs.now).1
    have hrid := (Session.nameOf_eq_some_iff.1 hk.now).1
    exact hne (Prod.ext rfl (hid.symm.trans hrid))
  obtain ⟨-, hphase, huser⟩ := Session.nameOf_eq_some_iff.1 hk.now
  have hr : e.relay.Hears k receiver :=
    ⟨hphase, huser, hwilling, (hlimits [] List.nil_prefix).symm ▸ hsize⟩
  have hwaits : e.relay.Waits slot := waits_run hb hd hstart hf₁
    fun hp => absurd (congrArg Session.phase (session_start capacity limits store slot)) hp
  obtain ⟨herror, hfilter, hchat, hout⟩ :=
    transcript_of_stays hv hb horderly hf₂ hslots hs hk hr hwaits fun p hp => by
      rw [Room, hlimits p hp]
      exact hroom p hp
  refine ⟨?_, hchat, hfilter, herror⟩
  exact (Session.outgoing_of_queue_eq_nil hdone).symm.trans hout

/-- Ann tells everybody hello and bob something else, in reads that are cut within both headers, while
what bob was told before is still being written. -/
theorem handed_eq_transcript_split_reads :
    let login (name : String) := (Packet.loginRequest .blank .blank (.truncated name)).encode
    let hello : MessageField := .truncated "hello"
    let psst : MessageField := .truncated "psst"
    let said := (Packet.broadcastRequest hello).encode
    let whispered := (Packet.whisperRequest (.truncated "bob") psst).encode
    let before : List Step := [.accept (.ofPeer none), .accept (.ofPeer none),
      .complete (.received 0 1 (.ok (login "ann"))), .complete (.received 1 2 (.ok (login "bob")))]
    let steps : List Step := [.complete (.received 0 1 (.ok (said.take 3))),
      .complete (.received 0 1 (.ok (said.drop 3 ++ whispered.take 2))),
      .complete (.sent 1 2 (.ok 6)), .complete (.received 0 1 (.ok (whispered.drop 2))),
      .complete (.sent 1 2 (.ok 1062)), .complete (.sent 1 2 (.ok 1064))]
    let v := Service.direct (fun _ => "t") 60
    let e₀ := start 2 ⟨1100, 1100, maxPacketSize, 4⟩ (Store.empty.addUser "" "")
    let e := e₀.run v before
    let heard := [(Packet.broadcastResponse (.truncated "ann") hello).encode,
      (Packet.whisperResponse .success (.truncated "ann") psst).encode]
    e.StaysAs v steps 0 1 "ann" ∧ e.StaysAs v steps 1 2 "bob" ∧
      (e.run v steps).relay.handed 1 =
        e.relay.outgoing 1 ++ (e.transcript v 1 steps).map Prod.snd ∧
      (e.transcript v 1 steps).filter (Packet.isChat ·.2) = heard.map (some (0, 1), ·) ∧
      ((e.transcript v 1 steps).filter (·.1 = some (0, 1))).map Prod.snd = heard ∧
      (Framing.ofBytes ((e.relay.session 0).inbound.toList ++
        steps.flatMap (Step.brings 0 1))).error = none := by
  intro login hello psst said whispered before steps v e₀ e heard
  have hv : v.Mute := Service.ofStore_mute
  have hb : v.Blind := Service.ofStore_blind
  have hd : v.Within Deed := Service.Mute.deed hv
  have hfresh : e₀.FreshIds v (before ++ steps) := freshIds_of_length hd (by decide)
  have horderly : Orderly e.relay := (Orderly.start ..).of_moves
    (moves_run hd (.start ..) (freshIds_append.1 hfresh).1)
  have hfacts : (e.relay.session 0).nameOf 1 = some "ann" ∧ e.relay.Eager 0 ∧
      (e.relay.session 0).inbound.capacity = 1100 ∧ (e.relay.session 0).inbound.toList = [] ∧
      (e.relay.session 1).nameOf 2 = some "bob" ∧ e.relay.Hears 1 "bob" ∧
      (e.relay.session 1).queue.length ≤ 1 := by
    decide +kernel
  obtain ⟨hname, heager, hcells, hheld, hlistener, hears, hwaiting⟩ := hfacts
  have h₀ : e.Company 0 1 "ann" 1100 1 2 "bob" [] 1 :=
    ⟨horderly, by decide, hname, heager, hcells, hheld, hlistener, hears, hwaiting⟩
  have hfirst : Framing.ofBytes ([] ++ said.take 3) = ⟨[], none, said.take 3⟩ :=
    Framing.ofBytes_of_none (by decide +kernel)
  have hsecond : Framing.ofBytes (said.take 3 ++ (said.drop 3 ++ whispered.take 2)) =
      ⟨[said], none, whispered.take 2⟩ := by
    rw [@Framing.ofBytes_of_some _ said (whispered.take 2) (by decide +kernel),
      Framing.ofBytes_of_none (by decide +kernel)]
  have hthird : Framing.ofBytes (whispered.take 2 ++ whispered.drop 2) =
      ⟨[whispered], none, []⟩ := by
    rw [@Framing.ofBytes_of_some _ whispered [] (by decide +kernel), Framing.ofBytes_nil]
  have hflows : Flows 0 1 1100 1 2 4 [] 1 steps [said, whispered] := by
    refine .read (by decide) (by decide +kernel) (by decide +kernel) (by decide +kernel) hfirst ?_
    refine .read (by decide) (by decide +kernel) (by decide +kernel) (by decide +kernel) hsecond ?_
    refine .write (by decide) ?_
    refine .read (by decide) (by decide +kernel) (by decide +kernel) (by decide +kernel) hthird ?_
    exact .write (by decide) (.write (by decide) (.nil (by decide)))
  obtain ⟨hall, hdone, hchat⟩ := h₀.run hv hb hflows
  have hs : e.StaysAs v steps 0 1 "ann" := fun p hp => (hall p hp).1
  have hk : e.StaysAs v steps 1 2 "bob" := fun p hp => (hall p hp).2.1
  have hsaid : [said, whispered].filterMap (Packet.relayed? "ann" "bob") = heard := by
    have hto : (Field.truncated "bob" : NameField).text = "bob" := by decide +kernel
    simp [said, whispered, heard, Packet.relayed?, hto]
  have hstream : (e.relay.session 0).inbound.toList ++ steps.flatMap (Step.brings 0 1) =
      said ++ whispered := by
    simp only [hheld, steps, List.flatMap_cons, List.flatMap_nil, Step.brings, and_self, if_true,
      List.nil_append, List.append_nil]
    rw [List.append_assoc, ← List.append_assoc, List.take_append_drop, List.take_append_drop]
  have hframing : Framing.ofBytes (said ++ whispered) = ⟨[said, whispered], none, []⟩ := by
    rw [@Framing.ofBytes_of_some _ said whispered (by decide +kernel),
      @Framing.ofBytes_of_some _ whispered [] (by decide +kernel), Framing.ofBytes_nil]
  obtain ⟨hhanded, hspoken, hlabelled, herror⟩ := handed_eq_transcript _ _ _ _ _ _ before steps 0 1 1 2
    "ann" "bob" hfresh (by decide) (by decide) hs hk hears.willing (fun p hp => (hall p hp).2.2)
    hdone
  refine ⟨hs, hk, hhanded, hspoken.trans ?_, hlabelled.trans ?_, herror⟩
  · rw [← hsaid]
    exact hchat
  · change (Framing.ofBytes ((e.relay.session 0).inbound.toList ++
      steps.flatMap (Step.brings 0 1))).packets.filterMap (Packet.relayed? "ann" "bob") = heard
    rw [hstream, hframing, hsaid]

end Engine

end ChatRelay
