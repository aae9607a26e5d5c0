import ChatRelay.Proofs.Framing
import ChatRelay.Proofs.Relay.Inbound

/-! # Reassembly

However a stream is cut into reads, the packets that are handled are those of the whole stream, in
order and once each, and what is left in the ring are the octets after them.
-/

namespace ChatRelay

open Relation (ReflTransGen)

variable {S : Type}

def Framing.outcome (f : Framing) : Except FramingError Nat :=
  match f.error with
  | none => .ok f.packets.length
  | some e => .error e

namespace Relay

variable {v : Service S} {r : Relay S} {slot : Nat} {id : SessionId}

/-- Handles packets one after another. -/
def handleAll (v : Service S) (slot : Nat) (id : SessionId) (packets : List Bytes) (r : Relay S) :
    Relay S :=
  packets.foldl (fun r packet => r.handle v slot id packet) r

theorem handleAll_cons (v : Service S) (slot : Nat) (id : SessionId) (packet : Bytes)
    (packets : List Bytes) (r : Relay S) :
    r.handleAll v slot id (packet :: packets) =
      (r.handle v slot id packet).handleAll v slot id packets := rfl

theorem handleAll_append (v : Service S) (slot : Nat) (id : SessionId) (ps qs : List Bytes)
    (r : Relay S) :
    r.handleAll v slot id (ps ++ qs) = (r.handleAll v slot id ps).handleAll v slot id qs :=
  List.foldl_append ..

theorem handleAll_withInbound (hv : v.Blind) (ring : Ring) (packets : List Bytes) (r : Relay S) :
    (r.withInbound slot ring).handleAll v slot id packets =
      (r.handleAll v slot id packets).withInbound slot ring := by
  induction packets generalizing r with
  | nil => rfl
  | cons packet packets ih => rw [handleAll_cons, handle_withInbound hv, ih, handleAll_cons]

theorem handleAll_chain {T : Relay S → Relay S → Prop} (hT : ∀ r r', Deed r r' → T r r')
    (hv : v.Within T) (packets : List Bytes) (r : Relay S) :
    ReflTransGen T r (r.handleAll v slot id packets) := by
  induction packets generalizing r with
  | nil => exact .refl
  | cons packet packets ih => exact (handle_chain hT hv slot id packet r).trans (ih _)

theorem obstacle?_of_deeds {r' : Relay S} (h : ReflTransGen Deed r r') (k : Nat) (id : SessionId) :
    (r'.session k).obstacle? id = (r.session k).obstacle? id := by
  obtain ⟨p, u, t, q, b, h⟩ := session_eq_of_deeds h k
  rw [h]; rfl

theorem obstacle?_withInbound (r : Relay S) (slot k : Nat) (ring : Ring) (id : SessionId) :
    ((r.withInbound slot ring).session k).obstacle? id = (r.session k).obstacle? id := by
  obtain ⟨ring', h⟩ := session_withInbound r slot k ring
  rw [h]; rfl

theorem lt_capacity_of_obstacle? (h : (r.session slot).obstacle? id = none) : slot < r.capacity :=
  lt_capacity_of_link (Session.obstacle?_eq_none_iff.1 h).2

/-! ## One drain -/

theorem serve_of_none {limit : Nat} (ho : (r.session slot).obstacle? id = none)
    (hf : Framing.first (r.session slot).inbound.toList = .ok none) :
    r.serve v slot id limit = (.ok 0, r) := by
  cases limit with
  | zero => rfl
  | succ limit =>
    have htake := (r.session slot).inbound.takePacket_eq
    simp only [hf, Except.map, Option.map] at htake
    simp only [serve, ho, htake]

theorem serve_of_error {limit : Nat} {e : FramingError}
    (ho : (r.session slot).obstacle? id = none)
    (hf : Framing.first (r.session slot).inbound.toList = .error e) :
    r.serve v slot id (limit + 1) = (.error e, r) := by
  have htake := (r.session slot).inbound.takePacket_eq
  simp only [hf, Except.map] at htake
  simp only [serve, ho, htake]

theorem serve_of_some (hv : v.Blind) {limit : Nat} {packet rest : Bytes}
    (ho : (r.session slot).obstacle? id = none)
    (hf : Framing.first (r.session slot).inbound.toList = .ok (some (packet, rest))) :
    let served := ((r.handle v slot id packet).withInbound slot
      ((r.session slot).inbound.skip packet.length)).serve v slot id limit
    r.serve v slot id (limit + 1) = (served.1.map (· + 1), served.2) := by
  have htake := (r.session slot).inbound.takePacket_eq
  simp only [hf, Except.map, Option.map] at htake
  have hset (ring : Ring) :
      r.setSession slot { r.session slot with inbound := ring } = r.withInbound slot ring := rfl
  simp only [serve, ho, htake, hset, handle_withInbound hv]
  split
  · next h => rw [h]; rfl
  · next h => rw [h]; rfl

theorem serve_eq (hv : v.Blind) (hd : v.Within Deed) {limit : Nat}
    (ho : (r.session slot).obstacle? id = none)
    (hl : (r.session slot).inbound.size ≤ limit) :
    let f := Framing.ofBytes (r.session slot).inbound.toList
    r.serve v slot id limit = (f.outcome, (r.handleAll v slot id f.packets).withInbound slot
      ((r.session slot).inbound.skip f.packets.flatten.length)) := by
  have hself (r : Relay S) : r = r.withInbound slot (r.session slot).inbound :=
    (withInbound_inbound r slot).symm
  induction limit generalizing r with
  | zero =>
    have hnil : (r.session slot).inbound.toList = [] := by
      rw [← List.length_eq_zero_iff, Ring.length_toList]; omega
    simp only [hnil, Framing.ofBytes_nil, List.flatten_nil, List.length_nil, Ring.skip_zero]
    exact congrArg _ (hself r)
  | succ limit ih =>
    cases hf : Framing.first (r.session slot).inbound.toList with
    | error e =>
      rw [serve_of_error ho hf, Framing.ofBytes_of_error hf]
      simp only [List.flatten_nil, List.length_nil, Ring.skip_zero]
      exact congrArg _ (hself r)
    | ok o =>
      cases o with
      | none =>
        rw [serve_of_none ho hf, Framing.ofBytes_of_none hf]
        simp only [List.flatten_nil, List.length_nil, Ring.skip_zero]
        exact congrArg _ (hself r)
      | some pr =>
        obtain ⟨packet, rest⟩ := pr
        have hsplit := Framing.append_of_first hf
        have hpos := Framing.headerLength_le_of_first hf
        have hlen : packet.length + rest.length = (r.session slot).inbound.size := by
          rw [← Ring.length_toList, ← hsplit, List.length_append]
        have hdeeds := handle_chain (fun _ _ h => h) hd slot id packet r
        have hslot : slot < (r.handle v slot id packet).capacity := by
          rw [capacity_eq_of_deeds hdeeds]; exact lt_capacity_of_obstacle? ho
        have hrest : ((r.session slot).inbound.skip packet.length).toList = rest := by
          rw [Ring.toList_skip (by omega), ← hsplit, List.drop_left]
        set next := (r.handle v slot id packet).withInbound slot
          ((r.session slot).inbound.skip packet.length) with hnext
        have hring : (next.session slot).inbound = (r.session slot).inbound.skip packet.length := by
          rw [hnext, session_withInbound_self hslot]
        have hserve := ih (r := next)
          (by rw [hnext, obstacle?_withInbound, obstacle?_of_deeds hdeeds, ho])
          (by rw [hring, Ring.size_skip (by omega)]; unfold headerLength at hpos; omega)
        simp only [hring, hrest] at hserve
        rw [serve_of_some hv ho hf, ← hnext, hserve, Framing.ofBytes_of_some hf, hnext,
          handleAll_withInbound hv, withInbound_withInbound, Ring.skip_skip]
        simp only [handleAll_cons, List.flatten_cons, List.length_append, Framing.outcome]
        cases (Framing.ofBytes rest).error <;> rfl

theorem drain_eq (hv : v.Blind) (hd : v.Within Deed) (ho : (r.session slot).obstacle? id = none) :
    let f := Framing.ofBytes (r.session slot).inbound.toList
    r.drain v slot id = (f.outcome, (r.handleAll v slot id f.packets).withInbound slot
      ((r.session slot).inbound.skip f.packets.flatten.length)) :=
  serve_eq hv hd ho (Nat.le_refl _)

/-! ## One read -/

theorem receive_of_fits {chunk : Bytes} (ho : (r.session slot).obstacle? id = none)
    (hroom : chunk.length ≤ (r.session slot).inbound.free) :
    r.receive slot id chunk =
      (.ok (), r.withInbound slot ((r.session slot).inbound.append chunk)) := by
  have hadmits : (r.session slot).admits id chunk.length = .ok () := by
    simp [Session.admits, ho, hroom]
  apply Prod.ext
  · exact hadmits
  · rw [receive_eq_setSession, Session.receive, hadmits]
    rfl

/-- The framing of the octets that `slot` holds, with `bs` behind them. -/
def framing (r : Relay S) (slot : Nat) (bs : Bytes) : Framing :=
  Framing.ofBytes ((r.session slot).inbound.toList ++ bs)

/-- What `slot` holds once `bs` is appended and every packet is taken off. -/
def leftAfter (r : Relay S) (slot : Nat) (bs : Bytes) : Ring :=
  ((r.session slot).inbound.append bs).skip (r.framing slot bs).packets.flatten.length

/-- Handles every packet that `bs` completes, and keeps what follows them. -/
def absorb (v : Service S) (slot : Nat) (id : SessionId) (bs : Bytes) (r : Relay S) : Relay S :=
  (r.handleAll v slot id (r.framing slot bs).packets).withInbound slot (r.leftAfter slot bs)

theorem toList_leftAfter {bs : Bytes} (hroom : bs.length ≤ (r.session slot).inbound.free) :
    (r.leftAfter slot bs).toList = (r.framing slot bs).rest := by
  rw [leftAfter, framing, ← Ring.toList_append hroom, Ring.toList_skip_packets]

theorem framing_nil (hwait : Framing.first (r.session slot).inbound.toList = .ok none) :
    r.framing slot [] = ⟨[], none, (r.session slot).inbound.toList⟩ := by
  rw [framing, List.append_nil, Framing.ofBytes_of_none hwait]

theorem absorb_nil (hwait : Framing.first (r.session slot).inbound.toList = .ok none) :
    r.absorb v slot id [] = r := by
  rw [absorb, leftAfter, framing_nil hwait]
  exact (congrArg _ (Ring.skip_zero _)).trans (withInbound_inbound r slot)

section

variable (hv : v.Blind) (hd : v.Within Deed) {bs : Bytes}
  (ho : (r.session slot).obstacle? id = none)

include hd in
theorem obstacle?_absorb (bs : Bytes) :
    ((r.absorb v slot id bs).session slot).obstacle? id = (r.session slot).obstacle? id := by
  rw [absorb, obstacle?_withInbound, obstacle?_of_deeds (handleAll_chain (fun _ _ h => h) hd ..)]

include hd ho in
theorem inbound_absorb (bs : Bytes) :
    ((r.absorb v slot id bs).session slot).inbound = r.leftAfter slot bs := by
  rw [absorb, session_withInbound_self]
  rw [capacity_eq_of_deeds (handleAll_chain (fun _ _ h => h) hd ..)]
  exact lt_capacity_of_obstacle? ho

variable (hroom : bs.length ≤ (r.session slot).inbound.free)

include hv hd ho hroom

/-- A read completes the packets of the octets held and of those that it brings. -/
theorem drain_receive :
    (r.receive slot id bs).2.drain v slot id =
      ((r.framing slot bs).outcome, r.absorb v slot id bs) := by
  rw [receive_of_fits ho hroom, drain_eq hv hd (by rw [obstacle?_withInbound, ho]),
    session_withInbound_self (lt_capacity_of_obstacle? ho), Ring.toList_append hroom,
    handleAll_withInbound hv, withInbound_withInbound]
  rfl

omit hv in
theorem framing_absorb (cs : Bytes) :
    (r.absorb v slot id bs).framing slot cs =
      Framing.ofBytes ((r.framing slot bs).rest ++ cs) := by
  rw [framing, inbound_absorb hd ho, toList_leftAfter hroom]

variable (he : (r.framing slot bs).error = none)

include he

omit hv in
theorem first_absorb :
    Framing.first ((r.absorb v slot id bs).session slot).inbound.toList = .ok none := by
  rw [inbound_absorb hd ho, toList_leftAfter hroom]
  exact Framing.first_rest he

omit hv in
theorem framing_append (cs : Bytes) :
    let f := (r.absorb v slot id bs).framing slot cs
    r.framing slot (bs ++ cs) = ⟨(r.framing slot bs).packets ++ f.packets, f.error, f.rest⟩ := by
  rw [framing_absorb hd ho hroom]
  exact (congrArg _ (List.append_assoc ..).symm).trans (Framing.ofBytes_append he cs)

omit hv in
theorem leftAfter_absorb (cs : Bytes) :
    (r.absorb v slot id bs).leftAfter slot cs = r.leftAfter slot (bs ++ cs) := by
  rw [leftAfter, leftAfter, framing_append hd ho hroom he, inbound_absorb hd ho, leftAfter,
    Ring.skip_append, Ring.skip_skip, ← Ring.append_append, List.flatten_append,
    List.length_append]

/-- What two reads come to does not depend on where one ends and the other begins. -/
theorem absorb_absorb (cs : Bytes) :
    (r.absorb v slot id bs).absorb v slot id cs = r.absorb v slot id (bs ++ cs) := by
  have hleft := leftAfter_absorb hd ho hroom he cs
  have hpackets := congrArg Framing.packets (framing_append hd ho hroom he cs)
  set f := (r.absorb v slot id bs).framing slot cs with hf
  calc (r.absorb v slot id bs).absorb v slot id cs
      = ((r.absorb v slot id bs).handleAll v slot id f.packets).withInbound slot
          (r.leftAfter slot (bs ++ cs)) := by rw [absorb, hleft]
    _ = ((r.handleAll v slot id (r.framing slot bs).packets).handleAll v slot id
          f.packets).withInbound slot (r.leftAfter slot (bs ++ cs)) := by
        rw [absorb, handleAll_withInbound hv, withInbound_withInbound]
    _ = r.absorb v slot id (bs ++ cs) := by rw [← handleAll_append, absorb, hpackets]

end

/-! ## Many reads -/

/-- Each chunk fits the ring when it is taken in, up to the first error. -/
def Fits (v : Service S) (slot : Nat) (id : SessionId) : List Bytes → Relay S → Prop
  | [], _ => True
  | chunk :: chunks, r =>
    chunk.length ≤ (r.session slot).inbound.free ∧
      match (r.receive slot id chunk).2.drain v slot id with
      | (.ok _, r) => Fits v slot id chunks r
      | (.error _, _) => True

instance Fits.decidable (v : Service S) (slot : Nat) (id : SessionId) :
    (chunks : List Bytes) → (r : Relay S) → Decidable (Fits v slot id chunks r)
  | [], _ => .isTrue trivial
  | chunk :: chunks, r =>
    have : Decidable (match (r.receive slot id chunk).2.drain v slot id with
        | (.ok _, r) => Fits v slot id chunks r
        | (.error _, _) => True) :=
      match (r.receive slot id chunk).2.drain v slot id with
      | (.ok _, r) => Fits.decidable v slot id chunks r
      | (.error _, _) => .isTrue trivial
    inferInstanceAs (Decidable (_ ∧ _))

theorem feed_cons_of_fits {chunk : Bytes} (chunks : List Bytes)
    (ho : (r.session slot).obstacle? id = none)
    (hroom : chunk.length ≤ (r.session slot).inbound.free) :
    r.feed v slot id (chunk :: chunks) =
      match (r.receive slot id chunk).2.drain v slot id with
      | (.error e, r) => (.error (.framing e), r)
      | (.ok n, r) => ((r.feed v slot id chunks).1.map (n + ·), (r.feed v slot id chunks).2) := by
  simp only [feed, receive_of_fits ho hroom]
  rcases (r.withInbound slot ((r.session slot).inbound.append chunk)).drain v slot id
    with ⟨_ | n, r'⟩
  · rfl
  · dsimp only
    rcases r'.feed v slot id chunks with ⟨_ | _, _⟩ <;> rfl

/-- Of the chunks the first `n` are taken in, all of them unless one completes an impossible header,
and they hold exactly the packets of the whole stream. -/
structure TakenIn (r : Relay S) (slot : Nat) (chunks : List Bytes) (n : Nat) : Prop where
  le_length : n ≤ chunks.length
  error_before : ∀ m < n, (r.framing slot (chunks.take m).flatten).error = none
  eq_length : (r.framing slot chunks.flatten).error = none → n = chunks.length
  packets_eq :
    (r.framing slot (chunks.take n).flatten).packets = (r.framing slot chunks.flatten).packets
  error_eq : (r.framing slot (chunks.take n).flatten).error = (r.framing slot chunks.flatten).error

namespace TakenIn

variable {chunk : Bytes} {chunks : List Bytes}

theorem nil : r.TakenIn slot [] 0 :=
  ⟨Nat.le_refl _, fun m hm => absurd hm (Nat.not_lt_zero m), fun _ => rfl, rfl, rfl⟩

theorem of_error {e : FramingError}
    (hwait : Framing.first (r.session slot).inbound.toList = .ok none)
    (he : (r.framing slot chunk).error = some e) : r.TakenIn slot (chunk :: chunks) 1 := by
  have hall : r.framing slot (chunk ++ chunks.flatten) =
      ⟨(r.framing slot chunk).packets, some e, (r.framing slot chunk).rest ++ chunks.flatten⟩ :=
    (congrArg _ (List.append_assoc ..).symm).trans
      (Framing.ofBytes_append_of_error he chunks.flatten)
  refine ⟨by simp, ?_, ?_, ?_, ?_⟩
  · intro m hm
    obtain rfl : m = 0 := by omega
    simp [framing_nil hwait]
  · rw [List.flatten_cons, hall]; simp
  · rw [List.flatten_cons, hall]; simp
  · rw [List.flatten_cons, hall]; simp [he]

theorem cons {n : Nat} (hd : v.Within Deed) (ho : (r.session slot).obstacle? id = none)
    (hwait : Framing.first (r.session slot).inbound.toList = .ok none)
    (hroom : chunk.length ≤ (r.session slot).inbound.free)
    (he : (r.framing slot chunk).error = none)
    (h : (r.absorb v slot id chunk).TakenIn slot chunks n) :
    r.TakenIn slot (chunk :: chunks) (n + 1) := by
  have happend := framing_append hd ho hroom he
  refine ⟨?_, ?_, ?_, ?_, ?_⟩
  · simpa using h.le_length
  · intro m hm
    cases m with
    | zero => simp [framing_nil hwait]
    | succ m =>
      rw [List.take_succ_cons, List.flatten_cons, happend]
      exact h.error_before m (by omega)
  · rw [List.flatten_cons, happend, List.length_cons]
    exact fun hnone => congrArg (· + 1) (h.eq_length hnone)
  · rw [List.take_succ_cons, List.flatten_cons, List.flatten_cons, happend, happend]
    exact congrArg ((r.framing slot chunk).packets ++ ·) h.packets_eq
  · rw [List.take_succ_cons, List.flatten_cons, List.flatten_cons, happend, happend]
    exact h.error_eq

end TakenIn

/-- Feeding chunks comes to absorbing what is taken in of them at once. -/
theorem feed_eq_absorb (hv : v.Blind) (hd : v.Within Deed) {chunks : List Bytes}
    (ho : (r.session slot).obstacle? id = none)
    (hwait : Framing.first (r.session slot).inbound.toList = .ok none)
    (hfit : r.Fits v slot id chunks) :
    ∃ n, r.TakenIn slot chunks n ∧
      r.feed v slot id chunks = ((r.framing slot chunks.flatten).outcome.mapError .framing,
        r.absorb v slot id (chunks.take n).flatten) ∧
      (r.leftAfter slot (chunks.take n).flatten).toList =
        (r.framing slot (chunks.take n).flatten).rest := by
  induction chunks generalizing r with
  | nil =>
    refine ⟨0, .nil, ?_, toList_leftAfter (Nat.zero_le _)⟩
    rw [List.take_nil, List.flatten_nil, framing_nil hwait, absorb_nil hwait]
    rfl
  | cons chunk chunks ih =>
    obtain ⟨hroom, hnext⟩ := hfit
    rw [feed_cons_of_fits chunks ho hroom]
    rw [drain_receive hv hd ho hroom] at hnext ⊢
    cases he : (r.framing slot chunk).error with
    | some e =>
      have htaken : r.TakenIn slot (chunk :: chunks) 1 := .of_error hwait he
      refine ⟨1, htaken, ?_, by simpa using toList_leftAfter hroom⟩
      have herror := htaken.error_eq
      simp only [List.take_succ_cons, List.take_zero, List.flatten_cons, List.flatten_nil,
        List.append_nil] at herror ⊢
      simp [Framing.outcome, ← herror, he, Except.mapError]
    | none =>
      have hfirst : Framing.first (r.framing slot chunk).rest = .ok none := Framing.first_rest he
      have hinbound := inbound_absorb hd ho chunk
      simp only [Framing.outcome, he] at hnext ⊢
      obtain ⟨n, htaken, hfeed, hleft⟩ := ih (r := r.absorb v slot id chunk)
        (by rw [obstacle?_absorb hd, ho]) (by rw [hinbound, toList_leftAfter hroom, hfirst]) hnext
      have happend := framing_append hd ho hroom he
      refine ⟨n + 1, .cons hd ho hwait hroom he htaken, ?_, ?_⟩
      · rw [hfeed, List.take_succ_cons, List.flatten_cons, List.flatten_cons,
          absorb_absorb hv hd ho hroom he, happend]
        simp only [Framing.outcome]
        cases ((r.absorb v slot id chunk).framing slot chunks.flatten).error <;>
          simp [Except.mapError, Except.map]
      · rw [List.take_succ_cons, List.flatten_cons, happend,
          ← leftAfter_absorb hd ho hroom he, hleft]

theorem absorb_of_isEmpty {bs : Bytes} (hempty : (r.session slot).inbound.isEmpty = true) :
    r.absorb v slot id bs =
      (r.handleAll v slot id (Framing.ofBytes bs).packets).withInbound slot
        (r.leftAfter slot bs) := by
  rw [absorb, framing, Ring.toList_eq_nil_iff.2 hempty, List.nil_append]

/-- Exactly the packets of the stream are handled, in order and once each, up to the one that cannot
be, and the octets after them stay buffered as far as they were taken in. Nothing of this depends on
how the stream is cut, but for the octets that are taken in behind an impossible header. -/
theorem feed_whole_stream {answer : (c : StoreCall) → S → Except StoreError c.Answer × S}
    {token : Nat → String} {lifetime : Nat} {chunks : List Bytes}
    (hlive : (r.session slot).isLive = true) (hid : (r.session slot).id = id)
    (hempty : (r.session slot).inbound.isEmpty = true)
    (hfit : r.Fits (.ofStore answer token lifetime) slot id chunks) :
    let v := Service.ofStore answer token lifetime
    let f := Framing.ofBytes chunks.flatten
    (∃ n left, r.TakenIn slot chunks n ∧ f.packets.flatten ++ left.toList = (chunks.take n).flatten ∧
      r.feed v slot id chunks = (f.outcome.mapError .framing,
        (r.handleAll v slot id f.packets).withInbound slot left)) ∧
    ∀ chunks', chunks'.flatten = chunks.flatten → r.Fits v slot id chunks' →
      (r.feed v slot id chunks').1 = (r.feed v slot id chunks).1 ∧
      (∃ left, (r.feed v slot id chunks').2 = (r.feed v slot id chunks).2.withInbound slot left) ∧
      (f.error = none → (r.feed v slot id chunks').2 = (r.feed v slot id chunks).2) := by
  intro v f
  have hv : v.Blind := Service.ofStore_blind
  have hd : v.Within Deed := Service.ofStore_within fun _ _ h => h
  have ho : (r.session slot).obstacle? id = none :=
    Session.obstacle?_eq_none_iff.2 ⟨hid, (Session.isLive_iff.1 hlive).1⟩
  have hnil : (r.session slot).inbound.toList = [] := Ring.toList_eq_nil_iff.2 hempty
  have hwait : Framing.first (r.session slot).inbound.toList = .ok none := by rw [hnil]; rfl
  have hframing (bs : Bytes) : r.framing slot bs = Framing.ofBytes bs := by
    rw [framing, hnil, List.nil_append]
  have hfeed {chunks : List Bytes} (hfit : r.Fits v slot id chunks) :=
    feed_eq_absorb hv hd ho hwait hfit
  obtain ⟨n, htaken, heq, hleft⟩ := hfeed hfit
  have hpackets := htaken.packets_eq
  rw [hframing, hframing] at hpackets
  refine ⟨⟨n, r.leftAfter slot (chunks.take n).flatten, htaken, ?_, ?_⟩, ?_⟩
  · rw [hleft, hframing, ← hpackets, Framing.flatten_packets_append_rest]
  · rw [heq, hframing, absorb_of_isEmpty hempty, hpackets]
  · intro chunks' hsame hfit'
    obtain ⟨n', htaken', heq', -⟩ := hfeed hfit'
    have hpackets' := htaken'.packets_eq
    rw [hframing, hframing, hsame] at hpackets'
    rw [heq, heq', hsame]
    refine ⟨rfl, ⟨r.leftAfter slot (chunks'.take n').flatten, ?_⟩, fun he => ?_⟩
    · rw [absorb_of_isEmpty hempty, absorb_of_isEmpty hempty, hpackets, hpackets',
        withInbound_withInbound]
    · obtain rfl := htaken.eq_length (by rw [hframing]; exact he)
      obtain rfl := htaken'.eq_length (by rw [hframing, hsame]; exact he)
      rw [List.take_length, List.take_length, hsame]

/-- A login request whose header and body are cut comes through, with what follows it: a packet of
an unknown kind, and three octets that are left. -/
theorem feed_whole_stream_split_header :
    let login := (Packet.loginRequest .blank .blank (.truncated "ann")).encode
    let stream := login ++ [9, 0, 5, 0, 1, 9, 0, 4]
    let chunks := [stream.take 3, (stream.drop 3).take 101, stream.drop 104]
    let r := (Relay.start 1 ⟨128, 128, maxPacketSize, 4⟩ (Store.empty.addUser "" "")).begin 0 1
      (.fresh 0 1 none)
    let v := Service.direct (fun _ => "t") 60
    (r.session 0).isLive = true ∧ (r.session 0).id = 1 ∧ (r.session 0).inbound.isEmpty = true ∧
      r.Fits v 0 1 chunks ∧ r.Fits v 0 1 [stream] ∧
      (∃ left, left.toList = [9, 0, 4] ∧ r.feed v 0 1 chunks =
        (.ok 2, (r.handleAll v 0 1 [login, [9, 0, 5, 0, 1]]).withInbound 0 left)) ∧
      ((r.feed v 0 1 chunks).2.session 0).nameOf 1 = some "ann" ∧
      r.feed v 0 1 [stream] = r.feed v 0 1 chunks := by
  intro login stream chunks r v
  have hstart : (r.session 0).isLive = true ∧ (r.session 0).id = 1 ∧
      (r.session 0).inbound.isEmpty = true := by decide
  have hcut : r.Fits v 0 1 chunks := by decide +kernel
  have hwhole : r.Fits v 0 1 [stream] := by decide +kernel
  have hname : ((r.feed v 0 1 chunks).2.session 0).nameOf 1 = some "ann" := by decide +kernel
  have hjoined : chunks.flatten = stream := by decide +kernel
  have hframing : Framing.ofBytes chunks.flatten =
      ⟨[login, [9, 0, 5, 0, 1]], none, [9, 0, 4]⟩ := by
    rw [hjoined, @Framing.ofBytes_of_some _ login [9, 0, 5, 0, 1, 9, 0, 4] (by decide +kernel),
      @Framing.ofBytes_of_some _ [9, 0, 5, 0, 1] [9, 0, 4] rfl, Framing.ofBytes_of_none rfl]
  obtain ⟨hlive, hid, hempty⟩ := hstart
  obtain ⟨⟨n, left, htaken, hkept, hfeed⟩, hcuts⟩ := feed_whole_stream hlive hid hempty hcut
  obtain ⟨hresult, -, hsame⟩ := hcuts [stream] (by rw [hjoined]; rfl) hwhole
  rw [hframing] at hkept hfeed hsame
  have hn : n = chunks.length :=
    htaken.eq_length (by rw [framing, Ring.toList_eq_nil_iff.2 hempty, List.nil_append, hframing])
  rw [hn, List.take_length, hjoined] at hkept
  have hsplit : login ++ [9, 0, 5, 0, 1] ++ left.toList = login ++ [9, 0, 5, 0, 1] ++ [9, 0, 4] := by
    simpa [stream] using hkept
  have hleft : left.toList = [9, 0, 4] := List.append_cancel_left hsplit
  exact ⟨hlive, hid, hempty, hcut, hwhole, ⟨left, hleft, hfeed⟩, hname,
    Prod.ext hresult (hsame rfl)⟩

end Relay

end ChatRelay
