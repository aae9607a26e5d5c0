import ChatRelay.Proofs.Directory
import ChatRelay.Proofs.Relay.Wiring
import ChatRelay.Proofs.Table

/-! # What reaches a session

A packet that is sent to a session is the last of its packets, and one that is sent to another does
not touch it. A broadcast reaches everybody who is logged in exactly once.
-/

namespace ChatRelay.Relay

open Relation (ReflTransGen)

variable {S : Type} {r r' : Relay S} {slot j k : Nat}

/-- What holds between any two moves. -/
structure Orderly (r : Relay S) : Prop where
  consistent : Consistent r
  wired : Wired r

theorem Orderly.start (capacity : Nat) (limits : Limits) (store : S) :
    Orderly (Relay.start capacity limits store) :=
  ⟨.start .., .start ..⟩

theorem Deed.orderly (hd : Deed r r') (h : Orderly r) : Orderly r' :=
  ⟨hd.consistent h.consistent, hd.wired h.wired⟩

theorem Move.orderly (hm : Move r r') (h : Orderly r) : Orderly r' :=
  ⟨hm.consistent h.consistent, hm.wired h.wired⟩

theorem Orderly.of_deeds (h : Orderly r) (hd : ReflTransGen Deed r r') : Orderly r' := by
  induction hd with
  | refl => exact h
  | tail _ hd ih => exact hd.orderly ih

theorem Orderly.of_moves (h : Orderly r) (hm : ReflTransGen Move r r') : Orderly r' := by
  induction hm with
  | refl => exact h
  | tail _ hm ih => exact hm.orderly ih

/-! ## Those who stay logged in -/

theorem Deed.identity_eq (hd : Deed r r') (hp : (r.session k).phase = .authenticated) :
    (r'.session k).identity = (r.session k).identity := by
  obtain ht | ⟨slot, id, name, token, -, rfl⟩ := hd.traffic_or
  · exact ht.identity k
  · exact identity_register (by simp [hp]) ..

theorem Act.disconnecting (ha : Act slot r r') (hp : (r.session k).phase = .disconnecting) :
    (r'.session k).phase = .disconnecting := by
  obtain ht | ⟨j, id, name, token, -, rfl⟩ | ⟨id, rfl⟩ | rfl := ha.traffic_or
  · exact (congrArg Identity.phase (ht.identity k)).trans hp
  · exact (congrArg Identity.phase (identity_register (by simp [hp]) ..)).trans hp
  · obtain hi | ⟨-, hphase⟩ := identity_depart r slot k id
    · exact (congrArg Identity.phase hi).trans hp
    · exact hphase
  · have hi := congrArg Identity.phase (identity_release r slot k)
    split at hi
    · exact hi
    · exact hi.trans hp

/-! ## What a session has to say -/

def handed (r : Relay S) (slot : Nat) : List Bytes :=
  (r.session slot).handed r.links

def outgoing (r : Relay S) (slot : Nat) : List Bytes :=
  (r.session slot).outgoing r.links

def Willing (r : Relay S) (slot : Nat) : Prop :=
  (r.session slot).Willing r.links

instance Willing.decidable (r : Relay S) (slot : Nat) : Decidable (r.Willing slot) :=
  inferInstanceAs (Decidable ((r.session slot).Willing r.links))

/-- What `slot` has to say, and the session's queue, only grow, and its link stays willing. -/
structure Extends (r r' : Relay S) (k : Nat) : Prop where
  willing : r'.Willing k
  outgoing : r.outgoing k <+: r'.outgoing k
  queue : (r.session k).queue <+: (r'.session k).queue

theorem extends_of_eq (hw : r.Willing k) (hl : (r'.session k).link = (r.session k).link)
    (hq : (r'.session k).queue = (r.session k).queue)
    (h : ∀ l, (r.session k).link = some l → r'.links[l]? = r.links[l]?) : Extends r r' k := by
  have hout : r'.outgoing k = r.outgoing k := Session.outgoing_congr hl hq h
  exact ⟨Session.Willing.congr hw hl h, hout ▸ List.prefix_rfl, hq ▸ List.prefix_rfl⟩

section

variable (h : Wired r)

include h

theorem links_send_ne (hjk : j ≠ k) (target : Option SessionId) (packet : Bytes) (l : LinkId)
    (hl : (r.session k).link = some l) :
    (r.send j target packet).2.links[l]? = r.links[l]? :=
  Session.links_send_ne (h.link_ne hjk hl) ..

theorem outgoing_send_ne (hjk : j ≠ k) (target : Option SessionId) (packet : Bytes) :
    (r.send j target packet).2.outgoing k = r.outgoing k := by
  have hs : (r.send j target packet).2.session k = r.session k := by
    rw [session_send, if_neg hjk]
  exact Session.outgoing_congr (by rw [hs]) (by rw [hs]) (links_send_ne h hjk target packet)

theorem outgoing_sent_ne (hjk : j ≠ k) (id : SessionId) :
    (r.sent j id).outgoing k = r.outgoing k := by
  have hs : (r.sent j id).session k = r.session k := by
    rw [session_sent, if_neg hjk]
  exact Session.outgoing_congr (by rw [hs]) (by rw [hs])
    fun l hl => Session.links_sent_ne (h.link_ne hjk hl) ..

theorem outgoing_send_self (hw : r.Willing k) {target : Option SessionId} {packet : Bytes}
    (ha : (r.session k).accepts target packet = true) :
    (r.send k target packet).2.outgoing k = r.outgoing k ++ [packet] := by
  have hs : (r.send k target packet).2.session k =
      ((r.session k).send target packet r.links).2.1 := by
    rw [session_send, if_pos rfl]
  rw [outgoing, hs]
  exact (Session.send_of_accepts hw (h.sends k) ha).2.2

theorem outgoing_send_self_or (hw : r.Willing k) (target : Option SessionId) (packet : Bytes) :
    (r.send k target packet).2.outgoing k = r.outgoing k ∨
      (r.send k target packet).2.outgoing k = r.outgoing k ++ [packet] := by
  cases ha : (r.session k).accepts target packet with
  | true => exact .inr (outgoing_send_self h hw ha)
  | false =>
    have hsend : (r.send k target packet).2 = r.put k (r.session k, r.links) := by
      rw [send, Session.send_of_refused ha]
    refine .inl ?_
    rw [hsend, put, setSession_session]

theorem extends_send (hw : r.Willing k) (j : Nat) (target : Option SessionId) (packet : Bytes) :
    Extends r (r.send j target packet).2 k := by
  by_cases hjk : j = k
  · subst hjk
    have hs : (r.send j target packet).2.session j =
        ((r.session j).send target packet r.links).2.1 := by
      rw [session_send, if_pos rfl]
    obtain ⟨hwilling, hout, hqueue⟩ := Session.send_of_willing hw (h.sends j) target packet
    refine ⟨?_, ?_, ?_⟩
    · rw [Willing, hs]
      exact hwilling
    · rw [outgoing, outgoing, hs]
      exact hout
    · rw [hs]
      exact hqueue
  · have hs : (r.send j target packet).2.session k = r.session k := by
      rw [session_send, if_neg hjk]
    exact extends_of_eq hw (by rw [hs]) (by rw [hs]) (links_send_ne h hjk target packet)

end

@[simp] theorem outgoing_register (r : Relay S) (slot k : Nat) (id : SessionId)
    (name token : String) : (r.register slot id name token).2.outgoing k = r.outgoing k := by
  obtain ⟨p, u, t, hs⟩ := session_register r slot k id name token
  exact Session.outgoing_congr (by rw [hs]) (by rw [hs]) fun l _ => by rw [links_register]

theorem outgoing_armRead (r : Relay S) (slot k : Nat) (id : SessionId) :
    (r.armRead slot id).2.outgoing k = r.outgoing k :=
  congrArg (· ++ _) (Session.handed_armRead ..)

theorem Extends.trans {r'' : Relay S} (h : Extends r r' k) (h' : Extends r' r'' k) :
    Extends r r'' k :=
  ⟨h'.willing, h.outgoing.trans h'.outgoing, h.queue.trans h'.queue⟩

theorem Deed.extends (hd : Deed r r') (h : Wired r) (hw : r.Willing k) : Extends r r' k := by
  cases hd with
  | store => exact extends_of_eq hw rfl rfl (fun _ _ => rfl)
  | register slot id token hn =>
    obtain ⟨p, u, t, hs⟩ := session_register r slot k id _ token
    exact extends_of_eq hw (by rw [hs]) (by rw [hs]) fun l _ => by rw [links_register]
  | send slot target packet => exact extends_send h hw ..

theorem extends_of_deeds (hd : ReflTransGen Deed r r') (h : Orderly r) (hw : r.Willing k) :
    Extends r r' k := by
  induction hd with
  | refl => exact ⟨hw, List.prefix_rfl, List.prefix_rfl⟩
  | tail hd hlast ih => exact ih.trans (hlast.extends (h.of_deeds hd).wired ih.willing)

/-! ## Fan-out -/

section

variable {r'' : Relay S} {packet : Bytes} {except : Option Nat}

/-- Session `k` and its link are left alone. -/
structure Spared (r r' : Relay S) (k : Nat) : Prop where
  session : r'.session k = r.session k
  link : ∀ l, (r.session k).link = some l → r'.links[l]? = r.links[l]?

/-- To session `k` and its link the packet has been sent once, and nothing else has happened. -/
structure Offered (packet : Bytes) (r r' : Relay S) (k : Nat) : Prop where
  session : r'.session k = ((r.session k).send none packet r.links).2.1
  link : ∀ l, (r.session k).link = some l →
    r'.links[l]? = ((r.session k).send none packet r.links).2.2[l]?

theorem Spared.refl (r : Relay S) (k : Nat) : Spared r r k :=
  ⟨rfl, fun _ _ => rfl⟩

theorem Spared.trans (h : Spared r r' k) (h' : Spared r' r'' k) : Spared r r'' k := by
  constructor
  · exact h'.session.trans h.session
  · intro l hl
    exact (h'.link l (by rwa [h.session])).trans (h.link l hl)

theorem Spared.outgoing_eq (h : Spared r r' k) : r'.outgoing k = r.outgoing k :=
  Session.outgoing_congr (congrArg Session.link h.session) (congrArg Session.queue h.session) h.link

theorem Spared.offered (h : Spared r r' k) (h' : Offered packet r' r'' k) :
    Offered packet r r'' k := by
  obtain ⟨hsession, hlink⟩ := Session.send_congr h.link none packet
  constructor
  · rw [h'.session, h.session, hsession]
  · intro l hl
    rw [h'.link l (by rwa [h.session]), h.session, hlink l hl]

theorem Offered.spared (h : Offered packet r r' k) (h' : Spared r' r'' k) :
    Offered packet r r'' k := by
  constructor
  · exact h'.session.trans h.session
  · intro l hl
    have hl' : (r'.session k).link = some l := by
      rw [h.session]
      exact (congrArg Identity.link (Session.identity_send ..)).trans hl
    exact (h'.link l hl').trans (h.link l hl)

theorem spared_send (h : Wired r) (hne : slot ≠ k) (target : Option SessionId) (packet : Bytes) :
    Spared r (r.send slot target packet).2 k := by
  constructor
  · rw [session_send, if_neg hne]
  · exact links_send_ne h hne target packet

theorem offered_send (r : Relay S) (k : Nat) (packet : Bytes) :
    Offered packet r (r.send k none packet).2 k := by
  constructor
  · rw [session_send, if_pos rfl]
  · exact fun _ _ => rfl

theorem Offered.outgoing_eq (ho : Offered packet r r' k) (h : Wired r) (hw : r.Willing k)
    (ha : (r.session k).accepts none packet = true) :
    r'.outgoing k = r.outgoing k ++ [packet] := by
  have hsent := offered_send r k packet
  rw [← outgoing_send_self h hw ha]
  apply Session.outgoing_congr
  · rw [ho.session, hsent.session]
  · rw [ho.session, hsent.session]
  · intro l hl
    have hl' : (r.session k).link = some l := by
      rw [hsent.session] at hl
      exact (congrArg Identity.link (Session.identity_send ..)).symm.trans hl
    exact (ho.link l hl').trans (hsent.link l hl').symm

theorem spared_sendEach {slots : List Nat} (h : Wired r)
    (hk : k ∉ slots ∨ except = some k ∨ (r.session k).isLive = false) :
    Spared r (sendEach except packet slots r).2 k := by
  induction slots generalizing r with
  | nil => exact .refl r k
  | cons slot slots ih =>
    have hrest : k ∉ slots ∨ except = some k ∨ (r.session k).isLive = false :=
      hk.imp_left fun hmem hin => hmem (List.mem_cons_of_mem slot hin)
    unfold sendEach
    split
    · exact ih h hrest
    · next hmeant =>
      have hne : slot ≠ k := by
        rintro rfl
        simp_all
      have hfirst := spared_send h hne none packet
      apply hfirst.trans
      apply ih (h.send ..)
      rwa [hfirst.session]

/-- A fan-out over distinct slots offers the packet once to everybody who is meant and live. -/
theorem offered_sendEach {slots : List Nat} (h : Wired r) (hk : k ∈ slots) (hnodup : slots.Nodup)
    (hexcept : except ≠ some k) (hlive : (r.session k).isLive = true) :
    Offered packet r (sendEach except packet slots r).2 k := by
  induction slots generalizing r with
  | nil => cases hk
  | cons slot slots ih =>
    obtain ⟨hmem, hnodup⟩ := List.nodup_cons.1 hnodup
    by_cases hs : slot = k
    · subst hs
      rw [sendEach, if_neg (by simp [hexcept, hlive])]
      exact (offered_send r slot packet).spared (spared_sendEach (h.send ..) (.inl hmem))
    · have hk := (List.mem_cons.1 hk).resolve_left (Ne.symm hs)
      unfold sendEach
      split
      · exact ih h hk hnodup hlive
      · have hfirst := spared_send h hs none packet
        apply hfirst.offered
        apply ih (h.send ..) hk hnodup
        rwa [hfirst.session]

theorem Consistent.nodup_values (h : Consistent r) : r.directory.byId.values.Nodup :=
  Table.nodup_values fun i j k hi hj => (h.byId i k hi).1.symm.trans (h.byId j k hj).1

theorem offered_broadcast (h : Orderly r) (hexcept : except ≠ some k)
    (hin : (r.session k).isAuthenticated = true) :
    Offered packet r (r.broadcast except packet).2 k := by
  have hlisted := (h.consistent.listed k (h.consistent.isAuthenticated_iff.1 hin)).2
  apply offered_sendEach h.wired _ h.consistent.nodup_values hexcept
  · exact Session.isLive_of_isAuthenticated hin
  · exact Table.mem_values_iff.2 ⟨_, hlisted⟩

theorem spared_broadcast (h : Orderly r)
    (hk : except = some k ∨ (r.session k).isAuthenticated = false) :
    Spared r (r.broadcast except packet).2 k := by
  apply spared_sendEach h.wired
  rcases hk with hexcept | hout
  · exact .inr (.inl hexcept)
  · by_cases hlisted : k ∈ r.directory.byId.values
    · obtain ⟨id, hid⟩ := Table.mem_values_iff.1 hlisted
      right; right
      by_contra hlive
      have hp := (h.consistent.isLive_iff (h.consistent.byId id k hid).2).1 (by simpa using hlive)
      simp [h.consistent.isAuthenticated_iff.2 hp] at hout
    · exact .inl hlisted

/-- A broadcast reaches everybody who is logged in, but for the one it spares. -/
theorem outgoing_broadcast (h : Orderly r) (hw : r.Willing k)
    (hp : (r.session k).phase = .authenticated) (hexcept : except ≠ some k)
    (hsize : packet.length ≤ (r.session k).limits.sendSize)
    (hroom : ((r.broadcast except packet).2.session k).queue.length <
      (r.session k).limits.sendBacklog) :
    (r.broadcast except packet).2.outgoing k = r.outgoing k ++ [packet] := by
  have hin := h.consistent.isAuthenticated_iff.2 hp
  have hoffered : Offered packet r (r.broadcast except packet).2 k :=
    offered_broadcast h hexcept hin
  have hqueue := (Session.send_of_willing hw (h.wired.sends k) none packet).2.2.length_le
  rw [hoffered.session] at hroom
  have hlt := Nat.lt_of_le_of_lt hqueue hroom
  apply hoffered.outgoing_eq h.wired hw
  simp [Session.accepts, hsize, Session.isLive_of_isAuthenticated hin, hlt]

end

end ChatRelay.Relay
