import ChatRelay.Proofs.Outgoing
import ChatRelay.Proofs.Relay.Inbound

/-! # Slots that are given to somebody else

While the store is asked, the connection that a handler works for may be torn down and its slot
given to another. What is left of the handler then goes unnoticed: whoever is served in the slot by
now, and everybody else, is left alone, and no further packet is taken.
-/

namespace ChatRelay.Relay

open Relation (ReflTransGen)

variable {S : Type} {v : Service S} {r r' : Relay S} {slot : Nat} {id : SessionId}

structure Alike (r r' : Relay S) : Prop where
  session : ∀ k, r'.session k = r.session k
  links : r'.links = r.links
  free : r'.free = r.free
  store : r'.store = r.store

/-- Nobody is affected: the same sessions are found, packets reach the same sessions and have the
same effect there. -/
structure Unnoticed (r r' : Relay S) : Prop where
  alike : Alike r r'
  findId : ∀ i, r'.findId i = r.findId i
  findName : ∀ name, r'.findName name = r.findName name
  sendToName : ∀ name packet, (r'.sendToName name packet).1 = (r.sendToName name packet).1 ∧
    Alike (r.sendToName name packet).2 (r'.sendToName name packet).2
  broadcast : ∀ except packet, (r'.broadcast except packet).1 = (r.broadcast except packet).1 ∧
    Alike (r.broadcast except packet).2 (r'.broadcast except packet).2

/-- A step of a handler that works for connection `id` of `slot`. -/
inductive Tread (v : Service S) (slot : Nat) (id : SessionId) : Relay S → Relay S → Prop where
  | ask (c : StoreCall) (r : Relay S) : Tread v slot id r (v.ask c r).2
  | draw (r : Relay S) : Tread v slot id r { r with drawn := r.drawn + 1 }
  | register (r : Relay S) (name token : String) :
      Tread v slot id r (r.register slot id name token).2
  | reply (r : Relay S) (packet : Bytes) : Tread v slot id r (r.send slot (some id) packet).2
  | send {r : Relay S} (k : Nat) (target : Option SessionId) (packet : Bytes) :
      (r.session slot).id = id → Tread v slot id r (r.send k target packet).2

/-- The store is asked, or nobody is affected. -/
inductive Aside (v : Service S) : Relay S → Relay S → Prop where
  | ask (c : StoreCall) (r : Relay S) : Aside v r (v.ask c r).2
  | own {r r' : Relay S} : Unnoticed r r' → Aside v r r'

/-! ## What goes unnoticed -/

def refiled (r : Relay S) (d : Directory) (n : Nat) : Relay S :=
  { r with directory := d, drawn := n }

theorem alike_refiled (r : Relay S) (d : Directory) (n : Nat) : Alike r (r.refiled d n) :=
  ⟨fun _ => rfl, rfl, rfl, rfl⟩

theorem sendEach_refiled (except : Option Nat) (packet : Bytes) (slots : List Nat) (d : Directory)
    (n : Nat) (r : Relay S) :
    sendEach except packet slots (r.refiled d n) =
      ((sendEach except packet slots r).1, (sendEach except packet slots r).2.refiled d n) := by
  induction slots generalizing r with
  | nil => rfl
  | cons k slots ih =>
    have hlive : ((r.refiled d n).session k).isLive = (r.session k).isLive := rfl
    have hsend : (r.refiled d n).send k none packet =
        ((r.send k none packet).1, (r.send k none packet).2.refiled d n) := rfl
    unfold sendEach
    rw [hlive]
    split
    · exact ih r
    · simp only [hsend, ih]

theorem unnoticed_refiled {d : Directory} (n : Nat) (hid : d.byId = r.directory.byId)
    (hname : ∀ name, (r.refiled d n).findName name = r.findName name) :
    Unnoticed r (r.refiled d n) := by
  constructor
  case alike => exact alike_refiled r d n
  case findId =>
    intro i
    change (d.byId.get? i).filter (fun k => (r.session k).isLive) = _
    rw [hid]
    rfl
  case findName => exact hname
  case sendToName =>
    intro name packet
    unfold sendToName
    rw [hname]
    cases r.findName name with
    | none => exact ⟨rfl, alike_refiled r d n⟩
    | some k => exact ⟨rfl, alike_refiled (r.send k none packet).2 d n⟩
  case broadcast =>
    intro except packet
    have hvalues : (r.refiled d n).directory.byId.values = r.directory.byId.values :=
      congrArg Table.values hid
    unfold Relay.broadcast
    rw [hvalues, sendEach_refiled]
    exact ⟨rfl, alike_refiled _ d n⟩

theorem unnoticed_refl (r : Relay S) : Unnoticed r r :=
  unnoticed_refiled r.drawn rfl fun _ => rfl

theorem unnoticed_vacate {name : String} (hf : r.findName name = none) :
    Unnoticed r (r.refiled ⟨r.directory.byName.erase name, r.directory.byId⟩ r.drawn) := by
  refine unnoticed_refiled r.drawn rfl fun other => ?_
  have hfind (i : SessionId) :
      (r.refiled ⟨r.directory.byName.erase name, r.directory.byId⟩ r.drawn).findId i =
        r.findId i := rfl
  by_cases hname : name = other
  · subst hname
    rw [hf, Relay.findName, refiled, Table.get?_erase, if_pos rfl]
    rfl
  · rw [Relay.findName, Relay.findName, refiled, Table.get?_erase, if_neg hname]
    rfl

/-! ## Handlers -/

theorem Tread.aside (ht : Tread v slot id r r') (hgone : (r.session slot).id ≠ id) :
    Aside v r r' := by
  cases ht with
  | ask c => exact .ask c r
  | draw => exact .own (unnoticed_refiled (r.drawn + 1) rfl fun _ => rfl)
  | register _ name token =>
    refine .own ?_
    rcases register_cases r slot id name token with ⟨-, he⟩ | ⟨hf, -, he⟩ | ⟨s, -, ha, -⟩
    · rw [he]
      exact unnoticed_refl r
    · rw [he]
      exact unnoticed_vacate hf
    · exact absurd (Session.authenticate_eq_some_iff.1 ha).1.1 hgone
  | reply _ packet =>
    have hrefused : (r.session slot).accepts (some id) packet = false := by
      simp [Session.accepts, Ne.symm hgone]
    have hsame : (r.send slot (some id) packet).2 = r := by
      rw [Relay.send, Session.send_of_refused hrefused]
      exact setSession_session r slot
    rw [hsame]
    exact .own (unnoticed_refl r)
  | send k target packet hid => exact absurd hid hgone

/-- A connection goes away only while the store is asked. -/
theorem Tread.id_or (ht : Tread v slot id r r') (hid : (r.session slot).id = id) :
    (r'.session slot).id = id ∨ ∃ c, r' = (v.ask c r).2 := by
  cases ht with
  | ask c => exact .inr ⟨c, rfl⟩
  | draw => exact .inl hid
  | register _ name token =>
    obtain ⟨p, u, t, hs⟩ := session_register r slot slot id name token
    exact .inl ((congrArg Session.id hs).trans hid)
  | reply _ packet =>
    exact .inl ((congrArg Identity.id ((traffic_send ..).identity slot)).trans hid)
  | send k target packet =>
    exact .inl ((congrArg Identity.id ((traffic_send ..).identity slot)).trans hid)

/-- If the connection of a handler is gone when the handler is done, everything that comes after it
went is an aside. -/
theorem asides_of_treads (ht : ReflTransGen (Tread v slot id) r r')
    (hid : (r.session slot).id = id) (hgone : (r'.session slot).id ≠ id) :
    ∃ c r₁, ReflTransGen (Tread v slot id) r r₁ ∧ (r₁.session slot).id = id ∧
      ((v.ask c r₁).2.session slot).id ≠ id ∧ ReflTransGen (Aside v) (v.ask c r₁).2 r' := by
  induction ht with
  | refl => exact absurd hid hgone
  | @tail m r' hm hlast ih =>
    by_cases hserved : (m.session slot).id = id
    · obtain hkept | ⟨c, rfl⟩ := hlast.id_or hserved
      · exact absurd hkept hgone
      · exact ⟨c, m, hm, hserved, hgone, .refl⟩
    · obtain ⟨c, r₁, h₁, hserved₁, hgone₁, hasides⟩ := ih hserved
      exact ⟨c, r₁, h₁, hserved₁, hgone₁, hasides.tail (hlast.aside hserved)⟩

/-! ## What handlers do -/

theorem sendEach_treads (hid : (r.session slot).id = id) (except : Option Nat) (packet : Bytes)
    (slots : List Nat) :
    ReflTransGen (Tread v slot id) r (sendEach except packet slots r).2 := by
  induction slots generalizing r with
  | nil => exact .refl
  | cons k slots ih =>
    unfold sendEach
    split
    · exact ih hid
    · have hid' : ((r.send k none packet).2.session slot).id = id :=
        (congrArg Identity.id ((traffic_send ..).identity slot)).trans hid
      exact .head (.send k none packet hid) (ih hid')

theorem relayBroadcast_treads (message : MessageField) (r : Relay S) :
    ReflTransGen (Tread v slot id) r (r.relayBroadcast slot id message) := by
  unfold relayBroadcast
  split
  · exact .refl
  · next name hname => exact sendEach_treads (Session.nameOf_eq_some_iff.1 hname).1 ..

theorem relayWhisper_treads (receiver : NameField) (message : MessageField) (r : Relay S) :
    ReflTransGen (Tread v slot id) r (r.relayWhisper slot id receiver message) := by
  unfold relayWhisper
  split
  · exact .refl
  · next name hname =>
    have hid := (Session.nameOf_eq_some_iff.1 hname).1
    unfold sendToName
    cases r.findName receiver.text with
    | none => exact .single (.reply r _)
    | some k => exact .single (.send k none _ hid)

/-- What a login does, and whom a login that succeeds leaves in the slot. -/
structure Course (v : Service S) (slot : Nat) (id : SessionId) (r : Relay S)
    (o : Outcome × Relay S) : Prop where
  treads : ReflTransGen (Tread v slot id) r o.2
  served : o.1 = .success → (o.2.session slot).id = id

theorem Course.head {o : Outcome × Relay S} (ht : Tread v slot id r r')
    (h : Course v slot id r' o) : Course v slot id r o :=
  ⟨.head ht h.treads, h.served⟩

theorem Course.failed {o : Outcome} (ho : o ≠ .success)
    (ht : ReflTransGen (Tread v slot id) r r') : Course v slot id r (o, r') :=
  ⟨ht, fun hs => absurd hs ho⟩

theorem tread_of_ask {c : StoreCall} {a : Except StoreError c.Answer}
    (h : v.ask c r = (a, r')) : Tread v slot id r r' := by
  have ht : Tread v slot id r (v.ask c r).2 := .ask c r
  rwa [h] at ht

theorem tread_of_register {name token : String} {a : Except DirectoryError Unit}
    (h : r.register slot id name token = (a, r')) : Tread v slot id r r' := by
  have ht : Tread v slot id r (r.register slot id name token).2 := .register r name token
  rwa [h] at ht

theorem id_of_register {name token : String}
    (h : r.register slot id name token = (.ok (), r')) : (r'.session slot).id = id := by
  obtain ⟨p, u, t, hs⟩ := session_register r slot slot id name token
  rw [h] at hs
  rcases register_cases r slot id name token with ⟨-, he⟩ | ⟨-, -, he⟩ | ⟨s, -, ha, -⟩
  · cases h.symm.trans he
  · cases h.symm.trans he
  · exact (congrArg Session.id hs).trans (Session.authenticate_eq_some_iff.1 ha).1.1

theorem restorePresence_treads (name : String) (r : Relay S) :
    ReflTransGen (Tread v slot id) r (r.restorePresence v name) := by
  unfold restorePresence
  split
  · exact .refl
  · exact .single (.ask _ r)

theorem enter_course (name token : String) (r : Relay S) :
    Course v slot id r (r.enter v slot id name token) := by
  unfold enter
  split
  · next h => exact .failed nofun (.tail (.single (tread_of_ask h)) (.ask _ _))
  · next r₁ h =>
    refine .head (tread_of_ask h) ?_
    split
    · next r₂ hregister =>
      exact ⟨.single (tread_of_register hregister), fun _ => id_of_register hregister⟩
    · next r₂ hregister =>
      have hdrop : ReflTransGen (Tread v slot id) r₁ (r₂.dropToken v token) :=
        .tail (.single (tread_of_register hregister)) (.ask _ r₂)
      exact .failed nofun (hdrop.trans (restorePresence_treads name _))
    · next r₂ hregister =>
      have hdrop : ReflTransGen (Tread v slot id) r₁ (r₂.dropToken v token) :=
        .tail (.single (tread_of_register hregister)) (.ask _ r₂)
      exact .failed nofun (hdrop.tail (.ask _ _))

theorem grant_course (user name : String) (r : Relay S) :
    Course v slot id r (r.grant v slot id user name) := by
  unfold grant
  split
  · exact .failed nofun .refl
  · refine .head (.draw r) ?_
    dsimp only
    split
    · next h => exact .failed nofun (.single (tread_of_ask h))
    · next h => exact .head (tread_of_ask h) (enter_course ..)

theorem login_course (user password name : String) (r : Relay S) :
    Course v slot id r (r.login v slot id user password name) := by
  unfold login
  split
  · exact .failed nofun .refl
  · split
    · exact .failed nofun .refl
    · split
      · next h => exact .failed nofun (.single (tread_of_ask h))
      · next h => exact .failed nofun (.single (tread_of_ask h))
      · next h =>
        refine .head (tread_of_ask h) ?_
        split
        · exact grant_course ..
        · exact .failed nofun .refl

theorem answerLogin_treads (userId password username : NameField) (r : Relay S) :
    ReflTransGen (Tread v slot id) r (r.answerLogin v slot id userId password username) := by
  have hlogin : Course v slot id r
      (r.login v slot id userId.text password.text username.text) := login_course ..
  unfold answerLogin
  set o := r.login v slot id userId.text password.text username.text
  have hreply : ReflTransGen (Tread v slot id) r (o.2.reply slot id (.loginResponse o.1)) :=
    hlogin.treads.tail (.reply o.2 _)
  dsimp only
  split
  · next ho =>
    have hid : ((o.2.reply slot id (.loginResponse o.1)).session slot).id = id :=
      (congrArg Identity.id ((traffic_send ..).identity slot)).trans (hlogin.served ho)
    exact hreply.trans (sendEach_treads hid ..)
  · exact hreply

theorem handle_treads (packet : Bytes) (r : Relay S) :
    ReflTransGen (Tread v slot id) r (r.handle v slot id packet) := by
  unfold handle
  split
  · exact answerLogin_treads ..
  · exact relayBroadcast_treads ..
  · exact relayWhisper_treads ..
  · exact .refl

/-! ## Serving -/

theorem serve_of_gone (hgone : (r.session slot).id ≠ id) (limit : Nat) :
    r.serve v slot id limit = (.ok 0, r) := by
  cases limit with
  | zero => rfl
  | succ limit =>
    have hobstacle : (r.session slot).obstacle? id = some (.stale id (r.session slot).id) :=
      if_pos hgone
    rw [serve, hobstacle]

theorem serve_succ {packet : Bytes} {ring : Ring} {limit n : Nat}
    (ho : (r.session slot).obstacle? id = none)
    (hp : (r.session slot).inbound.takePacket = .ok (some (packet, ring)))
    (h : ((r.withInbound slot ring).handle v slot id packet).serve v slot id limit = (.ok n, r')) :
    r.serve v slot id (limit + 1) = (.ok (n + 1), r') := by
  rw [serve, ho, hp]
  dsimp only
  rw [← withInbound, h]

/-- The packet during which the connection goes away is the last that is handled. -/
theorem serve_of_recycled (limit : Nat) (hid : (r.session slot).id = id)
    (hgone : ((r.serve v slot id limit).2.session slot).id ≠ id) :
    ∃ n r₀ packet ring, r.serve v slot id n = (.ok n, r₀) ∧ (r₀.session slot).id = id ∧
      (r₀.session slot).inbound.takePacket = .ok (some (packet, ring)) ∧
      r.serve v slot id limit =
        (.ok (n + 1), (r₀.withInbound slot ring).handle v slot id packet) := by
  induction limit generalizing r with
  | zero => exact absurd hid hgone
  | succ limit ih =>
    cases ho : (r.session slot).obstacle? id with
    | some e =>
      rw [serve, ho] at hgone
      exact absurd hid hgone
    | none =>
      cases hp : (r.session slot).inbound.takePacket with
      | error e =>
        rw [serve, ho, hp] at hgone
        exact absurd hid hgone
      | ok taken? =>
        cases taken? with
        | none =>
          rw [serve, ho, hp] at hgone
          exact absurd hid hgone
        | some taken? =>
          obtain ⟨packet, ring⟩ := taken?
          set r₁ := (r.withInbound slot ring).handle v slot id packet
          by_cases hserved : (r₁.session slot).id = id
          · have hrest : (r.serve v slot id (limit + 1)).2 = (r₁.serve v slot id limit).2 := by
              rw [serve, ho, hp]
              dsimp only
              rw [← withInbound]
              split
              · next h => rw [h]
              · next h => rw [h]
            rw [hrest] at hgone
            obtain ⟨n, r₀, packet', ring', hn, hid₀, hp₀, hlimit⟩ := ih hserved hgone
            exact ⟨n + 1, r₀, packet', ring', serve_succ ho hp hn, hid₀, hp₀,
              serve_succ ho hp hlimit⟩
          · exact ⟨0, r, packet, ring, rfl, hid, hp,
              serve_succ ho hp (serve_of_gone hserved limit)⟩

/-- Whatever happens while the store is asked, a connection that is gone is not served any more,
however many turns are left. If it goes away while its packets are handled, then while the store is
asked during one of them; all that is done for it from then on, short of asking the store, goes
unnoticed, and no further packet is taken. -/
theorem serve_recycled (v : Service S) (r : Relay S) (slot : Nat) (id : SessionId) (limit : Nat) :
    ((r.session slot).id ≠ id → r.serve v slot id limit = (.ok 0, r)) ∧
    ((r.session slot).id = id → ((r.serve v slot id limit).2.session slot).id ≠ id →
      ∃ n r₀ packet ring c r₁, r.serve v slot id n = (.ok n, r₀) ∧ (r₀.session slot).id = id ∧
        (r₀.session slot).inbound.takePacket = .ok (some (packet, ring)) ∧
        r.serve v slot id limit =
          (.ok (n + 1), (r₀.withInbound slot ring).handle v slot id packet) ∧
        ReflTransGen (Tread v slot id) (r₀.withInbound slot ring) r₁ ∧ (r₁.session slot).id = id ∧
        ((v.ask c r₁).2.session slot).id ≠ id ∧
        ReflTransGen (Aside v) (v.ask c r₁).2 (r.serve v slot id limit).2) := by
  refine ⟨fun hgone => serve_of_gone hgone _, fun hid hgone => ?_⟩
  obtain ⟨n, r₀, packet, ring, hn, hid₀, hp, hserve⟩ := serve_of_recycled _ hid hgone
  have hlast : (r.serve v slot id limit).2 = (r₀.withInbound slot ring).handle v slot id packet :=
    congrArg Prod.snd hserve
  rw [hlast] at hgone
  obtain ⟨c, r₁, htreads, hserved, hrecycled, hasides⟩ :=
    asides_of_treads (handle_treads packet _) ((id_withInbound r₀ slot slot ring).trans hid₀) hgone
  refine ⟨n, r₀, packet, ring, c, r₁, hn, hid₀, hp, hserve, htreads, hserved, hrecycled, ?_⟩
  rw [hlast]
  exact hasides

def tallied : Service Store :=
  .direct (fun n => String.ofList (List.replicate n 't')) 60

/-- The slot of connection 1 is given to connection 2, which logs in as bob and then sends one octet
more. -/
def evict (r : Relay Store) : Relay Store :=
  match (r.disconnect tallied 0 1 true).acquire with
  | none => r
  | some (slot, r) =>
    let stream := (Packet.loginRequest .blank .blank (.truncated "bob")).encode ++ [7]
    let r := ((r.begin slot 2 (.fresh slot 2 none)).receive slot 2 stream).2
    (r.drain tallied slot 2).2

def evicting : Service Store where
  ask
    | .createToken token user lifetime, r =>
      tallied.ask (.createToken token user lifetime) (if (r.session 0).id = 1 then r.evict else r)
    | c, r => tallied.ask c r
  token := tallied.token
  lifetime := tallied.lifetime

/-- A connection that has sent two requests to be logged in as ann. -/
def insistent : Relay Store :=
  let login := (Packet.loginRequest .blank .blank (.truncated "ann")).encode
  let e := (Engine.start 1 ⟨256, 256, maxPacketSize, 4⟩ (Store.empty.addUser "" "")).run tallied
    [.accept (.ofPeer none)]
  (e.relay.receive 0 1 (login ++ login)).2

/-- The second request is not read, and connection 2 stays as it is. -/
theorem serve_recycled_evicted :
    (∃ c r₁, (r₁.session 0).id = 1 ∧ ((evicting.ask c r₁).2.session 0).id ≠ 1 ∧
      ReflTransGen (Aside evicting) (evicting.ask c r₁).2 (insistent.drain evicting 0 1).2) ∧
    (insistent.drain evicting 0 1).1 = .ok 1 ∧
    let r := (insistent.drain evicting 0 1).2
    r.findName "ann" = none ∧ r.findName "bob" = some 0 ∧ (r.session 0).id = 2 ∧
      (r.session 0).inbound.toList = [7] ∧
      (r.session 0).handed r.links = [(Packet.loginResponse .success).encode] := by
  have hrun : (insistent.session 0).id = 1 ∧
      ((insistent.drain evicting 0 1).2.session 0).id ≠ 1 ∧
      (insistent.drain evicting 0 1).1 = .ok 1 ∧
      let r := (insistent.drain evicting 0 1).2
      r.findName "ann" = none ∧ r.findName "bob" = some 0 ∧ (r.session 0).id = 2 ∧
        (r.session 0).inbound.toList = [7] ∧
        (r.session 0).handed r.links = [(Packet.loginResponse .success).encode] := by
    decide +kernel
  obtain ⟨hid, hgone, hafter⟩ := hrun
  obtain ⟨-, -, -, -, c, r₁, -, -, -, -, -, hserved, hrecycled, hasides⟩ :=
    (serve_recycled evicting insistent 0 1 _).2 hid hgone
  exact ⟨⟨c, r₁, hserved, hrecycled, hasides⟩, hafter⟩

end ChatRelay.Relay
