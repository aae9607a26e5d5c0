import ChatRelay.Proofs.Outgoing
import ChatRelay.Proofs.Relay.Moves

/-! # Views of links

What is seen of a link may not depend on what it is asked to write, to read, or on its being closed.
Whatever asks for nothing else then leaves what is seen of all links as it is.
-/

namespace ChatRelay

open Relation (ReflTransGen)

variable {α : Type} {g : Link → α}

namespace Links

theorem map_ask {f : Link → Bool × Link} (hf : ∀ l, g (f l).2 = g l) (ls : Links) (i : LinkId) :
    (ls.ask i f).2.map g = ls.map g := by
  unfold ask
  split
  · next l hl =>
    obtain ⟨hi, rfl⟩ := List.getElem?_eq_some_iff.1 hl
    have hmap : i < (ls.map g).length := by simpa using hi
    have hsame : g (f ls[i]).2 = (ls.map g)[i] := by simp [hf]
    rw [List.map_set, hsame, List.set_getElem_self]
  · rfl

theorem map_close (hclose : ∀ l : Link, g (l.record .close) = g l) (ls : Links) (i : LinkId) :
    (ls.close i).map g = ls.map g := by
  apply List.ext_getElem?
  intro j
  simp only [close, List.getElem?_map, List.getElem?_modify]
  split
  · cases ls[j]? <;> simp [hclose]
  · cases ls[j]? <;> rfl

end Links

namespace Session

section

variable (hsend : ∀ (l : Link) packet, g (l.send packet).2 = g l)

include hsend

theorem map_post (l : LinkId) (ls : Links) (packets : List Bytes) :
    (post l ls packets).2.map g = ls.map g := by
  induction packets generalizing ls with
  | nil => rfl
  | cons packet packets ih =>
    have hfirst : (ls.send l packet).2.map g = ls.map g := Links.map_ask (hsend · packet) ls l
    unfold post
    split
    · next h => rwa [h] at hfirst
    · next h =>
      rw [h] at hfirst
      exact (ih _).trans hfirst

theorem map_send (s : Session) (target : Option SessionId) (packet : Bytes) (ls : Links) :
    (s.send target packet ls).2.2.map g = ls.map g := by
  unfold send
  split
  · rfl
  · split
    · dsimp only
      split
      · rfl
      · exact map_post hsend ..
    · rfl

theorem map_sent (s : Session) (id : SessionId) (ls : Links) :
    (s.sent id ls).2.map g = ls.map g := by
  unfold sent
  split
  · rfl
  · dsimp only
    split
    · exact map_post hsend ..
    · rfl

end

theorem map_armRead (hreceive : ∀ (l : Link) limit, g (l.receive limit).2 = g l) (s : Session)
    (id : SessionId) (ls : Links) : (s.armRead id ls).2.map g = ls.map g := by
  rcases s.armRead_links id ls with h | ⟨l, limit, h⟩ <;> rw [h]
  exact Links.map_ask (hreceive · limit) ls l

theorem map_hangUp (hclose : ∀ l : Link, g (l.record .close) = g l) (s : Session) (ls : Links) :
    (s.hangUp ls).map g = ls.map g := by
  unfold hangUp
  split
  · exact Links.map_close hclose ..
  · rfl

end Session

namespace Relay

variable {S : Type} {r r' : Relay S} {slot : Nat}
  (hsend : ∀ (l : Link) packet, g (l.send packet).2 = g l)

include hsend

theorem Deed.map_links (hd : Deed r r') : r'.links.map g = r.links.map g := by
  cases hd with
  | store => rfl
  | register j id token _ => rw [links_register]
  | send j target packet => exact Session.map_send hsend ..

theorem map_links_of_deeds (hd : ReflTransGen Deed r r') : r'.links.map g = r.links.map g := by
  induction hd with
  | refl => rfl
  | tail _ hlast ih => exact (hlast.map_links hsend).trans ih

/-- What is seen changes by a read that is asked for and by the end of a connection only. -/
theorem Act.map_links_or (ha : Act slot r r') : r'.links.map g = r.links.map g ∨
    (∃ id, r' = (r.armRead slot id).2) ∨ r' = r.release slot := by
  cases ha with
  | deed hd => exact .inl (hd.map_links hsend)
  | acquire ha =>
    obtain ⟨free, -, rfl⟩ := acquire_eq_some_iff.1 ha
    exact .inl rfl
  | depart id =>
    rcases depart_cases r slot id with ⟨-, he⟩ | ⟨-, he⟩ <;> rw [he]
    · exact .inl rfl
    · exact .inl rfl
  | release => exact .inr (.inr rfl)
  | sent id => exact .inl (Session.map_sent hsend ..)
  | armRead id => exact .inr (.inl ⟨id, rfl⟩)
  | receive id bs => exact .inl rfl
  | take _ => exact .inl rfl

end Relay

end ChatRelay
