import Mathlib.Data.List.Nodup
import Mainline.Lookup.Search
import Mainline.Proofs.Key.Distance

/-!
# The invariant of a search

A search keeps three collections of ids apart: candidates, which may still be asked, the ids that
are not to be asked any more, and the contacts that answered, whose ids are among the latter. New
ids enter at several places: with the seeds, with what answers tell of, and with contacts that
answer under another id than the one they were asked under. `Search.InOrder` says how the three
collections lie, and every operation of a search keeps them so.

## Main results

* `nearest_insertNearest`: contacts stay in strict order of their distances.
* `Search.InOrder.nextRound`, `Search.InOrder.accept`: a search stays in order when a round begins
  and when an answer is taken.
* `Search.mem_asked_nextRound_iff`, `Search.mem_asked_accept_iff`: which ids are not to be asked any
  more then.
-/

namespace Mainline

/-! ### Contacts by distance -/

section Nearest

variable {target : Key} {contact : Contact} {replace : Bool} {cs : List Contact}

/-- Contacts in **strict order** of their distances to a target. -/
def Nearest (target : Key) (cs : List Contact) : Prop :=
  cs.Pairwise fun c d => c.id.distance target < d.id.distance target

/-- Contacts in strict order have different ids. -/
theorem Nearest.nodup_ids (h : Nearest target cs) : (cs.map Contact.id).Nodup := by
  rw [List.Nodup, List.pairwise_map]
  refine List.Pairwise.imp ?_ h
  intro c d hlt heq
  rw [heq] at hlt
  exact lt_irrefl _ hlt

theorem mem_of_mem_insertNearest {c : Contact}
    (h : c ∈ insertNearest target contact replace cs) : c = contact ∨ c ∈ cs := by
  induction cs with
  | nil => exact .inl (List.mem_singleton.mp h)
  | cons d cs ih =>
      rw [insertNearest] at h
      split at h
      · obtain rfl | h := List.mem_cons.mp h
        · split
          · exact .inl rfl
          · exact .inr List.mem_cons_self
        · exact .inr (List.mem_cons_of_mem d h)
      · split at h
        · exact List.mem_cons.mp h
        · obtain rfl | h := List.mem_cons.mp h
          · exact .inr List.mem_cons_self
          · exact (ih h).imp_right (List.mem_cons_of_mem d)

/-- The ids of the contacts are those from before and the new one. -/
theorem mem_ids_insertNearest_iff {id : Key} :
    id ∈ (insertNearest target contact replace cs).map Contact.id ↔
      id = contact.id ∨ id ∈ cs.map Contact.id := by
  induction cs with
  | nil => simp [insertNearest]
  | cons d cs ih =>
      rw [insertNearest]
      split
      · next heq =>
          have hid : (if replace then contact else d).id = d.id := by
            split
            · exact heq.symm
            · rfl
          rw [List.map_cons, List.mem_cons, hid, List.map_cons, List.mem_cons, heq]
          simp
      · split
        · simp
        · rw [List.map_cons, List.mem_cons, ih, List.map_cons, List.mem_cons]
          exact or_left_comm

/-- **Contacts stay in strict order** when one is filed among them. -/
theorem nearest_insertNearest (h : Nearest target cs) :
    Nearest target (insertNearest target contact replace cs) := by
  induction cs with
  | nil => exact List.pairwise_singleton _ _
  | cons d cs ih =>
      obtain ⟨hd, hcs⟩ := List.pairwise_cons.mp h
      rw [insertNearest]
      split
      · next heq =>
          refine List.pairwise_cons.mpr ⟨fun c hc => ?_, hcs⟩
          have hid : (if replace then contact else d).id = d.id := by
            split
            · exact heq.symm
            · rfl
          rw [hid]
          exact hd c hc
      · next hne =>
          split
          · next hlt =>
              refine List.pairwise_cons.mpr ⟨fun c hc => ?_, h⟩
              obtain rfl | hc := List.mem_cons.mp hc
              · exact hlt
              · exact lt_trans hlt (hd c hc)
          · next hge =>
              have hdist : d.id.distance target ≠ contact.id.distance target :=
                mt Key.distance_left_inj.mp hne
              refine List.pairwise_cons.mpr ⟨fun c hc => ?_, ih hcs⟩
              obtain rfl | hc := mem_of_mem_insertNearest hc
              · exact lt_of_le_of_ne (not_lt.mp hge) hdist
              · exact hd c hc

/-- Contacts in strict order are cut into nearer and farther ones. -/
theorem Nearest.take_lt_drop (h : Nearest target cs) (n : ℕ) {c d : Contact}
    (hc : c ∈ cs.take n) (hd : d ∈ cs.drop n) :
    c.id.distance target < d.id.distance target := by
  rw [Nearest, ← List.take_append_drop n cs] at h
  exact (List.pairwise_append.mp h).2.2 c hc d hd

end Nearest

namespace Search

variable {s : Search}

/-! ### What operations change -/

/-- Hearing of contacts changes the candidates only. -/
theorem hearOf_eq (s : Search) (contact : Contact) :
    s.hearOf contact = { s with candidates := (s.hearOf contact).candidates } := by
  rw [hearOf]
  split <;> rfl

theorem hearOfAll_eq (s : Search) (contacts : List Contact) :
    s.hearOfAll contacts = { s with candidates := (s.hearOfAll contacts).candidates } := by
  induction contacts generalizing s with
  | nil => rfl
  | cons contact contacts ih =>
      have hcons : s.hearOfAll (contact :: contacts) = (s.hearOf contact).hearOfAll contacts := rfl
      rw [hcons, ih, s.hearOf_eq contact]

/-- Marking ids changes the ids that are not to be asked any more, and nothing else. -/
theorem markAsked_eq (s : Search) (id : Key) :
    s.markAsked id = { s with asked := (s.markAsked id).asked } := by
  rw [markAsked]
  split <;> rfl

theorem mem_asked_markAsked_iff {id id' : Key} :
    id' ∈ (s.markAsked id).asked ↔ id' = id ∨ id' ∈ s.asked := by
  rw [markAsked]
  split
  · next hmem =>
      have hmem : id ∈ s.asked := List.contains_iff_mem.mp hmem
      exact ⟨.inr, fun h => h.elim (fun heq => heq ▸ hmem) fun hin => hin⟩
  · rw [List.mem_append, List.mem_singleton, or_comm]

theorem markAll_eq (s : Search) (batch : List Contact) :
    batch.foldl (fun s c => s.markAsked c.id) s =
      { s with asked := (batch.foldl (fun s c => s.markAsked c.id) s).asked } := by
  induction batch generalizing s with
  | nil => rfl
  | cons c batch ih =>
      rw [List.foldl_cons, ih, s.markAsked_eq c.id]

theorem mem_asked_markAll_iff {batch : List Contact} {id : Key} :
    id ∈ (batch.foldl (fun s c => s.markAsked c.id) s).asked ↔
      id ∈ batch.map Contact.id ∨ id ∈ s.asked := by
  induction batch generalizing s with
  | nil => simp
  | cons c batch ih =>
      rw [List.foldl_cons, ih, mem_asked_markAsked_iff, List.map_cons, List.mem_cons]
      exact or_left_comm.trans or_assoc.symm

/-- What is left once a round has begun. -/
theorem nextRound_eq (s : Search) :
    s.nextRound.2 = { s with
      asked := s.nextRound.2.asked
      candidates := s.candidates.drop s.parallelism
      rounds := s.rounds + 1 } := by
  rw [nextRound, markAll_eq]

/-- A round asks the nearest candidates, and then they are not to be asked any more. -/
theorem mem_asked_nextRound_iff {id : Key} :
    id ∈ s.nextRound.2.asked ↔ id ∈ s.nextRound.1.map Contact.id ∨ id ∈ s.asked :=
  mem_asked_markAll_iff

/-- The two searches have the **same aim**. -/
structure SameAim (s s' : Search) : Prop where
  target : s'.target = s.target
  localId : s'.localId = s.localId
  wanted : s'.wanted = s.wanted
  parallelism : s'.parallelism = s.parallelism

theorem SameAim.refl (s : Search) : SameAim s s := ⟨rfl, rfl, rfl, rfl⟩

theorem SameAim.trans {s s' s'' : Search} (h : SameAim s s') (h' : SameAim s' s'') :
    SameAim s s'' :=
  ⟨h'.target.trans h.target, h'.localId.trans h.localId, h'.wanted.trans h.wanted,
    h'.parallelism.trans h.parallelism⟩

theorem sameAim_hearOfAll (s : Search) (contacts : List Contact) :
    SameAim s (s.hearOfAll contacts) := by
  rw [hearOfAll_eq]
  exact ⟨rfl, rfl, rfl, rfl⟩

theorem sameAim_nextRound (s : Search) : SameAim s s.nextRound.2 := by
  rw [nextRound_eq]
  exact ⟨rfl, rfl, rfl, rfl⟩

theorem sameAim_accept (s : Search) (asked : Contact) (id : Key) (heard : List Contact) :
    SameAim s (s.accept asked id heard) := by
  rw [accept]
  split
  · exact .refl s
  · dsimp only
    rw [hearOfAll_eq]
    split
    · exact ⟨rfl, rfl, rfl, rfl⟩
    · rw [markAsked_eq]
      exact ⟨rfl, rfl, rfl, rfl⟩

/-- An answer under another id than that of the searcher is noted under its own id, with the
address that was asked. -/
theorem answered_accept {asked : Contact} {id : Key} {heard : List Contact}
    (other : id ≠ s.localId) :
    (s.accept asked id heard).answered =
      insertNearest s.target ⟨id, asked.address⟩ true s.answered := by
  rw [accept, if_neg other]
  dsimp only
  rw [hearOfAll_eq]
  split
  · rfl
  · rw [markAsked_eq]

/-- An id under which somebody has answered is not to be asked any more. -/
theorem mem_asked_accept_iff {asked : Contact} {id id' : Key} {heard : List Contact}
    (other : id ≠ s.localId) (known : asked.id ∈ s.asked) :
    id' ∈ (s.accept asked id heard).asked ↔ id' = id ∨ id' ∈ s.asked := by
  rw [accept, if_neg other]
  dsimp only
  rw [hearOfAll_eq]
  split
  · next heq => exact ⟨.inr, fun h => h.elim (fun h => h ▸ heq ▸ known) fun h => h⟩
  · exact mem_asked_markAsked_iff

/-! ### The invariant -/

/-- A search is **in order** if its candidates and the contacts that answered stand in strict order
of their distances, candidates may still be asked, contacts that answered may not, and the searcher
itself is neither. -/
structure InOrder (s : Search) : Prop where
  candidates : Nearest s.target s.candidates
  answered : Nearest s.target s.answered
  fresh : ∀ c ∈ s.candidates, c.id ≠ s.localId ∧ c.id ∉ s.asked
  known : ∀ c ∈ s.answered, c.id ≠ s.localId ∧ c.id ∈ s.asked

/-- A search that has heard of nobody is in order. -/
theorem inOrder_create (target localId : Key) (capacity parallelism : ℕ) :
    (create target localId capacity parallelism).InOrder :=
  ⟨.nil, .nil, nofun, nofun⟩

namespace InOrder

theorem hearOf (h : s.InOrder) (contact : Contact) : (s.hearOf contact).InOrder := by
  rw [Search.hearOf]
  split
  · exact h
  · next hopen =>
      obtain ⟨hlocal, hasked⟩ := not_or.mp hopen
      refine ⟨nearest_insertNearest h.candidates, h.answered, fun c hc => ?_, h.known⟩
      obtain rfl | hc := mem_of_mem_insertNearest hc
      · exact ⟨hlocal, fun hin => hasked (List.contains_iff_mem.mpr hin)⟩
      · exact h.fresh c hc

theorem hearOfAll (h : s.InOrder) (contacts : List Contact) : (s.hearOfAll contacts).InOrder := by
  induction contacts generalizing s with
  | nil => exact h
  | cons contact contacts ih => exact ih (h.hearOf contact)

/-- No candidate that a round leaves is one of those it asks. -/
theorem nextRound (h : s.InOrder) : s.nextRound.2.InOrder := by
  have hasked : ∀ id, id ∈ s.nextRound.2.asked ↔
      id ∈ (s.candidates.take s.parallelism).map Contact.id ∨ id ∈ s.asked :=
    fun id => mem_asked_nextRound_iff
  rw [nextRound_eq]
  generalize s.nextRound.2.asked = asked at hasked
  refine ⟨List.Pairwise.sublist (List.drop_sublist _ _) h.candidates, h.answered, ?_, ?_⟩
  · intro c hc
    obtain ⟨hlocal, hnew⟩ := h.fresh c (List.mem_of_mem_drop hc)
    refine ⟨hlocal, fun hin => ?_⟩
    obtain hin | hin := (hasked c.id).mp hin
    · obtain ⟨d, hd, heq⟩ := List.mem_map.mp hin
      have hlt := h.candidates.take_lt_drop s.parallelism hd hc
      rw [heq] at hlt
      exact lt_irrefl _ hlt
    · exact hnew hin
  · intro c hc
    exact ⟨(h.known c hc).1, (hasked c.id).mpr (.inr (h.known c hc).2)⟩

/-- An id that a contact answers under is no candidate any more. -/
theorem withdraw (h : s.InOrder) (id : Key) :
    { s.markAsked id with
      candidates := (s.markAsked id).candidates.filter (·.id != id) }.InOrder := by
  have hasked : ∀ id', id' ∈ (s.markAsked id).asked ↔ id' = id ∨ id' ∈ s.asked :=
    fun id' => mem_asked_markAsked_iff
  rw [markAsked_eq]
  generalize (s.markAsked id).asked = asked at hasked
  refine ⟨List.Pairwise.filter _ h.candidates, h.answered, fun c hc => ?_, fun c hc => ?_⟩
  · obtain ⟨hc, hne⟩ := List.mem_filter.mp hc
    obtain ⟨hlocal, hnew⟩ := h.fresh c hc
    exact ⟨hlocal, fun hin => ((hasked c.id).mp hin).elim (bne_iff_ne.mp hne) hnew⟩
  · exact ⟨(h.known c hc).1, (hasked c.id).mpr (.inr (h.known c hc).2)⟩

/-- A contact that answers is noted once its id is not to be asked any more. -/
theorem note (h : s.InOrder) {contact : Contact} (other : contact.id ≠ s.localId)
    (known : contact.id ∈ s.asked) :
    { s with answered := insertNearest s.target contact true s.answered }.InOrder := by
  refine ⟨h.candidates, nearest_insertNearest h.answered, h.fresh, fun c hc => ?_⟩
  obtain rfl | hc := mem_of_mem_insertNearest hc
  · exact ⟨other, known⟩
  · exact h.known c hc

/-- **A search stays in order when it takes an answer** of a contact that it has asked. -/
theorem accept (h : s.InOrder) {asked : Contact} {id : Key} {heard : List Contact}
    (known : asked.id ∈ s.asked) : (s.accept asked id heard).InOrder := by
  by_cases other : id = s.localId
  · rw [Search.accept, if_pos other]
    exact h
  · have hnamed : id ∈ (s.accept asked id heard).asked :=
      (mem_asked_accept_iff other known).mpr (.inl rfl)
    have hcount : { s with answers := s.answers + 1 }.InOrder :=
      ⟨h.candidates, h.answered, h.fresh, h.known⟩
    rw [Search.accept, if_neg other] at hnamed ⊢
    refine note (.hearOfAll ?_ heard) ?_ hnamed
    · split
      · exact hcount
      · exact hcount.withdraw id
    · rw [hearOfAll_eq]
      split
      · exact other
      · rw [markAsked_eq]
        exact other

end InOrder

end Search

end Mainline
