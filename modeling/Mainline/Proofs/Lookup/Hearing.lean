import Mainline.Proofs.Lookup.Rounds

/-!
# What a lookup hears of

A lookup hears of contacts from its seeds and from the responses it takes. An id that it has heard
of can leave the candidates in two ways: it is asked, or somebody answers under it. This module
proves that there is no other way: a search *knows* an id (`Search.Knows`) if it is a candidate, or
not to be asked any more, or the searcher's own, and nothing that a lookup does makes it forget one.
The ids that are not to be asked any more are in turn those that have been asked and those under
which somebody has answered.

## Main results

* `retained_absorb`, `retained_afterRound`, `retained_afterAll`: what becomes of the ids, for a
  reply, a round and a lookup.
-/

namespace Mainline

namespace Search

variable {s : Search} {id : Key}

/-- The search **knows** the id: it is a candidate, or not to be asked (any more). -/
def Knows (s : Search) (id : Key) : Prop :=
  id = s.localId ∨ id ∈ s.asked ∨ id ∈ s.candidates.map Contact.id

/-- A search knows what it hears of, and whatever it knew. -/
theorem knows_hearOf {contact : Contact} (h : s.Knows id ∨ id = contact.id) :
    (s.hearOf contact).Knows id := by
  rw [hearOf]
  split
  · next known =>
      obtain known' | rfl := h
      · exact known'
      · rw [List.contains_iff_mem] at known
        exact known.imp_right .inl
  · simp only [Knows, mem_ids_insertNearest_iff]
    obtain (own | asked | candidate) | heard := h
    · exact .inl own
    · exact .inr (.inl asked)
    · exact .inr (.inr (.inr candidate))
    · exact .inr (.inr (.inl heard))

theorem knows_hearOfAll {contacts : List Contact}
    (h : s.Knows id ∨ id ∈ contacts.map Contact.id) : (s.hearOfAll contacts).Knows id := by
  induction contacts generalizing s with
  | nil => exact h.resolve_right List.not_mem_nil
  | cons contact contacts ih =>
      rw [List.map_cons, List.mem_cons, ← or_assoc] at h
      exact ih (h.imp_left knows_hearOf)

/-- A round takes candidates away, but those are asked. -/
theorem knows_nextRound (h : s.Knows id) : s.nextRound.2.Knows id := by
  have hasked : id ∈ s.nextRound.2.asked ↔
      id ∈ (s.candidates.take s.parallelism).map Contact.id ∨ id ∈ s.asked :=
    mem_asked_nextRound_iff
  rw [Knows, hasked, nextRound_eq]
  obtain own | asked | candidate := h
  · exact .inl own
  · exact .inr (.inl (.inr asked))
  · rw [← List.take_append_drop s.parallelism s.candidates, List.map_append] at candidate
    obtain taken | left := List.mem_append.mp candidate
    · exact .inr (.inl (.inl taken))
    · exact .inr (.inr left)

/-- An id that somebody answers under is no candidate any more, but it is not to be asked. -/
theorem knows_withdraw (h : s.Knows id) (named : Key) :
    { s.markAsked named with
      candidates := (s.markAsked named).candidates.filter (·.id != named) }.Knows id := by
  have hasked : id ∈ (s.markAsked named).asked ↔ id = named ∨ id ∈ s.asked :=
    mem_asked_markAsked_iff
  rw [Knows, hasked, markAsked_eq]
  obtain own | asked | candidate := h
  · exact .inl own
  · exact .inr (.inl (.inr asked))
  · by_cases heq : id = named
    · exact .inr (.inl (.inl heq))
    · obtain ⟨c, hc, rfl⟩ := List.mem_map.mp candidate
      refine .inr (.inr (List.mem_map_of_mem (List.mem_filter.mpr ⟨hc, ?_⟩)))
      exact bne_iff_ne.mpr heq

/-- A search that takes an answer knows what the answer tells of, and whatever it knew. -/
theorem knows_accept {asked : Contact} {named : Key} {heard : List Contact}
    (other : named ≠ s.localId) (h : s.Knows id ∨ id ∈ heard.map Contact.id) :
    (s.accept asked named heard).Knows id := by
  rw [accept, if_neg other]
  refine knows_hearOfAll (h.imp_left fun known => ?_)
  split
  · exact known
  · exact knows_withdraw (s := { s with answers := s.answers + 1 }) known named

/-- An answer marks no id but its own. -/
theorem mem_asked_of_mem_asked_accept {asked : Contact} {named : Key} {heard : List Contact}
    (h : id ∈ (s.accept asked named heard).asked) : id = named ∨ id ∈ s.asked := by
  rw [accept] at h
  split at h
  · exact .inr h
  · dsimp only at h
    rw [hearOfAll_eq] at h
    split at h
    · exact .inr h
    · exact (mem_asked_markAsked_iff (s := { s with answers := s.answers + 1 })).mp h

end Search

namespace Lookup

variable {σ : Type} (purpose : Purpose σ)

/-! ### What replies tell of -/

/-- The contacts that a reply tells of, given what has been gathered before. A response under the
searcher's own id tells of nobody. -/
def heard (s : Search × σ) : Reply → List Contact
  | .ok response => if response.id = s.1.localId then [] else purpose.nodes s.2 response
  | .error _ => []

/-- The contacts that several replies tell of. -/
def heardAll (s : Search × σ) : List (Contact × Reply) → List Contact
  | [] => []
  | (asked, reply) :: replies =>
    heard purpose s reply ++ heardAll (absorb purpose s asked reply) replies

/-- The contacts that the replies of several rounds tell of. -/
def told (s : Search × σ) : List (List Reply) → List Contact
  | [] => []
  | replies :: answers =>
    heardAll purpose (s.1.nextRound.2, s.2) (s.1.nextRound.1.zip replies) ++
      told (afterRound purpose s replies) answers

variable {purpose} {s : Search × σ}

/-! ### What becomes of the ids -/

/-- What becomes of the ids when contacts are **asked**, **replies** come and **tell** of others:
no id is forgotten, and only those that are asked or answered under are marked. -/
structure Retained (asked : List Contact) (replies : List (Contact × Reply)) (told : List Contact)
    (s s' : Search) : Prop where
  localId : s'.localId = s.localId
  knows : ∀ id, s.Knows id ∨ id ∈ told.map Contact.id → s'.Knows id
  asked : ∀ id ∈ s'.asked, id ∈ s.asked ∨ id ∈ asked.map Contact.id ∨
    ∃ contact, Answered s.localId replies contact ∧ contact.id = id

theorem Retained.refl (s : Search) : Retained [] [] [] s s :=
  ⟨rfl, fun _ h => h.resolve_right List.not_mem_nil, fun _ h => .inl h⟩

theorem Retained.append {asked asked' : List Contact} {replies replies' : List (Contact × Reply)}
    {told told' : List Contact} {s s' s'' : Search} (h : Retained asked replies told s s')
    (h' : Retained asked' replies' told' s' s'') :
    Retained (asked ++ asked') (replies ++ replies') (told ++ told') s s'' := by
  refine ⟨h'.localId.trans h.localId, fun id hid => ?_, fun id hid => ?_⟩
  · rw [List.map_append, List.mem_append, ← or_assoc] at hid
    exact h'.knows id (hid.imp_left (h.knows id))
  · simp only [List.map_append, List.mem_append, answered_append_iff]
    obtain before | asked' | ⟨contact, answered, heq⟩ := h'.asked id hid
    · obtain before | asked | ⟨contact, answered, heq⟩ := h.asked id before
      · exact .inl before
      · exact .inr (.inl (.inl asked))
      · exact .inr (.inr ⟨contact, .inl answered, heq⟩)
    · exact .inr (.inl (.inr asked'))
    · exact .inr (.inr ⟨contact, .inr (h.localId ▸ answered), heq⟩)

/-- What a reply does to the ids. -/
theorem retained_absorb (purpose : Purpose σ) (s : Search × σ) (asked : Contact) (reply : Reply) :
    Retained [] [(asked, reply)] (heard purpose s reply) s.1 (absorb purpose s asked reply).1 := by
  have hself : Retained [] [(asked, reply)] [] s.1 s.1 :=
    ⟨rfl, fun _ h => h.resolve_right List.not_mem_nil, fun _ h => .inl h⟩
  cases reply with
  | error e => exact hself
  | ok response =>
      rw [heard, absorb]
      split
      · exact hself
      · next other =>
          refine ⟨(s.1.sameAim_accept _ _ _).localId, fun id => Search.knows_accept other, ?_⟩
          intro id hid
          obtain rfl | before := Search.mem_asked_of_mem_asked_accept hid
          · refine .inr (.inr ⟨responder asked response, ⟨other, asked, response, ?_, rfl⟩, rfl⟩)
            exact List.mem_singleton_self _
          · exact .inl before

theorem retained_absorbAll (purpose : Purpose σ) (s : Search × σ)
    (replies : List (Contact × Reply)) :
    Retained [] replies (heardAll purpose s replies) s.1 (absorbAll purpose s replies).1 := by
  induction replies generalizing s with
  | nil => exact .refl s.1
  | cons p replies ih => exact (retained_absorb purpose s p.1 p.2).append (ih _)

/-- What a round does to the ids. -/
theorem retained_afterRound (purpose : Purpose σ) (s : Search × σ) (replies : List Reply) :
    Retained s.1.nextRound.1 (s.1.nextRound.1.zip replies)
      (heardAll purpose (s.1.nextRound.2, s.2) (s.1.nextRound.1.zip replies)) s.1
      (afterRound purpose s replies).1 := by
  have hbegun : Retained s.1.nextRound.1 [] [] s.1 s.1.nextRound.2 := by
    refine ⟨s.1.sameAim_nextRound.localId, fun id h => ?_, fun id h => ?_⟩
    · exact Search.knows_nextRound (h.resolve_right List.not_mem_nil)
    · exact (Search.mem_asked_nextRound_iff.mp h).symm.imp_right .inl
  have habsorbed :=
    retained_absorbAll purpose (s.1.nextRound.2, s.2) (s.1.nextRound.1.zip replies)
  have hround := hbegun.append habsorbed
  rwa [List.append_nil] at hround

/-- **What a lookup does to the ids**: it knows whatever it has been told of, and what is not to be
asked any more has been asked, or somebody has answered under it. -/
theorem retained_afterAll (purpose : Purpose σ) (s : Search × σ) (answers : List (List Reply)) :
    Retained ((rounds purpose s answers).flatMap Round.asked)
      ((rounds purpose s answers).flatMap Round.replied) (told purpose s answers) s.1
      (afterAll purpose s answers).1 := by
  induction answers generalizing s with
  | nil => exact .refl s.1
  | cons replies answers ih => exact (retained_afterRound purpose s replies).append (ih _)

/-! ### Whom responses tell of -/

/-- Every response under another id than the searcher's is heard. -/
theorem exists_nodes_subset_heardAll (purpose : Purpose σ) {s : Search × σ}
    {replies : List (Contact × Reply)} {asked : Contact} {response : Krpc.Response}
    (hmem : (asked, .ok response) ∈ replies)
    (other : response.id ≠ s.1.localId) :
    ∃ found, purpose.nodes found response ⊆ heardAll purpose s replies := by
  induction replies generalizing s with
  | nil => cases hmem
  | cons p replies ih =>
      rw [heardAll]
      obtain heq | hmem := List.mem_cons.mp hmem
      · rw [← heq, heard, if_neg other]
        exact ⟨s.2, List.subset_append_left _ _⟩
      · rw [← (retained_absorb purpose s p.1 p.2).localId] at other
        obtain ⟨found, hsubset⟩ := ih hmem other
        exact ⟨found, List.Subset.trans hsubset (List.subset_append_right _ _)⟩

/-- **A lookup is told of the nodes in every response** under another id than the searcher's. -/
theorem exists_nodes_subset_told {answers : List (List Reply)} {asked : Contact}
    {response : Krpc.Response}
    (hmem : (asked, .ok response) ∈ (rounds purpose s answers).flatMap Round.replied)
    (other : response.id ≠ s.1.localId) :
    ∃ found, purpose.nodes found response ⊆ told purpose s answers := by
  induction answers generalizing s with
  | nil => cases hmem
  | cons replies answers ih =>
      rw [rounds, List.flatMap_cons] at hmem
      rw [told]
      obtain hmem | hmem := List.mem_append.mp hmem
      · rw [← s.1.sameAim_nextRound.localId] at other
        obtain ⟨found, hsubset⟩ :=
          exists_nodes_subset_heardAll purpose (s := (s.1.nextRound.2, s.2)) hmem other
        exact ⟨found, List.Subset.trans hsubset (List.subset_append_left _ _)⟩
      · rw [← (retained_afterRound purpose s replies).localId] at other
        obtain ⟨found, hsubset⟩ := ih hmem other
        exact ⟨found, List.Subset.trans hsubset (List.subset_append_right _ _)⟩

end Lookup

end Mainline
