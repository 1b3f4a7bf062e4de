import Mathlib.Logic.Function.Basic
import Mainline.Proofs.Routing.Source

/-!
# The outcome of an offer

An offer that asks questionable members says only at its end what has become of the node. This
module follows an offer from its beginning to its end (`Situation.offer`), with any steps happening
while a member is being asked, and says how far its outcome can be trusted.

An offer looks at its bucket when it is placed and each time a member has failed to answer, but not
when a member has answered. What it finds when it looks is true. But what happens during the last
askings, if all of those members answer, goes unnoticed (`overlooked`), and can make a rejection
false in the end.

## Main results

* `Table.WellFormed.observe_isTrue`, `Table.WellFormed.resume_isTrue`: what is found is true.
* `AskedInTurn.of_rejected`: what belies a rejection was overlooked.
* `outcome_true_unless_overlooked`: the law, for every table that steps lead to.
-/

namespace Mainline.Routing

/-- What happens while a member is being asked, step by step, and whether the member answers. -/
structure Asking where
  during : List Step
  answered : Bool

/-- Asks members in turn until the offer is decided: the situation then, and the outcome. -/
def askInTurn (s : Situation) (node : Member) (asking : Contact → Asking) :
    List Contact → Situation × Outcome
  | [] => (s, .rejected)
  | asked :: questionable =>
    let s := Step.runAll s (asking asked).during
    let after := (Step.resume node asked.id (asking asked).answered).run s
    match (s.table.resume s.now node asked.id (asking asked).answered).2 with
    | some outcome => (after, outcome)
    | none => askInTurn after node asking questionable

/-- An offer from its beginning to its end. -/
def Situation.offer (s : Situation) (node : Member) (asking : Contact → Asking) :
    Situation × Outcome :=
  let after := (Step.place node).run s
  match (s.table.place s.now node).2 with
  | .settled outcome => (after, outcome)
  | .contested questionable => askInTurn after node asking questionable

/-- The members an offer is going to ask. -/
def Placement.questionable : Placement → List Contact
  | settled _ => []
  | contested questionable => questionable

/-- The steps that an offer does not notice: those during the askings at the end, as far back as
all members have answered. -/
def overlooked : List Asking → List Step
  | [] => []
  | asking :: askings =>
    if (asking :: askings).all (·.answered) then (asking :: askings).flatMap (·.during)
    else overlooked askings

/-! ### Offers and scripts -/

theorem askInTurn_congr {s : Situation} {node : Member} {asking asking' : Contact → Asking}
    {questionable : List Contact} (same : ∀ asked ∈ questionable, asking asked = asking' asked) :
    askInTurn s node asking questionable = askInTurn s node asking' questionable := by
  induction questionable generalizing s with
  | nil => rfl
  | cons asked questionable ih =>
      obtain ⟨hasked, hrest⟩ := List.forall_mem_cons.mp same
      rw [askInTurn, askInTurn, hasked]
      split
      · rfl
      · exact ih hrest

/-- Asking without a script is asking while nothing happens and nobody answers. -/
theorem askUnscripted_eq_askInTurn (s : Situation) (node : Member) (questionable : List Contact) :
    let result := askUnscripted s node questionable
    (result.1, result.2.1) = askInTurn s node (fun _ => ⟨[], false⟩) questionable := by
  induction questionable generalizing s with
  | nil => rfl
  | cons asked questionable ih =>
      rw [askUnscripted, askInTurn, Step.runAll_nil, Step.run]
      rcases s.table.resume s.now node asked.id false with ⟨table, _ | outcome⟩
      · exact ih _
      · rfl

/-- Asking by a script is asking in turn. A member is asked once, so what happens meanwhile is a
matter of which member it is. -/
theorem exists_ask_eq_askInTurn (s : Situation) (node : Member) (probes : List Probe)
    {questionable : List Contact} (nodup : questionable.Nodup) :
    let result := ask s node probes questionable
    ∃ asking, (result.1, result.2.1) = askInTurn s node asking questionable := by
  induction questionable generalizing s probes with
  | nil => exact ⟨fun _ => ⟨[], false⟩, by rw [ask, askInTurn]⟩
  | cons asked questionable ih =>
      obtain ⟨hasked, nodup⟩ := List.nodup_cons.mp nodup
      match probes with
      | [] =>
          refine ⟨fun _ => ⟨[], false⟩, ?_⟩
          rw [ask]
          · exact askUnscripted_eq_askInTurn s node _
          · simp
      | .mk during answers :: probes =>
          let s' := Operation.runAll s during
          obtain ⟨asking, hrest⟩ := ih ((Step.resume node asked.id answers).run s') probes nodup
          let asking' := Function.update asking asked ⟨Operation.stepsAll s during, answers⟩
          have hthis : asking' asked = ⟨Operation.stepsAll s during, answers⟩ :=
            Function.update_self ..
          have hothers : ∀ other ∈ questionable, asking' other = asking other :=
            fun other hother => Function.update_of_ne (ne_of_mem_of_not_mem hother hasked) ..
          refine ⟨asking', ?_⟩
          rw [ask, askInTurn, hthis, ← Operation.runAll_eq_steps, askInTurn_congr hothers]
          dsimp only [s', Step.run] at hrest ⊢
          generalize Operation.runAll s during = s' at hrest ⊢
          generalize s'.table.resume s'.now node asked.id answers = resumed at hrest ⊢
          obtain ⟨table, _ | outcome⟩ := resumed
          · exact hrest
          · rfl

/-! ### What an offer leaves unnoticed -/

/-- What is overlooked in the later askings is overlooked in all. -/
theorem overlooked_subset_cons (asking : Asking) (askings : List Asking) :
    overlooked askings ⊆ overlooked (asking :: askings) := by
  intro step hstep
  rw [overlooked]
  split
  · next answered =>
      rw [List.all_cons, Bool.and_eq_true] at answered
      rw [List.flatMap_cons]
      refine List.mem_append_right _ ?_
      cases askings with
      | nil => cases hstep
      | cons first askings => rwa [overlooked, if_pos answered.2] at hstep
  · exact hstep

/-- If all members answer, everything is overlooked. -/
theorem overlooked_of_answered {askings : List Asking}
    (answered : ∀ asking ∈ askings, asking.answered = true) :
    overlooked askings = askings.flatMap (·.during) := by
  cases askings with
  | nil => rfl
  | cons asking askings => rw [overlooked, if_pos (List.all_eq_true.mpr answered)]

/-! ### True outcomes -/

/-- What an outcome says of the node with this id is **true** of a table: the outcome is one by
which the node is stored exactly if the table holds it, and if the node is rejected, its bucket is
full. -/
def Outcome.IsTrue (outcome : Outcome) (t : Table) (id : Key) : Prop :=
  (outcome.isStored = true ↔ id ∈ t.members.map Member.id) ∧
    (outcome = .rejected →
      ∃ i, t.bucketIndex? id = some i ∧ (t.bucket i).members.length = t.capacity)

theorem Outcome.isTrue_of_mem {outcome : Outcome} {t : Table} {id : Key}
    (stored : outcome.isStored = true) (held : id ∈ t.members.map Member.id) :
    outcome.IsTrue t id := by
  refine ⟨iff_of_true stored held, ?_⟩
  rintro rfl
  cases stored

theorem Table.mem_ids_modifyBucket {t : Table} {i : Fin 160} {f : Bucket → Bucket} {id : Key}
    (h : id ∈ (f (t.bucket i)).ids) : id ∈ (t.modifyBucket i f).members.map Member.id :=
  (mem_ids_iff ..).mpr ⟨i, by rwa [modifyBucket_same]⟩

theorem Bucket.mem_ids_replace {b : Bucket} {old : Key} (held : old ∈ b.ids) (node : Member)
    (now : Instant) : node.id ∈ (b.replace old node now).ids := by
  rw [ids_replace]
  exact List.mem_map.mpr ⟨old, held, if_pos rfl⟩

namespace Table.WellFormed

variable {t : Table} (h : t.WellFormed)
include h

/-- An id that belongs to no bucket is held in none. -/
theorem ignored_isTrue {id : Key} (own : t.bucketIndex? id = none) :
    Outcome.ignored.IsTrue t id := by
  refine ⟨iff_of_false nofun fun held => ?_, nofun⟩
  obtain ⟨i, hid⟩ := (t.mem_ids_iff id).mp held
  rw [(t.bucketIndex?_eq_some_iff id i).mpr (h.shared i id hid)] at own
  cases own

theorem rejected_isTrue {id : Key} {i : Fin 160} (belongs : t.bucketIndex? id = some i)
    (absent : id ∉ (t.bucket i).ids) (full : t.capacity ≤ (t.bucket i).members.length) :
    Outcome.rejected.IsTrue t id := by
  refine ⟨iff_of_false nofun (mt (h.mem_ids_iff_of_belongs belongs).mp absent), fun _ => ?_⟩
  exact ⟨i, belongs, Nat.le_antisymm (h.bounded i) full⟩

/-- **The outcome of an offer that asks nobody is true.** -/
theorem observe_isTrue (now : Instant) (node : Member) :
    (t.observe now node).2.IsTrue (t.observe now node).1 node.id := by
  have placed := t.place_placed now node
  rw [observe]
  generalize t.place now node = result at placed ⊢
  cases placed with
  | ignored own => exact h.ignored_isTrue own
  | refreshed belongs present =>
      refine Outcome.isTrue_of_mem rfl (Table.mem_ids_modifyBucket ?_)
      rwa [Bucket.ids_modify _ fun old _ => old.id_renewed node now]
  | added belongs absent room =>
      refine Outcome.isTrue_of_mem rfl (Table.mem_ids_modifyBucket ?_)
      rw [Bucket.ids_push]
      exact List.mem_append_right _ List.mem_cons_self
  | replaced belongs absent full first =>
      refine Outcome.isTrue_of_mem rfl (Table.mem_ids_modifyBucket ?_)
      exact Bucket.mem_ids_replace (List.mem_map_of_mem (List.mem_of_find?_eq_some first)) node now
  | rejected belongs absent full | contested belongs absent full =>
      exact h.rejected_isTrue belongs absent full

/-- **An offer that looks at its bucket again finds what is true**; where it finds nothing, it would
be true to reject it. -/
theorem resume_isTrue (now : Instant) (node : Member) (asked : Key) :
    ((t.resume now node asked false).2.getD .rejected).IsTrue
      (t.resume now node asked false).1 node.id := by
  have hmarked : (t.markFailed asked).WellFormed := (t.edit_markFailed asked).wellFormed h
  have resumed := t.resume_resumed now node asked
  generalize t.resume now node asked false = result at resumed ⊢
  cases resumed with
  | ignored own => exact hmarked.ignored_isTrue own
  | @refreshed i belongs present =>
      exact Outcome.isTrue_of_mem rfl ((Table.mem_ids_iff ..).mpr ⟨i, present⟩)
  | replaced belongs absent held =>
      refine Outcome.isTrue_of_mem rfl (Table.mem_ids_modifyBucket ?_)
      exact Bucket.mem_ids_replace held node now
  | added belongs absent gone room =>
      refine Outcome.isTrue_of_mem rfl (Table.mem_ids_modifyBucket ?_)
      rw [Bucket.ids_push]
      exact List.mem_append_right _ List.mem_cons_self
  | undecided belongs absent gone full => exact hmarked.rejected_isTrue belongs absent full

end Table.WellFormed

/-- No look at the bucket ends an offer with a rejection. -/
theorem Table.resume_ne_rejected (t : Table) (now : Instant) (node : Member) (asked : Key) :
    (t.resume now node asked false).2 ≠ some .rejected := by
  have resumed := t.resume_resumed now node asked
  generalize t.resume now node asked false = result at resumed
  cases resumed <;> nofun

/-- `P` **belies** a rejection of the node: it is not the case when a rejection is true, and only
the steps `Q` bring it about, which are not those by which an offer of the node goes on after an
answer. -/
structure Belies (node : Member) (P : Situation → Prop) (Q : Step → Prop) : Prop where
  excluded : ∀ {s : Situation}, Outcome.rejected.IsTrue s.table node.id → ¬P s
  step : ∀ {s : Situation}, s.table.WellFormed → ∀ step : Step, P (step.run s) → P s ∨ Q step
  answer : ∀ asked : Key, ¬Q (.resume node asked true)

/-- What belies a rejection is the case after a run of steps only if it was before, or one of them
has brought it about. -/
theorem Belies.of_runAll {node : Member} {P : Situation → Prop} {Q : Step → Prop}
    (belies : Belies node P Q) {s : Situation} (h : s.table.WellFormed) {steps : List Step}
    (after : P (Step.runAll s steps)) : P s ∨ ∃ step ∈ steps, Q step := by
  induction steps generalizing s with
  | nil => exact .inl after
  | cons step steps ih =>
      obtain before | ⟨later, hlater, hq⟩ := ih (step.wellFormed_run h) after
      · exact (belies.step h step before).imp_right fun hq => ⟨step, List.mem_cons_self, hq⟩
      · exact .inr ⟨later, List.mem_cons_of_mem _ hlater, hq⟩

/-! ### The course of an offer -/

section Course

variable (node : Member) (asking : Contact → Asking)

/-- The ways in which asking members in turn can go. The offer looks at its bucket when a member has
not answered, and not when one has. -/
inductive AskedInTurn : Situation → List Contact → Situation × Outcome → Prop
  | exhausted (s : Situation) : AskedInTurn s [] (s, .rejected)
  | decided {s s' : Situation} {asked : Contact} {questionable : List Contact} {outcome : Outcome}
      (hduring : Step.runAll s (asking asked).during = s')
      (hlook : (s'.table.resume s'.now node asked.id false).2 = some outcome) :
      AskedInTurn s (asked :: questionable) ((Step.resume node asked.id false).run s', outcome)
  | undecided {s s' : Situation} {asked : Contact} {questionable : List Contact}
      {result : Situation × Outcome} (hduring : Step.runAll s (asking asked).during = s')
      (hlook : (s'.table.resume s'.now node asked.id false).2 = none)
      (rest : AskedInTurn ((Step.resume node asked.id false).run s') questionable result) :
      AskedInTurn s (asked :: questionable) result
  | answered {s s' : Situation} {asked : Contact} {questionable : List Contact}
      {result : Situation × Outcome} (hduring : Step.runAll s (asking asked).during = s')
      (answered : (asking asked).answered = true)
      (rest : AskedInTurn ((Step.resume node asked.id true).run s') questionable result) :
      AskedInTurn s (asked :: questionable) result

/-- **Asking members in turn goes in one of these ways.** -/
theorem askInTurn_askedInTurn (s : Situation) (questionable : List Contact) :
    AskedInTurn node asking s questionable (askInTurn s node asking questionable) := by
  induction questionable generalizing s with
  | nil => exact .exhausted s
  | cons asked questionable ih =>
      rw [askInTurn]
      cases hanswered : (asking asked).answered with
      | true => exact .answered rfl hanswered (ih _)
      | false =>
          split
          · next outcome hlook => exact .decided rfl hlook
          · next hlook => exact .undecided rfl hlook (ih _)

/-- If all members answer, the offer is rejected, whatever happens meanwhile. -/
theorem askInTurn_of_answered (s : Situation) {questionable : List Contact}
    (answered : ∀ asked ∈ questionable, (asking asked).answered = true) :
    askInTurn s node asking questionable =
      (Step.runAll s (questionable.flatMap fun asked =>
        (asking asked).during ++ [.resume node asked.id true]), .rejected) := by
  induction questionable generalizing s with
  | nil => rfl
  | cons asked questionable ih =>
      obtain ⟨hasked, hrest⟩ := List.forall_mem_cons.mp answered
      rw [askInTurn, hasked, List.flatMap_cons, Step.runAll_append, Step.runAll_append]
      exact ih _ hrest

variable {node asking} {s : Situation} {questionable : List Contact} {result : Situation × Outcome}

namespace AskedInTurn

/-- Asking in turn is a run of steps. -/
theorem exists_runAll (course : AskedInTurn node asking s questionable result) :
    ∃ steps, result.1 = Step.runAll s steps := by
  induction course with
  | exhausted => exact ⟨[], rfl⟩
  | @decided s s' asked _ _ hduring _ =>
      exact ⟨(asking asked).during ++ [.resume node asked.id false], by
        rw [Step.runAll_append, hduring]; rfl⟩
  | @undecided s s' asked _ _ hduring _ _ ih =>
      obtain ⟨steps, hsteps⟩ := ih
      exact ⟨(asking asked).during ++ .resume node asked.id false :: steps, by
        rw [Step.runAll_append, hduring, Step.runAll_cons, hsteps]⟩
  | @answered s s' asked _ _ hduring _ _ ih =>
      obtain ⟨steps, hsteps⟩ := ih
      exact ⟨(asking asked).during ++ .resume node asked.id true :: steps, by
        rw [Step.runAll_append, hduring, Step.runAll_cons, hsteps]⟩

/-- An outcome other than a rejection is true. -/
theorem isTrue (course : AskedInTurn node asking s questionable result) (h : s.table.WellFormed)
    (decided : result.2 ≠ .rejected) : result.2.IsTrue result.1.table node.id := by
  induction course with
  | exhausted => exact absurd rfl decided
  | @decided s s' asked questionable outcome hduring hlook =>
      have h : s'.table.WellFormed := hduring ▸ Step.wellFormed_runAll h _
      have htrue := h.resume_isTrue s'.now node asked.id
      rwa [hlook] at htrue
  | undecided hduring hlook rest ih | answered hduring answered rest ih =>
      have h := hduring ▸ Step.wellFormed_runAll h _
      exact ih (Step.wellFormed_run h _) decided

/-- **What belies a rejection was overlooked.** If it is the case when the offer has been rejected,
it was so before and nobody has looked since, or one of the overlooked steps has brought it
about. -/
theorem of_rejected {P : Situation → Prop} {Q : Step → Prop}
    (course : AskedInTurn node asking s questionable result) (belies : Belies node P Q)
    (h : s.table.WellFormed) (rejected : result.2 = .rejected) (after : P result.1) :
    (P s ∧ ∀ asked ∈ questionable, (asking asked).answered = true) ∨
      ∃ step ∈ overlooked (questionable.map asking), Q step := by
  induction course with
  | exhausted => exact .inl ⟨after, List.forall_mem_nil _⟩
  | @decided s s' asked questionable outcome hduring hdecided =>
      obtain rfl : outcome = .rejected := rejected
      exact absurd hdecided (s'.table.resume_ne_rejected s'.now node asked.id)
  | @undecided s s' asked questionable result hduring hundecided rest ih =>
      have h' : s'.table.WellFormed := hduring ▸ Step.wellFormed_runAll h _
      have htrue := h'.resume_isTrue s'.now node asked.id
      rw [hundecided] at htrue
      obtain ⟨before, -⟩ | ⟨step, hmem, hq⟩ := ih (Step.wellFormed_run h' _) rejected after
      · exact absurd before (belies.excluded htrue)
      · exact .inr ⟨step, overlooked_subset_cons _ _ hmem, hq⟩
  | @answered s s' asked questionable result hduring hasked rest ih =>
      have h' : s'.table.WellFormed := hduring ▸ Step.wellFormed_runAll h _
      obtain ⟨before, hrest⟩ | ⟨step, hmem, hq⟩ := ih (Step.wellFormed_run h' _) rejected after
      · have hall : ∀ other ∈ asked :: questionable, (asking other).answered = true :=
          List.forall_mem_cons.mpr ⟨hasked, hrest⟩
        have before : P s' := (belies.step h' _ before).resolve_right (belies.answer asked.id)
        obtain before | ⟨step, hmem, hq⟩ := belies.of_runAll h (hduring ▸ before)
        · exact .inl ⟨before, hall⟩
        · refine .inr ⟨step, ?_, hq⟩
          rw [overlooked_of_answered (List.forall_mem_map.mpr hall)]
          exact List.mem_append_left _ hmem
      · exact .inr ⟨step, overlooked_subset_cons _ _ hmem, hq⟩

end AskedInTurn

end Course

/-! ### What belies a rejection -/

/-- The node's being a member belies its rejection. Only an offer brings an id into the table. -/
theorem belies_member (node : Member) :
    Belies node (fun s => node.id ∈ s.table.members.map Member.id)
      (fun step => ∃ other, step.Offers other ∧ other.id = node.id) where
  excluded htrue held := nomatch htrue.1.mpr held
  step {s} h step after := by
    obtain ⟨m, hm, hid⟩ := List.mem_map.mp after
    rw [← hid]
    cases Step.source_of_mem_run h hm with
    | kept held => exact .inl (List.mem_map_of_mem held)
    | touched sees held | failed fails held => exact .inl (List.mem_map.mpr ⟨_, held, rfl⟩)
    | entered offers absent => exact .inr ⟨_, offers, rfl⟩
    | renewed offers held known => exact .inr ⟨_, offers, (Member.id_renewed ..).symm⟩
  answer asked := by
    rintro ⟨other, ⟨⟩, -⟩

/-- There is room in the bucket that an id belongs to. -/
def Table.HasRoomFor (t : Table) (id : Key) : Prop :=
  ∃ i, t.bucketIndex? id = some i ∧ (t.bucket i).members.length < t.capacity

/-- Room for the node belies its rejection. Only a removal makes room. -/
theorem belies_room (node : Member) :
    Belies node (fun s => s.table.HasRoomFor node.id) (fun step => ∃ id, step = .remove id) where
  excluded htrue room := by
    obtain ⟨i, belongs, room⟩ := room
    obtain ⟨j, belongs', full⟩ := htrue.2 rfl
    cases belongs.symm.trans belongs'
    exact Nat.ne_of_lt room full
  step {s} _ step after := by
    by_cases hremove : ∃ id, step = .remove id
    · exact .inr hremove
    · obtain ⟨i, belongs, room⟩ := after
      obtain ⟨hlocal, hcapacity⟩ := step.frame_run s
      simp only [Table.bucketIndex?, hlocal, hcapacity] at belongs room
      have hshorter := step.length_le_run s (not_exists.mp hremove) i
      exact .inl ⟨i, belongs, Nat.lt_of_le_of_lt hshorter room⟩
  answer asked := nofun

/-! ### Offers from beginning to end -/

section Offers

variable {s : Situation} (h : s.table.WellFormed) {node : Member} {asking : Contact → Asking}

/-- An offer is settled when it is placed, or asks members in turn. -/
theorem Situation.offer_course (s : Situation) (node : Member) (asking : Contact → Asking) :
    (∃ outcome, (s.table.place s.now node).2 = .settled outcome ∧
      s.offer node asking = ((Step.place node).run s, outcome)) ∨
    ∃ questionable, (s.table.place s.now node).2 = .contested questionable ∧
      s.offer node asking = askInTurn ((Step.place node).run s) node asking questionable := by
  rw [offer]
  cases hplaced : (s.table.place s.now node).2 with
  | settled outcome => exact .inl ⟨outcome, rfl, rfl⟩
  | contested questionable => exact .inr ⟨questionable, rfl, rfl⟩

/-- An offer is a run of steps. -/
theorem Situation.exists_offer_eq_runAll (s : Situation) (node : Member)
    (asking : Contact → Asking) :
    ∃ steps, (s.offer node asking).1 = Step.runAll s (.place node :: steps) := by
  obtain ⟨outcome, -, hoffer⟩ | ⟨questionable, -, hoffer⟩ := s.offer_course node asking
  · exact ⟨[], congrArg Prod.fst hoffer⟩
  · rw [hoffer]
    exact (askInTurn_askedInTurn node asking _ questionable).exists_runAll

/-- A node that belongs to no bucket is ignored. -/
theorem Situation.offer_of_own (own : s.table.bucketIndex? node.id = none) :
    s.offer node asking = (s, .ignored) := by
  simp only [offer, Step.run, Table.place, own]

include h

/-- No member is asked twice. -/
theorem Situation.nodup_questionable (node : Member) :
    (s.table.place s.now node).2.questionable.Nodup := by
  have placed := s.table.place_placed s.now node
  generalize s.table.place s.now node = result at placed
  cases placed with
  | @contested i =>
      refine List.Nodup.of_map Contact.id ?_
      dsimp only [Placement.questionable]
      rw [List.map_map]
      exact (h.nodup i).sublist (List.filter_sublist.map _)
  | ignored | refreshed | added | replaced | rejected => exact List.nodup_nil

/-- A script of an offer is an offer. -/
theorem Situation.exists_insert_eq_offer (node : Member) (probes : List Probe) :
    ∃ asking, ((s.insert node probes).1, (s.insert node probes).2.1) = s.offer node asking := by
  have nodup := Situation.nodup_questionable h node
  simp only [insert, offer, Step.run]
  generalize s.table.place s.now node = placed at nodup ⊢
  obtain ⟨table, outcome | questionable⟩ := placed
  · exact ⟨fun _ => ⟨[], false⟩, rfl⟩
  · exact exists_ask_eq_askInTurn _ node probes nodup

/-- What is true of the table that an offer leaves when it is placed. -/
theorem Situation.isTrue_place (node : Member) :
    (match (s.table.place s.now node).2 with
      | .settled outcome => outcome
      | .contested _ => Outcome.rejected).IsTrue ((Step.place node).run s).table node.id := by
  have htrue := h.observe_isTrue s.now node
  rw [Step.run]
  rw [Table.observe] at htrue
  rcases hplaced : s.table.place s.now node with ⟨t, outcome | questionable⟩ <;>
    rw [hplaced] at htrue <;> exact htrue

/-- An outcome other than a rejection is true when the offer ends. -/
theorem Situation.offer_isTrue (decided : (s.offer node asking).2 ≠ .rejected) :
    (s.offer node asking).2.IsTrue (s.offer node asking).1.table node.id := by
  have htrue := Situation.isTrue_place h node
  obtain ⟨outcome, hplaced, hoffer⟩ | ⟨questionable, hplaced, hoffer⟩ := s.offer_course node asking
  · rw [hplaced] at htrue
    rwa [hoffer]
  · rw [hoffer] at decided ⊢
    have course := askInTurn_askedInTurn node asking ((Step.place node).run s) questionable
    exact course.isTrue (Step.wellFormed_run h _) decided

/-- **What belies the rejection of an offer was overlooked.** -/
theorem Situation.offer_of_rejected {P : Situation → Prop} {Q : Step → Prop}
    (belies : Belies node P Q) (rejected : (s.offer node asking).2 = .rejected)
    (after : P (s.offer node asking).1) :
    ∃ step ∈ overlooked ((s.table.place s.now node).2.questionable.map asking), Q step := by
  have htrue := Situation.isTrue_place h node
  obtain ⟨outcome, hplaced, hoffer⟩ | ⟨questionable, hplaced, hoffer⟩ := s.offer_course node asking
  · rw [hoffer] at rejected after
    obtain rfl : outcome = .rejected := rejected
    rw [hplaced] at htrue
    exact absurd after (belies.excluded htrue)
  · rw [hoffer] at rejected after
    rw [hplaced] at htrue ⊢
    have course := askInTurn_askedInTurn node asking ((Step.place node).run s) questionable
    obtain ⟨before, -⟩ | hoverlooked :=
      course.of_rejected belies (Step.wellFormed_run h _) rejected after
    · exact absurd before (belies.excluded htrue)
    · exact hoverlooked

end Offers

/-- **The outcome of an offer is true unless something was overlooked.** In every table that steps
from the empty one lead to, whatever happens while members are being asked and whoever answers:

* an outcome other than a rejection is true when the offer ends;
* a rejection is true as well, unless a step that was overlooked has offered the node too, or has
  removed a member. A step is overlooked if nobody has failed to answer since.

If all members answer, then nobody looks at the bucket again, and the node is rejected whatever has
become of it. Every script of an offer is an offer in this sense. -/
theorem outcome_true_unless_overlooked (localId : Key) (capacity : ℕ) (start : Instant)
    (before : List Step) (node : Member) :
    let s := Step.runAll ⟨.empty localId capacity start, start⟩ before
    (∀ asking : Contact → Asking,
      let questionable := (s.table.place s.now node).2.questionable
      let unnoticed := overlooked (questionable.map asking)
      let result := s.offer node asking
      (result.2 ≠ .rejected → result.2.IsTrue result.1.table node.id) ∧
      (result.2 = .rejected →
        (node.id ∈ result.1.table.members.map Member.id →
          ∃ step ∈ unnoticed, ∃ other, step.Offers other ∧ other.id = node.id) ∧
        ∃ i, result.1.table.bucketIndex? node.id = some i ∧
          ((result.1.table.bucket i).members.length ≠ capacity →
            ∃ step ∈ unnoticed, ∃ removed, step = .remove removed)) ∧
      (questionable ≠ [] → (∀ asked ∈ questionable, (asking asked).answered = true) →
        result = (Step.runAll s (.place node :: questionable.flatMap fun asked =>
          (asking asked).during ++ [.resume node asked.id true]), .rejected))) ∧
    ∀ probes : List Probe, ∃ asking : Contact → Asking,
      ((s.insert node probes).1, (s.insert node probes).2.1) = s.offer node asking := by
  intro s
  have hempty : (Table.empty localId capacity start).WellFormed :=
    Table.wellFormed_empty localId capacity start
  have h : s.table.WellFormed := Step.wellFormed_runAll hempty before
  have hcapacity : s.table.capacity = capacity := (Step.frame_runAll _ before).2
  clear_value s
  refine ⟨fun asking => ?_, Situation.exists_insert_eq_offer h node⟩
  intro questionable unnoticed result
  obtain ⟨steps, hsteps⟩ := s.exists_offer_eq_runAll node asking
  have hframe := Step.frame_runAll s (.place node :: steps)
  have hafter := Step.wellFormed_runAll h (.place node :: steps)
  rw [← hsteps] at hframe hafter
  refine ⟨Situation.offer_isTrue h, fun rejected => ⟨?_, ?_⟩, fun some answered => ?_⟩
  · exact Situation.offer_of_rejected h (belies_member node) rejected
  · cases hbelongs : s.table.bucketIndex? node.id with
    | none =>
        have hignored : result = (s, .ignored) := Situation.offer_of_own hbelongs
        rw [hignored] at rejected
        cases rejected
    | some i =>
        have hlocal : result.1.table.localId = s.table.localId := hframe.1
        have belongs : result.1.table.bucketIndex? node.id = .some i := by
          simpa only [Table.bucketIndex?, hlocal] using hbelongs
        refine ⟨i, belongs, fun hlength => ?_⟩
        have hbounded := hafter.bounded i
        rw [hframe.2, hcapacity] at hbounded
        refine Situation.offer_of_rejected h (belies_room node) rejected ⟨i, belongs, ?_⟩
        rw [hframe.2, hcapacity]
        exact Nat.lt_of_le_of_ne hbounded hlength
  · obtain ⟨outcome, hplaced, -⟩ | ⟨asks, hplaced, hoffer⟩ := s.offer_course node asking
    · exact absurd (congrArg Placement.questionable hplaced) some
    · have hasks : questionable = asks := congrArg Placement.questionable hplaced
      rw [hasks] at answered ⊢
      exact hoffer.trans (askInTurn_of_answered node asking _ answered)

/-- A full bucket of one: while its member is being asked, it is removed, and the node is offered
once more and enters. The member answers nevertheless, and the offer is rejected. -/
theorem rejected_though_stored :
    let contact (n : ℕ) : Contact := ⟨⟨BitVec.allOnes 160 - BitVec.ofNat 160 n⟩, default⟩
    let s := Operation.runAll ⟨.empty ⟨0⟩ 1 0, 0⟩ [.observe (contact 1) .hearsay]
    let during : List Operation := [.remove (contact 1).id, .observe (contact 2) .hearsay]
    let result := s.insert (.hearsay (contact 2)) [.mk during true]
    result.2 = (.rejected, [contact 1]) ∧
      (contact 2).id ∈ result.1.table.members.map Member.id := by
  decide +kernel

/-- The same as an offer: the step by which the node has entered is overlooked. -/
theorem stored_by_overlooked_step :
    let contact (n : ℕ) : Contact := ⟨⟨BitVec.allOnes 160 - BitVec.ofNat 160 n⟩, default⟩
    let node : Member := .hearsay (contact 2)
    let s := Step.runAll ⟨.empty ⟨0⟩ 1 0, 0⟩ [.observe (.hearsay (contact 1))]
    let asking : Contact → Asking := fun _ => ⟨[.remove (contact 1).id, .observe node], true⟩
    let result := s.offer node asking
    result.2 = .rejected ∧ node.id ∈ result.1.table.members.map Member.id ∧
      ∃ step ∈ overlooked [asking (contact 1)],
        ∃ other, step.Offers other ∧ other.id = node.id := by
  intro contact node s asking result
  have rejected : result.2 = .rejected := by decide +kernel
  have held : node.id ∈ result.1.table.members.map Member.id := by decide +kernel
  have hasked : (s.table.place s.now node).2.questionable = [contact 1] := by decide +kernel
  have law :=
    (outcome_true_unless_overlooked ⟨0⟩ 1 0 [.observe (.hearsay (contact 1))] node).1 asking
  have hoverlooked : overlooked ((s.table.place s.now node).2.questionable.map asking) =
      overlooked [asking (contact 1)] := congrArg (overlooked ∘ List.map asking) hasked
  exact ⟨rejected, held, hoverlooked ▸ (law.2.1 rejected).1 held⟩

end Mainline.Routing
