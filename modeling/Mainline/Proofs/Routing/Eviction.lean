import Mainline.Proofs.Routing.Source

/-!
# Good members and evictions

An offer to a full bucket notes which members are questionable, and asks them later. By the time
a member has failed to answer, others may have heard from it, and it may be good again. This
module says when that costs a good member its place.

Nothing but a sign of life makes a member good (`Step.Revives`). So the member that an offer
evicts after asking it in vain is not good, unless a step in between has revived it; the offer does
not look at its standing again, and one sign of life while it is being asked is enough.

## Main results

* `Step.good_of_good_run`: a member is good after a step only if it was before, or is revived.
* `good_evicted_only_if_revived`: whom an offer evicts, and when such a member can be good.
-/

namespace Mainline

/-! ### Standing -/

theorem Member.standing_eq_good_iff (m : Member) (now : Instant) :
    m.standing now = .good ↔
      m.failures = 0 ∧ ∃ last, m.lastActive = some last ∧ elapsed last now < goodFor := by
  rw [standing]
  split
  · next hbad =>
      simp only [reduceCtorEq, false_iff]
      rintro ⟨hzero, -⟩
      rw [hzero] at hbad
      exact absurd hbad (by decide)
  · cases hlast : m.lastActive with
    | none => simp
    | some last => simp

/-- A member that is good was good before, unless something has happened to it. -/
theorem Member.good_of_good_later {m : Member} {now later : Instant} (hle : now ≤ later)
    (good : m.standing later = .good) : m.standing now = .good := by
  rw [standing_eq_good_iff] at good ⊢
  obtain ⟨hzero, last, hlast, hrecent⟩ := good
  refine ⟨hzero, last, hlast, Nat.lt_of_le_of_lt ?_ hrecent⟩
  exact Int.toNat_le_toNat (Int.sub_le_sub_right hle last)

/-- A member is good at a sign of life. -/
theorem Member.standing_touch (m : Member) (now : Instant) :
    (m.touch now).standing now = .good := by
  rw [standing_eq_good_iff]
  exact ⟨rfl, now, rfl, by simp [elapsed, goodFor]⟩

theorem Member.not_good_fail (m : Member) (now : Instant) : m.fail.standing now ≠ .good := by
  rw [ne_eq, standing_eq_good_iff]
  rintro ⟨hzero, -⟩
  simp only [fail, maxFailures] at hzero
  omega

theorem Member.not_good_of_inactive {m : Member} (hnone : m.lastActive = none) (now : Instant) :
    m.standing now ≠ .good := by
  rw [ne_eq, standing_eq_good_iff, hnone]
  rintro ⟨-, last, ⟨⟩, -⟩

/-- An offer that tells of no activity does not make a member good. -/
theorem Member.standing_renewed {m node : Member} (hnone : node.lastActive = none)
    (now : Instant) : (m.renewed node now).standing now = m.standing now := by
  simp [renewed, hnone, standing]

end Mainline

namespace Mainline.Routing

/-! ### Signs of life -/

/-- The step **revives** the node with this id: it is a sign of life, or an offer that tells of
some activity of the node. -/
inductive Step.Revives (id : Key) (step : Step) : Prop
  | sees (sees : step.Sees id)
  | offers {node : Member} (offers : step.Offers node) (named : node.id = id)
      (active : node.lastActive ≠ none)

/-- In the situation, the table holds a **good** member with this id. -/
def Situation.HoldsGood (s : Situation) (id : Key) : Prop :=
  ∃ m ∈ s.table.members, m.id = id ∧ m.standing s.now = .good

/-- Time does not run backwards. -/
theorem Step.now_le_run (s : Situation) (step : Step) : s.now ≤ (step.run s).now := by
  cases step with
  | wait duration => exact Int.le_add_of_nonneg_right (Int.natCast_nonneg duration)
  | _ => exact Int.le_refl _

/-- **A member is good after a step only if it was before**, or the step revives it. -/
theorem Step.good_of_good_run {s : Situation} (h : s.table.WellFormed) {step : Step} {id : Key}
    (good : (step.run s).HoldsGood id) : step.Revives id ∨ s.HoldsGood id := by
  obtain ⟨m, hm, rfl, good⟩ := good
  have good : m.standing s.now = .good := Member.good_of_good_later (step.now_le_run s) good
  cases Step.source_of_mem_run h hm with
  | kept held => exact .inr ⟨m, held, rfl, good⟩
  | entered offers absent =>
      exact .inl (.offers offers rfl fun hnone => Member.not_good_of_inactive hnone s.now good)
  | @renewed node old offers held known =>
      rw [Member.id_renewed]
      by_cases hnone : node.lastActive = none
      · rw [Member.standing_renewed hnone] at good
        exact .inr ⟨old, held, known, good⟩
      · exact .inl (.offers offers rfl hnone)
  | touched sees held => exact .inl (.sees sees)
  | failed fails held => exact absurd good (Member.not_good_fail _ s.now)

/-- A member is good after a run of steps only if it was before, or one of them revives it. -/
theorem Step.good_of_good_runAll {s : Situation} (h : s.table.WellFormed) {steps : List Step}
    {id : Key} (good : (Step.runAll s steps).HoldsGood id) :
    (∃ step ∈ steps, step.Revives id) ∨ s.HoldsGood id := by
  induction steps generalizing s with
  | nil => exact .inr good
  | cons step steps ih =>
      obtain ⟨later, hmem, revives⟩ | good := ih (step.wellFormed_run h) good
      · exact .inl ⟨later, List.mem_cons_of_mem _ hmem, revives⟩
      · obtain revives | good := Step.good_of_good_run h good
        · exact .inl ⟨step, List.mem_cons_self, revives⟩
        · exact .inr good

/-- A member that has been seen is good. -/
theorem Step.holdsGood_markSeen {s : Situation} (h : s.table.WellFormed) {id : Key}
    (held : id ∈ s.table.members.map Member.id) :
    ((Step.markSeen id).run s).HoldsGood id := by
  obtain ⟨i, hid⟩ := (s.table.mem_ids_iff id).mp held
  have belongs := (s.table.bucketIndex?_eq_some_iff id i).mpr (h.shared i id hid)
  obtain ⟨m, hm, rfl⟩ := List.mem_map.mp hid
  refine ⟨m.touch s.now, ?_, rfl, m.standing_touch s.now⟩
  have hfound : ((s.table.bucket i).find? m.id).isSome = true :=
    (Bucket.isSome_find?_iff _ _).mpr hid
  rw [Step.run, Table.markSeen, belongs]
  simp only [hfound, if_true]
  refine Table.mem_members_of_bucket (i := i) ?_
  rw [Table.modifyBucket_same]
  exact List.mem_map.mpr ⟨m, hm, if_pos rfl⟩

/-! ### The members an offer asks -/

/-- Whom an offer is going to ask belongs to its bucket, and is not good. -/
theorem Table.WellFormed.questionable_of_contested {t : Table} (h : t.WellFormed) {now : Instant}
    {node : Member} {questionable : List Contact}
    (contested : (t.place now node).2 = .contested questionable) {asked : Contact}
    (hasked : asked ∈ questionable) :
    (t.place now node).1 = t ∧
      (∃ i, t.bucketIndex? node.id = some i ∧ t.bucketIndex? asked.id = some i) ∧
      ∀ m ∈ t.members, m.id = asked.id → m.standing now ≠ .good := by
  have placed := t.place_placed now node
  generalize t.place now node = result at placed contested ⊢
  cases placed with
  | @contested i belongs absent full fair doubt =>
      cases contested
      obtain ⟨m, hm, rfl⟩ := List.mem_map.mp hasked
      obtain ⟨hin, hstanding⟩ := List.mem_filter.mp hm
      have hshared := h.shared i m.id (List.mem_map_of_mem hin)
      refine ⟨rfl, ⟨i, belongs, (t.bucketIndex?_eq_some_iff _ _).mpr hshared⟩, ?_⟩
      intro m' hm' hid
      rw [h.member_ext hm' (Table.mem_members_of_bucket hin) hid, of_decide_eq_true hstanding]
      nofun
  | ignored | refreshed | added | replaced | rejected => cases contested

/-- **A good member is evicted only if it has been revived** after the offer had found it
questionable. In every table that steps from the empty one lead to, an offer evicts

* bad members only, when it is placed;
* nobody, when a member that it has asked answers;
* that member, when it does not, unless the node has become a member meanwhile.

A member that is evicted in this last way is not good, unless a step since the offer was placed has
revived it. The offer does not look at its standing again, and so a sign of life just before is
enough: the member is good then, and evicted. -/
theorem good_evicted_only_if_revived (localId : Key) (capacity : ℕ) (start : Instant)
    (before : List Step) (offered : Member) :
    let s := Step.runAll ⟨.empty localId capacity start, start⟩ before
    (∀ m ∈ s.table.members,
      m.id ∉ (s.table.place s.now offered).1.members.map Member.id → m.standing s.now = .bad) ∧
    ∀ questionable, (s.table.place s.now offered).2 = .contested questionable →
      ∀ asked ∈ questionable, ∀ between : List Step,
        let s' := Step.runAll s (.place offered :: between)
        (∀ id ∈ s'.table.members.map Member.id,
          id ∈ (s'.table.resume s'.now offered asked.id true).1.members.map Member.id ∧
          (id ∉ (s'.table.resume s'.now offered asked.id false).1.members.map Member.id ↔
            id = asked.id ∧ offered.id ∉ s'.table.members.map Member.id)) ∧
        (s'.HoldsGood asked.id → ∃ step ∈ between, step.Revives asked.id) ∧
        ∀ earlier, between = earlier ++ [.markSeen asked.id] →
          asked.id ∈ s'.table.members.map Member.id → s'.HoldsGood asked.id := by
  intro s
  have hempty : (Table.empty localId capacity start).WellFormed :=
    Table.wellFormed_empty localId capacity start
  have h : s.table.WellFormed := Step.wellFormed_runAll hempty before
  refine ⟨fun m held lost => h.bad_of_lost_place held lost, ?_⟩
  intro questionable contested asked hasked between s'
  obtain ⟨hsame, ⟨i, belongs, askedBelongs⟩, hstanding⟩ :=
    h.questionable_of_contested contested hasked
  have hplaced : (Step.place offered).run s = s := by
    rw [Step.run, hsame]
  have h' : s'.table.WellFormed := Step.wellFormed_runAll h _
  have hindex : ∀ id, s'.table.bucketIndex? id = s.table.bucketIndex? id := by
    intro id
    simp only [Table.bucketIndex?, (Step.frame_runAll s (.place offered :: between)).1, s']
  refine ⟨fun id held => ⟨?_, ?_⟩, fun good => ?_, ?_⟩
  · exact (s'.table.mem_ids_resume_answered_iff s'.now offered asked.id id).mpr held
  · rw [← hindex] at belongs askedBelongs
    exact h'.lost_resume_iff belongs askedBelongs held
  · have hs' : s' = Step.runAll s between := by
      simp only [s', Step.runAll_cons, hplaced]
    rw [hs'] at good
    obtain hrevived | ⟨m, held, hid, good⟩ := Step.good_of_good_runAll h good
    · exact hrevived
    · exact absurd good (hstanding m held hid)
  · rintro earlier rfl held
    have hlast : s' = (Step.markSeen asked.id).run (Step.runAll s (.place offered :: earlier)) := by
      simp only [s', Step.runAll_cons, Step.runAll_append, Step.runAll_nil]
    rw [hlast] at held ⊢
    refine Step.holdsGood_markSeen (Step.wellFormed_runAll h _) ?_
    exact (Table.mem_ids_congr (Table.ids_bucket_markSeen _ _ _) _).mp held

/-- A full bucket of one: its member is asked, is heard from meanwhile, and does not answer. It is
good when its failure is noted, and the offer evicts it. -/
theorem good_member_evicted :
    let contact (n : ℕ) : Contact := ⟨⟨BitVec.allOnes 160 - BitVec.ofNat 160 n⟩, default⟩
    let s := Operation.runAll ⟨.empty ⟨0⟩ 1 0, 0⟩ [.observe (contact 1) .hearsay]
    let during : List Operation := [.markSeen (contact 1).id]
    let s' := Operation.runAll s during
    (s'.table.get? (contact 1).id).map (·.standing s'.now) = some .good ∧
      (s.insert (.active (contact 2) 0) [.mk during false]).2 =
        (.replaced (contact 1).id, [contact 1]) := by
  decide +kernel

/-- The same as a run of steps: the member is good, which takes a step that has revived it. -/
theorem good_member_revived :
    let contact (n : ℕ) : Contact := ⟨⟨BitVec.allOnes 160 - BitVec.ofNat 160 n⟩, default⟩
    let offered : Member := .active (contact 2) 0
    let s := Step.runAll ⟨.empty ⟨0⟩ 1 0, 0⟩ [.observe (.hearsay (contact 1))]
    let between : List Step := [.markSeen (contact 1).id]
    let s' := Step.runAll s (.place offered :: between)
    (s.table.place s.now offered).2 = .contested [contact 1] ∧
      (contact 1).id ∈ s'.table.members.map Member.id ∧ s'.HoldsGood (contact 1).id ∧
      ∃ step ∈ between, step.Revives (contact 1).id := by
  intro contact offered s between s'
  have contested : (s.table.place s.now offered).2 = .contested [contact 1] := by decide +kernel
  have held : (contact 1).id ∈ s'.table.members.map Member.id := by decide +kernel
  have law := (good_evicted_only_if_revived ⟨0⟩ 1 0 [.observe (.hearsay (contact 1))] offered).2
    [contact 1] contested (contact 1) List.mem_cons_self between
  have good : s'.HoldsGood (contact 1).id := law.2.2 [] rfl held
  exact ⟨contested, held, good, law.2.1 good⟩

end Mainline.Routing
