import Mainline.Proofs.Routing.Source

/-!
# Failures of members

A step counts a failure against one member at most, the one that it is told of (`Step.Fails`).
Everybody else keeps a place with no more failures than before, or had failed too often already and
is evicted. The member that an offer has asked in vain gets no such treatment: it fails once more,
or is evicted for the node that is offered.

## Main results

* `Step.spared_run`, `Step.spared_runAll`: how members fare that a step, or a run of steps, does not
  fail.
* `Table.WellFormed.failed_or_lost_resume`: how the member fares that has been asked in vain.
-/

namespace Mainline

/-- Renewing a member adds no failure. -/
theorem Member.failures_renewed_le (m node : Member) (now : Instant) :
    (m.renewed node now).failures ≤ m.failures := by
  rw [renewed]
  split
  · exact Nat.zero_le _
  · exact Nat.le_refl _

/-- Whether a member is bad does not depend on the time. -/
theorem Member.standing_eq_bad_iff (m : Member) (now : Instant) :
    m.standing now = .bad ↔ failuresUntilBad ≤ m.failures := by
  rw [standing]
  split
  · next hbad => exact iff_of_true rfl hbad
  · next hfew =>
      refine iff_of_false ?_ hfew
      cases m.lastActive with
      | none => nofun
      | some last => dsimp only; split <;> nofun

end Mainline

namespace Mainline.Routing

variable {s : Situation} {m : Member}

/-- An offer that goes on evicts the member that has been asked in vain, or nobody. -/
theorem Table.WellFormed.eq_asked_of_lost_resume {t : Table} (h : t.WellFormed) {now : Instant}
    {node : Member} {asked id : Key} (held : id ∈ t.members.map Member.id)
    (lost : id ∉ (t.resume now node asked false).1.members.map Member.id) : id = asked := by
  have hmarked : (t.markFailed asked).WellFormed := (t.edit_markFailed asked).wellFormed h
  rw [← Table.mem_ids_congr (t.ids_bucket_markFailed asked)] at held
  have resumed := t.resume_resumed now node asked
  generalize t.resume now node asked false = result at resumed lost
  cases resumed with
  | ignored | refreshed | undecided => exact absurd held lost
  | replaced belongs absent found =>
      exact ((Bucket.lost_replace_iff absent).mp (hmarked.lost_modifyBucket_iff.mp ⟨held, lost⟩)).1
  | added belongs absent gone room =>
      obtain ⟨hin, hgone⟩ := hmarked.lost_modifyBucket_iff.mp ⟨held, lost⟩
      rw [Bucket.ids_push] at hgone
      exact absurd (List.mem_append_left _ hin) hgone

/-- A step loses a member only if the member is bad or the step fails it. -/
theorem Step.bad_of_lost_run (h : s.table.WellFormed) {step : Step}
    (hremove : ∀ id, step ≠ .remove id) (held : m ∈ s.table.members)
    (lost : m.id ∉ (step.run s).table.members.map Member.id) (spared : ¬ step.Fails m.id) :
    m.standing s.now = .bad := by
  have hid : m.id ∈ s.table.members.map Member.id := List.mem_map_of_mem held
  cases step with
  | observe node =>
      simp only [Step.run, Table.fst_observe] at lost
      exact h.bad_of_lost_place held lost
  | place node => exact h.bad_of_lost_place held lost
  | resume node asked answered =>
      cases answered with
      | true =>
          exact absurd ((s.table.mem_ids_resume_answered_iff s.now node asked m.id).mpr hid) lost
      | false => exact absurd (h.eq_asked_of_lost_resume hid lost ▸ .resume node) spared
  | remove id => exact absurd rfl (hremove id)
  | markFailed id =>
      exact absurd ((Table.mem_ids_congr (s.table.ids_bucket_markFailed id) m.id).mpr hid) lost
  | markSeen id =>
      exact absurd ((Table.mem_ids_congr (s.table.ids_bucket_markSeen s.now id) m.id).mpr hid) lost
  | wait duration => exact absurd hid lost

/-- **A member that a step does not fail** is still held, with no more failures, or it was bad and
is evicted. -/
theorem Step.spared_run (h : s.table.WellFormed) {step : Step} (hremove : ∀ id, step ≠ .remove id)
    (held : m ∈ s.table.members) (spared : ¬ step.Fails m.id) :
    (∃ m' ∈ (step.run s).table.members, m'.id = m.id ∧ m'.failures ≤ m.failures) ∨
      m.standing s.now = .bad ∧ m.id ∉ (step.run s).table.members.map Member.id := by
  by_cases hid : m.id ∈ (step.run s).table.members.map Member.id
  · obtain ⟨m', hm', hsame⟩ := List.mem_map.mp hid
    refine .inl ⟨m', hm', hsame, ?_⟩
    cases Step.source_of_mem_run h hm' with
    | kept held' =>
        exact Nat.le_of_eq (congrArg Member.failures (h.member_ext held' held hsame))
    | entered offers absent => exact absurd (hsame ▸ List.mem_map_of_mem held) absent
    | @renewed node old offers held' known =>
        rw [Member.id_renewed, ← known] at hsame
        rw [← h.member_ext held' held hsame]
        exact old.failures_renewed_le node s.now
    | touched sees held' => exact Nat.zero_le _
    | @failed old fails held' => exact absurd (hsame ▸ fails) spared
  · exact .inr ⟨Step.bad_of_lost_run h hremove held hid spared, hid⟩

/-- **A member that a run of steps does not fail** is still held, with no more failures, or it was
bad and is evicted by one of the steps. -/
theorem Step.spared_runAll (h : s.table.WellFormed) {steps : List Step}
    (hremove : ∀ step ∈ steps, ∀ id, step ≠ .remove id) (held : m ∈ s.table.members)
    (spared : ∀ step ∈ steps, ¬ step.Fails m.id) :
    (∃ m' ∈ (Step.runAll s steps).table.members, m'.id = m.id ∧ m'.failures ≤ m.failures) ∨
      m.standing s.now = .bad ∧
        ∃ earlier, earlier <+: steps ∧ m.id ∉ (Step.runAll s earlier).table.members.map Member.id := by
  induction steps generalizing s m with
  | nil => exact .inl ⟨m, held, rfl, Nat.le_refl _⟩
  | cons step steps ih =>
      obtain ⟨hfirst, hrest⟩ := List.forall_mem_cons.mp hremove
      obtain ⟨sparedFirst, sparedRest⟩ := List.forall_mem_cons.mp spared
      obtain ⟨m', held', hid, hle⟩ | ⟨bad, lost⟩ := Step.spared_run h hfirst held sparedFirst
      · rw [← hid] at sparedRest
        obtain ⟨m'', held'', hid', hle'⟩ | ⟨bad, earlier, hprefix, lost⟩ :=
          ih (step.wellFormed_run h) hrest held' sparedRest
        · exact .inl ⟨m'', held'', hid'.trans hid, Nat.le_trans hle' hle⟩
        · refine .inr ⟨?_, step :: earlier, List.cons_prefix_cons.mpr ⟨rfl, hprefix⟩, hid ▸ lost⟩
          rw [Member.standing_eq_bad_iff] at bad ⊢
          exact Nat.le_trans bad hle
      · refine .inr ⟨bad, [step], ?_, lost⟩
        exact List.cons_prefix_cons.mpr ⟨rfl, List.nil_prefix⟩

/-- Marking a failure fails the member. -/
theorem Table.WellFormed.fail_mem_markFailed {t : Table} (h : t.WellFormed)
    (held : m ∈ t.members) : m.fail ∈ (t.markFailed m.id).members := by
  obtain ⟨i, hm⟩ := (t.mem_members_iff m).mp held
  have hid : m.id ∈ (t.bucket i).ids := List.mem_map_of_mem hm
  have belongs := (t.bucketIndex?_eq_some_iff m.id i).mpr (h.shared i m.id hid)
  rw [Table.markFailed, belongs]
  refine Table.mem_members_of_bucket (i := i) ?_
  rw [Table.modifyBucket_same]
  exact List.mem_map.mpr ⟨m, hm, if_pos rfl⟩

/-- **The member that has been asked in vain** fails once more, or is evicted. -/
theorem Table.WellFormed.failed_or_lost_resume {t : Table} (h : t.WellFormed) (now : Instant)
    (node : Member) (held : m ∈ t.members) :
    m.fail ∈ (t.resume now node m.id false).1.members ∨
      m.id ∉ (t.resume now node m.id false).1.members.map Member.id := by
  have hfailed := h.fail_mem_markFailed held
  have hmarked : (t.markFailed m.id).WellFormed := (t.edit_markFailed m.id).wellFormed h
  have resumed := t.resume_resumed now node m.id
  generalize t.resume now node m.id false = result at resumed ⊢
  cases resumed with
  | ignored | refreshed | undecided => exact .inl hfailed
  | replaced belongs absent found =>
      refine .inr (hmarked.lost_modifyBucket_iff.mpr ?_).2
      exact (Bucket.lost_replace_iff absent).mpr ⟨rfl, found⟩
  | @added i belongs absent gone room =>
      obtain ⟨j, hm⟩ := ((t.markFailed m.id).mem_members_iff m.fail).mp hfailed
      refine .inl (Table.mem_members_of_bucket (i := j) ?_)
      by_cases hj : j = i
      · subst hj
        exact absurd (List.mem_map_of_mem hm) gone
      · rw [Table.modifyBucket_other _ _ hj]
        exact hm

end Mainline.Routing
