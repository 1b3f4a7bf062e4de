import Mathlib.Data.List.Induction
import Mainline.Proofs.Routing.Eviction

/-!
# Buckets that are up to date

A bucket notes when it last changed, and one that has not changed for long is refreshed. It should
not be while its members are heard from: no member should have been active later than its bucket
has changed. A member that enters, or that is marked as seen, sets the time of its bucket. But an
offer of a node that is a member already makes the member active and leaves the time as it was: it
is *unmarked* (`Step.Unmarked`).

So no member is dated later than its bucket, except where an unmarked offer has set its date
(`Step.dated_runAll`); and a bucket is stale though a member has been active lately only if an
unmarked offer has told of that.

## Main results

* `Step.keeps_run`: how members come by their dates in one step.
* `Step.dated_runAll`: who has set the date of a member that is ahead of its bucket.
* `Operation.timely_stepsAll`: no script tells of activity that is still to come.
* `Table.staleBuckets_place_of_mem`: an offer of a member leaves a stale bucket stale.
* `buckets_up_to_date_iff_marked`: the law, for every table that steps lead to.
-/

namespace Mainline

/-- The member was last active at that instant at the latest, if it ever was. -/
def Member.ActiveBy (m : Member) (instant : Instant) : Prop :=
  ∀ last ∈ m.lastActive, last ≤ instant

instance (m : Member) (instant : Instant) : Decidable (m.ActiveBy instant) :=
  inferInstanceAs (Decidable (∀ _ ∈ _, _))

theorem Member.ActiveBy.mono {m : Member} {earlier later : Instant} (h : m.ActiveBy earlier)
    (hle : earlier ≤ later) : m.ActiveBy later :=
  fun last hlast => Int.le_trans (h last hlast) hle

theorem Member.activeBy_of_eq {m : Member} {last : Instant} (h : m.lastActive = some last) :
    m.ActiveBy last := by
  intro last' hlast'
  rw [h, Option.mem_some_iff] at hlast'
  exact Int.le_of_eq hlast'.symm

theorem Member.lastActive_renewed (m node : Member) (now : Instant) :
    (m.renewed node now).lastActive =
      if node.lastActive.isSome then some now else m.lastActive := by
  rw [renewed]
  split <;> rfl

end Mainline

namespace Mainline.Routing

/-! ### What a step makes of a bucket -/

/-- Where the date of a member comes from that a bucket `b'` holds and that `b` has become. -/
inductive Dated (unmarked : Key → Prop) (now : Instant) (b b' : Bucket) (m : Member) : Prop
  | kept {old : Member} (held : old ∈ b.members) (known : old.id = m.id)
      (same : m.lastActive = old.lastActive) : Dated unmarked now b b' m
  | current (active : m.ActiveBy b'.changed) : Dated unmarked now b b' m
  | unmarked (unnoticed : unmarked m.id) (active : m.lastActive = some now) :
      Dated unmarked now b b' m

/-- The bucket `b'` that `b` becomes **keeps its dates**: it changed when `b` did or has changed
now, and the date of each member comes from somewhere. -/
structure Bucket.Keeps (unmarked : Key → Prop) (now : Instant) (b b' : Bucket) : Prop where
  changed : b'.changed = b.changed ∨ b'.changed = now
  dated : ∀ m ∈ b'.members, Dated unmarked now b b' m

namespace Bucket.Keeps

variable {unmarked : Key → Prop} {now : Instant} {b : Bucket} {node : Member} {id : Key}

theorem refl : b.Keeps unmarked now b :=
  ⟨.inl rfl, fun _ hm => .kept hm rfl rfl⟩

theorem push (active : node.ActiveBy now) : b.Keeps unmarked now (b.push node now) := by
  refine ⟨.inr rfl, fun m hm => ?_⟩
  rcases List.mem_append.mp hm with hm | hm
  · exact .kept hm rfl rfl
  · obtain rfl := List.mem_singleton.mp hm
    exact .current active

theorem replace (active : node.ActiveBy now) : b.Keeps unmarked now (b.replace id node now) := by
  refine ⟨.inr rfl, fun m hm => ?_⟩
  obtain ⟨old, hold, heq⟩ := List.mem_map.mp hm
  split at heq
  · exact heq ▸ .current active
  · exact heq ▸ .kept hold rfl rfl

theorem modify {f : Member → Member}
    (hf : ∀ m ∈ b.members, m.id = id → Dated unmarked now b (b.modify id f) (f m)) :
    b.Keeps unmarked now (b.modify id f) := by
  refine ⟨.inl rfl, fun m hm => ?_⟩
  obtain ⟨old, hold, heq⟩ := List.mem_map.mp hm
  split at heq
  · next hid => exact heq ▸ hf old hold hid
  · exact heq ▸ .kept hold rfl rfl

theorem touch : b.Keeps unmarked now { b.modify id (·.touch now) with changed := now } := by
  refine ⟨.inr rfl, fun m hm => ?_⟩
  obtain ⟨old, hold, heq⟩ := List.mem_map.mp hm
  split at heq
  · exact heq ▸ .current (Member.activeBy_of_eq rfl)
  · exact heq ▸ .kept hold rfl rfl

theorem erase : b.Keeps unmarked now (b.erase id) :=
  ⟨.inl rfl, fun _ hm => .kept (List.mem_of_mem_filter hm) rfl rfl⟩

/-- What happens to a bucket in which members have failed might as well have happened before. -/
theorem of_fail {b' : Bucket} (h : (b.modify id Member.fail).Keeps unmarked now b') :
    b.Keeps unmarked now b' := by
  refine ⟨h.changed, fun m hm => ?_⟩
  cases h.dated m hm with
  | current active => exact .current active
  | unmarked unnoticed active => exact .unmarked unnoticed active
  | @kept old held known same =>
      obtain ⟨older, holder, heq⟩ := List.mem_map.mp held
      split at heq
      · subst heq
        exact .kept holder known same
      · subst heq
        exact .kept holder known same

end Bucket.Keeps

/-! ### What a step makes of a table -/

/-- The step **leaves its bucket unmarked**: it offers a node that is a member and tells of its
activity, and the bucket last changed before now. -/
inductive Step.Unmarked (s : Situation) (step : Step) (id : Key) : Prop
  | offered {node : Member} {i : Fin 160} (places : step = .observe node ∨ step = .place node)
      (known : node.id = id) (belongs : s.table.bucketIndex? node.id = some i)
      (present : node.id ∈ (s.table.bucket i).ids) (active : node.lastActive.isSome = true)
      (earlier : (s.table.bucket i).changed < s.now) : Unmarked s step id

/-- The step is **timely** if it does not tell of activity that is still to come. -/
def Step.Timely (s : Situation) : Step → Prop
  | .observe node | .place node | .resume node _ _ => node.ActiveBy s.now
  | .remove _ | .markFailed _ | .markSeen _ | .wait _ => True

instance (s : Situation) : DecidablePred (Step.Timely s)
  | .observe node | .place node | .resume node _ _ =>
    inferInstanceAs (Decidable (node.ActiveBy s.now))
  | .remove _ | .markFailed _ | .markSeen _ | .wait _ => inferInstanceAs (Decidable True)

/-- The table is **up to date** if no member was active later than its bucket has changed. -/
def Table.UpToDate (t : Table) : Prop :=
  ∀ i, ∀ m ∈ (t.bucket i).members, m.ActiveBy (t.bucket i).changed

/-- No bucket has changed later than now. -/
def Situation.Past (s : Situation) : Prop :=
  ∀ i, (s.table.bucket i).changed ≤ s.now

section Tables

variable {s : Situation} {unmarked : Key → Prop}

/-- A change of one bucket that keeps the dates of that bucket keeps those of all. -/
theorem Table.keeps_modifyBucket {t : Table} {now : Instant} {i : Fin 160} {f : Bucket → Bucket}
    (h : (t.bucket i).Keeps unmarked now (f (t.bucket i))) (j : Fin 160) :
    (t.bucket j).Keeps unmarked now ((t.modifyBucket i f).bucket j) := by
  by_cases hj : j = i
  · subst hj
    rwa [modifyBucket_same]
  · rw [modifyBucket_other t f hj]
    exact .refl

theorem Table.keeps_markSeen (t : Table) (now : Instant) (id : Key) (j : Fin 160) :
    (t.bucket j).Keeps unmarked now ((t.markSeen now id).bucket j) := by
  obtain hsame | ⟨i, hchange⟩ := t.markSeen_cases now id
  · rw [hsame]
    exact .refl
  · rw [hchange]
    exact keeps_modifyBucket .touch j

/-- A failure that is marked first changes no date. -/
theorem Table.keeps_of_markFailed {t : Table} {now : Instant} {id : Key} {j : Fin 160} {b' : Bucket}
    (h : ((t.markFailed id).bucket j).Keeps unmarked now b') :
    (t.bucket j).Keeps unmarked now b' := by
  obtain hsame | ⟨i, hchange⟩ := t.markFailed_cases id
  · rwa [hsame] at h
  · rw [hchange] at h
    by_cases hj : j = i
    · subst hj
      rw [modifyBucket_same] at h
      exact h.of_fail
    · rwa [modifyBucket_other t _ hj] at h

theorem Table.keeps_remove (t : Table) (now : Instant) (id : Key) (j : Fin 160) :
    (t.bucket j).Keeps unmarked now ((t.remove id).1.bucket j) := by
  rw [remove]
  split
  · exact .refl
  · split
    · exact .refl
    · exact keeps_modifyBucket .erase j

theorem Situation.Past.keeps_place (past : s.Past) {node : Member} (active : node.ActiveBy s.now)
    {step : Step} (places : step = .observe node ∨ step = .place node) (j : Fin 160) :
    (s.table.bucket j).Keeps (step.Unmarked s) s.now ((s.table.place s.now node).1.bucket j) := by
  have placed := s.table.place_placed s.now node
  generalize s.table.place s.now node = result at placed ⊢
  cases placed with
  | ignored | rejected | contested => exact .refl
  | added => exact Table.keeps_modifyBucket (.push active) j
  | replaced => exact Table.keeps_modifyBucket (.replace active) j
  | @refreshed i belongs present =>
      refine Table.keeps_modifyBucket (.modify fun m hm hid => ?_) j
      have hlast := m.lastActive_renewed node s.now
      by_cases told : node.lastActive.isSome = true
      · rw [if_pos told] at hlast
        rcases Int.lt_or_eq_of_le (past i) with earlier | now
        · have hid := (m.id_renewed node s.now).symm
          exact .unmarked (.offered places hid belongs present told earlier) hlast
        · exact .current ((Member.activeBy_of_eq hlast).mono (Int.le_of_eq now.symm))
      · rw [if_neg told] at hlast
        exact .kept hm (hid.trans (m.id_renewed node s.now).symm) hlast

theorem Table.keeps_resume (t : Table) {now : Instant} {node : Member} (active : node.ActiveBy now)
    (asked : Key) (answered : Bool) (j : Fin 160) :
    (t.bucket j).Keeps unmarked now ((t.resume now node asked answered).1.bucket j) := by
  cases answered with
  | true => exact t.keeps_markSeen now asked j
  | false =>
      have resumed := t.resume_resumed now node asked
      generalize t.resume now node asked false = result at resumed ⊢
      suffices h : ((t.markFailed asked).bucket j).Keeps unmarked now (result.1.bucket j) from
        keeps_of_markFailed h
      cases resumed with
      | ignored | refreshed | undecided => exact .refl
      | replaced => exact keeps_modifyBucket (.replace active) j
      | added => exact keeps_modifyBucket (.push active) j

/-- **How members come by their dates in one step**: they have kept them, or their bucket is not
behind, or the step is unmarked. -/
theorem Step.keeps_run (past : s.Past) {step : Step} (timely : step.Timely s) (j : Fin 160) :
    (s.table.bucket j).Keeps (step.Unmarked s) s.now ((step.run s).table.bucket j) := by
  cases step with
  | observe node =>
      simp only [Step.run, Table.fst_observe]
      exact past.keeps_place timely (.inl rfl) j
  | place node => exact past.keeps_place timely (.inr rfl) j
  | resume node asked answered => exact s.table.keeps_resume timely asked answered j
  | remove id => exact s.table.keeps_remove s.now id j
  | markFailed id => exact Table.keeps_of_markFailed .refl
  | markSeen id => exact s.table.keeps_markSeen s.now id j
  | wait duration => exact .refl

theorem Step.now_le_runAll (s : Situation) (steps : List Step) :
    s.now ≤ (Step.runAll s steps).now := by
  induction steps generalizing s with
  | nil => exact Int.le_refl _
  | cons step steps ih => exact Int.le_trans (step.now_le_run s) (ih (step.run s))

theorem Situation.Past.run (past : s.Past) {step : Step} (timely : step.Timely s) :
    (step.run s).Past := by
  intro j
  refine Int.le_trans ?_ (step.now_le_run s)
  rcases (Step.keeps_run past timely j).changed with heq | heq
  · exact heq ▸ past j
  · exact Int.le_of_eq heq

/-- An offer of a member renews it, and leaves the time of its bucket as it was. -/
theorem Table.place_of_mem {t : Table} {now : Instant} {node : Member} {i : Fin 160}
    (belongs : t.bucketIndex? node.id = some i) (present : node.id ∈ (t.bucket i).ids) :
    t.place now node =
      (t.modifyBucket i (·.modify node.id (·.renewed node now)), .settled .refreshed) := by
  rw [place, belongs]
  dsimp only
  rw [if_pos ((Bucket.isSome_find?_iff ..).mpr present)]
  rfl

/-- A step that leaves its bucket unmarked leaves a member that is ahead of its bucket. -/
theorem Step.Unmarked.not_upToDate {step : Step} {id : Key} (h : step.Unmarked s id) :
    ¬ (step.run s).table.UpToDate := by
  obtain @⟨node, i, places, known, belongs, present, active, earlier⟩ := h
  have hrun : (step.run s).table =
      s.table.modifyBucket i (·.modify node.id (·.renewed node s.now)) := by
    rcases places with rfl | rfl <;> simp only [Step.run, Table.fst_observe] <;>
      rw [Table.place_of_mem belongs present]
  obtain ⟨m, hm, hid⟩ := List.mem_map.mp present
  intro upToDate
  have ahead := upToDate i (m.renewed node s.now)
  rw [hrun, Table.modifyBucket_same] at ahead
  have hlast := m.lastActive_renewed node s.now
  rw [if_pos active] at hlast
  have hle := ahead (List.mem_map.mpr ⟨m, hm, if_pos hid⟩) s.now hlast
  exact absurd earlier (Int.not_lt.mpr hle)

end Tables

/-! ### Runs of steps -/

/-- All steps of a run are timely. -/
def Step.AllTimely (s : Situation) : List Step → Prop
  | [] => True
  | step :: steps => step.Timely s ∧ Step.AllTimely (step.run s) steps

instance Step.decidableAllTimely (s : Situation) :
    (steps : List Step) → Decidable (AllTimely s steps)
  | [] => inferInstanceAs (Decidable True)
  | step :: steps =>
    have := decidableAllTimely (step.run s) steps
    inferInstanceAs (Decidable (step.Timely s ∧ AllTimely (step.run s) steps))

theorem Step.allTimely_append {s : Situation} {xs ys : List Step} :
    AllTimely s (xs ++ ys) ↔ AllTimely s xs ∧ AllTimely (Step.runAll s xs) ys := by
  induction xs generalizing s with
  | nil => simp only [List.nil_append, AllTimely, runAll_nil, true_and]
  | cons step steps ih => simp only [List.cons_append, AllTimely, ih, and_assoc, runAll_cons]

/-- In a run from `first`, a step has told that the node with this id was active at `last`, and has
left its bucket unmarked. -/
def Step.SetUnmarked (first : Situation) (steps : List Step) (id : Key) (last : Instant) : Prop :=
  ∃ before step, before ++ [step] <+: steps ∧ step.Unmarked (Step.runAll first before) id ∧
    (Step.runAll first before).now = last

variable {first : Situation} {steps : List Step}

theorem Step.past_runAll (past : first.Past) (timely : Step.AllTimely first steps) :
    (Step.runAll first steps).Past := by
  induction steps generalizing first with
  | nil => exact past
  | cons step steps ih => exact ih (past.run timely.1) timely.2

/-- **Who has set the date of a member** that is ahead of its bucket: a step that has left the
bucket unmarked. -/
theorem Step.dated_runAll (past : first.Past) (upToDate : first.table.UpToDate)
    (timely : Step.AllTimely first steps) (i : Fin 160) :
    ∀ m ∈ ((Step.runAll first steps).table.bucket i).members,
      m.ActiveBy ((Step.runAll first steps).table.bucket i).changed ∨
        ∃ last, m.lastActive = some last ∧ Step.SetUnmarked first steps m.id last := by
  induction steps using List.reverseRecOn with
  | nil => exact fun m hm => .inl (upToDate i m hm)
  | append_singleton steps step ih =>
      obtain ⟨timely, last⟩ := Step.allTimely_append.mp timely
      have before := Step.past_runAll past timely
      have keeps := Step.keeps_run before last.1 i
      have hlater : (Step.runAll first (steps ++ [step])).table =
          (step.run (Step.runAll first steps)).table := by
        rw [Step.runAll_append, Step.runAll_cons, Step.runAll_nil]
      intro m hm
      rw [hlater] at hm ⊢
      cases keeps.dated m hm with
      | current active => exact .inl active
      | unmarked unnoticed active =>
          exact .inr ⟨_, active, steps, step, List.prefix_rfl, unnoticed, rfl⟩
      | @kept old held known same =>
          have hle : ((Step.runAll first steps).table.bucket i).changed ≤
              ((step.run (Step.runAll first steps)).table.bucket i).changed := by
            rcases keeps.changed with heq | heq
            · exact Int.le_of_eq heq.symm
            · exact heq ▸ before i
          obtain active | ⟨last, hlast, earlier, step', hinit, unnoticed, hnow⟩ :=
            ih timely old held
          · refine .inl fun last hlast => ?_
            exact Int.le_trans (active last (same ▸ hlast)) hle
          · refine .inr ⟨last, same.trans hlast, earlier, step', ?_, known ▸ unnoticed, hnow⟩
            exact hinit.trans (List.prefix_append steps [step])

/-! ### Scripts -/

theorem Sighting.activeBy_member (sighting : Sighting) (contact : Contact) (now : Instant) :
    (sighting.member contact now).ActiveBy now := by
  cases sighting with
  | active => exact Member.activeBy_of_eq rfl
  | hearsay => nofun
  | past age failures =>
      cases age with
      | none => nofun
      | some age =>
          refine (Member.activeBy_of_eq rfl).mono ?_
          exact Int.sub_le_self now (Int.natCast_nonneg age)

theorem timely_unscriptedSteps (s : Situation) {node : Member} (active : node.ActiveBy s.now)
    (questionable : List Contact) : Step.AllTimely s (unscriptedSteps s node questionable) := by
  induction questionable generalizing s with
  | nil => trivial
  | cons asked questionable ih =>
      refine ⟨active, ?_⟩
      rw [Step.run]
      generalize s.table.resume s.now node asked.id false = result
      obtain ⟨table, _ | outcome⟩ := result
      · exact ih { s with table } active
      · trivial

mutual

theorem Operation.timely_steps (s : Situation) (op : Operation) :
    Step.AllTimely s (op.steps s) := by
  cases op with
  | observe contact sighting => exact ⟨sighting.activeBy_member contact s.now, trivial⟩
  | insert contact sighting probes =>
      have active := sighting.activeBy_member contact s.now
      rw [Operation.steps]
      refine ⟨active, ?_⟩
      rw [Step.run]
      generalize s.table.place s.now (sighting.member contact s.now) = result
      obtain ⟨table, outcome | questionable⟩ := result
      · trivial
      · exact timely_askSteps { s with table } active probes questionable
  | remove | markFailed | markSeen | wait => exact ⟨trivial, trivial⟩

/-- **The steps of a script are timely.** -/
theorem Operation.timely_stepsAll (s : Situation) (ops : List Operation) :
    Step.AllTimely s (Operation.stepsAll s ops) := by
  cases ops with
  | nil => trivial
  | cons op ops =>
      rw [Operation.stepsAll, Step.allTimely_append, ← Operation.run_eq_steps]
      exact ⟨Operation.timely_steps s op, Operation.timely_stepsAll _ ops⟩

theorem timely_askSteps (s : Situation) {node : Member} (active : node.ActiveBy s.now)
    (probes : List Probe) (questionable : List Contact) :
    Step.AllTimely s (askSteps s node probes questionable) := by
  match probes, questionable with
  | probes, [] =>
      rw [askSteps]
      trivial
  | [], asked :: questionable => exact timely_unscriptedSteps s active _
  | .mk during answers :: probes, asked :: questionable =>
      have later : node.ActiveBy (Operation.runAll s during).now := by
        rw [Operation.runAll_eq_steps]
        exact active.mono (Step.now_le_runAll s _)
      rw [askSteps, Step.allTimely_append, ← Operation.runAll_eq_steps]
      refine ⟨Operation.timely_stepsAll s during, later, ?_⟩
      rw [Step.run]
      generalize Operation.runAll s during = s' at later ⊢
      generalize s'.table.resume s'.now node asked.id answers = result
      obtain ⟨table, _ | outcome⟩ := result
      · exact timely_askSteps { s' with table } later probes questionable
      · trivial

end

/-! ### Stale buckets -/

/-- The members of a stale bucket that is up to date have not been active for as long. -/
theorem Table.lt_elapsed_of_mem_staleBuckets {t : Table} {now : Instant} {threshold : Duration}
    {i : Fin 160} (stale : i ∈ t.staleBuckets now threshold) {last : Instant}
    (hle : last ≤ (t.bucket i).changed) : threshold < elapsed last now := by
  have hchanged := (List.mem_filter.mp stale).2
  rw [Bool.and_eq_true, decide_eq_true_iff] at hchanged
  exact Nat.lt_of_lt_of_le hchanged.2 (Int.toNat_le_toNat (Int.sub_le_sub_left hle now))

/-- **An offer of a member leaves the stale buckets as they are**, although the member is active. -/
theorem Table.staleBuckets_place_of_mem {t : Table} {node : Member} {i : Fin 160}
    (belongs : t.bucketIndex? node.id = some i) (present : node.id ∈ (t.bucket i).ids)
    (now later : Instant) (threshold : Duration) :
    (t.place now node).1.staleBuckets later threshold = t.staleBuckets later threshold := by
  rw [place_of_mem belongs present]
  refine List.filter_congr fun j _ => ?_
  by_cases hj : j = i
  · subst hj
    rw [modifyBucket_same, Bucket.modify, List.isEmpty_map]
  · rw [modifyBucket_other t _ hj]

/-- **Buckets are up to date exactly as long as no offer leaves one unmarked.** Take any table that
steps from the empty one lead to, whatever they are, in which no node is said to be active at a
time still to come; every script is a run of such steps.

* If a member is ahead of its bucket, an unmarked offer of it has told of that activity.
* If a bucket is stale though a member has been active within the threshold, an unmarked offer has
  told of that, too.
* In all states of the run, no member is ahead of its bucket, if and only if no offer in the course
  of it leaves its bucket unmarked: an offer of a node that is a member already, is said to have
  been active, and whose bucket has last changed before.

Members that enter, take the place of others, are marked as seen or answer when they are asked
cannot break the law. -/
theorem buckets_up_to_date_iff_marked (localId : Key) (capacity : ℕ) (start : Instant) :
    let s₀ : Situation := ⟨.empty localId capacity start, start⟩
    (∀ steps, Step.AllTimely s₀ steps →
      let s := Step.runAll s₀ steps
      (∀ i, ∀ m ∈ (s.table.bucket i).members, ∀ last ∈ m.lastActive,
        (s.table.bucket i).changed < last → Step.SetUnmarked s₀ steps m.id last) ∧
      (∀ threshold, ∀ i ∈ s.table.staleBuckets s.now threshold,
        ∀ m ∈ (s.table.bucket i).members, ∀ last ∈ m.lastActive,
          elapsed last s.now ≤ threshold → Step.SetUnmarked s₀ steps m.id last) ∧
      ((∀ before, before <+: steps → (Step.runAll s₀ before).table.UpToDate) ↔
        ∀ before step id, before ++ [step] <+: steps →
          ¬ step.Unmarked (Step.runAll s₀ before) id)) ∧
    ∀ script : List Operation, Step.AllTimely s₀ (Operation.stepsAll s₀ script) ∧
      Operation.runAll s₀ script = Step.runAll s₀ (Operation.stepsAll s₀ script) := by
  intro s₀
  have hnew : ∀ i, s₀.table.bucket i = ⟨[], start⟩ := by
    intro i
    simp [s₀, Table.empty, Table.bucket]
  have past : s₀.Past := fun i => Int.le_of_eq (congrArg Bucket.changed (hnew i))
  have upToDate : s₀.table.UpToDate := by
    intro i m hm
    rw [hnew] at hm
    cases hm
  refine ⟨fun steps timely => ?_, fun script => ⟨Operation.timely_stepsAll s₀ script,
    Operation.runAll_eq_steps s₀ script⟩⟩
  intro s
  have ahead : ∀ i, ∀ m ∈ (s.table.bucket i).members, ∀ last ∈ m.lastActive,
      (s.table.bucket i).changed < last → Step.SetUnmarked s₀ steps m.id last := by
    intro i m hm last hlast hlt
    obtain active | ⟨last', hlast', unmarked⟩ := Step.dated_runAll past upToDate timely i m hm
    · exact absurd hlt (Int.not_lt.mpr (active last hlast))
    · exact Option.mem_unique hlast' hlast ▸ unmarked
  refine ⟨ahead, ?_, fun law => ?_, fun marked => ?_⟩
  · intro threshold i stale m hm last hlast recent
    refine ahead i m hm last hlast (Int.not_le.mp fun hle => ?_)
    exact absurd (Table.lt_elapsed_of_mem_staleBuckets stale hle) (Nat.not_lt.mpr recent)
  · intro before step id hinit unmarked
    have hafter := law _ hinit
    rw [Step.runAll_append, Step.runAll_cons, Step.runAll_nil] at hafter
    exact unmarked.not_upToDate hafter
  · intro before hinit i m hm
    obtain ⟨rest, rfl⟩ := hinit
    obtain active | ⟨last, -, earlier, step, hinit, unmarked, -⟩ :=
      Step.dated_runAll past upToDate (Step.allTimely_append.mp timely).1 i m hm
    · exact active
    · exact absurd unmarked (marked earlier step _ (hinit.trans (List.prefix_append before rest)))

/-- A node is heard from, and after a long time once more: its bucket is stale at that moment. -/
theorem stale_though_just_active :
    let contact : Contact := ⟨⟨BitVec.allOnes 160⟩, default⟩
    let script : List Operation :=
      [.observe contact .active, .wait 900001, .observe contact .active]
    let s := Operation.runAll ⟨.empty ⟨0⟩ 8 0, 0⟩ script
    s.now = 900001 ∧ s.table.members = [.active contact 900001] ∧
      s.table.staleBuckets s.now 900000 = [0] ∧ (s.table.bucket 0).changed = 0 := by
  decide +kernel

/-- The same in steps: the offer that has told of the activity is unmarked. -/
theorem stale_by_unmarked_offer :
    let contact : Contact := ⟨⟨BitVec.allOnes 160⟩, default⟩
    let s₀ : Situation := ⟨.empty ⟨0⟩ 8 0, 0⟩
    let steps : List Step := [.observe (.active contact 0), .wait 900001,
      .observe (.active contact 900001)]
    let s := Step.runAll s₀ steps
    Step.AllTimely s₀ steps ∧ (0 : Fin 160) ∈ s.table.staleBuckets s.now 900000 ∧
      .active contact 900001 ∈ (s.table.bucket 0).members ∧
      Step.SetUnmarked s₀ steps contact.id 900001 := by
  intro contact s₀ steps s
  have timely : Step.AllTimely s₀ steps := by decide +kernel
  have stale : (0 : Fin 160) ∈ s.table.staleBuckets s.now 900000 := by decide +kernel
  have held : .active contact 900001 ∈ (s.table.bucket 0).members := by decide +kernel
  have law := (buckets_up_to_date_iff_marked ⟨0⟩ 8 0).1 steps timely
  exact ⟨timely, stale, held, law.2.1 900000 0 stale _ held 900001 rfl (by decide +kernel)⟩

end Mainline.Routing
