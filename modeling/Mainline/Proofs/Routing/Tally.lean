import Mathlib.Data.List.Induction
import Mathlib.Data.List.Infix
import Mainline.Proofs.Routing.Address
import Mainline.Proofs.Routing.Failure
import Mainline.Proofs.Routing.Staleness

/-!
# The count of failures

A member counts its failures in a row: each one that is marked, by whoever has noticed it or by an
offer that has asked in vain, makes one more, and a sign of life clears them. A refresh is a sign of
life only if it tells of some activity. The count ends at 255, so that it never comes round to the
few failures that a member may have without being bad.

What a step makes of the count of a member is said by three lemmas, one for a step that notes
activity of it, one for a step that fails it and one for any other. From these follows what a run
makes of it (`CountedFrom`), and that a member that has become bad stays so until it is heard from.

## Main results

* `exists_countedFrom`: the count of a member is the number of its failures since it entered or was
  heard from last.
* `Step.bad_runAll`: a bad member stays bad.
* `Operation.unfailed_stepsAll`: a script that offers no failed nodes is a run of such steps.
* `failures_counted_since_activity`: the law, for every table that steps lead to.
-/

namespace Mainline

/-- Renewing a member clears its failures if it tells of activity, and leaves them else. -/
theorem Member.failures_renewed (m node : Member) (now : Instant) :
    (m.renewed node now).failures = if node.lastActive.isSome then 0 else m.failures := by
  rw [renewed]
  split <;> rfl

end Mainline

namespace Mainline.Routing

/-! ### What steps note of a member -/

instance (id : Key) : DecidablePred (Step.Fails id)
  | .markFailed id' => decidable_of_iff (id' = id) ⟨fun h => h ▸ .markFailed, fun | .markFailed => rfl⟩
  | .resume node asked answered =>
    decidable_of_iff (asked = id ∧ answered = false)
      ⟨fun h => h.1 ▸ h.2 ▸ .resume node, fun | .resume _ => ⟨rfl, rfl⟩⟩
  | .observe _ | .place _ | .remove _ | .markSeen _ | .wait _ => isFalse nofun

/-- The step **notes activity** of the member with this id: it sees it, or it is the beginning of an
offer of it that tells of some activity. An offer that finds the node a member only after it has
asked others notes none. -/
inductive Step.NotesActivity (id : Key) : Step → Prop
  | sees {step : Step} (sees : step.Sees id) : NotesActivity id step
  | observe {node : Member} (named : node.id = id) (active : node.lastActive.isSome = true) :
      NotesActivity id (.observe node)
  | place {node : Member} (named : node.id = id) (active : node.lastActive.isSome = true) :
      NotesActivity id (.place node)

section Steps

variable {s : Situation} {step : Step} {old m : Member}

/-- An offer of a member renews it. -/
theorem Table.WellFormed.renewed_mem_place {t : Table} (h : t.WellFormed) (held : old ∈ t.members)
    {node : Member} (named : node.id = old.id) (now : Instant) :
    old.renewed node now ∈ (t.place now node).1.members := by
  obtain ⟨i, hi⟩ := (t.mem_members_iff old).mp held
  have hid : node.id ∈ (t.bucket i).ids := named ▸ List.mem_map_of_mem hi
  have belongs := (t.bucketIndex?_eq_some_iff node.id i).mpr (h.shared i node.id hid)
  rw [Table.place_of_mem belongs hid]
  refine mem_members_of_bucket (i := i) ?_
  rw [modifyBucket_same]
  exact List.mem_map.mpr ⟨old, hi, if_pos named.symm⟩

variable (h : s.table.WellFormed) (held : old ∈ s.table.members)
  (hm : m ∈ (step.run s).table.members) (same : m.id = old.id)
include h held hm same

/-- A member whose activity is noted has no failures. -/
theorem Step.failures_of_notesActivity (notes : step.NotesActivity old.id) : m.failures = 0 := by
  have hafter := step.wellFormed_run h
  have hplaced : ∀ node : Member, node.id = old.id → node.lastActive.isSome = true →
      (step.run s).table = (s.table.place s.now node).1 → m.failures = 0 := by
    intro node named active hrun
    have hrenewed := h.renewed_mem_place held named s.now
    rw [← hrun] at hrenewed
    have hid := (old.id_renewed node s.now).trans named
    rw [hafter.member_ext hm hrenewed (same.trans hid.symm), Member.failures_renewed, if_pos active]
  cases notes with
  | sees sees =>
      have seen : ((Step.markSeen old.id).run s).HoldsGood old.id := by
        refine Step.holdsGood_markSeen h ?_
        exact List.mem_map_of_mem held
      have hrun : step.run s = (Step.markSeen old.id).run s := by
        cases sees <;> rfl
      rw [← hrun] at seen
      obtain ⟨m', hm', hid, good⟩ := seen
      rw [hafter.member_ext hm hm' (same.trans hid.symm)]
      exact ((m'.standing_eq_good_iff _).mp good).1
  | @observe node named active =>
      exact hplaced node named active (s.table.fst_observe s.now node)
  | @place node named active => exact hplaced node named active rfl

/-- A member that a step fails has one failure more. -/
theorem Step.eq_fail_of_fails (fails : step.Fails old.id) : m = old.fail := by
  have hafter := step.wellFormed_run h
  have failed : old.fail ∈ (step.run s).table.members := by
    cases fails with
    | markFailed => exact h.fail_mem_markFailed held
    | resume node =>
        refine (h.failed_or_lost_resume s.now node held).resolve_right fun lost => lost ?_
        exact List.mem_map.mpr ⟨m, hm, same⟩
  exact hafter.member_ext hm failed same

/-- A member of which a step notes nothing has as many failures as before. -/
theorem Step.failures_of_silent (silent : ¬ step.NotesActivity old.id)
    (spared : ¬ step.Fails old.id) : m.failures = old.failures := by
  have hkept : ∀ old' ∈ s.table.members, old'.id = old.id → old' = old := fun old' held' hid =>
    h.member_ext held' held hid
  cases Step.source_of_mem_run h hm with
  | kept held' => rw [hkept m held' same]
  | entered offers absent => exact absurd (List.mem_map.mpr ⟨old, held, same.symm⟩) absent
  | touched sees held' => exact absurd (.sees (same ▸ sees)) silent
  | failed fails held' => exact absurd (same ▸ fails) spared
  | @renewed node old' offers held' known =>
      have named : node.id = old.id := (old'.id_renewed node s.now).symm.trans same
      obtain rfl := hkept old' held' (known.trans named)
      cases offers with
      | resume asked =>
          -- The node is found a member, and the one that has been asked is another.
          have present : node.id ∈ s.table.members.map Member.id :=
            List.mem_map.mpr ⟨old', held', known⟩
          have other : (old'.renewed node s.now).id ≠ asked := by
            rintro rfl
            exact spared (same ▸ .resume node)
          simp only [Step.run, h.resume_of_present present] at hm
          obtain held | ⟨old, -, hid, heq⟩ := Table.mem_members_markFailed hm
          · rw [hkept _ held same]
          · exact absurd ((congrArg Member.id heq).trans hid) other
      | observe =>
          rw [Member.failures_renewed, if_neg fun active => silent (.observe named active)]
      | place =>
          rw [Member.failures_renewed, if_neg fun active => silent (.place named active)]

end Steps

/-! ### Runs of steps -/

/-- The step offers no node that is said to have failed. -/
def Step.Unfailed : Step → Prop
  | .observe node | .place node | .resume node _ _ => node.failures = 0
  | .remove _ | .markFailed _ | .markSeen _ | .wait _ => True

instance : DecidablePred Step.Unfailed
  | .observe node | .place node | .resume node _ _ =>
    inferInstanceAs (Decidable (node.failures = 0))
  | .remove _ | .markFailed _ | .markSeen _ | .wait _ => inferInstanceAs (Decidable True)

/-- In a run from `first` by `earlier`, `turn` and `later`, the failures of a member are **counted
from a turn** on: the member has entered then, or activity of it has been noted; it has been a member
since, and no activity of it has been noted; and it has failed as often as `later` says, up to 255. -/
structure CountedFrom (first : Situation) (earlier : List Step) (turn : Step) (later : List Step)
    (m : Member) : Prop where
  turns : m.id ∉ (Step.runAll first earlier).table.members.map Member.id ∨ turn.NotesActivity m.id
  stays : ∀ between, between <+: later →
    m.id ∈ (Step.runAll first (earlier ++ turn :: between)).table.members.map Member.id
  silent : ∀ step ∈ later, ¬ step.NotesActivity m.id
  count : m.failures = min 255 (later.countP fun step => step.Fails m.id)

section Runs

variable {s first : Situation} {m : Member}

/-- At the turn itself there are no failures. -/
theorem CountedFrom.turn {earlier : List Step} {turn : Step}
    (hm : m ∈ (Step.runAll first (earlier ++ [turn])).table.members)
    (turns : m.id ∉ (Step.runAll first earlier).table.members.map Member.id ∨
      turn.NotesActivity m.id) (none : m.failures = 0) : CountedFrom first earlier turn [] m := by
  refine ⟨turns, fun between hbetween => ?_, List.forall_mem_nil _, none⟩
  rw [List.prefix_nil.mp hbetween]
  exact List.mem_map_of_mem hm

/-- Steps that note no activity are counted. -/
theorem CountedFrom.step (h : first.table.WellFormed) {earlier later : List Step}
    {turn step : Step} {old : Member} (counted : CountedFrom first earlier turn later old)
    (held : old ∈ (Step.runAll first (earlier ++ turn :: later)).table.members)
    (hm : m ∈ (Step.runAll first (earlier ++ turn :: later ++ [step])).table.members)
    (same : m.id = old.id) (silent : ¬ step.NotesActivity old.id) :
    CountedFrom first earlier turn (later ++ [step]) m := by
  have wellFormed := Step.wellFormed_runAll h (earlier ++ turn :: later)
  have hstep := hm
  rw [Step.runAll_concat] at hstep
  rw [List.append_assoc, List.cons_append] at hm
  refine ⟨same ▸ counted.turns, fun between hbetween => ?_, fun step' hstep' => ?_, ?_⟩
  · obtain rfl | hbetween := List.prefix_concat_iff.mp hbetween
    · exact List.mem_map_of_mem hm
    · exact same ▸ counted.stays between hbetween
  · rw [same]
    obtain hlater | hlast := List.mem_append.mp hstep'
    · exact counted.silent step' hlater
    · rwa [List.mem_singleton.mp hlast]
  · have hcount := counted.count
    rw [List.countP_append, List.countP_singleton, same]
    by_cases fails : step.Fails old.id
    · rw [if_pos (decide_eq_true fails), Step.eq_fail_of_fails wellFormed held hstep same fails]
      dsimp only [Member.fail, maxFailures]
      omega
    · rw [if_neg (by simpa using fails),
        Step.failures_of_silent wellFormed held hstep same silent fails]
      exact hcount

/-- **The failures of every member are counted** from some turn on. -/
theorem exists_countedFrom (h : first.table.WellFormed) (new : first.table.members = [])
    {steps : List Step} (unfailed : ∀ step ∈ steps, step.Unfailed)
    (hm : m ∈ (Step.runAll first steps).table.members) :
    ∃ earlier turn later, steps = earlier ++ turn :: later ∧
      CountedFrom first earlier turn later m := by
  induction steps using List.reverseRecOn generalizing m with
  | nil =>
      rw [Step.runAll_nil, new] at hm
      cases hm
  | append_singleton steps step ih =>
      have wellFormed := Step.wellFormed_runAll h steps
      obtain ⟨unfailedBefore, unfailedLast⟩ := List.forall_mem_append.mp unfailed
      have hstep := hm
      rw [Step.runAll_concat] at hstep
      by_cases known : m.id ∈ (Step.runAll first steps).table.members.map Member.id
      · obtain ⟨old, held, hid⟩ := List.mem_map.mp known
        by_cases notes : step.NotesActivity m.id
        · have none := Step.failures_of_notesActivity wellFormed held hstep hid.symm (hid ▸ notes)
          exact ⟨steps, step, [], rfl, .turn hm (.inr notes) none⟩
        · obtain ⟨earlier, turn, later, rfl, counted⟩ := ih unfailedBefore held
          refine ⟨earlier, turn, later ++ [step], by simp, ?_⟩
          exact counted.step h held hm hid.symm (hid ▸ notes)
      · refine ⟨steps, step, [], rfl, .turn hm (.inl known) ?_⟩
        have unfailedStep : step.Unfailed := unfailedLast step (List.mem_singleton_self step)
        cases Step.source_of_mem_run wellFormed hstep with
        | kept held | touched _ held | failed _ held =>
            exact absurd (List.mem_map_of_mem held) known
        | @renewed node old offers held hid =>
            rw [Member.id_renewed, ← hid] at known
            exact absurd (List.mem_map_of_mem held) known
        | entered offers absent => cases offers <;> exact unfailedStep

/-- **A bad member stays bad**, as long as it is a member and no activity of it is noted, at every
instant. -/
theorem Step.bad_runAll (h : s.table.WellFormed) (held : m ∈ s.table.members)
    (bad : failuresUntilBad ≤ m.failures) {steps : List Step}
    (silent : ∀ step ∈ steps, ¬ step.NotesActivity m.id)
    (stays : ∀ earlier, earlier <+: steps →
      m.id ∈ (Step.runAll s earlier).table.members.map Member.id) :
    ∃ m' ∈ (Step.runAll s steps).table.members, m'.id = m.id ∧
      failuresUntilBad ≤ m'.failures := by
  induction steps using List.reverseRecOn with
  | nil => exact ⟨m, held, rfl, bad⟩
  | append_singleton steps step ih =>
      obtain ⟨silentBefore, silentLast⟩ := List.forall_mem_append.mp silent
      have silentStep := silentLast step (List.mem_singleton_self step)
      obtain ⟨old, held, hid, bad⟩ := ih silentBefore fun earlier hearlier =>
        stays earlier (hearlier.trans (List.prefix_append steps [step]))
      obtain ⟨m', hm', hid'⟩ := List.mem_map.mp (stays _ List.prefix_rfl)
      have wellFormed := Step.wellFormed_runAll h steps
      have hstep := hm'
      rw [Step.runAll_concat] at hstep
      have same : m'.id = old.id := hid'.trans hid.symm
      refine ⟨m', hm', hid', ?_⟩
      by_cases fails : step.Fails old.id
      · rw [Step.eq_fail_of_fails wellFormed held hstep same fails, Member.fail]
        exact Nat.le_min.mpr ⟨by decide, Nat.le_succ_of_le bad⟩
      · rw [Step.failures_of_silent wellFormed held hstep same (hid ▸ silentStep) fails]
        exact bad

end Runs

/-! ### Scripts -/

/-- Nothing is said of failures. -/
def Sighting.Unfailed : Sighting → Prop
  | .active | .hearsay => True
  | .past _ failures => failures = 0

mutual

/-- The operation offers no node that is said to have failed, nor does what happens while it asks. -/
def Operation.Unfailed : Operation → Prop
  | .observe _ sighting => sighting.Unfailed
  | .insert _ sighting probes => sighting.Unfailed ∧ Probe.AllUnfailed probes
  | .remove _ | .markFailed _ | .markSeen _ | .wait _ => True

def Operation.AllUnfailed : List Operation → Prop
  | [] => True
  | op :: ops => op.Unfailed ∧ Operation.AllUnfailed ops

def Probe.AllUnfailed : List Probe → Prop
  | [] => True
  | .mk during _ :: probes => Operation.AllUnfailed during ∧ Probe.AllUnfailed probes

end

theorem Sighting.Unfailed.failures_eq {sighting : Sighting} (unfailed : sighting.Unfailed)
    (contact : Contact) (now : Instant) : (sighting.member contact now).failures = 0 := by
  cases sighting with
  | active | hearsay => rfl
  | past age failures => exact unfailed

theorem unfailed_unscriptedSteps (s : Situation) {node : Member} (none : node.failures = 0)
    (questionable : List Contact) :
    ∀ step ∈ unscriptedSteps s node questionable, step.Unfailed := by
  induction questionable generalizing s with
  | nil => exact List.forall_mem_nil _
  | cons asked questionable ih =>
      rw [unscriptedSteps, List.forall_mem_cons]
      refine ⟨none, ?_⟩
      generalize s.table.resume s.now node asked.id false = result
      obtain ⟨table, _ | outcome⟩ := result
      · exact ih { s with table }
      · exact List.forall_mem_nil _

mutual

theorem Operation.unfailed_steps (s : Situation) {op : Operation} (unfailed : op.Unfailed) :
    ∀ step ∈ op.steps s, step.Unfailed := by
  cases op with
  | observe contact sighting =>
      rw [Operation.Unfailed] at unfailed
      rw [Operation.steps, List.forall_mem_singleton]
      exact unfailed.failures_eq contact s.now
  | insert contact sighting probes =>
      rw [Operation.Unfailed] at unfailed
      have none := unfailed.1.failures_eq contact s.now
      rw [Operation.steps, List.forall_mem_cons]
      refine ⟨none, ?_⟩
      generalize s.table.place s.now (sighting.member contact s.now) = result
      obtain ⟨table, outcome | questionable⟩ := result
      · exact List.forall_mem_nil _
      · exact unfailed_askSteps { s with table } none unfailed.2 questionable
  | remove | markFailed | markSeen | wait =>
      rw [Operation.steps, List.forall_mem_singleton]
      trivial

/-- **The steps of a script offer no failed nodes** if the script does not. -/
theorem Operation.unfailed_stepsAll (s : Situation) {ops : List Operation}
    (unfailed : Operation.AllUnfailed ops) :
    ∀ step ∈ Operation.stepsAll s ops, step.Unfailed := by
  cases ops with
  | nil =>
      rw [Operation.stepsAll]
      exact List.forall_mem_nil _
  | cons op ops =>
      rw [Operation.AllUnfailed] at unfailed
      rw [Operation.stepsAll, List.forall_mem_append]
      exact ⟨Operation.unfailed_steps s unfailed.1, Operation.unfailed_stepsAll _ unfailed.2⟩

theorem unfailed_askSteps (s : Situation) {node : Member} (none : node.failures = 0)
    {probes : List Probe} (unfailed : Probe.AllUnfailed probes) (questionable : List Contact) :
    ∀ step ∈ askSteps s node probes questionable, step.Unfailed := by
  match probes, questionable with
  | probes, [] =>
      rw [askSteps]
      exact List.forall_mem_nil _
  | [], asked :: questionable => exact unfailed_unscriptedSteps s none _
  | .mk during answers :: probes, asked :: questionable =>
      rw [Probe.AllUnfailed] at unfailed
      rw [askSteps, List.forall_mem_append, List.forall_mem_cons]
      refine ⟨Operation.unfailed_stepsAll s unfailed.1, none, ?_⟩
      generalize Operation.runAll s during = s'
      generalize s'.table.resume s'.now node asked.id answers = result
      obtain ⟨table, _ | outcome⟩ := result
      · exact unfailed_askSteps { s' with table } none unfailed.2 questionable
      · exact List.forall_mem_nil _

end

/-- **Failures are counted since a member entered or was heard from last.** Take any table that steps
from the empty one lead to, whatever they are, in which no node is offered that is said to have
failed; every script that offers none is a run of such steps.

* The count of each member is the number of failures that have been marked since, up to 255, by
  those who have noticed them and by offers that have asked in vain: since the last turn at which it
  entered, or was seen, or answered, or was refreshed with activity.
* A member with two failures or more is bad at every instant after any further steps, however many
  of them fail it, unless activity of it is noted or it leaves the table.

An offer that finds its node a member only after it has asked others notes no activity of it. -/
theorem failures_counted_since_activity (localId : Key) (capacity : ℕ) (start : Instant) :
    let s₀ : Situation := ⟨.empty localId capacity start, start⟩
    (∀ steps : List Step, (∀ step ∈ steps, step.Unfailed) →
      let s := Step.runAll s₀ steps
      ∀ m ∈ s.table.members,
        (∃ earlier turn later, steps = earlier ++ turn :: later ∧
          CountedFrom s₀ earlier turn later m) ∧
        (2 ≤ m.failures → ∀ more : List Step, (∀ step ∈ more, ¬ step.NotesActivity m.id) →
          (∀ earlier, earlier <+: more →
            m.id ∈ (Step.runAll s earlier).table.members.map Member.id) →
          ∃ m' ∈ (Step.runAll s more).table.members, m'.id = m.id ∧
            ∀ now, m'.standing now = .bad)) ∧
    ∀ script : List Operation,
      (Operation.AllUnfailed script → ∀ step ∈ Operation.stepsAll s₀ script, step.Unfailed) ∧
      Operation.runAll s₀ script = Step.runAll s₀ (Operation.stepsAll s₀ script) := by
  intro s₀
  have hempty : s₀.table.WellFormed := Table.wellFormed_empty localId capacity start
  have new : s₀.table.members = [] :=
    Table.members_eq_nil_iff.mpr fun i => by simp [s₀, Table.empty, Table.bucket]
  refine ⟨fun steps unfailed => ?_,
    fun script => ⟨Operation.unfailed_stepsAll s₀, Operation.runAll_eq_steps s₀ script⟩⟩
  intro s m hm
  refine ⟨exists_countedFrom hempty new unfailed hm, fun bad more silent stays => ?_⟩
  obtain ⟨m', hm', hid, bad⟩ :=
    Step.bad_runAll (Step.wellFormed_runAll hempty steps) hm bad silent stays
  exact ⟨m', hm', hid, fun now => (m'.standing_eq_bad_iff now).mpr bad⟩

/-- A member fails, answers when it is asked, and fails twice after that. It is bad, and stays bad when
it is refreshed without activity and fails once more. -/
theorem failures_counted_since_answer :
    let contact (n : ℕ) : Contact := ⟨⟨BitVec.allOnes 160 - BitVec.ofNat 160 n⟩, default⟩
    let s₀ : Situation := ⟨.empty ⟨0⟩ 1 0, 0⟩
    let id := (contact 1).id
    let other : Member := .hearsay (contact 2)
    let steps : List Step := [.observe (.hearsay (contact 1)), .markFailed id, .place other, .wait 7,
      .resume other id true, .markFailed id, .wait 5, .markFailed id]
    let s := Step.runAll s₀ steps
    let m : Member := ⟨contact 1, some 7, 2⟩
    let more : List Step := [.observe (.hearsay (contact 1)), .markFailed id]
    let script : List Operation :=
      [.observe (contact 1) .hearsay, .insert (contact 2) (.past (some 3) 0) [.mk [.wait 7] true]]
    ((∀ step ∈ steps, step.Unfailed) ∧ m ∈ s.table.members) ∧
      (∃ earlier turn later, steps = earlier ++ turn :: later ∧
        CountedFrom s₀ earlier turn later m) ∧
      (∃ m' ∈ (Step.runAll s more).table.members, m'.id = m.id ∧ ∀ now, m'.standing now = .bad) ∧
      ∀ step ∈ Operation.stepsAll s₀ script, step.Unfailed := by
  intro contact s₀ id other steps s m more script
  have unfailed : ∀ step ∈ steps, step.Unfailed := by decide
  have held : m ∈ s.table.members := by decide +kernel
  have law := failures_counted_since_activity ⟨0⟩ 1 0
  obtain ⟨counted, stays⟩ := law.1 steps unfailed m held
  have silent : ∀ step ∈ more, ¬ step.NotesActivity m.id := by
    refine List.forall_mem_cons.mpr ⟨?_, List.forall_mem_singleton.mpr ?_⟩
    · rintro (⟨⟨⟩⟩ | ⟨-, active⟩)
      cases active
    · rintro ⟨⟨⟩⟩
  have member : ∀ earlier ∈ more.inits,
      m.id ∈ (Step.runAll s earlier).table.members.map Member.id := by decide +kernel
  refine ⟨⟨unfailed, held⟩, counted, ?_, (law.2 script).1 ?_⟩
  · refine stays (Nat.le_refl 2) more silent fun earlier hearlier => ?_
    exact member earlier ((List.mem_inits earlier more).mpr hearlier)
  · simp [script, Operation.AllUnfailed, Operation.Unfailed, Probe.AllUnfailed, Sighting.Unfailed]

end Mainline.Routing
