import Mainline.Routing.Script

/-!
# The steps that scripts are made of

A script of table operations is run as one function, but what it does to a table happens in
steps, and only the steps are free of interruption: an offer that asks questionable members is
*placed* first and then *resumed* once for every member that was asked, with anything else in
between. This module names the steps, lists those that a script takes, and proves that the run of
a script is the run of its steps. A law that every step obeys therefore holds at every moment of
every script, also while members are being asked.

## Main results

* `Operation.runAll_eq_steps`: a script leaves a table as its steps, one after the other, do.
-/

namespace Mainline.Routing

/-- What happens to a table without interruption. -/
inductive Step where
  | observe (node : Member)
  /-- The beginning of an offer that may ask questionable members. -/
  | place (node : Member)
  /-- Such an offer goes on once the member `asked` has answered or failed to. -/
  | resume (node : Member) (asked : Key) (answered : Bool)
  | remove (id : Key)
  | markFailed (id : Key)
  | markSeen (id : Key)
  | wait (duration : Duration)
deriving DecidableEq

/-- The situation after a step. -/
def Step.run (s : Situation) : Step → Situation
  | .observe node => { s with table := (s.table.observe s.now node).1 }
  | .place node => { s with table := (s.table.place s.now node).1 }
  | .resume node asked answered =>
    { s with table := (s.table.resume s.now node asked answered).1 }
  | .remove id => { s with table := (s.table.remove id).1 }
  | .markFailed id => { s with table := s.table.markFailed id }
  | .markSeen id => { s with table := s.table.markSeen s.now id }
  | .wait duration => { s with now := s.now + duration }

/-- The situation after several steps. The offers under way need not be nested: a list of steps
is any interleaving of any operations. -/
def Step.runAll (s : Situation) (steps : List Step) : Situation :=
  steps.foldl Step.run s

@[simp] theorem Step.runAll_nil (s : Situation) : Step.runAll s [] = s := rfl

@[simp] theorem Step.runAll_cons (s : Situation) (step : Step) (steps : List Step) :
    Step.runAll s (step :: steps) = Step.runAll (step.run s) steps := rfl

@[simp] theorem Step.runAll_append (s : Situation) (xs ys : List Step) :
    Step.runAll s (xs ++ ys) = Step.runAll (Step.runAll s xs) ys := by
  simp [Step.runAll]

theorem Step.runAll_concat (s : Situation) (steps : List Step) (step : Step) :
    Step.runAll s (steps ++ [step]) = step.run (Step.runAll s steps) :=
  Step.runAll_append s steps [step]

/-! ### The steps of a script -/

/-- The steps in which members that do not answer are asked in turn. -/
def unscriptedSteps (s : Situation) (node : Member) : List Contact → List Step
  | [] => []
  | asked :: questionable =>
    .resume node asked.id false ::
      match s.table.resume s.now node asked.id false with
      | (_, some _) => []
      | (table, none) => unscriptedSteps { s with table } node questionable

mutual

/-- The steps that an operation takes. -/
def Operation.steps (s : Situation) : Operation → List Step
  | .observe contact sighting => [.observe (sighting.member contact s.now)]
  | .insert contact sighting probes =>
    let node := sighting.member contact s.now
    .place node ::
      match s.table.place s.now node with
      | (_, .settled _) => []
      | (table, .contested questionable) => askSteps { s with table } node probes questionable
  | .remove id => [.remove id]
  | .markFailed id => [.markFailed id]
  | .markSeen id => [.markSeen id]
  | .wait duration => [.wait duration]

/-- The steps that several operations take. -/
def Operation.stepsAll (s : Situation) : List Operation → List Step
  | [] => []
  | op :: ops => op.steps s ++ Operation.stepsAll (op.run s) ops

/-- The steps in which members are asked in turn, each by a probe of its own. -/
def askSteps (s : Situation) (node : Member) : List Probe → List Contact → List Step
  | _, [] => []
  | [], questionable => unscriptedSteps s node questionable
  | .mk during answers :: probes, asked :: questionable =>
    let s' := Operation.runAll s during
    Operation.stepsAll s during ++ .resume node asked.id answers ::
      match s'.table.resume s'.now node asked.id answers with
      | (_, some _) => []
      | (table, none) => askSteps { s' with table } node probes questionable

end

/-- Asking members that do not answer is a run of steps. -/
theorem askUnscripted_eq_steps (s : Situation) (node : Member) (questionable : List Contact) :
    (askUnscripted s node questionable).1 = Step.runAll s (unscriptedSteps s node questionable) := by
  induction questionable generalizing s with
  | nil => rfl
  | cons asked questionable ih =>
      rw [askUnscripted, unscriptedSteps, Step.runAll_cons, Step.run]
      rcases s.table.resume s.now node asked.id false with ⟨table, _ | outcome⟩
      · exact ih _
      · rfl

mutual

/-- An operation is a run of steps. -/
theorem Operation.run_eq_steps (s : Situation) (op : Operation) :
    op.run s = Step.runAll s (op.steps s) := by
  cases op with
  | insert contact sighting probes =>
      rw [Operation.run, Operation.steps, Step.runAll_cons, Step.run]
      rcases s.table.place s.now (sighting.member contact s.now) with
        ⟨table, outcome | questionable⟩
      · rfl
      · exact ask_eq_steps _ _ probes questionable
  | _ => rfl

/-- **A script is a run of steps**: it leaves a table as its steps, one after the other, do. -/
theorem Operation.runAll_eq_steps (s : Situation) (ops : List Operation) :
    Operation.runAll s ops = Step.runAll s (Operation.stepsAll s ops) := by
  cases ops with
  | nil => rfl
  | cons op ops =>
      rw [Operation.runAll, Operation.stepsAll, Step.runAll_append,
        ← Operation.run_eq_steps s op]
      exact Operation.runAll_eq_steps _ ops

/-- Asking members in turn is a run of steps, those of what happens meanwhile included. -/
theorem ask_eq_steps (s : Situation) (node : Member) (probes : List Probe)
    (questionable : List Contact) :
    (ask s node probes questionable).1 = Step.runAll s (askSteps s node probes questionable) := by
  match probes, questionable with
  | probes, [] => rw [ask, askSteps, Step.runAll_nil]
  | [], asked :: questionable => exact askUnscripted_eq_steps ..
  | .mk during answers :: probes, asked :: questionable =>
      rw [ask, askSteps, Step.runAll_append, Step.runAll_cons, Step.run,
        ← Operation.runAll_eq_steps s during]
      generalize Operation.runAll s during = s'
      rcases s'.table.resume s'.now node asked.id answers with ⟨table, _ | outcome⟩
      · exact ask_eq_steps _ node probes questionable
      · rfl

end

end Mainline.Routing
