import Mainline.Proofs.Activity.Site

/-!
# How requests end

A task ends with a result, or with a crew whose jobs go on. What is done at a node does not depend
on what becomes of a result, so a task may be taken for the same activity with the result discarded.
With a crew it is different: its jobs are begun sooner or later, and are work that a node gives
itself.

## Main results

* `Simulation.World.turnJob_discard`: a job has the same turns whether its result is discarded or
  not.
* `Activity.endsWith_request`: if a request ends with a crew, its jobs refresh buckets.
* `Simulation.World.endsWith_turnJob`: how a job ends is decided from the beginning.
-/

namespace Mainline

/-- The work of the **jobs of a crew**: refreshing a bucket, or looking up a torrent. -/
inductive Work.OfCrew : Work → Prop
  | refreshBucket (bucket : Fin 160) : OfCrew (.refreshBucket bucket)
  | lookupPeers (infoHash : Key) : OfCrew (.lookupPeers infoHash)

namespace Activity

variable {α β : Type}

/-- The activity with its result **discarded**. -/
def discard (x : Activity α) : Activity Unit :=
  x.bind fun _ => done ()

/-- In whatever course it takes, the activity **ends with** something that has a property. -/
def EndsWith (Q : α → Prop) : Activity α → Prop
  | done a => Q a
  | look k => ∀ node now, (k node now).EndsWith Q
  | put _ next => next.EndsWith Q
  | sample _ k => ∀ key, (k key).EndsWith Q
  | report _ _ next => next.EndsWith Q
  | ask _ k => ∀ replies, (k replies).EndsWith Q

theorem EndsWith.bind {Q : α → Prop} {R : β → Prop} {x : Activity α} {f : α → Activity β}
    (h : x.EndsWith Q) (hf : ∀ a, Q a → (f a).EndsWith R) : (x.bind f).EndsWith R := by
  induction x with
  | done a => exact hf a h
  | look k ih => exact fun node now => ih node now (h node now)
  | put node next ih => exact ih h
  | sample region k ih => exact fun key => ih key (h key)
  | report infoHash peers next ih => exact ih h
  | ask queries k ih => exact fun replies => ih replies (h replies)

/-- Of two activities in a row the second says how they end. -/
theorem endsWith_bind {R : β → Prop} (x : Activity α) {f : α → Activity β}
    (hf : ∀ a, (f a).EndsWith R) : (x.bind f).EndsWith R := by
  induction x with
  | done a => exact hf a
  | look k ih => exact fun node now => ih node now
  | put node next ih => exact ih
  | sample region k ih => exact fun key => ih key
  | report infoHash peers next ih => exact ih
  | ask queries k ih => exact fun replies => ih replies

end Activity

/-- All jobs of the crew are work **that is known**. -/
def Crew.Known (crew : Crew) : Prop :=
  ∀ x ∈ crew.jobs, ∃ work, Work.OfCrew work ∧ work.activity = x.discard

/-- If there is a crew in the end, its jobs are known. -/
def Ending.Known {ρ : Type} : Ending ρ → Prop
  | .result _ => True
  | .crew jobs _ => jobs.Known

theorem Upkeep.known_refreshCrew (settings : Settings) (buckets : List (Fin 160)) :
    (refreshCrew settings buckets).Known := by
  intro x hx
  obtain ⟨bucket, -, rfl⟩ := List.mem_map.mp hx
  exact ⟨.refreshBucket bucket, .refreshBucket bucket, rfl⟩

namespace Activity

theorem endsWith_withResult (x : Activity Result) :
    (Request.withResult x).EndsWith Ending.Known :=
  endsWith_bind x fun _ => trivial

theorem endsWith_refreshStale (threshold : Duration) :
    (Upkeep.refreshStale threshold).EndsWith Crew.Known :=
  endsWith_bind nodeAndTime fun _ => Upkeep.known_refreshCrew _ _

theorem endsWith_lookupRegistered : Upkeep.lookupRegistered.EndsWith Crew.Known := by
  refine endsWith_bind node fun owner x hx => ?_
  obtain ⟨infoHash, -, rfl⟩ := List.mem_map.mp hx
  refine ⟨.lookupPeers infoHash, .lookupPeers infoHash, ?_⟩
  exact (bind_assoc (Upkeep.lookupPeers infoHash) (fun _ => done 0) fun _ => done ()).symm

theorem endsWith_join (contact : Contact) :
    (Upkeep.join contact).EndsWith fun joined => ∀ crew, joined = .ok crew → crew.Known := by
  refine endsWith_bind node fun owner => ?_
  refine endsWith_bind (Lookup.nodes owner.localId (.given [contact])) fun _ => ?_
  refine endsWith_bind nodeAndTime fun p => ?_
  dsimp only
  split
  · exact nofun
  · refine endsWith_bind (insert (.active contact p.2)) fun _ => endsWith_bind node fun owner => ?_
    rintro _ ⟨⟩
    exact Upkeep.known_refreshCrew _ _

theorem endsWith_joinThrough (addresses : List Address) :
    (Upkeep.joinThrough addresses).EndsWith fun joined =>
      ∀ crew, joined = .ok crew → crew.Known := by
  induction addresses with
  | nil => exact nofun
  | cons address addresses ih =>
      refine endsWith_bind (ping address) fun reply => ?_
      split
      · exact nofun
      · exact ih
      · next id =>
          refine (endsWith_join ⟨id, address⟩).bind fun joined known => ?_
          split
          · next crew =>
              rintro _ ⟨⟩
              exact known crew rfl
          · exact ih

theorem endsWith_bootstrap :
    Upkeep.bootstrap.EndsWith fun joined => ∀ crew, joined = .ok crew → crew.Known := by
  refine endsWith_bind node fun owner => ?_
  split
  · exact nofun
  · exact endsWith_joinThrough _

theorem EndsWith.withCrew {x : Activity (Except Error Crew)}
    (h : x.EndsWith fun joined => ∀ crew, joined = .ok crew → crew.Known) :
    (Request.withCrew x).EndsWith Ending.Known := by
  refine h.bind fun joined known => ?_
  split
  · exact trivial
  · next crew => exact known crew rfl

/-- **How a request ends**: if it is with a crew, its jobs are known. -/
theorem endsWith_request (request : Request) : request.activity.EndsWith Ending.Known := by
  cases request with
  | bootstrap => exact endsWith_bootstrap.withCrew
  | join contact => exact (endsWith_join contact).withCrew
  | refreshStale threshold => exact (endsWith_refreshStale threshold).bind fun _ known => known
  | ping | findNode | getPeers | announce | query | probe | insert | refreshBucket | lookupNodes
  | lookupPeers => exact endsWith_withResult _

end Activity

namespace Simulation

variable {α : Type}

/-- What is left to do of an activity, with its result discarded. -/
def JobState.discard : JobState α → JobState Unit
  | fresh x => .fresh x.discard
  | waiting job => .waiting ⟨job.slots, fun replies => (job.resume replies).discard⟩

/-- How far an activity has come, with its result discarded. -/
def World.Progress.discard : Progress α → Progress Unit
  | .over _ => .over ()
  | .waiting job => .waiting ⟨job.slots, fun replies => (job.resume replies).discard⟩

/-- In whatever course it takes, the job **ends with** something that has a property. -/
def JobState.EndsWith (Q : α → Prop) : JobState α → Prop
  | fresh x => x.EndsWith Q
  | waiting job => ∀ replies, (job.resume replies).EndsWith Q

/-- What has ended has done so with something that has a property, and what waits will. -/
def World.Progress.EndsWith (Q : α → Prop) : Progress α → Prop
  | .over a => Q a
  | .waiting job => (JobState.waiting job).EndsWith Q

namespace World

theorem advance_discard (w : World) (i : ℕ) (waker : Waker) (x : Activity α) :
    w.advance i waker x.discard =
      ((w.advance i waker x).1, (w.advance i waker x).2.discard) := by
  induction x generalizing w with
  | done a => rfl
  | look k ih => exact ih _ _ w
  | put node next ih => exact ih (w.setNode i node)
  | sample region k ih => exact ih _ _
  | report infoHash peers next ih => exact ih _
  | ask queries k ih =>
      rw [Activity.discard, Activity.bind, advance, advance]
      dsimp only
      cases replies? (w.beginQueries i waker queries).2 with
      | none => rfl
      | some replies => exact ih replies _

/-- **A job has the same turns** whether its result is discarded or not. -/
theorem turnJob_discard (w : World) (i : ℕ) (waker : Waker) (job : JobState α) :
    w.turnJob i waker job.discard =
      ((w.turnJob i waker job).1, (w.turnJob i waker job).2.discard) := by
  cases job with
  | fresh x => exact advance_discard w i waker x
  | waiting job =>
      rw [JobState.discard, turnJob, turnJob]
      dsimp only
      cases replies? (w.turnSlots i job.slots).2 with
      | none => rfl
      | some replies => exact advance_discard _ i waker _

variable {Q : α → Prop}

theorem endsWith_advance (w : World) (i : ℕ) (waker : Waker) {x : Activity α}
    (h : x.EndsWith Q) : (w.advance i waker x).2.EndsWith Q := by
  induction x generalizing w with
  | done a => exact h
  | look k ih => exact ih _ _ w (h _ _)
  | put node next ih => exact ih _ h
  | sample region k ih => exact ih _ _ (h _)
  | report infoHash peers next ih => exact ih _ h
  | ask queries k ih =>
      rw [advance]
      dsimp only
      split
      · next replies _ => exact ih replies _ (h replies)
      · exact h

/-- **How a job ends** is decided from the beginning. -/
theorem endsWith_turnJob (w : World) (i : ℕ) (waker : Waker) {job : JobState α}
    (h : job.EndsWith Q) : (w.turnJob i waker job).2.EndsWith Q := by
  cases job with
  | fresh x => exact endsWith_advance w i waker h
  | waiting job =>
      rw [turnJob]
      dsimp only
      split
      · next replies _ => exact endsWith_advance _ i waker (h replies)
      · exact h

end World

end Simulation

end Mainline
