import Mainline.Simulation.Turn

/-!
# The course of an activity

An activity is the tree of all its courses. What it does without waiting is a function of the
moment at which it has its turn, `Activity.proceed`: it ends, or stops at queries that it has to
wait for. While it waits anything may happen to the node, so it goes on from another moment of
which nothing is known, with replies of which nothing is known. `Activity.Course` relates an
activity to the exchanges of queries and replies that such a course consists of, and to its result.

## Main results

* `Activity.proceed_bind`: how far one activity after the other gets.
* `Simulation.World.advance_proceed`: an activity gets as far in a world of nodes.
* `Activity.course_look_iff`, `Activity.course_put_iff`, `Activity.course_ask_iff`: how the course
  of an activity begins.
* `Activity.course_bind_iff`: the courses of one activity after the other.
* `Activity.course_iff_exists_courseTo`: a course ends at some moment.
* `Activity.exists_course_of_answers`: whatever it is answered, an activity comes to an end.
-/

namespace Mainline

/-- What an activity finds when it has its turn. -/
structure Moment where
  node : Node
  now : Instant
  /-- What random keys are drawn from. -/
  keys : ByteStream

/-- Queries that have been sent all at once, and the reply to each of them. -/
structure Exchange where
  queries : List (Address × Krpc.Query)
  replies : List Reply
  length_eq : replies.length = queries.length

namespace Activity

variable {α β : Type}

/-- Goes on with an activity as far as it gets without waiting: the moment it leaves, and what is
left to do. -/
def proceed : Activity α → Moment → Moment × Activity α
  | done a, m => (m, done a)
  | look k, m => (k m.node m.now).proceed m
  | put node next, m => next.proceed { m with node }
  | sample region k, m =>
    let (key, keys) := region.sample m.keys
    (k key).proceed { m with keys }
  | report _ _ next, m => next.proceed m
  | ask queries k, m => (m, ask queries k)

/-- **One activity after the other** gets as far as the first does, and then on from there. -/
theorem proceed_bind (x : Activity α) (f : α → Activity β) (m : Moment) :
    (x.bind f).proceed m = ((x.proceed m).2.bind f).proceed (x.proceed m).1 := by
  induction x generalizing m with
  | done a => rfl
  | look k ih => exact ih _ _ m
  | put node next ih => exact ih _
  | sample region k ih => exact ih _ _
  | report infoHash peers next ih => exact ih m
  | ask queries k ih => rfl

/-- The activity takes a **course** that begins at a moment: it sends queries and gets replies to
them, time and again, and ends with a result. -/
inductive Course : Moment → Activity α → List Exchange → α → Prop
  | ended {m : Moment} {x : Activity α} {a : α} (ends : (x.proceed m).2 = done a) : Course m x [] a
  | asks {m : Moment} {x : Activity α} {k : List Reply → Activity α} {exchanges : List Exchange}
      {a : α} (exchange : Exchange) (later : Moment)
      (stops : (x.proceed m).2 = ask exchange.queries k)
      (goesOn : Course later (k exchange.replies) exchanges a) :
      Course m x (exchange :: exchanges) a

/-- A course depends on what is left to do alone. -/
theorem Course.congr {m m' : Moment} {x y : Activity α} {exchanges : List Exchange} {a : α}
    (hrest : (x.proceed m).2 = (y.proceed m').2) (course : Course m x exchanges a) :
    Course m' y exchanges a := by
  cases course with
  | ended ends => exact .ended (hrest ▸ ends)
  | asks exchange later stops goesOn => exact .asks exchange later (hrest ▸ stops) goesOn

/-- The activity takes a course that ends at the moment `final`. -/
inductive CourseTo : Moment → Activity α → List Exchange → Moment → α → Prop
  | ended {m final : Moment} {x : Activity α} {a : α} (ends : x.proceed m = (final, done a)) :
      CourseTo m x [] final a
  | asks {m final : Moment} {x : Activity α} {k : List Reply → Activity α}
      {exchanges : List Exchange} {a : α} (exchange : Exchange) (later : Moment)
      (stops : (x.proceed m).2 = ask exchange.queries k)
      (goesOn : CourseTo later (k exchange.replies) exchanges final a) :
      CourseTo m x (exchange :: exchanges) final a

/-- **Every course ends at some moment**, and apart from that it is the same. -/
theorem course_iff_exists_courseTo {m : Moment} {x : Activity α} {exchanges : List Exchange}
    {a : α} : Course m x exchanges a ↔ ∃ final, CourseTo m x exchanges final a := by
  constructor
  · intro course
    induction course with
    | ended ends => exact ⟨_, .ended (Prod.ext rfl ends)⟩
    | asks exchange later stops _ ih =>
        obtain ⟨final, courseTo⟩ := ih
        exact ⟨final, .asks exchange later stops courseTo⟩
  · rintro ⟨final, courseTo⟩
    induction courseTo with
    | ended ends => exact .ended (congrArg Prod.snd ends)
    | asks exchange later stops _ ih => exact .asks exchange later stops ih

theorem CourseTo.congr {m m' final : Moment} {x y : Activity α} {exchanges : List Exchange} {a : α}
    (hrest : x.proceed m = y.proceed m') (course : CourseTo m x exchanges final a) :
    CourseTo m' y exchanges final a := by
  cases course with
  | ended ends => exact .ended (hrest ▸ ends)
  | asks exchange later stops goesOn => exact .asks exchange later (hrest ▸ stops) goesOn

theorem courseTo_done_iff {m final : Moment} {a b : α} {exchanges : List Exchange} :
    CourseTo m (done a) exchanges final b ↔ exchanges = [] ∧ final = m ∧ b = a := by
  constructor
  · intro course
    cases course with
    | ended ends =>
        cases ends
        exact ⟨rfl, rfl, rfl⟩
    | asks exchange later stops goesOn => cases stops
  · rintro ⟨rfl, rfl, rfl⟩
    exact .ended rfl

theorem courseTo_look_iff {m final : Moment} {k : Node → Instant → Activity α}
    {exchanges : List Exchange} {a : α} :
    CourseTo m (look k) exchanges final a ↔ CourseTo m (k m.node m.now) exchanges final a :=
  ⟨.congr rfl, .congr rfl⟩

theorem courseTo_put_iff {m final : Moment} {node : Node} {next : Activity α}
    {exchanges : List Exchange} {a : α} :
    CourseTo m (put node next) exchanges final a ↔
      CourseTo { m with node } next exchanges final a :=
  ⟨.congr rfl, .congr rfl⟩

theorem courseTo_sample_iff {m final : Moment} {region : Prefix} {k : Key → Activity α}
    {exchanges : List Exchange} {a : α} :
    CourseTo m (sample region k) exchanges final a ↔
      CourseTo { m with keys := (region.sample m.keys).2 } (k (region.sample m.keys).1) exchanges
        final a :=
  ⟨.congr rfl, .congr rfl⟩

theorem courseTo_report_iff {m final : Moment} {infoHash : Key} {peers : List Address}
    {next : Activity α} {exchanges : List Exchange} {a : α} :
    CourseTo m (report infoHash peers next) exchanges final a ↔
      CourseTo m next exchanges final a :=
  ⟨.congr rfl, .congr rfl⟩

theorem courseTo_ask_iff {m final : Moment} {queries : List (Address × Krpc.Query)}
    {k : List Reply → Activity α} {exchanges : List Exchange} {a : α} :
    CourseTo m (ask queries k) exchanges final a ↔
      ∃ exchange later rest, exchanges = exchange :: rest ∧ exchange.queries = queries ∧
        CourseTo later (k exchange.replies) rest final a := by
  constructor
  · intro course
    cases course with
    | ended ends => cases ends
    | asks exchange later stops goesOn =>
        cases stops
        exact ⟨exchange, later, _, rfl, rfl, goesOn⟩
  · rintro ⟨exchange, later, rest, rfl, rfl, goesOn⟩
    exact .asks exchange later rfl goesOn

/-- **The courses of one activity after the other**: a course of the first one, and from where it
ends a course of what follows from its result. -/
theorem courseTo_bind_iff {m final : Moment} {x : Activity α} {f : α → Activity β}
    {exchanges : List Exchange} {b : β} :
    CourseTo m (x >>= f) exchanges final b ↔
      ∃ first rest a between, exchanges = first ++ rest ∧ CourseTo m x first between a ∧
        CourseTo between (f a) rest final b := by
  change CourseTo m (x.bind f) exchanges final b ↔ _
  induction x generalizing m exchanges with
  | done a =>
      simp only [courseTo_done_iff]
      constructor
      · intro course
        exact ⟨[], exchanges, a, m, rfl, ⟨rfl, rfl, rfl⟩, course⟩
      · rintro ⟨_, rest, _, _, rfl, ⟨rfl, rfl, rfl⟩, course⟩
        exact course
  | look k ih =>
      simp only [courseTo_look_iff]
      exact courseTo_look_iff.trans (ih m.node m.now)
  | put node next ih =>
      simp only [courseTo_put_iff]
      exact courseTo_put_iff.trans ih
  | sample region k ih =>
      simp only [courseTo_sample_iff]
      exact courseTo_sample_iff.trans (ih _)
  | report infoHash peers next ih =>
      simp only [courseTo_report_iff]
      exact courseTo_report_iff.trans ih
  | ask queries k ih =>
      simp only [courseTo_ask_iff]
      refine courseTo_ask_iff.trans ⟨?_, ?_⟩
      · rintro ⟨exchange, later, rest, rfl, sent, goesOn⟩
        obtain ⟨first, rest, a, between, rfl, course, goesOn⟩ := (ih exchange.replies).mp goesOn
        exact ⟨exchange :: first, rest, a, between, rfl,
          ⟨exchange, later, first, rfl, sent, course⟩, goesOn⟩
      · rintro ⟨_, rest, a, between, rfl, ⟨exchange, later, first, rfl, sent, course⟩, goesOn⟩
        exact ⟨exchange, later, first ++ rest, rfl, sent,
          (ih exchange.replies).mpr ⟨first, rest, a, between, rfl, course, goesOn⟩⟩

@[simp] theorem course_done_iff {m : Moment} {a b : α} {exchanges : List Exchange} :
    Course m (done a) exchanges b ↔ exchanges = [] ∧ b = a := by
  simp [course_iff_exists_courseTo, courseTo_done_iff]

theorem course_look_iff {m : Moment} {k : Node → Instant → Activity α}
    {exchanges : List Exchange} {a : α} :
    Course m (look k) exchanges a ↔ Course m (k m.node m.now) exchanges a :=
  ⟨.congr rfl, .congr rfl⟩

theorem course_put_iff {m : Moment} {node : Node} {next : Activity α} {exchanges : List Exchange}
    {a : α} : Course m (put node next) exchanges a ↔ Course { m with node } next exchanges a :=
  ⟨.congr rfl, .congr rfl⟩

theorem course_sample_iff {m : Moment} {region : Prefix} {k : Key → Activity α}
    {exchanges : List Exchange} {a : α} :
    Course m (sample region k) exchanges a ↔
      Course { m with keys := (region.sample m.keys).2 } (k (region.sample m.keys).1) exchanges a :=
  ⟨.congr rfl, .congr rfl⟩

theorem course_report_iff {m : Moment} {infoHash : Key} {peers : List Address}
    {next : Activity α} {exchanges : List Exchange} {a : α} :
    Course m (report infoHash peers next) exchanges a ↔ Course m next exchanges a :=
  ⟨.congr rfl, .congr rfl⟩

theorem course_ask_iff {m : Moment} {queries : List (Address × Krpc.Query)}
    {k : List Reply → Activity α} {exchanges : List Exchange} {a : α} :
    Course m (ask queries k) exchanges a ↔
      ∃ exchange later rest, exchanges = exchange :: rest ∧ exchange.queries = queries ∧
        Course later (k exchange.replies) rest a := by
  simp only [course_iff_exists_courseTo, courseTo_ask_iff]
  constructor
  · rintro ⟨final, exchange, later, rest, rfl, sent, goesOn⟩
    exact ⟨exchange, later, rest, rfl, sent, final, goesOn⟩
  · rintro ⟨exchange, later, rest, rfl, sent, final, goesOn⟩
    exact ⟨final, exchange, later, rest, rfl, sent, goesOn⟩

theorem course_bind_iff {m : Moment} {x : Activity α} {f : α → Activity β}
    {exchanges : List Exchange} {b : β} :
    Course m (x >>= f) exchanges b ↔
      ∃ first rest a between, exchanges = first ++ rest ∧ CourseTo m x first between a ∧
        Course between (f a) rest b := by
  simp only [course_iff_exists_courseTo, courseTo_bind_iff]
  constructor
  · rintro ⟨final, first, rest, a, between, rfl, course, goesOn⟩
    exact ⟨first, rest, a, between, rfl, course, final, goesOn⟩
  · rintro ⟨first, rest, a, between, rfl, course, final, goesOn⟩
    exact ⟨final, first, rest, a, between, rfl, course, goesOn⟩

/-- **Every activity comes to an end**, whatever it is answered: some course of it has the replies
that are given to its queries, in view of the exchanges before them. -/
theorem exists_course_of_answers (x : Activity α) (m : Moment)
    (answers : List Exchange → List (Address × Krpc.Query) → List Reply)
    (length_eq : ∀ before queries, (answers before queries).length = queries.length) :
    ∃ exchanges a, Course m x exchanges a ∧
      ∀ before e after, exchanges = before ++ e :: after → e.replies = answers before e.queries := by
  induction x generalizing m answers with
  | done a => exact ⟨[], a, .ended rfl, by simp⟩
  | look k ih =>
      obtain ⟨exchanges, a, course, given⟩ := ih m.node m.now m answers length_eq
      exact ⟨exchanges, a, course_look_iff.mpr course, given⟩
  | put node next ih =>
      obtain ⟨exchanges, a, course, given⟩ := ih { m with node } answers length_eq
      exact ⟨exchanges, a, course_put_iff.mpr course, given⟩
  | sample region k ih =>
      obtain ⟨exchanges, a, course, given⟩ :=
        ih _ { m with keys := (region.sample m.keys).2 } answers length_eq
      exact ⟨exchanges, a, course_sample_iff.mpr course, given⟩
  | report infoHash peers next ih =>
      obtain ⟨exchanges, a, course, given⟩ := ih m answers length_eq
      exact ⟨exchanges, a, course_report_iff.mpr course, given⟩
  | ask queries k ih =>
      let exchange : Exchange := ⟨queries, answers [] queries, length_eq [] queries⟩
      obtain ⟨rest, a, course, given⟩ := ih exchange.replies m
        (fun before => answers (exchange :: before)) fun before => length_eq (exchange :: before)
      refine ⟨exchange :: rest, a, .asks exchange m rfl course, fun before e after heq => ?_⟩
      cases before with
      | nil =>
          obtain ⟨rfl, -⟩ := List.cons.inj heq
          rfl
      | cons first before =>
          obtain ⟨rfl, hrest⟩ := List.cons.inj heq
          exact given before e after hrest

end Activity

/-! ### In a world of nodes -/

namespace Simulation.World

/-- What a task of a node finds in a world when it has its turn. -/
def momentAt (w : World) (i : Nat) : Moment :=
  ⟨w.node i, w.now, w.entropy.keys⟩

theorem node_setNode {w : World} {i : Nat} (hi : i < w.nodes.length) (node : Node) :
    (w.setNode i node).node i = node := by
  simp [World.node, setNode, hi]

/-- **An activity gets as far in a world of nodes**, and leaves its node, the clock and the stream
of keys there as `Activity.proceed` says; only then it is over, or sends queries. -/
theorem advance_proceed {α : Type} {w : World} {i : Nat} (hi : i < w.nodes.length) (waker : Waker)
    (x : Activity α) :
    ∃ w' : World, w'.momentAt i = (x.proceed (w.momentAt i)).1 ∧
      w.advance i waker x = w'.advance i waker (x.proceed (w.momentAt i)).2 := by
  induction x generalizing w with
  | done a => exact ⟨w, rfl, rfl⟩
  | look k ih => exact ih (w.node i) w.now hi
  | put node next ih =>
      have hi' : i < (w.setNode i node).nodes.length := by simpa [setNode] using hi
      have hmoment : (w.setNode i node).momentAt i = { w.momentAt i with node } :=
        congrArg (Moment.mk · w.now w.entropy.keys) (node_setNode hi node)
      obtain ⟨w', hleft, hadvance⟩ := ih hi'
      rw [hmoment] at hleft hadvance
      exact ⟨w', hleft, hadvance⟩
  | sample region k ih =>
      let keys := (region.sample w.entropy.keys).2
      exact ih _ (w := { w with entropy := { w.entropy with keys } }) hi
  | report infoHash peers next ih =>
      rw [advance]
      cases (w.node i).listener with
      | none => exact ih hi
      | some listener =>
          exact ih (w := { w with heard := w.heard ++ [⟨listener, w.now, infoHash, peers⟩] }) hi
  | ask queries k ih => exact ⟨w, rfl, rfl⟩

end Simulation.World

end Mainline
