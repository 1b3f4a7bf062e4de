import Mainline.Proofs.Routing.Offer
import Mainline.Proofs.Routing.Step

/-!
# The invariant of the routing table

An offer that asks members lets go of the table while it waits for their answers and later goes on
from what it noted before. This module proves that the table stays in order nevertheless, whatever
happens between the steps of an offer.

A table is *well formed* (`Table.WellFormed`) if every member lies in the bucket its id belongs
to, no bucket holds an id twice, and no bucket holds more members than it may. All that a step can
do to the ids in the buckets, removals apart, is one of three *edits* (`Edit`); an edit keeps the
table well formed and shortens no bucket.

## Main results

* `Edit.wellFormed`, `Edit.length_le`: what an edit preserves.
* `Step.wellFormed_run`, `Step.length_le_run`: the same for a step.
* `Table.WellFormed.nodup_members`: no id occurs twice in a well-formed table.
-/

namespace Mainline.Routing

/-- A table is **well formed** if its members are where they belong, each once, and no bucket
holds too many. -/
structure Table.WellFormed (t : Table) : Prop where
  shared : ∀ i : Fin 160, ∀ id ∈ (t.bucket i).ids, t.localId.sharedBits id = i
  nodup : ∀ i : Fin 160, (t.bucket i).ids.Nodup
  bounded : ∀ i : Fin 160, (t.bucket i).members.length ≤ t.capacity

/-- What a step can do to the ids in the buckets, removals apart: leave them alone, put a new one
last in its bucket, or put a new one in the place of another. -/
inductive Edit (t : Table) : Table → Prop
  | same {t' : Table} (localId : t'.localId = t.localId) (capacity : t'.capacity = t.capacity)
      (ids : ∀ i : Fin 160, (t'.bucket i).ids = (t.bucket i).ids) : Edit t t'
  | push {i : Fin 160} {node : Member} (now : Instant) (belongs : t.bucketIndex? node.id = some i)
      (absent : node.id ∉ (t.bucket i).ids) (room : (t.bucket i).members.length < t.capacity) :
      Edit t (t.modifyBucket i (·.push node now))
  | replace {i : Fin 160} {node : Member} (old : Key) (now : Instant)
      (belongs : t.bucketIndex? node.id = some i) (absent : node.id ∉ (t.bucket i).ids) :
      Edit t (t.modifyBucket i (·.replace old node now))

/-- Changing a bucket without touching its ids is an edit. -/
theorem Edit.modifyBucket {t : Table} {i : Fin 160} {f : Bucket → Bucket}
    (hids : (f (t.bucket i)).ids = (t.bucket i).ids) : Edit t (t.modifyBucket i f) :=
  .same rfl rfl (t.ids_bucket_modifyBucket hids)

/-! ### What an edit preserves -/

/-- A table is well formed if it differs from a well-formed one in a single bucket that is itself
in order. -/
theorem Table.WellFormed.modifyBucket {t : Table} (h : t.WellFormed) {i : Fin 160}
    {f : Bucket → Bucket} (hshared : ∀ id ∈ (f (t.bucket i)).ids, t.localId.sharedBits id = i)
    (hnodup : (f (t.bucket i)).ids.Nodup)
    (hbounded : (f (t.bucket i)).members.length ≤ t.capacity) :
    (t.modifyBucket i f).WellFormed := by
  refine ⟨fun j => ?_, fun j => ?_, fun j => ?_⟩ <;> by_cases hj : j = i
  · subst hj
    rw [Table.modifyBucket_same]
    exact hshared
  · rw [Table.modifyBucket_other t f hj]
    exact h.shared j
  · subst hj
    rw [Table.modifyBucket_same]
    exact hnodup
  · rw [Table.modifyBucket_other t f hj]
    exact h.nodup j
  · subst hj
    rw [Table.modifyBucket_same]
    exact hbounded
  · rw [Table.modifyBucket_other t f hj]
    exact h.bounded j

/-- A new id may take the place of any other without occurring twice. -/
theorem nodup_map_replace {ids : List Key} {new : Key} (old : Key) (hnodup : ids.Nodup)
    (hnew : new ∉ ids) : (ids.map fun id => if id = old then new else id).Nodup := by
  refine hnodup.map_on fun x hx y hy heq => ?_
  by_cases hxo : x = old <;> by_cases hyo : y = old
  · rw [hxo, hyo]
  · simp only [hxo, hyo, if_true, if_false] at heq
    exact absurd (heq ▸ hy) hnew
  · simp only [hxo, hyo, if_true, if_false] at heq
    exact absurd (heq ▸ hx) hnew
  · simpa [hxo, hyo] using heq

/-- An edit keeps a table well formed. -/
theorem Edit.wellFormed {t t' : Table} (edit : Edit t t') (h : t.WellFormed) : t'.WellFormed := by
  cases edit with
  | same localId capacity ids =>
      refine ⟨fun i => ?_, fun i => ?_, fun i => ?_⟩
      · rw [ids, localId]
        exact h.shared i
      · rw [ids]
        exact h.nodup i
      · rw [← Bucket.length_ids, ids, Bucket.length_ids, capacity]
        exact h.bounded i
  | @push i node now belongs absent room =>
      have hnode := (t.bucketIndex?_eq_some_iff _ _).mp belongs
      refine h.modifyBucket ?_ ?_ ?_
      · simp only [Bucket.ids_push, List.mem_append, List.mem_singleton]
        rintro id (hid | rfl)
        · exact h.shared i id hid
        · exact hnode
      · rw [Bucket.ids_push]
        exact (h.nodup i).append (List.nodup_singleton _) (List.disjoint_singleton.mpr absent)
      · rw [← Bucket.length_ids, Bucket.ids_push, List.length_append, Bucket.length_ids]
        exact room
  | @replace i node old now belongs absent =>
      have hnode := (t.bucketIndex?_eq_some_iff _ _).mp belongs
      refine h.modifyBucket ?_ ?_ ?_
      · simp only [Bucket.ids_replace, List.mem_map]
        rintro _ ⟨id, hid, rfl⟩
        split
        · exact hnode
        · exact h.shared i id hid
      · rw [Bucket.ids_replace]
        exact nodup_map_replace old (h.nodup i) absent
      · simpa [Bucket.replace] using h.bounded i

/-- An edit shortens no bucket. -/
theorem Edit.length_le {t t' : Table} (edit : Edit t t') (j : Fin 160) :
    (t.bucket j).members.length ≤ (t'.bucket j).members.length := by
  cases edit with
  | same localId capacity ids =>
      exact Nat.le_of_eq (by rw [← Bucket.length_ids, ← Bucket.length_ids, ids])
  | @push i node now belongs absent room =>
      by_cases hj : j = i
      · subst hj
        rw [Table.modifyBucket_same]
        simp [Bucket.push]
      · exact Nat.le_of_eq (by rw [Table.modifyBucket_other t _ hj])
  | @replace i node old now belongs absent =>
      by_cases hj : j = i
      · subst hj
        rw [Table.modifyBucket_same]
        simp [Bucket.replace]
      · exact Nat.le_of_eq (by rw [Table.modifyBucket_other t _ hj])

/-- An edit changes neither the table's own id nor its capacity. -/
theorem Edit.frame {t t' : Table} (edit : Edit t t') :
    t'.localId = t.localId ∧ t'.capacity = t.capacity := by
  cases edit with
  | same localId capacity ids => exact ⟨localId, capacity⟩
  | push | replace => exact ⟨rfl, rfl⟩

/-! ### Every step is made of edits -/

/-- Placing an offer is an edit. -/
theorem Table.edit_place (t : Table) (now : Instant) (node : Member) :
    Edit t (t.place now node).1 := by
  have placed := t.place_placed now node
  generalize t.place now node = result at placed ⊢
  cases placed with
  | ignored own => exact .same rfl rfl fun _ => rfl
  | @refreshed i belongs present =>
      dsimp only
      refine .modifyBucket ?_
      exact Bucket.ids_modify _ fun m _ => m.id_renewed node now
  | added belongs absent room => exact .push now belongs absent room
  | @replaced i bad belongs absent full first => exact .replace bad.id now belongs absent
  | rejected | contested => exact .same rfl rfl fun _ => rfl

/-- An offer that asks nobody is an edit. -/
theorem Table.edit_observe (t : Table) (now : Instant) (node : Member) :
    Edit t (t.observe now node).1 := by
  rw [t.fst_observe]
  exact t.edit_place now node

/-- Marking a failure is an edit. -/
theorem Table.edit_markFailed (t : Table) (id : Key) : Edit t (t.markFailed id) := by
  obtain hsame | ⟨i, hchange⟩ := t.markFailed_cases id
  · rw [hsame]
    exact .same rfl rfl fun _ => rfl
  · rw [hchange]
    refine .modifyBucket ?_
    exact Bucket.ids_modify _ fun m hm => hm

/-- Marking a sign of life is an edit. -/
theorem Table.edit_markSeen (t : Table) (now : Instant) (id : Key) :
    Edit t (t.markSeen now id) := by
  obtain hsame | ⟨i, hchange⟩ := t.markSeen_cases now id
  · rw [hsame]
    exact .same rfl rfl fun _ => rfl
  · rw [hchange]
    refine .modifyBucket ?_
    exact Bucket.ids_modify _ fun m hm => hm

/-- Going on with an offer is two edits: the failure of the member that was asked is marked, and
then the offer is looked at again. -/
theorem Table.edit_resume (t : Table) (now : Instant) (node : Member) (asked : Key)
    (answered : Bool) : ∃ t₁, Edit t t₁ ∧ Edit t₁ (t.resume now node asked answered).1 := by
  cases answered with
  | true => exact ⟨t, .same rfl rfl fun _ => rfl, t.edit_markSeen now asked⟩
  | false =>
      refine ⟨t.markFailed asked, t.edit_markFailed asked, ?_⟩
      have resumed := t.resume_resumed now node asked
      generalize t.resume now node asked false = result at resumed ⊢
      cases resumed with
      | ignored | refreshed | undecided => exact .same rfl rfl fun _ => rfl
      | replaced belongs absent held => exact .replace asked now belongs absent
      | added belongs absent gone room => exact .push now belongs absent room

/-- Every step but a removal is made of two edits at most. -/
theorem Step.edits {s : Situation} {step : Step} (h : ∀ id, step ≠ .remove id) :
    ∃ t, Edit s.table t ∧ Edit t (step.run s).table := by
  have hrefl : Edit s.table s.table := .same rfl rfl fun _ => rfl
  cases step with
  | observe node => exact ⟨_, hrefl, s.table.edit_observe s.now node⟩
  | place node => exact ⟨_, hrefl, s.table.edit_place s.now node⟩
  | resume node asked answered => exact s.table.edit_resume s.now node asked answered
  | remove id => exact absurd rfl (h id)
  | markFailed id => exact ⟨_, hrefl, s.table.edit_markFailed id⟩
  | markSeen id => exact ⟨_, hrefl, s.table.edit_markSeen s.now id⟩
  | wait duration => exact ⟨_, hrefl, hrefl⟩

/-! ### What steps preserve -/

/-- Dropping a member keeps a table well formed. -/
theorem Table.WellFormed.remove {t : Table} (h : t.WellFormed) (id : Key) :
    (t.remove id).1.WellFormed := by
  rw [Table.remove]
  split
  · exact h
  · next i _ =>
      split
      · exact h
      · dsimp only
        refine h.modifyBucket ?_ ?_ ?_
        · rw [Bucket.ids_erase]
          exact fun id' hid => h.shared i id' (List.mem_of_mem_filter hid)
        · rw [Bucket.ids_erase]
          exact (h.nodup i).filter _
        · exact Nat.le_trans (List.length_filter_le _ _) (h.bounded i)

/-- A step keeps the table well formed. -/
theorem Step.wellFormed_run {s : Situation} (h : s.table.WellFormed) (step : Step) :
    (step.run s).table.WellFormed := by
  by_cases hremove : ∃ id, step = .remove id
  · obtain ⟨id, rfl⟩ := hremove
    exact h.remove id
  · obtain ⟨t, first, second⟩ := Step.edits (s := s) (not_exists.mp hremove)
    exact second.wellFormed (first.wellFormed h)

/-- No step but a removal shortens a bucket. -/
theorem Step.length_le_run (s : Situation) {step : Step} (h : ∀ id, step ≠ .remove id)
    (i : Fin 160) :
    (s.table.bucket i).members.length ≤ ((step.run s).table.bucket i).members.length := by
  obtain ⟨t, first, second⟩ := Step.edits (s := s) h
  exact Nat.le_trans (first.length_le i) (second.length_le i)

/-- A step changes neither the table's own id nor its capacity. -/
theorem Step.frame_run (s : Situation) (step : Step) :
    (step.run s).table.localId = s.table.localId ∧
      (step.run s).table.capacity = s.table.capacity := by
  by_cases hremove : ∃ id, step = .remove id
  · obtain ⟨id, rfl⟩ := hremove
    simp only [Step.run, Table.remove]
    split
    · exact ⟨rfl, rfl⟩
    · split <;> exact ⟨rfl, rfl⟩
  · obtain ⟨t, first, second⟩ := Step.edits (s := s) (not_exists.mp hremove)
    exact ⟨second.frame.1.trans first.frame.1, second.frame.2.trans first.frame.2⟩

/-- A run of steps keeps the table well formed. -/
theorem Step.wellFormed_runAll {s : Situation} (h : s.table.WellFormed) (steps : List Step) :
    (Step.runAll s steps).table.WellFormed := by
  induction steps generalizing s with
  | nil => exact h
  | cons step steps ih => exact ih (step.wellFormed_run h)

/-- A run of steps changes neither the table's own id nor its capacity. -/
theorem Step.frame_runAll (s : Situation) (steps : List Step) :
    (Step.runAll s steps).table.localId = s.table.localId ∧
      (Step.runAll s steps).table.capacity = s.table.capacity := by
  induction steps generalizing s with
  | nil => exact ⟨rfl, rfl⟩
  | cons step steps ih =>
      have hstep := step.frame_run s
      exact ⟨(ih (step.run s)).1.trans hstep.1, (ih (step.run s)).2.trans hstep.2⟩

/-! ### Runs from the empty table -/

/-- The empty table is well formed. -/
theorem Table.wellFormed_empty (localId : Key) (capacity : ℕ) (now : Instant) :
    (Table.empty localId capacity now).WellFormed := by
  refine ⟨fun i => ?_, fun i => ?_, fun i => ?_⟩ <;> simp [Table.empty, Table.bucket, Bucket.ids]

/-- The members of a table are those of its buckets. -/
theorem Table.mem_members_iff (t : Table) (m : Member) :
    m ∈ t.members ↔ ∃ i : Fin 160, m ∈ (t.bucket i).members := by
  simp only [Table.members, List.mem_flatMap, Vector.mem_toList_iff, Vector.mem_iff_getElem]
  constructor
  · rintro ⟨_, ⟨i, hi, rfl⟩, hm⟩
    exact ⟨⟨i, hi⟩, hm⟩
  · rintro ⟨i, hm⟩
    exact ⟨_, ⟨i, i.isLt, rfl⟩, hm⟩

theorem Table.members_eq_nil_iff {t : Table} :
    t.members = [] ↔ ∀ i : Fin 160, (t.bucket i).members = [] := by
  simp only [List.eq_nil_iff_forall_not_mem, t.mem_members_iff, not_exists]
  exact forall_comm

/-- **No id occurs twice** in a well-formed table: not within a bucket, and not in two of them,
since a bucket holds only ids that share their number of bits with the table's own. -/
theorem Table.WellFormed.nodup_members {t : Table} (h : t.WellFormed) :
    (t.members.map Member.id).Nodup := by
  have hflat : t.members.map Member.id = t.buckets.toList.flatMap Bucket.ids := by
    simp only [Table.members, List.map_flatMap]
    rfl
  rw [hflat, List.nodup_flatMap]
  constructor
  · intro b hb
    obtain ⟨i, hi, rfl⟩ := Vector.mem_iff_getElem.mp (Vector.mem_toList_iff.mp hb)
    exact h.nodup ⟨i, hi⟩
  · rw [List.pairwise_iff_getElem]
    intro i j hi hj hij id hidi hidj
    have hi' : i < 160 := by simpa using hi
    have hj' : j < 160 := by simpa using hj
    have hsharedi := h.shared ⟨i, hi'⟩ id hidi
    have hsharedj := h.shared ⟨j, hj'⟩ id hidj
    rw [hsharedi] at hsharedj
    exact absurd hsharedj (Nat.ne_of_lt hij)

/-- The table's own id is none of the ids of a well-formed table: it shares all 160 bits with
itself. -/
theorem Table.WellFormed.localId_notMem {t : Table} (h : t.WellFormed) :
    t.localId ∉ t.members.map Member.id := by
  intro hmem
  obtain ⟨m, hm, hid⟩ := List.mem_map.mp hmem
  obtain ⟨i, hmi⟩ := (t.mem_members_iff m).mp hm
  have hshared := h.shared i m.id (List.mem_map_of_mem hmi)
  have hlt : t.localId.sharedBits m.id < keyBits := hshared ▸ i.isLt
  exact Key.sharedBits_lt_iff.mp hlt hid.symm

/-- **The table is in order at every step.** From the empty table, whatever steps are taken:
every member lies in the bucket of as many leading bits as its id shares with the table's own,
which is therefore never stored; no id is stored twice; no bucket outgrows the capacity, not even
a capacity of zero; and only a removal shortens a bucket. Every script, with all that happens
while members are being asked, is such a list of steps. -/
theorem orderly_at_every_step (localId : Key) (capacity : ℕ) (start : Instant) :
    let s₀ : Situation := ⟨.empty localId capacity start, start⟩
    (∀ steps : List Step,
      let t := (Step.runAll s₀ steps).table
      (∀ i : Fin 160, ∀ m ∈ (t.bucket i).members, localId.sharedBits m.id = i) ∧
      localId ∉ t.members.map Member.id ∧
      (t.members.map Member.id).Nodup ∧
      ∀ i : Fin 160, (t.bucket i).members.length ≤ capacity) ∧
    (∀ (steps : List Step) (step : Step), (∀ id, step ≠ .remove id) →
      let s := Step.runAll s₀ steps
      ∀ i : Fin 160,
        (s.table.bucket i).members.length ≤ ((step.run s).table.bucket i).members.length) ∧
    ∀ script : List Operation,
      Operation.runAll s₀ script = Step.runAll s₀ (Operation.stepsAll s₀ script) := by
  intro s₀
  have hempty : s₀.table.WellFormed := Table.wellFormed_empty localId capacity start
  refine ⟨fun steps => ?_, fun steps step hstep => ?_, fun script => ?_⟩
  · have h := Step.wellFormed_runAll hempty steps
    obtain ⟨hlocal, hcapacity⟩ := Step.frame_runAll s₀ steps
    have hlocal : (Step.runAll s₀ steps).table.localId = localId := hlocal
    have hcapacity : (Step.runAll s₀ steps).table.capacity = capacity := hcapacity
    refine ⟨fun i m hm => ?_, ?_, h.nodup_members, fun i => ?_⟩
    · rw [← hlocal]
      exact h.shared i m.id (List.mem_map_of_mem hm)
    · rw [← hlocal]
      exact h.localId_notMem
    · rw [← hcapacity]
      exact h.bounded i
  · exact Step.length_le_run _ hstep
  · exact Operation.runAll_eq_steps s₀ script

/-- A full bucket of one: while its member is being asked, it is removed and another node comes.
The offer finds no room, and the table holds the other node alone. -/
theorem orderly_while_asking :
    let s₀ : Situation := ⟨.empty ⟨0⟩ 1 0, 0⟩
    let contact (n : ℕ) : Contact := ⟨⟨BitVec.allOnes 160 - BitVec.ofNat 160 n⟩, default⟩
    let script : List Operation :=
      [.observe (contact 1) .hearsay,
        .insert (contact 2) .active
          [.mk [.remove (contact 1).id, .observe (contact 3) .active] false]]
    let steps := Operation.stepsAll s₀ script
    let t := (Step.runAll s₀ steps).table
    (steps.length = 5 ∧ t.members.map Member.id = [(contact 3).id]) ∧
      (t.members.map Member.id).Nodup ∧
      ((∀ id, Step.markFailed (contact 3).id ≠ .remove id) ∧
        ∀ i : Fin 160, (t.bucket i).members.length ≤
          (((Step.markFailed (contact 3).id).run ⟨t, 0⟩).table.bucket i).members.length) := by
  have law := orderly_at_every_step ⟨0⟩ 1 0
  exact ⟨⟨by decide, by decide⟩, (law.1 _).2.2.1, by simp, law.2.1 _ _ (by simp)⟩

end Mainline.Routing
