import Mainline.Proofs.Routing.WellFormed

/-!
# Where members come from

A member that a table holds after a step was there before, or it has just been offered, or it is
one of the old members with its record changed: renewed by an offer, touched by a sign of life, or
marked with a failure. `Source` lists these ways once, and what a step can do to the record of a
member is proved by cases on them.

Which members a step parts with is the other half. An offer drops nobody but a bad member when it
is placed, and nobody but the member that has been asked in vain when it goes on.

## Main results

* `Step.source_of_mem_run`: every member has one of the sources.
* `Table.bad_of_lost_place`, `Table.lost_resume_iff`: whom an offer evicts.
-/

namespace Mainline.Routing

/-! ### What a step says of nodes -/

/-- The step **offers** a node: it begins an offer, or goes on with one once a member has been
asked in vain. -/
inductive Step.Offers (node : Member) : Step → Prop
  | observe : Offers node (.observe node)
  | place : Offers node (.place node)
  | resume (asked : Key) : Offers node (.resume node asked false)

/-- The step **sees** the node with this id: it is told of a sign of life. -/
inductive Step.Sees (id : Key) : Step → Prop
  | markSeen : Sees id (.markSeen id)
  | resume (node : Member) : Sees id (.resume node id true)

/-- The step **fails** the node with this id: it is told of a failure. -/
inductive Step.Fails (id : Key) : Step → Prop
  | markFailed : Fails id (.markFailed id)
  | resume (node : Member) : Fails id (.resume node id false)

/-- Where a member comes from that the table holds after a step. -/
inductive Source (s : Situation) (step : Step) : Member → Prop
  | kept {m : Member} (held : m ∈ s.table.members) : Source s step m
  | entered {node : Member} (offers : step.Offers node)
      (absent : node.id ∉ s.table.members.map Member.id) : Source s step node
  | renewed {node m : Member} (offers : step.Offers node) (held : m ∈ s.table.members)
      (known : m.id = node.id) : Source s step (m.renewed node s.now)
  | touched {m : Member} (sees : step.Sees m.id) (held : m ∈ s.table.members) :
      Source s step (m.touch s.now)
  | failed {m : Member} (fails : step.Fails m.id) (held : m ∈ s.table.members) :
      Source s step m.fail

/-! ### Members and their buckets -/

theorem Table.mem_ids_iff (t : Table) (id : Key) :
    id ∈ t.members.map Member.id ↔ ∃ i : Fin 160, id ∈ (t.bucket i).ids := by
  simp only [List.mem_map, t.mem_members_iff, Bucket.ids]
  constructor
  · rintro ⟨m, ⟨i, hm⟩, hid⟩
    exact ⟨i, m, hm, hid⟩
  · rintro ⟨i, m, hm, hid⟩
    exact ⟨m, ⟨i, hm⟩, hid⟩

/-- A member of a table with one bucket changed was one of the table before, or it is what the
change has made. -/
theorem Table.mem_members_modifyBucket {t : Table} {i : Fin 160} {f : Bucket → Bucket}
    {m : Member} {made : Prop} (h : m ∈ (t.modifyBucket i f).members)
    (hf : m ∈ (f (t.bucket i)).members → m ∈ (t.bucket i).members ∨ made) :
    m ∈ t.members ∨ made := by
  obtain ⟨j, hm⟩ := ((t.modifyBucket i f).mem_members_iff m).mp h
  by_cases hj : j = i
  · subst hj
    rw [modifyBucket_same] at hm
    exact (hf hm).imp_left fun hm => (t.mem_members_iff m).mpr ⟨j, hm⟩
  · rw [modifyBucket_other t f hj] at hm
    exact .inl ((t.mem_members_iff m).mpr ⟨j, hm⟩)

theorem Bucket.mem_members_push {b : Bucket} {node m : Member} {now : Instant}
    (h : m ∈ (b.push node now).members) : m ∈ b.members ∨ m = node :=
  (List.mem_append.mp h).imp_right List.mem_singleton.mp

theorem Bucket.mem_members_modify {b : Bucket} {id : Key} {f : Member → Member} {m : Member}
    (h : m ∈ (b.modify id f).members) :
    m ∈ b.members ∨ ∃ old ∈ b.members, old.id = id ∧ m = f old := by
  obtain ⟨old, hold, heq⟩ := List.mem_map.mp h
  by_cases hid : old.id = id
  · rw [if_pos hid] at heq
    exact .inr ⟨old, hold, hid, heq.symm⟩
  · rw [if_neg hid] at heq
    exact .inl (heq ▸ hold)

theorem Bucket.mem_members_replace {b : Bucket} {id : Key} {node m : Member} {now : Instant}
    (h : m ∈ (b.replace id node now).members) : m ∈ b.members ∨ m = node := by
  obtain ⟨old, hold, heq⟩ := List.mem_map.mp h
  split at heq
  · exact .inr heq.symm
  · exact .inl (heq ▸ hold)

theorem Table.mem_members_of_bucket {t : Table} {i : Fin 160} {m : Member}
    (h : m ∈ (t.bucket i).members) : m ∈ t.members :=
  (t.mem_members_iff m).mpr ⟨i, h⟩

/-- Marking a failure leaves the members as they are, but for the one that fails. -/
theorem Table.mem_members_markFailed {t : Table} {id : Key} {m : Member}
    (hm : m ∈ (t.markFailed id).members) :
    m ∈ t.members ∨ ∃ old ∈ t.members, old.id = id ∧ m = old.fail := by
  obtain hsame | ⟨i, hchange⟩ := t.markFailed_cases id
  · exact .inl (hsame ▸ hm)
  · rw [hchange] at hm
    obtain held | ⟨old, held, hid, heq⟩ := mem_members_modifyBucket hm Bucket.mem_members_modify
    · exact .inl held
    · exact .inr ⟨old, mem_members_of_bucket held, hid, heq⟩

namespace Table.WellFormed

variable {t : Table} (h : t.WellFormed)
include h

/-- In a well-formed table, an id that belongs to a bucket is held there or nowhere. -/
theorem mem_ids_iff_of_belongs {id : Key} {i : Fin 160} (belongs : t.bucketIndex? id = some i) :
    id ∈ t.members.map Member.id ↔ id ∈ (t.bucket i).ids := by
  rw [t.mem_ids_iff]
  refine ⟨fun ⟨j, hid⟩ => ?_, fun hid => ⟨i, hid⟩⟩
  have hi := (t.bucketIndex?_eq_some_iff id i).mp belongs
  have hj := h.shared j id hid
  obtain rfl : j = i := Fin.ext (hj.symm.trans hi)
  exact hid

/-- The members of a well-formed table are told apart by their ids. -/
theorem member_ext {m m' : Member} (hm : m ∈ t.members) (hm' : m' ∈ t.members)
    (hid : m.id = m'.id) : m = m' :=
  List.inj_on_of_nodup_map h.nodup_members hm hm' hid

end Table.WellFormed

/-! ### Every member has a source -/

section Sources

variable {s : Situation} {m : Member}

theorem source_markFailed {step : Step} {id : Key} (fails : step.Fails id)
    (hm : m ∈ (s.table.markFailed id).members) : Source s step m := by
  obtain held | ⟨old, held, rfl, rfl⟩ := Table.mem_members_markFailed hm
  · exact .kept held
  · exact .failed fails held

theorem source_markSeen {step : Step} {id : Key} (sees : step.Sees id)
    (hm : m ∈ (s.table.markSeen s.now id).members) : Source s step m := by
  obtain hsame | ⟨i, hchange⟩ := s.table.markSeen_cases s.now id
  · rw [hsame] at hm
    exact .kept hm
  · rw [hchange] at hm
    obtain hm | ⟨old, hold, rfl, rfl⟩ :=
      Table.mem_members_modifyBucket hm Bucket.mem_members_modify
    · exact .kept hm
    · exact .touched sees (Table.mem_members_of_bucket hold)

theorem source_place (h : s.table.WellFormed) {step : Step} {node : Member}
    (offers : step.Offers node) (hm : m ∈ (s.table.place s.now node).1.members) :
    Source s step m := by
  have placed := s.table.place_placed s.now node
  generalize s.table.place s.now node = result at placed hm
  cases placed with
  | ignored | rejected | contested => exact .kept hm
  | refreshed belongs present =>
      obtain hm | ⟨old, hold, hid, rfl⟩ :=
        Table.mem_members_modifyBucket hm Bucket.mem_members_modify
      · exact .kept hm
      · exact .renewed offers (Table.mem_members_of_bucket hold) hid
  | added belongs absent room =>
      obtain hm | rfl := Table.mem_members_modifyBucket hm Bucket.mem_members_push
      · exact .kept hm
      · exact .entered offers (mt (h.mem_ids_iff_of_belongs belongs).mp absent)
  | replaced belongs absent full first =>
      obtain hm | rfl := Table.mem_members_modifyBucket hm Bucket.mem_members_replace
      · exact .kept hm
      · exact .entered offers (mt (h.mem_ids_iff_of_belongs belongs).mp absent)

/-- Marking a failure changes no id. -/
theorem Table.ids_bucket_markFailed (t : Table) (id : Key) (j : Fin 160) :
    ((t.markFailed id).bucket j).ids = (t.bucket j).ids := by
  obtain hsame | ⟨i, hchange⟩ := t.markFailed_cases id
  · rw [hsame]
  · rw [hchange]
    refine t.ids_bucket_modifyBucket ?_ j
    exact Bucket.ids_modify _ fun m hm => hm

theorem Table.ids_bucket_markSeen (t : Table) (now : Instant) (id : Key) (j : Fin 160) :
    ((t.markSeen now id).bucket j).ids = (t.bucket j).ids := by
  obtain hsame | ⟨i, hchange⟩ := t.markSeen_cases now id
  · rw [hsame]
  · rw [hchange]
    refine t.ids_bucket_modifyBucket ?_ j
    exact Bucket.ids_modify _ fun m hm => hm

theorem source_resume (h : s.table.WellFormed) {node : Member} {asked : Key}
    (hm : m ∈ (s.table.resume s.now node asked false).1.members) :
    Source s (.resume node asked false) m := by
  have hmarked : ∀ {m : Member}, m ∈ (s.table.markFailed asked).members →
      Source s (.resume node asked false) m := source_markFailed (.resume node)
  have hids : ∀ {i : Fin 160}, s.table.bucketIndex? node.id = some i →
      node.id ∉ ((s.table.markFailed asked).bucket i).ids →
      node.id ∉ s.table.members.map Member.id := by
    intro i belongs absent
    rw [Table.ids_bucket_markFailed] at absent
    exact mt (h.mem_ids_iff_of_belongs belongs).mp absent
  have resumed := s.table.resume_resumed s.now node asked
  generalize s.table.resume s.now node asked false = result at resumed hm
  have hframe : (s.table.markFailed asked).bucketIndex? node.id = s.table.bucketIndex? node.id := by
    simp only [Table.bucketIndex?, (s.table.edit_markFailed asked).frame.1]
  cases resumed with
  | ignored | refreshed | undecided => exact hmarked hm
  | replaced belongs absent held =>
      obtain hm | rfl := Table.mem_members_modifyBucket hm Bucket.mem_members_replace
      · exact hmarked hm
      · exact .entered (.resume asked) (hids (hframe.symm.trans belongs) absent)
  | added belongs absent gone room =>
      obtain hm | rfl := Table.mem_members_modifyBucket hm Bucket.mem_members_push
      · exact hmarked hm
      · exact .entered (.resume asked) (hids (hframe.symm.trans belongs) absent)

theorem source_remove {step : Step} {id : Key} (hm : m ∈ (s.table.remove id).1.members) :
    Source s step m := by
  rw [Table.remove] at hm
  split at hm
  · exact .kept hm
  · split at hm
    · exact .kept hm
    · obtain hm | none := Table.mem_members_modifyBucket hm fun hm =>
        Or.inl (b := False) (List.mem_of_mem_filter hm)
      · exact .kept hm
      · exact none.elim

/-- **Every member has a source.** -/
theorem Step.source_of_mem_run (h : s.table.WellFormed) {step : Step}
    (hm : m ∈ (step.run s).table.members) : Source s step m := by
  cases step with
  | observe node =>
      simp only [Step.run, Table.fst_observe] at hm
      exact source_place h .observe hm
  | place node => exact source_place h .place hm
  | resume node asked answered =>
      cases answered with
      | true => exact source_markSeen (.resume node) hm
      | false => exact source_resume h hm
  | remove id => exact source_remove hm
  | markFailed id => exact source_markFailed .markFailed hm
  | markSeen id => exact source_markSeen .markSeen hm
  | wait duration => exact .kept hm

end Sources

/-! ### Whom an offer evicts -/

theorem Table.mem_ids_congr {t t' : Table}
    (hids : ∀ i : Fin 160, (t'.bucket i).ids = (t.bucket i).ids) (id : Key) :
    id ∈ t'.members.map Member.id ↔ id ∈ t.members.map Member.id := by
  simp only [Table.mem_ids_iff, hids]

/-- What is lost with a change of one bucket of a well-formed table, that bucket has lost. -/
theorem Table.WellFormed.lost_modifyBucket_iff {t : Table} (h : t.WellFormed) {i : Fin 160}
    {f : Bucket → Bucket} {id : Key} :
    id ∈ t.members.map Member.id ∧ id ∉ (t.modifyBucket i f).members.map Member.id ↔
      id ∈ (t.bucket i).ids ∧ id ∉ (f (t.bucket i)).ids := by
  simp only [Table.mem_ids_iff, not_exists]
  constructor
  · rintro ⟨⟨j, hid⟩, hlost⟩
    by_cases hj : j = i
    · subst hj
      have hgone := hlost j
      rw [Table.modifyBucket_same] at hgone
      exact ⟨hid, hgone⟩
    · have hgone := hlost j
      rw [Table.modifyBucket_other t f hj] at hgone
      exact absurd hid hgone
  · rintro ⟨hid, hgone⟩
    refine ⟨⟨i, hid⟩, fun j hmem => ?_⟩
    by_cases hj : j = i
    · subst hj
      rw [Table.modifyBucket_same] at hmem
      exact hgone hmem
    · rw [Table.modifyBucket_other t f hj] at hmem
      have hi := h.shared i id hid
      have hj' := h.shared j id hmem
      exact hj (Fin.ext (hj'.symm.trans hi))

/-- An id that is replaced by another one is the only one that its bucket loses. -/
theorem Bucket.lost_replace_iff {b : Bucket} {old id : Key} {node : Member} {now : Instant}
    (absent : node.id ∉ b.ids) :
    id ∈ b.ids ∧ id ∉ (b.replace old node now).ids ↔ id = old ∧ old ∈ b.ids := by
  rw [Bucket.ids_replace]
  constructor
  · rintro ⟨hid, hlost⟩
    by_cases hold : id = old
    · exact ⟨hold, hold ▸ hid⟩
    · refine absurd (List.mem_map.mpr ⟨id, hid, ?_⟩) hlost
      exact if_neg hold
  · rintro ⟨rfl, held⟩
    refine ⟨held, fun hmem => ?_⟩
    obtain ⟨id', hid', heq⟩ := List.mem_map.mp hmem
    split at heq
    · exact absent (heq ▸ held)
    · next hne => exact hne heq

/-- **An offer that is placed evicts bad members only.** -/
theorem Table.WellFormed.bad_of_lost_place {t : Table} (h : t.WellFormed) {now : Instant}
    {node m : Member} (held : m ∈ t.members)
    (lost : m.id ∉ (t.place now node).1.members.map Member.id) : m.standing now = .bad := by
  have hid : m.id ∈ t.members.map Member.id := List.mem_map_of_mem held
  have placed := t.place_placed now node
  generalize t.place now node = result at placed lost
  cases placed with
  | ignored | rejected | contested => exact absurd hid lost
  | refreshed belongs present =>
      refine absurd hid (mt (Table.mem_ids_congr ?_ m.id).mpr lost)
      exact t.ids_bucket_modifyBucket (Bucket.ids_modify _ fun old _ => old.id_renewed node now)
  | added belongs absent room =>
      obtain ⟨hin, hgone⟩ := h.lost_modifyBucket_iff.mp ⟨hid, lost⟩
      rw [Bucket.ids_push] at hgone
      exact absurd (List.mem_append_left _ hin) hgone
  | @replaced i bad belongs absent full first =>
      have hlost := h.lost_modifyBucket_iff.mp ⟨hid, lost⟩
      obtain ⟨heq, -⟩ := (Bucket.lost_replace_iff absent).mp hlost
      have hbad := List.find?_some first
      have hheld := Table.mem_members_of_bucket (List.mem_of_find?_eq_some first)
      rw [h.member_ext held hheld heq]
      exact of_decide_eq_true hbad

/-- An offer that goes on because a member has answered evicts nobody. -/
theorem Table.mem_ids_resume_answered_iff (t : Table) (now : Instant) (node : Member)
    (asked id : Key) :
    id ∈ (t.resume now node asked true).1.members.map Member.id ↔
      id ∈ t.members.map Member.id :=
  Table.mem_ids_congr (t.ids_bucket_markSeen now asked) id

/-- **An offer that goes on evicts the member that has been asked in vain**, whatever is known of
it, and nobody else; nor even that member if the node has become one meanwhile. -/
theorem Table.WellFormed.lost_resume_iff {t : Table} (h : t.WellFormed) {now : Instant}
    {node : Member} {asked : Key} {i : Fin 160} (belongs : t.bucketIndex? node.id = some i)
    (askedBelongs : t.bucketIndex? asked = some i) {id : Key} (held : id ∈ t.members.map Member.id) :
    id ∉ (t.resume now node asked false).1.members.map Member.id ↔
      id = asked ∧ node.id ∉ t.members.map Member.id := by
  have hmarked : (t.markFailed asked).WellFormed := (t.edit_markFailed asked).wellFormed h
  have hindex : ∀ id, (t.markFailed asked).bucketIndex? id = t.bucketIndex? id := by
    intro id
    simp only [Table.bucketIndex?, (t.edit_markFailed asked).frame.1]
  simp only [← Table.mem_ids_congr (t.ids_bucket_markFailed asked)] at held ⊢
  rw [← hindex] at belongs askedBelongs
  have resumed := t.resume_resumed now node asked
  generalize t.resume now node asked false = result at resumed ⊢
  generalize t.markFailed asked = t₁ at *
  rw [hmarked.mem_ids_iff_of_belongs belongs]
  cases resumed with
  | ignored own =>
      rw [own] at belongs
      cases belongs
  | refreshed belongs' present =>
      cases belongs.symm.trans belongs'
      simp [held, present]
  | replaced belongs' absent found =>
      cases belongs.symm.trans belongs'
      have hlost : id ∈ t₁.members.map Member.id ∧
          id ∉ (t₁.modifyBucket i (·.replace asked node now)).members.map Member.id ↔ _ :=
        hmarked.lost_modifyBucket_iff
      rw [Bucket.lost_replace_iff absent] at hlost
      simp only [held, true_and, found, and_true] at hlost
      rw [hlost]
      simp [absent]
  | added belongs' absent gone room =>
      cases belongs.symm.trans belongs'
      have hkept : ¬ id ∉ (t₁.modifyBucket i (·.push node now)).members.map Member.id := by
        intro hlost
        obtain ⟨hin, hgone⟩ := hmarked.lost_modifyBucket_iff.mp ⟨held, hlost⟩
        rw [Bucket.ids_push] at hgone
        exact hgone (List.mem_append_left _ hin)
      refine iff_of_false hkept ?_
      rintro ⟨rfl, -⟩
      exact gone ((hmarked.mem_ids_iff_of_belongs askedBelongs).mp held)
  | undecided belongs' absent gone full =>
      cases belongs.symm.trans belongs'
      refine iff_of_false (not_not.mpr held) ?_
      rintro ⟨rfl, -⟩
      exact gone ((hmarked.mem_ids_iff_of_belongs askedBelongs).mp held)

end Mainline.Routing
