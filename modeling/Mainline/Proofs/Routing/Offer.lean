import Mathlib.Data.List.Nodup
import Mainline.Routing.Table
import Mainline.Proofs.Key.Distance

/-!
# What an offer does to the routing table

`Table.place` and `Table.resume` decide an offer by a cascade of tests. This module says what they
do once and for all, as one rule for each way an offer can go, with everything that is known of
the table when it goes that way. Whatever is proved of offers is proved by cases on these rules.

The ids of a bucket, `Bucket.ids`, are what decides most of the tests; the small lemmas at the
beginning say how each change of a bucket changes them.

## Main results

* `Table.place_placed`, `Placed.place_eq`: an offer is placed by one of the rules of `Placed`, and
  by no other.
* `Table.resume_resumed`: an offer goes on, once a member has failed to answer, by one of the
  rules of `Resumed`.
-/

namespace Mainline

/-- What an offer makes of the member it finds under its id. -/
def Member.renewed (m node : Member) (now : Instant) : Member :=
  let m := { m with contact := node.contact }
  if node.lastActive.isSome then m.touch now else m

theorem Member.contact_renewed (m node : Member) (now : Instant) :
    (m.renewed node now).contact = node.contact := by
  rw [renewed]
  split <;> rfl

theorem Member.id_renewed (m node : Member) (now : Instant) : (m.renewed node now).id = node.id :=
  congrArg Contact.id (m.contact_renewed node now)

end Mainline

namespace Mainline.Routing

/-! ### The ids in a bucket -/

/-- The ids of the members of a bucket, in the order of the members. -/
def Bucket.ids (b : Bucket) : List Key :=
  b.members.map Member.id

@[simp] theorem Bucket.length_ids (b : Bucket) : b.ids.length = b.members.length := by
  simp [Bucket.ids]

/-- A bucket finds a member under exactly the ids it holds. -/
theorem Bucket.isSome_find?_iff (b : Bucket) (id : Key) :
    (b.find? id).isSome = true ↔ id ∈ b.ids := by
  simp [Bucket.find?, Bucket.ids]

/-- Changing a member without touching its id leaves the ids of the bucket as they are. -/
theorem Bucket.ids_modify (b : Bucket) {id : Key} {f : Member → Member}
    (hf : ∀ m, m.id = id → (f m).id = id) : (b.modify id f).ids = b.ids := by
  simp only [Bucket.ids, Bucket.modify, List.map_map]
  refine List.map_congr_left fun m _ => ?_
  by_cases h : m.id = id
  · simp [h, hf m h]
  · simp [h]

@[simp] theorem Bucket.ids_push (b : Bucket) (m : Member) (now : Instant) :
    (b.push m now).ids = b.ids ++ [m.id] := by
  simp [Bucket.ids, Bucket.push]

/-- The newcomer's id stands where the id it replaces stood. -/
theorem Bucket.ids_replace (b : Bucket) (old : Key) (m : Member) (now : Instant) :
    (b.replace old m now).ids = b.ids.map fun id => if id = old then m.id else id := by
  simp only [Bucket.ids, Bucket.replace, List.map_map]
  refine List.map_congr_left fun n _ => ?_
  by_cases h : n.id = old <;> simp [h]

@[simp] theorem Bucket.ids_erase (b : Bucket) (id : Key) :
    (b.erase id).ids = b.ids.filter (· != id) := by
  simp only [Bucket.ids, Bucket.erase, List.filter_map]
  rfl

/-! ### Changing one bucket -/

namespace Table

theorem modifyBucket_same (t : Table) (i : Fin 160) (f : Bucket → Bucket) :
    (t.modifyBucket i f).bucket i = f (t.bucket i) := by
  simp [bucket, modifyBucket]

theorem modifyBucket_other (t : Table) {i j : Fin 160} (f : Bucket → Bucket) (h : j ≠ i) :
    (t.modifyBucket i f).bucket j = t.bucket j := by
  have hval : (i : ℕ) ≠ j := fun heq => h (Fin.ext heq.symm)
  simp [bucket, modifyBucket, hval]

/-- Changing a bucket without touching its ids leaves the ids of all buckets as they are. -/
theorem ids_bucket_modifyBucket (t : Table) {i : Fin 160} {f : Bucket → Bucket}
    (hids : (f (t.bucket i)).ids = (t.bucket i).ids) (j : Fin 160) :
    ((t.modifyBucket i f).bucket j).ids = (t.bucket j).ids := by
  by_cases hj : j = i
  · subst hj
    rw [modifyBucket_same, hids]
  · rw [modifyBucket_other t f hj]

/-- An id belongs to bucket `i` exactly if it shares `i` leading bits with the table's own id. -/
theorem bucketIndex?_eq_some_iff (t : Table) (id : Key) (i : Fin 160) :
    t.bucketIndex? id = some i ↔ t.localId.sharedBits id = i := by
  rw [bucketIndex?]
  by_cases h : t.localId.sharedBits id < 160
  · simp [h, Fin.ext_iff]
  · simp only [h, dif_neg, not_false_eq_true, reduceCtorEq, false_iff]
    omega

/-- Only the table's own id belongs to no bucket. -/
theorem bucketIndex?_eq_none_iff (t : Table) (id : Key) :
    t.bucketIndex? id = none ↔ id = t.localId := by
  have hshared : t.localId.sharedBits id < 160 ↔ t.localId ≠ id := Key.sharedBits_lt_iff
  rw [bucketIndex?]
  split
  · next h => exact iff_of_false nofun (hshared.mp h).symm
  · next h => exact iff_of_true rfl (not_not.mp (mt hshared.mpr h)).symm

end Table

/-! ### Placing an offer -/

/-- The ways of placing an offer. -/
inductive Placed (t : Table) (now : Instant) (node : Member) : Table × Placement → Prop
  | ignored (own : t.bucketIndex? node.id = none) : Placed t now node (t, .settled .ignored)
  | refreshed {i : Fin 160} (belongs : t.bucketIndex? node.id = some i)
      (present : node.id ∈ (t.bucket i).ids) :
      Placed t now node
        (t.modifyBucket i (·.modify node.id (·.renewed node now)), .settled .refreshed)
  | added {i : Fin 160} (belongs : t.bucketIndex? node.id = some i)
      (absent : node.id ∉ (t.bucket i).ids) (room : (t.bucket i).members.length < t.capacity) :
      Placed t now node (t.modifyBucket i (·.push node now), .settled .added)
  | replaced {i : Fin 160} {bad : Member} (belongs : t.bucketIndex? node.id = some i)
      (absent : node.id ∉ (t.bucket i).ids) (full : t.capacity ≤ (t.bucket i).members.length)
      (first : (t.bucket i).members.find? (·.standing now == .bad) = some bad) :
      Placed t now node
        (t.modifyBucket i (·.replace bad.id node now), .settled (.replaced bad.id))
  | rejected {i : Fin 160} (belongs : t.bucketIndex? node.id = some i)
      (absent : node.id ∉ (t.bucket i).ids) (full : t.capacity ≤ (t.bucket i).members.length)
      (good : ∀ m ∈ (t.bucket i).members, m.standing now = .good) :
      Placed t now node (t, .settled .rejected)
  | contested {i : Fin 160} (belongs : t.bucketIndex? node.id = some i)
      (absent : node.id ∉ (t.bucket i).ids) (full : t.capacity ≤ (t.bucket i).members.length)
      (fair : ∀ m ∈ (t.bucket i).members, m.standing now ≠ .bad)
      (doubt : ∃ m ∈ (t.bucket i).members, m.standing now = .questionable) :
      Placed t now node
        (t, .contested
          (((t.bucket i).members.filter (·.standing now == .questionable)).map (·.contact)))

/-- **An offer is placed by one of the rules.** -/
theorem Table.place_placed (t : Table) (now : Instant) (node : Member) :
    Placed t now node (t.place now node) := by
  rw [place]
  split
  · next own => exact .ignored own
  · next i belongs =>
      dsimp only
      split
      · next present => exact .refreshed belongs ((Bucket.isSome_find?_iff ..).mp present)
      · next absent =>
          rw [Bucket.isSome_find?_iff] at absent
          split
          · next room => exact .added belongs absent room
          · next full =>
              have full : t.capacity ≤ (t.bucket i).members.length := Nat.not_lt.mp full
              split
              · next bad first => exact .replaced belongs absent full first
              · next fair =>
                  have fair : ∀ m ∈ (t.bucket i).members, m.standing now ≠ .bad := by
                    simpa using fair
                  split
                  · next settled =>
                      refine .rejected belongs absent full fun m hm => ?_
                      have settled : ∀ m ∈ (t.bucket i).members, m.standing now ≠ .questionable := by
                        simpa using settled
                      cases hstanding : m.standing now with
                      | good => rfl
                      | questionable => exact absurd hstanding (settled m hm)
                      | bad => exact absurd hstanding (fair m hm)
                  · next doubt =>
                      refine .contested belongs absent full fair ?_
                      by_contra hnone
                      refine doubt (List.filter_eq_nil_iff.mpr fun m hm heq => hnone ⟨m, hm, ?_⟩)
                      simpa using heq

/-- **No rule allows anything else** than what is done. -/
theorem Placed.place_eq {t : Table} {now : Instant} {node : Member} {result : Table × Placement}
    (placed : Placed t now node result) : t.place now node = result := by
  cases placed with
  | ignored own => rw [Table.place, own]
  | refreshed belongs present =>
      rw [Table.place, belongs]
      exact if_pos ((Bucket.isSome_find?_iff ..).mpr present)
  | added belongs absent room =>
      rw [Table.place, belongs]
      dsimp only
      rw [if_neg (mt (Bucket.isSome_find?_iff ..).mp absent), if_pos room]
  | replaced belongs absent full first =>
      rw [Table.place, belongs]
      dsimp only
      rw [if_neg (mt (Bucket.isSome_find?_iff ..).mp absent), if_neg (Nat.not_lt.mpr full), first]
  | @rejected i belongs absent full good =>
      have fair : (t.bucket i).members.find? (·.standing now == .bad) = none := by
        refine List.find?_eq_none.mpr fun m hm => ?_
        simp [good m hm]
      have settled : (t.bucket i).members.filter (·.standing now == .questionable) = [] := by
        refine List.filter_eq_nil_iff.mpr fun m hm => ?_
        simp [good m hm]
      rw [Table.place, belongs]
      dsimp only
      rw [if_neg (mt (Bucket.isSome_find?_iff ..).mp absent), if_neg (Nat.not_lt.mpr full), fair,
        settled]
  | @contested i belongs absent full fair doubt =>
      have fair : (t.bucket i).members.find? (·.standing now == .bad) = none := by
        simpa using fair
      have contested : (t.bucket i).members.filter (·.standing now == .questionable) ≠ [] := by
        obtain ⟨m, hm, hdoubt⟩ := doubt
        exact List.ne_nil_of_mem (List.mem_filter.mpr ⟨hm, beq_iff_eq.mpr hdoubt⟩)
      obtain ⟨first, others, heq⟩ := List.exists_cons_of_ne_nil contested
      rw [Table.place, belongs]
      dsimp only
      rw [if_neg (mt (Bucket.isSome_find?_iff ..).mp absent), if_neg (Nat.not_lt.mpr full), fair,
        heq]

/-- An offer that asks nobody is placed, and that is all. -/
theorem Table.fst_observe (t : Table) (now : Instant) (node : Member) :
    (t.observe now node).1 = (t.place now node).1 := by
  rw [observe]
  rcases t.place now node with ⟨t', _ | _⟩ <;> rfl

/-! ### Members that are asked -/

/-- Marking a failure changes a member of one bucket at most. -/
theorem Table.markFailed_cases (t : Table) (id : Key) :
    t.markFailed id = t ∨ ∃ i, t.markFailed id = t.modifyBucket i (·.modify id Member.fail) := by
  rw [markFailed]
  split
  · exact .inl rfl
  · exact .inr ⟨_, rfl⟩

/-- Marking a sign of life changes a member of one bucket at most. -/
theorem Table.markSeen_cases (t : Table) (now : Instant) (id : Key) :
    t.markSeen now id = t ∨ ∃ i, t.markSeen now id =
      t.modifyBucket i fun b => { b.modify id (·.touch now) with changed := now } := by
  rw [markSeen]
  split
  · exact .inl rfl
  · split
    · exact .inr ⟨_, rfl⟩
    · exact .inl rfl

/-- The ways an offer can go on in the table `t` once the failure of the member `asked` to answer
has been marked there. -/
inductive Resumed (t : Table) (now : Instant) (node : Member) (asked : Key) :
    Table × Option Outcome → Prop
  | ignored (own : t.bucketIndex? node.id = none) : Resumed t now node asked (t, some .ignored)
  | refreshed {i : Fin 160} (belongs : t.bucketIndex? node.id = some i)
      (present : node.id ∈ (t.bucket i).ids) : Resumed t now node asked (t, some .refreshed)
  | replaced {i : Fin 160} (belongs : t.bucketIndex? node.id = some i)
      (absent : node.id ∉ (t.bucket i).ids) (held : asked ∈ (t.bucket i).ids) :
      Resumed t now node asked
        (t.modifyBucket i (·.replace asked node now), some (.replaced asked))
  | added {i : Fin 160} (belongs : t.bucketIndex? node.id = some i)
      (absent : node.id ∉ (t.bucket i).ids) (gone : asked ∉ (t.bucket i).ids)
      (room : (t.bucket i).members.length < t.capacity) :
      Resumed t now node asked (t.modifyBucket i (·.push node now), some .added)
  | undecided {i : Fin 160} (belongs : t.bucketIndex? node.id = some i)
      (absent : node.id ∉ (t.bucket i).ids) (gone : asked ∉ (t.bucket i).ids)
      (full : t.capacity ≤ (t.bucket i).members.length) : Resumed t now node asked (t, none)

/-- **An offer goes on by one of the rules** once a member has failed to answer. -/
theorem Table.resume_resumed (t : Table) (now : Instant) (node : Member) (asked : Key) :
    Resumed (t.markFailed asked) now node asked (t.resume now node asked false) := by
  simp only [resume, Bool.false_eq_true, if_false]
  split
  · next own => exact .ignored own
  · next i belongs =>
      split
      · next present => exact .refreshed belongs ((Bucket.isSome_find?_iff ..).mp present)
      · next absent =>
          rw [Bucket.isSome_find?_iff] at absent
          split
          · next held => exact .replaced belongs absent ((Bucket.isSome_find?_iff ..).mp held)
          · next gone =>
              rw [Bucket.isSome_find?_iff] at gone
              split
              · next room => exact .added belongs absent gone room
              · next full => exact .undecided belongs absent gone (Nat.not_lt.mp full)

end Mainline.Routing
