import Mainline.Proofs.Routing.Inquiry

/-!
# Who gives way to whom

An offer is a matter of what its bucket holds, how full it is, how its members stand at that instant
and, if it comes to that, which of them answer. This module states the rules by which a node enters
the table, is refreshed or is turned away (`Policy`), with what becomes of its bucket in each case,
and proves that offers follow them, both those that may ask questionable members and those that may
ask nobody.

## Main results

* `Situation.policy_insert`, `Policy.insert_eq`: an offer whose probes only take time follows the
  rules, and they leave it no choice.
* `Policy.good_spared`, `Policy.bucket_other`: what no rule allows.
* `Situation.observe_of_insert`: what an offer that may ask nobody does.
* `offers_follow_policy`: the law, for every table that steps lead to.
-/

namespace Mainline.Routing

/-! ### The rules -/

/-- The situation with other members in one of the buckets, which has changed at that instant. -/
def Situation.setBucket (s : Situation) (i : Fin 160) (members : List Member) (changed : Instant) :
    Situation :=
  { s with table := s.table.modifyBucket i fun _ => ⟨members, changed⟩ }

/-- The members of a bucket that are questionable, in the order in which they came. -/
def Bucket.questionable (b : Bucket) (now : Instant) : List Member :=
  b.members.filter (·.standing now == .questionable)

/-- The node **finds its bucket full**: it is not a member, and there is no room for it. -/
structure Table.Crowded (t : Table) (node : Member) (i : Fin 160) : Prop where
  belongs : t.bucketIndex? node.id = some i
  absent : node.id ∉ (t.bucket i).ids
  full : t.capacity ≤ (t.bucket i).members.length

/-- **The rules of an offer**, when the members that are asked reply like this: the situation
afterwards, the outcome, and who has been asked. Of the table, only the bucket of the node
changes.

* The table's own id is ignored.
* A member that is offered again is renewed in its place.
* If there is room, the node comes last.
* In a full bucket, the node takes the place of the first bad member.
* If nobody is bad, the questionable members are asked in turn. Those that answer are marked as
  seen, and the node takes the place of the first that does not.
* If there is no such member either, the node is rejected. -/
inductive Policy (s : Situation) (node : Member) (replies : List (Duration × Bool)) :
    Situation × Outcome × List Contact → Prop
  | ignored (own : node.id = s.table.localId) : Policy s node replies (s, .ignored, [])
  | refreshed {i : Fin 160} {before after : List Member} {old : Member}
      (belongs : s.table.bucketIndex? node.id = some i)
      (held : (s.table.bucket i).members = before ++ old :: after) (known : old.id = node.id) :
      Policy s node replies
        (s.setBucket i (before ++ old.renewed node s.now :: after) (s.table.bucket i).changed,
          .refreshed, [])
  | added {i : Fin 160} (belongs : s.table.bucketIndex? node.id = some i)
      (absent : node.id ∉ (s.table.bucket i).ids)
      (room : (s.table.bucket i).members.length < s.table.capacity) :
      Policy s node replies
        (s.setBucket i ((s.table.bucket i).members ++ [node]) s.now, .added, [])
  | replacedBad {i : Fin 160} {before after : List Member} {old : Member}
      (crowded : s.table.Crowded node i)
      (held : (s.table.bucket i).members = before ++ old :: after)
      (bad : old.standing s.now = .bad) (first : ∀ m ∈ before, m.standing s.now ≠ .bad) :
      Policy s node replies
        (s.setBucket i (before ++ node :: after) s.now, .replaced old.id, [])
  | replacedSilent {i : Fin 160} {before after : List Member} {old : Member} {q : Inquiry}
      (crowded : s.table.Crowded node i)
      (fair : ∀ m ∈ (s.table.bucket i).members, m.standing s.now ≠ .bad)
      (asks : inquire s.now replies ((s.table.bucket i).questionable s.now) = q)
      (silent : q.silent = some old)
      (held : (s.table.bucket i).members = before ++ old :: after) :
      Policy s node replies
        (Situation.setBucket { s with now := q.now } i
            (before.map q.note ++ node :: after.map q.note) q.now,
          .replaced old.id, q.asked.map Member.contact)
  | rejectedAnswered {i : Fin 160} {q : Inquiry} (crowded : s.table.Crowded node i)
      (fair : ∀ m ∈ (s.table.bucket i).members, m.standing s.now ≠ .bad)
      (doubt : (s.table.bucket i).questionable s.now ≠ [])
      (asks : inquire s.now replies ((s.table.bucket i).questionable s.now) = q)
      (answered : q.silent = none) :
      Policy s node replies
        (Situation.setBucket { s with now := q.now } i ((s.table.bucket i).members.map q.note) q.now,
          .rejected, ((s.table.bucket i).questionable s.now).map Member.contact)
  | rejected {i : Fin 160} (crowded : s.table.Crowded node i)
      (good : ∀ m ∈ (s.table.bucket i).members, m.standing s.now = .good) :
      Policy s node replies (s, .rejected, [])

/-! ### What becomes of a bucket -/

/-- Only what is made of a bucket counts, not how. -/
theorem Situation.setBucket_eq {t : Table} {now : Instant} {i : Fin 160} {f : Bucket → Bucket}
    {members : List Member} {changed : Instant} (h : f (t.bucket i) = ⟨members, changed⟩) :
    Situation.mk (t.modifyBucket i f) now = Situation.setBucket ⟨t, now⟩ i members changed := by
  have htable : t.modifyBucket i f = t.modifyBucket i fun _ => ⟨members, changed⟩ :=
    Table.modifyBucket_congr h
  rw [setBucket, htable]

namespace Bucket

variable {b : Bucket} {before after : List Member} {old : Member}

theorem mem_questionable {now : Instant} {m : Member} :
    m ∈ b.questionable now ↔ m ∈ b.members ∧ m.standing now = .questionable := by
  rw [questionable, List.mem_filter, beq_iff_eq]

/-- A member is changed in its place. -/
theorem modify_eq (nodup : b.ids.Nodup) (held : b.members = before ++ old :: after)
    (f : Member → Member) : b.modify old.id f = ⟨before ++ f old :: after, b.changed⟩ := by
  rw [ids, held] at nodup
  rw [modify, held, map_ite_id_eq_self f nodup]

/-- A node takes the place of a member. -/
theorem replace_eq (nodup : b.ids.Nodup) (held : b.members = before ++ old :: after)
    (node : Member) (now : Instant) :
    b.replace old.id node now = ⟨before ++ node :: after, now⟩ := by
  rw [ids, held] at nodup
  rw [replace, held, map_ite_id_eq_self (fun _ => node) nodup]

end Bucket

namespace Table.WellFormed

section Asking

variable {s : Situation} (h : s.table.WellFormed) {node : Member} {i : Fin 160}
  (crowded : s.table.Crowded node i) {replies : List (Duration × Bool)} {q : Inquiry}
  (asks : inquire s.now replies ((s.table.bucket i).questionable s.now) = q)
include h crowded asks

/-- What comes of asking the questionable members of the bucket. -/
theorem ask_questionable :
    ask s node (replies.map Probe.ofReply)
        (((s.table.bucket i).questionable s.now).map Member.contact) =
      (⟨s.table.modifyBucket i (q.bucket node), q.now⟩, q.outcome, q.asked.map Member.contact) := by
  have nodup : (((s.table.bucket i).questionable s.now).map Member.id).Nodup :=
    (h.nodup i).sublist (List.filter_sublist.map Member.id)
  have held : ∀ m ∈ (s.table.bucket i).questionable s.now, m ∈ (s.table.bucket i).members :=
    fun m hm => (Bucket.mem_questionable.mp hm).1
  rw [h.ask_eq crowded.belongs crowded.absent replies held nodup, asks]

/-- A member that does not answer gives way in its place. -/
theorem ask_of_silent {before after : List Member} {old : Member} (silent : q.silent = some old)
    (held : (s.table.bucket i).members = before ++ old :: after) :
    ask s node (replies.map Probe.ofReply)
        (((s.table.bucket i).questionable s.now).map Member.contact) =
      (Situation.setBucket { s with now := q.now } i
          (before.map q.note ++ node :: after.map q.note) q.now,
        .replaced old.id, q.asked.map Member.contact) := by
  have hasked : q.asked ≠ [] := by simp [Inquiry.asked, silent]
  have nodup := h.nodup i
  rw [Bucket.ids, held] at nodup
  have hbucket : q.bucket node (s.table.bucket i) =
      ⟨before.map q.note ++ node :: after.map q.note, q.now⟩ := by
    rw [Inquiry.bucket, Inquiry.settle_of_some silent, held,
      map_ite_id_eq (fun _ => node) q.note nodup, if_neg hasked]
  have houtcome : q.outcome = .replaced old.id := by rw [Inquiry.outcome, silent]
  rw [h.ask_questionable crowded asks, houtcome, Situation.setBucket_eq hbucket]

/-- If all of them answer, nobody gives way. -/
theorem ask_of_answered (doubt : (s.table.bucket i).questionable s.now ≠ [])
    (answered : q.silent = none) :
    ask s node (replies.map Probe.ofReply)
        (((s.table.bucket i).questionable s.now).map Member.contact) =
      (Situation.setBucket { s with now := q.now } i ((s.table.bucket i).members.map q.note) q.now,
        .rejected, ((s.table.bucket i).questionable s.now).map Member.contact) := by
  have hasked : q.asked = (s.table.bucket i).questionable s.now := by
    rw [Inquiry.asked, answered, Option.toList_none, List.append_nil,
      seen_of_silent_eq_none asks answered]
  have hbucket : q.bucket node (s.table.bucket i) =
      ⟨(s.table.bucket i).members.map q.note, q.now⟩ := by
    rw [Inquiry.bucket, Inquiry.settle_of_none answered, hasked, if_neg doubt]
  have houtcome : q.outcome = .rejected := by rw [Inquiry.outcome, answered]
  rw [h.ask_questionable crowded asks, houtcome, hasked, Situation.setBucket_eq hbucket]

end Asking

end Table.WellFormed

/-! ### Offers follow the rules -/

section Offers

variable {s : Situation} (h : s.table.WellFormed) {node : Member}
  {replies : List (Duration × Bool)}
include h

/-- Asking the questionable members of a full bucket follows the rules. -/
theorem Table.WellFormed.policy_ask {i : Fin 160} (crowded : s.table.Crowded node i)
    (fair : ∀ m ∈ (s.table.bucket i).members, m.standing s.now ≠ .bad)
    (doubt : (s.table.bucket i).questionable s.now ≠ []) :
    Policy s node replies (ask s node (replies.map Probe.ofReply)
      (((s.table.bucket i).questionable s.now).map Member.contact)) := by
  obtain ⟨q, asks⟩ : ∃ q, inquire s.now replies ((s.table.bucket i).questionable s.now) = q :=
    ⟨_, rfl⟩
  cases hsilent : q.silent with
  | none =>
      rw [h.ask_of_answered crowded asks doubt hsilent]
      exact .rejectedAnswered crowded fair doubt asks hsilent
  | some old =>
      obtain ⟨hold, -⟩ := Bucket.mem_questionable.mp (mem_of_silent asks hsilent)
      obtain ⟨before, after, held⟩ := List.append_of_mem hold
      rw [h.ask_of_silent crowded asks hsilent held]
      exact .replacedSilent crowded fair asks hsilent held

/-- **An offer whose probes only take time follows the rules.** -/
theorem Situation.policy_insert :
    Policy s node replies (s.insert node (replies.map Probe.ofReply)) := by
  have placed := s.table.place_placed s.now node
  rw [insert]
  generalize s.table.place s.now node = result at placed ⊢
  cases placed with
  | ignored own => exact .ignored ((s.table.bucketIndex?_eq_none_iff _).mp own)
  | @refreshed i belongs present =>
      obtain ⟨old, hold, known⟩ := List.mem_map.mp present
      obtain ⟨before, after, held⟩ := List.append_of_mem hold
      dsimp only
      rw [← known, setBucket_eq (Bucket.modify_eq (h.nodup i) held _)]
      exact .refreshed belongs held known
  | added belongs absent room => exact .added belongs absent room
  | @replaced i bad belongs absent full first =>
      obtain ⟨isBad, before, after, held, hfirst⟩ := List.find?_eq_some_iff_append.mp first
      dsimp only
      rw [setBucket_eq (Bucket.replace_eq (h.nodup i) held node s.now)]
      exact .replacedBad ⟨belongs, absent, full⟩ held (by simpa using isBad) (by simpa using hfirst)
  | rejected belongs absent full good => exact .rejected ⟨belongs, absent, full⟩ good
  | contested belongs absent full fair doubt =>
      obtain ⟨m, hm, hdoubt⟩ := doubt
      exact h.policy_ask ⟨belongs, absent, full⟩ fair
        (List.ne_nil_of_mem (Bucket.mem_questionable.mpr ⟨hm, hdoubt⟩))

/-- **The rules leave no choice.** They allow what such an offer does and nothing else. -/
theorem Policy.insert_eq {result : Situation × Outcome × List Contact}
    (follows : Policy s node replies result) :
    s.insert node (replies.map Probe.ofReply) = result := by
  have settled : ∀ {t : Table} {outcome : Outcome},
      Placed s.table s.now node (t, .settled outcome) →
      s.insert node (replies.map Probe.ofReply) = ({ s with table := t }, outcome, []) := by
    intro t outcome placed
    rw [Situation.insert, placed.place_eq]
  have contested : ∀ {i : Fin 160}, s.table.Crowded node i →
      (∀ m ∈ (s.table.bucket i).members, m.standing s.now ≠ .bad) →
      (s.table.bucket i).questionable s.now ≠ [] →
      s.insert node (replies.map Probe.ofReply) = ask s node (replies.map Probe.ofReply)
        (((s.table.bucket i).questionable s.now).map Member.contact) := by
    intro i crowded fair doubt
    obtain ⟨m, hm⟩ := List.exists_mem_of_ne_nil _ doubt
    have placed : Placed s.table s.now node _ :=
      .contested crowded.belongs crowded.absent crowded.full fair
        ⟨m, Bucket.mem_questionable.mp hm⟩
    rw [Situation.insert, placed.place_eq]
    rfl
  cases follows with
  | ignored own => exact settled (.ignored ((s.table.bucketIndex?_eq_none_iff _).mpr own))
  | @refreshed i before after old belongs held known =>
      have present : node.id ∈ (s.table.bucket i).ids := by
        rw [Bucket.ids, held, ← known]
        exact List.mem_map_of_mem (List.mem_append_right _ (List.mem_cons_self ..))
      rw [settled (.refreshed belongs present), ← known,
        Situation.setBucket_eq (Bucket.modify_eq (h.nodup i) held _)]
  | added belongs absent room => exact settled (.added belongs absent room)
  | @replacedBad i before after old crowded held bad first =>
      have hfirst : (s.table.bucket i).members.find? (·.standing s.now == .bad) = some old :=
        List.find?_eq_some_iff_append.mpr
          ⟨by simpa using bad, before, after, held, by simpa using first⟩
      rw [settled (.replaced crowded.belongs crowded.absent crowded.full hfirst),
        Situation.setBucket_eq (Bucket.replace_eq (h.nodup i) held node s.now)]
  | @replacedSilent i before after old q crowded fair asks silent held =>
      have doubt := List.ne_nil_of_mem (mem_of_silent asks silent)
      rw [contested crowded fair doubt, h.ask_of_silent crowded asks silent held]
  | rejectedAnswered crowded fair doubt asks answered =>
      rw [contested crowded fair doubt, h.ask_of_answered crowded asks doubt answered]
  | rejected crowded good =>
      exact settled (.rejected crowded.belongs crowded.absent crowded.full good)

end Offers

/-! ### What no rule allows -/

/-- Who stands in a bucket beside the member that gives way stays in it. -/
theorem mem_ids_beside {before after : List Member} {old node m : Member} {f : Member → Member}
    (hf : ∀ x, (f x).id = x.id) (hm : m ∈ before ++ old :: after) (hne : m ≠ old) :
    m.id ∈ (before.map f ++ node :: after.map f).map Member.id := by
  have hids : (before.map f ++ node :: after.map f).map Member.id =
      before.map Member.id ++ node.id :: after.map Member.id := by
    simp [hf, Function.comp_def]
  rw [hids]
  obtain hm | hm := List.mem_append.mp hm
  · exact List.mem_append_left _ (List.mem_map_of_mem hm)
  · have hm := (List.mem_cons.mp hm).resolve_left hne
    exact List.mem_append_right _ (List.mem_cons_of_mem _ (List.mem_map_of_mem hm))

/-- A member stays in the table if it stays in the bucket that is changed. -/
theorem Situation.mem_ids_setBucket {s : Situation} {i : Fin 160} {members : List Member}
    {changed : Instant} {m : Member} (hm : m ∈ s.table.members)
    (stays : m ∈ (s.table.bucket i).members → m.id ∈ members.map Member.id) :
    m.id ∈ (s.setBucket i members changed).table.members.map Member.id := by
  obtain ⟨j, hmj⟩ := (s.table.mem_members_iff m).mp hm
  refine (Table.mem_ids_iff ..).mpr ⟨j, ?_⟩
  by_cases hj : j = i
  · subst hj
    rw [setBucket, Table.modifyBucket_same]
    exact stays hmj
  · rw [setBucket, Table.modifyBucket_other _ _ hj]
    exact List.mem_map_of_mem hmj

section Consequences

variable {s : Situation} {node : Member} {replies : List (Duration × Bool)}
  {result : Situation × Outcome × List Contact}

/-- **No other bucket changes.** -/
theorem Policy.bucket_other (follows : Policy s node replies result) {j : Fin 160}
    (other : s.table.bucketIndex? node.id ≠ some j) :
    result.1.table.bucket j = s.table.bucket j := by
  have hother : ∀ {i : Fin 160}, s.table.bucketIndex? node.id = some i → j ≠ i := by
    rintro i belongs rfl
    exact other belongs
  cases follows with
  | ignored | rejected => rfl
  | refreshed belongs | added belongs => exact Table.modifyBucket_other _ _ (hother belongs)
  | replacedBad crowded | replacedSilent crowded | rejectedAnswered crowded =>
      exact Table.modifyBucket_other _ _ (hother crowded.belongs)

/-- Only questionable members are asked. -/
theorem Policy.questionable_of_asked (follows : Policy s node replies result) {c : Contact}
    (asked : c ∈ result.2.2) :
    ∃ m ∈ s.table.members, m.standing s.now = .questionable ∧ m.contact = c := by
  have hbucket : ∀ {i : Fin 160},
      c ∈ ((s.table.bucket i).questionable s.now).map Member.contact →
      ∃ m ∈ s.table.members, m.standing s.now = .questionable ∧ m.contact = c := by
    intro i hmem
    obtain ⟨m, hm, hc⟩ := List.mem_map.mp hmem
    obtain ⟨held, doubt⟩ := Bucket.mem_questionable.mp hm
    exact ⟨m, Table.mem_members_of_bucket held, doubt, hc⟩
  cases follows with
  | ignored | refreshed | added | replacedBad | rejected => cases asked
  | @replacedSilent i before after old q crowded fair asks =>
      have inOrder := asked_in_order s.now replies ((s.table.bucket i).questionable s.now)
      rw [asks] at inOrder
      exact hbucket (List.map_subset Member.contact inOrder.subset asked)
  | rejectedAnswered => exact hbucket asked

/-- **No good member is asked or gives way.** -/
theorem Policy.good_spared (follows : Policy s node replies result) (h : s.table.WellFormed)
    {m : Member} (hm : m ∈ s.table.members) (good : m.standing s.now = .good) :
    m.contact ∉ result.2.2 ∧ m.id ∈ result.1.table.members.map Member.id := by
  constructor
  · intro asked
    obtain ⟨m', hm', doubt, hc⟩ := follows.questionable_of_asked asked
    obtain rfl : m' = m :=
      List.inj_on_of_nodup_map h.nodup_members hm' hm (congrArg Contact.id hc)
    rw [good] at doubt
    cases doubt
  · cases follows with
    | ignored | rejected => exact List.mem_map_of_mem hm
    | @refreshed i before after old belongs held known =>
        refine Situation.mem_ids_setBucket hm fun hmi => ?_
        have hids : (before ++ old.renewed node s.now :: after).map Member.id =
            (before ++ old :: after).map Member.id := by
          simp [Member.id_renewed, known]
        rw [hids, ← held]
        exact List.mem_map_of_mem hmi
    | added =>
        refine Situation.mem_ids_setBucket hm fun hmi => ?_
        exact List.mem_map_of_mem (List.mem_append_left _ hmi)
    | @replacedBad i before after old crowded held bad =>
        refine Situation.mem_ids_setBucket hm fun hmi => ?_
        have hne : m ≠ old := by
          rintro rfl
          rw [good] at bad
          cases bad
        have hsame : ∀ x : Member, (id x).id = x.id := fun _ => rfl
        rw [held] at hmi
        simpa only [List.map_id] using mem_ids_beside hsame hmi hne
    | @replacedSilent i before after old q crowded fair asks silent held =>
        refine Situation.mem_ids_setBucket hm fun hmi => ?_
        have hne : m ≠ old := by
          rintro rfl
          have doubt := (Bucket.mem_questionable.mp (mem_of_silent asks silent)).2
          rw [good] at doubt
          cases doubt
        rw [held] at hmi
        exact mem_ids_beside q.id_note hmi hne
    | @rejectedAnswered i q =>
        refine Situation.mem_ids_setBucket hm fun hmi => ?_
        exact List.mem_map.mpr ⟨q.note m, List.mem_map_of_mem hmi, q.id_note m⟩

end Consequences

/-! ### Offers that may ask nobody -/

/-- If there are members to ask, the first of them is asked. -/
theorem asked_ne_nil (s : Situation) (node : Member) (probes : List Probe)
    {questionable : List Contact} (some : questionable ≠ []) :
    (ask s node probes questionable).2.2 ≠ [] := by
  obtain ⟨first, questionable, rfl⟩ := List.exists_cons_of_ne_nil some
  rcases probes with _ | ⟨⟨during, answers⟩, probes⟩
  · simp only [ask, askUnscripted]
    split <;> exact List.cons_ne_nil _ _
  · simp only [ask]
    split <;> exact List.cons_ne_nil _ _

/-- **An offer that may ask nobody** does the same where there is nobody to ask, and otherwise
rejects the node and leaves the table alone. -/
theorem Situation.observe_of_insert (s : Situation) (node : Member) (probes : List Probe) :
    ((s.insert node probes).2.2 = [] →
      s.table.observe s.now node = ((s.insert node probes).1.table, (s.insert node probes).2.1)) ∧
    ((s.insert node probes).2.2 ≠ [] → s.table.observe s.now node = (s.table, .rejected)) := by
  have placed := s.table.place_placed s.now node
  rw [insert, Table.observe]
  generalize s.table.place s.now node = result at placed ⊢
  cases placed with
  | ignored | refreshed | added | replaced | rejected =>
      exact ⟨fun _ => rfl, fun hsome => absurd rfl hsome⟩
  | @contested i belongs absent full fair doubt =>
      obtain ⟨m, hm, hdoubt⟩ := doubt
      have hsome : (s.table.bucket i).questionable s.now ≠ [] :=
        List.ne_nil_of_mem (Bucket.mem_questionable.mpr ⟨hm, hdoubt⟩)
      have hmap : ((s.table.bucket i).questionable s.now).map Member.contact ≠ [] :=
        mt List.map_eq_nil_iff.mp hsome
      exact ⟨fun hnone => absurd hnone (asked_ne_nil s node probes hmap), fun _ => rfl⟩

/-! ### Quiet probes -/

/-- The offer is **undisturbed**: none of its probes changes the table. -/
def Situation.Undisturbed (s : Situation) (node : Member) (probes : List Probe) : Prop :=
  ∀ questionable, (s.table.place s.now node).2 = .contested questionable →
    Quiet s node probes questionable

/-- Of an undisturbed offer, only the replies count. -/
theorem Situation.exists_replies {s : Situation} {node : Member} {probes : List Probe}
    (undisturbed : s.Undisturbed node probes) :
    ∃ replies : List (Duration × Bool), replies.map Prod.snd = probes.map Probe.answers ∧
      s.insert node probes = s.insert node (replies.map Probe.ofReply) := by
  have placed := s.table.place_placed s.now node
  simp only [Undisturbed] at undisturbed
  simp only [insert]
  generalize s.table.place s.now node = result at placed undisturbed ⊢
  cases placed with
  | ignored | refreshed | added | replaced | rejected =>
      exact ⟨probes.map fun probe => (0, probe.answers), by rw [List.map_map]; rfl, rfl⟩
  | contested => exact exists_replies_of_quiet (undisturbed _ rfl)

/-- **Offers follow the rules.** In every table that steps from the empty one lead to, whatever node
is offered:

* an offer whose probes only take time, each as long as it is said to, does what the rules allow,
  which is one thing exactly;
* so does one whose probes do anything else, if none of them changes the table: then all that counts
  is how long they take and whether they are answered. No good member is asked or gives way, and no
  bucket changes but that of the node. If nobody is asked, then an offer that may ask nobody leaves
  the same table with the same outcome, and otherwise it rejects the node and leaves the table as it
  is. -/
theorem offers_follow_policy (localId : Key) (capacity : ℕ) (start : Instant) (steps : List Step)
    (node : Member) :
    let s := Step.runAll ⟨.empty localId capacity start, start⟩ steps
    (∀ replies result,
      s.insert node (replies.map Probe.ofReply) = result ↔ Policy s node replies result) ∧
    ∀ probes, s.Undisturbed node probes →
      let result := s.insert node probes
      (∃ replies, replies.map Prod.snd = probes.map Probe.answers ∧ Policy s node replies result) ∧
      (∀ m ∈ s.table.members, m.standing s.now = .good →
        m.contact ∉ result.2.2 ∧ m.id ∈ result.1.table.members.map Member.id) ∧
      (∀ j, s.table.bucketIndex? node.id ≠ some j → result.1.table.bucket j = s.table.bucket j) ∧
      (result.2.2 = [] → s.table.observe s.now node = (result.1.table, result.2.1)) ∧
      (result.2.2 ≠ [] → s.table.observe s.now node = (s.table, .rejected)) := by
  intro s
  have h : s.table.WellFormed :=
    Step.wellFormed_runAll (Table.wellFormed_empty localId capacity start) steps
  have follow : ∀ replies result,
      s.insert node (replies.map Probe.ofReply) = result ↔ Policy s node replies result := by
    refine fun replies result => ⟨?_, fun follows => follows.insert_eq h⟩
    rintro rfl
    exact Situation.policy_insert h
  refine ⟨follow, fun probes undisturbed => ?_⟩
  intro result
  obtain ⟨replies, hanswers, hinsert⟩ := Situation.exists_replies undisturbed
  have follows : Policy s node replies result := (follow replies result).mp hinsert.symm
  refine ⟨⟨replies, hanswers, follows⟩, fun m hm good => follows.good_spared h hm good,
    fun j other => follows.bucket_other other, s.observe_of_insert node probes⟩

/-- Three members, of which one is good, fill a bucket. The first of the others answers, after a
while in which it is marked as failed under the table's own id, to no avail; the second does not
answer, and gives way. -/
theorem silent_member_gives_way :
    let contact (n : ℕ) : Contact := ⟨⟨BitVec.allOnes 160 - BitVec.ofNat 160 n⟩, default⟩
    let steps : List Step :=
      [.observe (.active (contact 1) 0), .observe (.hearsay (contact 2)),
        .observe (.hearsay (contact 3))]
    let s := Step.runAll ⟨.empty ⟨0⟩ 3 0, 0⟩ steps
    let node : Member := .active (contact 4) 0
    let probes : List Probe := [.mk [.wait 5, .markFailed ⟨0⟩] true, .mk [.wait 3] false]
    let result := s.insert node probes
    s.Undisturbed node probes ∧
      (∃ replies, replies.map Prod.snd = [true, false] ∧ Policy s node replies result) ∧
      result.2 = (.replaced (contact 3).id, [contact 2, contact 3]) ∧
      ((contact 1) ∉ result.2.2 ∧ (contact 1).id ∈ result.1.table.members.map Member.id) ∧
      result.1.table.bucket 1 = s.table.bucket 1 ∧
      s.table.observe s.now node = (s.table, .rejected) := by
  intro contact steps s node probes result
  have hplaced : (s.table.place s.now node).2 = .contested [contact 2, contact 3] := by
    decide +kernel
  have undisturbed : s.Undisturbed node probes := by
    intro questionable hcontested
    obtain rfl := Placement.contested.inj (hplaced.symm.trans hcontested)
    have hfirst : (Operation.runAll s [.wait 5, .markFailed ⟨0⟩]).table = s.table := by
      have hown : s.table.bucketIndex? ⟨0⟩ = none := by decide +kernel
      simp only [Operation.runAll, Operation.run, Table.markFailed, hown]
    refine ⟨hfirst, rfl, ?_⟩
    split <;> trivial
  have hresult : result.2 = (.replaced (contact 3).id, [contact 2, contact 3]) := by
    decide +kernel
  obtain ⟨follows, spared, others, -, contested⟩ :=
    (offers_follow_policy ⟨0⟩ 3 0 steps node).2 probes undisturbed
  refine ⟨undisturbed, follows, hresult, spared (.active (contact 1) 0) ?_ ?_, others 1 ?_,
    contested ?_⟩
  · decide +kernel
  · decide +kernel
  · decide +kernel
  · rw [hresult]
    exact List.cons_ne_nil _ _

end Mainline.Routing
