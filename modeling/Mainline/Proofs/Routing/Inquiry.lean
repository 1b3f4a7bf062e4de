import Mainline.Proofs.Routing.Staleness

/-!
# Asking members in turn

An offer that is contested asks the questionable members of its bucket, one after the other, until
one of them does not answer. If nobody changes the table meanwhile, then all that counts of a probe
is the time it takes and whether the member answers, and what the whole *inquiry* does to the table
can be told at once: whoever answers is marked as seen when it does, and the node takes the place of
the first that does not.

## Main definitions

* `inquire`: what comes of asking members in turn.
* `Quiet`: none of the probes that are made changes the table.

## Main results

* `exists_replies_of_quiet`: only the replies of quiet probes count.
* `Table.WellFormed.ask_eq`: an inquiry in closed form.
-/

namespace Mainline.Routing

/-! ### Members of a bucket with different ids -/

/-- Where one member of a list is changed differently from the others, it is changed in its
place. -/
theorem map_ite_id_eq {before after : List Member} {old : Member} (f g : Member → Member)
    (nodup : ((before ++ old :: after).map Member.id).Nodup) :
    ((before ++ old :: after).map fun m => if m.id = old.id then f m else g m) =
      before.map g ++ f old :: after.map g := by
  rw [List.map_append, List.map_cons, List.nodup_middle, List.nodup_cons, ← List.map_append] at nodup
  have hother : ∀ m ∈ before ++ after, m.id ≠ old.id := fun m hm heq =>
    nodup.1 (List.mem_map.mpr ⟨m, hm, heq⟩)
  rw [List.map_append, List.map_cons, if_pos rfl]
  congr 1
  · refine List.map_congr_left fun m hm => if_neg ?_
    exact hother m (List.mem_append_left _ hm)
  · congr 1
    refine List.map_congr_left fun m hm => if_neg ?_
    exact hother m (List.mem_append_right _ hm)

/-- Where one member of a list is changed and the others are not, it is changed in its place. -/
theorem map_ite_id_eq_self {before after : List Member} {old : Member} (f : Member → Member)
    (nodup : ((before ++ old :: after).map Member.id).Nodup) :
    ((before ++ old :: after).map fun m => if m.id = old.id then f m else m) =
      before ++ f old :: after :=
  (map_ite_id_eq f id nodup).trans (by rw [List.map_id, List.map_id])

namespace Table

/-- What is made of a bucket counts only for that bucket. -/
theorem modifyBucket_congr {t : Table} {i : Fin 160} {f g : Bucket → Bucket}
    (h : f (t.bucket i) = g (t.bucket i)) : t.modifyBucket i f = t.modifyBucket i g := by
  rw [modifyBucket, modifyBucket, h]

/-- A bucket that is changed twice. -/
theorem modifyBucket_modifyBucket (t : Table) (i : Fin 160) (f g : Bucket → Bucket) :
    (t.modifyBucket i f).modifyBucket i g = t.modifyBucket i fun b => g (f b) := by
  have hbucket := t.modifyBucket_same i f
  rw [modifyBucket, hbucket]
  simp [modifyBucket]

/-- A bucket that is left as it is. -/
theorem modifyBucket_eq_self {t : Table} {i : Fin 160} {f : Bucket → Bucket}
    (h : f (t.bucket i) = t.bucket i) : t.modifyBucket i f = t := by
  rw [modifyBucket, h]
  simp [bucket]

end Table

/-! ### Inquiries -/

/-- What comes of asking members in turn. -/
structure Inquiry where
  /-- The members that have answered, each with the instant of its answer. -/
  seen : List (Member × Instant)
  /-- The first that has not. -/
  silent : Option Member
  /-- The instant at which the inquiry ends. -/
  now : Instant

namespace Inquiry

/-- Who has been asked, in this order. -/
def asked (q : Inquiry) : List Member :=
  q.seen.map Prod.fst ++ q.silent.toList

/-- What a member is when the inquiry ends: marked as seen if it has answered. -/
def note (q : Inquiry) (m : Member) : Member :=
  match q.seen.find? (·.1.id == m.id) with
  | some (_, instant) => m.touch instant
  | none => m

/-- Who stands in a member's place when the inquiry ends: the node that was offered, if the member
has not answered. -/
def settle (q : Inquiry) (node m : Member) : Member :=
  if q.silent.map Member.id = some m.id then node else q.note m

/-- The bucket when the inquiry ends. -/
def bucket (q : Inquiry) (node : Member) (b : Bucket) : Bucket :=
  ⟨b.members.map (q.settle node), if q.asked = [] then b.changed else q.now⟩

/-- What becomes of the offer. -/
def outcome (q : Inquiry) : Outcome :=
  match q.silent with
  | some old => .replaced old.id
  | none => .rejected

/-- The inquiry that begins with an answer and goes on as `q` does. -/
def answered (m : Member) (instant : Instant) (q : Inquiry) : Inquiry :=
  { q with seen := (m, instant) :: q.seen }

@[simp] theorem id_note (q : Inquiry) (m : Member) : (q.note m).id = m.id := by
  rw [note]
  split <;> rfl

/-- Who has not been asked is left alone. -/
theorem note_of_notMem {q : Inquiry} {m : Member} (h : m.id ∉ q.asked.map Member.id) :
    q.note m = m := by
  have hnone : q.seen.find? (·.1.id == m.id) = none := by
    refine List.find?_eq_none.mpr fun entry hentry heq => h ?_
    refine List.mem_map.mpr ⟨entry.1, ?_, beq_iff_eq.mp heq⟩
    exact List.mem_append_left _ (List.mem_map_of_mem hentry)
  rw [note, hnone]

/-- Who has not been asked has not failed to answer. -/
theorem silent_ne_of_notMem {q : Inquiry} {id : Key} (h : id ∉ q.asked.map Member.id) :
    q.silent.map Member.id ≠ some id := by
  intro heq
  obtain ⟨old, silent, hid⟩ := Option.map_eq_some_iff.mp heq
  refine h (List.mem_map.mpr ⟨old, List.mem_append_right _ ?_, hid⟩)
  rw [silent]
  exact List.mem_singleton_self old

/-- Only a member that has been asked is changed or gives way. -/
theorem settle_of_notMem {q : Inquiry} {m : Member} (h : m.id ∉ q.asked.map Member.id)
    (node : Member) : q.settle node m = m := by
  rw [settle, if_neg (silent_ne_of_notMem h), note_of_notMem h]

/-- If everybody answers, nobody gives way. -/
theorem settle_of_none {q : Inquiry} {node : Member} (answered : q.silent = none) :
    q.settle node = q.note := by
  funext m
  rw [settle, answered]
  exact if_neg nofun

/-- The member that does not answer gives way. -/
theorem settle_of_some {q : Inquiry} {node old : Member} (silent : q.silent = some old) :
    q.settle node = fun m => if m.id = old.id then node else q.note m := by
  funext m
  rw [settle, silent]
  by_cases heq : m.id = old.id
  · exact (if_pos (congrArg some heq.symm)).trans (if_pos heq).symm
  · exact (if_neg fun hsome => heq (Option.some.inj hsome).symm).trans (if_neg heq).symm

theorem note_answered (q : Inquiry) (m : Member) (instant : Instant) (x : Member) :
    (q.answered m instant).note x = if m.id = x.id then x.touch instant else q.note x := by
  rw [note, answered, List.find?_cons]
  by_cases heq : m.id = x.id
  · simp [heq]
  · rw [beq_eq_false_iff_ne.mpr heq, if_neg heq, note]

/-- A member that answers is marked as seen, and then the others are asked. -/
theorem settle_answered {q : Inquiry} {m : Member} (new : m.id ∉ q.asked.map Member.id)
    (instant : Instant) (node x : Member) :
    (q.answered m instant).settle node x =
      q.settle node (if x.id = m.id then x.touch instant else x) := by
  have hsilent : (q.answered m instant).silent = q.silent := rfl
  rw [settle, hsilent, note_answered]
  by_cases heq : x.id = m.id
  · have hnew : (x.touch instant).id ∉ q.asked.map Member.id := heq.symm ▸ new
    rw [if_pos heq, if_pos heq.symm, settle_of_notMem hnew]
    exact if_neg (silent_ne_of_notMem hnew)
  · rw [if_neg heq, if_neg (Ne.symm heq), settle]

end Inquiry

/-- Asks members in turn until one does not answer. A reply is the time that it takes and whether it
is an answer; a member for whom there is no reply does not answer, at once. -/
def inquire (now : Instant) : List (Duration × Bool) → List Member → Inquiry
  | _, [] => ⟨[], none, now⟩
  | [], m :: _ => ⟨[], some m, now⟩
  | (taken, false) :: _, m :: _ => ⟨[], some m, now + taken⟩
  | (taken, true) :: replies, m :: members =>
    (inquire (now + taken) replies members).answered m (now + taken)
termination_by structural _ members => members

/-- Members are asked in the order in which they stand. -/
theorem asked_in_order (now : Instant) (replies : List (Duration × Bool)) (members : List Member) :
    (inquire now replies members).asked <+: members := by
  induction members generalizing now replies with
  | nil => exact List.prefix_rfl
  | cons m members ih =>
      rcases replies with _ | ⟨⟨taken, _ | _⟩, replies⟩
      · exact List.prefix_append [m] members
      · exact List.prefix_append [m] members
      · exact List.cons_prefix_cons.mpr ⟨rfl, ih (now + taken) replies⟩

/-- If nobody fails to answer, everybody has been asked. -/
theorem seen_of_silent_eq_none {now : Instant} {replies : List (Duration × Bool)}
    {members : List Member} {q : Inquiry} (asks : inquire now replies members = q)
    (answered : q.silent = none) : q.seen.map Prod.fst = members := by
  subst asks
  induction members generalizing now replies with
  | nil => rfl
  | cons m members ih =>
      rcases replies with _ | ⟨⟨taken, _ | _⟩, replies⟩
      · cases answered
      · cases answered
      · exact congrArg (m :: ·) (ih answered)

/-- Whoever does not answer has been asked. -/
theorem mem_of_silent {now : Instant} {replies : List (Duration × Bool)} {members : List Member}
    {q : Inquiry} (asks : inquire now replies members = q) {m : Member} (silent : q.silent = some m) :
    m ∈ members := by
  refine (asked_in_order now replies members).subset ?_
  rw [asks, Inquiry.asked, silent]
  exact List.mem_append_right _ (List.mem_singleton_self m)

/-- An inquiry in which nobody is asked takes no time. -/
theorem now_of_asked_eq_nil {now : Instant} {replies : List (Duration × Bool)}
    {members : List Member} (none : (inquire now replies members).asked = []) :
    (inquire now replies members).now = now := by
  cases members with
  | nil => rfl
  | cons m members =>
      rcases replies with _ | ⟨⟨taken, _ | _⟩, replies⟩ <;> cases none

/-- The bucket is marked as changed with each answer. -/
theorem bucket_answered {now : Instant} {replies : List (Duration × Bool)} {members : List Member}
    {m : Member} (new : m.id ∉ members.map Member.id) (node : Member) (b : Bucket) :
    ((inquire now replies members).answered m now).bucket node b =
      (inquire now replies members).bucket node { b.modify m.id (·.touch now) with changed := now } := by
  have new : m.id ∉ (inquire now replies members).asked.map Member.id := fun hmem =>
    new (((asked_in_order now replies members).map Member.id).subset hmem)
  rw [Inquiry.bucket, Inquiry.bucket, Bucket.mk.injEq]
  constructor
  · simp only [Bucket.modify, List.map_map]
    exact List.map_congr_left fun x _ => Inquiry.settle_answered new now node x
  · have hsome : ((inquire now replies members).answered m now).asked ≠ [] := List.cons_ne_nil _ _
    rw [if_neg hsome]
    split
    · next none => exact now_of_asked_eq_nil none
    · rfl

/-- If there is nobody to ask, the bucket stays as it is. -/
theorem bucket_nobody (now : Instant) (node : Member) :
    (Inquiry.mk [] none now).bucket node = id := by
  have hsettle : (Inquiry.mk [] none now).settle node = id :=
    funext fun m => Inquiry.settle_of_notMem (List.not_mem_nil) node
  funext b
  rw [Inquiry.bucket, hsettle, List.map_id]
  rfl

/-- The first member that does not answer gives way. -/
theorem bucket_silent (now : Instant) (m node : Member) :
    (Inquiry.mk [] (some m) now).bucket node = (·.replace m.id node now) := by
  funext b
  rw [Inquiry.bucket, Inquiry.settle_of_some rfl]
  rfl

/-! ### Probes and replies -/

/-- Does the member answer? -/
def Probe.answers : Probe → Bool
  | mk _ answers => answers

/-- A probe in which nothing happens but that time passes. -/
def Probe.ofReply (reply : Duration × Bool) : Probe :=
  .mk [.wait reply.1] reply.2

/-- The probes are **quiet**: none of those that are made before the offer is decided changes the
table. -/
def Quiet (s : Situation) (node : Member) : List Probe → List Contact → Prop
  | .mk during answers :: probes, asked :: questionable =>
    let s' := Operation.runAll s during
    s'.table = s.table ∧
      match s'.table.resume s'.now node asked.id answers with
      | (_, some _) => True
      | (table, none) => Quiet { s' with table } node probes questionable
  | _, _ => True

/-- **Only the replies of quiet probes count**: asking by them is asking by probes in which nothing
happens but that time passes. -/
theorem exists_replies_of_quiet {s : Situation} {node : Member} {probes : List Probe}
    {questionable : List Contact} (quiet : Quiet s node probes questionable) :
    ∃ replies : List (Duration × Bool), replies.map Prod.snd = probes.map Probe.answers ∧
      ask s node probes questionable = ask s node (replies.map Probe.ofReply) questionable := by
  have hrest : ∀ probes : List Probe,
      (probes.map fun probe => ((0 : Duration), probe.answers)).map Prod.snd =
        probes.map Probe.answers := by
    intro probes
    rw [List.map_map]
    rfl
  induction questionable generalizing s probes with
  | nil => exact ⟨_, hrest probes, by rw [ask, ask]⟩
  | cons asked questionable ih =>
      obtain _ | ⟨⟨during, answers⟩, probes⟩ := probes
      · exact ⟨[], rfl, rfl⟩
      · obtain ⟨same, quiet⟩ := quiet
        have hle : s.now ≤ (Operation.runAll s during).now := by
          rw [Operation.runAll_eq_steps]
          exact Step.now_le_runAll s _
        obtain ⟨taken, htaken⟩ := Int.le.dest hle
        have hwait : Operation.runAll s [.wait taken] = Operation.runAll s during := by
          rw [Operation.runAll, Operation.runAll, Operation.run, htaken, ← same]
        rcases hresume : (Operation.runAll s during).table.resume (Operation.runAll s during).now node
          asked.id answers with ⟨table, _ | outcome⟩
        · rw [hresume] at quiet
          obtain ⟨replies, hanswers, hask⟩ := ih quiet
          refine ⟨(taken, answers) :: replies, congrArg (answers :: ·) hanswers, ?_⟩
          simp only [List.map_cons, Probe.ofReply, ask, hwait, hresume, hask]
        · refine ⟨(taken, answers) :: _, congrArg (answers :: ·) (hrest probes), ?_⟩
          simp only [List.map_cons, Probe.ofReply, ask, hwait, hresume]

/-! ### The closed form -/

section Settled

variable {t : Table} (h : t.WellFormed) {i : Fin 160} {m : Member} (held : m ∈ (t.bucket i).members)
include h held

theorem Table.WellFormed.bucketIndex?_of_mem : t.bucketIndex? m.id = some i :=
  (t.bucketIndex?_eq_some_iff _ _).mpr (h.shared i m.id (List.mem_map_of_mem held))

theorem Table.WellFormed.markSeen_eq (now : Instant) :
    t.markSeen now m.id =
      t.modifyBucket i fun b => { b.modify m.id (·.touch now) with changed := now } := by
  have hfound : ((t.bucket i).find? m.id).isSome = true :=
    (Bucket.isSome_find?_iff ..).mpr (List.mem_map_of_mem held)
  simp only [markSeen, h.bucketIndex?_of_mem held, hfound, if_true]

/-- The node takes the place of a member that does not answer. -/
theorem Table.WellFormed.resume_of_silence (now : Instant) {node : Member}
    (belongs : t.bucketIndex? node.id = some i) (absent : node.id ∉ (t.bucket i).ids) :
    t.resume now node m.id false =
      (t.modifyBucket i (·.replace m.id node now), some (.replaced m.id)) := by
  have hmarked : t.markFailed m.id = t.modifyBucket i (·.modify m.id Member.fail) := by
    rw [markFailed, h.bucketIndex?_of_mem held]
  have hids : ((t.markFailed m.id).bucket i).ids = (t.bucket i).ids :=
    t.ids_bucket_markFailed m.id i
  have hreplace : (t.markFailed m.id).modifyBucket i (·.replace m.id node now) =
      t.modifyBucket i (·.replace m.id node now) := by
    rw [hmarked, modifyBucket_modifyBucket]
    refine modifyBucket_congr ?_
    simp only [Bucket.replace, Bucket.modify, List.map_map, Bucket.mk.injEq, and_true]
    refine List.map_congr_left fun x _ => ?_
    by_cases hx : x.id = m.id
    · have hfail : x.fail.id = m.id := hx
      simp [hx, hfail]
    · simp [hx]
  have belongs : (t.markFailed m.id).bucketIndex? node.id = some i := by
    rw [hmarked]
    exact belongs
  have resumed := t.resume_resumed now node m.id
  generalize t.resume now node m.id false = result at resumed ⊢
  cases resumed with
  | ignored own =>
      rw [belongs] at own
      cases own
  | refreshed belongs' present =>
      cases belongs.symm.trans belongs'
      rw [hids] at present
      exact absurd present absent
  | replaced belongs' absent' held' =>
      cases belongs.symm.trans belongs'
      rw [hreplace]
  | added belongs' absent' gone | undecided belongs' absent' gone =>
      cases belongs.symm.trans belongs'
      rw [hids] at gone
      exact absurd (List.mem_map_of_mem held) gone

end Settled

/-- **An inquiry in closed form.** Members of one bucket are asked, on behalf of a node that is none
of them and finds no room among them. -/
theorem Table.WellFormed.ask_eq {s : Situation} (h : s.table.WellFormed) {node : Member}
    {i : Fin 160} (belongs : s.table.bucketIndex? node.id = some i)
    (absent : node.id ∉ (s.table.bucket i).ids) (replies : List (Duration × Bool))
    {members : List Member} (held : ∀ m ∈ members, m ∈ (s.table.bucket i).members)
    (nodup : (members.map Member.id).Nodup) :
    ask s node (replies.map Probe.ofReply) (members.map Member.contact) =
      let q := inquire s.now replies members
      (⟨s.table.modifyBucket i (q.bucket node), q.now⟩, q.outcome,
        q.asked.map Member.contact) := by
  induction members generalizing s replies with
  | nil =>
      rw [List.map_nil, ask, inquire]
      dsimp only
      rw [bucket_nobody, modifyBucket_eq_self rfl]
      rfl
  | cons m members ih =>
      obtain ⟨new, nodup⟩ := List.nodup_cons.mp nodup
      obtain ⟨hm, hmembers⟩ := List.forall_mem_cons.mp held
      have hsilence : ∀ now, s.table.resume now node m.contact.id false =
          (s.table.modifyBucket i ((Inquiry.mk [] (some m) now).bucket node),
            some (.replaced m.id)) := by
        intro now
        rw [bucket_silent]
        exact h.resume_of_silence hm now belongs absent
      have hwait : ∀ taken, Operation.runAll s [.wait taken] = ⟨s.table, s.now + taken⟩ :=
        fun _ => rfl
      rcases replies with _ | ⟨⟨taken, _ | _⟩, replies⟩
      · simp only [List.map_nil, List.map_cons, ask, askUnscripted, hsilence]
        rfl
      · simp only [List.map_cons, Probe.ofReply, ask, hwait, hsilence]
        rfl
      · let t : Table := s.table.markSeen (s.now + taken) m.id
        have hseen := h.markSeen_eq hm (s.now + taken)
        have hanswer : s.table.resume (s.now + taken) node m.contact.id true = (t, none) := rfl
        have hids : (t.bucket i).ids = (s.table.bucket i).ids :=
          s.table.ids_bucket_markSeen (s.now + taken) m.id i
        have hstill : ∀ x ∈ members, x ∈ (t.bucket i).members := by
          intro x hx
          have hne : x.id ≠ m.id := fun heq => new (heq ▸ List.mem_map_of_mem hx)
          simp only [t, hseen, modifyBucket_same]
          exact List.mem_map.mpr ⟨x, hmembers x hx, if_neg hne⟩
        have hbelongs : t.bucketIndex? node.id = some i := by
          simp only [t, hseen]
          exact belongs
        have hrest := @ih ⟨t, s.now + taken⟩ ((s.table.edit_markSeen _ _).wellFormed h) hbelongs
          (hids ▸ absent) replies hstill nodup
        have hbucket : t.modifyBucket i ((inquire (s.now + taken) replies members).bucket node) =
            s.table.modifyBucket i
              (((inquire (s.now + taken) replies members).answered m (s.now + taken)).bucket
                node) := by
          simp only [t, hseen]
          rw [modifyBucket_modifyBucket]
          exact modifyBucket_congr (bucket_answered new node _).symm
        simp only [List.map_cons, Probe.ofReply, ask, hwait, hanswer]
        rw [hrest]
        dsimp only
        rw [hbucket]
        rfl

end Mainline.Routing
