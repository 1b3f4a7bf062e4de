import Mainline.Proofs.Routing.Outcome

/-!
# The address that an offer leaves

An offer by which a node is stored should leave the address that was offered under the node's id.
It does if it stores the node itself, or finds it a member when it is placed. But an offer that
asks members first may find the node stored when it looks at its bucket again, by another offer that
was made meanwhile; it calls this a refresh too, and leaves the record as it is.

This module follows the address under an id through any steps: it is the one that came with the
node when it entered, or the one it was *told* last since (`lastTold`). From there follows what a
refresh after asking is worth.

## Main results

* `Step.contact_run`, `Step.contact_runAll`: where the address of a member comes from.
* `AskedInTurn.refreshed`: what an offer that is refreshed after asking leaves.
* `address_offered_unless_told_another`: the law, for every table that steps lead to.
-/

namespace Mainline.Routing

/-! ### The record under an id -/

/-- What a well-formed table finds under an id is the member with this id. -/
theorem Table.WellFormed.get?_eq_some_iff {t : Table} (h : t.WellFormed) {id : Key} {m : Member} :
    t.get? id = some m ↔ m ∈ t.members ∧ m.id = id := by
  have hfind : t.get? id = (t.bucketIndex? id).bind fun i => (t.bucket i).find? id := rfl
  rw [hfind, Option.bind_eq_some_iff]
  constructor
  · rintro ⟨i, -, found⟩
    have hid := List.find?_some found
    exact ⟨mem_members_of_bucket (List.mem_of_find?_eq_some found), beq_iff_eq.mp hid⟩
  · rintro ⟨hm, rfl⟩
    obtain ⟨i, hi⟩ := (t.mem_members_iff m).mp hm
    have hid : m.id ∈ (t.bucket i).ids := List.mem_map_of_mem hi
    refine ⟨i, (t.bucketIndex?_eq_some_iff _ _).mpr (h.shared i m.id hid), ?_⟩
    obtain ⟨m', found⟩ := Option.isSome_iff_exists.mp ((Bucket.isSome_find?_iff _ _).mpr hid)
    have hm' := mem_members_of_bucket (List.mem_of_find?_eq_some found)
    have hid' := List.find?_some (p := fun m' : Member => m'.id == m.id) found
    rw [found, h.member_ext hm' hm (beq_iff_eq.mp hid')]

/-- What an outcome says of the node is **borne out** by a table: if the node is stored, the record
under its id has its address, and the member it has replaced is stored no longer. -/
structure Outcome.BorneOut (outcome : Outcome) (t : Table) (node : Member) : Prop where
  stored : outcome.isStored = true → ∃ m, t.get? node.id = some m ∧ m.address = node.address
  replaced : ∀ id, outcome = .replaced id → id ∉ t.members.map Member.id

/-- A member that is replaced is stored no longer. -/
theorem Table.WellFormed.gone_of_replaced {t : Table} (h : t.WellFormed) {i : Fin 160} {old : Key}
    {node : Member} {now : Instant} (absent : node.id ∉ (t.bucket i).ids)
    (held : old ∈ (t.bucket i).ids) :
    old ∉ (t.modifyBucket i (·.replace old node now)).members.map Member.id :=
  (h.lost_modifyBucket_iff.mpr ((Bucket.lost_replace_iff absent).mpr ⟨rfl, held⟩)).2

section Records

variable {t : Table} (h : t.WellFormed) {now : Instant} {node : Member}
include h

/-- An offer that is placed leaves its own address under the id, or nothing. -/
theorem Table.WellFormed.exists_mem_place
    (stored : node.id ∈ (t.place now node).1.members.map Member.id) :
    ∃ m ∈ (t.place now node).1.members, m.contact = node.contact := by
  have placed := t.place_placed now node
  generalize t.place now node = result at placed stored ⊢
  cases placed with
  | ignored own =>
      obtain ⟨i, hid⟩ := (t.mem_ids_iff _).mp stored
      rw [(t.bucketIndex?_eq_some_iff _ _).mpr (h.shared i _ hid)] at own
      cases own
  | rejected belongs absent | contested belongs absent =>
      exact absurd ((h.mem_ids_iff_of_belongs belongs).mp stored) absent
  | @refreshed i belongs present =>
      obtain ⟨old, hold, hid⟩ := List.mem_map.mp present
      refine ⟨old.renewed node now, mem_members_of_bucket (i := i) ?_, old.contact_renewed node now⟩
      rw [modifyBucket_same]
      exact List.mem_map.mpr ⟨old, hold, if_pos hid⟩
  | @added i belongs absent room =>
      refine ⟨node, mem_members_of_bucket (i := i) ?_, rfl⟩
      rw [modifyBucket_same]
      exact List.mem_append_right _ (List.mem_singleton_self node)
  | @replaced i bad belongs absent full first =>
      refine ⟨node, mem_members_of_bucket (i := i) ?_, rfl⟩
      rw [modifyBucket_same]
      exact List.mem_map.mpr ⟨bad, List.mem_of_find?_eq_some first, if_pos rfl⟩

/-- The outcome of an offer that asks nobody is borne out. -/
theorem Table.WellFormed.observe_borneOut :
    (t.observe now node).2.BorneOut (t.observe now node).1 node := by
  have hafter : (t.observe now node).1.WellFormed := (t.edit_observe now node).wellFormed h
  constructor
  · intro stored
    have held := (h.observe_isTrue now node).1.mp stored
    rw [t.fst_observe] at held hafter ⊢
    obtain ⟨m, hm, hcontact⟩ := h.exists_mem_place held
    refine ⟨m, hafter.get?_eq_some_iff.mpr ⟨hm, congrArg Contact.id hcontact⟩, ?_⟩
    exact congrArg Contact.address hcontact
  · intro id replaced
    have placed := t.place_placed now node
    rw [observe] at replaced ⊢
    generalize t.place now node = result at placed replaced ⊢
    cases placed with
    | replaced belongs absent full first =>
        cases replaced
        exact h.gone_of_replaced absent (List.mem_map_of_mem (List.mem_of_find?_eq_some first))
    | ignored | refreshed | added | rejected | contested => cases replaced

/-- What an offer that looks at its bucket again finds is borne out, unless it finds the node a
member: then it leaves the record as it is. -/
theorem Table.WellFormed.resume_borneOut {asked : Key} {outcome : Outcome}
    (found : (t.resume now node asked false).2 = some outcome) (new : outcome ≠ .refreshed) :
    outcome.BorneOut (t.resume now node asked false).1 node := by
  have hmarked : (t.markFailed asked).WellFormed := (t.edit_markFailed asked).wellFormed h
  obtain ⟨t₁, first, second⟩ := t.edit_resume now node asked false
  have hafter := second.wellFormed (first.wellFormed h)
  have resumed := t.resume_resumed now node asked
  generalize t.resume now node asked false = result at resumed found hafter ⊢
  have hfiled : node ∈ result.1.members → (∃ m, result.1.get? node.id = some m ∧
      m.address = node.address) := fun hm =>
    ⟨node, hafter.get?_eq_some_iff.mpr ⟨hm, rfl⟩, rfl⟩
  cases resumed with
  | ignored own =>
      cases found
      exact ⟨nofun, nofun⟩
  | refreshed belongs present =>
      cases found
      exact absurd rfl new
  | @replaced i belongs absent held =>
      cases found
      refine ⟨fun _ => hfiled (mem_members_of_bucket (i := i) ?_), fun id heq => ?_⟩
      · obtain ⟨old, hold, hid⟩ := List.mem_map.mp held
        rw [modifyBucket_same]
        exact List.mem_map.mpr ⟨old, hold, if_pos hid⟩
      · cases heq
        exact hmarked.gone_of_replaced absent held
  | @added i belongs absent gone room =>
      cases found
      refine ⟨fun _ => hfiled (mem_members_of_bucket (i := i) ?_), nofun⟩
      rw [modifyBucket_same]
      exact List.mem_append_right _ (List.mem_singleton_self node)
  | undecided => cases found

/-- **An offer that finds the node a member when it looks again leaves everything as it is**, but
for the failure of the member that it has asked. -/
theorem Table.WellFormed.resume_of_present {asked : Key}
    (present : node.id ∈ t.members.map Member.id) :
    t.resume now node asked false = (t.markFailed asked, some .refreshed) := by
  have hmarked : (t.markFailed asked).WellFormed := (t.edit_markFailed asked).wellFormed h
  have present := (mem_ids_congr (t.ids_bucket_markFailed asked) node.id).mpr present
  have resumed := t.resume_resumed now node asked
  generalize t.resume now node asked false = result at resumed ⊢
  cases resumed with
  | ignored own =>
      obtain ⟨i, hid⟩ := (mem_ids_iff _ _).mp present
      rw [(bucketIndex?_eq_some_iff _ _ _).mpr (hmarked.shared i _ hid)] at own
      cases own
  | refreshed => rfl
  | replaced belongs absent | added belongs absent | undecided belongs absent =>
      exact absurd ((hmarked.mem_ids_iff_of_belongs belongs).mp present) absent

end Records

theorem Table.present_of_refreshed {t : Table} {now : Instant} {node : Member} {asked : Key}
    (found : (t.resume now node asked false).2 = some .refreshed) :
    node.id ∈ t.members.map Member.id := by
  have resumed := t.resume_resumed now node asked
  generalize t.resume now node asked false = result at resumed found
  cases resumed with
  | @refreshed i belongs present =>
      exact (mem_ids_congr (t.ids_bucket_markFailed asked) _).mp
        ((mem_ids_iff _ _).mpr ⟨i, present⟩)
  | ignored | replaced | added | undecided => cases found

/-! ### Where an address comes from -/

/-- The contact that a step **tells** a member with this id, by offering it again. -/
def Step.told? (id : Key) : Step → Option Contact
  | .observe node | .place node => if node.id = id then some node.contact else none
  | _ => none

/-- The contact that steps tell a member last; the one it has had if they tell none. -/
def lastTold (id : Key) (had : Contact) (steps : List Step) : Contact :=
  steps.foldl (fun contact step => (step.told? id).getD contact) had

/-- A step that tells a contact is an offer that is placed. -/
theorem Step.exists_of_told? {step : Step} {id : Key} {contact : Contact}
    (told : step.told? id = some contact) (s : Situation) :
    ∃ node, step.Offers node ∧ node.id = id ∧ node.contact = contact ∧
      (step.run s).table = (s.table.place s.now node).1 := by
  cases step with
  | observe node =>
      obtain ⟨hid, hcontact⟩ := Option.ite_none_right_eq_some.mp told
      exact ⟨node, .observe, hid, Option.some.inj hcontact, s.table.fst_observe s.now node⟩
  | place node =>
      obtain ⟨hid, hcontact⟩ := Option.ite_none_right_eq_some.mp told
      exact ⟨node, .place, hid, Option.some.inj hcontact, rfl⟩
  | _ => cases told

/-- Marking a failure changes no contact. -/
theorem Table.exists_of_mem_markFailed {t : Table} {id : Key} {m : Member}
    (hm : m ∈ (t.markFailed id).members) : ∃ old ∈ t.members, old.contact = m.contact := by
  obtain held | ⟨old, held, -, rfl⟩ := mem_members_markFailed hm
  · exact ⟨m, held, rfl⟩
  · exact ⟨old, held, rfl⟩

/-- **Where the contact of a member comes from**: it has entered with it, or been told it, or had it
before. -/
theorem Step.contact_run {s : Situation} (h : s.table.WellFormed) {step : Step} {m : Member}
    (hm : m ∈ (step.run s).table.members) :
    (m.id ∉ s.table.members.map Member.id ∧
      ∃ node, step.Offers node ∧ m.contact = node.contact) ∨
    ∃ old ∈ s.table.members, old.id = m.id ∧ m.contact = (step.told? m.id).getD old.contact := by
  cases htold : step.told? m.id with
  | some contact =>
      obtain ⟨node, offers, hid, hcontact, hrun⟩ := step.exists_of_told? htold s
      have hnode : m.contact = node.contact := by
        have hafter := step.wellFormed_run h
        rw [hrun] at hm hafter
        obtain ⟨m', hm', hcontact'⟩ :=
          h.exists_mem_place (List.mem_map.mpr ⟨m, hm, hid.symm⟩)
        have hid' : m.id = m'.id := hid.symm.trans (congrArg Contact.id hcontact'.symm)
        rw [hafter.member_ext hm hm' hid', hcontact']
      by_cases held : m.id ∈ s.table.members.map Member.id
      · obtain ⟨old, hold, heq⟩ := List.mem_map.mp held
        exact .inr ⟨old, hold, heq, hnode.trans hcontact⟩
      · exact .inl ⟨held, node, offers, hnode⟩
  | none =>
      cases Step.source_of_mem_run h hm with
      | kept held | touched _ held | failed _ held => exact .inr ⟨_, held, rfl, rfl⟩
      | entered offers absent => exact .inl ⟨absent, m, offers, rfl⟩
      | @renewed node old offers held known =>
          rw [Member.id_renewed] at htold
          cases offers with
          | observe | place => exact absurd htold (by simp [told?])
          | resume asked =>
              have hpresent : node.id ∈ s.table.members.map Member.id :=
                List.mem_map.mpr ⟨old, held, known⟩
              simp only [Step.run, h.resume_of_present hpresent] at hm
              obtain ⟨had, hhad, hcontact⟩ := Table.exists_of_mem_markFailed hm
              exact .inr ⟨had, hhad, congrArg Contact.id hcontact, hcontact.symm⟩

/-- **The contact of a member after a run of steps** is the one it was told last since it entered,
or the one that it has entered with; if it was a member before, since then. -/
theorem Step.contact_runAll {s : Situation} (h : s.table.WellFormed) {steps : List Step}
    {m : Member} (hm : m ∈ (Step.runAll s steps).table.members) :
    (∃ old ∈ s.table.members, old.id = m.id ∧ m.contact = lastTold m.id old.contact steps) ∨
    ∃ earlier entry later node, steps = earlier ++ entry :: later ∧
      m.id ∉ (Step.runAll s earlier).table.members.map Member.id ∧ entry.Offers node ∧
        node.id = m.id ∧ m.contact = lastTold m.id node.contact later := by
  induction steps generalizing s with
  | nil => exact .inl ⟨m, hm, rfl, rfl⟩
  | cons step steps ih =>
      obtain ⟨had, hhad, hid, hcontact⟩ | ⟨earlier, entry, later, node, rfl, hentry⟩ :=
        ih (step.wellFormed_run h) hm
      · obtain ⟨absent, node, offers, hnode⟩ | ⟨old, hold, hid', hold'⟩ := Step.contact_run h hhad
        · refine .inr ⟨[], step, steps, node, rfl, hid ▸ absent, offers, ?_, hnode ▸ hcontact⟩
          exact (congrArg Contact.id hnode).symm.trans hid
        · refine .inl ⟨old, hold, hid'.trans hid, ?_⟩
          rw [hcontact, hold', hid]
          rfl
      · exact .inr ⟨step :: earlier, entry, later, node, rfl, hentry⟩

/-- The contact that is told last has been told, or is the one before. -/
theorem lastTold_eq (id : Key) (had : Contact) (steps : List Step) :
    lastTold id had steps = had ∨
      ∃ step ∈ steps, step.told? id = some (lastTold id had steps) := by
  induction steps generalizing had with
  | nil => exact .inl rfl
  | cons step steps ih =>
      have hcons : lastTold id had (step :: steps) =
          lastTold id ((step.told? id).getD had) steps := rfl
      obtain hsame | ⟨later, hlater, htold⟩ := ih ((step.told? id).getD had)
      · rw [hcons, hsame]
        cases htold : step.told? id with
        | none => exact .inl rfl
        | some contact => exact .inr ⟨step, List.mem_cons_self, htold⟩
      · exact .inr ⟨later, List.mem_cons_of_mem step hlater, htold⟩

/-! ### Offers that are refreshed after asking -/

/-- A step that an offer lets pass without looking at its bucket: it happens while a member is being
asked, or marks that a member has answered. -/
def Meanwhile (node : Member) (askings : List Asking) (step : Step) : Prop :=
  (∃ asking ∈ askings, step ∈ asking.during) ∨ ∃ other, step = .resume node other true

/-- The node has been **stored meanwhile**, by another offer of its id while members were being
asked, and this is the contact that it was told last since. Then a member has failed to answer, and
the offer has looked again. -/
inductive StoredMeanwhile (s : Situation) (node : Member) (askings : List Asking) :
    Situation → Contact → Prop
  | intro {earlier later : List Step} {entry : Step} {first : Member} {asked : Key}
      (absent : node.id ∉ (Step.runAll s earlier).table.members.map Member.id)
      (offers : entry.Offers first) (named : first.id = node.id)
      (during : ∃ asking ∈ askings, entry ∈ asking.during)
      (since : ∀ step ∈ later, Meanwhile node askings step) :
      StoredMeanwhile s node askings
        (Step.runAll s (earlier ++ entry :: later ++ [.resume node asked false]))
        (lastTold node.id first.contact later)

namespace StoredMeanwhile

variable {s : Situation} {node : Member} {askings : List Asking} {after : Situation}
  {contact : Contact}

/-- What happened before does not count. -/
theorem of_runAll {steps : List Step}
    (stored : StoredMeanwhile (Step.runAll s steps) node askings after contact) :
    StoredMeanwhile s node askings after contact := by
  obtain ⟨absent, offers, named, meanwhile, since⟩ := stored
  rw [← Step.runAll_append] at absent ⊢
  rw [List.append_assoc, ← List.append_assoc steps, ← List.append_assoc]
  exact .intro absent offers named meanwhile since

/-- A member that was none before has been stored meanwhile. -/
theorem of_mem (h : s.table.WellFormed) (absent : node.id ∉ s.table.members.map Member.id)
    {steps : List Step} (since : ∀ step ∈ steps, Meanwhile node askings step) {m : Member}
    (hm : m ∈ (Step.runAll s steps).table.members) (hid : m.id = node.id) (asked : Key) :
    StoredMeanwhile s node askings (Step.runAll s (steps ++ [.resume node asked false]))
      m.contact := by
  obtain ⟨had, hhad, hid', -⟩ |
      ⟨earlier, entry, later, first, rfl, absent', offers, named, hfirst⟩ :=
    Step.contact_runAll h hm
  · exact absurd (List.mem_map.mpr ⟨had, hhad, hid'.trans hid⟩) absent
  · obtain ⟨hentry, hlater⟩ :=
      List.forall_mem_cons.mp (List.forall_mem_append.mp since).2
    rw [hid] at absent' named
    rw [hfirst, hid]
    -- Noting an answer offers nothing, so it is not the step by which the node has entered.
    refine .intro absent' offers named (hentry.resolve_right ?_) hlater
    rintro ⟨other, rfl⟩
    cases offers

/-- If the id has been offered under one address only, the contact has that address. -/
theorem address_eq (stored : StoredMeanwhile s node askings after contact) {address : Address}
    (same : ∀ asking ∈ askings, ∀ step ∈ asking.during, ∀ other : Member,
      step.Offers other → other.id = node.id → other.address = address) :
    contact.address = address := by
  obtain ⟨-, offers, named, ⟨asking, hasking, hduring⟩, since⟩ := stored
  next earlier later entry first asked =>
    obtain hfirst | ⟨step, hstep, htold⟩ := lastTold_eq node.id first.contact later
    · rw [hfirst]
      exact same asking hasking entry hduring first offers named
    · obtain ⟨other, offers, hid, hcontact, -⟩ := step.exists_of_told? htold s
      obtain ⟨asking, hasking, hduring⟩ | ⟨_, rfl⟩ := since step hstep
      · rw [← hcontact]
        exact same asking hasking step hduring other offers hid
      · cases htold

end StoredMeanwhile

namespace AskedInTurn

variable {node : Member} {asking : Contact → Asking} {s : Situation} {questionable : List Contact}
  {result : Situation × Outcome}

/-- Unless the offer finds the node a member, its outcome is borne out. -/
theorem borneOut (course : AskedInTurn node asking s questionable result)
    (h : s.table.WellFormed) (new : result.2 ≠ .refreshed) :
    result.2.BorneOut result.1.table node := by
  induction course with
  | exhausted => exact ⟨nofun, nofun⟩
  | @decided s s' asked questionable outcome hduring hlook =>
      have h : s'.table.WellFormed := hduring ▸ Step.wellFormed_runAll h _
      exact h.resume_borneOut hlook new
  | undecided hduring hlook rest ih | answered hduring answered rest ih =>
      have h := hduring ▸ Step.wellFormed_runAll h _
      exact ih (Step.wellFormed_run h _) new

/-- **An offer that finds the node a member after asking** leaves the contact that the node was told
last, by whoever has stored it meanwhile. Here the node was no member in an earlier situation
`before`, and `past` is what has happened since. -/
theorem storedMeanwhile (course : AskedInTurn node asking s questionable result)
    {askings : List Asking} (hasking : ∀ asked ∈ questionable, asking asked ∈ askings)
    {before : Situation} {past : List Step} (h : before.table.WellFormed)
    (absent : node.id ∉ before.table.members.map Member.id) (reached : Step.runAll before past = s)
    (since : ∀ step ∈ past, Meanwhile node askings step)
    (refreshed : result.2 = .refreshed) :
    ∃ m ∈ result.1.table.members, m.id = node.id ∧
      StoredMeanwhile before node askings result.1 m.contact := by
  induction course generalizing before past with
  | exhausted => cases refreshed
  | @decided s s' asked questionable outcome hduring hlook =>
      obtain rfl : outcome = .refreshed := refreshed
      have hs' : Step.runAll before (past ++ (asking asked).during) = s' := by
        rw [Step.runAll_append, reached, hduring]
      have h' : s'.table.WellFormed := hs' ▸ Step.wellFormed_runAll h _
      have hmeanwhile : ∀ step ∈ past ++ (asking asked).during, Meanwhile node askings step :=
        List.forall_mem_append.mpr
          ⟨since, fun step hstep => .inl ⟨_, hasking asked List.mem_cons_self, hstep⟩⟩
      have present : node.id ∈ s'.table.members.map Member.id := Table.present_of_refreshed hlook
      obtain ⟨m, hm, hid⟩ := List.mem_map.mp
        ((Table.mem_ids_congr (s'.table.ids_bucket_markFailed asked.id) node.id).mpr present)
      have hrun : ((Step.resume node asked.id false).run s').table = s'.table.markFailed asked.id :=
        congrArg Prod.fst (h'.resume_of_present present)
      obtain ⟨old, hold, hcontact⟩ := Table.exists_of_mem_markFailed hm
      have hid' : old.id = node.id := (congrArg Contact.id hcontact).trans hid
      refine ⟨m, hrun ▸ hm, hid, ?_⟩
      rw [← hcontact, ← hs', ← Step.runAll_concat]
      exact .of_mem h absent hmeanwhile (hs' ▸ hold) hid' asked.id
  | @undecided s s' asked questionable result hduring hlook rest ih =>
      have hs' : Step.runAll before (past ++ (asking asked).during) = s' := by
        rw [Step.runAll_append, reached, hduring]
      have h' : s'.table.WellFormed := hs' ▸ Step.wellFormed_runAll h _
      have htrue := h'.resume_isTrue s'.now node asked.id
      rw [hlook] at htrue
      have habsent := mt htrue.1.mpr nofun
      -- The offer has looked at its bucket without finding the node, so what is past is of no
      -- importance any more.
      obtain ⟨m, hm, hid, stored⟩ :=
        ih (fun other hother => hasking other (List.mem_cons_of_mem _ hother))
          (Step.wellFormed_run h' (.resume node asked.id false)) habsent rfl
          (List.forall_mem_nil _) refreshed
      rw [← hs', ← Step.runAll_concat] at stored
      exact ⟨m, hm, hid, stored.of_runAll⟩
  | @answered s s' asked questionable result hduring answered rest ih =>
      have hafter :
          Step.runAll before (past ++ (asking asked).during ++ [.resume node asked.id true]) =
            (Step.resume node asked.id true).run s' := by
        rw [Step.runAll_concat, Step.runAll_append, reached, hduring]
      refine ih (fun other hother => hasking other (List.mem_cons_of_mem _ hother)) h absent hafter
        ?_ refreshed
      refine List.forall_mem_append.mpr ⟨List.forall_mem_append.mpr ⟨since, ?_⟩, ?_⟩
      · exact fun step hstep => .inl ⟨_, hasking asked List.mem_cons_self, hstep⟩
      · exact List.forall_mem_singleton.mpr (.inr ⟨asked.id, rfl⟩)

end AskedInTurn

/-! ### The law -/

section Offers

variable {s : Situation} (h : s.table.WellFormed) {node : Member} {asking : Contact → Asking}
include h

/-- The outcome of an offer is borne out if it is no refresh after asking. -/
theorem Situation.offer_borneOut
    (new : (s.offer node asking).2 = .refreshed → (s.table.place s.now node).2.questionable = []) :
    (s.offer node asking).2.BorneOut (s.offer node asking).1.table node := by
  obtain ⟨outcome, hplaced, hoffer⟩ | ⟨questionable, hplaced, hoffer⟩ := s.offer_course node asking
  · have hobserved : (s.table.observe s.now node).2.BorneOut (s.table.observe s.now node).1 node :=
      h.observe_borneOut
    rw [hoffer, Step.run]
    rw [Table.observe] at hobserved
    rcases hplace : s.table.place s.now node with ⟨t, placement⟩
    rw [hplace] at hobserved hplaced
    cases hplaced
    exact hobserved
  · rw [hplaced] at new
    rw [hoffer] at new ⊢
    have course := askInTurn_askedInTurn node asking ((Step.place node).run s) questionable
    refine course.borneOut (Step.wellFormed_run h _) fun refreshed => ?_
    obtain rfl : questionable = [] := new refreshed
    cases refreshed

/-- A refresh after asking leaves the contact that the node was told last, by whoever has stored it
meanwhile. -/
theorem Situation.offer_storedMeanwhile (refreshed : (s.offer node asking).2 = .refreshed)
    (asks : (s.table.place s.now node).2.questionable ≠ []) :
    ∃ m ∈ (s.offer node asking).1.table.members, m.id = node.id ∧
      StoredMeanwhile ((Step.place node).run s) node
        ((s.table.place s.now node).2.questionable.map asking) (s.offer node asking).1
        m.contact := by
  have htrue := Situation.isTrue_place h node
  obtain ⟨outcome, hplaced, -⟩ | ⟨questionable, hplaced, hoffer⟩ := s.offer_course node asking
  · exact absurd (congrArg Placement.questionable hplaced) asks
  · rw [hplaced] at htrue ⊢
    rw [hoffer] at refreshed ⊢
    have course := askInTurn_askedInTurn node asking ((Step.place node).run s) questionable
    exact course.storedMeanwhile (fun asked hasked => List.mem_map_of_mem hasked)
      (Step.wellFormed_run h _) (mt htrue.1.mpr nofun) rfl (List.forall_mem_nil _) refreshed

end Offers

/-- **A stored node has the address under which it was offered, unless it was told another one
meanwhile.** In every table that steps from the empty one lead to, whatever happens while members
are being asked and whoever answers:

* the outcome of an offer that asks nobody is borne out;
* so is the outcome of any other offer, unless it is a refresh after asking;
* a refresh after asking leaves the contact that the node was told last, by another offer that has
  stored it meanwhile and those that came after it, and it is borne out exactly if that contact has
  the address that was offered, as it has if the id is offered under no other address.

Every script of an offer is an offer in this sense. -/
theorem address_offered_unless_told_another (localId : Key) (capacity : ℕ) (start : Instant)
    (before : List Step) (node : Member) :
    let s := Step.runAll ⟨.empty localId capacity start, start⟩ before
    (s.table.observe s.now node).2.BorneOut (s.table.observe s.now node).1 node ∧
    (∀ asking : Contact → Asking,
      let askings := (s.table.place s.now node).2.questionable.map asking
      let result := s.offer node asking
      ((result.2 = .refreshed → askings = []) → result.2.BorneOut result.1.table node) ∧
      (result.2 = .refreshed → askings ≠ [] →
        ∃ m, result.1.table.get? node.id = some m ∧
          StoredMeanwhile ((Step.place node).run s) node askings result.1 m.contact ∧
          (result.2.BorneOut result.1.table node ↔ m.address = node.address)) ∧
      ((∀ asking ∈ askings, ∀ step ∈ asking.during, ∀ other : Member,
          step.Offers other → other.id = node.id → other.address = node.address) →
        result.2.BorneOut result.1.table node)) ∧
    ∀ probes : List Probe, ∃ asking : Contact → Asking,
      ((s.insert node probes).1, (s.insert node probes).2.1) = s.offer node asking := by
  intro s
  have hempty : (Table.empty localId capacity start).WellFormed :=
    Table.wellFormed_empty localId capacity start
  have h : s.table.WellFormed := Step.wellFormed_runAll hempty before
  clear_value s
  refine ⟨h.observe_borneOut, fun asking => ?_, Situation.exists_insert_eq_offer h node⟩
  intro askings result
  have hnone : askings = [] ↔ (s.table.place s.now node).2.questionable = [] := List.map_eq_nil_iff
  have hborne : (result.2 = .refreshed → askings = []) → result.2.BorneOut result.1.table node :=
    fun new => Situation.offer_borneOut h fun refreshed => hnone.mp (new refreshed)
  obtain ⟨steps, hsteps⟩ := s.exists_offer_eq_runAll node asking
  have hafter : result.1.table.WellFormed := hsteps ▸ Step.wellFormed_runAll h _
  have hmeanwhile : result.2 = .refreshed → askings ≠ [] →
      ∃ m, result.1.table.get? node.id = some m ∧
        StoredMeanwhile ((Step.place node).run s) node askings result.1 m.contact ∧
        (result.2.BorneOut result.1.table node ↔ m.address = node.address) := by
    intro refreshed asks
    obtain ⟨m, hm, hid, stored⟩ := Situation.offer_storedMeanwhile h refreshed (mt hnone.mpr asks)
    have hfound := hafter.get?_eq_some_iff.mpr ⟨hm, hid⟩
    refine ⟨m, hfound, stored, fun borne => ?_, fun haddress =>
      ⟨fun _ => ⟨m, hfound, haddress⟩, ?_⟩⟩
    · obtain ⟨m', hfound', haddress⟩ := borne.stored (refreshed ▸ rfl)
      rwa [Option.some.inj (hfound.symm.trans hfound')]
    · rw [refreshed]
      nofun
  refine ⟨hborne, hmeanwhile, fun same => ?_⟩
  by_cases new : result.2 = .refreshed → askings = []
  · exact hborne new
  · obtain ⟨refreshed, asks⟩ := Classical.not_imp.mp new
    obtain ⟨m, -, stored, hiff⟩ := hmeanwhile refreshed asks
    exact hiff.mpr (stored.address_eq same)

/-- A full bucket of one: while its member is being asked, the node is offered under another address
as well, and replaces the member. The first offer calls this a refresh, and leaves that address. -/
theorem refreshed_under_another_address :
    let contact (n : ℕ) (host : UInt8) : Contact :=
      ⟨⟨BitVec.allOnes 160 - BitVec.ofNat 160 n⟩, .v4 ⟨10, 0, 0, host⟩ 1000⟩
    let s := Operation.runAll ⟨.empty ⟨0⟩ 1 0, 0⟩ [.observe (contact 1 1) .hearsay]
    let during : List Operation := [.insert (contact 2 9) .hearsay [.mk [] false]]
    let result := s.insert (.hearsay (contact 2 2)) [.mk during false]
    result.2 = (.refreshed, [contact 1 1]) ∧
      result.1.table.get? (contact 2 2).id = some (.hearsay (contact 2 9)) := by
  decide +kernel

/-- The same as an offer: the node was told another address meanwhile, and the outcome is not borne
out. -/
theorem refreshed_and_told_another :
    let contact (n : ℕ) (host : UInt8) : Contact :=
      ⟨⟨BitVec.allOnes 160 - BitVec.ofNat 160 n⟩, .v4 ⟨10, 0, 0, host⟩ 1000⟩
    let node : Member := .hearsay (contact 2 2)
    let other : Member := .hearsay (contact 2 9)
    let s := Step.runAll ⟨.empty ⟨0⟩ 1 0, 0⟩ [.observe (.hearsay (contact 1 1))]
    let asking : Contact → Asking :=
      fun _ => ⟨[.place other, .resume other (contact 1 1).id false], false⟩
    let result := s.offer node asking
    result.2 = .refreshed ∧
      StoredMeanwhile ((Step.place node).run s) node [asking (contact 1 1)] result.1 (contact 2 9) ∧
      ¬ result.2.BorneOut result.1.table node := by
  intro contact node other s asking result
  have hasked : (s.table.place s.now node).2.questionable = [contact 1 1] := by decide +kernel
  have refreshed : result.2 = .refreshed := by decide +kernel
  have hrecord : result.1.table.get? node.id = some other := by decide +kernel
  have law := (address_offered_unless_told_another ⟨0⟩ 1 0 [.observe (.hearsay (contact 1 1))]
    node).2.1 asking
  have asks : (s.table.place s.now node).2.questionable.map asking ≠ [] := by
    rw [hasked]
    exact List.cons_ne_nil _ _
  obtain ⟨m, hfound, stored, hiff⟩ := law.2.1 refreshed asks
  obtain rfl : m = other := Option.some.inj (hfound.symm.trans hrecord)
  rw [hasked] at stored
  exact ⟨refreshed, stored, mt hiff.mp (by decide +kernel)⟩

end Mainline.Routing
