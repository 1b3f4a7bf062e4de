import Mainline.Proofs.Traffic.Draws

/-!
# Calls in flight and the books

Many calls may send queries at once, and the shutdown is a flag beside the books: a call looks at
the flag before it registers its query, and the node sets the flag before it clears the books. So
a call is taken apart here into the *moves* that it makes without interruption, each of which
touches the books at most once. Between two moves anything else may happen: moves of other calls,
answers, the two halves of a shutdown, and the passing of time.

A call that has registered its query leaves in two moves, whatever ends it: its reply, its deadline,
a datagram that cannot be sent, or that nobody waits for it any longer. First it stops waiting, and
then it removes the entry under its transaction id.

## Main results

* `Transactions.close_eq_drain`: the halves of a shutdown.
* `Call.moved`: what a move does to the books, one rule for each way.
* `Lawful.run`: the laws of the books that every step keeps.
* `refuses_late`: what a shutdown leaves, whatever comes behind it.
* `pending_table_kept`: the table is bounded and belongs to the calls in flight; what registering a
  query may do to it; and what holds for ever once the node has been shut down.
-/

namespace Mainline

namespace Transactions

variable {t : Transactions}

/-! ### The halves of a shutdown -/

/-- The books of a node whose flag has been set: no query is registered any longer. -/
def shut (t : Transactions) : Transactions :=
  { t with closed := true }

/-- The books once they have been cleared: every query that waited has been handed a shutdown. -/
def drain (t : Transactions) : Transactions :=
  (t.pending.map (·.2.number)).foldl (fun t number => t.handOver number (.error .shutdown))
    { t with pending := [] }

/-- **A shutdown is both halves**, one behind the other. -/
theorem close_eq_drain (running : t.closed = false) : t.close.1 = t.shut.drain := by
  simp only [close, running, Bool.false_eq_true, if_false]
  rfl

/-- The books as if the flag had not been set. Between the halves of a shutdown it is set although
queries wait; the other laws of sound books do not depend on it. -/
def reopen (t : Transactions) : Transactions :=
  { t with closed := false }

theorem reopen_of_running (running : t.closed = false) : t.reopen = t := by
  rw [reopen, ← running]

theorem Sound.reopen (h : t.Sound) : t.reopen.Sound :=
  ⟨h.ids_nodup, h.numbers_nodup, h.numbers_lt, h.entry_open, nofun⟩

theorem drain_eq (t : Transactions) : t.drain = { t with
    pending := []
    openQueries := t.openQueries.map fun q =>
      if q.number ∈ t.pending.map (·.2.number) then
        { q with reply := some (.error .shutdown) } else q } :=
  foldl_handOver _ _ _

theorem reopen_drain (t : Transactions) : t.drain.reopen = t.reopen.close.1.reopen := by
  rw [close_eq rfl, drain_eq]
  rfl

theorem reopen_complete (t : Transactions) (now : Instant) (source : Address) (transaction : Bytes)
    (reply : Reply) : (t.complete now source transaction reply).1.reopen =
      (t.reopen.complete now source transaction reply).1 := by
  simp only [complete, reopen]
  split
  · rfl
  · split <;> rfl

theorem reopen_abandon (t : Transactions) (number : ℕ) :
    (t.abandon number).1.reopen = (t.reopen.abandon number).1 := by
  simp only [abandon, reopen]
  split <;> rfl

/-! ### Removing entries -/

/-- What a step does to the books that makes no entry. -/
structure Shrinks (t t' : Transactions) : Prop where
  sublist : t'.pending.Sublist t.pending
  limit_eq : t'.limit = t.limit
  closed_eq : t'.closed = t.closed

theorem Shrinks.rfl : t.Shrinks t :=
  ⟨List.Sublist.refl _, Eq.refl _, Eq.refl _⟩

/-- An answer removes an entry at most. -/
theorem shrinks_complete (t : Transactions) (now : Instant) (source : Address) (transaction : Bytes)
    (reply : Reply) : t.Shrinks (t.complete now source transaction reply).1 := by
  rw [complete]
  split
  · exact .rfl
  · split
    · exact ⟨List.filter_sublist, Eq.refl _, Eq.refl _⟩
    · exact .rfl

/-- The end of a query removes an entry at most. -/
theorem shrinks_abandon (t : Transactions) (number : ℕ) : t.Shrinks (t.abandon number).1 := by
  rw [abandon]
  split
  · exact .rfl
  · exact ⟨List.filter_sublist, Eq.refl _, Eq.refl _⟩

theorem Sound.complete (h : t.Sound) (now : Instant) (source : Address) (transaction : Bytes)
    (reply : Reply) : (t.complete now source transaction reply).1.Sound := by
  obtain ⟨entry, hentry, -, -, hcomplete⟩ | ⟨hcomplete, -⟩ :=
    h.complete_cases now source transaction reply
  · rw [hcomplete]
    exact h.answered reply hentry
  · rw [hcomplete]
    exact h

theorem Sound.abandon (h : t.Sound) (number : ℕ) : (t.abandon number).1.Sound := by
  obtain ⟨hsame, -⟩ | ⟨q, hq, -, hended⟩ := h.abandon_cases number
  · rw [hsame]
    exact h
  · rw [hended]
    exact h.conclude hq

/-- A query that has been abandoned waits no longer. -/
theorem Sound.not_waits_abandon (h : t.Sound) (number : ℕ) : ¬ (t.abandon number).1.Waits number := by
  rintro ⟨transaction, entry, hentry, rfl⟩
  obtain ⟨q, hq, hnumber, htransaction, -⟩ :=
    h.entry_open _ _ ((t.shrinks_abandon _).sublist.subset hentry)
  obtain ⟨-, hnone⟩ | ⟨q', hq', hnumber', hended⟩ := h.abandon_cases entry.number
  · exact hnone q hq hnumber
  · rw [hended, mem_pending_conclude_iff] at hentry
    obtain rfl := h.open_ext hq' hq (hnumber'.trans hnumber.symm)
    exact hentry.2 htransaction.symm

end Transactions

/-! ### Calls -/

namespace Calls

/-- How far a call has come. -/
inductive Stage where
  /-- It has not begun to run. -/
  | fresh
  /-- It has found the flag not set. -/
  | admitted
  /-- Its query is in the books but has not been sent. -/
  | registered (number : ℕ)
  /-- Its query has been sent. -/
  | waiting (number : ℕ)
  /-- It has stopped waiting and is about to remove the entry of its query. Nothing is returned if
  nobody waits for it. -/
  | leaving (number : ℕ) (outcome : Option Reply)
  /-- It has returned or, without an outcome, has been dropped. -/
  | ended (outcome : Option Reply)
deriving DecidableEq

/-- Has the call returned or been dropped? -/
def Stage.isEnded : Stage → Bool
  | ended _ => true
  | _ => false

/-- The number of the query that the call answers for. -/
def Stage.number? : Stage → Option ℕ
  | registered number | waiting number | leaving number _ => some number
  | fresh | admitted | ended _ => none

/-- A call that answers for a query has not ended. -/
theorem Stage.isEnded_eq_false {stage : Stage} {number : ℕ} (h : stage.number? = some number) :
    stage.isEnded = false := by
  cases stage with
  | ended outcome => cases h
  | fresh | admitted | registered | waiting | leaving => rfl

/-- A call that sends a query. -/
structure Call where
  address : Address
  method : Krpc.Method
  stage : Stage
  /-- Has it handed a datagram to the network? -/
  sent : Bool
deriving DecidableEq

/-- The call is **in flight**: it has been made and has not ended. -/
def Call.InFlight (c : Call) : Prop :=
  c.stage.isEnded = false

instance (c : Call) : Decidable c.InFlight :=
  inferInstanceAs (Decidable (c.stage.isEnded = false))

/-- The entry is that of the query of the call. -/
def Call.Carries (c : Call) (entry : PendingQuery) : Prop :=
  c.stage.number? = some entry.number ∧ c.address = entry.address ∧ c.method = entry.method

/-- What a call does without interruption. -/
inductive Move where
  /-- It looks at the flag. -/
  | look
  /-- It registers its query. By now it has drawn `draws` transaction ids from `stream`. -/
  | register (draws : ℕ) (stream : ByteStream)
  /-- It sends the datagram, or fails to. -/
  | send (failure : Option String)
  /-- It looks for its reply and at the clock. -/
  | resume
  /-- Nobody waits for it any longer. -/
  | drop
  /-- It removes the entry of its query. -/
  | release

/-- The call at another stage. -/
def Call.at (c : Call) (stage : Stage) : Call :=
  { c with stage }

/-- A move of a call. What is not its turn to do, it does not do. Registering its query is not done
as long as all ids that have been drawn are taken. -/
def Call.move (c : Call) (t : Transactions) (now : Instant) (m : Move) : Transactions × Call :=
  match m, c.stage with
  | .look, .fresh =>
    (t, c.at (if t.closed then .ended (some (.error .shutdown)) else .admitted))
  | .register draws stream, .admitted =>
    match t.begin now c.address c.method draws stream with
    | (none, _, _) => (t, c)
    | (some (.error error), t, _) => (t, c.at (.ended (some (.error error))))
    | (some (.ok (number, _)), t, _) => (t, c.at (.registered number))
  | .send none, .registered number => (t, { c.at (.waiting number) with sent := true })
  | .send (some text), .registered number =>
    (t, { c.at (.leaving number (some (.error (.io text)))) with sent := true })
  | .resume, .waiting number =>
    match (t.openQueries.find? (·.number == number)).bind (t.verdict now) with
    | none => (t, c)
    | some reply => (t, c.at (.leaving number (some reply)))
  | .drop, .fresh | .drop, .admitted => (t, c.at (.ended none))
  | .drop, .registered number | .drop, .waiting number => (t, c.at (.leaving number none))
  | .release, .leaving number outcome => ((t.abandon number).1, c.at (.ended outcome))
  | _, _ => (t, c)

/-- What a move does. -/
inductive Call.Moved (c : Call) (t : Transactions) (now : Instant) : Transactions → Call → Prop
  | stays {c' : Call} (address : c'.address = c.address) (method : c'.method = c.method)
      (number : c'.stage.number? = c.stage.number?) : Moved c t now t c'
  | enters {transaction : Bytes} (stage : c.stage = .admitted) (running : t.closed = false)
      (room : t.pending.length < t.limit) (free : transaction ∉ t.ids) :
      Moved c t now (t.enter transaction now c.address c.method) (c.at (.registered t.next))
  | leaves {number : ℕ} {outcome : Option Reply} (stage : c.stage = .leaving number outcome) :
      Moved c t now (t.abandon number).1 (c.at (.ended outcome))

/-- **What a move does to the books**: nothing, or it enters a query under a free id, or it removes
the entry of the call's query. -/
theorem Call.moved (c : Call) (t : Transactions) (now : Instant) (m : Move) :
    c.Moved t now (c.move t now m).1 (c.move t now m).2 := by
  rw [Call.move.eq_def]
  split
  · next hstage =>
      refine .stays rfl rfl ?_
      rw [hstage, Call.at]
      split <;> rfl
  · next draws stream hstage =>
      have begun := t.begin_begun now c.address c.method draws stream
      generalize t.begin now c.address c.method draws stream = result at begun
      obtain ⟨outcome, t', rest⟩ := result
      cases begun with
      | closed | full => exact .stays rfl rfl (by rw [hstage]; rfl)
      | drawing => exact .stays rfl rfl rfl
      | entered running room first => exact .enters hstage running room first.1
  · next hstage => exact .stays rfl rfl (by rw [hstage]; rfl)
  · next hstage => exact .stays rfl rfl (by rw [hstage]; rfl)
  · next hstage =>
      split
      · exact .stays rfl rfl rfl
      · exact .stays rfl rfl (by rw [hstage]; rfl)
  · next hstage => exact .stays rfl rfl (by rw [hstage]; rfl)
  · next hstage => exact .stays rfl rfl (by rw [hstage]; rfl)
  · next hstage => exact .stays rfl rfl (by rw [hstage]; rfl)
  · next hstage => exact .stays rfl rfl (by rw [hstage]; rfl)
  · next hstage => exact .leaves hstage
  · exact .stays rfl rfl rfl

/-! ### Steps -/

/-- The books of a node, the clock and all calls that have ever been made, in the order in which
they were. -/
structure State where
  books : Transactions
  now : Instant
  calls : List Call
  /-- Has the shutdown run to its end? -/
  drained : Bool

/-- A node that has not sent any query yet. -/
def start (settings : Settings) (now : Instant) : State :=
  ⟨.create settings, now, [], false⟩

/-- What happens without interruption. -/
inductive Step where
  /-- Somebody makes a call. -/
  | call (address : Address) (method : Krpc.Method)
  /-- The call that was made as number `i` makes a move. -/
  | move (i : ℕ) (m : Move)
  /-- A datagram from `source` is taken that has been read as a reply. -/
  | receive (source : Address) (transaction : Bytes) (reply : Reply)
  /-- A shutdown sets the flag. -/
  | shut
  /-- The shutdown that has set the flag clears the books. One that finds the flag set does not. -/
  | drain
  | wait (duration : Duration)

/-- The state after a step. -/
def Step.run (s : State) : Step → State
  | .call address method =>
    { s with calls := s.calls ++ [⟨address, method, .fresh, false⟩] }
  | .move i m =>
    match s.calls[i]? with
    | none => s
    | some c =>
      let (books, c) := c.move s.books s.now m
      { s with books, calls := s.calls.set i c }
  | .receive source transaction reply =>
    { s with books := (s.books.complete s.now source transaction reply).1 }
  | .shut => { s with books := s.books.shut }
  | .drain =>
    if s.books.closed ∧ s.drained = false then { s with books := s.books.drain, drained := true }
    else s
  | .wait duration => { s with now := s.now + duration }

/-- The books after a move of a call. -/
theorem books_run_move {s : State} {i : ℕ} {c : Call} (hc : s.calls[i]? = some c) (m : Move) :
    ((Step.move i m).run s).books = (c.move s.books s.now m).1 := by
  rw [Step.run, hc]

/-- The call after its move. -/
theorem call_run_move {s : State} {i : ℕ} {c : Call} (hc : s.calls[i]? = some c) (m : Move) :
    ((Step.move i m).run s).calls[i]? = some (c.move s.books s.now m).2 := by
  rw [Step.run, hc]
  exact List.getElem?_set_self (List.getElem?_eq_some_iff.mp hc).1

/-- The state after a course of steps. -/
def runAll (s : State) (course : List Step) : State :=
  course.foldl Step.run s

@[simp] theorem runAll_cons (s : State) (e : Step) (course : List Step) :
    runAll s (e :: course) = runAll (e.run s) course := rfl

/-! ### The laws -/

/-- The laws of the books and of the calls that use them. -/
structure Lawful (limit : ℕ) (s : State) : Prop where
  sound : s.books.reopen.Sound
  limit_eq : s.books.limit = limit
  bounded : s.books.pending.length ≤ limit
  carried : ∀ transaction entry, (transaction, entry) ∈ s.books.pending →
    ∃ (i : ℕ) (c : Call), s.calls[i]? = some c ∧ c.Carries entry
  drained : s.drained = true → s.books.closed = true ∧ s.books.pending = []

theorem lawful_start (settings : Settings) (now : Instant) :
    Lawful settings.maxPending (start settings now) :=
  ⟨(Transactions.sound_create settings).reopen, rfl, Nat.zero_le _, nofun, nofun⟩

/-- An entry is carried by a call after a move of one of them, if that one goes on carrying it. -/
theorem carried_set {calls : List Call} {i : ℕ} {c c' : Call} {entry : PendingQuery}
    (hc : calls[i]? = some c) (h : ∃ (j : ℕ) (c₀ : Call), calls[j]? = some c₀ ∧ c₀.Carries entry)
    (hcarries : c.Carries entry → c'.Carries entry) :
    ∃ (j : ℕ) (c₀ : Call), (calls.set i c')[j]? = some c₀ ∧ c₀.Carries entry := by
  obtain ⟨j, c₀, hj, hcarried⟩ := h
  by_cases hij : i = j
  · subst hij
    obtain rfl : c = c₀ := Option.some.inj (hc.symm.trans hj)
    exact ⟨i, c', List.getElem?_set_self (List.getElem?_eq_some_iff.mp hc).1, hcarries hcarried⟩
  · exact ⟨j, c₀, by rw [List.getElem?_set_ne hij, hj], hcarried⟩

/-- A step that makes no entry keeps the laws, if it keeps the books sound and each entry with the
call that carries it. -/
theorem Lawful.shrink {limit : ℕ} {s s' : State} (h : Lawful limit s)
    (hshrinks : s.books.Shrinks s'.books) (sound : s'.books.reopen.Sound)
    (carried : ∀ transaction entry, (transaction, entry) ∈ s'.books.pending →
      ∃ (i : ℕ) (c : Call), s'.calls[i]? = some c ∧ c.Carries entry)
    (drained : s'.drained = s.drained) : Lawful limit s' := by
  refine ⟨sound, hshrinks.limit_eq.trans h.limit_eq, ?_, carried, fun hdrained => ?_⟩
  · exact Nat.le_trans hshrinks.sublist.length_le h.bounded
  · obtain ⟨hclosed, hempty⟩ := h.drained (drained ▸ hdrained)
    have hsublist := hshrinks.sublist
    rw [hempty, List.sublist_nil] at hsublist
    exact ⟨hshrinks.closed_eq.trans hclosed, hsublist⟩

theorem Lawful.run_move {limit : ℕ} {s : State} (h : Lawful limit s) {i : ℕ} {c : Call}
    (hc : s.calls[i]? = some c) (m : Move) :
    Lawful limit { s with
      books := (c.move s.books s.now m).1
      calls := s.calls.set i (c.move s.books s.now m).2 } := by
  have moved := c.moved s.books s.now m
  generalize c.move s.books s.now m = result at moved ⊢
  obtain ⟨t, c'⟩ := result
  cases moved with
  | stays address method number =>
      refine h.shrink .rfl h.sound (fun transaction entry hentry => ?_) rfl
      refine carried_set hc (h.carried transaction entry hentry) ?_
      rintro ⟨hnumber, haddress, hmethod⟩
      exact ⟨number.trans hnumber, address.trans haddress, method.trans hmethod⟩
  | @enters transaction stage running room free =>
      have hsound := h.sound
      rw [Transactions.reopen_of_running running] at hsound
      refine ⟨(hsound.enter running free).reopen, h.limit_eq, ?_, ?_, fun hdrained => ?_⟩
      · have hlength : (s.books.enter transaction s.now c.address c.method).pending.length =
            s.books.pending.length + 1 := List.length_append
        exact Nat.le_trans (Nat.le_of_eq hlength) (h.limit_eq ▸ room)
      · intro transaction' entry hentry
        obtain hentry | ⟨-, rfl⟩ := Transactions.mem_pending_enter_iff.mp hentry
        · refine carried_set hc (h.carried transaction' entry hentry) ?_
          rintro ⟨hnumber, -⟩
          rw [stage] at hnumber
          cases hnumber
        · exact ⟨i, _, List.getElem?_set_self (List.getElem?_eq_some_iff.mp hc).1, rfl, rfl, rfl⟩
      · have hclosed := (h.drained hdrained).1
        rw [running] at hclosed
        cases hclosed
  | @leaves number outcome stage =>
      have hsound := h.sound.abandon number
      rw [← Transactions.reopen_abandon] at hsound
      refine h.shrink (s.books.shrinks_abandon number) hsound (fun transaction entry hentry => ?_) rfl
      have hwas := (s.books.shrinks_abandon number).sublist.subset hentry
      refine carried_set hc (h.carried transaction entry hwas) ?_
      rintro ⟨hnumber, -⟩
      rw [stage] at hnumber
      have hgone := h.sound.not_waits_abandon number
      rw [← Transactions.reopen_abandon] at hgone
      exact absurd ⟨transaction, entry, hentry, (Option.some.inj hnumber).symm⟩ hgone

/-- **Every step keeps the laws.** -/
theorem Lawful.run {limit : ℕ} {s : State} (h : Lawful limit s) (e : Step) :
    Lawful limit (e.run s) := by
  cases e with
  | call address method =>
      refine h.shrink .rfl h.sound (fun transaction entry hentry => ?_) rfl
      obtain ⟨i, c, hc, hcarries⟩ := h.carried transaction entry hentry
      exact ⟨i, c, List.getElem?_append_left (List.getElem?_eq_some_iff.mp hc).1 ▸ hc, hcarries⟩
  | move i m =>
      rw [Step.run]
      split
      · exact h
      · next c hc => exact h.run_move hc m
  | receive source transaction reply =>
      have hsound := h.sound.complete s.now source transaction reply
      rw [← Transactions.reopen_complete] at hsound
      have hshrinks := s.books.shrinks_complete s.now source transaction reply
      refine h.shrink hshrinks hsound (fun transaction' entry hentry => ?_) rfl
      exact h.carried transaction' entry (hshrinks.sublist.subset hentry)
  | shut => exact ⟨h.sound, h.limit_eq, h.bounded, h.carried, fun hd => ⟨rfl, (h.drained hd).2⟩⟩
  | drain =>
      rw [Step.run]
      split
      · next hclosed =>
          have hsound := h.sound.close.reopen
          rw [← Transactions.reopen_drain] at hsound
          rw [Transactions.drain_eq] at hsound ⊢
          exact ⟨hsound, h.limit_eq, Nat.zero_le _, nofun, fun _ => ⟨hclosed.1, rfl⟩⟩
      · exact h
  | wait duration => exact ⟨h.sound, h.limit_eq, h.bounded, h.carried, h.drained⟩

theorem drained_runAll {s : State} (h : s.drained = true) (course : List Step) :
    (runAll s course).drained = true := by
  induction course generalizing s with
  | nil => exact h
  | cons e course ih =>
      refine ih ?_
      cases e with
      | move i m =>
          rw [Step.run]
          split <;> exact h
      | drain =>
          rw [Step.run]
          split
          · rfl
          · exact h
      | call | receive | shut | wait => exact h

theorem Lawful.runAll {limit : ℕ} {s : State} (h : Lawful limit s) (course : List Step) :
    Lawful limit (runAll s course) := by
  induction course generalizing s with
  | nil => exact h
  | cons e course ih => exact ih (h.run e)

/-! ### After the shutdown -/

/-- The call has sent nothing, and has not returned anything but a shutdown. -/
def Call.Refused (c : Call) : Prop :=
  c.sent = false ∧
    (c.stage = .fresh ∨ c.stage = .ended none ∨ c.stage = .ended (some (.error .shutdown)))

/-- A move does not clear the flag. -/
theorem closed_move {t : Transactions} (closed : t.closed = true) (c : Call) (now : Instant)
    (m : Move) : (c.move t now m).1.closed = true := by
  have moved := c.moved t now m
  generalize c.move t now m = result at moved ⊢
  obtain ⟨t', c'⟩ := result
  cases moved with
  | stays => exact closed
  | enters stage running =>
      rw [closed] at running
      cases running
  | @leaves number outcome stage => exact (t.shrinks_abandon number).closed_eq.trans closed

/-- Once the flag is set, a call that has not looked at it yet is refused. -/
theorem Call.Refused.move {c : Call} (h : c.Refused) {t : Transactions} (closed : t.closed = true)
    (now : Instant) (m : Move) : (c.move t now m).2.Refused := by
  obtain ⟨hsent, hstage⟩ := h
  rw [Call.move.eq_def]
  split
  · rw [if_pos closed]
    exact ⟨hsent, .inr (.inr rfl)⟩
  · next h => simp [h] at hstage
  · next h => simp [h] at hstage
  · next h => simp [h] at hstage
  · next h => simp [h] at hstage
  · exact ⟨hsent, .inr (.inl rfl)⟩
  · exact ⟨hsent, .inr (.inl rfl)⟩
  · next h => simp [h] at hstage
  · next h => simp [h] at hstage
  · next h => simp [h] at hstage
  · exact ⟨hsent, hstage⟩

/-- **After the flag has been set it stays set**, and every call that is made is refused. -/
theorem refused_run {s : State} {k : ℕ} (closed : s.books.closed = true)
    (h : ∀ i c, k ≤ i → s.calls[i]? = some c → c.Refused) (e : Step) :
    (e.run s).books.closed = true ∧
      ∀ i c, k ≤ i → (e.run s).calls[i]? = some c → c.Refused := by
  cases e with
  | call address method =>
      refine ⟨closed, fun i c hi hc => ?_⟩
      obtain hlt | hge := Nat.lt_or_ge i s.calls.length
      · rw [Step.run, List.getElem?_append_left hlt] at hc
        exact h i c hi hc
      · rw [Step.run, List.getElem?_append_right hge] at hc
        obtain rfl := List.mem_singleton.mp (List.mem_of_getElem? hc)
        exact ⟨rfl, .inl rfl⟩
  | move j m =>
      rw [Step.run]
      split
      · exact ⟨closed, h⟩
      · next c₀ hc₀ =>
          refine ⟨closed_move closed c₀ s.now m, fun i c hi hc => ?_⟩
          by_cases hij : j = i
          · subst hij
            rw [List.getElem?_set_self (List.getElem?_eq_some_iff.mp hc₀).1] at hc
            rw [← Option.some.inj hc]
            exact (h j c₀ hi hc₀).move closed s.now m
          · rw [List.getElem?_set_ne hij] at hc
            exact h i c hi hc
  | receive source transaction reply =>
      exact ⟨(s.books.shrinks_complete s.now source transaction reply).closed_eq.trans closed, h⟩
  | shut => exact ⟨rfl, h⟩
  | drain =>
      rw [Step.run]
      split
      · rw [Transactions.drain_eq]
        exact ⟨closed, h⟩
      · exact ⟨closed, h⟩
  | wait duration => exact ⟨closed, h⟩

theorem refused_runAll {s : State} {k : ℕ} (closed : s.books.closed = true)
    (h : ∀ i c, k ≤ i → s.calls[i]? = some c → c.Refused) (course : List Step) :
    (runAll s course).books.closed = true ∧
      ∀ i c, k ≤ i → (runAll s course).calls[i]? = some c → c.Refused := by
  induction course generalizing s with
  | nil => exact ⟨closed, h⟩
  | cons e course ih =>
      obtain ⟨hclosed, hrefused⟩ := refused_run closed h e
      exact ih hclosed hrefused

/-- **Nothing is sent after a shutdown** that has run to its end: the table stays empty, and whoever
calls later is refused as soon as the call runs. -/
theorem refuses_late {limit : ℕ} {s : State} (lawful : Lawful limit s)
    (hdrained : s.drained = true) (later : List Step) :
    let s' := runAll s later
    s'.books.pending = [] ∧ ∀ i c, s.calls.length ≤ i → s'.calls[i]? = some c →
      c.Refused ∧ (c.stage = .fresh → ((Step.move i .look).run s').calls[i]? =
        some (c.at (.ended (some (.error .shutdown))))) := by
  intro s'
  have hnone : ∀ i c, s.calls.length ≤ i → s.calls[i]? = some c → c.Refused := by
    intro i c hi hc
    rw [List.getElem?_eq_none hi] at hc
    cases hc
  obtain ⟨hclosed, hrefused⟩ := refused_runAll (lawful.drained hdrained).1 hnone later
  refine ⟨((lawful.runAll later).drained (drained_runAll hdrained later)).2, fun i c hi hc => ?_⟩
  refine ⟨hrefused i c hi hc, fun hfresh => ?_⟩
  have hlook : c.move s'.books s'.now .look =
      (s'.books, c.at (.ended (some (.error .shutdown)))) := by
    rw [Call.move.eq_def, hfresh]
    exact congrArg (fun stage => (s'.books, c.at stage)) (if_pos hclosed)
  rw [call_run_move hc, hlook]

/-! ### Registering a query -/

section Registering

variable {c : Call} (stage : c.stage = .admitted) {t : Transactions} (now : Instant) {draws : ℕ}
  {stream : ByteStream}

include stage

/-- A call that is refused when it registers its query leaves the books as they are. -/
theorem Call.books_of_refused {error : Error}
    (refused : (c.move t now (.register draws stream)).2.stage = .ended (some (.error error))) :
    (c.move t now (.register draws stream)).1 = t := by
  have begun := t.begin_begun now c.address c.method draws stream
  rw [Call.move.eq_def, stage] at refused ⊢
  dsimp only at refused ⊢
  generalize t.begin now c.address c.method draws stream = result at begun refused ⊢
  obtain ⟨outcome, t', rest⟩ := result
  cases begun with
  | closed | full | drawing => rfl
  | entered => cases refused

variable (running : t.closed = false) (room : t.pending.length < t.limit)

include running room

/-- **A query for which there is room is registered under the first free id** that is drawn. -/
theorem Call.registers {transaction : Bytes} (first : t.FirstFree draws stream transaction) :
    c.move t now (.register draws stream) =
      (t.enter transaction now c.address c.method, c.at (.registered t.next)) := by
  rw [← Transactions.drawId_eq_some_iff] at first
  rw [Call.move.eq_def, stage]
  dsimp only
  rw [Transactions.begin_of_room running room]
  generalize t.drawId draws stream = drawn at first ⊢
  obtain ⟨_, rest⟩ := drawn
  cases first
  rfl

/-- As long as all ids that have been drawn are taken, nothing has happened. -/
theorem Call.goes_on_drawing (taken : ∀ id ∈ Transactions.drawnIds draws stream, id ∈ t.ids) :
    c.move t now (.register draws stream) = (t, c) := by
  rw [← Transactions.drawId_eq_none_iff] at taken
  rw [Call.move.eq_def, stage]
  dsimp only
  rw [Transactions.begin_of_room running room]
  generalize t.drawId draws stream = drawn at taken ⊢
  obtain ⟨_, rest⟩ := drawn
  cases taken
  rfl

end Registering

/-- **The table of pending queries is bounded and belongs to the calls in flight**, whatever calls,
answers, deadlines, failures and shutdowns come in between each other. A call that is refused when
it registers its query leaves the books as they are. A query for which there is room is registered
under the first free id that is drawn, an id of two octets that no entry has, and behind the entries
that there are; as long as all ids that have been drawn are taken, nothing happens. If there may be
at most as many entries as there are ids, there is a free one, and drawing ends. Once a shutdown has
run to its end, the table is empty for ever, and a call that is made later sends nothing and returns
a shutdown as soon as it runs. -/
theorem pending_table_kept (settings : Settings) (now : Instant) (course : List Step) :
    let s := runAll (start settings now) course
    s.books.pending.length ≤ settings.maxPending ∧
    (∀ transaction entry, (transaction, entry) ∈ s.books.pending →
      ∃ c ∈ s.calls, c.InFlight ∧ c.Carries entry) ∧
    ((∀ c ∈ s.calls, ¬ c.InFlight) → s.books.pending = []) ∧
    (∀ i c draws stream, s.calls[i]? = some c → c.stage = .admitted →
      let s' := (Step.move i (.register draws stream)).run s
      (∀ error, s'.calls[i]? = some (c.at (.ended (some (.error error)))) → s'.books = s.books) ∧
      (s.books.closed = false → s.books.pending.length < settings.maxPending →
        (∀ transaction, s.books.FirstFree draws stream transaction →
          transaction.length = 2 ∧ transaction ∉ s.books.ids ∧
          s'.calls[i]? = some (c.at (.registered s.books.next)) ∧
          s'.books.pending = s.books.pending ++ [(transaction,
            ⟨s.books.next, c.method, c.address, s.now + s.books.timeout⟩)]) ∧
        ((∀ id ∈ Transactions.drawnIds draws stream, id ∈ s.books.ids) → s' = s) ∧
        (settings.maxPending ≤ 65536 →
          (∃ free : Bytes, free.length = 2 ∧ free ∉ s.books.ids) ∧
          (stream.span ≤ draws → ∃ transaction, s.books.FirstFree draws stream transaction)))) ∧
    (s.drained = true → ∀ later,
      let s' := runAll s later
      s'.books.pending = [] ∧
      ∀ i c, s.calls.length ≤ i → s'.calls[i]? = some c →
        c.sent = false ∧
        (c.stage = .fresh ∨ c.stage = .ended none ∨ c.stage = .ended (some (.error .shutdown))) ∧
        (c.stage = .fresh → ((Step.move i .look).run s').calls[i]? =
          some (c.at (.ended (some (.error .shutdown)))))) := by
  intro s
  have lawful : Lawful settings.maxPending s := (lawful_start settings now).runAll course
  have carried : ∀ transaction entry, (transaction, entry) ∈ s.books.pending →
      ∃ c ∈ s.calls, c.InFlight ∧ c.Carries entry := by
    intro transaction entry hentry
    obtain ⟨i, c, hc, hcarries⟩ := lawful.carried transaction entry hentry
    exact ⟨c, List.mem_of_getElem? hc, Stage.isEnded_eq_false hcarries.1, hcarries⟩
  refine ⟨lawful.bounded, carried, fun hidle => ?_, fun i c draws stream hc stage => ?_,
    fun hdrained later => ?_⟩
  · refine List.eq_nil_iff_forall_not_mem.mpr fun ⟨transaction, entry⟩ hentry => ?_
    obtain ⟨c, hmem, hflight, -⟩ := carried transaction entry hentry
    exact hidle c hmem hflight
  · have hbooks := books_run_move hc (.register draws stream)
    have hcall := call_run_move hc (.register draws stream)
    refine ⟨fun error refused => ?_, fun running room => ?_⟩
    · rw [hcall] at refused
      rw [hbooks]
      exact Call.books_of_refused stage s.now (congrArg Call.stage (Option.some.inj refused))
    have room' : s.books.pending.length < s.books.limit := lawful.limit_eq ▸ room
    refine ⟨fun transaction first => ?_, fun taken => ?_, fun hlimit => ?_⟩
    · rw [Call.registers stage s.now running room' first] at hbooks hcall
      have hlength : transaction.length = 2 :=
        Transactions.length_of_mem_drawnIds (Transactions.mem_drawnIds_of_firstFree first)
      exact ⟨hlength, first.1, hcall, congrArg Transactions.pending hbooks⟩
    · obtain ⟨hi, hget⟩ := List.getElem?_eq_some_iff.mp hc
      rw [Step.run, hc]
      dsimp only
      rw [Call.goes_on_drawing stage s.now running room' taken, ← hget, List.set_getElem_self]
    · have hfew := Nat.lt_of_lt_of_le room hlimit
      exact ⟨Transactions.exists_free hfew, fun enough => Transactions.exists_firstFree hfew enough⟩
  · obtain ⟨hempty, late⟩ := refuses_late lawful hdrained later
    refine ⟨hempty, fun i c hi hc => ?_⟩
    obtain ⟨⟨hsent, hstage⟩, hfresh⟩ := late i c hi hc
    exact ⟨hsent, hstage, hfresh⟩

/-- Two calls of a node with room for one query: the first registers its query and the second is
refused. Once both have ended the table is empty, and a call that is made after the shutdown returns
at its first look. -/
theorem pending_table_of_three_calls :
    let settings : Settings := { maxPending := 1 }
    let address : Address := .v4 ⟨10, 0, 0, 2⟩ 6881
    let draws : ByteStream := ⟨[0, 7], 1⟩
    let made : List Step :=
      [.call address .ping, .call address .findNode, .move 0 .look, .move 1 .look]
    let taken : List Step := made ++ [.move 0 (.register 1 draws)]
    let course : List Step := taken ++
      [.move 1 (.register 1 draws), .move 0 (.send none), .move 0 .drop, .move 0 .release, .shut,
        .drain]
    ((Step.move 0 (.register 1 draws)).run (runAll (start settings 0) made)).books.ids =
      [[0, 7]] ∧
    ((Step.move 1 (.register 1 draws)).run (runAll (start settings 0) taken)).books =
      (runAll (start settings 0) taken).books ∧
    (runAll (start settings 0) course).books.pending = [] ∧
    ((Step.move 2 .look).run
      (runAll (runAll (start settings 0) course) [.call address .ping])).calls[2]? =
      some ⟨address, .ping, .ended (some (.error .shutdown)), false⟩ := by
  intro settings address draws made taken course
  obtain ⟨-, -, -, registers, -⟩ := pending_table_kept settings 0 made
  obtain ⟨-, -, -, refuses, -⟩ := pending_table_kept settings 0 taken
  obtain ⟨-, -, idle, -, late⟩ := pending_table_kept settings 0 course
  have first : (runAll (start settings 0) made).calls[0]? =
      some ⟨address, .ping, .admitted, false⟩ := by
    decide +kernel
  have second : (runAll (start settings 0) taken).calls[1]? =
      some ⟨address, .findNode, .admitted, false⟩ := by
    decide +kernel
  have full : ((Step.move 1 (.register 1 draws)).run (runAll (start settings 0) taken)).calls[1]? =
      some ⟨address, .findNode, .ended (some (.error .rateLimited)), false⟩ := by
    decide +kernel
  have third : (runAll (runAll (start settings 0) course) [.call address .ping]).calls[2]? =
      some ⟨address, .ping, .fresh, false⟩ := by
    decide +kernel
  have allEnded : (runAll (start settings 0) course).calls.all (·.stage.isEnded) = true := by
    decide +kernel
  have noneInFlight : ∀ c ∈ (runAll (start settings 0) course).calls, ¬ c.InFlight := by
    intro c hc hflight
    have hended := List.all_eq_true.mp allEnded c hc
    rw [hflight] at hended
    cases hended
  have drawn : (runAll (start settings 0) made).books.FirstFree 1 draws [0, 7] :=
    Transactions.drawId_eq_some_iff.mp (by decide +kernel)
  refine ⟨?_, (refuses 1 _ 1 draws second rfl).1 _ full, idle noneInFlight, ?_⟩
  · obtain ⟨-, -, -, hpending⟩ :=
      ((registers 0 _ 1 draws first rfl).2 (by decide +kernel) (by decide +kernel)).1 _ drawn
    exact congrArg (List.map Prod.fst) hpending
  · have hcalls : (runAll (start settings 0) course).calls.length ≤ 2 := by decide +kernel
    exact ((late (by decide +kernel) [.call address .ping]).2 2 _ hcalls third).2.2 rfl

end Calls

end Mainline
