import Mathlib.Algebra.Group.Action.Defs
import Mathlib.Algebra.Order.BigOperators.Group.List
import Mathlib.Algebra.Order.Group.Nat
import Mainline.Proofs.Lookup.Rounds

/-!
# Whom a lookup asks

A lookup is told of the same contacts again and again, by others and by answers that come under
another id than the one that was asked. This module proves that it never asks an id twice all the
same, nor itself, nor an id under which somebody has answered in an earlier round, and that it sends
no more queries than its settings allow.

## Main results

* `fresh_of_mem_rounds`: whom a round asks could still be asked when the lookup began.
* `nodup_asked`, `pairwise_asked`: no id is asked twice, or after somebody has answered under it.
* `asks_each_id_once`: all of this for every course of a lookup.
-/

namespace Mainline.Lookup

variable {σ : Type} {purpose : Purpose σ} {s : Search × σ}

/-- Every round begins with a search that is in order, has the aim of the lookup, and asks nobody
who was not to be asked before. -/
theorem inOrder_of_mem_rounds (h : s.1.InOrder) {answers : List (List Reply)} {r : Round}
    (hr : r ∈ rounds purpose s answers) :
    r.search.InOrder ∧ Search.SameAim s.1 r.search ∧ s.1.asked ⊆ r.search.asked := by
  induction answers generalizing s with
  | nil => cases hr
  | cons replies answers ih =>
      obtain rfl | hr := List.mem_cons.mp hr
      · exact ⟨h, .refl _, fun id hid => hid⟩
      · have hfirst := absorbed_afterRound purpose h replies
        obtain ⟨hinOrder, hAim, hAsked⟩ := ih hfirst.inOrder hr
        exact ⟨hinOrder, hfirst.sameAim.trans hAim, List.Subset.trans hfirst.asked_subset hAsked⟩

/-- Whom a round asks is not the searcher, and could be asked when the lookup began. -/
theorem fresh_of_mem_rounds (h : s.1.InOrder) {answers : List (List Reply)} {r : Round}
    (hr : r ∈ rounds purpose s answers) {id : Key} (hid : id ∈ r.asked.map Contact.id) :
    id ≠ s.1.localId ∧ id ∉ s.1.asked := by
  obtain ⟨hinOrder, hAim, hAsked⟩ := inOrder_of_mem_rounds h hr
  obtain ⟨c, hc, rfl⟩ := List.mem_map.mp hid
  obtain ⟨hlocal, hnew⟩ := hinOrder.fresh c (List.mem_of_mem_take hc)
  rw [hAim.localId] at hlocal
  exact ⟨hlocal, fun hin => hnew (hAsked hin)⟩

/-- **No id is asked twice.** -/
theorem nodup_asked (h : s.1.InOrder) (answers : List (List Reply)) :
    (((rounds purpose s answers).flatMap Round.asked).map Contact.id).Nodup := by
  induction answers generalizing s with
  | nil => exact List.nodup_nil
  | cons replies answers ih =>
      have hfirst := absorbed_afterRound purpose h replies
      rw [rounds, List.flatMap_cons, List.map_append]
      refine List.Nodup.append ?_ (ih hfirst.inOrder) ?_
      · refine List.Nodup.sublist ?_ h.candidates.nodup_ids
        exact (List.take_sublist _ _).map Contact.id
      · intro id hid hlater
        obtain ⟨c, hc, rfl⟩ := List.mem_map.mp hlater
        obtain ⟨r, hr, hc⟩ := List.mem_flatMap.mp hc
        refine (fresh_of_mem_rounds hfirst.inOrder hr (List.mem_map_of_mem hc)).2 ?_
        exact (absorbed_replied h replies).asked_subset (Search.mem_asked_nextRound_iff.mpr (.inl hid))

/-- **No id is asked after somebody has answered under it** in an earlier round. -/
theorem pairwise_asked (h : s.1.InOrder) (answers : List (List Reply)) :
    (rounds purpose s answers).Pairwise fun earlier later =>
      ∀ asked response, (asked, .ok response) ∈ earlier.replied →
        response.id ∉ later.asked.map Contact.id := by
  induction answers generalizing s with
  | nil => exact .nil
  | cons replies answers ih =>
      have hfirst := absorbed_afterRound purpose h replies
      refine List.pairwise_cons.mpr ⟨fun r hr asked response hmem hid => ?_, ih hfirst.inOrder⟩
      obtain ⟨other, hnew⟩ := fresh_of_mem_rounds hfirst.inOrder hr hid
      rw [hfirst.sameAim.localId] at other
      have hanswered : Answered s.1.localId (Round.mk s.1 replies).replied (responder asked response) :=
        ⟨other, asked, response, hmem, rfl⟩
      exact hnew (hfirst.mem_asked_of_answered hanswered)

/-- A round asks as many contacts as are to be asked at once, at most. -/
theorem length_asked_le (h : s.1.InOrder) {answers : List (List Reply)} {r : Round}
    (hr : r ∈ rounds purpose s answers) : r.asked.length ≤ s.1.parallelism := by
  rw [← (inOrder_of_mem_rounds h hr).2.1.parallelism]
  exact List.length_take_le _ _

/-- **A lookup asks each id once at most.** Every course of a lookup, whatever the replies are and
whatever happens to the node meanwhile, consists of rounds. Over all rounds no id is asked twice,
and that of the node itself is not asked at all; no id is asked in a round after one in which
somebody has answered under it. There are no more rounds, and no more queries in each of them, than
the settings allow. At the beginning of each round the candidates stand in strict order of their
distances, and none of them has been asked already or has answered. -/
theorem asks_each_id_once (target : Key) (purpose : Purpose σ) (nothing : σ) (seeds : Seeds)
    (m : Moment) (exchanges : List Exchange) (result : Search × σ)
    (course : Activity.Course m (start target purpose nothing seeds) exchanges result) :
    let rs := rounds purpose (beginning m.node target seeds, nothing) (exchanges.map (·.replies))
    let ids := (rs.flatMap Round.asked).map Contact.id
    exchanges.map (·.queries) = rs.map (Round.queries purpose) ∧
    ids.Nodup ∧ m.node.localId ∉ ids ∧
    (rs.Pairwise fun earlier later =>
      ∀ response, .ok response ∈ earlier.replies → response.id ∉ later.asked.map Contact.id) ∧
    (∀ r ∈ rs, r.asked.length ≤ m.node.settings.parallelism) ∧
    rs.length ≤ m.node.settings.maxRounds ∧
    ids.length ≤ m.node.settings.parallelism * m.node.settings.maxRounds ∧
    ∀ r ∈ rs, Nearest target r.search.candidates ∧
      ∀ c ∈ r.search.candidates,
        c.id ∉ r.search.asked ∧ c.id ∉ r.search.answered.map Contact.id := by
  intro rs ids
  have hrounds := inRounds_of_start course
  have h := inOrder_beginning m.node target seeds
  have hAim := sameAim_beginning m.node target seeds
  have hwidth : ∀ r ∈ rs, r.asked.length ≤ m.node.settings.parallelism := by
    intro r hr
    have hparallelism : (beginning m.node target seeds).parallelism = m.node.settings.parallelism :=
      hAim.parallelism
    rw [← hparallelism]
    exact length_asked_le h hr
  have hlength : rs.length ≤ m.node.settings.maxRounds := by
    have hsame := congrArg List.length hrounds.queries_eq
    rw [List.length_map, List.length_map] at hsame
    rw [← hsame]
    exact hrounds.length_le
  refine ⟨hrounds.queries_eq, nodup_asked h _, fun hid => ?_, ?_, hwidth, hlength, ?_, ?_⟩
  · obtain ⟨c, hc, hlocal⟩ := List.mem_map.mp hid
    obtain ⟨r, hr, hc⟩ := List.mem_flatMap.mp hc
    refine (fresh_of_mem_rounds h hr (List.mem_map_of_mem hc)).1 ?_
    exact hlocal.trans hAim.localId.symm
  · refine List.Pairwise.imp_of_mem ?_ (pairwise_asked h _)
    intro earlier later hearlier _ hnew response hresponse
    obtain ⟨asked, hmem⟩ := hrounds.exists_asked hearlier hresponse
    exact hnew asked response hmem
  · have hsum : ids.length ≤ rs.length • m.node.settings.parallelism := by
      rw [List.length_map, List.length_flatMap, ← List.length_map (fun r : Round => r.asked.length)]
      refine List.sum_le_card_nsmul _ _ fun n hn => ?_
      obtain ⟨r, hr, rfl⟩ := List.mem_map.mp hn
      exact hwidth r hr
    rw [smul_eq_mul] at hsum
    calc ids.length ≤ rs.length * m.node.settings.parallelism := hsum
      _ ≤ m.node.settings.maxRounds * m.node.settings.parallelism :=
          Nat.mul_le_mul_right _ hlength
      _ = m.node.settings.parallelism * m.node.settings.maxRounds := Nat.mul_comm _ _
  · intro r hr
    obtain ⟨hinOrder, hsame, -⟩ := inOrder_of_mem_rounds h hr
    have htarget : r.search.target = target := hsame.target.trans hAim.target
    refine ⟨htarget ▸ hinOrder.candidates, fun c hc => ⟨(hinOrder.fresh c hc).2, fun hid => ?_⟩⟩
    obtain ⟨d, hd, heq⟩ := List.mem_map.mp hid
    exact (hinOrder.fresh c hc).2 (heq ▸ (hinOrder.known d hd).2)

/-- A lookup with two queries at once is told of a contact that it is asking, of itself, of the
contact that answers, which does so under another id than it was asked under, and of one more: it
asks that one, and no other. -/
theorem asked_once_when_told_twice :
    let key (n : ℕ) : Key := ⟨BitVec.ofNat 160 n⟩
    let contact (n : ℕ) : Contact := ⟨key n, .v4 ⟨10, 0, 0, UInt8.ofNat n⟩ 6881⟩
    let node := (Node.create (key 0) (.v4 ⟨10, 0, 0, 1⟩ 6881)
      { parallelism := 2, maxRounds := 2 } 0 ⟨[], 2⟩).1
    let m : Moment := ⟨node, 0, ⟨[], 3⟩⟩
    let purpose := Purpose.findNode (key 7)
    let exchanges : List Exchange :=
      [⟨[((contact 1).address, purpose.query)],
          [.ok (.findNode (key 4) [contact 1, contact 0, contact 3, contact 4])], rfl⟩,
        ⟨[((contact 3).address, purpose.query)], [.error .timeout], rfl⟩]
    let s := beginning node (key 7) (.given [contact 1])
    let rs := rounds purpose (s, ()) (exchanges.map (·.replies))
    (∃ result, Activity.Course m (start (key 7) purpose () (.given [contact 1])) exchanges result) ∧
      (rs.flatMap Round.asked).map Contact.id = [key 1, key 3] ∧
      ((rs.flatMap Round.asked).map Contact.id).Nodup := by
  intro key contact node m purpose exchanges s rs
  have hcourse : ∃ result, Activity.Course m (run purpose 2 (s, ())) exchanges result := by
    refine ⟨_, course_run_of_round m ?_ ?_ ?_ ?_ <|
      course_run_of_round m ?_ ?_ ?_ ?_ (course_run_zero _)⟩
    all_goals decide +kernel
  obtain ⟨result, course⟩ := hcourse
  have course : Activity.Course m (start (key 7) purpose () (.given [contact 1])) exchanges
      result := Activity.course_look_iff.mpr course
  have law := asks_each_id_once (key 7) purpose () (.given [contact 1]) m exchanges _ course
  exact ⟨⟨_, course⟩, by decide +kernel, law.2.1⟩
end Mainline.Lookup
