import Mainline.Proofs.Lookup.Rounds

/-!
# What a lookup finds

A lookup ends with the nearest of the contacts that have answered it, as many as are wanted. They
are collected over all rounds, from contacts that answer under other ids than they were asked
under, or under an id that another one has answered under before, and the lookup may end early
because it gets nowhere or the node is shut down. This module proves that the result is exactly
what it should be in each case.

## Main results

* `Search.InOrder.covered_closest`: who is not among the nearest contacts is farther away.
* `answered_iff_exchanged`: who has answered, in terms of the queries of a lookup.
* `closest_nearest_of_answering`: what every course of a lookup ends with.
-/

namespace Mainline

namespace Search

variable {s : Search}

/-- The nearest contacts stand in strict order of their distances. -/
theorem InOrder.nearest_closest (h : s.InOrder) : Nearest s.target s.closest :=
  List.Pairwise.sublist (List.take_sublist _ _) h.answered

/-- Who has answered is among the nearest contacts, or there are as many of them as are wanted and
all of them are nearer. -/
theorem InOrder.covered_closest (h : s.InOrder) {id : Key}
    (answered : id ∈ s.answered.map Contact.id) :
    id ∈ s.closest.map Contact.id ∨
      s.closest.length = s.wanted ∧
        ∀ c ∈ s.closest, c.id.distance s.target < id.distance s.target := by
  obtain ⟨d, hd, rfl⟩ := List.mem_map.mp answered
  rw [← List.take_append_drop s.wanted s.answered] at hd
  obtain hd | hd := List.mem_append.mp hd
  · exact .inl (List.mem_map_of_mem hd)
  · refine .inr ⟨?_, fun c hc => h.answered.take_lt_drop s.wanted hc hd⟩
    have hmore : s.wanted ≤ s.answered.length := by
      by_contra hless
      rw [List.drop_eq_nil_of_le (Nat.le_of_not_le hless)] at hd
      cases hd
    exact List.length_take_of_le hmore

end Search

namespace Lookup

variable {σ : Type} {purpose : Purpose σ} {s : Search × σ}

/-- A contact has **answered** the rounds of a lookup exactly if one of its queries went to the
contact's address and had a response with the contact's id. -/
theorem InRounds.answered_iff_exchanged {n : ℕ} {exchanges : List Exchange} {result : Search × σ}
    (h : InRounds purpose n s exchanges result) {localId : Key} {contact : Contact} :
    Answered localId ((rounds purpose s (exchanges.map (·.replies))).flatMap Round.replied) contact ↔
      contact.id ≠ localId ∧ ∃ e ∈ exchanges, ∃ response,
        ((contact.address, purpose.query), .ok response) ∈ e.queries.zip e.replies ∧
          response.id = contact.id := by
  refine and_congr_right fun _ => ⟨?_, ?_⟩
  · rintro ⟨asked, response, hmem, rfl⟩
    obtain ⟨r, hr, hmem⟩ := List.mem_flatMap.mp hmem
    obtain ⟨e, he, hqueries, hreplies⟩ := h.exists_exchange hr
    refine ⟨e, he, response, ?_, rfl⟩
    rw [hqueries, hreplies, Round.queries, List.zip_map_left]
    exact List.mem_map_of_mem hmem
  · rintro ⟨e, he, response, hmem, hid⟩
    obtain ⟨r, hr, hqueries, hreplies⟩ := h.exists_round he
    rw [hqueries, hreplies, Round.queries, List.zip_map_left] at hmem
    obtain ⟨⟨asked, reply⟩, hmem, heq⟩ := List.mem_map.mp hmem
    obtain ⟨hquery, rfl⟩ := Prod.mk.inj heq
    obtain ⟨haddress, -⟩ := Prod.mk.inj hquery
    refine ⟨asked, response, List.mem_flatMap.mpr ⟨r, hr, hmem⟩, ?_⟩
    rw [responder, hid, haddress]

/-- **A lookup ends with the nearest of all that answer it.** In every course of a lookup, whatever
the replies are and whatever happens to the node meanwhile, shutting it down included, the result

* stands in strict order of the distances to the target, each id once, and without the node itself;
* holds as many contacts as a bucket of the routing table at most, but at least one is wanted;
* consists of contacts whose address has been sent a query that was answered with their id;
* and covers all others that have answered: an id is listed, or the list is as long as it may be and
  all that are listed are nearer. -/
theorem closest_nearest_of_answering (target : Key) (purpose : Purpose σ) (nothing : σ)
    (seeds : Seeds) (m : Moment) (exchanges : List Exchange) (result : Search × σ)
    (course : Activity.Course m (start target purpose nothing seeds) exchanges result) :
    let closest := result.1.closest
    let k := max 1 m.node.table.capacity
    (closest.Pairwise fun c d => c.id.distance target < d.id.distance target) ∧
    (closest.map Contact.id).Nodup ∧
    m.node.localId ∉ closest.map Contact.id ∧
    closest.length ≤ k ∧
    (∀ c ∈ closest, ∃ e ∈ exchanges, ∃ response,
      ((c.address, purpose.query), .ok response) ∈ e.queries.zip e.replies ∧ response.id = c.id) ∧
    ∀ e ∈ exchanges, ∀ response, .ok response ∈ e.replies → response.id ≠ m.node.localId →
      response.id ∈ closest.map Contact.id ∨
        closest.length = k ∧ ∀ c ∈ closest, c.id.distance target < response.id.distance target := by
  intro closest k
  have hrounds := inRounds_of_start course
  have h := inOrder_beginning m.node target seeds
  have hAim := sameAim_beginning m.node target seeds
  have habsorbed := absorbed_afterAll purpose (s := (beginning m.node target seeds, nothing)) h
    (exchanges.map (·.replies))
  rw [← hrounds.result_eq] at habsorbed
  have htarget : result.1.target = target := habsorbed.sameAim.target.trans hAim.target
  have hwanted : result.1.wanted = k :=
    (habsorbed.sameAim.wanted.trans hAim.wanted).trans (Nat.max_comm _ _)
  have hlocal : (beginning m.node target seeds).localId = m.node.localId := hAim.localId
  have hlocal' : result.1.localId = m.node.localId := habsorbed.sameAim.localId.trans hlocal
  have hnearest : Nearest target closest := htarget ▸ habsorbed.inOrder.nearest_closest
  refine ⟨hnearest, hnearest.nodup_ids, fun hid => ?_, ?_, fun c hc => ?_, ?_⟩
  · obtain ⟨c, hc, heq⟩ := List.mem_map.mp hid
    exact (habsorbed.inOrder.known c (List.mem_of_mem_take hc)).1 (heq.trans hlocal'.symm)
  · rw [← hwanted]
    exact List.length_take_le _ _
  · obtain hold | hnew := habsorbed.source c (List.mem_of_mem_take hc)
    · rw [answered_beginning] at hold
      cases hold
    · exact (hrounds.answered_iff_exchanged.mp hnew).2
  · intro e he response hresponse other
    obtain ⟨r, hr, -, hreplies⟩ := hrounds.exists_round he
    obtain ⟨asked, hmem⟩ := hrounds.exists_asked hr (hreplies ▸ hresponse)
    have hanswered : Answered (beginning m.node target seeds).localId
        ((rounds purpose (beginning m.node target seeds, nothing)
          (exchanges.map (·.replies))).flatMap Round.replied) (responder asked response) :=
      ⟨fun heq => other (heq.trans hlocal), asked, response, List.mem_flatMap.mpr ⟨r, hr, hmem⟩, rfl⟩
    have hid := (habsorbed.mem_ids_iff response.id).mpr (.inr ⟨_, hanswered, rfl⟩)
    have hcovered := habsorbed.inOrder.covered_closest hid
    rw [htarget, hwanted] at hcovered
    exact hcovered

/-- One contact is wanted, and of two that are asked the second answers under another id, which is
nearer to the target than that of the first: it alone is found. -/
theorem closest_answers_under_another_id :
    let key (n : ℕ) : Key := ⟨BitVec.ofNat 160 n⟩
    let contact (n : ℕ) : Contact := ⟨key n, .v4 ⟨10, 0, 0, UInt8.ofNat n⟩ 6881⟩
    let node := (Node.create (key 0) (.v4 ⟨10, 0, 0, 9⟩ 6881)
      { bucketCapacity := 1, maxRounds := 1 } 0 ⟨[], 2⟩).1
    let m : Moment := ⟨node, 0, ⟨[], 3⟩⟩
    let purpose := Purpose.findNode (key 7)
    let exchanges : List Exchange :=
      [⟨[((contact 2).address, purpose.query), ((contact 1).address, purpose.query)],
        [.ok (.findNode (key 2) []), .ok (.findNode (key 5) [])], rfl⟩]
    let seeds : Seeds := .given [contact 1, contact 2]
    ∃ result, Activity.Course m (start (key 7) purpose () seeds) exchanges result ∧
      result.1.closest = [⟨key 5, (contact 1).address⟩] ∧
      (key 2 ∈ result.1.closest.map Contact.id ∨ result.1.closest.length = max 1 1 ∧
        ∀ c ∈ result.1.closest, c.id.distance (key 7) < (key 2).distance (key 7)) := by
  intro key contact node m purpose exchanges seeds
  have hcourse : ∃ result, Activity.Course m (run purpose 1 (beginning node (key 7) seeds, ())) exchanges
      result ∧ result.1.closest = [⟨key 5, (contact 1).address⟩] := by
    refine ⟨_, course_run_of_round m ?_ ?_ ?_ ?_ (course_run_zero _), ?_⟩
    all_goals decide +kernel
  obtain ⟨result, course, hclosest⟩ := hcourse
  have course : Activity.Course m (start (key 7) purpose () seeds) exchanges result :=
    Activity.course_look_iff.mpr course
  have law := closest_nearest_of_answering (key 7) purpose () seeds m exchanges result course
  refine ⟨result, course, hclosest, law.2.2.2.2.2 _ List.mem_cons_self (.findNode (key 2) []) ?_ ?_⟩
  all_goals decide +kernel

end Lookup

end Mainline
