import Mathlib.Data.List.Perm.Basic

/-!
# Side by side

A node has many jobs under way, and nothing depends on the order in which they are listed. What
happens to some of them leaves the others as they are. This module says so of any system that has a
state and a list of things under way, and that makes progress by events.

## Main results

* `LeadsTo.trans`, `LeadsTo.beside`: one thing after the other, and one thing beside the others.
* `LeadsTo.replace`, `LeadsTo.remove`: an event that is about one of the things under way.
-/

namespace Mainline

universe u

variable {σ ι : Type} {ε : Type u} {run : σ × List ι → ε → σ × List ι} {P : ε → Prop} {s s' s'' : σ}
  {items items' items'' : List ι}

/-- From one state with some things under way, **nothing but events** of the kind `P` lead to
another state with other things under way, whatever else is under way and in whatever order. -/
def LeadsTo (run : σ × List ι → ε → σ × List ι) (P : ε → Prop) (s : σ) (items : List ι) (s' : σ)
    (items' : List ι) : Prop :=
  ∀ others all : List ι, all.Perm (items ++ others) →
    ∃ (events : List ε) (all' : List ι), all'.Perm (items' ++ others) ∧ (∀ e ∈ events, P e) ∧
      events.foldl run (s, all) = (s', all')

namespace LeadsTo

theorem refl (s : σ) (items : List ι) : LeadsTo run P s items s items :=
  fun _ all hall => ⟨[], all, hall, List.forall_mem_nil P, rfl⟩

theorem trans (h : LeadsTo run P s items s' items') (h' : LeadsTo run P s' items' s'' items'') :
    LeadsTo run P s items s'' items'' := by
  intro others all hall
  obtain ⟨events, all', hall', hP, hrun⟩ := h others all hall
  obtain ⟨events', all'', hall'', hP', hrun'⟩ := h' others all' hall'
  refine ⟨events ++ events', all'', hall'', List.forall_mem_append.mpr ⟨hP, hP'⟩, ?_⟩
  rw [List.foldl_append, hrun, hrun']

/-- The order of what is under way does not matter. -/
theorem perm {list list' : List ι} (h : LeadsTo run P s items s' items') (hitems : list.Perm items)
    (hitems' : list'.Perm items') : LeadsTo run P s list s' list' := by
  intro others all hall
  obtain ⟨events, all', hall', hP, hrun⟩ := h others all (hall.trans (hitems.append_right others))
  exact ⟨events, all', hall'.trans (hitems'.symm.append_right others), hP, hrun⟩

/-- What happens to some things leaves **others** as they are. -/
theorem beside (h : LeadsTo run P s items s' items') (rest : List ι) :
    LeadsTo run P s (items ++ rest) s' (items' ++ rest) := by
  intro others all hall
  obtain ⟨events, all', hall', hP, hrun⟩ :=
    h (rest ++ others) all (hall.trans (.of_eq (List.append_assoc ..)))
  exact ⟨events, all', hall'.trans (.of_eq (List.append_assoc ..).symm), hP, hrun⟩

/-- What happens to nothing in particular. -/
theorem idle (h : LeadsTo run P s [] s' []) (items : List ι) : LeadsTo run P s items s' items :=
  h.beside items

/-- An event that changes the **state** alone. -/
theorem of_state (e : ε) (he : P e) (hrun : ∀ all, run (s, all) e = (s', all)) :
    LeadsTo run P s [] s' [] :=
  fun _ all hall => ⟨[e], all, hall, List.forall_mem_singleton.mpr he, hrun all⟩

/-- An event that **adds** something. -/
theorem add (e : ε) {a : ι} (he : P e) (hrun : ∀ all, run (s, all) e = (s', all ++ [a])) :
    LeadsTo run P s [] s' [a] := by
  refine fun others all hall => ⟨[e], all ++ [a], ?_, List.forall_mem_singleton.mpr he, hrun all⟩
  exact List.perm_append_comm.trans (hall.cons a)

/-- An event **replaces** one of the things under way. -/
theorem replace (event : ℕ → ε) {a a' : ι} (he : ∀ k, P (event k))
    (hrun : ∀ (all : List ι) (k : ℕ), all[k]? = some a →
      run (s, all) (event k) = (s', all.set k a')) : LeadsTo run P s [a] s' [a'] := by
  intro others all hall
  obtain ⟨k, hk, rfl⟩ := List.getElem_of_mem (hall.mem_iff.mpr List.mem_cons_self)
  have hothers := ((List.getElem_cons_eraseIdx_perm hk).trans hall).cons_inv
  refine ⟨[event k], all.set k a', ?_, List.forall_mem_singleton.mpr (he k), ?_⟩
  · exact (List.set_perm_cons_eraseIdx hk a').trans (hothers.cons a')
  · exact hrun all k (List.getElem?_eq_getElem hk)

/-- An event **removes** one of the things under way. -/
theorem remove (event : ℕ → ε) {a : ι} (he : ∀ k, P (event k))
    (hrun : ∀ (all : List ι) (k : ℕ), all[k]? = some a →
      run (s, all) (event k) = (s', all.eraseIdx k)) : LeadsTo run P s [a] s' [] := by
  intro others all hall
  obtain ⟨k, hk, rfl⟩ := List.getElem_of_mem (hall.mem_iff.mpr List.mem_cons_self)
  have hothers := ((List.getElem_cons_eraseIdx_perm hk).trans hall).cons_inv
  exact ⟨[event k], all.eraseIdx k, hothers, List.forall_mem_singleton.mpr (he k),
    hrun all k (List.getElem?_eq_getElem hk)⟩

end LeadsTo

end Mainline
