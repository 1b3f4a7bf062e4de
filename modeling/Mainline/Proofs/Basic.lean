import Mathlib.Data.List.Nodup
import Mathlib.Logic.Basic

/-!
# Computations that may fail, and association lists

The readers of the wire format are computations in `Except`. These lemmas take them apart one
step at a time, so that no later proof unfolds the monad: a computation succeeds exactly if each
of its steps does. Dictionaries and the books of a node are association lists, in which a key is
looked up.
-/

namespace Mainline

universe u v

variable {ε ε' : Type u} {α β : Type v}

/-- A step that succeeds hands its result to the rest. -/
@[simp] theorem ok_bind (a : α) (f : α → Except ε β) : (Except.ok a >>= f) = f a := rfl

/-- A step that fails ends the computation. -/
@[simp] theorem error_bind (e : ε) (f : α → Except ε β) : (Except.error e >>= f) = Except.error e :=
  rfl

/-- A failure that is raised is no success, and nothing comes after it. -/
@[simp] theorem throw_ne_ok (e : ε) (a : α) : (throw e : Except ε α) ≠ .ok a := by
  intro h
  cases h

@[simp] theorem throw_bind (e : ε) (f : α → Except ε β) : (throw e >>= f) = throw e := rfl

/-- A computation succeeds exactly if its first step does and then the rest. -/
theorem bind_eq_ok_iff {x : Except ε α} {f : α → Except ε β} {b : β} :
    (x >>= f) = .ok b ↔ ∃ a, x = .ok a ∧ f a = .ok b := by
  cases x with
  | error e => simp
  | ok a => simp

/-- Giving failures another name changes no success. -/
theorem mapError_eq_ok_iff {f : ε → ε'} {x : Except ε α} {a : α} :
    x.mapError f = .ok a ↔ x = .ok a := by
  cases x with
  | error e => simp [Except.mapError]
  | ok a => simp [Except.mapError]

/-- Nothing follows a computation that ends with its result. -/
theorem pure_eq_ok_iff {a b : α} : (pure a : Except ε α) = .ok b ↔ a = b := by
  simp [pure, Except.pure]

/-- What an optional step results in. -/
theorem option_mapM_eq_ok_iff {f : α → Except ε β} {x : Option α} {y : Option β} :
    x.mapM f = .ok y ↔ x = none ∧ y = none ∨ ∃ a b, x = some a ∧ f a = .ok b ∧ y = some b := by
  cases x with
  | none => simp [pure, Except.pure, eq_comm]
  | some a =>
      cases hstep : f a <;> simp [hstep, eq_comm]

/-- Each result of many steps is the result of one of them. -/
theorem exists_of_mem_mapM {f : α → Except ε β} {xs : List α} {ys : List β}
    (h : xs.mapM f = .ok ys) {y : β} (hy : y ∈ ys) : ∃ x ∈ xs, f x = .ok y := by
  induction xs generalizing ys with
  | nil =>
      rw [List.mapM_nil, pure_eq_ok_iff] at h
      rw [← h] at hy
      cases hy
  | cons x xs ih =>
      simp only [List.mapM_cons, bind_eq_ok_iff, pure_eq_ok_iff] at h
      obtain ⟨first, hfirst, rest, hrest, rfl⟩ := h
      obtain rfl | hy := List.mem_cons.mp hy
      · exact ⟨x, List.mem_cons_self, hfirst⟩
      · obtain ⟨x', hx', hread⟩ := ih hrest hy
        exact ⟨x', List.mem_cons_of_mem x hx', hread⟩

/-! ### Lists -/

theorem lookup_cons_eq_ite {α β : Type} [BEq α] [LawfulBEq α] [DecidableEq α] (key k : α) (v : β)
    (entries : List (α × β)) :
    ((k, v) :: entries).lookup key = if key = k then some v else entries.lookup key := by
  rw [List.lookup_cons]
  by_cases h : key = k
  · simp [h]
  · simp [h, beq_eq_false_iff_ne.mpr h]

/-- Nothing is found under what is no key. -/
theorem lookup_eq_none_of_notMem {α β : Type} [BEq α] [LawfulBEq α] {entries : List (α × β)} {key : α}
    (h : key ∉ entries.map Prod.fst) : entries.lookup key = none := by
  rw [List.lookup_eq_none_iff]
  intro entry hentry
  rw [bne_iff_ne]
  rintro rfl
  exact h (List.mem_map_of_mem hentry)

/-- Changing what stands under one key changes what is found under it, if anything was. -/
theorem lookup_map_ite {α β : Type} [BEq α] [LawfulBEq α] [DecidableEq α] (entries : List (α × β))
    (key key' : α) (value : β) :
    (entries.map fun entry => if entry.1 = key then (entry.1, value) else entry).lookup key' =
      (entries.lookup key').map fun old => if key' = key then value else old := by
  induction entries with
  | nil => rfl
  | cons entry entries ih =>
      obtain ⟨k, v⟩ := entry
      have hhead : (if k = key then (k, value) else (k, v)) = (k, if k = key then value else v) := by
        split <;> rfl
      rw [List.map_cons, hhead, lookup_cons_eq_ite, lookup_cons_eq_ite]
      by_cases hkey : key' = k
      · rw [if_pos hkey, if_pos hkey, Option.map_some, hkey]
      · rw [if_neg hkey, if_neg hkey, ih]

/-- Dropping what stands under one key leaves what is found under the others. -/
theorem lookup_filter_bne {α β : Type} [BEq α] [LawfulBEq α] [DecidableEq α] (entries : List (α × β))
    (key key' : α) :
    (entries.filter (·.1 != key)).lookup key' =
      if key' = key then none else entries.lookup key' := by
  induction entries with
  | nil => simp
  | cons entry entries ih =>
      obtain ⟨k, v⟩ := entry
      rw [List.filter_cons, lookup_cons_eq_ite]
      by_cases hk : k = key
      · rw [if_neg (by simp [hk]), ih]
        split
        · rfl
        · next hne => rw [if_neg (hk ▸ hne)]
      · rw [if_pos (by simp [hk]), lookup_cons_eq_ite, ih]
        by_cases hkey : key' = k
        · rw [if_pos hkey, if_pos hkey, if_neg (hkey ▸ hk)]
        · rw [if_neg hkey, if_neg hkey]

/-- In a list without repeated keys, looking up a key finds exactly what stands under it. -/
theorem lookup_eq_some_iff_mem {α β : Type} [BEq α] [LawfulBEq α] {entries : List (α × β)}
    (h : (entries.map Prod.fst).Nodup) {key : α} {value : β} :
    entries.lookup key = some value ↔ (key, value) ∈ entries := by
  induction entries with
  | nil => simp
  | cons entry entries ih =>
      obtain ⟨k, v⟩ := entry
      rw [List.map_cons, List.nodup_cons] at h
      by_cases hk : key = k
      · subst hk
        have hout : (key, value) ∉ entries := fun hmem => h.1 (List.mem_map.mpr ⟨_, hmem, rfl⟩)
        simp [hout, eq_comm]
      · have hbeq : (key == k) = false := beq_eq_false_iff_ne.mpr hk
        simp [List.lookup_cons, hbeq, hk, ih h.2]

/-- In a list without repeated keys, dropping what stands under a key drops one entry. -/
theorem exists_filter_bne_eq {α β : Type} [BEq α] [LawfulBEq α] {entries : List (α × β)}
    (h : (entries.map Prod.fst).Nodup) {key : α} {value : β} (hmem : (key, value) ∈ entries) :
    ∃ before after, entries = before ++ (key, value) :: after ∧
      entries.filter (·.1 != key) = before ++ after := by
  obtain ⟨before, after, rfl⟩ := List.append_of_mem hmem
  refine ⟨before, after, rfl, ?_⟩
  have hother : ∀ entry ∈ before ++ after, (entry.1 != key) = true := by
    rw [List.map_append, List.map_cons, List.nodup_middle, List.nodup_cons, ← List.map_append] at h
    intro entry hentry
    rw [bne_iff_ne]
    intro heq
    exact h.1 (List.mem_map.mpr ⟨entry, hentry, heq⟩)
  rw [List.filter_append, List.filter_cons_of_neg (by simp), ← List.filter_append]
  exact List.filter_eq_self.mpr hother

/-- Changing what stands under a key changes no keys. -/
theorem keys_map_ite {α β : Type} [DecidableEq α] (entries : List (α × β)) (key : α) (value : β) :
    (entries.map fun entry => if entry.1 = key then (entry.1, value) else entry).map Prod.fst =
      entries.map Prod.fst := by
  rw [List.map_map]
  refine List.map_congr_left fun entry _ => ?_
  rw [Function.comp_apply]
  split <;> rfl

/-- Changing what stands under a key leaves what stands under others. -/
theorem filter_map_ite {α β : Type} [BEq α] [LawfulBEq α] [DecidableEq α] (entries : List (α × β))
    (key : α) (value : β) :
    (entries.map fun entry => if entry.1 = key then (entry.1, value) else entry).filter
      (·.1 != key) = entries.filter (·.1 != key) := by
  induction entries with
  | nil => rfl
  | cons entry entries ih =>
      by_cases hkey : entry.1 = key
      · simp [hkey, ih]
      · simp [hkey, ih]

/-- In a list without repeated keys, **one entry can be taken out**: what there is for each entry is
what there is for that one, and what there is for the others. -/
theorem flatMap_perm_of_mem {α β γ : Type} [BEq α] [LawfulBEq α] {entries : List (α × β)}
    (h : (entries.map Prod.fst).Nodup) {key : α} {value : β} (hmem : (key, value) ∈ entries)
    (f : α × β → List γ) :
    (entries.flatMap f).Perm (f (key, value) ++ (entries.filter (·.1 != key)).flatMap f) := by
  obtain ⟨before, after, rfl, hfilter⟩ := exists_filter_bne_eq h hmem
  rw [hfilter, List.flatMap_append, List.flatMap_cons, List.flatMap_append]
  exact List.perm_append_comm_assoc _ _ _

/-- The same once what stands under the key has been changed. -/
theorem flatMap_map_ite_perm {α β γ : Type} [BEq α] [LawfulBEq α] [DecidableEq α]
    {entries : List (α × β)} (h : (entries.map Prod.fst).Nodup) {key : α}
    (hkey : key ∈ entries.map Prod.fst) (value : β) (f : α × β → List γ) :
    ((entries.map fun entry => if entry.1 = key then (entry.1, value) else entry).flatMap f).Perm
      (f (key, value) ++ (entries.filter (·.1 != key)).flatMap f) := by
  rw [← filter_map_ite entries key value]
  refine flatMap_perm_of_mem ((keys_map_ite entries key value).symm ▸ h) ?_ f
  obtain ⟨entry, hentry, rfl⟩ := List.mem_map.mp hkey
  exact List.mem_map.mpr ⟨entry, hentry, if_pos rfl⟩

end Mainline
