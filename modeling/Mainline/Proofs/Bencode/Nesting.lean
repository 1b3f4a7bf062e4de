import Mainline.Proofs.Bencode.RoundTrip

/-!
# What bencode accepts, it can say again

Any value can be written, but only values in at most 64 containers are read. This module closes the
gap that the round trip leaves: a value that is nested too deeply is refused, and for that reason
alone, and whatever is read, from however unruly an input, is a value that reads back from its own
bencode form.

A deep element is met behind elements that read back, so its refusal is the first fault of its
container (`untilEnd_eq_error`). What is read is denoted by what it was read from, and the rules of
the grammar bound its depth.

## Main results

* `refuses_encode`: a value that is nested too deeply is refused.
* `Denotes.sound`: what is denoted is nested as deeply as it may be at most, and well made.
* `decode_encode_by_depth`: both, for whole inputs.
-/

namespace Mainline.Bencode

namespace Value

mutual

/-- Decides whether all dictionaries in a value are sorted. -/
def decideCanonical : (v : Value) → Decidable v.Canonical
  | int _ => .isTrue trivial
  | bytes _ => .isTrue trivial
  | list items => decideCanonicalItems items
  | dict entries =>
    @instDecidableAnd _ _ inferInstance (decideCanonicalEntries entries)

/-- Decides whether all items are canonical. -/
def decideCanonicalItems : (items : List Value) → Decidable (CanonicalItems items)
  | [] => .isTrue trivial
  | v :: items => @instDecidableAnd _ _ (decideCanonical v) (decideCanonicalItems items)

/-- Decides whether all values under keys are canonical. -/
def decideCanonicalEntries : (entries : List (Bytes × Value)) → Decidable (CanonicalEntries entries)
  | [] => .isTrue trivial
  | (_, v) :: entries => @instDecidableAnd _ _ (decideCanonical v) (decideCanonicalEntries entries)

end

instance (v : Value) : Decidable v.Canonical := decideCanonical v

instance (v : Value) : Decidable v.Sized :=
  inferInstanceAs (Decidable (∀ s ∈ v.strings, s.length < UInt64.size))

/-! ### Containers of sized values -/

theorem sized_list {items : List Value} (h : ∀ v ∈ items, v.Sized) : (list items).Sized := by
  intro s hs
  rw [strings] at hs
  induction items with
  | nil => cases hs
  | cons v items ih =>
      rw [stringsItems, List.mem_append] at hs
      rcases hs with hs | hs
      · exact h v List.mem_cons_self s hs
      · exact ih (fun w hw => h w (List.mem_cons_of_mem v hw)) hs

theorem sized_dict {entries : List (Bytes × Value)}
    (h : ∀ entry ∈ entries, entry.1.length < UInt64.size ∧ entry.2.Sized) :
    (dict entries).Sized := by
  intro s hs
  rw [strings] at hs
  induction entries with
  | nil => cases hs
  | cons entry entries ih =>
      obtain ⟨hkey, hv⟩ := h entry List.mem_cons_self
      rw [stringsEntries, List.cons_append, List.mem_cons, List.mem_append] at hs
      rcases hs with rfl | hs | hs
      · exact hkey
      · exact hv s hs
      · exact ih (fun other hother => h other (List.mem_cons_of_mem entry hother)) hs

end Value

/-! ### Deep values are refused -/

/-- A byte string starts with a digit. -/
theorem head_encodeBytes (s : Bytes) :
    ∃ d form, encodeBytes s = d :: form ∧ Decimal.isDigit d = true := by
  obtain ⟨d, digits, hs, hd⟩ := Decimal.head?_ofNat s.length
  exact ⟨d, digits ++ 0x3a :: s, by rw [encodeBytes, hs, List.cons_append], hd⟩

/-- No value starts with the octet that ends a container. -/
theorem head_encode (v : Value) : ∃ octet form, encode v = octet :: form ∧ octet ≠ 0x65 := by
  cases v with
  | int n => exact ⟨0x69, _, by rw [encode, List.cons_append], by decide⟩
  | bytes s =>
      obtain ⟨d, form, hs, hd⟩ := head_encodeBytes s
      exact ⟨d, form, by rw [encode, hs], ne_of_isDigit hd rfl⟩
  | list items => exact ⟨0x6c, _, by rw [encode, List.cons_append], by decide⟩
  | dict entries => exact ⟨0x64, _, by rw [encode, List.cons_append], by decide⟩

/-- Nor does any entry. -/
theorem head_encodeEntry (entry : Bytes × Value) :
    ∃ octet form, encodeEntry entry = octet :: form ∧ octet ≠ 0x65 := by
  obtain ⟨d, form, hkey, hd⟩ := head_encodeBytes entry.1
  exact ⟨d, form ++ encode entry.2, by rw [encodeEntry, hkey, List.cons_append], ne_of_isDigit hd rfl⟩

theorem encode_list_append (items : List Value) (rest : Bytes) :
    encode (.list items) ++ rest = 0x6c :: (items.flatMap encode ++ 0x65 :: rest) := by
  simp [encode, encodeItems_eq]

theorem encode_dict_append (entries : List (Bytes × Value)) (rest : Bytes) :
    encode (.dict entries) ++ rest = 0x64 :: (entries.flatMap encodeEntry ++ 0x65 :: rest) := by
  simp [encode, encodeEntries_eq]

/-- A sequence fails with its first element that fails, if those before it read back. -/
theorem untilEnd_eq_error {α : Type} (total : ℕ) (element : (s : Bytes) → Step α s)
    (form : α → Bytes) (faulty : α → Prop) (e : DecodeError) {items : List α}
    (hhead : ∀ a ∈ items, ∃ octet s, form a = octet :: s ∧ octet ≠ 0x65)
    (hfail : ∀ a ∈ items, faulty a → ∀ rest, element (form a ++ rest) = .error e)
    (hread : ∀ a ∈ items, ¬ faulty a → ∀ rest, Reads (element (form a ++ rest)) a rest)
    (hsome : ∃ a ∈ items, faulty a) (rest : Bytes) :
    readUntilEnd total element (items.flatMap form ++ rest) = .error e := by
  induction items with
  | nil =>
      obtain ⟨a, ha, -⟩ := hsome
      cases ha
  | cons a items ih =>
      obtain ⟨octet, s, hform, hoctet⟩ := hhead a List.mem_cons_self
      rw [List.flatMap_cons, List.append_assoc]
      by_cases hfaulty : faulty a
      · have hfirst := hfail a List.mem_cons_self hfaulty (items.flatMap form ++ rest)
        rw [hform, List.cons_append] at hfirst ⊢
        exact readUntilEnd_eq_error hoctet hfirst
      · have hfirst := hread a List.mem_cons_self hfaulty (items.flatMap form ++ rest)
        have hlater : ∃ b ∈ items, faulty b := by
          obtain ⟨b, hb, hbad⟩ := hsome
          rcases List.mem_cons.mp hb with rfl | hb
          · exact absurd hbad hfaulty
          · exact ⟨b, hb, hbad⟩
        have hrest := ih (fun b hb => hhead b (List.mem_cons_of_mem a hb))
          (fun b hb => hfail b (List.mem_cons_of_mem a hb))
          (fun b hb => hread b (List.mem_cons_of_mem a hb)) hlater
        rw [hform, List.cons_append] at hfirst ⊢
        exact hfirst.untilEnd_eq_error hoctet hrest

/-- An entry fails with its value. -/
theorem entry_eq_error {α : Type} (total : ℕ) (value : (s : Bytes) → Step α s) {key s : Bytes}
    (hkey : key.length < UInt64.size) {e : DecodeError} (hvalue : value s = .error e) :
    readEntry total value (encodeBytes key ++ s) = .error e := by
  obtain ⟨d, form, hform, hd⟩ := head_encodeBytes key
  have hread := (recognizes_readBytes total _ _ s).mpr ⟨_, bytesForm_encodeBytes hkey, rfl⟩
  rw [hform, List.cons_append] at hread ⊢
  exact hread.entry_eq_error hd hvalue

/-- **A value that is nested too deeply is refused**, wherever its deepest element is. The elements
before that one read back, so there is nothing else to find fault with first. -/
theorem refuses_encode (total : ℕ) {levels : ℕ} {v : Value} (canonical : v.Canonical)
    (sized : v.Sized) (hdepth : levels ≤ v.depth) (rest : Bytes)
    (hlevels : levels ≤ maxDepth + 1 := by decide) :
    readValue total levels (encode v ++ rest) = .error .nestingTooDeep := by
  induction levels generalizing v rest with
  | zero => rw [readValue]
  | succ levels ih =>
      have hfewer : levels ≤ maxDepth + 1 := Nat.le_of_succ_le hlevels
      cases v with
      | int n => exact absurd hdepth (Nat.not_succ_le_zero levels)
      | bytes s => exact absurd hdepth (Nat.not_succ_le_zero levels)
      | list items =>
          have hcanonical := Value.canonicalItems_iff.mp canonical
          have hdeep : ∃ v ∈ items, levels ≤ v.depth := by
            by_contra hnone
            have hshallow : ∀ v ∈ items, v.depth < levels := fun v hv =>
              Nat.lt_of_not_le fun hle => hnone ⟨v, hv, hle⟩
            have hbound := Value.depthItems_le_iff.mpr hshallow
            rw [Value.depth] at hdepth
            omega
          have hitems : readUntilEnd total (readValue total levels)
              (items.flatMap encode ++ 0x65 :: rest) = .error .nestingTooDeep := by
            refine untilEnd_eq_error total _ encode (levels ≤ Value.depth ·) _
              (fun v _ => head_encode v) ?_ ?_ hdeep _
            · intro v hv hle rest
              exact ih (hcanonical v hv) (sized.item hv) hle rest hfewer
            · intro v hv hlt rest
              exact reads_encode total hfewer (hcanonical v hv) (Nat.lt_of_not_le hlt)
                (sized.item hv) rest
          rw [encode_list_append, readValue_list, hitems]
          rfl
      | dict entries =>
          have hcanonical := Value.canonicalEntries_iff.mp canonical.2
          have hdeep : ∃ entry ∈ entries, levels ≤ entry.2.depth := by
            by_contra hnone
            have hshallow : ∀ entry ∈ entries, entry.2.depth < levels := fun entry hentry =>
              Nat.lt_of_not_le fun hle => hnone ⟨entry, hentry, hle⟩
            have hbound := Value.depthEntries_le_iff.mpr hshallow
            rw [Value.depth] at hdepth
            omega
          have hentries : readUntilEnd total (readEntry total (readValue total levels))
              (entries.flatMap encodeEntry ++ 0x65 :: rest) = .error .nestingTooDeep := by
            refine untilEnd_eq_error total _ encodeEntry (levels ≤ ·.2.depth) _ ?_ ?_ ?_ hdeep _
            · exact fun entry _ => head_encodeEntry entry
            · intro entry hentry hle rest
              obtain ⟨hkey, hv⟩ := sized.entry hentry
              rw [encodeEntry, List.append_assoc]
              exact entry_eq_error total _ hkey (ih (hcanonical entry hentry) hv hle rest hfewer)
            · intro entry hentry hlt rest
              obtain ⟨hkey, hv⟩ := sized.entry hentry
              have hdenotes := denotes_encode (Nat.sub_add_cancel hfewer) (hcanonical entry hentry)
                (Nat.lt_of_not_le hlt) hv
              have hvalue := recognizes_readValue total (Nat.sub_add_cancel hfewer)
              refine (recognizes_readEntry total hvalue _ _ _).mpr ⟨_, ⟨_, _, ?_, ?_, rfl⟩, rfl⟩
              · exact bytesForm_encodeBytes hkey
              · exact hdenotes.mono .inl
          rw [encode_dict_append, readValue_dict, hentries]
          rfl

/-! ### What is read -/

/-- **What is denoted is nested as deeply as it may be at most**, its dictionaries are sorted, in
whatever order their keys came, and a machine can hold it. -/
theorem Denotes.sound {integer : Bytes → Int64 → Prop} {depth : ℕ} {form : Bytes} {v : Value}
    (h : Denotes integer depth form v) : depth + v.depth ≤ maxDepth ∧ v.Canonical ∧ v.Sized := by
  induction h with
  | int shallow => exact ⟨shallow, trivial, List.forall_mem_nil _⟩
  | bytes shallow written =>
      exact ⟨shallow, trivial, List.forall_mem_singleton.mpr written.length_lt⟩
  | @list depth items shallow _ ih =>
      have hdepth : (Value.list (items.map Prod.snd)).depth ≤ maxDepth - depth := by
        refine Value.depthItems_le_iff.mpr (List.forall_mem_map.mpr fun item hitem => ?_)
        have hbound := (ih item hitem).1
        omega
      refine ⟨by omega, ?_, ?_⟩
      · exact Value.canonicalItems_iff.mpr (List.forall_mem_map.mpr fun item hitem =>
          (ih item hitem).2.1)
      · exact Value.sized_list (List.forall_mem_map.mpr fun item hitem => (ih item hitem).2.2)
  | @dict depth pairs entries shallow keys _ lastWins ih =>
      have hentries : ∀ entry ∈ pairs.map Pair.entry, depth + 1 + entry.2.depth ≤ maxDepth ∧
          entry.2.Canonical ∧ entry.1.length < UInt64.size ∧ entry.2.Sized := by
        refine List.forall_mem_map.mpr fun p hp => ?_
        obtain ⟨hdepth, canonical, sized⟩ := ih p hp
        exact ⟨hdepth, canonical, (keys p hp).length_lt, sized⟩
      rw [lastWins_iff.mp lastWins, ← Value.ofEntries_eq]
      have hdepth : (Value.ofEntries (pairs.map Pair.entry)).depth ≤ maxDepth - depth := by
        refine Value.depth_ofEntries_le fun entry hentry => ?_
        have hbound := (hentries entry hentry).1
        omega
      refine ⟨by omega, ?_, ?_⟩
      · exact Value.canonical_ofEntries fun entry hentry => (hentries entry hentry).2.1
      · exact Value.sized_dict fun entry hentry =>
          (hentries entry (Value.mem_of_mem_sorted hentry)).2.2

/-- What is read off the front of an input is as well made as what is denoted. -/
theorem sound_of_readValue {total levels : ℕ} {s rest : Bytes} {v : Value}
    (h : Reads (readValue total levels s) v rest) (hlevels : levels ≤ maxDepth + 1 := by decide) :
    v.depth < levels ∧ v.Canonical ∧ v.Sized := by
  have hlevels := Nat.sub_add_cancel hlevels
  obtain ⟨form, hform, -⟩ := (recognizes_readValue total hlevels _ _ _).mp h
  obtain ⟨hdepth, canonical, sized⟩ := hform.sound
  exact ⟨by omega, canonical, sized⟩

/-- **Depth alone decides whether a value reads back.** A value, whose dictionaries are sorted and
which a machine can hold, reads back from its bencode form if none of its elements lies in more
than 64 containers, and is refused as nested too deeply if one does. Whatever input a value was read
from, it is such a value and keeps that bound, so writing it and reading it once more returns the
same value. -/
theorem decode_encode_by_depth :
    (∀ v : Value, v.Canonical → v.Sized →
      (v.depth ≤ 64 → decode (encode v) = .ok v) ∧
      (64 < v.depth → decode (encode v) = .error .nestingTooDeep)) ∧
    ∀ (data : Bytes) (v : Value), decode data = .ok v →
      v.depth ≤ 64 ∧ v.Canonical ∧ v.Sized ∧ decode (encode v) = .ok v := by
  constructor
  · intro v canonical sized
    refine ⟨fun hdepth => decode_encode canonical hdepth sized, fun hdepth => ?_⟩
    have hrefused : readValue (encode v).length (maxDepth + 1) (encode v ++ []) =
        .error .nestingTooDeep := refuses_encode _ canonical sized hdepth []
    rw [List.append_nil] at hrefused
    rw [decode, hrefused]
  · intro data v h
    rw [decode] at h
    split at h
    · cases h
    · next w rest hlt hread =>
        split at h
        · cases h
          obtain ⟨hdepth, canonical, sized⟩ := sound_of_readValue ⟨hlt, hread⟩
          have hdepth : v.depth ≤ 64 := Nat.le_of_lt_succ hdepth
          exact ⟨hdepth, canonical, sized, decode_encode canonical hdepth sized⟩
        · cases h

/-- A dictionary in 63 lists reads back with what it holds; in 64 lists its values are too deep. An
input with its keys in descending order and one of them twice is read, and what was read is written
in order and reads back. -/
theorem decode_encode_at_the_limit :
    let leaf : Value := .dict [(ascii "a", .int Int64.minValue), (ascii "b", .bytes [])]
    let nest (n : ℕ) : Value := n.repeat (fun v => .list [v]) leaf
    let unruly : Bytes := ascii "d1:bi+1e1:ai2e1:bi3ee"
    decode (encode (nest 63)) = .ok (nest 63) ∧
      decode (encode (nest 64)) = .error .nestingTooDeep ∧
      ∃ v, decode unruly = .ok v ∧ encode v = ascii "d1:ai2e1:bi3ee" ∧
        decode (encode v) = .ok v := by
  intro leaf nest unruly
  have shallow := decode_encode_by_depth.1 (nest 63) (by decide +kernel) (by decide +kernel)
  have deep := decode_encode_by_depth.1 (nest 64) (by decide +kernel) (by decide +kernel)
  have hread : decode unruly = .ok (.dict [(ascii "a", .int 2), (ascii "b", .int 3)]) := by
    decide +kernel
  exact ⟨shallow.1 (by decide +kernel), deep.2 (by decide +kernel), _, hread, by decide +kernel,
    (decode_encode_by_depth.2 unruly _ hread).2.2.2⟩

end Mainline.Bencode
