import Mainline.Proofs.Bencode.Grammar

/-!
# What a fault points at

Nearly every fault of the readers carries an offset. This module says what stands there in the
input: a missing octet is reported at the end of the input and nowhere else, an unreadable integer
at its `i`, an unreadable length at its first digit, an octet that begins nothing at that octet, and
data that is left over where an accepted input ends.

The readers compute an offset from what is left of the input, so the octet at the offset is the head
of what they were given, as long as that is a final part of the input. It is, since whatever a
reader leaves is a final part of what it got (`Recognizes.suffix`).

## Main results

* `pointsInto_readValue`: the faults of reading a value point into the input.
* `pointsInto_decode`: so do those of a whole input.
-/

namespace Mainline.Bencode

/-- **What a fault says of the input.** -/
def DecodeError.PointsInto (data : Bytes) : DecodeError → Prop
  | unexpectedEnd offset => offset = data.length
  | invalidInteger offset => data[offset]? = some 0x69
  | invalidLength offset => ∃ digit, data[offset]? = some digit ∧ Decimal.isDigit digit = true
  | unexpectedByte octet offset => data[offset]? = some octet
  | trailingData offset => offset < data.length ∧ ∃ v, decode (data.take offset) = .ok v
  | nestingTooDeep => True

/-- The first octet of a final part of the input stands where that part begins. -/
theorem getElem?_of_suffix {data s : Bytes} {octet : UInt8} (h : octet :: s <:+ data) :
    data[data.length - (s.length + 1)]? = some octet := by
  obtain ⟨front, rfl⟩ := h
  have hlength : (front ++ octet :: s).length - (s.length + 1) = front.length := by
    rw [List.length_append, List.length_cons, Nat.add_sub_cancel]
  rw [hlength, List.getElem?_append_right le_rfl, Nat.sub_self, List.getElem?_cons_zero]

/-- A reader leaves a final part of what it was given. -/
theorem Recognizes.suffix {α : Type} {read : (s : Bytes) → Step α s} {Form : Bytes → α → Prop}
    (h : Recognizes read Form) {s rest : Bytes} {a : α} (hread : Reads (read s) a rest) :
    rest <:+ s := by
  obtain ⟨form, -, rfl⟩ := (h s a rest).mp hread
  exact List.suffix_append form rest

/-- The faults of the reader point into the input, whatever final part of it is read. -/
def PointsIntoInput {α : Type} (data : Bytes) (read : (s : Bytes) → Step α s) : Prop :=
  ∀ s, s <:+ data → ∀ e, read s = .error e → e.PointsInto data

section Readers

variable {data : Bytes}

/-- An integer is read behind its `i`, at which its fault points. -/
theorem pointsInto_readInteger {s : Bytes} {e : DecodeError} (h : 0x69 :: s <:+ data)
    (hread : readInteger data.length s = .error e) : e.PointsInto data := by
  rw [readInteger] at hread
  split at hread
  · cases hread
    rfl
  · split at hread
    · cases hread
      exact getElem?_of_suffix h
    · cases hread

/-- A byte string is read where a digit stands, at which the fault of its length points. -/
theorem pointsInto_readBytes {d : UInt8} {s : Bytes} {e : DecodeError} (h : d :: s <:+ data)
    (hd : Decimal.isDigit d = true) (hread : readBytes data.length (d :: s) = .error e) :
    e.PointsInto data := by
  rw [readBytes] at hread
  split at hread
  · cases hread
    rfl
  · split at hread
    · cases hread
      exact ⟨d, getElem?_of_suffix h, hd⟩
    · split at hread
      · cases hread
      · cases hread
        rfl

/-- A sequence is cut off at the end of the input, or one of its elements has the fault. -/
theorem pointsInto_readUntilEnd {α : Type} {element : (s : Bytes) → Step α s}
    {Form : Bytes → α → Prop} (helement : Recognizes element Form)
    (hpoints : PointsIntoInput data element) :
    PointsIntoInput data (readUntilEnd data.length element) := by
  intro s hs e hread
  induction hlength : s.length using Nat.strongRecOn generalizing s with
  | _ n ih =>
      rw [readUntilEnd.eq_def] at hread
      split at hread
      · cases hread
        rfl
      · split at hread
        · cases hread
        · split at hread
          · next hfirst =>
              cases hread
              exact hpoints _ hs _ hfirst
          · next a behind hlt hfirst =>
              split at hread
              · next hlater =>
                  cases hread
                  have hbehind := helement.suffix ⟨hlt, hfirst⟩
                  exact ih _ (hlength ▸ hlt) _ (hbehind.trans hs) hlater rfl
              · cases hread

/-- An entry has the fault of its key or of its value, or begins with what is no digit. -/
theorem pointsInto_readEntry {α : Type} {value : (s : Bytes) → Step α s}
    (hpoints : PointsIntoInput data value) :
    PointsIntoInput data (readEntry data.length value) := by
  intro s hs e hread
  rw [readEntry.eq_def] at hread
  split at hread
  · cases hread
    rfl
  · split at hread
    · next hd =>
        split at hread
        · next hkey =>
            cases hread
            exact pointsInto_readBytes hs hd hkey
        · next key behind hlt hkey =>
            split at hread
            · next hvalue =>
                cases hread
                have hbehind := (recognizes_readBytes data.length).suffix ⟨hlt, hkey⟩
                exact hpoints _ (hbehind.trans hs) _ hvalue
            · cases hread
    · cases hread
      exact getElem?_of_suffix hs

/-- What is read behind an octet fails with the same fault. -/
theorem behind_eq_error_iff {α β : Type} {octet : UInt8} {s : Bytes} {step : Step α s} {f : α → β}
    {e : DecodeError} : (step.behind f : Step β (octet :: s)) = .error e ↔ step = .error e := by
  rcases step with e' | ⟨a, rest⟩
  · simp [Step.behind]
  · simp [Step.behind]

/-- **The faults of reading a value point into the input**, in however many containers the value
lies. -/
theorem pointsInto_readValue {levels depth : ℕ} (h : depth + levels = maxDepth + 1) :
    PointsIntoInput data (readValue data.length levels) := by
  induction levels generalizing depth with
  | zero =>
      intro s hs e hread
      rw [readValue] at hread
      cases hread
      trivial
  | succ levels ih =>
      have hvalue : Recognizes (readValue data.length levels) (Denotes Readable (depth + 1)) :=
        recognizes_readValue data.length (by omega)
      have hpoints : PointsIntoInput data (readValue data.length levels) :=
        ih (by omega : depth + 1 + levels = maxDepth + 1)
      have hlist := pointsInto_readUntilEnd hvalue hpoints
      have hdict := pointsInto_readUntilEnd (recognizes_readEntry data.length hvalue)
        (pointsInto_readEntry hpoints)
      intro s hs e hread
      rcases s with _ | ⟨octet, s⟩
      · cases hread
        rfl
      have hbehind : s <:+ data := (List.suffix_cons octet s).trans hs
      rw [readValue] at hread
      split at hread
      · next hint =>
          subst hint
          exact pointsInto_readInteger hs (behind_eq_error_iff.mp hread)
      split at hread
      · exact hlist s hbehind e (behind_eq_error_iff.mp hread)
      split at hread
      · exact hdict s hbehind e (behind_eq_error_iff.mp hread)
      split at hread
      · next hd =>
          split at hread
          · next hbytes =>
              cases hread
              exact pointsInto_readBytes hs hd hbytes
          · cases hread
      · cases hread
        exact getElem?_of_suffix hs

end Readers

/-- **The faults of an input point into it.** What is left over begins where an input ends that
would have been accepted. -/
theorem pointsInto_decode {data : Bytes} {e : DecodeError} (h : decode data = .error e) :
    e.PointsInto data := by
  have hlevels : 0 + (maxDepth + 1) = maxDepth + 1 := Nat.zero_add (maxDepth + 1)
  rw [decode] at h
  split at h
  · next hread =>
      cases h
      exact pointsInto_readValue hlevels data List.suffix_rfl _ hread
  · next v rest hlt hread =>
      split at h
      · cases h
      · next hrest =>
          cases h
          obtain ⟨form, hform, rfl⟩ :=
            (recognizes_readValue data.length hlevels data v rest).mp ⟨hlt, hread⟩
          have hoffset : (form ++ rest).length - rest.length = form.length := by
            rw [List.length_append, Nat.add_sub_cancel]
          rw [hoffset]
          refine ⟨?_, v, ?_⟩
          · rw [List.length_append]
            exact Nat.lt_add_of_pos_right (List.length_pos_of_ne_nil hrest)
          · rw [List.take_left]
            exact decode_eq_ok_iff.mpr hform

end Mainline.Bencode
