import Mainline.Krpc.Encode
import Mainline.Proofs.Bencode.Grammar
import Mainline.Proofs.Krpc.Reading

/-!
# Where an input ends

A value says itself where it ends. If octets are missing at its end, the readers notice this at the
end of the input and nowhere earlier, wherever the input has been cut: within a number, a length, the
octets of a byte string or between the elements of a container. If there are more octets behind a
value, it is read all the same, and what is left over is a fault.

What a reader does with an input that has been cut short follows from what it recognizes: whatever
still stands in front of the cut is read, and the first reader that the cut lies in *runs out*
(`RunsOut`).

## Main results

* `runsOut_readValue`: reading a value that has been cut short fails at the end of the input.
* `decode_take`, `decode_append`: what becomes of an accepted input that is cut short or continued.
* `accepted_inputs_end_exactly`: both, for values and for the messages that they carry.
-/

namespace Mainline.Bencode

/-! ### Forms that are cut short -/

/-- The form has been **cut short**: at least one octet is missing at its end. -/
def CutShort (cut form : Bytes) : Prop :=
  ∃ missing, missing ≠ [] ∧ form = cut ++ missing

/-- A form is cut short within its first part or behind it. -/
theorem cutShort_append {cut xs ys : Bytes} (h : CutShort cut (xs ++ ys)) :
    CutShort cut xs ∨ ∃ cut', cut = xs ++ cut' ∧ CutShort cut' ys := by
  obtain ⟨missing, hne, heq⟩ := h
  obtain ⟨cut', rfl, rfl⟩ | ⟨missing', rfl, rfl⟩ := List.append_eq_append_iff.mp heq
  · exact .inr ⟨cut', rfl, missing, hne, rfl⟩
  · rcases missing' with _ | ⟨octet, missing'⟩
    · refine .inr ⟨[], by simp, ys, ?_, rfl⟩
      simpa using hne
    · exact .inl ⟨octet :: missing', List.cons_ne_nil _ _, rfl⟩

/-- A form is cut short before its first octet or behind it. -/
theorem cutShort_cons {cut form : Bytes} {octet : UInt8} (h : CutShort cut (octet :: form)) :
    cut = [] ∨ ∃ cut', cut = octet :: cut' ∧ CutShort cut' form := by
  obtain ⟨missing, hne, heq⟩ := h
  rcases cut with _ | ⟨octet', cut⟩
  · exact .inl rfl
  · obtain ⟨rfl, rfl⟩ := List.cons.inj heq
    exact .inr ⟨cut, rfl, missing, hne, rfl⟩

/-- Whatever is left of a form that has been cut short stands before its last octet. -/
theorem CutShort.mem_of_concat {cut form : Bytes} {last octet : UInt8}
    (h : CutShort cut (form ++ [last])) (hmem : octet ∈ cut) : octet ∈ form := by
  obtain ⟨missing, hne, rfl⟩ | ⟨cut', rfl, hcut'⟩ := cutShort_append h
  · exact List.mem_append_left _ hmem
  · obtain rfl | ⟨_, rfl, missing, hne, heq⟩ := cutShort_cons hcut'
    · simpa using hmem
    · simp [hne] at heq

theorem cutShort_take {data : Bytes} {n : ℕ} (h : n < data.length) : CutShort (data.take n) data := by
  refine ⟨data.drop n, ?_, (List.take_append_drop n data).symm⟩
  simpa using h

/-! ### Readers that run out -/

/-- The reader **runs out** of input on every form that has been cut short. -/
def RunsOut {α : Type} (total : ℕ) (read : (s : Bytes) → Step α s) (Form : Bytes → α → Prop) : Prop :=
  ∀ form a cut, Form form a → CutShort cut form → read cut = .error (.unexpectedEnd total)

/-- There is nothing to split at. -/
theorem splitAt?_eq_none {stop : UInt8} {s : Bytes} (h : stop ∉ s) : splitAt? stop s = none := by
  induction s with
  | nil => rfl
  | cons octet s ih =>
      rw [List.mem_cons, not_or] at h
      rw [splitAt?, if_neg (Ne.symm h.1), ih h.2]
      rfl

/-- An integer that has been cut short lacks its `e`. -/
theorem runsOut_readInteger (total : ℕ) :
    RunsOut total (readInteger total) fun form n => ∃ text, Readable text n ∧ form = text ++ [0x65] := by
  rintro _ n cut ⟨text, hreadable, rfl⟩ hcut
  have hnone : splitAt? 0x65 cut = none :=
    splitAt?_eq_none fun hmem => hreadable.notMem (hcut.mem_of_concat hmem)
  rw [readInteger]
  split
  · rfl
  · next h =>
      rw [hnone] at h
      cases h

/-- A byte string that has been cut short lacks its colon, or some of the octets that its length
announces. -/
theorem runsOut_readBytes (total : ℕ) : RunsOut total (readBytes total) BytesForm := by
  rintro _ s cut ⟨denotes, word⟩ hcut
  next digits =>
    have hcases : 0x3a ∉ cut ∨ ∃ cut', cut = digits ++ 0x3a :: cut' ∧ CutShort cut' s := by
      obtain ⟨missing, -, rfl⟩ | ⟨cut', rfl, hcut'⟩ := cutShort_append hcut
      · exact .inl fun hmem => denotes.notMem rfl (List.mem_append_left _ hmem)
      · obtain rfl | ⟨cut'', rfl, hcut''⟩ := cutShort_cons hcut'
        · rw [List.append_nil]
          exact .inl (denotes.notMem rfl)
        · exact .inr ⟨cut'', rfl, hcut''⟩
    rw [readBytes]
    obtain hnone | ⟨cut', rfl, missing, hne, rfl⟩ := hcases
    · split
      · rfl
      · next h =>
          rw [splitAt?_eq_none hnone] at h
          cases h
    · split
      · rfl
      · next h =>
          rw [splitAt?_append (denotes.notMem rfl)] at h
          cases h
          rw [parseLength?_eq_some_iff.mpr ⟨denotes, word⟩]
          have hlength := List.length_pos_of_ne_nil hne
          rw [List.length_append]
          exact if_neg (by omega)

section Sequences

variable {α : Type} {total : ℕ}

/-- Elements run out in the one that the cut lies in, or before the `e` that ends them. -/
theorem runsOut_readUntilEnd {element : (s : Bytes) → Step α s} {Form : Bytes → α → Prop}
    (helement : Recognizes element Form) (hout : RunsOut total element Form)
    (hhead : ∀ {form a}, Form form a → ∃ octet tail, form = octet :: tail ∧ octet ≠ 0x65) :
    RunsOut total (readUntilEnd total element) fun form as => ∃ items : List (Bytes × α),
      (∀ item ∈ items, Form item.1 item.2) ∧ form = items.flatMap Prod.fst ++ [0x65] ∧
        as = items.map Prod.snd := by
  rintro _ _ cut ⟨items, hitems, rfl, rfl⟩ hcut
  have hend : readUntilEnd total element [] = .error (.unexpectedEnd total) := by
    rw [readUntilEnd]
  induction items generalizing cut with
  | nil =>
      obtain rfl | ⟨cut', rfl, missing, hne, heq⟩ := cutShort_cons hcut
      · exact hend
      · simp [hne] at heq
  | cons item items ih =>
      obtain ⟨hitem, hitems⟩ := List.forall_mem_cons.mp hitems
      obtain ⟨octet, tail, htail, hoctet⟩ := hhead hitem
      rw [List.flatMap_cons, List.append_assoc] at hcut
      obtain hcut | ⟨cut', rfl, hcut'⟩ := cutShort_append hcut
      · have hfirst := hout _ _ _ hitem hcut
        rw [htail] at hcut
        obtain rfl | ⟨cut', rfl, -⟩ := cutShort_cons hcut
        · exact hend
        · exact readUntilEnd_eq_error hoctet hfirst
      · have hfirst := (helement _ _ cut').mpr ⟨item.1, hitem, rfl⟩
        have hlater := ih _ hitems hcut'
        rw [htail, List.cons_append] at hfirst ⊢
        exact hfirst.untilEnd_eq_error hoctet hlater

/-- An entry runs out in its key or in its value. -/
theorem runsOut_readEntry {value : (s : Bytes) → Step α s} {Form : Bytes → α → Prop}
    (hout : RunsOut total value Form) :
    RunsOut total (readEntry total value) fun form entry => ∃ keyForm valueForm,
      BytesForm keyForm entry.1 ∧ Form valueForm entry.2 ∧ form = keyForm ++ valueForm := by
  rintro _ ⟨key, a⟩ cut ⟨keyForm, valueForm, hkey, ha, rfl⟩ hcut
  obtain ⟨d, tail, htail, hd⟩ := hkey.exists_cons
  obtain hcut | ⟨cut', rfl, hcut'⟩ := cutShort_append hcut
  · have hread := runsOut_readBytes total _ _ _ hkey hcut
    rw [htail] at hcut
    obtain rfl | ⟨cut', rfl, -⟩ := cutShort_cons hcut
    · rfl
    · rw [readEntry]
      simp only [if_pos hd, hread]
  · have hread := (recognizes_readBytes total _ _ cut').mpr ⟨keyForm, hkey, rfl⟩
    have hvalue := hout _ _ _ ha hcut'
    rw [htail, List.cons_append] at hread ⊢
    exact hread.entry_eq_error hd hvalue

end Sequences

/-- A value that begins with a digit fails as a byte string. -/
theorem readValue_eq_error_of_digit {total levels : ℕ} {d : UInt8} {s : Bytes} {e : DecodeError}
    (hd : Decimal.isDigit d = true) (hread : readBytes total (d :: s) = .error e) :
    readValue total (levels + 1) (d :: s) = .error e := by
  have hne : ∀ {octet}, Decimal.isDigit octet = false → d ≠ octet := ne_of_isDigit hd
  rw [readValue, if_neg (hne rfl), if_neg (hne rfl), if_neg (hne rfl), if_pos hd, hread]

/-- **A value that has been cut short fails at the end of the input**, wherever the cut lies. In
particular it does not fail for the depth of what stands before the cut, which is no greater than
in the whole value. -/
theorem runsOut_readValue (total : ℕ) {levels depth : ℕ} (h : depth + levels = maxDepth + 1) :
    RunsOut total (readValue total levels) (Denotes Readable depth) := by
  induction levels generalizing depth with
  | zero =>
      intro form v cut hform _
      have hshallow := hform.shallow
      omega
  | succ levels ih =>
      have hvalue : Recognizes (readValue total levels) (Denotes Readable (depth + 1)) :=
        recognizes_readValue total (by omega)
      have hout : RunsOut total (readValue total levels) (Denotes Readable (depth + 1)) :=
        ih (by omega)
      have hlist := runsOut_readUntilEnd hvalue hout Denotes.exists_cons
      have hdict := runsOut_readUntilEnd (recognizes_readEntry total hvalue)
        (runsOut_readEntry hout) (by
          rintro form entry ⟨keyForm, valueForm, hkey, -, rfl⟩
          obtain ⟨d, tail, rfl, hd⟩ := hkey.exists_cons
          exact ⟨d, _, List.cons_append, ne_of_isDigit hd rfl⟩)
      have hend : readValue total (levels + 1) [] = .error (.unexpectedEnd total) := rfl
      intro form v cut hform hcut
      cases hform with
      | @int _ text n _ written =>
          obtain rfl | ⟨cut', rfl, hcut'⟩ := cutShort_cons hcut
          · exact hend
          · rw [readValue_int, runsOut_readInteger total _ _ _ ⟨text, written, rfl⟩ hcut']
            rfl
      | bytes _ written =>
          have hread := runsOut_readBytes total _ _ _ written hcut
          obtain ⟨d, tail, rfl, hd⟩ := written.exists_cons
          obtain rfl | ⟨cut', rfl, -⟩ := cutShort_cons hcut
          · exact hend
          · exact readValue_eq_error_of_digit hd hread
      | @list _ items _ denotes =>
          obtain rfl | ⟨cut', rfl, hcut'⟩ := cutShort_cons hcut
          · exact hend
          · rw [readValue_list, hlist _ _ _ ⟨items, denotes, rfl, rfl⟩ hcut']
            rfl
      | @dict _ pairs entries _ keys values lastWins =>
          have hitems : ∀ item ∈ pairs.map Pair.read, ∃ keyForm form,
              BytesForm keyForm item.2.1 ∧ Denotes Readable (depth + 1) form item.2.2 ∧
                item.1 = keyForm ++ form := by
            refine List.forall_mem_map.mpr fun p hp => ?_
            exact ⟨p.keyForm, p.form, keys p hp, values p hp, rfl⟩
          obtain rfl | ⟨cut', rfl, hcut'⟩ := cutShort_cons hcut
          · exact hend
          · have hread := hdict _ _ _ ⟨pairs.map Pair.read, hitems, by rw [List.flatMap_map]; rfl, rfl⟩ hcut'
            rw [readValue_dict, hread]
            rfl

/-! ### Whole inputs -/

section Accepted

variable {data : Bytes} {v : Value} (h : decode data = .ok v)
include h

/-- An accepted input that has been cut short ends too early. -/
theorem decode_take {n : ℕ} (hn : n < data.length) :
    decode (data.take n) = .error (.unexpectedEnd n) := by
  have hlength : (data.take n).length = n := List.length_take_of_le hn.le
  have hread := runsOut_readValue (data.take n).length (Nat.zero_add (maxDepth + 1)) _ _ _
    (decode_eq_ok_iff.mp h) (cutShort_take hn)
  rw [decode, hread]
  simp only [hlength]

/-- An accepted input that goes on ends where it did, and the rest is left over. -/
theorem decode_append {s : Bytes} (hs : s ≠ []) :
    decode (data ++ s) = .error (.trailingData data.length) := by
  obtain ⟨hlt, hread⟩ := (recognizes_readValue (data ++ s).length (Nat.zero_add (maxDepth + 1))
    (data ++ s) v s).mpr ⟨data, decode_eq_ok_iff.mp h, rfl⟩
  have hlength : (data ++ s).length - s.length = data.length := by simp
  rw [decode, hread]
  simp only [if_neg hs, hlength]

end Accepted

/-- A datagram that is no bencode value is no message, whatever is expected. -/
theorem message_decode_eq_error {data : Bytes} {e : DecodeError} (h : decode data = .error e)
    (expected : Bytes → Option Krpc.Method) :
    Krpc.Message.decode data expected = .error (.malformed (.bencode e)) := by
  rw [Krpc.Message.decode, Krpc.Envelope.decode, h]
  rfl

/-- A datagram that is a message is a bencode value. -/
theorem exists_decode_of_message {data : Bytes} {expected : Bytes → Option Krpc.Method}
    {m : Krpc.Message} (h : Krpc.Message.decode data expected = .ok m) : ∃ v, decode data = .ok v := by
  cases hdecode : decode data with
  | ok v => exact ⟨v, rfl⟩
  | error e =>
      rw [message_decode_eq_error hdecode] at h
      cases h

/-- **An accepted input ends exactly where its value does.** If octets are missing at its end, the
input ends too early, at its own length; if there are more octets behind it, they are left over, from
its length on. So no accepted input is the beginning of another one, and a datagram that carries a
message carries none when it is cut short or continued, whatever answers are expected then. -/
theorem accepted_inputs_end_exactly :
    (∀ (data : Bytes) (v : Value), decode data = .ok v →
      (∀ n < data.length, decode (data.take n) = .error (.unexpectedEnd n)) ∧
      (∀ s ≠ [], decode (data ++ s) = .error (.trailingData data.length)) ∧
      ∀ data' v', decode data' = .ok v' → data <+: data' → data' = data) ∧
    ∀ (data : Bytes) (expected expected' : Bytes → Option Krpc.Method) (m : Krpc.Message),
      Krpc.Message.decode data expected = .ok m →
      (∀ n < data.length, Krpc.Message.decode (data.take n) expected' =
        .error (.malformed (.bencode (.unexpectedEnd n)))) ∧
      ∀ s ≠ [], Krpc.Message.decode (data ++ s) expected' =
        .error (.malformed (.bencode (.trailingData data.length))) := by
  refine ⟨fun data v h => ⟨fun n => decode_take h, fun s => decode_append h, ?_⟩, ?_⟩
  · rintro _ v' h' ⟨s, rfl⟩
    by_contra hne
    have hs : s ≠ [] := by
      rintro rfl
      exact hne (List.append_nil data)
    rw [decode_append h hs] at h'
    cases h'
  · intro data expected expected' m hm
    obtain ⟨v, h⟩ := exists_decode_of_message hm
    exact ⟨fun n hn => message_decode_eq_error (decode_take h hn) expected',
      fun s hs => message_decode_eq_error (decode_append h hs) expected'⟩

/-- A ping is cut short within the length of a key, where one more digit could follow, and continued
by a second ping. -/
theorem ping_ends_exactly :
    let ping := (Krpc.Message.mk [0, 1] (.query ⟨7⟩ .ping)).encode
    Krpc.Message.decode ping (fun _ => none) = .ok ⟨[0, 1], .query ⟨7⟩ .ping⟩ ∧
      decode (ping.take 8) = .error (.unexpectedEnd 8) ∧
      Krpc.Message.decode (ping.take 8) (fun _ => none) =
        .error (.malformed (.bencode (.unexpectedEnd 8))) ∧
      Krpc.Message.decode (ping ++ ping) (fun _ => none) =
        .error (.malformed (.bencode (.trailingData ping.length))) := by
  intro ping
  have hread : Krpc.Message.decode ping (fun _ => none) = .ok ⟨[0, 1], .query ⟨7⟩ .ping⟩ := by
    decide +kernel
  obtain ⟨v, hvalue⟩ := exists_decode_of_message hread
  have hlength : 8 < ping.length := by decide +kernel
  have hne : ping ≠ [] := List.ne_nil_of_length_pos (Nat.zero_lt_of_lt hlength)
  obtain ⟨cut, continued⟩ := accepted_inputs_end_exactly.2 ping (fun _ => none) (fun _ => none) _ hread
  exact ⟨hread, (accepted_inputs_end_exactly.1 ping v hvalue).1 8 hlength, cut 8 hlength,
    continued ping hne⟩

end Mainline.Bencode
