import Mainline.Proofs.Bencode.Fault
import Mainline.Proofs.Checked

/-!
# Reading at a cursor

The readers are defined on what is left of the input. Here the same values are read at a cursor, an
offset into the whole input that is moved on and never back, the way it is done where the input lies
in memory. Such reading can go wrong in ways that the readers have no words for: octets may be taken
from beyond the input, the cursor may stray there, a sum of offsets may be no machine word, and
nothing but the input bounds the loops. Each of these is a `Stop` of its own here, and every slice,
every move of the cursor and every sum is checked for it.

None of them ever occurs. Reading at the cursor does exactly what the readers do: at the offset of a
final part of the input it finds what they find in that part, and leaves the cursor where they leave
off (`Follows`). The loops are counted by fuel, of which one unit for each octet of the input, and
one more, is enough.

## Main results

* `Cursor.follows_value`: a value is read at the cursor as it is read off the front of what is left.
* `Cursor.decode_eq`: so is a whole input.
* `cursor_stays_in_input_and_faults_point_into_it`: reading terminates within the input, and the
  faults that it reports are where they say.
-/

namespace Mainline.Bencode

namespace Cursor

open Checked

/-! ### Reading with every access checked -/

section Readers

variable (data : Bytes)

/-- The cursor at this offset. -/
def moveTo (pos : ℕ) : Except (Stop DecodeError) ℕ :=
  if pos ≤ data.length then .ok pos else .error .strayed

/-- The cursor moved on by so many octets. -/
def advance (pos n : ℕ) : Except (Stop DecodeError) ℕ :=
  sum pos n >>= moveTo data

/-- The octet at the cursor. -/
def peek (pos : ℕ) : Except (Stop DecodeError) UInt8 :=
  match data[pos]? with
  | some octet => .ok octet
  | none => .error (.fails (.unexpectedEnd pos))

/-- Reads up to the first `stop`, and moves the cursor behind it. -/
def upTo (stop : UInt8) (start : ℕ) : Except (Stop DecodeError) (Bytes × ℕ) := do
  let behind ← slice data start data.length
  match behind.findIdx? (· == stop) with
  | none => .error (.fails (.unexpectedEnd data.length))
  | some n =>
    let last ← sum start n
    let pos ← advance data last 1
    let before ← slice data start last
    .ok (before, pos)

/-- Reads an integer from its `i` on. -/
def integer (start : ℕ) : Except (Stop DecodeError) (Int64 × ℕ) := do
  let pos ← advance data start 1
  let (digits, pos) ← upTo data 0x65 pos
  match parseInteger? digits with
  | none => .error (.fails (.invalidInteger start))
  | some n => .ok (n, pos)

/-- Reads a byte string from its length on. -/
def bytes (start : ℕ) : Except (Stop DecodeError) (Bytes × ℕ) := do
  let (digits, pos) ← upTo data 0x3a start
  match parseLength? digits with
  | none => .error (.fails (.invalidLength start))
  | some n =>
    match (sum? pos n).filter (· ≤ data.length) with
    | none => .error (.fails (.unexpectedEnd data.length))
    | some stop =>
      let s ← slice data pos stop
      let pos ← moveTo data stop
      .ok (s, pos)

/-- Reads elements up to an `e`, and that. -/
def elements {α : Type} (element : ℕ → Except (Stop DecodeError) (α × ℕ)) :
    (fuel pos : ℕ) → Except (Stop DecodeError) (List α × ℕ)
  | 0, _ => .error .outOfFuel
  | fuel + 1, pos => do
    let octet ← peek data pos
    if octet = 0x65 then
      let pos ← advance data pos 1
      .ok ([], pos)
    else
      let (a, pos) ← element pos
      let (as, pos) ← elements element fuel pos
      .ok (a :: as, pos)

/-- Reads a key and its value. -/
def entry {α : Type} (value : ℕ → Except (Stop DecodeError) (α × ℕ)) (pos : ℕ) :
    Except (Stop DecodeError) ((Bytes × α) × ℕ) := do
  let octet ← peek data pos
  if Decimal.isDigit octet then
    let (key, pos) ← bytes data pos
    let (v, pos) ← value pos
    .ok ((key, v), pos)
  else
    .error (.fails (.unexpectedByte octet pos))

/-- Reads a value that lies in `depth` containers. -/
def value : (fuel depth pos : ℕ) → Except (Stop DecodeError) (Value × ℕ)
  | 0, _, _ => .error .outOfFuel
  | fuel + 1, depth, pos =>
    if maxDepth < depth then .error (.fails .nestingTooDeep)
    else do
      let octet ← peek data pos
      if octet = 0x69 then
        let (n, pos) ← integer data pos
        .ok (.int n, pos)
      else if octet = 0x6c then
        let pos ← advance data pos 1
        let (items, pos) ← elements data (value fuel (depth + 1)) fuel pos
        .ok (.list items, pos)
      else if octet = 0x64 then
        let pos ← advance data pos 1
        let (entries, pos) ← elements data (entry data (value fuel (depth + 1))) fuel pos
        .ok (.ofEntries entries, pos)
      else if Decimal.isDigit octet then
        let (s, pos) ← bytes data pos
        .ok (.bytes s, pos)
      else
        .error (.fails (.unexpectedByte octet pos))

/-- Reads exactly one value. -/
def decode (fuel : ℕ) : Except (Stop DecodeError) Value := do
  let (v, pos) ← value data fuel 0 0
  if pos = data.length then .ok v else .error (.fails (.trailingData pos))

/-! ### Where a final part of the input begins -/

/-- The offset at which so much of the input is left. -/
def offset (s : Bytes) : ℕ :=
  data.length - s.length

/-- What a reader found, with the cursor where it left off. -/
def place {α : Type} {s : Bytes} : Step α s → Except (Stop DecodeError) (α × ℕ)
  | .error e => .error (.fails e)
  | .ok (a, rest) => .ok (a, offset data rest)

/-- Reading at the cursor **follows** a reader: wherever less than `bound` octets are left, it finds
what the reader finds in these. -/
def Follows {α : Type} (bound : ℕ) (cursor : ℕ → Except (Stop DecodeError) (α × ℕ))
    (read : (s : Bytes) → Step α s) : Prop :=
  ∀ s, s <:+ data → s.length < bound → cursor (offset data s) = place data (read s)

end Readers

section Offsets

variable {data s : Bytes} (hs : s <:+ data)
include hs

theorem peek_offset :
    peek data (offset data s) = match s with
      | [] => .error (.fails (.unexpectedEnd data.length))
      | octet :: _ => .ok octet := by
  rw [peek]
  rcases s with _ | ⟨octet, s⟩
  · rw [offset, List.length_nil, Nat.sub_zero, List.getElem?_eq_none le_rfl]
  · rw [offset, List.length_cons, getElem?_of_suffix hs]

theorem offset_drop {n : ℕ} (hn : n ≤ s.length) :
    offset data (s.drop n) = offset data s + n := by
  have hle := hs.length_le
  rw [offset, offset, List.length_drop]
  omega

/-- What lies between two offsets is what the first part has in front of the second. -/
theorem slice_offset {n : ℕ} (hn : n ≤ s.length) :
    slice data (offset data s) (offset data (s.drop n)) =
      (.ok (s.take n) : Except (Stop DecodeError) Bytes) := by
  have hle := hs.length_le
  have hs' : s = data.drop (offset data s) := List.suffix_iff_eq_drop.mp hs
  have hrange : offset data s ≤ offset data s + n ∧ offset data s + n ≤ data.length := by
    rw [offset]
    omega
  rw [slice, offset_drop hs hn, if_pos hrange, Nat.add_sub_cancel_left, ← hs']

theorem slice_offset_length :
    slice data (offset data s) data.length = (.ok s : Except (Stop DecodeError) Bytes) := by
  have hslice := slice_offset hs (le_refl s.length)
  rwa [List.drop_length, List.take_length] at hslice

variable (hword : data.length < UInt64.size)
include hword

theorem sum_offset {n : ℕ} (hn : n ≤ s.length) :
    sum (offset data s) n =
      (.ok (offset data (s.drop n)) : Except (Stop DecodeError) ℕ) := by
  have hdrop := offset_drop hs hn
  have hle : offset data (s.drop n) ≤ data.length := Nat.sub_le _ _
  rw [sum, ← hdrop, if_pos (hle.trans_lt hword)]

theorem advance_offset {n : ℕ} (hn : n ≤ s.length) :
    advance data (offset data s) n = .ok (offset data (s.drop n)) := by
  have hle : offset data (s.drop n) ≤ data.length := Nat.sub_le _ _
  rw [advance, sum_offset hs hword hn, ok_bind, moveTo, if_pos hle]

end Offsets

/-- One octet on. -/
theorem advance_cons {data s : Bytes} {octet : UInt8} (hs : octet :: s <:+ data)
    (hword : data.length < UInt64.size) :
    advance data (offset data (octet :: s)) 1 = .ok (offset data s) :=
  advance_offset hs hword (Nat.le_add_left 1 s.length)

/-- So many octets on there is an end if so many are left. Otherwise the sum is beyond the input,
whether or not it is a machine word. -/
theorem stop_offset {data s : Bytes} (hs : s <:+ data) (hword : data.length < UInt64.size) (n : ℕ) :
    (sum? (offset data s) n).filter (· ≤ data.length) =
      if n ≤ s.length then some (offset data (s.drop n)) else none := by
  have hle := hs.length_le
  rw [sum?]
  by_cases hn : n ≤ s.length
  · have hin : offset data (s.drop n) ≤ data.length := Nat.sub_le _ _
    rw [← offset_drop hs hn, if_pos (hin.trans_lt hword), Option.filter_some,
      if_pos (decide_eq_true hin), if_pos hn]
  · have hout : ¬ offset data s + n ≤ data.length := by
      rw [offset]
      omega
    rw [if_neg hn]
    split
    · rw [Option.filter_some, if_neg (by simpa using hout)]
    · rfl

/-- Splitting at the first `stop` is splitting where it is found. -/
theorem splitAt?_eq_map_findIdx? (stop : UInt8) (s : Bytes) :
    splitAt? stop s =
      (s.findIdx? (· == stop)).map fun n => (s.take n, s.drop (n + 1)) := by
  induction s with
  | nil => rfl
  | cons octet s ih =>
      rw [splitAt?, List.findIdx?_cons]
      by_cases h : octet = stop
      · simp [h]
      · simp [h, ih, Function.comp_def]

/-! ### Reading at the cursor follows the readers -/

section Following

variable {data : Bytes} (hword : data.length < UInt64.size)

/-- What is read behind an octet is placed where it was read. -/
theorem place_behind {α β : Type} {octet : UInt8} {s : Bytes} (step : Step α s) (f : α → β) :
    place data (step.behind f : Step β (octet :: s)) =
      place data step >>= fun (a, pos) => .ok (f a, pos) := by
  rcases step with e | ⟨a, rest⟩ <;> rfl

include hword

theorem upTo_offset (stop : UInt8) {s : Bytes} (hs : s <:+ data) :
    upTo data stop (offset data s) = match splitAt? stop s with
      | none => .error (.fails (.unexpectedEnd data.length))
      | some (before, behind) => .ok (before, offset data behind) := by
  rw [upTo, slice_offset_length hs, ok_bind, splitAt?_eq_map_findIdx?]
  cases hfound : s.findIdx? (· == stop) with
  | none => rfl
  | some n =>
      have hlt : n < s.length := (List.findIdx?_eq_some_iff_getElem.mp hfound).1
      have hdrop : s.drop n <:+ data := (List.drop_suffix n s).trans hs
      have hone : 1 ≤ (s.drop n).length := by
        rw [List.length_drop]
        omega
      simp only [sum_offset hs hword hlt.le, ok_bind, advance_offset hdrop hword hone,
        slice_offset hs hlt.le, List.drop_drop, Option.map_some]

/-- An integer is read at its `i`. -/
theorem integer_offset {s : Bytes} (hs : 0x69 :: s <:+ data) :
    integer data (offset data (0x69 :: s)) = place data (readInteger data.length s) := by
  have hread := upTo_offset hword 0x65 ((List.suffix_cons _ s).trans hs)
  rw [integer, advance_cons hs hword, ok_bind, readInteger]
  split
  · next h =>
      rw [h] at hread
      rw [hread]
      rfl
  · next digits rest h =>
      rw [h] at hread
      rw [hread]
      cases hparse : parseInteger? digits with
      | none => simp only [ok_bind, hparse]; rfl
      | some n => simp only [ok_bind, hparse]; rfl

/-- A byte string is read at its length. -/
theorem bytes_offset {s : Bytes} (hs : s <:+ data) :
    bytes data (offset data s) = place data (readBytes data.length s) := by
  have hread := upTo_offset hword 0x3a hs
  rw [bytes, readBytes]
  split
  · next h =>
      rw [h] at hread
      rw [hread]
      rfl
  · next digits rest h =>
      have hrest : rest <:+ data := by
        rw [eq_append_of_splitAt? h] at hs
        exact ((List.suffix_cons _ rest).trans (List.suffix_append digits _)).trans hs
      rw [h] at hread
      rw [hread]
      cases hlength : parseLength? digits with
      | none => simp only [ok_bind, hlength]; rfl
      | some n =>
          simp only [ok_bind, hlength]
          rw [stop_offset hrest hword]
          by_cases hn : n ≤ rest.length
          · have hin : offset data (rest.drop n) ≤ data.length := Nat.sub_le _ _
            rw [if_pos hn, if_pos hn]
            simp only [slice_offset hrest hn, ok_bind, moveTo, if_pos hin]
            rfl
          · rw [if_neg hn, if_neg hn]
            rfl

/-- A loop follows the reader of a sequence if what it repeats follows that of an element. An
element takes an octet at least, so there is fuel left for what follows it. -/
theorem follows_elements {α : Type} {bound fuel : ℕ}
    {element : ℕ → Except (Stop DecodeError) (α × ℕ)} {read : (s : Bytes) → Step α s}
    {Form : Bytes → α → Prop} (hread : Recognizes read Form)
    (helement : Follows data bound element read) (hfuel : fuel ≤ bound) :
    Follows data fuel (elements data element fuel) (readUntilEnd data.length read) := by
  induction fuel with
  | zero => exact fun s _ hlt => absurd hlt (Nat.not_lt_zero _)
  | succ fuel ih =>
      intro s hs hlt
      rw [elements, peek_offset hs, readUntilEnd.eq_def]
      rcases s with _ | ⟨octet, s⟩
      · rfl
      simp only [ok_bind]
      split
      · rw [advance_cons hs hword]
        rfl
      · rw [helement _ hs (hlt.trans_le hfuel)]
        split
        · next hfirst =>
            rw [hfirst]
            rfl
        · next a behind hbehind hfirst =>
            have hlater := ih (Nat.le_of_succ_le hfuel) behind
              ((hread.suffix ⟨hbehind, hfirst⟩).trans hs)
              (hbehind.trans_le (Nat.le_of_lt_succ hlt))
            simp only [hfirst, place, ok_bind, hlater]
            split
            · next h => rw [h]; rfl
            · next h => rw [h]; rfl

/-- A key is read, and then its value. -/
theorem follows_entry {α : Type} {bound : ℕ} {cursor : ℕ → Except (Stop DecodeError) (α × ℕ)}
    {read : (s : Bytes) → Step α s} (hvalue : Follows data bound cursor read) :
    Follows data bound (entry data cursor) (readEntry data.length read) := by
  intro s hs hlt
  rw [entry, peek_offset hs, readEntry.eq_def]
  rcases s with _ | ⟨octet, s⟩
  · rfl
  simp only [ok_bind]
  split
  · rw [bytes_offset hword hs]
    split
    · next hkey =>
        rw [hkey]
        rfl
    · next key behind hbehind hkey =>
        have hsuffix := (recognizes_readBytes data.length).suffix ⟨hbehind, hkey⟩
        simp only [hkey, place, ok_bind, hvalue behind (hsuffix.trans hs) (hbehind.trans hlt)]
        split
        · next h => rw [h]; rfl
        · next h => rw [h]; rfl
  · rfl

/-- **A value is read at the cursor as it is read off the front of what is left**, by as much fuel
as there are octets left, and one unit more. -/
theorem follows_value (fuel : ℕ) {levels depth : ℕ} (h : depth + levels = maxDepth + 1) :
    Follows data fuel (value data fuel depth) (readValue data.length levels) := by
  induction fuel generalizing levels depth with
  | zero => exact fun s _ hlt => absurd hlt (Nat.not_lt_zero _)
  | succ fuel ih =>
      intro s hs hlt
      rw [value]
      rcases levels with _ | levels
      · rw [if_pos (by omega), readValue]
        rfl
      have hread : Recognizes (readValue data.length levels) (Denotes Readable (depth + 1)) :=
        recognizes_readValue data.length (by omega)
      have hvalue : Follows data fuel (value data fuel (depth + 1))
          (readValue data.length levels) :=
        ih (by omega)
      have hlist := follows_elements hword hread hvalue le_rfl
      have hdict := follows_elements hword (recognizes_readEntry data.length hread)
        (follows_entry hword hvalue) le_rfl
      rw [if_neg (by omega), peek_offset hs]
      rcases s with _ | ⟨octet, s⟩
      · rfl
      have hbehind : s <:+ data := (List.suffix_cons octet s).trans hs
      have hfuel : s.length < fuel := Nat.lt_of_succ_lt_succ hlt
      simp only [ok_bind, advance_cons hs hword, hlist s hbehind hfuel, hdict s hbehind hfuel,
        readValue]
      split
      · next hint =>
          subst hint
          rw [integer_offset hword hs, place_behind]
      split
      · rw [place_behind]
      split
      · rw [place_behind]
      split
      · rw [bytes_offset hword hs]
        split
        · next hbytes =>
            rw [hbytes]
            rfl
        · next hbytes =>
            rw [hbytes]
            rfl
      · rfl

/-- **Reading an input at the cursor is reading it**: no access is out of range, the cursor does not
stray, no sum overflows and the fuel does not run out. -/
theorem decode_eq {fuel : ℕ} (hfuel : data.length < fuel) :
    decode data fuel = (Bencode.decode data).mapError .fails := by
  have hvalue := follows_value hword fuel (Nat.zero_add (maxDepth + 1)) data List.suffix_rfl hfuel
  have hstart : offset data data = 0 := Nat.sub_self _
  rw [hstart] at hvalue
  rw [decode, hvalue, Bencode.decode]
  split
  · next h =>
      rw [h]
      rfl
  · next v rest hlt h =>
      have hend : offset data rest = data.length ↔ rest = [] := by
        rw [offset, ← List.length_eq_zero_iff]
        omega
      simp only [h, place, ok_bind, hend]
      split
      · rfl
      · rfl

end Following

/-- With less fuel than that, the loop of this list ends early. -/
example : decode (ascii "li1ee") 2 = .error .outOfFuel := by decide +kernel

end Cursor

/-- **Reading stays within the input, and its faults are where they say.** An input lies in memory,
so its length is a machine word. Reading it at a cursor comes to an end, by as many rounds of its
loops as there are octets, without an access out of range, a cursor beyond the end or a sum that
overflows, and finds what is read. Whatever the input, every fault points at its cause. -/
theorem cursor_stays_in_input_and_faults_point_into_it (data : Bytes) :
    (data.length < UInt64.size → ∀ fuel, data.length < fuel →
      Cursor.decode data fuel = (decode data).mapError .fails) ∧
    ∀ e, decode data = .error e → e.PointsInto data :=
  ⟨fun hword _ hfuel => Cursor.decode_eq hword hfuel, fun _ h => pointsInto_decode h⟩

/-- A length just below `2 ^ 64`, of which the sum with the cursor is no machine word. -/
theorem length_near_word_size_at_cursor :
    let data := ascii "18446744073709551615:a"
    data.length < UInt64.size ∧
      Cursor.decode data 23 = .error (.fails (.unexpectedEnd 22)) ∧
      (DecodeError.unexpectedEnd 22).PointsInto data := by
  intro data
  have hlength : data.length = 22 := by decide +kernel
  have hword : data.length < UInt64.size := by
    rw [hlength]
    decide
  have hread : decode data = .error (.unexpectedEnd 22) := by decide +kernel
  obtain ⟨within, points⟩ := cursor_stays_in_input_and_faults_point_into_it data
  have hcursor := within hword 23 (by omega)
  rw [hread] at hcursor
  exact ⟨hword, hcursor, points _ hread⟩

end Mainline.Bencode
