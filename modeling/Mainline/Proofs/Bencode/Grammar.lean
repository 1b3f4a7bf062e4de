import Mathlib.Data.List.Sort
import Mainline.Proofs.Bencode.Dictionary
import Mainline.Proofs.Bencode.Numeral

/-!
# The grammar that is read

Reading is defined by what the readers do. This module says which inputs they accept without
mentioning them: `Denotes` relates the octets of a value to the value, by one rule a form, and a
whole input is accepted exactly if it denotes a value.

The grammar takes the texts of integers as a parameter, because the readers accept more of them
than the canonical ones (`Readable`).

Each reader is matched with a relation that it *recognizes*: it takes off the front of an input
exactly what stands in the relation to its result. For a reader that is built from others, this
follows from what these recognize.

## Main results

* `recognizes_readValue`: the values that are read off the front of an input.
* `decode_eq_ok_iff_denotes`: the inputs that are accepted, and the values they are read as.
* `decode_accepts_plus_sign`: a text that is read although it is not canonical.
-/

namespace Mainline.Bencode

/-! ### Forms -/

/-- A byte string behind its length and a colon. The length may have leading zeros; it is a machine
word. -/
inductive BytesForm : Bytes → Bytes → Prop
  | intro {digits s : Bytes} (denotes : Digits digits s.length) (word : s.length < UInt64.size) :
      BytesForm (digits ++ 0x3a :: s) s

/-- An entry of a dictionary as it stands in an input. -/
structure Pair where
  keyForm : Bytes
  key : Bytes
  form : Bytes
  value : Value

/-- The key and the value of an entry. -/
def Pair.entry (p : Pair) : Bytes × Value :=
  (p.key, p.value)

/-- The entries of a dictionary that is given as pairs in any order: each key once, in ascending
order, and under it the value that comes last. -/
structure LastWins (pairs entries : List (Bytes × Value)) : Prop where
  ascending : (entries.map Prod.fst).Pairwise (· < ·)
  lookup_eq : ∀ key, entries.lookup key = pairs.reverse.lookup key

/-- **The grammar.** The octets denote a value that lies in `depth` containers, each of its
integers being written as `integer` says. No value lies in more than `maxDepth` of them. -/
inductive Denotes (integer : Bytes → Int64 → Prop) : (depth : ℕ) → Bytes → Value → Prop
  | int {depth : ℕ} {text : Bytes} {n : Int64} (shallow : depth ≤ maxDepth)
      (written : integer text n) : Denotes integer depth (0x69 :: (text ++ [0x65])) (.int n)
  | bytes {depth : ℕ} {form s : Bytes} (shallow : depth ≤ maxDepth) (written : BytesForm form s) :
      Denotes integer depth form (.bytes s)
  | list {depth : ℕ} {items : List (Bytes × Value)} (shallow : depth ≤ maxDepth)
      (denotes : ∀ item ∈ items, Denotes integer (depth + 1) item.1 item.2) :
      Denotes integer depth (0x6c :: (items.flatMap Prod.fst ++ [0x65])) (.list (items.map Prod.snd))
  | dict {depth : ℕ} {pairs : List Pair} {entries : List (Bytes × Value)}
      (shallow : depth ≤ maxDepth) (keys : ∀ p ∈ pairs, BytesForm p.keyForm p.key)
      (values : ∀ p ∈ pairs, Denotes integer (depth + 1) p.form p.value)
      (lastWins : LastWins (pairs.map Pair.entry) entries) :
      Denotes integer depth (0x64 :: (pairs.flatMap (fun p => p.keyForm ++ p.form) ++ [0x65]))
        (.dict entries)

/-- The length of a byte string is a machine word. -/
theorem BytesForm.length_lt {form s : Bytes} (h : BytesForm form s) : s.length < UInt64.size := by
  cases h
  assumption

/-- A byte string starts with a digit. -/
theorem BytesForm.exists_cons {form s : Bytes} (h : BytesForm form s) :
    ∃ d tail, form = d :: tail ∧ Decimal.isDigit d = true := by
  obtain ⟨denotes, -⟩ := h
  obtain ⟨d, tail, rfl, hd⟩ := denotes.exists_cons
  exact ⟨d, _, List.cons_append, hd⟩

/-! ### Dictionaries -/

/-- In a dictionary that is built from pairs, the last pair with a key is found. -/
theorem lookup_sorted_reverse (pairs : List (Bytes × Value)) (key : Bytes) :
    (Value.sorted pairs).lookup key = pairs.reverse.lookup key := by
  induction pairs using List.reverseRecOn with
  | nil => rfl
  | append_singleton pairs last ih =>
      obtain ⟨k, v⟩ := last
      rw [Value.sorted_concat, Value.lookup_insertEntry, ih, List.reverse_append,
        List.reverse_singleton, List.singleton_append, lookup_cons_eq_ite]

/-- **The last pair wins.** There is exactly one such dictionary, and it is the one that is
built. -/
theorem lastWins_iff {pairs entries : List (Bytes × Value)} :
    LastWins pairs entries ↔ entries = Value.sorted pairs := by
  constructor
  · rintro ⟨ascending, lookup_eq⟩
    have hsorted := Value.pairwise_sorted pairs
    have hne : ∀ {key key' : Bytes}, key < key' → key ≠ key' :=
      fun hlt heq => List.lt_irrefl _ (heq ▸ hlt)
    have hmem : ∀ entry, entry ∈ entries ↔ entry ∈ Value.sorted pairs := by
      rintro ⟨key, value⟩
      rw [← lookup_eq_some_iff_mem (ascending.imp hne),
        ← lookup_eq_some_iff_mem (hsorted.imp hne), lookup_eq, lookup_sorted_reverse]
    have : Std.Antisymm fun a b : Bytes × Value => a.1 < b.1 :=
      ⟨fun _ _ h h' => absurd h' (List.lt_asymm h)⟩
    have : Std.Irrefl fun a b : Bytes × Value => a.1 < b.1 := ⟨fun _ => List.lt_irrefl _⟩
    exact (List.pairwise_map.mp ascending).eq_of_mem_iff (List.pairwise_map.mp hsorted) hmem
  · rintro rfl
    exact ⟨Value.pairwise_sorted pairs, lookup_sorted_reverse pairs⟩

/-! ### Readers -/

/-- The reader takes `a` off the front and leaves `rest`. -/
def Reads {α : Type} {s : Bytes} (step : Step α s) (a : α) (rest : Bytes) : Prop :=
  ∃ h, step = .ok (a, ⟨rest, h⟩)

theorem Reads.behind {α β : Type} {octet : UInt8} {s rest : Bytes} {step : Step α s} {a : α}
    (h : Reads step a rest) (f : α → β) :
    Reads (step.behind f : Step β (octet :: s)) (f a) rest := by
  obtain ⟨hlt, rfl⟩ := h
  exact ⟨_, rfl⟩

/-- What is read of a container is what is read behind its first octet. -/
theorem reads_behind_iff {α β : Type} {octet : UInt8} {s rest : Bytes} {step : Step α s} {f : α → β}
    {b : β} : Reads (step.behind f : Step β (octet :: s)) b rest ↔
      ∃ a, Reads step a rest ∧ b = f a := by
  constructor
  · rintro ⟨hlt, h⟩
    rcases step with e | ⟨a, rest', hlt'⟩
    · cases h
    · cases h
      exact ⟨a, ⟨hlt', rfl⟩, rfl⟩
  · rintro ⟨a, ha, rfl⟩
    exact ha.behind f

/-- What stands before the first `stop` is found. -/
theorem splitAt?_append {stop : UInt8} {before : Bytes} (h : stop ∉ before) (behind : Bytes) :
    splitAt? stop (before ++ stop :: behind) = some (before, behind) := by
  induction before with
  | nil => simp [splitAt?]
  | cons octet before ih =>
      rw [List.mem_cons, not_or] at h
      rw [List.cons_append, splitAt?, if_neg (Ne.symm h.1), ih h.2]
      rfl

/-- The reader takes off the front of its input exactly what stands in the relation to its
result. -/
def Recognizes {α : Type} (read : (s : Bytes) → Step α s) (Form : Bytes → α → Prop) : Prop :=
  ∀ s a rest, Reads (read s) a rest ↔ ∃ form, Form form a ∧ s = form ++ rest

/-- Integers are read up to the first `e`. -/
theorem recognizes_readInteger (total : ℕ) :
    Recognizes (readInteger total) fun form n => ∃ text, Readable text n ∧ form = text ++ [0x65] := by
  intro s n rest
  constructor
  · rintro ⟨hlt, h⟩
    rw [readInteger] at h
    split at h
    · cases h
    · next text behind hsplit =>
        split at h
        · cases h
        · next hparse =>
            cases h
            refine ⟨_, ⟨text, parseInteger?_eq_some_iff.mp hparse, rfl⟩, ?_⟩
            rw [eq_append_of_splitAt? hsplit, List.append_assoc, List.singleton_append]
  · rintro ⟨form, ⟨text, hreadable, rfl⟩, rfl⟩
    have hsplit : splitAt? 0x65 (text ++ [0x65] ++ rest) = some (text, rest) := by
      rw [List.append_assoc]
      exact splitAt?_append hreadable.notMem rest
    refine ⟨length_lt_of_splitAt? hsplit, ?_⟩
    rw [readInteger]
    split
    · next h =>
        rw [hsplit] at h
        cases h
    · next h =>
        rw [hsplit] at h
        cases h
        rw [parseInteger?_eq_some_iff.mpr hreadable]

/-- Byte strings are read from their length on. -/
theorem recognizes_readBytes (total : ℕ) : Recognizes (readBytes total) BytesForm := by
  intro s a rest
  constructor
  · rintro ⟨hlt, h⟩
    rw [readBytes] at h
    split at h
    · cases h
    · next digits behind hsplit =>
        split at h
        · cases h
        · next n hparse =>
            obtain ⟨denotes, word⟩ := parseLength?_eq_some_iff.mp hparse
            split at h
            · next hle =>
                cases h
                have hlength : (behind.take n).length = n := List.length_take_of_le hle
                refine ⟨_, .intro (hlength.symm ▸ denotes) (hlength.symm ▸ word), ?_⟩
                rw [eq_append_of_splitAt? hsplit, List.append_assoc, List.cons_append,
                  List.take_append_drop]
            · cases h
  · rintro ⟨form, ⟨denotes, word⟩, rfl⟩
    next digits =>
      have hsplit : splitAt? 0x3a (digits ++ 0x3a :: a ++ rest) = some (digits, a ++ rest) := by
        rw [List.append_assoc]
        exact splitAt?_append (denotes.notMem rfl) (a ++ rest)
      have hlt := length_lt_of_splitAt? hsplit
      rw [List.length_append] at hlt
      refine ⟨by omega, ?_⟩
      rw [readBytes]
      split
      · next h =>
          rw [hsplit] at h
          cases h
      · next h =>
          rw [hsplit] at h
          cases h
          rw [parseLength?_eq_some_iff.mpr ⟨denotes, word⟩]
          simp

/-- An element is read before those that follow it. -/
theorem Reads.untilEnd_cons {α : Type} {total : ℕ} {element : (s : Bytes) → Step α s}
    {s behind rest : Bytes} {octet : UInt8} {a : α} {items : List α} (hoctet : octet ≠ 0x65)
    (hfirst : Reads (element (octet :: s)) a behind)
    (hitems : Reads (readUntilEnd total element behind) items rest) :
    Reads (readUntilEnd total element (octet :: s)) (a :: items) rest := by
  obtain ⟨hlt, hfirst⟩ := hfirst
  obtain ⟨hlt', hitems⟩ := hitems
  refine ⟨Nat.lt_trans hlt' hlt, ?_⟩
  rw [readUntilEnd]
  simp only [if_neg hoctet, hfirst, hitems]

/-- A sequence fails with its first element. -/
theorem readUntilEnd_eq_error {α : Type} {total : ℕ} {element : (s : Bytes) → Step α s} {s : Bytes}
    {octet : UInt8} {e : DecodeError} (hoctet : octet ≠ 0x65)
    (hfirst : element (octet :: s) = .error e) :
    readUntilEnd total element (octet :: s) = .error e := by
  rw [readUntilEnd]
  simp only [if_neg hoctet, hfirst]

/-- A sequence fails with what follows its first element. -/
theorem Reads.untilEnd_eq_error {α : Type} {total : ℕ} {element : (s : Bytes) → Step α s}
    {s behind : Bytes} {octet : UInt8} {a : α} {e : DecodeError} (hoctet : octet ≠ 0x65)
    (hfirst : Reads (element (octet :: s)) a behind)
    (hlater : readUntilEnd total element behind = .error e) :
    readUntilEnd total element (octet :: s) = .error e := by
  obtain ⟨hlt, hfirst⟩ := hfirst
  rw [readUntilEnd]
  simp only [if_neg hoctet, hfirst, hlater]

/-- Elements are read up to the first `e` that does not belong to one of them. -/
theorem recognizes_readUntilEnd {α : Type} (total : ℕ) {element : (s : Bytes) → Step α s}
    {Form : Bytes → α → Prop} (helement : Recognizes element Form)
    (hhead : ∀ {form a}, Form form a → ∃ octet tail, form = octet :: tail ∧ octet ≠ 0x65) :
    Recognizes (readUntilEnd total element) fun form as => ∃ items : List (Bytes × α),
      (∀ item ∈ items, Form item.1 item.2) ∧ form = items.flatMap Prod.fst ++ [0x65] ∧
        as = items.map Prod.snd := by
  intro s as rest
  constructor
  · intro h
    induction hlength : s.length using Nat.strongRecOn generalizing s as with
    | _ n ih =>
        obtain ⟨hlt, h⟩ := h
        rw [readUntilEnd.eq_def] at h
        split at h
        · cases h
        · split at h
          · next heq =>
              cases h
              refine ⟨[0x65], ⟨[], List.forall_mem_nil _, rfl, rfl⟩, ?_⟩
              rw [heq, List.singleton_append]
          · split at h
            · cases h
            · next a behind hlt' hfirst =>
                split at h
                · cases h
                · next as' rest' hlt'' hlater =>
                    cases h
                    obtain ⟨form, hform, heq⟩ := (helement _ _ _).mp ⟨hlt', hfirst⟩
                    obtain ⟨form', ⟨items, hitems, rfl, rfl⟩, rfl⟩ :=
                      ih _ (hlength ▸ hlt') _ _ ⟨hlt'', hlater⟩ rfl
                    refine ⟨_, ⟨(form, a) :: items, ?_, rfl, rfl⟩, ?_⟩
                    · exact List.forall_mem_cons.mpr ⟨hform, hitems⟩
                    · rw [heq, List.flatMap_cons]
                      simp only [List.append_assoc]
  · rintro ⟨form, ⟨items, hitems, rfl, rfl⟩, rfl⟩
    induction items with
    | nil =>
        rw [List.flatMap_nil, List.nil_append, List.singleton_append, readUntilEnd, if_pos rfl]
        exact ⟨_, rfl⟩
    | cons item items ih =>
        obtain ⟨hitem, hitems⟩ := List.forall_mem_cons.mp hitems
        obtain ⟨octet, tail, htail, hoctet⟩ := hhead hitem
        have hfirst := (helement _ _ (items.flatMap Prod.fst ++ [0x65] ++ rest)).mpr
          ⟨item.1, hitem, rfl⟩
        rw [htail, List.cons_append] at hfirst
        rw [List.flatMap_cons, htail, List.append_assoc, List.append_assoc, List.cons_append,
          ← List.append_assoc (items.flatMap Prod.fst)]
        exact hfirst.untilEnd_cons hoctet (ih hitems)

/-- An entry fails with the value behind its key. -/
theorem Reads.entry_eq_error {α : Type} {total : ℕ} {value : (s : Bytes) → Step α s}
    {s key behind : Bytes} {d : UInt8} {e : DecodeError} (hd : Decimal.isDigit d = true)
    (hkey : Reads (readBytes total (d :: s)) key behind) (hvalue : value behind = .error e) :
    readEntry total value (d :: s) = .error e := by
  obtain ⟨hlt, hkey⟩ := hkey
  rw [readEntry]
  simp only [if_pos hd, hkey, hvalue]

/-- An entry is a key and the value behind it. -/
theorem recognizes_readEntry {α : Type} (total : ℕ) {value : (s : Bytes) → Step α s}
    {Form : Bytes → α → Prop} (hvalue : Recognizes value Form) :
    Recognizes (readEntry total value) fun form entry => ∃ keyForm valueForm,
      BytesForm keyForm entry.1 ∧ Form valueForm entry.2 ∧ form = keyForm ++ valueForm := by
  rintro s ⟨key, a⟩ rest
  constructor
  · rintro ⟨hlt, h⟩
    rw [readEntry.eq_def] at h
    split at h
    · cases h
    · split at h
      · split at h
        · cases h
        · next key' behind hlt' hkey =>
            split at h
            · cases h
            · next a' rest' hlt'' ha =>
                cases h
                obtain ⟨keyForm, hkeyForm, heq⟩ := (recognizes_readBytes total _ _ _).mp ⟨hlt', hkey⟩
                obtain ⟨form, hform, rfl⟩ := (hvalue _ _ _).mp ⟨hlt'', ha⟩
                refine ⟨_, ⟨keyForm, form, hkeyForm, hform, rfl⟩, ?_⟩
                rw [heq, List.append_assoc]
      · cases h
  · rintro ⟨_, ⟨keyForm, form, hkeyForm, hform, rfl⟩, rfl⟩
    have hkey := (recognizes_readBytes total _ _ (form ++ rest)).mpr ⟨keyForm, hkeyForm, rfl⟩
    obtain ⟨hlt', ha⟩ := (hvalue _ _ rest).mpr ⟨form, hform, rfl⟩
    obtain ⟨d, tail, rfl, hd⟩ := hkeyForm.exists_cons
    rw [List.cons_append] at hkey
    rw [List.append_assoc, List.cons_append]
    obtain ⟨hlt, hkey⟩ := hkey
    refine ⟨Nat.lt_trans hlt' hlt, ?_⟩
    rw [readEntry]
    simp only [if_pos hd, hkey, ha]

/-! ### Values -/

theorem Denotes.shallow {integer : Bytes → Int64 → Prop} {depth : ℕ} {form : Bytes} {v : Value}
    (h : Denotes integer depth form v) : depth ≤ maxDepth := by
  cases h <;> assumption

/-- No value starts with the octet that ends a container. -/
theorem Denotes.exists_cons {integer : Bytes → Int64 → Prop} {depth : ℕ} {form : Bytes} {v : Value}
    (h : Denotes integer depth form v) : ∃ octet tail, form = octet :: tail ∧ octet ≠ 0x65 := by
  cases h with
  | int => exact ⟨0x69, _, rfl, by decide⟩
  | bytes _ written =>
      obtain ⟨d, tail, rfl, hd⟩ := written.exists_cons
      exact ⟨d, tail, rfl, ne_of_isDigit hd rfl⟩
  | list => exact ⟨0x6c, _, rfl, by decide⟩
  | dict => exact ⟨0x64, _, rfl, by decide⟩

/-- A value that begins with an `i` is read as an integer. -/
theorem readValue_int (total levels : ℕ) (s : Bytes) :
    readValue total (levels + 1) (0x69 :: s) = (readInteger total s).behind .int := by
  rw [readValue, if_pos rfl]

/-- A value that begins with an `l` is read as a list. -/
theorem readValue_list (total levels : ℕ) (s : Bytes) :
    readValue total (levels + 1) (0x6c :: s) =
      (readUntilEnd total (readValue total levels) s).behind .list := by
  rw [readValue, if_neg (by decide), if_pos rfl]

/-- A value that begins with a `d` is read as a dictionary. -/
theorem readValue_dict (total levels : ℕ) (s : Bytes) :
    readValue total (levels + 1) (0x64 :: s) =
      (readUntilEnd total (readEntry total (readValue total levels)) s).behind .ofEntries := by
  rw [readValue, if_neg (by decide), if_neg (by decide), if_pos rfl]

/-- A value that begins with none of the letters is read as a byte string. -/
theorem reads_string_iff {total levels : ℕ} {octet : UInt8} {s rest : Bytes} {v : Value}
    (hint : octet ≠ 0x69) (hlist : octet ≠ 0x6c) (hdict : octet ≠ 0x64) :
    Reads (readValue total (levels + 1) (octet :: s)) v rest ↔
      ∃ a, Reads (readBytes total (octet :: s)) a rest ∧ v = .bytes a := by
  rw [readValue, if_neg hint, if_neg hlist, if_neg hdict]
  constructor
  · rintro ⟨hlt, h⟩
    split at h
    · split at h
      · cases h
      · next a rest' hread =>
          cases h
          exact ⟨a, ⟨hlt, hread⟩, rfl⟩
    · cases h
  · rintro ⟨a, ⟨hlt, hread⟩, rfl⟩
    obtain ⟨form, hform, heq⟩ := (recognizes_readBytes total _ _ _).mp ⟨hlt, hread⟩
    obtain ⟨d, tail, rfl, hd⟩ := hform.exists_cons
    obtain ⟨rfl, -⟩ := List.cons.inj heq
    refine ⟨hlt, ?_⟩
    rw [if_pos hd, hread]

/-- **What reading a value can do**, if there is a level left for it: one reader a form. -/
theorem reads_value_iff {total levels : ℕ} {s rest : Bytes} {v : Value} :
    Reads (readValue total (levels + 1) s) v rest ↔
      (∃ s' n, s = 0x69 :: s' ∧ Reads (readInteger total s') n rest ∧ v = .int n) ∨
      (∃ a, Reads (readBytes total s) a rest ∧ v = .bytes a) ∨
      (∃ s' items, s = 0x6c :: s' ∧
        Reads (readUntilEnd total (readValue total levels) s') items rest ∧ v = .list items) ∨
      ∃ s' entries, s = 0x64 :: s' ∧
        Reads (readUntilEnd total (readEntry total (readValue total levels)) s') entries rest ∧
          v = .ofEntries entries := by
  constructor
  · intro h
    cases s with
    | nil =>
        obtain ⟨hlt, h⟩ := h
        rw [readValue] at h
        cases h
    | cons octet s =>
        obtain rfl | hint := eq_or_ne octet 0x69
        · rw [readValue_int, reads_behind_iff] at h
          obtain ⟨n, hn, rfl⟩ := h
          exact .inl ⟨s, n, rfl, hn, rfl⟩
        obtain rfl | hlist := eq_or_ne octet 0x6c
        · rw [readValue_list, reads_behind_iff] at h
          obtain ⟨items, hitems, rfl⟩ := h
          exact .inr (.inr (.inl ⟨s, items, rfl, hitems, rfl⟩))
        obtain rfl | hdict := eq_or_ne octet 0x64
        · rw [readValue_dict, reads_behind_iff] at h
          obtain ⟨entries, hentries, rfl⟩ := h
          exact .inr (.inr (.inr ⟨s, entries, rfl, hentries, rfl⟩))
        exact .inr (.inl ((reads_string_iff hint hlist hdict).mp h))
  · rintro (⟨s, n, rfl, hn, rfl⟩ | ⟨a, ha, rfl⟩ | ⟨s, items, rfl, hitems, rfl⟩ |
      ⟨s, entries, rfl, hentries, rfl⟩)
    · rw [readValue_int]
      exact hn.behind _
    · obtain ⟨form, hform, rfl⟩ := (recognizes_readBytes total _ _ _).mp ha
      obtain ⟨d, tail, rfl, hd⟩ := hform.exists_cons
      have hne : ∀ {octet}, Decimal.isDigit octet = false → d ≠ octet := ne_of_isDigit hd
      exact (reads_string_iff (hne rfl) (hne rfl) (hne rfl)).mpr ⟨a, ha, rfl⟩
    · rw [readValue_list]
      exact hitems.behind _
    · rw [readValue_dict]
      exact hentries.behind _

/-- A pair as it stands in an input, and what it is read as. -/
def Pair.read (p : Pair) : Bytes × Bytes × Value :=
  (p.keyForm ++ p.form, p.entry)

/-- The entries that are read in a dictionary are those of its pairs. -/
theorem exists_pairs {integer : Bytes → Int64 → Prop} {depth : ℕ}
    {items : List (Bytes × Bytes × Value)}
    (h : ∀ item ∈ items, ∃ keyForm form, BytesForm keyForm item.2.1 ∧
      Denotes integer depth form item.2.2 ∧ item.1 = keyForm ++ form) :
    ∃ pairs : List Pair, (∀ p ∈ pairs, BytesForm p.keyForm p.key) ∧
      (∀ p ∈ pairs, Denotes integer depth p.form p.value) ∧ items = pairs.map Pair.read := by
  induction items with
  | nil => exact ⟨[], List.forall_mem_nil _, List.forall_mem_nil _, rfl⟩
  | cons item items ih =>
      obtain ⟨hitem, hitems⟩ := List.forall_mem_cons.mp h
      obtain ⟨pairs, hkeys, hvalues, rfl⟩ := ih hitems
      obtain ⟨octets, key, value⟩ := item
      obtain ⟨keyForm, form, hkey, hvalue, rfl⟩ := hitem
      exact ⟨⟨keyForm, key, form, value⟩ :: pairs, List.forall_mem_cons.mpr ⟨hkey, hkeys⟩,
        List.forall_mem_cons.mpr ⟨hvalue, hvalues⟩, rfl⟩

/-- **Values are read as the grammar says**: with so many levels left, those that lie in so many
containers already. -/
theorem recognizes_readValue (total : ℕ) {levels depth : ℕ} (h : depth + levels = maxDepth + 1) :
    Recognizes (readValue total levels) (Denotes Readable depth) := by
  induction levels generalizing depth with
  | zero =>
      intro s v rest
      constructor
      · rintro ⟨hlt, hread⟩
        rw [readValue] at hread
        cases hread
      · rintro ⟨form, hform, -⟩
        have hshallow := hform.shallow
        omega
  | succ levels ih =>
      have hshallow : depth ≤ maxDepth := by omega
      have hvalue : Recognizes (readValue total levels) (Denotes Readable (depth + 1)) :=
        ih (by omega)
      have hlist := recognizes_readUntilEnd total hvalue Denotes.exists_cons
      have hdict := recognizes_readUntilEnd total (recognizes_readEntry total hvalue) (by
        rintro form entry ⟨keyForm, valueForm, hkey, -, rfl⟩
        obtain ⟨d, tail, rfl, hd⟩ := hkey.exists_cons
        exact ⟨d, _, List.cons_append, ne_of_isDigit hd rfl⟩)
      intro s v rest
      rw [reads_value_iff]
      constructor
      · rintro (⟨s, n, rfl, hn, rfl⟩ | ⟨a, ha, rfl⟩ | ⟨s, _, rfl, hread, rfl⟩ |
          ⟨s, _, rfl, hread, rfl⟩)
        · obtain ⟨_, ⟨text, htext, rfl⟩, rfl⟩ := (recognizes_readInteger total _ _ _).mp hn
          exact ⟨_, .int hshallow htext, rfl⟩
        · obtain ⟨form, hform, rfl⟩ := (recognizes_readBytes total _ _ _).mp ha
          exact ⟨form, .bytes hshallow hform, rfl⟩
        · obtain ⟨_, ⟨items, hitems, rfl, rfl⟩, rfl⟩ := (hlist _ _ _).mp hread
          exact ⟨_, .list hshallow hitems, rfl⟩
        · obtain ⟨_, ⟨items, hitems, rfl, rfl⟩, rfl⟩ := (hdict _ _ _).mp hread
          obtain ⟨pairs, hkeys, hvalues, rfl⟩ := exists_pairs hitems
          have hlast : LastWins (pairs.map Pair.entry)
              (Value.sorted ((pairs.map Pair.read).map Prod.snd)) := by
            rw [lastWins_iff, List.map_map]
            rfl
          refine ⟨_, .dict hshallow hkeys hvalues hlast, ?_⟩
          rw [List.flatMap_map]
          rfl
      · rintro ⟨form, hform, rfl⟩
        cases hform with
        | @int _ text n _ written =>
            have hread := (recognizes_readInteger total _ _ rest).mpr ⟨_, ⟨text, written, rfl⟩, rfl⟩
            exact .inl ⟨_, n, rfl, hread, rfl⟩
        | @bytes _ form a _ written =>
            have hread := (recognizes_readBytes total _ _ rest).mpr ⟨form, written, rfl⟩
            exact .inr (.inl ⟨a, hread, rfl⟩)
        | @list _ items _ denotes =>
            have hread := (hlist _ _ rest).mpr ⟨_, ⟨items, denotes, rfl, rfl⟩, rfl⟩
            exact .inr (.inr (.inl ⟨_, _, rfl, hread, rfl⟩))
        | @dict _ pairs entries _ keys values lastWins =>
            have hitems : ∀ item ∈ pairs.map Pair.read, ∃ keyForm form,
                BytesForm keyForm item.2.1 ∧ Denotes Readable (depth + 1) form item.2.2 ∧
                  item.1 = keyForm ++ form := by
              rintro _ hitem
              obtain ⟨p, hp, rfl⟩ := List.mem_map.mp hitem
              exact ⟨p.keyForm, p.form, keys p hp, values p hp, rfl⟩
            have hread := (hdict _ _ rest).mpr ⟨_, ⟨_, hitems, rfl, rfl⟩, rfl⟩
            rw [List.flatMap_map, List.map_map] at hread
            rw [lastWins_iff.mp lastWins, ← Value.ofEntries_eq]
            exact .inr (.inr (.inr ⟨_, _, rfl, hread, rfl⟩))

/-- An input is accepted if one value is read off its front and nothing is left. -/
theorem decode_eq_ok_iff {data : Bytes} {v : Value} :
    decode data = .ok v ↔ Denotes Readable 0 data v := by
  have hlevels : 0 + (maxDepth + 1) = maxDepth + 1 := Nat.zero_add (maxDepth + 1)
  have hread := recognizes_readValue data.length hlevels data v []
  have hdecode : decode data = .ok v ↔
      Reads (readValue data.length (maxDepth + 1) data) v [] := by
    rw [decode]
    constructor
    · intro h
      split at h
      · cases h
      · next w rest hlt heq =>
          split at h
          · next hrest =>
              cases h
              subst hrest
              exact ⟨hlt, heq⟩
          · cases h
    · rintro ⟨hlt, heq⟩
      rw [heq]
      exact if_pos rfl
  rw [hdecode, hread]
  simp only [List.append_nil, exists_eq_right']

/-- The grammar is no smaller if it has more texts of integers. -/
theorem Denotes.mono {integer integer' : Bytes → Int64 → Prop}
    (h : ∀ {text n}, integer text n → integer' text n) {depth : ℕ} {form : Bytes} {v : Value}
    (hform : Denotes integer depth form v) : Denotes integer' depth form v := by
  induction hform with
  | int shallow written => exact .int shallow (h written)
  | bytes shallow written => exact .bytes shallow written
  | list shallow _ ih => exact .list shallow ih
  | dict shallow keys _ lastWins ih => exact .dict shallow keys ih lastWins

/-- Without a plus sign anywhere, all integers are canonical. -/
theorem Denotes.canonical {depth : ℕ} {form : Bytes} {v : Value} (h : Denotes Readable depth form v)
    (noPlus : 0x2b ∉ form) : Denotes Canonical depth form v := by
  induction h with
  | int shallow written =>
      rcases written with hcanonical | ⟨denotes, value⟩
      · exact .int shallow hcanonical
      · exact absurd (by simp) noPlus
  | bytes shallow written => exact .bytes shallow written
  | list shallow _ ih =>
      refine .list shallow fun item hitem => ih item hitem fun hplus => noPlus ?_
      refine List.mem_cons_of_mem _ (List.mem_append_left _ ?_)
      exact List.mem_flatMap.mpr ⟨item, hitem, hplus⟩
  | dict shallow keys _ lastWins ih =>
      refine .dict shallow keys (fun p hp => ih p hp fun hplus => noPlus ?_) lastWins
      refine List.mem_cons_of_mem _ (List.mem_append_left _ ?_)
      exact List.mem_flatMap.mpr ⟨p, hp, List.mem_append_right _ hplus⟩

/-- **Exactly the inputs that denote a value are accepted**, and as what they denote. The texts of
integers are the canonical ones and those with a plus sign in front; lengths may have leading
zeros, keys may come in any order and repeat, and a value lies in 64 containers at most. So every
input of the grammar with canonical integers only is read as what it denotes, and no other input is
accepted unless there is a plus sign in it. -/
theorem decode_eq_ok_iff_denotes (data : Bytes) (v : Value) :
    (decode data = .ok v ↔
      Denotes (fun text n => Canonical text n ∨ PlusSigned text n) 0 data v) ∧
    (Denotes Canonical 0 data v → decode data = .ok v) ∧
    (0x2b ∉ data → (decode data = .ok v ↔ Denotes Canonical 0 data v)) := by
  have hcanonical : Denotes Canonical 0 data v → decode data = .ok v :=
    fun h => decode_eq_ok_iff.mpr (h.mono .inl)
  refine ⟨decode_eq_ok_iff, hcanonical, fun noPlus => ?_⟩
  exact ⟨fun h => (decode_eq_ok_iff.mp h).canonical noPlus, hcanonical⟩

/-- An input without a plus sign denotes what it is read as: here the keys come in descending order
and one of them twice, a length has leading zeros and an integer is the least that there is. -/
theorem denotes_dictionary_in_any_order :
    let data : Bytes := ascii "d1:bi0e01:ali-9223372036854775808eee"
    let v : Value := .dict [(ascii "a", .list [.int Int64.minValue]), (ascii "b", .int 0)]
    0x2b ∉ data ∧ Denotes Canonical 0 data v ∧ decode data = .ok v := by
  intro data v
  have noPlus : 0x2b ∉ data := by decide +kernel
  have hread : decode data = .ok v := by decide +kernel
  obtain ⟨-, -, law⟩ := decode_eq_ok_iff_denotes data v
  exact ⟨noPlus, (law noPlus).mp hread, hread⟩

/-- An integer with a plus sign is read, although this input denotes nothing in the grammar with
canonical integers only. -/
theorem decode_accepts_plus_sign :
    decode (ascii "i+5e") = .ok (.int 5) ∧ ∀ v, ¬ Denotes Canonical 0 (ascii "i+5e") v := by
  refine ⟨by decide +kernel, fun v h => ?_⟩
  have hdata : ascii "i+5e" = 0x69 :: ([0x2b, 0x35] ++ [0x65]) := by decide +kernel
  rw [hdata] at h
  generalize hform : (0x69 : UInt8) :: ([0x2b, 0x35] ++ [0x65]) = form at h
  cases h with
  | int _ written =>
      obtain ⟨-, htext⟩ := List.cons.inj hform
      obtain rfl := List.append_cancel_right htext
      generalize htext : ([0x2b, 0x35] : Bytes) = text at written
      cases written with
      | unsigned denotes =>
          subst htext
          exact absurd (denotes.isDigit 0x2b List.mem_cons_self) (by decide)
      | negative => exact absurd (List.cons.inj htext).1 (by decide)
  | bytes _ written =>
      obtain ⟨d, tail, rfl, hd⟩ := written.exists_cons
      obtain ⟨rfl, -⟩ := List.cons.inj hform
      exact absurd hd (by decide)
  | list => exact absurd (List.cons.inj hform).1 (by decide)
  | dict => exact absurd (List.cons.inj hform).1 (by decide)

end Mainline.Bencode
