import Mainline.Proofs.Bencode.Nesting
import Mainline.Proofs.Krpc.RoundTrip

/-!
# Unknown fields

Nodes send more than is asked of them: a version, the address they see, options of their own. Such
entries stand among the known ones in the order of the keys, in the message itself and in the
dictionary that it holds, and further items may stand behind those of an error. A message that has
been extended in this way is read as if it had not been.

There are two sides to it. Readers look up the keys that they know and nothing else, so what stands
under other keys does not matter to them (`Agrees`, and the lemmas that end in `_congr`). And
entries under other keys leave what is found under known keys as it was, wherever they come to stand
(`agrees_extend`). Where the known content of a message is itself extended, it is put under its key
once more, which takes the place of what was there.

## Main definitions

* `Method.argumentKeys`, `Method.fieldKeys`: the keys that are known in arguments and fields.
* `Message.extended`: a message with further entries and items.

## Main results

* `Query.ofArguments_congr`, `Response.ofFields_congr`: readers depend on known keys only.
* `Message.decode_of_extended`: an extended message is read as the message.
* `Message.unknown_fields_ignored`: and so it is from its datagram.
-/

namespace Mainline.Krpc

open Bencode (Value FieldType)

/-! ### Known keys -/

/-- The keys of the arguments of a query. -/
def Method.argumentKeys : Method → List String
  | .ping => ["id"]
  | .findNode => ["id", "target"]
  | .getPeers => ["id", "info_hash"]
  | .announcePeer => ["id", "info_hash", "port", "token", "implied_port"]

/-- The keys of the fields of a response. -/
def Method.fieldKeys : Method → List String
  | .ping => ["id"]
  | .findNode => ["id", "nodes"]
  | .getPeers => ["id", "token", "nodes", "values"]
  | .announcePeer => ["id"]

theorem Method.id_mem_argumentKeys (method : Method) : "id" ∈ method.argumentKeys := by
  cases method <;> decide

theorem Method.id_mem_fieldKeys (method : Method) : "id" ∈ method.fieldKeys := by
  cases method <;> decide

theorem Body.contentKey_notMem_headKeys (body : Body) :
    ascii body.contentKey ∉ body.headKeys.map ascii := by
  have hnodup := body.nodup_keys
  rw [keys, List.map_append, List.nodup_append] at hnodup
  exact fun hmem => hnodup.2.2 _ hmem _ (by simp) rfl

/-- The keys of the content of a message. -/
def Body.contentKeys : Body → List String
  | .query _ q => q.method.argumentKeys
  | .response r => r.method.fieldKeys
  | .error _ => []

/-- The content of a message: arguments, fields, or the list that an error is. -/
def Body.content : Body → Value
  | .query sender q => q.arguments sender
  | .response r => r.fields
  | .error e => .list [.int e.code, .bytes (Utf8.encode e.text)]

/-! ### Readers depend on known keys -/

/-- The two values have the **same under known keys**. -/
def Agrees (known : List String) (v w : Value) : Prop :=
  ∀ name ∈ known, w.field (ascii name) = v.field (ascii name)

section Agrees

variable {known : List String} {v w : Value} {α : Type}

theorem Agrees.require (h : Agrees known v w) {name : String} (hname : name ∈ known)
    (type : FieldType α) : require w name type = require v name type := by
  rw [Krpc.require, Krpc.require, Value.require, Value.require, h name hname]

theorem Agrees.optional (h : Agrees known v w) {name : String} (hname : name ∈ known)
    (type : FieldType α) : optional w name type = optional v name type := by
  rw [Krpc.optional, Krpc.optional, Value.optional, Value.optional, Value.require, Value.require,
    h name hname]

theorem Agrees.requireKey (h : Agrees known v w) {name : String} (hname : name ∈ known) :
    requireKey w name = requireKey v name := by
  rw [Krpc.requireKey, Krpc.requireKey, h.require hname]

/-- **A query depends on the known keys of its arguments only.** -/
theorem Query.ofArguments_congr {method : Method} (h : Agrees method.argumentKeys v w) :
    Query.ofArguments method w = Query.ofArguments method v := by
  cases method with
  | ping => rfl
  | findNode =>
      have htarget : "target" ∈ Method.argumentKeys .findNode := by decide
      rw [Query.ofArguments, Query.ofArguments, h.requireKey htarget]
  | getPeers =>
      have hhash : "info_hash" ∈ Method.argumentKeys .getPeers := by decide
      rw [Query.ofArguments, Query.ofArguments, h.requireKey hhash]
  | announcePeer =>
      have hhash : "info_hash" ∈ Method.argumentKeys .announcePeer := by decide
      have hport : "port" ∈ Method.argumentKeys .announcePeer := by decide
      have htoken : "token" ∈ Method.argumentKeys .announcePeer := by decide
      have himplied : "implied_port" ∈ Method.argumentKeys .announcePeer := by decide
      rw [Query.ofArguments, Query.ofArguments, h.require hport, h.requireKey hhash,
        h.require htoken, h.optional himplied]

/-- **A response depends on the known keys of its fields only.** -/
theorem Response.ofFields_congr {method : Method} (h : Agrees method.fieldKeys v w) :
    Response.ofFields method w = Response.ofFields method v := by
  rw [Response.ofFields, Response.ofFields, h.requireKey method.id_mem_fieldKeys]
  cases method with
  | ping | announcePeer => rfl
  | findNode =>
      have hnodes : "nodes" ∈ Method.fieldKeys .findNode := by decide
      simp only [h.require hnodes]
  | getPeers =>
      have hnodes : "nodes" ∈ Method.fieldKeys .getPeers := by decide
      have hpeers : "values" ∈ Method.fieldKeys .getPeers := by decide
      have htoken : "token" ∈ Method.fieldKeys .getPeers := by decide
      simp only [h.optional hnodes, h.optional hpeers, h.require htoken]

end Agrees

/-! ### Adding entries and items -/

/-- A value with further entries if it is a dictionary, and with further items behind its own if it
is a list. -/
def extend (entries : List (Bytes × Value)) (items : List Value) : Value → Value
  | .dict own => .ofEntries (own ++ entries)
  | .list own => .list (own ++ items)
  | other => other

variable {entries : List (Bytes × Value)} {items : List Value} {v : Value}

/-- What is found in an extended dictionary: the last of the entries that were added under the key,
or what was found before. -/
theorem field_extend {own : List (Bytes × Value)} (canonical : (Value.dict own).Canonical)
    (key : Bytes) :
    (extend entries items (.dict own)).field key =
      match entries.reverse.lookup key with
      | some value => .ok value
      | none => (Value.dict own).field key := by
  have hown : own.reverse.lookup key = own.lookup key := by
    have hsorted := Value.ofEntries_of_pairwise canonical.1
    rw [Value.ofEntries_eq, Value.dict.injEq] at hsorted
    rw [← Bencode.lookup_sorted_reverse, hsorted]
  rw [extend, Value.ofEntries_eq, Value.field, Bencode.lookup_sorted_reverse, List.reverse_append,
    List.lookup_append, hown]
  cases entries.reverse.lookup key <;> rfl

/-- **Entries under unknown keys leave what is found under known ones.** -/
theorem agrees_extend {known : List String} {own : List (Bytes × Value)}
    (canonical : (Value.dict own).Canonical) (unknown : ∀ e ∈ entries, e.1 ∉ known.map ascii) :
    Agrees known (.dict own) (extend entries items (.dict own)) := by
  intro name hname
  have hnone : entries.reverse.lookup (ascii name) = none := by
    refine lookup_eq_none_of_notMem fun hmem => ?_
    obtain ⟨e, he, heq⟩ := List.mem_map.mp hmem
    exact unknown e (List.mem_reverse.mp he) (heq ▸ List.mem_map_of_mem hname)
  rw [field_extend canonical, hnone]

instance (levels : ℕ) (v : Value) : Decidable (Fits levels v) :=
  inferInstanceAs (Decidable (v.Canonical ∧ v.depth ≤ levels))

/-- Extending a value by what fits into as many levels does not make it deeper. -/
theorem fits_extend {levels : ℕ} (hv : Fits (levels + 1) v)
    (hentries : ∀ e ∈ entries, Fits levels e.2) (hitems : ∀ item ∈ items, Fits levels item) :
    Fits (levels + 1) (extend entries items v) := by
  obtain ⟨canonical, hdepth⟩ := hv
  cases v with
  | int n => exact fits_int _ n
  | bytes s => exact fits_bytes _ s
  | list own =>
      refine fits_list fun item hitem => ?_
      obtain hitem | hitem := List.mem_append.mp hitem
      · exact ⟨Value.canonicalItems_iff.mp canonical item hitem,
          Nat.le_of_lt_succ (Value.depthItems_le_iff.mp hdepth item hitem)⟩
      · exact hitems item hitem
  | dict own =>
      have hall : ∀ e ∈ own ++ entries, Fits levels e.2 := by
        intro e he
        obtain he | he := List.mem_append.mp he
        · exact ⟨Value.canonicalEntries_iff.mp canonical.2 e he,
            Nat.le_of_lt_succ (Value.depthEntries_le_iff.mp hdepth e he)⟩
        · exact hentries e he
      exact ⟨Value.canonical_ofEntries fun e he => (hall e he).1,
        Value.depth_ofEntries_le fun e he => Nat.lt_succ_of_le (hall e he).2⟩

/-- What a machine can hold has fields that it can hold. -/
theorem sized_of_field {w : Value} (hv : v.Sized) {key : Bytes} (hfield : v.field key = .ok w) :
    w.Sized := by
  cases v with
  | int n | bytes s | list items => cases hfield
  | dict own =>
      rw [Value.field] at hfield
      split at hfield
      · next value hlookup =>
          cases hfield
          obtain ⟨before, after, rfl, -⟩ := List.lookup_eq_some_iff.mp hlookup
          exact (hv.entry (List.mem_append_right before List.mem_cons_self)).2
      · cases hfield

/-- A machine can hold a value that is extended by what it can hold. -/
theorem sized_extend (hv : v.Sized)
    (hentries : ∀ e ∈ entries, e.1.length < UInt64.size ∧ e.2.Sized)
    (hitems : ∀ item ∈ items, item.Sized) : (extend entries items v).Sized := by
  cases v with
  | int n => exact hv
  | bytes s => exact hv
  | list own =>
      refine Value.sized_list fun item hitem => ?_
      obtain hitem | hitem := List.mem_append.mp hitem
      · exact hv.item hitem
      · exact hitems item hitem
  | dict own =>
      refine Value.sized_dict fun e he => ?_
      obtain he | he := List.mem_append.mp (Value.mem_of_mem_sorted he)
      · exact hv.entry he
      · exact hentries e he

/-! ### Extended messages -/

/-- What a message has beside what is known of it. -/
structure Extras where
  /-- Further entries of the message. -/
  entries : List (Bytes × Value) := []
  /-- Further entries of the arguments or fields that it holds. -/
  content : List (Bytes × Value) := []
  /-- Further items of the list that an error is. -/
  items : List Value := []

/-- The content of a message with what is added to it. -/
def Body.extendedContent (body : Body) (extras : Extras) : Value :=
  extend extras.content extras.items body.content

/-- **A message with further entries and items.** Its content, extended itself, takes the place of
what was under its key. -/
def Message.extended (m : Message) (extras : Extras) : Value :=
  extend ((ascii m.body.contentKey, m.body.extendedContent extras) :: extras.entries) [] m.toValue

/-- Entries that may stand **beside known ones**, and are nested in so many levels at most. -/
structure Beside (known : List String) (levels : ℕ) (entries : List (Bytes × Value)) : Prop where
  unknown : ∀ e ∈ entries, e.1 ∉ known.map ascii
  fits : ∀ e ∈ entries, Fits levels e.2
  sized : ∀ e ∈ entries, e.1.length < UInt64.size ∧ e.2.Sized

/-- What may be added to a message: nothing under a known key, and nothing that is nested more
deeply than may be where it is added. -/
structure Extras.Allowed (extras : Extras) (body : Body) : Prop where
  entries : Beside body.keys (Bencode.maxDepth - 1) extras.entries
  content : Beside body.contentKeys (Bencode.maxDepth - 2) extras.content
  items : ∀ item ∈ extras.items, Fits (Bencode.maxDepth - 2) item ∧ item.Sized

section Extended

variable {m : Message} {extras : Extras}

theorem Message.exists_toValue_eq (m : Message) : ∃ own, m.toValue = .dict own := by
  obtain ⟨transaction, ⟨sender, query⟩ | response | error⟩ := m <;> exact ⟨_, rfl⟩

/-- The content of a message stands under its key. -/
theorem Message.field_content (m : Message) :
    m.toValue.field (ascii m.body.contentKey) = .ok m.body.content := by
  have hkeys := m.body.nodup_keys
  obtain ⟨transaction, ⟨sender, query⟩ | response | error⟩ := m <;>
    exact field_record hkeys (by simp [Body.content, Body.contentKey])

theorem Body.fits_content (body : Body) : Fits 2 body.content := by
  cases body with
  | query sender query => exact (query.fits_arguments sender).mono (by decide)
  | response response => exact response.fits_fields
  | error error => exact fits_list (by simp)

/-- An extended message can be written as a value that reads back. -/
theorem Message.decode_encode_extended (allowed : extras.Allowed m.body) (sized : m.toValue.Sized) :
    Bencode.decode (Bencode.encode (m.extended extras)) = .ok (m.extended extras) := by
  have hcontent : Fits (Bencode.maxDepth - 1) (m.body.extendedContent extras) :=
    fits_extend (m.body.fits_content.mono (by decide)) allowed.content.fits
      fun item hitem => (allowed.items item hitem).1
  have hfits : Fits Bencode.maxDepth (m.extended extras) := by
    refine fits_extend (m.fits_toValue.mono (by decide)) ?_ (List.forall_mem_nil _)
    exact List.forall_mem_cons.mpr ⟨hcontent, allowed.entries.fits⟩
  have hkey : (ascii m.body.contentKey).length < UInt64.size := by
    have hall : ∀ key ∈ ["a", "r", "e"], (ascii key).length < UInt64.size := by decide
    exact hall _ (by cases m.body <;> simp [Body.contentKey])
  have hcontentSized : (m.body.extendedContent extras).Sized :=
    sized_extend (sized_of_field sized m.field_content) allowed.content.sized
      fun item hitem => (allowed.items item hitem).2
  have hsized : (m.extended extras).Sized := by
    refine sized_extend sized ?_ (List.forall_mem_nil _)
    exact List.forall_mem_cons.mpr ⟨⟨hkey, hcontentSized⟩, allowed.entries.sized⟩
  exact Bencode.decode_encode hfits.1 hfits.2 hsized

/-- What an extended message has under the key of its content. -/
theorem Message.field_extended (allowed : extras.Allowed m.body) :
    (m.extended extras).field (ascii m.body.contentKey) = .ok (m.body.extendedContent extras) := by
  obtain ⟨own, hown⟩ := m.exists_toValue_eq
  have hknown : m.body.contentKey ∈ m.body.keys := by simp [Body.keys]
  have hnone : extras.entries.reverse.lookup (ascii m.body.contentKey) = none := by
    refine lookup_eq_none_of_notMem fun hmem => ?_
    obtain ⟨e, he, heq⟩ := List.mem_map.mp hmem
    exact allowed.entries.unknown e (List.mem_reverse.mp he) (heq ▸ List.mem_map_of_mem hknown)
  have canonical := m.fits_toValue.1
  rw [Message.extended, hown] at *
  rw [field_extend canonical, List.reverse_cons, List.lookup_append, hnone]
  simp

/-- The other known keys of a message keep what is under them. -/
theorem Message.agrees_extended (allowed : extras.Allowed m.body) :
    Agrees m.body.headKeys m.toValue (m.extended extras) := by
  obtain ⟨own, hown⟩ := m.exists_toValue_eq
  have canonical := m.fits_toValue.1
  rw [Message.extended, hown] at *
  refine agrees_extend canonical (List.forall_mem_cons.mpr ⟨?_, fun e he hmem => ?_⟩)
  · exact m.body.contentKey_notMem_headKeys
  · refine allowed.entries.unknown e he ?_
    rw [Body.keys, List.map_append]
    exact List.mem_append_left _ hmem

/-- The known keys of the arguments of a query keep what is under them, as do those of the fields of
a response. -/
theorem Body.agrees_extendedContent {body : Body} (allowed : extras.Allowed body)
    (hdict : ∃ own, body.content = .dict own) :
    Agrees body.contentKeys body.content (body.extendedContent extras) := by
  obtain ⟨own, hown⟩ := hdict
  have canonical := body.fits_content.1
  rw [Body.extendedContent, hown] at *
  exact agrees_extend canonical allowed.content.unknown

/-- The envelope of an extended message is that of the message. -/
theorem Message.decode_envelope_of_extended {data : Bytes} (allowed : extras.Allowed m.body)
    (hdata : Bencode.decode data = .ok (m.extended extras)) :
    Envelope.decode data = .ok ⟨m.transaction, m.body.kind, m.extended extras⟩ := by
  have hagrees := m.agrees_extended allowed
  have ht : "t" ∈ m.body.headKeys := by cases m.body <;> simp [Body.headKeys]
  have hy : "y" ∈ m.body.headKeys := by cases m.body <;> simp [Body.headKeys]
  exact Envelope.decode_of_fields hdata ((hagrees.require ht .bytes).trans m.require_transaction)
    ((hagrees.require hy .bytes).trans m.require_kind) m.body.kind.ofName?_name

/-- Extended arguments or fields are a dictionary. -/
theorem Body.read_extendedContent {body : Body} (hdict : ∃ own, body.content = .dict own)
    (extras : Extras) :
    FieldType.dict.read (body.extendedContent extras) = some (body.extendedContent extras) := by
  obtain ⟨own, hown⟩ := hdict
  rw [Body.extendedContent, hown]
  rfl

/-- A query is read in its extended message. -/
theorem Message.query_of_extended {transaction : Bytes} {sender : Key} {query : Query}
    (allowed : extras.Allowed (.query sender query)) :
    Envelope.query ⟨transaction, .query,
      Message.extended ⟨transaction, .query sender query⟩ extras⟩ = .ok (.query sender query) := by
  set m : Message := ⟨transaction, .query sender query⟩ with hm
  have hdict : ∃ own, m.body.content = .dict own := by cases query <;> exact ⟨_, rfl⟩
  have hq : "q" ∈ m.body.headKeys := by simp [hm, Body.headKeys]
  have hname : require m.toValue "q" .bytes = .ok (ascii query.method.name) :=
    require_record (.bytes (ascii query.method.name)) m.body.nodup_keys (by simp) rfl
  have hargs := Body.agrees_extendedContent allowed hdict
  exact Envelope.query_of_fields
    (((m.agrees_extended allowed).require hq .bytes).trans hname)
    (require_of_field (m.field_extended allowed) (Body.read_extendedContent hdict extras))
    ((hargs.requireKey query.method.id_mem_argumentKeys).trans (query.requireKey_arguments sender))
    ((Query.ofArguments_congr hargs).trans (query.ofArguments_arguments sender))

/-- A response is read in its extended message. -/
theorem Message.response_of_extended {transaction : Bytes} {response : Response}
    (allowed : extras.Allowed (.response response)) :
    Envelope.response ⟨transaction, .response,
      Message.extended ⟨transaction, .response response⟩ extras⟩ response.method =
        .ok (.response response.withoutV6) := by
  set m : Message := ⟨transaction, .response response⟩ with hm
  have hdict : ∃ own, m.body.content = .dict own := by cases response <;> exact ⟨_, rfl⟩
  have hfields := Body.agrees_extendedContent allowed hdict
  exact Envelope.response_of_fields
    (require_of_field (m.field_extended allowed) (Body.read_extendedContent hdict extras))
    ((Response.ofFields_congr hfields).trans response.ofFields_fields)

/-- An error is read in its extended message. -/
theorem Message.error_of_extended {transaction : Bytes} {error : RemoteError}
    (allowed : extras.Allowed (.error error)) :
    Envelope.error ⟨transaction, .error,
      Message.extended ⟨transaction, .error error⟩ extras⟩ = .ok (.error error) := by
  set m : Message := ⟨transaction, .error error⟩ with hm
  refine Envelope.error_of_fields (require_of_field (m.field_extended allowed) rfl) ?_
  rw [List.cons_append, List.cons_append, RemoteError.ofItems, Utf8.decodeLossy_encode]

/-- **An extended message is read as the message**, in whatever datagram it stands, without what
has no packed form. -/
theorem Message.decode_of_extended {data : Bytes} {expected : Bytes → Option Method}
    (allowed : extras.Allowed m.body)
    (hexpected : ∀ r, m.body = .response r → expected m.transaction = some r.method)
    (hdata : Bencode.decode data = .ok (m.extended extras)) :
    Message.decode data expected = .ok m.withoutV6 := by
  have henvelope := m.decode_envelope_of_extended allowed hdata
  rw [Message.decode_eq_ok_iff]
  obtain ⟨transaction, ⟨sender, query⟩ | response | error⟩ := m
  · exact ⟨_, henvelope, rfl, .query rfl (Message.query_of_extended allowed)⟩
  · exact ⟨_, henvelope, rfl,
      .response rfl (hexpected response rfl) (Message.response_of_extended allowed)⟩
  · exact ⟨_, henvelope, rfl, .error rfl (Message.error_of_extended allowed)⟩

end Extended

/-- **Unknown fields are ignored.** A message with addresses of version 4 only, to which entries are
added under keys that are not known, in the message itself and in the dictionary that it holds, and
items behind those of an error, is written as a datagram that is read as the message, if the reader
of a response is told its method. And so is every other datagram that spells the extended message,
with its keys in whatever order. What is added may be nested as deeply as a reader of bencode
allows where it stands. -/
theorem Message.unknown_fields_ignored (m : Message) (extras : Extras)
    (expected : Bytes → Option Method) (hv4 : ∀ address ∈ m.addresses, address.isV4 = true)
    (sized : m.toValue.Sized) (allowed : extras.Allowed m.body)
    (hexpected : ∀ r, m.body = .response r → expected m.transaction = some r.method) :
    Message.decode (Bencode.encode (m.extended extras)) expected = .ok m ∧
      ∀ data, Bencode.decode data = .ok (m.extended extras) →
        Message.decode data expected = .ok m := by
  have hself := m.withoutV6_eq_self_iff.mpr hv4
  have hread : ∀ data, Bencode.decode data = .ok (m.extended extras) →
      Message.decode data expected = .ok m := by
    intro data hdata
    have hdecode := m.decode_of_extended allowed hexpected hdata
    rwa [hself] at hdecode
  exact ⟨hread _ (m.decode_encode_extended allowed sized), hread⟩

/-- A response with a version, the address it was sent to, an option with a dictionary in it and an
entry under `a`, which is known in queries only. -/
theorem Message.unknown_fields_ignored_response :
    let m : Message :=
      ⟨[0, 1], .response (.getPeers ⟨7⟩ [9, 9] none (some [.v4 ⟨10, 0, 0, 2⟩ 6881]))⟩
    let extras : Extras := {
      entries := [(ascii "v", .bytes [0x55, 0x54]), (ascii "ip", .bytes [10, 0, 0, 1, 0x1a, 0xe1]),
        (ascii "a", .int 1)]
      content := [(ascii "options", .list [.dict [(ascii "id", .int 0)]]), (ascii "p", .int 6881)] }
    extras.Allowed m.body ∧
      Bencode.encode (m.extended extras) =
        ascii "d1:ai1e2:ip6:" ++ [10, 0, 0, 1, 0x1a, 0xe1] ++ ascii "1:rd2:id20:" ++
        (Key.toBytes ⟨7⟩) ++ ascii "7:optionsld2:idi0eee1:pi6881e5:token2:" ++ [9, 9] ++
        ascii "6:valuesl6:" ++ [10, 0, 0, 2, 0x1a, 0xe1] ++ ascii "ee1:t2:" ++ [0, 1] ++
        ascii "1:v2:UT1:y1:re" ∧
      Message.decode (Bencode.encode (m.extended extras)) (fun _ => some .getPeers) = .ok m := by
  intro m extras
  have sized : m.toValue.Sized := by decide +kernel
  have allowed : extras.Allowed m.body :=
    { entries := ⟨by decide +kernel, by decide +kernel, by decide +kernel⟩
      content := ⟨by decide +kernel, by decide +kernel, by decide +kernel⟩
      items := List.forall_mem_nil _ }
  have hexpected : ∀ r, m.body = .response r → some Method.getPeers = some r.method := by
    rintro r ⟨⟩
    rfl
  exact ⟨allowed, by decide +kernel,
    (m.unknown_fields_ignored extras (fun _ => some .getPeers) (by decide +kernel) sized allowed
      hexpected).1⟩

end Mainline.Krpc
