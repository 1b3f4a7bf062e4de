import Mainline.Krpc.Encode
import Mainline.Proofs.Bencode.Cursor
import Mainline.Proofs.Contact.Unpacking
import Mainline.Proofs.Krpc.Reading

/-!
# What becomes of a datagram

Whatever octets arrive, they are a message, or they are refused in one of two ways: as malformed,
for one of many causes, or as a response that nobody asked for. The layers below have failures of
their own, for a value, for a field and for what is packed in it, and they take their octets by
offsets; none of these failures comes through under another name, and no access goes wrong.

To say so, a datagram is read a second time here, with every access checked and with the failures of
a node, of which there are more than two: the value at a cursor, contacts and peers by offsets. This
reading gives what the readers give (`Message.decodeChecked_eq`), so its failures are theirs
(`refused`).

## Main results

* `Message.decodeChecked_eq`: reading with checks is reading.
* `Message.decode_eq_unsolicited_iff`: which datagrams are unsolicited.
* `datagrams_are_read_malformed_or_unsolicited`: there is no third way to be refused.
-/

namespace Mainline.Krpc

/-! ### Reading in two steps -/

/-- What is in a message, once its transaction id and its kind are known. -/
def Envelope.body (envelope : Envelope) (expected : Bytes → Option Method) :
    Except DecodeError Body :=
  match envelope.kind with
  | .query => envelope.query.mapError .malformed
  | .error => envelope.error.mapError .malformed
  | .response =>
    match expected envelope.transaction with
    | none => .error .unsolicited
    | some method => (envelope.response method).mapError .malformed

/-- A datagram is read in two steps. -/
theorem Message.decode_eq_bind (data : Bytes) (expected : Bytes → Option Method) :
    Message.decode data expected = do
      let envelope ← (Envelope.decode data).mapError .malformed
      let body ← envelope.body expected
      return ⟨envelope.transaction, body⟩ := by
  rw [Message.decode]
  congr 1
  funext envelope
  rw [Envelope.body]
  cases envelope.kind with
  | query | error => rfl
  | response => cases expected envelope.transaction <;> rfl

/-! ### Reading with every access checked -/

/-- The peer in a value. -/
def unpackPeerChecked : Bencode.Value → Except (Stop Error) Address
  | .bytes s => Address.unpackChecked s
  | _ => .error (.fails (.malformed .peerNotBytes))

/-- The response of this method with the fields in a dictionary. -/
def Response.ofFieldsChecked (method : Method) (fields : Bencode.Value) :
    Except (Stop Error) Response := do
  let id ← checked (requireKey fields "id")
  match method with
  | .ping => return .ping id
  | .announcePeer => return .announcePeer id
  | .findNode =>
    let s ← checked (require fields "nodes" .bytes)
    return .findNode id (← Contact.unpackChecked s)
  | .getPeers =>
    let nodes ← (← checked (optional fields "nodes" .bytes)).mapM Contact.unpackChecked
    let values ← checked (optional fields "values" .list)
    let peers ← values.mapM fun values => values.mapM unpackPeerChecked
    let token ← checked (require fields "token" .bytes)
    return .getPeers id token nodes peers

/-- Reads transaction id and kind, at a cursor. -/
def Envelope.decodeChecked (fuel : ℕ) (data : Bytes) : Except (Stop Error) Envelope := do
  let content ← (Bencode.Cursor.decode data fuel).mapError
    (Stop.map fun e => .malformed (.bencode e))
  let transaction ← checked (require content "t" .bytes)
  let name ← checked (require content "y" .bytes)
  match Kind.ofName? name with
  | some kind => return ⟨transaction, kind, content⟩
  | none => .error (.fails (.malformed (.unknownKind name)))

/-- Reads what is in a message. -/
def Envelope.bodyChecked (envelope : Envelope) (expected : Bytes → Option Method) :
    Except (Stop Error) Body :=
  match envelope.kind with
  | .query => checked envelope.query
  | .error => checked envelope.error
  | .response =>
    match expected envelope.transaction with
    | none => .error (.fails .unsolicited)
    | some method => do
      let fields ← checked (require envelope.content "r" .dict)
      return .response (← Response.ofFieldsChecked method fields)

/-- Reads a datagram. -/
def Message.decodeChecked (fuel : ℕ) (data : Bytes) (expected : Bytes → Option Method) :
    Except (Stop Error) Message := do
  let envelope ← Envelope.decodeChecked fuel data
  let body ← envelope.bodyChecked expected
  return ⟨envelope.transaction, body⟩

/-! ### Nothing goes wrong -/

theorem checked_bind {α β : Type} (x : Except Malformed α) (f : α → Except Malformed β) :
    checked (x >>= f) = checked x >>= fun a => checked (f a) := by
  cases x <;> rfl

theorem checked_mapM {α β : Type} (f : α → Except Malformed β) (xs : List α) :
    checked (xs.mapM f) = xs.mapM fun a => checked (f a) := by
  induction xs with
  | nil => rfl
  | cons a xs ih =>
      simp only [List.mapM_cons, checked_bind, ih]
      rfl

theorem checked_option_mapM {α β : Type} (f : α → Except Malformed β) (x : Option α) :
    checked (x.mapM f) = x.mapM fun a => checked (f a) := by
  cases x with
  | none => rfl
  | some a =>
      simp only [Option.mapM_some]
      cases f a <;> rfl

theorem unpackPeerChecked_eq (v : Bencode.Value) :
    unpackPeerChecked v = checked (unpackPeer v) := by
  cases v with
  | bytes s => exact Address.unpackChecked_eq s
  | int n | list items | dict entries => rfl

theorem Response.ofFieldsChecked_eq (method : Method) (fields : Bencode.Value) :
    Response.ofFieldsChecked method fields = checked (Response.ofFields method fields) := by
  simp only [Response.ofFieldsChecked, Response.ofFields, checked_bind]
  congr 1
  funext id
  cases method with
  | ping | announcePeer => rfl
  | findNode =>
      simp only [checked_bind, ← Contact.unpackChecked_eq]
      rfl
  | getPeers =>
      simp only [checked_bind, checked_option_mapM, checked_mapM, ← unpackPeerChecked_eq,
        ← Contact.unpackChecked_eq]
      rfl

/-- What is refused is a failure of the checked computation. -/
def refused {α : Type} (x : Except DecodeError α) : Except (Stop Error) α :=
  x.mapError fun e => .fails (.ofDecodeError e)

theorem refused_malformed {α : Type} (x : Except Malformed α) :
    refused (x.mapError .malformed) = checked x := by
  cases x <;> rfl

theorem refused_bind {α β : Type} (x : Except DecodeError α) (f : α → Except DecodeError β) :
    refused (x >>= f) = refused x >>= fun a => refused (f a) := by
  cases x <;> rfl

/-- Transaction id and kind are read at a cursor as they are read. -/
theorem Envelope.decodeChecked_eq {data : Bytes} {fuel : ℕ} (hword : data.length < UInt64.size)
    (hfuel : data.length < fuel) :
    Envelope.decodeChecked fuel data = checked (Envelope.decode data) := by
  have hcursor : (Bencode.Cursor.decode data fuel).mapError
      (Stop.map fun e => Error.malformed (.bencode e)) =
      checked ((Bencode.decode data).mapError .bencode) := by
    rw [Bencode.Cursor.decode_eq hword hfuel]
    cases Bencode.decode data <;> rfl
  simp only [decodeChecked, hcursor, Envelope.decode, checked_bind]
  congr 1
  funext content
  congr 1
  funext transaction
  congr 1
  funext name
  cases Kind.ofName? name <;> rfl

/-- What is in a message is read by offsets as it is read. -/
theorem Envelope.bodyChecked_eq (envelope : Envelope) (expected : Bytes → Option Method) :
    envelope.bodyChecked expected = refused (envelope.body expected) := by
  rw [bodyChecked, body]
  cases envelope.kind with
  | query | error => exact (refused_malformed _).symm
  | response =>
      cases expected envelope.transaction with
      | none => rfl
      | some method =>
          simp only [refused_malformed, Envelope.response, checked_bind,
            Response.ofFieldsChecked_eq]
          rfl

/-- **A datagram is read at a cursor and by offsets as it is read**: nothing goes wrong but what its
reader says. -/
theorem Message.decodeChecked_eq {data : Bytes} {fuel : ℕ} (hword : data.length < UInt64.size)
    (hfuel : data.length < fuel) (expected : Bytes → Option Method) :
    Message.decodeChecked fuel data expected = refused (Message.decode data expected) := by
  simp only [decodeChecked, Envelope.decodeChecked_eq hword hfuel, Message.decode_eq_bind,
    refused_bind, refused_malformed, Envelope.bodyChecked_eq]
  rfl

/-! ### Responses that nobody asked for -/

/-- A byte string that is required has to stand in a dictionary. -/
theorem require_bytes_eq_ok_iff {v : Bencode.Value} {name : String} {s : Bytes} :
    require v name .bytes = .ok s ↔
      ∃ entries, v = .dict entries ∧ entries.lookup (ascii name) = some (.bytes s) := by
  rw [require, mapError_eq_ok_iff, Bencode.Value.require]
  cases v with
  | int n | bytes s | list items => simp [Bencode.Value.field]
  | dict entries =>
      rw [Bencode.Value.field]
      cases hlookup : entries.lookup (ascii name) with
      | none => simp [hlookup]
      | some value => cases value <;> simp [hlookup, Bencode.FieldType.bytes]

/-- Only one name stands for a response. -/
theorem Kind.ofName?_eq_response_iff {name : Bytes} :
    Kind.ofName? name = some .response ↔ name = ascii "r" := by
  have hne : ascii "r" ≠ ascii "q" := by decide
  rw [Kind.ofName?]
  constructor
  · intro h
    split at h
    · cases h
    split at h
    · assumption
    · split at h <;> cases h
  · rintro rfl
    rw [if_neg hne, if_pos rfl]

/-- What the envelope of a response is. -/
theorem Envelope.decode_eq_response_iff {data t : Bytes} {content : Bencode.Value} :
    Envelope.decode data = .ok ⟨t, .response, content⟩ ↔
      ∃ entries, Bencode.decode data = .ok content ∧ content = .dict entries ∧
        entries.lookup (ascii "t") = some (.bytes t) ∧
        entries.lookup (ascii "y") = some (.bytes (ascii "r")) := by
  simp only [Envelope.decode, bind_eq_ok_iff, mapError_eq_ok_iff, require_bytes_eq_ok_iff]
  constructor
  · rintro ⟨v, hdecode, t', ⟨entries, rfl, ht⟩, name, ⟨_, ⟨⟩, hy⟩, hkind⟩
    split at hkind
    · next kind hname =>
        rw [pure_eq_ok_iff] at hkind
        cases hkind
        obtain rfl := Kind.ofName?_eq_response_iff.mp hname
        exact ⟨entries, hdecode, rfl, ht, hy⟩
    · cases hkind
  · rintro ⟨entries, hdecode, rfl, ht, hy⟩
    refine ⟨_, hdecode, t, ⟨entries, rfl, ht⟩, ascii "r", ⟨entries, rfl, hy⟩, ?_⟩
    rw [Kind.ofName?_eq_response_iff.mpr rfl]
    rfl

/-- A datagram is unsolicited if what it holds is a response that nobody expects. -/
theorem Message.decode_eq_unsolicited_iff {data : Bytes} {expected : Bytes → Option Method} :
    Message.decode data expected = .error .unsolicited ↔
      ∃ envelope, Envelope.decode data = .ok envelope ∧ envelope.kind = .response ∧
        expected envelope.transaction = none := by
  have hmalformed : ∀ x : Except Malformed Body,
      x.mapError DecodeError.malformed ≠ .error .unsolicited := by
    rintro (cause | body) h <;> cases h
  have hbody : ∀ envelope : Envelope, envelope.body expected = .error .unsolicited ↔
      envelope.kind = .response ∧ expected envelope.transaction = none := by
    intro envelope
    rw [Envelope.body]
    cases envelope.kind with
    | query | error => simp [hmalformed]
    | response => cases expected envelope.transaction <;> simp [hmalformed]
  rw [Message.decode_eq_bind]
  cases Envelope.decode data with
  | error cause => simp [Except.mapError]
  | ok envelope =>
      simp only [Except.mapError, ok_bind, Except.ok.injEq, exists_eq_left', ← hbody]
      cases envelope.body expected <;> simp

/-- **A datagram is read, malformed or unsolicited**, and nothing else can come of it. A datagram
lies in memory, so its length is a machine word; reading it at a cursor and by offsets goes wrong
nowhere. It is unsolicited exactly if it is one dictionary with a byte string as its transaction id,
the kind of a response, and nothing expected under that id. A response that is read is one of the
method that is expected. -/
theorem datagrams_are_read_malformed_or_unsolicited (data : Bytes)
    (expected : Bytes → Option Method) :
    (data.length < UInt64.size → ∀ fuel, data.length < fuel →
      let outcome := Message.decodeChecked fuel data expected
      outcome = refused (Message.decode data expected) ∧
      ((∃ m, outcome = .ok m) ∨ (∃ cause, outcome = .error (.fails (.malformed cause))) ∨
        outcome = .error (.fails .unsolicited))) ∧
    (Message.decode data expected = .error .unsolicited ↔
      ∃ entries t, Bencode.decode data = .ok (.dict entries) ∧
        entries.lookup (ascii "t") = some (.bytes t) ∧
        entries.lookup (ascii "y") = some (.bytes (ascii "r")) ∧ expected t = none) ∧
    ∀ t response, Message.decode data expected = .ok ⟨t, .response response⟩ →
      expected t = some response.method := by
  refine ⟨fun hword fuel hfuel => ?_, ?_, fun t response h => (Message.ofFields_of_decode h).1⟩
  · rw [Message.decodeChecked_eq hword hfuel]
    refine ⟨rfl, ?_⟩
    rcases Message.decode data expected with (cause | -) | m
    · exact .inr (.inl ⟨cause, rfl⟩)
    · exact .inr (.inr rfl)
    · exact .inl ⟨m, rfl⟩
  · rw [Message.decode_eq_unsolicited_iff]
    constructor
    · rintro ⟨⟨t, kind, content⟩, hdecode, rfl, hexpected⟩
      obtain ⟨entries, hdata, rfl, ht, hy⟩ := Envelope.decode_eq_response_iff.mp hdecode
      exact ⟨entries, t, hdata, ht, hy, hexpected⟩
    · rintro ⟨entries, t, hdata, ht, hy, hexpected⟩
      have hdecode := Envelope.decode_eq_response_iff.mpr ⟨entries, hdata, rfl, ht, hy⟩
      exact ⟨⟨t, .response, .dict entries⟩, hdecode, rfl, hexpected⟩

/-- The same response, with a packed contact in it, to a node that has asked for it and to one that
has not. -/
theorem response_read_or_unsolicited :
    let response : Response := .findNode ⟨7⟩ [⟨⟨9⟩, .v4 ⟨10, 0, 0, 1⟩ 6881⟩]
    let m : Message := ⟨[0, 1], .response response⟩
    m.encode.length < UInt64.size ∧
      Message.decodeChecked 100 m.encode (fun _ => some .findNode) = .ok m ∧
      Message.decodeChecked 100 m.encode (fun _ => none) = .error (.fails .unsolicited) := by
  intro response m
  have hlength : m.encode.length < 100 := by decide +kernel
  have hword : m.encode.length < UInt64.size := hlength.trans (by decide)
  have hread : Message.decode m.encode (fun _ => some .findNode) = .ok m := by decide +kernel
  have hrefused : Message.decode m.encode (fun _ => none) = .error .unsolicited := by decide +kernel
  obtain ⟨asked, -⟩ := datagrams_are_read_malformed_or_unsolicited m.encode fun _ => some .findNode
  obtain ⟨unasked, -⟩ := datagrams_are_read_malformed_or_unsolicited m.encode fun _ => none
  refine ⟨hword, ?_, ?_⟩
  · rw [(asked hword 100 hlength).1, hread]
    rfl
  · rw [(unasked hword 100 hlength).1, hrefused]
    rfl

end Mainline.Krpc
