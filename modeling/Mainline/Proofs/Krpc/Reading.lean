import Mainline.Krpc.Decode
import Mainline.Proofs.Basic

/-!
# What reading a message depends on

A response is read by the method that was called under its transaction id. This module says in
what way a message depends on that: queries and errors not at all, responses through the method of
their own transaction id only, and a response that is read is one of that method.

## Main results

* `Envelope.decode_of_fields`, `Envelope.query_of_fields`, `Envelope.response_of_fields`,
  `Envelope.error_of_fields`: the fields that each part of a message is read from.
* `Message.decode_eq_ok_iff`: the ways in which a datagram is a message.
* `Message.decode_congr`: only the method expected under the message's own transaction id counts.
* `Message.ofFields_of_decode`: a response that is read is one of the expected method.
-/

namespace Mainline.Krpc

/-! ### The fields of a message -/

section Fields

variable {content : Bencode.Value} {transaction : Bytes} {kind : Kind}

/-- The fields that an envelope is read from. -/
theorem Envelope.decode_of_fields {data name : Bytes} (hdata : Bencode.decode data = .ok content)
    (htransaction : require content "t" .bytes = .ok transaction)
    (hname : require content "y" .bytes = .ok name) (hkind : Kind.ofName? name = some kind) :
    Envelope.decode data = .ok ⟨transaction, kind, content⟩ := by
  rw [Envelope.decode, hdata, Except.mapError, ok_bind, htransaction, ok_bind, hname, ok_bind, hkind]
  rfl

/-- The fields that a query is read from. -/
theorem Envelope.query_of_fields {args : Bencode.Value} {sender : Key} {query : Query}
    (hname : require content "q" .bytes = .ok (ascii query.method.name))
    (hargs : require content "a" .dict = .ok args) (hsender : requireKey args "id" = .ok sender)
    (hquery : Query.ofArguments query.method args = .ok query) :
    Envelope.query ⟨transaction, kind, content⟩ = .ok (.query sender query) := by
  rw [Envelope.query, hname, ok_bind]
  simp only [Method.ofName?_name]
  rw [hargs, ok_bind, hsender, ok_bind, hquery]
  rfl

/-- The field that a response is read from. -/
theorem Envelope.response_of_fields {fields : Bencode.Value} {method : Method} {r : Response}
    (hfields : require content "r" .dict = .ok fields)
    (hresponse : Response.ofFields method fields = .ok r) :
    Envelope.response ⟨transaction, kind, content⟩ method = .ok (.response r) := by
  rw [Envelope.response, hfields, ok_bind, hresponse]
  rfl

/-- The field that an error is read from. -/
theorem Envelope.error_of_fields {items : List Bencode.Value} {e : RemoteError}
    (hitems : require content "e" .list = .ok items) (herror : RemoteError.ofItems items = .ok e) :
    Envelope.error ⟨transaction, kind, content⟩ = .ok (.error e) := by
  rw [Envelope.error, hitems, ok_bind, herror]
  rfl

end Fields

/-! ### What a message is -/

/-- A query is read as a query. -/
theorem Envelope.query_of_query {envelope : Envelope} {body : Body}
    (h : envelope.query = .ok body) : ∃ sender query, body = .query sender query := by
  simp only [Envelope.query, bind_eq_ok_iff] at h
  obtain ⟨name, -, h⟩ := h
  split at h
  · simp [throw, throwThe, MonadExceptOf.throw] at h
  · simp only [bind_eq_ok_iff, pure_eq_ok_iff] at h
    obtain ⟨args, -, sender, -, query, -, rfl⟩ := h
    exact ⟨sender, query, rfl⟩

/-- A response is read as one of the method it is read by. -/
theorem Response.method_of_ofFields {method : Method} {fields : Bencode.Value} {r : Response}
    (h : Response.ofFields method fields = .ok r) : r.method = method := by
  simp only [Response.ofFields, bind_eq_ok_iff] at h
  obtain ⟨id, -, h⟩ := h
  cases method with
  | ping | announcePeer =>
      rw [pure_eq_ok_iff] at h
      exact h ▸ rfl
  | findNode =>
      simp only [bind_eq_ok_iff, pure_eq_ok_iff] at h
      obtain ⟨-, -, nodes, -, rfl⟩ := h
      rfl
  | getPeers =>
      simp only [bind_eq_ok_iff, pure_eq_ok_iff] at h
      obtain ⟨-, -, nodes, -, -, -, peers, -, token, -, rfl⟩ := h
      rfl

/-- The ways in which an envelope **holds** the content of a message. -/
inductive Envelope.Holds (envelope : Envelope) (expected : Bytes → Option Method) (body : Body) : Prop
  | query (hkind : envelope.kind = .query) (hread : envelope.query = .ok body)
  | error (hkind : envelope.kind = .error) (hread : envelope.error = .ok body)
  | response {method : Method} (hkind : envelope.kind = .response)
      (hexpected : expected envelope.transaction = some method)
      (hread : envelope.response method = .ok body)

/-- The ways in which a datagram is a message. -/
theorem Message.decode_eq_ok_iff {data : Bytes} {expected : Bytes → Option Method} {m : Message} :
    Message.decode data expected = .ok m ↔
      ∃ envelope, Envelope.decode data = .ok envelope ∧ envelope.transaction = m.transaction ∧
        envelope.Holds expected m.body := by
  obtain ⟨transaction, body⟩ := m
  rw [Message.decode, bind_eq_ok_iff]
  refine exists_congr fun envelope => ?_
  rw [mapError_eq_ok_iff]
  refine and_congr_right fun _ => ?_
  have hbody : ∀ x : Except Malformed Body,
      ((x.mapError DecodeError.malformed >>= fun b => pure ⟨envelope.transaction, b⟩) =
        Except.ok (Message.mk transaction body)) ↔
      envelope.transaction = transaction ∧ x = .ok body := by
    intro x
    simp only [bind_eq_ok_iff, mapError_eq_ok_iff, pure_eq_ok_iff, Message.mk.injEq]
    exact ⟨fun ⟨_, hx, ht, hb⟩ => ⟨ht, hb ▸ hx⟩, fun ⟨ht, hx⟩ => ⟨body, hx, ht, rfl⟩⟩
  cases hkind : envelope.kind with
  | query =>
      refine (hbody _).trans (and_congr_right fun _ => ⟨.query hkind, ?_⟩)
      rintro (⟨-, hread⟩ | ⟨hother, -⟩ | ⟨hother, -, -⟩)
      · exact hread
      · cases hkind.symm.trans hother
      · cases hkind.symm.trans hother
  | error =>
      refine (hbody _).trans (and_congr_right fun _ => ⟨.error hkind, ?_⟩)
      rintro (⟨hother, -⟩ | ⟨-, hread⟩ | ⟨hother, -, -⟩)
      · cases hkind.symm.trans hother
      · exact hread
      · cases hkind.symm.trans hother
  | response =>
      dsimp only
      cases hexpected : expected envelope.transaction with
      | none =>
          simp only [throw_bind, throw_ne_ok, false_iff, not_and]
          rintro - (⟨hother, -⟩ | ⟨hother, -⟩ | ⟨-, hmethod, -⟩)
          · cases hkind.symm.trans hother
          · cases hkind.symm.trans hother
          · cases hexpected.symm.trans hmethod
      | some method =>
          refine (hbody _).trans (and_congr_right fun _ => ⟨.response hkind hexpected, ?_⟩)
          rintro (⟨hother, -⟩ | ⟨hother, -⟩ | ⟨-, hmethod, hread⟩)
          · cases hkind.symm.trans hother
          · cases hkind.symm.trans hother
          · cases hexpected.symm.trans hmethod
            exact hread

/-- **Only the method expected under the message's own transaction id counts.** -/
theorem Message.decode_congr {data : Bytes} {f g : Bytes → Option Method} {m : Message}
    (hfg : f m.transaction = g m.transaction) (h : Message.decode data f = .ok m) :
    Message.decode data g = .ok m := by
  obtain ⟨envelope, hdecode, ht, holds⟩ := Message.decode_eq_ok_iff.mp h
  refine Message.decode_eq_ok_iff.mpr ⟨envelope, hdecode, ht, ?_⟩
  obtain ⟨hkind, hread⟩ | ⟨hkind, hread⟩ | ⟨hkind, hexpected, hread⟩ := holds
  · exact .query hkind hread
  · exact .error hkind hread
  · rw [ht, hfg, ← ht] at hexpected
    exact .response hkind hexpected hread

/-- A response is read from fields, by the method expected under its transaction id. -/
theorem Message.ofFields_of_decode {data : Bytes} {expected : Bytes → Option Method}
    {transaction : Bytes} {r : Response}
    (h : Message.decode data expected = .ok ⟨transaction, .response r⟩) :
    expected transaction = some r.method ∧ ∃ fields, Response.ofFields r.method fields = .ok r := by
  obtain ⟨envelope, -, rfl, holds⟩ := Message.decode_eq_ok_iff.mp h
  cases holds with
  | query hkind hread =>
      obtain ⟨sender, query, ⟨⟩⟩ := Envelope.query_of_query hread
  | error hkind hread =>
      simp only [Envelope.error, bind_eq_ok_iff, pure_eq_ok_iff] at hread
      obtain ⟨-, -, -, -, ⟨⟩⟩ := hread
  | response hkind hexpected hread =>
      simp only [Envelope.response, bind_eq_ok_iff, pure_eq_ok_iff, Body.response.injEq] at hread
      obtain ⟨fields, -, r', hr, rfl⟩ := hread
      obtain rfl := Response.method_of_ofFields hr
      exact ⟨hexpected, fields, hr⟩

end Mainline.Krpc
