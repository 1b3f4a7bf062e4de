import Mainline.Error
import Mainline.Settings

/-!
# Queries that wait for answers

A node may have many queries under way at once. Each is sent under a transaction id that no other
waiting query has, and is entered in a table under that id. An answer is accepted if it comes from
the address that was asked and not after the deadline; it is then handed over to the query, whose
entry is removed. The query itself ends a little later, when its turn comes to look: with the
answer it was handed, with a timeout if the deadline has come, or with a shutdown if its entry has
gone without an answer.

A query that ends removes the entry under its transaction id.
-/

namespace Mainline

/-- How a query ends. -/
abbrev Reply := Except Error Krpc.Response

/-- The entry of a query that waits for its answer. -/
structure PendingQuery where
  /-- The number of the query. -/
  number : Nat
  method : Krpc.Method
  address : Address
  deadline : Instant

/-- A query that has not ended. -/
structure OpenQuery where
  /-- Queries are numbered in the order in which they are begun. -/
  number : Nat
  transaction : Bytes
  deadline : Instant
  /-- The answer that has been handed over. -/
  reply : Option Reply

/-- The queries of a node. -/
structure Transactions where
  /-- Has the node been shut down? -/
  closed : Bool
  /-- How many entries there may be. -/
  limit : Nat
  /-- How long a query waits. -/
  timeout : Duration
  /-- The entries by transaction id, in the order in which they were made. -/
  pending : List (Bytes × PendingQuery)
  /-- The queries that have not ended, in the order in which they were begun. -/
  openQueries : List OpenQuery
  /-- The number of the next query. -/
  next : Nat

namespace Transactions

/-- No queries, and none begun yet. -/
def create (settings : Settings) : Transactions where
  closed := false
  limit := settings.maxPending
  timeout := settings.queryTimeout
  pending := []
  openQueries := []
  next := 0

/-- The number of octets of a transaction id. -/
def idLength : Nat := 2

/-- Does a query wait under this transaction id? -/
def isPending (t : Transactions) (transaction : Bytes) : Bool :=
  t.pending.any (·.1 == transaction)

/-- The method that was called under a transaction id. -/
def method? (t : Transactions) (transaction : Bytes) : Option Krpc.Method :=
  (t.pending.lookup transaction).map (·.method)

/-- Draws transaction ids until one is free, at most `draws` times. -/
def drawId (t : Transactions) : (draws : Nat) → ByteStream → Option Bytes × ByteStream
  | 0, stream => (none, stream)
  | draws + 1, stream =>
    let (transaction, stream) := stream.take idLength
    if t.isPending transaction then t.drawId draws stream else (some transaction, stream)

/-- Begins a query: its number and the transaction id to send it under, the first free one that is
drawn. Nothing changes if the node has been shut down or too many queries wait already. As long as
all ids that have been drawn are taken, drawing goes on, and nothing has come of it yet. -/
def begin (t : Transactions) (now : Instant) (address : Address) (method : Krpc.Method)
    (draws : Nat) (stream : ByteStream) :
    Option (Except Error (Nat × Bytes)) × Transactions × ByteStream :=
  if t.closed then (some (.error .shutdown), t, stream)
  else if t.pending.length ≥ t.limit then (some (.error .rateLimited), t, stream)
  else
    match t.drawId draws stream with
    | (none, stream) => (none, t, stream)
    | (some transaction, stream) =>
      let deadline := now + t.timeout
      let entry : PendingQuery := ⟨t.next, method, address, deadline⟩
      (some (.ok (t.next, transaction)),
        { t with
          pending := t.pending ++ [(transaction, entry)]
          openQueries := t.openQueries ++ [⟨t.next, transaction, deadline, none⟩]
          next := t.next + 1 },
        stream)

/-- Hands a reply over to a query. -/
def handOver (t : Transactions) (number : Nat) (reply : Reply) : Transactions :=
  { t with
    openQueries := t.openQueries.map fun q =>
      if q.number = number then { q with reply := some reply } else q }

/-- Takes an answer that came from `source`. If a query to that address waits under the
transaction id and its deadline has not passed, the answer is handed over to it, and its number is
returned. -/
def complete (t : Transactions) (now : Instant) (source : Address) (transaction : Bytes)
    (reply : Reply) : Transactions × Option Nat :=
  match t.pending.lookup transaction with
  | none => (t, none)
  | some entry =>
    if entry.address = source ∧ now ≤ entry.deadline then
      let t := { t with pending := t.pending.filter (·.1 != transaction) }
      (t.handOver entry.number reply, some entry.number)
    else (t, none)

/-- Ends a query: removes it, and the entry under its transaction id. If that entry was made by
another query, that query is left without one; its number is returned. -/
def conclude (t : Transactions) (query : OpenQuery) : Transactions × Option Nat :=
  let orphan := (t.pending.lookup query.transaction).bind fun entry =>
    if entry.number = query.number then none else some entry.number
  ({ t with
      pending := t.pending.filter (·.1 != query.transaction)
      openQueries := t.openQueries.filter (·.number != query.number) },
    orphan)

/-- How a query ends if its turn comes at `now`; nothing if it has to go on waiting. -/
def verdict (t : Transactions) (now : Instant) (query : OpenQuery) : Option Reply :=
  match query.reply with
  | some reply => some reply
  | none =>
    if !t.pending.any (fun entry => entry.2.number == query.number) then some (.error .shutdown)
    else if query.deadline ≤ now then some (.error .timeout)
    else none

/-- Gives a query its turn: how it ends, if it does, and the query that this leaves without an
entry, if any. -/
def turn (t : Transactions) (now : Instant) (number : Nat) :
    Option Reply × Transactions × Option Nat :=
  match t.openQueries.find? (·.number == number) with
  | none => (none, t, none)
  | some query =>
    match t.verdict now query with
    | none => (none, t, none)
    | some reply =>
      let (t, orphan) := t.conclude query
      (some reply, t, orphan)

/-- Ends a query that nobody waits for any longer. -/
def abandon (t : Transactions) (number : Nat) : Transactions × Option Nat :=
  match t.openQueries.find? (·.number == number) with
  | none => (t, none)
  | some query => t.conclude query

/-- Shuts the node down: every query that waits is handed a shutdown. Returns their numbers. -/
def close (t : Transactions) : Transactions × List Nat :=
  if t.closed then (t, [])
  else
    let numbers := t.pending.map (·.2.number)
    let t := { t with closed := true, pending := [] }
    (numbers.foldl (fun t number => t.handOver number (.error .shutdown)) t, numbers)

end Transactions

end Mainline
