import Mathlib.Data.List.Perm.Subperm
import Mainline.Proofs.Lookup.Findings
import Mainline.Request

/-!
# Whom an announcement goes to

A node announces itself as a peer of a torrent to those nodes that it looks up nearest to the
torrent. Each of them accepts the announcement only together with a token that it has issued itself,
to this host and not long ago. The lookup keeps the tokens by contact and the nearest contacts by
distance, and contacts may answer under ids of others, at several addresses and with several tokens;
so it is to be shown that the two fit together.

An announcement is a lookup with one more exchange behind it, as the courses of one activity after
the other are courses of both (`Activity.course_bind_iff`).

## Main results

* `course_announce_iff`: the courses of an announcement.
* `TorrentReport.mem_recipients_iff`: who is announced to, with which token.
* `announces_with_last_token`: both, for whatever the network does.
-/

namespace Mainline

/-! ### Courses of requests -/

section Courses

variable {m : Moment} {exchanges : List Exchange}

theorem course_withResult_iff {x : Activity Result} {ending : Ending Result} :
    Activity.Course m (Request.withResult x) exchanges ending ↔
      ∃ r, ending = .result r ∧ Activity.Course m x exchanges r := by
  rw [Request.withResult, Activity.course_bind_iff]
  constructor
  · rintro ⟨first, rest, r, between, rfl, course, ended⟩
    obtain ⟨rfl, rfl⟩ := Activity.course_done_iff.mp ended
    rw [List.append_nil]
    exact ⟨r, rfl, Activity.course_iff_exists_courseTo.mpr ⟨between, course⟩⟩
  · rintro ⟨r, rfl, course⟩
    obtain ⟨between, course⟩ := Activity.course_iff_exists_courseTo.mp course
    exact ⟨exchanges, [], r, between, (List.append_nil _).symm, course, .ended rfl⟩

/-- A node that has been shut down does nothing. -/
theorem course_unlessClosed_iff {x : Activity Result} {r : Result} :
    Activity.Course m (unlessClosed x) exchanges r ↔
      if m.node.isClosed then exchanges = [] ∧ r = .failed .shutdown
      else Activity.Course m x exchanges r := by
  refine Activity.course_look_iff.trans ?_
  change Activity.Course m (if m.node.isClosed then .done _ else x) exchanges r ↔ _
  cases m.node.isClosed with
  | true => exact Activity.course_done_iff
  | false => exact Iff.rfl

/-- Reporting what a lookup has found changes nothing of its courses. -/
theorem courseTo_lookupPeers_iff {infoHash : Key} {final : Moment}
    {result : Search × TorrentFindings} :
    Activity.CourseTo m (Upkeep.lookupPeers infoHash) exchanges final result ↔
      Activity.CourseTo m (Lookup.peers infoHash infoHash .table) exchanges final result := by
  rw [Upkeep.lookupPeers, Activity.courseTo_bind_iff]
  have hreported : ∀ {between : Moment} {rest : List Exchange} {found : Search × TorrentFindings},
      Activity.CourseTo between (do
          if !found.2.peers.isEmpty then Activity.reportPeers infoHash found.2.peers
          return found) rest final result ↔ rest = [] ∧ final = between ∧ result = found := by
    intro between rest found
    split
    · exact Activity.courseTo_report_iff.trans Activity.courseTo_done_iff
    · exact Activity.courseTo_done_iff
  constructor
  · rintro ⟨first, rest, found, between, rfl, course, ended⟩
    obtain ⟨rfl, rfl, rfl⟩ := hreported.mp ended
    rwa [List.append_nil]
  · intro course
    exact ⟨exchanges, [], result, final, (List.append_nil _).symm, course,
      hreported.mpr ⟨rfl, rfl, rfl⟩⟩

/-- A lookup, and an exchange of announcements, of which those that are answered are counted. -/
theorem course_announcing_iff {infoHash : Key} {port : UInt16} {r : Result} :
    Activity.Course m (Request.announcing infoHash port) exchanges r ↔
      ∃ lookup last result, exchanges = lookup ++ [last] ∧
        Activity.Course m (Lookup.peers infoHash infoHash .table) lookup result ∧
        last.queries = (result.1.report result.2).announcements infoHash port ∧
        r = .count (last.replies.countP (·.isOk)) := by
  have hcount : ∀ (accepts : Reply → Bool) (replies : List Reply),
      (∀ reply, accepts reply = reply.isOk) →
      (replies.filter accepts).length = replies.countP (·.isOk) := by
    intro accepts replies heq
    rw [List.countP_eq_length_filter, funext heq]
  simp only [Request.announcing, Activity.course_bind_iff, courseTo_lookupPeers_iff]
  constructor
  · rintro ⟨lookup, _, result, between, rfl, course, _, _, replies, _, rfl, asked, ended⟩
    obtain ⟨exchange, later, rest, rfl, sent, replied⟩ := Activity.courseTo_ask_iff.mp asked
    obtain ⟨rfl, rfl, rfl⟩ := Activity.courseTo_done_iff.mp replied
    obtain ⟨rfl, rfl⟩ := Activity.course_done_iff.mp ended
    exact ⟨lookup, exchange, result, rfl,
      Activity.course_iff_exists_courseTo.mpr ⟨between, course⟩, sent,
      congrArg Result.count (hcount _ _ fun reply => by cases reply <;> rfl)⟩
  · rintro ⟨lookup, last, result, rfl, course, sent, rfl⟩
    obtain ⟨between, course⟩ := Activity.course_iff_exists_courseTo.mp course
    have asked : Activity.CourseTo between
        (Activity.askAll ((result.1.report result.2).announcements infoHash port)) [last] between
        last.replies :=
      Activity.courseTo_ask_iff.mpr ⟨last, between, [], rfl, sent, .ended rfl⟩
    refine ⟨lookup, [last], result, between, rfl, course, [last], [], last.replies, between, rfl,
      asked, ?_⟩
    refine Activity.course_done_iff.mpr ⟨rfl, congrArg Result.count (Eq.symm ?_)⟩
    exact hcount _ _ fun reply => by cases reply <;> rfl

/-- **The courses of an announcement**, which does nothing at all if the node has been shut down. -/
theorem course_announce_iff {infoHash : Key} {port : UInt16} {ending : Ending Result} :
    Activity.Course m (Request.announce infoHash port).activity exchanges ending ↔
      if m.node.isClosed then exchanges = [] ∧ ending = .result (.failed .shutdown)
      else ∃ lookup last result, exchanges = lookup ++ [last] ∧
        Activity.Course m (Lookup.peers infoHash infoHash .table) lookup result ∧
        last.queries = (result.1.report result.2).announcements infoHash port ∧
        ending = .result (.count (last.replies.countP (·.isOk))) := by
  refine course_withResult_iff.trans ?_
  simp only [course_unlessClosed_iff, course_announcing_iff]
  split
  · constructor
    · rintro ⟨_, rfl, rfl, rfl⟩
      exact ⟨rfl, rfl⟩
    · rintro ⟨rfl, rfl⟩
      exact ⟨_, rfl, rfl, rfl⟩
  · constructor
    · rintro ⟨_, rfl, lookup, last, result, rfl, course, sent, rfl⟩
      exact ⟨lookup, last, result, rfl, course, sent, rfl⟩
    · rintro ⟨lookup, last, result, rfl, course, sent, rfl⟩
      exact ⟨_, rfl, lookup, last, result, rfl, course, sent, rfl⟩

end Courses

/-! ### Who is announced to -/

namespace TorrentReport

variable {report : TorrentReport}

/-- Who is announced to: those that are nearest and have given a token, each with the token. -/
def recipients (report : TorrentReport) : List (Contact × Bytes) :=
  report.tokens.filter fun (contact, _) => report.closest.contains contact

theorem mem_recipients_iff (h : (report.tokens.map Prod.fst).Nodup) {contact : Contact}
    {token : Bytes} :
    (contact, token) ∈ report.recipients ↔
      contact ∈ report.closest ∧ report.tokens.lookup contact = some token := by
  rw [recipients, List.mem_filter, List.contains_iff_mem, lookup_eq_some_iff_mem h, and_comm]

/-- Nobody is announced to twice. -/
theorem nodup_recipients (h : (report.tokens.map Prod.fst).Nodup) :
    (report.recipients.map Prod.fst).Nodup :=
  h.sublist (List.filter_sublist.map Prod.fst)

/-- There are no more announcements than nearest contacts. -/
theorem length_recipients_le (h : (report.tokens.map Prod.fst).Nodup) :
    report.recipients.length ≤ report.closest.length := by
  have hsubset : report.recipients.map Prod.fst ⊆ report.closest := by
    intro contact hmem
    obtain ⟨⟨_, token⟩, hrecipient, rfl⟩ := List.mem_map.mp hmem
    exact ((mem_recipients_iff h).mp hrecipient).1
  have hle := ((nodup_recipients h).subperm hsubset).length_le
  rwa [List.length_map] at hle

end TorrentReport

namespace Lookup

/-- No empty token is kept. -/
theorem ne_nil_of_mem_tokensFrom {contact : Contact} {responses : List (Contact × Krpc.Response)}
    {token : Bytes} (h : token ∈ tokensFrom contact responses) : token ≠ [] := by
  obtain ⟨p, -, hissued⟩ := List.mem_filterMap.mp h
  split at hissued
  · cases hresponse : p.2 with
    | ping id | findNode id nodes | announcePeer id =>
        rw [hresponse] at hissued
        cases hissued
    | getPeers id issued nodes peers =>
        rw [hresponse, Krpc.Response.issuedToken?] at hissued
        split at hissued
        · cases hissued
        · next hne =>
            cases hissued
            rintro rfl
            exact hne rfl
  · cases hissued

/-- **An announcement goes to the nearest contacts that issue a token, each with the last one it has
issued.** Whatever the replies are, an announcement comes to an end. A node that has been shut down
announces nothing; otherwise the announcement begins with a lookup of the torrent, which asks for
peers only, and ends with one more exchange. There, in whatever course,

* each recipient gets one announcement, at its own address, with its own token;
* the recipients are those of the nearest contacts of the lookup that have issued a token, which is
  not empty, under their id and from their address, and the token is the last of these;
* there are as many as a bucket of the routing table holds at most, and all nearest contacts have
  given a response that the lookup accepts;
* and the result is the number of announcements that had a response. -/
theorem announces_with_last_token (infoHash : Key) (port : UInt16) (m : Moment) :
    let activity := (Request.announce infoHash port).activity
    (∀ answers : List Exchange → List (Address × Krpc.Query) → List Reply,
      (∀ before queries, (answers before queries).length = queries.length) →
      ∃ exchanges ending, Activity.Course m activity exchanges ending ∧
        ∀ before e after, exchanges = before ++ e :: after →
          e.replies = answers before e.queries) ∧
    ∀ exchanges ending, Activity.Course m activity exchanges ending →
      if m.node.isClosed then exchanges = [] ∧ ending = .result (.failed .shutdown)
      else ∃ lookup last search found, ∃ recipients : List (Contact × Bytes),
        exchanges = lookup ++ [last] ∧
        Activity.Course m (peers infoHash infoHash .table) lookup (search, found) ∧
        (∀ e ∈ lookup, ∀ q ∈ e.queries, q.2 = .getPeers infoHash) ∧
        last.queries = (recipients.map fun (contact, token) =>
          (contact.address, .announcePeer infoHash port token false)) ∧
        (recipients.map Prod.fst).Nodup ∧
        (∀ contact token, (contact, token) ∈ recipients ↔ contact ∈ search.closest ∧
          (tokensFrom contact (accepted m.node.localId lookup)).getLast? = some token) ∧
        (∀ p ∈ recipients, p.2 ≠ []) ∧
        recipients.length ≤ max 1 m.node.table.capacity ∧
        (∀ contact ∈ search.closest, ∃ response,
          (contact, response) ∈ accepted m.node.localId lookup) ∧
        ending = .result (.count (last.replies.countP (·.isOk))) := by
  intro activity
  refine ⟨fun answers hlength => activity.exists_course_of_answers m answers hlength, ?_⟩
  intro exchanges ending course
  have hcourse := course_announce_iff.mp course
  split
  · next closed => rwa [if_pos closed] at hcourse
  · next opened =>
      rw [if_neg opened] at hcourse
      obtain ⟨lookup, last, ⟨search, found⟩, rfl, looked, sent, rfl⟩ := hcourse
      have hfindings := findings_of_course looked
      have hmem : ∀ contact token, (contact, token) ∈ (search.report found).recipients ↔
          contact ∈ search.closest ∧
            (tokensFrom contact (accepted m.node.localId lookup)).getLast? = some token := by
        intro contact token
        rw [TorrentReport.mem_recipients_iff hfindings.nodup, ← hfindings.lookup_eq]
        rfl
      have hwanted : search.closest.length ≤ max 1 m.node.table.capacity := by
        rw [← wanted_of_course looked]
        exact List.length_take_le _ _
      refine ⟨lookup, last, search, found, (search.report found).recipients, rfl, looked,
        fun e he => query_eq_of_course looked he, sent, ?_, hmem, ?_, ?_, ?_, rfl⟩
      · exact TorrentReport.nodup_recipients hfindings.nodup
      · rintro ⟨contact, token⟩ hp
        exact ne_nil_of_mem_tokensFrom (List.mem_of_getLast? ((hmem contact token).mp hp).2)
      · exact (TorrentReport.length_recipients_le hfindings.nodup).trans hwanted
      · exact fun contact hc => exists_accepted_of_mem_closest looked hc

/-- One contact is wanted. The one in the routing table gives a token and tells of a nearer one,
which answers under another id than it is known by, with a token too: it alone is announced to. -/
theorem announces_to_nearest_responder :
    let key (n : ℕ) : Key := ⟨BitVec.ofNat 160 n⟩
    let contact (n : ℕ) : Contact := ⟨key n, .v4 ⟨10, 0, 0, UInt8.ofNat n⟩ 6881⟩
    let node := (Node.create (key 0) (.v4 ⟨10, 0, 0, 9⟩ 6881)
      { bucketCapacity := 1, maxRounds := 2 } 0 ⟨[], 2⟩).1
    let known := { node with table := (node.table.observe 0 (.active (contact 1) 0)).1 }
    let m : Moment := ⟨known, 0, ⟨[], 3⟩⟩
    let query := Krpc.Query.getPeers (key 7)
    let lookup : List Exchange :=
      [⟨[((contact 1).address, query)],
          [.ok (.getPeers (key 1) [1] (some [contact 4]) none)], rfl⟩,
        ⟨[((contact 4).address, query)], [.ok (.getPeers (key 5) [2] none none)], rfl⟩]
    let last : Exchange :=
      ⟨[((contact 4).address, .announcePeer (key 7) 7000 [2] false)],
        [.ok (.announcePeer (key 5))], rfl⟩
    Activity.Course m (Request.announce (key 7) 7000).activity (lookup ++ [last])
        (.result (.count 1)) ∧
      ∃ search found, ∃ recipients : List (Contact × Bytes),
        Activity.Course m (peers (key 7) (key 7) .table) lookup (search, found) ∧
        last.queries = (recipients.map fun (contact, token) =>
          (contact.address, .announcePeer (key 7) 7000 token false)) ∧
        recipients.length ≤ max 1 m.node.table.capacity := by
  intro key contact node known m query lookup last
  have hcourse : ∃ result,
      Activity.Course m (run (.getPeers (key 7)) 2 (beginning known (key 7) .table, ⟨[], []⟩))
        lookup result ∧
      last.queries = (result.1.report result.2).announcements (key 7) 7000 := by
    refine ⟨_, course_run_of_round m ?_ ?_ ?_ ?_ <|
      course_run_of_round m ?_ ?_ ?_ ?_ (course_run_zero _), ?_⟩
    all_goals decide +kernel
  obtain ⟨result, looked, sent⟩ := hcourse
  have looked : Activity.Course m (peers (key 7) (key 7) .table) lookup result :=
    Activity.course_look_iff.mpr looked
  have opened : m.node.isClosed = false := by decide +kernel
  have course : Activity.Course m (Request.announce (key 7) 7000).activity (lookup ++ [last])
      (.result (.count 1)) := by
    rw [course_announce_iff, opened]
    exact ⟨lookup, last, result, rfl, looked, sent, rfl⟩
  have law := (announces_with_last_token (key 7) 7000 m).2 _ _ course
  rw [opened] at law
  obtain ⟨lookup', last', search, found, recipients, heq, looked', -, sent', -, -, -, hle, -⟩ := law
  obtain ⟨rfl, hlast⟩ := List.append_inj' heq rfl
  obtain rfl := List.singleton_inj.mp hlast
  exact ⟨course, search, found, recipients, looked', sent', hle⟩

end Lookup

end Mainline
