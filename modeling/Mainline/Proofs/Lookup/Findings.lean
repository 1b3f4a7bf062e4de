import Mathlib.Data.List.Induction
import Mainline.Proofs.Basic
import Mainline.Proofs.Lookup.Asking
import Mainline.Proofs.Lookup.Hearing

/-!
# What a lookup gathers

A lookup for the peers of a torrent gathers peers and tokens over all its rounds. Peers are named
again and again, by others and by the same; contacts answer under other ids than they were asked
under, several times, without a token, or under the searcher's own id, which does not count. This
module says what has been gathered in the end by the list of the responses that were *accepted*,
in the order in which they were taken.

What a response adds is proved once for a single one (`Findings.concat`) and then for all of them,
in the form of `Findings`. Which responses these are is first read off the rounds and then off the
queries and replies themselves.

## Main results

* `gathered_afterAll`: what a lookup gathers is gathered from the responses that it accepts.
* `findings_gathered`: what is gathered about a torrent.
* `findings_of_course`: what a lookup for peers has found in the end.
* `peers_and_tokens_of_accepted`: both, for every course of a lookup.
-/

namespace Mainline

/-! ### Responses -/

/-- The peers that a response names. -/
def Krpc.Response.namedPeers : Krpc.Response → List Address
  | .getPeers _ _ _ peers => peers.getD []
  | _ => []

/-- The token that a response issues. An empty one is as good as none. -/
def Krpc.Response.issuedToken? : Krpc.Response → Option Bytes
  | .getPeers _ token _ _ => if token.isEmpty then none else some token
  | _ => none

namespace Lookup

/-- A response as it is **accepted**, with the contact that it comes from; nothing if there is none,
or if it carries the searcher's own id. -/
def accepted? (localId : Key) (address : Address) : Reply → Option (Contact × Krpc.Response)
  | .ok response =>
    if response.id = localId then none else some (⟨response.id, address⟩, response)
  | .error _ => none

/-- The responses that a lookup accepts, query by query. -/
def accepted (localId : Key) (exchanges : List Exchange) : List (Contact × Krpc.Response) :=
  exchanges.flatMap fun e =>
    (e.queries.zip e.replies).filterMap fun p => accepted? localId p.1.1 p.2

/-- The peers that responses name. -/
def named (responses : List (Contact × Krpc.Response)) : List Address :=
  responses.flatMap fun p => p.2.namedPeers

/-- The tokens that a contact has issued. -/
def tokensFrom (contact : Contact) (responses : List (Contact × Krpc.Response)) : List Bytes :=
  responses.filterMap fun p => if p.1 = contact then p.2.issuedToken? else none

/-! ### What responses tell about a torrent -/

/-- The elements of a list, each once, in the order in which they **first appear**. -/
structure FirstAppearances {α : Type} [DecidableEq α] (all once : List α) : Prop where
  mem_iff : ∀ a, a ∈ once ↔ a ∈ all
  inOrder : once.Pairwise fun a b => all.idxOf a < all.idxOf b

theorem FirstAppearances.nodup {α : Type} [DecidableEq α] {all once : List α}
    (h : FirstAppearances all once) : once.Nodup :=
  h.inOrder.imp fun hlt heq => absurd (heq ▸ hlt) (Nat.lt_irrefl _)

/-- An element that comes last is new, or has appeared already. -/
theorem FirstAppearances.concat {α : Type} [DecidableEq α] {all once : List α}
    (h : FirstAppearances all once) (a : α) :
    FirstAppearances (all ++ [a]) (if a ∈ once then once else once ++ [a]) := by
  have hold : ∀ b ∈ once, (all ++ [a]).idxOf b = all.idxOf b :=
    fun b hb => List.idxOf_append_of_mem ((h.mem_iff b).mp hb)
  have hinOrder : once.Pairwise fun b c => (all ++ [a]).idxOf b < (all ++ [a]).idxOf c := by
    refine List.Pairwise.imp_of_mem (fun hb hc hlt => ?_) h.inOrder
    rwa [hold _ hb, hold _ hc]
  split
  · next hmem =>
      refine ⟨fun b => ?_, hinOrder⟩
      rw [h.mem_iff, List.mem_append, List.mem_singleton]
      refine (or_iff_left_of_imp ?_).symm
      rintro rfl
      exact (h.mem_iff b).mp hmem
  · next hnew =>
      rw [h.mem_iff] at hnew
      refine ⟨fun b => ?_, List.pairwise_append.mpr ⟨hinOrder, List.pairwise_singleton _ _, ?_⟩⟩
      · rw [List.mem_append, List.mem_append, h.mem_iff]
      · intro b hb c hc
        rw [List.mem_singleton.mp hc, hold b hb, List.idxOf_append_of_notMem hnew]
        exact Nat.lt_add_right _ (List.idxOf_lt_length_of_mem ((h.mem_iff b).mp hb))

/-- **What the responses tell** has been found: the peers they name, each once, in the order in
which they first appear, and the token that each contact has issued last. -/
structure Findings (responses : List (Contact × Krpc.Response)) (f : TorrentFindings) : Prop where
  peers : FirstAppearances (named responses) f.peers
  nodup : (f.tokens.map Prod.fst).Nodup
  lookup_eq : ∀ contact, f.tokens.lookup contact = (tokensFrom contact responses).getLast?

end Lookup

namespace TorrentFindings

/-- Noting peers leaves the tokens alone. -/
theorem tokens_addPeers (f : TorrentFindings) (peers : List Address) :
    (peers.foldl addPeer f).tokens = f.tokens := by
  induction peers generalizing f with
  | nil => rfl
  | cons peer peers ih =>
      rw [List.foldl_cons, ih, addPeer]
      split <;> rfl

/-- Peers that are noted are found in the order in which they first appear. -/
theorem peers_addPeers {f : TorrentFindings} {all : List Address}
    (h : Lookup.FirstAppearances all f.peers) (peers : List Address) :
    Lookup.FirstAppearances (all ++ peers) (peers.foldl addPeer f).peers := by
  induction peers generalizing f all with
  | nil => rwa [List.append_nil]
  | cons peer peers ih =>
      rw [← List.singleton_append, ← List.append_assoc]
      refine ih (f := f.addPeer peer) ?_
      have hpeers : (f.addPeer peer).peers =
          if peer ∈ f.peers then f.peers else f.peers ++ [peer] := by
        rw [addPeer]
        simp only [List.contains_iff_mem]
        split <;> rfl
      rw [hpeers]
      exact h.concat peer

/-- What stands under a contact that is noted already is replaced. -/
theorem addToken_eq (f : TorrentFindings) (contact : Contact) (token : Bytes) :
    (f.addToken contact token).tokens =
      if contact ∈ f.tokens.map Prod.fst then
        f.tokens.map fun entry => if entry.1 = contact then (entry.1, token) else entry
      else f.tokens ++ [(contact, token)] := by
  have hany : f.tokens.any (·.1 == contact) = true ↔ contact ∈ f.tokens.map Prod.fst := by
    simp
  have hmap : (fun entry : Contact × Bytes =>
      if entry.1 = contact then (contact, token) else entry) =
      fun entry => if entry.1 = contact then (entry.1, token) else entry := by
    funext entry
    split
    · next heq => rw [heq]
    · rfl
  rw [addToken, hmap]
  simp only [hany]
  split <;> rfl

/-- Noting a token changes what stands under its contact. -/
theorem lookup_addToken (f : TorrentFindings) (contact contact' : Contact) (token : Bytes) :
    (f.addToken contact token).tokens.lookup contact' =
      if contact' = contact then some token else f.tokens.lookup contact' := by
  rw [addToken_eq]
  split
  · next hmem =>
      rw [lookup_map_ite]
      split
      · next heq =>
          subst heq
          cases hlookup : f.tokens.lookup contact' with
          | some old => rfl
          | none =>
              obtain ⟨entry, hentry, heq⟩ := List.mem_map.mp hmem
              have hne := List.lookup_eq_none_iff.mp hlookup entry hentry
              rw [heq, bne_self_eq_false] at hne
              cases hne
      · exact Option.map_id'
  · next hnew =>
      rw [List.lookup_append, lookup_cons_eq_ite, List.lookup_nil]
      split
      · next heq => rw [heq, lookup_eq_none_of_notMem hnew, Option.none_or]
      · rw [Option.or_none]

/-- No contact is noted twice. -/
theorem nodup_addToken {f : TorrentFindings} (h : (f.tokens.map Prod.fst).Nodup)
    (contact : Contact) (token : Bytes) :
    ((f.addToken contact token).tokens.map Prod.fst).Nodup := by
  rw [addToken_eq]
  split
  · have hkeys : (Prod.fst ∘ fun entry : Contact × Bytes =>
        if entry.1 = contact then (entry.1, token) else entry) = Prod.fst := by
      funext entry
      rw [Function.comp_apply]
      split <;> rfl
    rwa [List.map_map, hkeys]
  · next hnew =>
      rw [List.map_append, List.map_singleton, ← List.concat_eq_append]
      exact List.Nodup.concat hnew h

/-- Notes the token that a contact issued, if it issued one. -/
def noteToken (f : TorrentFindings) (contact : Contact) : Option Bytes → TorrentFindings
  | none => f
  | some token => f.addToken contact token

theorem peers_noteToken (f : TorrentFindings) (contact : Contact) (issued : Option Bytes) :
    (f.noteToken contact issued).peers = f.peers := by
  cases issued with
  | none => rfl
  | some token =>
      rw [noteToken, addToken]
      split <;> rfl

theorem lookup_noteToken (f : TorrentFindings) (contact contact' : Contact)
    (issued : Option Bytes) :
    (f.noteToken contact issued).tokens.lookup contact' =
      (if contact' = contact then issued else none).or (f.tokens.lookup contact') := by
  cases issued with
  | none => rw [ite_self, Option.none_or, noteToken]
  | some token =>
      rw [noteToken, lookup_addToken]
      split <;> rfl

theorem nodup_noteToken {f : TorrentFindings} (h : (f.tokens.map Prod.fst).Nodup)
    (contact : Contact) (issued : Option Bytes) :
    ((f.noteToken contact issued).tokens.map Prod.fst).Nodup := by
  cases issued with
  | none => exact h
  | some token => exact nodup_addToken h contact token

/-- **What is gathered of a response**: the token that it issues, and then the peers that it
names. -/
theorem gather_eq (infoHash : Key) (f : TorrentFindings) (contact : Contact)
    (response : Krpc.Response) :
    (Purpose.getPeers infoHash).gather f contact response =
      response.namedPeers.foldl addPeer (f.noteToken contact response.issuedToken?) := by
  cases response with
  | ping id | findNode id nodes | announcePeer id => rfl
  | getPeers id token nodes peers =>
      rw [Krpc.Response.issuedToken?]
      dsimp only [Purpose.getPeers]
      split <;> rfl

end TorrentFindings

namespace Lookup

/-- Nothing has been told. -/
theorem findings_nil : Findings [] ⟨[], []⟩ :=
  ⟨⟨fun _ => Iff.rfl, .nil⟩, List.nodup_nil, fun _ => rfl⟩

/-- The last token of a contact is that of the last response, if this is the contact's and issues
one. -/
theorem getLast?_tokensFrom_concat (responses : List (Contact × Krpc.Response))
    (contact contact' : Contact) (response : Krpc.Response) :
    (tokensFrom contact' (responses ++ [(contact, response)])).getLast? =
      (if contact' = contact then response.issuedToken? else none).or
        (tokensFrom contact' responses).getLast? := by
  have hlast : (tokensFrom contact' [(contact, response)]).getLast? =
      if contact' = contact then response.issuedToken? else none := by
    rw [tokensFrom, List.filterMap_cons]
    by_cases heq : contact = contact'
    · rw [if_pos heq, if_pos heq.symm]
      cases response.issuedToken? <;> rfl
    · rw [if_neg heq, if_neg (Ne.symm heq)]
      rfl
  rw [← hlast, ← List.getLast?_append, tokensFrom, tokensFrom, tokensFrom, List.filterMap_append]

/-- **What one more response adds.** -/
theorem Findings.concat {responses : List (Contact × Krpc.Response)} {f : TorrentFindings}
    (h : Findings responses f) (infoHash : Key) (contact : Contact) (response : Krpc.Response) :
    Findings (responses ++ [(contact, response)])
      ((Purpose.getPeers infoHash).gather f contact response) := by
  have hnamed : named (responses ++ [(contact, response)]) =
      named responses ++ response.namedPeers := by
    rw [named, List.flatMap_append, List.flatMap_singleton]
    rfl
  rw [TorrentFindings.gather_eq]
  refine ⟨?_, ?_, fun contact' => ?_⟩
  · rw [hnamed]
    refine TorrentFindings.peers_addPeers ?_ _
    rw [TorrentFindings.peers_noteToken]
    exact h.peers
  · rw [TorrentFindings.tokens_addPeers]
    exact TorrentFindings.nodup_noteToken h.nodup contact _
  · rw [TorrentFindings.tokens_addPeers, TorrentFindings.lookup_noteToken,
      getLast?_tokensFrom_concat, h.lookup_eq]

/-- What is gathered from responses, one after the other. -/
def gathered {σ : Type} (purpose : Purpose σ) (nothing : σ)
    (responses : List (Contact × Krpc.Response)) : σ :=
  responses.foldl (fun found p => purpose.gather found p.1 p.2) nothing

/-- **What is gathered about a torrent** is what the responses tell. -/
theorem findings_gathered (infoHash : Key) (responses : List (Contact × Krpc.Response)) :
    Findings responses (gathered (.getPeers infoHash) ⟨[], []⟩ responses) := by
  induction responses using List.reverseRecOn with
  | nil => exact findings_nil
  | append_singleton responses last ih =>
      rw [gathered, List.foldl_append]
      exact ih.concat infoHash last.1 last.2

/-! ### Which responses these are -/

section Rounds

variable {σ : Type} {purpose : Purpose σ}

/-- The responses that are accepted of replies. -/
def acceptedOf (localId : Key) (replies : List (Contact × Reply)) :
    List (Contact × Krpc.Response) :=
  replies.filterMap fun p => accepted? localId p.1.address p.2

/-- What is gathered of a reply. -/
theorem gathered_absorb (s : Search × σ) (asked : Contact) (reply : Reply) :
    (absorb purpose s asked reply).2 =
      gathered purpose s.2 (accepted? s.1.localId asked.address reply).toList := by
  cases reply with
  | error e => rfl
  | ok response =>
      rw [absorb, accepted?]
      split <;> rfl

/-- What is gathered of several replies. -/
theorem gathered_absorbAll (s : Search × σ) (replies : List (Contact × Reply)) :
    (absorbAll purpose s replies).2 =
      gathered purpose s.2 (acceptedOf s.1.localId replies) := by
  induction replies generalizing s with
  | nil => rfl
  | cons p replies ih =>
      have hlocal := (retained_absorb purpose s p.1 p.2).localId
      have hrest : (absorbAll purpose s (p :: replies)).2 =
          gathered purpose (absorb purpose s p.1 p.2).2
            (acceptedOf (absorb purpose s p.1 p.2).1.localId replies) :=
        ih (absorb purpose s p.1 p.2)
      rw [hrest, hlocal, gathered_absorb, gathered, gathered, gathered, ← List.foldl_append,
        acceptedOf, acceptedOf, List.filterMap_cons]
      cases accepted? s.1.localId p.1.address p.2 <;> rfl

/-- **What a lookup gathers** is gathered from the responses that it accepts. -/
theorem gathered_afterAll (purpose : Purpose σ) (s : Search × σ) (answers : List (List Reply)) :
    (afterAll purpose s answers).2 =
      gathered purpose s.2
        (acceptedOf s.1.localId ((rounds purpose s answers).flatMap Round.replied)) := by
  induction answers generalizing s with
  | nil => rfl
  | cons replies answers ih =>
      have hlocal := (retained_afterRound purpose s replies).localId
      have hround : (afterRound purpose s replies).2 =
          gathered purpose s.2 (acceptedOf s.1.localId (Round.mk s.1 replies).replied) := by
        rw [afterRound, gathered_absorbAll, s.1.sameAim_nextRound.localId]
        rfl
      have hrest : (afterAll purpose s (replies :: answers)).2 = _ :=
        ih (afterRound purpose s replies)
      rw [hrest, hlocal, hround, gathered, gathered, gathered, ← List.foldl_append, rounds,
        List.flatMap_cons, acceptedOf, acceptedOf, acceptedOf, List.filterMap_append]

/-- The responses that the rounds accept are those that are accepted query by query. -/
theorem InRounds.acceptedOf_eq {n : ℕ} {s : Search × σ} {exchanges : List Exchange}
    {result : Search × σ} (h : InRounds purpose n s exchanges result) (localId : Key) :
    acceptedOf localId ((rounds purpose s (exchanges.map (·.replies))).flatMap Round.replied) =
      accepted localId exchanges := by
  have hround : ∀ r : Round, acceptedOf localId r.replied =
      ((r.queries purpose).zip r.replies).filterMap fun p => accepted? localId p.1.1 p.2 := by
    intro r
    rw [Round.queries, List.zip_map_left, List.filterMap_map, acceptedOf, Round.replied]
    rfl
  have hexchanges := congrArg
    (List.flatMap fun p => (p.1.zip p.2).filterMap fun p => accepted? localId p.1.1 p.2)
    h.map_exchanges
  rw [List.flatMap_map, List.flatMap_map] at hexchanges
  rw [accepted, hexchanges, acceptedOf, List.filterMap_flatMap]
  exact List.flatMap_congr fun r _ => hround r

end Rounds

/-- Who has answered has had a response accepted. -/
theorem exists_accepted_of_answered {localId : Key} {replies : List (Contact × Reply)}
    {contact : Contact} (h : Answered localId replies contact) :
    ∃ response, (contact, response) ∈ acceptedOf localId replies := by
  obtain ⟨other, asked, response, hmem, rfl⟩ := h
  exact ⟨response, List.mem_filterMap.mpr ⟨_, hmem, if_neg other⟩⟩

/-- What a lookup for peers has found in the end is what the responses that it accepted tell. -/
theorem findings_of_course {m : Moment} {infoHash target : Key} {seeds : Seeds}
    {exchanges : List Exchange} {result : Search × TorrentFindings}
    (course : Activity.Course m (peers infoHash target seeds) exchanges result) :
    Findings (accepted m.node.localId exchanges) result.2 := by
  have hrounds := inRounds_of_start course
  have hgathered := gathered_afterAll (Purpose.getPeers infoHash)
    (beginning m.node target seeds, ⟨[], []⟩) (exchanges.map (·.replies))
  rw [← hrounds.result_eq, hrounds.acceptedOf_eq,
    (sameAim_beginning m.node target seeds).localId] at hgathered
  exact hgathered ▸ findings_gathered infoHash _

/-- The contacts that a lookup for peers ends with have had a response accepted. -/
theorem exists_accepted_of_mem_closest {m : Moment} {infoHash target : Key} {seeds : Seeds}
    {exchanges : List Exchange} {result : Search × TorrentFindings}
    (course : Activity.Course m (peers infoHash target seeds) exchanges result) {c : Contact}
    (hc : c ∈ result.1.closest) :
    ∃ response, (c, response) ∈ accepted m.node.localId exchanges := by
  obtain hold | hnew := (absorbed_of_course course).source c (List.mem_of_mem_take hc)
  · rw [answered_beginning] at hold
    cases hold
  · obtain ⟨response, hmem⟩ := exists_accepted_of_answered hnew
    rw [(inRounds_of_start course).acceptedOf_eq,
      (sameAim_beginning m.node target seeds).localId] at hmem
    exact ⟨response, hmem⟩

/-- **A lookup for peers gathers what the responses it accepts tell.** In every course of it,
whatever the replies are and whatever happens to the node meanwhile, the responses under another id
than its own are accepted, round by round and query by query, and each round asks its contacts in
strict order of their distances to the target. Of these responses,

* the peers they name are found, each once, in the order in which they first appear;
* each contact that has issued a token has the last one that it issued, and no other contact has
  one;
* all contacts that the lookup ends with have given one. -/
theorem peers_and_tokens_of_accepted (infoHash target : Key) (seeds : Seeds) (m : Moment)
    (exchanges : List Exchange) (result : Search × TorrentFindings)
    (course : Activity.Course m (peers infoHash target seeds) exchanges result) :
    let purpose := Purpose.getPeers infoHash
    let rs := rounds purpose (beginning m.node target seeds, ⟨[], []⟩) (exchanges.map (·.replies))
    let responses := accepted m.node.localId exchanges
    exchanges.map (·.queries) = rs.map (Round.queries purpose) ∧
    (∀ r ∈ rs, Nearest target r.asked) ∧
    (∀ peer, peer ∈ result.2.peers ↔ peer ∈ named responses) ∧
    result.2.peers.Nodup ∧
    (result.2.peers.Pairwise fun p q =>
      (named responses).idxOf p < (named responses).idxOf q) ∧
    (result.2.tokens.map Prod.fst).Nodup ∧
    (∀ contact token, (contact, token) ∈ result.2.tokens ↔
      (tokensFrom contact responses).getLast? = some token) ∧
    ∀ c ∈ result.1.closest, ∃ response, (c, response) ∈ responses := by
  intro purpose rs responses
  have hrounds := inRounds_of_start course
  have h := inOrder_beginning m.node target seeds
  have hAim := sameAim_beginning m.node target seeds
  have habsorbed := absorbed_afterAll purpose
    (s := (beginning m.node target seeds, ⟨[], []⟩)) h (exchanges.map (·.replies))
  have hgathered := gathered_afterAll purpose
    (beginning m.node target seeds, ⟨[], []⟩) (exchanges.map (·.replies))
  have hlocal : (beginning m.node target seeds).localId = m.node.localId := hAim.localId
  rw [← hrounds.result_eq, hrounds.acceptedOf_eq, hlocal] at hgathered
  have hfindings : Findings responses result.2 := hgathered ▸ findings_gathered infoHash responses
  refine ⟨hrounds.queries_eq, fun r hr => ?_, hfindings.peers.mem_iff, hfindings.peers.nodup,
    hfindings.peers.inOrder, hfindings.nodup, fun contact token => ?_, fun c hc => ?_⟩
  · obtain ⟨hinOrder, hsame, -⟩ := inOrder_of_mem_rounds h hr
    have htarget : r.search.target = target := hsame.target.trans hAim.target
    exact htarget ▸ List.Pairwise.sublist (List.take_sublist _ _) hinOrder.candidates
  · rw [← hfindings.lookup_eq, lookup_eq_some_iff_mem hfindings.nodup]
  · rw [← hrounds.result_eq] at habsorbed
    obtain hold | hnew := habsorbed.source c (List.mem_of_mem_take hc)
    · rw [answered_beginning] at hold
      cases hold
    · obtain ⟨response, hmem⟩ := exists_accepted_of_answered hnew
      rw [hrounds.acceptedOf_eq, hlocal] at hmem
      exact ⟨response, hmem⟩

/-- Two rounds: the first contact answers under another id, the second under that of the searcher,
which does not count; then the first is asked again at the same address, under an id that it was
told of, and issues another token, and a third contact issues none. -/
theorem gathered_from_repeated_responses :
    let key (n : ℕ) : Key := ⟨BitVec.ofNat 160 n⟩
    let address (n : ℕ) : Address := .v4 ⟨10, 0, 0, UInt8.ofNat n⟩ 6881
    let contact (n : ℕ) : Contact := ⟨key n, address n⟩
    let node := (Node.create (key 0) (address 9) { parallelism := 2, maxRounds := 2 } 0 ⟨[], 2⟩).1
    let m : Moment := ⟨node, 0, ⟨[], 3⟩⟩
    let query := Krpc.Query.getPeers (key 7)
    let exchanges : List Exchange :=
      [⟨[(address 2, query), (address 1, query)],
          [.ok (.getPeers (key 5) [1] (some [⟨key 3, address 2⟩, contact 4])
              (some [address 21, address 22, address 21])),
            .ok (.getPeers (key 0) [2] none (some [address 23]))], rfl⟩,
        ⟨[(address 4, query), (address 2, query)],
          [.ok (.getPeers (key 4) [] none none),
            .ok (.getPeers (key 5) [3] none (some [address 22, address 24]))], rfl⟩]
    let seeds : Seeds := .given [contact 1, contact 2]
    ∃ result, Activity.Course m (peers (key 7) (key 7) seeds) exchanges result ∧
      result.2.peers = [address 21, address 22, address 24] ∧
      result.2.tokens = [(⟨key 5, address 2⟩, [3])] ∧
      (tokensFrom ⟨key 5, address 2⟩ (accepted node.localId exchanges)).getLast? = some [3] := by
  intro key address contact node m query exchanges seeds
  have hcourse : ∃ result, Activity.Course m
      (run (.getPeers (key 7)) 2 (beginning node (key 7) seeds, ⟨[], []⟩)) exchanges result ∧
      result.2.peers = [address 21, address 22, address 24] ∧
      result.2.tokens = [(⟨key 5, address 2⟩, [3])] := by
    refine ⟨_, course_run_of_round m ?_ ?_ ?_ ?_ <|
      course_run_of_round m ?_ ?_ ?_ ?_ (course_run_zero _), ?_⟩
    all_goals decide +kernel
  obtain ⟨result, course, hpeers, htokens⟩ := hcourse
  have course : Activity.Course m (peers (key 7) (key 7) seeds) exchanges result :=
    Activity.course_look_iff.mpr course
  have law := peers_and_tokens_of_accepted (key 7) (key 7) seeds m exchanges result course
  refine ⟨result, course, hpeers, htokens, (law.2.2.2.2.2.2.1 _ _).mp ?_⟩
  rw [htokens]
  exact List.mem_singleton_self _

end Lookup

end Mainline
