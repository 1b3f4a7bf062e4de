import Mathlib.Data.List.Induction
import Mainline.Proofs.Server.Run

/-!
# How long a token is valid

A token is made with the secret of the moment and the asker's IP address, and nothing is kept of it.
Whether it is accepted later is decided by which secrets the server still holds: each rotation
moves the current secret to the place of the previous one, so the secret that made a token is held
until the second rotation (`TokenSecrets.holds_after_iff`). What else a server does, and how much
time passes, does not touch its secrets (`Server.secrets_runAll`).

## Main results

* `Server.Issued.eq_make`: what is issued is made with the current secret.
* `Server.isValidToken_of_rotations_le`: a token is accepted until the second rotation, whatever the
  secrets are.
* `Server.token_accepted_iff`: it is accepted then and for that host only, if no two secrets and
  hosts make the same token.
-/

namespace Mainline

namespace TokenSecrets

variable {secrets : TokenSecrets} {drawn : List Bytes} {secret : Bytes}

/-! ### Rotations -/

/-- The secrets after rotations that have drawn these. -/
def after (secrets : TokenSecrets) (drawn : List Bytes) : TokenSecrets :=
  drawn.foldl (fun secrets secret => ⟨secret, secrets.current⟩) secrets

/-- The secret is one of the two with which tokens are checked. -/
def Holds (secrets : TokenSecrets) (secret : Bytes) : Prop :=
  secret = secrets.current ∨ secret = secrets.previous

theorem isValid_iff {host : IP} {token : Bytes} :
    secrets.isValid host token = true ↔
      ∃ secret, secrets.Holds secret ∧ make secret host = token := by
  rw [isValid, Bool.or_eq_true, beq_iff_eq, beq_iff_eq]
  simp only [Holds, or_and_right, exists_or, exists_eq_left]

theorem after_concat (secrets : TokenSecrets) (drawn : List Bytes) (secret : Bytes) :
    secrets.after (drawn ++ [secret]) = ⟨secret, (secrets.after drawn).current⟩ := by
  rw [after, List.foldl_concat, after]

/-- Every secret that is held has been drawn at some time. -/
theorem Holds.mem (holds : (secrets.after drawn).Holds secret) :
    secret ∈ secrets.previous :: secrets.current :: drawn := by
  induction drawn using List.reverseRecOn generalizing secret with
  | nil =>
      rcases holds with rfl | rfl
      · exact List.mem_cons_of_mem _ List.mem_cons_self
      · exact List.mem_cons_self
  | append_singleton drawn last ih =>
      rw [after_concat] at holds
      rw [← List.cons_append, ← List.cons_append]
      rcases holds with rfl | rfl
      · exact List.mem_append_right _ List.mem_cons_self
      · exact List.mem_append_left _ (ih (.inl rfl))

/-- A secret is held until the second rotation. -/
theorem holds_of_length_le (secrets : TokenSecrets) (few : drawn.length ≤ 1) :
    (secrets.after drawn).Holds secrets.current := by
  match drawn, few with
  | [], _ => exact .inl rfl
  | [_], _ => exact .inr rfl

/-- **A secret is held until the second rotation**, and then no more, unless it is drawn again. -/
theorem holds_after_iff (new : secrets.current ∉ drawn) :
    (secrets.after drawn).Holds secrets.current ↔ drawn.length ≤ 1 := by
  refine ⟨fun holds => ?_, secrets.holds_of_length_le⟩
  rcases List.eq_nil_or_concat drawn with rfl | ⟨drawn, last, rfl⟩
  · exact Nat.zero_le 1
  · rcases List.eq_nil_or_concat drawn with rfl | ⟨drawn, last', rfl⟩
    · exact Nat.le_refl 1
    · simp only [List.concat_eq_append] at holds new
      rw [after_concat, after_concat] at holds
      simp only [List.mem_append, List.mem_singleton, not_or] at new
      rcases holds with heq | heq
      · exact absurd heq new.2
      · exact absurd heq new.1.2

/-- **No two tokens are alike**: none of these secrets makes for one of the hosts what it or another
one makes for a host with another name. -/
def NoCollision (secrets : List Bytes) (hosts : List IP) : Prop :=
  ∀ secret ∈ secrets, ∀ secret' ∈ secrets, ∀ host ∈ hosts, ∀ host' ∈ hosts,
    make secret host = make secret' host' →
      secret = secret' ∧ host.toString = host'.toString

instance (secrets : List Bytes) (hosts : List IP) : Decidable (NoCollision secrets hosts) :=
  inferInstanceAs (Decidable (∀ _ ∈ _, _))

end TokenSecrets

namespace Server

variable {s : Snapshot} {a b : Address} {token : Bytes} {moves : List Move}

/-! ### Secrets in the course of a run -/

/-- The secret that a move draws, if it changes the secret. -/
def Move.drawn? : Move → Option Bytes
  | act action => action.drawn?
  | wait _ => none

/-- The secrets that moves draw, one at each rotation. -/
def drawn (moves : List Move) : List Bytes :=
  moves.filterMap Move.drawn?

/-- All secrets that a server has drawn by some moves, the first two when it was created. -/
def Snapshot.allSecrets (first : Snapshot) (moves : List Move) : List Bytes :=
  first.server.secrets.previous :: first.server.secrets.current :: drawn moves

/-- **Only rotations touch the secrets.** -/
theorem secrets_runAll (s : Snapshot) (moves : List Move) :
    (Move.runAll s moves).server.secrets = s.server.secrets.after (drawn moves) := by
  induction moves generalizing s with
  | nil => rfl
  | cons move moves ih =>
      rw [Move.runAll_cons, ih, drawn, drawn, List.filterMap_cons]
      cases move with
      | wait duration => rfl
      | act action =>
          simp only [Move.run, Move.drawn?, Action.secrets_run]
          cases action.drawn? <;> rfl

theorem Snapshot.allSecrets_append (first : Snapshot) (before after : List Move) :
    first.allSecrets (before ++ after) = first.allSecrets before ++ drawn after := by
  simp only [allSecrets, drawn, List.filterMap_append, List.cons_append]

/-- Every secret that a server holds it has drawn. -/
theorem mem_allSecrets {first : Snapshot} {secret : Bytes}
    (holds : (Move.runAll first moves).server.secrets.Holds secret) :
    secret ∈ first.allSecrets moves := by
  rw [secrets_runAll] at holds
  exact holds.mem

/-! ### Tokens that have been issued -/

/-- The server **issues** the token to a node at this address: it names it as the node's token, or
in the answer to a query of the node. -/
inductive Issued (s : Snapshot) (a : Address) (token : Bytes) : Prop
  | named (named : s.server.tokenFor a = token)
  | answered {table : Routing.Table} {sender id : Key} {query : Krpc.Query}
      {nodes : Option (List Contact)} {peers : Option (List Address)}
      (answered : (s.server.handle table s.now a sender query).1 =
        .ok (.getPeers id token nodes peers))

/-- **What is issued is made with the current secret.** -/
theorem Issued.eq_make (issued : Issued s a token) :
    token = TokenSecrets.make s.server.secrets.current a.ip := by
  cases issued with
  | named named => exact named.symm
  | @answered table sender id query nodes peers answered =>
      rw [handle] at answered
      cases query with
      | ping | findNode => cases answered
      | getPeers infoHash =>
          cases answered
          rfl
      | announcePeer infoHash port token implied =>
          have taken := s.server.announce_taken s.now a infoHash port token implied
          simp only [answer] at answered
          generalize s.server.announce s.now a infoHash port token implied = result
            at taken answered
          cases taken <;> cases answered

/-- An announcement is refused for its token only if the token is not valid. -/
theorem handle_announcePeer_ne_invalid_iff (server : Server) (table : Routing.Table) (now : Instant)
    (source : Address) (sender infoHash : Key) (port : UInt16) (token : Bytes) (implied : Bool) :
    (server.handle table now source sender (.announcePeer infoHash port token implied)).1 ≠
        .error ⟨Krpc.RemoteError.protocolCode, "invalid token"⟩ ↔
      server.isValidToken source token = true := by
  have taken := server.announce_taken now source infoHash port token implied
  simp only [handle, answer]
  generalize server.announce now source infoHash port token implied = result at taken ⊢
  cases taken with
  | invalid invalid => simp [invalid]
  | unusable valid zero => simp [valid]
  | kept valid usable => simp [valid]

/-- **A token is accepted until the second rotation**, from any port of its host. -/
theorem isValidToken_of_rotations_le (issued : Issued s a token) (same : b.ip = a.ip)
    (few : (drawn moves).length ≤ 1) :
    (Move.runAll s moves).server.isValidToken b token = true := by
  rw [isValidToken, TokenSecrets.isValid_iff, secrets_runAll, same]
  exact ⟨_, s.server.secrets.holds_of_length_le few, issued.eq_make.symm⟩

/-- **How long a token is valid, and for whom.** Take any server and any run of it, and a token that
it issues in the course of it to a node at the address `a`, when asked for it or in the answer to a
query. Later in the run, it accepts the token from a node at `b`, and does not refuse its
announcement for having an invalid token, if and only if `b` has the same IP address as `a` and the
secret has been rotated at most once in between.

This is so if all secrets it draws are distinct, the texts of different IP addresses differ, and no
two of the secrets and of the texts make the same token. -/
theorem token_accepted_iff (localId : Key) (settings : Settings) (stream : ByteStream)
    (start : Instant) (before after : List Move) (a b : Address) (token : Bytes) :
    let first := Snapshot.create localId settings stream start
    let issuing := Move.runAll first before
    let s := Move.runAll issuing after
    let secrets := first.allSecrets (before ++ after)
    Issued issuing a token → secrets.Nodup → (a.ip.toString = b.ip.toString → a.ip = b.ip) →
    TokenSecrets.NoCollision secrets [a.ip, b.ip] →
    (s.server.isValidToken b token = true ↔ b.ip = a.ip ∧ (drawn after).length ≤ 1) ∧
    ∀ table sender infoHash port implied,
      ((s.server.handle table s.now b sender (.announcePeer infoHash port token implied)).1 ≠
        .error ⟨Krpc.RemoteError.protocolCode, "invalid token"⟩ ↔
      b.ip = a.ip ∧ (drawn after).length ≤ 1) := by
  intro first issuing s secrets issued distinct textual noCollision
  have hsplit : secrets = first.allSecrets before ++ drawn after :=
    first.allSecrets_append before after
  have hs : s = Move.runAll first (before ++ after) := (Move.runAll_append first before after).symm
  have hown : issuing.server.secrets.current ∈ first.allSecrets before := mem_allSecrets (.inl rfl)
  have valid : s.server.isValidToken b token = true ↔ b.ip = a.ip ∧ (drawn after).length ≤ 1 := by
    refine ⟨fun valid => ?_, fun ⟨same, few⟩ => isValidToken_of_rotations_le issued same few⟩
    obtain ⟨secret, holds, hmake⟩ := TokenSecrets.isValid_iff.mp valid
    -- Both secrets have been drawn in this run, so that they cannot collide.
    have hsecret : secret ∈ secrets := mem_allSecrets (hs ▸ holds)
    have hcurrent : issuing.server.secrets.current ∈ secrets :=
      hsplit ▸ List.mem_append_left _ hown
    obtain ⟨rfl, htext⟩ := noCollision secret hsecret _ hcurrent b.ip (by simp) a.ip (by simp)
      (hmake.trans issued.eq_make)
    have new : issuing.server.secrets.current ∉ drawn after := by
      rw [hsplit] at distinct
      exact List.disjoint_of_nodup_append distinct hown
    have hsecrets : s.server.secrets = issuing.server.secrets.after (drawn after) :=
      secrets_runAll issuing after
    rw [hsecrets] at holds
    exact ⟨(textual htext.symm).symm, (TokenSecrets.holds_after_iff new).mp holds⟩
  refine ⟨valid, fun table sender infoHash port implied => ?_⟩
  rw [handle_announcePeer_ne_invalid_iff, valid]

/-- A token that a query has been answered with outlives the rotation behind it and a sweep, but not
the next rotation. -/
theorem token_outlives_one_rotation :
    let key (n : ℕ) : Key := ⟨BitVec.ofNat 160 n⟩
    let a : Address := .v4 ⟨10, 0, 0, 2⟩ 6881
    let b : Address := .v4 ⟨10, 0, 0, 2⟩ 6882
    let query : Krpc.Query := .getPeers (key 1)
    let table := Routing.Table.empty (key 0) 8 0
    let issuing := Move.runAll (Snapshot.create (key 0) {} ⟨[], 2⟩ 0) [.wait 3]
    let token := issuing.server.tokenFor a
    let after : List Move := [.act (.handle table a (key 9) query), .act (.rotate ⟨[], 7⟩), .wait 5,
      .act .expire]
    let s := Move.runAll issuing after
    let t := Move.runAll issuing (after ++ [.act (.rotate ⟨[], 8⟩)])
    (issuing.server.handle table 3 a (key 9) query).1 =
      .ok (.getPeers (key 0) token (some [⟨key 9, a⟩]) none) ∧
    s.server.isValidToken b token = true ∧ t.server.isValidToken b token = false := by
  intro key a b query table issuing token after s t
  have answered : (issuing.server.handle table 3 a (key 9) query).1 =
      .ok (.getPeers (key 0) token (some [⟨key 9, a⟩]) none) := by decide +kernel
  have law := token_accepted_iff (key 0) {} ⟨[], 2⟩ 0 [.wait 3] after a b token (.answered answered)
    (by decide +kernel) (fun _ => rfl) (by decide +kernel)
  have law' := token_accepted_iff (key 0) {} ⟨[], 2⟩ 0 [.wait 3]
    (after ++ [.act (.rotate ⟨[], 8⟩)]) a b token (.answered answered)
    (by decide +kernel) (fun _ => rfl) (by decide +kernel)
  refine ⟨answered, law.1.mpr ⟨rfl, by decide⟩, Bool.eq_false_iff.mpr fun valid => ?_⟩
  exact absurd (law'.1.mp valid).2 (by decide)

end Server

end Mainline
