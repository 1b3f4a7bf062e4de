import Mainline.Proofs.Activity.Pool
import Mainline.Proofs.Lookup.Rounds
import Mainline.Proofs.Routing.Source
import Mainline.Proofs.Traffic.Vouching

/-!
# Activities store only contacts that have been vouched for

Answers tell a node of contacts that the node has never heard from. A lookup asks them, but what it
stores and what it ends with are those that answered. Nothing else that a node does on its own gives
the routing table a contact, apart from an offer of a contact that it has been given, or joining
through one.

An activity *stores vouched contacts only* (`Activity.Stores`) if it leaves every one of the contacts
in the table vouched for whenever it waits or ends, given that the replies it goes on with are
honest. While it waits more contacts may be vouched for, and the node may change in every way that
keeps the table vouched for. What is known of its result may depend on who has been vouched for, too.

## Main results

* `Routing.Table.Vouched.run`: steps keep a table vouched for if they offer such contacts only.
* `Activity.Stores.bind`: one activity after the other.
* `Activity.stores_start`: what lookups store, and what they end with.
* `Work.stores`: whatever a node is given to do.
-/

namespace Mainline

open Routing (Step Situation)

variable {V V' : Set Contact}

/-- The contact of every member has been **vouched for**. -/
structure Routing.Table.Vouched (V : Set Contact) (t : Routing.Table) : Prop where
  wellFormed : t.WellFormed
  contact_mem : ∀ m ∈ t.members, m.contact ∈ V

namespace Routing.Table.Vouched

variable {t : Routing.Table}

theorem mono (h : t.Vouched V) (hV : V ⊆ V') : t.Vouched V' :=
  ⟨h.wellFormed, fun m hm => hV (h.contact_mem m hm)⟩

theorem empty (V : Set Contact) (localId : Key) (capacity : ℕ) (now : Instant) :
    (Routing.Table.empty localId capacity now).Vouched V := by
  refine ⟨Routing.Table.wellFormed_empty localId capacity now, fun m hm => ?_⟩
  simp [Routing.Table.members, Routing.Table.empty] at hm

/-- **A step keeps the table vouched for** if it offers vouched contacts only. -/
theorem run {s : Situation} (h : s.table.Vouched V) (step : Step)
    (offers : ∀ node, step.Offers node → node.contact ∈ V) : (step.run s).table.Vouched V := by
  refine ⟨Step.wellFormed_run h.wellFormed step, fun m hm => ?_⟩
  cases Step.source_of_mem_run h.wellFormed hm with
  | kept held => exact h.contact_mem m held
  | entered offered absent => exact offers m offered
  | @renewed node m offered held known =>
      have hcontact : (m.renewed node s.now).contact = node.contact := by
        rw [Member.renewed]
        split <;> rfl
      rw [hcontact]
      exact offers node offered
  | @touched m sees held => exact h.contact_mem m held
  | @failed m fails held => exact h.contact_mem m held

theorem observe (h : t.Vouched V) (now : Instant) {node : Member} (offered : node.contact ∈ V) :
    (t.observe now node).1.Vouched V := by
  refine run (s := ⟨t, now⟩) h (.observe node) fun other offers => ?_
  cases offers
  exact offered

theorem place (h : t.Vouched V) (now : Instant) {node : Member} (offered : node.contact ∈ V) :
    (t.place now node).1.Vouched V := by
  refine run (s := ⟨t, now⟩) h (.place node) fun other offers => ?_
  cases offers
  exact offered

theorem resume (h : t.Vouched V) (now : Instant) {node : Member} (offered : node.contact ∈ V)
    (asked : Key) (answered : Bool) : (t.resume now node asked answered).1.Vouched V := by
  refine run (s := ⟨t, now⟩) h (.resume node asked answered) fun other offers => ?_
  cases offers
  exact offered

theorem markFailed (h : t.Vouched V) (id : Key) : (t.markFailed id).Vouched V :=
  run (s := ⟨t, 0⟩) h (.markFailed id) nofun

/-- What lookups enter into the table has been vouched for by honest replies. -/
theorem record (h : t.Vouched V) (localId : Key) (now : Instant) {asked : Contact} {reply : Reply}
    (honest : Honest V asked.address reply) :
    (Lookup.record t localId now asked reply).Vouched V := by
  rw [Lookup.record.eq_def]
  split
  · next response =>
      split
      · exact h
      · exact h.observe now (honest response rfl)
  · split
    · exact h.markFailed asked.id
    · exact h

theorem recordAll (h : t.Vouched V) (localId : Key) (now : Instant)
    {replies : List (Contact × Reply)} (honest : ∀ p ∈ replies, Honest V p.1.address p.2) :
    (Lookup.recordAll t localId now replies).Vouched V := by
  induction replies generalizing t with
  | nil => exact h
  | cons p replies ih =>
      obtain ⟨hp, hrest⟩ := List.forall_mem_cons.mp honest
      exact ih (h.record localId now hp) hrest

end Routing.Table.Vouched

namespace Activity

variable {α β : Type} {Q : Set Contact → α → Prop} {R : Set Contact → β → Prop}

/-- From a node on, the activity keeps the table vouched for, and ends with what `Q` says. Nothing
interrupts it until it waits; then anybody may be vouched for, and the node be any other one whose
table is vouched for. -/
def Keeps (Q : Set Contact → α → Prop) (V : Set Contact) (node : Node) (now : Instant) :
    Activity α → Prop
  | done a => Q V a
  | look k => (k node now).Keeps Q V node now
  | put node' next =>
    node'.transactions = node.transactions ∧ node'.table.Vouched V ∧ next.Keeps Q V node' now
  | sample _ k => ∀ key, (k key).Keeps Q V node now
  | report _ _ next => next.Keeps Q V node now
  | ask queries k => ∀ V', V ⊆ V' → ∀ node' now', node'.table.Vouched V' →
    ∀ replies, List.Forall₂ (fun query reply => Honest V' query.1 reply) queries replies →
      (k replies).Keeps Q V' node' now'

/-- The activity **stores vouched contacts only**, and ends with what `Q` says, from whenever it
begins. -/
def Stores (Q : Set Contact → α → Prop) (V : Set Contact) (x : Activity α) : Prop :=
  ∀ V', V ⊆ V' → ∀ node now, node.table.Vouched V' → x.Keeps Q V' node now

/-- Of the result nothing is said. -/
def Anything (_ : Set Contact) (_ : α) : Prop :=
  True

theorem Stores.mono {x : Activity α} (h : x.Stores Q V) (hV : V ⊆ V') : x.Stores Q V' :=
  fun V'' hV' => h V'' (hV.trans hV')

/-- What an activity ends with, the next one begins with. -/
theorem Keeps.bind {x : Activity α} {f : α → Activity β} {node : Node} {now : Instant}
    (h : x.Keeps Q V node now) (vouched : node.table.Vouched V)
    (hf : ∀ V', V ⊆ V' → ∀ a, Q V' a → (f a).Stores R V') : (x.bind f).Keeps R V node now := by
  induction x generalizing V node now with
  | done a => exact hf V subset_rfl a h V subset_rfl node now vouched
  | look k ih => exact ih node now h vouched hf
  | put node' next ih =>
      obtain ⟨kept, vouched', goesOn⟩ := h
      exact ⟨kept, vouched', ih goesOn vouched' hf⟩
  | sample region k ih => exact fun key => ih key (h key) vouched hf
  | report infoHash peers next ih => exact ih h vouched hf
  | ask queries k ih =>
      intro V' hV node' now' vouched' replies honest
      exact ih replies (h V' hV node' now' vouched' replies honest) vouched'
        fun V'' hV' => hf V'' (hV.trans hV')

/-- **One activity after the other** stores vouched contacts only, if both do. -/
theorem Stores.bind {x : Activity α} {f : α → Activity β} (hx : x.Stores Q V)
    (hf : ∀ V', V ⊆ V' → ∀ a, Q V' a → (f a).Stores R V') : (x.bind f).Stores R V :=
  fun V' hV node now vouched =>
    (hx V' hV node now vouched).bind vouched fun V'' hV' => hf V'' (hV.trans hV')

/-! ### The parts of activities -/

theorem stores_done (a : α) (h : ∀ V', V ⊆ V' → Q V' a) : (done a).Stores Q V :=
  fun V' hV _ _ _ => h V' hV

theorem stores_any (a : α) (V : Set Contact) : (done a).Stores Anything V :=
  stores_done a fun _ _ => trivial

theorem stores_node (V : Set Contact) :
    node.Stores (fun V node => node.table.Vouched V) V :=
  fun _ _ _ _ vouched => vouched

theorem stores_nodeAndTime (V : Set Contact) :
    nodeAndTime.Stores (fun V p => p.1.table.Vouched V) V :=
  fun _ _ _ _ vouched => vouched

/-- A table that has been vouched for may be put into the node. -/
theorem stores_putTable {table : Routing.Table} (h : table.Vouched V) :
    (modify fun owner _ => { owner with table }).Stores Anything V :=
  fun _ hV _ _ _ => ⟨rfl, h.mono hV, trivial⟩

theorem stores_sampleKey (region : Prefix) (V : Set Contact) :
    (sampleKey region).Stores Anything V :=
  fun _ _ _ _ _ _ => trivial

theorem stores_reportPeers (infoHash : Key) (peers : List Address) (V : Set Contact) :
    (reportPeers infoHash peers).Stores Anything V :=
  fun _ _ _ _ _ => trivial

theorem stores_askAll (queries : List (Address × Krpc.Query)) (V : Set Contact) :
    (askAll queries).Stores (fun V replies =>
      List.Forall₂ (fun query reply => Honest V query.1 reply) queries replies) V :=
  fun _ _ _ _ _ _ _ _ _ _ _ honest => honest

theorem stores_query (address : Address) (query : Krpc.Query) (V : Set Contact) :
    (Activity.query address query).Stores (fun V reply => Honest V address reply) V := by
  intro V' hV node now vouched V'' hV' node' now' vouched' replies honest
  cases honest with
  | cons hreply hnil =>
      cases hnil
      exact hreply

/-- Who answers a ping has been vouched for. -/
theorem stores_ping (address : Address) (V : Set Contact) :
    (ping address).Stores (fun V reply => ∀ id, reply = .ok id → ⟨id, address⟩ ∈ V) V := by
  refine (stores_query address .ping V).bind fun V' _ reply honest => ?_
  refine stores_done _ fun V'' hV id heq => ?_
  cases reply with
  | error e => cases heq
  | ok response =>
      cases heq
      exact hV (honest response rfl)

theorem stores_probe (contact : Contact) (V : Set Contact) :
    (probe contact).Stores Anything V := by
  refine (stores_ping contact.address V).bind fun V' _ reply _ => ?_
  cases reply with
  | error e => exact stores_any false V'
  | ok id => exact stores_any (id == contact.id) V'

/-! ### Offers -/

theorem stores_insertAsking {offered : Member} (h : offered.contact ∈ V)
    (questionable : List Contact) : (insertAsking offered questionable).Stores Anything V := by
  induction questionable generalizing V with
  | nil => exact stores_any Routing.Outcome.rejected V
  | cons asked questionable ih =>
      refine (stores_probe asked V).bind fun V₁ hV₁ answered _ => ?_
      refine (stores_nodeAndTime V₁).bind fun V₂ hV₂ p vouched => ?_
      obtain ⟨owner, now⟩ := p
      have resumed : (owner.table.resume now offered asked.id answered).1.Vouched V₂ :=
        Routing.Table.Vouched.resume vouched now (hV₂ (hV₁ h)) asked.id answered
      refine (stores_putTable resumed).bind fun V₃ hV₃ _ _ => ?_
      dsimp only
      split
      · exact stores_any _ V₃
      · exact ih (hV₃ (hV₂ (hV₁ h)))

/-- **An offer of a vouched contact** stores vouched contacts only. -/
theorem stores_insert (offered : Member) (h : offered.contact ∈ V) :
    (insert offered).Stores Anything V := by
  refine (stores_nodeAndTime V).bind fun V₁ hV₁ p vouched => ?_
  obtain ⟨owner, now⟩ := p
  have placed : (owner.table.place now offered).1.Vouched V₁ :=
    Routing.Table.Vouched.place vouched now (hV₁ h)
  refine (stores_putTable placed).bind fun V₂ hV₂ _ _ => ?_
  dsimp only
  split
  · exact stores_any _ V₂
  · exact stores_insertAsking (hV₂ (hV₁ h)) _

/-! ### Lookups -/

end Activity

/-- The search is in order, and everybody who has answered has been **vouched for**. -/
structure Search.Vouched (V : Set Contact) (s : Search) : Prop where
  inOrder : s.InOrder
  answered_mem : ∀ contact ∈ s.answered, contact ∈ V

namespace Search.Vouched

theorem mono {s : Search} (h : s.Vouched V) (hV : V ⊆ V') : s.Vouched V' :=
  ⟨h.inOrder, fun contact hc => hV (h.answered_mem contact hc)⟩

theorem closest_mem {s : Search} (h : s.Vouched V) : ∀ contact ∈ s.closest, contact ∈ V :=
  fun contact hc => h.answered_mem contact (List.mem_of_mem_take hc)

/-- At the beginning nobody has answered. -/
theorem beginning (V : Set Contact) (node : Node) (target : Key) (seeds : Lookup.Seeds) :
    (Lookup.beginning node target seeds).Vouched V := by
  refine ⟨Lookup.inOrder_beginning node target seeds, ?_⟩
  rw [Lookup.answered_beginning]
  exact nofun

/-- Whom a round notes as having answered has been vouched for by an honest reply. -/
theorem afterRound {σ : Type} (purpose : Purpose σ) {s : Search × σ} (h : s.1.Vouched V)
    {replies : List Reply}
    (honest : ∀ p ∈ (Lookup.Round.mk s.1 replies).replied, Honest V p.1.address p.2) :
    (Lookup.afterRound purpose s replies).1.Vouched V := by
  have absorbed := Lookup.absorbed_afterRound purpose h.inOrder replies
  refine ⟨absorbed.inOrder, fun contact hc => ?_⟩
  obtain before | ⟨-, asked, response, hmem, rfl⟩ := absorbed.source contact hc
  · exact h.answered_mem contact before
  · exact honest _ hmem response rfl

end Search.Vouched

/-- In a round each contact that is asked has an honest reply, if each query has. -/
theorem Lookup.Round.honest_replied {σ : Type} {purpose : Purpose σ} {r : Lookup.Round}
    (honest : List.Forall₂ (fun query reply => Honest V query.1 reply) (r.queries purpose)
      r.replies) : ∀ p ∈ r.replied, Honest V p.1.address p.2 :=
  fun _ hp => List.forall₂_zip (List.forall₂_map_left_iff.mp honest) hp

namespace Activity

variable {σ : Type}

theorem stores_run (purpose : Purpose σ) (n : ℕ) {s : Search × σ} (h : s.1.Vouched V) :
    (Lookup.run purpose n s).Stores (fun V result => result.1.Vouched V) V := by
  induction n generalizing V s with
  | zero => exact stores_done s fun V' hV => h.mono hV
  | succ n ih =>
      rw [Lookup.run_succ]
      intro V₁ hV₁ node now vouched
      rw [Keeps]
      split
      · exact h.mono hV₁
      · split
        · exact h.mono hV₁
        · intro V₂ hV₂ later now' vouched' replies honest
          have honest : ∀ p ∈ (Lookup.Round.mk s.1 replies).replied, Honest V₂ p.1.address p.2 :=
            Lookup.Round.honest_replied honest
          have round : (Lookup.afterRound purpose s replies).1.Vouched V₂ :=
            (h.mono (hV₁.trans hV₂)).afterRound purpose honest
          have recorded := vouched'.recordAll later.localId now' honest
          refine ⟨rfl, recorded, ?_⟩
          split
          · exact round
          · exact ih round V₂ subset_rfl _ now' recorded

/-- **A lookup** stores vouched contacts only, and whoever has answered it has been vouched for. -/
theorem stores_start (target : Key) (purpose : Purpose σ) (nothing : σ) (seeds : Lookup.Seeds)
    (V : Set Contact) :
    (Lookup.start target purpose nothing seeds).Stores (fun V result => result.1.Vouched V) V :=
  fun _ _ node now vouched =>
    stores_run purpose node.settings.maxRounds (.beginning _ node target seeds) _ subset_rfl node
      now vouched

theorem stores_nodes (target : Key) (seeds : Lookup.Seeds) (V : Set Contact) :
    (Lookup.nodes target seeds).Stores (fun V search => search.Vouched V) V :=
  (stores_start target (.findNode target) () seeds V).bind fun _ _ result vouched =>
    stores_done result.1 fun _ hV => vouched.mono hV

theorem stores_lookupPeers (infoHash : Key) (V : Set Contact) :
    (Upkeep.lookupPeers infoHash).Stores Anything V := by
  refine (stores_start infoHash (.getPeers infoHash) ⟨[], []⟩ .table V).bind fun V' _ result _ => ?_
  obtain ⟨search, found⟩ := result
  dsimp only
  split
  · exact (stores_reportPeers infoHash found.peers V').bind fun V'' _ _ _ => stores_any _ V''
  · exact stores_any _ V'

/-! ### Upkeep -/

theorem stores_insertAll {contacts : List Contact} (h : ∀ contact ∈ contacts, contact ∈ V) :
    (Upkeep.insertAll contacts).Stores Anything V := by
  induction contacts generalizing V with
  | nil => exact stores_any 0 V
  | cons contact contacts ih =>
      obtain ⟨hcontact, hrest⟩ := List.forall_mem_cons.mp h
      refine (stores_nodeAndTime V).bind fun V₁ hV₁ p _ => ?_
      refine (stores_insert (.active contact p.2) (hV₁ hcontact)).bind
        fun V₂ hV₂ outcome _ => ?_
      refine (ih fun c hc => hV₂ (hV₁ (hrest c hc))).bind fun V₃ _ stored _ => ?_
      exact stores_any _ V₃

/-- **The refresh of a bucket** offers those that answered its lookup. -/
theorem stores_refreshBucket (i : Fin 160) (V : Set Contact) :
    (Upkeep.refreshBucket i).Stores Anything V := by
  refine (stores_node V).bind fun V₁ _ owner _ => ?_
  refine (stores_sampleKey (owner.table.bucketRegion i) V₁).bind fun V₂ _ target _ => ?_
  refine (stores_nodes target .table V₂).bind fun V₃ _ search vouched => ?_
  exact stores_insertAll vouched.closest_mem

theorem stores_refreshStale (threshold : Duration) (V : Set Contact) :
    (Upkeep.refreshStale threshold).Stores Anything V :=
  (stores_nodeAndTime V).bind fun V' _ _ _ => stores_any _ V'

/-- **Joining** offers the contact that the node joins through. -/
theorem stores_join {contact : Contact} (h : contact ∈ V) :
    (Upkeep.join contact).Stores Anything V := by
  refine (stores_node V).bind fun V₁ hV₁ owner _ => ?_
  refine (stores_nodes owner.localId (.given [contact]) V₁).bind fun V₂ hV₂ _ _ => ?_
  refine (stores_nodeAndTime V₂).bind fun V₃ hV₃ p _ => ?_
  dsimp only
  split
  · exact stores_any _ V₃
  · refine (stores_insert (.active contact p.2) (hV₃ (hV₂ (hV₁ h)))).bind
      fun V₄ _ _ _ => ?_
    exact (stores_node V₄).bind fun V₅ _ _ _ => stores_any _ V₅

/-- A node joins through those only that answer a ping. -/
theorem stores_joinThrough (addresses : List Address) (V : Set Contact) :
    (Upkeep.joinThrough addresses).Stores Anything V := by
  induction addresses generalizing V with
  | nil => exact stores_any _ V
  | cons address addresses ih =>
      refine (stores_ping address V).bind fun V₁ _ reply vouched => ?_
      split
      · exact stores_any _ V₁
      · exact ih V₁
      · next id =>
          refine (stores_join (vouched id rfl)).bind fun V₂ _ joined _ => ?_
          split
          · exact stores_any _ V₂
          · exact ih V₂

theorem stores_bootstrap (V : Set Contact) : Upkeep.bootstrap.Stores Anything V := by
  refine (stores_node V).bind fun V' _ owner _ => ?_
  split
  · exact stores_any _ V'
  · exact stores_joinThrough _ V'

theorem stores_lookupRegistered (V : Set Contact) :
    Upkeep.lookupRegistered.Stores Anything V :=
  (stores_node V).bind fun V' _ _ _ => stores_any _ V'

/-! ### Requests -/

theorem stores_unlessClosed {activity : Activity Result} (h : activity.Stores Anything V) :
    (unlessClosed activity).Stores Anything V := by
  refine (stores_node V).bind fun V' hV owner _ => ?_
  split
  · exact stores_any _ V'
  · exact h.mono hV

theorem stores_withResult {activity : Activity Result} (h : activity.Stores Anything V) :
    (Request.withResult activity).Stores Anything V :=
  h.bind fun V' _ _ _ => stores_any _ V'

theorem stores_withCrew {activity : Activity (Except Error Crew)} (h : activity.Stores Anything V) :
    (Request.withCrew activity).Stores Anything V := by
  refine h.bind fun V' _ joined _ => ?_
  split <;> exact stores_any _ V'

theorem stores_announcing (infoHash : Key) (port : UInt16) (V : Set Contact) :
    (Request.announcing infoHash port).Stores Anything V := by
  refine (stores_lookupPeers infoHash V).bind fun V₁ _ result _ => ?_
  refine ((stores_askAll _ V₁).bind fun V₂ _ replies _ => ?_)
  exact stores_any _ V₂

end Activity

/-- The contacts that the work **names** for the node to store: that of an offer, and the one to
join through. -/
def Work.named : Work → Set Contact
  | .request (.insert node) => {node.contact}
  | .request (.join contact) => {contact}
  | _ => ∅

namespace Activity

theorem stores_request {request : Request} (named : (Work.request request).named ⊆ V) :
    request.activity.Stores Anything V := by
  cases request with
  | insert node =>
      have offered : node.contact ∈ V := named rfl
      exact stores_withResult ((stores_insert node offered).bind fun V' _ _ _ => stores_any _ V')
  | join contact => exact stores_withCrew (stores_join (named rfl))
  | bootstrap => exact stores_withCrew (stores_bootstrap V)
  | refreshStale threshold =>
      exact (stores_refreshStale threshold V).bind fun V' _ _ _ => stores_any _ V'
  | ping address =>
      refine stores_withResult ((stores_ping address V).bind fun V' _ reply _ => ?_)
      split <;> exact stores_any _ V'
  | query address question =>
      refine stores_withResult ((stores_query address question V).bind fun V' _ reply _ => ?_)
      split <;> exact stores_any _ V'
  | findNode target =>
      refine stores_withResult (stores_unlessClosed ?_)
      exact (stores_nodes target .table V).bind fun V' _ _ _ => stores_any _ V'
  | getPeers infoHash =>
      refine stores_withResult (stores_unlessClosed ?_)
      exact (stores_lookupPeers infoHash V).bind fun V' _ _ _ => stores_any _ V'
  | announce infoHash port =>
      exact stores_withResult (stores_unlessClosed (stores_announcing infoHash port V))
  | probe contact =>
      exact stores_withResult ((stores_probe contact V).bind fun V' _ _ _ => stores_any _ V')
  | refreshBucket bucket =>
      exact stores_withResult ((stores_refreshBucket bucket V).bind fun V' _ _ _ => stores_any _ V')
  | lookupNodes target seeds =>
      exact stores_withResult ((stores_nodes target seeds V).bind fun V' _ _ _ => stores_any _ V')
  | lookupPeers infoHash target seeds =>
      refine stores_withResult ((stores_start target (.getPeers infoHash) ⟨[], []⟩ seeds V).bind ?_)
      exact fun V' _ _ _ => stores_any _ V'

end Activity

/-- **Whatever a node is given to do**, it stores vouched contacts only, if it is given no
others. -/
theorem Work.stores {work : Work} (named : work.named ⊆ V) :
    work.activity.Stores Activity.Anything V := by
  cases work with
  | request request =>
      exact (Activity.stores_request named).bind fun V' _ _ _ => Activity.stores_any () V'
  | lookup target purpose nothing seeds =>
      exact (Activity.stores_start target purpose nothing seeds V).bind fun V' _ _ _ =>
        Activity.stores_any () V'
  | refreshBucket bucket =>
      exact (Activity.stores_refreshBucket bucket V).bind fun V' _ _ _ => Activity.stores_any () V'
  | lookupPeers infoHash =>
      exact (Activity.stores_lookupPeers infoHash V).bind fun V' _ _ _ => Activity.stores_any () V'
  | lookupRegistered =>
      exact (Activity.stores_lookupRegistered V).bind fun V' _ _ _ => Activity.stores_any () V'

end Mainline
