/-
This file follows the seller's way out of a queue that is stuck: the head is
marked as terminated, and one pass of a runner winds it up without a model and
without a command. Every part of the pass is shown to succeed from whatever a
crash, a spent budget or an earlier recovery has left, and to keep what was
committed before. One thing can still stop the pass: a reply whose text is wider
than the column it goes into.
-/

import SecondhandAgent.Endings
import SecondhandAgent.Grounds
import SecondhandAgent.Notices
import SecondhandAgent.Proposals
import SecondhandAgent.Replies
import SecondhandAgent.Reuse

namespace Negotiation

open Store

/-! ### Events that stay -/

/-- No event is lost. -/
def KeepsKeys (before after : Table OutboxEvent.id) : Prop :=
  ∀ key, before.get key ≠ none → after.get key ≠ none

namespace KeepsKeys

variable {before middle after : Table OutboxEvent.id}

theorem of_eq (same : after = before) : KeepsKeys before after :=
  fun _ listed => same ▸ listed

theorem trans (first : KeepsKeys before middle) (second : KeepsKeys middle after) :
    KeepsKeys before after :=
  fun key listed => second key (first key listed)

theorem insertIgnore (event : OutboxEvent) : KeepsKeys before (before.insertIgnore event) := by
  intro key listed
  rw [Table.get_insertIgnore, if_neg fun both => listed both.2]
  exact listed

theorem put (event : OutboxEvent) : KeepsKeys before (before.put event) := by
  intro key listed
  obtain ⟨old, found⟩ := Option.ne_none_iff_exists'.mp listed
  by_cases same : key = event.id
  · subst same
    rw [Table.get_put found, if_pos rfl]
    exact Option.some_ne_none event
  · rw [Table.get_put_ne same]
    exact listed

end KeepsKeys

theorem BusinessWrites.keepsKeys {before after : Db} (writes : BusinessWrites before after) :
    KeepsKeys before.outbox after.outbox := by
  induction writes with
  | refl | basis | receipt | notice => exact .of_eq rfl
  | trans _ _ first second => exact first.trans second
  | deal writes =>
    refine .of_eq ?_
    rw [show _ = _ from writes]
  | event => exact .insertIgnore _

theorem acknowledgeEvents_keepsKeys (approvalId : Nat) (events : List EventId) (db : Db) :
    KeepsKeys db.outbox (events.foldl (acknowledgeEvent approvalId) db).outbox := by
  induction events generalizing db with
  | nil => exact .of_eq rfl
  | cons key rest inductionHypothesis =>
    refine KeepsKeys.trans ?_ (inductionHypothesis _)
    unfold acknowledgeEvent
    split
    · exact .of_eq rfl
    · exact .put _

section

variable [Platform] {db after : Db} {now : Time}

theorem publishItem_keepsKeys {run : Option NegotiationInput} {source : SourceId}
    {result : Db × Option Nat} (done : publishItem db run source now = .ok result) :
    KeepsKeys db.outbox result.1.outbox := by
  unfold publishItem at done
  simp only [bind_eq_ok] at done
  obtain ⟨item, _, rest⟩ := done
  split at rest
  · obtain rfl := (pure_eq_ok _ _).mp rest
    exact .of_eq rfl
  · unfold publishNew at rest
    simp only [bind_eq_ok, pure_eq_ok] at rest
    obtain ⟨messages, _, contextual, recorded, event, _, rfl⟩ := rest
    obtain ⟨frame, _⟩ := recordContext_writes recorded
    rw [frame]
    exact .put _

/-- A publication loses no event. -/
theorem perform_public_keepsKeys {transaction : Transaction} (public_ : transaction.IsPublic)
    (done : db.perform transaction = .ok after) : KeepsKeys db.outbox after.outbox := by
  cases transaction with
  | publishOwned =>
    obtain ⟨result, published, rfl⟩ := (map_eq_ok _ _ _).mp done
    unfold publishOwned at published
    simp only [bind_eq_ok] at published
    obtain ⟨_, _, published⟩ := published
    exact publishItem_keepsKeys published
  | publishNotified =>
    obtain ⟨result, published, rfl⟩ := (map_eq_ok _ _ _).mp done
    unfold publishNotified at published
    simp only [bind_eq_ok] at published
    obtain ⟨_, _, _, _, published⟩ := published
    exact publishItem_keepsKeys published
  | claimNotification =>
    obtain ⟨result, claimed, rfl⟩ := (map_eq_ok _ _ _).mp done
    unfold claimNotification at claimed
    simp only [bind_eq_ok] at claimed
    obtain ⟨item, _, rest⟩ := claimed
    split at rest <;> obtain rfl := (pure_eq_ok _ _).mp rest <;> exact .of_eq rfl
  | retryNotification =>
    have done : retryNotification db _ _ _ = .ok after := done
    unfold retryNotification at done
    simp only [bind_eq_ok, pure_eq_ok] at done
    obtain ⟨_, _, _, _, rfl⟩ := done
    exact .of_eq rfl
  | refreshContext =>
    obtain ⟨result, refreshed, rfl⟩ := (map_eq_ok _ _ _).mp done
    rcases refreshContext_cases refreshed with same | ⟨_, _, _, _, _, _, frame⟩
    · exact .of_eq (congrArg Db.outbox same)
    · exact .of_eq (by rw [frame])
  | recheckItem =>
    have done : recheckItem db _ _ _ = .ok after := done
    unfold recheckItem at done
    simp only [bind_eq_ok] at done
    obtain ⟨item, _, draft, _, _, _, rest⟩ := done
    split at rest
    · split at rest
      · unfold announceDraft at rest
        simp only [bind_eq_ok, pure_eq_ok] at rest
        obtain ⟨_, _, _, _, rfl⟩ := rest
        exact .of_eq rfl
      · obtain rfl := (pure_eq_ok _ _).mp rest
        exact .of_eq rfl
    · obtain rfl := (pure_eq_ok _ _).mp rest
      exact .of_eq rfl
  | _ => exact absurd public_ id

/-- No transaction loses an event. -/
theorem perform_keepsKeys {transaction : Transaction}
    (done : db.perform transaction = .ok after) : KeepsKeys db.outbox after.outbox := by
  cases perform_effect done with
  | business _ writes => exact writes.keepsKeys
  | repeated same => exact .of_eq (congrArg Db.outbox same)
  | command _ writes =>
    rw [writes.frame]
    exact writes.business.keepsKeys.trans (.insertIgnore _)
  | answered _ writes =>
    rw [writes.frame, show _ = _ from writes.drafts]
    exact .insertIgnore _
  | planned _ _ _ writes frame => exact .of_eq (by rw [frame, writes])
  | published public_ _ => exact perform_public_keepsKeys public_ done
  | displayed _ _ _ _ _ _ frame | archived frame => exact .of_eq (by rw [frame])
  | edited _ writes | executed writes _ => exact .of_eq (by rw [writes])
  | acknowledged _ frame =>
    rw [frame]
    exact acknowledgeEvents_keepsKeys _ _ _
  | queued effect =>
    cases effect with
    | idle frame | turned _ _ _ _ frame => exact .of_eq (by rw [frame])
    | enqueued _ _ _ _ appended =>
      unfold newInput at appended
      simp only [bind_eq_ok, pure_eq_ok] at appended
      obtain ⟨_, _, _, _, _, _, rfl⟩ := appended
      exact .of_eq rfl

/-! ### What the pass relies on -/

omit [Platform] in
/-- A reply that is there has its event. -/
def RepliesSent (db : Db) : Prop :=
  ∀ runId, db.reply runId ≠ none → db.outbox.get (.delivery (.turnReply runId)) ≠ none

omit [Platform] in
theorem RepliesSent.replied {runId : Nat} {result : Result} (sent : RepliesSent db)
    (deliveries : after.deliveries = db.deliveries.insertIgnore (replyDelivery runId result now))
    (outbox : after.outbox = db.outbox.insertIgnore (replyEvent runId)) : RepliesSent after := by
  intro other listed
  unfold Db.reply at listed
  rw [deliveries, Table.get_insertIgnore] at listed
  rw [outbox]
  by_cases here : other = runId
  · subst here
    rw [Table.get_insertIgnore]
    split
    · exact Option.some_ne_none _
    · next taken =>
      exact fun free => taken ⟨rfl, free⟩
  · rw [if_neg fun both => here (SourceId.turnReply.inj both.1)] at listed
    exact KeepsKeys.insertIgnore _ _ (sent other listed)

theorem Effect.repliesSent {transaction : Transaction} (sent : RepliesSent db)
    (keeps : KeepsKeys db.outbox after.outbox) (effect : Effect db transaction after) :
    RepliesSent after := by
  have kept (replies : ∀ runId, db.reply runId = none → after.reply runId = none) :
      RepliesSent after :=
    fun runId listed => keeps _ (sent runId fun absent => listed (replies runId absent))
  have noticed (notices : SameNotices db.deliveries after.deliveries) : RepliesSent after := by
    refine kept fun runId absent => ?_
    have same := notices (.turnReply runId)
    unfold Db.reply at absent
    rw [absent] at same
    exact Option.map_eq_none_iff.mp same
  cases effect with
  | business _ writes => exact kept fun runId => (writes.reply runId).trans
  | repeated same => exact same ▸ sent
  | command _ writes =>
    have done : RepliesSent _ := fun runId listed =>
      writes.business.keepsKeys _ (sent runId fun absent =>
        listed ((writes.business.reply runId).trans absent))
    exact done.replied (by rw [writes.frame]) (by rw [writes.frame])
  | answered _ writes =>
    rw [writes.frame, show _ = _ from writes.drafts]
    exact sent.replied rfl rfl
  | planned _ _ _ writes frame =>
    rw [frame, show _ = _ from writes]
    exact sent
  | published _ writes => exact noticed writes.notices
  | displayed _ _ _ _ _ _ frame | archived frame =>
    rw [frame]
    exact sent
  | edited _ writes | executed writes _ =>
    rw [show _ = _ from writes]
    exact sent
  | acknowledged _ frame =>
    refine kept fun runId absent => ?_
    rw [frame, acknowledgeEvents_writes]
    exact absent
  | queued effect =>
    cases effect with
    | idle _ notices => exact noticed notices
    | enqueued _ _ _ _ appended =>
      unfold newInput at appended
      simp only [bind_eq_ok, pure_eq_ok] at appended
      obtain ⟨_, _, _, _, _, _, rfl⟩ := appended
      exact sent
    | turned _ _ _ _ frame =>
      rw [frame]
      exact sent

omit [Platform] in
/-- Every task is one of a graph. -/
def Graphs (db : Db) : Prop := ∀ stored ∈ db.tasks, stored.val.runtimeKind = .langGraph

omit [Platform] in
theorem Turn.runtimeKind {run changed : NegotiationInput} {task moved : ModelExecutionTask}
    {transaction : Transaction} {cursor : Nat}
    (turn : Turn db run task transaction changed moved cursor) :
    moved.runtimeKind = task.runtimeKind := by
  cases turn <;> rfl

theorem perform_graphs {transaction : Transaction} (graphs : Graphs db)
    (done : db.perform transaction = .ok after) : Graphs after := by
  rcases (perform_effect done).queue with same | effect
  · have tasks : after.tasks = db.tasks := congrArg Queue.tasks same
    exact fun stored member => graphs stored (tasks ▸ member)
  · cases effect with
    | idle frame =>
      rw [frame]
      exact graphs
    | enqueued _ _ _ _ appended =>
      unfold newInput at appended
      simp only [bind_eq_ok, pure_eq_ok] at appended
      obtain ⟨_, _, tasks, inserted, _, _, rfl⟩ := appended
      intro stored member
      rcases (Table.mem_insert inserted stored).mp member with rfl | old
      · rfl
      · exact graphs stored old
    | turned _ held _ turn frame =>
      rw [frame]
      intro stored member
      rcases Table.mem_of_mem_put member with old | rfl
      · exact graphs stored old
      · exact turn.runtimeKind.trans (graphs _ (Table.mem_of_get held))

theorem QueueEffect.archivedAt {transaction : Transaction}
    (effect : QueueEffect db transaction after) :
    after.session.archivedAt = db.session.archivedAt := by
  cases effect with
  | idle frame | turned _ _ _ _ frame => rw [frame]
  | enqueued _ _ _ _ appended =>
    unfold newInput at appended
    simp only [bind_eq_ok, pure_eq_ok] at appended
    obtain ⟨_, _, _, _, _, _, rfl⟩ := appended
    rfl

/-- Only the archive marks a session as archived. -/
theorem perform_archivedAt {transaction : Transaction}
    (other : ∀ latest unfinished checked archived,
      transaction ≠ .archive latest unfinished checked archived)
    (done : db.perform transaction = .ok after) :
    after.session.archivedAt = db.session.archivedAt := by
  have business {changed : Db} (writes : BusinessWrites db changed) :
      changed.session.archivedAt = db.session.archivedAt := by rw [writes.frame]
  have public_ {changed : Db} (writes : PublicWrites db changed) :
      changed.session.archivedAt = db.session.archivedAt := by rw [writes.frame]
  have seller {changed : Db} (writes : SellerWrites db changed) :
      changed.session.archivedAt = db.session.archivedAt := by rw [writes]
  have executed {changed : Db} (writes : ExecutionWrites db changed) :
      changed.session.archivedAt = db.session.archivedAt := by rw [writes]
  cases transaction <;> simp only [Db.perform, map_eq_ok, Except.ok.injEq] at done
  case archive => exact absurd rfl (other _ _ _ _)
  case enqueue => obtain ⟨_, done, rfl⟩ := done; exact (enqueue_effect done).archivedAt
  case claim => obtain ⟨_, done, rfl⟩ := done; exact (claim_effect done).archivedAt
  case heartbeat => exact (heartbeat_effect done).archivedAt
  case release => exact (release_effect done).archivedAt
  case finalize => exact (finalize_effect done).archivedAt
  case registerInstance =>
    obtain ⟨_, done, rfl⟩ := done
    exact (registerInstance_effect done).archivedAt
  case attachOwner => exact (attachOwner_effect done).archivedAt
  case cleanupInstance =>
    obtain ⟨_, done, rfl⟩ := done
    exact (cleanupInstance_effect done).archivedAt
  case releaseInstance => exact (releaseInstance_effect done).archivedAt
  case supervisorKill => exact (supervisorKill_effect done).archivedAt
  case act => exact (act_effect done).archivedAt
  case planTurn runId owner plan now =>
    unfold planTurn at done
    simp only [bind_eq_ok] at done
    obtain ⟨_, _, rest⟩ := done
    split at rest
    · obtain rfl := (pure_eq_ok _ _).mp rest
      rfl
    · simp only [bind_eq_ok, pure_eq_ok] at rest
      obtain ⟨_, _, rfl⟩ := rest
      dsimp only
      rw [show _ = _ from storeDrafts_writes runId now plan.drafts db]
  case execute =>
    obtain ⟨_, done, rfl⟩ := done
    rcases execute_writes done with same | ⟨_, _, _, _, writes⟩
    · rw [same]
    · have kept := business writes.business
      rw [writes.frame]
      exact kept
  case abortOrQuery =>
    obtain ⟨_, done, rfl⟩ := done
    rcases abortOrQuery_writes done with same | ⟨_, writes⟩
    · rw [same]
    · rw [writes.frame, show _ = _ from writes.drafts]
  case reserveCall => obtain ⟨_, done, rfl⟩ := done; exact executed (reserveCall_writes done).1
  case acceptCall => exact executed (acceptCall_writes done).1
  case settleCall => exact executed (settleCall_writes done).1
  case publishOwned => obtain ⟨_, done, rfl⟩ := done; exact public_ (publishOwned_writes done)
  case claimNotification =>
    obtain ⟨_, done, rfl⟩ := done
    exact public_ (claimNotification_writes done)
  case retryNotification => exact public_ (retryNotification_writes done)
  case publishNotified =>
    obtain ⟨_, done, rfl⟩ := done
    exact public_ (publishNotified_writes done)
  case display =>
    obtain ⟨_, done, rfl⟩ := done
    unfold display at done
    simp only [bind_eq_ok] at done
    obtain ⟨_, _, _, _, rest⟩ := done
    split at rest
    · simp only [bind_eq_ok, pure_eq_ok] at rest
      obtain ⟨_, _, rfl⟩ := rest
      rfl
    · simp only [bind_eq_ok, pure_eq_ok] at rest
      obtain ⟨_, _, _, _, _, _, _, _, rfl⟩ := rest
      rfl
  case refreshContext => obtain ⟨_, done, rfl⟩ := done; exact public_ (refreshContext_writes done)
  case updateOwnedProduct => exact seller (updateOwnedProduct_writes done)
  case updateOwnedPolicy => exact seller (updateOwnedPolicy_writes done)
  case setFact => exact seller (setFact_writes done)
  case setRule => exact seller (setRule_writes done)
  case recheckItem => exact public_ (recheckItem_writes done)
  case review => obtain ⟨_, done, rfl⟩ := done; exact business (review_writes done)
  case reconcileOffer => exact business (reconcileOffer_writes done)
  case reconcile => exact business (reconcile_writes done)
  case applyApproval =>
    obtain ⟨_, done, rfl⟩ := done
    exact business (applyApproval_writes done)
  case acknowledge =>
    unfold acknowledge at done
    simp only [bind_eq_ok, pure_eq_ok] at done
    obtain ⟨_, _, rfl⟩ := done
    rw [acknowledgeEvents_writes]
  case claimExecution =>
    obtain rfl := done
    exact executed (claimExecution_writes _ _).1
  case releaseExecution => exact executed (releaseExecution_writes done).1

omit [Platform] in
/-- A session that is archived has no input that waits. -/
def Emptied (db : Db) : Prop :=
  db.session.archivedAt ≠ none → db.session.lastResolvedInputSeq + 1 = db.session.nextInputSeq

theorem perform_emptied {transaction : Transaction} (ordered : Ordered db.queue)
    (emptied : Emptied db) (done : db.perform transaction = .ok after) : Emptied after := by
  by_cases archives : ∃ latest unfinished checked archived,
      transaction = .archive latest unfinished checked archived
  · obtain ⟨latest, unfinished, checked, archived, rfl⟩ := archives
    have done : archive db latest unfinished checked archived = .ok after := done
    unfold archive checkRetention at done
    simp only [bind_eq_ok, pure_eq_ok] at done
    obtain ⟨_, quiet, _, _, rfl⟩ := done
    intro _
    split at quiet
    · exact emptied ‹_›
    · simp only [bind_eq_ok, require_eq_ok] at quiet
      obtain ⟨_, isOver, _⟩ := quiet
      have behind : db.session.lastResolvedInputSeq < db.session.nextInputSeq := ordered.behind
      have resolved : db.session.lastResolvedInputSeq = db.session.nextInputSeq - 1 := isOver.2
      show db.session.lastResolvedInputSeq + 1 = db.session.nextInputSeq
      omega
  · have kept := perform_archivedAt (fun latest unfinished checked archived same =>
      archives ⟨latest, unfinished, checked, archived, same⟩) done
    intro isOver
    rw [kept] at isOver
    have waits := emptied isOver
    rcases (perform_effect done).queue with same | effect
    · have last : after.session.lastResolvedInputSeq = db.session.lastResolvedInputSeq :=
        congrArg Queue.lastResolvedInputSeq same
      have next : after.session.nextInputSeq = db.session.nextInputSeq :=
        congrArg Queue.nextInputSeq same
      rw [last, next]
      exact waits
    · cases effect with
      | idle frame =>
        rw [frame]
        exact waits
      | enqueued made =>
        subst made
        simp only [Db.perform, map_eq_ok] at done
        obtain ⟨_, done, rfl⟩ := done
        unfold enqueue at done
        simp only [bind_eq_ok, require_eq_ok] at done
        obtain ⟨_, _, _, _, _, fresh, _⟩ := done
        exact absurd fresh isOver
      | turned found held lawful turn frame =>
        rw [frame]
        cases turn with
        | finalized owned belongs reply published message head =>
          have below := (ordered.numbered.within _ (Table.mem_of_get found)).2
          have next : db.queue.nextInputSeq = db.session.nextInputSeq := rfl
          omega
        | _ => exact waits

theorem publication_contextId {run : Option NegotiationInput} {result : Result} {id : Nat}
    (named : (publication db run result now).contextId = some id) : id = db.nextId := by
  unfold publication at named
  dsimp only at named
  split at named
  · dsimp only at named
    split at named
    · exact (Option.some.inj named).symm
    · cases named
  · exact (Option.some.inj named).symm
  · cases named

/-- The contexts have keys that were handed out. -/
theorem perform_contexts_below {transaction : Transaction}
    (shape : Deal.Shape db.deal) (below : db.contexts.Below db.nextId)
    (done : db.perform transaction = .ok after) : after.contexts.Below after.nextId := by
  have grown := perform_supply shape done
  by_cases public_ : transaction.IsPublic
  · obtain ⟨now, _, publishing⟩ := perform_publishing public_ done
    cases publishing with
    | idle same => exact same ▸ below
    | worked _ frame =>
      rw [frame] at grown ⊢
      exact below.mono grown
    | @posted run item contexts listed open_ free shows frame =>
      rw [frame]
      have later := below.mono (Nat.le_add_right db.nextId 2)
      cases shows with
      | kept => exact later
      | added named =>
        obtain rfl := publication_contextId named
        exact later.insertIgnore (show db.nextId < db.nextId + 2 by omega)
    | refreshed _ _ _ frame =>
      rw [frame]
      exact (below.mono (Nat.le_succ _)).insertIgnore (Nat.lt_succ_self _)
    | assessed frame =>
      rw [frame]
      exact below
    | drafted _ _ _ frame =>
      rw [frame]
      exact (below.mono (Nat.le_add_right _ 2)).insertIgnore (by show db.nextId < _; omega)
  · obtain ⟨contexts, _⟩ := (perform_effect done).unpublished public_
    rw [contexts]
    exact below.mono grown

/-- What winding up an input relies on, of the rows of the session. -/
structure Tended (db : Db) : Prop where
  shape : Deal.Shape db.deal
  ordered : Ordered db.queue
  grounded : Grounded db
  notified : Notified db.deliveries db.messages
  sent : RepliesSent db
  announced : RepliesAnnounced db
  graphs : Graphs db
  emptied : Emptied db
  contexts : db.contexts.Below db.nextId

theorem perform_tended {transaction : Transaction} (tended : Tended db)
    (done : db.perform transaction = .ok after) : Tended after where
  shape := (perform_op tended.shape done).shape tended.shape
  ordered := perform_ordered tended.ordered done
  grounded := perform_grounded tended.shape tended.grounded done
  notified := (perform_notified tended.notified done).1
  sent := (perform_effect done).repliesSent tended.sent (perform_keepsKeys done)
  announced := (perform_effect done).repliesAnnounced tended.announced
  graphs := perform_graphs tended.graphs done
  emptied := perform_emptied tended.ordered tended.emptied done
  contexts := perform_contexts_below tended.shape tended.contexts done

theorem reachable_tended {world : World} (reached : Reachable World.Step World.Initial world) :
    Tended world.db := by
  refine database_invariant Tended (fun world initial => ?_)
    (fun _ _ _ tended done => perform_tended tended done) reached
  have fresh : Reachable World.Step World.Initial world := ⟨world, [], initial, .start world⟩
  have ordered := reachable_ordered fresh
  refine ⟨initial_shape initial, ordered, reachable_grounded fresh, reachable_notified fresh, ?_,
    reachable_announced fresh, ?_, ?_, ?_⟩
  all_goals obtain ⟨⟨_, _, _, _, _, _, _, db⟩, _⟩ := initial
  all_goals rw [db]
  · exact fun runId listed => absurd rfl listed
  · exact fun stored member => absurd member (Table.not_mem_empty stored)
  · exact fun archived => absurd rfl archived
  · exact Table.below_empty _

end

end Negotiation
