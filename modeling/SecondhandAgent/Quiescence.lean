/-
This file proves that an archived session is at rest. When the archive goes
through, nothing of the session waits and no runner of it is alive; from then
on requests, recoveries, late owners, notification workers and runners that
find their threads finished or deleted all come to nothing: no later state has
another input, task, turn, receipt, notice, event, offer or approval, or one
that changed.
-/

import SecondhandAgent.Acknowledging
import SecondhandAgent.Decisions
import SecondhandAgent.Requests
import SecondhandAgent.Termination

namespace Negotiation

open Store Deal

/-! ### A database at rest -/

/-- No event says what became of the approval. -/
def Unanswered (db : Db) (approvalId : Nat) : Prop :=
  ∀ event ∈ db.outbox, EventOf event approvalId → terminalRank event.id = none

/-- A session that was archived, with nothing left to do. -/
structure Quiet (db : Db) : Prop where
  archived : db.session.archivedAt ≠ none
  isOver : db.deal.Over
  shape : Shape db.deal
  idle : ∀ task ∈ db.tasks, task.val.status = .succeeded ∨ task.val.status = .cancelled
  settled : ∀ approval ∈ db.approvals, approval.status ≠ .pending ∧
    approval.effectStatus ≠ .notApplied
  published : ∀ item ∈ db.deliveries, item.status = .published ∧ item.leaseToken = none
  delivered : ∀ event ∈ db.outbox, event.status ≠ .pending
  applied : ∀ approvalId, HasApplied db approvalId ∨ Unanswered db approvalId

/-- What can still change: what the seller maintains, what is shown of it, and who holds or has
held a lease. A message that is added announces a draft. -/
structure Frozen (before after : Db) : Prop where
  frame : after =
    { before with
      session := { before.session with nextPublicSeq := after.session.nextPublicSeq }
      product := after.product
      policy := after.policy
      facts := after.facts
      rules := after.rules
      drafts := after.drafts
      verifications := after.verifications
      messages := after.messages
      contexts := after.contexts
      acks := after.acks
      executions := after.executions
      ledger := after.ledger
      instances := after.instances
      nextId := after.nextId }
  messages : ∀ message ∈ after.messages, message ∈ before.messages ∨
    ∃ draftId version, message.origin = .source (.draftReady draftId version)

section

variable {before middle after db : Db}

theorem Frozen.refl (db : Db) : Frozen db db := ⟨rfl, fun _ => .inl⟩

theorem Frozen.trans (first : Frozen before middle) (second : Frozen middle after) :
    Frozen before after := by
  refine ⟨?_, fun message member => ?_⟩
  · rw [second.frame, first.frame]
  · exact (second.messages message member).elim (first.messages message) .inr

theorem Unanswered.congr {approvalId : Nat} (unanswered : Unanswered before approvalId)
    (outbox : after.outbox = before.outbox) : Unanswered after approvalId := by
  unfold Unanswered
  rw [outbox]
  exact unanswered

theorem Frozen.outbox (frozen : Frozen before after) : after.outbox = before.outbox := by
  rw [frozen.frame]

theorem Frozen.receipts (frozen : Frozen before after) : after.receipts = before.receipts := by
  rw [frozen.frame]

/-- What is frozen stays at rest. -/
theorem Quiet.kept (quiet : Quiet before) (frozen : Frozen before after) : Quiet after := by
  rw [frozen.frame]
  exact ⟨quiet.archived, quiet.isOver, quiet.shape, quiet.idle, quiet.settled, quiet.published,
    quiet.delivered, quiet.applied⟩

/-- Nobody owns a run any more. -/
theorem Quiet.unowned (quiet : Quiet db) {task : ModelExecutionTask} {lawful : task.Lawful}
    {taskId : Nat} (held : db.tasks.get taskId = some ⟨task, lawful⟩) :
    task.status ≠ .running := by
  intro running
  rcases quiet.idle _ (Table.mem_of_get held) with done | done <;>
    exact ModelTaskStatus.noConfusion (running.symm.trans done)

/-- Every approval is at its end. -/
theorem Quiet.reconciled (quiet : Quiet db) {approval : ApprovalRequest}
    (member : approval ∈ db.approvals) : Settled db approval := by
  obtain ⟨offer, listed, about, _, standing⟩ := quiet.shape.standing approval member
  have agreed_or : db.session.status = .agreed ∨ db.session.status = .closed := quiet.isOver
  rcases agreed_or with agreed | closed
  · exact .inl agreed
  · have vacant := quiet.shape.closed closed
    have dead : ¬ offer.status.IsLive := fun live =>
      Option.some_ne_none offer.id ((quiet.shape.live offer listed live).symm.trans vacant)
    cases standing with
    | waiting _ effect => exact absurd effect (quiet.settled approval member).2
    | applied _ _ _ accepted =>
      exact absurd (by rw [accepted]; decide : offer.status.IsLive) dead
    | refused rejected => exact .inr (.inr rejected)
    | ended _ effect => exact .inr (.inl effect)

end

/-! ### Every transaction but an application -/

section

variable {db after : Db}

/-- Events that are delivered are not marked again. -/
theorem acknowledgeEvents_idle (quiet : ∀ event ∈ db.outbox, event.status ≠ .pending)
    (approvalId : Nat) (events : List EventId) :
    events.foldl (acknowledgeEvent approvalId) db = db := by
  induction events with
  | nil => rfl
  | cons key rest inductionHypothesis =>
    have here : acknowledgeEvent approvalId db key = db := by
      unfold acknowledgeEvent
      split
      · rfl
      · next event found =>
        have listed := Table.mem_of_get (Option.filter_eq_some_iff.mp found).1
        have marked : ({ event with status := .delivered } : OutboxEvent) = event := by
          cases stored : event.status with
          | pending => exact absurd stored (quiet event listed)
          | delivered => rw [← stored]
        rw [marked, Table.put_of_mem listed]
    rw [List.foldl_cons, here]
    exact inductionHypothesis

/-- No turn of a run is left. -/
theorem Quiet.no_turn (quiet : Quiet db) {run changed : NegotiationInput} {stored : StoredTask}
    {task : ModelExecutionTask} {transaction : Transaction} {cursor : Nat}
    (held : db.tasks.get run.taskId = some stored) :
    ¬ Turn db run stored.val transaction changed task cursor := by
  have still := quiet.unowned held
  intro turn
  cases turn with
  | gaveUp claimable | granted claimable => exact quiet.archived claimable.2.1
  | released owned | extended owned | finalized owned => exact still owned.2.1
  | cleaned _ _ running | killed _ running => exact still running
  | recovered _ _ open_ =>
    rcases quiet.idle _ (Table.mem_of_get held) with done | done
    · exact open_.1 done
    · exact open_.2 done

variable [Platform]

theorem review_quiet (quiet : Quiet db) {seller requestId : String} {approvalId : Nat}
    {comment : Option String} {approved : Bool} {expectedRevision : Option Nat} {now : Time}
    {fault : Option FaultPoint} {result : Db × Option String}
    (done : review db seller approvalId requestId comment approved expectedRevision now fault =
      .ok result) : result.1 = db := by
  unfold review at done
  simp only [bind_eq_ok] at done
  obtain ⟨_, _, _, _, ⟨offer, approval⟩, locked, rest⟩ := done
  obtain ⟨asked, _⟩ := lockContext_eq_ok locked
  split at rest
  · simp only [bind_eq_ok, pure_eq_ok] at rest
    obtain ⟨_, _, rfl⟩ := rest
    rfl
  · unfold reviewNew at rest
    simp only [bind_eq_ok, require_eq_ok] at rest
    obtain ⟨_, _, _, pending, _⟩ := rest
    exact absurd pending (quiet.settled approval asked).1

theorem reconcile_quiet (quiet : Quiet db) {approvalId : Nat} {now : Time}
    (done : reconcile db approvalId now = .ok after) : after = db := by
  unfold reconcile at done
  simp only [bind_eq_ok] at done
  obtain ⟨⟨offer, approval⟩, locked, reconciled⟩ := done
  obtain ⟨asked, _⟩ := lockContext_eq_ok locked
  unfold reconcileApproval at reconciled
  rw [if_pos (quiet.reconciled asked)] at reconciled
  exact ((pure_eq_ok _ _).mp reconciled).symm

theorem reconcileOffer_quiet (quiet : Quiet db) {now : Time}
    (done : reconcileOffer db now = .ok after) : after = db := by
  unfold reconcileOffer at done
  split at done
  · exact ((pure_eq_ok _ _).mp done).symm
  · have isOver : db.session.status = .agreed ∨ db.session.status = .closed := quiet.isOver
    rw [if_pos isOver] at done
    exact ((pure_eq_ok _ _).mp done).symm

/-- What is published of an archived session is that a draft is complete. -/
theorem Publishing.frozen (quiet : Quiet db) {now : Time} (publishing : Publishing db now after) :
    Frozen db after := by
  cases publishing with
  | idle same => exact same ▸ .refl db
  | worked listed _ open_ =>
    obtain ⟨published, unleased⟩ := quiet.published _ (Table.mem_of_get listed)
    exact open_.elim (absurd published) (absurd unleased)
  | posted listed open_ => exact absurd (quiet.published _ (Table.mem_of_get listed)).1 open_
  | refreshed _ _ _ frame =>
    rw [frame]
    exact ⟨rfl, fun _ => .inl⟩
  | assessed frame =>
    rw [frame]
    exact ⟨rfl, fun _ => .inl⟩
  | drafted _ _ _ frame =>
    rw [frame]
    refine ⟨rfl, fun message member => ?_⟩
    exact (Table.mem_insertIgnore member).elim (fun new => .inr (new ▸ ⟨_, _, rfl⟩)) .inl

/-- A transaction other than an application leaves an archived session frozen. -/
theorem perform_frozen {transaction : Transaction} (quiet : Quiet db)
    (other : ∀ approvalId eventId owner now fault,
      transaction ≠ .applyApproval approvalId eventId owner now fault)
    (done : db.perform transaction = .ok after) : Frozen db after := by
  cases perform_effect done with
  | business kind _ =>
    cases transaction with
    | review =>
      obtain ⟨result, performed, rfl⟩ := (map_eq_ok _ _ _).mp done
      exact (review_quiet quiet performed).symm ▸ .refl db
    | reconcileOffer => exact (reconcileOffer_quiet quiet done).symm ▸ .refl db
    | reconcile => exact (reconcile_quiet quiet done).symm ▸ .refl db
    | applyApproval => exact absurd rfl (other _ _ _ _ _)
    | _ => exact kind.elim
  | repeated same => exact same.symm ▸ .refl db
  | command made _ =>
    subst made
    obtain ⟨result, performed, _⟩ := (map_eq_ok _ _ _).mp done
    unfold execute at performed
    simp only [bind_eq_ok, Prod.exists, lockOwner_eq_ok] at performed
    obtain ⟨_, _, ⟨_, ⟨_, held⟩, owned⟩, _⟩ := performed
    exact absurd owned.2.1 (quiet.unowned held)
  | answered made _ =>
    subst made
    obtain ⟨result, performed, _⟩ := (map_eq_ok _ _ _).mp done
    unfold abortOrQuery at performed
    simp only [bind_eq_ok, Prod.exists, lockOwner_eq_ok] at performed
    obtain ⟨_, _, ⟨_, ⟨_, held⟩, owned⟩, _⟩ := performed
    exact absurd owned.2.1 (quiet.unowned held)
  | planned made _ _ _ _ =>
    subst made
    have performed : planTurn db _ _ _ _ = .ok after := done
    unfold planTurn at performed
    simp only [bind_eq_ok, Prod.exists, lockOwner_eq_ok] at performed
    obtain ⟨_, _, ⟨_, ⟨_, held⟩, owned⟩, _⟩ := performed
    exact absurd owned.2.1 (quiet.unowned held)
  | published kind _ =>
    obtain ⟨_, _, publishing⟩ := perform_publishing kind done
    exact publishing.frozen quiet
  | displayed _ _ _ _ _ _ frame =>
    rw [frame]
    exact ⟨rfl, fun _ => .inl⟩
  | edited _ writes | executed writes =>
    rw [show _ = _ from writes]
    exact ⟨rfl, fun _ => .inl⟩
  | acknowledged _ frame =>
    rw [frame, acknowledgeEvents_idle quiet.delivered]
    exact .refl db
  | queued effect =>
    cases effect with
    | idle frame _ _ work =>
      have deliveries : after.deliveries = db.deliveries := by
        cases work with
        | same same => exact same
        | changed listed _ open_ =>
          obtain ⟨published, unleased⟩ := quiet.published _ (Table.mem_of_get listed)
          exact open_.elim (absurd published) (absurd unleased)
      have actions : after.actions = db.actions := by
        refine perform_actions ?_ done
        rintro seller target action requestId reason now rfl
        have acted : act db seller target action requestId reason now = .ok after := done
        unfold act at acted
        simp only [bind_eq_ok, require_eq_ok] at acted
        obtain ⟨_, _, _, _, _, unarchived, _⟩ := acted
        exact quiet.archived unarchived
      rw [deliveries, actions] at frame
      rw [frame]
      exact ⟨rfl, fun _ => .inl⟩
    | enqueued made _ _ _ _ =>
      subst made
      obtain ⟨result, performed, _⟩ := (map_eq_ok _ _ _).mp done
      unfold enqueue at performed
      simp only [bind_eq_ok, require_eq_ok] at performed
      obtain ⟨_, _, _, _, _, unarchived, _⟩ := performed
      exact absurd unarchived quiet.archived
    | turned _ held _ turn _ => exact absurd turn (quiet.no_turn held)
  | archived frame =>
    cases transaction with
    | archive latest unfinished checked archived =>
      have performed : archive db latest unfinished checked archived = .ok after := done
      unfold archive at performed
      simp only [bind_eq_ok, pure_eq_ok] at performed
      obtain ⟨_, _, _, _, rfl⟩ := performed
      obtain ⟨since, known⟩ := Option.ne_none_iff_exists'.mp quiet.archived
      have same : db.session.archivedAt.or (some (datetime archived)) = db.session.archivedAt := by
        rw [known]
        rfl
      rw [same]
      exact .refl db
    | _ =>
      have same := perform_archivedAt (by rintro _ _ _ _ ⟨⟩) done
      rw [same] at frame
      rw [frame]
      exact .refl db

end

/-! ### Runners -/

/-- A thread that has nothing to carry out. -/
def Checkpoint.Rests (db : Db) (approvalId : Nat) (thread : Checkpoint) : Prop :=
  thread.next = none ∨ Unanswered db approvalId ∧
    (thread.next = some .start ∨ thread.next = some .loadApproval ∨
      thread.next = some .waitForSeller)

/-- A checkpoint that a runner goes on from is one of an approval that was never answered. -/
def Checkpoint.Spent (db : Db) (approvalId : Nat) (found : Checkpoint) : Prop :=
  found.values = none ∨ found.next ≠ none → Unanswered db approvalId

/-- What a runner remembers leads to no application. -/
def Stage.Rests (db : Db) (approvalId : Nat) : Stage → Prop
  | .coveringEarlier found | .acknowledgingEarlier found _ | .deciding found =>
    found.Spent db approvalId
  | .resuming _ => Unanswered db approvalId
  | .running resume => resume = none
  | .applied _ | .publishing _ | .noticed _ | .retrying _ => False
  | _ => True

section

variable {db after : Db} {approvalId : Nat} {thread : Checkpoint}

theorem Checkpoint.Rests.congr (rests : thread.Rests db approvalId)
    (outbox : after.outbox = db.outbox) : thread.Rests after approvalId :=
  rests.imp_right fun waits => ⟨waits.1.congr outbox, waits.2⟩

theorem Stage.Rests.congr {stage : Stage} (rests : stage.Rests db approvalId)
    (outbox : after.outbox = db.outbox) : stage.Rests after approvalId := by
  cases stage with
  | coveringEarlier | acknowledgingEarlier | deciding =>
    exact fun goes => Unanswered.congr (rests goes) outbox
  | resuming => exact Unanswered.congr rests outbox
  | running | applied | publishing | noticed | retrying => exact rests
  | reconciling | inspecting | finishing | covering | acknowledging | releasing | failed =>
    trivial

theorem foldl_laterEvent_none {events : List EventId}
    (open_ : ∀ event ∈ events, terminalRank event = none) :
    events.foldl laterEvent none = none := by
  induction events with
  | nil => rfl
  | cons event rest inductionHypothesis =>
    have here : laterEvent none event = none := by
      unfold laterEvent
      rw [open_ event List.mem_cons_self]
    rw [List.foldl_cons, here]
    exact inductionHypothesis fun other listed => open_ other (List.mem_cons_of_mem _ listed)

/-- An approval that was never answered has no terminal event. -/
theorem Unanswered.terminalEvent (unanswered : Unanswered db approvalId) {event : Option EventId}
    (done : terminalEvent db approvalId = .ok event) : event = none := by
  unfold Negotiation.terminalEvent at done
  simp only [bind_eq_ok] at done
  obtain ⟨approval, _, rest⟩ := done
  split at rest
  · exact ((pure_eq_ok _ _).mp rest).symm
  · obtain rfl := (pure_eq_ok _ _).mp rest
    refine foldl_laterEvent_none fun key listed => ?_
    obtain ⟨event, stored, rfl⟩ := List.mem_map.mp listed
    obtain ⟨member, belongs⟩ := List.mem_filter.mp stored
    exact unanswered event member (of_decide_eq_true belongs)

/-- A runner that raises remembers nothing, unless it publishes. -/
theorem Stage.rests_afterError {stage next : Stage} {fault : Failure}
    (rests : stage.Rests db approvalId) (goes : stage.afterError fault = some next) :
    next.Rests db approvalId := by
  unfold Stage.afterError at goes
  split at goes
  · exact rests.elim
  · cases goes
  · split at goes <;> obtain rfl := Option.some.inj goes <;> trivial

/-- What a step of a runner leaves of an archived session. -/
structure Rested (db : Db) (approvalId : Nat) (next : Advance) : Prop where
  frozen : Frozen db next.db
  thread : next.thread.Rests db approvalId
  stage : ∀ stage, next.stage = some stage → stage.Rests db approvalId

variable [Platform] {runner : Runner} {now later : Time} {fault : Option FaultPoint}
variable {next : Advance}

omit [Platform] in
theorem Rested.of_same {written : Checkpoint} {stage : Option Stage}
    (thread : written.Rests db approvalId)
    (goes : ∀ next, stage = some next → next.Rests db approvalId) :
    Rested db approvalId { db, thread := written, stage } :=
  ⟨.refl db, thread, goes⟩

theorem runNode_rests (rests : thread.Rests db runner.approvalId)
    (done : runNode db thread runner none now fault = .ok next) :
    Rested db runner.approvalId next := by
  unfold runNode at done
  split at done
  · obtain rfl := (pure_eq_ok _ _).mp done
    exact .of_same rests fun stage goes => Option.some.inj goes ▸ trivial
  · next starts =>
    obtain rfl := (pure_eq_ok _ _).mp done
    have unanswered := (rests.resolve_left fun none =>
      Option.some_ne_none _ (starts.symm.trans none)).1
    exact .of_same (.inr ⟨unanswered, .inr (.inl rfl)⟩) fun stage goes =>
      Option.some.inj goes ▸ rfl
  · next loads =>
    simp only [bind_eq_ok, pure_eq_ok] at done
    obtain ⟨event, last, rfl⟩ := done
    have unanswered := (rests.resolve_left fun none =>
      Option.some_ne_none _ (loads.symm.trans none)).1
    have absent := unanswered.terminalEvent last
    refine .of_same (.inr ⟨unanswered, .inr (.inr ?_)⟩) fun stage goes =>
      Option.some.inj goes ▸ rfl
    rw [absent]
    rfl
  · obtain rfl := (pure_eq_ok _ _).mp done
    exact .of_same rests fun stage goes => Option.some.inj goes ▸ trivial
  · next applies =>
    rcases rests with none | ⟨_, start | load | wait⟩
    · exact absurd (applies.symm.trans none) (Option.some_ne_none _)
    · cases applies.symm.trans start
    · cases applies.symm.trans load
    · cases applies.symm.trans wait
  · next publishes =>
    rcases rests with none | ⟨_, start | load | wait⟩
    · exact absurd (publishes.symm.trans none) (Option.some_ne_none _)
    · cases publishes.symm.trans start
    · cases publishes.symm.trans load
    · cases publishes.symm.trans wait

/-- A step of a runner of an archived session comes to nothing. -/
theorem advance_rests (quiet : Quiet db) (rests : thread.Rests db runner.approvalId)
    (stage : runner.stage.Rests db runner.approvalId)
    (done : advance db thread runner now later fault = .ok next) :
    Rested db runner.approvalId next := by
  unfold advance at done
  dsimp only at done
  split at done
  case h_1 =>
    simp only [bind_eq_ok, pure_eq_ok] at done
    obtain ⟨reconciled, performed, rfl⟩ := done
    rw [reconcile_quiet quiet performed]
    exact .of_same rests fun stage goes => Option.some.inj goes ▸ trivial
  case h_2 =>
    unfold inspect at done
    simp only [bind_eq_ok, pure_eq_ok, require_eq_ok] at done
    obtain ⟨execution, _, _, kept, rfl⟩ := done
    have spent : thread.Spent db runner.approvalId := by
      rintro (lost | open_)
      · have fresh := (kept.resolve_left (not_not_intro lost)).2
        exact (quiet.applied runner.approvalId).resolve_left fresh
      · exact (rests.resolve_left open_).1
    refine .of_same rests fun stage goes => ?_
    obtain rfl := Option.some.inj goes
    split <;> exact spent
  case h_3 found at_ =>
    rw [at_] at stage
    obtain rfl := (pure_eq_ok _ _).mp done
    exact .of_same rests fun next goes => Option.some.inj goes ▸ stage
  case h_4 found events at_ =>
    rw [at_] at stage
    simp only [bind_eq_ok, pure_eq_ok] at done
    obtain ⟨marked, performed, rfl⟩ := done
    unfold acknowledge at performed
    simp only [bind_eq_ok, pure_eq_ok] at performed
    obtain ⟨_, _, rfl⟩ := performed
    rw [acknowledgeEvents_idle quiet.delivered]
    exact .of_same rests fun next goes => Option.some.inj goes ▸ stage
  case h_5 found at_ =>
    rw [at_] at stage
    obtain rfl := (pure_eq_ok _ _).mp done
    have pending : pendingEvents db runner.approvalId = [] := by
      unfold pendingEvents
      rw [List.map_eq_nil_iff, List.filter_eq_nil_iff]
      intro event member due
      exact quiet.delivered event member (of_decide_eq_true due).2
    unfold decideEntry
    dsimp only
    split
    · next begins =>
      have lost : found.values = none :=
        begins.resolve_right fun open_ => open_.2 pending
      exact .of_same (.inr ⟨stage (.inl lost), .inl rfl⟩) fun next goes =>
        Option.some.inj goes ▸ rfl
    · split
      · next open_ =>
        exact .of_same rests fun next goes => Option.some.inj goes ▸ stage (.inr open_)
      · exact .of_same rests fun next goes => Option.some.inj goes ▸ trivial
  case h_6 found at_ =>
    rw [at_] at stage
    unfold resumeEntry at done
    simp only [bind_eq_ok] at done
    obtain ⟨event, last, rest⟩ := done
    obtain rfl := Unanswered.terminalEvent stage last
    split at rest
    · obtain rfl := (pure_eq_ok _ _).mp rest
      exact .of_same rests fun next goes => Option.some.inj goes ▸ trivial
    · obtain rfl := (pure_eq_ok _ _).mp rest
      exact .of_same rests fun next goes => Option.some.inj goes ▸ rfl
  case h_7 resume at_ =>
    rw [at_] at stage
    obtain rfl : resume = none := stage
    exact runNode_rests rests done
  case h_8 result at_ | h_9 token at_ | h_10 token at_ | h_11 messageId at_ =>
    rw [at_] at stage
    exact stage.elim
  case h_12 at_ =>
    obtain rfl := (pure_eq_ok _ _).mp done
    refine .of_same rests fun next goes => ?_
    obtain rfl := Option.some.inj goes
    split <;> trivial
  case h_13 final at_ =>
    obtain rfl := (pure_eq_ok _ _).mp done
    exact .of_same rests fun next goes => Option.some.inj goes ▸ trivial
  case h_14 final events at_ =>
    simp only [bind_eq_ok, pure_eq_ok] at done
    obtain ⟨marked, performed, rfl⟩ := done
    unfold acknowledge at performed
    simp only [bind_eq_ok, pure_eq_ok] at performed
    obtain ⟨_, _, rfl⟩ := performed
    rw [acknowledgeEvents_idle quiet.delivered]
    exact .of_same rests fun next goes => Option.some.inj goes ▸ trivial
  case h_15 checkpointId at_ =>
    simp only [bind_eq_ok, pure_eq_ok] at done
    obtain ⟨released, performed, rfl⟩ := done
    have performs : db.perform (.releaseExecution runner.approvalId runner.owner
        (some checkpointId) false false now later) = .ok released := performed
    exact ⟨perform_frozen quiet (by rintro _ _ _ _ _ ⟨⟩) performs, rests, by rintro _ ⟨⟩⟩
  case h_16 recovery at_ =>
    simp only [bind_eq_ok, pure_eq_ok] at done
    obtain ⟨released, performed, rfl⟩ := done
    have performs : db.perform (.releaseExecution runner.approvalId runner.owner
        none true recovery now later) = .ok released := performed
    exact ⟨perform_frozen quiet (by rintro _ _ _ _ _ ⟨⟩) performs, rests, by rintro _ ⟨⟩⟩

end

/-! ### Every run -/

/-- An archived session whose threads and runners have nothing to carry out. -/
structure AtRest (world : World) : Prop where
  quiet : Quiet world.db
  threads : ∀ approvalId, (world.threads approvalId).Rests world.db approvalId
  runners : ∀ runner ∈ world.runners, runner.stage.Rests world.db runner.approvalId

/-- The world with the deletion of threads begun: the archive deletes its threads one after the
other once it has committed, and may be stopped on the way. -/
def World.withoutThreads (world : World) (deleted : Nat → Bool) : World :=
  { world with threads := fun approvalId =>
      if deleted approvalId then {} else world.threads approvalId }

section

variable [Platform] {world : World}

omit [Platform] in
theorem AtRest.frozen {db : Db} (rest : AtRest world) (frozen : Frozen world.db db) :
    AtRest { world with db } where
  quiet := rest.quiet.kept frozen
  threads approvalId := (rest.threads approvalId).congr frozen.outbox
  runners runner member := (rest.runners runner member).congr frozen.outbox

omit [Platform] in
theorem AtRest.setStage {runner : Runner} {stage : Option Stage} (rest : AtRest world)
    (goes : ∀ next, stage = some next → next.Rests world.db runner.approvalId) :
    AtRest (world.setStage runner stage) := by
  cases stage with
  | none =>
    exact ⟨rest.quiet, rest.threads, fun other member =>
      rest.runners other (Table.mem_remove.mp member).1⟩
  | some stage =>
    refine ⟨rest.quiet, rest.threads, fun other member => ?_⟩
    rcases Table.mem_of_mem_put member with old | rfl
    · exact rest.runners other old
    · exact goes stage rfl

theorem AtRest.call {transaction : Transaction} (rest : AtRest world)
    (others : ¬ transaction.OfRunner) :
    AtRest (world.settleTransaction transaction) ∧
      Frozen world.db (world.settleTransaction transaction).db := by
  unfold World.settleTransaction
  split
  · next db done =>
    have frozen : Frozen world.db db := by
      refine perform_frozen rest.quiet ?_ done
      rintro approvalId eventId owner now fault rfl
      exact others trivial
    exact ⟨rest.frozen frozen, frozen⟩
  · exact ⟨rest, .refl _⟩

theorem AtRest.addRunner (rest : AtRest world) (approvalId : Nat) (now : Time) :
    AtRest (world.addRunner approvalId now) ∧
      Frozen world.db (world.addRunner approvalId now).db := by
  have done : world.db.perform (.claimExecution approvalId now) =
      .ok (claimExecution world.db approvalId now).1 := rfl
  have frozen := perform_frozen rest.quiet (by rintro _ _ _ _ _ ⟨⟩) done
  have claimed := rest.frozen frozen
  unfold World.addRunner
  split
  · next db free =>
    rw [free] at claimed frozen
    exact ⟨claimed, frozen⟩
  · next db owner held =>
    rw [held] at claimed frozen
    refine ⟨⟨claimed.quiet, claimed.threads, fun runner member => ?_⟩, frozen⟩
    rcases Table.mem_insertIgnore member with rfl | old
    · trivial
    · exact claimed.runners runner old

theorem AtRest.stepRunner {runner : Runner} (rest : AtRest world)
    (member : runner ∈ world.runners) (now later : Time) (fault : Option FaultPoint) :
    AtRest (world.stepRunner runner now later fault) ∧
      Frozen world.db (world.stepRunner runner now later fault).db := by
  unfold World.stepRunner
  split
  · next next done =>
    obtain ⟨frozen, thread, stage⟩ := advance_rests rest.quiet (rest.threads runner.approvalId)
      (rest.runners runner member) done
    refine ⟨AtRest.setStage ⟨rest.quiet.kept frozen, fun approvalId => ?_, fun other listed =>
      (rest.runners other listed).congr frozen.outbox⟩ fun goal goes =>
        (stage goal goes).congr frozen.outbox, ?_⟩
    · show (Function.update world.threads runner.approvalId next.thread approvalId).Rests
        next.db approvalId
      by_cases same : approvalId = runner.approvalId
      · rw [same, Function.update_self]
        exact thread.congr frozen.outbox
      · rw [Function.update_of_ne same]
        exact (rest.threads approvalId).congr frozen.outbox
    · rw [setStage_db]
      exact frozen
  · refine ⟨rest.setStage fun goal goes =>
      Stage.rests_afterError (rest.runners runner member) goes, ?_⟩
    rw [setStage_db]
    exact .refl _

/-- No step stirs an archived session. -/
theorem step_rests {before after : World} {event : Event} (rest : AtRest before)
    (step : World.Step before event after) : AtRest after ∧ Frozen before.db after.db := by
  obtain ⟨_, allowed, rfl⟩ := step
  have react : AtRest (before.react event) ∧ Frozen before.db (before.react event).db := by
    unfold World.react
    cases event with
    | call transaction => exact rest.call allowed
    | runnerClaim approvalId now => exact rest.addRunner approvalId now
    | runnerStep token now later fault =>
      dsimp only
      split
      · exact ⟨rest, .refl _⟩
      · next runner found => exact rest.stepRunner (Table.mem_of_get found) now later fault
    | runnerRaise token =>
      dsimp only
      split
      · exact ⟨rest, .refl _⟩
      · next runner found =>
        refine ⟨rest.setStage fun goal goes => Option.some.inj goes ▸ trivial, ?_⟩
        rw [setStage_db]
        exact .refl _
    | runnerCrash token =>
      dsimp only
      split
      · exact ⟨rest, .refl _⟩
      · next runner found =>
        have dropped : AtRest (before.setStage runner none) := rest.setStage (by rintro _ ⟨⟩)
        exact ⟨dropped, .refl _⟩
  exact ⟨⟨react.1.quiet, react.1.threads, react.1.runners⟩, react.2⟩

theorem run_rests {first last : World} {history : List (Transition World Event)}
    (rest : AtRest first) (run : Run World.Step first history last) :
    AtRest last ∧ Frozen first.db last.db := by
  induction run with
  | start => exact ⟨rest, .refl _⟩
  | next _ taken inductionHypothesis =>
    obtain ⟨still, frozen⟩ := inductionHypothesis
    obtain ⟨stays, more⟩ := step_rests still taken
    exact ⟨stays, frozen.trans more⟩

/-- A call leaves the threads and the runners of approvals alone. -/
theorem called_alone (world : World) (transaction : Transaction) :
    (world.next (.call transaction)).threads = world.threads ∧
      (world.next (.call transaction)).runners = world.runners := by
  show (world.settleTransaction transaction).threads = _ ∧
    (world.settleTransaction transaction).runners = _
  unfold World.settleTransaction
  split <;> exact ⟨rfl, rfl⟩

theorem calls_alone (world : World) (transactions : List Transaction) :
    (world.after (transactions.map .call)).threads = world.threads ∧
      (world.after (transactions.map .call)).runners = world.runners := by
  induction transactions generalizing world with
  | nil => exact ⟨rfl, rfl⟩
  | cons transaction rest inductionHypothesis =>
    obtain ⟨threads, runners⟩ := called_alone world transaction
    obtain ⟨more, others⟩ := inductionHypothesis (world.next (.call transaction))
    exact ⟨more.trans threads, others.trans runners⟩

/-- What an archive that goes through leaves is at rest. -/
theorem archive_rests {before next : World} {latest checked archived : Time} {unfinished : Bool}
    (reached : Reachable World.Step World.Initial before)
    (step : World.Step before (.call (.archive latest unfinished checked archived)) next)
    (unmarked : before.db.session.archivedAt = none)
    (marked : next.db.session.archivedAt ≠ none) : Quiet next.db := by
  rcases step.called with same | done
  · exact absurd unmarked (same ▸ marked)
  · have performed : archive before.db latest unfinished checked archived = .ok next.db := done
    unfold archive checkRetention at performed
    rw [if_neg (not_not_intro unmarked)] at performed
    simp only [bind_eq_ok, pure_eq_ok, require_eq_ok] at performed
    obtain ⟨_, ⟨_, ⟨isOver, _⟩, _, _, _, settled, _, published, _, idle, _, _, _, delivered, _⟩,
      _, _, frame⟩ := performed
    have shape := reachable_shape reached
    have covered := reached.invariant Covered (fun _ => initial_covered)
      fun _ _ _ held step => step_covered held step
    have notified := reachable_notified reached
    have truthful := reachable_truthful reached
    rw [← frame] at marked ⊢
    refine ⟨marked, isOver, shape, idle, settled, fun item member => ?_, delivered,
      fun approvalId => ?_⟩
    · exact ⟨published item member, (notified.named item member (published item member)).1⟩
    · refine or_iff_not_imp_left.mpr fun fresh event member belongs => ?_
      have due := covered.events event member (delivered event member)
      cases key : event.id with
      | delivery => rfl
      | approval other suffix =>
        have mine := (truthful event member other suffix key).1
        obtain rfl : other = approvalId := Option.some.inj (mine.symm.trans belongs.1)
        rw [key] at due
        cases suffix with
        | requested => rfl
        | decision => exact absurd due fresh
        | invalidated revision =>
          obtain ⟨result, answered, _⟩ := due
          exact absurd answered.applied fresh

/-- An archived session is at rest. The archive holds the lock of every thread, so that no runner
is alive, and finds no thread unfinished; if it goes through, then whatever requests, reviews,
recoveries, late owners, notification workers and runners do afterwards, and however many of the
threads were deleted, the session keeps its inputs, tasks, turns, receipts, notices, events, offers
and approvals as they are, and the only messages it ever gets announce drafts. -/
theorem archived_sessions_rest {before next last : World} {latest checked archived : Time}
    {unfinished : Bool} {deleted : Nat → Bool} {history : List (Transition World Event)}
    (reached : Reachable World.Step World.Initial before)
    (step : World.Step before (.call (.archive latest unfinished checked archived)) next)
    (unmarked : before.db.session.archivedAt = none)
    (marked : next.db.session.archivedAt ≠ none) (locked : before.runners = .empty)
    (finished : ∀ approvalId, (before.threads approvalId).next = none)
    (run : Run World.Step (next.withoutThreads deleted) history last) :
    Frozen next.db last.db := by
  have quiet := archive_rests reached step unmarked marked
  obtain ⟨_, _, rfl⟩ := step
  obtain ⟨threads, runners⟩ := called_alone before (.archive latest unfinished checked archived)
  rw [locked] at runners
  have rest : AtRest
      ((before.next (.call (.archive latest unfinished checked archived))).withoutThreads
        deleted) := by
    refine ⟨quiet, fun approvalId => .inl ?_, fun runner member => ?_⟩
    · unfold World.withoutThreads
      dsimp only
      split
      · rfl
      · rw [threads]
        exact finished approvalId
    · unfold World.withoutThreads at member
      rw [runners] at member
      exact absurd member (Table.not_mem_empty runner)
  exact (run_rests rest run).2

end

/-- The buyer's offer is accepted, the buyer closes the session, and both inputs are answered. -/
def ending [Platform] : List Event :=
  firstCommand highOffer ++ reply highOffer 7 ++
    [.call (.enqueue "buyer" "second" (.typed { kind := .close }) none (seconds 4)),
      .call (.claim 8 (seconds 4)), .call (.execute 8 (11, 1) 2 (seconds 4) none),
      .call (.publishOwned 8 (11, 1) (seconds 5)),
      .call (.finalize 8 (11, 1)
        { runId := 8, inputSeq := 2
          inputHash := digest (Payload.typed { kind := .close }).json
          configHash := digest (defaultConfig .negotiationV1).json
          graphVersion := .negotiationV1, publishedMessageId := some 13 } false
        (seconds 5) (seconds 5))]

/-- The archive of the session, the day after it may be archived. -/
def archiving : Event := .call (.archive (seconds 5) false (hours 2184) (hours 2184))

/-- A buyer and a worker come back too late. -/
def tooLate : List Event :=
  [.call (.enqueue "buyer" "third" highOffer none (hours 2184)),
    .call (.claim 8 (hours 2184)), .call (.publishOwned 8 (11, 1) (hours 2185))]

attribute [local instance] samplePlatform in
theorem archived_sessions_rest_ending :
    Frozen (sampleWorld.after (ending ++ [archiving])).db
      (((sampleWorld.after (ending ++ [archiving])).withoutThreads fun _ => true).after
        tooLate).db := by
  have reached : Reachable World.Step World.Initial (sampleWorld.after ending) :=
    World.reachable_after sampleWorld_initial (by decide +kernel : Scheduled 0 ending)
  have step : World.Step (sampleWorld.after ending) archiving
      (sampleWorld.after (ending ++ [archiving])) := by
    rw [World.after_append]
    exact ⟨by decide +kernel, by decide +kernel, rfl⟩
  obtain ⟨transactions, called⟩ : ∃ transactions : List Transaction,
      ending = transactions.map .call := ⟨[_, _, _, _, _, _, _, _, _, _], rfl⟩
  obtain ⟨threads, runners⟩ := calls_alone sampleWorld transactions
  rw [← called] at threads runners
  exact archived_sessions_rest reached step
    (by decide +kernel : (sampleWorld.after ending).db.session.archivedAt = none)
    (by decide +kernel : (sampleWorld.after (ending ++ [archiving])).db.session.archivedAt ≠ none)
    runners (by rw [threads]; exact fun _ => rfl)
    (World.run_history (.start _) (by decide +kernel : Scheduled _ tooLate))

end Negotiation
