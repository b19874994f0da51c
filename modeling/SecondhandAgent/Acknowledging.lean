/-
This file proves that no event of an approval is marked as delivered too early.
One runner covers several events with one graph thread, a runner that lost its
lease can still write that thread, and events arrive while a graph runs; what a
runner remembers at each of its stages, and what a checkpoint says, is vouched
for by the receipt of an application, and receipts are never taken back.
-/

import SecondhandAgent.Receipts
import SecondhandAgent.Supply

namespace Negotiation

open Store

/-! ### What vouches for an event -/

/-- An application of the approval has answered with the result. -/
def AnsweredWith (db : Db) (approvalId : Nat) (result : Result) : Prop :=
  ∃ receipt ∈ db.receipts, receipt.id.isApplyOf approvalId = true ∧
    receipt.result = .business result

/-- What has to have happened before an event may be marked as delivered. -/
def EventId.Due (db : Db) : EventId → Prop
  | .approval approvalId .decision => HasApplied db approvalId
  | .approval approvalId (.invalidated revision) =>
    ∃ result, AnsweredWith db approvalId result ∧ result.outcome = .approvalInvalidated ∧
      revision ≤ result.effectRevision.getD 0
  | _ => True

/-- The thread was run, or is about to be. -/
def Checkpoint.Begun (thread : Checkpoint) : Prop := thread.values ≠ none ∨ thread.next ≠ none

/-- What a checkpoint claims of its approval is so. -/
structure Checkpoint.Vouched (db : Db) (approvalId : Nat) (thread : Checkpoint) : Prop where
  answered : ∀ result, thread.result = some result → AnsweredWith db approvalId result
  through : thread.next = some .publishNotice ∨ thread.next = none ∧ thread.values ≠ none →
    HasApplied db approvalId

/-- What a runner remembers of its approval is so. -/
def Stage.Vouched (db : Db) (approvalId : Nat) (thread : Checkpoint) : Stage → Prop
  | .reconciling | .inspecting | .retrying _ | .releasing _ | .failed _ => True
  | .coveringEarlier found =>
    found.Vouched db approvalId ∧ found.next = none ∧ found.values ≠ none ∧ thread.Begun
  | .acknowledgingEarlier _ events => (∀ event ∈ events, event.Due db) ∧ thread.Begun
  | .deciding found => found.Begun → thread.Begun
  | .resuming _ | .running _ | .finishing => thread.Begun
  | .applied result => AnsweredWith db approvalId result
  | .publishing _ | .noticed _ => HasApplied db approvalId
  | .covering final => final.Vouched db approvalId ∧ final.next = none ∧ final.values ≠ none
  | .acknowledging _ events => ∀ event ∈ events, event.Due db

section

variable {before after db : Db} {approvalId : Nat} {thread later : Checkpoint}

theorem AnsweredWith.mono {result : Result}
    (kept : ∀ receipt ∈ before.receipts, receipt ∈ after.receipts)
    (answered : AnsweredWith before approvalId result) : AnsweredWith after approvalId result := by
  obtain ⟨receipt, member, rest⟩ := answered
  exact ⟨receipt, kept receipt member, rest⟩

theorem AnsweredWith.applied {result : Result} (answered : AnsweredWith db approvalId result) :
    HasApplied db approvalId := by
  obtain ⟨receipt, member, kind, _⟩ := answered
  exact ⟨receipt, member, kind⟩

theorem HasApplied.mono (kept : ∀ receipt ∈ before.receipts, receipt ∈ after.receipts)
    (applied : HasApplied before approvalId) : HasApplied after approvalId := by
  obtain ⟨receipt, member, kind⟩ := applied
  exact ⟨receipt, kept receipt member, kind⟩

theorem EventId.Due.mono {event : EventId}
    (kept : ∀ receipt ∈ before.receipts, receipt ∈ after.receipts) (due : event.Due before) :
    event.Due after := by
  unfold EventId.Due at due ⊢
  split
  · exact HasApplied.mono kept due
  · obtain ⟨result, answered, rest⟩ := due
    exact ⟨result, answered.mono kept, rest⟩
  · trivial

theorem Checkpoint.Vouched.mono (kept : ∀ receipt ∈ before.receipts, receipt ∈ after.receipts)
    (vouched : thread.Vouched before approvalId) : thread.Vouched after approvalId :=
  ⟨fun result stored => (vouched.answered result stored).mono kept,
    fun through => (vouched.through through).mono kept⟩

/-- What a runner remembers stays so while receipts are added and the thread goes on. -/
theorem Stage.Vouched.mono {stage : Stage}
    (kept : ∀ receipt ∈ before.receipts, receipt ∈ after.receipts)
    (begun : thread.Begun → later.Begun) (vouched : stage.Vouched before approvalId thread) :
    stage.Vouched after approvalId later := by
  cases stage with
  | reconciling | inspecting | retrying | releasing | failed => trivial
  | coveringEarlier found =>
    obtain ⟨earlier, finished, values, run⟩ := vouched
    exact ⟨earlier.mono kept, finished, values, begun run⟩
  | acknowledgingEarlier found events =>
    obtain ⟨due, run⟩ := vouched
    exact ⟨fun event listed => (due event listed).mono kept, begun run⟩
  | deciding found => exact fun run => begun (vouched run)
  | resuming | running | finishing => exact begun vouched
  | applied => exact AnsweredWith.mono kept vouched
  | publishing | noticed => exact HasApplied.mono kept vouched
  | covering final =>
    obtain ⟨earlier, finished, values⟩ := vouched
    exact ⟨earlier.mono kept, finished, values⟩
  | acknowledging final events => exact fun event listed => (vouched event listed).mono kept

theorem begun_write {values : ApprovalState} {next : Option Node} {interrupted : Bool} :
    (thread.write (some values) next interrupted).Begun := .inl (Option.some_ne_none values)

/-- A checkpoint that is not ready to publish vouches for the result it keeps. -/
theorem vouched_write {values : Option ApprovalState} {node : Node} {interrupted : Bool}
    (other : node ≠ .publishNotice) (answered : ∀ result, values.bind (·.result) = some result →
      AnsweredWith db approvalId result) :
    (thread.write values (some node) interrupted).Vouched db approvalId := by
  refine ⟨answered, fun through => ?_⟩
  rcases through with ready | ⟨finished, _⟩
  · exact absurd (Option.some.inj ready) other
  · exact absurd finished (Option.some_ne_none node)

theorem state_result (thread : Checkpoint) : thread.state.result = thread.result := by
  unfold Checkpoint.state Checkpoint.result
  cases thread.values <;> rfl

/-- A runner that raises remembers nothing. -/
theorem Stage.vouched_afterError (stage next : Stage) (fault : Failure)
    (goes : stage.afterError fault = some next) : next.Vouched db approvalId thread := by
  unfold Stage.afterError at goes
  split at goes
  · obtain rfl := Option.some.inj goes
    trivial
  · cases goes
  · split at goes <;> obtain rfl := Option.some.inj goes <;> trivial

/-! ### The events a result covers -/

/-- Every event that a finished thread covers is due. -/
theorem Checkpoint.Vouched.covered (vouched : thread.Vouched db approvalId)
    (finished : thread.next = none) (values : thread.values ≠ none) :
    ∀ event ∈ coveredEvents db approvalId thread.result, event.Due db := by
  intro event listed
  rcases List.mem_append.mp listed with usual | ended
  · rcases List.mem_cons.mp usual with rfl | usual
    · trivial
    · obtain rfl := List.mem_singleton.mp usual
      exact vouched.through (.inr ⟨finished, values⟩)
  · cases stored : thread.result with
    | none =>
      rw [stored] at ended
      exact absurd ended List.not_mem_nil
    | some result =>
      rw [stored] at ended
      dsimp only at ended
      split at ended
      · next lost =>
        obtain ⟨_, covers⟩ := List.mem_filter.mp ended
        unfold coversInvalidation at covers
        split at covers
        · obtain ⟨same, reached⟩ := Bool.and_eq_true_iff.mp covers
          obtain rfl := of_decide_eq_true same
          exact ⟨result, vouched.answered result stored, lost, of_decide_eq_true reached⟩
        · exact absurd covers Bool.false_ne_true
      · exact absurd ended List.not_mem_nil

end

/-! ### The events of a database -/

/-- Every event that was delivered was due. -/
def EventsDue (db : Db) : Prop :=
  ∀ event ∈ db.outbox, event.status ≠ .pending → event.id.Due db

section

variable {before after db : Db}

theorem EventsDue.mono (kept : ∀ receipt ∈ before.receipts, receipt ∈ after.receipts)
    (delivered : ∀ event ∈ after.outbox, event.status ≠ .pending →
      event.id.Due before ∨ event ∈ before.outbox) (due : EventsDue before) : EventsDue after := by
  intro event member marked
  rcases delivered event member marked with ready | old
  · exact ready.mono kept
  · exact (due event old marked).mono kept

/-- An event is pending when it is recorded. -/
theorem BusinessWrites.delivered (writes : BusinessWrites before after) :
    ∀ event ∈ after.outbox, event.status ≠ .pending → event ∈ before.outbox := by
  induction writes with
  | refl | basis | receipt | notice => exact fun _ member _ => member
  | trans _ _ first second =>
    exact fun event member marked => first event (second event member marked) marked
  | deal writes =>
    rw [show _ = _ from writes]
    exact fun _ member _ => member
  | event db lawful =>
    intro event member marked
    rcases Table.mem_insertIgnore member with rfl | old
    · exact absurd lawful.1 marked
    · exact old

/-- Acknowledging marks the listed events and no others. -/
theorem acknowledgeEvents_delivered (approvalId : Nat) (events : List EventId) (db : Db) :
    ∀ event ∈ (events.foldl (acknowledgeEvent approvalId) db).outbox, event.status ≠ .pending →
      event.id ∈ events ∨ event ∈ db.outbox := by
  induction events generalizing db with
  | nil => exact fun _ member _ => .inr member
  | cons key rest inductionHypothesis =>
    intro event member marked
    rcases inductionHypothesis _ event member marked with listed | stored
    · exact .inl (List.mem_cons_of_mem _ listed)
    · unfold acknowledgeEvent at stored
      split at stored
      · exact .inr stored
      · next old found =>
        rcases Table.mem_of_mem_put stored with same | rfl
        · exact .inr same
        · have keyed : old.id = key :=
            Table.key_of_get (Option.filter_eq_some_iff.mp found).1
          exact .inl (keyed ▸ List.mem_cons_self)

theorem replyEvent_delivered {outbox : Table OutboxEvent.id} {runId : Nat} {event : OutboxEvent}
    (member : event ∈ outbox.insertIgnore (replyEvent runId)) (marked : event.status ≠ .pending) :
    event ∈ outbox := by
  rcases Table.mem_insertIgnore member with rfl | old
  · exact absurd rfl marked
  · exact old

section

variable [Platform]

/-- A transaction marks no event of an approval, unless it acknowledges events. -/
theorem Effect.eventsDue {transaction : Transaction} (effect : Effect before transaction after)
    (listed : ∀ approvalId events owner now,
      transaction = .acknowledge approvalId events owner now → ∀ event ∈ events, event.Due before)
    (due : EventsDue before) : EventsDue after := by
  refine due.mono effect.grows.receipts fun event member marked => ?_
  cases effect with
  | business _ writes => exact .inr (writes.delivered event member marked)
  | repeated same => exact .inr (same ▸ member)
  | command _ writes =>
    rw [writes.frame] at member
    exact .inr (writes.business.delivered event (replyEvent_delivered member marked) marked)
  | answered _ writes =>
    rw [writes.frame, show _ = _ from writes.drafts] at member
    exact .inr (replyEvent_delivered member marked)
  | planned _ _ _ writes frame =>
    rw [frame, writes] at member
    exact .inr member
  | published _ writes =>
    cases key : event.id with
    | delivery source => exact .inl trivial
    | approval approvalId suffix =>
      have got := Table.get_of_mem member
      rw [key, writes.events] at got
      exact .inr (Table.mem_of_get got)
  | displayed _ _ _ _ _ _ frame | archived frame =>
    rw [frame] at member
    exact .inr member
  | edited _ writes | executed writes _ =>
    rw [writes] at member
    exact .inr member
  | @acknowledged approvalId events owner now made frame =>
    rw [frame] at member
    rcases acknowledgeEvents_delivered approvalId events before event member marked with new | old
    · exact .inl (listed _ _ _ _ made event.id new)
    · exact .inr old
  | queued effect =>
    cases effect with
    | idle frame | turned _ _ _ _ frame =>
      rw [frame] at member
      exact .inr member
    | enqueued _ _ _ _ appended =>
      unfold newInput at appended
      simp only [bind_eq_ok, pure_eq_ok] at appended
      obtain ⟨_, _, _, _, _, _, rfl⟩ := appended
      exact .inr member

end

end

/-! ### One step of a runner -/

/-- What a step of a runner leaves is vouched for, and the thread is not reset. -/
structure Covers (db : Db) (approvalId : Nat) (thread : Checkpoint) (next : Advance) : Prop where
  vouched : next.thread.Vouched next.db approvalId
  begun : thread.Begun → next.thread.Begun
  stage : ∀ stage, next.stage = some stage → stage.Vouched next.db approvalId next.thread
  events : EventsDue next.db

section

variable [Platform] {db : Db} {thread : Checkpoint} {runner : Runner} {now later : Time}
variable {fault : Option FaultPoint} {next : Advance}

/-- A step that leaves the thread alone and performs a transaction of its own on the database. -/
theorem Covers.of_perform {approvalId : Nat} {transaction : Transaction} {after : Db}
    {stage : Option Stage} (vouched : thread.Vouched db approvalId) (due : EventsDue db)
    (done : db.perform transaction = .ok after)
    (listed : ∀ approvalId events owner now,
      transaction = .acknowledge approvalId events owner now → ∀ event ∈ events, event.Due db)
    (goes : ∀ next, stage = some next → next.Vouched after approvalId thread) :
    Covers db approvalId thread { db := after, thread, stage } :=
  have effect := perform_effect done
  ⟨vouched.mono effect.grows.receipts, fun begun => begun, goes, effect.eventsDue listed due⟩

omit [Platform] in
/-- A step that leaves the database alone. -/
theorem Covers.of_same {approvalId : Nat} {written : Checkpoint} {stage : Option Stage}
    (due : EventsDue db) (vouched : written.Vouched db approvalId)
    (begun : thread.Begun → written.Begun)
    (goes : ∀ next, stage = some next → next.Vouched db approvalId written) :
    Covers db approvalId thread { db, thread := written, stage } :=
  ⟨vouched, begun, goes, due⟩

/-- An application answers with the result of its receipt. -/
theorem applyApproval_answered {approvalId : Nat} {eventId : EventId} {owner : Owner}
    {result : Db × Result}
    (done : applyApproval db approvalId eventId owner now fault = .ok result) :
    AnsweredWith result.1 approvalId result.2 := by
  unfold applyApproval at done
  simp only [bind_eq_ok] at done
  obtain ⟨_, _, ⟨offer, approval⟩, _, event, _, _, _, rest⟩ := done
  split at rest
  · next receipt found =>
    simp only [bind_eq_ok, pure_eq_ok, expect_eq_ok] at rest
    obtain ⟨_, _, answer, told, rfl⟩ := rest
    refine ⟨receipt, Table.mem_of_get found, ?_, ?_⟩
    · rw [Table.key_of_get found]
      exact decide_eq_true rfl
    · cases kind : receipt.result with
      | business result =>
        rw [kind] at told
        exact congrArg _ (Option.some.inj told)
      | decision _ _ =>
        rw [kind] at told
        cases told
  · unfold applyNew at rest
    simp only [bind_eq_ok, pure_eq_ok] at rest
    obtain ⟨_, _, _, _, _, _, _, _, _, _, _, _, receipts, inserted, _, _, _, _, _, _, rfl⟩ := rest
    refine ⟨_, (Table.mem_insert inserted _).mpr (.inl rfl), ?_, rfl⟩
    exact decide_eq_true (Eq.refl approvalId)

/-- A node keeps what a thread and a runner are vouched for. -/
theorem runNode_covers {resume : Option EventId}
    (vouched : thread.Vouched db runner.approvalId) (due : EventsDue db) (begun : thread.Begun)
    (done : runNode db thread runner resume now fault = .ok next) :
    Covers db runner.approvalId thread next := by
  unfold runNode at done
  split at done
  · obtain rfl := (pure_eq_ok _ _).mp done
    exact .of_same due vouched id fun stage goes => Option.some.inj goes ▸ begun
  · obtain rfl := (pure_eq_ok _ _).mp done
    refine .of_same due (vouched_write (by rintro ⟨⟩) (by rintro _ ⟨⟩)) (fun _ => begun_write) ?_
    exact fun stage goes => Option.some.inj goes ▸ begun_write
  · simp only [bind_eq_ok, pure_eq_ok] at done
    obtain ⟨event, _, rfl⟩ := done
    refine .of_same due (vouched_write ?_ fun result stored => vouched.answered result ?_)
      (fun _ => begun_write) fun stage goes => Option.some.inj goes ▸ begun_write
    · split <;> rintro ⟨⟩
    · exact (state_result thread).symm.trans stored
  · next waiting =>
    split at done
    · obtain rfl := (pure_eq_ok _ _).mp done
      have written : (thread.write thread.values thread.next true).Begun := begun
      exact .of_same due ⟨vouched.answered, vouched.through⟩ id
        fun stage goes => Option.some.inj goes ▸ written
    · obtain rfl := (pure_eq_ok _ _).mp done
      refine .of_same due (vouched_write (by rintro ⟨⟩) fun result stored =>
        vouched.answered result ?_) (fun _ => begun_write) fun stage goes =>
          Option.some.inj goes ▸ begun_write
      exact (state_result thread).symm.trans stored
  · simp only [bind_eq_ok, pure_eq_ok] at done
    obtain ⟨event, _, ⟨applied, result⟩, performed, rfl⟩ := done
    have performs : db.perform (.applyApproval runner.approvalId event runner.owner now fault) =
        .ok applied := (map_eq_ok _ _ _).mpr ⟨_, performed, rfl⟩
    refine .of_perform vouched due performs (by rintro _ _ _ _ ⟨⟩) fun stage goes => ?_
    exact Option.some.inj goes ▸ applyApproval_answered performed
  · next ready =>
    simp only [bind_eq_ok] at done
    obtain ⟨item, _, rest⟩ := done
    have applied := vouched.through (.inl ready)
    split at rest
    · obtain rfl := (pure_eq_ok _ _).mp rest
      exact .of_same due vouched id fun stage goes => Option.some.inj goes ▸ applied
    · simp only [bind_eq_ok] at rest
      obtain ⟨⟨claimed, token⟩, performed, rest⟩ := rest
      have performs : db.perform
          (.claimNotification (noticeSource runner.approvalId thread.result) now) = .ok claimed :=
        (map_eq_ok _ _ _).mpr ⟨_, performed, rfl⟩
      have kept := applied.mono (perform_effect performs).grows.receipts
      cases token <;> obtain rfl := (pure_eq_ok _ _).mp rest <;>
        exact .of_perform vouched due performs (by rintro _ _ _ _ ⟨⟩) fun stage goes =>
          Option.some.inj goes ▸ kept

/-- A step of a runner keeps what a thread and a runner are vouched for. -/
theorem advance_covers (vouched : thread.Vouched db runner.approvalId) (due : EventsDue db)
    (stage : runner.stage.Vouched db runner.approvalId thread)
    (done : advance db thread runner now later fault = .ok next) :
    Covers db runner.approvalId thread next := by
  unfold advance at done
  dsimp only at done
  split at done
  case h_1 =>
    simp only [bind_eq_ok, pure_eq_ok] at done
    obtain ⟨reconciled, performed, rfl⟩ := done
    have performs : db.perform (.reconcile runner.approvalId now) = .ok reconciled := performed
    exact .of_perform vouched due performs (by rintro _ _ _ _ ⟨⟩) fun stage goes =>
      Option.some.inj goes ▸ trivial
  case h_2 =>
    unfold inspect at done
    simp only [bind_eq_ok, pure_eq_ok] at done
    obtain ⟨execution, _, _, _, rfl⟩ := done
    refine .of_same due vouched id fun stage goes => ?_
    obtain rfl := Option.some.inj goes
    split
    · next ended =>
      obtain ⟨finished, answered⟩ := of_decide_eq_true ended
      have values : thread.values ≠ none := fun absent => answered (by
        unfold Checkpoint.result
        rw [absent]
        rfl)
      exact ⟨vouched, finished, values, .inl values⟩
    · exact id
  case h_3 found at_ =>
    rw [at_] at stage
    obtain ⟨earlier, finished, values, begun⟩ := stage
    obtain rfl := (pure_eq_ok _ _).mp done
    exact .of_same due vouched id fun stage goes =>
      Option.some.inj goes ▸ ⟨earlier.covered finished values, begun⟩
  case h_4 found events at_ =>
    rw [at_] at stage
    simp only [bind_eq_ok, pure_eq_ok] at done
    obtain ⟨marked, performed, rfl⟩ := done
    have performs : db.perform (.acknowledge runner.approvalId events runner.owner now) =
        .ok marked := performed
    refine .of_perform vouched due performs (fun _ _ _ _ made => ?_) fun next goes => ?_
    · obtain ⟨_, rfl, _, _⟩ := Transaction.acknowledge.inj made
      exact stage.1
    · exact Option.some.inj goes ▸ fun _ => stage.2
  case h_5 found at_ =>
    rw [at_] at stage
    obtain rfl := (pure_eq_ok _ _).mp done
    unfold decideEntry
    dsimp only
    split
    · have written : (thread.write thread.values (some .start)).Begun := .inr (by rintro ⟨⟩)
      exact .of_same due (vouched_write (by rintro ⟨⟩) vouched.answered) (fun _ => written)
        fun stage goes => Option.some.inj goes ▸ written
    · next known =>
      have begun : thread.Begun := stage (.inl (not_or.mp known).1)
      split
      · exact .of_same due vouched id fun stage goes => Option.some.inj goes ▸ begun
      · exact .of_same due vouched id fun stage goes => Option.some.inj goes ▸ begun
  case h_6 found at_ =>
    rw [at_] at stage
    unfold resumeEntry at done
    simp only [bind_eq_ok] at done
    obtain ⟨event, _, rest⟩ := done
    split at rest
    · split at rest <;> obtain rfl := (pure_eq_ok _ _).mp rest <;>
        exact .of_same due vouched id fun next goes => Option.some.inj goes ▸ stage
    · obtain rfl := (pure_eq_ok _ _).mp rest
      exact .of_same due vouched id fun next goes => Option.some.inj goes ▸ stage
  case h_7 resume at_ =>
    rw [at_] at stage
    exact runNode_covers vouched due stage done
  case h_8 result at_ =>
    rw [at_] at stage
    obtain rfl := (pure_eq_ok _ _).mp done
    refine .of_same due ⟨fun other stored => ?_, fun _ => AnsweredWith.applied stage⟩
      (fun _ => begun_write) fun next goes => Option.some.inj goes ▸ begun_write
    obtain rfl := Option.some.inj stored
    exact stage
  case h_9 token at_ =>
    rw [at_] at stage
    simp only [bind_eq_ok, pure_eq_ok] at done
    obtain ⟨⟨published, messageId⟩, performed, rfl⟩ := done
    have performs : db.perform (.publishNotified none
        (noticeSource runner.approvalId thread.result) token now) = .ok published :=
      (map_eq_ok _ _ _).mpr ⟨_, performed, rfl⟩
    exact .of_perform vouched due performs (by rintro _ _ _ _ ⟨⟩) fun next goes =>
      Option.some.inj goes ▸ HasApplied.mono (perform_effect performs).grows.receipts stage
  case h_10 token at_ =>
    simp only [bind_eq_ok, pure_eq_ok] at done
    obtain ⟨retried, performed, rfl⟩ := done
    have performs : db.perform (.retryNotification
        (noticeSource runner.approvalId thread.result) token now) = .ok retried := performed
    exact .of_perform vouched due performs (by rintro _ _ _ _ ⟨⟩) fun next goes =>
      Option.some.inj goes ▸ trivial
  case h_11 messageId at_ =>
    rw [at_] at stage
    obtain rfl := (pure_eq_ok _ _).mp done
    refine .of_same due ⟨fun result stored => vouched.answered result ?_, fun _ => stage⟩
      (fun _ => begun_write) fun next goes => Option.some.inj goes ▸ begun_write
    exact (state_result thread).symm.trans stored
  case h_12 at_ =>
    rw [at_] at stage
    obtain rfl := (pure_eq_ok _ _).mp done
    refine .of_same due vouched id fun next goes => ?_
    obtain rfl := Option.some.inj goes
    split
    · next finished =>
      have finished := of_decide_eq_true finished
      exact ⟨vouched, finished, stage.resolve_right (not_not_intro finished)⟩
    · intro event listed
      obtain rfl := List.mem_singleton.mp listed
      trivial
  case h_13 final at_ =>
    rw [at_] at stage
    obtain ⟨earlier, finished, values⟩ := stage
    obtain rfl := (pure_eq_ok _ _).mp done
    exact .of_same due vouched id fun next goes =>
      Option.some.inj goes ▸ earlier.covered finished values
  case h_14 final events at_ =>
    rw [at_] at stage
    simp only [bind_eq_ok, pure_eq_ok] at done
    obtain ⟨marked, performed, rfl⟩ := done
    have performs : db.perform (.acknowledge runner.approvalId events runner.owner now) =
        .ok marked := performed
    refine .of_perform vouched due performs (fun _ _ _ _ made => ?_) fun next goes =>
      Option.some.inj goes ▸ trivial
    obtain ⟨_, rfl, _, _⟩ := Transaction.acknowledge.inj made
    exact stage
  case h_15 checkpointId at_ =>
    simp only [bind_eq_ok, pure_eq_ok] at done
    obtain ⟨released, performed, rfl⟩ := done
    have performs : db.perform (.releaseExecution runner.approvalId runner.owner
        (some checkpointId) false false now later) = .ok released := performed
    exact .of_perform vouched due performs (by rintro _ _ _ _ ⟨⟩) (by rintro _ ⟨⟩)
  case h_16 recovery at_ =>
    simp only [bind_eq_ok, pure_eq_ok] at done
    obtain ⟨released, performed, rfl⟩ := done
    have performs : db.perform (.releaseExecution runner.approvalId runner.owner
        none true recovery now later) = .ok released := performed
    exact .of_perform vouched due performs (by rintro _ _ _ _ ⟨⟩) (by rintro _ ⟨⟩)

/-! ### Every step of the system -/

/-- Every thread, every runner and every delivered event is vouched for. -/
structure Covered (world : World) : Prop where
  threads : ∀ approvalId, (world.threads approvalId).Vouched world.db approvalId
  runners : ∀ runner ∈ world.runners,
    runner.stage.Vouched world.db runner.approvalId (world.threads runner.approvalId)
  events : EventsDue world.db

omit [Platform] in
theorem initial_covered {world : World} (initial : World.Initial world) : Covered world := by
  obtain ⟨⟨_, _, _, _, _, _, _, db⟩, threads, runners, _⟩ := initial
  refine ⟨fun approvalId => ?_, fun runner member => ?_, fun event member => ?_⟩
  · rw [threads]
    refine ⟨by rintro _ ⟨⟩, fun through => ?_⟩
    rcases through with ready | ⟨_, values⟩
    · cases ready
    · exact absurd rfl values
  · rw [runners] at member
    exact absurd member (Table.not_mem_empty runner)
  · rw [db] at member
    exact absurd member (Table.not_mem_empty event)

omit [Platform] in
/-- A runner that goes to a stage it can vouch for leaves the system covered. -/
theorem Covered.setStage {world : World} {runner : Runner} {stage : Option Stage}
    (covered : Covered world) (vouched : ∀ next, stage = some next →
      next.Vouched world.db runner.approvalId (world.threads runner.approvalId)) :
    Covered (world.setStage runner stage) := by
  cases stage with
  | none =>
    refine ⟨covered.threads, fun other member => ?_, covered.events⟩
    exact covered.runners other (Table.mem_remove.mp member).1
  | some stage =>
    refine ⟨covered.threads, fun other member => ?_, covered.events⟩
    rcases Table.mem_of_mem_put member with old | rfl
    · exact covered.runners other old
    · exact vouched stage rfl

/-- A transaction that acknowledges nothing leaves the system covered. -/
theorem Covered.perform {world : World} {transaction : Transaction} {db : Db}
    (covered : Covered world) (done : world.db.perform transaction = .ok db)
    (other : ∀ approvalId events owner now,
      transaction ≠ .acknowledge approvalId events owner now) : Covered { world with db } := by
  have effect := perform_effect done
  have kept := effect.grows.receipts
  exact ⟨fun approvalId => (covered.threads approvalId).mono kept, fun runner member =>
    (covered.runners runner member).mono kept id, effect.eventsDue
      (fun approvalId events owner now made => absurd made (other approvalId events owner now))
      covered.events⟩

theorem Covered.call {world : World} {transaction : Transaction} (covered : Covered world)
    (others : ¬ transaction.OfRunner) : Covered (world.settleTransaction transaction) := by
  unfold World.settleTransaction
  split
  · next db done =>
    refine covered.perform done ?_
    rintro approvalId events owner now rfl
    exact absurd trivial others
  · exact covered

theorem Covered.addRunner {world : World} (covered : Covered world) (approvalId : Nat)
    (now : Time) : Covered (world.addRunner approvalId now) := by
  have done : world.db.perform (.claimExecution approvalId now) =
      .ok (claimExecution world.db approvalId now).1 := rfl
  have claimed := covered.perform done (by rintro _ _ _ _ ⟨⟩)
  unfold World.addRunner
  split
  · next db free =>
    rw [free] at claimed
    exact claimed
  · next db owner held =>
    rw [held] at claimed
    refine ⟨claimed.threads, fun runner member => ?_, claimed.events⟩
    rcases Table.mem_insertIgnore member with rfl | old
    · trivial
    · exact claimed.runners runner old

/-- One step of a runner leaves the system covered, whatever other runners of the approval there
are. -/
theorem Covered.stepRunner {world : World} (covered : Covered world) {runner : Runner}
    (member : runner ∈ world.runners) (now later : Time) (fault : Option FaultPoint) :
    Covered (world.stepRunner runner now later fault) := by
  unfold World.stepRunner
  split
  · next next done =>
    have kept : ∀ receipt ∈ world.db.receipts, receipt ∈ next.db.receipts := by
      rcases advance_moves done with same | ⟨transaction, performed, _⟩
      · exact fun receipt listed => same ▸ listed
      · exact (perform_effect performed).grows.receipts
    obtain ⟨vouched, begun, stage, events⟩ := advance_covers (covered.threads runner.approvalId)
      covered.events (covered.runners runner member) done
    have here : Function.update world.threads runner.approvalId next.thread runner.approvalId =
      next.thread := Function.update_self ..
    have elsewhere : ∀ approvalId, approvalId ≠ runner.approvalId →
        Function.update world.threads runner.approvalId next.thread approvalId =
          world.threads approvalId := fun _ other => Function.update_of_ne other ..
    refine Covered.setStage ⟨fun approvalId => ?_, fun other listed => ?_, events⟩
      fun goal goes => ?_
    · show (Function.update world.threads runner.approvalId next.thread approvalId).Vouched
        next.db approvalId
      by_cases same : approvalId = runner.approvalId
      · rw [same, here]
        exact vouched
      · rw [elsewhere approvalId same]
        exact (covered.threads approvalId).mono kept
    · refine (covered.runners other listed).mono kept ?_
      show _ → (Function.update world.threads runner.approvalId next.thread
        other.approvalId).Begun
      by_cases same : other.approvalId = runner.approvalId
      · rw [same, here]
        exact begun
      · rw [elsewhere other.approvalId same]
        exact id
    · show goal.Vouched next.db runner.approvalId
        (Function.update world.threads runner.approvalId next.thread runner.approvalId)
      rw [here]
      exact stage goal goes
  · exact covered.setStage fun goal goes => Stage.vouched_afterError _ _ _ goes

theorem step_covered {before after : World} {event : Event} (covered : Covered before)
    (step : World.Step before event after) : Covered after := by
  obtain ⟨_, allowed, rfl⟩ := step
  have react : Covered (before.react event) := by
    unfold World.react
    cases event with
    | call transaction => exact covered.call allowed
    | runnerClaim approvalId now => exact covered.addRunner approvalId now
    | runnerStep token now later fault =>
      dsimp only
      split
      · exact covered
      · next runner found => exact covered.stepRunner (Table.mem_of_get found) now later fault
    | runnerRaise token =>
      dsimp only
      split
      · exact covered
      · next runner found =>
        exact covered.setStage fun goal goes => Option.some.inj goes ▸ trivial
    | runnerCrash token =>
      dsimp only
      split
      · exact covered
      · next runner found =>
        have dropped : Covered (before.setStage runner none) := covered.setStage (by rintro _ ⟨⟩)
        exact dropped
  exact ⟨react.threads, react.runners, react.events⟩

/-- However reviews, commands, reconciliations and runners that crash and start again follow on
each other: the event of a decision is delivered only when the approval has an effect, and the
event of an invalidation only when an application has answered that the approval is invalidated
at its revision or a later one. -/
theorem events_are_covered {world : World} (reached : Reachable World.Step World.Initial world)
    {event : OutboxEvent} (member : event ∈ world.db.outbox)
    (delivered : event.status ≠ .pending) (approvalId : Nat) :
    (event.id = .approval approvalId .decision →
      ∃ approval ∈ world.db.approvals, approval.id = approvalId ∧
        approval.effectStatus ≠ .notApplied) ∧
    ∀ revision, event.id = .approval approvalId (.invalidated revision) →
      ∃ receipt ∈ world.db.receipts, receipt.id.isApplyOf approvalId = true ∧
        ∃ result observed, receipt.result = .business result ∧
          result.outcome = .approvalInvalidated ∧ result.effectRevision = some observed ∧
          revision ≤ observed := by
  have covered := reached.invariant Covered (fun _ => initial_covered)
    fun _ _ _ held step => step_covered held step
  have due := covered.events event member delivered
  refine ⟨fun decision => ?_, fun revision invalidation => ?_⟩
  · rw [decision] at due
    obtain ⟨receipt, recorded, applies⟩ := due
    cases key : receipt.id with
    | approvalApply other digest =>
      rw [key] at applies
      obtain rfl : other = approvalId := of_decide_eq_true applies
      exact ((reachable_supplied reached).receipts receipt recorded).applied _ _ key
    | _ =>
      rw [key] at applies
      cases applies
  · rw [invalidation] at due
    obtain ⟨result, ⟨receipt, recorded, applies, told⟩, lost, grown⟩ := due
    cases key : receipt.id with
    | approvalApply other digest =>
      have formed := (reachable_formed reached).receipts receipt recorded
      unfold BusinessActionReceipt.Formed at formed
      rw [key] at formed
      obtain ⟨_, other, same, _, observed⟩ := formed
      obtain rfl := ReceiptResult.business.inj (told.symm.trans same)
      obtain ⟨revision, known⟩ := Option.ne_none_iff_exists'.mp observed
      rw [known] at grown
      exact ⟨receipt, recorded, key ▸ applies, result, revision, told, lost, known, grown⟩
    | _ =>
      rw [key] at applies
      cases applies

end

/-- The seller consents, and a runner applies the consent and acknowledges the decision. -/
def acknowledged : List Event := submission ++ consent ++ runnerSteps 7 15 (seconds 4)

attribute [local instance] samplePlatform in
theorem events_are_covered_consent :
    ∃ event ∈ (sampleWorld.after acknowledged).db.outbox, event.status ≠ .pending ∧
      ∃ approval ∈ (sampleWorld.after acknowledged).db.approvals, approval.id = 6 ∧
        approval.effectStatus ≠ .notApplied := by
  have reached : Reachable World.Step World.Initial (sampleWorld.after acknowledged) :=
    World.reachable_after sampleWorld_initial (by decide +kernel : Scheduled 0 acknowledged)
  have marked : ((sampleWorld.after acknowledged).db.outbox.get (.approval 6 .decision)).map
      (·.status) = some .delivered := by decide +kernel
  obtain ⟨event, found, delivered⟩ := Option.map_eq_some_iff.mp marked
  have noted : event.status ≠ .pending := fun pending =>
    EventStatus.noConfusion (delivered.symm.trans pending)
  exact ⟨event, Table.mem_of_get found, noted,
    (events_are_covered reached (Table.mem_of_get found) noted 6).1 (Table.key_of_get found)⟩

end Negotiation
