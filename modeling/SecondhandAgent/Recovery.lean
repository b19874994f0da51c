/-
This file proves what a process finds when it comes back to a turn. Whatever was
lost and wherever, the head has left traces in the rows only if the checkpoint of
the thread is its own, so that the entry is forced by the checkpoint. There is one
place where no entry is left: the engine writes a first checkpoint that still shows
the values of the turn before, and a process that dies behind it leaves a thread
that neither a retry nor a stop of the seller gets past.
-/

import SecondhandAgent.Checkpoints
import SecondhandAgent.Requests
import SecondhandAgent.Window

namespace Negotiation

open Store

/-! ### The traces in the rows -/

/-- The seller has stopped the run at some time. -/
def WasStopped (db : Db) (runId : Nat) : Prop :=
  ∃ row ∈ db.actions, row.target = .run runId ∧ row.action = .terminate

section

variable {db after : Db} {runId : Nat}

/-- The rows that attest to a run, by their keys. -/
theorem attested_iff (formed : Formed db.records) :
    Attested db runId ↔
      (∃ call ∈ db.ledger, call.inputId = runId) ∨
        db.receipts.get (.turnAction runId) ≠ none ∨ db.reply runId ≠ none := by
  refine or_congr_right (or_congr ⟨?_, ?_⟩ ⟨?_, ?_⟩)
  · rintro ⟨receipt, member, input⟩
    rw [← formed.receipt_id member input]
    exact Option.ne_none_iff_exists'.mpr ⟨receipt, Table.get_of_mem member⟩
  · intro there
    obtain ⟨receipt, found⟩ := Option.ne_none_iff_exists'.mp there
    obtain ⟨member, key⟩ := Table.get_eq_some.mp found
    refine ⟨receipt, member, ?_⟩
    have shape := formed.receipts receipt member
    unfold BusinessActionReceipt.Formed at shape
    rw [key] at shape
    exact shape
  · rintro ⟨item, member, input⟩
    unfold Db.reply
    rw [← formed.delivery_id member input]
    exact Option.ne_none_iff_exists'.mpr ⟨item, Table.get_of_mem member⟩
  · intro there
    obtain ⟨item, found⟩ := Option.ne_none_iff_exists'.mp there
    obtain ⟨member, key⟩ := Table.get_eq_some.mp found
    refine ⟨item, member, ?_⟩
    have shape := formed.deliveries item member
    unfold NotificationDelivery.Formed at shape
    rw [key] at shape
    exact shape.1

theorem SameNotices.reply (same : SameNotices db.deliveries after.deliveries) :
    after.reply runId ≠ none ↔ db.reply runId ≠ none := by
  have issued := same (.turnReply runId)
  unfold Db.reply
  cases found : db.deliveries.get (.turnReply runId) with
  | none =>
    rw [found, Option.map_none, Option.map_eq_none_iff] at issued
    exact iff_of_false (not_not_intro issued) (not_not_intro rfl)
  | some item =>
    rw [found, Option.map_some] at issued
    obtain ⟨new, present, _⟩ := Option.map_eq_some_iff.mp issued
    exact iff_of_true (Option.ne_none_iff_exists'.mpr ⟨new, present⟩) (Option.some_ne_none item)

/-- The transactions that attest to a run: the commands, the answers and the calls of the
model. -/
def Transaction.Attests : Transaction → Prop
  | .execute _ _ _ _ _ | .abortOrQuery _ _ _ _ _ _ | .reserveCall _ _ _ _ _ _ _ => True
  | _ => False

variable [Platform]

/-- A receipt or a reply of a run is written in the name of its owner. -/
theorem Effect.attests {transaction : Transaction} (effect : Effect db transaction after)
    (there : after.receipts.get (.turnAction runId) ≠ none ∨ after.reply runId ≠ none) :
    (db.receipts.get (.turnAction runId) ≠ none ∨ db.reply runId ≠ none) ∨
      ∃ owner, transaction.byOwner = some (runId, owner) ∧ transaction.Attests := by
  have same (receipts : after.receipts = db.receipts)
      (notices : SameNotices db.deliveries after.deliveries) :
      db.receipts.get (.turnAction runId) ≠ none ∨ db.reply runId ≠ none :=
    there.imp (fun there => receipts ▸ there) notices.reply.mp
  have untouched (receipts : after.receipts = db.receipts)
      (deliveries : after.deliveries = db.deliveries) :
      db.receipts.get (.turnAction runId) ≠ none ∨ db.reply runId ≠ none :=
    same receipts (by rw [deliveries]; exact .refl _)
  cases effect with
  | business _ writes =>
    refine .inl (there.imp (fun there => ?_) fun there => ?_)
    · exact writes.action_receipt runId ▸ there
    · exact fun absent => there ((writes.reply runId).trans absent)
  | repeated same => exact .inl (same ▸ there)
  | @command owner _ _ _ run done _ made writes =>
    subst made
    by_cases here : runId = run.id
    · exact .inr ⟨owner, by rw [here]; rfl, trivial⟩
    · refine .inl (there.imp (fun there => ?_) fun there => ?_)
      · rw [writes.frame] at there
        rw [← writes.business.action_receipt runId]
        refine fun absent => there ?_
        show (done.receipts.insertIgnore _).get _ = none
        rw [Table.get_insertIgnore, if_neg, absent]
        rintro ⟨same, _⟩
        exact here (ReceiptId.turnAction.inj same)
      · rw [writes.frame] at there
        refine fun absent => there ?_
        show (done.deliveries.insertIgnore _).get _ = none
        rw [Table.get_insertIgnore, if_neg]
        · exact (writes.business.reply runId).trans absent
        · rintro ⟨same, _⟩
          exact here (SourceId.turnReply.inj same)
  | @answered other owner _ _ _ _ noted _ made writes =>
    subst made
    by_cases here : runId = other
    · exact .inr ⟨owner, by rw [here]; rfl, trivial⟩
    · refine .inl (there.imp (fun there => ?_) fun there => ?_)
      · rw [writes.frame, show noted = _ from writes.drafts] at there
        exact there
      · rw [writes.frame, show noted = _ from writes.drafts] at there
        refine fun absent => there ?_
        show (db.deliveries.insertIgnore _).get _ = none
        rw [Table.get_insertIgnore, if_neg]
        · exact absent
        · rintro ⟨same, _⟩
          exact here (SourceId.turnReply.inj same)
  | planned _ _ _ writes frame =>
    refine .inl (untouched ?_ ?_) <;> rw [frame, show _ = _ from writes]
  | published _ writes =>
    exact .inl (same (by rw [writes.frame]) writes.notices)
  | displayed _ _ _ _ _ _ frame => refine .inl (untouched ?_ ?_) <;> rw [frame]
  | edited _ writes | executed writes _ =>
    refine .inl (untouched ?_ ?_) <;> rw [show _ = _ from writes]
  | acknowledged _ frame =>
    refine .inl (untouched ?_ ?_) <;> rw [frame, acknowledgeEvents_writes]
  | queued effect =>
    cases effect with
    | idle frame notices => exact .inl (same (by rw [frame]) notices)
    | enqueued _ _ _ _ appended =>
      unfold newInput at appended
      simp only [bind_eq_ok, pure_eq_ok] at appended
      obtain ⟨_, _, _, _, _, _, rfl⟩ := appended
      exact .inl there
    | turned _ _ _ _ frame => refine .inl (untouched ?_ ?_) <;> rw [frame]
  | archived frame => refine .inl (untouched ?_ ?_) <;> rw [frame]

/-- A call of the model is recorded in the name of the owner of its run. -/
theorem perform_calls {transaction : Transaction} (done : db.perform transaction = .ok after)
    {call : ModelCallLedger} (member : call ∈ after.ledger) :
    (∃ old ∈ db.ledger, old.inputId = call.inputId) ∨
      ∃ owner, transaction.byOwner = some (call.inputId, owner) ∧ transaction.Attests := by
  by_cases calls : transaction.OfCall
  · cases transaction <;> first
      | exact calls.elim
      | simp only [Db.perform, map_eq_ok] at done
    case reserveCall runId owner step reservedTokens reservedCost checked timed =>
      obtain ⟨⟨_, answer⟩, reserved, rfl⟩ := done
      unfold reserveCall at reserved
      simp only [bind_eq_ok, Prod.exists] at reserved
      obtain ⟨_, _, run, task, owned, _, _, rest⟩ := reserved
      have key : run.id = runId := Table.key_of_get (lockOwner_eq_ok.mp owned).1
      split at rest
      · simp only [bind_eq_ok, pure_eq_ok] at rest
        obtain ⟨_, _, same⟩ := rest
        obtain ⟨rfl, _⟩ := Prod.mk.inj same
        exact .inl ⟨call, member, rfl⟩
      · unfold admitCall at rest
        simp only [bind_eq_ok, pure_eq_ok] at rest
        obtain ⟨_, _, _, _, ledger, added, same⟩ := rest
        obtain ⟨rfl, _⟩ := Prod.mk.inj same
        rcases (Table.mem_insert added call).mp member with rfl | old
        · exact .inr ⟨owner, by rw [← key]; rfl, trivial⟩
        · exact .inl ⟨call, old, rfl⟩
    case acceptCall =>
      obtain ⟨attempt, _, found, _, rfl⟩ := acceptCall_done done
      rcases Table.mem_of_mem_put member with old | rfl
      · exact .inl ⟨call, old, rfl⟩
      · exact .inl ⟨attempt, Table.mem_of_get found, rfl⟩
    case settleCall =>
      obtain ⟨attempt, found, rfl⟩ := settleCall_done done
      rcases Table.mem_of_mem_put member with old | rfl
      · exact .inl ⟨call, old, rfl⟩
      · exact .inl ⟨attempt, Table.mem_of_get found, rfl⟩
  · rw [perform_ledger calls done] at member
    exact .inl ⟨call, member, rfl⟩

/-! ### One step of the system -/

variable {before later : World} {event : Event}

/-- What was left in the rows stays there, in whatever order the processes go on. -/
structure Advances (before later : World) : Prop where
  runs : ∀ run ∈ before.db.inputs, ∃ new ∈ later.db.inputs, new.sent = run.sent
  cursor : before.db.session.lastResolvedInputSeq ≤ later.db.session.lastResolvedInputSeq
  epochs : ∀ runId, (before.db.queue.leaseOf runId).epoch ≤ (later.db.queue.leaseOf runId).epoch
  stops : ∀ runId, WasStopped before.db runId → WasStopped later.db runId
  replies : ∀ runId, before.db.reply runId ≠ none → later.db.reply runId ≠ none

omit [Platform] in
theorem Advances.refl (world : World) : Advances world world :=
  ⟨fun run member => ⟨run, member, rfl⟩, le_rfl, fun _ => le_rfl, fun _ => id, fun _ => id⟩

theorem World.Step.progresses (reached : Reachable World.Step World.Initial before)
    (step : World.Step before event later) : Advances before later where
  runs run member := by
    rcases step.performs with same | ⟨transaction, performs⟩
    · exact ⟨run, same ▸ member, rfl⟩
    · exact run_stays (reachable_ordered reached) performs.done member
  cursor := by
    rcases step.advances reached with same | ⟨moved, _⟩ <;> omega
  epochs runId := (step.lease reached runId).epoch_le
  stops runId := by
    rintro ⟨row, member, stops⟩
    rcases step.performs with same | ⟨transaction, performs⟩
    · exact ⟨row, same ▸ member, stops⟩
    · exact ⟨row, perform_actions_kept performs.done row member, stops⟩
  replies runId there := by
    obtain ⟨item, found⟩ := Option.ne_none_iff_exists'.mp there
    obtain ⟨new, member, same⟩ := step.grows.notices item (Table.mem_of_get found)
    have key : new.id = item.id := (congrArg (·.id) same :)
    have present : later.db.deliveries.get new.id = some new := Table.get_of_mem member
    rw [key.trans (Table.key_of_get found)] at present
    exact Option.ne_none_iff_exists'.mpr ⟨new, present⟩

/-- Who makes the transaction owns the run. -/
def MadeBy (event : Event) (runId : Nat) (owner : Owner) : Prop :=
  ∃ transaction : Transaction, event = .call transaction ∧
    transaction.byOwner = some (runId, owner) ∧ transaction.Attests

/-- A step that leaves a trace of a run is made by a process that owns it. -/
theorem World.Step.attests (reached : Reachable World.Step World.Initial before)
    (step : World.Step before event later) {runId : Nat} (attested : Attested later.db runId) :
    Attested before.db runId ∨
      ∃ owner, MadeBy event runId owner ∧ Passes before.db runId owner before.clock := by
  rcases step.performs with same | ⟨transaction, performs⟩
  · exact .inl (same ▸ attested)
  have made {owner : Owner} (byOwner : transaction.byOwner = some (runId, owner))
      (attests : transaction.Attests) :
      ∃ owner, MadeBy event runId owner ∧ Passes before.db runId owner before.clock := by
    have called : event = .call transaction := by
      refine performs.source.resolve_right fun runner => ?_
      cases transaction <;> first
        | exact runner
        | exact attests
    exact ⟨owner, ⟨transaction, called, byOwner, attests⟩,
      passes_of_done byOwner performs.within.timely performs.done⟩
  have formed := reachable_formed reached
  have next := reachable_formed (reached.next step)
  rw [attested_iff next] at attested
  rw [attested_iff formed]
  rcases attested with ⟨call, member, rfl⟩ | there
  · rcases perform_calls performs.done member with ⟨old, listed, same⟩ | ⟨owner, byOwner, attests⟩
    · exact .inl (.inl ⟨old, listed, same⟩)
    · exact .inr (made byOwner attests)
  · rcases (perform_effect performs.done).attests there with old | ⟨owner, byOwner, attests⟩
    · exact .inl (.inr old)
    · exact .inr (made byOwner attests)

/-- The cursor moves over the head when the process that owns it finalizes it. -/
theorem World.Step.resolves (reached : Reachable World.Step World.Initial before)
    (step : World.Step before event later) :
    later.db.session.lastResolvedInputSeq = before.db.session.lastResolvedInputSeq ∨
      later.db.session.lastResolvedInputSeq = before.db.session.lastResolvedInputSeq + 1 ∧
        ∃ run ∈ before.db.inputs,
          run.inputSeq = before.db.session.lastResolvedInputSeq + 1 ∧
          before.db.reply run.id ≠ none ∧ ∃ owner values checked settled,
            event = .call (.finalize run.id owner values false checked settled) ∧
              Passes before.db run.id owner before.clock := by
  rcases step.advances reached with same | ⟨moved, run, member, stored, transaction, tasked, place,
    called, owner, values, checked, settled, made, owned, _, delivery, listed, key, _⟩
  · exact .inl same
  refine .inr ⟨moved, run, member, place.trans moved, ?_, owner, values, checked, settled,
    made ▸ called, ?_⟩
  · unfold Db.reply
    rw [← key, Table.get_of_mem listed]
    exact Option.some_ne_none delivery
  · have timely : Timely before.clock [checked, settled] := by
      have readings := step.1
      rw [called, made] at readings
      exact readings
    have admits : Passes before.db run.id owner checked :=
      ⟨run, stored.val, lockOwner_eq_ok.mpr
        ⟨Table.get_of_mem member, ⟨stored.property, tasked⟩, owned⟩⟩
    exact passes_iff.mpr ((passes_iff.mp admits).earlier timely.1)

omit [Platform] in
/-- Who owns a run owns the head. -/
theorem Passes.head {runId : Nat} {owner : Owner} {now : Time}
    (ordered : Ordered db.queue) (passes : Passes db runId owner now) :
    ∃ run ∈ db.inputs, run.id = runId ∧ run.inputSeq = db.session.lastResolvedInputSeq + 1 := by
  obtain ⟨run, task, owned⟩ := passes
  obtain ⟨found, ⟨lawful, held⟩, _, running, _⟩ := lockOwner_eq_ok.mp owned
  have member := Table.mem_of_get found
  exact ⟨run, member, Table.key_of_get found,
    ordered.head run member ⟨task, lawful⟩ held running⟩

omit [Platform] in
/-- The owner of a run has its last epoch. -/
theorem Passes.epoch {runId : Nat} {owner : Owner} {now : Time}
    (passes : Passes db runId owner now) : owner.2 = (db.queue.leaseOf runId).epoch :=
  (passes_iff.mp passes).1

/-- A task that was stopped last was stopped at some time. -/
theorem reachable_stopped {world : World} (reached : Reachable World.Step World.Initial world) :
    ∀ run ∈ world.db.inputs, Terminated world.db run → WasStopped world.db run.id := by
  refine (database_invariant (fun db => Ordered db.queue ∧ ∀ run ∈ db.inputs,
    Terminated db run → WasStopped db run.id)
    (fun world initial => ⟨reachable_ordered (.start initial), ?_⟩) ?_ reached).2
  · obtain ⟨⟨_, _, _, _, _, _, _, db⟩, _⟩ := initial
    rw [db]
    exact fun run member => absurd member (Table.not_mem_empty run)
  · rintro db transaction after ⟨ordered, stopped⟩ done
    have next := perform_ordered ordered done
    refine ⟨next, fun run member terminated => ?_⟩
    obtain ⟨moved, present⟩ := next.located member
    have mark : moved.val.lastManualAction = some .terminate := by
      unfold Terminated at terminated
      have held : after.tasks.get run.taskId = some moved := (find_eq_some.mp present).2
      rw [held] at terminated
      exact terminated
    have kept {old : NegotiationInput} {stored : StoredTask}
        (located : db.queue.find run.id = some (old, stored))
        (same : stored.val.lastManualAction = moved.val.lastManualAction) :
        WasStopped after run.id := by
      obtain ⟨found, held⟩ := find_eq_some.mp located
      have key : old.id = run.id := Table.key_of_get found
      obtain ⟨row, listed, stops⟩ := stopped old (Table.mem_of_get found) (by
        unfold Terminated
        rw [show db.tasks.get old.taskId = some stored from held]
        exact same.trans mark)
      exact ⟨row, perform_actions_kept done row listed, key ▸ stops⟩
    cases perform_run ordered done run.id with
    | kept same => exact kept (same.symm.trans present) rfl
    | new _ there _ fresh =>
      obtain ⟨rfl, rfl⟩ := Prod.mk.inj (Option.some.inj (present.symm.trans there))
      rw [fresh] at mark
      cases mark
    | @turned old changed stored _ cursor key located turn there =>
      obtain ⟨rfl, rfl⟩ := Prod.mk.inj (Option.some.inj (present.symm.trans there))
      generalize task : moved.val = later at turn
      cases turn with
      | recovered =>
        obtain ⟨_, _, row, listed, _, target, action, _⟩ := act_cases done
        rw [task] at mark
        exact ⟨row, listed, target.trans (congrArg RecoveryTarget.run key),
          action.trans (Option.some.inj mark)⟩
      | _ =>
        refine kept located ?_
        rw [task]
        rfl

end

/-! ### The thread of the session -/

/-- How far the session has got. -/
def Site.cursor (site : Site) : Nat := site.world.db.session.lastResolvedInputSeq

/-- The values of the thread are those of the run. -/
def Site.Shows (site : Site) (run : NegotiationInput) : Prop :=
  ∃ values, site.thread.values = some values ∧ BelongsTo values run

/-- The run is in the queue, as the process read it. -/
def Site.Known (site : Site) (run : NegotiationInput) : Prop :=
  ∃ listed ∈ site.world.db.inputs, listed.sent = run.sent

/-- The thread in order. The values are those of the head or of a run behind the cursor; a first
checkpoint is given the values of the head and still shows those of a run before; what is pending
otherwise is the head, and a head that is through has its reply. Who left traces is behind the
cursor, on the thread, or was stopped. -/
structure Threaded (site : Site) : Prop where
  shown : ∀ values, site.thread.values = some values →
    ∃ run ∈ site.world.db.inputs, BelongsTo values run ∧ run.inputSeq ≤ site.cursor + 1
  given : ∀ values, site.thread.input = some values →
    ∃ run ∈ site.world.db.inputs, BelongsTo values run ∧ run.inputSeq = site.cursor + 1
  start : site.thread.next = some .start ↔ site.thread.input ≠ none
  past : site.thread.next = some .start →
    ∀ values, site.thread.values = some values → values.inputSeq ≤ site.cursor
  pending : ∀ node, site.thread.next = some node → node ≠ .start →
    ∃ values, site.thread.values = some values ∧ values.inputSeq = site.cursor + 1
  through : site.thread.next = none → ∀ values, site.thread.values = some values →
    values.inputSeq = site.cursor + 1 → site.world.db.reply values.runId ≠ none
  traces : ∀ runId, site.HasEvidence runId → ∃ run ∈ site.world.db.inputs, run.id = runId ∧
    (run.inputSeq ≤ site.cursor ∨ site.Shows run ∨ WasStopped site.world.db runId)

/-- The owner with whom a process can still write to the rows. -/
def Position.active : Position → Option Owner
  | inspected owner _ | running owner _ | stopping owner | ended owner | closing owner _ _ =>
    some owner
  | _ => none

/-- The run is the head, and who is active for it without a connection is of an earlier epoch. -/
structure Leads (world : World) (lost : List GraphProcess) (run : NegotiationInput)
    (owner : Owner) : Prop where
  head : run.inputSeq = world.db.session.lastResolvedInputSeq + 1
  epoch : owner.2 ≤ (world.db.queue.leaseOf run.id).epoch
  older : ∀ other ∈ lost, ∀ pair, other.position.active = some pair →
    other.run.id = run.id → pair.2 < owner.2

/-- What the process that holds the lock can rely on, at each position. -/
def Site.HolderAt (site : Site) (run : NegotiationInput) : Position → Prop
  | .waiting | .failing _ _ => True
  | .claimed owner => Leads site.world site.lost run owner
  | .inspected owner snapshot => Leads site.world site.lost run owner ∧ snapshot = site.thread
  | .starting owner =>
    Leads site.world site.lost run owner ∧ ¬ site.HasEvidence run.id ∧ site.thread.next = none ∧
      ∀ values, site.thread.values = some values → values.inputSeq ≤ site.cursor
  | .entering owner =>
    Leads site.world site.lost run owner ∧ ¬ site.HasEvidence run.id ∧
      site.thread.next = some .start
  | .running owner node =>
    Leads site.world site.lost run owner ∧ site.Shows run ∧ site.thread.next = some node ∧
      node ≠ .start
  | .stopping owner =>
    Leads site.world site.lost run owner ∧ WasStopped site.world.db run.id ∧
      (site.thread.next ≠ none → site.Shows run)
  | .ended owner => Leads site.world site.lost run owner ∧ site.Shows run ∧ site.thread.next = none
  | .closing owner _ _ =>
    Leads site.world site.lost run owner ∧ site.Shows run ∧ site.thread.next = none

/-- What holds of a process that goes on without a connection, at each position. -/
def Site.LostAt (site : Site) (run : NegotiationInput) : Position → Prop
  | .inspected _ snapshot => run.inputSeq ≤ site.cursor ∨
      ∀ values, snapshot.values = some values → values.runId = run.id → site.Shows run
  | .running _ _ => run.inputSeq ≤ site.cursor ∨ site.Shows run
  | .stopping _ => run.inputSeq ≤ site.cursor ∨ WasStopped site.world.db run.id
  | .closing _ _ _ =>
    run.inputSeq ≤ site.cursor ∨ (site.Shows run ∧ site.thread.next = none)
  | _ => True

/-- A process without a connection. -/
structure Site.Lost (site : Site) (process : GraphProcess) : Prop where
  known : site.Known process.run
  at_ : site.LostAt process.run process.position
  reached : ∀ pair, process.position.active = some pair →
    pair.2 ≤ (site.world.db.queue.leaseOf process.run.id).epoch

/-- The system with the thread in order. -/
structure Site.Sound [Platform] (site : Site) : Prop where
  world : Reachable World.Step World.Initial site.world
  threaded : Threaded site
  holder : ∀ process, site.holder = some process →
    site.Known process.run ∧ site.HolderAt process.run process.position
  lost : ∀ process ∈ site.lost, site.Lost process

/-! ### Runs as they were sent -/

section

variable {run other : NegotiationInput} {values : TurnValues} {site : Site}

theorem NegotiationInput.identity_of_sent (same : run.sent = other.sent) :
    run.identity = other.identity := by
  show run.sent.identity = other.sent.identity
  rw [same]

theorem belongsTo_iff :
    BelongsTo values run ↔ values.runId = run.identity.runId ∧
      values.inputSeq = run.identity.inputSeq ∧ values.inputHash = run.identity.inputHash ∧
      values.configHash = run.identity.configHash ∧
      values.graphVersion = run.identity.graphVersion := Iff.rfl

theorem BelongsTo.of_sent (belongs : BelongsTo values run) (same : other.sent = run.sent) :
    BelongsTo values other := by
  rw [belongsTo_iff] at belongs ⊢
  rwa [NegotiationInput.identity_of_sent same]

theorem newTurn_belongs (run : NegotiationInput) (message : Option Nat) :
    BelongsTo (newTurn run message) run := ⟨rfl, rfl, rfl, rfl, rfl⟩

/-- Two runs of one number are one run. -/
theorem Site.Known.of_seq (ordered : Ordered site.world.db.queue) (known : site.Known run)
    (listed : other ∈ site.world.db.inputs) (same : other.inputSeq = run.inputSeq) :
    other.sent = run.sent := by
  obtain ⟨mine, member, sent⟩ := known
  obtain ⟨_, _, number, _⟩ := NegotiationInput.of_sent sent
  obtain rfl := ordered.numbered.once other listed mine member (same.trans number.symm)
  exact sent

/-- Two runs of one key are one run. -/
theorem Site.Known.of_id (known : site.Known run) (listed : other ∈ site.world.db.inputs)
    (same : other.id = run.id) : other.sent = run.sent := by
  obtain ⟨mine, member, sent⟩ := known
  obtain rfl := Table.eq_of_key listed member (same.trans (congrArg (·.id) sent).symm)
  exact sent

end

/-! ### While the thread stays as it is -/

section

variable [Platform] {site : Site} {world : World} {run : NegotiationInput}

/-- The site after a step of the system. -/
def Site.at_ (site : Site) (world : World) : Site := { site with world }

omit [Platform] in
theorem Site.Known.advances (known : site.Known run) (advances : Advances site.world world) :
    (site.at_ world).Known run := by
  obtain ⟨listed, member, same⟩ := known
  obtain ⟨new, present, sent⟩ := advances.runs listed member
  exact ⟨new, present, sent.trans same⟩

omit [Platform] in
theorem Leads.advances {lost : List GraphProcess} {owner : Owner}
    (leads : Leads site.world lost run owner) (advances : Advances site.world world)
    (cursor : (site.at_ world).cursor = site.cursor) : Leads world lost run owner where
  head := leads.head.trans (congrArg (· + 1) cursor.symm)
  epoch := leads.epoch.trans (advances.epochs run.id)
  older := leads.older

omit [Platform] in
theorem Site.LostAt.advances {position : Position} (at_ : site.LostAt run position)
    (advances : Advances site.world world) : (site.at_ world).LostAt run position := by
  cases position with
  | inspected | running | closing => exact at_.imp_left fun passed => passed.trans advances.cursor
  | stopping => exact at_.imp (fun passed => passed.trans advances.cursor) (advances.stops run.id)
  | _ => trivial

omit [Platform] in
theorem Site.Lost.advances {process : GraphProcess} (lost : site.Lost process)
    (advances : Advances site.world world) : (site.at_ world).Lost process where
  known := lost.known.advances advances
  at_ := lost.at_.advances advances
  reached pair active := (lost.reached pair active).trans (advances.epochs process.run.id)

/-- What a step may leave behind: a trace of a run that is on the thread or was stopped, and that
nobody is about to begin. -/
def Site.Honest (site : Site) (world : World) : Prop :=
  ∀ runId, Attested world.db runId → Attested site.world.db runId ∨
    (∃ run ∈ site.world.db.inputs, run.id = runId ∧
      (site.Shows run ∨ WasStopped site.world.db runId)) ∧
    ∀ process, site.holder = some process → process.run.id = runId → ∀ owner,
      process.position ≠ .starting owner ∧ process.position ≠ .entering owner

omit [Platform] in
theorem Site.HolderAt.advances {process : GraphProcess} (holds : site.holder = some process)
    (at_ : site.HolderAt process.run process.position) (advances : Advances site.world world)
    (cursor : (site.at_ world).cursor = site.cursor) (honest : site.Honest world) :
    (site.at_ world).HolderAt process.run process.position := by
  have clean (owner : Owner)
      (begins : process.position = .starting owner ∨ process.position = .entering owner)
      (clean : ¬ site.HasEvidence process.run.id) :
      ¬ (site.at_ world).HasEvidence process.run.id := by
    rintro (traced | attested)
    · exact clean (.inl traced)
    · rcases honest _ attested with old | ⟨_, apart⟩
      · exact clean (.inr old)
      · obtain ⟨starts, enters⟩ := apart process holds rfl owner
        exact begins.elim starts enters
  generalize place : process.position = position at at_ clean ⊢
  cases position with
  | waiting | failing => trivial
  | claimed => exact Leads.advances at_ advances cursor
  | inspected => exact ⟨at_.1.advances advances cursor, at_.2⟩
  | starting owner =>
    obtain ⟨leads, none_, next, past⟩ := at_
    exact ⟨leads.advances advances cursor, clean owner (.inl rfl) none_, next, cursor.symm ▸ past⟩
  | entering owner =>
    obtain ⟨leads, none_, next⟩ := at_
    exact ⟨leads.advances advances cursor, clean owner (.inr rfl) none_, next⟩
  | running => exact ⟨at_.1.advances advances cursor, at_.2⟩
  | stopping =>
    obtain ⟨leads, stopped, shows⟩ := at_
    exact ⟨leads.advances advances cursor, advances.stops _ stopped, shows⟩
  | ended => exact ⟨at_.1.advances advances cursor, at_.2⟩
  | closing => exact ⟨at_.1.advances advances cursor, at_.2⟩

omit [Platform] in
/-- The thread is in order as long as the cursor stays. -/
theorem Threaded.advances (threaded : Threaded site) (advances : Advances site.world world)
    (cursor : (site.at_ world).cursor = site.cursor) (honest : site.Honest world) :
    Threaded (site.at_ world) where
  shown values found := by
    obtain ⟨run, member, belongs, place⟩ := threaded.shown values found
    obtain ⟨new, present, same⟩ := advances.runs run member
    exact ⟨new, present, belongs.of_sent same,
      by rw [cursor]; exact (NegotiationInput.of_sent same).2.2.1 ▸ place⟩
  given values found := by
    obtain ⟨run, member, belongs, place⟩ := threaded.given values found
    obtain ⟨new, present, same⟩ := advances.runs run member
    exact ⟨new, present, belongs.of_sent same,
      by rw [cursor]; exact (NegotiationInput.of_sent same).2.2.1 ▸ place⟩
  start := threaded.start
  past start values found := cursor.symm ▸ threaded.past start values found
  pending node next apart := by
    obtain ⟨values, found, place⟩ := threaded.pending node next apart
    exact ⟨values, found, cursor.symm ▸ place⟩
  through next values found place :=
    advances.replies _ (threaded.through next values found (cursor ▸ place))
  traces runId evidence := by
    have old : ∃ run ∈ site.world.db.inputs, run.id = runId ∧
        (run.inputSeq ≤ site.cursor ∨ site.Shows run ∨ WasStopped site.world.db runId) := by
      rcases evidence with traced | attested
      · exact threaded.traces runId (.inl traced)
      · rcases honest runId attested with before | ⟨⟨run, member, key, left⟩, _⟩
        · exact threaded.traces runId (.inr before)
        · exact ⟨run, member, key, .inr left⟩
    obtain ⟨run, member, key, left⟩ := old
    obtain ⟨new, present, same⟩ := advances.runs run member
    obtain ⟨newKey, _, number, _⟩ := NegotiationInput.of_sent same
    refine ⟨new, present, newKey.trans key, ?_⟩
    rw [cursor, number]
    refine left.imp_right fun left => left.imp ?_ (advances.stops runId)
    rintro ⟨values, found, belongs⟩
    exact ⟨values, found, belongs.of_sent same⟩

/-- A step of the system that leaves the cursor keeps everything in order. -/
theorem Site.Sound.advances (sound : site.Sound) {event : Event}
    (step : World.Step site.world event world)
    (cursor : (site.at_ world).cursor = site.cursor) (honest : site.Honest world) :
    (site.at_ world).Sound where
  world := sound.world.next step
  threaded := sound.threaded.advances (step.progresses sound.world) cursor honest
  holder process holds := by
    obtain ⟨known, at_⟩ := sound.holder process holds
    exact ⟨known.advances (step.progresses sound.world),
      at_.advances holds (step.progresses sound.world) cursor honest⟩
  lost process member := (sound.lost process member).advances (step.progresses sound.world)

omit [Platform] in
/-- The head is through: the cursor passes it, and the thread shows a run behind the cursor. -/
theorem Threaded.resolved (threaded : Threaded site) (advances : Advances site.world world)
    (cursor : (site.at_ world).cursor = site.cursor + 1) (next : site.thread.next = none)
    (quiet : ∀ runId, Attested world.db runId → Attested site.world.db runId) :
    Threaded (site.at_ world) := by
  have blank : site.thread.input = none := by
    by_contra given
    have start := threaded.start.mpr given
    rw [next] at start
    cases start
  have shown : ∀ values, (site.at_ world).thread.values = some values →
      ∃ run ∈ world.db.inputs, BelongsTo values run ∧ run.inputSeq ≤ (site.at_ world).cursor := by
    intro values found
    obtain ⟨run, member, belongs, place⟩ := threaded.shown values found
    obtain ⟨new, present, same⟩ := advances.runs run member
    exact ⟨new, present, belongs.of_sent same,
      by rw [cursor]; exact (NegotiationInput.of_sent same).2.2.1 ▸ place⟩
  refine ⟨fun values found => ?_, fun values found => ?_, threaded.start, fun start => ?_,
    fun node pending => ?_, fun _ values found place => ?_, fun runId evidence => ?_⟩
  · obtain ⟨run, member, belongs, place⟩ := shown values found
    exact ⟨run, member, belongs, Nat.le_succ_of_le place⟩
  · rw [show (site.at_ world).thread.input = none from blank] at found
    cases found
  · rw [show (site.at_ world).thread.next = none from next] at start
    cases start
  · rw [show (site.at_ world).thread.next = none from next] at pending
    cases pending
  · obtain ⟨run, _, belongs, behind⟩ := shown values found
    have number : values.inputSeq = run.inputSeq := belongs.2.1
    omega
  · obtain ⟨run, member, key, left⟩ := threaded.traces runId
      (evidence.imp_right (quiet runId))
    obtain ⟨new, present, same⟩ := advances.runs run member
    obtain ⟨newKey, _, number, _⟩ := NegotiationInput.of_sent same
    refine ⟨new, present, newKey.trans key, ?_⟩
    rw [cursor, number]
    rcases left with behind | ⟨values, found, belongs⟩ | stopped
    · exact .inl (Nat.le_succ_of_le behind)
    · exact .inr (.inl ⟨values, found, belongs.of_sent same⟩)
    · exact .inr (.inr (advances.stops runId stopped))

/-! ### The processes change places -/

omit [Platform] in
theorem Threaded.besides (threaded : Threaded site) (holder : Option GraphProcess)
    (lost : List GraphProcess) : Threaded { site with holder, lost } :=
  ⟨threaded.shown, threaded.given, threaded.start, threaded.past, threaded.pending,
    threaded.through, threaded.traces⟩

omit [Platform] in
theorem Site.Lost.besides {process : GraphProcess} (lost : site.Lost process)
    (holder : Option GraphProcess) (others : List GraphProcess) :
    Site.Lost { site with holder, lost := others } process :=
  ⟨lost.known, lost.at_, lost.reached⟩

/-- Another process holds the lock, or none. -/
theorem Site.Sound.withHolder (sound : site.Sound) {holder : Option GraphProcess}
    (holds : ∀ process, holder = some process →
      site.Known process.run ∧ site.HolderAt process.run process.position) :
    Site.Sound { site with holder } where
  world := sound.world
  threaded := sound.threaded.besides holder site.lost
  holder := holds
  lost process member := (sound.lost process member).besides holder site.lost

theorem Site.Sound.withoutHolder (sound : site.Sound) :
    Site.Sound { site with holder := none } :=
  sound.withHolder fun _ holds => by cases holds

omit [Platform] in
theorem Leads.withLost {lost : List GraphProcess} {owner : Owner}
    (leads : Leads site.world site.lost run owner)
    (older : ∀ other ∈ lost, ∀ pair, other.position.active = some pair →
      ∃ old ∈ site.lost, old.position.active = some pair ∧ old.run.id = other.run.id) :
    Leads site.world lost run owner where
  head := leads.head
  epoch := leads.epoch
  older other member pair active same := by
    obtain ⟨old, listed, before, key⟩ := older other member pair active
    exact leads.older old listed pair before (key.trans same)

omit [Platform] in
theorem Site.HolderAt.withLost {position : Position} (at_ : site.HolderAt run position)
    {lost : List GraphProcess}
    (older : ∀ other ∈ lost, ∀ pair, other.position.active = some pair →
      ∃ old ∈ site.lost, old.position.active = some pair ∧ old.run.id = other.run.id) :
    Site.HolderAt { site with lost } run position := by
  cases position with
  | waiting | failing => trivial
  | claimed owner =>
    have leads : Leads site.world site.lost run owner := at_
    exact leads.withLost older
  | inspected | starting | entering | running | stopping | ended | closing =>
    exact ⟨at_.1.withLost older, at_.2⟩

/-- Some processes without a connection went on, and none became active. -/
theorem Site.Sound.withLost (sound : site.Sound) {lost : List GraphProcess}
    (kept : ∀ process ∈ lost, site.Lost process ∧ ∀ pair, process.position.active = some pair →
      ∃ old ∈ site.lost, old.position.active = some pair ∧ old.run.id = process.run.id) :
    Site.Sound { site with lost } where
  world := sound.world
  threaded := sound.threaded.besides site.holder lost
  holder process holds := by
    obtain ⟨known, at_⟩ := sound.holder process holds
    exact ⟨known, at_.withLost fun other member => (kept other member).2⟩
  lost process member := (kept process member).1.besides site.holder lost

/-- The process that holds the lock goes on without a connection. -/
theorem Site.Sound.disconnected (sound : site.Sound) {process : GraphProcess}
    (holds : site.holder = some process) :
    Site.Sound { site with holder := none, lost := process :: site.lost } where
  world := sound.world
  threaded := sound.threaded.besides none (process :: site.lost)
  holder _ holds := by cases holds
  lost other member := by
    rcases List.mem_cons.mp member with rfl | old
    · obtain ⟨known, at_⟩ := sound.holder other holds
      suffices lost : site.Lost other from lost.besides none (other :: site.lost)
      generalize place : other.position = position at at_
      cases position with
      | waiting | failing | claimed | starting | entering =>
        refine ⟨known, by rw [place]; trivial, fun pair active => ?_⟩
        rw [place] at active
        cases active
      | inspected owner snapshot =>
        refine ⟨known, ?_, fun pair active => ?_⟩
        · rw [place]
          refine .inr fun values found key => ?_
          rw [at_.2] at found
          obtain ⟨listed, member, belongs, _⟩ := sound.threaded.shown values found
          have same := known.of_id member (belongs.1.symm.trans key)
          exact ⟨values, found, belongs.of_sent same.symm⟩
        · rw [place] at active
          obtain rfl := Option.some.inj active
          exact at_.1.epoch
      | running | stopping | ended | closing =>
        refine ⟨known, ?_, fun pair active => ?_⟩
        · rw [place]
          first
            | exact .inr at_.2.1
            | exact .inr at_.2
            | trivial
        · rw [place] at active
          obtain rfl := Option.some.inj active
          exact at_.1.epoch
    · exact (sound.lost other old).besides none (process :: site.lost)

/-- The cursor passes the head of a thread that is through, while nobody is ahead. -/
theorem Site.Sound.resolved (sound : site.Sound) {event : Event}
    (step : World.Step site.world event world)
    (cursor : (site.at_ world).cursor = site.cursor + 1) (next : site.thread.next = none)
    (quiet : ∀ runId, Attested world.db runId → Attested site.world.db runId)
    (idle : ∀ process, site.holder = some process →
      process.position = .waiting ∨ ∃ owner recovery, process.position = .failing owner recovery) :
    (site.at_ world).Sound where
  world := sound.world.next step
  threaded := sound.threaded.resolved (step.progresses sound.world) cursor next quiet
  holder process holds := by
    refine ⟨(sound.holder process holds).1.advances (step.progresses sound.world), ?_⟩
    rcases idle process holds with place | ⟨owner, recovery, place⟩ <;> rw [place] <;> trivial
  lost process member := (sound.lost process member).advances (step.progresses sound.world)

end

/-! ### The entry -/

section

variable {site : Site} {run : NegotiationInput} {values : TurnValues} {snapshot : TurnCheckpoint}
variable {pending hasEvidence isHead : Prop} [Decidable pending] [Decidable hasEvidence]
  [Decidable isHead]

theorem check_eq_ok {done : Unit} :
    run.identity.check values = .ok done ↔
      values.inputSeq = run.inputSeq ∧ values.inputHash = run.inputHash ∧
        values.configHash = run.configHash ∧ values.graphVersion = run.graphVersion := by
  unfold RunIdentity.check
  simp only [bind_eq_ok, require_eq_ok, exists_const]
  exact Iff.rfl

/-- A checkpoint of the run is resumed or finalized. -/
theorem chooseEntry_mine (belongs : BelongsTo values run) :
    chooseEntry run.identity (some values) pending hasEvidence isHead =
      .ok (if pending then .resume else .finalize) := by
  obtain ⟨key, rest⟩ := belongs
  unfold chooseEntry
  dsimp only
  rw [if_neg (show ¬ run.identity.inputSeq < values.inputSeq from rest.1.not_gt),
    if_pos (show values.runId = run.identity.runId from key)]
  exact (bind_eq_ok _ _ _).mpr ⟨(), check_eq_ok.mpr rest, rfl⟩

/-- A checkpoint of a run before lets the run begin anew, or not at all. -/
theorem chooseEntry_other
    (apart : ∀ values, snapshot.values = some values →
      values.inputSeq ≤ run.inputSeq ∧ values.runId ≠ run.id) :
    chooseEntry run.identity snapshot.values pending hasEvidence isHead =
      beginAnew pending hasEvidence isHead := by
  unfold chooseEntry
  split
  · rfl
  · next values found =>
    obtain ⟨le, other⟩ := apart values found
    rw [if_neg (show ¬ run.identity.inputSeq < values.inputSeq from Nat.not_lt.mpr le),
      if_neg (show ¬ values.runId = run.identity.runId from other)]

/-- Who resumes or finalizes has found a checkpoint of the run. -/
theorem chooseEntry_found {entry : RunEntry}
    (chosen : chooseEntry run.identity snapshot.values pending hasEvidence isHead = .ok entry)
    (enters : entry = .resume ∨ entry = .finalize) :
    ∃ values, snapshot.values = some values ∧ BelongsTo values run := by
  have anew : beginAnew pending hasEvidence isHead ≠ .ok entry := by
    unfold beginAnew
    intro begins
    simp only [bind_eq_ok, pure_eq_ok] at begins
    obtain ⟨_, _, rfl⟩ := begins
    rcases enters with same | same <;> cases same
  unfold chooseEntry at chosen
  split at chosen
  · exact absurd chosen anew
  · next values found =>
    split at chosen
    · cases chosen
      rcases enters with same | same <;> cases same
    · split at chosen
      · next key =>
        simp only [bind_eq_ok, pure_eq_ok] at chosen
        obtain ⟨_, checked, _⟩ := chosen
        exact ⟨values, found, key, check_eq_ok.mp checked⟩
      · exact absurd chosen anew

/-- Who starts has found nothing pending and no evidence. -/
theorem chooseEntry_start
    (chosen : chooseEntry run.identity snapshot.values pending hasEvidence isHead = .ok .start) :
    ¬ hasEvidence ∧ ¬ pending ∧ ∀ values, snapshot.values = some values →
      values.runId ≠ run.id := by
  have anew (begins : beginAnew pending hasEvidence isHead = .ok .start) :
      ¬ hasEvidence ∧ ¬ pending := by
    unfold beginAnew at begins
    simp only [bind_eq_ok, require_eq_ok] at begins
    obtain ⟨_, ⟨_, clean, through⟩, _⟩ := begins
    exact ⟨clean, through⟩
  unfold chooseEntry at chosen
  split at chosen
  · next blank =>
    obtain ⟨clean, through⟩ := anew chosen
    exact ⟨clean, through, fun values found => by rw [blank] at found; cases found⟩
  · next values found =>
    split at chosen
    · cases chosen
    · split at chosen
      · simp only [bind_eq_ok, pure_eq_ok] at chosen
        obtain ⟨_, _, same⟩ := chosen
        split at same <;> cases same
      · next other =>
        obtain ⟨clean, through⟩ := anew chosen
        refine ⟨clean, through, fun shown same => ?_⟩
        obtain rfl := Option.some.inj (found.symm.trans same)
        exact other

variable [Platform]

/-- What the thread shows to the process at the head: its own values, or those of a run
before. -/
theorem Site.Sound.shows_or_apart (sound : site.Sound) (known : site.Known run)
    (head : run.inputSeq = site.cursor + 1) :
    site.Shows run ∨ ∀ values, site.thread.values = some values →
      values.inputSeq ≤ run.inputSeq ∧ values.runId ≠ run.id := by
  by_cases mine : ∃ values, site.thread.values = some values ∧ values.runId = run.id
  · obtain ⟨values, found, key⟩ := mine
    obtain ⟨listed, member, belongs, _⟩ := sound.threaded.shown values found
    exact .inl ⟨values, found, belongs.of_sent (known.of_id member (belongs.1.symm.trans key)).symm⟩
  · refine .inr fun values found => ⟨?_, fun key => mine ⟨values, found, key⟩⟩
    obtain ⟨listed, _, belongs, place⟩ := sound.threaded.shown values found
    rw [belongs.2.1, head]
    exact place

/-- A run that is marked as stopped was stopped. -/
theorem Site.Sound.was_stopped (sound : site.Sound) (known : site.Known run)
    (terminated : Terminated site.world.db run) : WasStopped site.world.db run.id := by
  obtain ⟨listed, member, same⟩ := known
  obtain ⟨key, taskId, _⟩ := NegotiationInput.of_sent same
  have marked : Terminated site.world.db listed := by
    unfold Terminated at terminated ⊢
    rw [taskId]
    exact terminated
  exact key ▸ reachable_stopped sound.world listed member marked

omit [Platform] in
theorem Site.decide_active {owner pair : Owner}
    (active : (site.decide run owner snapshot).active = some pair) : pair = owner := by
  unfold Site.decide at active
  split at active
  · split at active
    · cases active
    · exact (Option.some.inj active).symm
  · split at active <;> first
      | exact (Option.some.inj active).symm
      | cases active

/-- The entry of the process that holds the lock fits the thread. -/
theorem Site.Sound.decides (sound : site.Sound) (known : site.Known run) {owner : Owner}
    (leads : Leads site.world site.lost run owner) :
    site.HolderAt run (site.decide run owner site.thread) := by
  have head : run.inputSeq = site.cursor + 1 := leads.head
  unfold Site.decide
  split
  · next terminated =>
    split
    · trivial
    · next allowed =>
      refine ⟨leads, sound.was_stopped known terminated, fun pending => ?_⟩
      rcases sound.shows_or_apart known head with shows | apart
      · exact shows
      · have mine : site.thread.values.map (·.runId) = some run.id := by
          by_contra other
          exact allowed ⟨pending, other⟩
        obtain ⟨values, found, key⟩ := Option.map_eq_some_iff.mp mine
        exact absurd key (apart values found).2
  · rcases sound.shows_or_apart known head with shows | apart
    · obtain ⟨values, found, belongs⟩ := shows
      have entry : site.entry run site.thread =
          .ok (if site.thread.next ≠ none then .resume else .finalize) := by
        unfold Site.entry
        rw [found]
        exact chooseEntry_mine belongs
      rw [entry]
      cases next : site.thread.next with
      | none => exact ⟨leads, ⟨values, found, belongs⟩, next⟩
      | some node =>
        cases node with
        | start =>
          have behind := sound.threaded.past next values found
          have number : values.inputSeq = run.inputSeq := belongs.2.1
          omega
        | _ => exact ⟨leads, ⟨values, found, belongs⟩, next, by decide⟩
    · cases entry : site.entry run site.thread with
      | error => trivial
      | ok chosen =>
        cases chosen with
        | start =>
          obtain ⟨clean, through, _⟩ := chooseEntry_start entry
          refine ⟨leads, clean, not_not.mp through, fun values found => ?_⟩
          obtain ⟨le, other⟩ := apart values found
          obtain ⟨listed, member, belongs, place⟩ := sound.threaded.shown values found
          by_contra ahead
          have number : listed.inputSeq = run.inputSeq := by
            have same : values.inputSeq = listed.inputSeq := belongs.2.1
            omega
          have same := known.of_seq (reachable_ordered sound.world) member number
          exact other (belongs.1.trans (NegotiationInput.of_sent same).1)
        | resume | finalize =>
          obtain ⟨values, found, belongs⟩ := chooseEntry_found entry (by decide)
          exact absurd belongs.1 (apart values found).2
        | history => trivial

/-- A process without a connection goes where its own checkpoint still stands. -/
theorem Site.Sound.lost_decides (sound : site.Sound) (known : site.Known run) {owner : Owner}
    (at_ : site.LostAt run (.inspected owner snapshot)) :
    site.LostAt run (site.decide run owner snapshot) := by
  have mine {entry : RunEntry} (chosen : site.entry run snapshot = .ok entry)
      (enters : entry = .resume ∨ entry = .finalize) :
      run.inputSeq ≤ site.cursor ∨ site.Shows run := by
    obtain ⟨values, found, belongs⟩ := chooseEntry_found chosen enters
    exact at_.imp_right fun shows => shows values found belongs.1
  unfold Site.decide
  split
  · next terminated =>
    split
    · trivial
    · exact .inr (sound.was_stopped known terminated)
  · cases entry : site.entry run snapshot with
    | error => trivial
    | ok chosen =>
      cases chosen with
      | start | history | finalize => trivial
      | resume =>
        cases next : snapshot.next with
        | none => trivial
        | some node =>
          cases node with
          | start => trivial
          | _ => exact mine entry (.inl rfl)

end

/-! ### Steps of the system around the thread -/

/-- The event closes an input. -/
def Event.Finalizes (event : Event) : Prop :=
  ∃ runId owner values pending checked settled,
    event = .call (.finalize runId owner values pending checked settled)

section

variable [Platform] {site : Site} {world : World} {run : NegotiationInput} {event : Event}

/-- Only closing an input moves the cursor. -/
theorem Site.Sound.cursor_at (sound : site.Sound) (step : World.Step site.world event world)
    (other : ¬ event.Finalizes) : (site.at_ world).cursor = site.cursor := by
  rcases step.resolves sound.world with same | ⟨_, run, _, _, _, owner, values, checked, settled,
    made, _⟩
  · exact same
  · exact absurd ⟨run.id, owner, values, false, checked, settled, made⟩ other

/-- A step that attests to nothing leaves no new evidence. -/
theorem World.Step.quiet (reached : Reachable World.Step World.Initial site.world)
    (step : World.Step site.world event world)
    (silent : ∀ transaction, event = .call transaction → ¬ transaction.Attests) (runId : Nat)
    (attested : Attested world.db runId) : Attested site.world.db runId := by
  rcases step.attests reached attested with old | ⟨_, ⟨transaction, called, _, attests⟩, _⟩
  · exact old
  · exact absurd attests (silent transaction called)

/-- A step that attests to nothing and closes nothing keeps everything in order. -/
theorem Site.Sound.quietly (sound : site.Sound) (step : World.Step site.world event world)
    (silent : ∀ transaction, event = .call transaction → ¬ transaction.Attests)
    (open_ : ¬ event.Finalizes) : (site.at_ world).Sound :=
  sound.advances step (sound.cursor_at step open_) fun runId attested =>
    .inl (step.quiet sound.world silent runId attested)

/-- A transaction of a process at work attests to its own run at most. -/
theorem Site.Sound.attesting (sound : site.Sound) {transaction : Transaction} {owner : Owner}
    (step : World.Step site.world (.call transaction) world)
    (byOwner : transaction.byOwner = some (run.id, owner))
    (open_ : ¬ Event.Finalizes (.call transaction)) (known : site.Known run)
    (left : Passes site.world.db run.id owner site.world.clock →
      (site.Shows run ∨ WasStopped site.world.db run.id) ∧
        ∀ process, site.holder = some process → process.run.id = run.id → ∀ owner,
          process.position ≠ .starting owner ∧ process.position ≠ .entering owner) :
    (site.at_ world).Sound := by
  refine sound.advances step (sound.cursor_at step open_) fun runId attested => ?_
  rcases step.attests sound.world attested with old | ⟨other, ⟨made, called, by_, _⟩, passes⟩
  · exact .inl old
  obtain rfl := Event.call.inj called
  obtain ⟨rfl, rfl⟩ := Prod.mk.inj (Option.some.inj (byOwner.symm.trans by_))
  obtain ⟨shows, apart⟩ := left passes
  obtain ⟨listed, member, same⟩ := known
  refine .inr ⟨⟨listed, member, (congrArg (·.id) same :), shows.imp_left ?_⟩, apart⟩
  rintro ⟨values, found, belongs⟩
  exact ⟨values, found, belongs.of_sent same⟩

omit [Platform] in
/-- Who owns a run without a connection is not behind a process that leads it. -/
theorem Leads.not_passes {lost : List GraphProcess} {owner pair : Owner} {now : Time}
    (leads : Leads site.world lost run owner) {other : GraphProcess} (member : other ∈ lost)
    (active : other.position.active = some pair) (same : other.run.id = run.id) :
    ¬ Passes site.world.db other.run.id pair now := by
  intro passes
  have older := leads.older other member pair active same
  have reached := leads.epoch
  rw [← same, ← passes.epoch] at reached
  exact absurd reached (Nat.not_le.mpr older)

/-- A run that is traced while it is on the thread. -/
theorem Site.Sound.trace (sound : site.Sound) (known : site.Known run) (shows : site.Shows run)
    (apart : ∀ process, site.holder = some process → process.run.id = run.id → ∀ owner,
      process.position ≠ .starting owner ∧ process.position ≠ .entering owner) :
    Site.Sound { site with traced := run.id :: site.traced } where
  world := sound.world
  threaded :=
    { sound.threaded with
      traces := fun runId evidence => by
        rcases evidence with traced | attested
        · rcases List.mem_cons.mp traced with rfl | old
          · obtain ⟨listed, member, same⟩ := known
            obtain ⟨values, found, belongs⟩ := shows
            exact ⟨listed, member, (congrArg (·.id) same :),
              .inr (.inl ⟨values, found, belongs.of_sent same⟩)⟩
          · exact sound.threaded.traces runId (.inl old)
        · exact sound.threaded.traces runId (.inr attested) }
  holder process holds := by
    obtain ⟨here, at_⟩ := sound.holder process holds
    refine ⟨here, ?_⟩
    have clean (begins : ∃ owner, process.position = .starting owner ∨
          process.position = .entering owner)
        (clean : ¬ site.HasEvidence process.run.id) :
        ¬ Site.HasEvidence { site with traced := run.id :: site.traced } process.run.id := by
      rintro (traced | attested)
      · rcases List.mem_cons.mp traced with same | old
        · obtain ⟨owner, begins⟩ := begins
          obtain ⟨starts, enters⟩ := apart process holds same owner
          exact begins.elim starts enters
        · exact clean (.inl old)
      · exact clean (.inr attested)
    generalize place : process.position = position at at_ clean ⊢
    cases position with
    | starting owner => exact ⟨at_.1, clean ⟨owner, .inl rfl⟩ at_.2.1, at_.2.2⟩
    | entering owner => exact ⟨at_.1, clean ⟨owner, .inr rfl⟩ at_.2.1, at_.2.2⟩
    | _ => exact at_
  lost process member :=
    ⟨(sound.lost process member).known, (sound.lost process member).at_,
      (sound.lost process member).reached⟩

/-! ### Checkpoints that are written -/

omit [Platform] in
/-- A checkpoint is written; who was on the thread still is, or is behind the cursor. -/
theorem Site.Lost.rethreaded {thread : TurnCheckpoint} {process : GraphProcess}
    (lost : site.Lost process)
    (keeps : ∀ run, site.Shows run → run.inputSeq ≤ site.cursor ∨
      (Site.Shows { site with thread } run ∧ (site.thread.next = none → thread.next = none))) :
    Site.Lost { site with thread } process := by
  refine ⟨lost.known, ?_, lost.reached⟩
  have at_ := lost.at_
  generalize process.position = position at at_ ⊢
  cases position with
  | inspected owner snapshot =>
    rcases at_ with behind | shows
    · exact .inl behind
    · by_cases behind : process.run.inputSeq ≤ site.cursor
      · exact .inl behind
      · refine .inr fun values found key => ?_
        exact ((keeps process.run (shows values found key)).resolve_left behind).1
  | running =>
    rcases at_ with behind | shows
    · exact .inl behind
    · exact (keeps process.run shows).imp_right (·.1)
  | closing =>
    rcases at_ with behind | ⟨shows, next⟩
    · exact .inl behind
    · exact (keeps process.run shows).imp_right fun kept => ⟨kept.1, kept.2 next⟩
  | stopping => exact at_
  | _ => trivial

/-- The process that holds the lock writes a checkpoint. -/
theorem Site.Sound.rethreaded (sound : site.Sound) {thread : TurnCheckpoint}
    {holder : GraphProcess} (threaded : Threaded { site with thread })
    (keeps : ∀ run, site.Shows run → run.inputSeq ≤ site.cursor ∨
      (Site.Shows { site with thread } run ∧ (site.thread.next = none → thread.next = none)))
    (known : site.Known holder.run)
    (at_ : Site.HolderAt { site with thread } holder.run holder.position) :
    Site.Sound { site with thread, holder := some holder } where
  world := sound.world
  threaded := threaded.besides (some holder) site.lost
  holder process holds := by
    obtain rfl := Option.some.inj holds
    exact ⟨known, at_⟩
  lost process member :=
    ((sound.lost process member).rethreaded keeps).besides (some holder) site.lost

variable {process : GraphProcess} {owner : Owner}

omit [Platform] in
/-- The first checkpoint of the head: it still shows the turn before. -/
theorem Threaded.putInput (threaded : Threaded site) (known : site.Known run)
    (head : run.inputSeq = site.cursor + 1)
    (past : ∀ values, site.thread.values = some values → values.inputSeq ≤ site.cursor) :
    Threaded
      { site with
        thread :=
          { site.thread with next := some .start, input := some (newTurn run none) } } where
  shown := threaded.shown
  given values found := by
    obtain ⟨listed, member, same⟩ := known
    obtain rfl := Option.some.inj found
    exact ⟨listed, member, (newTurn_belongs run none).of_sent same,
      (NegotiationInput.of_sent same).2.2.1.trans head⟩
  start := iff_of_true rfl (Option.some_ne_none _)
  past _ := past
  pending node next apart := absurd (Option.some.inj next).symm apart
  through next := by cases next
  traces := threaded.traces

omit [Platform] in
/-- The checkpoint behind the start shows the head. -/
theorem Threaded.putStart (threaded : Threaded site) {node : TurnNode} (apart : node ≠ .start)
    (start : site.thread.next = some .start) :
    Threaded { site with thread := { values := site.thread.input, next := some node } } where
  shown values found := by
    obtain ⟨listed, member, belongs, place⟩ := threaded.given values found
    exact ⟨listed, member, belongs, place.le⟩
  given values found := by cases found
  start := iff_of_false (fun same => apart (Option.some.inj same)) fun given => given rfl
  past same := absurd (Option.some.inj same) apart
  pending _ _ _ := by
    obtain ⟨values, found⟩ := Option.ne_none_iff_exists'.mp (threaded.start.mp start)
    obtain ⟨listed, _, belongs, place⟩ := threaded.given values found
    exact ⟨values, found, belongs.2.1.trans place⟩
  through next := by cases next
  traces runId evidence := by
    obtain ⟨listed, member, key, left⟩ := threaded.traces runId evidence
    refine ⟨listed, member, key, ?_⟩
    rcases left with behind | ⟨values, found, belongs⟩ | stopped
    · exact .inl behind
    · exact .inl (belongs.2.1 ▸ threaded.past start values found)
    · exact .inr (.inr stopped)

omit [Platform] in
/-- A checkpoint of the head, behind any other node or at the end. -/
theorem Threaded.put (threaded : Threaded site) (ordered : Ordered site.world.db.queue)
    (known : site.Known run) (head : run.inputSeq = site.cursor + 1) {values : TurnValues}
    {next : Option TurnNode} (belongs : BelongsTo values run) (apart : next ≠ some .start)
    (through : next = none → site.world.db.reply run.id ≠ none) :
    Threaded { site with thread := { values := some values, next } } where
  shown shown found := by
    obtain ⟨listed, member, same⟩ := known
    obtain rfl := Option.some.inj found
    exact ⟨listed, member, belongs.of_sent same,
      ((NegotiationInput.of_sent same).2.2.1.trans head).le⟩
  given _ found := by cases found
  start := iff_of_false apart fun given => given rfl
  past start := absurd start apart
  pending _ _ _ := ⟨values, rfl, belongs.2.1.trans head⟩
  through ends shown found _ := by
    obtain rfl := Option.some.inj found
    rw [belongs.1]
    exact through ends
  traces runId evidence := by
    obtain ⟨listed, member, key, left⟩ := threaded.traces runId evidence
    refine ⟨listed, member, key, ?_⟩
    rcases left with behind | ⟨old, found, mine⟩ | stopped
    · exact .inl behind
    · obtain ⟨other, present, theirs, place⟩ := threaded.shown old found
      have number : listed.inputSeq = other.inputSeq := mine.2.1.symm.trans theirs.2.1
      by_cases behind : listed.inputSeq ≤ site.cursor
      · exact .inl behind
      · have same : listed.sent = run.sent := known.of_seq ordered member (by omega)
        exact .inr (.inl ⟨values, rfl, belongs.of_sent same⟩)
    · exact .inr (.inr stopped)

/-- The head is entered: nothing of a run before stays on the thread. -/
theorem Site.Sound.put_keeps (sound : site.Sound) (known : site.Known run)
    (head : run.inputSeq = site.cursor + 1) {thread : TurnCheckpoint} {values : TurnValues}
    (shown : thread.values = some values) (belongs : BelongsTo values run)
    (through : site.thread.next = none → thread.next = none) :
    ∀ other, site.Shows other → other.inputSeq ≤ site.cursor ∨
      (Site.Shows { site with thread } other ∧ (site.thread.next = none → thread.next = none)) := by
  rintro other ⟨old, found, theirs⟩
  obtain ⟨listed, member, mine, place⟩ := sound.threaded.shown old found
  by_cases behind : other.inputSeq ≤ site.cursor
  · exact .inl behind
  · have number : listed.inputSeq = other.inputSeq := mine.2.1.symm.trans theirs.2.1
    have same := known.of_seq (reachable_ordered sound.world) member (by omega)
    refine .inr ⟨⟨values, shown, ?_⟩, through⟩
    have identity : other.identity = run.identity := by
      rw [← NegotiationInput.identity_of_sent same]
      obtain ⟨key, place, input, config, version⟩ := mine
      obtain ⟨key', place', input', config', version'⟩ := theirs
      unfold NegotiationInput.identity
      rw [← key, ← key', ← place, ← place', ← input, ← input', ← config, ← config', ← version,
        ← version']
    rw [belongsTo_iff, identity]
    exact belongs

end

/-! ### The steps of a process -/

theorem guard_bind_eq_some {Value : Type} {condition : Prop} [Decidable condition]
    {next : Unit → Option Value} {value : Value} :
    (guard condition >>= next) = some value ↔ condition ∧ next () = some value := by
  by_cases holds : condition <;> simp [guard, holds, failure]

section

variable [Platform] {site moved : Site} {process : GraphProcess} {owner : Owner}
variable {position : Option Position} {transaction : Transaction} {world : World}

theorem World.called_step {before : World} (runs : ¬ transaction.OfRunner)
    (called : before.called transaction = some world) :
    World.Step before (.call transaction) world := by
  unfold World.called at called
  split at called
  · next timely => exact ⟨timely, runs, (Option.some.inj called).symm⟩
  · cases called

omit [Platform] in
/-- A claim that is granted is one of the head. -/
theorem claim_leads {before after : Db} {runId : Nat} {now : Time}
    (done : claim before runId now = .ok (after, some owner)) :
    ∃ run ∈ before.inputs, run.id = runId ∧
      run.inputSeq = before.session.lastResolvedInputSeq + 1 := by
  unfold claim at done
  simp only [bind_eq_ok, expect_eq_ok] at done
  obtain ⟨run, found, stored, _, rest⟩ := done
  split at rest
  · next claimable =>
    exact ⟨run, Table.mem_of_get found, Table.key_of_get found, claimable.1⟩
  · cases (Prod.mk.inj ((pure_eq_ok _ _).mp rest)).2

/-- A process that is granted its claim leads the run. -/
theorem Site.Sound.claimed (sound : site.Sound) {run : NegotiationInput} (known : site.Known run)
    {now : Time} {after : Db} (step : World.Step site.world (.call (.claim run.id now)) world)
    (done : claim site.world.db run.id now = .ok (after, some owner))
    (cursor : (site.at_ world).cursor = site.cursor) : Leads world site.lost run owner := by
  obtain ⟨epoch, next⟩ := claim_granted done
  have db : world.db = after := by
    have performed : site.world.db.perform (.claim run.id now) = .ok after :=
      (map_eq_ok _ _ _).mpr ⟨_, done, rfl⟩
    rw [step.2.2]
    show (site.world.settleTransaction (.claim run.id now)).db = after
    unfold World.settleTransaction
    rw [performed]
  obtain ⟨listed, member, key, head⟩ := claim_leads done
  have place : listed.inputSeq = run.inputSeq :=
    (NegotiationInput.of_sent (known.of_id member key)).2.2.1
  refine ⟨?_, ?_, fun other member pair active same => ?_⟩
  · rw [← place, head]
    exact congrArg (· + 1) cursor.symm
  · rw [db]
    exact epoch.le
  · have reached := (sound.lost other member).reached pair active
    rw [same] at reached
    omega

theorem Site.Sound.claims (sound : site.Sound) {run : NegotiationInput} {now : Time}
    (called : site.world.called (.claim run.id now) = some world) :
    World.Step site.world (.call (.claim run.id now)) world ∧
      (site.at_ world).cursor = site.cursor ∧ (site.at_ world).Sound := by
  have step := World.called_step (by exact id) called
  have open_ : ¬ Event.Finalizes (.call (.claim run.id now)) := by
    rintro ⟨_, _, _, _, _, _, same⟩
    cases same
  refine ⟨step, sound.cursor_at step open_, sound.quietly step ?_ open_⟩
  rintro _ same
  obtain rfl := Event.call.inj same
  exact id

omit [Platform] in
/-- The transactions of a node close nothing, and no runner makes them. -/
theorem TurnNode.calls_plain {node : TurnNode} (calls : node.calls transaction) :
    ¬ transaction.OfRunner ∧ ¬ Event.Finalizes (.call transaction) := by
  constructor
  · intro runner
    cases node <;> cases transaction <;> first
      | exact runner
      | cases calls
  · rintro ⟨_, _, _, _, _, _, same⟩
    obtain rfl := Event.call.inj same
    cases node <;> cases calls

/-- The release of a run. -/
theorem Site.Sound.releases (sound : site.Sound) {runId : Nat} {recovery : Bool}
    {checked settled retried : Time}
    (called : site.world.called (.release runId owner recovery checked settled retried) =
      some world) : (site.at_ world).Sound := by
  have step := World.called_step (by exact id) called
  refine sound.quietly step (fun transaction same => ?_) ?_
  · obtain rfl := Event.call.inj same
    exact id
  · rintro ⟨_, _, _, _, _, _, same⟩
    cases same

/-- A process closes its input, on a thread that is through. -/
theorem Site.Sound.finalizes (sound : site.Sound) {runId : Nat} {values : TurnValues}
    {pending : Bool} {checked settled : Time}
    (called : site.world.called (.finalize runId owner values pending checked settled) =
      some world)
    (through : Passes site.world.db runId owner site.world.clock → site.thread.next = none)
    (idle : Passes site.world.db runId owner site.world.clock → ∀ process,
      site.holder = some process → process.position = .waiting ∨
        ∃ owner recovery, process.position = .failing owner recovery) :
    (site.at_ world).Sound := by
  have step := World.called_step (by exact id) called
  have quiet := step.quiet sound.world (fun transaction same => by
    obtain rfl := Event.call.inj same
    exact id)
  rcases step.resolves sound.world with same | ⟨next, run, _, _, _, other, _, _, _, made, passes⟩
  · exact sound.advances step same fun runId attested => .inl (quiet runId attested)
  · obtain ⟨rfl, rfl, _⟩ := Transaction.finalize.inj (Event.call.inj made)
    exact sound.resolved step next (through passes) quiet (idle passes)

theorem Site.Sound.placed (sound : site.Sound) {next : Position}
    (known : site.Known process.run) (at_ : site.HolderAt process.run next) :
    (site.placed process (some next)).Sound :=
  sound.withHolder fun other holds => by
    obtain rfl := Option.some.inj holds
    exact ⟨known, at_⟩

/-- A transaction of the process that holds the lock. -/
theorem Site.Sound.holder_calls (sound : site.Sound) (holds : site.holder = some process)
    {node : TurnNode} (byOwner : transaction.byOwner = some (process.run.id, owner))
    (calls : node.calls transaction) (called : site.world.called transaction = some world)
    (shows : site.Shows process.run ∨ WasStopped site.world.db process.run.id)
    (apart : ∀ owner, process.position ≠ .starting owner ∧ process.position ≠ .entering owner) :
    ((site.at_ world).placed process (some process.position)).Sound := by
  obtain ⟨known, at_⟩ := sound.holder process holds
  obtain ⟨runs, open_⟩ := TurnNode.calls_plain calls
  have step := World.called_step runs called
  have next := sound.attesting step byOwner open_ known fun _ => ⟨shows, fun other holds' _ => by
    obtain rfl := Option.some.inj (holds.symm.trans holds')
    exact apart⟩
  obtain ⟨known, at_⟩ := next.holder process holds
  exact next.placed known at_

/-- One step of the process that holds the lock keeps everything in order. -/
theorem Site.Sound.holder_acts (sound : site.Sound) (holds : site.holder = some process)
    {action : TurnAction} (acted : process.act site true action = some (moved, position)) :
    (moved.placed process position).Sound := by
  obtain ⟨known, at_⟩ := sound.holder process holds
  have ordered := reachable_ordered sound.world
  unfold GraphProcess.act at acted
  cases action with
  | claim now =>
    dsimp only at acted
    split at acted
    · simp only [Option.bind_eq_bind, Option.bind_eq_some_iff] at acted
      obtain ⟨world, called, rest⟩ := acted
      obtain ⟨step, cursor, next⟩ := sound.claims called
      split at rest
      · next done =>
        obtain ⟨rfl, rfl⟩ := Prod.mk.inj (Option.some.inj rest)
        exact next.placed (known.advances (step.progresses sound.world))
          (sound.claimed known step done cursor)
      all_goals
        obtain ⟨rfl, rfl⟩ := Prod.mk.inj (Option.some.inj rest)
        exact next.withoutHolder
    · cases acted
  | inspect =>
    dsimp only at acted
    split at acted
    · next owner place =>
      rw [place] at at_
      split at acted
      · obtain ⟨_, rest⟩ := guard_bind_eq_some.mp acted
        obtain ⟨rfl, rfl⟩ := Prod.mk.inj (Option.some.inj rest)
        exact sound.placed known ⟨at_, rfl⟩
      · obtain ⟨rfl, rfl⟩ := Prod.mk.inj (Option.some.inj acted)
        exact sound.placed known trivial
    · cases acted
  | decide =>
    dsimp only at acted
    split at acted
    · next owner snapshot place =>
      rw [place] at at_
      obtain ⟨leads, rfl⟩ := at_
      obtain ⟨rfl, rfl⟩ := Prod.mk.inj (Option.some.inj acted)
      exact sound.placed known (sound.decides known leads)
    · cases acted
  | putInput =>
    dsimp only at acted
    split at acted
    · next owner place =>
      rw [place] at at_
      obtain ⟨leads, clean, next, past⟩ := at_
      obtain ⟨_, rest⟩ := guard_bind_eq_some.mp acted
      obtain ⟨rfl, rfl⟩ := Prod.mk.inj (Option.some.inj rest)
      refine sound.rethreaded (sound.threaded.putInput known leads.head past) ?_ known
        ⟨leads, clean, rfl⟩
      rintro run ⟨values, found, belongs⟩
      exact .inl (belongs.2.1 ▸ past values found)
    · cases acted
  | putStart =>
    dsimp only at acted
    split at acted
    · next owner place =>
      rw [place] at at_
      obtain ⟨leads, clean, next⟩ := at_
      obtain ⟨_, rest⟩ := guard_bind_eq_some.mp acted
      obtain ⟨rfl, rfl⟩ := Prod.mk.inj (Option.some.inj rest)
      have apart := TurnNode.first_ne_start process.run.graphVersion
      refine sound.rethreaded (sound.threaded.putStart apart next) ?_ known
        ⟨leads, ?_, rfl, apart⟩
      · rintro run ⟨values, found, belongs⟩
        exact .inl (belongs.2.1 ▸ sound.threaded.past next values found)
      · obtain ⟨values, given⟩ := Option.ne_none_iff_exists'.mp (sound.threaded.start.mp next)
        obtain ⟨listed, member, belongs, head⟩ := sound.threaded.given values given
        have same := known.of_seq ordered member (head.trans leads.head.symm)
        exact ⟨values, given, belongs.of_sent same.symm⟩
    · cases acted
  | call transaction =>
    dsimp only at acted
    split at acted
    · next owner node place =>
      obtain ⟨⟨byOwner, calls⟩, rest⟩ := guard_bind_eq_some.mp acted
      simp only [Option.bind_eq_bind, Option.bind_eq_some_iff] at rest
      obtain ⟨world, called, rest⟩ := rest
      obtain ⟨rfl, rfl⟩ := Prod.mk.inj (Option.some.inj rest)
      rw [place] at at_
      refine sound.holder_calls holds byOwner calls called (.inl at_.2.1) fun _ => ?_
      rw [place]
      exact ⟨Position.noConfusion, Position.noConfusion⟩
    · next owner place =>
      obtain ⟨⟨byOwner, calls⟩, rest⟩ := guard_bind_eq_some.mp acted
      simp only [Option.bind_eq_bind, Option.bind_eq_some_iff] at rest
      obtain ⟨world, called, rest⟩ := rest
      obtain ⟨rfl, rfl⟩ := Prod.mk.inj (Option.some.inj rest)
      rw [place] at at_
      have apart : ∀ owner, process.position ≠ .starting owner ∧
          process.position ≠ .entering owner := by
        rw [place]
        exact fun _ => ⟨Position.noConfusion, Position.noConfusion⟩
      rcases calls with calls | calls <;>
        exact sound.holder_calls holds byOwner calls called (.inr at_.2.1) apart
    · cases acted
  | trace now =>
    dsimp only at acted
    split at acted
    · next owner node place =>
      obtain ⟨_, rest⟩ := guard_bind_eq_some.mp acted
      simp only [Option.bind_eq_bind, Option.bind_eq_some_iff] at rest
      obtain ⟨_, _, rest⟩ := rest
      obtain ⟨rfl, rfl⟩ := Prod.mk.inj (Option.some.inj rest)
      have shows := at_
      rw [place] at shows
      have next := sound.trace known shows.2.1 fun other holds' _ _ => by
        obtain rfl := Option.some.inj (holds.symm.trans holds')
        rw [place]
        exact ⟨Position.noConfusion, Position.noConfusion⟩
      obtain ⟨known, at_⟩ := next.holder process holds
      exact next.placed known at_
    · cases acted
  | finish next =>
    dsimp only at acted
    split at acted
    · next owner node place =>
      rw [place] at at_
      obtain ⟨leads, ⟨old, shown, belongs⟩, pending, apart⟩ := at_
      obtain ⟨⟨_, follows⟩, rest⟩ := guard_bind_eq_some.mp acted
      rw [shown] at rest
      simp only [Option.bind_eq_bind, Option.bind_eq_some_iff, Option.bind_some] at rest
      obtain ⟨values, written, rest⟩ := rest
      have mine : BelongsTo values process.run ∧
          (next = none → site.world.db.reply process.run.id ≠ none) := by
        unfold Db.valuesBehind at written
        split at written
        · obtain ⟨message, out, rfl⟩ := Option.map_eq_some_iff.mp written
          refine ⟨belongs, fun _ => ?_⟩
          unfold Db.publishedReply at out
          obtain ⟨delivery, found, _⟩ := Option.bind_eq_some_iff.mp out
          exact Option.ne_none_iff_exists'.mpr ⟨delivery, found⟩
        · next other =>
          obtain rfl := Option.some.inj written
          refine ⟨belongs, fun ends => absurd ?_ other⟩
          exact TurnNode.ends_with_reply _ node (ends ▸ follows)
      have onward : next ≠ some .start := fun same =>
        TurnNode.start_not_mem _ node (same ▸ follows)
      obtain ⟨rfl, rfl⟩ := Prod.mk.inj (Option.some.inj rest)
      refine sound.rethreaded
        (sound.threaded.put ordered known leads.head mine.1 onward mine.2)
        (sound.put_keeps known leads.head rfl mine.1 fun through => ?_) known ?_
      · rw [pending] at through
        cases through
      · cases next with
        | none => exact ⟨leads, ⟨values, rfl, mine.1⟩, rfl⟩
        | some node =>
          exact ⟨leads, ⟨values, rfl, mine.1⟩, rfl, fun same => onward (congrArg some same)⟩
    · cases acted
  | stop =>
    dsimp only at acted
    split at acted
    · next owner place =>
      rw [place] at at_
      obtain ⟨leads, _, _⟩ := at_
      obtain ⟨_, rest⟩ := guard_bind_eq_some.mp acted
      simp only [Option.bind_eq_bind, Option.bind_eq_some_iff] at rest
      obtain ⟨message, out, rest⟩ := rest
      obtain ⟨rfl, rfl⟩ := Prod.mk.inj (Option.some.inj rest)
      have replied : site.world.db.reply process.run.id ≠ none := by
        unfold Db.publishedReply at out
        obtain ⟨delivery, found, _⟩ := Option.bind_eq_some_iff.mp out
        exact Option.ne_none_iff_exists'.mpr ⟨delivery, found⟩
      have mine := newTurn_belongs process.run (some message)
      exact sound.rethreaded
        (sound.threaded.put ordered known leads.head mine (by decide) fun _ => replied)
        (sound.put_keeps known leads.head rfl mine fun _ => rfl) known
        ⟨leads, ⟨_, rfl, mine⟩, rfl⟩
    · cases acted
  | conclude =>
    dsimp only at acted
    split at acted
    · next owner place =>
      rw [place] at at_
      obtain ⟨_, rest⟩ := guard_bind_eq_some.mp acted
      simp only [Option.bind_eq_bind, Option.bind_eq_some_iff] at rest
      obtain ⟨values, _, rest⟩ := rest
      obtain ⟨rfl, rfl⟩ := Prod.mk.inj (Option.some.inj rest)
      exact sound.placed known at_
    · cases acted
  | finalize checked settled =>
    dsimp only at acted
    split at acted
    · next owner values pending place =>
      rw [place] at at_
      simp only [Option.bind_eq_bind, Option.bind_eq_some_iff] at acted
      obtain ⟨world, called, rest⟩ := acted
      have next : Site.Sound ({ site with holder := none }.at_ world) :=
        sound.withoutHolder.finalizes called (fun _ => at_.2.2) fun _ _ holds => by cases holds
      split at rest
      · obtain ⟨rfl, rfl⟩ := Prod.mk.inj (Option.some.inj rest)
        exact next
      · obtain ⟨rfl, rfl⟩ := Prod.mk.inj (Option.some.inj rest)
        have step := World.called_step (by exact id) called
        exact next.placed (known.advances (step.progresses sound.world)) trivial
    · cases acted
  | raise =>
    obtain ⟨owner, _, same⟩ := Option.map_eq_some_iff.mp acted
    obtain ⟨rfl, rfl⟩ := Prod.mk.inj same
    exact sound.placed known trivial
  | release checked settled retried =>
    dsimp only at acted
    split at acted
    · simp only [Option.bind_eq_bind, Option.bind_eq_some_iff] at acted
      obtain ⟨world, called, rest⟩ := acted
      obtain ⟨rfl, rfl⟩ := Prod.mk.inj (Option.some.inj rest)
      exact (sound.releases called).withoutHolder
    · cases acted
  | crash =>
    obtain ⟨rfl, rfl⟩ := Prod.mk.inj (Option.some.inj acted)
    exact sound.withoutHolder

/-! ### The steps of a process without a connection -/

theorem Site.Sound.lost_gone (sound : site.Sound) (index : Nat) :
    Site.Sound { site with lost := replaceLost site.lost index process none } :=
  sound.withLost fun other member => by
    have old := List.mem_of_mem_eraseIdx member
    exact ⟨sound.lost other old, fun pair active => ⟨other, old, active, rfl⟩⟩

theorem Site.Sound.lost_placed (sound : site.Sound) {index : Nat} {next : Position}
    (member : process ∈ site.lost) (at_ : site.LostAt process.run next)
    (active : ∀ pair, next.active = some pair → process.position.active = some pair) :
    Site.Sound { site with lost := replaceLost site.lost index process (some next) } :=
  sound.withLost fun other listed => by
    rcases List.mem_or_eq_of_mem_set listed with old | rfl
    · exact ⟨sound.lost other old, fun pair active => ⟨other, old, active, rfl⟩⟩
    · have lost := sound.lost process member
      exact ⟨⟨lost.known, at_, fun pair owner => lost.reached pair (active pair owner)⟩,
        fun pair owner => ⟨process, member, active pair owner, rfl⟩⟩

/-- Who owns the run of a process without a connection leaves no room for one that leads it. -/
theorem Site.Sound.lost_passes (sound : site.Sound) (member : process ∈ site.lost)
    (active : process.position.active = some owner) {now : Time}
    (passes : Passes site.world.db process.run.id owner now) :
    process.run.inputSeq = site.cursor + 1 ∧ ∀ other, site.holder = some other →
      ∀ pair, ¬ Leads site.world site.lost other.run pair := by
  obtain ⟨listed, present, key, head⟩ := passes.head (reachable_ordered sound.world)
  have place : listed.inputSeq = process.run.inputSeq :=
    (NegotiationInput.of_sent ((sound.lost process member).known.of_id present key)).2.2.1
  refine ⟨place.symm.trans head, fun other holds pair leads => ?_⟩
  obtain ⟨known, _⟩ := sound.holder other holds
  have same : listed.sent = other.run.sent :=
    known.of_seq (reachable_ordered sound.world) present (head.trans leads.head.symm)
  exact leads.not_passes member active (key.symm.trans (congrArg (·.id) same)) passes

/-- Nobody is about to begin a run that a process without a connection owns. -/
theorem Site.Sound.lost_apart (sound : site.Sound) (member : process ∈ site.lost)
    (active : process.position.active = some owner) {now : Time}
    (passes : Passes site.world.db process.run.id owner now) :
    ∀ other, site.holder = some other → other.run.id = process.run.id → ∀ owner,
      other.position ≠ .starting owner ∧ other.position ≠ .entering owner := by
  intro other holds _ pair
  have behind := (sound.lost_passes member active passes).2 other holds
  have at_ := (sound.holder other holds).2
  constructor <;> intro place <;> rw [place] at at_ <;> exact behind _ at_.1

theorem Site.Sound.lost_calls (sound : site.Sound) (member : process ∈ site.lost)
    (active : process.position.active = some owner) {node : TurnNode}
    (byOwner : transaction.byOwner = some (process.run.id, owner))
    (calls : node.calls transaction) (called : site.world.called transaction = some world)
    (left : process.run.inputSeq ≤ site.cursor ∨
      (site.Shows process.run ∨ WasStopped site.world.db process.run.id)) :
    (site.at_ world).Sound := by
  obtain ⟨runs, open_⟩ := TurnNode.calls_plain calls
  refine sound.attesting (World.called_step runs called) byOwner open_
    (sound.lost process member).known fun passes => ⟨?_, sound.lost_apart member active passes⟩
  have head := (sound.lost_passes member active passes).1
  exact left.resolve_left (by omega)

/-- One step of a process without a connection keeps everything in order. -/
theorem Site.Sound.lost_acts (sound : site.Sound) {index : Nat}
    (found : site.lost[index]? = some process) {action : TurnAction}
    (acted : process.act site false action = some (moved, position)) :
    Site.Sound { moved with lost := replaceLost site.lost index process position } := by
  have member : process ∈ site.lost := List.mem_of_getElem? found
  obtain ⟨known, at_, _⟩ := sound.lost process member
  have still : ∀ pair, process.position.active = some pair →
      process.position.active = some pair := fun _ => id
  have offline {Value : Type} {next : Unit → Option Value} {value : Value}
      (some_ : (guard (false = true) >>= next) = some value) : False := by
    obtain ⟨same, _⟩ := guard_bind_eq_some.mp some_
    cases same
  unfold GraphProcess.act at acted
  cases action with
  | claim now =>
    dsimp only at acted
    split at acted
    · simp only [Option.bind_eq_bind, Option.bind_eq_some_iff] at acted
      obtain ⟨world, called, rest⟩ := acted
      obtain ⟨_, _, next⟩ := sound.claims called
      split at rest
      · obtain ⟨rfl, rfl⟩ := Prod.mk.inj (Option.some.inj rest)
        exact next.lost_placed member trivial fun _ active => by cases active
      all_goals
        obtain ⟨rfl, rfl⟩ := Prod.mk.inj (Option.some.inj rest)
        exact next.lost_gone index
    · cases acted
  | inspect =>
    dsimp only at acted
    split at acted
    · split at acted
      · exact (offline acted).elim
      · obtain ⟨rfl, rfl⟩ := Prod.mk.inj (Option.some.inj acted)
        exact sound.lost_placed member trivial fun _ active => by cases active
    · cases acted
  | decide =>
    dsimp only at acted
    split at acted
    · next owner snapshot place =>
      rw [place] at at_
      obtain ⟨rfl, rfl⟩ := Prod.mk.inj (Option.some.inj acted)
      refine sound.lost_placed member (sound.lost_decides known at_) fun pair active => ?_
      rw [Site.decide_active active, place]
      rfl
    · cases acted
  | putInput | putStart | stop | conclude =>
    dsimp only at acted
    split at acted
    · exact (offline acted).elim
    · cases acted
  | call transaction =>
    dsimp only at acted
    split at acted
    · next owner node place =>
      obtain ⟨⟨byOwner, calls⟩, rest⟩ := guard_bind_eq_some.mp acted
      simp only [Option.bind_eq_bind, Option.bind_eq_some_iff] at rest
      obtain ⟨world, called, rest⟩ := rest
      obtain ⟨rfl, rfl⟩ := Prod.mk.inj (Option.some.inj rest)
      have left := at_
      rw [place] at left
      have next := sound.lost_calls member (by rw [place]; rfl) byOwner calls called
        (left.imp_right .inl)
      exact next.lost_placed member (next.lost process member).at_ still
    · next owner place =>
      obtain ⟨⟨byOwner, calls⟩, rest⟩ := guard_bind_eq_some.mp acted
      simp only [Option.bind_eq_bind, Option.bind_eq_some_iff] at rest
      obtain ⟨world, called, rest⟩ := rest
      obtain ⟨rfl, rfl⟩ := Prod.mk.inj (Option.some.inj rest)
      have left := at_
      rw [place] at left
      have next : (site.at_ world).Sound := by
        rcases calls with calls | calls <;>
          exact sound.lost_calls member (by rw [place]; rfl) byOwner calls called
            (left.imp_right .inr)
      exact next.lost_placed member (next.lost process member).at_ still
    · cases acted
  | trace now =>
    dsimp only at acted
    split at acted
    · next owner node place =>
      obtain ⟨_, rest⟩ := guard_bind_eq_some.mp acted
      simp only [Option.bind_eq_bind, Option.bind_eq_some_iff] at rest
      obtain ⟨⟨run, task⟩, owned, rest⟩ := rest
      obtain ⟨rfl, rfl⟩ := Prod.mk.inj (Option.some.inj rest)
      have passes : Passes site.world.db process.run.id owner now := by
        refine ⟨run, task, ?_⟩
        cases locked : lockOwner site.world.db process.run.id owner now with
        | error => rw [locked] at owned; cases owned
        | ok pair => rw [locked] at owned; exact congrArg _ (Option.some.inj owned)
      have active : process.position.active = some owner := by rw [place]; rfl
      have left := at_
      rw [place] at left
      have head := (sound.lost_passes member active passes).1
      have shows : site.Shows process.run := left.resolve_left (by omega)
      have next := sound.trace known shows (sound.lost_apart member active passes)
      exact next.lost_placed member (next.lost process member).at_ still
    · cases acted
  | finish next =>
    dsimp only at acted
    split at acted
    · obtain ⟨⟨same, _⟩, _⟩ := guard_bind_eq_some.mp acted
      cases same
    · cases acted
  | finalize checked settled =>
    dsimp only at acted
    split at acted
    · next owner values pending place =>
      simp only [Option.bind_eq_bind, Option.bind_eq_some_iff] at acted
      obtain ⟨world, called, rest⟩ := acted
      have active : process.position.active = some owner := by rw [place]; rfl
      rw [place] at at_
      have next : (site.at_ world).Sound := by
        refine sound.finalizes called (fun passes => ?_) fun passes other holds => ?_
        · have head := (sound.lost_passes member active passes).1
          exact (at_.resolve_left (by omega)).2
        · have behind := (sound.lost_passes member active passes).2 other holds
          have theirs := (sound.holder other holds).2
          cases position : other.position with
          | waiting => exact .inl rfl
          | failing owner recovery => exact .inr ⟨owner, recovery, rfl⟩
          | claimed => rw [position] at theirs; exact absurd theirs (behind _)
          | _ => rw [position] at theirs; exact absurd theirs.1 (behind _)
      split at rest
      · obtain ⟨rfl, rfl⟩ := Prod.mk.inj (Option.some.inj rest)
        exact next.lost_gone index
      · obtain ⟨rfl, rfl⟩ := Prod.mk.inj (Option.some.inj rest)
        exact next.lost_placed member trivial fun _ active => by cases active
    · cases acted
  | raise =>
    obtain ⟨owner, _, same⟩ := Option.map_eq_some_iff.mp acted
    obtain ⟨rfl, rfl⟩ := Prod.mk.inj same
    exact sound.lost_placed member trivial fun _ active => by cases active
  | release checked settled retried =>
    dsimp only at acted
    split at acted
    · simp only [Option.bind_eq_bind, Option.bind_eq_some_iff] at acted
      obtain ⟨world, called, rest⟩ := acted
      obtain ⟨rfl, rfl⟩ := Prod.mk.inj (Option.some.inj rest)
      exact (sound.releases called).lost_gone index
    · cases acted
  | crash =>
    obtain ⟨rfl, rfl⟩ := Prod.mk.inj (Option.some.inj acted)
    exact sound.lost_gone index

end

/-! ### Every state -/

section

variable [Platform] {site after : Site}

theorem Site.Sound.step {event : SiteEvent} (sound : site.Sound)
    (step : Site.Step site event after) : after.Sound := by
  unfold Site.Step Site.react at step
  cases event with
  | outside event =>
    obtain ⟨⟨timely, allowed, around⟩, rest⟩ := guard_bind_eq_some.mp step
    obtain rfl := Option.some.inj rest
    have apart : ∀ transaction, event = .call transaction → ¬ transaction.isOfGraph = true := by
      rintro transaction rfl
      exact Bool.eq_false_iff.mp around.1
    refine sound.quietly ⟨timely, allowed, rfl⟩ (fun transaction called attests => ?_) ?_
    · refine apart transaction called ?_
      cases transaction <;> first
        | exact attests.elim
        | rfl
    · rintro ⟨_, _, _, _, _, _, called⟩
      exact apart _ called rfl
  | open_ runId =>
    obtain ⟨_, rest⟩ := guard_bind_eq_some.mp step
    simp only [Option.bind_eq_bind, Option.bind_eq_some_iff] at rest
    obtain ⟨run, found, stored, _, _, _, same⟩ := rest
    obtain rfl := Option.some.inj same
    exact sound.withHolder fun process holds => by
      obtain rfl := Option.some.inj holds
      exact ⟨⟨run, Table.mem_of_get found, rfl⟩, trivial⟩
  | holder action =>
    simp only [Option.bind_eq_bind, Option.bind_eq_some_iff, Prod.exists] at step
    obtain ⟨process, holds, moved, position, acted, same⟩ := step
    obtain rfl := Option.some.inj same
    exact sound.holder_acts holds acted
  | lost index action =>
    simp only [Option.bind_eq_bind, Option.bind_eq_some_iff, Prod.exists] at step
    obtain ⟨process, found, moved, position, acted, same⟩ := step
    obtain rfl := Option.some.inj same
    exact sound.lost_acts found acted
  | disconnect =>
    simp only [Option.bind_eq_bind, Option.bind_eq_some_iff] at step
    obtain ⟨process, holds, same⟩ := step
    obtain rfl := Option.some.inj same
    exact sound.disconnected holds
  | forget =>
    obtain ⟨⟨archived, free⟩, same⟩ := guard_bind_eq_some.mp step
    obtain rfl := Option.some.inj same
    have emptied := (reachable_tended sound.world).emptied archived
    have ordered := reachable_ordered sound.world
    have behind : ∀ run ∈ site.world.db.inputs, run.inputSeq ≤ site.cursor := by
      intro run member
      have within := (ordered.numbered.within run member).2
      have next : site.world.db.queue.nextInputSeq = site.cursor + 1 := emptied.symm
      omega
    have passed : ∀ run, site.Known run → run.inputSeq ≤ site.cursor := by
      rintro run ⟨listed, member, same⟩
      exact (NegotiationInput.of_sent same).2.2.1 ▸ behind listed member
    refine ⟨sound.world, ⟨?_, ?_, ?_, ?_, ?_, ?_, ?_⟩, ?_, fun process member => ?_⟩
    · intro _ found
      cases found
    · intro _ found
      cases found
    · exact iff_of_false (by rintro ⟨⟩) fun given => given rfl
    · intro start
      cases start
    · intro _ next
      cases next
    · intro _ _ found
      cases found
    · intro runId evidence
      obtain ⟨run, member, key, _⟩ := sound.threaded.traces runId evidence
      exact ⟨run, member, key, .inl (behind run member)⟩
    · intro process holds
      rw [show site.holder = none from free] at holds
      cases holds
    · have lost := sound.lost process member
      have done := passed process.run lost.known
      refine ⟨lost.known, ?_, lost.reached⟩
      cases process.position with
      | inspected | running | stopping | closing => exact .inl done
      | _ => trivial

theorem Site.reachable_sound (reached : Reachable Site.Step Site.Initial site) : site.Sound := by
  refine reached.invariant Site.Sound (fun site initial => ?_)
    fun before event after sound step => sound.step step
  obtain ⟨begins, blank⟩ := initial
  have world : Reachable World.Step World.Initial site.world := .start begins
  obtain ⟨⟨_, _, _, _, _, _, _, db⟩, _⟩ := begins
  rw [blank]
  refine ⟨world, ⟨?_, ?_, ?_, ?_, ?_, ?_, ?_⟩, ?_, ?_⟩
  · intro _ found
    cases found
  · intro _ found
    cases found
  · exact iff_of_false (by rintro ⟨⟩) fun given => given rfl
  · intro start
    cases start
  · intro _ next
    cases next
  · intro _ _ found
    cases found
  · rintro runId (traced | attested)
    · exact absurd traced List.not_mem_nil
    · rw [attested_iff (reachable_formed world)] at attested
      unfold Db.reply at attested
      rw [show ({ world := site.world } : Site).world.db = site.world.db from rfl, db] at attested
      rcases attested with ⟨call, member, _⟩ | there | there
      · exact absurd member (Table.not_mem_empty call)
      · exact absurd rfl there
      · exact absurd rfl there
  · intro _ holds
    cases holds
  · intro _ member
    exact absurd member List.not_mem_nil

/-! ### The entry is forced -/

/-- The entries of the head, with what the thread and the rows look like. -/
inductive Enters (site : Site) (run : NegotiationInput) : Except Failure RunEntry → Prop
  | start (foreign : ¬ site.Shows run) (through : site.thread.next = none)
      (clean : ¬ site.HasEvidence run.id) : Enters site run (.ok .start)
  | resume {node : TurnNode} (shows : site.Shows run) (pending : site.thread.next = some node)
      (onward : node ≠ .start) : Enters site run (.ok .resume)
  | finalize (shows : site.Shows run) (through : site.thread.next = none)
      (evidence : site.HasEvidence run.id) : Enters site run (.ok .finalize)
  | conflict (foreign : ¬ site.Shows run) (torn : site.thread.next = some .start)
      (clean : ¬ site.HasEvidence run.id) (fault : Failure) : Enters site run (.error fault)

variable {run : NegotiationInput}

/-- A head that the thread does not show is begun, unless the first checkpoint is there. -/
theorem Site.Sound.enters_apart (sound : site.Sound) (known : site.Known run)
    (head : run.inputSeq = site.cursor + 1) (clean : ¬ site.HasEvidence run.id)
    (apart : ∀ values, site.thread.values = some values →
      values.inputSeq ≤ run.inputSeq ∧ values.runId ≠ run.id) :
    Enters site run (site.entry run site.thread) := by
  have foreign : ¬ site.Shows run := by
    rintro ⟨values, found, belongs⟩
    exact (apart values found).2 belongs.1
  have entry : site.entry run site.thread =
      beginAnew (site.thread.next ≠ none) (site.HasEvidence run.id)
        (site.world.db.session.lastResolvedInputSeq + 1 = run.inputSeq) := chooseEntry_other apart
  rw [entry]
  unfold beginAnew
  cases next : site.thread.next with
  | none =>
    rw [(bind_eq_ok _ _ RunEntry.start).mpr ⟨(), (require_eq_ok _ _ _).mpr ?_, rfl⟩]
    · exact .start foreign next clean
    · exact ⟨head.symm, clean, not_not_intro rfl⟩
  | some node =>
    have torn : node = .start := by
      by_contra other
      obtain ⟨values, found, place⟩ := sound.threaded.pending node next other
      obtain ⟨listed, member, belongs, _⟩ := sound.threaded.shown values found
      have number : listed.inputSeq = run.inputSeq := by
        have same : values.inputSeq = listed.inputSeq := belongs.2.1
        omega
      have same := known.of_seq (reachable_ordered sound.world) member number
      exact (apart values found).2 (belongs.1.trans (NegotiationInput.of_sent same).1)
    rw [(bind_eq_error _ _ _).mpr (.inl ((require_eq_error _ _ _).mpr ⟨?_, rfl⟩))]
    · exact .conflict foreign (torn ▸ next) clean _
    · exact fun both => both.2.2 (Option.some_ne_none node)

end

/-! ### Sites on a list of events -/

section

variable [Platform]

/-- The site after the events, oldest event first, if they can happen. -/
def Site.after (site : Site) : List SiteEvent → Option Site
  | [] => some site
  | event :: rest => (site.react event).bind (·.after rest)

theorem Site.run_after {first site last : Site} {past : List (Transition Site SiteEvent)}
    {events : List SiteEvent} (run : Run Site.Step first past site)
    (leads : site.after events = some last) : ∃ history, Run Site.Step first history last := by
  induction events generalizing site past with
  | nil =>
    obtain rfl := Option.some.inj leads
    exact ⟨past, run⟩
  | cons event rest inductionHypothesis =>
    obtain ⟨next, taken, later⟩ := Option.bind_eq_some_iff.mp leads
    exact inductionHypothesis (run.next taken) later

end

/-- The thread of the sample session, which was never run. -/
def sampleSite : Site := { world := sampleWorld }

theorem sampleSite_initial : sampleSite.Initial := ⟨sampleWorld_initial, rfl⟩

/-- The buyer offers 70 yuan, and a process reads the thread. -/
def reading : List SiteEvent :=
  [.outside (.call (.enqueue "buyer" "first" lowOffer none (seconds 1))), .open_ 1,
    .holder (.claim (seconds 1)), .holder .inspect]

/-- What the process has read and with whom it goes on. -/
def Position.seen : Position → Option (Owner × TurnCheckpoint)
  | .inspected owner snapshot => some (owner, snapshot)
  | _ => none

theorem Position.of_seen {position : Position} {owner : Owner} {snapshot : TurnCheckpoint}
    (seen : position.seen = some (owner, snapshot)) : position = .inspected owner snapshot := by
  cases position with
  | inspected =>
    obtain ⟨rfl, rfl⟩ := Prod.mk.inj (Option.some.inj seen)
    rfl
  | _ => cases seen

end Negotiation
