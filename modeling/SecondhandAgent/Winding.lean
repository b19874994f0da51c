/-
This file follows one pass of a runner over an input that the seller stopped. The
pass claims the input, answers it unless it has its answer, publishes the answer
and moves the cursor on. Every part succeeds from whatever the rows were left
like, with one exception: the text of a reply goes into a column of a bounded
width, and a reply that is wider cannot be published by any pass.
-/

import SecondhandAgent.Termination

namespace Negotiation

open Store

/-! ### The pass -/

/-- What a pass finds in the checkpoint of the thread: whether a turn is unfinished there, and of
which run the values are. -/
structure Snapshot where
  unfinished : Bool := false
  runId : Option Nat := none

/-- The clock as the parts of a pass read it. -/
structure PassTimes where
  claimed : Time
  checked : Time
  assessed : Time
  noticed : Time
  published : Time
  closed : Time
  settled : Time

/-- The pass is over before the lease that its claim is granted. -/
def PassTimes.Prompt (times : PassTimes) : Prop :=
  times.checked < datetime (times.claimed + closingWindow) ∧
    times.published < datetime (times.claimed + closingWindow) ∧
    times.closed < datetime (times.claimed + closingWindow)

instance (times : PassTimes) : Decidable times.Prompt := inferInstanceAs (Decidable (_ ∧ _ ∧ _))

/-- What a stopped input is answered with. -/
def stopReason : String := "卖家已停止本次处理，请根据当前结果继续协商。"

/-- The stored input and its configuration match their hashes. -/
def NegotiationInput.Intact [Platform] (run : NegotiationInput) : Prop :=
  run.inputHash = digest run.payload.json ∧ run.configHash = digest run.config.json

instance [Platform] (run : NegotiationInput) : Decidable run.Intact :=
  inferInstanceAs (Decidable (_ ∧ _))

theorem NegotiationInput.Intact.of_sent [Platform] {run sent : NegotiationInput}
    (intact : run.Intact) (alike : sent.sent = run.sent) : sent.Intact := by
  have inputHash : sent.inputHash = run.inputHash := congrArg (·.inputHash) alike
  have configHash : sent.configHash = run.configHash := congrArg (·.configHash) alike
  obtain ⟨_, _, _, payload, config⟩ := NegotiationInput.of_sent alike
  unfold Intact
  rw [inputHash, configHash, payload, config]
  exact intact

/-- `new_turn`: the values of a checkpoint that was made for the input. -/
def newTurn (run : NegotiationInput) (publishedMessageId : Option Nat) : TurnValues where
  runId := run.id
  inputSeq := run.inputSeq
  inputHash := run.inputHash
  configHash := run.configHash
  graphVersion := run.graphVersion
  publishedMessageId

section

variable [Platform]

/-- The text of the delivery fits the column it goes into. -/
def Written (db : Db) (words : Words) (run : NegotiationInput) (item : NotificationDelivery)
    (now : Time) : Prop :=
  item.status = .published ∨
    (replyText db words run item.result item.replyDeadline now).utf8ByteSize ≤ textWidth

instance (db : Db) (words : Words) (run : NegotiationInput) (item : NotificationDelivery)
    (now : Time) : Decidable (Written db words run item now) :=
  inferInstanceAs (Decidable (_ ∨ _))

/-- The publication by the owner, with the text of the message: a text that is too wide raises
where the message is inserted. -/
def publishWorded (db : Db) (words : Words) (runId : Nat) (owner : Owner) (now : Time) :
    Option (Db × Option Nat) := do
  let run ← db.inputs.get runId
  let item ← db.reply runId
  guard (Written db words run item now)
  (publishOwned db runId owner now).toOption

/-- The branch of `GraphRunner._run` for a run the seller stopped: claim, answer, publish, write
the terminal checkpoint and finalize. Without a result the pass was refused or raised. -/
def terminatePass (db : Db) (words : Words) (snapshot : Snapshot) (runId : Nat)
    (times : PassTimes) : Option Db := do
  let (claimed, granted) ← (claim db runId times.claimed).toOption
  let owner ← granted
  let run ← claimed.inputs.get runId
  guard run.Intact
  let stored ← claimed.tasks.get run.taskId
  guard (stored.val.lastManualAction = some .terminate)
  guard (snapshot.unfinished = true → snapshot.runId = some runId)
  let (answered, _) ←
    (abortOrQuery claimed runId owner (some stopReason) times.checked times.assessed
      times.noticed).toOption
  let (published, messageId) ← publishWorded answered words runId owner times.published
  (finalize published runId owner (newTurn run messageId) false times.closed
    times.settled).toOption

end

/-- The reply that a stopped input gets: the one it has, or that it was stopped. -/
def stoppedReply (db : Db) (runId : Nat) (noticed : Time) : NotificationDelivery :=
  (db.reply runId).getD
    (replyDelivery runId { outcome := .notExecuted, reason := some stopReason } noticed)

/-- What winding up an input comes to: the cursor moves on by one and the input has one public
reply; no call of the model is recorded, nothing is done to the offers, the approvals, the session
or their receipts, what was public stays, and a result that was committed for the input is the one
that was published. -/
structure Winds (before : Db) (runId : Nat) (after : Db) : Prop where
  cursor : after.session.lastResolvedInputSeq = before.session.lastResolvedInputSeq + 1
  reply : ∃! message, message ∈ after.messages ∧ message.origin = .source (.turnReply runId)
  ledger : after.ledger = before.ledger
  affairs : after.affairs = before.affairs
  messages : ∀ message ∈ before.messages, message ∈ after.messages
  result : ∀ item, before.reply runId = some item →
    ∃ shown, after.reply runId = some shown ∧ shown.result = item.result

/-! ### The owner of a run -/

/-- The run is executed by the owner, whose lease ends at the given time. -/
structure Held (db : Db) (runId : Nat) (owner : Owner) (run : NegotiationInput)
    (task : ModelExecutionTask) (ends : Time) : Prop where
  found : db.inputs.get runId = some run
  held : ∃ lawful : task.Lawful, db.tasks.get run.taskId = some ⟨task, lawful⟩
  kind : task.runtimeKind = .langGraph
  status : task.status = .running
  token : task.leaseToken = some owner.1
  epoch : task.ownershipEpoch = owner.2
  lease : task.leaseExpiresAt = some ends

section

variable {db after : Db} {runId : Nat} {owner : Owner} {run : NegotiationInput}
  {task : ModelExecutionTask} {ends now : Time}

theorem Held.owns (held : Held db runId owner run task ends) (early : now < ends) :
    lockOwner db runId owner now = .ok (run, task) := by
  refine lockOwner_eq_ok.mpr ⟨held.found, held.held, held.kind, held.status, held.token,
    held.epoch, ?_⟩
  rw [held.lease]
  exact early

/-- Who leaves the inputs and the tasks alone leaves the ownership. -/
theorem Held.kept (held : Held db runId owner run task ends) (inputs : after.inputs = db.inputs)
    (tasks : after.tasks = db.tasks) : Held after runId owner run task ends :=
  { held with
    found := inputs ▸ held.found
    held := tasks ▸ held.held }

end

/-! ### Marking the head -/

section

variable [Platform] {db : Db} {runId : Nat} {run : NegotiationInput} {stored : StoredTask}
  {now : Time}

omit [Platform] in
theorem recovered_lawful (task : ModelExecutionTask) (action : RecoveryAct) :
    (task.recovered action).Lawful :=
  ⟨Or.inr ⟨nofun, rfl, rfl, rfl⟩, Or.inr ⟨nofun, rfl⟩⟩

/-- The seller stops an input at the head: the task can be claimed again. -/
theorem act_terminate {seller requestId reason : String} (found : db.inputs.get runId = some run)
    (held : db.tasks.get run.taskId = some stored)
    (head : run.inputSeq = db.session.lastResolvedInputSeq + 1)
    (lapsed : ¬ Ahead stored.val.leaseExpiresAt now)
    (open_ : stored.val.status ≠ .succeeded ∧ stored.val.status ≠ .cancelled)
    (stated : strip reason ≠ "") (owns : db.product.sellerId = seller)
    (kept : db.session.archivedAt = none)
    (fresh : db.actions.get (digest (.list [.text seller, .text requestId])) = none) :
    act db seller (.run runId) .terminate requestId reason now =
      .ok
        { db with
          tasks := db.tasks.put
            ⟨stored.val.recovered .terminate, recovered_lawful stored.val .terminate⟩
          inputs := db.inputs.put { run with recoveryRequired := false }
          actions := db.actions.insertIgnore
            { id := digest (.list [.text seller, .text requestId]), target := .run runId
              action := .terminate, reason } } := by
  unfold act
  refine (bind_eq_ok _ _ _).mpr ⟨(), (require_eq_ok _ _ _).mpr stated, ?_⟩
  refine (bind_eq_ok _ _ _).mpr ⟨(), (require_eq_ok _ _ _).mpr ⟨?_, owns⟩, ?_⟩
  · show db.inputs.get runId ≠ none
    rw [found]
    exact Option.some_ne_none run
  refine (bind_eq_ok _ _ _).mpr ⟨(), (require_eq_ok _ _ _).mpr kept, ?_⟩
  dsimp only
  rw [fresh]
  have done : recoverRun db runId .terminate now = .ok
      { db with
        tasks := db.tasks.put
          ⟨stored.val.recovered .terminate, recovered_lawful stored.val .terminate⟩
        inputs := db.inputs.put { run with recoveryRequired := false } } := by
    unfold recoverRun
    simp only [bind_eq_ok, pure_eq_ok, expect_eq_ok, require_eq_ok, saveTask_eq_ok]
    exact ⟨run, found, stored, held, (), head, (), lapsed, (), ⟨by rintro ⟨⟩, open_⟩, _,
      ⟨recovered_lawful stored.val .terminate, rfl⟩, rfl⟩
  refine (bind_eq_ok _ _ _).mpr ⟨_, done, ?_⟩
  exact (bind_eq_ok _ _ _).mpr ⟨_, Table.insert_of_free fresh _, rfl⟩

omit [Platform] in
theorem granted_lawful (task : ModelExecutionTask) (token owner : Nat) (deadline : Time) :
    (task.granted token owner deadline).Lawful :=
  ⟨Or.inl ⟨rfl, nofun, nofun, nofun⟩, Or.inr ⟨nofun, rfl⟩⟩

omit [Platform] in
/-- A stopped input is claimed for its closing window. -/
theorem claim_terminated (found : db.inputs.get runId = some run)
    (held : db.tasks.get run.taskId = some stored) (claimable : Claimable db run stored.val now)
    (stopped : stored.val.lastManualAction = some .terminate)
    (attempts : stored.val.attemptCount < stored.val.maxAttempts) :
    ∃ claimed : NegotiationInput, claimed.sent = run.sent ∧
      claim db runId now =
        .ok
          ({ db with
              tasks := db.tasks.put
                ⟨stored.val.granted db.nextId run.id (now + closingWindow),
                  granted_lawful _ _ _ _⟩
              inputs := db.inputs.put claimed
              nextId := db.nextId + 1 },
            some (db.nextId, stored.val.ownershipEpoch + 1)) := by
  have sent := claimDeadline_sent db run stored.val now
  have ends : (claimDeadline db run stored.val now).2 = now + closingWindow :=
    if_pos (.inl stopped)
  refine ⟨{ (claimDeadline db run stored.val now).1 with
    activeSince := some now
    activeUntil := some (claimDeadline db run stored.val now).2 }, sent, ?_⟩
  unfold claim
  refine (bind_eq_ok _ _ _).mpr ⟨run, (expect_eq_ok _ _ _).mpr found, ?_⟩
  refine (bind_eq_ok _ _ _).mpr ⟨stored, (expect_eq_ok _ _ _).mpr held, ?_⟩
  dsimp only
  rw [if_pos claimable, ends, if_neg (by simp [closingWindow, seconds]), if_neg (by omega)]
  unfold grant
  refine (bind_eq_ok _ _ _).mpr ⟨_, saveTask_eq_ok.mpr ⟨granted_lawful _ _ _ _, rfl⟩, ?_⟩
  rw [(NegotiationInput.of_sent sent).1]
  rfl

/-! ### Answering -/

omit [Platform] in
/-- The rows that a text is made of are the same; a draft may wait for other things. -/
structure SameWords (before after : Db) : Prop where
  frame : after =
    { before with
      deliveries := after.deliveries
      outbox := after.outbox
      inputs := after.inputs
      tasks := after.tasks
      actions := after.actions
      drafts := after.drafts
      verifications := after.verifications
      nextId := after.nextId }
  candidates : ∀ id,
    (after.drafts.get id).map (·.candidate) = (before.drafts.get id).map (·.candidate)

omit [Platform] in
theorem SameWords.trans {before middle after : Db} (first : SameWords before middle)
    (second : SameWords middle after) : SameWords before after where
  frame := by
    rw [second.frame, first.frame]
  candidates id := (second.candidates id).trans (first.candidates id)

omit [Platform] in
theorem candidates_put {drafts : Table OfferDraft.id} {draft changed : OfferDraft}
    (found : drafts.get draft.id = some draft) (key : changed.id = draft.id)
    (same : changed.candidate = draft.candidate) (id : Nat) :
    ((drafts.put changed).get id).map (·.candidate) = (drafts.get id).map (·.candidate) := by
  have present : drafts.get changed.id = some draft := key ▸ found
  rw [Table.get_put present]
  split
  · next here =>
    rw [here, present]
    exact congrArg some same
  · rfl

omit [Platform] in
theorem selectedDraft_found {draft : OfferDraft} (selected : selectedDraft db runId = some draft) :
    db.drafts.get draft.id = some draft := by
  obtain ⟨id, _, found⟩ := Option.bind_eq_some_iff.mp selected
  rw [Table.key_of_get found]
  exact found

/-- An answer without an action leaves what the drafts propose. -/
theorem reconsider_candidates (reason : Option String) (id : Nat) :
    ((reconsider db run reason now).drafts.get id).map (·.candidate) =
      (db.drafts.get id).map (·.candidate) := by
  unfold reconsider
  split
  · unfold reopenDraft
    split
    · rfl
    · next draft selected =>
      have found := selectedDraft_found (Option.filter_eq_some_iff.mp selected).1
      dsimp only
      split
      · exact candidates_put found (by rfl) (by rfl) id
      · rw [openVerification_drafts]
        exact candidates_put found (by rfl) (by rfl) id
  · rfl

variable {owner : Owner} {task : ModelExecutionTask} {ends : Time}

/-- The owner of a stopped input finds its answer, or writes that it was stopped. -/
theorem abortOrQuery_stopped {checked : Time} (assessed noticed : Time)
    (held : Held db runId owner run task ends) (tended : Tended db) (early : checked < ends) :
    ∃ answered result,
      abortOrQuery db runId owner (some stopReason) checked assessed noticed =
        .ok (answered, result) ∧
      SameWords db answered ∧ answered.inputs = db.inputs ∧ answered.tasks = db.tasks ∧
      answered.reply runId = some (stoppedReply db runId noticed) := by
  unfold abortOrQuery stoppedReply
  rw [held.owns early]
  cases replied : db.reply runId with
  | some delivery =>
    exact ⟨db, delivery.result, (bind_eq_ok _ _ _).mpr ⟨(run, task), rfl, rfl⟩,
      ⟨rfl, fun _ => rfl⟩, rfl, rfl, replied⟩
  | none =>
    have writes : DraftWrites db (reconsider db run (some stopReason) assessed) :=
      reconsider_writes run (some stopReason) assessed
    have candidates (id : Nat) :
        ((reconsider db run (some stopReason) assessed).drafts.get id).map (·.candidate) =
          (db.drafts.get id).map (·.candidate) := reconsider_candidates (some stopReason) id
    generalize noted : reconsider db run (some stopReason) assessed = changed at writes candidates
    have free : changed.reply runId = none := by
      unfold Db.reply
      rw [show changed = _ from writes]
      exact replied
    have silent : changed.outbox.get (.delivery (.turnReply runId)) = none := by
      rw [show changed = _ from writes]
      exact tended.announced runId replied
    have stated : (some stopReason).filter (fun text => decide (text ≠ "")) = some stopReason := by
      decide
    let result : Result := { outcome := .notExecuted, reason := some stopReason }
    refine ⟨{ changed with
        deliveries := changed.deliveries.insertIgnore (replyDelivery runId result noticed)
        outbox := changed.outbox.insertIgnore (replyEvent runId) }, result,
      (bind_eq_ok _ _ _).mpr ⟨(run, task), rfl, ?_⟩, ⟨?_, candidates⟩, ?_, ?_, ?_⟩
    · dsimp only
      rw [stated, noted]
      refine (bind_eq_ok _ _ _).mpr ⟨_, notificationInTransaction_of_free free result, ?_⟩
      exact (bind_eq_ok _ _ _).mpr ⟨_, announce_of_free silent, rfl⟩
    · rw [show changed = _ from writes]
    · show changed.inputs = db.inputs
      rw [show changed = _ from writes]
    · show changed.tasks = db.tasks
      rw [show changed = _ from writes]
    · unfold Db.reply at free ⊢
      rw [Table.get_insertIgnore]
      exact if_pos ⟨rfl, free⟩

/-! ### Publishing -/

omit [Platform] in
/-- An offer that can be confirmed has an end to its confirmation. -/
theorem confirmationExpiry_ok (offer : Offer)
    (based : ∀ basis ∈ db.bases, ∃ quote ∈ db.quotes, quote.id = basis.costQuoteId) :
    ∃ expiry, confirmationExpiry db offer now = .ok expiry := by
  unfold confirmationExpiry
  split
  · exact ⟨_, rfl⟩
  · next basis found =>
    obtain ⟨quote, listed, key⟩ := based basis (Table.mem_of_get found)
    have priced : db.quotes.get basis.costQuoteId = some quote := Table.get_eq_some.mpr ⟨listed, key⟩
    exact bind_ok ((expect_eq_ok _ _ _).mpr priced) ⟨_, rfl⟩

theorem recordContext_ok {posted : Db} {item : NotificationDelivery} {messageId publicSeq : Nat}
    (based : ∀ basis ∈ posted.bases, ∃ quote ∈ posted.quotes, quote.id = basis.costQuoteId)
    (below : posted.contexts.Below db.nextId) :
    ∃ contextual, recordContext posted (publication db (some run) item.result now) messageId
      publicSeq now = .ok contextual := by
  unfold recordContext
  split
  · exact ⟨_, rfl⟩
  · next id named =>
    obtain rfl := publication_contextId named
    have ends : ∃ expiry, contextExpiry posted (publication db (some run) item.result now).offer
        now = .ok expiry := by
      unfold contextExpiry
      split
      · exact confirmationExpiry_ok _ based
      · exact ⟨_, rfl⟩
    obtain ⟨expiry, ends⟩ := ends
    exact bind_ok ends (bind_ok (Table.insert_of_free below.free _) ⟨_, rfl⟩)

/-- A delivery that is announced and has no message can be published. -/
theorem publishNew_ok {item : NotificationDelivery} (run : NegotiationInput) (now : Time)
    (tended : Tended db)
    (silent : db.messages.get (.source item.id) = none)
    (sent : db.outbox.get (.delivery item.id) ≠ none) :
    ∃ result, publishNew db (some run) item now = .ok result ∧
      result.1.deliveries = db.deliveries.put
        { item with
          status := .published
          publicMessageId := result.2
          leaseToken := none
          leaseUntil := none } := by
  have based : ∀ basis ∈ db.bases, ∃ quote ∈ db.quotes, quote.id = basis.costQuoteId := by
    intro basis member
    obtain ⟨quote, listed, same, _⟩ := tended.grounded.based basis member
    exact ⟨quote, listed, same⟩
  let shown := publication db (some run) item.result now
  let message : Message :=
    { id := db.nextId + 1
      origin := .source item.id
      publicSeq := some db.session.nextPublicSeq
      card := shown.card
      formalOfferId := shown.offer.map (·.id) }
  let posted : Db :=
    { db with
      messages := db.messages.insertIgnore message
      session := { db.session with nextPublicSeq := db.session.nextPublicSeq + 1 }
      nextId := db.nextId + 2 }
  have recorded : ∃ contextual, recordContext posted shown (db.nextId + 1)
      db.session.nextPublicSeq now = .ok contextual := recordContext_ok based tended.contexts
  obtain ⟨contextual, recorded⟩ := recorded
  obtain ⟨frame, _⟩ := recordContext_writes recorded
  obtain ⟨event, listed⟩ := Option.ne_none_iff_exists'.mp sent
  have announced : contextual.outbox.get (.delivery item.id) = some event := by
    rw [frame]
    exact listed
  have free : db.messages.get message.origin = none := silent
  have done : ∃ result, publishNew db (some run) item now = .ok result := by
    unfold publishNew
    refine bind_ok (Table.insert_of_free free _) (bind_ok recorded ?_)
    exact bind_ok ((expect_eq_ok _ _ _).mpr announced) ⟨_, rfl⟩
  obtain ⟨result, done⟩ := done
  refine ⟨result, done, ?_⟩
  unfold publishNew at done
  simp only [bind_eq_ok, pure_eq_ok] at done
  obtain ⟨_, _, other, written, _, _, rfl⟩ := done
  show other.deliveries.put _ = _
  rw [(recordContext_writes written).1]

/-- The owner of a run publishes its reply. -/
theorem publishOwned_stopped {item : NotificationDelivery}
    (held : Held db runId owner run task ends) (tended : Tended db) (early : now < ends)
    (replied : db.reply runId = some item) :
    ∃ published messageId, publishOwned db runId owner now = .ok (published, messageId) ∧
      ∃ shown, published.reply runId = some shown ∧ shown.status = .published ∧
        shown.publicMessageId = messageId ∧ shown.result = item.result := by
  have key : item.id = .turnReply runId := Table.key_of_get replied
  unfold publishOwned
  rw [held.owns early]
  by_cases shown : item.status = .published
  · refine ⟨db, item.publicMessageId, (bind_eq_ok _ _ _).mpr ⟨(run, task), rfl, ?_⟩, item, replied,
      shown, rfl, rfl⟩
    unfold publishItem
    refine (bind_eq_ok _ _ _).mpr ⟨item, (expect_eq_ok _ _ _).mpr replied, ?_⟩
    exact if_pos shown
  · have silent := (tended.notified.unnamed item (Table.mem_of_get replied) shown).2
    have sent : db.outbox.get (.delivery item.id) ≠ none := by
      rw [key]
      exact tended.sent runId (replied ▸ Option.some_ne_none item)
    have done := publishNew_ok run now tended silent sent
    obtain ⟨⟨published, messageId⟩, done, deliveries⟩ := done
    refine ⟨published, messageId, (bind_eq_ok _ _ _).mpr ⟨(run, task), rfl, ?_⟩,
      { item with
        status := .published
        publicMessageId := messageId
        leaseToken := none
        leaseUntil := none }, ?_, rfl, rfl, rfl⟩
    · unfold publishItem
      refine (bind_eq_ok _ _ _).mpr ⟨item, (expect_eq_ok _ _ _).mpr replied, ?_⟩
      rw [if_neg shown]
      exact done
    · have present : db.deliveries.get item.id = some item := key ▸ replied
      unfold Db.reply
      rw [deliveries]
      exact (Table.get_put (by exact present)).trans (if_pos key.symm)

/-! ### Finishing -/

omit [Platform] in
theorem succeeded_lawful (lawful : task.Lawful) (running : task.status = .running) :
    task.succeeded.Lawful := by
  refine ⟨Or.inr ⟨nofun, rfl, rfl, rfl⟩, Or.inr ⟨nofun, ?_⟩⟩
  rcases lawful.2 with ⟨waiting, _⟩ | ⟨_, cleared⟩
  · rw [running] at waiting
    cases waiting
  · exact cleared

omit [Platform] in
/-- The owner of the head closes it after its reply was published. -/
theorem finalize_stopped {item : NotificationDelivery} {messageId : Option Nat}
    {closed : Time} (settled : Time) (held : Held db runId owner run task ends)
    (early : closed < ends) (replied : db.reply runId = some item) (shown : item.status = .published)
    (named : item.publicMessageId = messageId)
    (head : db.session.lastResolvedInputSeq + 1 = run.inputSeq) :
    ∃ tasks inputs, finalize db runId owner (newTurn run messageId) false closed settled =
      .ok
        { db with
          tasks, inputs
          session := { db.session with lastResolvedInputSeq := run.inputSeq } } := by
  obtain ⟨lawful, _⟩ := held.held
  refine ⟨db.tasks.put ⟨task.succeeded, succeeded_lawful lawful held.status⟩,
    db.inputs.put (settle run settled), ?_⟩
  unfold finalize
  rw [held.owns early]
  refine (bind_eq_ok _ _ _).mpr ⟨(run, task), rfl, ?_⟩
  refine (bind_eq_ok _ _ _).mpr ⟨(), require_ok ⟨rfl, rfl, rfl, rfl, rfl, rfl⟩ _, ?_⟩
  refine (bind_eq_ok _ _ _).mpr ⟨item, (expect_eq_ok _ _ _).mpr replied, ?_⟩
  refine (bind_eq_ok _ _ _).mpr ⟨(), require_ok ⟨shown, named⟩ _, ?_⟩
  refine (bind_eq_ok _ _ _).mpr ⟨(), require_ok head _, ?_⟩
  exact (bind_eq_ok _ _ _).mpr
    ⟨_, saveTask_eq_ok.mpr ⟨succeeded_lawful lawful held.status, rfl⟩, rfl⟩

/-! ### The text of the reply -/

omit [Platform] in
theorem SameWords.turnDrafts {before after : Db} (same : SameWords before after) (runId : Nat) :
    (turnDrafts after runId).map (fun draft => draft.candidate.json) =
      (turnDrafts before runId).map fun draft => draft.candidate.json := by
  have turns : after.turns = before.turns := by rw [same.frame]
  have each (id : Nat) : (after.drafts.get id).map (fun draft => draft.candidate.json) =
      (before.drafts.get id).map fun draft => draft.candidate.json := by
    have known := congrArg (Option.map Candidate.json) (same.candidates id)
    rw [Option.map_map, Option.map_map] at known
    exact known
  unfold Negotiation.turnDrafts
  rw [List.map_filterMap, List.map_filterMap, turns]
  exact congrArg (fun pick => List.filterMap pick _) (funext each)

theorem resultText_same {after : Db} (same : SameWords db after) (result : Result) :
    resultText after result now = resultText db result now := by
  rw [same.frame]
  rfl

omit [Platform] in
theorem topicReply_same {after : Db} (same : SameWords db after) (topic quote : String) :
    topicReply after topic quote = topicReply db topic quote := by
  have product : after.product = db.product := by rw [same.frame]
  have facts : after.facts = db.facts := by rw [same.frame]
  have stated : publicText after topic = publicText db topic := by
    unfold publicText
    rw [product]
  have known : factFor after = factFor db := by
    funext name
    unfold factFor
    rw [facts]
  unfold topicReply
  rw [stated, product, known]

omit [Platform] in
theorem publicReply_same {after : Db} (same : SameWords db after) (topic : Option String)
    (quote : String) : publicReply after topic quote = publicReply db topic quote := by
  have each : topicReply after = topicReply db :=
    funext fun name => funext (topicReply_same same name)
  unfold publicReply
  rw [each]

omit [Platform] in
theorem questionReply_same {after : Db} {sent : NegotiationInput} (same : SameWords db after)
    (alike : sent.sent = run.sent) (payload : ChatInput) (topic : Option String) (quote : String) :
    questionReply after sent payload topic quote now =
      questionReply db run payload topic quote now := by
  have approvals : publicApprovalStatus after now = publicApprovalStatus db now := by
    rw [same.frame]
    rfl
  have frozen : frozenContext after sent payload now = frozenContext db run payload now := by
    have received : sent.receivedAt = run.receivedAt := congrArg (·.receivedAt) alike
    have seen : sent.seenPublicMessageSeq = run.seenPublicMessageSeq :=
      congrArg (·.seenPublicMessageSeq) alike
    unfold frozenContext
    rw [same.frame, received, seen]
  have offers : after.offers = db.offers := by rw [same.frame]
  have session : after.session = db.session := by rw [same.frame]
  have product : after.product = db.product := by rw [same.frame]
  unfold questionReply
  rw [approvals, frozen, offers, session, product, publicReply_same same]

omit [Platform] in
theorem shownItem_same {after : Db} {sent : NegotiationInput} (same : SameWords db after)
    (alike : sent.sent = run.sent) (turn : TurnWords) (result : Result) (content : String)
    (item : ResultItem) :
    shownItem after sent turn result content now item =
      shownItem db run turn result content now item := by
  have approvals : publicApprovalStatus after now = publicApprovalStatus db now := by
    rw [same.frame]
    rfl
  have payload : sent.payload = run.payload := (NegotiationInput.of_sent alike).2.2.2.1
  have version : sent.graphVersion = run.graphVersion := congrArg (·.graphVersion) alike
  have asked (payload : ChatInput) :
      questionReply after sent payload = questionReply db run payload :=
    funext fun topic => funext fun quote => funext fun _ =>
      questionReply_same same alike payload topic quote
  unfold shownItem
  rw [approvals, payload, version]
  simp only [asked]

omit [Platform] in
theorem evidenceItem_same {after : Db} {sent : NegotiationInput} (same : SameWords db after)
    (alike : sent.sent = run.sent) (turn : TurnWords) (result : Result) (item : ResultItem) :
    itemJson sent turn (evidenceItem after sent turn result now item) =
      itemJson run turn (evidenceItem db run turn result now item) := by
  obtain ⟨_, _, _, payload, config⟩ := NegotiationInput.of_sent alike
  have asked (payload : ChatInput) :
      questionReply after sent payload = questionReply db run payload :=
    funext fun topic => funext fun quote => funext fun _ =>
      questionReply_same same alike payload topic quote
  unfold evidenceItem itemJson
  rw [payload, config]
  simp only [asked]

omit [Platform] in
theorem replyEvidence_same {after : Db} {sent : NegotiationInput} (same : SameWords db after)
    (alike : sent.sent = run.sent) (words : Words) (result : Result) :
    replyEvidence after words sent result now = replyEvidence db words run result now := by
  have key : sent.id = run.id := (NegotiationInput.of_sent alike).1
  have session : after.session = db.session := by rw [same.frame]
  have product : after.product = db.product := by rw [same.frame]
  have offers : after.offers = db.offers := by rw [same.frame]
  unfold replyEvidence
  rw [key, session, product, offers, same.turnDrafts]
  simp only [evidenceItem_same same alike]

/-- The text of a reply is made of what was sent and of rows that no part of a pass writes. -/
theorem replyText_same {after : Db} {sent : NegotiationInput} (same : SameWords db after)
    (alike : sent.sent = run.sent) (words : Words) (result : Result) (deadline : Time) :
    replyText after words sent result deadline now = replyText db words run result deadline now := by
  have key : sent.id = run.id := (NegotiationInput.of_sent alike).1
  have reviewed : reviewedReply after words sent result deadline now =
      reviewedReply db words run result deadline now := by
    unfold reviewedReply
    rw [key, replyEvidence_same same alike]
  have historical : Historical after result now ↔ Historical db result now := by
    rw [same.frame]
    rfl
  have shown (turn : TurnWords) (content : String) :
      shownItems after sent turn result content now = shownItems db run turn result content now := by
    unfold shownItems
    rw [funext (shownItem_same same alike turn result content)]
  unfold replyText
  simp only [reviewed, historical, shown, key, resultText_same same]

theorem written_same {after : Db} {sent : NegotiationInput} (same : SameWords db after)
    (alike : sent.sent = run.sent) (words : Words) (item : NotificationDelivery) :
    Written after words sent item now ↔ Written db words run item now := by
  unfold Written
  rw [replyText_same same alike]

/-! ### The parts of a pass together -/

omit [Platform] in
theorem guard_of {condition : Prop} [Decidable condition] (holds : condition) :
    (guard condition : Option Unit) = some () := if_pos holds

/-- The head of the queue after the seller stopped it: it can be claimed at any time. -/
structure Stopped (db : Db) (runId : Nat) (run : NegotiationInput) (task : ModelExecutionTask) :
    Prop where
  found : db.inputs.get runId = some run
  held : ∃ lawful : task.Lawful, db.tasks.get run.taskId = some ⟨task, lawful⟩
  head : run.inputSeq = db.session.lastResolvedInputSeq + 1
  kept : db.session.archivedAt = none
  ready : run.recoveryRequired = false
  kind : task.runtimeKind = .langGraph
  status : task.status = .pending
  lease : task.leaseExpiresAt = none
  retry : task.nextRetryAt = none
  attempts : task.attemptCount < task.maxAttempts
  action : task.lastManualAction = some .terminate

/-- The seller can stop the head whatever its task is waiting for. -/
theorem stops {seller requestId reason : String} (tended : Tended db)
    (found : db.inputs.get runId = some run) (held : db.tasks.get run.taskId = some stored)
    (head : run.inputSeq = db.session.lastResolvedInputSeq + 1)
    (lapsed : ¬ Ahead stored.val.leaseExpiresAt now)
    (open_ : stored.val.status ≠ .succeeded ∧ stored.val.status ≠ .cancelled)
    (stated : strip reason ≠ "") (owns : db.product.sellerId = seller)
    (fresh : db.actions.get (digest (.list [.text seller, .text requestId])) = none) :
    ∃ marked sent task, act db seller (.run runId) .terminate requestId reason now = .ok marked ∧
      sent.sent = run.sent ∧ Stopped marked runId sent task ∧ SameWords db marked ∧
      marked.deliveries = db.deliveries := by
  have kept : db.session.archivedAt = none := by
    by_contra archived
    have isOver := tended.emptied archived
    have below := (tended.ordered.numbered.within run (Table.mem_of_get found)).2
    have next : db.queue.nextInputSeq = db.session.nextInputSeq := rfl
    omega
  have key : run.id = runId := Table.key_of_get found
  have here : db.inputs.get run.id = some run := key ▸ found
  have taskKey : stored.id = run.taskId := Table.key_of_get held
  have there : db.tasks.get stored.id = some stored := taskKey ▸ held
  refine ⟨_, { run with recoveryRequired := false }, stored.val.recovered .terminate,
    act_terminate found held head lapsed open_ stated owns kept fresh, rfl, ?_,
    ⟨rfl, fun _ => rfl⟩, rfl⟩
  refine
    { found := (Table.get_put (by exact here)).trans (if_pos key.symm)
      held := ⟨recovered_lawful _ _, (Table.get_put (by exact there)).trans (if_pos taskKey.symm)⟩
      head, kept
      ready := rfl
      kind := tended.graphs stored (Table.mem_of_get held)
      status := rfl
      lease := rfl
      retry := rfl
      attempts := ?_
      action := rfl }
  show stored.val.attemptCount < max stored.val.maxAttempts (stored.val.attemptCount + 1)
  omega

omit [Platform] in
/-- A stopped head is claimed for the time of its closing window. -/
theorem Stopped.claims (stopped : Stopped db runId run task) (now : Time) :
    ∃ claimed sent granted owner, claim db runId now = .ok (claimed, some owner) ∧
      sent.sent = run.sent ∧
      Held claimed runId owner sent granted (datetime (now + closingWindow)) ∧
      granted.lastManualAction = some .terminate ∧ SameWords db claimed ∧
      claimed.deliveries = db.deliveries := by
  obtain ⟨lawful, held⟩ := stopped.held
  have claimable : Claimable db run task now := by
    refine ⟨stopped.head, stopped.kept, stopped.ready, .inl stopped.status, ?_, ?_⟩
    · rw [stopped.lease]
      exact ahead_none now
    · rw [stopped.retry]
      exact ahead_none now
  obtain ⟨sent, same, done⟩ := claim_terminated stopped.found held claimable stopped.action
    stopped.attempts
  have key : run.id = runId := Table.key_of_get stopped.found
  obtain ⟨sentKey, sentTask, _⟩ := NegotiationInput.of_sent same
  have here : db.inputs.get sent.id = some run := (sentKey.trans key) ▸ stopped.found
  have taskKey : StoredTask.id ⟨task, lawful⟩ = run.taskId := Table.key_of_get held
  have there : db.tasks.get (StoredTask.id ⟨task, lawful⟩) = some ⟨task, lawful⟩ := taskKey ▸ held
  refine ⟨_, sent, task.granted db.nextId run.id (now + closingWindow), _, done, same, ?_,
    stopped.action, ⟨rfl, fun _ => rfl⟩, rfl⟩
  exact
    { found := (Table.get_put here).trans (if_pos (sentKey.trans key).symm)
      held := ⟨granted_lawful _ _ _ _,
        (Table.get_put (by exact there)).trans (if_pos (sentTask.trans taskKey.symm))⟩
      kind := stopped.kind
      status := rfl
      token := rfl
      epoch := rfl
      lease := rfl }

omit [Platform] in
theorem Winds.of_same {marked after : Db} (winds : Winds marked runId after)
    (same : SameWords db marked) (deliveries : marked.deliveries = db.deliveries) :
    Winds db runId after := by
  have session : marked.session = db.session := by rw [same.frame]
  have ledger : marked.ledger = db.ledger := by rw [same.frame]
  have messages : marked.messages = db.messages := by rw [same.frame]
  have affairs : marked.affairs = db.affairs := by
    rw [same.frame]
    rfl
  have reply : marked.reply runId = db.reply runId := by
    unfold Db.reply
    rw [deliveries]
  exact
    { cursor := session ▸ winds.cursor
      reply := winds.reply
      ledger := winds.ledger.trans ledger
      affairs := winds.affairs.trans affairs
      messages := messages ▸ winds.messages
      result := reply ▸ winds.result }

/-- A pass over a stopped head succeeds exactly if the text of the reply fits its column. -/
theorem Stopped.passes {snapshot : Snapshot} {times : PassTimes} (words : Words)
    (stopped : Stopped db runId run task) (tended : Tended db) (intact : run.Intact)
    (own : snapshot.unfinished = true → snapshot.runId = some runId) (prompt : times.Prompt) :
    (Written db words run (stoppedReply db runId times.noticed) times.published →
      ∃ after, terminatePass db words snapshot runId times = some after ∧ Winds db runId after) ∧
    (¬ Written db words run (stoppedReply db runId times.noticed) times.published →
      terminatePass db words snapshot runId times = none) := by
  obtain ⟨claimed, sent, granted, owner, claims, alike, held, action, first, deliveries⟩ :=
    stopped.claims times.claimed
  have claimDone : db.perform (.claim runId times.claimed) = .ok claimed :=
    (map_eq_ok _ _ _).mpr ⟨_, claims, rfl⟩
  have tendedClaim := perform_tended tended claimDone
  obtain ⟨answered, result, aborts, second, inputs, tasks, replied⟩ :=
    abortOrQuery_stopped times.assessed times.noticed held tendedClaim prompt.1
  have abortDone : claimed.perform
      (.abortOrQuery runId owner (some stopReason) times.checked times.assessed times.noticed) =
        .ok answered := (map_eq_ok _ _ _).mpr ⟨_, aborts, rfl⟩
  have tendedAnswer := perform_tended tendedClaim abortDone
  have heldAnswer := held.kept inputs tasks
  have reply : stoppedReply claimed runId times.noticed = stoppedReply db runId times.noticed := by
    unfold stoppedReply Db.reply
    rw [deliveries]
  rw [reply] at replied
  have fits : Written answered words sent (stoppedReply db runId times.noticed) times.published ↔
      Written db words run (stoppedReply db runId times.noticed) times.published :=
    written_same (first.trans second) alike words _
  have whole : sent.Intact := intact.of_sent alike
  have reaches : terminatePass db words snapshot runId times =
      (publishWorded answered words runId owner times.published).bind fun done =>
        (finalize done.1 runId owner (newTurn sent done.2) false times.closed
          times.settled).toOption := by
    obtain ⟨_, task⟩ := held.held
    unfold terminatePass
    rw [claims]
    simp only [Except.toOption, Option.bind_eq_bind, Option.bind_some, held.found, guard_of whole,
      task, guard_of action, guard_of own, aborts]
  have published : ∃ published messageId shown,
      publishOwned answered runId owner times.published = .ok (published, messageId) ∧
      published.reply runId = some shown ∧ shown.status = .published ∧
      shown.publicMessageId = messageId ∧
      shown.result = (stoppedReply db runId times.noticed).result := by
    obtain ⟨published, messageId, done, shown, rest⟩ :=
      publishOwned_stopped heldAnswer tendedAnswer prompt.2.1 replied
    exact ⟨published, messageId, shown, done, rest⟩
  obtain ⟨published, messageId, shown, done, listed, visible, named, same⟩ := published
  have writes : PublicWrites answered published := publishOwned_writes done
  have publishDone : answered.perform (.publishOwned runId owner times.published) =
      .ok published := (map_eq_ok _ _ _).mpr ⟨_, done, rfl⟩
  rw [reaches]
  constructor
  · intro written
    have posted : publishWorded answered words runId owner times.published =
        some (published, messageId) := by
      unfold publishWorded
      simp only [heldAnswer.found, replied, Option.bind_eq_bind, Option.bind_some,
        guard_of (fits.mpr written), done, Except.toOption]
    have whole_ := first.trans second
    have cursor : published.session.lastResolvedInputSeq = db.session.lastResolvedInputSeq := by
      rw [writes.frame, whole_.frame]
    have heldPost : Held published runId owner sent granted _ :=
      heldAnswer.kept (by rw [writes.frame]) (by rw [writes.frame])
    have head : published.session.lastResolvedInputSeq + 1 = sent.inputSeq := by
      rw [cursor, (NegotiationInput.of_sent alike).2.2.1]
      exact stopped.head.symm
    obtain ⟨tasks, inputs, finished⟩ :=
      finalize_stopped times.settled heldPost prompt.2.2 listed visible named head
    have finishDone : published.perform
        (.finalize runId owner (newTurn sent messageId) false times.closed times.settled) =
          .ok _ := finished
    have tendedEnd := perform_tended (perform_tended tendedAnswer publishDone) finishDone
    rw [posted]
    refine ⟨_, congrArg Except.toOption finished, ?_, ?_, ?_, ?_, ?_, ?_⟩
    · show sent.inputSeq = _
      rw [← head, cursor]
    · obtain ⟨_, message, member, origin, _⟩ :=
        tendedEnd.notified.named shown (Table.mem_of_get listed) visible
      rw [Table.key_of_get (show published.deliveries.get (.turnReply runId) = _ from listed)] at origin
      refine ⟨message, ⟨member, origin⟩, fun other both => ?_⟩
      exact Table.eq_of_key both.1 member (both.2.trans origin.symm)
    · show published.ledger = db.ledger
      rw [writes.frame, whole_.frame]
    · show published.affairs = db.affairs
      rw [writes.frame, whole_.frame]
      rfl
    · intro message member
      refine writes.messages message ?_
      have messages : answered.messages = db.messages := by rw [whole_.frame]
      exact messages ▸ member
    · intro item before
      refine ⟨shown, listed, ?_⟩
      rw [same]
      unfold stoppedReply
      rw [before]
      rfl
  · intro wide
    have raised : publishWorded answered words runId owner times.published = none := by
      unfold publishWorded
      simp only [heldAnswer.found, replied, Option.bind_eq_bind, Option.bind_some]
      rw [show (guard (Written answered words sent (stoppedReply db runId times.noticed)
        times.published) : Option Unit) = none from if_neg fun written => wide (fits.mp written)]
      rfl
    rw [raised]
    rfl

end

/-! ### Stopping the head -/

section

variable [Platform]

end

end Negotiation
