/-
This file models the queue of a session's inputs: how an input enters it, how
the head is claimed, kept, released and finalized, and the test of ownership
that every write of an executing process begins with.
-/

import SecondhandAgent.Activity

namespace Negotiation

open Store

/-- The lease token and the epoch a process was granted. -/
abbrev Owner := Nat × Nat

/-! ### Ownership -/

/-- The task is executed by the owner, whose lease is not over. -/
def OwnedBy (task : ModelExecutionTask) (owner : Owner) (now : Time) : Prop :=
  task.runtimeKind = .langGraph ∧ task.status = .running ∧ task.leaseToken = some owner.1 ∧
    task.ownershipEpoch = owner.2 ∧ Ahead task.leaseExpiresAt now

instance (task : ModelExecutionTask) (owner : Owner) (now : Time) :
    Decidable (OwnedBy task owner now) := inferInstanceAs (Decidable (_ ∧ _ ∧ _ ∧ _ ∧ _))

def lockOwner (db : Db) (runId : Nat) (owner : Owner) (now : Time) :
    Except Failure (NegotiationInput × ModelExecutionTask) := do
  let run ← expect (db.inputs.get runId) (.conflict "运行不存在")
  let stored ← expect (db.tasks.get run.taskId) .missing
  require (OwnedBy stored.val owner now) (.staleOwner "执行所有权已失效")
  pure (run, stored.val)

/-- `owned_session`: the session belongs to the buyer. -/
def ownedSession (db : Db) (buyerId : String) : Except Failure Unit :=
  require (db.session.buyerId = buyerId) (.conflict "会话不存在或无权访问")

/-! ### Writing rows back -/

def Db.putInput (db : Db) (run : NegotiationInput) : Db :=
  { db with inputs := db.inputs.put run }

/-- A task without its lease. -/
def ModelExecutionTask.withoutLease (task : ModelExecutionTask) : ModelExecutionTask :=
  { task with leaseToken := none, leaseOwner := none, leaseExpiresAt := none }

/-- A task that is given up. -/
def ModelExecutionTask.failed (task : ModelExecutionTask) : ModelExecutionTask :=
  { task.withoutLease with status := .failed }

/-- A task whose lease is granted under a new token and the next epoch. -/
def ModelExecutionTask.granted (task : ModelExecutionTask) (token owner : Nat)
    (deadline : Time) : ModelExecutionTask :=
  { task with
    ownershipEpoch := task.ownershipEpoch + 1
    leaseToken := some token
    leaseOwner := some owner
    leaseExpiresAt := some (datetime deadline)
    status := .running
    nextRetryAt := none
    attemptCount := task.attemptCount + 1 }

/-- A task whose lease is extended. -/
def ModelExecutionTask.extended (task : ModelExecutionTask) (deadline : Time) :
    ModelExecutionTask :=
  { task with leaseExpiresAt := some (datetime deadline) }

/-- A task that is to be tried again. -/
def ModelExecutionTask.retrying (task : ModelExecutionTask) (retryAt : Time) :
    ModelExecutionTask :=
  { task.withoutLease with status := .retryWait, nextRetryAt := some (datetime retryAt) }

/-- A task that is done. -/
def ModelExecutionTask.succeeded (task : ModelExecutionTask) : ModelExecutionTask :=
  { task.withoutLease with status := .succeeded }

/-! ### Enqueueing -/

/-- A draft the buyer can still go on with. -/
def UsableDraft (draft : OfferDraft) (session : NegotiationSession) (now : Time)
    (version : Nat) : Prop :=
  draft.version = version ∧ (draft.status = .pending ∨ draft.status = .ready) ∧
    now < draft.expiresAt ∧ draft.businessVersion = session.version

instance (draft : OfferDraft) (session : NegotiationSession) (now : Time) (version : Nat) :
    Decidable (UsableDraft draft session now version) :=
  inferInstanceAs (Decidable (_ ∧ _ ∧ _ ∧ _))

/-- The message a chat input answers exists. -/
def validateReply (db : Db) : Option Nat → Except Failure Unit
  | none => pure ()
  | some messageId =>
    require (∃ message ∈ db.messages.rows, message.id = messageId)
      (.conflict "引用消息不属于当前会话")

/-- The draft a chat input goes on with is usable. -/
def validateDraft (db : Db) (version : Nat) (now : Time) : Option Nat → Except Failure Unit
  | none => pure ()
  | some draftId => do
    let draft ← expect (db.drafts.get draftId) (.conflict "草案已失效或无权访问")
    require (UsableDraft draft db.session now version) (.conflict "草案已失效或无权访问")

/-- `validate_references`: a typed input refers to nothing. -/
def validateReferences (db : Db) (now : Time) : Payload → Except Failure Unit
  | .typed _ => pure ()
  | .chat input => do
    validateReply db input.replyToMessageId
    validateDraft db (input.draftVersion.getD 0) now input.draftId

/-- The public sequence number the buyer had been shown when the input was sent. -/
def seenPublicSeq (db : Db) (buyerId : String) (payload : Payload) (now : Time) :
    Except Failure Nat :=
  match payload.displayReceiptId with
  | none => pure 0
  | some ackId => do
    let refused := Failure.conflict "展示凭据归属、视图或时间无效"
    let ack ← expect (db.acks.get ackId) refused
    let context ← expect (db.contexts.get ack.contextId) refused
    require (ack.buyerId = buyerId ∧ ack.clientViewId = payload.clientViewId ∧
      context.buyerId = buyerId ∧ ack.displayedAt ≤ now ∧ now < context.expiresAt) refused
    pure context.publicSeq

/-- The row of a task that was never executed satisfies the constraints. -/
theorem newTask_lawful (id : Nat) : ({ id } : ModelExecutionTask).Lawful :=
  ⟨Or.inr ⟨nofun, rfl, rfl, rfl⟩, Or.inr ⟨nofun, rfl⟩⟩

variable [Platform]

/-- The configuration of an input that is enqueued without one. -/
def defaultConfig (version : GraphVersion) : Config :=
  match version with
  | .negotiationV1 => {}
  | .negotiationV2 =>
    { schema := "p2-v1", maxCalls := 2, maxTokens := 50000, maxCost := some "0.20"
      modelName := some modelName, promptVersion := some "p3-intents-v1" }
  | .negotiationV3 =>
    { schema := "p4-v1", maxCalls := 10, maxTokens := 180000, maxCost := none
      modelName := some modelName, promptVersion := some "p5-intents-v3"
      qualityVersion := some "p4-v3", activeSeconds := some (seconds 120) }

def schemaOf : GraphVersion → String
  | .negotiationV1 => "p1-v1"
  | .negotiationV2 => "p2-v1"
  | .negotiationV3 => "p4-v1"

/-- The check of a frozen configuration. -/
def ValidConfig (config : Config) (version : GraphVersion) : Prop :=
  config.schema = schemaOf version ∧ 0 ≤ config.maxCalls ∧ 0 ≤ config.maxTokens ∧
    0 < config.active ∧ config.active ≤ seconds 120

instance (config : Config) (version : GraphVersion) : Decidable (ValidConfig config version) :=
  inferInstanceAs (Decidable (_ ∧ _ ∧ _ ∧ _ ∧ _))

/-- The most inputs that wait for a result at one time. -/
def queueLimit : Nat := 20

/-- The rows a new input consists of: the buyer's message, the task and the input itself. -/
def newInput (db : Db) (requestId : String) (payload : Payload) (config : Config)
    (seen : Nat) (now : Time) : Except Failure Db := do
  let runId := db.nextId
  let messageId := db.nextId + 1
  let taskId := db.nextId + 2
  let messages ← db.messages.insert { id := messageId, origin := .input runId } .unique
  let tasks ← db.tasks.insert ⟨{ id := taskId }, newTask_lawful taskId⟩ .unique
  let inputs ← db.inputs.insert
    { id := runId
      taskId
      inputSeq := db.session.nextInputSeq
      requestId
      payload
      inputHash := digest payload.json
      config
      configHash := digest config.json
      graphVersion := db.session.graphVersion
      receivedAt := now
      seenPublicMessageSeq := seen } .unique
  pure
    { db with
      messages, tasks, inputs
      session := { db.session with nextInputSeq := db.session.nextInputSeq + 1 }
      nextId := db.nextId + 3 }

/-- Append an input to the queue, or find the one that the request already appended. -/
def enqueue (db : Db) (buyerId requestId : String) (payload : Payload) (config : Option Config)
    (now : Time) : Except Failure (Db × Nat) := do
  require (requestId ≠ "" ∧ requestId.length ≤ 64) (.conflict "请求标识无效")
  ownedSession db buyerId
  require (db.session.archivedAt = none) (.conflict "会话已归档，历史请求不能重新执行")
  require (payload.isChat = db.session.graphVersion.isSemantic) (.conflict "会话未启用当前图版本")
  match db.inputs.rows.find? fun run => run.requestId = requestId with
  | some old =>
    require (old.inputHash = digest payload.json) (.conflict "同一请求标识的载荷不一致")
    pure (db, old.id)
  | none =>
    require (db.session.nextInputSeq - db.session.lastResolvedInputSeq ≤ queueLimit)
      (.conflict "未完成输入已达到 20 条")
    validateReferences db now payload
    let seen ← seenPublicSeq db buyerId payload now
    let frozen := config.getD (defaultConfig db.session.graphVersion)
    require (ValidConfig frozen db.session.graphVersion) (.conflict "运行配置无效")
    let stored ← newInput db requestId payload frozen seen now
    pure (stored, db.nextId)

/-! ### Claiming the head -/

/-- The input is the head of the queue, nobody executes it and it may be tried now. -/
def Claimable (db : Db) (run : NegotiationInput) (task : ModelExecutionTask) (now : Time) :
    Prop :=
  run.inputSeq = db.session.lastResolvedInputSeq + 1 ∧ db.session.archivedAt = none ∧
    run.recoveryRequired = false ∧
    (task.status = .pending ∨ task.status = .running ∨ task.status = .retryWait) ∧
    ¬ Ahead task.leaseExpiresAt now ∧ ¬ Ahead task.nextRetryAt now

instance (db : Db) (run : NegotiationInput) (task : ModelExecutionTask) (now : Time) :
    Decidable (Claimable db run task now) := inferInstanceAs (Decidable (_ ∧ _ ∧ _ ∧ _ ∧ _ ∧ _))

/-- The run was terminated by the seller or has its public reply: a claim only winds it up. -/
def CleanupOnly (db : Db) (runId : Nat) (task : ModelExecutionTask) : Prop :=
  task.lastManualAction = some .terminate ∨ (db.reply runId).map (·.status) = some .published

instance (db : Db) (runId : Nat) (task : ModelExecutionTask) :
    Decidable (CleanupOnly db runId task) := inferInstanceAs (Decidable (_ ∨ _))

/-- The end of the lease a claim grants, with the run as the claim leaves its accounts. -/
def claimDeadline (db : Db) (run : NegotiationInput) (task : ModelExecutionTask) (now : Time) :
    NegotiationInput × Time :=
  let (settled, deadline) := leaseDeadline db (settle run now) now
  (settled, if CleanupOnly db run.id task then now + closingWindow else deadline)

/-- Give up the run: the task is failed and an operator has to look at it. -/
def giveUp (db : Db) (run : NegotiationInput) (task : ModelExecutionTask) :
    Except Failure (Db × Option Owner) := do
  let saved ← db.saveTask task.failed
  pure (saved.putInput { run with recoveryRequired := true }, none)

/-- Grant the lease to the claiming process. -/
def grant (db : Db) (run : NegotiationInput) (task : ModelExecutionTask) (now deadline : Time) :
    Except Failure (Db × Option Owner) := do
  let saved ← db.saveTask (task.granted db.nextId run.id deadline)
  let claimed := saved.putInput { run with activeSince := some now, activeUntil := some deadline }
  pure ({ claimed with nextId := db.nextId + 1 }, some (db.nextId, task.ownershipEpoch + 1))

/-- Claim the head of the queue. A claim that is refused answers `none`; so does one that
finds the time or the attempts of the run used up, which gives the run up. -/
def claim (db : Db) (runId : Nat) (now : Time) : Except Failure (Db × Option Owner) := do
  let run ← expect (db.inputs.get runId) .missing
  let stored ← expect (db.tasks.get run.taskId) .missing
  let task := stored.val
  if Claimable db run task now then
    let (settled, deadline) := claimDeadline db run task now
    if deadline ≤ now then
      -- The retry time of the task is not cleared here.
      giveUp db settled task
    else if task.maxAttempts ≤ task.attemptCount then
      giveUp db settled { task with nextRetryAt := none }
    else grant db settled task now deadline
  else pure (db, none)

/-! ### The owner's operations -/

/-- The owner gives the run back; the clock is read for the test, for the accounts and for the
retry time. -/
def release (db : Db) (runId : Nat) (owner : Owner) (recoveryRequired : Bool)
    (checked settled retried : Time) : Except Failure Db := do
  let (run, task) ← lockOwner db runId owner checked
  let saved ← db.saveTask (task.retrying (retried + seconds 1))
  pure (saved.putInput { settle run settled with recoveryRequired })

/-- The owner extends its lease; the clock is read for the test, for the new end and to see
whether that end is still ahead. -/
def heartbeat (db : Db) (runId : Nat) (owner : Owner) (checked extended compared : Time) :
    Except Failure Db := do
  let (run, task) ← lockOwner db runId owner checked
  let (kept, deadline) := leaseDeadline db run extended
  require (compared < deadline) (.staleOwner "无模型收尾期限已结束")
  let saved ← db.saveTask (task.extended deadline)
  pure (saved.putInput { kept with activeUntil := some deadline })

/-- The values of a finished checkpoint that say which input it belongs to. -/
structure TurnValues where
  runId : Nat
  inputSeq : Nat
  inputHash : Digest
  configHash : Digest
  graphVersion : GraphVersion
  publishedMessageId : Option Nat

/-- The checkpoint is finished and belongs to the input. -/
def BelongsTo (values : TurnValues) (run : NegotiationInput) : Prop :=
  values.runId = run.id ∧ values.inputSeq = run.inputSeq ∧ values.inputHash = run.inputHash ∧
    values.configHash = run.configHash ∧ values.graphVersion = run.graphVersion

instance (values : TurnValues) (run : NegotiationInput) : Decidable (BelongsTo values run) :=
  inferInstanceAs (Decidable (_ ∧ _ ∧ _ ∧ _ ∧ _))

/-- The owner closes the input after its reply was published, and the cursor moves on. -/
def finalize (db : Db) (runId : Nat) (owner : Owner) (values : TurnValues) (pending : Bool)
    (checked settled : Time) : Except Failure Db := do
  let (run, task) ← lockOwner db runId owner checked
  require (pending = false ∧ BelongsTo values run) (.conflict "终态不属于当前输入")
  let delivery ← expect (db.reply runId) (.conflict "缺少唯一公开结果")
  require (delivery.status = .published ∧ delivery.publicMessageId = values.publishedMessageId)
    (.conflict "缺少唯一公开结果")
  require (db.session.lastResolvedInputSeq + 1 = run.inputSeq) (.conflict "不能回拨历史输入")
  let saved ← db.saveTask task.succeeded
  let moved := saved.putInput (settle run settled)
  pure { moved with session := { moved.session with lastResolvedInputSeq := run.inputSeq } }

end Negotiation
