/-
This file models the runs of the seller agent in a conversation. A message of
the buyer makes a task with a snapshot of the remembered context; a worker leases
it, catches the memory up once, and lets the model call tools until a call ends
the turn, a limit or a changed business state stops it, or the worker is lost.

A worker works on its own copy of the checkpoint and saves it at certain points.
Whoever leases the task again starts with what was saved last. What the ending
of a turn writes, the reply, the memory and how far it covers the conversation,
is one transaction.
-/

import SecondhandAgent.Agent.Protocol
import SecondhandAgent.Agent.Reviews
import SecondhandAgent.Table

namespace Negotiation.Agent

open Store

/-! ### Decisions -/

inductive NegotiationAction where
  | inquiry
  | accept
  | counter
  | reject
  | requestApproval
deriving DecidableEq

inductive DialogueActKind where
  | askFact
  | askPrivateInfo
  | requestTerm
  | requestCommitment
  | general
  | unknown
deriving DecidableEq

inductive DialogueSubject where
  | productDetails
  | listedPrice
  | priceFloor
  | offerPrice
  | priceNegotiation
  | availability
  | shippingPayer
  | shippingCost
  | deliveryMethod
  | dispatchDeadline
  | reservation
  | general
  | other
deriving DecidableEq

structure DialogueAct where
  kind : DialogueActKind
  subject : DialogueSubject
  requestedValue : Option String := none

/-- A `NegotiationDecision` that writes nothing. -/
structure FinishDecision where
  action : FinishAction
  dialogueActs : List DialogueAct := []
  reason : String
  reply : String

/-- `ConversationFinish.business_decision` -/
def ConversationDecision.businessDecision (decision : ConversationDecision) : FinishDecision where
  action := decision.action
  dialogueActs := match decision.action with
    | .inquiry => [⟨.general, .general, none⟩]
    | .reject => []
  reason := decision.reason
  reply := decision.reply

/-- `FinishTurnInput`, whose decision may have any action. -/
structure FinishTurnInput where
  action : NegotiationAction
  dialogueActs : List DialogueAct := []
  reason : String
  reply : String
  memoryDelta : MemoryDelta := {}

/-- `FinishTurnInput.validate_non_write` -/
def FinishTurnInput.validateNonWrite (finish : FinishTurnInput) : Except String FinishDecision :=
  match finish.action with
  | .inquiry => .ok ⟨.inquiry, finish.dialogueActs, finish.reason, finish.reply⟩
  | .reject => .ok ⟨.reject, finish.dialogueActs, finish.reason, finish.reply⟩
  | .accept | .counter | .requestApproval =>
    .error "finish_turn permits only consultation or rejection"

inductive TurnOutcome where
  | informational
  | counterOffered
  | offerAccepted
  | needsSellerConfirmation
  | rejected
  | clarification
  | safeFailure
  | modelError
deriving DecidableEq

structure DialogueReply where
  text : String
  needsClarification : Bool

/-- `AgentTurnResult`; `written` is set where the reply is the text of a decision of the
conversation. -/
structure TurnResult where
  reply : String
  outcome : TurnOutcome
  formalOfferId : Option Nat := none
  written : Option ConversationDecision := none

/-! ### Tasks -/

/-- What the runtime is built on: the digest of what a review is about, the reading of arguments and
reviews, the estimate that tells whether the messages of a memory call are too long, the note that a
tool's result leaves in the memory, and the replies of the dialogue policy. Nothing is assumed of
them. -/
structure AgentPlatform (Key : Type) where
  digest : ReviewPayload → Key
  parseConversation : ToolCall → Except String ConversationFinish
  parseFinish : ToolCall → Except String FinishTurnInput
  parseReview : String → Except String ReplyReview
  oversized : HeldEntries → List StreamRecord → Bool
  recordTool : HeldEntries → ToolCall → HeldEntries
  resolve : List DialogueAct → String → FactTree → DialogueReply

/-- The settings a run is frozen from. -/
structure AgentSettings where
  memoryEnabled : Bool
  conversation : Bool
deriving DecidableEq

structure FrozenConfig where
  memoryEnabled : Bool
  /-- `reply_strategy == "conversation-v1"` -/
  conversational : Bool
  /-- `memory_catchup_strategy == "contiguous-prefix-v1"` -/
  contiguous : Bool
deriving DecidableEq

/-- `freeze_config` -/
def freezeConfig (settings : AgentSettings) : FrozenConfig where
  memoryEnabled := settings.memoryEnabled
  conversational := settings.conversation
  contiguous := true

/-- What the model may and may not do in a conversation. -/
def FrozenConfig.assistantCapabilities (config : FrozenConfig) : List (String × FactTree) :=
  if config.conversational then
    [("price_discussion", .bool true), ("offer_evaluation", .bool true),
      ("seller_contact", .bool false), ("photo_capture", .bool false),
      ("formal_writes_require_tools", .bool true), ("unconfirmed_dispatch_promise", .bool false)]
  else []

/-- `DecisionRequest` -/
structure DecisionRequest where
  productContext : List (String × FactTree)
  negotiationContext : List (String × FactTree)
  currentTurnOfferId : Option Nat

/-- `initial_context` -/
structure InitialContext where
  memory : HeldEntries
  contextVersion : Nat
  memoryCoveredThrough : Int

/-- The checkpoint of a run. -/
structure RunCheckpoint (Key : Type) where
  memory : Option HeldEntries := none
  memoryCoveredThrough : Option Int := none
  memoryRefreshDone : Bool := false
  memoryRefreshIncomplete : Bool := false
  pendingCalls : List ToolCall := []
  batchError : Option String := none
  replyReviews : List (Key × ReplyReview) := []

/-- Where a worker is between two of its saves. -/
inductive Stage where
  | idle
  /-- The model was asked to bring the records into the memory; `last` is the last record that is
  pending. -/
  | refreshing (kept records : List StreamRecord) (last : Int)
  /-- The reply of the first pending call was reviewed. -/
  | judged (error : Option String)

structure Worker (Key : Type) where
  checkpoint : RunCheckpoint Key
  stage : Stage := .idle

inductive RunStatus where
  | open
  | succeeded
  | stale
  | terminated
deriving DecidableEq

/-- What a task was made with. The number of the input is at the same time the high water mark of
what the run may read. -/
structure TaskInput where
  id : Nat
  config : FrozenConfig
  request : DecisionRequest
  currentInputSeq : Int
  initialContext : InitialContext

/-- A `ModelExecutionTask` of a conversation. `answers` are the calls for a review that succeeded;
`worker` is the worker that holds the lease. `reviewed` is for the history only: what the reviews in
the checkpoint are about. -/
structure AgentTask (Key : Type) where
  input : TaskInput
  checkpoint : RunCheckpoint Key := {}
  answers : List (Key × ReviewAnswer) := []
  reviewed : List (ReviewPayload × ReplyReview) := []
  status : RunStatus := .open
  worker : Option (Worker Key) := none

def AgentTask.id {Key : Type} (task : AgentTask Key) : Nat := task.input.id

/-- `facts` -/
def TaskInput.facts (task : TaskInput) : FactTree :=
  .object ([("product", .object task.request.productContext),
      ("negotiation", .object task.request.negotiationContext),
      ("current_turn_offer_id", match task.request.currentTurnOfferId with
        | some id => .number (toString id)
        | none => .null)] ++
    if task.config.assistantCapabilities = [] then []
    else [("assistant_capabilities", .object task.config.assistantCapabilities)])

/-! ### A turn that is finished -/

/-- `_execute_decision` for a consultation or a rejection. -/
def executeDecision {Key : Type} (platform : AgentPlatform Key) (request : DecisionRequest)
    (decision : FinishDecision)
    (validated : Option (DialogueReply × ConversationDecision)) : TurnResult :=
  match request.productContext.lookup "product" with
  | some (.object product) =>
    match validated, decision.action with
    | some (reply, written), action =>
      { reply := reply.text
        outcome := match action with
          | .reject => .rejected
          | .inquiry => if reply.needsClarification then .clarification else .informational
        written := some written }
    | none, .inquiry =>
      if decision.dialogueActs.isEmpty then
        ⟨"当前条件暂时无法安全处理，请换一种条件或稍后再试。", .safeFailure, none, none⟩
      else
        let reply := platform.resolve decision.dialogueActs decision.reply (.object product)
        { reply := reply.text
          outcome := if reply.needsClarification then .clarification else .informational }
    | none, .reject => ⟨"这个条件暂时无法接受，你可以调整后再提出。", .rejected, none, none⟩
  | _ => ⟨"当前条件暂时无法安全处理，请换一种条件或稍后再试。", .safeFailure, none, none⟩

/-- The decision that takes the place of a consultation about a formal offer. -/
def constrainedDecision : FinishDecision where
  action := .reject
  reason := "本轮正式报价未获得自动接受或卖家审批授权"
  reply := "由正式回复安全层生成拒绝结果。"

/-- `apply_prepared`: a consultation about a formal offer is replaced by a rejection, and the
reviewed reply goes with it. -/
def applyPrepared {Key : Type} (platform : AgentPlatform Key) (request : DecisionRequest)
    (decision : FinishDecision)
    (validated : Option (DialogueReply × ConversationDecision)) : TurnResult :=
  match request.currentTurnOfferId, decision.action with
  | some _, .inquiry => executeDecision platform request constrainedDecision none
  | _, _ => executeDecision platform request decision validated

section

variable {Key : Type} (platform : AgentPlatform Key)

/-- What a review of the decision is about. -/
def TaskInput.payload (task : TaskInput) (records : List StreamRecord)
    (decision : ConversationDecision) : ReviewPayload :=
  reviewInput decision task.facts records task.currentInputSeq

/-- The key a review of the decision is filed under. -/
def TaskInput.reviewKey (task : TaskInput) (records : List StreamRecord)
    (decision : ConversationDecision) : Key := platform.digest (task.payload records decision)

/-- `reviewed_reply` -/
def reviewedReply [DecidableEq Key] (task : TaskInput) (records : List StreamRecord)
    (checkpoint : RunCheckpoint Key) (decision : ConversationDecision) :
    Except String DialogueReply := do
  let stored ← expect (checkpoint.replyReviews.lookup (task.reviewKey platform records decision))
    "Reply lacks an approved review bound to current evidence and text"
  require (stored.approved = true)
    "Reply lacks an approved review bound to current evidence and text"
  validateReviewEvidence stored task.facts
  pure ⟨decision.reply, decision.needsClarification⟩

/-- How far the memory covers the conversation as far as a checkpoint tells. -/
def TaskInput.coverage (task : TaskInput) (checkpoint : RunCheckpoint Key) : Int :=
  checkpoint.memoryCoveredThrough.getD task.initialContext.memoryCoveredThrough

/-- How a call of `finish_turn` ends: the checkpoint, the memory with the update, whether there was
one that was applied, and the result of the turn. -/
structure FinishedCall (Key : Type) where
  checkpoint : RunCheckpoint Key
  memory : Option HeldEntries
  applied : Bool
  result : TurnResult

/-- The update of the memory that comes with the call. It is applied or left out; only in the first
case, and only if no message was left behind, it covers the input. -/
def settleMemory (task : TaskInput) (records : List StreamRecord)
    (checkpoint : RunCheckpoint Key) (delta : MemoryDelta) (result : TurnResult) :
    FinishedCall Key :=
  let covered : RunCheckpoint Key :=
    if checkpoint.memoryRefreshIncomplete then checkpoint
    else { checkpoint with memoryCoveredThrough := some task.currentInputSeq }
  if task.config.memoryEnabled then
    match apply (checkpoint.memory.getD task.initialContext.memory) delta records with
    | .ok memory => ⟨covered, some memory, true, result⟩
    | .error _ => ⟨checkpoint, none, false, result⟩
  else ⟨covered, none, false, result⟩

/-- `finish_turn` without what is written. -/
def finishTurn [DecidableEq Key] (task : TaskInput) (records : List StreamRecord)
    (checkpoint : RunCheckpoint Key) (call : ToolCall) : Except String (FinishedCall Key) :=
  if task.config.conversational then do
    let finish ← platform.parseConversation call
    let reply ← reviewedReply platform task records checkpoint finish.decision
    pure (settleMemory task records checkpoint finish.memoryDelta
      (applyPrepared platform task.request finish.decision.businessDecision
        (some (reply, finish.decision))))
  else do
    let finish ← platform.parseFinish call
    let decision ← finish.validateNonWrite
    pure (settleMemory task records checkpoint finish.memoryDelta
      (applyPrepared platform task.request decision none))

/-! ### The conversation -/

/-- A row of the ledger: the task it belongs to, and whether it is of the branch of the run. -/
structure LedgerRow where
  record : StreamRecord
  taskId : Option Nat := none
  ofBranch : Bool := false

/-- `AgentSessionContext` -/
structure SessionContext where
  nextStreamSeq : Int := 1
  contextVersion : Nat := 1
  memory : HeldEntries := []
  memoryCoveredThrough : Int := 0

structure Publication where
  taskId : Nat
  reply : String
  outcome : TurnOutcome
  formalOfferId : Option Nat
  written : Option ConversationDecision

/-- A conversation with its ledger, its context, its tasks and the replies that runs published.
`remembered` and `concluded` are for the history only: the records of the updates of the memory that
succeeded, and the inputs of the turns that ended with an update that was applied. -/
structure AgentWorld (Key : Type) where
  ledger : List LedgerRow := []
  context : SessionContext := {}
  tasks : Table (AgentTask.id : AgentTask Key → Nat) := .empty
  publications : List Publication := []
  remembered : List Int := []
  concluded : List Int := []

namespace AgentWorld

/-- `AgentMessageService.append` -/
def append (world : AgentWorld Key) (body : RecordBody) (visibility : Visibility)
    (taskId : Option Nat) (ofBranch : Bool) : AgentWorld Key :=
  { world with
    ledger := world.ledger ++
      [{ record := ⟨world.context.nextStreamSeq, body, visibility⟩, taskId, ofBranch }]
    context := { world.context with nextStreamSeq := world.context.nextStreamSeq + 1 } }

def setTask (world : AgentWorld Key) (task : AgentTask Key) : AgentWorld Key :=
  { world with tasks := world.tasks.put task }

/-- The row may be read by a run of the task. -/
def readable (world : AgentWorld Key) (task : TaskInput) (row : LedgerRow) : Bool :=
  let completed := row.taskId.any fun id =>
    (world.tasks.get id).any fun other => decide (other.status = .succeeded)
  (decide (row.record.seq ≤ task.currentInputSeq) &&
      (decide (row.record.visibility = .everyone) || completed)) ||
    (decide (row.taskId = some task.id) && row.ofBranch)

/-- `records` -/
def records (world : AgentWorld Key) (task : TaskInput) : List StreamRecord :=
  (world.ledger.filter (world.readable task)).map LedgerRow.record

/-! ### Writing -/

/-- The worker saves its checkpoint. -/
def save (world : AgentWorld Key) (task : AgentTask Key) (checkpoint : RunCheckpoint Key)
    (stage : Stage) : AgentWorld Key :=
  world.setTask { task with checkpoint, worker := some ⟨checkpoint, stage⟩ }

/-- What `_tool_result` does to the checkpoint. -/
def afterResult (task : TaskInput) (checkpoint : RunCheckpoint Key) (call : ToolCall) :
    RunCheckpoint Key :=
  { checkpoint with
    memory :=
      if task.config.memoryEnabled then
        some (platform.recordTool (checkpoint.memory.getD task.initialContext.memory) call)
      else checkpoint.memory
    pendingCalls := checkpoint.pendingCalls.drop 1 }

/-- The record of `_tool_result`. -/
def appendResult (world : AgentWorld Key) (task : TaskInput) (call : ToolCall)
    (content : String) : AgentWorld Key :=
  world.append (.toolResult (.tool content call.id call.name)) .internal (some task.id) true

/-- A reply of a run. -/
def publish (world : AgentWorld Key) (publication : Publication) : AgentWorld Key :=
  { world with publications := world.publications ++ [publication] }

/-- What `_finish` leaves in the context, if nothing changed it since the task was made. -/
def storeContext (world : AgentWorld Key) (task : TaskInput) (checkpoint : RunCheckpoint Key)
    (memory : Option HeldEntries) : AgentWorld Key :=
  match memory with
  | some memory =>
    if task.config.memoryEnabled then
      let written := world.append .contextArtifact .internal (some task.id) false
      { written with
        context := { written.context with
          memory
          memoryCoveredThrough := task.coverage checkpoint
          contextVersion := world.context.contextVersion + 1 } }
    else
      { world with
        context := { world.context with contextVersion := world.context.contextVersion + 1 } }
  | none =>
    { world with
      context := { world.context with contextVersion := world.context.contextVersion + 1 } }

/-- `_finish` -/
def finish (world : AgentWorld Key) (task : AgentTask Key) (checkpoint : RunCheckpoint Key)
    (result : TurnResult) (memory : Option HeldEntries) (stale : Bool) : AgentWorld Key :=
  let published :=
    (world.publish ⟨task.id, result.reply, result.outcome, result.formalOfferId, result.written⟩).append
      (.publicReply result.reply) .everyone (some task.id) false
  let stored :=
    if published.context.contextVersion = task.input.initialContext.contextVersion ∧ stale = false then
      published.storeContext task.input checkpoint (memory.or checkpoint.memory)
    else published
  stored.setTask { task with
    checkpoint := { checkpoint with pendingCalls := [] }
    status := if stale then .stale else .succeeded
    worker := none }

/-- `_stop_in_transaction`: what is still pending is answered with the reason. -/
def stopRun (world : AgentWorld Key) (task : AgentTask Key) (checkpoint : RunCheckpoint Key)
    (reason : String) (stale : Bool) : AgentWorld Key :=
  let answered := checkpoint.pendingCalls.foldl (fun world call =>
    world.appendResult task.input call (.ofList (Encoding.dumps.object
      [("ok", Encoding.dumps.bool false),
        ("error", Encoding.dumps.object [("code", Encoding.dumps.text reason)])]))) world
  let closed := checkpoint.pendingCalls.foldl (afterResult platform task.input) checkpoint
  answered.finish task closed
    ⟨"当前条件暂时无法安全处理，请补充交易条件或稍后再试。", .safeFailure, none, none⟩ none stale

/-! ### The steps of a worker -/

/-- Leave out records until the messages are short enough. -/
def shorten (oversized : List StreamRecord → Bool)
    (dropOne : List StreamRecord → List StreamRecord) :
    Nat → List StreamRecord → List StreamRecord
  | 0, pending => pending
  | rounds + 1, pending =>
    if pending ≠ [] ∧ oversized pending = true then
      shorten oversized dropOne rounds (dropOne pending)
    else pending

/-- `records[-1].seq` -/
def lastSeq (records : List StreamRecord) : Int := (records.getLast?.map StreamRecord.seq).getD 0

/-- What was said before the input and is not covered. -/
def pending (world : AgentWorld Key) (task : TaskInput) (checkpoint : RunCheckpoint Key) :
    List StreamRecord :=
  (world.records task).filter fun record =>
    decide (task.coverage checkpoint < record.seq ∧ record.seq < task.currentInputSeq ∧
      record.visibility = .everyone)

/-- The first part of `_refresh_memory`, up to the call of the model. -/
def beginRefresh (world : AgentWorld Key) (task : AgentTask Key) (checkpoint : RunCheckpoint Key) :
    AgentWorld Key :=
  let pending := world.pending task.input checkpoint
  let begun := { checkpoint with memoryRefreshDone := true }
  if pending.any fun record => decide (record.kind = .buyerInput) then
    let memory := checkpoint.memory.getD task.input.initialContext.memory
    let begun := if task.input.config.contiguous then { begun with memoryRefreshIncomplete := true }
      else begun
    let kept := shorten (platform.oversized memory)
      (if task.input.config.contiguous then List.dropLast else List.tail) pending.length pending
    if kept = [] then world.setTask { task with worker := some ⟨begun, .idle⟩ }
    else world.save task begun
      (.refreshing kept (world.records task.input) (lastSeq pending))
  else world.setTask { task with worker := some ⟨begun, .idle⟩ }

/-- The rest of `_refresh_memory`; without a delta the call or the reading of it failed. -/
def endRefresh (world : AgentWorld Key) (task : AgentTask Key) (checkpoint : RunCheckpoint Key)
    (kept records : List StreamRecord) (last : Int) (response : Option MemoryDelta) :
    AgentWorld Key :=
  match response with
  | none => world.save task checkpoint .idle
  | some delta =>
    match apply (checkpoint.memory.getD task.input.initialContext.memory) delta records with
    | .error _ => world.save task checkpoint .idle
    | .ok memory =>
      let through := lastSeq kept
      { world with remembered := world.remembered ++ kept.map StreamRecord.seq }.save task
        { checkpoint with
          memory := some memory
          memoryCoveredThrough := some through
          memoryRefreshIncomplete :=
            if task.input.config.contiguous then decide (through ≠ last)
            else checkpoint.memoryRefreshIncomplete } .idle

/-- `batch_error` -/
def batchError (calls : List ToolCall) : Option String :=
  let terminal (call : ToolCall) : Bool :=
    ["submit_counter_offer", "accept_offer", "request_approval", "finish_turn"].contains call.name
  let reads (call : ToolCall) : Bool :=
    ["get_product_info", "get_negotiation_state", "evaluate_offer",
      "search_conversation_history"].contains call.name
  if calls.any fun call => !reads call && !terminal call then some "UNKNOWN_TOOL"
  else if (calls.filter terminal).length > 1 ∨
      (calls.any terminal = true ∧ (calls.getLast?.any terminal) = false) then
    some "TERMINAL_TOOL_MUST_BE_UNIQUE_AND_LAST"
  else none

/-- A response of the model, which is saved with its calls or as a candidate that was rejected. -/
def respond (world : AgentWorld Key) (task : AgentTask Key) (checkpoint : RunCheckpoint Key)
    (message : Message) (rejected : Bool) : AgentWorld Key :=
  if rejected ∨ message.toolCalls = [] then
    (world.append (.modelCandidate message) .internal (some task.id) true).save task
      checkpoint .idle
  else
    (world.append (.toolCall message) .internal (some task.id) true).save task
      { checkpoint with
        pendingCalls := message.toolCalls
        batchError := batchError message.toolCalls } .idle

/-- What the feedback of a stored review is. -/
def reviewError (review : ReplyReview) : Option String :=
  if review.approved then none else some ("REPLY_REVIEW_REJECTED: " ++ review.reason)

/-- The verdict on a reply that has none yet: without an answer of the reviewing model there is one
only if the call failed. -/
def newVerdict [DecidableEq Key] (task : AgentTask Key) (key : Key) (decision : ConversationDecision)
    (failure : Option String) : Option ReplyReview :=
  match preliminaryError decision.reply with
  | some error => some (refusedReview error)
  | none =>
    match task.answers.lookup key with
    | some answer => some (verdictOf platform.parseReview task.input.facts answer)
    | none => failure.map failedReview

/-- `_review_reply` -/
def judge [DecidableEq Key] (world : AgentWorld Key) (task : AgentTask Key) (checkpoint : RunCheckpoint Key)
    (call : ToolCall) (failure : Option String) : Option (AgentWorld Key) :=
  match platform.parseConversation call with
  | .error text =>
    some (world.setTask { task with
      worker := some ⟨checkpoint, .judged (some (.ofList (text.toList.take 300)))⟩ })
  | .ok finish =>
    let key := task.input.reviewKey platform (world.records task.input) finish.decision
    match checkpoint.replyReviews.lookup key with
    | some stored =>
      some (world.setTask { task with worker := some ⟨checkpoint, .judged (reviewError stored)⟩ })
    | none =>
      (newVerdict platform task key finish.decision failure).map fun verdict =>
        let payload := task.input.payload (world.records task.input) finish.decision
        world.save { task with reviewed := (payload, verdict) :: task.reviewed }
          { checkpoint with replyReviews := (key, verdict) :: checkpoint.replyReviews }
          (.judged (reviewError verdict))

/-- The reviewing model answers; a reply is shown to it only once. -/
def answer [DecidableEq Key] (world : AgentWorld Key) (task : AgentTask Key) (checkpoint : RunCheckpoint Key)
    (call : ToolCall) (answer : ReviewAnswer) : Option (AgentWorld Key) :=
  match platform.parseConversation call with
  | .error _ => none
  | .ok finish =>
    let key := task.input.reviewKey platform (world.records task.input) finish.decision
    if checkpoint.replyReviews.lookup key = none ∧ task.answers.lookup key = none ∧
        preliminaryError finish.decision.reply = none then
      some (world.save { task with answers := (key, answer) :: task.answers } checkpoint .idle)
    else none

/-- What a tool other than `finish_turn` gives: the text of its result, and the result of the turn
if it ends with it. -/
structure ToolReturn where
  content : String
  terminal : Option (String × TurnOutcome × Option Nat) := none

/-- The call is a reply that is reviewed before it is executed. -/
def needsReview (task : TaskInput) (checkpoint : RunCheckpoint Key) (call : ToolCall) : Bool :=
  task.config.conversational && decide (call.name = "finish_turn") && checkpoint.batchError.isNone

/-- The error that a call comes to its execution with; none if it has not come there. -/
def protocolError (task : TaskInput) (worker : Worker Key) (call : ToolCall) :
    Option (Option String) :=
  match worker.stage, needsReview task worker.checkpoint call with
  | .judged error, true => some error
  | .idle, false => some worker.checkpoint.batchError
  | _, _ => none

/-- A call that does not end the turn. -/
def goOn (world : AgentWorld Key) (task : AgentTask Key) (checkpoint : RunCheckpoint Key)
    (call : ToolCall) (content : String) : AgentWorld Key :=
  (world.appendResult task.input call content).save task (afterResult platform task.input checkpoint call) .idle

/-- `execute`, where the business state has not changed. -/
def perform [DecidableEq Key] (world : AgentWorld Key) (task : AgentTask Key) (checkpoint : RunCheckpoint Key)
    (call : ToolCall) (error : Option String) (returned : ToolReturn) : AgentWorld Key :=
  match error with
  | some _ => world.goOn platform task checkpoint call returned.content
  | none =>
    if call.name = "finish_turn" then
      match finishTurn platform task.input (world.records task.input) checkpoint call with
      | .error _ => world.goOn platform task checkpoint call returned.content
      | .ok finished =>
        let concluded := world.concluded ++ if finished.applied then [task.input.currentInputSeq] else []
        ({ world with concluded }.appendResult task.input call returned.content).finish task
          (afterResult platform task.input finished.checkpoint call) finished.result finished.memory false
    else
      match returned.terminal with
      | none => world.goOn platform task checkpoint call returned.content
      | some (reply, outcome, formalOfferId) =>
        (world.appendResult task.input call returned.content).finish task
          (afterResult platform task.input checkpoint call) ⟨reply, outcome, formalOfferId, none⟩ none false

/-- `_persist_chat_termination`: the seller gives the task up. -/
def terminate (world : AgentWorld Key) (task : AgentTask Key) : AgentWorld Key :=
  let text := "本次请求未能可靠完成，卖家已停止继续处理，请根据当前会话状态重新发送。"
  let answered := task.checkpoint.pendingCalls.foldl (fun world call =>
    world.appendResult task.input call
      "\x7b\"ok\":false,\"error\":\x7b\"code\":\"MANUAL_TERMINATED\"\x7d\x7d") world
  ((answered.publish ⟨task.id, text, .safeFailure, none, none⟩).append (.publicReply text)
    .everyone (some task.id) false).setTask { task with
      checkpoint := { task.checkpoint with pendingCalls := [] }
      status := .terminated
      worker := none }

/-- A message of the buyer that a model answers. -/
def accept (world : AgentWorld Key) (id : Nat) (content : String) (settings : AgentSettings)
    (request : DecisionRequest) : Option (AgentWorld Key) :=
  let task : AgentTask Key :=
    { input := {
        id
        config := freezeConfig settings
        request
        currentInputSeq := world.context.nextStreamSeq
        initialContext :=
          ⟨world.context.memory, world.context.contextVersion, world.context.memoryCoveredThrough⟩ } }
  match world.tasks.insert task () with
  | .error _ => none
  | .ok tasks =>
    some { (world.append (.buyerInput content) .everyone none false).append .runConfig .internal
      (some id) false with tasks }

end AgentWorld

/-! ### Steps -/

inductive AgentEvent where
  /-- Something else is said or noted, for example a message that is answered without a model. -/
  | note (body : RecordBody) (visibility : Visibility)
  | accept (id : Nat) (content : String) (settings : AgentSettings) (request : DecisionRequest)
  | lease (id : Nat)
  | crash (id : Nat)
  | beginRefresh (id : Nat)
  | endRefresh (id : Nat) (response : Option MemoryDelta)
  | respond (id : Nat) (message : Message) (rejected : Bool)
  | answer (id : Nat) (answer : ReviewAnswer)
  | judge (id : Nat) (failure : Option String)
  | execute (id : Nat) (stale : Bool) (returned : AgentWorld.ToolReturn)
  | stop (id : Nat) (reason : String) (stale : Bool)
  | terminate (id : Nat)

namespace AgentWorld

/-- A step of the worker that holds the lease of an open task. -/
def byWorker (world : AgentWorld Key) (id : Nat)
    (go : AgentTask Key → Worker Key → Option (AgentWorld Key)) : Option (AgentWorld Key) :=
  match world.tasks.get id with
  | none => none
  | some task =>
    match task.status, task.worker with
    | .open, some worker => go task worker
    | _, _ => none

def step [DecidableEq Key] (world : AgentWorld Key) : AgentEvent → Option (AgentWorld Key)
  | .note body visibility => some (world.append body visibility none false)
  | .accept id content settings request => world.accept id content settings request
  | .lease id =>
    match world.tasks.get id with
    | none => none
    | some task =>
      if task.status = .open then
        some (world.setTask { task with worker := some ⟨task.checkpoint, .idle⟩ })
      else none
  | .crash id => world.byWorker id fun task _ => some (world.setTask { task with worker := none })
  | .beginRefresh id => world.byWorker id fun task worker =>
    match worker.stage with
    | .idle =>
      if worker.checkpoint.pendingCalls = [] ∧ task.input.config.memoryEnabled = true ∧
          worker.checkpoint.memoryRefreshDone = false then
        some (world.beginRefresh platform task worker.checkpoint)
      else none
    | _ => none
  | .endRefresh id response => world.byWorker id fun task worker =>
    match worker.stage with
    | .refreshing kept records last =>
      some (world.endRefresh task worker.checkpoint kept records last response)
    | _ => none
  | .respond id message rejected => world.byWorker id fun task worker =>
    match worker.stage with
    | .idle =>
      if worker.checkpoint.pendingCalls = [] ∧
          (task.input.config.memoryEnabled = true → worker.checkpoint.memoryRefreshDone = true) then
        some (world.respond task worker.checkpoint message rejected)
      else none
    | _ => none
  | .answer id answer => world.byWorker id fun task worker =>
    match worker.stage, worker.checkpoint.pendingCalls with
    | .idle, call :: _ =>
      if needsReview task.input worker.checkpoint call then
        world.answer platform task worker.checkpoint call answer
      else none
    | _, _ => none
  | .judge id failure => world.byWorker id fun task worker =>
    match worker.stage, worker.checkpoint.pendingCalls with
    | .idle, call :: _ =>
      if needsReview task.input worker.checkpoint call then
        world.judge platform task worker.checkpoint call failure
      else none
    | _, _ => none
  | .execute id stale returned => world.byWorker id fun task worker =>
    match worker.checkpoint.pendingCalls with
    | [] => none
    | call :: _ => (protocolError task.input worker call).map fun error =>
      if stale then world.stopRun platform task worker.checkpoint "BUSINESS_STATE_CHANGED" true
      else world.perform platform task worker.checkpoint call error returned
  | .stop id reason stale => world.byWorker id fun task worker =>
    some (world.stopRun platform task worker.checkpoint reason stale)
  | .terminate id =>
    match world.tasks.get id with
    | none => none
    | some task => if task.status = .open then some (world.terminate task) else none

end AgentWorld

end

end Negotiation.Agent
