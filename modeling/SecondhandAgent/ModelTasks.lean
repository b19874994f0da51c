/-
This file models the tasks of the older runtime, in which a worker leases a
task, calls the model outside of the database and writes the result back under
its lease. The rows of the other services that the tasks refer to are kept
beside them; those services change them as they like.
-/

import SecondhandAgent.Contracts
import SecondhandAgent.Schema

namespace Negotiation.Legacy

open Store

/-! ### Rows -/

inductive ModelTaskType where
  | chatDecision
  | approvalFollowup
deriving DecidableEq

inductive ModelTaskErrorCategory where
  | modelTimeout
  | rateLimited
  | network
  | invalidOutput
  | businessConflict
  | internal
  | unknown
deriving DecidableEq

inductive ApprovalFollowupStatus where
  | pending
  | sent
  | failed
  | manualRequired
deriving DecidableEq

inductive ManualAction where
  | retry
  | terminate
deriving DecidableEq

/-- An object of a snapshot, in the order of its keys. -/
abbrev Snapshot := List (String × Json)

/-- The usage of the model; prices and costs are in units of `10^-8`. -/
structure ModelUsage where
  provider : String
  modelName : String
  inputTokens : Option Int := none
  outputTokens : Option Int := none
  cachedInputTokens : Option Int := none
  totalTokens : Option Int := none
  inputPricePerMillion : Option Int := none
  outputPricePerMillion : Option Int := none
  cachedInputPricePerMillion : Option Int := none
  estimatedCost : Option Int := none
  costCurrency : Option String := none
deriving DecidableEq

/-- The counts of a usage, and its prices and its cost. -/
def ModelUsage.amounts (usage : ModelUsage) : List (Option Int) :=
  [usage.inputTokens, usage.outputTokens, usage.cachedInputTokens, usage.totalTokens,
    usage.inputPricePerMillion, usage.outputPricePerMillion, usage.cachedInputPricePerMillion,
    usage.estimatedCost]

def ModelUsage.NotNegative (usage : ModelUsage) : Prop :=
  ∀ amount ∈ usage.amounts, ∀ value ∈ amount, 0 ≤ value

instance (usage : ModelUsage) : Decidable usage.NotNegative :=
  inferInstanceAs (Decidable (∀ amount ∈ usage.amounts, ∀ value ∈ amount, 0 ≤ value))

/-- The row of a task. A lease token is a key that is handed out once. -/
structure ModelTask where
  id : Nat
  taskType : ModelTaskType
  businessKey : String
  sessionId : Nat
  offerId : Option Nat
  approvalId : Option Nat
  snapshotSchemaVersion : Int
  sessionVersion : Nat
  policyVersion : Nat
  inputSnapshot : Snapshot
  inputSnapshotHash : Digest
  runtimeKind : RuntimeKind := .v3
  status : ModelTaskStatus := .pending
  attemptCount : Nat := 0
  maxAttempts : Nat
  manualRetryCount : Nat := 0
  nextRetryAt : Option Time := none
  leaseOwner : Option String := none
  leaseToken : Option Nat := none
  leaseExpiresAt : Option Time := none
  lastErrorCategory : Option ModelTaskErrorCategory := none
  lastErrorMessage : Option String := none
  usage : Option ModelUsage := none
  resultSnapshot : Option Snapshot := none
  startedAt : Option Time := none
  completedAt : Option Time := none
  lastManualAction : Option (ManualAction × String × Option String × Time) := none
deriving DecidableEq

/-- The check constraints of the table, apart from the length of the hash, which every digest
has. -/
structure ModelTask.Lawful (task : ModelTask) : Prop where
  snapshotSchemaVersion_positive : 0 < task.snapshotSchemaVersion
  sessionVersion_positive : 0 < task.sessionVersion
  policyVersion_positive : 0 < task.policyVersion
  maxAttempts_positive : 0 < task.maxAttempts
  usage_notNegative : ∀ usage ∈ task.usage, usage.NotNegative
  lease_matches_running_status :
    (task.status = .running ∧ task.leaseOwner ≠ none ∧ task.leaseToken ≠ none ∧
        task.leaseExpiresAt ≠ none) ∨
      (task.status ≠ .running ∧ task.leaseOwner = none ∧ task.leaseToken = none ∧
        task.leaseExpiresAt = none)
  retry_time_matches_status :
    (task.status = .retryWait ∧ task.nextRetryAt ≠ none) ∨
      (task.status ≠ .retryWait ∧ task.nextRetryAt = none)

instance (task : ModelTask) : Decidable task.Lawful :=
  decidable_of_iff
    (0 < task.snapshotSchemaVersion ∧ 0 < task.sessionVersion ∧ 0 < task.policyVersion ∧
      0 < task.maxAttempts ∧ (∀ usage ∈ task.usage, usage.NotNegative) ∧
      ((task.status = .running ∧ task.leaseOwner ≠ none ∧ task.leaseToken ≠ none ∧
          task.leaseExpiresAt ≠ none) ∨
        (task.status ≠ .running ∧ task.leaseOwner = none ∧ task.leaseToken = none ∧
          task.leaseExpiresAt = none)) ∧
      ((task.status = .retryWait ∧ task.nextRetryAt ≠ none) ∨
        (task.status ≠ .retryWait ∧ task.nextRetryAt = none)))
    ⟨fun ⟨one, two, three, four, five, six, seven⟩ => ⟨one, two, three, four, five, six, seven⟩,
      fun ⟨one, two, three, four, five, six, seven⟩ =>
        ⟨one, two, three, four, five, six, seven⟩⟩

/-! ### What the tasks refer to -/

/-- A session of the older runtime, as far as the tasks read it; the column of the version is
positive. -/
structure SessionRow where
  productId : Nat
  version : Nat
  version_positive : 0 < version

structure PolicyRow where
  version : Nat
  version_positive : 0 < version

structure ApprovalRow where
  sessionId : Nat
  offerId : Nat
  status : ApprovalStatus
  followupRequestId : Option String := none
  followupStatus : Option ApprovalFollowupStatus := none

/-- The rows of the other services: sessions, the policies and sellers of the products, the
sessions of the offers, approvals, and the requests that a session has a message for. -/
structure Surroundings where
  sessions : Nat → Option SessionRow
  policies : Nat → Option PolicyRow
  sellers : Nat → Option String
  offers : Nat → Option Nat
  approvals : Nat → Option ApprovalRow
  messages : Nat → String → Bool

/-- The tasks, what they refer to, and the next key to hand out. -/
structure TaskDb where
  tasks : Table ModelTask.id := .empty
  others : Surroundings
  nextId : Nat := 1

/-- What ends an operation without a commit. -/
inductive TaskFailure where
  | invalid (text : String)
  | conflict (text : String)
  | lease (text : String)
  | notFound (text : String)
  /-- The duration of a renewal is refused. -/
  | value (text : String)
  /-- The database refuses a row that violates a check constraint. -/
  | check
  /-- The database refuses a duplicate key. -/
  | unique
deriving DecidableEq

/-! ### Writing -/

/-- Another task has the lease token of the row, or its type and business key. -/
def Duplicated (db : TaskDb) (row : ModelTask) : Prop :=
  ∃ other ∈ db.tasks.rows, other.id ≠ row.id ∧
    ((row.leaseToken ≠ none ∧ other.leaseToken = row.leaseToken) ∨
      (other.taskType = row.taskType ∧ other.businessKey = row.businessKey))

instance (db : TaskDb) (row : ModelTask) : Decidable (Duplicated db row) :=
  inferInstanceAs (Decidable (∃ other ∈ db.tasks.rows, _))

/-- Write a row back; the database checks it. -/
def flush (db : TaskDb) (row : ModelTask) : Except TaskFailure TaskDb := do
  require row.Lawful .check
  require (¬ Duplicated db row) .unique
  pure { db with tasks := db.tasks.put row }

/-- The approval of a task whose follow-up has not been sent is left to the seller. -/
def markApprovalManualRequired (db : TaskDb) (task : ModelTask) : TaskDb :=
  match task.approvalId with
  | none => db
  | some approvalId =>
    match db.others.approvals approvalId with
    | none => db
    | some approval =>
      if approval.followupStatus = some .sent then db
      else
        { db with
          others :=
            { db.others with
              approvals := Function.update db.others.approvals approvalId
                (some { approval with followupStatus := some .manualRequired }) } }

/-! ### Validation -/

/-- The letters and digits of the identifiers. -/
def isAlphanumeric (letter : Char) : Bool :=
  ('A' ≤ letter && letter ≤ 'Z') || ('a' ≤ letter && letter ≤ 'z') ||
    ('0' ≤ letter && letter ≤ '9')

/-- `_IDENTIFIER_PATTERN` matches the whole text. -/
def matchesIdentifier (text : String) : Bool :=
  match text.toList with
  | [] => false
  | first :: rest =>
    isAlphanumeric first &&
      rest.all fun letter => isAlphanumeric letter || letter ∈ ['.', '_', ':', '-']

/-- `_validated_identifier` -/
def validatedIdentifier (text fieldName : String) (maxLength : Nat) :
    Except TaskFailure String := do
  require (text ≠ "" ∧ text = strip text ∧ text.length ≤ maxLength ∧ matchesIdentifier text)
    (.invalid (fieldName ++ "只能包含字母、数字、点、下划线、冒号和连字符"))
  pure text

def validateMaxAttempts (value : Int) : Except TaskFailure Unit :=
  require (1 ≤ value ∧ value ≤ 20) (.invalid "模型任务最大尝试次数必须在 1 到 20 之间")

/-- `" ".join(text.split())`, cut off; an empty text is none. -/
def normalized (limit : Nat) (text : Option String) : Option String :=
  match text with
  | none => none
  | some text =>
    let words := (text.toList.splitOnP isSpace).filter (· ≠ [])
    let joined := String.ofList ((List.intercalate [' '] words).take limit)
    if joined = "" then none else some joined

/-- The functions of Unicode that the currency of a usage is checked with. -/
class Unicode where
  upper : String → String
  isAlpha : String → Bool

export Unicode (upper isAlpha)

/-- `_validated_usage` -/
def validatedUsage [Unicode] (usage : ModelUsage) : Except TaskFailure ModelUsage := do
  let provider := strip usage.provider
  let modelName := strip usage.modelName
  require (provider ≠ "" ∧ provider.length ≤ 50) (.invalid "模型提供商标识无效")
  require (modelName ≠ "" ∧ modelName.length ≤ 100) (.invalid "模型名称无效")
  require (∀ count ∈ [usage.inputTokens, usage.outputTokens, usage.cachedInputTokens,
    usage.totalTokens], ∀ value ∈ count, 0 ≤ value) (.invalid "模型 Token 用量不能为负数")
  require (∀ price ∈ [usage.inputPricePerMillion, usage.outputPricePerMillion,
    usage.cachedInputPricePerMillion, usage.estimatedCost], ∀ value ∈ price, 0 ≤ value)
    (.invalid "模型价格或估算成本不能为负数")
  let currency := (usage.costCurrency.filter (· ≠ "")).map fun text => upper (strip text)
  require (∀ text ∈ currency, text.length = 3 ∧ isAlpha text) (.invalid "模型成本币种必须是三位字母代码")
  pure { usage with provider, modelName, costCurrency := currency }

/-! ### Creation -/

/-- `_capture_references`: the versions of the session and of its policy. -/
def captureReferences (others : Surroundings) (taskType : ModelTaskType) (sessionId : Nat)
    (offerId approvalId : Option Nat) : Except TaskFailure (Nat × Nat) := do
  let negotiation ← expect (others.sessions sessionId) (.invalid "模型任务关联的协商会话不存在")
  let policy ← expect (others.policies negotiation.productId)
    (.invalid "模型任务关联的卖家规则不存在")
  require (∀ id ∈ offerId, others.offers id = some sessionId)
    (.invalid "模型任务关联的报价不属于当前会话")
  require (∀ id ∈ approvalId, (others.approvals id).map (·.sessionId) = some sessionId)
    (.invalid "模型任务关联的审批不属于当前会话")
  match taskType with
  | .chatDecision =>
    require (approvalId = none) (.invalid "聊天决策任务不能绑定审批记录")
    pure (negotiation.version, policy.version)
  | .approvalFollowup =>
    let refused := TaskFailure.invalid "审批通知任务必须绑定一致的审批和报价"
    let approval ← expect (approvalId.bind others.approvals) refused
    require (some approval.offerId = offerId) refused
    require ((approval.status = .approved ∨ approval.status = .rejected) ∧
      approval.followupRequestId ≠ none ∧ approval.followupRequestId ≠ some "")
      (.invalid "审批通知任务只能为已审核记录创建")
    pure (negotiation.version, policy.version)

/-- Create a task, or find the one that the business key already has. -/
def createTask [Platform] (db : TaskDb) (taskType : ModelTaskType) (businessKey : String)
    (sessionId : Nat) (inputSnapshot : Snapshot) (offerId approvalId : Option Nat)
    (snapshotSchemaVersion maxAttempts : Int) : Except TaskFailure (TaskDb × Nat) := do
  let key ← validatedIdentifier businessKey "业务幂等键" 128
  require (0 < snapshotSchemaVersion) (.invalid "输入快照版本必须大于零")
  validateMaxAttempts maxAttempts
  let inputHash := digest (.object inputSnapshot)
  match db.tasks.rows.find? fun task => task.taskType = taskType ∧ task.businessKey = key with
  | some old =>
    require (old.sessionId = sessionId ∧ old.offerId = offerId ∧ old.approvalId = approvalId ∧
      old.snapshotSchemaVersion = snapshotSchemaVersion ∧ old.inputSnapshotHash = inputHash)
      (.conflict "相同模型任务幂等键不能用于不同输入或业务对象")
    pure (db, old.id)
  | none =>
    let (sessionVersion, policyVersion) ←
      captureReferences db.others taskType sessionId offerId approvalId
    let row : ModelTask :=
      { id := db.nextId
        taskType, businessKey := key, sessionId, offerId, approvalId, snapshotSchemaVersion
        sessionVersion, policyVersion, inputSnapshot, inputSnapshotHash := inputHash
        maxAttempts := maxAttempts.toNat }
    let tasks ← db.tasks.insert row .unique
    let written ← flush { db with tasks, nextId := db.nextId + 1 } row
    pure (written, row.id)

/-! ### Leases -/

def validatedLeaseRequest (workerId : String) (leaseSeconds : Int) :
    Except TaskFailure String := do
  let stored ← validatedIdentifier workerId "Worker 标识" 100
  require (1 ≤ leaseSeconds ∧ leaseSeconds ≤ 3600) (.invalid "租约时长必须在 1 到 3600 秒之间")
  pure stored

/-- The task waits to be executed, its retry is due, or the lease it is executed under is
over. -/
def LeaseEligible (task : ModelTask) (now : Time) : Prop :=
  task.status = .pending ∨
    (task.status = .retryWait ∧ ∃ due ∈ task.nextRetryAt, due ≤ now) ∨
    (task.status = .running ∧ ∃ end_ ∈ task.leaseExpiresAt, end_ ≤ now)

instance (task : ModelTask) (now : Time) : Decidable (LeaseEligible task now) := by
  unfold LeaseEligible
  infer_instance

/-- The token is that of the task's lease, which is not over. -/
def ActiveLease (task : ModelTask) (leaseToken : Nat) (now : Time) : Prop :=
  task.status = .running ∧ task.leaseToken = some leaseToken ∧
    ∃ end_ ∈ task.leaseExpiresAt, now < end_

instance (task : ModelTask) (leaseToken : Nat) (now : Time) :
    Decidable (ActiveLease task leaseToken now) := by
  unfold ActiveLease
  infer_instance

def lockedTask (db : TaskDb) (taskId : Nat) : Except TaskFailure ModelTask :=
  expect (db.tasks.get taskId) (.notFound "模型任务不存在")

def requireActiveLease (task : ModelTask) (leaseToken : Nat) (now : Time) :
    Except TaskFailure Unit :=
  require (ActiveLease task leaseToken now) (.lease "模型任务租约无效或已经过期")

def ModelTask.clearLease (task : ModelTask) : ModelTask :=
  { task with leaseOwner := none, leaseToken := none, leaseExpiresAt := none }

/-- `_mark_attempts_exhausted`, the row of the task. -/
def ModelTask.exhausted (task : ModelTask) (now : Time) : ModelTask :=
  { task.clearLease with
    status := .failed
    lastErrorCategory := some (task.lastErrorCategory.getD .unknown)
    lastErrorMessage := some "模型任务已达到最大尝试次数"
    completedAt := some (datetime now)
    nextRetryAt := none }

/-- `_apply_lease` -/
def ModelTask.leased (task : ModelTask) (workerId : String) (token : Nat) (now : Time)
    (leaseSeconds : Int) : ModelTask :=
  { task with
    status := .running
    attemptCount := task.attemptCount + 1
    nextRetryAt := none
    leaseOwner := some workerId
    leaseToken := some token
    leaseExpiresAt := some (datetime (now + seconds leaseSeconds.toNat))
    startedAt := some (task.startedAt.getD (datetime now)) }

/-- The task fails for good when its attempts are used up, and is leased otherwise. -/
def takeLease (db : TaskDb) (task : ModelTask) (workerId : String) (now : Time)
    (leaseSeconds : Int) : Except TaskFailure (TaskDb × Option Nat) := do
  if task.maxAttempts ≤ task.attemptCount then
    let written ← flush db (task.exhausted now)
    pure (markApprovalManualRequired written task, some task.id)
  else
    let written ← flush db (task.leased workerId db.nextId now leaseSeconds)
    pure ({ written with nextId := db.nextId + 1 }, some task.id)

def leaseTask (db : TaskDb) (taskId : Nat) (workerId : String) (leaseSeconds : Int)
    (now : Time) : Except TaskFailure (TaskDb × Option Nat) := do
  let worker ← validatedLeaseRequest workerId leaseSeconds
  let task ← lockedTask db taskId
  if task.runtimeKind = .langGraph then pure (db, none)
  else if LeaseEligible task now then takeLease db task worker now leaseSeconds
  else pure (db, none)

/-- The place of a task in the order of `lease_next`. -/
def ModelTask.rank (task : ModelTask) : Nat :=
  match task.status with
  | .pending => 0
  | .retryWait => 1
  | _ => 2

/-- One task comes before another one. -/
def ModelTask.Sooner (one two : ModelTask) : Prop :=
  one.rank < two.rank ∨ (one.rank = two.rank ∧ one.id ≤ two.id)

instance : DecidableRel ModelTask.Sooner := fun one two =>
  inferInstanceAs (Decidable (one.rank < two.rank ∨ _))

/-- The eligible tasks that other workers have not locked, in order. -/
def candidates (db : TaskDb) (taskTypes : Option (List ModelTaskType)) (locked : List Nat)
    (now : Time) : List ModelTask :=
  (db.tasks.rows.filter fun task =>
    LeaseEligible task now ∧ task.runtimeKind ≠ .langGraph ∧ task.id ∉ locked ∧
      ∀ types ∈ taskTypes, task.taskType ∈ types).insertionSort ModelTask.Sooner

/-- Lease the first task that is due; rows that other workers have locked are skipped. -/
def leaseNext (db : TaskDb) (workerId : String) (taskTypes : Option (List ModelTaskType))
    (leaseSeconds : Int) (locked : List Nat) (now : Time) :
    Except TaskFailure (TaskDb × Option Nat) := do
  let worker ← validatedLeaseRequest workerId leaseSeconds
  require (taskTypes ≠ some []) (.invalid "模型任务类型过滤条件无效")
  match (candidates db taskTypes locked now).head? with
  | none => pure (db, none)
  | some task => takeLease db task worker now leaseSeconds

/-! ### The operations of a worker -/

/-- The row of a task that is done; the usage has been validated. -/
def ModelTask.succeeded (task : ModelTask) (result : Snapshot) (usage : ModelUsage)
    (now : Time) : ModelTask :=
  { task.clearLease with
    status := .succeeded
    resultSnapshot := some result
    usage := some usage
    lastErrorCategory := none
    lastErrorMessage := none
    completedAt := some (datetime now)
    nextRetryAt := none }

def completeSuccess [Unicode] (db : TaskDb) (taskId leaseToken : Nat) (result : Snapshot)
    (usage : ModelUsage) (now : Time) : Except TaskFailure TaskDb := do
  let stored ← validatedUsage usage
  let task ← lockedTask db taskId
  requireActiveLease task leaseToken now
  flush db (task.succeeded result stored now)

/-- The row of a task that is to be tried again. -/
def ModelTask.deferred (task : ModelTask) (errorCategory : ModelTaskErrorCategory)
    (nextRetryAt : Time) (errorMessage : Option String) : ModelTask :=
  { task.clearLease with
    status := .retryWait
    nextRetryAt := some (datetime nextRetryAt)
    lastErrorCategory := some errorCategory
    lastErrorMessage := normalized 500 errorMessage
    completedAt := none }

def deferRetry (db : TaskDb) (taskId leaseToken : Nat) (errorCategory : ModelTaskErrorCategory)
    (nextRetryAt : Time) (errorMessage : Option String) (now : Time) :
    Except TaskFailure TaskDb := do
  require (now < nextRetryAt) (.invalid "下次重试时间必须晚于当前时间")
  let task ← lockedTask db taskId
  requireActiveLease task leaseToken now
  flush db (task.deferred errorCategory nextRetryAt errorMessage)

/-- The row of a task that is ended with an error. -/
def ModelTask.ended (task : ModelTask) (target : ModelTaskStatus)
    (errorCategory : ModelTaskErrorCategory) (errorMessage : Option String)
    (usage : Option ModelUsage) (now : Time) : ModelTask :=
  { task.clearLease with
    status := target
    lastErrorCategory := some errorCategory
    lastErrorMessage := normalized 500 errorMessage
    usage := usage.or task.usage
    completedAt := some (datetime now)
    nextRetryAt := none }

/-- `_validated_usage` of a usage that may be absent. -/
def validatedOptional [Unicode] : Option ModelUsage → Except TaskFailure (Option ModelUsage)
  | none => pure none
  | some usage => (validatedUsage usage).map some

/-- `_complete_error` -/
def completeError [Unicode] (db : TaskDb) (taskId leaseToken : Nat) (target : ModelTaskStatus)
    (errorCategory : ModelTaskErrorCategory) (errorMessage : Option String)
    (usage : Option ModelUsage) (now : Time) : Except TaskFailure TaskDb := do
  let task ← lockedTask db taskId
  requireActiveLease task leaseToken now
  let stored ← validatedOptional usage
  let written ← flush db (task.ended target errorCategory errorMessage stored now)
  pure (if target = .failed then markApprovalManualRequired written task else written)

def failTask [Unicode] (db : TaskDb) (taskId leaseToken : Nat)
    (errorCategory : ModelTaskErrorCategory) (errorMessage : Option String) (now : Time) :
    Except TaskFailure TaskDb :=
  completeError db taskId leaseToken .failed errorCategory errorMessage none now

def markStale [Unicode] (db : TaskDb) (taskId leaseToken : Nat) (errorMessage : Option String)
    (usage : Option ModelUsage) (now : Time) : Except TaskFailure TaskDb :=
  completeError db taskId leaseToken .stale .businessConflict errorMessage usage now

def cancelWithLease [Unicode] (db : TaskDb) (taskId leaseToken : Nat) (errorMessage : String)
    (now : Time) : Except TaskFailure TaskDb :=
  completeError db taskId leaseToken .cancelled .businessConflict (some errorMessage) none now

/-- The row of a task whose lease is extended. -/
def ModelTask.renewed (task : ModelTask) (duration : Int) (now : Time) : ModelTask :=
  { task with leaseExpiresAt := some (datetime (now + seconds duration.toNat)) }

def renewLease (db : TaskDb) (taskId leaseToken : Nat) (duration : Int) (now : Time) :
    Except TaskFailure TaskDb := do
  require (1 ≤ duration ∧ duration ≤ 3600) (.value "Invalid lease renewal duration")
  let task ← lockedTask db taskId
  requireActiveLease task leaseToken now
  flush db (task.renewed duration now)

/-! ### The operations of the seller -/

/-- `_seller_task_row`: a task of the seller's goods, of the older runtime. -/
def sellerTaskRow (db : TaskDb) (seller : String) (taskId : Nat) :
    Except TaskFailure ModelTask := do
  let refused := TaskFailure.notFound "模型任务不存在或当前卖家无权访问"
  let task ← expect (db.tasks.get taskId) refused
  let session ← expect (db.others.sessions task.sessionId) refused
  require (db.others.sellers session.productId = some seller) refused
  require (task.runtimeKind ≠ .langGraph) (.conflict "新版图任务必须通过 GraphRunner 恢复")
  pure task

/-- The request that the reply to a chat is stored under, if the snapshot names one. -/
def ModelTask.replyRequestId (task : ModelTask) : Option String :=
  match task.inputSnapshot.find? fun field => field.1 = "reply_request_id" with
  | some (_, .text requestId) => some requestId
  | _ => none

/-- `_require_unfinished_business` -/
def requireUnfinishedBusiness (db : TaskDb) (task : ModelTask) : Except TaskFailure Unit :=
  match task.taskType with
  | .chatDecision =>
    require (∀ requestId ∈ task.replyRequestId,
      db.others.messages task.sessionId requestId = false) (.conflict "聊天回复已经存在，无需重试")
  | .approvalFollowup => do
    let approval ← expect (task.approvalId.bind db.others.approvals)
      (.conflict "审批记录已经不存在")
    require (approval.followupStatus ≠ some .sent) (.conflict "审批通知已经发送，无需重试")

/-- The follow-up of the task's approval has failed, until it is tried again. -/
def markApprovalFailed (db : TaskDb) (task : ModelTask) : TaskDb :=
  match task.approvalId with
  | none => db
  | some approvalId =>
    match db.others.approvals approvalId with
    | none => db
    | some approval =>
      { db with
        others :=
          { db.others with
            approvals := Function.update db.others.approvals approvalId
              (some { approval with followupStatus := some .failed }) } }

/-- The row of a task that the seller has tried again. -/
def ModelTask.retried (task : ModelTask) (seller : String) (reason : Option String)
    (now : Time) : ModelTask :=
  { task.clearLease with
    status := .pending
    maxAttempts := task.maxAttempts + 1
    manualRetryCount := task.manualRetryCount + 1
    nextRetryAt := none
    completedAt := none
    lastManualAction := some (.retry, seller, normalized 300 reason, datetime now) }

def retryFailed (db : TaskDb) (seller : String) (taskId : Nat) (reason : Option String)
    (now : Time) : Except TaskFailure TaskDb := do
  let task ← sellerTaskRow db seller taskId
  require (task.status = .failed) (.conflict "只有终止失败的任务可以人工重试")
  requireUnfinishedBusiness db task
  let written ← flush db (task.retried seller reason now)
  pure (markApprovalFailed written task)

/-- `_persist_chat_termination`: the chat is answered that it was given up. -/
def persistChatTermination (db : TaskDb) (task : ModelTask) : TaskDb :=
  match task.replyRequestId with
  | none => db
  | some requestId =>
    if requestId = "" then db
    else
      { db with
        others :=
          { db.others with
            messages := Function.update db.others.messages task.sessionId
              (Function.update (db.others.messages task.sessionId) requestId true) } }

/-- The task is executed under a lease that is not over. -/
def RunningUnexpired (task : ModelTask) (now : Time) : Prop :=
  task.status = .running ∧ ∀ end_ ∈ task.leaseExpiresAt, now < end_

instance (task : ModelTask) (now : Time) : Decidable (RunningUnexpired task now) := by
  unfold RunningUnexpired
  infer_instance

/-- The row of a task that the seller has given up. -/
def ModelTask.terminated (task : ModelTask) (seller : String) (reason : Option String)
    (now : Time) : ModelTask :=
  { task.clearLease with
    status := .cancelled
    nextRetryAt := none
    completedAt := some (datetime now)
    lastManualAction := some (.terminate, seller, normalized 300 reason, datetime now) }

def terminate (db : TaskDb) (seller : String) (taskId : Nat) (reason : Option String)
    (now : Time) : Except TaskFailure TaskDb := do
  let task ← sellerTaskRow db seller taskId
  require (¬ RunningUnexpired task now) (.conflict "运行中且租约未过期的任务不能终止")
  require (task.status = .pending ∨ task.status = .running ∨ task.status = .retryWait ∨
    task.status = .failed) (.conflict "当前任务状态不允许人工终止")
  let written ← flush db (task.terminated seller reason now)
  match task.taskType with
  | .chatDecision => pure (persistChatTermination written task)
  | .approvalFollowup => pure (markApprovalManualRequired written task)

/-! ### The system -/

/-- An operation of a worker, of the seller or of the service that creates the tasks; or the
other services change their rows. The times are those of the caller, in any order. -/
inductive TaskEvent where
  | createTask (taskType : ModelTaskType) (businessKey : String) (sessionId : Nat)
      (inputSnapshot : Snapshot) (offerId approvalId : Option Nat)
      (snapshotSchemaVersion maxAttempts : Int)
  | leaseTask (taskId : Nat) (workerId : String) (leaseSeconds : Int) (now : Time)
  | leaseNext (workerId : String) (taskTypes : Option (List ModelTaskType)) (leaseSeconds : Int)
      (locked : List Nat) (now : Time)
  | completeSuccess (taskId leaseToken : Nat) (result : Snapshot) (usage : ModelUsage)
      (now : Time)
  | deferRetry (taskId leaseToken : Nat) (errorCategory : ModelTaskErrorCategory)
      (nextRetryAt : Time) (errorMessage : Option String) (now : Time)
  | failTask (taskId leaseToken : Nat) (errorCategory : ModelTaskErrorCategory)
      (errorMessage : Option String) (now : Time)
  | markStale (taskId leaseToken : Nat) (errorMessage : Option String)
      (usage : Option ModelUsage) (now : Time)
  | cancelWithLease (taskId leaseToken : Nat) (errorMessage : String) (now : Time)
  | renewLease (taskId leaseToken : Nat) (duration : Int) (now : Time)
  | retryFailed (seller : String) (taskId : Nat) (reason : Option String) (now : Time)
  | terminate (seller : String) (taskId : Nat) (reason : Option String) (now : Time)
  | outside (others : Surroundings)

section

variable [Platform] [Unicode]

/-- The database after the operation. -/
def TaskDb.perform (db : TaskDb) : TaskEvent → Except TaskFailure TaskDb
  | .createTask taskType businessKey sessionId inputSnapshot offerId approvalId
      snapshotSchemaVersion maxAttempts =>
    (Legacy.createTask db taskType businessKey sessionId inputSnapshot offerId approvalId
      snapshotSchemaVersion maxAttempts).map (·.1)
  | .leaseTask taskId workerId leaseSeconds now =>
    (Legacy.leaseTask db taskId workerId leaseSeconds now).map (·.1)
  | .leaseNext workerId taskTypes leaseSeconds locked now =>
    (Legacy.leaseNext db workerId taskTypes leaseSeconds locked now).map (·.1)
  | .completeSuccess taskId leaseToken result usage now =>
    Legacy.completeSuccess db taskId leaseToken result usage now
  | .deferRetry taskId leaseToken errorCategory nextRetryAt errorMessage now =>
    Legacy.deferRetry db taskId leaseToken errorCategory nextRetryAt errorMessage now
  | .failTask taskId leaseToken errorCategory errorMessage now =>
    Legacy.failTask db taskId leaseToken errorCategory errorMessage now
  | .markStale taskId leaseToken errorMessage usage now =>
    Legacy.markStale db taskId leaseToken errorMessage usage now
  | .cancelWithLease taskId leaseToken errorMessage now =>
    Legacy.cancelWithLease db taskId leaseToken errorMessage now
  | .renewLease taskId leaseToken duration now =>
    Legacy.renewLease db taskId leaseToken duration now
  | .retryFailed seller taskId reason now => Legacy.retryFailed db seller taskId reason now
  | .terminate seller taskId reason now => Legacy.terminate db seller taskId reason now
  | .outside others => .ok { db with others }

/-- The database after the event: an operation that fails leaves it as it was. -/
def TaskDb.next (db : TaskDb) (event : TaskEvent) : TaskDb :=
  match db.perform event with
  | .ok later => later
  | .error _ => db

/-- The step relation of the tasks. -/
def TaskDb.Step (before : TaskDb) (event : TaskEvent) (after : TaskDb) : Prop :=
  after = before.next event

/-- No task has been created. -/
def TaskDb.Initial (db : TaskDb) : Prop := db.tasks = .empty

end

end Negotiation.Legacy
