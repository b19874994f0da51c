/-
This file proves that the tasks of the older runtime are leased safely. What an
operation can do to a row is said once; from it follow the constraints of the
table, the bound on the attempts, the statuses that are never left and the
results that only the holder of the current lease can store.
-/

import SecondhandAgent.ModelTasks
import SecondhandAgent.Schedule

namespace Negotiation.Legacy

open Store

/-! ### What an operation does to a row -/

/-- What an operation can do to a row; `token` is the next key to hand out. -/
inductive RowMove (event : TaskEvent) (token : Nat) (row : ModelTask) : ModelTask → Prop
  | leased {workerId : String} {leaseSeconds : Int} {now : Time}
      (eligible : LeaseEligible row now) (room : row.attemptCount < row.maxAttempts)
      (made : event = .leaseTask row.id workerId leaseSeconds now ∨
        ∃ taskTypes locked, event = .leaseNext workerId taskTypes leaseSeconds locked now) :
      RowMove event token row (row.leased workerId token now leaseSeconds)
  | exhausted {now : Time} (eligible : LeaseEligible row now)
      (spent : row.maxAttempts ≤ row.attemptCount) :
      RowMove event token row (row.exhausted now)
  | succeeded {leaseToken : Nat} {result : Snapshot} {usage stored : ModelUsage} {now : Time}
      (active : ActiveLease row leaseToken now) (valid : stored.NotNegative)
      (made : event = .completeSuccess row.id leaseToken result usage now) :
      RowMove event token row (row.succeeded result stored now)
  | deferred {leaseToken : Nat} {errorCategory : ModelTaskErrorCategory} {nextRetryAt now : Time}
      {errorMessage : Option String} (active : ActiveLease row leaseToken now) :
      RowMove event token row (row.deferred errorCategory nextRetryAt errorMessage)
  | ended {leaseToken : Nat} {target : ModelTaskStatus} {errorCategory : ModelTaskErrorCategory}
      {errorMessage : Option String} {usage : Option ModelUsage} {now : Time}
      (active : ActiveLease row leaseToken now)
      (kind : target = .failed ∨ target = .stale ∨ target = .cancelled)
      (valid : ∀ stored ∈ usage, stored.NotNegative) :
      RowMove event token row (row.ended target errorCategory errorMessage usage now)
  | renewed {leaseToken : Nat} {duration : Int} {now : Time}
      (active : ActiveLease row leaseToken now) :
      RowMove event token row (row.renewed duration now)
  | retried {seller : String} {reason : Option String} {now : Time}
      (made : event = .retryFailed seller row.id reason now) (failed : row.status = .failed) :
      RowMove event token row (row.retried seller reason now)
  | terminated {seller : String} {reason : Option String} {now : Time}
      (made : event = .terminate seller row.id reason now) (idle : ¬ RunningUnexpired row now)
      (open_ : row.status = .pending ∨ row.status = .running ∨ row.status = .retryWait ∨
        row.status = .failed) :
      RowMove event token row (row.terminated seller reason now)

section

variable {event : TaskEvent} {key : Nat} {row later : ModelTask}

/-- What identifies a row stays. -/
theorem RowMove.identity (move : RowMove event key row later) :
    later.id = row.id ∧ later.taskType = row.taskType ∧ later.businessKey = row.businessKey := by
  cases move <;> exact ⟨rfl, rfl, rfl⟩

/-- The columns of a row that is leased, and of one that is not, are those of its status. -/
theorem RowMove.lawful (move : RowMove event key row later) (lawful : row.Lawful) :
    later.Lawful := by
  have free : ∀ {status : ModelTaskStatus}, status ≠ .running →
      (status = .running ∧ (none : Option String) ≠ none ∧ (none : Option Nat) ≠ none ∧
          (none : Option Time) ≠ none) ∨
        (status ≠ .running ∧ (none : Option String) = none ∧ (none : Option Nat) = none ∧
          (none : Option Time) = none) := fun idle => .inr ⟨idle, rfl, rfl, rfl⟩
  obtain ⟨schema, session, policy, attempts, usage, lease, retry⟩ := lawful
  cases move with
  | leased =>
    exact ⟨schema, session, policy, attempts, usage, .inl ⟨rfl, nofun, nofun, nofun⟩,
      .inr ⟨nofun, rfl⟩⟩
  | exhausted => exact ⟨schema, session, policy, attempts, usage, free nofun, .inr ⟨nofun, rfl⟩⟩
  | succeeded _ valid =>
    refine ⟨schema, session, policy, attempts, ?_, free nofun, .inr ⟨nofun, rfl⟩⟩
    rintro _ ⟨⟩
    exact valid
  | deferred => exact ⟨schema, session, policy, attempts, usage, free nofun, .inl ⟨rfl, nofun⟩⟩
  | @ended _ target _ _ reported _ _ kind valid =>
    have idle : target ≠ .running ∧ target ≠ .retryWait := by
      rcases kind with rfl | rfl | rfl <;> exact ⟨nofun, nofun⟩
    refine ⟨schema, session, policy, attempts, fun stored member => ?_, free idle.1,
      .inr ⟨idle.2, rfl⟩⟩
    rcases Option.or_eq_some_iff.mp member with given | ⟨_, old⟩
    · exact valid stored given
    · exact usage stored old
  | renewed active =>
    obtain ⟨_, owner, held, _⟩ | ⟨idle, _⟩ := lease
    · exact ⟨schema, session, policy, attempts, usage, .inl ⟨active.1, owner, held, nofun⟩, retry⟩
    · exact absurd active.1 idle
  | retried =>
    exact ⟨schema, session, policy, Nat.succ_pos _, usage, free nofun, .inr ⟨nofun, rfl⟩⟩
  | terminated => exact ⟨schema, session, policy, attempts, usage, free nofun, .inr ⟨nofun, rfl⟩⟩

/-- The attempts stay within their bound, which only the seller raises. -/
theorem RowMove.attempts (move : RowMove event token row later)
    (within : row.attemptCount ≤ row.maxAttempts) :
    later.attemptCount ≤ later.maxAttempts ∧
      (later.maxAttempts = row.maxAttempts ∨
        ∃ seller reason now, event = .retryFailed seller row.id reason now) := by
  cases move with
  | leased _ room => exact ⟨room, .inl rfl⟩
  | retried made => exact ⟨Nat.le_succ_of_le within, .inr ⟨_, _, _, made⟩⟩
  | _ => exact ⟨within, .inl rfl⟩

/-- The token of a row after the operation is the old one or the new key. -/
theorem RowMove.token (move : RowMove event key row later) :
    later.leaseToken = none ∨ later.leaseToken = row.leaseToken ∨
      later.leaseToken = some key := by
  cases move with
  | leased => exact .inr (.inr rfl)
  | renewed => exact .inr (.inl rfl)
  | _ => exact .inl rfl

/-- A task that is done, late or given up stays so, and a failed task is left by the seller. -/
theorem RowMove.status (move : RowMove event key row later) :
    row.status ≠ .succeeded ∧ row.status ≠ .stale ∧ row.status ≠ .cancelled ∧
      (row.status = .failed → (∃ seller reason now, event = .retryFailed seller row.id reason now) ∨
        ∃ seller reason now, event = .terminate seller row.id reason now) := by
  have running : ∀ {leaseToken now}, ActiveLease row leaseToken now → row.status = .running :=
    fun active => active.1
  have eligible_ : ∀ {now}, LeaseEligible row now →
      row.status = .pending ∨ row.status = .retryWait ∨ row.status = .running := by
    rintro now (pending | ⟨waiting, _⟩ | ⟨running, _⟩)
    · exact .inl pending
    · exact .inr (.inl waiting)
    · exact .inr (.inr running)
  cases move with
  | leased eligible | exhausted eligible =>
    rcases eligible_ eligible with status | status | status <;> rw [status] <;>
      exact ⟨nofun, nofun, nofun, nofun⟩
  | succeeded active | deferred active | ended active | renewed active =>
    rw [running active]
    exact ⟨nofun, nofun, nofun, nofun⟩
  | retried made failed =>
    rw [failed]
    exact ⟨nofun, nofun, nofun, fun _ => .inl ⟨_, _, _, made⟩⟩
  | terminated made _ open_ =>
    rcases open_ with status | status | status | status <;> rw [status] <;>
      exact ⟨nofun, nofun, nofun, fun _ => .inr ⟨_, _, _, made⟩⟩

/-- A result is stored under the lease of the task, which is not over. -/
theorem RowMove.result (move : RowMove event key row later) :
    later.resultSnapshot = row.resultSnapshot ∨
      ∃ leaseToken result usage now,
        event = .completeSuccess row.id leaseToken result usage now ∧
          ActiveLease row leaseToken now ∧ later.resultSnapshot = some result ∧
          later.status = .succeeded := by
  cases move with
  | succeeded active _ made => exact .inr ⟨_, _, _, _, made, active, rfl, rfl⟩
  | _ => exact .inl rfl

end

/-! ### The table -/

/-- The table of the tasks: the rows satisfy the constraints and have attempts left or used up,
tokens and business keys belong to one task, and a result belongs to a task that is done. -/
structure Sound (db : TaskDb) : Prop where
  below : db.tasks.Below db.nextId
  lawful : ∀ row ∈ db.tasks, row.Lawful
  attempts : ∀ row ∈ db.tasks, row.attemptCount ≤ row.maxAttempts
  issued : ∀ row ∈ db.tasks, ∀ token ∈ row.leaseToken, token < db.nextId
  tokens : ∀ one ∈ db.tasks, ∀ two ∈ db.tasks, one.leaseToken ≠ none →
    two.leaseToken = one.leaseToken → two = one
  keys : ∀ one ∈ db.tasks, ∀ two ∈ db.tasks, two.taskType = one.taskType →
    two.businessKey = one.businessKey → two = one
  results : ∀ row ∈ db.tasks, row.resultSnapshot ≠ none → row.status = .succeeded

/-- What an operation does to the table. -/
inductive TableMove (db : TaskDb) (event : TaskEvent) (after : TaskDb) : Prop
  | kept (tasks : after.tasks = db.tasks) (supply : after.nextId = db.nextId)
  | created {row : ModelTask} (key : row.id = db.nextId) (lawful : row.Lawful)
      (fresh : ∀ other ∈ db.tasks,
        ¬ (other.taskType = row.taskType ∧ other.businessKey = row.businessKey))
      (pending : row.status = .pending) (unused : row.attemptCount = 0)
      (unleased : row.leaseToken = none) (unanswered : row.resultSnapshot = none)
      (tasks : after.tasks = db.tasks.insertIgnore row) (supply : after.nextId = db.nextId + 1)
  | changed {row later : ModelTask} (found : db.tasks.get row.id = some row)
      (move : RowMove event db.nextId row later)
      (tasks : after.tasks = db.tasks.put later)
      (supply : after.nextId = db.nextId + 1 ∨
        (after.nextId = db.nextId ∧ later.leaseToken ≠ some db.nextId))

section

variable {db after : TaskDb} {event : TaskEvent} {row later : ModelTask}

/-- The row that an operation leaves does not clash with another one. -/
theorem Sound.single (sound : Sound db) (found : db.tasks.get row.id = some row)
    (move : RowMove event db.nextId row later) : ¬ Duplicated db later := by
  obtain ⟨id, type, name⟩ := move.identity
  have member := Table.mem_of_get found
  rintro ⟨other, listed, apart, ⟨held, same⟩ | ⟨sameType, sameName⟩⟩
  · rcases move.token with none | old | new
    · exact held none
    · rw [old] at held same
      exact apart ((congrArg ModelTask.id (sound.tokens row member other listed held same)).trans
        id.symm)
    · rw [new] at same
      exact absurd (sound.issued other listed db.nextId same) (Nat.lt_irrefl _)
  · rw [type] at sameType
    rw [name] at sameName
    exact apart ((congrArg ModelTask.id
      (sound.keys row member other listed sameType sameName)).trans id.symm)

/-- What an operation makes of a row is written: the database refuses nothing. -/
theorem Sound.flush (sound : Sound db) (found : db.tasks.get row.id = some row)
    (move : RowMove event db.nextId row later) :
    Legacy.flush db later = .ok { db with tasks := db.tasks.put later } := by
  have lawful := move.lawful (sound.lawful row (Table.mem_of_get found))
  unfold Legacy.flush
  rw [require_ok lawful, require_ok (sound.single found move)]
  rfl

/-- Every move keeps the table sound. -/
theorem TableMove.sound (sound : Sound db) (move : TableMove db event after) : Sound after := by
  cases move with
  | kept tasks supply =>
    obtain ⟨below, lawful, attempts, issued, tokens, keys, results⟩ := sound
    rw [← tasks] at lawful attempts issued tokens keys results below
    rw [← supply] at issued below
    exact ⟨below, lawful, attempts, issued, tokens, keys, results⟩
  | @created new key lawful fresh pending unused unleased unanswered tasks supply =>
    refine ⟨?_, ?_, ?_, ?_, ?_, ?_, ?_⟩ <;> rw [tasks]
    · rw [supply]
      exact (sound.below.mono (Nat.le_succ _)).insertIgnore (key.trans_lt (Nat.lt_succ_self _))
    · intro row member
      rcases Table.mem_insertIgnore member with rfl | old
      · exact lawful
      · exact sound.lawful row old
    · intro row member
      rcases Table.mem_insertIgnore member with rfl | old
      · rw [unused]
        exact Nat.zero_le _
      · exact sound.attempts row old
    · intro row member token held
      rcases Table.mem_insertIgnore member with rfl | old
      · exact nomatch unleased.symm.trans held
      · rw [supply]
        exact Nat.lt_succ_of_lt (sound.issued row old token held)
    · intro one first two second held same
      rcases Table.mem_insertIgnore first with rfl | old
      · exact absurd unleased held
      · rcases Table.mem_insertIgnore second with rfl | older
        · exact absurd (same.symm.trans unleased) held
        · exact sound.tokens one old two older held same
    · intro one first two second type name
      rcases Table.mem_insertIgnore first with rfl | old <;>
        rcases Table.mem_insertIgnore second with rfl | older
      · rfl
      · exact absurd ⟨type, name⟩ (fresh two older)
      · exact absurd ⟨type.symm, name.symm⟩ (fresh one old)
      · exact sound.keys one old two older type name
    · intro row member stored
      rcases Table.mem_insertIgnore member with rfl | old
      · exact absurd unanswered stored
      · exact sound.results row old stored
  | @changed row later found move tasks supply =>
    obtain ⟨id, type, name⟩ := move.identity
    have present := Table.mem_of_get found
    have grown : db.nextId ≤ after.nextId := by
      rcases supply with next | ⟨same, _⟩ <;> omega
    have single := sound.single found move
    -- Of another row and the new one, each has its own token and its own business key.
    have apart : ∀ other ∈ db.tasks, other.id ≠ later.id →
        ¬ ((later.leaseToken ≠ none ∧ other.leaseToken = later.leaseToken) ∨
          (other.taskType = later.taskType ∧ other.businessKey = later.businessKey)) :=
      fun other listed different clash => single ⟨other, listed, different, clash⟩
    refine ⟨?_, ?_, ?_, ?_, ?_, ?_, ?_⟩ <;> rw [tasks]
    · exact (sound.below.mono grown).put
    · intro other member
      rcases Table.mem_of_mem_put member with old | rfl
      · exact sound.lawful other old
      · exact move.lawful (sound.lawful row present)
    · intro other member
      rcases Table.mem_of_mem_put member with old | rfl
      · exact sound.attempts other old
      · exact (move.attempts (sound.attempts row present)).1
    · intro other member token held
      rcases Table.mem_of_mem_put member with old | rfl
      · exact (sound.issued other old token held).trans_le grown
      · rcases move.token with none | same | new
        · exact nomatch none.symm.trans held
        · exact (sound.issued row present token (same ▸ held)).trans_le grown
        · obtain rfl : db.nextId = token := Option.some.inj (new.symm.trans held)
          rcases supply with next | ⟨_, other⟩
          · omega
          · exact absurd new other
    · intro one first two second held same
      rcases Table.mem_put.mp first with ⟨old, different⟩ | ⟨rfl, _⟩ <;>
        rcases Table.mem_put.mp second with ⟨older, other⟩ | ⟨rfl, _⟩
      · exact sound.tokens one old two older held same
      · exact absurd (.inl ⟨same ▸ held, same.symm⟩) (apart one old different)
      · exact absurd (.inl ⟨held, same⟩) (apart two older other)
      · rfl
    · intro one first two second sameType sameName
      rcases Table.mem_put.mp first with ⟨old, different⟩ | ⟨rfl, _⟩ <;>
        rcases Table.mem_put.mp second with ⟨older, other⟩ | ⟨rfl, _⟩
      · exact sound.keys one old two older sameType sameName
      · exact absurd (.inr ⟨sameType.symm, sameName.symm⟩) (apart one old different)
      · exact absurd (.inr ⟨sameType, sameName⟩) (apart two older other)
      · rfl
    · intro other member stored
      rcases Table.mem_of_mem_put member with old | rfl
      · exact sound.results other old stored
      · rcases move.result with same | ⟨_, _, _, _, _, _, _, done⟩
        · rw [same] at stored
          exact absurd (sound.results row present stored) move.status.1
        · exact done

end

/-! ### The operations -/

section

variable {db after written : TaskDb} {event : TaskEvent} {task row : ModelTask}
variable {taskId leaseToken : Nat} {now : Time}

theorem flush_eq_ok : flush db row = .ok after ↔
    row.Lawful ∧ ¬ Duplicated db row ∧ after = { db with tasks := db.tasks.put row } := by
  unfold flush
  simp only [bind_eq_ok, require_eq_ok, pure_eq_ok, eq_comm (b := after)]
  constructor
  · rintro ⟨_, lawful, _, single, same⟩
    exact ⟨lawful, single, same⟩
  · rintro ⟨lawful, single, same⟩
    exact ⟨(), lawful, (), single, same⟩

theorem markApprovalManualRequired_table (db : TaskDb) (task : ModelTask) :
    (markApprovalManualRequired db task).tasks = db.tasks ∧
      (markApprovalManualRequired db task).nextId = db.nextId := by
  unfold markApprovalManualRequired
  split
  · exact ⟨rfl, rfl⟩
  · split
    · exact ⟨rfl, rfl⟩
    · split <;> exact ⟨rfl, rfl⟩

theorem markApprovalFailed_table (db : TaskDb) (task : ModelTask) :
    (markApprovalFailed db task).tasks = db.tasks ∧
      (markApprovalFailed db task).nextId = db.nextId := by
  unfold markApprovalFailed
  split
  · exact ⟨rfl, rfl⟩
  · split <;> exact ⟨rfl, rfl⟩

theorem persistChatTermination_table (db : TaskDb) (task : ModelTask) :
    (persistChatTermination db task).tasks = db.tasks ∧
      (persistChatTermination db task).nextId = db.nextId := by
  unfold persistChatTermination
  split
  · exact ⟨rfl, rfl⟩
  · split <;> exact ⟨rfl, rfl⟩

/-- A row is written, and the rest of the operation leaves the table alone. -/
theorem TableMove.of_flush {later : ModelTask} (found : db.tasks.get task.id = some task)
    (move : RowMove event db.nextId task later) (done : flush db later = .ok written)
    (unleased : later.leaseToken = none ∨ later.leaseToken = task.leaseToken)
    (issued : ∀ token ∈ task.leaseToken, token ≠ db.nextId)
    (table : after.tasks = written.tasks ∧ after.nextId = written.nextId) :
    TableMove db event after := by
  obtain ⟨_, _, rfl⟩ := flush_eq_ok.mp done
  refine .changed found move table.1 (.inr ⟨table.2, fun new => ?_⟩)
  rcases unleased with none | same
  · exact nomatch none.symm.trans new
  · exact issued db.nextId (same ▸ new) rfl

theorem lockedTask_eq_ok (done : lockedTask db taskId = .ok task) :
    task.id = taskId ∧ db.tasks.get task.id = some task := by
  unfold lockedTask at done
  have found := (expect_eq_ok _ _ _).mp done
  obtain rfl := Table.key_of_get found
  exact ⟨rfl, found⟩

/-- Leasing a task that is eligible: it fails for good or gets the next key as its token. -/
theorem takeLease_move {workerId : String} {leaseSeconds : Int} {result : TaskDb × Option Nat}
    (sound : Sound db) (found : db.tasks.get task.id = some task)
    (eligible : LeaseEligible task now)
    (made : event = .leaseTask task.id workerId leaseSeconds now ∨
      ∃ taskTypes locked, event = .leaseNext workerId taskTypes leaseSeconds locked now)
    (done : takeLease db task workerId now leaseSeconds = .ok result) :
    TableMove db event result.1 := by
  unfold takeLease at done
  split at done
  · next spent =>
    simp only [bind_eq_ok, pure_eq_ok] at done
    obtain ⟨written, flushed, rfl⟩ := done
    refine .of_flush found (.exhausted eligible spent) flushed (.inl rfl) ?_
      (markApprovalManualRequired_table _ _)
    exact fun token held => (sound.issued task (Table.mem_of_get found) token held).ne
  · next room =>
    simp only [bind_eq_ok, pure_eq_ok] at done
    obtain ⟨written, flushed, rfl⟩ := done
    obtain ⟨_, _, rfl⟩ := flush_eq_ok.mp flushed
    exact .changed found (.leased eligible (Nat.lt_of_not_le room) made) rfl (.inl rfl)

theorem validatedIdentifier_eq_ok {text fieldName stored : String} {maxLength : Nat}
    (done : validatedIdentifier text fieldName maxLength = .ok stored) : stored = text := by
  unfold validatedIdentifier at done
  simp only [bind_eq_ok, pure_eq_ok] at done
  obtain ⟨_, _, rfl⟩ := done
  rfl

theorem validatedLeaseRequest_eq_ok {workerId stored : String} {leaseSeconds : Int}
    (done : validatedLeaseRequest workerId leaseSeconds = .ok stored) : stored = workerId := by
  unfold validatedLeaseRequest at done
  simp only [bind_eq_ok, pure_eq_ok] at done
  obtain ⟨_, identified, _, _, rfl⟩ := done
  exact validatedIdentifier_eq_ok identified

theorem leaseTask_move {workerId : String} {leaseSeconds : Int} {result : TaskDb × Option Nat}
    (sound : Sound db) (done : leaseTask db taskId workerId leaseSeconds now = .ok result) :
    TableMove db (.leaseTask taskId workerId leaseSeconds now) result.1 := by
  unfold leaseTask at done
  simp only [bind_eq_ok] at done
  obtain ⟨worker, requested, task, locked, rest⟩ := done
  obtain ⟨rfl, found⟩ := lockedTask_eq_ok locked
  obtain rfl := validatedLeaseRequest_eq_ok requested
  split at rest
  · obtain rfl := (pure_eq_ok _ _).mp rest
    exact .kept rfl rfl
  · split at rest
    · next eligible => exact takeLease_move sound found eligible (.inl rfl) rest
    · obtain rfl := (pure_eq_ok _ _).mp rest
      exact .kept rfl rfl

/-- A candidate is a row that is eligible. -/
theorem of_head_candidates {taskTypes : Option (List ModelTaskType)} {locked : List Nat}
    (head : (candidates db taskTypes locked now).head? = some task) :
    db.tasks.get task.id = some task ∧ LeaseEligible task now := by
  have member : task ∈ candidates db taskTypes locked now := List.mem_of_head? head
  unfold candidates at member
  have listed := (List.perm_insertionSort ModelTask.Sooner _).mem_iff.mp member
  obtain ⟨row, chosen⟩ := List.mem_filter.mp listed
  exact ⟨Table.get_of_mem row, (of_decide_eq_true chosen).1⟩

theorem leaseNext_move {workerId : String} {taskTypes : Option (List ModelTaskType)}
    {leaseSeconds : Int} {locked : List Nat} {result : TaskDb × Option Nat} (sound : Sound db)
    (done : leaseNext db workerId taskTypes leaseSeconds locked now = .ok result) :
    TableMove db (.leaseNext workerId taskTypes leaseSeconds locked now) result.1 := by
  unfold leaseNext at done
  simp only [bind_eq_ok] at done
  obtain ⟨worker, requested, _, _, rest⟩ := done
  obtain rfl := validatedLeaseRequest_eq_ok requested
  split at rest
  · obtain rfl := (pure_eq_ok _ _).mp rest
    exact .kept rfl rfl
  · next task head =>
    obtain ⟨found, eligible⟩ := of_head_candidates head
    exact takeLease_move sound found eligible (.inr ⟨_, _, rfl⟩) rest

theorem requireActiveLease_eq_ok {done : Unit}
    (checked : requireActiveLease task leaseToken now = .ok done) :
    ActiveLease task leaseToken now := (require_eq_ok _ _ _).mp checked

section

variable [Unicode]

theorem validatedUsage_notNegative {usage stored : ModelUsage}
    (done : validatedUsage usage = .ok stored) : stored.NotNegative := by
  unfold validatedUsage at done
  simp only [bind_eq_ok, pure_eq_ok, require_eq_ok] at done
  obtain ⟨_, _, _, _, _, counts, _, prices, _, _, rfl⟩ := done
  intro amount member
  rcases List.mem_append.mp (show amount ∈ [usage.inputTokens, usage.outputTokens,
    usage.cachedInputTokens, usage.totalTokens] ++ [usage.inputPricePerMillion,
    usage.outputPricePerMillion, usage.cachedInputPricePerMillion, usage.estimatedCost]
    from member) with count | price
  · exact counts amount count
  · exact prices amount price

theorem validatedOptional_notNegative {usage stored : Option ModelUsage}
    (done : validatedOptional usage = .ok stored) :
    ∀ valid ∈ stored, valid.NotNegative := by
  cases usage with
  | none =>
    obtain rfl := (pure_eq_ok _ _).mp done
    exact fun valid member => absurd member (Option.not_mem_none valid)
  | some usage =>
    obtain ⟨valid, checked, rfl⟩ := (map_eq_ok _ _ _).mp done
    rintro _ ⟨⟩
    exact validatedUsage_notNegative checked

theorem completeSuccess_move {result : Snapshot} {usage : ModelUsage} (sound : Sound db)
    (done : completeSuccess db taskId leaseToken result usage now = .ok after) :
    TableMove db (.completeSuccess taskId leaseToken result usage now) after := by
  unfold completeSuccess at done
  simp only [bind_eq_ok] at done
  obtain ⟨stored, valid, task, locked, _, active, flushed⟩ := done
  obtain ⟨rfl, found⟩ := lockedTask_eq_ok locked
  refine .of_flush found (.succeeded (requireActiveLease_eq_ok active)
    (validatedUsage_notNegative valid) rfl) flushed (.inl rfl) ?_ ⟨rfl, rfl⟩
  exact fun token held => (sound.issued task (Table.mem_of_get found) token held).ne

theorem completeError_move {target : ModelTaskStatus} {errorCategory : ModelTaskErrorCategory}
    {errorMessage : Option String} {usage : Option ModelUsage} (sound : Sound db)
    (kind : target = .failed ∨ target = .stale ∨ target = .cancelled)
    (done : completeError db taskId leaseToken target errorCategory errorMessage usage now =
      .ok after) : TableMove db event after := by
  unfold completeError at done
  simp only [bind_eq_ok, pure_eq_ok] at done
  obtain ⟨task, locked, _, active, stored, valid, written, flushed, rfl⟩ := done
  obtain ⟨rfl, found⟩ := lockedTask_eq_ok locked
  refine .of_flush found (.ended (requireActiveLease_eq_ok active) kind
    (validatedOptional_notNegative valid)) flushed (.inl rfl) ?_ ?_
  · exact fun token held => (sound.issued task (Table.mem_of_get found) token held).ne
  · split
    · exact markApprovalManualRequired_table _ _
    · exact ⟨rfl, rfl⟩

end

theorem deferRetry_move {errorCategory : ModelTaskErrorCategory} {nextRetryAt : Time}
    {errorMessage : Option String} (sound : Sound db)
    (done : deferRetry db taskId leaseToken errorCategory nextRetryAt errorMessage now =
      .ok after) : TableMove db event after := by
  unfold deferRetry at done
  simp only [bind_eq_ok] at done
  obtain ⟨_, _, task, locked, _, active, flushed⟩ := done
  obtain ⟨rfl, found⟩ := lockedTask_eq_ok locked
  refine .of_flush found (.deferred (requireActiveLease_eq_ok active)) flushed (.inl rfl) ?_
    ⟨rfl, rfl⟩
  exact fun token held => (sound.issued task (Table.mem_of_get found) token held).ne

theorem renewLease_move {duration : Int} (sound : Sound db)
    (done : renewLease db taskId leaseToken duration now = .ok after) :
    TableMove db event after := by
  unfold renewLease at done
  simp only [bind_eq_ok] at done
  obtain ⟨_, _, task, locked, _, active, flushed⟩ := done
  obtain ⟨rfl, found⟩ := lockedTask_eq_ok locked
  refine .of_flush found (.renewed (requireActiveLease_eq_ok active)) flushed (.inr rfl) ?_
    ⟨rfl, rfl⟩
  exact fun token held => (sound.issued task (Table.mem_of_get found) token held).ne

theorem sellerTaskRow_eq_ok {seller : String} (done : sellerTaskRow db seller taskId = .ok task) :
    task.id = taskId ∧ db.tasks.get task.id = some task := by
  unfold sellerTaskRow at done
  simp only [bind_eq_ok, pure_eq_ok, expect_eq_ok] at done
  obtain ⟨row, found, _, _, _, _, _, _, rfl⟩ := done
  obtain rfl := Table.key_of_get found
  exact ⟨rfl, found⟩

theorem retryFailed_move {seller : String} {reason : Option String} (sound : Sound db)
    (done : retryFailed db seller taskId reason now = .ok after) :
    TableMove db (.retryFailed seller taskId reason now) after := by
  unfold retryFailed at done
  simp only [bind_eq_ok, pure_eq_ok, require_eq_ok] at done
  obtain ⟨task, located, _, failed, _, _, written, flushed, rfl⟩ := done
  obtain ⟨rfl, found⟩ := sellerTaskRow_eq_ok located
  refine .of_flush found (.retried rfl failed) flushed (.inl rfl) ?_ (markApprovalFailed_table _ _)
  exact fun token held => (sound.issued task (Table.mem_of_get found) token held).ne

theorem terminate_move {seller : String} {reason : Option String} (sound : Sound db)
    (done : terminate db seller taskId reason now = .ok after) :
    TableMove db (.terminate seller taskId reason now) after := by
  unfold terminate at done
  simp only [bind_eq_ok, require_eq_ok] at done
  obtain ⟨task, located, _, idle, _, open_, written, flushed, rest⟩ := done
  obtain ⟨rfl, found⟩ := sellerTaskRow_eq_ok located
  refine .of_flush found (.terminated rfl idle open_) flushed (.inl rfl) ?_ ?_
  · exact fun token held => (sound.issued task (Table.mem_of_get found) token held).ne
  · split at rest <;> obtain rfl := (pure_eq_ok _ _).mp rest
    · exact persistChatTermination_table _ _
    · exact markApprovalManualRequired_table _ _

/-! ### Creation -/

theorem captureReferences_positive {others : Surroundings} {taskType : ModelTaskType}
    {sessionId : Nat} {offerId approvalId : Option Nat} {versions : Nat × Nat}
    (done : captureReferences others taskType sessionId offerId approvalId = .ok versions) :
    0 < versions.1 ∧ 0 < versions.2 := by
  unfold captureReferences at done
  simp only [bind_eq_ok] at done
  obtain ⟨negotiation, _, policy, _, _, _, _, _, rest⟩ := done
  split at rest
  · simp only [bind_eq_ok, pure_eq_ok] at rest
    obtain ⟨_, _, rfl⟩ := rest
    exact ⟨negotiation.version_positive, policy.version_positive⟩
  · simp only [bind_eq_ok, pure_eq_ok] at rest
    obtain ⟨_, _, _, _, _, _, rfl⟩ := rest
    exact ⟨negotiation.version_positive, policy.version_positive⟩

theorem createTask_move [Platform] {taskType : ModelTaskType} {businessKey : String}
    {sessionId : Nat} {inputSnapshot : Snapshot} {offerId approvalId : Option Nat}
    {snapshotSchemaVersion maxAttempts : Int} {result : TaskDb × Nat}
    (done : createTask db taskType businessKey sessionId inputSnapshot offerId approvalId
      snapshotSchemaVersion maxAttempts = .ok result) : TableMove db event result.1 := by
  unfold createTask at done
  simp only [bind_eq_ok] at done
  obtain ⟨key, _, _, _, _, _, rest⟩ := done
  split at rest
  · simp only [bind_eq_ok, pure_eq_ok] at rest
    obtain ⟨_, _, rfl⟩ := rest
    exact .kept rfl rfl
  · next absent =>
    simp only [bind_eq_ok, pure_eq_ok] at rest
    obtain ⟨versions, _, tasks, added, written, flushed, rfl⟩ := rest
    obtain ⟨lawful, _, rfl⟩ := flush_eq_ok.mp flushed
    have free := Table.free_of_insert added
    refine .created rfl lawful (fun other listed both => ?_) rfl rfl rfl rfl ?_ rfl
    · have different := List.find?_eq_none.mp absent other listed
      exact different (decide_eq_true both)
    · show tasks.put _ = _
      rw [Table.eq_insertIgnore added]
      exact Table.put_insertIgnore free rfl

/-- What every operation does to the table. -/
theorem perform_move [Platform] [Unicode] (sound : Sound db) (done : db.perform event = .ok after) :
    TableMove db event after := by
  cases event <;> simp only [TaskDb.perform, map_eq_ok, Except.ok.injEq] at done
  case createTask => obtain ⟨result, done, rfl⟩ := done; exact createTask_move done
  case leaseTask => obtain ⟨result, done, rfl⟩ := done; exact leaseTask_move sound done
  case leaseNext => obtain ⟨result, done, rfl⟩ := done; exact leaseNext_move sound done
  case completeSuccess => exact completeSuccess_move sound done
  case deferRetry => exact deferRetry_move sound done
  case failTask => exact completeError_move sound (.inl rfl) done
  case markStale => exact completeError_move sound (.inr (.inl rfl)) done
  case cancelWithLease => exact completeError_move sound (.inr (.inr rfl)) done
  case renewLease => exact renewLease_move sound done
  case retryFailed => exact retryFailed_move sound done
  case terminate => exact terminate_move sound done
  case outside =>
    obtain rfl := done
    exact .kept rfl rfl

end

/-! ### What the database refuses -/

/-- The failure is one that the code raises itself. -/
def Raised (failure : TaskFailure) : Prop := failure ≠ .check ∧ failure ≠ .unique

section

variable {Value Result : Type} {db : TaskDb} {task : ModelTask} {failure : TaskFailure}
variable {event : TaskEvent} {taskId leaseToken : Nat} {now : Time}

/-- A chain fails as the code raises when its parts do. -/
theorem raised_bind {first : Except TaskFailure Value} {next : Value → Except TaskFailure Result}
    (failed : (first >>= next) = .error failure)
    (one : first = .error failure → Raised failure)
    (two : ∀ value, first = .ok value → next value = .error failure → Raised failure) :
    Raised failure := by
  rcases (bind_eq_error _ _ _).mp failed with early | ⟨value, done, late⟩
  · exact one early
  · exact two value done late

theorem raised_require {condition : Prop} [Decidable condition] {fault : TaskFailure}
    (kind : Raised fault) (failed : require condition fault = .error failure) :
    Raised failure := by
  obtain ⟨_, rfl⟩ := (require_eq_error _ _ _).mp failed
  exact kind

theorem raised_expect {found : Option Value} {fault : TaskFailure} (kind : Raised fault)
    (failed : expect found fault = .error failure) : Raised failure := by
  obtain ⟨_, rfl⟩ := (expect_eq_error _ _ _).mp failed
  exact kind

/-- The write of what an operation makes of a row does not fail. -/
theorem raised_flush {later : ModelTask} (sound : Sound db)
    (found : db.tasks.get task.id = some task) (move : RowMove event db.nextId task later)
    (failed : flush db later = .error failure) : Raised failure := by
  rw [sound.flush found move] at failed
  cases failed

theorem validatedIdentifier_raised {text fieldName : String} {maxLength : Nat}
    (failed : validatedIdentifier text fieldName maxLength = .error failure) :
    Raised failure := by
  unfold validatedIdentifier at failed
  exact raised_bind failed (raised_require ⟨nofun, nofun⟩) fun _ _ rest => nomatch rest

theorem validatedLeaseRequest_raised {workerId : String} {leaseSeconds : Int}
    (failed : validatedLeaseRequest workerId leaseSeconds = .error failure) :
    Raised failure := by
  unfold validatedLeaseRequest at failed
  refine raised_bind failed validatedIdentifier_raised fun _ _ failed => ?_
  exact raised_bind failed (raised_require ⟨nofun, nofun⟩) fun _ _ rest => nomatch rest

theorem takeLease_raised {workerId : String} {leaseSeconds : Int} (sound : Sound db)
    (found : db.tasks.get task.id = some task) (eligible : LeaseEligible task now)
    (failed : takeLease db task workerId now leaseSeconds = .error failure) :
    Raised failure := by
  unfold takeLease at failed
  split at failed
  · next spent =>
    refine raised_bind failed (fun refused => ?_) fun _ _ rest => nomatch rest
    have move : RowMove (.leaseTask task.id workerId leaseSeconds now) db.nextId task
        (task.exhausted now) := .exhausted eligible spent
    exact raised_flush sound found move refused
  · next room =>
    refine raised_bind failed (fun refused => ?_) fun _ _ rest => nomatch rest
    exact raised_flush sound found
      (.leased eligible (Nat.lt_of_not_le room) (.inl rfl)) refused

theorem leaseTask_raised {workerId : String} {leaseSeconds : Int} (sound : Sound db)
    (failed : leaseTask db taskId workerId leaseSeconds now = .error failure) :
    Raised failure := by
  unfold leaseTask at failed
  refine raised_bind failed validatedLeaseRequest_raised fun worker _ failed => ?_
  refine raised_bind failed (raised_expect ⟨nofun, nofun⟩) fun task locked failed => ?_
  obtain ⟨_, found⟩ := lockedTask_eq_ok locked
  split at failed
  · cases failed
  · split at failed
    · next eligible => exact takeLease_raised sound found eligible failed
    · cases failed

theorem leaseNext_raised {workerId : String} {taskTypes : Option (List ModelTaskType)}
    {leaseSeconds : Int} {locked : List Nat} (sound : Sound db)
    (failed : leaseNext db workerId taskTypes leaseSeconds locked now = .error failure) :
    Raised failure := by
  unfold leaseNext at failed
  refine raised_bind failed validatedLeaseRequest_raised fun worker _ failed => ?_
  refine raised_bind failed (raised_require ⟨nofun, nofun⟩) fun _ _ failed => ?_
  split at failed
  · cases failed
  · next task head =>
    obtain ⟨found, eligible⟩ := of_head_candidates head
    exact takeLease_raised sound found eligible failed

theorem requireActiveLease_raised
    (failed : requireActiveLease task leaseToken now = .error failure) : Raised failure := by
  unfold requireActiveLease at failed
  refine raised_require ?_ failed
  exact ⟨nofun, nofun⟩

theorem lockedTask_raised (failed : lockedTask db taskId = .error failure) : Raised failure := by
  unfold lockedTask at failed
  refine raised_expect ?_ failed
  exact ⟨nofun, nofun⟩

section

variable [Unicode]

theorem validatedUsage_raised {usage : ModelUsage}
    (failed : validatedUsage usage = .error failure) : Raised failure := by
  unfold validatedUsage at failed
  refine raised_bind failed (raised_require ⟨nofun, nofun⟩) fun _ _ failed => ?_
  refine raised_bind failed (raised_require ⟨nofun, nofun⟩) fun _ _ failed => ?_
  refine raised_bind failed (raised_require ⟨nofun, nofun⟩) fun _ _ failed => ?_
  refine raised_bind failed (raised_require ⟨nofun, nofun⟩) fun _ _ failed => ?_
  exact raised_bind failed (raised_require ⟨nofun, nofun⟩) fun _ _ rest => nomatch rest

theorem validatedOptional_raised {usage : Option ModelUsage}
    (failed : validatedOptional usage = .error failure) : Raised failure := by
  cases usage with
  | none => cases failed
  | some usage =>
    have failed : (validatedUsage usage).map some = .error failure := failed
    cases checked : validatedUsage usage with
    | ok stored =>
      rw [checked] at failed
      cases failed
    | error early =>
      rw [checked] at failed
      obtain rfl : early = failure := Except.error.inj failed
      exact validatedUsage_raised checked

theorem completeSuccess_raised {result : Snapshot} {usage : ModelUsage} (sound : Sound db)
    (failed : completeSuccess db taskId leaseToken result usage now = .error failure) :
    Raised failure := by
  unfold completeSuccess at failed
  refine raised_bind failed validatedUsage_raised fun stored valid failed => ?_
  refine raised_bind failed lockedTask_raised fun task locked failed => ?_
  refine raised_bind failed requireActiveLease_raised fun _ active failed => ?_
  obtain ⟨_, found⟩ := lockedTask_eq_ok locked
  have move : RowMove (.completeSuccess task.id leaseToken result usage now) db.nextId task
      (task.succeeded result stored now) :=
    .succeeded (requireActiveLease_eq_ok active) (validatedUsage_notNegative valid) rfl
  exact raised_flush sound found move failed

theorem completeError_raised {target : ModelTaskStatus} {errorCategory : ModelTaskErrorCategory}
    {errorMessage : Option String} {usage : Option ModelUsage} (sound : Sound db)
    (kind : target = .failed ∨ target = .stale ∨ target = .cancelled)
    (failed : completeError db taskId leaseToken target errorCategory errorMessage usage now =
      .error failure) : Raised failure := by
  unfold completeError at failed
  refine raised_bind failed lockedTask_raised fun task locked failed => ?_
  refine raised_bind failed requireActiveLease_raised fun _ active failed => ?_
  refine raised_bind failed validatedOptional_raised fun stored valid failed => ?_
  obtain ⟨_, found⟩ := lockedTask_eq_ok locked
  refine raised_bind failed (fun refused => ?_) fun _ _ rest => nomatch rest
  have move : RowMove (.outside db.others) db.nextId task
      (task.ended target errorCategory errorMessage stored now) :=
    .ended (requireActiveLease_eq_ok active) kind (validatedOptional_notNegative valid)
  exact raised_flush sound found move refused

end

theorem deferRetry_raised {errorCategory : ModelTaskErrorCategory} {nextRetryAt : Time}
    {errorMessage : Option String} (sound : Sound db)
    (failed : deferRetry db taskId leaseToken errorCategory nextRetryAt errorMessage now =
      .error failure) : Raised failure := by
  unfold deferRetry at failed
  refine raised_bind failed (raised_require ⟨nofun, nofun⟩) fun _ _ failed => ?_
  refine raised_bind failed lockedTask_raised fun task locked failed => ?_
  refine raised_bind failed requireActiveLease_raised fun _ active failed => ?_
  obtain ⟨_, found⟩ := lockedTask_eq_ok locked
  have move : RowMove (.outside db.others) db.nextId task
      (task.deferred errorCategory nextRetryAt errorMessage) :=
    .deferred (requireActiveLease_eq_ok active)
  exact raised_flush sound found move failed

theorem renewLease_raised {duration : Int} (sound : Sound db)
    (failed : renewLease db taskId leaseToken duration now = .error failure) :
    Raised failure := by
  unfold renewLease at failed
  refine raised_bind failed (raised_require ⟨nofun, nofun⟩) fun _ _ failed => ?_
  refine raised_bind failed lockedTask_raised fun task locked failed => ?_
  refine raised_bind failed requireActiveLease_raised fun _ active failed => ?_
  obtain ⟨_, found⟩ := lockedTask_eq_ok locked
  have move : RowMove (.outside db.others) db.nextId task (task.renewed duration now) :=
    .renewed (requireActiveLease_eq_ok active)
  exact raised_flush sound found move failed

theorem sellerTaskRow_raised {seller : String}
    (failed : sellerTaskRow db seller taskId = .error failure) : Raised failure := by
  unfold sellerTaskRow at failed
  refine raised_bind failed (raised_expect ⟨nofun, nofun⟩) fun _ _ failed => ?_
  refine raised_bind failed (raised_expect ⟨nofun, nofun⟩) fun _ _ failed => ?_
  refine raised_bind failed (raised_require ⟨nofun, nofun⟩) fun _ _ failed => ?_
  exact raised_bind failed (raised_require ⟨nofun, nofun⟩) fun _ _ rest => nomatch rest

theorem requireUnfinishedBusiness_raised
    (failed : requireUnfinishedBusiness db task = .error failure) : Raised failure := by
  unfold requireUnfinishedBusiness at failed
  split at failed
  · refine raised_require ?_ failed
    exact ⟨nofun, nofun⟩
  · refine raised_bind failed (raised_expect ⟨nofun, nofun⟩) fun _ _ failed => ?_
    refine raised_require ?_ failed
    exact ⟨nofun, nofun⟩

theorem retryFailed_raised {seller : String} {reason : Option String} (sound : Sound db)
    (failed : retryFailed db seller taskId reason now = .error failure) : Raised failure := by
  unfold retryFailed at failed
  refine raised_bind failed sellerTaskRow_raised fun task located failed => ?_
  refine raised_bind failed (raised_require ⟨nofun, nofun⟩) fun _ status failed => ?_
  refine raised_bind failed requireUnfinishedBusiness_raised fun _ _ failed => ?_
  obtain ⟨_, found⟩ := sellerTaskRow_eq_ok located
  refine raised_bind failed (fun refused => ?_) fun _ _ rest => nomatch rest
  exact raised_flush sound found (.retried rfl ((require_eq_ok _ _ _).mp status)) refused

theorem terminate_raised {seller : String} {reason : Option String} (sound : Sound db)
    (failed : terminate db seller taskId reason now = .error failure) : Raised failure := by
  unfold terminate at failed
  refine raised_bind failed sellerTaskRow_raised fun task located failed => ?_
  refine raised_bind failed (raised_require ⟨nofun, nofun⟩) fun _ idle failed => ?_
  refine raised_bind failed (raised_require ⟨nofun, nofun⟩) fun _ open_ failed => ?_
  obtain ⟨_, found⟩ := sellerTaskRow_eq_ok located
  refine raised_bind failed (fun refused => ?_) fun written _ rest => ?_
  · exact raised_flush sound found
      (.terminated rfl ((require_eq_ok _ _ _).mp idle) ((require_eq_ok _ _ _).mp open_)) refused
  · split at rest <;> cases rest

theorem captureReferences_raised {others : Surroundings} {taskType : ModelTaskType}
    {sessionId : Nat} {offerId approvalId : Option Nat}
    (failed : captureReferences others taskType sessionId offerId approvalId = .error failure) :
    Raised failure := by
  unfold captureReferences at failed
  refine raised_bind failed (raised_expect ⟨nofun, nofun⟩) fun _ _ failed => ?_
  refine raised_bind failed (raised_expect ⟨nofun, nofun⟩) fun _ _ failed => ?_
  refine raised_bind failed (raised_require ⟨nofun, nofun⟩) fun _ _ failed => ?_
  refine raised_bind failed (raised_require ⟨nofun, nofun⟩) fun _ _ failed => ?_
  split at failed
  · exact raised_bind failed (raised_require ⟨nofun, nofun⟩) fun _ _ rest => nomatch rest
  · refine raised_bind failed (raised_expect ⟨nofun, nofun⟩) fun _ _ failed => ?_
    refine raised_bind failed (raised_require ⟨nofun, nofun⟩) fun _ _ failed => ?_
    exact raised_bind failed (raised_require ⟨nofun, nofun⟩) fun _ _ rest => nomatch rest

/-- A row that is created is written: its key is new and its columns satisfy the constraints. -/
theorem createTask_raised [Platform] {taskType : ModelTaskType} {businessKey : String}
    {sessionId : Nat} {inputSnapshot : Snapshot} {offerId approvalId : Option Nat}
    {snapshotSchemaVersion maxAttempts : Int} (sound : Sound db)
    (failed : createTask db taskType businessKey sessionId inputSnapshot offerId approvalId
      snapshotSchemaVersion maxAttempts = .error failure) : Raised failure := by
  unfold createTask at failed
  refine raised_bind failed validatedIdentifier_raised fun key _ failed => ?_
  refine raised_bind failed (raised_require ⟨nofun, nofun⟩) fun _ schema failed => ?_
  refine raised_bind failed (fun refused => ?_) fun _ bounded failed => ?_
  · unfold validateMaxAttempts at refused
    refine raised_require ?_ refused
    exact ⟨nofun, nofun⟩
  split at failed
  · exact raised_bind failed (raised_require ⟨nofun, nofun⟩) fun _ _ rest => nomatch rest
  · next absent =>
    refine raised_bind failed captureReferences_raised fun versions captured failed => ?_
    obtain ⟨sessionVersion, policyVersion⟩ := versions
    obtain ⟨session, policy⟩ := captureReferences_positive captured
    have schema := (require_eq_ok _ _ _).mp schema
    have bounded := (require_eq_ok _ _ _).mp bounded
    refine raised_bind failed (fun refused => ?_) fun tasks added failed => ?_
    · exact absurd sound.below.free (Table.insert_eq_error.mp refused).1
    refine raised_bind failed (fun refused => ?_) fun _ _ rest => nomatch rest
    unfold flush at refused
    have free := Table.free_of_insert added
    refine raised_bind refused (fun broken => ?_) fun _ _ refused =>
      raised_bind refused (fun broken => ?_) fun _ _ rest => nomatch rest
    · refine absurd ?_ ((require_eq_error _ _ _).mp broken).1
      have attempts : 0 < maxAttempts.toNat := by omega
      exact ⟨schema, session, policy, attempts,
        fun usage member => absurd member (Option.not_mem_none usage),
        .inr ⟨nofun, rfl, rfl, rfl⟩, .inr ⟨nofun, rfl⟩⟩
    · refine absurd ?_ ((require_eq_error _ _ _).mp broken).1
      rintro ⟨other, listed, apart, ⟨held, _⟩ | both⟩
      · exact held rfl
      · rcases (Table.mem_insert added other).mp listed with rfl | old
        · exact apart rfl
        · exact List.find?_eq_none.mp absent other old (decide_eq_true both)

/-- The database refuses nothing that an operation writes. -/
theorem perform_raised [Platform] [Unicode] (sound : Sound db)
    (failed : db.perform event = .error failure) : Raised failure := by
  have of_map : ∀ {Value : Type} {outcome : Except TaskFailure Value} {change : Value → TaskDb},
      outcome.map change = .error failure → outcome = .error failure := by
    intro Value outcome change failed
    cases outcome with
    | ok value => cases failed
    | error early => exact congrArg Except.error (Except.error.inj failed)
  cases event with
  | createTask => exact createTask_raised sound (of_map failed)
  | leaseTask => exact leaseTask_raised sound (of_map failed)
  | leaseNext => exact leaseNext_raised sound (of_map failed)
  | completeSuccess => exact completeSuccess_raised sound failed
  | deferRetry => exact deferRetry_raised sound failed
  | failTask => exact completeError_raised sound (.inl rfl) failed
  | markStale => exact completeError_raised sound (.inr (.inl rfl)) failed
  | cancelWithLease => exact completeError_raised sound (.inr (.inr rfl)) failed
  | renewLease => exact renewLease_raised sound failed
  | retryFailed => exact retryFailed_raised sound failed
  | terminate => exact terminate_raised sound failed
  | outside => cases failed

end

/-! ### Every step -/

section

variable [Platform] [Unicode] {before after first last : TaskDb} {event : TaskEvent}
variable {history : List (Transition TaskDb TaskEvent)}

theorem TaskDb.Step.move (sound : Sound before) (step : TaskDb.Step before event after) :
    TableMove before event after := by
  have same : after = before.next event := step
  unfold TaskDb.next at same
  cases result : before.perform event with
  | ok later =>
    rw [result] at same
    exact perform_move sound (same ▸ result)
  | error failure =>
    rw [result] at same
    subst same
    exact .kept rfl rfl

theorem TaskDb.Step.sound (step : TaskDb.Step before event after) (sound : Sound before) :
    Sound after := (step.move sound).sound sound

omit [Platform] [Unicode] in
theorem TaskDb.Initial.sound {db : TaskDb} (initial : TaskDb.Initial db) : Sound db := by
  have empty : db.tasks = .empty := initial
  refine ⟨?_, ?_, ?_, ?_, ?_, ?_, ?_⟩ <;> rw [empty]
  · exact Table.below_empty _
  all_goals exact fun row member => absurd member (Table.not_mem_empty row)

/-- What a step makes of a row. -/
theorem TaskDb.Step.row (sound : Sound before) (step : TaskDb.Step before event after)
    {row : ModelTask} (member : row ∈ before.tasks) :
    ∃ later ∈ after.tasks, later = row ∨ RowMove event before.nextId row later := by
  cases step.move sound with
  | kept tasks => exact ⟨row, by rw [tasks]; exact member, .inl rfl⟩
  | created _ _ _ _ _ _ _ tasks =>
    exact ⟨row, by rw [tasks]; exact Table.mem_insertIgnore_of_mem member, .inl rfl⟩
  | @changed old later found move tasks =>
    by_cases same : row.id = old.id
    · obtain rfl := Table.eq_of_key member (Table.mem_of_get found) same
      refine ⟨later, ?_, .inr move⟩
      rw [tasks]
      exact Table.mem_put_self member move.identity.1.symm
    · refine ⟨row, ?_, .inl rfl⟩
      rw [tasks]
      exact Table.mem_put_of_mem member (by rw [move.identity.1]; exact same)

omit [Platform] [Unicode] in
/-- The result that the table holds for a task. -/
def resultOf (db : TaskDb) (taskId : Nat) : Option Snapshot :=
  (db.tasks.get taskId).bind (·.resultSnapshot)

omit [Platform] [Unicode] in
/-- The transition stores a result for the task. -/
def Stores (taskId : Nat) (transition : Transition TaskDb TaskEvent) : Prop :=
  resultOf transition.after taskId ≠ resultOf transition.before taskId

instance (taskId : Nat) : DecidablePred (Stores taskId) := fun transition =>
  inferInstanceAs (Decidable (resultOf transition.after taskId ≠ _))

/-- A result that is there stays. -/
theorem TaskDb.Step.keeps_result {taskId : Nat} (sound : Sound before)
    (step : TaskDb.Step before event after) (stored : resultOf before taskId ≠ none) :
    resultOf after taskId = resultOf before taskId := by
  unfold resultOf at stored ⊢
  cases found : before.tasks.get taskId with
  | none =>
    rw [found] at stored
    exact absurd rfl stored
  | some row =>
    rw [found] at stored
    have member := Table.mem_of_get found
    have done : row.status = .succeeded := sound.results row member stored
    obtain ⟨later, kept, same | move⟩ := step.row sound member
    · rw [same] at kept
      rw [← Table.key_of_get found, Table.get_of_mem kept]
    · exact absurd done move.status.1

/-- What a step may make of a row: a task that is done, late or cancelled is left as it is; the
bound of the attempts is raised by a manual retry only, and a failed task is left by a manual
retry or a manual termination only; a result is stored where none was, for the holder of the
lease, which is not over; and a token is a new key, handed out while no lease was held. -/
structure Proper (before : TaskDb) (event : TaskEvent) (row later : ModelTask) : Prop where
  identity : later.id = row.id
  terminal : row.status = .succeeded ∨ row.status = .stale ∨ row.status = .cancelled →
    later = row
  bound : later.maxAttempts = row.maxAttempts ∨
    ∃ seller reason now, event = .retryFailed seller row.id reason now
  failed : row.status = .failed → later.status = .failed ∨
    (∃ seller reason now, event = .retryFailed seller row.id reason now) ∨
    ∃ seller reason now, event = .terminate seller row.id reason now
  result : later.resultSnapshot = row.resultSnapshot ∨
    row.resultSnapshot = none ∧ ∃ leaseToken result usage now,
      event = .completeSuccess row.id leaseToken result usage now ∧
        ActiveLease row leaseToken now ∧ later.resultSnapshot = some result
  granted : later.leaseToken = none ∨ later.leaseToken = row.leaseToken ∨
    later.leaseToken = some before.nextId ∧
      ∃ worker duration now, (event = .leaseTask row.id worker duration now ∨
          ∃ taskTypes locked, event = .leaseNext worker taskTypes duration locked now) ∧
        later.leaseOwner = some worker ∧ ∀ token, ¬ ActiveLease row token now

omit [Platform] [Unicode] in
theorem RowMove.proper {row later : ModelTask} (sound : Sound before) (member : row ∈ before.tasks)
    (move : RowMove event before.nextId row later) : Proper before event row later := by
  refine ⟨move.identity.1, fun isOver => ?_, (move.attempts (sound.attempts row member)).2,
    fun failed => .inr (move.status.2.2.2 failed), ?_, ?_⟩
  · obtain ⟨succeeded, stale, cancelled, _⟩ := move.status
    rcases isOver with status | status | status
    · exact absurd status succeeded
    · exact absurd status stale
    · exact absurd status cancelled
  · rcases move.result with same | ⟨token, result, usage, now, made, active, stored, _⟩
    · exact .inl same
    · refine .inr ⟨?_, token, result, usage, now, made, active, stored⟩
      by_contra present
      exact nomatch active.1.symm.trans (sound.results row member present)
  · cases move with
    | @leased worker duration now eligible _ made =>
      refine .inr (.inr ⟨rfl, worker, duration, now, made, rfl, fun token active => ?_⟩)
      obtain ⟨running, _, end_, held, ahead⟩ := active
      rcases eligible with pending | ⟨waiting, _⟩ | ⟨_, other, again, overdue⟩
      · exact nomatch running.symm.trans pending
      · exact nomatch running.symm.trans waiting
      · obtain rfl : end_ = other := Option.some.inj (held.symm.trans again)
        exact absurd ahead (Nat.not_lt.mpr overdue)
    | renewed => exact .inr (.inl rfl)
    | _ => exact .inl rfl

/-- The tasks of the older runtime. Every row satisfies the constraints of the table and has at
most as many attempts as its bound, and the database never refuses what an operation writes.
Every step treats every row as `Proper` says. A result is stored once for a task at most. And
of one task there is one token at most whose lease is not over, whatever the clocks of the
workers say. -/
theorem model_tasks_are_leased (initial : TaskDb.Initial first)
    (run : Run TaskDb.Step first history last) :
    (∀ row ∈ last.tasks, row.Lawful ∧ row.attemptCount ≤ row.maxAttempts) ∧
    (∀ event failure, last.perform event = .error failure →
      failure ≠ .check ∧ failure ≠ .unique) ∧
    (∀ transition ∈ history, ∀ row ∈ transition.before.tasks,
      ∃ later ∈ transition.after.tasks,
        Proper transition.before transition.event row later) ∧
    (∀ taskId, history.countP (fun transition => Stores taskId transition) ≤ 1) ∧
    (∀ one ∈ last.tasks, ∀ two ∈ last.tasks, ∀ token other now later,
      ActiveLease one token now → ActiveLease two other later →
        (one = two ↔ token = other)) := by
  have sound : Sound last := run.kept (fun _ _ _ step sound => step.sound sound) initial.sound
  have within := run.within (fun _ _ _ step sound => step.sound sound) initial.sound
  refine ⟨fun row member => ⟨sound.lawful row member, sound.attempts row member⟩,
    fun event failure failed => perform_raised sound failed, ?_, fun taskId => ?_, ?_⟩
  · intro transition member row listed
    obtain ⟨sound, step⟩ := within.taken member
    obtain ⟨later, kept, same | move⟩ := step.row sound listed
    · refine ⟨row, same ▸ kept, rfl, fun _ => rfl, .inl rfl, .inl, .inl rfl, .inr (.inl rfl)⟩
    · exact ⟨later, kept, move.proper sound listed⟩
  · refine (within.at_most_once (fun db => resultOf db taskId ≠ none) ?_ ?_).1
    · rintro before event after ⟨sound, step⟩ stored
      rw [step.keeps_result sound stored]
      exact stored
    · rintro before event after ⟨sound, step⟩ stores
      have fresh : resultOf before taskId = none := by
        by_contra stored
        exact stores (step.keeps_result sound stored)
      refine ⟨not_not_intro fresh, fun absent => ?_⟩
      exact stores (absent.trans fresh.symm)
  · intro one first two second token other now later active again
    constructor
    · rintro rfl
      exact Option.some.inj (active.2.1.symm.trans again.2.1)
    · rintro rfl
      refine sound.tokens two second one first ?_ ?_
      · rw [again.2.1]
        exact nofun
      · rw [active.2.1, again.2.1]

end

/-! ### Runs of one task -/

section

variable [Platform] [Unicode]

def TaskDb.after (db : TaskDb) (events : List TaskEvent) : TaskDb := events.foldl TaskDb.next db

def TaskDb.history (db : TaskDb) (past : List (Transition TaskDb TaskEvent)) :
    List TaskEvent → List (Transition TaskDb TaskEvent)
  | [] => past
  | event :: rest => (db.next event).history (⟨db, event, db.next event⟩ :: past) rest

theorem TaskDb.run_history {first db : TaskDb} {past : List (Transition TaskDb TaskEvent)}
    (events : List TaskEvent) (run : Run TaskDb.Step first past db) :
    Run TaskDb.Step first (db.history past events) (db.after events) := by
  induction events generalizing db past with
  | nil => exact run
  | cons event rest inductionHypothesis => exact inductionHypothesis (run.next rfl)

end

/-- Letters of the plain alphabet. -/
abbrev sampleUnicode : Unicode where
  upper text := text.map Char.toUpper
  isAlpha text := text.toList.all Char.isAlpha

/-- One session of a seller with a policy. -/
def sampleTasks : TaskDb where
  others :=
    { sessions := fun id => if id = 1 then some ⟨1, 1, Nat.one_pos⟩ else none
      policies := fun id => if id = 1 then some ⟨1, Nat.one_pos⟩ else none
      sellers := fun id => if id = 1 then some "seller" else none
      offers := fun _ => none
      approvals := fun _ => none
      messages := fun _ _ => false }

theorem sampleTasks_initial : TaskDb.Initial sampleTasks := rfl

/-- A task of one attempt is created and leased; the token is the next key. -/
def leasing : List TaskEvent :=
  [.createTask .chatDecision "chat:1" 1 [] none none 1 1,
    .leaseTask 1 "worker" 60 (seconds 1)]

/-- The worker stores its result. -/
def completing : List TaskEvent :=
  leasing ++ [.completeSuccess 1 2 [] { provider := "provider", modelName := "model" } (seconds 2)]

attribute [local instance] samplePlatform sampleUnicode in
/-- The result of the worker is the one that is stored. -/
theorem model_tasks_are_leased_completing :
    resultOf (sampleTasks.after completing) 1 ≠ none ∧
      ((sampleTasks.history [] completing).countP fun transition => Stores 1 transition) ≤ 1 :=
  ⟨by decide +kernel,
    (model_tasks_are_leased sampleTasks_initial (TaskDb.run_history completing (.start sampleTasks))).2.2.2.1 1⟩

attribute [local instance] samplePlatform sampleUnicode in
/-- A failed task that the seller ends becomes a cancelled one, with no retry. -/
theorem failed_task_is_cancelled :
    ∃ (first last : TaskDb) (history : List (Transition TaskDb TaskEvent)),
      TaskDb.Initial first ∧ Run TaskDb.Step first history last ∧
      ∃ transition ∈ history, ∃ seller reason now,
        transition.event = .terminate seller 1 reason now ∧
        (transition.before.tasks.get 1).map (·.status) = some .failed ∧
        (transition.after.tasks.get 1).map (·.status) = some .cancelled := by
  let before := sampleTasks.after (leasing ++ [.failTask 1 2 .modelTimeout none (seconds 2)])
  let last : TaskEvent := .terminate "seller" 1 none (seconds 3)
  have run : Run TaskDb.Step sampleTasks
      (sampleTasks.history [] (leasing ++ [.failTask 1 2 .modelTimeout none (seconds 2), last]))
      (before.next last) := TaskDb.run_history _ (.start _)
  refine ⟨_, _, _, sampleTasks_initial, run, ⟨before, last, before.next last⟩, List.mem_cons_self, _, _, _, rfl, ?_⟩
  exact ⟨by decide +kernel, by decide +kernel⟩

end Negotiation.Legacy
