/-
This file proves that the memory of a conversation leaves no message of the
buyer behind. The cursor of the memory is moved in a run, behind the records of
an update that succeeded or behind the input of the turn, and it is stored when
the run ends. What a run knows of the cursor, in the checkpoint that was saved
and in the copy of the worker, is covered: every message of the buyer up to it
went into an update that succeeded. A refresh that was cut or that failed keeps
its mark, so that the end of the turn does not jump over what is left.
-/

import SecondhandAgent.Agent.Runtime
import SecondhandAgent.Runs
import Mathlib.Order.Basic

namespace Negotiation.Agent.AgentWorld

open Store

variable {Key : Type}

/-! ### The ledger -/

/-- Everything said by the buyer up to a place went into the memory. -/
def Covered (world : AgentWorld Key) (through : Int) : Prop :=
  ∀ row ∈ world.ledger, row.record.visibility = .everyone → row.record.kind = .buyerInput →
    row.record.seq ≤ through → row.record.seq ∈ world.remembered ∨ row.record.seq ∈ world.concluded

/-- The records are numbered in their order. -/
structure Ordered (ledger : List LedgerRow) (next : Int) : Prop where
  rising : ledger.Pairwise fun one two => one.record.seq < two.record.seq
  below : ∀ row ∈ ledger, row.record.seq < next

/-- A later world: it has more records and remembers more. -/
structure Grows (world later : AgentWorld Key) : Prop where
  rows : ∃ more, later.ledger = world.ledger ++ more ∧
    ∀ row ∈ more, world.context.nextStreamSeq ≤ row.record.seq
  next : world.context.nextStreamSeq ≤ later.context.nextStreamSeq
  remembered : ∀ seq ∈ world.remembered, seq ∈ later.remembered
  concluded : ∀ seq ∈ world.concluded, seq ∈ later.concluded

theorem Grows.same {world later : AgentWorld Key} (ledger : later.ledger = world.ledger)
    (next : later.context.nextStreamSeq = world.context.nextStreamSeq)
    (remembered : ∀ seq ∈ world.remembered, seq ∈ later.remembered)
    (concluded : ∀ seq ∈ world.concluded, seq ∈ later.concluded) : Grows world later :=
  ⟨⟨[], by rw [ledger, List.append_nil], nofun⟩, next.ge, remembered, concluded⟩

theorem Grows.refl (world : AgentWorld Key) : Grows world world :=
  .same rfl rfl (fun _ => id) fun _ => id

theorem grows_setTask (world : AgentWorld Key) (task : AgentTask Key) :
    Grows world (world.setTask task) := .same rfl rfl (fun _ => id) fun _ => id

theorem Grows.trans {one two three : AgentWorld Key} (first : Grows one two)
    (second : Grows two three) : Grows one three := by
  obtain ⟨more, same, above⟩ := first.rows
  obtain ⟨further, sameToo, aboveToo⟩ := second.rows
  refine ⟨⟨more ++ further, ?_, fun row member => ?_⟩, first.next.trans second.next,
    fun seq old => second.remembered seq (first.remembered seq old),
    fun seq old => second.concluded seq (first.concluded seq old)⟩
  · rw [sameToo, same, List.append_assoc]
  · rcases List.mem_append.mp member with old | new
    · exact above row old
    · exact first.next.trans (aboveToo row new)

/-- What is covered stays covered. -/
theorem Covered.grow {world later : AgentWorld Key} {through : Int}
    (covered : world.Covered through) (old : through < world.context.nextStreamSeq)
    (grows : Grows world later) : later.Covered through := by
  obtain ⟨more, same, above⟩ := grows.rows
  intro row member visible said within
  rw [same] at member
  rcases List.mem_append.mp member with known | new
  · exact (covered row known visible said within).imp (grows.remembered _) (grows.concluded _)
  · exact absurd (lt_of_le_of_lt within old) (not_lt.mpr (above row new))

/-! ### What a run knows -/

/-- The cursor of a checkpoint is covered, and all that was said before the input is, unless the
memory is still to be refreshed or the refresh is marked as incomplete. -/
structure CursorOk (world : AgentWorld Key) (input : TaskInput)
    (checkpoint : RunCheckpoint Key) : Prop where
  above : input.initialContext.memoryCoveredThrough ≤ input.coverage checkpoint
  below : input.coverage checkpoint < input.currentInputSeq
  covered : world.Covered (input.coverage checkpoint)
  complete : input.config.memoryEnabled = true → checkpoint.memoryRefreshDone = true →
    checkpoint.memoryRefreshIncomplete = false → world.Covered (input.currentInputSeq - 1)
  ready : input.config.memoryEnabled = true → checkpoint.pendingCalls ≠ [] →
    checkpoint.memoryRefreshDone = true

/-- What is known while the model reads the records: they are all of the buyer's messages behind the
cursor up to the last of them. -/
def StageOk (world : AgentWorld Key) (input : TaskInput) (checkpoint : RunCheckpoint Key) :
    Stage → Prop
  | .refreshing kept _ last =>
    checkpoint.memoryRefreshIncomplete = true ∧ input.coverage checkpoint ≤ lastSeq kept ∧
      lastSeq kept < input.currentInputSeq ∧
      ∀ row ∈ world.ledger, row.record.visibility = .everyone → row.record.kind = .buyerInput →
        input.coverage checkpoint < row.record.seq →
        row.record.seq ≤ lastSeq kept ∨
          (lastSeq kept = last ∧ row.record.seq < input.currentInputSeq) →
        row.record.seq ∈ kept.map StreamRecord.seq
  | _ => True

structure TaskOk (world : AgentWorld Key) (task : AgentTask Key) : Prop where
  contiguous : task.input.config.contiguous = true
  known : task.input.currentInputSeq < world.context.nextStreamSeq
  version : task.input.initialContext.contextVersion ≤ world.context.contextVersion
  unchanged : task.input.initialContext.contextVersion = world.context.contextVersion →
    task.input.initialContext.memoryCoveredThrough = world.context.memoryCoveredThrough
  saved : CursorOk world task.input task.checkpoint
  worker : ∀ worker, task.worker = some worker →
    CursorOk world task.input worker.checkpoint ∧
      StageOk world task.input worker.checkpoint worker.stage

/-- The invariant of a conversation. -/
structure Kept (world : AgentWorld Key) : Prop where
  ordered : Ordered world.ledger world.context.nextStreamSeq
  covered : world.Covered world.context.memoryCoveredThrough
  below : world.context.memoryCoveredThrough < world.context.nextStreamSeq
  tasks : ∀ task ∈ world.tasks, task.status = .open → TaskOk world task

section

variable {world later : AgentWorld Key} {input : TaskInput} {task : AgentTask Key}
variable {checkpoint : RunCheckpoint Key} {stage : Stage}

theorem CursorOk.grow (ok : CursorOk world input checkpoint)
    (known : input.currentInputSeq < world.context.nextStreamSeq) (grows : Grows world later) :
    CursorOk later input checkpoint where
  above := ok.above
  below := ok.below
  covered := ok.covered.grow (ok.below.trans known) grows
  complete enabled done whole :=
    (ok.complete enabled done whole).grow ((Int.sub_one_lt_of_le le_rfl).trans known) grows
  ready := ok.ready

theorem StageOk.grow (ok : StageOk world input checkpoint stage)
    (known : input.currentInputSeq < world.context.nextStreamSeq) (grows : Grows world later) :
    StageOk later input checkpoint stage := by
  cases stage with
  | idle | judged => trivial
  | refreshing kept records last =>
    obtain ⟨marked, above, below, all⟩ := ok
    refine ⟨marked, above, below, fun row member visible said behind within => ?_⟩
    obtain ⟨more, same, new⟩ := grows.rows
    rw [same] at member
    rcases List.mem_append.mp member with old | added
    · exact all row old visible said behind within
    · have late := new row added
      rcases within with inside | ⟨_, inside⟩ <;> omega

/-- A task stays right as long as the context keeps its cursor or changes its version. -/
theorem TaskOk.grow (ok : TaskOk world task) (grows : Grows world later)
    (version : world.context.contextVersion ≤ later.context.contextVersion)
    (same : world.context.contextVersion = later.context.contextVersion →
      world.context.memoryCoveredThrough = later.context.memoryCoveredThrough) :
    TaskOk later task where
  contiguous := ok.contiguous
  known := ok.known.trans_le grows.next
  version := ok.version.trans version
  unchanged equal := by
    have still := le_antisymm version (equal ▸ ok.version)
    exact (ok.unchanged (equal.trans still.symm)).trans (same still)
  saved := ok.saved.grow ok.known grows
  worker worker holds := ⟨(ok.worker worker holds).1.grow ok.known grows,
    (ok.worker worker holds).2.grow ok.known grows⟩

/-! ### What the steps are made of -/

/-- What is only added keeps the invariant. -/
theorem Kept.grow (kept : world.Kept) (grows : Grows world later)
    (ordered : Ordered later.ledger later.context.nextStreamSeq)
    (version : later.context.contextVersion = world.context.contextVersion)
    (covered : later.context.memoryCoveredThrough = world.context.memoryCoveredThrough)
    (tasks : later.tasks = world.tasks) : later.Kept where
  ordered := ordered
  covered := covered ▸ kept.covered.grow kept.below grows
  below := covered ▸ kept.below.trans_le grows.next
  tasks other member running := (kept.tasks other (tasks ▸ member) running).grow grows
    version.ge fun _ => covered.symm

theorem grows_append (world : AgentWorld Key) (body : RecordBody) (visibility : Visibility)
    (taskId : Option Nat) (ofBranch : Bool) :
    Grows world (world.append body visibility taskId ofBranch) where
  rows := ⟨_, rfl, fun _ member => List.mem_singleton.mp member ▸ le_rfl⟩
  next := le_of_lt (Int.lt_succ _)
  remembered _ old := old
  concluded _ old := old

theorem Ordered.append (ordered : Ordered world.ledger world.context.nextStreamSeq)
    (body : RecordBody) (visibility : Visibility) (taskId : Option Nat) (ofBranch : Bool) :
    Ordered (world.append body visibility taskId ofBranch).ledger
      (world.context.nextStreamSeq + 1) where
  rising := List.pairwise_append.mpr ⟨ordered.rising, List.pairwise_singleton _ _,
    fun _ old _ new => List.mem_singleton.mp new ▸ ordered.below _ old⟩
  below row member := by
    rcases List.mem_append.mp member with old | new
    · exact (ordered.below row old).trans (Int.lt_succ _)
    · exact List.mem_singleton.mp new ▸ Int.lt_succ _

theorem Kept.append (kept : world.Kept) (body : RecordBody) (visibility : Visibility)
    (taskId : Option Nat) (ofBranch : Bool) :
    (world.append body visibility taskId ofBranch).Kept :=
  kept.grow (grows_append ..) (kept.ordered.append ..) rfl rfl rfl

theorem grows_publish (world : AgentWorld Key) (publication : Publication) :
    Grows world (world.publish publication) := .same rfl rfl (fun _ => id) fun _ => id

theorem Kept.publish (kept : world.Kept) (publication : Publication) :
    (world.publish publication).Kept :=
  kept.grow (grows_publish ..) kept.ordered rfl rfl rfl

theorem Kept.remember (kept : world.Kept) (seqs : List Int) :
    Kept { world with remembered := world.remembered ++ seqs } :=
  kept.grow (.same rfl rfl (fun _ => List.mem_append_left _) fun _ => id) kept.ordered rfl rfl rfl

theorem Kept.conclude (kept : world.Kept) (seqs : List Int) :
    Kept { world with concluded := world.concluded ++ seqs } :=
  kept.grow (.same rfl rfl (fun _ => id) fun _ => List.mem_append_left _) kept.ordered rfl rfl rfl

theorem Kept.setTask (kept : world.Kept)
    (ok : task.status = .open → TaskOk world task) : (world.setTask task).Kept where
  ordered := kept.ordered
  covered := kept.covered
  below := kept.below
  tasks other member running := by
    rcases Table.mem_of_mem_put member with old | rfl
    · exact (kept.tasks other old running).grow (grows_setTask ..) le_rfl fun _ => rfl
    · exact (ok running).grow (grows_setTask ..) le_rfl fun _ => rfl

/-- A worker that goes on with a checkpoint that is right. -/
theorem TaskOk.go (ok : TaskOk world task) (fine : CursorOk world task.input checkpoint)
    (stageOk : StageOk world task.input checkpoint stage) :
    TaskOk world { task with worker := some ⟨checkpoint, stage⟩ } where
  contiguous := ok.contiguous
  known := ok.known
  version := ok.version
  unchanged := ok.unchanged
  saved := ok.saved
  worker _ holds := Option.some.inj holds ▸ ⟨fine, stageOk⟩

theorem Kept.save (kept : world.Kept) (ok : TaskOk world task)
    (fine : CursorOk world task.input checkpoint)
    (stageOk : StageOk world task.input checkpoint stage) :
    (world.save task checkpoint stage).Kept :=
  kept.setTask fun _ => ⟨ok.contiguous, ok.known, ok.version, ok.unchanged, fine,
    fun _ holds => Option.some.inj holds ▸ ⟨fine, stageOk⟩⟩

/-! ### The end of a turn -/

/-- The context moves to a cursor that is covered. -/
theorem Kept.store (kept : world.Kept) (memory : HeldEntries) {through : Int}
    (covered : world.Covered through) (below : through < world.context.nextStreamSeq) :
    Kept { world with
      context := { world.context with
        memory
        memoryCoveredThrough := through
        contextVersion := world.context.contextVersion + 1 } } where
  ordered := kept.ordered
  covered := covered
  below := below
  tasks other member running := (kept.tasks other member running).grow
    (.same rfl rfl (fun _ => id) fun _ => id) (Nat.le_add_right _ 1)
    fun same => absurd same (Nat.ne_of_lt (Nat.lt_succ_self _))

/-- What a checkpoint stores when its run ends. -/
structure Storable (world : AgentWorld Key) (input : TaskInput)
    (checkpoint : RunCheckpoint Key) : Prop where
  above : input.initialContext.memoryCoveredThrough ≤ input.coverage checkpoint
  below : input.coverage checkpoint < world.context.nextStreamSeq
  covered : world.Covered (input.coverage checkpoint)

theorem Storable.grow (ok : Storable world input checkpoint) (grows : Grows world later) :
    Storable later input checkpoint :=
  ⟨ok.above, ok.below.trans_le grows.next, ok.covered.grow ok.below grows⟩

theorem CursorOk.storable (ok : CursorOk world input checkpoint)
    (known : input.currentInputSeq < world.context.nextStreamSeq) :
    Storable world input checkpoint := ⟨ok.above, ok.below.trans known, ok.covered⟩

theorem Kept.storeContext (kept : world.Kept)
    (storable : input.config.memoryEnabled = true → Storable world input checkpoint)
    (unchanged : input.initialContext.memoryCoveredThrough = world.context.memoryCoveredThrough)
    (memory : Option HeldEntries) :
    (world.storeContext input checkpoint memory).Kept ∧
      world.context.memoryCoveredThrough ≤
        (world.storeContext input checkpoint memory).context.memoryCoveredThrough := by
  unfold AgentWorld.storeContext
  split
  · split
    · next enabled =>
      have written := kept.append .contextArtifact .internal (some input.id) false
      have later := (storable enabled).grow
        (grows_append world .contextArtifact .internal (some input.id) false)
      exact ⟨written.store _ later.covered later.below, unchanged ▸ (storable enabled).above⟩
    · exact ⟨kept.store _ kept.covered kept.below, le_rfl⟩
  · exact ⟨kept.store _ kept.covered kept.below, le_rfl⟩

/-- The end of a turn stores a cursor that is covered and does not take the old one back. -/
theorem Kept.finish (kept : world.Kept)
    (storable : task.input.config.memoryEnabled = true → Storable world task.input checkpoint)
    (unchanged : task.input.initialContext.contextVersion = world.context.contextVersion →
      task.input.initialContext.memoryCoveredThrough = world.context.memoryCoveredThrough)
    (result : TurnResult) (memory : Option HeldEntries) (stale : Bool) :
    (world.finish task checkpoint result memory stale).Kept ∧
      world.context.memoryCoveredThrough ≤
        (world.finish task checkpoint result memory stale).context.memoryCoveredThrough := by
  unfold AgentWorld.finish
  dsimp only
  generalize (⟨task.id, result.reply, result.outcome, result.formalOfferId, result.written⟩ :
    Publication) = publication
  have published := (kept.publish publication).append
    (.publicReply result.reply) .everyone (some task.id) false
  have later enabled := (storable enabled).grow ((grows_publish world publication).trans
    (grows_append _ (.publicReply result.reply) .everyone (some task.id) false))
  have closed : (if stale = true then RunStatus.stale else .succeeded) ≠ .open := by
    cases stale <;> decide
  split
  · next same =>
    obtain ⟨stored, onward⟩ := published.storeContext later (unchanged same.1.symm)
      (memory.or checkpoint.memory)
    exact ⟨stored.setTask fun running => absurd running closed, onward⟩
  · exact ⟨published.setTask fun running => absurd running closed, le_rfl⟩

/-! ### The refresh -/

theorem shorten_prefix (oversized : List StreamRecord → Bool) (rounds : Nat)
    (pending : List StreamRecord) : shorten oversized List.dropLast rounds pending <+: pending := by
  induction rounds generalizing pending with
  | zero => exact List.prefix_refl _
  | succ rounds inductionHypothesis =>
    unfold shorten
    split
    · exact (inductionHypothesis _).trans (List.dropLast_prefix _)
    · exact List.prefix_refl _

theorem lastSeq_eq {records : List StreamRecord} {last : StreamRecord}
    (ends : records.getLast? = some last) : lastSeq records = last.seq := by
  unfold lastSeq
  rw [ends]
  rfl

/-- Of rising numbers a prefix has all up to its last one. -/
theorem mem_of_le_last {pending kept : List StreamRecord} {last record : StreamRecord}
    (rising : pending.Pairwise fun one two => one.seq < two.seq) (front : kept <+: pending)
    (ends : kept.getLast? = some last) (member : record ∈ pending) (le : record.seq ≤ last.seq) :
    record ∈ kept := by
  obtain ⟨rest, rfl⟩ := front
  rcases List.mem_append.mp member with inside | behind
  · exact inside
  · have above := (List.pairwise_append.mp rising).2.2 last (List.mem_of_getLast? ends) record behind
    exact absurd le (not_le.mpr above)

theorem le_last {pending : List StreamRecord} {last record : StreamRecord}
    (rising : pending.Pairwise fun one two => one.seq < two.seq)
    (ends : pending.getLast? = some last) (member : record ∈ pending) : record.seq ≤ last.seq := by
  obtain ⟨front, rfl⟩ := List.getLast?_eq_some_iff.mp ends
  rcases List.mem_append.mp member with inside | behind
  · exact ((List.pairwise_append.mp rising).2.2 record inside last List.mem_cons_self).le
  · exact List.mem_singleton.mp behind ▸ le_rfl

/-- What the buyer said before the input is covered or pending. -/
theorem mem_pending {row : LedgerRow} (member : row ∈ world.ledger)
    (visible : row.record.visibility = .everyone)
    (behind : input.coverage checkpoint < row.record.seq)
    (before : row.record.seq < input.currentInputSeq) :
    row.record ∈ world.pending input checkpoint := by
  refine List.mem_filter.mpr ⟨List.mem_map_of_mem (List.mem_filter.mpr ⟨member, ?_⟩),
    decide_eq_true ⟨behind, before, visible⟩⟩
  unfold readable
  simp only [before.le, visible, decide_true, Bool.true_or, Bool.and_self]

theorem Kept.pending_rising (kept : world.Kept) (input : TaskInput)
    (checkpoint : RunCheckpoint Key) :
    (world.pending input checkpoint).Pairwise fun one two => one.seq < two.seq := by
  have rising : (world.records input).Pairwise fun one two => one.seq < two.seq :=
    List.pairwise_map.mpr (kept.ordered.rising.sublist List.filter_sublist)
  exact rising.sublist List.filter_sublist

theorem of_mem_pending {record : StreamRecord} (member : record ∈ world.pending input checkpoint) :
    input.coverage checkpoint < record.seq ∧ record.seq < input.currentInputSeq :=
  ⟨(of_decide_eq_true (List.mem_filter.mp member).2).1,
    (of_decide_eq_true (List.mem_filter.mp member).2).2.1⟩

theorem CursorOk.begin (fine : CursorOk world input checkpoint)
    (complete : world.Covered (input.currentInputSeq - 1)) :
    CursorOk world input { checkpoint with memoryRefreshDone := true } :=
  ⟨fine.above, fine.below, fine.covered, fun _ _ _ => complete, fun _ _ => rfl⟩

theorem CursorOk.mark (fine : CursorOk world input checkpoint) :
    CursorOk world input
      { checkpoint with memoryRefreshDone := true, memoryRefreshIncomplete := true } :=
  ⟨fine.above, fine.below, fine.covered, nofun, fun _ _ => rfl⟩

/-- A front part of what is pending is all that is pending up to its last record. -/
theorem Kept.stageOk (kept : world.Kept) {front records : List StreamRecord}
    (marked : checkpoint.memoryRefreshIncomplete = true)
    (within : front <+: world.pending input checkpoint) (some : front ≠ []) :
    StageOk world input checkpoint
      (.refreshing front records (lastSeq (world.pending input checkpoint))) := by
  have rising := kept.pending_rising input checkpoint
  obtain ⟨last, ends⟩ := Option.ne_none_iff_exists'.mp (mt List.getLast?_eq_none_iff.mp some)
  have inside := of_mem_pending (within.subset (List.mem_of_getLast? ends))
  have reaches := lastSeq_eq ends
  refine ⟨marked, reaches ▸ inside.1.le, reaches ▸ inside.2,
    fun row member visible said behind bound => ?_⟩
  have before : row.record.seq < input.currentInputSeq :=
    bound.elim (fun up => up.trans_lt (reaches ▸ inside.2)) And.right
  have waiting := mem_pending member visible behind before
  refine List.mem_map_of_mem (mem_of_le_last rising within ends waiting ?_)
  rcases bound with up | ⟨whole, _⟩
  · exact reaches ▸ up
  · obtain ⟨final, finalEnds⟩ :=
      Option.ne_none_iff_exists'.mp (mt List.getLast?_eq_none_iff.mp (List.ne_nil_of_mem waiting))
    rw [reaches, lastSeq_eq finalEnds] at whole
    exact whole ▸ le_last rising finalEnds waiting

theorem Kept.beginRefresh (platform : AgentPlatform Key) (kept : world.Kept)
    (ok : TaskOk world task) (fine : CursorOk world task.input checkpoint) :
    (world.beginRefresh platform task checkpoint).Kept := by
  unfold AgentWorld.beginRefresh
  dsimp only
  rw [ok.contiguous, if_pos rfl, if_pos rfl]
  split
  · have front := shorten_prefix
      (platform.oversized (checkpoint.memory.getD task.input.initialContext.memory))
      (world.pending task.input checkpoint).length (world.pending task.input checkpoint)
    split
    · exact kept.setTask fun _ => ok.go fine.mark trivial
    · next some => exact kept.save ok fine.mark (kept.stageOk rfl front some)
  · next none =>
    refine kept.setTask fun _ => ok.go (fine.begin fun row member visible said within => ?_) trivial
    by_cases covered : row.record.seq ≤ task.input.coverage checkpoint
    · exact fine.covered row member visible said covered
    · refine absurd (List.any_eq_true.mpr ⟨row.record, ?_, decide_eq_true said⟩) none
      exact mem_pending member visible (not_le.mp covered) (Int.lt_of_le_sub_one within)

theorem beginRefresh_context (platform : AgentPlatform Key) (world : AgentWorld Key)
    (task : AgentTask Key) (checkpoint : RunCheckpoint Key) :
    (world.beginRefresh platform task checkpoint).context = world.context := by
  unfold AgentWorld.beginRefresh
  dsimp only
  split
  · split <;> split <;> rfl
  · rfl

theorem endRefresh_context (world : AgentWorld Key) (task : AgentTask Key)
    (checkpoint : RunCheckpoint Key) (front records : List StreamRecord) (last : Int)
    (response : Option MemoryDelta) :
    (world.endRefresh task checkpoint front records last response).context = world.context := by
  unfold AgentWorld.endRefresh
  split
  · rfl
  · split <;> rfl

/-- The records of an update that succeeds are remembered. -/
theorem Kept.endRefresh (kept : world.Kept) (ok : TaskOk world task)
    (fine : CursorOk world task.input checkpoint) {front records : List StreamRecord} {last : Int}
    (stage : StageOk world task.input checkpoint (.refreshing front records last))
    (response : Option MemoryDelta) :
    (world.endRefresh task checkpoint front records last response).Kept := by
  unfold AgentWorld.endRefresh
  split
  · exact kept.save ok fine trivial
  · split
    · exact kept.save ok fine trivial
    · next memory _ =>
      have grows : Grows world
          { world with remembered := world.remembered ++ front.map StreamRecord.seq } :=
        .same rfl rfl (fun _ => List.mem_append_left _) fun _ => id
      obtain ⟨_, above, below, all⟩ := stage
      have covers (through : Int)
          (bound : ∀ seq, seq ≤ through → seq ≤ lastSeq front ∨
            (lastSeq front = last ∧ seq < task.input.currentInputSeq)) :
          Covered { world with remembered := world.remembered ++ front.map StreamRecord.seq }
            through := by
        intro row member visible said within
        by_cases covered : row.record.seq ≤ task.input.coverage checkpoint
        · exact (fine.covered row member visible said covered).imp_left (List.mem_append_left _)
        · exact .inl (List.mem_append_right _
            (all row member visible said (not_le.mp covered) (bound _ within)))
      refine (kept.remember _).save (ok.grow grows le_rfl fun _ => rfl) ?_ trivial
      refine ⟨fine.above.trans above, below, covers _ fun _ le => .inl le, fun _ _ whole => ?_,
        fine.ready⟩
      dsimp only at whole
      rw [if_pos ok.contiguous, decide_eq_false_iff_not, not_not] at whole
      exact covers _ fun _ le => .inr ⟨whole, Int.lt_of_le_sub_one le⟩

/-! ### The other steps -/

variable {platform : AgentPlatform Key} {call : ToolCall}

theorem CursorOk.afterResult (fine : CursorOk world input checkpoint)
    (platform : AgentPlatform Key) (call : ToolCall) :
    CursorOk world input (afterResult platform input checkpoint call) :=
  ⟨fine.above, fine.below, fine.covered, fine.complete, fun enabled waiting =>
    fine.ready enabled fun none => waiting (by
      change checkpoint.pendingCalls.drop 1 = []
      rw [none]
      rfl)⟩

theorem Storable.afterResult (ok : Storable world input checkpoint)
    (platform : AgentPlatform Key) (call : ToolCall) :
    Storable world input (AgentWorld.afterResult platform input checkpoint call) :=
  ⟨ok.above, ok.below, ok.covered⟩

theorem Kept.goOn (kept : world.Kept) (ok : TaskOk world task)
    (fine : CursorOk world task.input checkpoint) (call : ToolCall) (content : String) :
    (world.goOn platform task checkpoint call content).Kept :=
  have grows := grows_append world (.toolResult (.tool content call.id call.name)) .internal
    (some task.input.id) true
  (kept.append ..).save (ok.grow grows le_rfl fun _ => rfl)
    ((fine.grow ok.known grows).afterResult platform call) trivial

theorem Kept.respond (kept : world.Kept) (ok : TaskOk world task)
    (fine : CursorOk world task.input checkpoint)
    (done : task.input.config.memoryEnabled = true → checkpoint.memoryRefreshDone = true)
    (message : Message) (rejected : Bool) :
    (world.respond task checkpoint message rejected).Kept := by
  unfold AgentWorld.respond
  split
  · have grows := grows_append world (.modelCandidate message) .internal (some task.id) true
    exact (kept.append ..).save (ok.grow grows le_rfl fun _ => rfl) (fine.grow ok.known grows) trivial
  · have grows := grows_append world (.toolCall message) .internal (some task.id) true
    have later := fine.grow ok.known grows
    exact (kept.append ..).save (ok.grow grows le_rfl fun _ => rfl)
      ⟨later.above, later.below, later.covered, later.complete, fun enabled _ => done enabled⟩ trivial

theorem Kept.answers (kept : world.Kept) (ok : TaskOk world task)
    (fine : CursorOk world task.input checkpoint) (answers : List (Key × ReviewAnswer)) :
    (world.save { task with answers } checkpoint .idle).Kept :=
  have same : TaskOk world { task with answers } :=
    ⟨ok.contiguous, ok.known, ok.version, ok.unchanged, ok.saved, ok.worker⟩
  kept.save same fine trivial

theorem Kept.judged (kept : world.Kept) (ok : TaskOk world task)
    (fine : CursorOk world task.input checkpoint) (reviewed : List (ReviewPayload × ReplyReview))
    (replyReviews : List (Key × ReplyReview)) (error : Option String) :
    (world.save { task with reviewed } { checkpoint with replyReviews } (.judged error)).Kept :=
  have same : TaskOk world { task with reviewed } :=
    ⟨ok.contiguous, ok.known, ok.version, ok.unchanged, ok.saved, ok.worker⟩
  kept.save same ⟨fine.above, fine.below, fine.covered, fine.complete, fine.ready⟩ trivial

/-- What `finish_turn` leaves of the cursor is covered once the input counts as concluded. -/
theorem CursorOk.settle (fine : CursorOk world input checkpoint)
    (known : input.currentInputSeq < world.context.nextStreamSeq)
    (enabled : input.config.memoryEnabled = true) (done : checkpoint.memoryRefreshDone = true)
    (records : List StreamRecord) (delta : MemoryDelta) (result : TurnResult) :
    Storable { world with
      concluded := world.concluded ++
        if (settleMemory input records checkpoint delta result).applied then
          [input.currentInputSeq] else [] } input
      (settleMemory input records checkpoint delta result).checkpoint := by
  have grows (seqs : List Int) : Grows world { world with concluded := world.concluded ++ seqs } :=
    .same rfl rfl (fun _ => id) fun _ => List.mem_append_left _
  unfold settleMemory
  dsimp only
  rw [if_pos enabled]
  split
  · dsimp only
    rw [if_pos rfl]
    split
    · exact (fine.storable known).grow (grows _)
    · next whole =>
      refine ⟨fine.above.trans fine.below.le, known, fun row member visible said within => ?_⟩
      rcases eq_or_lt_of_le within with here | before
      · exact .inr (List.mem_append_right _ (List.mem_singleton.mpr here))
      · exact (fine.complete enabled done (Bool.eq_false_of_not_eq_true whole) row member visible
          said (Int.le_sub_one_of_lt before)).imp_right (List.mem_append_left _)
  · exact (fine.storable known).grow (grows _)

theorem finishTurn_eq_ok [DecidableEq Key] {records : List StreamRecord}
    {finished : FinishedCall Key}
    (done : finishTurn platform input records checkpoint call = .ok finished) :
    ∃ delta result, finished = settleMemory input records checkpoint delta result := by
  unfold finishTurn at done
  split at done
  · simp only [bind_eq_ok, pure_eq_ok] at done
    obtain ⟨finish, _, reply, _, rfl⟩ := done
    exact ⟨_, _, rfl⟩
  · simp only [bind_eq_ok, pure_eq_ok] at done
    obtain ⟨finish, _, decision, _, rfl⟩ := done
    exact ⟨_, _, rfl⟩

/-- A later world with the same context, in which the invariant holds. -/
structure Onward (world later : AgentWorld Key) : Prop where
  kept : later.Kept
  grows : Grows world later
  version : later.context.contextVersion = world.context.contextVersion
  covered : later.context.memoryCoveredThrough = world.context.memoryCoveredThrough

theorem Kept.appendResult (kept : world.Kept) (input : TaskInput) (call : ToolCall) (content : String) :
    Onward world (world.appendResult input call content) :=
  ⟨kept.append .., grows_append .., rfl, rfl⟩

theorem Onward.trans {middle : AgentWorld Key} (first : Onward world middle)
    (second : Onward middle later) : Onward world later :=
  ⟨second.kept, first.grows.trans second.grows, second.version.trans first.version,
    second.covered.trans first.covered⟩

theorem Kept.appendResults (kept : world.Kept) (input : TaskInput) (calls : List ToolCall)
    (content : String) : Onward world (calls.foldl (fun world call => world.appendResult input call content) world) := by
  induction calls generalizing world with
  | nil => exact ⟨kept, .refl world, rfl, rfl⟩
  | cons call rest inductionHypothesis =>
    have first := kept.appendResult input call content
    exact first.trans (inductionHypothesis first.kept)

theorem Storable.afterResults (ok : Storable world input checkpoint)
    (platform : AgentPlatform Key) (calls : List ToolCall) :
    Storable world input (calls.foldl (AgentWorld.afterResult platform input) checkpoint) := by
  induction calls generalizing checkpoint with
  | nil => exact ok
  | cons call rest inductionHypothesis => exact inductionHypothesis (ok.afterResult platform call)

/-- The end of a turn behind records that were added. -/
theorem Onward.finish (onward : Onward world later) (ok : TaskOk world task)
    (storable : task.input.config.memoryEnabled = true → Storable later task.input checkpoint)
    (result : TurnResult) (memory : Option HeldEntries) (stale : Bool) :
    (later.finish task checkpoint result memory stale).Kept ∧
      world.context.memoryCoveredThrough ≤
        (later.finish task checkpoint result memory stale).context.memoryCoveredThrough := by
  have unchanged (same : task.input.initialContext.contextVersion = later.context.contextVersion) :
      task.input.initialContext.memoryCoveredThrough = later.context.memoryCoveredThrough :=
    (ok.unchanged (same.trans onward.version)).trans onward.covered.symm
  exact onward.covered ▸ onward.kept.finish storable unchanged result memory stale

theorem Kept.stopRun (platform : AgentPlatform Key) (kept : world.Kept) (ok : TaskOk world task)
    (fine : CursorOk world task.input checkpoint) (reason : String) (stale : Bool) :
    (world.stopRun platform task checkpoint reason stale).Kept ∧
      world.context.memoryCoveredThrough ≤
        (world.stopRun platform task checkpoint reason stale).context.memoryCoveredThrough := by
  have onward := kept.appendResults task.input checkpoint.pendingCalls
    (.ofList (Encoding.dumps.object [("ok", Encoding.dumps.bool false),
      ("error", Encoding.dumps.object [("code", Encoding.dumps.text reason)])]))
  exact onward.finish ok (fun _ => ((fine.storable ok.known).grow onward.grows).afterResults
    platform checkpoint.pendingCalls) _ _ _

theorem Kept.terminate (kept : world.Kept) (task : AgentTask Key) :
    (world.terminate task).Kept ∧
      world.context.memoryCoveredThrough ≤ (world.terminate task).context.memoryCoveredThrough := by
  have onward := kept.appendResults task.input task.checkpoint.pendingCalls
    "\x7b\"ok\":false,\"error\":\x7b\"code\":\"MANUAL_TERMINATED\"\x7d\x7d"
  exact ⟨((onward.kept.publish _).append ..).setTask nofun, onward.covered.ge⟩

theorem Kept.accept (kept : world.Kept) {id : Nat} {content : String} {settings : AgentSettings}
    {request : DecisionRequest} (done : world.accept id content settings request = some later) :
    later.Kept ∧ world.context.memoryCoveredThrough ≤ later.context.memoryCoveredThrough := by
  unfold AgentWorld.accept at done
  dsimp only at done
  split at done
  · cases done
  · next tasks inserted =>
    obtain rfl := Option.some.inj done
    have said := kept.append (.buyerInput content) .everyone none false
    have noted := said.append .runConfig .internal (some id) false
    have grows : Grows world { (world.append (.buyerInput content) .everyone none false).append
        .runConfig .internal (some id) false with tasks } :=
      ((grows_append ..).trans (grows_append ..)).trans
        (.same rfl rfl (fun _ old => old) fun _ old => old)
    refine ⟨⟨noted.ordered, noted.covered, noted.below, fun task member running => ?_⟩, le_rfl⟩
    rcases (Table.mem_insert inserted task).mp member with rfl | old
    · refine ⟨rfl, ?_, le_rfl, fun _ => rfl, ⟨le_rfl, kept.below, ?_, nofun, nofun⟩, nofun⟩
      · change world.context.nextStreamSeq < world.context.nextStreamSeq + 1 + 1
        omega
      · exact kept.covered.grow kept.below grows
    · exact (kept.tasks task old running).grow grows le_rfl fun _ => rfl

theorem Kept.perform [DecidableEq Key] (kept : world.Kept) (ok : TaskOk world task)
    (fine : CursorOk world task.input checkpoint)
    (done : task.input.config.memoryEnabled = true → checkpoint.memoryRefreshDone = true)
    (call : ToolCall) (error : Option String) (returned : ToolReturn) :
    (world.perform platform task checkpoint call error returned).Kept ∧
      world.context.memoryCoveredThrough ≤
        (world.perform platform task checkpoint call error
          returned).context.memoryCoveredThrough := by
  unfold AgentWorld.perform
  split
  · exact ⟨kept.goOn ok fine call _, le_rfl⟩
  · split
    · split
      · exact ⟨kept.goOn ok fine call _, le_rfl⟩
      · next finished finishes =>
        obtain ⟨delta, result, rfl⟩ := finishTurn_eq_ok finishes
        have concluded : Onward world { world with
            concluded := world.concluded ++
              if (settleMemory task.input (world.records task.input) checkpoint delta
                result).applied then [task.input.currentInputSeq] else [] } :=
          ⟨kept.conclude _, .same rfl rfl (fun _ => id) fun _ => List.mem_append_left _, rfl, rfl⟩
        have onward := concluded.trans
          (concluded.kept.appendResult task.input call returned.content)
        exact onward.finish ok (fun enabled => ((fine.settle ok.known enabled (done enabled) _ delta
          result).grow (grows_append ..)).afterResult platform call) _ _ _
    · split
      · exact ⟨kept.goOn ok fine call _, le_rfl⟩
      · have onward := kept.appendResult task.input call returned.content
        exact onward.finish ok (fun _ => ((fine.storable ok.known).grow onward.grows).afterResult
          platform call) _ _ _

/-! ### Runs -/

theorem byWorker_eq_some {id : Nat}
    {go : AgentTask Key → Worker Key → Option (AgentWorld Key)} :
    world.byWorker id go = some later ↔ ∃ task worker, world.tasks.get id = some task ∧
      task.status = .open ∧ task.worker = some worker ∧ go task worker = some later := by
  unfold byWorker
  constructor
  · intro done
    split at done
    · cases done
    · next task found =>
      split at done
      · next worker running leased => exact ⟨task, worker, found, running, leased, done⟩
      · cases done
  · rintro ⟨task, worker, found, running, leased, done⟩
    simp only [found, running, leased, done]

/-- A step keeps the invariant and does not take the cursor back. -/
theorem Kept.step [DecidableEq Key] (kept : world.Kept) {event : AgentEvent}
    (done : world.step platform event = some later) :
    later.Kept ∧ world.context.memoryCoveredThrough ≤ later.context.memoryCoveredThrough := by
  have open_ {id : Nat} {task : AgentTask Key} (found : world.tasks.get id = some task)
      (running : task.status = .open) : TaskOk world task :=
    kept.tasks task (Table.mem_of_get found) running
  cases event with
  | note body visibility =>
    obtain rfl := Option.some.inj done
    exact ⟨kept.append .., le_rfl⟩
  | accept id content settings request => exact kept.accept done
  | lease id =>
    unfold AgentWorld.step at done
    dsimp only at done
    split at done
    · cases done
    · next task found =>
      split at done
      · next running =>
        obtain rfl := Option.some.inj done
        exact ⟨kept.setTask fun _ => (open_ found running).go (open_ found running).saved trivial,
          le_rfl⟩
      · cases done
  | crash id =>
    obtain ⟨task, worker, found, running, _, crashed⟩ := byWorker_eq_some.mp done
    obtain rfl := Option.some.inj crashed
    have ok := open_ found running
    exact ⟨kept.setTask fun _ => ⟨ok.contiguous, ok.known, ok.version, ok.unchanged, ok.saved, nofun⟩,
      le_rfl⟩
  | beginRefresh id =>
    obtain ⟨task, worker, found, running, leased, done⟩ := byWorker_eq_some.mp done
    have ok := open_ found running
    split at done
    · split at done
      · obtain rfl := Option.some.inj done
        exact ⟨kept.beginRefresh platform ok (ok.worker worker leased).1,
          (congrArg _ (beginRefresh_context ..)).ge⟩
      · cases done
    · cases done
  | endRefresh id response =>
    obtain ⟨task, worker, found, running, leased, done⟩ := byWorker_eq_some.mp done
    have ok := open_ found running
    obtain ⟨fine, stageOk⟩ := ok.worker worker leased
    split at done
    · next front records last stage =>
      obtain rfl := Option.some.inj done
      exact ⟨kept.endRefresh ok fine (stage ▸ stageOk) response,
        (congrArg _ (endRefresh_context ..)).ge⟩
    · cases done
  | respond id message rejected =>
    obtain ⟨task, worker, found, running, leased, done⟩ := byWorker_eq_some.mp done
    have ok := open_ found running
    split at done
    · split at done
      · next ready =>
        obtain rfl := Option.some.inj done
        refine ⟨kept.respond ok (ok.worker worker leased).1 ready.2 message rejected, ?_⟩
        unfold AgentWorld.respond
        split <;> exact le_rfl
      · cases done
    · cases done
  | answer id answer =>
    obtain ⟨task, worker, found, running, leased, done⟩ := byWorker_eq_some.mp done
    have ok := open_ found running
    split at done
    · split at done
      · unfold AgentWorld.answer at done
        split at done
        · cases done
        · dsimp only at done
          split at done
          · obtain rfl := Option.some.inj done
            exact ⟨kept.answers ok (ok.worker worker leased).1 _, le_rfl⟩
          · cases done
      · cases done
    · cases done
  | judge id failure =>
    obtain ⟨task, worker, found, running, leased, done⟩ := byWorker_eq_some.mp done
    have ok := open_ found running
    have fine := (ok.worker worker leased).1
    split at done
    · split at done
      · unfold AgentWorld.judge at done
        split at done
        · obtain rfl := Option.some.inj done
          exact ⟨kept.setTask fun _ => ok.go fine trivial, le_rfl⟩
        · dsimp only at done
          split at done
          · obtain rfl := Option.some.inj done
            exact ⟨kept.setTask fun _ => ok.go fine trivial, le_rfl⟩
          · obtain ⟨verdict, _, rfl⟩ := Option.map_eq_some_iff.mp done
            exact ⟨kept.judged ok fine _ _ _, le_rfl⟩
      · cases done
    · cases done
  | execute id stale returned =>
    obtain ⟨task, worker, found, running, leased, done⟩ := byWorker_eq_some.mp done
    have ok := open_ found running
    have fine := (ok.worker worker leased).1
    split at done
    · cases done
    · next call rest waiting =>
      obtain ⟨error, _, rfl⟩ := Option.map_eq_some_iff.mp done
      split
      · exact kept.stopRun platform ok fine _ true
      · have ready enabled := fine.ready enabled (waiting ▸ List.cons_ne_nil call rest)
        exact kept.perform ok fine ready call error returned
  | stop id reason stale =>
    obtain ⟨task, worker, found, running, leased, done⟩ := byWorker_eq_some.mp done
    obtain rfl := Option.some.inj done
    have ok := open_ found running
    exact kept.stopRun platform ok (ok.worker worker leased).1 reason stale
  | terminate id =>
    unfold AgentWorld.step at done
    dsimp only at done
    split at done
    · cases done
    · split at done
      · obtain rfl := Option.some.inj done
        exact kept.terminate _
      · cases done

end

section

variable [DecidableEq Key] (platform : AgentPlatform Key)

def Steps (world : AgentWorld Key) (event : AgentEvent) (later : AgentWorld Key) : Prop :=
  world.step platform event = some later

/-- The conversation can come to this. -/
def Reached (world : AgentWorld Key) : Prop := Reachable (Steps platform) (· = {}) world

theorem Reached.kept {world : AgentWorld Key} (reached : Reached platform world) : world.Kept := by
  refine Reachable.invariant Kept (fun world begins => ?_)
    (fun before event after kept taken => (kept.step taken).1) reached
  rw [begins]
  exact ⟨⟨List.Pairwise.nil, nofun⟩, nofun, zero_lt_one, fun task member => absurd member
    (Table.not_mem_empty task)⟩

/-- In whatever way a conversation is led, the stored cursor never goes back, and every message of
the buyer up to it was among the records of an update of the memory that succeeded or was the input
of a turn that ended with an update that was applied. -/
theorem memory_leaves_no_gap {world : AgentWorld Key} (reached : Reached platform world) :
    (∀ event later, world.step platform event = some later →
      world.context.memoryCoveredThrough ≤ later.context.memoryCoveredThrough) ∧
    ∀ row ∈ world.ledger, row.record.visibility = .everyone → row.record.kind = .buyerInput →
      row.record.seq ≤ world.context.memoryCoveredThrough →
      row.record.seq ∈ world.remembered ∨ row.record.seq ∈ world.concluded :=
  ⟨fun _ _ taken => (reached.kept.step taken).2, reached.kept.covered⟩

/-- The conversation after some events. -/
def run (events : List AgentEvent) : Option (AgentWorld Key) :=
  events.foldlM (AgentWorld.step platform) {}

theorem reached_of_run {events : List AgentEvent} {world : AgentWorld Key}
    (done : run platform events = some world) : Reached platform world := by
  have from_ {events : List AgentEvent} {first last : AgentWorld Key}
      (reached : Reached platform first)
      (done : events.foldlM (AgentWorld.step platform) first = some last) :
      Reached platform last := by
    induction events generalizing first with
    | nil => exact Option.some.inj done ▸ reached
    | cons event rest inductionHypothesis =>
      rw [List.foldlM_cons] at done
      obtain ⟨middle, taken, later⟩ := Option.bind_eq_some_iff.mp done
      exact inductionHypothesis (reached.next taken) later
  exact from_ (.start rfl) done

end

/-- A platform on which every call of `finish_turn` rejects the offer. -/
def plainPlatform : AgentPlatform String where
  digest payload := payload.reply
  parseConversation _ := .error "not a conversation"
  parseFinish _ := .ok { action := .reject, reason := "-", reply := "-" }
  parseReview text := .error text
  oversized _ _ := false
  recordTool memory _ := memory
  resolve _ reply _ := ⟨reply, false⟩

/-- One turn, from the message of the buyer to the reply. -/
def plainTurn : List AgentEvent :=
  [.accept 1 "-" ⟨true, false⟩ ⟨[("product", .object [])], [], none⟩, .lease 1, .beginRefresh 1,
    .respond 1 (.ai "" [⟨"a", "finish_turn", ""⟩]) false, .execute 1 false ⟨"", none⟩]

theorem memory_leaves_no_gap_plainTurn : ∃ world, run plainPlatform plainTurn = some world ∧
    world.context.memoryCoveredThrough = 1 ∧
    (∀ event later, world.step plainPlatform event = some later →
      world.context.memoryCoveredThrough ≤ later.context.memoryCoveredThrough) ∧
    ∀ row ∈ world.ledger, row.record.visibility = .everyone → row.record.kind = .buyerInput →
      row.record.seq ≤ world.context.memoryCoveredThrough →
      row.record.seq ∈ world.remembered ∨ row.record.seq ∈ world.concluded := by
  have covers : ((run plainPlatform plainTurn).any fun world =>
      decide (world.context.memoryCoveredThrough = 1)) = true := by decide +kernel
  obtain ⟨world, done, covered⟩ := (Option.any_eq_true _ _).mp covers
  exact ⟨world, done, of_decide_eq_true covered,
    memory_leaves_no_gap plainPlatform (reached_of_run plainPlatform done)⟩

end Negotiation.Agent.AgentWorld
