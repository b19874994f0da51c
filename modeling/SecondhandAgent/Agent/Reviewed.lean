/-
This file proves that the replies of a conversation are bound to their review.
A review is filed under the digest of what it is about, and what it is about,
apart from the action and the text, stays the same as long as a run lasts: the
facts are frozen, and what was said up to the input is not added to. So the key
that a reply is published under is the key it was reviewed under, a review is
never replaced by another one, and a text that was rejected once stays rejected
however the rest of the call is written.
-/

import SecondhandAgent.Agent.Coverage

namespace Negotiation.Agent.AgentWorld

open Store Regex

variable {Key : Type}

/-! ### What is visible -/

section

variable {world later : AgentWorld Key} {input : TaskInput}

/-- The public records up to a place. -/
def visible (ledger : List LedgerRow) (through : Int) : List StreamRecord :=
  (ledger.map LedgerRow.record).filter fun record =>
    decide (record.visibility = .everyone ∧ record.seq ≤ through)

/-- A run reads all public records up to its input. -/
theorem filter_records (world : AgentWorld Key) (input : TaskInput) :
    ((world.records input).filter fun record =>
      decide (record.visibility = .everyone ∧ record.seq ≤ input.currentInputSeq)) =
      visible world.ledger input.currentInputSeq := by
  unfold records visible
  rw [List.filter_map, List.filter_map, List.filter_filter]
  refine congrArg _ (List.filter_congr fun row _ => ?_)
  cases shown : decide (row.record.visibility = .everyone ∧
      row.record.seq ≤ input.currentInputSeq) with
  | false => simp only [Function.comp, shown, Bool.false_and]
  | true =>
    obtain ⟨everyone, old⟩ := of_decide_eq_true shown
    unfold readable
    simp only [Function.comp, everyone, old, and_self, decide_true, Bool.true_or, Bool.true_and]

/-- What was said up to the input stays the same. -/
theorem conversationOf_grow (grows : Grows world later)
    (known : input.currentInputSeq < world.context.nextStreamSeq) :
    conversationOf (later.records input) input.currentInputSeq =
      conversationOf (world.records input) input.currentInputSeq := by
  obtain ⟨more, same, new⟩ := grows.rows
  have nothing : (more.map LedgerRow.record).filter (fun record =>
      decide (record.visibility = .everyone ∧ record.seq ≤ input.currentInputSeq)) = [] := by
    refine List.filter_eq_nil_iff.mpr fun record member old => ?_
    obtain ⟨row, place, rfl⟩ := List.mem_map.mp member
    have late := new row place
    have old := (of_decide_eq_true old).2
    omega
  have still : visible later.ledger input.currentInputSeq =
      visible world.ledger input.currentInputSeq := by
    unfold visible
    rw [same, List.map_append, List.filter_append, nothing, List.append_nil]
  unfold conversationOf
  dsimp only
  rw [filter_records, filter_records, still]

theorem payload_grow (grows : Grows world later)
    (known : input.currentInputSeq < world.context.nextStreamSeq)
    (decision : ConversationDecision) :
    input.payload (later.records input) decision = input.payload (world.records input) decision := by
  unfold TaskInput.payload reviewInput
  rw [conversationOf_grow grows known]

end

/-! ### What a step does to the reviews -/

section

variable [DecidableEq Key] (platform : AgentPlatform Key)

/-- What a step can do to the reviews of an open task. -/
inductive Changed (world : AgentWorld Key) (task next : AgentTask Key) : Prop
  | keeps (input : next.input = task.input) (reviewed : next.reviewed = task.reviewed)
      (answers : next.answers = task.answers)
      (saved : next.checkpoint.replyReviews = task.checkpoint.replyReviews)
      (worker : ∀ worker, next.worker = some worker →
        worker.checkpoint.replyReviews = task.checkpoint.replyReviews)
  | answered (key : Key) (answer : ReviewAnswer)
      (unreviewed : task.checkpoint.replyReviews.lookup key = none)
      (unanswered : task.answers.lookup key = none)
      (input : next.input = task.input) (reviewed : next.reviewed = task.reviewed)
      (answers : next.answers = (key, answer) :: task.answers)
      (saved : next.checkpoint.replyReviews = task.checkpoint.replyReviews)
      (worker : ∀ worker, next.worker = some worker →
        worker.checkpoint.replyReviews = task.checkpoint.replyReviews)
  | judged (decision : ConversationDecision) (failure : Option String) (verdict : ReplyReview)
      (unreviewed : task.checkpoint.replyReviews.lookup
        (task.input.reviewKey platform (world.records task.input) decision) = none)
      (given : newVerdict platform task
        (task.input.reviewKey platform (world.records task.input) decision) decision failure =
          some verdict)
      (input : next.input = task.input)
      (reviewed : next.reviewed =
        (task.input.payload (world.records task.input) decision, verdict) :: task.reviewed)
      (answers : next.answers = task.answers)
      (saved : next.checkpoint.replyReviews =
        (task.input.reviewKey platform (world.records task.input) decision, verdict) ::
          task.checkpoint.replyReviews)
      (worker : ∀ worker, next.worker = some worker →
        worker.checkpoint.replyReviews = next.checkpoint.replyReviews)

/-- A reply of the model was published with an approved review. -/
def Backed (world : AgentWorld Key) (task : AgentTask Key) (publication : Publication) : Prop :=
  ∀ decision, publication.written = some decision → publication.reply = decision.reply ∧
    ∃ review, task.checkpoint.replyReviews.lookup
        (task.input.reviewKey platform (world.records task.input) decision) = some review ∧
      review.approved = true ∧ validateReviewEvidence review task.input.facts = .ok ()

/-- What a step can do. -/
inductive Moves (world later : AgentWorld Key) : Prop
  | aside (grows : Grows world later) (tasks : later.tasks = world.tasks)
      (publications : later.publications = world.publications)
  | made (grows : Grows world later) (task : AgentTask Key)
      (known : task.input.currentInputSeq < later.context.nextStreamSeq)
      (plain : task.reviewed = [] ∧ task.answers = [] ∧ task.checkpoint.replyReviews = [] ∧
        task.worker = none)
      (tasks : ∀ other, other ∈ later.tasks ↔ other = task ∨ other ∈ world.tasks)
      (publications : later.publications = world.publications)
  | changed (grows : Grows world later) (task next : AgentTask Key) (member : task ∈ world.tasks)
      (running : task.status = .open) (tasks : later.tasks = world.tasks.put next)
      (change : Changed platform world task next)
      (publications : later.publications = world.publications)
  | ended (grows : Grows world later) (task next : AgentTask Key) (member : task ∈ world.tasks)
      (running : task.status = .open) (tasks : later.tasks = world.tasks.put next)
      (input : next.input = task.input) (reviewed : next.reviewed = task.reviewed)
      (answers : next.answers = task.answers)
      (saved : next.checkpoint.replyReviews = task.checkpoint.replyReviews)
      (worker : next.worker = none) (closed : next.status ≠ .open) (publication : Publication)
      (of : publication.taskId = task.id) (backed : Backed platform world task publication)
      (publications : later.publications = world.publications ++ [publication])

/-! ### The end of a turn -/

variable {platform} {world : AgentWorld Key} {task : AgentTask Key} {input : TaskInput}
variable {checkpoint : RunCheckpoint Key} {call : ToolCall}

omit [DecidableEq Key] in
theorem storeContext_effect (world : AgentWorld Key) (input : TaskInput)
    (checkpoint : RunCheckpoint Key) (memory : Option HeldEntries) :
    Grows world (world.storeContext input checkpoint memory) ∧
      (world.storeContext input checkpoint memory).tasks = world.tasks ∧
      (world.storeContext input checkpoint memory).publications = world.publications := by
  unfold AgentWorld.storeContext
  split
  · split
    · exact ⟨(grows_append world .contextArtifact .internal (some input.id) false).trans
        (.same rfl rfl (fun _ => id) fun _ => id), rfl, rfl⟩
    · exact ⟨.same rfl rfl (fun _ => id) fun _ => id, rfl, rfl⟩
  · exact ⟨.same rfl rfl (fun _ => id) fun _ => id, rfl, rfl⟩

omit [DecidableEq Key] in
theorem finish_effect (world : AgentWorld Key) (task : AgentTask Key)
    (checkpoint : RunCheckpoint Key) (result : TurnResult) (memory : Option HeldEntries)
    (stale : Bool) :
    Grows world (world.finish task checkpoint result memory stale) ∧
      (world.finish task checkpoint result memory stale).tasks = world.tasks.put { task with
        checkpoint := { checkpoint with pendingCalls := [] }
        status := if stale then .stale else .succeeded
        worker := none } ∧
      (world.finish task checkpoint result memory stale).publications = world.publications ++
        [⟨task.id, result.reply, result.outcome, result.formalOfferId, result.written⟩] := by
  unfold AgentWorld.finish
  dsimp only
  generalize (⟨task.id, result.reply, result.outcome, result.formalOfferId, result.written⟩ :
    Publication) = publication
  have published := (grows_publish world publication).trans
    (grows_append _ (.publicReply result.reply) .everyone (some task.id) false)
  split
  · obtain ⟨grows, tasks, publications⟩ := storeContext_effect
      ((world.publish publication).append (.publicReply result.reply) .everyone (some task.id) false)
      task.input checkpoint (memory.or checkpoint.memory)
    refine ⟨(published.trans grows).trans (grows_setTask ..), ?_,
      publications⟩
    unfold setTask
    dsimp only
    rw [tasks]
    rfl
  · exact ⟨published.trans (grows_setTask ..), rfl, rfl⟩

/-- The end of a turn behind records that were added. -/
theorem Moves.finish {between : AgentWorld Key} (grows : Grows world between)
    (tasks : between.tasks = world.tasks) (publications : between.publications = world.publications)
    (member : task ∈ world.tasks) (running : task.status = .open)
    (same : checkpoint.replyReviews = task.checkpoint.replyReviews) (result : TurnResult)
    (memory : Option HeldEntries) (stale : Bool)
    (backed : Backed platform world task
      ⟨task.id, result.reply, result.outcome, result.formalOfferId, result.written⟩) :
    Moves platform world (between.finish task checkpoint result memory stale) := by
  obtain ⟨onward, put, published⟩ := finish_effect between task checkpoint result memory stale
  rw [tasks] at put
  rw [publications] at published
  have closed : (if stale = true then RunStatus.stale else .succeeded) ≠ .open := by
    cases stale <;> decide
  exact .ended (grows.trans onward) task _ member running put rfl rfl rfl same rfl closed _ rfl
    backed published

omit [DecidableEq Key] in
theorem appendResults_effect (world : AgentWorld Key) (input : TaskInput) (calls : List ToolCall)
    (content : String) :
    Grows world (calls.foldl (fun world call => world.appendResult input call content) world) ∧
      (calls.foldl (fun world call => world.appendResult input call content) world).tasks =
        world.tasks ∧
      (calls.foldl (fun world call => world.appendResult input call content) world).publications =
        world.publications := by
  induction calls generalizing world with
  | nil => exact ⟨.refl world, rfl, rfl⟩
  | cons call rest inductionHypothesis =>
    obtain ⟨grows, tasks, publications⟩ :=
      inductionHypothesis (world.appendResult input call content)
    exact ⟨(grows_append world (.toolResult (.tool content call.id call.name)) .internal
      (some input.id) true).trans grows, tasks, publications⟩

omit [DecidableEq Key] in
theorem afterResults_reviews (platform : AgentPlatform Key) (input : TaskInput)
    (checkpoint : RunCheckpoint Key) (calls : List ToolCall) :
    (calls.foldl (afterResult platform input) checkpoint).replyReviews =
      checkpoint.replyReviews := by
  induction calls generalizing checkpoint with
  | nil => rfl
  | cons call rest inductionHypothesis => exact inductionHypothesis _

theorem Moves.stopRun (member : task ∈ world.tasks) (running : task.status = .open)
    (same : checkpoint.replyReviews = task.checkpoint.replyReviews) (reason : String)
    (stale : Bool) : Moves platform world (world.stopRun platform task checkpoint reason stale) := by
  obtain ⟨grows, tasks, publications⟩ := appendResults_effect world task.input
    checkpoint.pendingCalls (.ofList (Encoding.dumps.object [("ok", Encoding.dumps.bool false),
      ("error", Encoding.dumps.object [("code", Encoding.dumps.text reason)])]))
  exact .finish grows tasks publications member running
    ((afterResults_reviews platform task.input checkpoint checkpoint.pendingCalls).trans same) _ _ _
    nofun

/-! ### A reply that is published -/

omit [DecidableEq Key] in
/-- Only the reviewed reply counts as written by the model. -/
theorem applyPrepared_written {request : DecisionRequest} {decision : FinishDecision}
    {validated : Option (DialogueReply × ConversationDecision)} {written : ConversationDecision}
    (by_ : (applyPrepared platform request decision validated).written = some written) :
    ∃ reply, validated = some (reply, written) ∧
      (applyPrepared platform request decision validated).reply = reply.text := by
  have direct {decision : FinishDecision}
      {validated : Option (DialogueReply × ConversationDecision)}
      (by_ : (executeDecision platform request decision validated).written = some written) :
      ∃ reply, validated = some (reply, written) ∧
        (executeDecision platform request decision validated).reply = reply.text := by
    unfold executeDecision at by_ ⊢
    split at by_
    · split at by_
      · obtain rfl := Option.some.inj by_
        exact ⟨_, rfl, rfl⟩
      · split at by_ <;> cases by_
      · cases by_
    · cases by_
  unfold applyPrepared at by_ ⊢
  split at by_
  · obtain ⟨reply, none, _⟩ := direct by_
    cases none
  · exact direct by_

omit [DecidableEq Key] in
theorem settleMemory_keeps (input : TaskInput) (records : List StreamRecord)
    (checkpoint : RunCheckpoint Key) (delta : MemoryDelta) (result : TurnResult) :
    (settleMemory input records checkpoint delta result).result = result ∧
      (settleMemory input records checkpoint delta result).checkpoint.replyReviews =
        checkpoint.replyReviews := by
  unfold settleMemory
  dsimp only
  split
  · split
    · refine ⟨rfl, ?_⟩
      dsimp only
      split <;> rfl
    · exact ⟨rfl, rfl⟩
  · refine ⟨rfl, ?_⟩
    dsimp only
    split <;> rfl

/-- What `finish_turn` publishes for the model has an approved review. -/
theorem finishTurn_backed {records : List StreamRecord} {finished : FinishedCall Key}
    (done : finishTurn platform input records checkpoint call = .ok finished) :
    finished.checkpoint.replyReviews = checkpoint.replyReviews ∧
      ∀ decision, finished.result.written = some decision →
        finished.result.reply = decision.reply ∧
        ∃ review, checkpoint.replyReviews.lookup (input.reviewKey platform records decision) =
            some review ∧
          review.approved = true ∧ validateReviewEvidence review input.facts = .ok () := by
  unfold finishTurn at done
  split at done
  · simp only [bind_eq_ok, pure_eq_ok] at done
    obtain ⟨finish, _, reply, reviewed, rfl⟩ := done
    obtain ⟨result, reviews⟩ := settleMemory_keeps input records checkpoint finish.memoryDelta
      (applyPrepared platform input.request finish.decision.businessDecision
        (some (reply, finish.decision)))
    refine ⟨reviews, fun decision written => ?_⟩
    rw [result] at written ⊢
    obtain ⟨shown, same, text⟩ := applyPrepared_written written
    obtain ⟨rfl, rfl⟩ := Prod.mk.inj (Option.some.inj same)
    unfold reviewedReply at reviewed
    simp only [bind_eq_ok, expect_eq_ok, require_eq_ok, pure_eq_ok] at reviewed
    obtain ⟨review, filed, _, approved, _, valid, rfl⟩ := reviewed
    exact ⟨text, review, filed, approved, valid⟩
  · simp only [bind_eq_ok, pure_eq_ok] at done
    obtain ⟨finish, _, decision, _, rfl⟩ := done
    obtain ⟨result, reviews⟩ := settleMemory_keeps input records checkpoint finish.memoryDelta
      (applyPrepared platform input.request decision none)
    refine ⟨reviews, fun written by_ => ?_⟩
    rw [result] at by_
    obtain ⟨_, none, _⟩ := applyPrepared_written by_
    cases none

/-! ### The other steps -/

theorem Moves.save {between : AgentWorld Key} (grows : Grows world between)
    (tasks : between.tasks = world.tasks) (publications : between.publications = world.publications)
    (member : task ∈ world.tasks) (running : task.status = .open)
    (same : checkpoint.replyReviews = task.checkpoint.replyReviews) (stage : Stage) :
    Moves platform world (between.save task checkpoint stage) := by
  refine .changed (grows.trans (grows_setTask ..)) task
    { task with checkpoint, worker := some ⟨checkpoint, stage⟩ } member running ?_
    (.keeps rfl rfl rfl same fun worker holds => Option.some.inj holds ▸ same) publications
  unfold AgentWorld.save setTask
  dsimp only
  rw [tasks]

theorem Moves.go (member : task ∈ world.tasks) (running : task.status = .open)
    (same : checkpoint.replyReviews = task.checkpoint.replyReviews) (stage : Stage) :
    Moves platform world (world.setTask { task with worker := some ⟨checkpoint, stage⟩ }) :=
  .changed (grows_setTask ..) task _ member running rfl
    (.keeps rfl rfl rfl rfl fun _ holds => Option.some.inj holds ▸ same) rfl

theorem Moves.goOn (member : task ∈ world.tasks) (running : task.status = .open)
    (same : checkpoint.replyReviews = task.checkpoint.replyReviews) (call : ToolCall)
    (content : String) : Moves platform world (world.goOn platform task checkpoint call content) :=
  .save (grows_append ..) rfl rfl member running (by exact same) .idle

theorem Moves.perform (member : task ∈ world.tasks) (running : task.status = .open)
    (same : checkpoint.replyReviews = task.checkpoint.replyReviews) (call : ToolCall)
    (error : Option String) (returned : ToolReturn) :
    Moves platform world (world.perform platform task checkpoint call error returned) := by
  unfold AgentWorld.perform
  split
  · exact .goOn member running same call _
  · split
    · split
      · exact .goOn member running same call _
      · next finished finishes =>
        obtain ⟨reviews, backed⟩ := finishTurn_backed finishes
        rw [same] at backed
        have grows : Grows world { world with
            concluded := world.concluded ++
              if finished.applied then [task.input.currentInputSeq] else [] } :=
          .same rfl rfl (fun _ => id) fun _ => List.mem_append_left _
        exact .finish (grows.trans (grows_append ..)) rfl rfl member running
          (by exact reviews.trans same) _ _ _ backed
    · split
      · exact .goOn member running same call _
      · exact .finish (grows_append ..) rfl rfl member running (by exact same) _ _ _
          fun _ none => by cases none

theorem Moves.terminate (member : task ∈ world.tasks) (running : task.status = .open) :
    Moves platform world (world.terminate task) := by
  obtain ⟨grows, tasks, publications⟩ := appendResults_effect world task.input
    task.checkpoint.pendingCalls
    "\x7b\"ok\":false,\"error\":\x7b\"code\":\"MANUAL_TERMINATED\"\x7d\x7d"
  unfold AgentWorld.terminate
  dsimp only
  refine .ended (grows.trans ((grows_publish ..).trans ((grows_append ..).trans
    (grows_setTask ..)))) task { task with
      checkpoint := { task.checkpoint with pendingCalls := [] }
      status := .terminated
      worker := none } member running ?_ rfl rfl rfl rfl rfl nofun _ rfl ?_
    (congrArg (· ++ [_]) publications)
  · unfold setTask publish append
    dsimp only
    rw [tasks]
  · exact fun _ none => by cases none

/-- The worker's copy has the reviews that were saved. -/
def Synced (task : AgentTask Key) : Prop :=
  ∀ worker, task.worker = some worker →
    worker.checkpoint.replyReviews = task.checkpoint.replyReviews

theorem step_moves (synced : ∀ task ∈ world.tasks, Synced task) {event : AgentEvent}
    {later : AgentWorld Key} (done : world.step platform event = some later) :
    Moves platform world later := by
  cases event with
  | note body visibility =>
    obtain rfl := Option.some.inj done
    exact .aside (grows_append ..) rfl rfl
  | accept id content settings request =>
    change world.accept id content settings request = some later at done
    unfold AgentWorld.accept at done
    dsimp only at done
    split at done
    · cases done
    · next tasks inserted =>
      obtain rfl := Option.some.inj done
      have grows := (grows_append world (.buyerInput content) .everyone none false).trans
        (grows_append _ .runConfig .internal (some id) false)
      refine .made (grows.trans (.same rfl rfl (fun _ old => old) fun _ old => old)) _ ?_
        ⟨rfl, rfl, rfl, rfl⟩ (Table.mem_insert inserted) rfl
      change world.context.nextStreamSeq < world.context.nextStreamSeq + 1 + 1
      omega
  | lease id =>
    unfold AgentWorld.step at done
    dsimp only at done
    split at done
    · cases done
    · next task found =>
      split at done
      · next running =>
        obtain rfl := Option.some.inj done
        exact .go (Table.mem_of_get found) running rfl .idle
      · cases done
  | crash id =>
    obtain ⟨task, worker, found, running, _, crashed⟩ := byWorker_eq_some.mp done
    obtain rfl := Option.some.inj crashed
    exact .changed (grows_setTask ..) task _ (Table.mem_of_get found) running
      rfl (.keeps rfl rfl rfl rfl nofun) rfl
  | beginRefresh id =>
    obtain ⟨task, worker, found, running, leased, done⟩ := byWorker_eq_some.mp done
    have member := Table.mem_of_get found
    have same := synced task member worker leased
    split at done
    · split at done
      · obtain rfl := Option.some.inj done
        unfold AgentWorld.beginRefresh
        dsimp only
        split
        · split <;> split
          · exact .go member running (by exact same) .idle
          · exact .save (.refl world) rfl rfl member running (by exact same) _
          · exact .go member running (by exact same) .idle
          · exact .save (.refl world) rfl rfl member running (by exact same) _
        · exact .go member running (by exact same) .idle
      · cases done
    · cases done
  | endRefresh id response =>
    obtain ⟨task, worker, found, running, leased, done⟩ := byWorker_eq_some.mp done
    have member := Table.mem_of_get found
    have same := synced task member worker leased
    split at done
    · obtain rfl := Option.some.inj done
      unfold AgentWorld.endRefresh
      split
      · exact .save (.refl world) rfl rfl member running (by exact same) _
      · split
        · exact .save (.refl world) rfl rfl member running (by exact same) _
        · have grows (seqs : List Int) :
              Grows world { world with remembered := world.remembered ++ seqs } :=
            .same rfl rfl (fun _ => List.mem_append_left _) fun _ old => old
          exact .save (grows _) rfl rfl member running (by exact same) _
    · cases done
  | respond id message rejected =>
    obtain ⟨task, worker, found, running, leased, done⟩ := byWorker_eq_some.mp done
    have member := Table.mem_of_get found
    have same := synced task member worker leased
    split at done
    · split at done
      · obtain rfl := Option.some.inj done
        unfold AgentWorld.respond
        split
        · exact .save (grows_append ..) rfl rfl member running (by exact same) _
        · exact .save (grows_append ..) rfl rfl member running (by exact same) _
      · cases done
    · cases done
  | answer id answer =>
    obtain ⟨task, worker, found, running, leased, done⟩ := byWorker_eq_some.mp done
    have same := synced task (Table.mem_of_get found) worker leased
    split at done
    · split at done
      · unfold AgentWorld.answer at done
        split at done
        · cases done
        · dsimp only at done
          split at done
          · next fresh =>
            obtain rfl := Option.some.inj done
            exact .changed (grows_setTask ..) task _ (Table.mem_of_get found)
              running rfl (.answered _ _ (same ▸ fresh.1) fresh.2.1 rfl rfl rfl same
                fun _ holds => Option.some.inj holds ▸ same) rfl
          · cases done
      · cases done
    · cases done
  | judge id failure =>
    obtain ⟨task, worker, found, running, leased, done⟩ := byWorker_eq_some.mp done
    have member := Table.mem_of_get found
    have same := synced task member worker leased
    split at done
    · split at done
      · unfold AgentWorld.judge at done
        split at done
        · obtain rfl := Option.some.inj done
          exact .go member running (by exact same) _
        · dsimp only at done
          split at done
          · obtain rfl := Option.some.inj done
            exact .go member running (by exact same) _
          · next unreviewed =>
            obtain ⟨verdict, given, rfl⟩ := Option.map_eq_some_iff.mp done
            exact .changed (grows_setTask ..) task _ member running rfl
              (.judged _ failure verdict (same ▸ unreviewed) given rfl rfl rfl
                (congrArg _ same) fun _ holds => Option.some.inj holds ▸ rfl) rfl
      · cases done
    · cases done
  | execute id stale returned =>
    obtain ⟨task, worker, found, running, leased, done⟩ := byWorker_eq_some.mp done
    have member := Table.mem_of_get found
    have same := synced task member worker leased
    split at done
    · cases done
    · obtain ⟨error, _, rfl⟩ := Option.map_eq_some_iff.mp done
      split
      · exact .stopRun member running same _ true
      · exact .perform member running same _ error returned
  | stop id reason stale =>
    obtain ⟨task, worker, found, running, leased, done⟩ := byWorker_eq_some.mp done
    obtain rfl := Option.some.inj done
    have member := Table.mem_of_get found
    exact .stopRun member running (synced task member worker leased) reason stale
  | terminate id =>
    unfold AgentWorld.step at done
    dsimp only at done
    split at done
    · cases done
    · next task found =>
      split at done
      · next running =>
        obtain rfl := Option.some.inj done
        exact .terminate (Table.mem_of_get found) running
      · cases done

end

/-! ### What is known of a task -/

section

variable [DecidableEq Key] (platform : AgentPlatform Key)

theorem mem_of_lookup {Value : Type} {entries : List (Key × Value)}
    {key : Key} {value : Value} (found : entries.lookup key = some value) :
    (key, value) ∈ entries := by
  obtain ⟨front, back, rfl, _⟩ := List.lookup_eq_some_iff.mp found
  exact List.mem_append_right _ List.mem_cons_self

theorem eq_of_lookup {Value : Type} {entries : List (Key × Value)} {key : Key}
    {value other : Value} (once : (entries.map Prod.fst).Nodup)
    (found : entries.lookup key = some value) (member : (key, other) ∈ entries) : other = value :=
  (Prod.mk.inj (List.inj_on_of_nodup_map once member (mem_of_lookup found) rfl)).2

theorem not_mem_of_lookup {Value : Type} {entries : List (Key × Value)} {key : Key}
    (none : entries.lookup key = none) : key ∉ entries.map Prod.fst := by
  rw [List.lookup_eq_none_iff] at none
  rintro member
  obtain ⟨entry, place, rfl⟩ := List.mem_map.mp member
  simpa using none entry place

/-- A review is about what the run knows, and an approval was given to a text that passes the
preliminary check and cites facts only. -/
structure Sound (world : AgentWorld Key) (input : TaskInput)
    (entry : ReviewPayload × ReplyReview) : Prop where
  facts : entry.1.facts = input.facts
  conversation : entry.1.conversation = conversationOf (world.records input) input.currentInputSeq
  current : entry.1.currentInputSeq = input.currentInputSeq
  passed : entry.2.approved = true → preliminaryError entry.1.reply = none
  valid : entry.2.approved = true → validateReviewEvidence entry.2 input.facts = .ok ()

structure TaskAudited (world : AgentWorld Key) (task : AgentTask Key) : Prop where
  synced : Synced task
  known : task.input.currentInputSeq < world.context.nextStreamSeq
  filed : task.checkpoint.replyReviews =
    task.reviewed.map fun entry => (platform.digest entry.1, entry.2)
  sound : ∀ entry ∈ task.reviewed, Sound world task.input entry
  once : (task.checkpoint.replyReviews.map Prod.fst).Nodup
  answeredOnce : (task.answers.map Prod.fst).Nodup
  agrees : ∀ key answer review, (key, answer) ∈ task.answers →
    (key, review) ∈ task.checkpoint.replyReviews → review.approved = true →
      review = verdictOf platform.parseReview task.input.facts answer

structure Audited (world : AgentWorld Key) : Prop where
  tasks : ∀ task ∈ world.tasks, TaskAudited platform world task
  published : ∀ publication ∈ world.publications, ∃ task ∈ world.tasks,
    task.id = publication.taskId ∧ task.status ≠ .open ∧ Backed platform world task publication

variable {platform} {world later : AgentWorld Key} {task next : AgentTask Key}

omit [DecidableEq Key] in
theorem Sound.grow {input : TaskInput} {entry : ReviewPayload × ReplyReview}
    (sound : Sound world input entry) (known : input.currentInputSeq < world.context.nextStreamSeq)
    (grows : Grows world later) : Sound later input entry :=
  { sound with conversation := sound.conversation.trans (conversationOf_grow grows known).symm }

omit [DecidableEq Key] in
theorem TaskAudited.grow (ok : TaskAudited platform world task) (grows : Grows world later) :
    TaskAudited platform later task :=
  { ok with
    known := ok.known.trans_le grows.next
    sound := fun entry member => (ok.sound entry member).grow ok.known grows }

theorem newVerdict_sound {key : Key} {decision : ConversationDecision} {failure : Option String}
    {verdict : ReplyReview} (given : newVerdict platform task key decision failure = some verdict)
    (approved : verdict.approved = true) :
    preliminaryError decision.reply = none ∧ ∃ answer, task.answers.lookup key = some answer ∧
      verdict = verdictOf platform.parseReview task.input.facts answer := by
  unfold newVerdict at given
  split at given
  · obtain rfl := Option.some.inj given
    cases approved
  · next passed =>
    split at given
    · next answer found => exact ⟨passed, answer, found, (Option.some.inj given).symm⟩
    · obtain ⟨error, _, rfl⟩ := Option.map_eq_some_iff.mp given
      cases approved

theorem TaskAudited.change (ok : TaskAudited platform world task)
    (change : Changed platform world task next) : TaskAudited platform world next := by
  cases change with
  | keeps input reviewed answers saved worker =>
    exact ⟨fun held leased => (worker held leased).trans saved.symm, input ▸ ok.known,
      saved.trans (reviewed ▸ ok.filed), input ▸ reviewed ▸ ok.sound, saved ▸ ok.once,
      answers ▸ ok.answeredOnce, by rw [input, answers, saved]; exact ok.agrees⟩
  | answered key answer unreviewed unanswered input reviewed answers saved worker =>
    refine ⟨fun held leased => (worker held leased).trans saved.symm, input ▸ ok.known,
      saved.trans (reviewed ▸ ok.filed), input ▸ reviewed ▸ ok.sound, saved ▸ ok.once, ?_, ?_⟩
    · rw [answers, List.map_cons]
      exact List.nodup_cons.mpr ⟨not_mem_of_lookup unanswered, ok.answeredOnce⟩
    · rw [input, answers, saved]
      intro other given review member filed approved
      rcases List.mem_cons.mp member with here | before
      · obtain ⟨rfl, rfl⟩ := Prod.mk.inj here
        exact absurd (List.mem_map_of_mem filed) (not_mem_of_lookup unreviewed)
      · exact ok.agrees other given review before filed approved
  | judged decision failure verdict unreviewed given input reviewed answers saved worker =>
    refine ⟨worker, input ▸ ok.known, ?_, ?_, ?_, answers ▸ ok.answeredOnce, ?_⟩
    · rw [saved, reviewed, List.map_cons, ok.filed]
      rfl
    · rw [input, reviewed]
      intro entry member
      rcases List.mem_cons.mp member with rfl | before
      · refine ⟨rfl, rfl, rfl, fun approved => (newVerdict_sound given approved).1,
          fun approved => ?_⟩
        obtain ⟨_, answer, _, same⟩ := newVerdict_sound given approved
        dsimp only at same ⊢
        rw [same]
        exact verdictOf_valid ..
      · exact ok.sound entry before
    · rw [saved, List.map_cons]
      exact List.nodup_cons.mpr ⟨not_mem_of_lookup unreviewed, ok.once⟩
    · rw [input, answers, saved]
      intro key answer review member filed approved
      rcases List.mem_cons.mp filed with here | before
      · obtain ⟨rfl, rfl⟩ := Prod.mk.inj here
        obtain ⟨_, found, there, same⟩ := newVerdict_sound given approved
        rw [same, eq_of_lookup ok.answeredOnce there member]
      · exact ok.agrees key answer review member before approved

/-! ### Runs -/

theorem Changed.input (change : Changed platform world task next) : next.input = task.input := by
  cases change with
  | keeps input => exact input
  | answered _ _ _ _ input => exact input
  | judged _ _ _ _ _ input => exact input

theorem Backed.grow {publication : Publication} (backed : Backed platform world task publication)
    (known : task.input.currentInputSeq < world.context.nextStreamSeq) (grows : Grows world later)
    (input : next.input = task.input)
    (saved : next.checkpoint.replyReviews = task.checkpoint.replyReviews) :
    Backed platform later next publication := by
  intro decision written
  obtain ⟨text, review, filed, approved, valid⟩ := backed decision written
  refine ⟨text, review, ?_, approved, input ▸ valid⟩
  rw [saved, input]
  unfold TaskInput.reviewKey at filed ⊢
  rw [payload_grow grows known]
  exact filed

omit [DecidableEq Key] in
/-- Another task than the open one that is written stays. -/
theorem mem_put_of_closed {owner : AgentTask Key} (owned : owner ∈ world.tasks)
    (closed : owner.status ≠ .open) (member : task ∈ world.tasks) (running : task.status = .open)
    (input : next.input = task.input) : owner ∈ world.tasks.put next := by
  refine Table.mem_put_of_mem owned fun same => closed ?_
  have other : owner.id = task.id := same.trans (congrArg TaskInput.id input)
  exact Table.eq_of_key owned member other ▸ running

/-- The replies that were published before stay backed. -/
theorem Audited.owners (audited : Audited platform world) (grows : Grows world later)
    (member : task ∈ world.tasks) (running : task.status = .open)
    (tasks : later.tasks = world.tasks.put next) (input : next.input = task.input) :
    ∀ publication ∈ world.publications, ∃ owner ∈ later.tasks, owner.id = publication.taskId ∧
      owner.status ≠ .open ∧ Backed platform later owner publication := by
  intro publication place
  obtain ⟨owner, owned, of, closed, backed⟩ := audited.published publication place
  exact ⟨owner, tasks ▸ mem_put_of_closed owned closed member running input, of, closed,
    backed.grow (audited.tasks owner owned).known grows rfl rfl⟩

theorem Audited.written (audited : Audited platform world) (grows : Grows world later)
    (tasks : later.tasks = world.tasks.put next) (ok : TaskAudited platform world next) :
    ∀ other ∈ later.tasks, TaskAudited platform later other := by
  intro other place
  rw [tasks] at place
  rcases Table.mem_of_mem_put place with old | rfl
  · exact (audited.tasks other old).grow grows
  · exact ok.grow grows

theorem Audited.move (audited : Audited platform world) (moves : Moves platform world later) :
    Audited platform later := by
  cases moves with
  | aside grows tasks publications =>
    refine ⟨fun task member => (audited.tasks task (tasks ▸ member)).grow grows,
      fun publication place => ?_⟩
    obtain ⟨owner, owned, of, closed, backed⟩ :=
      audited.published publication (publications ▸ place)
    exact ⟨owner, tasks ▸ owned, of, closed,
      backed.grow (audited.tasks owner owned).known grows rfl rfl⟩
  | made grows task known plain tasks publications =>
    obtain ⟨reviewed, answers, reviews, worker⟩ := plain
    refine ⟨fun other member => ?_, fun publication place => ?_⟩
    · rcases (tasks other).mp member with rfl | old
      · refine ⟨?_, known, ?_, ?_, ?_, ?_, ?_⟩
        · exact fun held leased => by rw [worker] at leased; cases leased
        · rw [reviews, reviewed]; rfl
        · rw [reviewed]; exact nofun
        · rw [reviews]; exact List.nodup_nil
        · rw [answers]; exact List.nodup_nil
        · rw [answers]; exact nofun
      · exact (audited.tasks other old).grow grows
    · obtain ⟨owner, owned, of, closed, backed⟩ :=
        audited.published publication (publications ▸ place)
      exact ⟨owner, (tasks owner).mpr (.inr owned), of, closed,
        backed.grow (audited.tasks owner owned).known grows rfl rfl⟩
  | changed grows task next member running tasks change publications =>
    exact ⟨audited.written grows tasks ((audited.tasks task member).change change),
      publications ▸ audited.owners grows member running tasks change.input⟩
  | ended grows task next member running tasks input reviewed answers saved worker closed
      publication of backed publications =>
    have ok := audited.tasks task member
    have change : Changed platform world task next := .keeps input reviewed answers saved
      fun held leased => by rw [worker] at leased; cases leased
    refine ⟨audited.written grows tasks (ok.change change), fun other place => ?_⟩
    rw [publications] at place
    rcases List.mem_append.mp place with old | new
    · exact audited.owners grows member running tasks input other old
    · obtain rfl := List.mem_singleton.mp new
      have same : next.id = task.id := congrArg TaskInput.id input
      exact ⟨next, tasks ▸ Table.mem_put_self member same.symm, same.trans of.symm, closed,
        backed.grow ok.known grows input saved⟩

theorem Reached.audited (reached : Reached platform world) : Audited platform world := by
  refine Reachable.invariant (Audited platform) (fun world begins => ?_)
    (fun before event after audited taken => ?_) reached
  · rw [begins]
    exact ⟨fun task member => absurd member (Table.not_mem_empty task), nofun⟩
  · exact audited.move (step_moves (fun task member => (audited.tasks task member).synced) taken)

/-- A later world has the tasks of the earlier one with at least its reviews. -/
structure Carries (world later : AgentWorld Key) : Prop where
  grows : Grows world later
  tasks : ∀ task ∈ world.tasks, ∃ next ∈ later.tasks, next.input = task.input ∧
    task.reviewed ⊆ next.reviewed ∧ task.answers ⊆ next.answers

omit [DecidableEq Key] in
theorem Carries.trans {one two three : AgentWorld Key} (first : Carries one two)
    (second : Carries two three) : Carries one three := by
  refine ⟨first.grows.trans second.grows, fun task member => ?_⟩
  obtain ⟨next, nextMember, input, reviewed, answers⟩ := first.tasks task member
  obtain ⟨last, lastMember, inputToo, reviewedToo, answersToo⟩ := second.tasks next nextMember
  exact ⟨last, lastMember, inputToo.trans input, fun _ old => reviewedToo (reviewed old),
    fun _ old => answersToo (answers old)⟩

theorem Moves.carries (moves : Moves platform world later) : Carries world later := by
  have put {task next : AgentTask Key} (member : task ∈ world.tasks)
      (tasks : later.tasks = world.tasks.put next) (input : next.input = task.input)
      (reviewed : task.reviewed ⊆ next.reviewed) (answers : task.answers ⊆ next.answers) :
      ∀ other ∈ world.tasks, ∃ last ∈ later.tasks, last.input = other.input ∧
        other.reviewed ⊆ last.reviewed ∧ other.answers ⊆ last.answers := by
    intro other place
    rw [tasks]
    have same : next.id = task.id := congrArg TaskInput.id input
    by_cases this : other.id = next.id
    · obtain rfl := Table.eq_of_key place member (this.trans same)
      exact ⟨next, Table.mem_put_self place this, input, reviewed, answers⟩
    · exact ⟨other, Table.mem_put_of_mem place this, rfl, fun _ => id, fun _ => id⟩
  cases moves with
  | aside grows tasks _ =>
    exact ⟨grows, fun task member => ⟨task, tasks ▸ member, rfl, fun _ => id, fun _ => id⟩⟩
  | made grows _ _ _ tasks _ =>
    exact ⟨grows, fun task member =>
      ⟨task, (tasks task).mpr (.inr member), rfl, fun _ => id, fun _ => id⟩⟩
  | changed grows task next member running tasks change publications =>
    refine ⟨grows, put member tasks change.input ?_ ?_⟩
    · cases change with
      | keeps _ reviewed => exact reviewed ▸ fun _ => id
      | answered _ _ _ _ _ reviewed => exact reviewed ▸ fun _ => id
      | judged _ _ _ _ _ _ reviewed => exact reviewed ▸ fun _ => List.mem_cons_of_mem _
    · cases change with
      | keeps _ _ answers => exact answers ▸ fun _ => id
      | answered _ _ _ _ _ _ answers => exact answers ▸ fun _ => List.mem_cons_of_mem _
      | judged _ _ _ _ _ _ _ answers => exact answers ▸ fun _ => id
  | ended grows task next member running tasks input reviewed answers =>
    exact ⟨grows, put member tasks input (reviewed ▸ fun _ => id) (answers ▸ fun _ => id)⟩

theorem carries_of_run {history : List (Transition (AgentWorld Key) AgentEvent)}
    (reached : Reached platform world) (run : Run (Steps platform) world history later) :
    Carries world later :=
  run.relates Carries
    (fun world => ⟨.refl world, fun task member => ⟨task, member, rfl, fun _ => id, fun _ => id⟩⟩)
    Carries.trans
    (fun _ _ _ before taken => (step_moves
      (fun task member => ((Reached.audited before).tasks task member).synced) taken).carries) reached

/-! ### Published and rejected replies -/

variable (platform)

omit [DecidableEq Key] in
/-- Digests tell the replies apart that are reviewed for the same facts and conversation. -/
def Distinguishes : Prop :=
  ∀ one two : ReviewPayload, one.facts = two.facts → one.conversation = two.conversation →
    one.currentInputSeq = two.currentInputSeq → platform.digest one = platform.digest two →
      one.action = two.action ∧ one.reply = two.reply

omit [DecidableEq Key] in
/-- The reply was rejected: a review of it that was saved did not approve it, or the answer of the
reviewing model does not. -/
def Rejected (world : AgentWorld Key) (task : AgentTask Key) (action : FinishAction)
    (reply : String) : Prop :=
  (∃ entry ∈ task.reviewed, entry.1.action = action ∧ entry.1.reply = reply ∧
    entry.2.approved = false) ∨
  ∃ decision answer, decision.action = action ∧ decision.reply = reply ∧
    (task.input.reviewKey platform (world.records task.input) decision, answer) ∈ task.answers ∧
    (verdictOf platform.parseReview task.input.facts answer).approved = false

variable {platform}

omit [DecidableEq Key] in
/-- What is reviewed is determined by the action and the text. -/
theorem Sound.payload {input : TaskInput} {entry : ReviewPayload × ReplyReview}
    (sound : Sound world input entry) {decision : ConversationDecision}
    (action : entry.1.action = decision.action) (reply : entry.1.reply = decision.reply) :
    entry.1 = input.payload (world.records input) decision := by
  obtain ⟨facts, conversation, current, _, _⟩ := sound
  obtain ⟨⟨_, _, _, _, _⟩, _⟩ := entry
  dsimp only at facts conversation current action reply
  subst facts conversation current action reply
  rfl

theorem payload_congr {input : TaskInput} {records : List StreamRecord}
    {one two : ConversationDecision} (action : one.action = two.action)
    (reply : one.reply = two.reply) : input.payload records one = input.payload records two := by
  unfold TaskInput.payload reviewInput
  rw [action, reply]

/-- A reply with an approved review was not rejected. -/
theorem TaskAudited.not_rejected (ok : TaskAudited platform world task)
    {decision : ConversationDecision} {review : ReplyReview}
    (filed : task.checkpoint.replyReviews.lookup
      (task.input.reviewKey platform (world.records task.input) decision) = some review)
    (approved : review.approved = true) :
    ¬ Rejected platform world task decision.action decision.reply := by
  rintro (⟨entry, member, action, reply, refused⟩ | ⟨other, answer, action, reply, member, refused⟩)
  · have same := (ok.sound entry member).payload action reply
    have there : (platform.digest entry.1, entry.2) ∈ task.checkpoint.replyReviews := by
      rw [ok.filed]
      exact List.mem_map_of_mem member
    rw [same] at there
    rw [eq_of_lookup ok.once filed there, approved] at refused
    cases refused
  · have same : task.input.reviewKey platform (world.records task.input) other =
        task.input.reviewKey platform (world.records task.input) decision :=
      congrArg platform.digest (payload_congr action reply)
    rw [same] at member
    rw [← ok.agrees _ answer review member (mem_of_lookup filed) approved, approved] at refused
    cases refused

omit [DecidableEq Key] in
theorem Rejected.carry {action : FinishAction} {reply : String}
    (rejected : Rejected platform world task action reply)
    (known : task.input.currentInputSeq < world.context.nextStreamSeq) (grows : Grows world later)
    (input : next.input = task.input) (reviewed : task.reviewed ⊆ next.reviewed)
    (answers : task.answers ⊆ next.answers) : Rejected platform later next action reply := by
  rcases rejected with ⟨entry, member, rest⟩ | ⟨decision, answer, isAction, isReply, member, refused⟩
  · exact .inl ⟨entry, reviewed member, rest⟩
  · refine .inr ⟨decision, answer, isAction, isReply, answers ?_, input ▸ refused⟩
    rw [input]
    unfold TaskInput.reviewKey at member ⊢
    rw [payload_grow grows known]
    exact member

/-- A reply of the model that a run published has an approved review of the same action and text, for
the same facts and conversation; its checks cite facts, and the text passes the preliminary check.
A reply that was rejected is not published in the same run, whatever else the call says. -/
theorem published_replies_are_reviewed (distinguishes : Distinguishes platform)
    (reached : Reached platform world) :
    (∀ publication ∈ world.publications, ∀ decision, publication.written = some decision →
      publication.reply = decision.reply ∧ ∃ task ∈ world.tasks, task.id = publication.taskId ∧
        ∃ payload review, (payload, review) ∈ task.reviewed ∧
          (platform.digest payload, review) ∈ task.checkpoint.replyReviews ∧
          review.approved = true ∧ payload.action = decision.action ∧
          payload.reply = publication.reply ∧ payload.facts = task.input.facts ∧
          payload.conversation =
            conversationOf (world.records task.input) task.input.currentInputSeq ∧
          (∀ check ∈ review.factChecks, check.Cites task.input.facts) ∧
          preliminaryError publication.reply = none) ∧
    ∀ task ∈ world.tasks, ∀ action reply, Rejected platform world task action reply →
      ∀ history later, Run (Steps platform) world history later →
        ∀ publication ∈ later.publications, publication.taskId = task.id →
          ∀ decision, publication.written = some decision →
            ¬ (decision.action = action ∧ decision.reply = reply) := by
  constructor
  · intro publication place decision written
    obtain ⟨task, member, of, _, backed⟩ := reached.audited.published publication place
    obtain ⟨text, review, filed, approved, valid⟩ := backed decision written
    have ok := reached.audited.tasks task member
    have there := mem_of_lookup filed
    rw [ok.filed] at there
    obtain ⟨entry, entered, same⟩ := List.mem_map.mp there
    obtain ⟨digest, rfl⟩ := Prod.mk.inj same
    have sound := ok.sound entry entered
    obtain ⟨action, reply⟩ := distinguishes entry.1
      (task.input.payload (world.records task.input) decision) sound.facts sound.conversation
      sound.current digest
    refine ⟨text, task, member, of, entry.1, entry.2, entered, ?_, approved, action,
      reply.trans text.symm, sound.facts, sound.conversation,
      cites_of_validateReviewEvidence approved valid, ?_⟩
    · rw [ok.filed]
      exact List.mem_map_of_mem entered
    · exact (text.trans reply.symm) ▸ sound.passed approved
  · rintro task member action reply rejected history later run publication place of decision written
      ⟨rfl, rfl⟩
    have carries := carries_of_run reached run
    have audited := Reached.audited (Reachable.extend reached run)
    obtain ⟨next, nextMember, input, reviewed, answers⟩ := carries.tasks task member
    obtain ⟨owner, owned, ofToo, _, backed⟩ := audited.published publication place
    have same : owner.id = next.id :=
      (ofToo.trans of).trans (congrArg TaskInput.id input).symm
    obtain rfl := Table.eq_of_key owned nextMember same
    obtain ⟨_, review, filed, approved, _⟩ := backed decision written
    exact (audited.tasks owner owned).not_rejected filed approved
      (rejected.carry (reached.audited.tasks task member).known carries.grows input reviewed answers)

end

/-! ### A turn with a review -/

set_option maxRecDepth 4000 in
/-- A reply that says nothing passes the preliminary check. -/
theorem preliminaryError_plain : preliminaryError "好" = none := by
  have reply : "好".toList = ['好'] := String.toList_ofList
  have promise : found contactPromise "好" = false := by
    have holds (chars : List Char) := compile_chars (fun read =>
      (read.bind fun compiled => (searchChars compiled ['好']).map Prod.snd).isSome = false) chars
    unfold found search
    rw [reply]
    exact holds _ (by decide +kernel)
  have terms : (internalTerms.any fun term => occurs term (casefold "好")) = false := by
    decide +kernel
  have claims : findUnsafeClaims "好" = [] := by
    refine List.eq_nil_iff_forall_not_mem.mpr fun code member => ?_
    obtain ⟨claim, place, _⟩ := mem_findUnsafeClaims.mp member
    rw [reply] at place
    have nothing (chars : List Char) := compiled_chars
      (fun pattern => spans pattern.foldCase ['好'] = []) chars
    have empty : finditer code ['好'] = [] := by
      cases code with
      | privatePriceLeak => exact nothing _ (by decide +kernel)
      | systemPromptLeak => exact nothing _ (by decide +kernel)
      | falseApproval => exact nothing _ (by decide +kernel)
      | unauthorizedFreeShipping => exact nothing _ (by decide +kernel)
      | unauthorizedDispatch => exact nothing _ (by decide +kernel)
      | unauthorizedReservation => exact nothing _ (by decide +kernel)
      | falseTransaction => exact nothing _ (by decide +kernel)
    rw [empty] at place
    cases place
  unfold preliminaryError
  rw [promise, terms, claims]
  rfl

/-- A reply of one sign to every message, which every review approves. -/
def plainReviews : AgentPlatform (FinishAction × String) where
  digest payload := (payload.action, payload.reply)
  parseConversation _ := .ok { decision := { action := .inquiry, reason := "-", reply := "好" } }
  parseFinish _ := .error "not a decision"
  parseReview _ := .ok ⟨true, "-", []⟩
  oversized _ _ := false
  recordTool memory _ := memory
  resolve _ reply _ := ⟨reply, false⟩

/-- The beginning of a turn up to the reply of the model. -/
def plainDraft : List AgentEvent :=
  [.accept 1 "-" ⟨false, true⟩ ⟨[("product", .object [])], [], none⟩, .lease 1,
    .respond 1 (.ai "" [⟨"a", "finish_turn", ""⟩]) false]


section

variable {Key : Type} [DecidableEq Key] {platform : AgentPlatform Key} {world : AgentWorld Key}
  {id : Nat} {task : AgentTask Key} {checkpoint : RunCheckpoint Key} {call : ToolCall}
  {rest : List ToolCall} {finish : ConversationFinish} {answer : ReviewAnswer}

/-- A reply that passes the preliminary check is shown to the reviewing model. -/
theorem step_answer (here : world.tasks.get id = some task) (working : task.status = .open)
    (worker : task.worker = some ⟨checkpoint, .idle⟩) (calls : checkpoint.pendingCalls = call :: rest)
    (needs : needsReview task.input checkpoint call = true)
    (read : platform.parseConversation call = .ok finish)
    (fresh : checkpoint.replyReviews.lookup
      (task.input.reviewKey platform (world.records task.input) finish.decision) = none)
    (unasked : task.answers.lookup
      (task.input.reviewKey platform (world.records task.input) finish.decision) = none)
    (clear : preliminaryError finish.decision.reply = none) :
    world.step platform (.answer id answer) = some (world.save { task with
      answers := (task.input.reviewKey platform (world.records task.input) finish.decision, answer) ::
        task.answers } checkpoint .idle) := by
  simp only [step, byWorker, here, working, worker, calls, needs, if_true, AgentWorld.answer, read]
  exact if_pos ⟨fresh, unasked, clear⟩

/-- What the reviewing model answered is the verdict. -/
theorem step_judge (here : world.tasks.get id = some task) (working : task.status = .open)
    (worker : task.worker = some ⟨checkpoint, .idle⟩) (calls : checkpoint.pendingCalls = call :: rest)
    (needs : needsReview task.input checkpoint call = true)
    (read : platform.parseConversation call = .ok finish)
    (fresh : checkpoint.replyReviews.lookup
      (task.input.reviewKey platform (world.records task.input) finish.decision) = none)
    (asked : task.answers.lookup
      (task.input.reviewKey platform (world.records task.input) finish.decision) = some answer)
    (clear : preliminaryError finish.decision.reply = none) :
    let verdict := verdictOf platform.parseReview task.input.facts answer
    world.step platform (.judge id none) = some (world.save
      { task with reviewed :=
          (task.input.payload (world.records task.input) finish.decision, verdict) :: task.reviewed }
      { checkpoint with replyReviews :=
          (task.input.reviewKey platform (world.records task.input) finish.decision, verdict) ::
            checkpoint.replyReviews }
      (.judged (reviewError verdict))) := by
  have verdict : newVerdict platform task
      (task.input.reviewKey platform (world.records task.input) finish.decision) finish.decision
      none = some (verdictOf platform.parseReview task.input.facts answer) := by
    unfold newVerdict
    rw [clear, asked]
  simp only [step, byWorker, here, working, worker, calls, needs, if_true, judge, read, fresh]
  rw [verdict]
  rfl

end

theorem run_append {Key : Type} [DecidableEq Key] {platform : AgentPlatform Key}
    {events : List AgentEvent} {event : AgentEvent} {world later : AgentWorld Key}
    (done : run platform events = some world) (taken : world.step platform event = some later) :
    run platform (events ++ [event]) = some later := by
  unfold run at done ⊢
  rw [List.foldlM_append, done]
  simp [taken]

theorem published_replies_are_reviewed_plainReviews : ∃ world publication,
    Reached plainReviews world ∧ world.publications = [publication] ∧
      publication.written = some { action := .inquiry, reason := "-", reply := "好" } ∧
      ∃ task ∈ world.tasks, ∃ payload review, (payload, review) ∈ task.reviewed ∧
        review.approved = true ∧ payload.reply = publication.reply := by
  have drafted : run plainReviews plainDraft = some ((run plainReviews plainDraft).getD {}) := rfl
  have asked := run_append drafted (@step_answer _ _ _ _ 1 _ _ _ _ _ ⟨"-", false, false⟩
    rfl rfl rfl rfl rfl rfl rfl rfl preliminaryError_plain)
  have judged := run_append asked (@step_judge _ _ _ _ 1 _ _ _ _ _ ⟨"-", false, false⟩
    rfl rfl rfl rfl rfl rfl rfl rfl preliminaryError_plain)
  have executed := run_append judged (rfl : step _ _ (.execute 1 false ⟨"", none⟩) = some _)
  have reached := reached_of_run plainReviews executed
  have distinguishes : Distinguishes plainReviews :=
    fun _ _ _ _ _ same => ⟨congrArg Prod.fst same, congrArg Prod.snd same⟩
  obtain ⟨_, task, member, _, payload, review, entered, _, approved, _, reply, _⟩ :=
    (published_replies_are_reviewed distinguishes reached).1 _ (.head _) _ rfl
  exact ⟨_, _, reached, rfl, rfl, task, member, payload, review, entered, approved, reply⟩

end Negotiation.Agent.AgentWorld
