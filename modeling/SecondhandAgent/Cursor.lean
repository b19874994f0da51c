/-
This file proves that the queue of a session is worked off in order. The inputs
are numbered without a gap, whatever turn a run makes it is the run at the head
that makes it, and the cursor passes an input only when its owner finalizes it
after its reply was published; so everything behind the cursor is done and has
its public answer.
-/

import SecondhandAgent.Numbered
import SecondhandAgent.Receipts

namespace Negotiation

open Store

/-! ### Turns and the cursor -/

section

variable {db : Db} {run changed : NegotiationInput} {task moved : ModelExecutionTask}
variable {transaction : Transaction} {cursor : Nat}

/-- A turn writes the task back under its key. -/
theorem Turn.task_id (turn : Turn db run task transaction changed moved cursor) :
    moved.id = task.id := by
  cases turn <;> rfl

/-- A turn is made by the run at the head of the queue. -/
theorem Turn.at_head (turn : Turn db run task transaction changed moved cursor)
    (head : task.status = .running → run.inputSeq = db.session.lastResolvedInputSeq + 1) :
    run.inputSeq = db.session.lastResolvedInputSeq + 1 := by
  cases turn with
  | gaveUp claimable | granted claimable => exact claimable.1
  | released owned | extended owned | finalized owned => exact head owned.2.1
  | cleaned _ _ running | killed _ running => exact head running
  | recovered here => exact here

/-- The owner of the run moves the cursor over it, after its reply was published. -/
def Finalizes (db : Db) (run : NegotiationInput) (task : ModelExecutionTask)
    (transaction : Transaction) : Prop :=
  ∃ owner values checked settled,
    transaction = .finalize run.id owner values false checked settled ∧
      OwnedBy task owner checked ∧ run.inputSeq = db.session.lastResolvedInputSeq + 1 ∧
      ∃ delivery ∈ db.deliveries, delivery.id = .turnReply run.id ∧ delivery.status = .published

/-- A turn leaves the cursor where it is, or finalizes the run and moves the cursor over it. -/
theorem Turn.advances (turn : Turn db run task transaction changed moved cursor) :
    cursor = db.session.lastResolvedInputSeq ∨
      (cursor = run.inputSeq ∧ moved.status = .succeeded ∧ Finalizes db run task transaction) := by
  cases turn with
  | @finalized owner values checked settled delivery owned _ reply published _ head =>
    obtain ⟨member, key⟩ := Table.get_eq_some.mp reply
    exact .inr ⟨rfl, rfl, owner, values, checked, settled, rfl, owned, head.symm, delivery, member,
      key, published⟩
  | _ => exact .inl rfl

end

/-! ### The queue in order -/

/-- The task of an input. -/
def Queue.taskOf (queue : Queue) (run : NegotiationInput) : Option StoredTask :=
  queue.tasks.get run.taskId

/-- The queue is in order: the inputs are numbered and each has a task of its own, only the head
is executed, what is behind the cursor is done, and at most twenty inputs are before it. -/
structure Ordered (queue : Queue) : Prop where
  numbered : queue.inputs.Numbered (·.inputSeq) queue.nextInputSeq
  behind : queue.lastResolvedInputSeq < queue.nextInputSeq
  room : queue.nextInputSeq ≤ queue.lastResolvedInputSeq + queueLimit + 1
  tasked : ∀ run ∈ queue.inputs, queue.taskOf run ≠ none
  own : ∀ one ∈ queue.inputs, ∀ two ∈ queue.inputs, one.taskId = two.taskId → one = two
  head : ∀ run ∈ queue.inputs, ∀ stored, queue.taskOf run = some stored →
    stored.val.status = .running → run.inputSeq = queue.lastResolvedInputSeq + 1
  resolved : ∀ run ∈ queue.inputs, run.inputSeq ≤ queue.lastResolvedInputSeq →
    ∃ stored, queue.taskOf run = some stored ∧ stored.val.status = .succeeded

/-- A run that is written back as it was sent, among the others. -/
theorem sent_of_mem_put {inputs : Table NegotiationInput.id} {run changed : NegotiationInput}
    (sent : changed.sent = run.sent)
    {other : NegotiationInput} (member : other ∈ inputs.put changed) :
    other.sent = run.sent ∨ (other ∈ inputs ∧ other ≠ run) := by
  obtain ⟨key, _⟩ := NegotiationInput.of_sent sent
  rcases Table.mem_put.mp member with ⟨old, different⟩ | ⟨rfl, _⟩
  · refine .inr ⟨old, ?_⟩
    rintro rfl
    exact different key.symm
  · exact .inl sent

section

variable {db : Db} {run changed : NegotiationInput} {stored : StoredTask}
variable {task : ModelExecutionTask} {transaction : Transaction} {cursor : Nat}

/-- A turn of a run keeps the queue in order. -/
theorem Ordered.turned (ordered : Ordered db.queue) (found : db.inputs.get run.id = some run)
    (held : db.tasks.get run.taskId = some stored) (lawful : task.Lawful)
    (turn : Turn db run stored.val transaction changed task cursor) :
    Ordered
      { db.queue with
        lastResolvedInputSeq := cursor
        inputs := db.inputs.put changed
        tasks := db.tasks.put ⟨task, lawful⟩ } := by
  have present : run ∈ db.inputs := Table.mem_of_get found
  have atHead : run.inputSeq = db.session.lastResolvedInputSeq + 1 :=
    turn.at_head (ordered.head run present stored held)
  have sent := turn.sent
  have taskKey : stored.id = run.taskId := Table.key_of_get held
  have movedKey : StoredTask.id ⟨task, lawful⟩ = stored.id := turn.task_id
  have moved : ∀ taskId, (db.tasks.put ⟨task, lawful⟩).get taskId =
      if taskId = run.taskId then some ⟨task, lawful⟩ else db.tasks.get taskId := by
    intro taskId
    have present : db.tasks.get (StoredTask.id ⟨task, lawful⟩) = some stored := by
      rw [movedKey, taskKey]
      exact held
    rw [Table.get_put present, movedKey, taskKey]
  have mine : ∀ other : NegotiationInput, other.sent = run.sent →
      (db.tasks.put ⟨task, lawful⟩).get other.taskId = some ⟨task, lawful⟩ ∧
        other.inputSeq = run.inputSeq := by
    intro other same
    obtain ⟨_, taskId, number, _⟩ := NegotiationInput.of_sent same
    exact ⟨by rw [moved, if_pos taskId], number⟩
  have theirs : ∀ other ∈ db.inputs, other ≠ run →
      (db.tasks.put ⟨task, lawful⟩).get other.taskId = db.tasks.get other.taskId := by
    intro other member different
    rw [moved, if_neg fun same => different (ordered.own other member run present same)]
  have places : ∀ other ∈ db.inputs, other ≠ run → other.inputSeq ≠ run.inputSeq :=
    fun other member different same => different (ordered.numbered.once other member run present same)
  have behind := (ordered.numbered.within run present).2
  obtain ⟨key, _, number, _⟩ := NegotiationInput.of_sent sent
  refine ⟨ordered.numbered.put present key number, ?_, ?_, ?_, ?_, ?_, ?_⟩
  · rcases turn.advances with same | ⟨passed, _⟩
    · rw [same]
      exact ordered.behind
    · rw [passed]
      exact behind
  · have room := ordered.room
    show db.session.nextInputSeq ≤ cursor + queueLimit + 1
    have room : db.session.nextInputSeq ≤ db.session.lastResolvedInputSeq + queueLimit + 1 := room
    rcases turn.advances with same | ⟨passed, _⟩ <;> omega
  · intro other member
    show (db.tasks.put ⟨task, lawful⟩).get other.taskId ≠ none
    rcases sent_of_mem_put sent member with same | ⟨old, different⟩
    · rw [(mine other same).1]
      exact Option.some_ne_none _
    · rw [theirs other old different]
      exact ordered.tasked other old
  · intro one first two second same
    have clash : ∀ mine other : NegotiationInput, mine.sent = run.sent → other ∈ db.inputs →
        other ≠ run → mine.taskId ≠ other.taskId := by
      intro mine other sent old different same
      obtain ⟨_, taskId, _⟩ := NegotiationInput.of_sent sent
      exact different (ordered.own other old run present (same.symm.trans taskId))
    rcases sent_of_mem_put sent first with oneSent | ⟨oneOld, oneOther⟩ <;>
      rcases sent_of_mem_put sent second with twoSent | ⟨twoOld, twoOther⟩
    · exact Table.eq_of_key first second (NegotiationInput.of_sent (oneSent.trans twoSent.symm)).1
    · exact absurd same (clash one two oneSent twoOld twoOther)
    · exact absurd same.symm (clash two one twoSent oneOld oneOther)
    · exact ordered.own one oneOld two twoOld same
  · intro other member holder taken running
    have taken : (db.tasks.put ⟨task, lawful⟩).get other.taskId = some holder := taken
    show other.inputSeq = cursor + 1
    rcases sent_of_mem_put sent member with same | ⟨old, different⟩
    · obtain ⟨found', place⟩ := mine other same
      obtain rfl : ⟨task, lawful⟩ = holder := Option.some.inj (found'.symm.trans taken)
      rcases turn.advances with kept | ⟨_, done, _⟩
      · rw [place, atHead, kept]
      · exact nomatch done.symm.trans running
    · rw [theirs other old different] at taken
      have place := ordered.head other old holder taken running
      exact absurd (place.trans atHead.symm) (places other old different)
  · intro other member passed
    have passed : other.inputSeq ≤ cursor := passed
    show ∃ stored, (db.tasks.put ⟨task, lawful⟩).get other.taskId = some stored ∧ _
    rcases sent_of_mem_put sent member with same | ⟨old, different⟩
    · obtain ⟨found', place⟩ := mine other same
      rcases turn.advances with kept | ⟨_, done, _⟩
      · omega
      · exact ⟨_, found', done⟩
    · rw [theirs other old different]
      have apart := places other old different
      refine ordered.resolved other old ?_
      show other.inputSeq ≤ db.session.lastResolvedInputSeq
      rcases turn.advances with kept | ⟨reached, _⟩ <;> omega

/-- An input that is enqueued takes the next number and a task of its own. -/
theorem Ordered.enqueued {inputs : Table NegotiationInput.id} {tasks : Table StoredTask.id}
    {fault : Failure} {new : NegotiationInput} {fresh : StoredTask} (ordered : Ordered db.queue)
    (room : db.session.nextInputSeq - db.session.lastResolvedInputSeq ≤ queueLimit)
    (number : new.inputSeq = db.session.nextInputSeq) (taskId : new.taskId = fresh.id)
    (idle : fresh.val.status = .pending)
    (added : db.inputs.insert new fault = .ok inputs)
    (tasked : db.tasks.insert fresh fault = .ok tasks) :
    Ordered
      { db.queue with nextInputSeq := db.session.nextInputSeq + 1, inputs, tasks } := by
  have behind : db.session.lastResolvedInputSeq < db.session.nextInputSeq := ordered.behind
  have free := Table.free_of_insert tasked
  have mine : tasks.get new.taskId = some fresh := by
    rw [Table.get_insert tasked, if_pos taskId]
  have apart : ∀ run ∈ db.inputs, run.taskId ≠ new.taskId := by
    intro run member same
    rw [taskId] at same
    have absent : db.tasks.get run.taskId = none := same ▸ free
    exact ordered.tasked run member absent
  have theirs : ∀ run ∈ db.inputs, tasks.get run.taskId = db.tasks.get run.taskId := by
    intro run member
    rw [Table.get_insert tasked, if_neg fun same => apart run member (same.trans taskId.symm)]
  refine ⟨?_, Nat.lt_succ_of_lt behind, ?_, ?_, ?_, ?_, ?_⟩
  · obtain ⟨unused, rfl⟩ := Table.insert_eq_ok.mp added
    exact ordered.numbered.push unused number
  · show db.session.nextInputSeq + 1 ≤ db.session.lastResolvedInputSeq + queueLimit + 1
    omega
  · intro run member
    show tasks.get run.taskId ≠ none
    rcases (Table.mem_insert added run).mp member with rfl | old
    · rw [mine]
      exact Option.some_ne_none _
    · rw [theirs run old]
      exact ordered.tasked run old
  · intro one first two second same
    rcases (Table.mem_insert added one).mp first with rfl | oneOld <;>
      rcases (Table.mem_insert added two).mp second with rfl | twoOld
    · rfl
    · exact absurd same.symm (apart two twoOld)
    · exact absurd same (apart one oneOld)
    · exact ordered.own one oneOld two twoOld same
  · intro run member holder taken running
    have taken : tasks.get run.taskId = some holder := taken
    rcases (Table.mem_insert added run).mp member with rfl | old
    · obtain rfl := Option.some.inj (mine.symm.trans taken)
      exact nomatch idle.symm.trans running
    · rw [theirs run old] at taken
      exact ordered.head run old holder taken running
  · intro run member passed
    have passed : run.inputSeq ≤ db.session.lastResolvedInputSeq := passed
    show ∃ stored, tasks.get run.taskId = some stored ∧ _
    rcases (Table.mem_insert added run).mp member with rfl | old
    · omega
    · rw [theirs run old]
      exact ordered.resolved run old passed

end

section

variable [Platform] {db after : Db}

theorem QueueEffect.ordered {transaction : Transaction} (ordered : Ordered db.queue)
    (effect : QueueEffect db transaction after) : Ordered after.queue := by
  cases effect with
  | idle frame =>
    rw [frame]
    exact ordered
  | enqueued _ room _ _ appended =>
    unfold newInput at appended
    simp only [bind_eq_ok, pure_eq_ok] at appended
    obtain ⟨_, _, tasks, tasked, inputs, added, rfl⟩ := appended
    exact ordered.enqueued room rfl rfl rfl added tasked
  | turned found held lawful turn frame =>
    rw [frame]
    exact ordered.turned found held lawful turn

/-- Every transaction keeps the queue in order. -/
theorem perform_ordered {transaction : Transaction} (ordered : Ordered db.queue)
    (done : db.perform transaction = .ok after) : Ordered after.queue := by
  rcases (perform_effect done).queue with same | effect
  · rw [same]
    exact ordered
  · exact effect.ordered ordered

theorem reachable_ordered {world : World} (reached : Reachable World.Step World.Initial world) :
    Ordered world.db.queue := by
  refine database_invariant (fun db => Ordered db.queue) (fun world initial => ?_)
    (fun _ _ _ ordered done => perform_ordered ordered done) reached
  obtain ⟨⟨_, _, _, _, _, _, _, db⟩, _⟩ := initial
  rw [db]
  exact
    { numbered := .empty
      behind := Nat.zero_lt_one
      room := show 1 ≤ 0 + queueLimit + 1 by decide
      tasked := fun _ member => absurd member (Table.not_mem_empty _)
      own := fun _ member => absurd member (Table.not_mem_empty _)
      head := fun _ member => absurd member (Table.not_mem_empty _)
      resolved := fun _ member => absurd member (Table.not_mem_empty _) }

/-! ### One run -/

omit [Platform] in
/-- A run with its task. -/
def Queue.find (queue : Queue) (runId : Nat) : Option (NegotiationInput × StoredTask) :=
  (queue.inputs.get runId).bind fun run => (queue.taskOf run).map (run, ·)

omit [Platform] in
theorem find_eq_some {queue : Queue} {runId : Nat} {pair : NegotiationInput × StoredTask} :
    queue.find runId = some pair ↔
      queue.inputs.get runId = some pair.1 ∧ queue.taskOf pair.1 = some pair.2 := by
  unfold Queue.find
  rw [Option.bind_eq_some_iff]
  constructor
  · rintro ⟨run, found, held⟩
    obtain ⟨stored, present, rfl⟩ := Option.map_eq_some_iff.mp held
    exact ⟨found, present⟩
  · rintro ⟨found, held⟩
    exact ⟨pair.1, found, Option.map_eq_some_iff.mpr ⟨pair.2, held, rfl⟩⟩

omit [Platform] in
/-- A run and its task that are written back are found again. -/
theorem find_put {queue : Queue} {run changed : NegotiationInput} {stored moved : StoredTask}
    (present : queue.find run.id = some (run, stored)) (key : changed.id = run.id)
    (taskId : changed.taskId = run.taskId) (taskKey : moved.id = stored.id) :
    ({ queue with inputs := queue.inputs.put changed, tasks := queue.tasks.put moved } :
      Queue).find run.id = some (changed, moved) := by
  obtain ⟨found, held⟩ := find_eq_some.mp present
  have held : queue.tasks.get run.taskId = some stored := held
  have movedKey : moved.id = run.taskId := taskKey.trans (Table.key_of_get held)
  refine find_eq_some.mpr ⟨?_, ?_⟩
  · show (queue.inputs.put changed).get run.id = some changed
    rw [Table.get_put (key ▸ found), if_pos key.symm]
  · show (queue.tasks.put moved).get changed.taskId = some moved
    rw [Table.get_put (movedKey ▸ held), if_pos (taskId.trans movedKey.symm)]

/-- What a transaction does to one run and its task. -/
inductive RunMove (db : Db) (transaction : Transaction) (runId : Nat) (after : Db) : Prop
  | kept (same : after.queue.find runId = db.queue.find runId)
  | new {run : NegotiationInput} {stored : StoredTask} (absent : db.queue.find runId = none)
      (present : after.queue.find runId = some (run, stored)) (unused : run.sent = run)
      (fresh : stored.val = { id := stored.val.id })
  | turned {run changed : NegotiationInput} {stored moved : StoredTask} {cursor : Nat}
      (here : run.id = runId) (present : db.queue.find runId = some (run, stored))
      (turn : Turn db run stored.val transaction changed moved.val cursor)
      (later : after.queue.find runId = some (changed, moved))

/-- A transaction makes one run take a turn at most, and leaves the others alone. -/
theorem perform_run {transaction : Transaction} (ordered : Ordered db.queue)
    (done : db.perform transaction = .ok after) (runId : Nat) :
    RunMove db transaction runId after := by
  rcases (perform_effect done).queue with same | effect
  · exact .kept (by rw [same])
  cases effect with
  | idle frame => exact .kept (by rw [frame]; rfl)
  | enqueued _ _ _ _ appended =>
    unfold newInput at appended
    simp only [bind_eq_ok, pure_eq_ok] at appended
    obtain ⟨_, _, tasks, tasked, inputs, added, rfl⟩ := appended
    have theirs : ∀ run ∈ db.inputs, tasks.get run.taskId = db.tasks.get run.taskId := by
      intro run member
      rw [Table.get_insert tasked, if_neg]
      intro same
      have absent : db.tasks.get run.taskId = none := same ▸ Table.free_of_insert tasked
      exact ordered.tasked run member absent
    by_cases here : runId = db.nextId
    · subst here
      have unused : db.inputs.get db.nextId = none := Table.free_of_insert added
      have absent : db.queue.find db.nextId = none := by
        show (db.inputs.get db.nextId).bind _ = none
        rw [unused]
        rfl
      have found : inputs.get db.nextId = some _ := (Table.get_insert added _).trans (if_pos rfl)
      have held : tasks.get (db.nextId + 2) = some _ :=
        (Table.get_insert tasked _).trans (if_pos rfl)
      exact .new absent (find_eq_some.mpr ⟨found, held⟩) rfl rfl
    · have found : inputs.get runId = db.inputs.get runId :=
        (Table.get_insert added _).trans (if_neg here)
      refine .kept ?_
      show (inputs.get runId).bind (fun run => (tasks.get run.taskId).map (run, ·)) =
        (db.inputs.get runId).bind fun run => (db.tasks.get run.taskId).map (run, ·)
      rw [found]
      refine Option.bind_congr fun run present => ?_
      rw [theirs run (Table.mem_of_get present)]
  | @turned run changed stored task cursor found held lawful turn frame =>
    have present : run ∈ db.inputs := Table.mem_of_get found
    have taskKey : stored.id = run.taskId := Table.key_of_get held
    have movedKey : StoredTask.id ⟨task, lawful⟩ = run.taskId := turn.task_id.trans taskKey
    obtain ⟨key, taskId, _⟩ := NegotiationInput.of_sent turn.sent
    by_cases here : run.id = runId
    · subst here
      have located : db.queue.find run.id = some (run, stored) := find_eq_some.mpr ⟨found, held⟩
      have later : after.queue.find run.id = some (changed, ⟨task, lawful⟩) := by
        rw [frame]
        exact find_put located key taskId turn.task_id
      exact .turned rfl located turn later
    · refine .kept ?_
      rw [frame]
      show ((db.inputs.put changed).get runId).bind
          (fun other => ((db.tasks.put ⟨task, lawful⟩).get other.taskId).map (other, ·)) =
        (db.inputs.get runId).bind fun other => (db.tasks.get other.taskId).map (other, ·)
      rw [Table.get_put_ne fun same => here (key.symm.trans same.symm)]
      refine Option.bind_congr fun other located => ?_
      obtain ⟨member, otherKey⟩ := Table.get_eq_some.mp located
      rw [Table.get_put_ne]
      intro same
      obtain rfl := ordered.own other member run present (same.trans movedKey)
      exact here otherKey

/-- A run stays in the queue as it was sent. -/
theorem run_stays {transaction : Transaction} {run : NegotiationInput}
    (ordered : Ordered db.queue) (done : db.perform transaction = .ok after)
    (member : run ∈ db.inputs) : ∃ later ∈ after.inputs, later.sent = run.sent := by
  obtain ⟨stored, tasked⟩ := Option.ne_none_iff_exists'.mp (ordered.tasked run member)
  have here : db.queue.find run.id = some (run, stored) :=
    find_eq_some.mpr ⟨Table.get_of_mem member, tasked⟩
  cases perform_run ordered done run.id with
  | kept same =>
    have there := find_eq_some.mp (same.trans here)
    exact ⟨run, Table.mem_of_get there.1, rfl⟩
  | new absent =>
    rw [here] at absent
    cases absent
  | @turned other changed _ _ _ key present turn later =>
    have same := Option.some.inj (here.symm.trans present)
    obtain ⟨rfl, _⟩ := Prod.mk.inj same
    exact ⟨changed, Table.mem_of_get (find_eq_some.mp later).1, turn.sent⟩

/-- A run of the queue was there before, as it was sent, or has just been sent under a free
key and with a configuration that is checked. -/
theorem run_comes {transaction : Transaction} {later : NegotiationInput}
    (done : db.perform transaction = .ok after) (member : later ∈ after.inputs) :
    (∃ run ∈ db.inputs, later.sent = run.sent) ∨
      db.inputs.get later.id = none ∧ ValidConfig later.config db.session.graphVersion := by
  rcases (perform_effect done).queue with same | effect
  · rw [show after.inputs = db.inputs from congrArg Queue.inputs same] at member
    exact .inl ⟨later, member, rfl⟩
  cases effect with
  | idle frame =>
    rw [frame] at member
    exact .inl ⟨later, member, rfl⟩
  | enqueued _ _ _ valid appended =>
    unfold newInput at appended
    simp only [bind_eq_ok, pure_eq_ok] at appended
    obtain ⟨_, _, _, _, inputs, added, rfl⟩ := appended
    rcases (Table.mem_insert added later).mp member with rfl | old
    · exact .inr ⟨Table.free_of_insert added, valid⟩
    · exact .inl ⟨later, old, rfl⟩
  | turned found _ _ turn frame =>
    rw [frame] at member
    rcases Table.mem_of_mem_put member with old | rfl
    · exact .inl ⟨later, old, rfl⟩
    · exact .inl ⟨_, Table.mem_of_get found, turn.sent⟩

/-! ### The answers behind the cursor -/

/-- What is behind the cursor has its public reply. -/
def Answered (db : Db) : Prop :=
  ∀ run ∈ db.inputs, run.inputSeq ≤ db.session.lastResolvedInputSeq →
    ∃ message ∈ db.messages, message.origin = .source (.turnReply run.id) ∧
      message.publicSeq ≠ none

theorem perform_answered {transaction : Transaction} (formed : Formed db.records)
    (ordered : Ordered db.queue) (answered : Answered db)
    (done : db.perform transaction = .ok after) : Answered after := by
  have effect := perform_effect done
  have messages : ∀ message ∈ db.messages, message ∈ after.messages := effect.grows.messages
  intro run member passed
  -- The reply of an input that was behind the cursor before is still there.
  have keep : ∀ old ∈ db.inputs, old.id = run.id →
      old.inputSeq ≤ db.session.lastResolvedInputSeq →
      ∃ message ∈ after.messages, message.origin = .source (.turnReply run.id) ∧
        message.publicSeq ≠ none := by
    intro old present same behind
    obtain ⟨message, posted, origin, public_⟩ := answered old present behind
    exact ⟨message, messages message posted, same ▸ origin, public_⟩
  rcases effect.queue with same | effect
  · have inputs : after.inputs = db.inputs := congrArg Queue.inputs same
    have cursor : after.session.lastResolvedInputSeq = db.session.lastResolvedInputSeq :=
      congrArg Queue.lastResolvedInputSeq same
    exact keep run (inputs ▸ member) rfl (cursor ▸ passed)
  · cases effect with
    | idle frame =>
      rw [frame] at member passed
      exact keep run member rfl passed
    | enqueued _ _ _ _ appended =>
      unfold newInput at appended
      simp only [bind_eq_ok, pure_eq_ok] at appended
      obtain ⟨_, _, _, _, inputs, added, rfl⟩ := appended
      rcases (Table.mem_insert added run).mp member with rfl | old
      · have behind : db.session.lastResolvedInputSeq < db.session.nextInputSeq := ordered.behind
        have passed : db.session.nextInputSeq ≤ db.session.lastResolvedInputSeq := passed
        omega
      · exact keep run old rfl passed
    | @turned input changed stored task cursor found held lawful turn frame =>
      have present : input ∈ db.inputs := Table.mem_of_get found
      have atHead := turn.at_head (ordered.head input present stored held)
      rw [frame] at member passed
      have passed : run.inputSeq ≤ cursor := passed
      rcases sent_of_mem_put turn.sent member with same | ⟨old, different⟩
      · obtain ⟨key, _, place, _⟩ := NegotiationInput.of_sent same
        rcases turn.advances with kept | ⟨_, _, _, _, _, _, _, _, _, delivery, shown, source, public_⟩
        · omega
        · obtain ⟨message, posted, origin, numbered⟩ := formed.published delivery shown public_
          rw [source, ← key] at origin
          exact ⟨message, messages message posted, origin, numbered⟩
      · have apart : run.inputSeq ≠ input.inputSeq := fun same =>
          different (ordered.numbered.once run old input present same)
        refine keep run old rfl ?_
        rcases turn.advances with kept | ⟨reached, _⟩ <;> omega

theorem reachable_answered {world : World} (reached : Reachable World.Step World.Initial world) :
    Answered world.db := by
  refine (database_invariant
    (fun db => Formed db.records ∧ Ordered db.queue ∧ Answered db) (fun world initial => ?_) ?_
    reached).2.2
  · refine ⟨initial_formed initial, reachable_ordered (.start initial), ?_⟩
    obtain ⟨⟨_, _, _, _, _, _, _, db⟩, _⟩ := initial
    rw [db]
    exact fun _ member => absurd member (Table.not_mem_empty _)
  · rintro db transaction after ⟨formed, ordered, answered⟩ done
    exact ⟨(perform_effect done).formed formed, perform_ordered ordered done,
      perform_answered formed ordered answered done⟩

/-! ### In order -/

/-- A step leaves the cursor where it is, or it is the owner's that finalizes the head. -/
theorem World.Step.advances {before next : World} {event : Event}
    (reached : Reachable World.Step World.Initial before)
    (step : World.Step before event next) :
    next.db.session.lastResolvedInputSeq = before.db.session.lastResolvedInputSeq ∨
      next.db.session.lastResolvedInputSeq = before.db.session.lastResolvedInputSeq + 1 ∧
        ∃ run ∈ before.db.inputs, ∃ stored transaction, before.db.queue.taskOf run = some stored ∧
          run.inputSeq = next.db.session.lastResolvedInputSeq ∧ event = .call transaction ∧
          Finalizes before.db run stored.val transaction := by
  have ordered := reachable_ordered reached
  rcases step.performs with same | ⟨transaction, performs⟩
  · exact .inl (by rw [same])
  rcases (perform_effect performs.done).queue with same | effect
  · exact .inl (congrArg Queue.lastResolvedInputSeq same)
  cases effect with
  | idle frame => exact .inl (by rw [frame])
  | enqueued _ _ _ _ appended =>
    unfold newInput at appended
    simp only [bind_eq_ok, pure_eq_ok] at appended
    obtain ⟨_, _, _, _, _, _, same⟩ := appended
    exact .inl (by rw [← same])
  | @turned run changed stored task cursor found held lawful turn frame =>
    have moved : next.db.session.lastResolvedInputSeq = cursor := by rw [frame]
    have present : run ∈ before.db.inputs := Table.mem_of_get found
    have atHead := turn.at_head (ordered.head run present stored held)
    rw [moved]
    rcases turn.advances with kept | ⟨passed, _, finalizes⟩
    · exact .inl kept
    · refine .inr ⟨passed.trans atHead, run, present, stored, transaction, held, passed.symm, ?_,
        finalizes⟩
      rcases performs.source with called | runner
      · exact called
      · obtain ⟨_, _, _, _, rfl, _⟩ := finalizes
        exact runner.elim

/-- The inputs of a session are worked off in order. They are numbered without a gap, at most
twenty are waiting, only the one after the cursor can hold a lease, everything up to the cursor
is done and has exactly one public reply, and the cursor only ever moves over the next input,
when the owner that is executing it finalizes it and its reply is published. -/
theorem queue_in_order {first last : World} {history : List (Transition World Event)}
    (reached : Reachable World.Step World.Initial first)
    (run : Run World.Step first history last) :
    (∀ input ∈ last.db.inputs,
      0 < input.inputSeq ∧ input.inputSeq < last.db.session.nextInputSeq) ∧
    (∀ place, 0 < place → place < last.db.session.nextInputSeq →
      ∃! input, input ∈ last.db.inputs ∧ input.inputSeq = place) ∧
    (last.db.inputs.rows.filter fun input =>
      last.db.session.lastResolvedInputSeq < input.inputSeq).length ≤ 20 ∧
    (∀ input ∈ last.db.inputs, ∃ stored, last.db.tasks.get input.taskId = some stored ∧
      (stored.val.leaseExpiresAt ≠ none →
        input.inputSeq = last.db.session.lastResolvedInputSeq + 1)) ∧
    (∀ input ∈ last.db.inputs, input.inputSeq ≤ last.db.session.lastResolvedInputSeq →
      (∃ stored, last.db.tasks.get input.taskId = some stored ∧
        stored.val.status = .succeeded) ∧
      ∃! message, message ∈ last.db.messages ∧
        message.origin = .source (.turnReply input.id) ∧ message.publicSeq ≠ none) ∧
    (∀ transition ∈ history,
      transition.after.db.session.lastResolvedInputSeq =
        transition.before.db.session.lastResolvedInputSeq ∨
      transition.after.db.session.lastResolvedInputSeq =
          transition.before.db.session.lastResolvedInputSeq + 1 ∧
        ∃ input ∈ transition.before.db.inputs, ∃ stored transaction,
          transition.before.db.tasks.get input.taskId = some stored ∧
          input.inputSeq = transition.after.db.session.lastResolvedInputSeq ∧
          transition.event = .call transaction ∧
          Finalizes transition.before.db input stored.val transaction) := by
  have ordered := reachable_ordered (reached.extend run)
  have answered := reachable_answered (reached.extend run)
  refine ⟨ordered.numbered.within, fun place positive small =>
    ordered.numbered.existsUnique positive small, ?_, ?_, ?_, ?_⟩
  · have waiting := ordered.numbered.length_le last.db.session.lastResolvedInputSeq
    have room : last.db.session.nextInputSeq ≤ last.db.session.lastResolvedInputSeq + 20 + 1 :=
      ordered.room
    have next : last.db.queue.nextInputSeq = last.db.session.nextInputSeq := rfl
    refine waiting.trans ?_
    omega
  · intro input member
    obtain ⟨stored, held⟩ := Option.ne_none_iff_exists'.mp (ordered.tasked input member)
    refine ⟨stored, held, fun leased => ordered.head input member stored held ?_⟩
    rcases stored.property.1 with ⟨running, _⟩ | ⟨_, _, _, free⟩
    · exact running
    · exact absurd free leased
  · intro input member passed
    obtain ⟨message, posted, origin, public_⟩ := answered input member passed
    refine ⟨ordered.resolved input member passed, message, ⟨posted, origin, public_⟩, ?_⟩
    rintro other ⟨otherPosted, otherOrigin, _⟩
    exact Table.eq_of_key otherPosted posted (otherOrigin.trans origin.symm)
  · intro transition member
    exact (run.taken member).advances (run.reachable_before reached member)

end

attribute [local instance] samplePlatform in
/-- The first input is answered and the cursor moves over it. -/
theorem queue_in_order_reply :
    ((sampleWorld.after submission).after (reply lowOffer 8)).db.session.lastResolvedInputSeq = 1 ∧
      ∃ input ∈ ((sampleWorld.after submission).after (reply lowOffer 8)).db.inputs,
        input.inputSeq = 1 ∧
        ∃! message, message ∈ ((sampleWorld.after submission).after (reply lowOffer 8)).db.messages ∧
          message.origin = .source (.turnReply input.id) ∧ message.publicSeq ≠ none := by
  have moved : ((sampleWorld.after submission).after
      (reply lowOffer 8)).db.session.lastResolvedInputSeq = 1 := by decide +kernel
  have two : ((sampleWorld.after submission).after
      (reply lowOffer 8)).db.session.nextInputSeq = 2 := by decide +kernel
  have reached : Reachable World.Step World.Initial (sampleWorld.after submission) :=
    World.reachable_after sampleWorld_initial (by decide +kernel)
  have run : Run World.Step (sampleWorld.after submission)
      ((sampleWorld.after submission).history [] (reply lowOffer 8))
      ((sampleWorld.after submission).after (reply lowOffer 8)) :=
    World.run_history (.start _) (by decide +kernel)
  obtain ⟨_, numbered, _, _, resolved, _⟩ := queue_in_order reached run
  obtain ⟨input, ⟨member, place⟩, _⟩ := numbered 1 Nat.one_pos (two ▸ Nat.one_lt_two)
  exact ⟨moved, input, member, place, (resolved input member (moved ▸ place.le)).2⟩

end Negotiation
