/-
This file lifts the moves of a room to the database: a transaction takes every
room through moves of its own and adds rooms that nothing has happened to. A
confirmation and a follow-up that is delivered are told apart.
-/

import SecondhandAgent.Legacy.Services
import SecondhandAgent.TaskLeases

namespace Negotiation.Legacy

open Store

/-! ### Sessions -/

section

variable {room later : Room} {now : Time} {keys : Nat → Prop}

/-- What no move changes of a session. -/
structure SameSession (one two : NegotiationSession) : Prop where
  id : two.id = one.id
  productId : two.productId = one.productId
  buyerId : two.buyerId = one.buyerId
  graphVersion : two.graphVersion = one.graphVersion

theorem SameStanding.session {one two : NegotiationSession} (same : SameStanding one two) :
    SameSession one two := ⟨same.id, same.productId, same.buyerId, same.graphVersion⟩

theorem SameSession.refl (session : NegotiationSession) : SameSession session session :=
  ⟨rfl, rfl, rfl, rfl⟩

theorem SameSession.trans {one two three : NegotiationSession} (first : SameSession one two)
    (second : SameSession two three) : SameSession one three :=
  ⟨second.id.trans first.id, second.productId.trans first.productId,
    second.buyerId.trans first.buyerId, second.graphVersion.trans first.graphVersion⟩

theorem post_session {message : Message} (done : room.post message = .ok later) :
    later.session = room.session ∧ later.offers = room.offers ∧ later.approvals = room.approvals := by
  obtain ⟨-, messages, -, rfl⟩ := post_eq_ok.mp done
  exact ⟨rfl, rfl, rfl⟩

theorem propose_session {offer : Offer} (done : room.propose offer = .ok later) :
    SameSession room.session later.session := by
  obtain ⟨offers, -, rfl⟩ := propose_eq_ok.mp done
  rw [supersedeCurrentOffer_session]
  exact ⟨rfl, rfl, rfl, rfl⟩

theorem Room.Move.session (move : Room.Move now keys room later) :
    SameSession room.session later.session := by
  cases move with
  | said done => rw [(post_session done).1]; exact .refl _
  | offered active buyer open_ offered role named silent valid done =>
    rw [(post_session done).1]
    exact (propose_session offered).trans ⟨rfl, rfl, rfl, rfl⟩
  | countered active agent open_ done => exact propose_session done
  | accepted active current found => exact ⟨rfl, rfl, rfl, rfl⟩
  | requested active current found buyer open_ pending unreviewed done =>
    obtain ⟨-, -, approvals, -, rfl⟩ := request_eq_ok.mp done
    exact ⟨rfl, rfl, rfl, rfl⟩
  | dismissed found pending ending =>
    exact (restoreActive_standing (room.setApproval _)).session
  | @reviewed approval offer requestId comment approved =>
    unfold Room.review
    cases approved with
    | true => exact ⟨rfl, rfl, rfl, rfl⟩
    | false => exact (restoreActive_standing ((room.setApproval _).setOffer _ _)).session
  | closed open_ done =>
    rw [(post_session done).1]
    unfold Room.withStatus
    rw [cancelPending_session]
    exact ⟨rfl, rfl, rfl, rfl⟩
  | marked => exact .refl _
  | sent => exact .refl _

theorem Room.Moves.session (moves : Room.Moves now keys room later) :
    SameSession room.session later.session := by
  induction moves with
  | refl => exact .refl _
  | tail _ move inductionHypothesis => exact inductionHypothesis.trans move.session

theorem Room.Move.mono {more : Nat → Prop} (weaker : ∀ key, keys key → more key)
    (move : Room.Move now keys room later) : Room.Move now more room later := by
  cases move with
  | said done key spoken silent buyer => exact .said done (weaker _ key) spoken silent buyer
  | offered active buyer open_ offered role named silent valid done key messageKey =>
    exact .offered active buyer open_ offered role named silent valid done (weaker _ key)
      (weaker _ messageKey)
  | countered active agent open_ done key => exact .countered active agent open_ done (weaker _ key)
  | accepted active current found => exact .accepted active current found
  | requested active current found buyer open_ pending unreviewed done key =>
    exact .requested active current found buyer open_ pending unreviewed done (weaker _ key)
  | dismissed found pending ending => exact .dismissed found pending ending
  | reviewed found pending waiting current about open_ unique =>
    exact .reviewed found pending waiting current about open_ unique
  | closed open_ done key => exact .closed open_ done (weaker _ key)
  | marked found unsent => exact .marked found unsent
  | sent found key told outcome => exact .sent found key told outcome

theorem Room.Moves.mono {more : Nat → Prop} (weaker : ∀ key, keys key → more key)
    (moves : Room.Moves now keys room later) : Room.Moves now more room later := by
  induction moves with
  | refl => exact .refl
  | tail _ move inductionHypothesis => exact inductionHypothesis.tail (move.mono weaker)

end

/-! ### Databases -/

/-- A room as it is made. -/
def Room.Fresh (room : Room) : Prop :=
  ∃ made : NegotiationSession, room = { session := made } ∧ made.status = .active ∧
    made.currentOfferId = none ∧ made.confirmedOfferId = none ∧ made.graphVersion = none

/-- The keys that a transaction hands out. -/
def Db.Issued (db later : Db) (key : Nat) : Prop := db.nextId ≤ key ∧ key < later.nextId

/-- Every room goes through moves, and so does a room that is new; each key that is handed out is
for one room. -/
structure Db.Evolves (now : Time) (db later : Db) : Prop where
  supply : db.nextId ≤ later.nextId
  rooms : ∃ owner : Nat → Nat,
    (∀ id old, db.rooms.get id = some old → ∃ new, later.rooms.get id = some new ∧
      Room.Moves now (fun key => db.Issued later key ∧ owner key = id) old new) ∧
    ∀ id new, later.rooms.get id = some new → db.rooms.get id = none → ∃ made : Room,
      made.Fresh ∧ Room.Moves now (fun key => db.Issued later key ∧ owner key = id) made new

section

variable {db later mid : Db} {now : Time} {room changed : Room}

theorem Db.Evolves.kept (evolves : Db.Evolves now db later) {id : Nat} {old : Room}
    (found : db.rooms.get id = some old) :
    ∃ new, later.rooms.get id = some new ∧ Room.Moves now (db.Issued later) old new := by
  obtain ⟨owner, kept, -⟩ := evolves.rooms
  obtain ⟨new, here, moves⟩ := kept id old found
  exact ⟨new, here, moves.mono fun _ issued => issued.1⟩

theorem Db.Evolves.came (evolves : Db.Evolves now db later) {id : Nat} {new : Room}
    (found : later.rooms.get id = some new) (none_ : db.rooms.get id = none) :
    ∃ made : Room, made.Fresh ∧ Room.Moves now (db.Issued later) made new := by
  obtain ⟨owner, -, came⟩ := evolves.rooms
  obtain ⟨made, fresh, moves⟩ := came id new found none_
  exact ⟨made, fresh, moves.mono fun _ issued => issued.1⟩

theorem Db.Evolves.of_rooms (same : later.rooms = db.rooms) (supply : db.nextId ≤ later.nextId) :
    Db.Evolves now db later := by
  refine ⟨supply, fun _ => 0, fun id old found => ?_, fun id new found none_ => ?_⟩
  · exact ⟨old, by rw [same]; exact found, .refl⟩
  · rw [same, none_] at found
    exact absurd found nofun

theorem Db.Evolves.refl (db : Db) : Db.Evolves now db db := .of_rooms rfl (Nat.le_refl _)

theorem Db.Evolves.trans (first : Db.Evolves now db mid) (second : Db.Evolves now mid later) :
    Db.Evolves now db later := by
  obtain ⟨supply, one, keptFirst, cameFirst⟩ := first
  obtain ⟨more, two, keptSecond, cameSecond⟩ := second
  -- a key belongs to the room that the transaction which has handed it out gives it to
  let owner (key : Nat) : Nat := if key < mid.nextId then one key else two key
  have early : ∀ id key, db.Issued mid key ∧ one key = id →
      db.Issued later key ∧ owner key = id := by
    rintro id key ⟨⟨low, high⟩, mine⟩
    refine ⟨⟨low, high.trans_le more⟩, ?_⟩
    simp only [owner, if_pos high]
    exact mine
  have late : ∀ id key, mid.Issued later key ∧ two key = id →
      db.Issued later key ∧ owner key = id := by
    rintro id key ⟨⟨low, high⟩, mine⟩
    refine ⟨⟨supply.trans low, high⟩, ?_⟩
    simp only [owner, if_neg (Nat.not_lt.mpr low)]
    exact mine
  refine ⟨supply.trans more, owner, fun id old found => ?_, fun id new found none_ => ?_⟩
  · obtain ⟨between, found, moves⟩ := keptFirst id old found
    obtain ⟨new, found, further⟩ := keptSecond id between found
    exact ⟨new, found, (moves.mono (early id)).trans (further.mono (late id))⟩
  · cases between : mid.rooms.get id with
    | none =>
      obtain ⟨made, fresh, moves⟩ := cameSecond id new found between
      exact ⟨made, fresh, moves.mono (late id)⟩
    | some room =>
      obtain ⟨made, fresh, moves⟩ := cameFirst id room between none_
      obtain ⟨newer, here, further⟩ := keptSecond id room between
      rw [found] at here
      cases here
      exact ⟨made, fresh, (moves.mono (early id)).trans (further.mono (late id))⟩

/-- A step lemma for the moves gives one for the transactions. -/
theorem Db.Evolves.invariant {holds : Room → Prop} (evolves : Db.Evolves now db later)
    (begins : ∀ room, room.Fresh → holds room)
    (kept : ∀ old new, Room.Moves now (db.Issued later) old new → holds old → holds new)
    (before : ∀ room ∈ db.rooms, holds room) : ∀ room ∈ later.rooms, holds room := by
  intro room member
  have found := Table.get_of_mem member
  cases old : db.rooms.get room.id with
  | none =>
    obtain ⟨made, fresh, moves⟩ := evolves.came found old
    exact kept made room moves (begins made fresh)
  | some earlier =>
    obtain ⟨new, here, moves⟩ := evolves.kept old
    rw [found] at here
    cases here
    exact kept earlier room moves (before earlier (Table.mem_of_get old))

theorem Db.Evolves.setRoom (found : db.rooms.get room.id = some room)
    (moves : Room.Moves now (db.Issued later) room changed)
    (rooms : later.rooms = db.rooms.put changed) (supply : db.nextId ≤ later.nextId) :
    Db.Evolves now db later := by
  have named : changed.id = room.id := moves.session.id
  refine ⟨supply, fun _ => room.id, fun id old here => ?_, fun id new here none_ => ?_⟩
  · rw [rooms]
    by_cases this : id = room.id
    · subst this
      rw [found] at here
      cases here
      refine ⟨changed, ?_, moves.mono fun _ issued => ⟨issued, rfl⟩⟩
      rw [← named, Table.get_put (named ▸ found), if_pos rfl]
    · exact ⟨old, by rw [Table.get_put_ne (by rw [named]; exact this)]; exact here, .refl⟩
  · rw [rooms] at here
    have this : id ≠ changed.id := by
      rintro rfl
      rw [named, found] at none_
      exact absurd none_ nofun
    rw [Table.get_put_ne this, none_] at here
    exact absurd here nofun

theorem approval_eq_some {approvalId : Nat} {approval : ApprovalRequest}
    (found : db.approval approvalId = some (room, approval)) :
    db.rooms.get room.id = some room ∧ room.approvals.get approvalId = some approval ∧
      approval.id = approvalId := by
  unfold Db.approval at found
  obtain ⟨other, member, mapped⟩ := List.exists_of_findSome?_eq_some found
  obtain ⟨row, here, made⟩ := Option.map_eq_some_iff.mp mapped
  cases made
  exact ⟨Table.get_of_mem member, here, Table.key_of_get here⟩

theorem ownedRoom_eq_ok {sessionId : Nat} {buyerId : String}
    (done : db.ownedRoom sessionId buyerId = .ok room) :
    db.rooms.get sessionId = some room ∧ room.id = sessionId ∧
      room.session.buyerId = buyerId ∧ room.session.graphVersion = none := by
  unfold Db.ownedRoom requireLegacyRuntime at done
  simp only [bind_eq_ok, require_eq_ok, expect_eq_ok, pure_eq_ok] at done
  obtain ⟨here, found, _, owned, _, legacy, rfl⟩ := done
  exact ⟨found, Table.key_of_get found, owned, legacy⟩

theorem sellerRoom_eq_ok {seller : String} {approvalId : Nat}
    (done : db.sellerRoom seller approvalId = .ok room) :
    db.rooms.get room.id = some room ∧ room.session.graphVersion = none := by
  unfold Db.sellerRoom requireLegacyRuntime at done
  simp only [bind_eq_ok, require_eq_ok, expect_eq_ok, pure_eq_ok] at done
  obtain ⟨⟨here, approval⟩, found, _, -, _, legacy, rfl⟩ := done
  exact ⟨(approval_eq_some found).1, legacy⟩

/-! ### Adopting what the tasks write -/

/-- The follow-up of an approval is the same as before, or not sent, and no key is handed out
twice. -/
structure MarksOnly (before after : TaskDb) : Prop where
  marks : ∀ id row, after.others.approvals id = some row →
    ∃ old, before.others.approvals id = some old ∧
      (row.followupStatus ≠ some .sent ∨ row.followupStatus = old.followupStatus)
  supply : before.nextId ≤ after.nextId

theorem MarksOnly.of_others {before after : TaskDb} (same : after.others = before.others)
    (supply : before.nextId ≤ after.nextId) : MarksOnly before after :=
  ⟨fun id row found => ⟨row, by rw [← same]; exact found, .inr rfl⟩, supply⟩

theorem MarksOnly.refl (tasks : TaskDb) : MarksOnly tasks tasks := .of_others rfl (Nat.le_refl _)

theorem MarksOnly.trans {one two three : TaskDb} (first : MarksOnly one two)
    (second : MarksOnly two three) : MarksOnly one three := by
  refine ⟨fun id row found => ?_, first.supply.trans second.supply⟩
  obtain ⟨between, found, change⟩ := second.marks id row found
  obtain ⟨old, found, earlier⟩ := first.marks id between found
  refine ⟨old, found, ?_⟩
  obtain unsent | same := change
  · exact .inl unsent
  · rw [same]
    exact earlier

theorem MarksOnly.update {before after : TaskDb} {approvalId : Nat} {approval : ApprovalRow}
    {status : ApprovalFollowupStatus} (found : before.others.approvals approvalId = some approval)
    (unsent : status ≠ .sent)
    (made : after.others.approvals = Function.update before.others.approvals approvalId
      (some { approval with followupStatus := some status }))
    (supply : before.nextId ≤ after.nextId) : MarksOnly before after := by
  refine ⟨fun id row here => ?_, supply⟩
  rw [made] at here
  by_cases this : id = approvalId
  · subst this
    rw [Function.update_self] at here
    cases here
    exact ⟨approval, found, .inl (by simpa using unsent)⟩
  · rw [Function.update_of_ne this] at here
    exact ⟨row, here, .inr rfl⟩

theorem markApprovalManualRequired_marks (tasks : TaskDb) (task : ModelTask) :
    MarksOnly tasks (markApprovalManualRequired tasks task) := by
  unfold markApprovalManualRequired
  split
  · exact .refl _
  · split
    · exact .refl _
    · next approval found =>
      split
      · exact .refl _
      · exact .update found (by decide) rfl (Nat.le_refl _)

theorem markApprovalFailed_marks (tasks : TaskDb) (task : ModelTask) :
    MarksOnly tasks (markApprovalFailed tasks task) := by
  unfold markApprovalFailed
  split
  · exact .refl _
  · split
    · exact .refl _
    · next approval found => exact .update found (by decide) rfl (Nat.le_refl _)

theorem persistChatTermination_marks (tasks : TaskDb) (task : ModelTask) :
    MarksOnly tasks (persistChatTermination tasks task) := by
  unfold persistChatTermination
  split
  · exact .refl _
  · split
    · exact .refl _
    · exact ⟨fun id row found => ⟨row, found, .inr rfl⟩, Nat.le_refl _⟩

section

variable {before after : TaskDb} {task : ModelTask}

theorem flush_marks (done : flush before task = .ok after) : MarksOnly before after := by
  obtain ⟨-, -, rfl⟩ := flush_eq_ok.mp done
  exact .of_others rfl (Nat.le_refl _)

theorem takeLease_marks {workerId : String} {leaseSeconds : Int} {result : TaskDb × Option Nat}
    (done : takeLease before task workerId now leaseSeconds = .ok result) :
    MarksOnly before result.1 := by
  unfold takeLease at done
  split at done
  · simp only [bind_eq_ok, pure_eq_ok] at done
    obtain ⟨written, done, rfl⟩ := done
    exact (flush_marks done).trans (markApprovalManualRequired_marks _ _)
  · simp only [bind_eq_ok, pure_eq_ok] at done
    obtain ⟨written, flushed, rfl⟩ := done
    obtain ⟨-, -, rfl⟩ := flush_eq_ok.mp flushed
    exact .of_others rfl (Nat.le_succ before.nextId)

theorem leaseTask_marks {taskId : Nat} {workerId : String} {leaseSeconds : Int}
    {result : TaskDb × Option Nat}
    (done : leaseTask before taskId workerId leaseSeconds now = .ok result) :
    MarksOnly before result.1 := by
  unfold leaseTask at done
  simp only [bind_eq_ok] at done
  obtain ⟨worker, -, task, -, done⟩ := done
  split at done
  · cases done
    exact .refl _
  · split at done
    · exact takeLease_marks done
    · cases done
      exact .refl _

section

variable [Unicode] {taskId leaseToken : Nat} {usage : ModelUsage}

theorem completeSuccess_marks {result : Snapshot}
    (done : completeSuccess before taskId leaseToken result usage now = .ok after) :
    MarksOnly before after := by
  unfold completeSuccess at done
  simp only [bind_eq_ok] at done
  obtain ⟨stored, -, task, -, _, -, done⟩ := done
  exact flush_marks done

theorem completeError_marks {target : ModelTaskStatus} {category : ModelTaskErrorCategory}
    {text : Option String} {usage : Option ModelUsage}
    (done : completeError before taskId leaseToken target category text usage now = .ok after) :
    MarksOnly before after := by
  unfold completeError at done
  simp only [bind_eq_ok, pure_eq_ok] at done
  obtain ⟨task, -, _, -, stored, -, written, done, rfl⟩ := done
  refine (flush_marks done).trans ?_
  split
  · exact markApprovalManualRequired_marks _ _
  · exact .refl _

omit [Unicode] in
theorem deferRetry_marks {category : ModelTaskErrorCategory} {nextRetryAt : Time}
    {text : Option String}
    (done : deferRetry before taskId leaseToken category nextRetryAt text now = .ok after) :
    MarksOnly before after := by
  unfold deferRetry at done
  simp only [bind_eq_ok] at done
  obtain ⟨_, -, task, -, _, -, done⟩ := done
  exact flush_marks done

theorem failOrDefer_marks {failure : ModelFailure}
    (done : failOrDefer task leaseToken failure now before = .ok after) :
    MarksOnly before after := by
  unfold failOrDefer at done
  split at done
  · exact deferRetry_marks done
  · exact completeError_marks done

end

theorem renewLease_marks {taskId leaseToken : Nat} {duration : Int}
    (done : renewLease before taskId leaseToken duration now = .ok after) :
    MarksOnly before after := by
  unfold renewLease at done
  simp only [bind_eq_ok] at done
  obtain ⟨_, -, task, -, _, -, done⟩ := done
  exact flush_marks done

theorem retryFailed_marks {seller : String} {taskId : Nat} {reason : Option String}
    (done : retryFailed before seller taskId reason now = .ok after) : MarksOnly before after := by
  unfold retryFailed at done
  simp only [bind_eq_ok, pure_eq_ok] at done
  obtain ⟨task, -, _, -, _, -, written, done, rfl⟩ := done
  exact (flush_marks done).trans (markApprovalFailed_marks _ _)

theorem terminate_marks {seller : String} {taskId : Nat} {reason : Option String}
    (done : terminate before seller taskId reason now = .ok after) : MarksOnly before after := by
  unfold terminate at done
  simp only [bind_eq_ok] at done
  obtain ⟨task, -, _, -, _, -, written, done, ended⟩ := done
  refine (flush_marks done).trans ?_
  split at ended
  · cases ended
    exact persistChatTermination_marks _ _
  · cases ended
    exact markApprovalManualRequired_marks _ _

end

theorem setFollowup_evolves {approvalId : Nat} {status : Option ApprovalFollowupStatus}
    (marks : ∀ room approval, db.approval approvalId = some (room, approval) →
      status ≠ some .sent ∨ status = approval.followupStatus) :
    Db.Evolves now db (db.setFollowup approvalId status) := by
  unfold Db.setFollowup
  split
  · exact .refl db
  · next room approval found =>
    obtain ⟨here, row, named⟩ := approval_eq_some found
    exact .setRoom here (.single (.marked (named ▸ row) (marks room approval found))) rfl
      (Nat.le_refl _)

theorem adopt_evolves {written : TaskDb} {approvalId : Option Nat}
    (marks : MarksOnly db.taskDb written) : Db.Evolves now db (db.adopt written approvalId) := by
  have adopted : Db.Evolves now db
      { db with tasks := written.tasks, nextId := written.nextId } := .of_rooms rfl marks.supply
  unfold Db.adopt
  dsimp only
  split
  · exact adopted
  · next approvalId =>
    split
    · exact adopted
    · next row found =>
      refine adopted.trans (setFollowup_evolves ?_)
      intro room approval here
      obtain ⟨old, seen, change⟩ := marks.marks approvalId row found
      have same : old.followupStatus = approval.followupStatus := by
        have known : db.approval approvalId = some (room, approval) := here
        have seen : db.surroundings.approvals approvalId = some old := seen
        unfold Db.surroundings at seen
        dsimp only at seen
        rw [known] at seen
        cases seen
        rfl
      rw [← same]
      exact change

theorem leaseNext_marks {tasks : TaskDb} {workerId : String} {taskTypes : Option (List ModelTaskType)}
    {leaseSeconds : Int} {locked : List Nat} {result : TaskDb × Option Nat}
    (done : leaseNext tasks workerId taskTypes leaseSeconds locked now = .ok result) :
    MarksOnly tasks result.1 := by
  unfold leaseNext at done
  simp only [bind_eq_ok] at done
  obtain ⟨worker, -, _, -, done⟩ := done
  split at done
  · cases done
    exact .refl tasks
  · exact takeLease_marks done

theorem createTask_supply [Platform] {tasks : TaskDb} {taskType : ModelTaskType} {key : String}
    {sessionId : Nat} {snapshot : Snapshot} {offerId approvalId : Option Nat} {schema attempts : Int}
    {result : TaskDb × Nat}
    (done : createTask tasks taskType key sessionId snapshot offerId approvalId schema attempts =
      .ok result) : tasks.nextId ≤ result.1.nextId := by
  unfold createTask at done
  simp only [bind_eq_ok] at done
  obtain ⟨stored, -, _, -, _, -, done⟩ := done
  split at done
  · simp only [bind_eq_ok, pure_eq_ok] at done
    obtain ⟨_, -, rfl⟩ := done
    exact Nat.le_refl _
  · simp only [bind_eq_ok, pure_eq_ok] at done
    obtain ⟨⟨sessionVersion, policyVersion⟩, -, rows, -, written, flushed, rfl⟩ := done
    obtain ⟨-, -, rfl⟩ := flush_eq_ok.mp flushed
    exact Nat.le_succ _

theorem onTask_eq_ok {task : ModelTask} {operation : TaskDb → Except TaskFailure TaskDb} :
    db.onTask task operation = .ok later ↔
      ∃ written, operation db.taskDb = .ok written ∧ later = db.adopt written task.approvalId := by
  unfold Db.onTask
  simp only [bind_eq_ok, pure_eq_ok, mapError_eq_ok]
  exact exists_congr fun written => and_congr_right fun _ => eq_comm

theorem onTask_evolves {task : ModelTask} {operation : TaskDb → Except TaskFailure TaskDb}
    (marks : ∀ written, operation db.taskDb = .ok written → MarksOnly db.taskDb written)
    (done : db.onTask task operation = .ok later) : Db.Evolves now db later := by
  obtain ⟨written, performed, rfl⟩ := onTask_eq_ok.mp done
  exact adopt_evolves (marks written performed)

end

end Negotiation.Legacy
