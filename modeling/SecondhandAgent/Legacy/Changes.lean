/-
This file says once what every transaction of the older runtime does to the
rooms: it takes each room through moves, or a buyer confirms an offer, or the
follow-up of an approval is delivered.
-/

import SecondhandAgent.Legacy.Evolution
import SecondhandAgent.Runs

namespace Negotiation.Legacy

open Store

/-! ### The changes -/

/-- The time an event reads. -/
def Event.time : Event → Time
  | .createForSeller .. | .updateOwnedProduct .. | .updateOwnedPolicy .. | .createSession ..
  | .close .. => 0
  | .sendMessage _ _ _ _ now | .leaseChat _ now | .leaseNextChat _ _ now | .reconcileReply _ _ now
  | .finalizeModelTurn _ _ _ _ now | .executeCall _ _ _ _ now | .stopRun _ _ _ _ now
  | .failChat _ _ _ now | .renewChat _ _ _ now | .cancelApproval _ _ _ now | .expireApproval _ now
  | .expireDueOwned _ now | .reviewApproval _ _ _ _ _ now | .claimFollowup _ _ now
  | .finalizeFollowup _ _ _ _ _ now | .failFollowup _ _ _ now | .confirm _ _ _ _ now
  | .retryTask _ _ _ now | .terminateTask _ _ _ now => now

/-- What a transaction that commits does to the rooms. -/
inductive Db.Change (db : Db) : Event → Db → Prop
  | evolved {event : Event} {later : Db} (evolves : Db.Evolves event.time db later) :
      Change db event later
  | confirmed {later : Db} {sessionId : Nat} {buyerId : String} {requestId : RequestId}
      {now : Time} {room changed : Room} {offer : Offer} {policy : SellerPolicy}
      (found : db.rooms.get sessionId = some room)
      (confirms : room.Confirms (db.goodsOf room) now offer policy requestId db.nextId changed)
      (rooms : later.rooms = db.rooms.put changed) (supply : later.nextId = db.nextId + 1) :
      Change db (.confirm sessionId buyerId offer.id requestId now) later
  | delivered {later : Db} {taskId leaseToken : Nat} {acknowledged : ApprovalFollowupEvent}
      {usage : ModelUsage} {delaySeconds : Nat} {now : Time} {task : ModelTask} {room told : Room}
      {approval : ApprovalRequest} {context : FollowupContext} {event : ApprovalFollowupEvent}
      {original : Json} (held : db.requireActiveLease taskId leaseToken now = .ok task)
      (found : task.approvalId.bind db.approval = some (room, approval))
      (loaded : loadContext db room approval = .ok context)
      (resolved : resolveEvent context now = .ok event)
      (snapshot : snapshotField task.inputSnapshot "request" = some original)
      (tells : Room.Tells context event
        (followupStaleReason task context original (agentRequest context event)).isSome now
        db.nextId told)
      (evolves : Db.Evolves now { db.setRoom told with nextId := db.nextId + 1 } later) :
      Change db (.finalizeFollowup taskId leaseToken acknowledged usage delaySeconds now) later

/-! ### Goods, sessions and approvals -/

section

variable {db later : Db} {now : Time} {room changed : Room}

theorem createForSeller_evolves {product : Product} {policy : SellerPolicy}
    (done : createForSeller db product policy = .ok later) : Db.Evolves now db later := by
  unfold createForSeller at done
  simp only [bind_eq_ok, pure_eq_ok] at done
  obtain ⟨goods, -, rfl⟩ := done
  exact .of_rooms rfl (Nat.le_succ _)

theorem updateOwnedProduct_evolves {productId : Nat} {seller title description : String}
    {listedPrice : Money} {status : ProductStatus}
    (done : updateOwnedProduct db productId seller title description listedPrice status =
      .ok later) : Db.Evolves now db later := by
  unfold updateOwnedProduct at done
  simp only [bind_eq_ok, pure_eq_ok] at done
  obtain ⟨goods, -, rfl⟩ := done
  exact .of_rooms rfl (Nat.le_refl _)

theorem updateOwnedPolicy_evolves {productId : Nat} {seller : String} {data : SellerPolicy}
    (done : updateOwnedPolicy db productId seller data = .ok later) :
    Db.Evolves now db later := by
  unfold updateOwnedPolicy at done
  simp only [bind_eq_ok, require_eq_ok, pure_eq_ok] at done
  obtain ⟨goods, -, policy, -, _, -, rfl⟩ := done
  exact .of_rooms rfl (Nat.le_refl _)

theorem createSession_evolves {productId : Nat} {buyerId : String}
    (done : createSession db productId buyerId none = .ok later) : Db.Evolves now db later := by
  unfold createSession at done
  simp only [bind_eq_ok, require_eq_ok, expect_eq_ok] at done
  obtain ⟨goods, -, _, -, _, -, policy, -, done⟩ := done
  split at done
  · cases done
    exact .refl db
  · simp only [bind_eq_ok, pure_eq_ok] at done
    obtain ⟨rooms, inserted, rfl⟩ := done
    refine ⟨Nat.le_succ _, fun _ => 0, fun id old found => ⟨old, ?_, .refl⟩, fun id new found none_ => ?_⟩
    · rw [Table.get_insert inserted]
      split
      · next same =>
        obtain ⟨free, -⟩ := Table.insert_eq_ok.mp inserted
        rw [same, free] at found
        cases found
      · exact found
    · rw [Table.get_insert inserted] at found
      split at found
      · cases found
        exact ⟨_, ⟨_, rfl, rfl, rfl, rfl, rfl⟩, .refl⟩
      · rw [none_] at found
        cases found

theorem setRoom_evolves (found : db.rooms.get room.id = some room)
    (moves : Room.Moves now (db.Issued (db.setRoom changed)) room changed) :
    Db.Evolves now db (db.setRoom changed) :=
  .setRoom found moves rfl (Nat.le_refl _)

theorem get_change {Row Key : Type} [DecidableEq Key] {key : Row → Key} (table : Table key)
    (changed : Row → Row) (keeps : ∀ row, key (changed row) = key row) (wanted : Key) :
    (table.change changed keeps).get wanted = (table.get wanted).map changed := by
  cases found : table.get wanted with
  | none =>
    refine Table.get_eq_none.mpr fun row member => ?_
    obtain ⟨old, here, rfl⟩ := Table.mem_change.mp member
    rw [keeps]
    exact Table.get_eq_none.mp found old here
  | some row =>
    obtain ⟨member, rfl⟩ := Table.get_eq_some.mp found
    exact Table.get_eq_some.mpr ⟨Table.mem_change.mpr ⟨row, member, rfl⟩, keeps row⟩

theorem expireDueOwned_evolves (db : Db) (seller : String) (now : Time) :
    Db.Evolves now db (expireDueOwned db seller now) := by
  refine ⟨Nat.le_refl _, fun _ => 0, fun id old found => ?_, fun id new found none_ => ?_⟩
  · refine ⟨_, by rw [expireDueOwned, get_change, found]; rfl, ?_⟩
    dsimp only
    split
    · exact expireDue_moves _ old now
    · exact .refl
  · rw [expireDueOwned, get_change, none_] at found
    exact absurd found nofun

theorem onOwnedRoom_evolves {sessionId : Nat} {buyerId : String}
    {operation : Room → Except ServiceError Room}
    (moves : ∀ keys room later, operation room = .ok later → Room.Moves now keys room later)
    (done : onOwnedRoom db sessionId buyerId operation = .ok later) : Db.Evolves now db later := by
  unfold onOwnedRoom at done
  simp only [bind_eq_ok, pure_eq_ok] at done
  obtain ⟨room, owned, changed, performed, rfl⟩ := done
  obtain ⟨found, rfl, -⟩ := ownedRoom_eq_ok owned
  exact setRoom_evolves found (moves _ room changed performed)

theorem expireApproval_evolves {approvalId : Nat} {comparisonTime : Time}
    (done : expireApproval db approvalId comparisonTime = .ok later) :
    Db.Evolves now db later := by
  unfold expireApproval at done
  simp only [bind_eq_ok, expect_eq_ok, pure_eq_ok] at done
  obtain ⟨⟨room, approval⟩, found, _, -, changed, expired, rfl⟩ := done
  exact setRoom_evolves (approval_eq_some found).1 (expireRequest_moves expired)

theorem reviewApproval_evolves {seller requestId : String} {approvalId : Nat}
    {comment : Option String} {approved : Bool}
    (done : reviewApproval db seller approvalId requestId comment approved now = .ok later) :
    Db.Evolves now db later := by
  unfold reviewApproval at done
  simp only [bind_eq_ok, pure_eq_ok] at done
  obtain ⟨key, -, stored, -, room, owned, ⟨changed, conflict⟩, reviewed, rfl⟩ := done
  obtain ⟨found, -⟩ := sellerRoom_eq_ok owned
  refine setRoom_evolves found (reviewRequest_moves ?_ reviewed)
  intro free other member different taken
  exact of_decide_eq_false free ⟨room, Table.mem_of_get found, other, member, different, taken⟩

theorem confirm_change {sessionId offerId : Nat} {buyerId : String} {requestId : RequestId}
    (done : confirm db sessionId buyerId offerId requestId now = .ok later) :
    Db.Change db (.confirm sessionId buyerId offerId requestId now) later := by
  unfold confirm at done
  simp only [bind_eq_ok, pure_eq_ok] at done
  obtain ⟨room, owned, changed, confirmed, rfl⟩ := done
  obtain ⟨found, rfl, -⟩ := ownedRoom_eq_ok owned
  obtain rfl | ⟨offer, policy, rfl, confirms⟩ := confirmOffer_eq_ok confirmed
  · exact .evolved (.setRoom found .refl rfl (Nat.le_succ _))
  · exact .confirmed found confirms rfl rfl

theorem close_evolves {sessionId : Nat} {buyerId : String} {requestId : RequestId}
    (done : close db sessionId buyerId requestId = .ok later) : Db.Evolves now db later := by
  unfold close at done
  simp only [bind_eq_ok, pure_eq_ok] at done
  obtain ⟨room, owned, changed, closed, rfl⟩ := done
  obtain ⟨found, rfl, -⟩ := ownedRoom_eq_ok owned
  exact .setRoom found (closeNegotiation_moves ⟨Nat.le_refl _, Nat.lt_succ_self _⟩ closed) rfl
    (Nat.le_succ _)

end

/-! ### The chat -/

section

variable {db later written : Db} {now : Time} {room : Room} {task : ModelTask}

theorem requireActiveLease_held {taskId leaseToken : Nat}
    (held : db.requireActiveLease taskId leaseToken now = .ok task) :
    db.tasks.get taskId = some task ∧ task.id = taskId ∧ ActiveLease task leaseToken now := by
  unfold Db.requireActiveLease at held
  simp only [bind_eq_ok, pure_eq_ok, mapError_eq_ok] at held
  obtain ⟨found, locked, _, active, rfl⟩ := held
  obtain ⟨rfl, here⟩ := lockedTask_eq_ok locked
  exact ⟨here, rfl, requireActiveLease_eq_ok active⟩

section

variable [Unicode] {leaseToken : Nat} {usage : ModelUsage}

/-- The ways a turn that is answered ends its task. -/
theorem ending_marks {taskId : Nat} {staleReason : Option String} {before after : TaskDb}
    (done : (match staleReason with
      | some reason => Legacy.markStale before taskId leaseToken (some reason) usage now
      | none => completeSuccess before taskId leaseToken [] usage now) = .ok after) :
    MarksOnly before after := by
  cases staleReason with
  | some reason => exact completeError_marks done
  | none => exact completeSuccess_marks done

omit [Unicode] in
/-- A turn gives out two keys: one to what the tools write, and one to the reply. -/
theorem finishTurn_evolves {acted : Room} {requestId : String} {result : AgentTurnResult}
    {ending : TaskDb → Except TaskFailure TaskDb}
    (found : db.rooms.get room.id = some room)
    (moves : Room.Moves now (Eq db.nextId) room acted)
    (silent : storedOutcome (some result.outcome) = none)
    (marks : ∀ before after, ending before = .ok after → MarksOnly before after)
    (done : finishTurn db task acted requestId result ending = .ok later) :
    Db.Evolves now db later := by
  unfold finishTurn at done
  simp only [bind_eq_ok] at done
  obtain ⟨⟨replied, reply⟩, persisted, ended⟩ := done
  have issued : ∀ key, db.nextId = key ∨ key = db.nextId + 1 →
      db.Issued { db.setRoom replied with nextId := db.nextId + 2 } key := by
    rintro key (rfl | rfl)
    · exact ⟨Nat.le_refl _, Nat.lt_add_of_pos_right Nat.two_pos⟩
    · exact ⟨Nat.le_succ _, Nat.lt_succ_self _⟩
  have posted : Db.Evolves now db { db.setRoom replied with nextId := db.nextId + 2 } :=
    .setRoom found ((moves.mono fun key same => issued key (.inl same)).trans
      (persistResult_moves (issued _ (.inr rfl)) silent persisted)) rfl (Nat.le_add_right _ 2)
  exact posted.trans (onTask_evolves (fun _ ended => marks _ _ ended) ended)

theorem cancelWithLease_marks {taskId : Nat} {text : String} {before after : TaskDb}
    (done : cancelWithLease before taskId leaseToken text now = .ok after) :
    MarksOnly before after := completeError_marks done

theorem reconcileExistingReply_evolves {taskId : Nat}
    (done : reconcileExistingReply db taskId leaseToken now = .ok later) :
    Db.Evolves now db later := by
  unfold reconcileExistingReply at done
  simp only [bind_eq_ok, expect_eq_ok] at done
  obtain ⟨task, held, requestId, -, done⟩ := done
  split at done
  · cases done
    exact .refl db
  · simp only [bind_eq_ok, require_eq_ok] at done
    obtain ⟨_, -, ended⟩ := done
    exact onTask_evolves (fun _ ended => cancelWithLease_marks ended) ended

theorem finalizeModelTurn_evolves {taskId : Nat} {decision : NegotiationDecision}
    (done : finalizeModelTurn db taskId leaseToken decision usage now = .ok later) :
    Db.Evolves now db later := by
  unfold finalizeModelTurn at done
  simp only [bind_eq_ok, expect_eq_ok] at done
  obtain ⟨task, held, requestId, -, room, found, done⟩ := done
  have here : db.rooms.get room.id = some room := Table.key_of_get found ▸ found
  split at done
  · simp only [bind_eq_ok, require_eq_ok] at done
    obtain ⟨_, -, ended⟩ := done
    exact onTask_evolves (fun _ ended => cancelWithLease_marks ended) ended
  · split at done
    · exact finishTurn_evolves here .refl rfl (fun _ _ ended => completeError_marks ended) done
    · obtain ⟨moves, silent⟩ := executeDecision_moves (db.goodsOf room) room db.nextId
        task.currentTurnOfferId (constrainFormalOfferDecision decision task.currentTurnOfferId) now rfl
      exact finishTurn_evolves here moves silent (fun _ _ ended => completeSuccess_marks ended) done

theorem executeCall_evolves {taskId : Nat} {call : ToolCall}
    (done : executeCall db taskId leaseToken call usage now = .ok later) :
    Db.Evolves now db later := by
  unfold executeCall at done
  simp only [bind_eq_ok, expect_eq_ok] at done
  obtain ⟨task, held, room, found, requestId, -, done⟩ := done
  have here : db.rooms.get room.id = some room := Table.key_of_get found ▸ found
  split at done
  · exact finishTurn_evolves here .refl rfl (fun _ _ ended => completeError_marks ended) done
  · split at done
    · cases done
      exact .refl db
    · next acted result ran =>
      obtain ⟨moves, silent⟩ := runTool_moves rfl ran
      exact finishTurn_evolves here moves silent (fun _ _ ended => completeSuccess_marks ended) done

theorem stopRun_evolves {taskId : Nat} {staleReason : Option String}
    (done : stopRun db taskId leaseToken staleReason usage now = .ok later) :
    Db.Evolves now db later := by
  unfold stopRun at done
  simp only [bind_eq_ok, expect_eq_ok] at done
  obtain ⟨task, held, room, found, requestId, -, done⟩ := done
  have here : db.rooms.get room.id = some room := Table.key_of_get found ▸ found
  exact finishTurn_evolves here .refl rfl (fun _ _ ended => ending_marks ended) done

theorem failChat_evolves {taskId : Nat} {failure : ModelFailure}
    (done : failChat db taskId leaseToken failure now = .ok later) : Db.Evolves now db later := by
  unfold failChat at done
  simp only [bind_eq_ok] at done
  obtain ⟨task, -, ended⟩ := done
  exact onTask_evolves (fun _ ended => failOrDefer_marks ended) ended

omit [Unicode] in
theorem renewChat_evolves {taskId : Nat} {duration : Int}
    (done : renewChat db taskId leaseToken duration now = .ok later) : Db.Evolves now db later := by
  unfold renewChat at done
  simp only [bind_eq_ok] at done
  obtain ⟨task, -, ended⟩ := done
  exact onTask_evolves (fun _ ended => renewLease_marks ended) ended

end

theorem leaseChat_evolves {retry : ModelRetryPolicy} {taskId : Nat}
    (done : leaseChat retry db taskId now = .ok later) : Db.Evolves now db later := by
  unfold leaseChat at done
  simp only [bind_eq_ok, require_eq_ok] at done
  obtain ⟨task, -, _, -, leased⟩ := done
  refine onTask_evolves (fun written performed => ?_) leased
  obtain ⟨result, done, rfl⟩ := (map_eq_ok _ _ _).mp performed
  exact leaseTask_marks done

theorem leaseNextChat_evolves {retry : ModelRetryPolicy} {workerId : String} {locked : List Nat}
    (done : leaseNextChat retry db workerId locked now = .ok later) : Db.Evolves now db later := by
  unfold leaseNextChat at done
  simp only [bind_eq_ok, pure_eq_ok] at done
  obtain ⟨⟨written, leasedId⟩, leased, rfl⟩ := done
  exact .of_rooms rfl (leaseNext_marks (mapError_eq_ok.mp leased)).supply

theorem retryTask_evolves {seller : String} {taskId : Nat} {reason : Option String}
    (done : retryTask db seller taskId reason now = .ok later) : Db.Evolves now db later := by
  unfold retryTask at done
  simp only [bind_eq_ok] at done
  obtain ⟨task, -, ended⟩ := done
  exact onTask_evolves (fun _ ended => retryFailed_marks ended) ended

theorem persistTermination_evolves (done : db.persistTermination task = .ok later) :
    Db.Evolves now db later := by
  unfold Db.persistTermination at done
  split at done
  · next requestId room _ found =>
    split at done
    · cases done
      exact .refl db
    · simp only [bind_eq_ok, pure_eq_ok] at done
      obtain ⟨⟨replied, reply⟩, persisted, rfl⟩ := done
      exact .setRoom (Table.key_of_get found ▸ found)
        (persistResult_moves ⟨Nat.le_refl _, Nat.lt_succ_self _⟩ rfl persisted) rfl (Nat.le_succ _)
  · cases done
    exact .refl db

theorem terminateTask_evolves {seller : String} {taskId : Nat} {reason : Option String}
    (done : terminateTask db seller taskId reason now = .ok later) : Db.Evolves now db later := by
  unfold terminateTask at done
  simp only [bind_eq_ok] at done
  obtain ⟨task, -, ended, marked, done⟩ := done
  have first : Db.Evolves now db ended :=
    onTask_evolves (fun _ terminated => terminate_marks terminated) marked
  split at done
  · exact first.trans (persistTermination_evolves done)
  · cases done
    exact first

end

/-! ### A message of the buyer -/

section

variable [Platform] {db later : Db} {now : Time} {room : Room} {retry : ModelRetryPolicy}

omit [Platform] in
/-- What needs no decision is that the agent cannot answer. -/
theorem prepareAgent_immediate {goods : Option Goods} {content : String} {turnOffer : Option Nat}
    {result : AgentTurnResult}
    (prepared : prepareAgent goods room content turnOffer = .immediate result) :
    result = safeFailure := by
  unfold prepareAgent at prepared
  dsimp only at prepared
  repeat' split at prepared
  all_goals cases prepared
  all_goals rfl

theorem createChatTask_rooms {message : Message} {turnOffer : Option Nat} {newerAgent : Bool}
    {result : Db × Nat}
    (done : createChatTask retry db room message turnOffer newerAgent = .ok result) :
    result.1.rooms = db.rooms ∧ db.nextId ≤ result.1.nextId := by
  unfold createChatTask at done
  simp only [bind_eq_ok, expect_eq_ok, pure_eq_ok] at done
  obtain ⟨goods, -, policy, -, ⟨written, taskId⟩, made, task, -, rfl⟩ := done
  exact ⟨rfl, createTask_supply (mapError_eq_ok.mp made)⟩

theorem prepareTurn_evolves {sessionId : Nat} {buyerId : String} {request : SendMessageRequest}
    {newerAgent : Bool} {result : Db × SendResult}
    (done : prepareTurn retry db sessionId buyerId request newerAgent now = .ok result) :
    Db.Evolves now db result.1 := by
  unfold prepareTurn at done
  simp only [bind_eq_ok] at done
  obtain ⟨room, owned, done⟩ := done
  obtain ⟨found, rfl, -⟩ := ownedRoom_eq_ok owned
  split at done
  · simp only [bind_eq_ok, pure_eq_ok] at done
    obtain ⟨resumed, -, rfl⟩ := done
    exact .refl db
  · simp only [bind_eq_ok, require_eq_ok] at done
    obtain ⟨_, -, _, -, ⟨spoken, message⟩, spoke, done⟩ := done
    have spoken_ : ∀ (keys : Nat → Prop), keys db.nextId → keys (db.nextId + 1) →
        Room.Moves now keys room spoken := fun keys first second => (speak_moves first second spoke).1
    have posted : ∀ {acted replied : Room} {agentResult : AgentTurnResult} {reply : Message}
        {requestId : String}, Room.Moves now (Eq (db.nextId + 2)) spoken acted →
        storedOutcome (some agentResult.outcome) = none →
        acted.persistResult (db.nextId + 3) requestId agentResult = .ok (replied, reply) →
        Db.Evolves now db { db.setRoom replied with nextId := db.nextId + 4 } := by
      intro acted replied agentResult reply requestId further silent persisted
      let keys (key : Nat) : Prop := db.nextId ≤ key ∧ key < db.nextId + 4
      have spoke : Room.Moves now keys room spoken :=
        spoken_ keys ⟨by omega, by omega⟩ ⟨by omega, by omega⟩
      have acting : Room.Moves now keys spoken acted := by
        refine further.mono fun key same => ?_
        subst same
        exact ⟨by omega, by omega⟩
      have replying : Room.Moves now keys acted replied :=
        persistResult_moves ⟨by omega, by omega⟩ silent persisted
      exact .setRoom found ((spoke.trans acting).trans replying) rfl (Nat.le_add_right _ 4)
    split at done
    · next result prepared =>
      simp only [bind_eq_ok, pure_eq_ok] at done
      obtain ⟨⟨replied, reply⟩, persisted, rfl⟩ := done
      rw [prepareAgent_immediate prepared] at persisted
      exact posted .refl rfl persisted
    · next decision prepared =>
      simp only [bind_eq_ok, pure_eq_ok] at done
      obtain ⟨⟨replied, reply⟩, persisted, rfl⟩ := done
      obtain ⟨further, silent⟩ := executeDecision_moves (db.goodsOf room) spoken (db.nextId + 2)
        message.formalOfferId decision now rfl
      exact posted further silent persisted
    · simp only [bind_eq_ok, pure_eq_ok] at done
      obtain ⟨⟨created, taskId⟩, made, rfl⟩ := done
      obtain ⟨rooms, supply⟩ := createChatTask_rooms made
      have more : db.nextId + 2 ≤ created.nextId := supply
      have spoke : Room.Moves now (db.Issued created) room spoken :=
        spoken_ _ ⟨Nat.le_refl _, by omega⟩ ⟨Nat.le_succ _, by omega⟩
      exact .setRoom found spoke rooms ((Nat.le_add_right _ 2).trans more)

end

/-! ### Follow-ups -/

section

variable {db later : Db} {now : Time} {room : Room} {approval : ApprovalRequest}

theorem mark_evolves (db : Db) (approvalId : Nat) {status : ApprovalFollowupStatus}
    (unsent : status ≠ .sent) : Db.Evolves now db (db.mark approvalId status).1 :=
  setFollowup_evolves fun _ _ _ => .inl fun same => unsent (Option.some.inj same)

theorem sent_evolves {approvalId : Nat} {requestId : String} {message : Message}
    (found : db.approval approvalId = some (room, approval))
    (key : approval.followupRequestId = some requestId)
    (told : room.messageByRequestId requestId = some message)
    (outcome : storedOutcome message.agentOutcome ≠ none) :
    Db.Evolves now db (db.setFollowup approvalId (some .sent)) := by
  obtain ⟨here, row, named⟩ := approval_eq_some found
  unfold Db.setFollowup
  rw [found]
  exact setRoom_evolves here (.single (.sent (named ▸ row) key told outcome))

theorem followups_mem {excluded locked : List Nat}
    (head : (db.followups excluded locked).head? = some (room, approval)) :
    room ∈ db.rooms ∧ approval ∈ room.approvals ∧ Eligible approval := by
  have member := List.mem_of_head? head
  unfold Db.followups at member
  simp only [List.mem_insertionSort, List.mem_filter, List.mem_flatMap, List.mem_map,
    decide_eq_true_eq] at member
  obtain ⟨⟨other, inRooms, row, inRoom, made⟩, eligible, -⟩ := member
  cases made
  exact ⟨inRooms, inRoom, eligible⟩

section

variable [Platform] {retry : ModelRetryPolicy}

theorem followupTask_rooms {result : Db × Nat}
    (done : followupTask retry db room approval now = .ok result) :
    result.1.rooms = db.rooms ∧ db.nextId ≤ result.1.nextId := by
  unfold followupTask at done
  simp only [bind_eq_ok, pure_eq_ok] at done
  obtain ⟨context, -, event, -, ⟨written, taskId⟩, made, rfl⟩ := done
  exact ⟨rfl, createTask_supply (mapError_eq_ok.mp made)⟩

omit [Platform] in
theorem leaseFollowup_evolves {taskId : Nat} {result : Db × Claim}
    (done : leaseFollowup retry db approval taskId now = .ok result) :
    Db.Evolves now db result.1 := by
  unfold leaseFollowup at done
  simp only [bind_eq_ok, mapError_eq_ok] at done
  obtain ⟨created, -, ⟨written, leasedId⟩, leased, done⟩ := done
  have first : Db.Evolves now db (db.adopt written created.approvalId) :=
    adopt_evolves (leaseTask_marks leased)
  split at done
  · split at done
    · cases done
      exact first.trans (mark_evolves _ _ (by rintro ⟨⟩))
    · cases done
      exact first
  · split at done
    · cases done
      exact first.trans (mark_evolves _ _ (by rintro ⟨⟩))
    · cases done
      exact first.trans (mark_evolves _ _ (by rintro ⟨⟩))
    · cases done
      exact first.trans (mark_evolves _ _ (by rintro ⟨⟩))
    · cases done
      exact first.trans (mark_evolves _ _ (by rintro ⟨⟩))
    · cases done
      exact first

theorem claimApproval_evolves {result : Db × Claim} (here : room ∈ db.rooms)
    (row : approval ∈ room.approvals)
    (done : claimApproval retry db room approval now = .ok result) :
    Db.Evolves now db result.1 := by
  unfold claimApproval at done
  dsimp only at done
  split at done
  · cases done
    exact mark_evolves db approval.id (by rintro ⟨⟩)
  · next requestId key =>
    split at done
    · cases done
      exact mark_evolves db approval.id (by rintro ⟨⟩)
    · split at done
      · next existing told =>
        split at done
        · next role outcome =>
          cases done
          exact setRoom_evolves (Table.get_of_mem here)
            (.single (.sent (Table.get_of_mem row) key told (by rw [outcome]; rintro ⟨⟩)))
        · cases done
          exact mark_evolves db approval.id (by rintro ⟨⟩)
      · split at done
        · next created taskId made =>
          obtain ⟨rooms, supply⟩ := followupTask_rooms made
          exact (Db.Evolves.of_rooms rooms supply).trans (leaseFollowup_evolves done)
        · cases done
          exact mark_evolves db approval.id (by rintro ⟨⟩)
        · cases done

theorem claimNext_evolves {excluded locked : List Nat} {result : Db × Claim}
    (done : claimNext retry db excluded locked now = .ok result) :
    Db.Evolves now db result.1 := by
  unfold claimNext at done
  split at done
  · cases done
    exact .refl db
  · next room approval head =>
    obtain ⟨here, row, -⟩ := followups_mem head
    exact claimApproval_evolves here row done

end

section

variable [Unicode] {taskId leaseToken : Nat} {task : ModelTask} {usage : ModelUsage}

theorem markStale_evolves {reason : String}
    (done : db.markStale task leaseToken reason usage now = .ok later) :
    Db.Evolves now db later :=
  onTask_evolves (fun _ ended => completeError_marks ended) done

theorem applyFailure_evolves {approvalId : Nat} {failure : ModelFailure}
    {result : Db × ApprovalProcessingResult}
    (done : applyFailure db task leaseToken approvalId failure now = .ok result) :
    Db.Evolves now db result.1 := by
  unfold applyFailure at done
  simp only [bind_eq_ok, pure_eq_ok] at done
  obtain ⟨written, ended, rfl⟩ := done
  have first : Db.Evolves now db written :=
    onTask_evolves (fun _ ended => failOrDefer_marks ended) ended
  refine first.trans (mark_evolves written approvalId ?_)
  split <;> rintro ⟨⟩

theorem handleFailedTask_evolves {failure : ModelFailure} {result : Db × ApprovalProcessingResult}
    (done : handleFailedTask db taskId leaseToken failure now = .ok result) :
    Db.Evolves now db result.1 := by
  unfold handleFailedTask at done
  simp only [bind_eq_ok] at done
  obtain ⟨task, -, done⟩ := done
  exact applyFailure_evolves done

omit [Unicode] in
theorem loadContext_eq_ok {context : FollowupContext}
    (loaded : loadContext db room approval = .ok context) :
    context.room = room ∧ context.approval = approval ∧
      room.offers.get approval.offerId = some context.offer ∧
      db.goodsOf room = some context.goods := by
  unfold loadContext at loaded
  simp only [bind_eq_ok, expect_eq_ok, pure_eq_ok] at loaded
  obtain ⟨offer, about, goods, sold, rfl⟩ := loaded
  exact ⟨rfl, rfl, about, sold⟩

/-- The draft of the model is refused, or the buyer is told. -/
theorem finalizeContext_eq_ok {context : FollowupContext} {requestId : String}
    {event acknowledged : ApprovalFollowupEvent} {delaySeconds : Nat}
    {result : Db × ApprovalProcessingResult}
    (found : context.room.approvals.get context.approval.id = some context.approval)
    (about : context.room.offers.get context.approval.offerId = some context.offer)
    (resolved : resolveEvent context now = .ok event)
    (key : context.approval.followupRequestId = some requestId)
    (fresh : context.room.messageByRequestId requestId = none)
    (done : finalizeContext db task leaseToken context requestId event acknowledged usage
      delaySeconds now = .ok result) :
    ∃ original, snapshotField task.inputSnapshot "request" = some original ∧
      (Db.Evolves now db result.1 ∨ ∃ told, Room.Tells context event
        (followupStaleReason task context original (agentRequest context event)).isSome now
        db.nextId told ∧
        Db.Evolves now { db.setRoom told with nextId := db.nextId + 1 } result.1) := by
  unfold finalizeContext at done
  simp only [bind_eq_ok, expect_eq_ok] at done
  obtain ⟨original, snapshot, originalResult, -, done⟩ := done
  refine ⟨original, snapshot, ?_⟩
  split at done
  · next reason stale =>
    unfold deliverStale at done
    simp only [bind_eq_ok, pure_eq_ok] at done
    obtain ⟨told, persisted, written, ended, rfl⟩ := done
    refine .inr ⟨told, ⟨found, about, resolved, requestId, key, fresh, ?_⟩,
      markStale_evolves ended⟩
    rw [stale]
    simp only [Option.isSome_some, if_true, true_and]
    rw [← persisted]
    by_cases current : context.VoidAndCurrent event
    · rw [if_pos current, if_neg (not_not.mpr current)]
    · rw [if_neg current, if_pos current]
  · next valid =>
    split at done
    · unfold deliverFollowup at done
      simp only [bind_eq_ok, pure_eq_ok] at done
      obtain ⟨told, persisted, written, ended, rfl⟩ := done
      refine .inr ⟨told, ⟨found, about, resolved, requestId, key, fresh, ?_⟩,
        onTask_evolves (fun _ ended => completeSuccess_marks ended) ended⟩
      rw [valid]
      simpa using persisted
    · exact .inl (applyFailure_evolves done)

theorem finalizeFollowup_change {acknowledged : ApprovalFollowupEvent} {delaySeconds : Nat}
    {result : Db × ApprovalProcessingResult}
    (done : finalizeFollowup db taskId leaseToken acknowledged usage delaySeconds now =
      .ok result) :
    Db.Change db (.finalizeFollowup taskId leaseToken acknowledged usage delaySeconds now)
      result.1 := by
  unfold finalizeFollowup at done
  simp only [bind_eq_ok] at done
  obtain ⟨task, held, done⟩ := done
  split at done
  · simp only [bind_eq_ok, pure_eq_ok] at done
    obtain ⟨written, ended, rfl⟩ := done
    exact .evolved (markStale_evolves ended)
  · next room approval found =>
    obtain ⟨approvalId, -, seen⟩ := Option.bind_eq_some_iff.mp found
    obtain ⟨here, row, named⟩ := approval_eq_some seen
    subst named
    split at done
    · simp only [bind_eq_ok, pure_eq_ok] at done
      obtain ⟨written, ended, rfl⟩ := done
      exact .evolved ((markStale_evolves ended).trans (mark_evolves _ _ (by rintro ⟨⟩)))
    · next requestId filtered =>
      have key := (Option.filter_eq_some_iff.mp filtered).1
      split at done
      · next existing told =>
        split at done
        · next role outcome =>
          simp only [bind_eq_ok, pure_eq_ok] at done
          obtain ⟨written, ended, rfl⟩ := done
          exact .evolved ((sent_evolves seen key told (by rw [outcome]; rintro ⟨⟩)).trans
            (markStale_evolves ended))
        · simp only [bind_eq_ok, pure_eq_ok] at done
          obtain ⟨written, ended, rfl⟩ := done
          exact .evolved ((markStale_evolves ended).trans (mark_evolves _ _ (by rintro ⟨⟩)))
      · next fresh =>
        split at done
        · simp only [bind_eq_ok, pure_eq_ok] at done
          obtain ⟨written, ended, rfl⟩ := done
          exact .evolved ((markStale_evolves ended).trans (mark_evolves _ _ (by rintro ⟨⟩)))
        · cases done
        · next context event loaded =>
          simp only [bind_eq_ok, pure_eq_ok] at loaded
          obtain ⟨context, loaded, event, resolved, made⟩ := loaded
          cases made
          obtain ⟨rfl, rfl, about, sold⟩ := loadContext_eq_ok loaded
          obtain ⟨original, snapshot, evolves | ⟨told, tells, evolves⟩⟩ :=
            finalizeContext_eq_ok row about resolved key fresh done
          · exact .evolved evolves
          · exact .delivered held found loaded resolved snapshot tells evolves

end

end

/-! ### Every event -/

section

variable [Platform] [Unicode] {retry : ModelRetryPolicy} {db later : Db} {event : Event}

/-- A transaction that commits takes the rooms through moves, or it confirms an offer or delivers
a follow-up. -/
theorem perform_change (done : db.perform retry event = .ok later) : db.Change event later := by
  cases event with
  | createForSeller => exact .evolved (createForSeller_evolves done)
  | updateOwnedProduct => exact .evolved (updateOwnedProduct_evolves done)
  | updateOwnedPolicy => exact .evolved (updateOwnedPolicy_evolves done)
  | createSession => exact .evolved (createSession_evolves done)
  | sendMessage =>
    obtain ⟨result, performed, rfl⟩ := (map_eq_ok _ _ _).mp done
    exact .evolved (prepareTurn_evolves performed)
  | leaseChat => exact .evolved (leaseChat_evolves done)
  | leaseNextChat => exact .evolved (leaseNextChat_evolves done)
  | reconcileReply => exact .evolved (reconcileExistingReply_evolves done)
  | finalizeModelTurn => exact .evolved (finalizeModelTurn_evolves done)
  | executeCall => exact .evolved (executeCall_evolves done)
  | stopRun => exact .evolved (stopRun_evolves done)
  | failChat => exact .evolved (failChat_evolves done)
  | renewChat => exact .evolved (renewChat_evolves done)
  | cancelApproval =>
    exact .evolved (onOwnedRoom_evolves (fun _ _ _ => cancelRequest_moves) done)
  | expireApproval => exact .evolved (expireApproval_evolves done)
  | expireDueOwned seller now =>
    cases done
    exact .evolved (expireDueOwned_evolves db seller now)
  | reviewApproval => exact .evolved (reviewApproval_evolves done)
  | claimFollowup =>
    obtain ⟨result, performed, rfl⟩ := (map_eq_ok _ _ _).mp done
    exact .evolved (claimNext_evolves performed)
  | finalizeFollowup =>
    obtain ⟨result, performed, rfl⟩ := (map_eq_ok _ _ _).mp done
    exact finalizeFollowup_change performed
  | failFollowup =>
    obtain ⟨result, performed, rfl⟩ := (map_eq_ok _ _ _).mp done
    exact .evolved (handleFailedTask_evolves performed)
  | confirm => exact confirm_change done
  | close => exact .evolved (close_evolves done)
  | retryTask => exact .evolved (retryTask_evolves done)
  | terminateTask => exact .evolved (terminateTask_evolves done)

/-- The rooms stay as they are, or an event has changed them. -/
theorem next_change (retry : ModelRetryPolicy) (db : Db) (event : Event) :
    db.Change event (db.next retry event) := by
  unfold Db.next
  split
  · next later done => exact perform_change done
  · exact .evolved (.refl db)

/-! ### Given events -/

/-- The database after some events. -/
def Db.after (retry : ModelRetryPolicy) (db : Db) (events : List Event) : Db :=
  events.foldl (fun db event => db.next retry event) db

/-- The transitions of some events, the newest one first. -/
def Db.history (retry : ModelRetryPolicy) (db : Db) :
    List (Transition Db Event) → List Event → List (Transition Db Event)
  | past, [] => past
  | past, event :: events =>
    let later := db.next retry event
    later.history retry (⟨db, event, later⟩ :: past) events

theorem Db.run_history (retry : ModelRetryPolicy) {first : Db}
    {past : List (Transition Db Event)} (events : List Event)
    (run : Run (Db.Step retry) first past db) :
    Run (Db.Step retry) first (db.history retry past events) (db.after retry events) := by
  induction events generalizing db past with
  | nil => exact run
  | cons event rest inductionHypothesis => exact inductionHypothesis (run.next rfl)

theorem Db.reachable_after (retry : ModelRetryPolicy) (events : List Event) :
    Reachable (Db.Step retry) Db.Initial (({} : Db).after retry events) :=
  ⟨_, _, rfl, Db.run_history retry events (.start _)⟩

end

/-- A product on sale. -/
def sampleProduct : Product where
  sellerId := "seller"
  title := "lamp"
  description := "a desk lamp"
  listedPrice := ⟨10000, hundred_fits⟩
  status := .available
  productVersion := 1

/-- An offer is accepted from 90.00 on, and the seller is asked from 50.00 on. -/
def samplePolicy : SellerPolicy where
  minimumNetPrice := ⟨5000, fifty_fits⟩
  autoAcceptThreshold := ⟨9000, ninety_fits⟩
  maxRounds := 5
  version := 1
  ordered := by decide
  rounds := by decide
  positive := Nat.one_pos

def sampleRetry : ModelRetryPolicy where
  maxAttempts := 3
  leaseSeconds := 60

/-- A message of the buyer of the session 2, at a second. -/
def offering (key : RequestId) (price : Option Money) (second : Nat) : Event :=
  .sendMessage 2 "buyer"
    { requestId := key, content := "hello"
      offer := price.map fun price => { price, shippingPaidBy := .buyer } }
    false (seconds second)

/-- The product 1 is put on sale, and a buyer opens the session 2. -/
def opening : List Event := [.createForSeller sampleProduct samplePolicy, .createSession 1 "buyer"]

def sampleUsage : ModelUsage where
  provider := "provider"
  modelName := "model"

end Negotiation.Legacy
