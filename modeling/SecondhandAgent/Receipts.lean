/-
This file proves that a command takes effect once. Receipts, notices, messages,
contexts and displays are never taken back, a receipt of a command is there
only together with the reply that carries its result, and whoever comes back
to an input with a receipt, in a repeated command or in an abort, is answered
from it.
-/

import SecondhandAgent.Deal
import SecondhandAgent.Schedule
import SecondhandAgent.Steps

namespace Negotiation

open Store

/-- The tables of what was done and shown. -/
structure Records where
  receipts : Table BusinessActionReceipt.id
  deliveries : Table NotificationDelivery.id
  messages : Table Message.origin
  contexts : Table PublicInteractionContext.id
  acks : Table DisplayAck.id

/-- The records of a database. -/
def Db.records (db : Db) : Records where
  receipts := db.receipts
  deliveries := db.deliveries
  messages := db.messages
  contexts := db.contexts
  acks := db.acks

/-! ### What is never taken back -/

/-- Nothing that was recorded is lost or rewritten. -/
structure Grows (before after : Records) : Prop where
  receipts : ∀ receipt ∈ before.receipts, receipt ∈ after.receipts
  notices : ∀ item ∈ before.deliveries, ∃ new ∈ after.deliveries, new.issued = item.issued
  messages : ∀ message ∈ before.messages, message ∈ after.messages
  contexts : ∀ context ∈ before.contexts, context ∈ after.contexts
  acks : ∀ ack ∈ before.acks, ack ∈ after.acks

theorem Grows.refl (records : Records) : Grows records records :=
  ⟨fun _ => id, fun item member => ⟨item, member, rfl⟩, fun _ => id, fun _ => id, fun _ => id⟩

theorem Grows.trans {before middle after : Records} (first : Grows before middle)
    (second : Grows middle after) : Grows before after where
  receipts receipt member := second.receipts receipt (first.receipts receipt member)
  notices item member := by
    obtain ⟨between, found, same⟩ := first.notices item member
    obtain ⟨new, last, later⟩ := second.notices between found
    exact ⟨new, last, later.trans same⟩
  messages message member := second.messages message (first.messages message member)
  contexts context member := second.contexts context (first.contexts context member)
  acks ack member := second.acks ack (first.acks ack member)

theorem SameNotices.grow {before after : Table NotificationDelivery.id}
    (same : SameNotices before after) :
    ∀ item ∈ before, ∃ new ∈ after, new.issued = item.issued := by
  intro item member
  have issued := same item.id
  rw [Table.get_of_mem member, Option.map_some] at issued
  obtain ⟨new, found, equal⟩ := Option.map_eq_some_iff.mp issued
  exact ⟨new, Table.mem_of_get found, equal⟩

theorem SameNotices.old {before after : Table NotificationDelivery.id}
    (same : SameNotices before after) :
    ∀ item ∈ after, ∃ old ∈ before, old.issued = item.issued := by
  intro item member
  have issued := same item.id
  rw [Table.get_of_mem member, Option.map_some] at issued
  obtain ⟨old, found, equal⟩ := Option.map_eq_some_iff.mp issued.symm
  exact ⟨old, Table.mem_of_get found, equal⟩

/-! ### The form of what is recorded -/

/-- What the key of a receipt says of it. -/
def BusinessActionReceipt.Formed (receipt : BusinessActionReceipt) : Prop :=
  match receipt.id with
  | .turnAction run => receipt.inputId = some run
  | .approvalApply approvalId _ =>
    receipt.inputId = none ∧ ∃ result, receipt.result = .business result ∧
      result.approvalId = some approvalId ∧ result.effectRevision ≠ none
  | _ => receipt.inputId = none

/-- What the key of a delivery says of it. -/
def NotificationDelivery.Formed (item : NotificationDelivery) : Prop :=
  match item.id with
  | .turnReply run => item.inputId = some run ∧ item.approvalId = none
  | .approvalResult approvalId revision =>
    item.inputId = none ∧ item.approvalId = some approvalId ∧
      item.result.effectRevision = some revision
  | _ => item.inputId = none ∧ item.approvalId = none

/-- Records in good form: every row is what its key says, the receipt of a command comes
with a reply of the same result, and what is published has its message. -/
structure Formed (records : Records) : Prop where
  receipts : ∀ receipt ∈ records.receipts, receipt.Formed
  deliveries : ∀ item ∈ records.deliveries, item.Formed
  replies : ∀ runId receipt, records.receipts.get (.turnAction runId) = some receipt →
    ∃ reply ∈ records.deliveries, reply.id = .turnReply runId ∧
      receipt.result = .business reply.result
  published : ∀ item ∈ records.deliveries, item.status = .published →
    ∃ message ∈ records.messages, message.origin = .source item.id ∧ message.publicSeq ≠ none

theorem BusinessActionReceipt.Lawful.formed {receipt : BusinessActionReceipt}
    (lawful : receipt.Lawful) : receipt.Formed := by
  obtain ⟨unbound, kind⟩ := lawful
  unfold BusinessActionReceipt.Formed
  split <;> simp_all

theorem NotificationDelivery.Lawful.formed {item : NotificationDelivery}
    (lawful : item.Lawful) : item.Formed := by
  obtain ⟨unbound, _, _, kind⟩ := lawful
  unfold NotificationDelivery.Formed
  cases key : item.id <;> rw [key] at kind <;> simp_all

theorem NotificationDelivery.Formed.congr {item other : NotificationDelivery}
    (same : other.issued = item.issued) (formed : other.Formed) : item.Formed := by
  have id : other.issued.id = item.issued.id := congrArg NotificationDelivery.id same
  have input : other.issued.inputId = item.issued.inputId :=
    congrArg NotificationDelivery.inputId same
  have approval : other.issued.approvalId = item.issued.approvalId :=
    congrArg NotificationDelivery.approvalId same
  have result : other.issued.result = item.issued.result :=
    congrArg NotificationDelivery.result same
  have key : item.id = other.id := id.symm
  unfold NotificationDelivery.Formed at formed ⊢
  rw [key, show item.inputId = other.inputId from input.symm,
    show item.approvalId = other.approvalId from approval.symm,
    show item.result = other.result from result.symm]
  exact formed

/-! ### Business transactions -/

namespace BusinessWrites

variable {before after : Db}

theorem grows (writes : BusinessWrites before after) : Grows before.records after.records := by
  induction writes with
  | refl db => exact .refl _
  | trans _ _ first second => exact first.trans second
  | deal writes =>
    rw [show _ = _ from writes]
    exact .refl _
  | basis db | event db => exact .refl _
  | receipt _ inserted =>
    exact ⟨fun receipt member => (Table.mem_insert inserted receipt).mpr (.inr member),
      fun item member => ⟨item, member, rfl⟩, fun _ => id, fun _ => id, fun _ => id⟩
  | notice db =>
    exact ⟨fun _ => id, fun item member => ⟨item, Table.mem_insertIgnore_of_mem member, rfl⟩,
      fun _ => id, fun _ => id, fun _ => id⟩

/-- A business transaction writes no receipt of a command. -/
theorem action_receipt (writes : BusinessWrites before after) (runId : Nat) :
    after.receipts.get (.turnAction runId) = before.receipts.get (.turnAction runId) := by
  induction writes with
  | refl | basis | event | notice => rfl
  | trans _ _ first second => exact second.trans first
  | deal writes => rw [show _ = _ from writes]
  | @receipt db row receipts fault lawful inserted =>
    rw [Table.get_insert inserted, if_neg]
    intro same
    obtain ⟨_, kind⟩ := lawful
    rw [← same] at kind
    exact kind

/-- A business transaction writes no reply. -/
theorem reply (writes : BusinessWrites before after) (runId : Nat) :
    after.deliveries.get (.turnReply runId) = before.deliveries.get (.turnReply runId) := by
  induction writes with
  | refl | basis | event | receipt => rfl
  | trans _ _ first second => exact second.trans first
  | deal writes => rw [show _ = _ from writes]
  | @notice db row lawful =>
    show (db.deliveries.insertIgnore row).get _ = _
    rw [Table.get_insertIgnore, if_neg]
    rintro ⟨same, _⟩
    obtain ⟨_, _, _, kind⟩ := lawful
    rw [← same] at kind
    exact kind

theorem receipts_formed (writes : BusinessWrites before after)
    (formed : ∀ receipt ∈ before.receipts, receipt.Formed) :
    ∀ receipt ∈ after.receipts, receipt.Formed := by
  induction writes with
  | refl | basis | event | notice => exact formed
  | trans _ _ first second => exact second (first formed)
  | deal writes =>
    rw [show _ = _ from writes]
    exact formed
  | receipt lawful inserted =>
    intro receipt member
    rcases (Table.mem_insert inserted receipt).mp member with rfl | old
    · exact lawful.formed
    · exact formed receipt old

theorem deliveries_formed (writes : BusinessWrites before after)
    (formed : ∀ item ∈ before.deliveries, item.Formed) :
    ∀ item ∈ after.deliveries, item.Formed := by
  induction writes with
  | refl | basis | event | receipt => exact formed
  | trans _ _ first second => exact second (first formed)
  | deal writes =>
    rw [show _ = _ from writes]
    exact formed
  | notice db lawful =>
    intro item member
    rcases Table.mem_insertIgnore member with rfl | old
    · exact lawful.formed
    · exact formed item old

/-- A notice of a business transaction is pending. -/
theorem published (writes : BusinessWrites before after) :
    ∀ item ∈ after.deliveries, item.status = .published → item ∈ before.deliveries := by
  induction writes with
  | refl | basis | event | receipt => exact fun _ member _ => member
  | trans _ _ first second =>
    exact fun item member shown => first item (second item member shown) shown
  | deal writes =>
    rw [show _ = _ from writes]
    exact fun _ member _ => member
  | notice db lawful =>
    intro item member shown
    rcases Table.mem_insertIgnore member with rfl | old
    · exact absurd (lawful.2.1.symm.trans shown) DeliveryStatus.noConfusion
    · exact old

end BusinessWrites

theorem Formed.business {before after : Db} (formed : Formed before.records)
    (writes : BusinessWrites before after) : Formed after.records where
  receipts := writes.receipts_formed formed.receipts
  deliveries := writes.deliveries_formed formed.deliveries
  replies runId receipt found := by
    obtain ⟨reply, member, key, same⟩ :=
      formed.replies runId receipt ((writes.action_receipt runId).symm.trans found)
    have got : after.deliveries.get (.turnReply runId) = some reply :=
      (writes.reply runId).trans (key ▸ Table.get_of_mem member)
    exact ⟨reply, Table.mem_of_get got, key, same⟩
  published item member shown := by
    obtain ⟨message, posted, rest⟩ := formed.published item (writes.published item member shown) shown
    exact ⟨message, writes.grows.messages message posted, rest⟩

/-! ### Commands and answers -/

section

variable [Platform] {before after done : Db}

theorem Effect.grows {transaction : Transaction} (effect : Effect before transaction after) :
    Grows before.records after.records := by
  cases effect with
  | business _ writes => exact writes.grows
  | repeated same =>
    rw [same]
    exact .refl _
  | command _ writes =>
    rw [writes.frame]
    exact writes.business.grows.trans ⟨fun _ => Table.mem_insertIgnore_of_mem,
      fun item member => ⟨item, Table.mem_insertIgnore_of_mem member, rfl⟩, fun _ => id,
      fun _ => id, fun _ => id⟩
  | answered _ writes =>
    rw [writes.frame, show _ = _ from writes.drafts]
    exact ⟨fun _ => id, fun item member => ⟨item, Table.mem_insertIgnore_of_mem member, rfl⟩,
      fun _ => id, fun _ => id, fun _ => id⟩
  | planned _ _ _ writes frame =>
    rw [frame, show _ = _ from writes]
    exact .refl _
  | published _ writes =>
    have receipts : after.receipts = before.receipts := by rw [writes.frame]
    have acks : after.acks = before.acks := by rw [writes.frame]
    refine ⟨fun receipt member => ?_, writes.notices.grow, writes.messages, writes.contexts,
      fun ack member => ?_⟩
    · show receipt ∈ after.receipts
      rw [receipts]
      exact member
    · show ack ∈ after.acks
      rw [acks]
      exact member
  | displayed _ _ _ _ _ _ frame =>
    rw [frame]
    exact ⟨fun _ => id, fun item member => ⟨item, member, rfl⟩, fun _ => id, fun _ => id,
      fun _ => Table.mem_insertIgnore_of_mem⟩
  | edited _ writes | executed writes _ =>
    rw [show _ = _ from writes]
    exact .refl _
  | acknowledged _ frame =>
    rw [frame, acknowledgeEvents_writes]
    exact .refl _
  | queued effect =>
    cases effect with
    | idle frame notices =>
      rw [frame]
      exact ⟨fun _ => id, notices.grow, fun _ => id, fun _ => id, fun _ => id⟩
    | enqueued _ _ _ _ appended =>
      unfold newInput at appended
      simp only [bind_eq_ok, pure_eq_ok] at appended
      obtain ⟨messages, posted, tasks, _, inputs, _, rfl⟩ := appended
      exact ⟨fun _ => id, fun item member => ⟨item, member, rfl⟩,
        fun message member => (Table.mem_insert posted message).mpr (.inr member), fun _ => id,
        fun _ => id⟩
    | turned _ _ _ _ frame =>
      rw [frame]
      exact .refl _
  | archived frame =>
    rw [frame]
    exact .refl _

omit [Platform] in
/-- The receipts and the replies of a database after a transaction that touches neither. -/
theorem Formed.congr {before after : Records} (formed : Formed before)
    (receipts : after.receipts = before.receipts)
    (notices : SameNotices before.deliveries after.deliveries)
    (published : ∀ item ∈ after.deliveries, item.status = .published →
      ∃ message ∈ after.messages, message.origin = .source item.id ∧ message.publicSeq ≠ none) :
    Formed after where
  receipts := receipts ▸ formed.receipts
  deliveries item member := by
    obtain ⟨old, found, same⟩ := notices.old item member
    exact (formed.deliveries old found).congr same
  replies runId receipt found := by
    obtain ⟨reply, member, key, same⟩ := formed.replies runId receipt (receipts ▸ found)
    obtain ⟨new, last, issued⟩ := notices.grow reply member
    have newKey : new.issued.id = reply.issued.id := congrArg NotificationDelivery.id issued
    have newResult : new.issued.result = reply.issued.result :=
      congrArg NotificationDelivery.result issued
    have result : new.result = reply.result := newResult
    exact ⟨new, last, newKey.trans key, same.trans (congrArg _ result.symm)⟩
  published := published

omit [Platform] in
/-- A reply that is recorded for an input without one. -/
theorem Formed.replied {records : Records} {runId : Nat} {result : Result} {now : Time}
    (formed : Formed records)
    (unanswered : records.deliveries.get (.turnReply runId) = none) :
    Formed
      { records with
        deliveries := records.deliveries.insertIgnore (replyDelivery runId result now) } where
  receipts := formed.receipts
  deliveries item member := by
    rcases Table.mem_insertIgnore member with rfl | old
    · exact ⟨rfl, rfl⟩
    · exact formed.deliveries item old
  replies other receipt found := by
    obtain ⟨reply, member, rest⟩ := formed.replies other receipt found
    exact ⟨reply, Table.mem_insertIgnore_of_mem member, rest⟩
  published item member shown := by
    rcases Table.mem_insertIgnore member with rfl | old
    · cases shown
    · exact formed.published item old shown

/-- A receipt of a command that is recorded with its reply. -/
theorem Formed.receipted {records : Records} {run : NegotiationInput} {result : Result}
    {expectedVersion afterVersion : Nat} {now : Time} {reply : NotificationDelivery}
    (formed : Formed records) (member : reply ∈ records.deliveries)
    (key : reply.id = .turnReply run.id) (same : reply.result = result) :
    Formed
      { records with
        receipts := records.receipts.insertIgnore
          (commandReceipt run expectedVersion afterVersion result now) } where
  receipts receipt found := by
    rcases Table.mem_insertIgnore found with rfl | old
    · rfl
    · exact formed.receipts receipt old
  deliveries := formed.deliveries
  replies other receipt found := by
    have keyed : receipt.id = .turnAction other := Table.key_of_get found
    rcases Table.mem_insertIgnore (Table.mem_of_get found) with rfl | old
    · obtain rfl : run.id = other := ReceiptId.turnAction.inj keyed
      exact ⟨reply, member, key, congrArg _ same.symm⟩
    · exact formed.replies other receipt (Table.get_eq_some.mpr ⟨old, keyed⟩)
  published := formed.published

theorem Effect.formed {transaction : Transaction} (formed : Formed before.records)
    (effect : Effect before transaction after) : Formed after.records := by
  have grows := effect.grows
  have quiet : SameNotices before.deliveries after.deliveries →
      after.receipts = before.receipts →
      (∀ item ∈ after.deliveries, item.status = .published → item ∈ before.deliveries) →
      Formed after.records := by
    intro notices receipts published
    refine formed.congr receipts notices fun item member shown => ?_
    obtain ⟨message, posted, rest⟩ := formed.published item (published item member shown) shown
    exact ⟨message, grows.messages message posted, rest⟩
  have untouched : after.records.deliveries = before.records.deliveries →
      after.records.receipts = before.records.receipts → Formed after.records := by
    intro deliveries receipts
    refine quiet ?_ receipts fun item member _ => ?_
    · rw [show after.deliveries = _ from deliveries]
      exact .refl _
    · rw [show after.deliveries = _ from deliveries] at member
      exact member
  cases effect with
  | business _ writes => exact formed.business writes
  | repeated same =>
    rw [same]
    exact formed
  | command _ writes =>
    rw [writes.frame]
    exact ((formed.business writes.business).replied writes.unanswered).receipted
      (Table.mem_insertIgnore_self writes.unanswered) rfl rfl
  | answered _ writes =>
    rw [writes.frame, show _ = _ from writes.drafts]
    exact formed.replied writes.unanswered
  | planned _ _ _ writes frame =>
    refine untouched ?_ ?_ <;> rw [frame, show _ = _ from writes] <;> rfl
  | published _ writes =>
    have receipts : after.receipts = before.receipts := by rw [writes.frame]
    refine formed.congr receipts writes.notices fun item member shown => ?_
    rcases writes.published item member shown with old | posted
    · obtain ⟨message, posted, rest⟩ := formed.published item old shown
      exact ⟨message, grows.messages message posted, rest⟩
    · exact posted
  | displayed _ _ _ _ _ _ frame =>
    refine untouched ?_ ?_ <;> rw [frame] <;> rfl
  | edited _ writes | executed writes _ =>
    refine untouched ?_ ?_ <;> rw [show _ = _ from writes] <;> rfl
  | acknowledged _ frame =>
    refine untouched ?_ ?_ <;> rw [frame, acknowledgeEvents_writes] <;> rfl
  | queued effect =>
    cases effect with
    | idle frame notices published =>
      exact quiet notices (by rw [frame]) published
    | enqueued _ _ _ _ appended =>
      unfold newInput at appended
      simp only [bind_eq_ok, pure_eq_ok] at appended
      obtain ⟨messages, posted, tasks, _, inputs, _, rfl⟩ := appended
      exact untouched rfl rfl
    | turned _ _ _ _ frame =>
      refine untouched ?_ ?_ <;> rw [frame] <;> rfl
  | archived frame =>
    refine untouched ?_ ?_ <;> rw [frame] <;> rfl

/-! ### Every step -/

theorem World.Step.grows {before after : World} {event : Event}
    (step : World.Step before event after) : Grows before.db.records after.db.records := by
  rcases step.performs with same | ⟨transaction, performs⟩
  · rw [same]
    exact .refl _
  · exact (perform_effect performs.done).grows

theorem run_grows {first last : World} {history : List (Transition World Event)}
    (run : Run World.Step first history last) : Grows first.db.records last.db.records := by
  induction run with
  | start => exact .refl _
  | next _ taken inductionHypothesis => exact inductionHypothesis.trans taken.grows

omit [Platform] in
theorem initial_formed {world : World} (initial : World.Initial world) :
    Formed world.db.records := by
  obtain ⟨⟨_, _, _, _, _, _, _, db⟩, _⟩ := initial
  rw [db]
  exact
    { receipts := fun _ member => absurd member (Table.not_mem_empty _)
      deliveries := fun _ member => absurd member (Table.not_mem_empty _)
      replies := fun _ _ found => nomatch found
      published := fun _ member => absurd member (Table.not_mem_empty _) }

/-- The records of every reachable state are in good form. -/
theorem reachable_formed {world : World} (reached : Reachable World.Step World.Initial world) :
    Formed world.db.records :=
  database_invariant (fun db => Formed db.records) (fun _ => initial_formed)
    (fun _ _ _ formed done => (perform_effect done).formed formed) reached

omit [Platform] in
/-- A receipt that names an input is the receipt of its command. -/
theorem Formed.receipt_id {records : Records} (formed : Formed records)
    {receipt : BusinessActionReceipt} {runId : Nat} (member : receipt ∈ records.receipts)
    (input : receipt.inputId = some runId) : receipt.id = .turnAction runId := by
  have shape := formed.receipts receipt member
  unfold BusinessActionReceipt.Formed at shape
  split at shape
  · next other key =>
    rw [key, ← Option.some.inj (shape.symm.trans input)]
  · exact nomatch shape.1.symm.trans input
  · exact nomatch shape.symm.trans input

omit [Platform] in
/-- A delivery that names an input is its reply. -/
theorem Formed.delivery_id {records : Records} (formed : Formed records)
    {item : NotificationDelivery} {runId : Nat} (member : item ∈ records.deliveries)
    (input : item.inputId = some runId) : item.id = .turnReply runId := by
  have shape := formed.deliveries item member
  unfold NotificationDelivery.Formed at shape
  split at shape
  · next other key =>
    rw [key, ← Option.some.inj (shape.1.symm.trans input)]
  · exact nomatch shape.1.symm.trans input
  · exact nomatch shape.1.symm.trans input

/-! ### A command takes effect once -/

/-- Whoever owns the input is answered from its receipt and changes nothing. -/
def AnswersFrom (db : Db) (runId : Nat) (receipt : BusinessActionReceipt) : Prop :=
  ∀ owner now run task, lockOwner db runId owner now = .ok (run, task) →
    (∀ reason assessed noticed, ∃ result,
      abortOrQuery db runId owner reason now assessed noticed = .ok (db, result) ∧
        receipt.result = .business result) ∧
    ∀ expectedVersion fault,
      execute db runId owner expectedVersion now fault =
        if receipt.commandHash = commandHash run expectedVersion then .ok (db, receipt.result)
        else .error (.conflict "动作幂等键载荷冲突")

theorem Formed.answersFrom {db : Db} {runId : Nat} {receipt : BusinessActionReceipt}
    (formed : Formed db.records) (found : db.receipts.get (.turnAction runId) = some receipt) :
    AnswersFrom db runId receipt := by
  intro owner now run task owned
  obtain ⟨reply, member, key, same⟩ := formed.replies runId receipt found
  have answered : db.reply runId = some reply := Table.get_eq_some.mpr ⟨member, key⟩
  refine ⟨fun reason assessed noticed => ⟨reply.result, ?_, same⟩, fun expectedVersion fault => ?_⟩
  · unfold abortOrQuery
    rw [owned]
    dsimp only [bind, Except.bind]
    rw [answered]
    rfl
  · unfold execute
    rw [owned]
    dsimp only [bind, Except.bind]
    rw [found]
    by_cases same : receipt.commandHash = commandHash run expectedVersion
    · simp [same, require]
    · simp [same, require]

omit [Platform] in
/-- The event is an execution of the input's command. -/
def Event.Executes (runId : Nat) : Event → Prop
  | .call (.execute other _ _ _ _) => other = runId
  | _ => False

omit [Platform] in
/-- The event answers the input without an action. -/
def Event.Aborts (runId : Nat) : Event → Prop
  | .call (.abortOrQuery other _ _ _ _ _) => other = runId
  | _ => False

omit [Platform] in
instance (runId : Nat) (event : Event) : Decidable (event.Executes runId) := by
  unfold Event.Executes
  split <;> infer_instance

omit [Platform] in
/-- The transition carries the command of the input out: before it the input had neither a
receipt nor a reply, and after it the input has both. -/
def Commits (runId : Nat) (transition : Transition World Event) : Prop :=
  transition.event.Executes runId ∧
    (transition.before.db.receipts.get (.turnAction runId) = none ∧
      transition.before.db.reply runId = none) ∧
    transition.after.db.receipts.get (.turnAction runId) ≠ none ∧
    transition.after.db.reply runId ≠ none

instance (runId : Nat) (transition : Transition World Event) :
    Decidable (Commits runId transition) := inferInstanceAs (Decidable (_ ∧ (_ ∧ _) ∧ _ ∧ _))

/-- The transition records an answer without an action and leaves the negotiation alone. -/
def Notes (runId : Nat) (transition : Transition World Event) : Prop :=
  transition.before.db.reply runId = none ∧ transition.after.db.reply runId ≠ none ∧
    transition.after.db.receipts = transition.before.db.receipts ∧
    transition.after.db.session = transition.before.db.session ∧
    transition.after.db.deal = transition.before.db.deal

/-- An execution of the input's command changes nothing or carries the command out. -/
theorem World.Step.executes {before after : World} {event : Event} {runId : Nat}
    (step : World.Step before event after) (executes : event.Executes runId) :
    after.db = before.db ∨ Commits runId ⟨before, event, after⟩ := by
  cases event with
  | call transaction =>
    cases transaction with
    | execute other owner expectedVersion now fault =>
      have same : other = runId := executes
      subst same
      rcases step.called with idle | done
      · exact .inl idle
      · obtain ⟨result, done, equal⟩ := (map_eq_ok _ _ _).mp done
        rcases execute_writes done with idle | ⟨run, finished, outcome, rfl, writes⟩
        · exact .inl (equal.symm.trans idle)
        · rw [equal] at writes
          have fresh := writes.fresh
          have unanswered := writes.unanswered
          refine .inr ⟨rfl, ⟨(writes.business.action_receipt _).symm.trans fresh,
            (writes.business.reply _).symm.trans unanswered⟩, ?_, ?_⟩
          · show after.db.receipts.get _ ≠ none
            rw [writes.frame]
            refine Option.ne_none_iff_exists'.mpr
              ⟨_, Table.get_eq_some.mpr ⟨Table.mem_insertIgnore_self fresh, rfl⟩⟩
          · show after.db.deliveries.get _ ≠ none
            rw [writes.frame]
            refine Option.ne_none_iff_exists'.mpr
              ⟨_, Table.get_eq_some.mpr ⟨Table.mem_insertIgnore_self unanswered, rfl⟩⟩
    | _ => exact executes.elim
  | _ => exact executes.elim

/-- An answer without an action is recorded once and touches no offer and no receipt. -/
theorem World.Step.aborts {before after : World} {event : Event} {runId : Nat}
    (step : World.Step before event after) (aborts : event.Aborts runId) :
    after.db = before.db ∨ Notes runId ⟨before, event, after⟩ := by
  cases event with
  | call transaction =>
    cases transaction with
    | abortOrQuery other owner reason checked assessed noticed =>
      have same : other = runId := aborts
      subst same
      rcases step.called with idle | done
      · exact .inl idle
      · obtain ⟨result, done, equal⟩ := (map_eq_ok _ _ _).mp done
        rcases abortOrQuery_writes done with idle | ⟨noted, writes⟩
        · exact .inl (equal.symm.trans idle)
        · rw [equal] at writes
          have unanswered : noted.deliveries.get (.turnReply other) = none := by
            rw [writes.drafts]
            exact writes.unanswered
          have frame := writes.frame
          rw [show noted = _ from writes.drafts] at frame
          refine .inr ⟨writes.unanswered, ?_, (congrArg Db.receipts frame).trans rfl,
            (congrArg Db.session frame).trans rfl, (congrArg Db.deal frame).trans rfl⟩
          show after.db.deliveries.get _ ≠ none
          rw [writes.frame]
          exact Option.ne_none_iff_exists'.mpr
            ⟨_, Table.get_eq_some.mpr ⟨Table.mem_insertIgnore_self unanswered, rfl⟩⟩
    | _ => exact aborts.elim
  | _ => exact aborts.elim

/-- A command is carried out at most once. Whatever happens to the session, an input has at
most one receipt and at most one reply, a receipt comes with a reply of the same result, and
an input with a receipt is answered from it for ever after. Every execution of the input and
every answer without an action, a failed one included, changes nothing, or is the one that
commits, or records the one answer that touches no offer. -/
theorem command_at_most_once {first last : World} {history : List (Transition World Event)}
    (reached : Reachable World.Step World.Initial first)
    (run : Run World.Step first history last) (runId : Nat) :
    (∀ one ∈ last.db.receipts, ∀ two ∈ last.db.receipts, one.inputId = some runId →
      two.inputId = some runId → one = two) ∧
    (∀ one ∈ last.db.deliveries, ∀ two ∈ last.db.deliveries, one.inputId = some runId →
      two.inputId = some runId → one = two) ∧
    (∀ receipt ∈ last.db.receipts, receipt.inputId = some runId →
      ∃ reply ∈ last.db.deliveries, reply.inputId = some runId ∧
        receipt.result = .business reply.result) ∧
    (∀ receipt ∈ first.db.receipts, receipt.inputId = some runId →
      receipt ∈ last.db.receipts ∧ AnswersFrom last.db runId receipt) ∧
    (∀ transition ∈ history, transition.event.Executes runId →
      transition.after.db = transition.before.db ∨ Commits runId transition) ∧
    (∀ transition ∈ history, transition.event.Aborts runId →
      transition.after.db = transition.before.db ∨ Notes runId transition) ∧
    history.countP (fun transition => Commits runId transition) ≤ 1 := by
  have formed := reachable_formed (reached.extend run)
  refine ⟨?_, ?_, ?_, ?_, ?_, ?_, ?_⟩
  · intro one member two other input same
    refine Table.eq_of_key member other ?_
    rw [formed.receipt_id member input, formed.receipt_id other same]
  · intro one member two other input same
    refine Table.eq_of_key member other ?_
    rw [formed.delivery_id member input, formed.delivery_id other same]
  · intro receipt member input
    have found : last.db.receipts.get (.turnAction runId) = some receipt :=
      Table.get_eq_some.mpr ⟨member, formed.receipt_id member input⟩
    obtain ⟨reply, answered, key, same⟩ := formed.replies runId receipt found
    have shape := formed.deliveries reply answered
    unfold NotificationDelivery.Formed at shape
    rw [key] at shape
    exact ⟨reply, answered, shape.1, same⟩
  · intro receipt member input
    have kept : receipt ∈ last.db.receipts := (run_grows run).receipts receipt member
    exact ⟨kept, formed.answersFrom
      (Table.get_eq_some.mpr ⟨kept, formed.receipt_id kept input⟩)⟩
  · intro transition member executes
    exact (run.taken member).executes executes
  · intro transition member aborts
    exact (run.taken member).aborts aborts
  · refine (run.at_most_once
      (fun world => world.db.receipts.get (.turnAction runId) ≠ none) ?_ ?_).1
    · intro before event after step marked
      obtain ⟨receipt, found⟩ := Option.ne_none_iff_exists'.mp marked
      obtain ⟨member, key⟩ := Table.get_eq_some.mp found
      exact Option.ne_none_iff_exists'.mpr
        ⟨receipt, Table.get_eq_some.mpr ⟨step.grows.receipts receipt member, key⟩⟩
    · rintro before event after _ ⟨_, ⟨fresh, _⟩, committed, _⟩
      exact ⟨not_not_intro fresh, committed⟩

end

attribute [local instance] samplePlatform in
/-- The submission of an offer is carried out exactly once. -/
theorem command_at_most_once_submission :
    (sampleWorld.history [] submission).countP (fun transition => Commits 1 transition) = 1 := by
  have run : Run World.Step sampleWorld (sampleWorld.history [] submission)
      (sampleWorld.after submission) := World.run_history (.start _) (by decide +kernel)
  have atMost := (command_at_most_once (Reachable.start sampleWorld_initial) run 1).2.2.2.2.2.2
  have some : 0 < (sampleWorld.history [] submission).countP
      (fun transition => Commits 1 transition) := by decide +kernel
  omega

end Negotiation
