/-
This file models the protocol of the messages that a model is shown: each call
of a tool has an id of its own, and its result follows before anything else. The
validator reads a list of messages once; the groups of a list of records are a
message with the results of its calls.
-/

import Mathlib.Data.List.Flatten
import SecondhandAgent.Agent.Records
import SecondhandAgent.Exchanges
import SecondhandAgent.Outcome

namespace Negotiation.Agent

open Store

/-! ### Validation -/

def Message.toolCalls : Message → List ToolCall
  | ai _ toolCalls => toolCalls
  | system _ | human _ | tool _ _ _ => []

/-- The ids of the calls of a message. -/
def Message.callIds (message : Message) : List String := message.toolCalls.map ToolCall.id

def Message.action : Message → Action String
  | tool _ toolCallId _ => .closes toolCallId
  | ai _ toolCalls => .opens (toolCalls.map ToolCall.id)
  | system _ | human _ => .opens []

/-- Each call of a message needs an id that no call had before. -/
def register (seen : List String) : List ToolCall → Except String (List String)
  | [] => .ok seen
  | call :: rest => do
    require (call.id ≠ "" ∧ call.id ∉ seen) "Tool call IDs must be present and unique"
    register (call.id :: seen) rest

/-- The calls that are pending after the messages; `pending` and `seen` are those before. -/
def validateFrom (pending seen : List String) : List Message → Except String (List String)
  | [] => .ok pending
  | .tool _ toolCallId _ :: rest => do
    require (toolCallId ∈ pending) "Orphan or duplicate tool result"
    validateFrom (pending.erase toolCallId) seen rest
  | .ai _ toolCalls :: rest => do
    require (pending = []) "Tool calls must receive all results before another message"
    let seen ← register seen toolCalls
    validateFrom (toolCalls.map ToolCall.id) seen rest
  | .system _ :: rest | .human _ :: rest => do
    require (pending = []) "Tool calls must receive all results before another message"
    validateFrom pending seen rest

/-- `MessageProtocolValidator.validate` -/
def validate (messages : List Message) (allowPending : Bool := false) : Except String Unit := do
  let pending ← validateFrom [] [] messages
  require (pending = [] ∨ allowPending) "Incomplete tool exchange"

/-! ### Groups -/

/-- The records that a model is shown. -/
def usable (records : List StreamRecord) : List StreamRecord :=
  records.filter fun record => (recordMessage record).isSome

/-- What a record does; records without a message are passed over. -/
def StreamRecord.action (record : StreamRecord) : Action String :=
  ((recordMessage record).map Message.action).getD (.opens [])

/-- `MessageProtocolValidator.groups` -/
def groups (records : List StreamRecord) : List (List StreamRecord) :=
  groupsOf StreamRecord.action (usable records)

/-! ### What the validator accepts -/

theorem register_eq_ok (seen later : List String) (calls : List ToolCall) :
    register seen calls = .ok later ↔
      later = (calls.map ToolCall.id).reverse ++ seen ∧ (calls.map ToolCall.id).Nodup ∧
        ∀ id ∈ calls.map ToolCall.id, id ≠ "" ∧ id ∉ seen := by
  induction calls generalizing seen with
  | nil => simp [register, eq_comm]
  | cons call rest inductionHypothesis =>
    unfold register
    simp only [bind_eq_ok, require_eq_ok, inductionHypothesis]
    constructor
    · rintro ⟨_, ⟨named, fresh⟩, rfl, distinct, others⟩
      refine ⟨by simp, ?_, ?_⟩
      · refine List.nodup_cons.mpr ⟨fun again => ?_, distinct⟩
        exact (others call.id again).2 List.mem_cons_self
      · refine List.forall_mem_cons.mpr ⟨⟨named, fresh⟩, fun id member => ?_⟩
        exact ⟨(others id member).1, fun old => (others id member).2 (List.mem_cons_of_mem _ old)⟩
    · rintro ⟨rfl, distinct, all⟩
      rw [List.map_cons] at distinct all
      obtain ⟨once, distinct⟩ := List.nodup_cons.mp distinct
      obtain ⟨first, others⟩ := List.forall_mem_cons.mp all
      refine ⟨(), first, by simp, distinct, fun id member => ⟨(others id member).1, fun old => ?_⟩⟩
      rcases List.mem_cons.mp old with rfl | before
      · exact once member
      · exact (others id member).2 before

/-- The ids of the calls of some messages. -/
def callIds (messages : List Message) : List String := messages.flatMap Message.callIds

theorem validateFrom_eq_ok (pending seen : List String) (messages : List Message) :
    validateFrom pending seen messages = .ok [] ↔
      Answered Message.action pending messages ∧ (callIds messages).Nodup ∧
        ∀ id ∈ callIds messages, id ≠ "" ∧ id ∉ seen := by
  induction messages generalizing pending seen with
  | nil => simp [validateFrom, Answered, callIds]
  | cons message rest inductionHypothesis =>
    cases message with
    | tool content toolCallId name =>
      simp only [validateFrom, bind_eq_ok, require_eq_ok, inductionHypothesis, Answered,
        Message.action, callIds, List.flatMap_cons, Message.callIds, Message.toolCalls,
        List.map_nil, List.nil_append, and_assoc, exists_const]
    | system content | human content =>
      simp only [validateFrom, bind_eq_ok, require_eq_ok, inductionHypothesis, Answered,
        Message.action, callIds, List.flatMap_cons, Message.callIds, Message.toolCalls,
        List.map_nil, List.nil_append, List.nodup_nil, true_and, and_assoc, exists_const]
      exact and_congr_right fun empty => by rw [empty]
    | ai content toolCalls =>
      simp only [validateFrom, bind_eq_ok, require_eq_ok, register_eq_ok, inductionHypothesis,
        Answered, Message.action, callIds, List.flatMap_cons, Message.callIds, Message.toolCalls,
        List.nodup_append, List.mem_append]
      constructor
      · rintro ⟨_, empty, later, ⟨rfl, distinct, fresh⟩, answered, others, unseen⟩
        refine ⟨⟨empty, distinct, answered⟩, ⟨distinct, others, ?_⟩, ?_⟩
        · rintro id member _ again rfl
          exact (unseen id again).2 (List.mem_append_left _ (List.mem_reverse.mpr member))
        · rintro id (member | member)
          · exact fresh id member
          · exact ⟨(unseen id member).1, fun old =>
              (unseen id member).2 (List.mem_append_right _ old)⟩
      · rintro ⟨⟨empty, distinct, answered⟩, ⟨_, others, apart⟩, all⟩
        refine ⟨(), empty, _, ⟨rfl, distinct, fun id member => all id (.inl member)⟩, answered,
          others, fun id member => ⟨(all id (.inr member)).1, fun old => ?_⟩⟩
        rcases List.mem_append.mp old with first | before
        · exact apart id (List.mem_reverse.mp first) id member rfl
        · exact (all id (.inr member)).2 before

/-- Messages without calls do not change what the others are. -/
theorem validateFrom_plain (seen : List String) {front : List Message}
    (plain : ∀ message ∈ front, message.action = .opens []) (rest : List Message) :
    validateFrom [] seen (front ++ rest) = validateFrom [] seen rest := by
  induction front with
  | nil => rfl
  | cons message others inductionHypothesis =>
    rw [List.forall_mem_cons] at plain
    rw [List.cons_append, ← inductionHypothesis plain.2]
    cases message with
    | system content | human content => rfl
    | ai content toolCalls =>
      cases toolCalls with
      | nil => rfl
      | cons call calls => cases plain.1
    | tool content toolCallId name => cases plain.1

/-- A list of messages is accepted exactly if every call is followed by its results, no result
stands alone, and the ids of the calls are present and distinct. -/
theorem validate_eq_ok (messages : List Message) :
    validate messages = .ok () ↔
      Answered Message.action [] messages ∧ (callIds messages).Nodup ∧
        ∀ id ∈ callIds messages, id ≠ "" := by
  have unseen : (∀ id ∈ callIds messages, id ≠ "" ∧ id ∉ ([] : List String)) ↔
      ∀ id ∈ callIds messages, id ≠ "" := by simp
  unfold validate
  rw [bind_eq_ok, ← unseen, ← validateFrom_eq_ok]
  constructor
  · rintro ⟨pending, done, complete⟩
    rw [require_eq_ok] at complete
    rcases complete with empty | allowed
    · rwa [empty] at done
    · cases allowed
  · intro done
    exact ⟨[], done, (require_eq_ok _ _ _).mpr (.inl rfl)⟩

/-- What is left of accepted messages is accepted if it is answered. -/
theorem validate_of_sublist {messages part : List Message} (valid : validate messages = .ok ())
    (less : part.Sublist messages) (answered : Answered Message.action [] part) :
    validate part = .ok () := by
  obtain ⟨_, distinct, named⟩ := (validate_eq_ok messages).mp valid
  have fewer : (callIds part).Sublist (callIds messages) := less.flatMap _
  exact (validate_eq_ok part).mpr
    ⟨answered, distinct.sublist fewer, fun id member => named id (fewer.subset member)⟩

/-! ### Records and their messages -/

theorem usable_eq_self {records : List StreamRecord}
    (shown : ∀ record ∈ records, (recordMessage record).isSome) : usable records = records :=
  List.filter_eq_self.mpr shown

theorem usable_usable (records : List StreamRecord) : usable (usable records) = usable records :=
  usable_eq_self fun _ member => (List.mem_filter.mp member).2

/-- The messages of records are answered exactly if the records are. -/
theorem answered_filterMap (pending : List String) {records : List StreamRecord}
    (shown : ∀ record ∈ records, (recordMessage record).isSome) :
    Answered Message.action pending (records.filterMap recordMessage) ↔
      Answered StreamRecord.action pending records := by
  induction records generalizing pending with
  | nil => rfl
  | cons record rest inductionHypothesis =>
    rw [List.forall_mem_cons] at shown
    obtain ⟨message, its⟩ := Option.isSome_iff_exists.mp shown.1
    have does : record.action = message.action := by
      rw [StreamRecord.action, its]
      rfl
    rw [List.filterMap_cons_some its]
    unfold Answered
    rw [does]
    split <;> simp only [inductionHypothesis _ shown.2]

end Negotiation.Agent
