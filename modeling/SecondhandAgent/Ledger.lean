/-
This file models the ledger of model calls: a call is reserved against the
budget of the run before the model is asked, its result is accepted only from
the owner of the run, and an accepted result is read again by its reference.
-/

import Mathlib.Algebra.Ring.Int.Defs
import SecondhandAgent.Queue

namespace Negotiation

open Store

/-- The tokens a call is charged with. -/
def ModelCallLedger.tokens (call : ModelCallLedger) : Int :=
  call.actualTokens.getD call.reservedTokens

/-- The cost a call is charged with, in units of `10^-8`. -/
def ModelCallLedger.cost (call : ModelCallLedger) : Option Int :=
  call.actualCost.or call.reservedCost

/-- The calls of a run. -/
def callsOf (db : Db) (runId : Nat) : List ModelCallLedger :=
  db.ledger.rows.filter fun call => call.inputId = runId

variable [Platform]

/-- The calls and the new reservation stay within the cost cap. -/
def WithinCost (calls : List ModelCallLedger) (reservedCost : Option Int)
    (cap : Option String) : Prop :=
  match cap with
  | none => True
  | some cap =>
    Found (decimal cap) fun limit =>
      Found reservedCost fun reserved =>
        (∀ call ∈ calls, call.cost ≠ none) ∧
          (((calls.filterMap (·.cost)).sum + reserved : Int) : Rat) / 100000000 ≤ limit

instance (calls : List ModelCallLedger) (reservedCost : Option Int) (cap : Option String) :
    Decidable (WithinCost calls reservedCost cap) :=
  match cap with
  | none => inferInstanceAs (Decidable True)
  | some cap => by
    change Decidable (Found (decimal cap) _)
    infer_instance

/-- The key of a step of a run. -/
def stepKey (run : NegotiationInput) (step : String) : Digest :=
  digest (.list
    [.number run.id, .text step, .digest run.inputHash, .digest run.configHash])

/-- What a call returns: where its artifact is kept and what it hashes to. -/
structure Reference where
  artifactId : Nat
  valueHash : Option Digest
deriving DecidableEq

/-- What a reservation answers: the artifact of an earlier call, or the attempt to make. -/
inductive Reservation where
  | replay (reference : Reference)
  | attempt (attemptId : Nat)

/-- Admit a call within the time and the budget that are left. -/
def admitCall (db : Db) (run : NegotiationInput) (owner : Owner) (key : Digest)
    (reservedTokens : Int) (reservedCost : Option Int) (timed : Time) :
    Except Failure (Db × Reservation) := do
  let _ ← modelTimeout db run timed
  let calls := callsOf db run.id
  require ((calls.length : Int) < run.config.maxCalls ∧
    (calls.map (·.tokens)).sum + reservedTokens ≤ run.config.maxTokens ∧
    WithinCost calls reservedCost run.config.maxCost) (.budgetExhausted "调用预算耗尽")
  let ledger ← db.ledger.insert
    { id := db.nextId
      inputId := run.id
      stepKey := key
      ownershipEpoch := owner.2
      status := .reserved
      reservedTokens
      reservedCost } .unique
  pure ({ db with ledger, nextId := db.nextId + 1 }, .attempt db.nextId)

/-- The first transaction of a model call. -/
def reserveCall (db : Db) (runId : Nat) (owner : Owner) (step : String) (reservedTokens : Int)
    (reservedCost : Option Int) (checked timed : Time) :
    Except Failure (Db × Reservation) := do
  require (0 < reservedTokens ∧ ∀ cost ∈ reservedCost, 0 ≤ cost) (.conflict "调用预算预留无效")
  let (run, task) ← lockOwner db runId owner checked
  require (task.lastManualAction ≠ some .terminate) (.budgetExhausted "人工终止仅允许无模型收尾")
  let key := stepKey run step
  match db.ledger.rows.find? fun call => call.acceptedKey = some key with
  | some old => do
    require (old.value.map digest = old.valueHash) (.conflict "模型产物内容哈希不一致")
    pure (db, .replay { artifactId := old.id, valueHash := old.valueHash })
  | none => admitCall db run owner key reservedTokens reservedCost timed

/-- The last transaction of a call the model answered, if the owner is still the owner. -/
def acceptCall (db : Db) (runId : Nat) (owner : Owner) (attemptId : Nat) (value : Json)
    (actualTokens actualCost : Option Int) (now : Time) : Except Failure Db := do
  let _ ← lockOwner db runId owner now
  let attempt ← expect (db.ledger.get attemptId) .missing
  require (∀ other ∈ db.ledger.rows, other.id ≠ attemptId →
    other.acceptedKey ≠ some attempt.stepKey) .unique
  pure
    { db with
      ledger := db.ledger.put
        { attempt with
          value := some value
          valueHash := some (digest value)
          actualTokens
          actualCost
          acceptedKey := some attempt.stepKey
          status := .accepted } }

omit [Platform] in
/-- The last transaction of a call that failed, or whose owner lost the run. -/
def settleCall (db : Db) (attemptId : Nat) (status : CallStatus)
    (actualTokens actualCost : Option Int) : Except Failure Db := do
  let attempt ← expect (db.ledger.get attemptId) .missing
  pure { db with ledger := db.ledger.put { attempt with status, actualTokens, actualCost } }

/-- The value that a reference of a step stands for. -/
def resolve (db : Db) (runId : Nat) (step : String) (reference : Reference) :
    Except Failure Json := do
  let refused := Failure.conflict "模型产物引用无效"
  let run ← expect (db.inputs.get runId) .missing
  let item ← expect (db.ledger.get reference.artifactId) refused
  let value ← expect item.value refused
  require (item.acceptedKey = some (stepKey run step) ∧ item.status = .accepted ∧
    item.valueHash = reference.valueHash ∧ item.valueHash = some (digest value)) refused
  pure value

end Negotiation
