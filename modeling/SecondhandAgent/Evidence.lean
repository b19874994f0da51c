/-
This file models the seller evidence: the facts and shipping rules in force, the
evaluation of the conditions a buyer puts on the goods, the quotation an offer
rests on and the test that the quotation still holds.
-/

import SecondhandAgent.Pricing

namespace Negotiation

variable [Platform]

/-- `facts_for`: the row with the highest version of a fact. -/
def factFor (db : Db) (name : FactName) : Option ProductFactValue :=
  (db.facts.rows.filter fun row => row.value.factName = name).foldl
    (fun best row =>
      match best with
      | none => some row
      | some kept => if kept.version ≤ row.version then some row else some kept)
    none

/-- The comparison of a percentage with the operator of a condition. -/
def comparesPercentage (operator : Operator) (actual expected : Rat) : Bool :=
  match operator with
  | .atLeast => expected ≤ actual
  | .atMost => actual ≤ expected
  | .equal => actual = expected
  | .contains => false

/-- The result of one condition against the value of its fact. -/
def evaluateValue (predicate : Predicate) (value : Option FactValue) : EvaluationResult :=
  let verdict (holds : Bool) : EvaluationResult := if holds then .satisfied else .unsatisfied
  match predicate.fact, predicate.operator with
  | .batteryHealthPct, .atLeast | .batteryHealthPct, .atMost | .batteryHealthPct, .equal =>
    match decimal predicate.value with
    | none => .unsupported
    | some expected =>
      if 0 ≤ expected ∧ expected ≤ 100 then
        match value with
        | some (.batteryHealthPct (some actual)) =>
          verdict (comparesPercentage predicate.operator (actual.val / 100) expected)
        | _ => .unknown
      else .unsupported
  | .repairHistory, .equal =>
    if predicate.value = "YES" ∨ predicate.value = "NO" then
      match value with
      | some (.repairHistory .yes) => verdict (predicate.value = "YES")
      | some (.repairHistory .no) => verdict (predicate.value = "NO")
      | _ => .unknown
    else .unsupported
  | .allowedDeliveryMethods, .contains =>
    if predicate.value = "shipping" ∨ predicate.value = "pickup" then
      match value with
      | some (.allowedDeliveryMethods methods _ _) =>
        verdict (methods.any fun method => method.text = predicate.value)
      | _ => .unknown
    else .unsupported
  | _, _ => .unsupported

def evaluate (db : Db) (predicate : Predicate) (index : Nat) : Evaluation :=
  let fact := factFor db predicate.fact
  { predicateId := index
    fact := predicate.fact
    factVersion := fact.map (·.version)
    expectedValue := predicate.value
    operator := predicate.operator
    result := evaluateValue predicate (fact.map (·.value)) }

/-- The delivery methods the seller allows. -/
def allowedMethods (fact : ProductFactValue) : List DeliveryMethod :=
  match fact.value with
  | .allowedDeliveryMethods methods _ _ => methods
  | _ => []

/-- What an assessment finds. -/
structure Assessment where
  missing : List Missing
  evaluations : List Evaluation
  snapshot : CostSnapshot
  expiry : Time

/-- The shipping rules that apply to a region. -/
def rulesFor (db : Db) (region : String) (now : Time) : List ShippingCostRule :=
  db.rules.rows.filter fun rule => rule.region = region ∧ rule.active ∧ now < rule.expiresAt

/-- The shipping rule of a candidate whose shipping the seller pays, or what is missing for
it. -/
def shippingRule (db : Db) (candidate : Candidate) (now : Time) :
    List Missing × Option ShippingCostRule :=
  if candidate.delivery = some .shipping ∧ candidate.payer = some .seller then
    match candidate.region with
    | none => ([.region], none)
    | some region =>
      match rulesFor db region now with
      | [] => ([.costUnknown], none)
      | [rule] => ([], some rule)
      | _ => ([.costAmbiguous], none)
  else ([], none)

def assess (db : Db) (candidate : Candidate) (now : Time) : Assessment :=
  let evaluations := candidate.conditions.zipIdx.map fun condition =>
    evaluate db condition.1 condition.2
  let allowed := factFor db .allowedDeliveryMethods
  let (ruleMissing, rule) := shippingRule db candidate now
  { missing :=
      (if candidate.amount = none then [.amount] else []) ++
      (if candidate.delivery = none then [.delivery] else []) ++
      (if candidate.payer = none ∧ candidate.delivery ≠ some .pickup then [.payer] else []) ++
      ((evaluations.filter fun item => item.result ≠ .satisfied).map fun item =>
        .condition item.fact item.result) ++
      (match candidate.delivery, allowed with
        | none, _ => []
        | some _, none => [.factAllowedDeliveryMethods]
        | some method, some fact =>
          if method ∈ allowedMethods fact then [] else [.deliveryNotAllowed]) ++
      (if candidate.commitments ≠ [] then [.unsupportedCommitment] else []) ++
      (if candidate.delivery = some .pickup ∧ candidate.payer = some .seller then
        [.inconsistentDelivery] else []) ++
      ruleMissing
    evaluations
    snapshot :=
      { ruleId := rule.map (·.id)
        ruleVersion := rule.map (·.version)
        shippingCost := (rule.map (·.shippingCost)).getD .zero
        discount := (rule.map (·.discount)).getD .zero
        deliveryFactVersion := allowed.map (·.version) }
    expiry :=
      match rule with
      | some rule => min (now + hours 24) rule.expiresAt
      | none => now + hours 24 }

/-! ### Quotations -/

def FactName.text : FactName → String
  | .batteryHealthPct => "battery_health_pct"
  | .repairHistory => "repair_history"
  | .allowedDeliveryMethods => "allowed_delivery_methods"
  | .unsupported => "unsupported"

def EvaluationResult.text : EvaluationResult → String
  | .satisfied => "SATISFIED"
  | .unsatisfied => "UNSATISFIED"
  | .unknown => "UNKNOWN"
  | .unsupported => "UNSUPPORTED"

def Missing.text : Missing → String
  | .amount => "amount"
  | .delivery => "delivery"
  | .payer => "payer"
  | .condition fact result => "condition:" ++ fact.text ++ ":" ++ result.text
  | .factAllowedDeliveryMethods => "fact:allowed_delivery_methods"
  | .deliveryNotAllowed => "delivery_not_allowed"
  | .unsupportedCommitment => "unsupported_commitment"
  | .inconsistentDelivery => "inconsistent_delivery"
  | .region => "region"
  | .costUnknown => "cost_unknown"
  | .costAmbiguous => "cost_ambiguous"
  | .dependencyUnresolved => "dependency_unresolved"

def missingText (missing : List Missing) : String :=
  "报价依据尚未满足：" ++ ", ".intercalate (missing.map Missing.text)

/-- Record the quotation of a candidate and derive the terms of its offer. -/
def quoteInTransaction (db : Db) (candidate : Candidate) (now : Time) :
    Except Failure (Db × CostQuote × Terms × List Evaluation) := do
  let assessment := assess db candidate now
  Store.require (assessment.missing = []) (.conflict (missingText assessment.missing))
  let quote : CostQuote :=
    { id := db.nextId, snapshot := assessment.snapshot, expiresAt := assessment.expiry }
  let quotes ← db.quotes.insert quote .unique
  let amount ← Store.expect candidate.amount .invalid
  let delivery ← Store.expect candidate.delivery .invalid
  let terms ← Terms.validated (.ofMoney amount) (candidate.payer.getD .buyer)
    (some (.ofMoney assessment.snapshot.shippingCost))
    (some (.ofMoney assessment.snapshot.discount)) [("delivery_method", delivery.text)]
  pure ({ db with quotes, nextId := db.nextId + 1 }, quote, terms, assessment.evaluations)

/-- The quotation an offer was made on is still what an assessment finds. -/
def validBasis (db : Db) (offer : Offer) (now : Time) : Bool :=
  match db.bases.get offer.id with
  | none => false
  | some basis =>
    match db.quotes.get basis.costQuoteId with
    | none => false
    | some quote =>
      let assessment := assess db basis.candidate now
      now < quote.expiresAt ∧ assessment.missing = [] ∧ assessment.snapshot = quote.snapshot ∧
        assessment.evaluations = basis.evaluations

end Negotiation
