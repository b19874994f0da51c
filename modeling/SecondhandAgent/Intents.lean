/-
This file models what a semantic turn starts from: the intents the parser of an
input proposes, the check that they are grounded in the text of the input and
depend on each other without a cycle, and the check that the frame is safe to
act on. Both checks only ever deny; neither makes an action.
-/

import SecondhandAgent.Contracts
import SecondhandAgent.Regex

namespace Negotiation

open Store

/-! ### Intents -/

inductive IntentType where
  | askProduct
  | askTerms
  | proposeOffer
  | changeTerms
  | confirmIntent
  | withdrawOffer
  | closeSession
  | provideInfo
  | other
deriving DecidableEq

/-- The types a turn can act on. -/
def IntentType.IsAction (type : IntentType) : Prop :=
  type = .proposeOffer ∨ type = .changeTerms ∨ type = .confirmIntent ∨ type = .withdrawOffer ∨
    type = .closeSession

instance (type : IntentType) : Decidable type.IsAction :=
  inferInstanceAs (Decidable (_ ∨ _ ∨ _ ∨ _ ∨ _))

def IntentType.IsQuestion (type : IntentType) : Prop := type = .askProduct ∨ type = .askTerms

instance (type : IntentType) : Decidable type.IsQuestion := inferInstanceAs (Decidable (_ ∨ _))

/-- The types that state terms. -/
def IntentType.IsProposal (type : IntentType) : Prop :=
  type = .proposeOffer ∨ type = .changeTerms

instance (type : IntentType) : Decidable type.IsProposal := inferInstanceAs (Decidable (_ ∨ _))

theorem short_group : ((none : Option String).getD "").length ≤ 32 := by decide

@[ext] structure Intent where
  id : String
  type : IntentType
  sourceQuote : String
  topic : Option String := none
  dependsOn : List String := []
  candidate : Option Candidate := none
  alternativeGroup : Option String := none
  fewParents : dependsOn.length ≤ 8 := by first | exact few_texts | decide
  shortGroup : (alternativeGroup.getD "").length ≤ 32 := by first | exact short_group | decide

instance : DecidableEq Intent := fun _ _ => decidable_of_iff _ Intent.ext_iff.symm

structure IntentFrame where
  intents : List Intent
  ambiguous : Bool := false
  nonempty : intents ≠ [] := by decide
  few : intents.length ≤ 8 := by decide

/-! ### Texts -/

/-- `word in text` -/
def occurs (word text : String) : Bool :=
  text.toList.tails.any fun rest => word.toList.isPrefixOf rest

/-- The pattern of a number. -/
def number : String := r"\d+(?:\.\d+)?"

/-- The decimal number that digits with a point among them denote. -/
def decimalOf (text : String) : Rat :=
  let whole := text.toList.takeWhile (· ≠ '.')
  let fraction := (text.toList.drop whole.length).drop 1
  let value := (whole ++ fraction).foldl
    (fun value char => 10 * value + (Regex.digitValue char).getD 0) 0
  (value : Rat) / 10 ^ fraction.length

def Money.value (amount : Money) : Rat := amount.cents / 100

/-- The numbers of a text. -/
def numbersOf (text : String) : List Rat := (Regex.findall number text).map decimalOf

/-! ### Grounded intents -/

/-- The candidate states something. -/
def Candidate.Explicit (candidate : Candidate) : Prop :=
  candidate.amount ≠ none ∨ candidate.delivery ≠ none ∨ candidate.payer ≠ none ∨
    candidate.region ≠ none ∨ candidate.conditions ≠ [] ∨ candidate.commitments ≠ []

instance (candidate : Candidate) : Decidable candidate.Explicit :=
  inferInstanceAs (Decidable (_ ∨ _ ∨ _ ∨ _ ∨ _ ∨ _))

/-- The words for who pays, as a text denies it. -/
def deniesPayer (words source : String) : Bool :=
  Regex.found (r"运费.{0,4}(?:不是|不由|非).{0,2}(?:" ++ words ++
    r")|运费.{0,4}(?:" ++ words ++ r")\s*(?:不|无需|不用).{0,2}(?:承担|支付|出)|(?:" ++ words ++
    r")\s*(?:不|无需|不用).{0,4}(?:承担|支付|出).{0,3}运费") source

/-- What the text says of the payer of the shipping bears the candidate out. -/
def payerGrounded (candidate : Candidate) (source : String) : Bool :=
  match candidate.payer with
  | none => true
  | some .seller =>
    Regex.found (r"包邮|卖家.*运费|你.*运费|运费\s*(?:由|承担方[：:]?)\s*(?:卖家|你|您)(?:承担)?")
      source && !deniesPayer "卖家|你|您" source
  | some .buyer =>
    (candidate.delivery = some .pickup || Regex.found
      r"到付|运费我|我.*运费|买家.*运费|运费\s*(?:由|承担方[：:]?)\s*(?:买家|我)(?:承担)?" source) &&
      !deniesPayer "买家|我" source

/-- Every field of the candidate is grounded in the text. -/
def Candidate.grounded (candidate : Candidate) (source : String) : Bool :=
  (candidate.amount.all fun amount => (numbersOf source).contains amount.value) &&
    (candidate.conditions.all fun condition => occurs condition.sourceQuote source) &&
    (candidate.commitments.all fun value => occurs value source) &&
    (candidate.region.all fun region => occurs region source) &&
    (match candidate.delivery with
      | none => true
      | some .pickup => Regex.found r"自提|面交|当面" source
      | some .shipping => Regex.found r"邮|快递|寄|到付" source) &&
    payerGrounded candidate source

/-- A field without ground in the text makes the frame invalid. -/
def Intent.grounded (intent : Intent) (source : String) : Bool :=
  occurs intent.sourceQuote source &&
    (!(intent.type.IsProposal : Bool) || (intent.candidate.any fun candidate => candidate.Explicit)) &&
    (intent.candidate.all fun candidate => candidate.grounded source)

/-- `visit`: put an intent behind everything it depends on. The first argument is how deep the
visit may still go, `visiting` the way to the intent. -/
def visit (intents : List Intent) :
    Nat → List String → List String → String → Except Failure (List String)
  | 0, _, _, _ => .error .invalid
  | depth + 1, visiting, ordered, key =>
    match intents.find? fun intent => intent.id = key with
    | none => .error .invalid
    | some intent =>
      if key ∈ visiting then .error .invalid
      else if key ∈ ordered then .ok ordered
      else do
        let before ← intent.dependsOn.foldlM (visit intents depth (key :: visiting)) ordered
        pure (before ++ [key])

/-- The intents in an order in which each follows what it depends on. -/
def IntentFrame.validatedFor (frame : IntentFrame) (source : String) :
    Except Failure (List Intent) := do
  require (frame.intents.map (·.id)).Nodup .invalid
  require (frame.intents.all fun intent => intent.grounded source) .invalid
  let ordered ← (frame.intents.map (·.id)).foldlM (visit frame.intents 5 []) []
  pure (ordered.filterMap fun key => frame.intents.find? fun intent => intent.id = key)

/-! ### Safe frames -/

/-- The battery below a bound would end the deal. -/
def negativeBatteryFloor : String :=
  r"电池[^，。；！？!?]{0,30}?(?:不到|低于|少于|小于)\s*(\d+(?:\.\d+)?)\s*%" ++
    r"[^，。；！？!?]{0,12}?(?:不买|不接受|不考虑|不成交)"

/-- The text of an optional group counts unless it is empty. -/
def Intent.grouped (intent : Intent) : Option String := intent.alternativeGroup.filter (· ≠ "")

/-- `condition_scope`: the part of the text the conditions of an intent are about, which is the
whole text unless the intent is clearly one of several alternatives. -/
def conditionScope (intent : Intent) (actions : List Intent) (text : String) : String :=
  let parts := Regex.split r"或者|或是" text
  let first := parts.headD ""
  if parts.length = actions.length ∧ 1 < actions.length ∧
      (∀ action ∈ actions, action.alternativeGroup = intent.alternativeGroup) ∧
      intent.grouped ≠ none ∧ Regex.found r"如果|只要|前提|的话" first = false ∧
      Regex.found negativeBatteryFloor first = false ∧
      Regex.found r"都|均|共同|两个方案|两种方案" text = false then
    match parts.filter (occurs intent.sourceQuote) with
    | [part] => part
    | _ =>
      match intent.candidate.bind (·.amount) with
      | none => text
      | some amount =>
        match parts.filter fun part => (numbersOf part).contains amount.value with
        | [part] => part
        | _ => text
  else text

/-- The operator a threshold in words stands for. -/
def thresholdOperator (words : String) : Operator :=
  if words = "至少" ∨ words = "不低于" ∨ words = ">=" then .atLeast
  else if words = "不超过" ∨ words = "至多" ∨ words = "<=" then .atMost
  else .equal

/-- The conditions the scope of an intent states are among those of its candidate. -/
def scopeSafe (candidate : Candidate) (scope : String) : Bool :=
  (match Regex.search negativeBatteryFloor scope with
    | none => true
    | some floor => candidate.conditions.any fun condition =>
      condition.fact = .batteryHealthPct && condition.operator = .atLeast &&
        (Regex.fullmatch number condition.value).isSome &&
        decimalOf condition.value = decimalOf (floor.group 1)) &&
    (!Regex.found r"如果|只要|前提|的话" scope ||
      ((!candidate.conditions.isEmpty || !candidate.commitments.isEmpty) &&
        (!Regex.found r"没修|未修|无维修|没有维修" scope || candidate.conditions.any fun condition =>
          condition.fact = .repairHistory && condition.operator = .equal &&
            condition.value = "NO") &&
        (match Regex.search r"电池.*?(至少|不低于|>=|不超过|至多|<=|等于)\s*(\d+(?:\.\d+)?)\s*%"
            scope with
          | none => true
          | some threshold => candidate.conditions.any fun condition =>
            condition.fact = .batteryHealthPct &&
              condition.operator = thresholdOperator (threshold.group 1) &&
              condition.value = threshold.group 2)))

/-- What the buyer writes beside an action does not take it back. -/
def actionSafe (intent : Intent) (text : String) : Bool :=
  match intent.type with
  | .confirmIntent =>
    !Regex.found r"不行|不要|不想|不接受|不同意|不确认|别确认|勿确认|不能|拒绝" text &&
      !Regex.found (r"(?:不|别|勿|不要|不能|拒绝)(?:最终)?确认" ++
        r"|不(?:同意|接受)[^，。；！？!?]{0,6}(?:成交|购买|交易)") text &&
      !Regex.found (r"(?:提交|报送|发出)[^，。；！？!?]{0,16}(?:报价|出价|提议)" ++
        r"|(?:报价|出价|提议)[^。；！？!?]{0,16}(?:提交|报送|发出)") text
  | .closeSession =>
    Regex.found r"结束|关闭|终止|不买" intent.sourceQuote &&
      !Regex.found (r"(?:不要|不用|不想|不必|别|不能|不是要).{0,2}(?:结束|关闭|终止)" ++
        r"|不(?:结束|关闭|终止)|(?:不是|没说)不买") intent.sourceQuote &&
      !Regex.found r"(?:如果|假如|若|等到|后续).{0,100}(?:结束|关闭|终止|不买)" text
  | .withdrawOffer =>
    Regex.found r"撤回|撤销|收回|取消.{0,8}(?:报价|提议|方案)" intent.sourceQuote &&
      !Regex.found (r"(?:不|不要|不用|不想|不必|别|不能|不可以|不需要|没有要求|不是).{0,4}" ++
        r"(?:撤回|撤销|收回|取消)") intent.sourceQuote
  | _ => true

/-- The vetoes the whole text gives, whatever the intents are. -/
def textSafe (actions : List Intent) (candidates : List Candidate) (text : String) : Bool :=
  let conditional := candidates.any fun candidate =>
    !candidate.conditions.isEmpty || !candidate.commitments.isEmpty
  !(Regex.found r"(?:如果|只要|前提|的话)" text && !candidates.isEmpty && !conditional) &&
    !(Regex.found r"(?:或者|二选一)" text && actions.length < 2) &&
    !(Regex.found r"(?:先看看|不报价|只是预算|只是比价)" text && !candidates.isEmpty) &&
    !(occurs "预算" text && !Regex.found r"可以吗|行吗|报价|我出" text && !candidates.isEmpty) &&
    !(Regex.found r"不(?:接受|考虑|同意|想要|愿意).*(?:自提|包邮|报价)" text && !actions.isEmpty)

/-- The vetoes that are asked for behind those of the single actions. -/
def lateSafe (actions : List Intent) (candidates : List Candidate) (text : String) : Bool :=
  !(Regex.found r"(?:今天.*发货|保修|保真|赠送)" text && !candidates.isEmpty &&
      !(candidates.any fun candidate => !candidate.commitments.isEmpty)) &&
    (match Regex.search r"不是\s*(\d+(?:\.\d+)?)" text with
      | none => true
      | some correction => !(candidates.any fun candidate =>
        candidate.amount.any fun amount => amount.value = decimalOf (correction.group 1))) &&
    !((actions.any fun intent => intent.type = .confirmIntent) &&
      Regex.found r"但是|不过|改成|得包邮" text)

def actionsOf (intents : List Intent) : List Intent := intents.filter (·.type.IsAction)

/-- `safe_frame`: the intents in order, and whether the turn may act on them. -/
def safeFrame (frame : IntentFrame) (text : String) : Except Failure (List Intent × Bool) := do
  let ordered ← frame.validatedFor text
  let actions := actionsOf ordered
  let candidates := ordered.filterMap (·.candidate)
  pure (ordered, !frame.ambiguous &&
    (ordered.all fun intent => intent.candidate.all fun candidate =>
      scopeSafe candidate (conditionScope intent actions text)) &&
    textSafe actions candidates text && (actions.all fun intent => actionSafe intent text) &&
    lateSafe actions candidates text)

end Negotiation
