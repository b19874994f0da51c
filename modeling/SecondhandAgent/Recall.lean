/-
This file models the context that a turn of the third graph version is prepared
with: what the buyer wrote and meant before, what was shown when the input was
sent, and the draft the input goes on with. A context is made once and kept with
its digest; a later part of the turn loads it and checks every source it names.
-/

import SecondhandAgent.Encoding
import SecondhandAgent.Planner
import SecondhandAgent.Replies

namespace Negotiation

open Store

/-! ### What a context is made of -/

/-- What is kept beside the rows of a session: the contents of its messages, the intents that the
turn of an input was parsed into, and the messages that a draft was made of. -/
structure Texts where
  contents : Nat → Option String := fun _ => none
  frames : Nat → List Intent := fun _ => []
  sources : Nat → List Nat := fun _ => []

/-- A field of an earlier proposal. -/
inductive MemoryValue where
  | amount (value : Money)
  | delivery (value : DeliveryMethod)
  | payer (value : ShippingPayer)
  | region (value : String)
  | conditions (value : List Predicate)
  | commitments (value : List String)
deriving DecidableEq

def MemoryValue.field : MemoryValue → String
  | amount _ => "amount"
  | delivery _ => "delivery"
  | payer _ => "payer"
  | region _ => "region"
  | conditions _ => "conditions"
  | commitments _ => "commitments"

/-- The fields of a candidate that say something. -/
def Candidate.memories (candidate : Candidate) : List MemoryValue :=
  (candidate.amount.map MemoryValue.amount).toList ++
    (candidate.delivery.map MemoryValue.delivery).toList ++
    (candidate.payer.map MemoryValue.payer).toList ++
    (candidate.region.map MemoryValue.region).toList ++
    (if candidate.conditions = [] then [] else [.conditions candidate.conditions]) ++
    (if candidate.commitments = [] then [] else [.commitments candidate.commitments])

/-- A field that is remembered, with the place it was said in. -/
structure Memory where
  value : MemoryValue
  kind : IntentType
  sourceMessageId : Nat
  sourceInputSeq : Nat
  sourceQuote : String
deriving DecidableEq

structure RecentMessage where
  messageId : Nat
  inputSeq : Nat
  text : String
deriving DecidableEq

structure DisplayedMessage where
  messageId : Nat
  publicSeq : Nat
  text : String
deriving DecidableEq

structure DraftContext where
  candidate : Candidate
  missing : List Missing
  sourceMessages : List Nat
deriving DecidableEq

structure Context where
  hasBoundDraft : Bool
  missingFields : List Missing
  hasDisplayedOffer : Bool
  inputHighWatermark : Nat
  seenPublicMessageSeq : Nat
  summaryMemory : List Memory
  recentBuyerMessages : List RecentMessage
  displayedMessages : List DisplayedMessage
  boundDraft : Option DraftContext
deriving DecidableEq

/-! ### Writing a context -/

section

variable {Output : Type} (encoding : Encoding Output)

def Predicate.write (predicate : Predicate) : Output :=
  encoding.object
    [("fact", encoding.text predicate.fact.text),
      ("operator", encoding.text predicate.operator.text),
      ("value", encoding.text predicate.value),
      ("source_quote", encoding.text predicate.sourceQuote)]

def MemoryValue.write : MemoryValue → Output
  | amount value => encoding.text value.text
  | delivery value => encoding.text value.text
  | payer value => encoding.text value.text
  | region value => encoding.text value
  | conditions value => encoding.list (value.map (Predicate.write encoding))
  | commitments value => encoding.list (value.map encoding.text)

def Candidate.write (candidate : Candidate) : Output :=
  encoding.object
    [("amount", encoding.option (fun amount => encoding.text (Money.text amount)) candidate.amount),
      ("delivery", encoding.option (fun delivery => encoding.text delivery.text) candidate.delivery),
      ("payer", encoding.option (fun payer => encoding.text payer.text) candidate.payer),
      ("region", encoding.option encoding.text candidate.region),
      ("conditions", encoding.list (candidate.conditions.map (Predicate.write encoding))),
      ("commitments", encoding.list (candidate.commitments.map encoding.text))]

def Memory.write (memory : Memory) : Output :=
  encoding.object
    [("field", encoding.text memory.value.field),
      ("value", memory.value.write encoding),
      ("kind", encoding.text memory.kind.text),
      ("source_message_id", encoding.number memory.sourceMessageId),
      ("source_input_seq", encoding.number memory.sourceInputSeq),
      ("source_quote", encoding.text memory.sourceQuote),
      ("version", encoding.text "p4-extractive-v1"),
      ("scope", encoding.text "buyer_history_only")]

def RecentMessage.write (message : RecentMessage) : Output :=
  encoding.object
    [("message_id", encoding.number message.messageId),
      ("input_seq", encoding.number message.inputSeq),
      ("text", encoding.text message.text)]

def DisplayedMessage.write (message : DisplayedMessage) : Output :=
  encoding.object
    [("message_id", encoding.number message.messageId),
      ("public_seq", encoding.number message.publicSeq),
      ("text", encoding.text message.text)]

def DraftContext.write (draft : DraftContext) : Output :=
  encoding.object
    [("candidate", draft.candidate.write encoding),
      ("missing", encoding.list (draft.missing.map fun missing => encoding.text missing.text)),
      ("source_messages", encoding.list (draft.sourceMessages.map fun id : Nat => encoding.number id))]

/-- A context in the order in which its parts are put together. -/
def Context.write (context : Context) : Output :=
  encoding.object
    [("has_bound_draft", encoding.bool context.hasBoundDraft),
      ("missing_fields",
        encoding.list (context.missingFields.map fun missing => encoding.text missing.text)),
      ("has_displayed_offer", encoding.bool context.hasDisplayedOffer),
      ("version", encoding.text "p4-extractive-v1"),
      ("input_high_watermark", encoding.number context.inputHighWatermark),
      ("seen_public_message_seq", encoding.number context.seenPublicMessageSeq),
      ("summary_memory", encoding.list (context.summaryMemory.map (Memory.write encoding))),
      ("recent_buyer_messages",
        encoding.list (context.recentBuyerMessages.map (RecentMessage.write encoding))),
      ("displayed_messages",
        encoding.list (context.displayedMessages.map (DisplayedMessage.write encoding))),
      ("bound_draft", encoding.option (DraftContext.write encoding) context.boundDraft),
      ("instruction",
        encoding.text "历史与摘要仅帮助理解，不复制旧条款，不证明已展示或已授权；当前输入优先。")]

end

/-! ### Building a context -/

/-- The message of an input. -/
def buyerMessageId (db : Db) (run : NegotiationInput) : Nat :=
  ((db.messages.get (.input run.id)).map (·.id)).getD 0

/-- What a context can take from an earlier input: its message and what its turn was parsed
into. -/
structure PastInput where
  inputSeq : Nat
  messageId : Nat
  text : String
  intents : List Intent
deriving DecidableEq

def pastInput (db : Db) (texts : Texts) (source : NegotiationInput) : PastInput where
  inputSeq := source.inputSeq
  messageId := buyerMessageId db source
  text := source.payload.text
  intents := if db.turns.get source.id = none then [] else texts.frames source.id

/-- The inputs in front of the run. -/
def earlierInputs (db : Db) (texts : Texts) (run : NegotiationInput) : List PastInput :=
  (db.inputs.rows.filter fun source => source.inputSeq < run.inputSeq).map (pastInput db texts)

def earlierTurns (db : Db) (texts : Texts) (run : NegotiationInput) : List PastInput :=
  (earlierInputs db texts run).insertionSort fun one two => one.inputSeq ≤ two.inputSeq

/-- `memory[key] = ..`: a field that is remembered already keeps its place. -/
def remember (memory : List Memory) (item : Memory) : List Memory :=
  if ∃ old ∈ memory, old.value.field = item.value.field then
    memory.map fun old => if old.value.field = item.value.field then item else old
  else memory ++ [item]

/-- What an earlier input proposed, as far as its own text says so. -/
def PastInput.memories (source : PastInput) : List Memory :=
  source.intents.flatMap fun intent =>
    if intent.sourceQuote ≠ "" ∧ occurs intent.sourceQuote source.text then
      ((intent.candidate.map Candidate.memories).getD []).map fun value =>
        { value
          kind := intent.type
          sourceMessageId := source.messageId
          sourceInputSeq := source.inputSeq
          sourceQuote := intent.sourceQuote }
    else []

def summaryMemory (sources : List PastInput) : List Memory :=
  (sources.flatMap PastInput.memories).foldl remember []

/-- The last four, as `order_by(..desc()).limit(4)` and `reversed` give them. -/
def lastFour {Row : Type} (rows : List Row) : List Row := (rows.reverse.take 4).reverse

/-- The public messages up to a number. -/
def publicMessages (db : Db) (texts : Texts) (seen : Nat) : List DisplayedMessage :=
  db.messages.rows.filterMap fun message =>
    (message.publicSeq.filter (· ≤ seen)).map fun publicSeq =>
      { messageId := message.id, publicSeq, text := (texts.contents message.id).getD "" }

def displayedMessages (db : Db) (texts : Texts) (seen : Nat) : List DisplayedMessage :=
  lastFour ((publicMessages db texts seen).insertionSort fun one two => one.publicSeq ≤ two.publicSeq)

def draftMemory (texts : Texts) (draft : OfferDraft) : DraftContext where
  candidate := draft.candidate
  missing := draft.missing
  sourceMessages := texts.sources draft.id

/-- The context of a run, before its size is looked at. -/
def recalledContext (db : Db) (texts : Texts) (run : NegotiationInput) (payload : ChatInput)
    (now : Time) : Context :=
  let draft := boundDraft db run payload now
  { hasBoundDraft := draft.isSome
    missingFields := (draft.map (·.missing)).getD []
    hasDisplayedOffer := ((frozenContext db run payload now).bind (·.offerId)).isSome
    inputHighWatermark := run.inputSeq
    seenPublicMessageSeq := run.seenPublicMessageSeq
    summaryMemory := summaryMemory (earlierTurns db texts run)
    recentBuyerMessages := (lastFour (earlierTurns db texts run)).map fun source =>
      { messageId := source.messageId, inputSeq := source.inputSeq, text := source.text }
    displayedMessages := displayedMessages db texts run.seenPublicMessageSeq
    boundDraft := draft.map (draftMemory texts) }

/-- The bytes a context may take. -/
def contextWidth : Nat := 16000

/-- `build_context` -/
def buildContext (db : Db) (texts : Texts) (run : NegotiationInput) (now : Time) :
    Except Failure Context :=
  match run.payload with
  | .typed _ => .error .invalid
  | .chat payload => do
    let context := recalledContext db texts run payload now
    require (Encoding.size (context.write .dumps) ≤ contextWidth)
      (.budgetExhausted "上下文超限，请明确当前方案及条件")
    pure context

/-! ### Keeping and loading it -/

/-- The row that keeps the context of a turn beside what a review says of its reply. -/
structure PreparedTurn where
  quality : GraphTurnQuality
  context : Context

def PreparedTurn.inputId (row : PreparedTurn) : Nat := row.quality.inputId

section

variable [Platform]

/-- `prepare_context`: make the context of a run, unless it is there. -/
def prepareContext (db : Db) (texts : Texts) (prepared : Table PreparedTurn.inputId) (runId : Nat)
    (owner : Owner) (now : Time) : Except Failure (Table PreparedTurn.inputId × Digest) := do
  let (run, _) ← lockOwner db runId owner now
  match prepared.get runId with
  | some old => do
    require (digest (old.context.write .tree) = old.quality.contextHash)
      (.conflict "上下文快照损坏")
    pure (prepared, old.quality.contextHash)
  | none => do
    let context ← buildContext db texts run now
    let key := digest (context.write .tree)
    let stored ← prepared.insert { quality := { inputId := runId, contextHash := key }, context } .unique
    pure (stored, key)

/-- An input with the given message and number. -/
def sourceOf (db : Db) (messageId inputSeq : Nat) : Option NegotiationInput :=
  db.inputs.rows.find? fun source =>
    buyerMessageId db source = messageId ∧ source.inputSeq = inputSeq

/-- The field was said where the context says so. -/
def MemoryStands (db : Db) (run : NegotiationInput) (memory : Memory) : Prop :=
  Found (sourceOf db memory.sourceMessageId memory.sourceInputSeq) fun source =>
    source.inputSeq < run.inputSeq ∧ occurs memory.sourceQuote source.payload.text

/-- The message was written before the run. -/
def RecentStands (db : Db) (run : NegotiationInput) (message : RecentMessage) : Prop :=
  Found (sourceOf db message.messageId message.inputSeq) fun source =>
    source.inputSeq < run.inputSeq ∧ source.payload.text = message.text

/-- The message was shown before the run was sent. -/
def DisplayStands (db : Db) (texts : Texts) (run : NegotiationInput) (message : DisplayedMessage) :
    Prop :=
  Found (db.messages.rows.find? (·.id = message.messageId)) fun source =>
    Found (source.publicSeq) fun publicSeq =>
      publicSeq ≠ 0 ∧ publicSeq = message.publicSeq ∧ publicSeq ≤ run.seenPublicMessageSeq ∧
        (texts.contents source.id).getD "" = message.text

instance (db : Db) (run : NegotiationInput) (memory : Memory) :
    Decidable (MemoryStands db run memory) := by
  delta MemoryStands
  infer_instance

instance (db : Db) (run : NegotiationInput) (message : RecentMessage) :
    Decidable (RecentStands db run message) := by
  delta RecentStands
  infer_instance

instance (db : Db) (texts : Texts) (run : NegotiationInput) (message : DisplayedMessage) :
    Decidable (DisplayStands db texts run message) := by
  delta DisplayStands
  infer_instance

/-- `load_context`: the context as it was made, if all its sources stand. -/
def loadContext (db : Db) (texts : Texts) (prepared : Table PreparedTurn.inputId)
    (run : NegotiationInput) : Except Failure Context := do
  let item ← expect (prepared.get run.id) (.conflict "上下文快照缺失或损坏")
  require (digest (item.context.write .tree) = item.quality.contextHash)
    (.conflict "上下文快照缺失或损坏")
  require (item.context.inputHighWatermark = run.inputSeq ∧
    item.context.seenPublicMessageSeq = run.seenPublicMessageSeq) (.conflict "摘要来源跨越输入边界")
  require (∀ memory ∈ item.context.summaryMemory, MemoryStands db run memory)
    (.conflict "摘要来源校验失败")
  require (∀ message ∈ item.context.recentBuyerMessages, RecentStands db run message)
    (.conflict "历史消息来源越界")
  require (∀ message ∈ item.context.displayedMessages, DisplayStands db texts run message)
    (.conflict "摘要展示来源越界")
  pure item.context

end

end Negotiation
