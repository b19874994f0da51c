/-
This file models what of a run is exported to a trace: the fields of the
envelope that pass their test, counters and fixed values of the inputs, the
outputs and the metadata, and marks in the place of the name, the kind and the
error. It is applied to a run before it is written to the journal and once more
to each line of the journal that is read.

A mapping is a list of fields of which the first for a key counts. What is
exported has its fields in a fixed order, and so two of these are equal where
the mappings are.
-/

import SecondhandAgent.Uuid

namespace Negotiation.Tracing

/-! ### Values -/

/-- How a float is written; this takes at most 24 characters. -/
structure FloatText where
  text : String
  nonzero : Bool
  short : text.toList.length ≤ 24

def isDateChar (char : Char) : Bool := char.isDigit || char = '-'

def isTimeChar (char : Char) : Bool := char.isDigit || ['.', '+', ':', '-'].contains char

/-- A `datetime`: its date and its time with the offset. -/
structure Moment where
  date : String
  time : String
  dated : date.toList.all isDateChar = true
  timed : time.toList.all isTimeChar = true
  minutes : ':' ∈ time.toList

def Moment.isoformat (moment : Moment) : String := moment.date ++ "T" ++ moment.time

/-- A UUID by its text. -/
structure UuidText where
  text : String
  reads : Uuid.reads text = true

/-- Nested data; any other object is known by its text and whether it counts as true. -/
inductive Data where
  | null
  | bool (value : Bool)
  | int (value : Int)
  | float (value : FloatText)
  | text (value : String)
  | list (items : List Data)
  | dict (fields : List (String × Data))
  | datetime (moment : Moment)
  | uuid (value : UuidText)
  | other (text : String) (truth : Bool)

abbrev Fields := List (String × Data)

def Data.truth : Data → Bool
  | null => false
  | bool value => value
  | int value => value ≠ 0
  | float value => value.nonzero
  | text value => value ≠ ""
  | list items => !items.isEmpty
  | dict fields => !fields.isEmpty
  | datetime _ | uuid _ => true
  | other _ truth => truth

/-- How the texts and the values in a container are written. -/
structure Writing where
  escaped : Char → String → String
  repr : Data → String

/-- `repr` of a text. -/
def Writing.quoted (writing : Writing) (text : String) : String :=
  let mark := if text.toList.contains '\'' && !text.toList.contains '"' then '"' else '\''
  mark.toString ++ writing.escaped mark text ++ mark.toString

/-- `str` -/
def Data.str (writing : Writing) : Data → String
  | null => "None"
  | bool value => if value then "True" else "False"
  | int value => toString value
  | float value => value.text
  | text value => value
  | list items => "[" ++ ", ".intercalate (items.map writing.repr) ++ "]"
  | dict fields =>
    "\x7b" ++ ", ".intercalate
      (fields.map fun field => writing.quoted field.1 ++ ": " ++ writing.repr field.2) ++ "\x7d"
  | datetime moment => moment.date ++ " " ++ moment.time
  | uuid value => value.text
  | other value _ => value

/-- What the policy and its callers raise. -/
inductive Raised where
  | typeError (text : String)
  | attributeError (name : String)
  | keyError (key : String)
  | valueError (text : String)

/-- The test `value in {..}` for a set of texts, which takes the hash of the value first. -/
def Data.isIn (texts : List String) : Data → Except Raised Bool
  | text value => .ok (texts.contains value)
  | list _ => .error (.typeError "unhashable type: 'list'")
  | dict _ => .error (.typeError "unhashable type: 'dict'")
  | null | bool _ | int _ | float _ | datetime _ | uuid _ | other .. => .ok false

/-- A mapping with those of the keys that have a value. -/
def select (keys : List String) (value : String → Option Data) : Fields :=
  keys.filterMap fun key => (value key).map fun item => (key, item)

/-! ### The policy -/

def safeNames : List String :=
  ["wait_for_seller", "apply_result", "publish_notice", "prepare_context", "parse_intents",
    "plan_intents", "commit_business", "publish_reply", "compose_reply", "review_reply",
    "load_approval", "await_decision", "apply_decision", "publish_approval", "p4_error",
    "p4_attachment", "LangGraph", "p0_trace", "query_product", "semantic", "commit", "publish",
    "ChatOpenAI", "OpenAI", "ChatCompletion", "p0_error", "p0_attachment"]

def safeValues : List String :=
  ["negotiation-v1", "negotiation-v2", "negotiation-v3", "approval-v1", "p4-v1", "ACCEPTED",
    "UNKNOWN", "STALE", "REVIEW_REJECTED", "BUDGET_EXHAUSTED", "ASK_PRODUCT", "PROPOSE_OFFER",
    "NONE", "pickup", "shipping", "qwen3.7-flash", "p0-graph-v1", "p0-config-v1", "passed",
    "chain", "llm", "tool"]

/-- `COUNTERS - {"review_count"}` -/
def usageCounters : List String :=
  ["prompt_tokens", "completion_tokens", "total_tokens", "input_tokens", "output_tokens"]

def counters : List String := usageCounters ++ ["review_count"]

def contentKeys : List String :=
  counters ++ ["intent", "model", "graph_version", "status", "delivery", "run_ref"]

def identifiers : List String :=
  ["id", "trace_id", "parent_run_id", "session_id", "reference_example_id"]

def envelope : List String :=
  identifiers ++ ["dotted_order", "start_time", "end_time", "session_name", "project_name"]

def projects : List String :=
  ["secondhand-agent-langgraph-dev", "secondhand-agent-langgraph-test"]

def isCount (value : Int) : Bool := decide (0 ≤ value ∧ value ≤ 10000000)

def isHexDigit (char : Char) : Bool := char.isDigit || ('a' ≤ char && char ≤ 'f')

/-- `[0-9a-f]{64}` -/
def isRunRef (text : String) : Bool :=
  decide (text.toList.length = 64) && text.toList.all isHexDigit

/-- `[0-9a-fTZ.:-]+` -/
def isDottedOrder (text : String) : Bool :=
  !text.toList.isEmpty &&
    text.toList.all fun char => isHexDigit char || ['T', 'Z', '.', ':', '-'].contains char

/-- `[0-9TZ.+:-]+` -/
def isTimestamp (text : String) : Bool :=
  !text.toList.isEmpty &&
    text.toList.all fun char => char.isDigit || ['T', 'Z', '.', '+', ':', '-'].contains char

/-- A value under the usage that is exported. -/
def safeUsage : Data → Bool
  | .int value => isCount value
  | _ => false

/-- A value of the content that is exported; a boolean counts as a number there. -/
def safeItem (key : String) : Data → Bool
  | .text value => key = "run_ref" && isRunRef value || safeValues.contains value
  | .int value => counters.contains key && isCount value
  | .bool _ => counters.contains key
  | _ => false

def safeContent : Data → Fields
  | .dict fields =>
    (select ["usage", "usage_metadata"] fun key =>
      match fields.lookup key with
      | some (.dict usage) =>
        some (.dict (select usageCounters fun counter => (usage.lookup counter).filter safeUsage))
      | _ => none) ++
    select contentKeys fun key => (fields.lookup key).filter (safeItem key)
  | _ => []

section

variable (writing : Writing)

def safeEnvelope (key : String) (value : Data) : Except Raised Bool :=
  if identifiers.contains key then .ok (Uuid.reads (value.str writing))
  else if key = "project_name" ∨ key = "session_name" then value.isIn projects
  else if key = "dotted_order" then
    match value with
    | .text value => .ok (isDottedOrder value)
    | _ => .ok false
  else if key = "start_time" ∨ key = "end_time" then
    match value with
    | .datetime _ => .ok true
    | .text value => .ok (isTimestamp value)
    | _ => .ok false
  else .ok false

/-- The fields of the envelope that pass, for some of its keys. -/
def passing (value : Fields) : List String → Except Raised Fields
  | [] => .ok []
  | key :: rest =>
    match value.lookup key with
    | none => passing value rest
    | some item => do
      let passes ← safeEnvelope writing key item
      let others ← passing value rest
      .ok (if passes then (key, item) :: others else others)

/-- A text of a set, or another text in its place. -/
def marked (texts : List String) (mark : String) (item : Data) : Except Raised Data := do
  .ok (if ← item.isIn texts then item else .text mark)

/-- `(extra or {}).get("metadata", {})` -/
def metadataOf (extra : Data) : Except Raised Data :=
  if extra.truth then
    match extra with
    | .dict fields => .ok ((fields.lookup "metadata").getD (.dict []))
    | _ => .error (.attributeError "get")
  else .ok (.dict [])

/-- A field that is there goes on to the result. -/
def carried (value : Fields) (key : String) (change : Data → Except Raised Data) :
    Except Raised Fields :=
  match value.lookup key with
  | none => .ok []
  | some item => do .ok [(key, ← change item)]

def safeRun (value : Fields) : Except Raised Fields := do
  let passed ← passing writing value envelope
  let contents := select ["inputs", "outputs"] fun key =>
    (value.lookup key).map fun item => .dict (safeContent item)
  let name ← carried value "name" (marked safeNames "p0_trace")
  let runType ← carried value "run_type" (marked safeValues "chain")
  let error : Fields :=
    if (value.lookup "error").any Data.truth then [("error", .text "redacted_run_error")] else []
  let extra ← carried value "extra" fun extra => do
    .ok (.dict [("metadata", .dict (safeContent (← metadataOf extra)))])
  .ok (passed ++ contents ++ name ++ runType ++ error ++ extra)

/-! ### The journal -/

mutual

/-- What `json.loads` gives of what `json.dumps` writes. -/
def Data.loaded : Data → Data
  | .list items => .list (loadedItems items)
  | .dict fields => .dict (loadedFields fields)
  | .datetime moment => .text moment.isoformat
  | .uuid value => .text value.text
  | .other value _ => .text value
  | .null => .null
  | .bool value => .bool value
  | .int value => .int value
  | .float value => .float value
  | .text value => .text value

def loadedItems : List Data → List Data
  | [] => []
  | item :: rest => item.loaded :: loadedItems rest

def loadedFields : Fields → Fields
  | [] => []
  | (key, value) :: rest => (key, value.loaded) :: loadedFields rest

end

/-- A line of the journal as it is read. -/
structure Line where
  operation : String
  run : Fields

/-- `record` -/
def record (operation : String) (run : Fields) : Except Raised Line := do
  .ok ⟨operation, loadedFields (← safeRun writing run)⟩

mutual

/-- The equality of values that were exported and read again; a boolean is one of the numbers 0
and 1. -/
def Data.same : Data → Data → Bool
  | .bool one, .bool two => one = two
  | .int one, .int two => one = two
  | .bool one, .int two => (if one then 1 else 0) = two
  | .int one, .bool two => one = if two then 1 else 0
  | .text one, .text two => one = two
  | .dict one, .dict two => sameFields one two
  | _, _ => false

def sameFields : Fields → Fields → Bool
  | [], [] => true
  | (key, one) :: rest, (name, two) :: others =>
    key = name && one.same two && sameFields rest others
  | _, _ => false

end

/-- The value of a key, which has to be there. -/
def itemOf (run : Fields) (key : String) : Except Raised Data :=
  match run.lookup key with
  | some item => .ok item
  | none => .error (.keyError key)

/-- `run[key] = item` -/
def put (key : String) (item : Data) : Fields → Fields
  | [] => [(key, item)]
  | field :: rest => if field.1 = key then (key, item) :: rest else field :: put key item rest

/-- `run.update(update)` -/
def updated (run update : Fields) : Fields :=
  update.foldr (fun field run => put field.1 field.2 run) run

/-- The runs that were created, each under its identifier. -/
abbrev Created := List (Data × Fields)

def Created.run (created : Created) (id : Data) : Option Fields :=
  (created.find? fun entry => entry.1.same id).map Prod.snd

/-- `created[id] = run` -/
def Created.put (id : Data) (run : Fields) : Created → Created
  | [] => [(id, run)]
  | entry :: rest => if entry.1.same id then (entry.1, run) :: rest else entry :: put id run rest

/-- A line of the journal, after the lines before it. -/
def readLine (before : Created × List Fields) (line : Line) :
    Except Raised (Created × List Fields) := do
  let (created, updates) := before
  let run ← safeRun writing line.run
  if line.operation = "create" then
    let id ← itemOf run "id"
    if (created.run id).any fun other => !sameFields other run then
      .error (.valueError "conflicting native create event")
    else .ok (created.put id run, updates)
  else if line.operation = "update" then .ok (created, updates ++ [run])
  else .error (.valueError "unknown native journal event")

def applyUpdate (created : Created) (update : Fields) : Except Raised Created := do
  let id ← itemOf update "id"
  match created.run id with
  | none => .error (.valueError "native update has no actual create event")
  | some run => .ok (created.put id (updated run update))

def readNativeRuns (lines : List Line) : Except Raised (List Fields) := do
  let (created, updates) ← lines.foldlM (readLine writing) ([], [])
  let created ← updates.foldlM applyUpdate created
  .ok (created.map Prod.snd)

end

end Negotiation.Tracing
