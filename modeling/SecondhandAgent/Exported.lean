/-
This file proves what the export policy of the traces lets through. A run with
texts where the policy asks for them is exported without an error; of each key
the result depends on what passes the test of the key and on nothing else, and
what passed passes again, also after the result was written to the journal and
read. So reading a journal merges what was recorded and drops nothing of it.
-/

import SecondhandAgent.Folds
import SecondhandAgent.Tracing
import Mathlib.Data.List.Nodup
import Mathlib.Data.Option.Basic

namespace Negotiation.Tracing

/-! ### Mappings with chosen keys -/

theorem select_cons (key : String) (keys : List String) (value : String → Option Data) :
    select (key :: keys) value = (value key).toList.map (key, ·) ++ select keys value := by
  unfold select
  rw [List.filterMap_cons]
  cases value key <;> rfl

theorem select_append (keys more : List String) (value : String → Option Data) :
    select (keys ++ more) value = select keys value ++ select more value :=
  List.filterMap_append

theorem select_congr {keys : List String} {one two : String → Option Data}
    (same : ∀ key ∈ keys, one key = two key) : select keys one = select keys two :=
  List.filterMap_congr fun key member => by rw [same key member]

theorem mem_select {keys : List String} {value : String → Option Data} {key : String}
    {item : Data} : (key, item) ∈ select keys value ↔ key ∈ keys ∧ value key = some item := by
  simp only [select, List.mem_filterMap, Option.map_eq_some_iff, Prod.mk.injEq]
  constructor
  · rintro ⟨name, member, found, chosen, rfl, rfl⟩
    exact ⟨member, chosen⟩
  · rintro ⟨member, chosen⟩
    exact ⟨key, member, item, chosen, rfl, rfl⟩

theorem lookup_select (keys : List String) (value : String → Option Data) (key : String) :
    (select keys value).lookup key = if key ∈ keys then value key else none := by
  induction keys with
  | nil => rfl
  | cons name keys inductionHypothesis =>
    rw [select_cons]
    by_cases same : key = name
    · subst same
      cases found : value key with
      | none => simp [inductionHypothesis, found]
      | some item => simp
    · have rest : key ∈ name :: keys ↔ key ∈ keys := by simp [same]
      simp only [rest, ← inductionHypothesis]
      cases value name with
      | none => rfl
      | some item =>
        have other : (key == name) = false := beq_false_of_ne same
        simp [List.lookup_cons, other]

theorem loadedFields_eq (fields : Fields) :
    loadedFields fields = fields.map fun field => (field.1, field.2.loaded) := by
  induction fields with
  | nil => rfl
  | cons field rest inductionHypothesis => rw [loadedFields, inductionHypothesis]; rfl

theorem loadedFields_select (keys : List String) (value : String → Option Data) :
    loadedFields (select keys value) = select keys fun key => (value key).map Data.loaded := by
  rw [loadedFields_eq, select, List.map_filterMap]
  refine List.filterMap_congr fun key _ => ?_
  cases chosen : value key <;> simp [chosen]

/-! ### What is exported of a key -/

section

variable (writing : Writing)

/-- A value of the envelope passes. -/
def passes (key : String) (item : Data) : Bool :=
  match safeEnvelope writing key item with
  | .ok passed => passed
  | .error _ => false

/-- What is exported of a key of a content. -/
def contentOf (fields : Fields) (key : String) : Option Data :=
  if key ∈ ["usage", "usage_metadata"] then
    match fields.lookup key with
    | some (.dict usage) =>
      some (.dict (select usageCounters fun counter => (usage.lookup counter).filter safeUsage))
    | _ => none
  else (fields.lookup key).filter (safeItem key)

def contentNames : List String := ["usage", "usage_metadata"] ++ contentKeys

def markOf (texts : List String) (mark : String) : Data → Data
  | .text value => if value ∈ texts then .text value else .text mark
  | _ => .text mark

def metadata : Data → Data
  | .dict fields => (fields.lookup "metadata").getD (.dict [])
  | _ => .dict []

/-- What is exported of a key of a run. -/
def exportOf (value : Fields) (key : String) : Option Data :=
  if key ∈ envelope then (value.lookup key).filter (passes writing key)
  else if key ∈ ["inputs", "outputs"] then
    (value.lookup key).map fun item => .dict (safeContent item)
  else if key = "name" then (value.lookup key).map (markOf safeNames "p0_trace")
  else if key = "run_type" then (value.lookup key).map (markOf safeValues "chain")
  else if key = "error" then
    if (value.lookup key).any Data.truth then some (.text "redacted_run_error") else none
  else
    (value.lookup key).map fun extra =>
      .dict [("metadata", .dict (safeContent (metadata extra)))]

def runNames : List String :=
  envelope ++ ["inputs", "outputs", "name", "run_type", "error", "extra"]

/-- The keys whose values are texts, if they are there. -/
def textNames : List String := ["name", "run_type", "session_name", "project_name"]

/-- A run record whose name, kind and projects are texts and whose extra is a mapping or null. -/
structure WellTyped (value : Fields) : Prop where
  texts : ∀ key ∈ textNames, ∀ item, value.lookup key = some item → ∃ text, item = .text text
  extra : ∀ item, value.lookup "extra" = some item → item = .null ∨ ∃ fields, item = .dict fields

/-- A content that is no mapping is like an empty one. -/
def Data.fields : Data → Fields
  | .dict fields => fields
  | _ => []

theorem safeContent_eq (item : Data) :
    safeContent item = select contentNames (contentOf item.fields) := by
  cases item with
  | dict fields =>
    simp only [safeContent, contentNames]
    rw [select_append]
    refine congrArg₂ (· ++ ·) (select_congr fun key member => ?_)
      (select_congr fun key member => ?_)
    · rw [contentOf, if_pos member]
      rfl
    · have other : ∀ key ∈ contentKeys, key ∉ ["usage", "usage_metadata"] := by decide
      rw [contentOf, if_neg (other key member)]
      rfl
  | _ => rfl

variable {writing} {value : Fields}

theorem exportOf_envelope {key : String} (member : key ∈ envelope) :
    exportOf writing value key = (value.lookup key).filter (passes writing key) := if_pos member

theorem exportOf_content {key : String} (member : key ∈ ["inputs", "outputs"]) :
    exportOf writing value key = (value.lookup key).map fun item => .dict (safeContent item) := by
  have other : ∀ key ∈ ["inputs", "outputs"], key ∉ envelope := by decide
  rw [exportOf, if_neg (other key member), if_pos member]

theorem exportOf_name :
    exportOf writing value "name" = (value.lookup "name").map (markOf safeNames "p0_trace") := rfl

theorem exportOf_runType :
    exportOf writing value "run_type" = (value.lookup "run_type").map (markOf safeValues "chain") :=
  rfl

theorem exportOf_error :
    exportOf writing value "error" =
      if (value.lookup "error").any Data.truth then some (.text "redacted_run_error") else none :=
  rfl

theorem exportOf_extra :
    exportOf writing value "extra" =
      (value.lookup "extra").map fun extra =>
        .dict [("metadata", .dict (safeContent (metadata extra)))] := rfl

theorem safeEnvelope_ok (typed : WellTyped value) {key : String} {item : Data}
    (found : value.lookup key = some item) :
    safeEnvelope writing key item = .ok (passes writing key item) := by
  have texts := typed.texts key
  unfold passes safeEnvelope
  split
  · rfl
  · split
    case isTrue project =>
      obtain ⟨text, rfl⟩ := texts (by rcases project with rfl | rfl <;> decide) item found
      rfl
    case isFalse =>
      split
      · split <;> rfl
      · split
        · split <;> rfl
        · rfl

theorem passing_eq (typed : WellTyped value) (keys : List String) :
    passing writing value keys =
      .ok (select keys fun key => (value.lookup key).filter (passes writing key)) := by
  induction keys with
  | nil => rfl
  | cons key keys inductionHypothesis =>
    rw [passing, select_cons]
    cases found : value.lookup key with
    | none => exact inductionHypothesis
    | some item =>
      simp only [safeEnvelope_ok typed found, inductionHypothesis]
      cases passed : passes writing key item <;> simp [passed, Option.filter] <;> rfl

theorem carried_eq {key : String} {change : Data → Except Raised Data} {pure : Data → Data}
    (same : ∀ item, value.lookup key = some item → change item = .ok (pure item)) :
    carried value key change = .ok (select [key] fun key => (value.lookup key).map pure) := by
  unfold carried
  rw [select_cons]
  cases found : value.lookup key with
  | none => rfl
  | some item => simp [same item found]; rfl

theorem marked_eq {texts : List String} {mark text : String} :
    marked texts mark (.text text) = .ok (markOf texts mark (.text text)) := by
  by_cases member : text ∈ texts <;> simp [marked, Data.isIn, markOf, member] <;> rfl

theorem metadataOf_eq {extra : Data} (typed : extra = .null ∨ ∃ fields, extra = .dict fields) :
    metadataOf extra = .ok (metadata extra) := by
  rcases typed with rfl | ⟨fields, rfl⟩
  · rfl
  · cases fields with
    | nil => rfl
    | cons => rfl

/-- A well typed run is exported key by key. -/
theorem safeRun_eq (typed : WellTyped value) :
    safeRun writing value = .ok (select runNames (exportOf writing value)) := by
  have name : carried value "name" (marked safeNames "p0_trace") =
      .ok (select ["name"] fun key => (value.lookup key).map (markOf safeNames "p0_trace")) :=
    carried_eq fun item found => by
      obtain ⟨text, rfl⟩ := typed.texts "name" (by decide) item found
      exact marked_eq
  have runType : carried value "run_type" (marked safeValues "chain") =
      .ok (select ["run_type"] fun key => (value.lookup key).map (markOf safeValues "chain")) :=
    carried_eq fun item found => by
      obtain ⟨text, rfl⟩ := typed.texts "run_type" (by decide) item found
      exact marked_eq
  have extra : carried value "extra" (fun extra => do
      .ok (.dict [("metadata", .dict (safeContent (← metadataOf extra)))])) =
      .ok (select ["extra"] fun key => (value.lookup key).map fun extra =>
        .dict [("metadata", .dict (safeContent (metadata extra)))]) :=
    carried_eq fun item found => by
      rw [metadataOf_eq (typed.extra item found)]
      rfl
  simp only [safeRun, passing_eq typed, name, runType, extra]
  have passed : (select envelope fun key => (value.lookup key).filter (passes writing key)) =
      select envelope (exportOf writing value) :=
    select_congr fun key member => (exportOf_envelope member).symm
  have contents : (select ["inputs", "outputs"] fun key =>
      (value.lookup key).map fun item => .dict (safeContent item)) =
      select ["inputs", "outputs"] (exportOf writing value) :=
    select_congr fun key member => (exportOf_content member).symm
  have error : (if (value.lookup "error").any Data.truth then
      [("error", .text "redacted_run_error")] else []) =
      select ["error"] (exportOf writing value) := by
    rw [select_cons, exportOf_error]
    split <;> rfl
  have parts : runNames = envelope ++ ["inputs", "outputs"] ++ ["name"] ++ ["run_type"] ++
      ["error"] ++ ["extra"] := rfl
  refine congrArg Except.ok ?_
  simp only [parts, select_append, passed, contents, error]
  rfl

end

/-! ### Values of the envelope -/

section

variable {writing : Writing}

/-- A value that is exported as an identifier: a UUID is read off its text. -/
inductive Data.Identifier : Data → Prop
  | text {value : String} (reads : Uuid.reads value = true) : Identifier (.text value)
  | int {value : Int} (reads : Uuid.reads (toString value) = true) : Identifier (.int value)
  | uuid {value : UuidText} : Identifier (.uuid value)
  | other {value : String} {truth : Bool} (reads : Uuid.reads value = true) :
      Identifier (.other value truth)

variable (writing) in
theorem quoted_mark (text : String) :
    ∃ mark ∈ ['\'', '"'], mark ∈ (writing.quoted text).toList := by
  unfold Writing.quoted
  dsimp only
  split
  · exact ⟨'"', by simp, by simp [Char.toString]⟩
  · exact ⟨'\'', by simp, by simp [Char.toString]⟩

theorem reads_list (items : List Data) : Uuid.reads ((Data.list items).str writing) = false := by
  have bracket : '[' ∈ ((Data.list items).str writing).toList := by simp [Data.str]
  exact Uuid.reads_foreign bracket (by decide) (by decide)

theorem reads_dict (fields : Fields) : Uuid.reads ((Data.dict fields).str writing) = false := by
  cases fields with
  | nil => exact Uuid.reads_short (by simp [Data.str])
  | cons field rest =>
    obtain ⟨mark, known, member⟩ := quoted_mark writing field.1
    have inside : mark ∈ ((Data.dict (field :: rest)).str writing).toList := by
      simp [Data.str, member]
    rcases List.mem_cons.mp known with rfl | known
    · exact Uuid.reads_foreign inside (by decide) (by decide)
    · obtain rfl := List.mem_singleton.mp known
      exact Uuid.reads_foreign inside (by decide) (by decide)

theorem reads_datetime (moment : Moment) :
    Uuid.reads ((Data.datetime moment).str writing) = false := by
  have dated := List.all_eq_true.mp moment.dated
  have timed := List.all_eq_true.mp moment.timed
  refine Uuid.reads_colon (by simp [Data.str, moment.minutes]) fun member => ?_
  simp only [Data.str, String.toList_append, List.mem_append] at member
  rcases member with (inDate | blank) | inTime
  · exact absurd (dated 'u' inDate) (by decide)
  · simp at blank
  · exact absurd (timed 'u' inTime) (by decide)

/-- A value whose text is one of a UUID. -/
theorem identifier_of_reads {item : Data} (reads : Uuid.reads (item.str writing) = true) :
    item.Identifier := by
  cases item with
  | text value => exact .text reads
  | int value => exact .int reads
  | uuid value => exact .uuid
  | other value truth => exact .other reads
  | null =>
    rw [Data.str, Uuid.reads_short (by simp)] at reads
    cases reads
  | bool value =>
    have short : ((Data.bool value).str writing).toList.length < 32 := by
      cases value <;> simp [Data.str]
    rw [Uuid.reads_short short] at reads
    cases reads
  | float value =>
    have short := value.short
    rw [Data.str, Uuid.reads_short (by omega)] at reads
    cases reads
  | list items => rw [reads_list] at reads; cases reads
  | dict fields => rw [reads_dict] at reads; cases reads
  | datetime moment => rw [reads_datetime] at reads; cases reads

theorem Data.Identifier.loaded {item : Data} (identifier : item.Identifier) :
    Uuid.reads (item.loaded.str writing) = true := by
  cases identifier with
  | text reads => exact reads
  | int reads => exact reads
  | @uuid value => exact value.reads
  | other reads => exact reads

theorem isTimestamp_isoformat (moment : Moment) : isTimestamp moment.isoformat = true := by
  have dated := List.all_eq_true.mp moment.dated
  have timed := List.all_eq_true.mp moment.timed
  simp only [isTimestamp, Moment.isoformat, Bool.and_eq_true, List.all_eq_true,
    String.toList_append, List.mem_append]
  refine ⟨by simp, fun char member => ?_⟩
  rcases member with (inDate | mark) | inTime
  · have known := dated char inDate
    simp only [isDateChar, Bool.or_eq_true, decide_eq_true_eq] at known
    rcases known with digit | rfl
    · simp [digit]
    · decide
  · obtain rfl : char = 'T' := by simpa using mark
    decide
  · have known := timed char inTime
    simp only [isTimeChar, Bool.or_eq_true] at known
    rcases known with digit | mark
    · simp [digit]
    · revert mark
      simp
      rintro (rfl | rfl | rfl | rfl) <;> decide

/-- What passes a test of the envelope passes it again after the journal. -/
theorem passes_loaded {key : String} {item : Data} (passed : passes writing key item = true) :
    passes writing key item.loaded = true := by
  unfold passes safeEnvelope at passed ⊢
  by_cases identifier : identifiers.contains key
  · rw [if_pos identifier] at passed ⊢
    exact (identifier_of_reads passed).loaded
  rw [if_neg identifier] at passed ⊢
  by_cases project : key = "project_name" ∨ key = "session_name"
  · rw [if_pos project] at passed ⊢
    cases item with
    | text value => exact passed
    | _ => cases passed
  rw [if_neg project] at passed ⊢
  by_cases order : key = "dotted_order"
  · rw [if_pos order] at passed ⊢
    cases item with
    | text value => exact passed
    | _ => cases passed
  rw [if_neg order] at passed ⊢
  by_cases time : key = "start_time" ∨ key = "end_time"
  · rw [if_pos time] at passed ⊢
    cases item with
    | text value => exact passed
    | datetime moment => exact isTimestamp_isoformat moment
    | _ => cases passed
  · rw [if_neg time] at passed
    cases passed

end

/-! ### What was exported is exported again -/

theorem filter_again {Value : Type} (keeps : Value → Bool) (value : Option Value) :
    (value.filter keeps).filter keeps = value.filter keeps := by
  cases value with
  | none => rfl
  | some item => by_cases kept : keeps item <;> simp [Option.filter, kept]

theorem contentOf_again {fields : Fields} {key : String} (member : key ∈ contentNames) :
    contentOf (select contentNames (contentOf fields)) key = contentOf fields key := by
  have lookup : (select contentNames (contentOf fields)).lookup key = contentOf fields key := by
    rw [lookup_select, if_pos member]
  by_cases usage : key ∈ ["usage", "usage_metadata"]
  · rw [contentOf, if_pos usage, lookup, contentOf, if_pos usage]
    cases fields.lookup key with
    | none => rfl
    | some item =>
      cases item with
      | dict counts =>
        refine congrArg (fun fields => some (Data.dict fields))
          (select_congr fun counter known => ?_)
        rw [lookup_select, if_pos known, filter_again]
      | _ => rfl
  · rw [contentOf, if_neg usage, lookup, contentOf, if_neg usage, filter_again]

theorem safeContent_again (item : Data) :
    safeContent (.dict (safeContent item)) = safeContent item := by
  rw [safeContent_eq item, safeContent_eq]
  exact select_congr fun key member => contentOf_again member

theorem contentOf_loaded (fields : Fields) (key : String) :
    (contentOf fields key).map Data.loaded = contentOf fields key := by
  unfold contentOf
  split
  · split
    · rw [Option.map_some, Data.loaded, loadedFields_select]
      refine congrArg (fun fields => some (Data.dict fields)) (select_congr fun counter _ => ?_)
      cases List.lookup counter _ with
      | none => rfl
      | some item =>
        by_cases safe : safeUsage item
        · cases item <;> first | cases safe | simp [Option.filter, safe, Data.loaded]
        · simp [Option.filter, safe]
    · rfl
  · cases fields.lookup key with
    | none => rfl
    | some item =>
      by_cases safe : safeItem key item
      · cases item <;> first | cases safe | simp [Option.filter, safe, Data.loaded]
      · simp [Option.filter, safe]

theorem loadedFields_content (item : Data) :
    loadedFields (safeContent item) = safeContent item := by
  rw [safeContent_eq, loadedFields_select]
  exact select_congr fun key _ => contentOf_loaded item.fields key

/-- A way of changing values that leaves alone what the policy puts down itself. -/
structure Faithful (writing : Writing) (change : Data → Data) : Prop where
  passes : ∀ key item, passes writing key item = true → passes writing key (change item) = true
  text : ∀ value, change (.text value) = .text value
  content : ∀ item, change (.dict (safeContent item)) = .dict (safeContent item)
  extra : ∀ item, change (.dict [("metadata", .dict (safeContent item))]) =
    .dict [("metadata", .dict (safeContent item))]

theorem faithful_id (writing : Writing) : Faithful writing id :=
  ⟨fun _ _ passed => passed, fun _ => rfl, fun _ => rfl, fun _ => rfl⟩

theorem faithful_loaded (writing : Writing) : Faithful writing Data.loaded where
  passes _ _ := passes_loaded
  text _ := rfl
  content item := by rw [Data.loaded, loadedFields_content]
  extra item := by
    simp only [Data.loaded, loadedFields, loadedFields_content]

section

variable {writing : Writing} {value : Fields} {change : Data → Data}

/-- What is exported of a key, after a change. -/
def Changed (writing : Writing) (change : Data → Data) (value : Fields) : Fields :=
  select runNames fun key => (exportOf writing value key).map change

theorem lookup_changed {key : String} (member : key ∈ runNames) :
    (Changed writing change value).lookup key = (exportOf writing value key).map change := by
  rw [Changed, lookup_select, if_pos member]

theorem markOf_again {texts : List String} {mark : String} (known : mark ∈ texts)
    (faithful : Faithful writing change) (item : Data) :
    markOf texts mark (change (markOf texts mark item)) = change (markOf texts mark item) := by
  cases item with
  | text value => 
    by_cases member : value ∈ texts <;> simp [markOf, member, known, faithful.text]
  | _ => simp [markOf, known, faithful.text]

theorem mem_runNames {key : String} (member : key ∈ runNames) :
    key ∈ envelope ∨ key ∈ ["inputs", "outputs"] ∨ key = "name" ∨ key = "run_type" ∨
      key = "error" ∨ key = "extra" := by
  rcases List.mem_append.mp member with inside | inside
  · exact .inl inside
  · simp only [List.mem_cons, List.not_mem_nil, or_false] at inside ⊢
    simpa only [or_assoc] using .inr inside

/-- What was exported of a run is exported again, also after a change that is faithful. -/
theorem exportOf_changed (faithful : Faithful writing change) {key : String}
    (member : key ∈ runNames) :
    exportOf writing (Changed writing change value) key =
      (exportOf writing value key).map change := by
  have lookup : (Changed writing change value).lookup key = _ := lookup_changed member
  rcases mem_runNames member with inside | inside | rfl | rfl | rfl | rfl
  · rw [exportOf_envelope inside, lookup, exportOf_envelope inside]
    cases value.lookup key with
    | none => rfl
    | some item =>
      by_cases passed : passes writing key item
      · simp [Option.filter, passed, faithful.passes key item passed]
      · simp [Option.filter, passed]
  · rw [exportOf_content inside, lookup, exportOf_content inside]
    cases value.lookup key with
    | none => rfl
    | some item => simp [faithful.content, safeContent_again]
  · rw [exportOf_name, lookup, exportOf_name]
    cases value.lookup "name" with
    | none => rfl
    | some item => exact congrArg some (markOf_again (by decide) faithful item)
  · rw [exportOf_runType, lookup, exportOf_runType]
    cases value.lookup "run_type" with
    | none => rfl
    | some item => exact congrArg some (markOf_again (by decide) faithful item)
  · rw [exportOf_error, lookup, exportOf_error]
    split
    · simp [faithful.text, Data.truth]
    · rfl
  · rw [exportOf_extra, lookup, exportOf_extra]
    cases value.lookup "extra" with
    | none => rfl
    | some item => simp [faithful.extra, metadata, safeContent_again]

theorem markOf_text (texts : List String) (mark : String) (item : Data) :
    ∃ text, markOf texts mark item = .text text := by
  unfold markOf
  split
  · split <;> exact ⟨_, rfl⟩
  · exact ⟨_, rfl⟩

theorem exportOf_text (typed : WellTyped value) {key : String} (member : key ∈ textNames)
    {item : Data} (exported : exportOf writing value key = some item) :
    ∃ text, item = .text text := by
  have project : key ∈ envelope → ∃ text, item = .text text := fun inside => by
    rw [exportOf_envelope inside] at exported
    exact typed.texts key member item (Option.filter_eq_some_iff.mp exported).1
  simp only [textNames, List.mem_cons, List.not_mem_nil, or_false] at member
  rcases member with rfl | rfl | rfl | rfl
  · obtain ⟨original, -, rfl⟩ := Option.map_eq_some_iff.mp (exportOf_name ▸ exported)
    exact markOf_text _ _ _
  · obtain ⟨original, -, rfl⟩ := Option.map_eq_some_iff.mp (exportOf_runType ▸ exported)
    exact markOf_text _ _ _
  · exact project (by decide)
  · exact project (by decide)

/-- What was exported is well typed. -/
theorem changed_typed (faithful : Faithful writing change) (typed : WellTyped value) :
    WellTyped (Changed writing change value) where
  texts key member item found := by
    have known : ∀ key ∈ textNames, key ∈ runNames := by decide
    rw [lookup_changed (known key member)] at found
    obtain ⟨exported, passed, rfl⟩ := Option.map_eq_some_iff.mp found
    obtain ⟨text, rfl⟩ := exportOf_text typed member passed
    exact ⟨text, faithful.text text⟩
  extra item found := by
    rw [lookup_changed (by decide), exportOf_extra] at found
    obtain ⟨extra, exported, rfl⟩ := Option.map_eq_some_iff.mp found
    obtain ⟨original, -, rfl⟩ := Option.map_eq_some_iff.mp exported
    exact .inr ⟨_, faithful.extra _⟩

theorem safeRun_changed (faithful : Faithful writing change) (typed : WellTyped value) :
    safeRun writing (Changed writing change value) = .ok (Changed writing change value) := by
  rw [safeRun_eq (changed_typed faithful typed)]
  exact congrArg Except.ok (select_congr fun key member => exportOf_changed faithful member)

end

/-! ### What a result can hold -/

/-- A field of the inputs, the outputs or the metadata. -/
inductive SafeContentField : String → Data → Prop
  | usage {key : String} {counts : Fields} (known : key ∈ ["usage", "usage_metadata"])
      (counted : ∀ counter item, (counter, item) ∈ counts →
        counter ∈ usageCounters ∧ ∃ number, item = .int number ∧ isCount number = true) :
      SafeContentField key (.dict counts)
  | value {key text : String} (known : key ∈ contentKeys) (fixed : text ∈ safeValues) :
      SafeContentField key (.text text)
  | runRef {text : String} (hex : isRunRef text = true) : SafeContentField "run_ref" (.text text)
  | count {key : String} {number : Int} (known : key ∈ counters)
      (bounded : isCount number = true) : SafeContentField key (.int number)
  | flag {key : String} {flag : Bool} (known : key ∈ counters) : SafeContentField key (.bool flag)

def SafeContent (fields : Fields) : Prop :=
  ∀ key item, (key, item) ∈ fields → SafeContentField key item

/-- A field of a run that is exported. -/
inductive SafeField : String → Data → Prop
  | identifier {key : String} {item : Data} (known : key ∈ identifiers)
      (identifier : item.Identifier) : SafeField key item
  | project {key text : String} (known : key ∈ ["session_name", "project_name"])
      (fixed : text ∈ projects) : SafeField key (.text text)
  | dottedOrder {text : String} (dotted : isDottedOrder text = true) :
      SafeField "dotted_order" (.text text)
  | moment {key : String} {moment : Moment} (known : key ∈ ["start_time", "end_time"]) :
      SafeField key (.datetime moment)
  | timestamp {key text : String} (known : key ∈ ["start_time", "end_time"])
      (stamp : isTimestamp text = true) : SafeField key (.text text)
  | content {key : String} {fields : Fields} (known : key ∈ ["inputs", "outputs"])
      (safe : SafeContent fields) : SafeField key (.dict fields)
  | name {text : String} (fixed : text ∈ safeNames) : SafeField "name" (.text text)
  | runType {text : String} (fixed : text ∈ safeValues) : SafeField "run_type" (.text text)
  | error : SafeField "error" (.text "redacted_run_error")
  | extra {fields : Fields} (safe : SafeContent fields) :
      SafeField "extra" (.dict [("metadata", .dict fields)])

theorem safeContent_safe (item : Data) : SafeContent (safeContent item) := by
  intro key value member
  rw [safeContent_eq, mem_select] at member
  obtain ⟨known, exported⟩ := member
  by_cases usage : key ∈ ["usage", "usage_metadata"]
  · rw [contentOf, if_pos usage] at exported
    split at exported
    · cases exported
      refine .usage usage fun counter count inside => ?_
      obtain ⟨among, kept⟩ := mem_select.mp inside
      have safe := (Option.filter_eq_some_iff.mp kept).2
      cases count with
      | int number => exact ⟨among, number, rfl, safe⟩
      | _ => cases safe
    · cases exported
  · have key_mem : key ∈ contentKeys := (List.mem_append.mp known).resolve_left usage
    rw [contentOf, if_neg usage] at exported
    have safe := (Option.filter_eq_some_iff.mp exported).2
    cases value with
    | text text =>
      simp only [safeItem, Bool.or_eq_true, Bool.and_eq_true, decide_eq_true_eq,
        List.contains_eq_mem] at safe
      rcases safe with ⟨rfl, hex⟩ | fixed
      · exact .runRef hex
      · exact .value key_mem fixed
    | int number =>
      simp only [safeItem, Bool.and_eq_true, List.contains_eq_mem, decide_eq_true_eq] at safe
      exact .count safe.1 safe.2
    | bool flag =>
      simp only [safeItem, List.contains_eq_mem, decide_eq_true_eq] at safe
      exact .flag safe
    | _ => cases safe

section

variable {writing : Writing} {value other : Fields}

theorem envelope_safe {key : String} {item : Data} (passed : passes writing key item = true) :
    SafeField key item := by
  unfold passes safeEnvelope at passed
  by_cases identifier : identifiers.contains key
  · rw [if_pos identifier] at passed
    exact .identifier (by simpa using identifier) (identifier_of_reads passed)
  rw [if_neg identifier] at passed
  by_cases project : key = "project_name" ∨ key = "session_name"
  · rw [if_pos project] at passed
    cases item with
    | text text => exact .project (by simp [project.symm]) (by simpa [Data.isIn] using passed)
    | _ => cases passed
  rw [if_neg project] at passed
  by_cases order : key = "dotted_order"
  · rw [if_pos order] at passed
    subst order
    cases item with
    | text text => exact .dottedOrder passed
    | _ => cases passed
  rw [if_neg order] at passed
  by_cases time : key = "start_time" ∨ key = "end_time"
  · rw [if_pos time] at passed
    cases item with
    | text text => exact .timestamp (by simp [time]) passed
    | datetime moment => exact .moment (by simp [time])
    | _ => cases passed
  · rw [if_neg time] at passed
    cases passed

theorem markOf_fixed {texts : List String} {mark text : String} {item : Data}
    (known : mark ∈ texts) (marked : markOf texts mark item = .text text) : text ∈ texts := by
  unfold markOf at marked
  split at marked
  · split at marked
    · cases marked
      assumption
    · cases marked
      exact known
  · cases marked
    exact known

/-- Every field that is exported of a run is a safe one. -/
theorem exportOf_safe {key : String} {item : Data} (member : key ∈ runNames)
    (exported : exportOf writing value key = some item) : SafeField key item := by
  rcases mem_runNames member with inside | inside | rfl | rfl | rfl | rfl
  · rw [exportOf_envelope inside] at exported
    exact envelope_safe (Option.filter_eq_some_iff.mp exported).2
  · rw [exportOf_content inside] at exported
    obtain ⟨original, -, rfl⟩ := Option.map_eq_some_iff.mp exported
    exact .content inside (safeContent_safe original)
  · obtain ⟨original, -, rfl⟩ := Option.map_eq_some_iff.mp (exportOf_name ▸ exported)
    obtain ⟨text, same⟩ := markOf_text safeNames "p0_trace" original
    exact same ▸ .name (markOf_fixed (by decide) same)
  · obtain ⟨original, -, rfl⟩ := Option.map_eq_some_iff.mp (exportOf_runType ▸ exported)
    obtain ⟨text, same⟩ := markOf_text safeValues "chain" original
    exact same ▸ .runType (markOf_fixed (by decide) same)
  · rw [exportOf_error] at exported
    split at exported
    · cases exported
      exact .error
    · cases exported
  · obtain ⟨original, -, rfl⟩ := Option.map_eq_some_iff.mp (exportOf_extra ▸ exported)
    exact .extra (safeContent_safe _)

end

/-! ### What a result depends on -/

/-- Two values of a key are the same, or neither passes the test. -/
def AlikeAt (keeps : Data → Bool) (one two : Option Data) : Prop :=
  one = two ∨
    (∀ item, one = some item → keeps item = false) ∧ ∀ item, two = some item → keeps item = false

/-- Two values under a usage are no mappings, or have the same counters. -/
def AlikeUsage (one two : Option Data) : Prop :=
  (∀ counts, one ≠ some (.dict counts)) ∧ (∀ counts, two ≠ some (.dict counts)) ∨
    ∃ counts others, one = some (.dict counts) ∧ two = some (.dict others) ∧
      ∀ counter ∈ usageCounters,
        AlikeAt safeUsage (counts.lookup counter) (others.lookup counter)

/-- Two contents have the same counters and fixed values. -/
structure AlikeContent (one two : Data) : Prop where
  items : ∀ key ∈ contentKeys,
    AlikeAt (safeItem key) (one.fields.lookup key) (two.fields.lookup key)
  usage : ∀ key ∈ ["usage", "usage_metadata"],
    AlikeUsage (one.fields.lookup key) (two.fields.lookup key)

/-- Two values are the same text of a set, or neither is one of its texts. -/
def AlikeMark (texts : List String) (one two : Data) : Prop :=
  one = two ∨ (∀ text ∈ texts, one ≠ .text text) ∧ ∀ text ∈ texts, two ≠ .text text

/-- Two runs that differ in nothing that is exported. -/
structure Alike (writing : Writing) (one two : Fields) : Prop where
  envelope : ∀ key ∈ envelope, AlikeAt (passes writing key) (one.lookup key) (two.lookup key)
  contents : ∀ key ∈ ["inputs", "outputs"],
    Option.Rel AlikeContent (one.lookup key) (two.lookup key)
  name : Option.Rel (AlikeMark safeNames) (one.lookup "name") (two.lookup "name")
  runType : Option.Rel (AlikeMark safeValues) (one.lookup "run_type") (two.lookup "run_type")
  error : (one.lookup "error").any Data.truth = (two.lookup "error").any Data.truth
  extra : Option.Rel (fun one two => AlikeContent (metadata one) (metadata two))
    (one.lookup "extra") (two.lookup "extra")

theorem AlikeAt.filter {keeps : Data → Bool} {one two : Option Data}
    (alike : AlikeAt keeps one two) : one.filter keeps = two.filter keeps := by
  rcases alike with rfl | ⟨left, right⟩
  · rfl
  · have nothing : ∀ value : Option Data, (∀ item, value = some item → keeps item = false) →
        value.filter keeps = none := fun value fails => by
      cases value with
      | none => rfl
      | some item => simp [Option.filter, fails item rfl]
    rw [nothing one left, nothing two right]

theorem AlikeContent.safeContent {one two : Data} (alike : AlikeContent one two) :
    safeContent one = safeContent two := by
  rw [safeContent_eq, safeContent_eq]
  refine select_congr fun key member => ?_
  by_cases usage : key ∈ ["usage", "usage_metadata"]
  · rw [contentOf, if_pos usage, contentOf, if_pos usage]
    rcases alike.usage key usage with ⟨left, right⟩ | ⟨counts, others, left, right, same⟩
    · have nothing : ∀ (value : Option Data), (∀ counts, value ≠ some (.dict counts)) →
          (match value with
            | some (.dict usage) => some (Data.dict (select usageCounters fun counter =>
                (usage.lookup counter).filter safeUsage))
            | _ => none) = none := fun value fails => by
        split
        · exact absurd rfl (fails _)
        · rfl
      rw [nothing _ left, nothing _ right]
    · rw [left, right]
      exact congrArg (fun fields => some (Data.dict fields))
        (select_congr fun counter known => (same counter known).filter)
  · rw [contentOf, if_neg usage, contentOf, if_neg usage]
    exact (alike.items key ((List.mem_append.mp member).resolve_left usage)).filter

theorem AlikeMark.markOf {texts : List String} {mark : String} {one two : Data}
    (alike : AlikeMark texts one two) : markOf texts mark one = markOf texts mark two := by
  rcases alike with rfl | ⟨left, right⟩
  · rfl
  · have nothing : ∀ item : Data, (∀ text ∈ texts, item ≠ .text text) →
        Tracing.markOf texts mark item = .text mark := fun item fails => by
      unfold Tracing.markOf
      split
      · rw [if_neg fun member => fails _ member rfl]
      · rfl
    rw [nothing one left, nothing two right]

theorem map_of_rel {Value Result : Type} {related : Value → Value → Prop} {change : Value → Result}
    {one two : Option Value} (rel : Option.Rel related one two)
    (same : ∀ one two, related one two → change one = change two) :
    one.map change = two.map change := by
  cases rel with
  | some related => exact congrArg some (same _ _ related)
  | none => rfl

/-- Nothing else of a run influences what is exported of it. -/
theorem Alike.exportOf {writing : Writing} {one two : Fields} (alike : Alike writing one two)
    {key : String} (member : key ∈ runNames) :
    exportOf writing one key = exportOf writing two key := by
  rcases mem_runNames member with inside | inside | rfl | rfl | rfl | rfl
  · rw [exportOf_envelope inside, exportOf_envelope inside]
    exact (alike.envelope key inside).filter
  · rw [exportOf_content inside, exportOf_content inside]
    exact map_of_rel (alike.contents key inside) fun one two same => by rw [same.safeContent]
  · exact map_of_rel alike.name fun one two same => same.markOf
  · exact map_of_rel alike.runType fun one two same => same.markOf
  · rw [exportOf_error, exportOf_error, alike.error]
  · exact map_of_rel alike.extra fun one two same => by rw [same.safeContent]

/-! ### The journal -/

section

variable {writing : Writing} {value : Fields}

theorem changed_id : Changed writing id value = select runNames (exportOf writing value) :=
  select_congr fun _ _ => Option.map_id_fun ▸ rfl

/-- What is read of the line for a run. -/
theorem record_eq (typed : WellTyped value) (operation : String) :
    record writing operation value = .ok ⟨operation, Changed writing Data.loaded value⟩ := by
  rw [record, safeRun_eq typed, Changed, ← loadedFields_select]
  rfl

end

theorem lookup_put (key : String) (item : Data) (run : Fields) (other : String) :
    (put key item run).lookup other = if other = key then some item else run.lookup other := by
  induction run with
  | nil =>
    by_cases same : other = key <;> simp [put, same]
  | cons field rest inductionHypothesis =>
    obtain ⟨name, old⟩ := field
    rw [put]
    by_cases found : name = key
    · subst found
      rw [if_pos rfl, List.lookup_cons, List.lookup_cons]
      by_cases same : other = name
      · simp [same]
      · simp [same, beq_false_of_ne same]
    · rw [if_neg found, List.lookup_cons, List.lookup_cons, inductionHypothesis]
      by_cases same : other = name
      · subst same
        simp [found]
      · simp [beq_false_of_ne same]

/-- What an update names replaces what was there. -/
theorem lookup_updated (run update : Fields) (key : String) :
    (updated run update).lookup key = (update.lookup key).or (run.lookup key) := by
  induction update with
  | nil => rfl
  | cons field rest inductionHypothesis =>
    obtain ⟨name, item⟩ := field
    change (put name item (updated run rest)).lookup key = _
    rw [lookup_put, inductionHypothesis, List.lookup_cons]
    by_cases same : key = name
    · simp [same]
    · simp [same, beq_false_of_ne same]

/-- What an identifier is after the journal. -/
inductive Data.Key : Data → Prop
  | text (value : String) : Key (.text value)
  | int (value : Int) : Key (.int value)

theorem Data.Key.same_iff {one two : Data} (left : one.Key) (right : two.Key) :
    one.same two = true ↔ one = two := by
  cases left <;> cases right <;> simp [Data.same]

/-- Runs under different identifiers. -/
structure Created.Kept (created : Created) : Prop where
  keys : ∀ entry ∈ created, entry.1.Key
  distinct : (created.map Prod.fst).Nodup

section

variable {created : Created} {id : Data} {run : Fields}

theorem Created.run_eq_some (kept : created.Kept) (key : id.Key) :
    created.run id = some run ↔ (id, run) ∈ created := by
  induction created with
  | nil => simp [Created.run]
  | cons entry rest inductionHypothesis =>
    obtain ⟨name, other⟩ := entry
    have first := kept.keys _ List.mem_cons_self
    have distinct := kept.distinct
    rw [List.map_cons, List.nodup_cons] at distinct
    have later := inductionHypothesis
      ⟨fun entry member => kept.keys entry (List.mem_cons_of_mem _ member), distinct.2⟩
    rw [Created.run, List.find?_cons]
    by_cases same : name = id
    · subst same
      rw [(first.same_iff key).mpr rfl]
      have absent : (name, run) ∉ rest := fun member =>
        distinct.1 (List.mem_map.mpr ⟨(name, run), member, rfl⟩)
      simp [absent, eq_comm]
    · have differs : name.same id = false := by
        rw [Bool.eq_false_iff]
        exact fun found => same ((first.same_iff key).mp found)
      rw [differs]
      rw [Created.run] at later
      simp only [later, List.mem_cons, Prod.mk.injEq]
      constructor
      · exact .inr
      · rintro (⟨found, -⟩ | inside)
        · exact absurd found.symm same
        · exact inside

theorem Created.mem_put (kept : created.Kept) (key : id.Key) {entry : Data × Fields} :
    entry ∈ created.put id run ↔ entry = (id, run) ∨ entry.1 ≠ id ∧ entry ∈ created := by
  induction created with
  | nil => simp [Created.put]
  | cons head rest inductionHypothesis =>
    have first := kept.keys _ List.mem_cons_self
    have distinct := kept.distinct
    rw [List.map_cons, List.nodup_cons] at distinct
    have later := inductionHypothesis
      ⟨fun entry member => kept.keys entry (List.mem_cons_of_mem _ member), distinct.2⟩
    rw [Created.put]
    by_cases same : head.1 = id
    · rw [if_pos ((first.same_iff key).mpr same)]
      have others : ∀ entry ∈ rest, entry.1 ≠ id := fun entry member found =>
        distinct.1 (same.trans found.symm ▸ List.mem_map_of_mem member)
      simp only [List.mem_cons, same]
      constructor
      · rintro (rfl | inside)
        · exact .inl rfl
        · exact .inr ⟨others entry inside, .inr inside⟩
      · rintro (rfl | ⟨other, rfl | inside⟩)
        · exact .inl rfl
        · exact absurd same other
        · exact .inr inside
    · rw [if_neg fun found => same ((first.same_iff key).mp found)]
      simp only [List.mem_cons, later]
      constructor
      · rintro (rfl | rfl | ⟨other, inside⟩)
        · exact .inr ⟨same, .inl rfl⟩
        · exact .inl rfl
        · exact .inr ⟨other, .inr inside⟩
      · rintro (rfl | ⟨other, rfl | inside⟩)
        · exact .inr (.inl rfl)
        · exact .inl rfl
        · exact .inr (.inr ⟨other, inside⟩)

/-- Where a run is put down, its identifier stays or comes last. -/
theorem Created.ids_put (kept : created.Kept) (key : id.Key) (run : Fields) :
    id ∈ created.map Prod.fst ∧ (created.put id run).map Prod.fst = created.map Prod.fst ∨
      id ∉ created.map Prod.fst ∧
        (created.put id run).map Prod.fst = created.map Prod.fst ++ [id] := by
  induction created with
  | nil => exact .inr ⟨by simp, rfl⟩
  | cons head rest inductionHypothesis =>
    have first := kept.keys _ List.mem_cons_self
    have distinct := kept.distinct
    rw [List.map_cons, List.nodup_cons] at distinct
    have later := inductionHypothesis
      ⟨fun entry member => kept.keys entry (List.mem_cons_of_mem _ member), distinct.2⟩
    rw [Created.put]
    by_cases same : head.1 = id
    · rw [if_pos ((first.same_iff key).mpr same)]
      exact .inl ⟨by simp [same], rfl⟩
    · rw [if_neg fun found => same ((first.same_iff key).mp found)]
      have other : id ≠ head.1 := fun found => same found.symm
      simp only [List.map_cons, List.mem_cons, other, false_or, List.cons_append,
        List.cons.injEq, true_and]
      exact later

theorem Created.Kept.put (kept : created.Kept) (key : id.Key) : (created.put id run).Kept where
  keys entry member := by
    rcases (Created.mem_put kept key).mp member with rfl | ⟨-, inside⟩
    · exact key
    · exact kept.keys entry inside
  distinct := by
    rcases Created.ids_put kept key run with ⟨-, ids⟩ | ⟨absent, ids⟩
    · exact ids ▸ kept.distinct
    · rw [ids]
      exact List.nodup_append.mpr ⟨kept.distinct, by simp, fun one member two last => by
        obtain rfl := List.mem_singleton.mp last
        exact fun same => absent (same ▸ member)⟩

end

/-! ### Reading the journal -/

/-- A line of a run that was recorded: the policy changes nothing of it any more, and its
identifier is one. -/
structure Recorded (writing : Writing) (line : Line) : Prop where
  again : safeRun writing line.run = .ok line.run
  key : ∀ id, line.run.lookup "id" = some id → id.Key
  same : sameFields line.run line.run = true

/-- The updates among some runs that are those of an identifier. -/
def updatesOf (updates : List Fields) (id : Data) : List Fields :=
  updates.filter fun update => (update.lookup "id").any id.same

/-- The last value of a key that updates of an identifier give. -/
def latest (updates : List Fields) (id : Data) (key : String) : Option Data :=
  (updatesOf updates id).reverse.findSome? fun update => update.lookup key

def updatesIn (lines : List Line) : List Fields :=
  (lines.filter fun line => line.operation = "update").map (·.run)

/-- What is known of the runs behind some lines of the journal. -/
structure Reads (lines : List Line) (state : Created × List Fields) : Prop where
  kept : state.1.Kept
  created : ∀ entry ∈ state.1, ∃ line ∈ lines, line.operation = "create" ∧
    line.run.lookup "id" = some entry.1 ∧ line.run = entry.2
  found : ∀ line ∈ lines, line.operation = "create" →
    ∃ id, line.run.lookup "id" = some id ∧ id ∈ state.1.map Prod.fst
  updates : state.2 = updatesIn lines
  known : ∀ line ∈ lines, line.operation = "create" ∨ line.operation = "update"

section

variable {writing : Writing} {lines : List Line} {line : Line}
variable {state next : Created × List Fields}

theorem readLine_eq (recorded : Recorded writing line) :
    readLine writing state line =
      if line.operation = "create" then
        match line.run.lookup "id" with
        | none => .error (.keyError "id")
        | some id =>
          if (state.1.run id).any fun other => !sameFields other line.run then
            .error (.valueError "conflicting native create event")
          else .ok (state.1.put id line.run, state.2)
      else if line.operation = "update" then .ok (state.1, state.2 ++ [line.run])
      else .error (.valueError "unknown native journal event") := by
  unfold readLine
  rw [recorded.again]
  by_cases create : line.operation = "create"
  · rw [if_pos create]
    cases named : line.run.lookup "id" <;>
      simp [itemOf, named, create, bind, Except.bind]
  · rw [if_neg create]
    simp [create, bind, Except.bind]

/-- What a line does that can be read. -/
theorem readLine_cases (recorded : Recorded writing line)
    (read : readLine writing state line = .ok next) :
    line.operation = "create" ∧ (∃ id, line.run.lookup "id" = some id ∧
        next = (state.1.put id line.run, state.2)) ∨
      line.operation = "update" ∧ next = (state.1, state.2 ++ [line.run]) := by
  rw [readLine_eq recorded] at read
  split at read
  case isTrue create =>
    left
    split at read
    · cases read
    · split at read <;> cases read
      exact ⟨create, _, by assumption, rfl⟩
  case isFalse =>
    split at read <;> cases read
    exact .inr ⟨by assumption, rfl⟩

theorem updatesIn_append (lines : List Line) (line : Line) :
    updatesIn (lines ++ [line]) =
      updatesIn lines ++ if line.operation = "update" then [line.run] else [] := by
  simp only [updatesIn, List.filter_append, List.map_append, List.filter_singleton]
  split <;> simp_all

/-- One more line. -/
theorem Reads.step (reads : Reads lines state) (recorded : Recorded writing line)
    (read : readLine writing state line = .ok next) : Reads (lines ++ [line]) next := by
  rcases readLine_cases recorded read with ⟨create, id, named, rfl⟩ | ⟨update, rfl⟩
  · have key := recorded.key id named
    have stays : ∀ other ∈ state.1.map Prod.fst,
        other ∈ (state.1.put id line.run).map Prod.fst := fun other member => by
      rcases Created.ids_put reads.kept key line.run with ⟨-, ids⟩ | ⟨-, ids⟩
      · exact ids ▸ member
      · exact ids ▸ List.mem_append_left _ member
    have put : id ∈ (state.1.put id line.run).map Prod.fst :=
      List.mem_map.mpr ⟨(id, line.run), (Created.mem_put reads.kept key).mpr (.inl rfl), rfl⟩
    constructor
    case kept => exact reads.kept.put key
    case created =>
      intro entry member
      rcases (Created.mem_put reads.kept key).mp member with rfl | ⟨-, old⟩
      · exact ⟨line, by simp, create, named, rfl⟩
      · obtain ⟨earlier, inside, rest⟩ := reads.created entry old
        exact ⟨earlier, List.mem_append_left _ inside, rest⟩
    case found =>
      intro other member created
      rcases List.mem_append.mp member with earlier | last
      · obtain ⟨name, named, inside⟩ := reads.found other earlier created
        exact ⟨name, named, stays name inside⟩
      · obtain rfl := List.mem_singleton.mp last
        exact ⟨id, named, put⟩
    case updates =>
      have other : ¬ line.operation = "update" := by simp [create]
      rw [updatesIn_append, if_neg other, List.append_nil]
      exact reads.updates
    case known =>
      intro other member
      rcases List.mem_append.mp member with earlier | last
      · exact reads.known other earlier
      · exact .inl (List.mem_singleton.mp last ▸ create)
  · have other : ¬ line.operation = "create" := by simp [update]
    constructor
    case kept => exact reads.kept
    case created =>
      intro entry member
      obtain ⟨earlier, inside, rest⟩ := reads.created entry member
      exact ⟨earlier, List.mem_append_left _ inside, rest⟩
    case found =>
      intro another member created
      rcases List.mem_append.mp member with earlier | last
      · exact reads.found another earlier created
      · exact absurd (List.mem_singleton.mp last ▸ created) other
    case updates => rw [updatesIn_append, if_pos update, reads.updates]
    case known =>
      intro another member
      rcases List.mem_append.mp member with earlier | last
      · exact reads.known another earlier
      · exact .inr (List.mem_singleton.mp last ▸ update)

theorem Reads.start : Reads [] (([], []) : Created × List Fields) where
  kept := ⟨by simp, by simp⟩
  created := by simp
  found := by simp
  updates := rfl
  known := by simp

theorem Reads.run {state : Created × List Fields}
    (recorded : ∀ line ∈ lines, Recorded writing line)
    (read : lines.foldlM (readLine writing) ([], []) = .ok state) : Reads lines state :=
  Store.foldlM_keeps Reads
    (fun _ line member _ _ reads => reads.step (recorded line member)) .start read

end

/-! ### Applying the updates -/

/-- What is known of the runs after some updates. -/
structure Applied (created : Created) (updates : List Fields) (state : Created) : Prop where
  ids : state.map Prod.fst = created.map Prod.fst
  runs : ∀ entry ∈ state, ∃ original, (entry.1, original) ∈ created ∧
    ∀ key, entry.2.lookup key = (latest updates entry.1 key).or (original.lookup key)
  known : ∀ update ∈ updates, ∃ id, update.lookup "id" = some id ∧ id ∈ created.map Prod.fst

section

variable {created state next : Created} {updates : List Fields} {update : Fields} {id : Data}

theorem latest_append (updates : List Fields) (update : Fields) (id : Data) (key : String) :
    latest (updates ++ [update]) id key =
      if (update.lookup "id").any id.same then (update.lookup key).or (latest updates id key)
      else latest updates id key := by
  unfold latest updatesOf
  rw [List.filter_append]
  by_cases own : (update.lookup "id").any id.same
  · have single : [update].filter (fun update => (update.lookup "id").any id.same) = [update] := by
      simp [own]
    rw [if_pos own, single, List.reverse_append, List.reverse_singleton, List.singleton_append,
      List.findSome?_cons]
    cases update.lookup key <;> rfl
  · have nothing : [update].filter (fun update => (update.lookup "id").any id.same) = [] := by
      simp [own]
    rw [if_neg own, nothing, List.append_nil]

theorem Applied.kept (applied : Applied created updates state) (kept : created.Kept) :
    state.Kept where
  keys entry member := by
    have id : entry.1 ∈ created.map Prod.fst := applied.ids ▸ List.mem_map_of_mem member
    obtain ⟨original, inside, same⟩ := List.mem_map.mp id
    exact same ▸ kept.keys original inside
  distinct := applied.ids ▸ kept.distinct

/-- What an update does that can be applied. -/
theorem applyUpdate_cases (apply : applyUpdate state update = .ok next) :
    ∃ id run, update.lookup "id" = some id ∧ state.run id = some run ∧
      next = state.put id (updated run update) := by
  unfold applyUpdate itemOf at apply
  cases named : update.lookup "id" with
  | none => simp [named, bind, Except.bind] at apply
  | some id =>
    simp only [named, bind, Except.bind] at apply
    split at apply <;> cases apply
    exact ⟨id, _, rfl, by assumption, rfl⟩

/-- One more update. -/
theorem Applied.step (applied : Applied created updates state) (kept : created.Kept)
    (keys : ∀ id, update.lookup "id" = some id → id.Key)
    (apply : applyUpdate state update = .ok next) : Applied created (updates ++ [update]) next := by
  obtain ⟨id, run, named, stored, rfl⟩ := applyUpdate_cases apply
  have key := keys id named
  have holds := applied.kept kept
  have member : (id, run) ∈ state := (Created.run_eq_some holds key).mp stored
  have inside : id ∈ state.map Prod.fst := List.mem_map.mpr ⟨_, member, rfl⟩
  constructor
  case ids =>
    rcases Created.ids_put holds key (updated run update) with ⟨-, ids⟩ | ⟨absent, -⟩
    · exact ids.trans applied.ids
    · exact absurd inside absent
  case runs =>
    intro entry entered
    rcases (Created.mem_put holds key).mp entered with rfl | ⟨other, old⟩
    · obtain ⟨original, first, values⟩ := applied.runs (id, run) member
      refine ⟨original, first, fun key' => ?_⟩
      have own : (update.lookup "id").any id.same = true := by
        rw [named]
        exact (key.same_iff key).mpr rfl
      rw [lookup_updated, latest_append, if_pos own, values key', Option.or_assoc]
    · obtain ⟨original, first, values⟩ := applied.runs entry old
      refine ⟨original, first, fun key' => ?_⟩
      have foreign : ¬ (update.lookup "id").any entry.1.same = true := by
        rw [named]
        exact fun same => other (((holds.keys entry old).same_iff key).mp same)
      rw [latest_append, if_neg foreign, values key']
  case known =>
    intro another among
    rcases List.mem_append.mp among with earlier | last
    · exact applied.known another earlier
    · obtain rfl := List.mem_singleton.mp last
      exact ⟨id, named, applied.ids ▸ inside⟩

theorem Applied.start : Applied created [] created where
  ids := rfl
  runs entry member := ⟨entry.2, member, fun _ => rfl⟩
  known := by simp

theorem Applied.run (kept : created.Kept)
    (keys : ∀ update ∈ updates, ∀ id, update.lookup "id" = some id → id.Key)
    (apply : updates.foldlM applyUpdate created = .ok next) : Applied created updates next :=
  Store.foldlM_keeps (Applied created)
    (fun _ update member _ _ applied => applied.step kept (keys update member)) .start apply

end

/-! ### What a journal is read as -/

/-- Runs that are what some lines of the journal say: each is a run that was created with what the
updates of its identifier gave last. -/
structure Merged (lines : List Line) (runs : List Fields) : Prop where
  each : ∀ run ∈ runs, ∃ id, ∃ line ∈ lines, line.operation = "create" ∧
    line.run.lookup "id" = some id ∧ run.lookup "id" = some id ∧
      ∀ key, run.lookup key = (latest (updatesIn lines) id key).or (line.run.lookup key)
  all : ∀ line ∈ lines, ∃ id, line.run.lookup "id" = some id ∧
    ∃ run ∈ runs, run.lookup "id" = some id
  distinct : (runs.map fun run => run.lookup "id").Nodup

/-- Lines that fit together. -/
structure Coherent (lines : List Line) : Prop where
  known : ∀ line ∈ lines, line.operation = "create" ∨ line.operation = "update"
  named : ∀ line ∈ lines, ∃ id, line.run.lookup "id" = some id
  agree : ∀ one ∈ lines, ∀ two ∈ lines, one.operation = "create" → two.operation = "create" →
    one.run.lookup "id" = two.run.lookup "id" → one.run = two.run
  created : ∀ line ∈ lines, line.operation = "update" →
    ∃ other ∈ lines, other.operation = "create" ∧ other.run.lookup "id" = line.run.lookup "id"

section

variable {writing : Writing} {lines : List Line} {runs : List Fields}

theorem readNativeRuns_cases (read : readNativeRuns writing lines = .ok runs) :
    ∃ state last, lines.foldlM (readLine writing) ([], []) = .ok state ∧
      state.2.foldlM applyUpdate state.1 = .ok last ∧ runs = last.map Prod.snd := by
  unfold readNativeRuns at read
  cases first : lines.foldlM (readLine writing) ([], []) with
  | error raised => simp [first, bind, Except.bind] at read
  | ok state =>
    cases second : state.2.foldlM applyUpdate state.1 with
    | error raised => simp [first, second, bind, Except.bind] at read
    | ok last =>
      simp only [first, second, bind, Except.bind, Except.ok.injEq] at read
      exact ⟨state, last, rfl, second, read.symm⟩

theorem mem_updatesIn {update : Fields} :
    update ∈ updatesIn lines ↔ ∃ line ∈ lines, line.operation = "update" ∧ line.run = update := by
  simp [updatesIn, and_assoc]

/-- An update of an identifier does not change it. -/
theorem latest_id {updates : List Fields} {id other : Data} (key : id.Key)
    (keys : ∀ update ∈ updates, ∀ id, update.lookup "id" = some id → id.Key)
    (found : latest updates id "id" = some other) : other = id := by
  obtain ⟨update, member, named⟩ := List.exists_of_findSome?_eq_some found
  obtain ⟨inside, own⟩ := List.mem_filter.mp (List.mem_reverse.mp member)
  rw [named] at own
  exact ((key.same_iff (keys update inside other named)).mp own).symm

theorem merged_of_read (recorded : ∀ line ∈ lines, Recorded writing line)
    (read : readNativeRuns writing lines = .ok runs) : Merged lines runs := by
  obtain ⟨⟨created, updates⟩, last, first, second, rfl⟩ := readNativeRuns_cases read
  have reads := Reads.run recorded first
  obtain rfl : updates = updatesIn lines := reads.updates
  have keys : ∀ update ∈ updatesIn lines, ∀ id, update.lookup "id" = some id → id.Key :=
    fun update member id named => by
      obtain ⟨line, inside, -, rfl⟩ := mem_updatesIn.mp member
      exact (recorded line inside).key id named
  have applied := Applied.run reads.kept keys second
  have entries : ∀ entry ∈ last, ∃ line ∈ lines, line.operation = "create" ∧
      line.run.lookup "id" = some entry.1 ∧ entry.2.lookup "id" = some entry.1 ∧
        ∀ key, entry.2.lookup key =
          (latest (updatesIn lines) entry.1 key).or (line.run.lookup key) := fun entry member => by
    obtain ⟨original, inside, values⟩ := applied.runs entry member
    obtain ⟨line, listed, create, named, rfl⟩ := reads.created _ inside
    refine ⟨line, listed, create, named, ?_, values⟩
    rw [values "id", named]
    cases found : latest (updatesIn lines) entry.1 "id" with
    | none => rfl
    | some other =>
      rw [latest_id ((recorded line listed).key _ named) keys found]
      rfl
  have present : ∀ id ∈ created.map Prod.fst,
      ∃ run ∈ last.map Prod.snd, run.lookup "id" = some id := fun id member => by
    rw [← applied.ids] at member
    obtain ⟨entry, inside, rfl⟩ := List.mem_map.mp member
    obtain ⟨_, _, _, _, named, _⟩ := entries entry inside
    exact ⟨entry.2, List.mem_map_of_mem inside, named⟩
  constructor
  case each =>
    intro run member
    obtain ⟨entry, inside, rfl⟩ := List.mem_map.mp member
    exact ⟨entry.1, entries entry inside⟩
  case all =>
    intro line member
    rcases reads.known line member with create | update
    · obtain ⟨id, named, inside⟩ := reads.found line member create
      exact ⟨id, named, present id inside⟩
    · obtain ⟨id, named, inside⟩ :=
        applied.known line.run (mem_updatesIn.mpr ⟨line, member, update, rfl⟩)
      exact ⟨id, named, present id inside⟩
  case distinct =>
    have ids : (last.map Prod.snd).map (fun run => run.lookup "id") =
        (last.map Prod.fst).map some := by
      rw [List.map_map, List.map_map]
      refine List.map_congr_left fun entry inside => ?_
      obtain ⟨_, _, _, _, named, _⟩ := entries entry inside
      exact named
    rw [ids, applied.ids]
    exact reads.kept.distinct.map (Option.some_injective _)

theorem Reads.readLine_succeeds {before : List Line} {state : Created × List Fields} {line : Line}
    (coherent : Coherent lines) (recorded : ∀ line ∈ lines, Recorded writing line)
    (member : line ∈ lines) (among : ∀ line ∈ before, line ∈ lines)
    (reads : Reads before state) : ∃ next, readLine writing state line = .ok next := by
  rw [readLine_eq (recorded line member)]
  rcases coherent.known line member with create | update
  · obtain ⟨id, named⟩ := coherent.named line member
    have agrees : (state.1.run id).any (fun other => !sameFields other line.run) = false := by
      cases found : state.1.run id with
      | none => rfl
      | some other =>
        have key := (recorded line member).key id named
        obtain ⟨earlier, listed, created, same, rfl⟩ :=
          reads.created _ ((Created.run_eq_some reads.kept key).mp found)
        have equal := coherent.agree earlier (among earlier listed) line member created create
          (same.trans named.symm)
        simp [equal, (recorded line member).same]
    rw [if_pos create, named]
    exact ⟨_, by simp only [agrees]; rfl⟩
  · have other : ¬ line.operation = "create" := by simp [update]
    exact ⟨_, by rw [if_neg other, if_pos update]⟩

theorem Applied.applyUpdate_succeeds {created state : Created} {past : List Fields}
    {update : Fields} {id : Data} (applied : Applied created past state) (kept : created.Kept)
    (named : update.lookup "id" = some id) (key : id.Key) (member : id ∈ created.map Prod.fst) :
    ∃ next, applyUpdate state update = .ok next := by
  rw [← applied.ids] at member
  obtain ⟨⟨name, run⟩, inside, rfl⟩ := List.mem_map.mp member
  have stored : state.run name = some run :=
    (Created.run_eq_some (applied.kept kept) key).mpr inside
  unfold applyUpdate itemOf
  rw [named]
  simp only [bind, Except.bind, stored]
  exact ⟨_, rfl⟩

/-- Lines that fit together are read. -/
theorem readNativeRuns_succeeds (coherent : Coherent lines)
    (recorded : ∀ line ∈ lines, Recorded writing line) :
    ∃ runs, readNativeRuns writing lines = .ok runs := by
  obtain ⟨⟨created, updates⟩, first⟩ := Store.foldlM_succeeds (readLine writing)
    (fun before state => Reads before state ∧ ∀ line ∈ before, line ∈ lines) lines
    (fun before line member state ⟨reads, among⟩ => by
      obtain ⟨next, read⟩ := reads.readLine_succeeds coherent recorded member among
      refine ⟨next, read, reads.step (recorded line member) read, fun other inside => ?_⟩
      rcases List.mem_append.mp inside with earlier | last
      · exact among other earlier
      · exact List.mem_singleton.mp last ▸ member) ⟨.start, by simp⟩
  have reads := Reads.run recorded first
  obtain rfl : updates = updatesIn lines := reads.updates
  obtain ⟨last, second⟩ := Store.foldlM_succeeds applyUpdate (Applied created)
    (updatesIn lines)
    (fun past update member state applied => by
      obtain ⟨line, listed, updates, rfl⟩ := mem_updatesIn.mp member
      obtain ⟨other, inside, create, same⟩ := coherent.created line listed updates
      obtain ⟨id, named, stored⟩ := reads.found other inside create
      have own : line.run.lookup "id" = some id := same ▸ named
      have keys := (recorded line listed).key
      obtain ⟨next, apply⟩ := applied.applyUpdate_succeeds reads.kept own (keys id own) stored
      exact ⟨next, apply, applied.step reads.kept keys apply⟩) .start
  exact ⟨last.map Prod.snd, by rw [readNativeRuns, first]; simp [bind, Except.bind, second]⟩

end

/-! ### Recorded runs -/

theorem sameFields_self {fields : Fields}
    (each : ∀ field ∈ fields, field.2.same field.2 = true) : sameFields fields fields = true := by
  induction fields with
  | nil => rfl
  | cons field rest inductionHypothesis =>
    have head := each field List.mem_cons_self
    have tail := inductionHypothesis fun field member => each field (List.mem_cons_of_mem _ member)
    simp [sameFields, head, tail]

theorem sameFields_loaded {fields : Fields}
    (each : ∀ key item, (key, item) ∈ fields → item.loaded.same item.loaded = true) :
    sameFields (loadedFields fields) (loadedFields fields) = true := by
  rw [loadedFields_eq]
  refine sameFields_self fun field member => ?_
  obtain ⟨⟨key, item⟩, inside, rfl⟩ := List.mem_map.mp member
  exact each key item inside

theorem SafeContent.same {fields : Fields} (safe : SafeContent fields) :
    sameFields (loadedFields fields) (loadedFields fields) = true := by
  refine sameFields_loaded fun key item member => ?_
  cases safe key item member with
  | usage known counted =>
    refine sameFields_loaded fun counter value inside => ?_
    obtain ⟨-, number, rfl, -⟩ := counted counter value inside
    exact decide_eq_true rfl
  | _ => exact decide_eq_true rfl

theorem Data.Identifier.key {item : Data} (identifier : item.Identifier) : item.loaded.Key := by
  cases identifier with
  | text => exact .text _
  | int => exact .int _
  | uuid => exact .text _
  | other => exact .text _

theorem SafeField.same {key : String} {item : Data} (safe : SafeField key item) :
    item.loaded.same item.loaded = true := by
  cases safe with
  | identifier known identifier => exact (identifier.key.same_iff identifier.key).mpr rfl
  | content known safe => exact safe.same
  | extra safe =>
    have metadata := safe.same
    simp [Data.loaded, loadedFields, Data.same, sameFields, metadata]
  | _ => simp [Data.loaded, Data.same]

section

variable {writing : Writing} {value : Fields}

/-- What is read of the line for a run is recorded: the policy changes nothing of it. -/
theorem changed_recorded (typed : WellTyped value) (operation : String) :
    Recorded writing ⟨operation, Changed writing Data.loaded value⟩ where
  again := safeRun_changed (faithful_loaded writing) typed
  key id named := by
    rw [lookup_changed (by decide)] at named
    obtain ⟨item, exported, rfl⟩ := Option.map_eq_some_iff.mp named
    rw [exportOf_envelope (by decide)] at exported
    have reads : Uuid.reads (item.str writing) = true := (Option.filter_eq_some_iff.mp exported).2
    exact (identifier_of_reads reads).key
  same := by
    refine sameFields_self fun field member => ?_
    obtain ⟨known, chosen⟩ := mem_select.mp member
    obtain ⟨item, exported, same⟩ := Option.map_eq_some_iff.mp chosen
    exact same ▸ (exportOf_safe known exported).same

theorem mapM_record {records : List (String × Fields)}
    (typed : ∀ entry ∈ records, WellTyped entry.2) :
    records.mapM (fun entry => record writing entry.1 entry.2) =
      .ok (records.map fun entry => ⟨entry.1, Changed writing Data.loaded entry.2⟩) := by
  induction records with
  | nil => rfl
  | cons entry rest inductionHypothesis =>
    rw [List.mapM_cons, record_eq (typed entry List.mem_cons_self),
      inductionHypothesis fun entry member => typed entry (List.mem_cons_of_mem _ member)]
    rfl

end

/-- A well typed run is exported, and every field of the result is a safe one; a run that differs
from it in nothing that is exported gives the same result; and the result is exported as it is,
before and after the journal. So every line of a journal is exported as it is, what is read of the
journal is what its lines say, and it is read if they fit together. -/
theorem trace_export_policy (writing : Writing) :
    (∀ value, WellTyped value →
      ∃ result, safeRun writing value = .ok result ∧
        (∀ key item, (key, item) ∈ result → SafeField key item) ∧
        (∀ other, WellTyped other → Alike writing value other →
          safeRun writing other = .ok result) ∧
        safeRun writing result = .ok result ∧
        safeRun writing (loadedFields result) = .ok (loadedFields result)) ∧
      ∀ records : List (String × Fields), (∀ entry ∈ records, WellTyped entry.2) →
        ∃ lines, records.mapM (fun entry => record writing entry.1 entry.2) = .ok lines ∧
          (∀ line ∈ lines, safeRun writing line.run = .ok line.run) ∧
          (∀ runs, readNativeRuns writing lines = .ok runs → Merged lines runs) ∧
          (Coherent lines → ∃ runs, readNativeRuns writing lines = .ok runs) := by
  constructor
  · intro value typed
    refine ⟨_, safeRun_eq typed, fun key item member => ?_, fun other typed alike => ?_, ?_, ?_⟩
    · obtain ⟨known, exported⟩ := mem_select.mp member
      exact exportOf_safe known exported
    · rw [safeRun_eq typed]
      exact congrArg Except.ok (select_congr fun key member => (alike.exportOf member).symm)
    · have again := safeRun_changed (faithful_id writing) typed
      rwa [changed_id] at again
    · rw [loadedFields_select]
      exact safeRun_changed (faithful_loaded writing) typed
  · intro records typed
    have recorded : ∀ line ∈ records.map fun entry =>
        (⟨entry.1, Changed writing Data.loaded entry.2⟩ : Line), Recorded writing line :=
      fun line member => by
        obtain ⟨entry, inside, rfl⟩ := List.mem_map.mp member
        exact changed_recorded (typed entry inside) entry.1
    exact ⟨_, mapM_record typed, fun line member => (recorded line member).again,
      fun runs read => merged_of_read recorded read,
      fun coherent => readNativeRuns_succeeds coherent recorded⟩

/-- A run with numbers and texts under names that are exported. -/
def looseRun : Fields :=
  [("name", .text "LangGraph"), ("run_type", .text "chain"),
    ("id", .int 10000000000000000000000000000000), ("start_time", .text "500"),
    ("dotted_order", .text "dead")]

def plainWriting : Writing where
  escaped _ text := text
  repr _ := "..."

theorem looseRun_typed : WellTyped looseRun where
  texts key member item found := by
    simp only [textNames, List.mem_cons, List.not_mem_nil, or_false] at member
    rcases member with rfl | rfl | rfl | rfl <;> cases found <;> exact ⟨_, rfl⟩
  extra item found := by cases found

/-- An integer of 32 digits and texts that are no times are exported. -/
theorem trace_export_policy_loose :
    ∃ result, safeRun plainWriting looseRun = .ok result ∧
      ("id", .int 10000000000000000000000000000000) ∈ result ∧
      isCount 10000000000000000000000000000000 = false ∧
      ("start_time", .text "500") ∈ result ∧ ("dotted_order", .text "dead") ∈ result := by
  have passes : ∀ key item, key ∈ envelope → looseRun.lookup key = some item →
      passes plainWriting key item = true →
      (key, item) ∈ select runNames (exportOf plainWriting looseRun) :=
    fun key item known found passed => by
      refine mem_select.mpr ⟨List.mem_append_left _ known, ?_⟩
      rw [exportOf_envelope known, found]
      simp [Option.filter, passed]
  exact ⟨_, safeRun_eq looseRun_typed, passes _ _ (by decide) rfl (by decide +kernel), by decide,
    passes _ _ (by decide) rfl (by decide +kernel), passes _ _ (by decide) rfl (by decide +kernel)⟩

/-- The name and the kind of such a run are exported as they are. -/
theorem trace_export_policy_typed :
    ∃ result, safeRun plainWriting looseRun = .ok result ∧
      safeRun plainWriting (loadedFields result) = .ok (loadedFields result) := by
  obtain ⟨result, exported, -, -, -, again⟩ :=
    (trace_export_policy plainWriting).1 looseRun looseRun_typed
  exact ⟨result, exported, again⟩

end Negotiation.Tracing
