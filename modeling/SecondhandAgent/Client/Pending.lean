/-
This file models the operations that a client has sent and does not know the
outcome of. They are kept in a storage of the session, one list for an account;
every save reads the list, makes room in it and writes the whole of it again.

A read takes a list only if its text is not too long, and a save does not look
at the length of the text that it writes. The text of a character may be six
characters, so a list of fewer operations than there is room for can be too
long to be read again, and the next save forgets all of it.
-/

import Mathlib.Data.List.Basic
import Mathlib.Data.Rat.Defs
import Mathlib.Algebra.Order.Ring.Rat
import SecondhandAgent.Runs

namespace Negotiation.Client

open Store

/-! ### Texts and numbers -/

/-- A text of JavaScript: its code units. -/
abbrev Utf16 := List UInt16

def units (text : String) : Utf16 := text.toList.map fun char => .ofNat char.toNat

/-- A number of JavaScript; none for what is not finite. -/
abbrev JsNumber := Option Rat

/-- `str` for a value that is a text. -/
def isText (most : Nat) (value : Utf16) : Bool := decide (0 < value.length ∧ value.length ≤ most)

/-- `Number.isSafeInteger(value) && Number(value) >= least` -/
def isInteger (least : Rat) : JsNumber → Bool
  | some value => decide (value.den = 1 ∧ least ≤ value ∧ value ≤ 9007199254740991)
  | none => false

def isHigh (unit : UInt16) : Bool := 0xd800 ≤ unit && unit < 0xdc00

def isLow (unit : UInt16) : Bool := 0xdc00 ≤ unit && unit < 0xe000

/-- `encodeURIComponent` does not raise: each surrogate is one of a pair. -/
def wellFormed : Utf16 → Bool
  | [] => true
  | high :: low :: rest =>
    if isHigh high then isLow low && wellFormed rest
    else !isLow high && wellFormed (low :: rest)
  | [unit] => !isHigh unit && !isLow unit

/-! ### Operations -/

inductive OperationKind where
  | message
  | confirm
  | close
  | recovery
  | approve
  | reject
deriving DecidableEq

inductive OperationStatus where
  | unknown
  | accepted
  | rejected
  | blocked
deriving DecidableEq

inductive PayloadKey where
  | requestId
  | content
  | clientViewId
  | displayReceiptId
  | draftId
  | draftVersion
  | replyToMessageId
  | offerId
  | action
  | reason
  | comment
  | expectedEffectRevision
  | other (name : Utf16)
deriving DecidableEq

inductive PayloadValue where
  | text (value : Utf16)
  | number (value : JsNumber)
  | null
deriving DecidableEq

/-- `OperationPayload`: a key has one value. -/
structure OperationPayload where
  entries : List (PayloadKey × PayloadValue)
  distinct : (entries.map Prod.fst).Nodup
deriving DecidableEq

def OperationPayload.get (payload : OperationPayload) (key : PayloadKey) : Option PayloadValue :=
  payload.entries.lookup key

structure PendingOperation where
  account : Utf16
  target : Utf16
  kind : OperationKind
  requestId : Utf16
  createdAt : JsNumber
  status : OperationStatus
  payload : Option OperationPayload := none
  runId : Option Utf16 := none
deriving DecidableEq

def operationTtl : Rat := 24 * 60 * 60 * 1000

def operationLimit : Nat := 100

/-- The most code units of a list that is read. -/
def textLimit : Nat := 1000000

/-! ### Valid records -/

def fields : OperationKind → List PayloadKey
  | .message => [.requestId, .content, .clientViewId, .displayReceiptId, .draftId, .draftVersion,
      .replyToMessageId]
  | .confirm => [.requestId, .offerId, .clientViewId, .displayReceiptId]
  | .close => [.requestId, .clientViewId]
  | .recovery => [.requestId, .action, .reason]
  | .approve | .reject => [.requestId, .comment, .expectedEffectRevision]

/-- `str` -/
def str (most : Nat) : Option PayloadValue → Bool
  | some (.text value) => isText most value
  | _ => false

/-- `integer` -/
def integer : Option PayloadValue → Bool
  | some (.number value) => isInteger 1 value
  | _ => false

def recoveryActions : List PayloadValue :=
  [.text (units "RETRY"), .text (units "TERMINATE"), .text (units "NOTIFY")]

def validPayload (kind : OperationKind) (payload : OperationPayload) (request : Utf16) : Bool :=
  decide (payload.get .requestId = some (.text request)) &&
    payload.entries.all (fun entry => (fields kind).contains entry.1) &&
    match kind with
    | .recovery =>
      (payload.get .action).any (recoveryActions.contains ·) && str 500 (payload.get .reason)
    | .approve | .reject =>
      (payload.get .comment = some .null || str 2000 (payload.get .comment)) &&
        match payload.get .expectedEffectRevision with
        | none => true
        | some (.number value) => isInteger 0 value
        | some _ => false
    | .close => str 200 (payload.get .clientViewId)
    | .confirm =>
      str 200 (payload.get .clientViewId) && integer (payload.get .offerId) &&
        str 200 (payload.get .displayReceiptId)
    | .message =>
      str 200 (payload.get .clientViewId) && str 4000 (payload.get .content) &&
        (payload.get .displayReceiptId = none || payload.get .displayReceiptId = some .null ||
          str 200 (payload.get .displayReceiptId)) &&
        (if payload.get .draftId = none then decide (payload.get .draftVersion = none)
          else str 200 (payload.get .draftId) && integer (payload.get .draftVersion)) &&
        (payload.get .replyToMessageId = none || integer (payload.get .replyToMessageId))

/-- `/^[1-9]\d*$/` -/
def isNumeral : Utf16 → Bool
  | [] => false
  | first :: rest =>
    (49 ≤ first && first ≤ 57) && rest.all fun unit => 48 ≤ unit && unit ≤ 57

/-- What `validRecord` asks for apart from the time. -/
def PendingOperation.sound (operation : PendingOperation) : Bool :=
  isText 200 operation.target && isText 64 operation.requestId &&
    (operation.kind = .recovery || isNumeral operation.target) &&
    operation.runId.all (isText 200) &&
    (!decide (operation.status = .accepted ∧ operation.kind ∈ [.message, .confirm, .close]) ||
      operation.runId.isSome) &&
    if operation.status = .unknown then
      operation.payload.any fun payload => validPayload operation.kind payload operation.requestId
    else operation.payload.isNone

/-- The time lies within the lifetime of the operation. -/
def PendingOperation.aliveAt (operation : PendingOperation) (now : Rat) : Bool :=
  operation.createdAt.any fun createdAt => decide (createdAt ≤ now ∧ now - createdAt ≤ operationTtl)

def validRecord (operation : PendingOperation) (account : Utf16) (now : Rat) : Bool :=
  decide (operation.account = account) && operation.sound && operation.aliveAt now

/-! ### The text of a list -/

/-- A code unit in four digits of base 16, behind a backslash and a `u`. -/
def hexUnit (unit : UInt16) : Utf16 :=
  let digit (value : Nat) : UInt16 := .ofNat (if value < 10 then 48 + value else 87 + value)
  [92, 117, digit (unit.toNat / 4096), digit (unit.toNat / 256 % 16), digit (unit.toNat / 16 % 16),
    digit (unit.toNat % 16)]

/-- A code unit that is not a surrogate. -/
def escapeUnit (unit : UInt16) : Utf16 :=
  if unit = 34 ∨ unit = 92 then [92, unit]
  else if unit = 8 then [92, 98]
  else if unit = 9 then [92, 116]
  else if unit = 10 then [92, 110]
  else if unit = 12 then [92, 102]
  else if unit = 13 then [92, 114]
  else if unit < 32 then hexUnit unit
  else [unit]

/-- A text in JSON; a surrogate that is not one of a pair is written as a number. -/
def escape : Utf16 → Utf16
  | [] => []
  | [unit] => if isHigh unit || isLow unit then hexUnit unit else escapeUnit unit
  | unit :: next :: rest =>
    if isHigh unit && isLow next then unit :: next :: escape rest
    else
      (if isHigh unit || isLow unit then hexUnit unit else escapeUnit unit) ++ escape (next :: rest)

def quote (text : Utf16) : Utf16 := 34 :: escape text ++ [34]

def joined : List Utf16 → Utf16
  | [] => []
  | [entry] => entry
  | entry :: rest => entry ++ 44 :: joined rest

/-- An object with the names and the values of its fields. -/
def object (fields : List (Utf16 × Utf16)) : Utf16 :=
  123 :: joined (fields.map fun field => quote field.1 ++ 58 :: field.2) ++ [125]

def PayloadKey.name : PayloadKey → Utf16
  | requestId => units "request_id"
  | content => units "content"
  | clientViewId => units "client_view_id"
  | displayReceiptId => units "display_receipt_id"
  | draftId => units "draft_id"
  | draftVersion => units "draft_version"
  | replyToMessageId => units "reply_to_message_id"
  | offerId => units "offer_id"
  | action => units "action"
  | reason => units "reason"
  | comment => units "comment"
  | expectedEffectRevision => units "expected_effect_revision"
  | other name => name

def OperationKind.name : OperationKind → Utf16
  | message => units "message"
  | confirm => units "confirm"
  | close => units "close"
  | recovery => units "recovery"
  | approve => units "approve"
  | reject => units "reject"

def OperationStatus.name : OperationStatus → Utf16
  | unknown => units "unknown"
  | accepted => units "accepted"
  | rejected => units "rejected"
  | blocked => units "blocked"

section

variable (numeral : Rat → Utf16)

/-- A number in JSON; `numeral` is how a finite one is written. -/
def writeNumber : JsNumber → Utf16
  | some value => numeral value
  | none => units "null"

def PayloadValue.write : PayloadValue → Utf16
  | text value => quote value
  | number value => writeNumber numeral value
  | null => units "null"

def PendingOperation.write (operation : PendingOperation) : Utf16 :=
  object
    ([(units "version", writeNumber numeral (some 1)), (units "account", quote operation.account),
        (units "target", quote operation.target), (units "kind", quote operation.kind.name),
        (units "requestId", quote operation.requestId)] ++
      operation.payload.toList.map (fun payload => (units "payload",
        object (payload.entries.map fun entry => (entry.1.name, entry.2.write numeral)))) ++
      [(units "status", quote operation.status.name),
        (units "createdAt", writeNumber numeral operation.createdAt)] ++
      operation.runId.toList.map fun runId => (units "runId", quote runId))

/-- `JSON.stringify` of a list. -/
def stringify (operations : List PendingOperation) : Utf16 :=
  91 :: joined (operations.map (·.write numeral)) ++ [93]

/-! ### The store -/

/-- What is stored for an account. It is the text of the list; read again, the text is the list. -/
abbrev Storage := Utf16 → Option (List PendingOperation)

/-- The records of an account that are valid, each at the time it is looked at, and do not repeat a
request. -/
def validRecords (account : Utf16) (clock : Nat → Rat) :
    Nat → List Utf16 → List PendingOperation → List PendingOperation
  | _, _, [] => []
  | index, seen, record :: rest =>
    if validRecord record account (clock index) ∧ record.requestId ∉ seen then
      record :: validRecords account clock (index + 1) (record.requestId :: seen) rest
    else validRecords account clock (index + 1) seen rest

/-- `read`, without the warning; the clock is looked at once for every record. -/
def read (storage : Storage) (account : Utf16) (clock : Nat → Rat) : List PendingOperation :=
  if wellFormed account then
    match storage account with
    | none => []
    | some stored =>
      if textLimit < (stringify numeral stored).length then []
      else
        let records := validRecords account clock 0 [] stored
        records.drop (records.length - operationLimit)
  else []

def PendingOperation.resolved (operation : PendingOperation) : Bool :=
  decide (operation.status = .accepted ∨ operation.status = .rejected)

/-- Resolved operations make room, the oldest first. -/
def makeRoom : Nat → List PendingOperation → Option (List PendingOperation)
  | 0, next => some next
  | rounds + 1, next =>
    if next.length < operationLimit then some next
    else if next.any PendingOperation.resolved then
      makeRoom rounds (next.eraseP PendingOperation.resolved)
    else none

/-- The list a save writes, if there is room in it. -/
def written (storage : Storage) (operation : PendingOperation) (clock : Nat → Rat) :
    Option (List PendingOperation) :=
  let records := read numeral storage operation.account fun index => clock (index + 1)
  let next := records.filter fun record => record.requestId ≠ operation.requestId
  (makeRoom next.length next).map fun next => next ++ [operation]

/-- What a save raises. -/
inductive SaveFailure where
  | invalid
  | tooMany
  | unavailable
deriving DecidableEq

def SaveFailure.text : SaveFailure → String
  | invalid => "原操作记录无效或已过期；请先核对服务端历史。"
  | tooMany => "待核对操作过多，请先核对原操作。"
  | unavailable => "本地恢复存储不可用，本次未发送。请恢复存储后重试。"

/-- `save`; the storage may refuse the text. -/
def save (storage : Storage) (operation : PendingOperation) (clock : Nat → Rat) (accepts : Bool) :
    Storage × Except SaveFailure Unit :=
  if validRecord operation operation.account (clock 0) then
    match written numeral storage operation clock with
    | none => (storage, .error .tooMany)
    | some next =>
      if wellFormed operation.account && accepts then
        (fun account => if account = operation.account then some next else storage account, .ok ())
      else (storage, .error .unavailable)
  else (storage, .error .invalid)

/-! ### Runs -/

/-- A storage in the course of time; `saved` are the operations whose save returned, newest
first. -/
structure World where
  storage : Storage
  now : Rat
  saved : List PendingOperation

def World.Initial (world : World) : Prop :=
  (∀ account, world.storage account = none) ∧ world.saved = []

/-- The operation that was last saved for a request. -/
def World.lastSaved (world : World) (account request : Utf16) : Option PendingOperation :=
  world.saved.find? fun operation => operation.account = account ∧ operation.requestId = request

/-- A clock that does not go back, from a time on. -/
structure Ticks (start : Rat) (clock : Nat → Rat) : Prop where
  begins : start ≤ clock 0
  forth : ∀ index, clock index ≤ clock (index + 1)

/-- A call, what the clock shows in it and a time that is not before any of this. -/
inductive Event where
  | save (operation : PendingOperation) (clock : Nat → Rat) (accepts : Bool) (done : Rat)
  | read (account : Utf16) (clock : Nat → Rat) (done : Rat)

/-- The world behind a save. -/
def saving (world : World) (operation : PendingOperation) (clock : Nat → Rat) (accepts : Bool)
    (done : Rat) : World :=
  let (storage, outcome) := save numeral world.storage operation clock accepts
  match outcome with
  | .ok () => ⟨storage, done, operation :: world.saved⟩
  | .error _ => ⟨storage, done, world.saved⟩

inductive Step : World → Event → World → Prop
  | save {world : World} {operation : PendingOperation} {clock : Nat → Rat} {accepts : Bool}
      {done : Rat} (ticks : Ticks world.now clock) (ends : ∀ index, clock index ≤ done) :
      Step world (.save operation clock accepts done)
        (saving numeral world operation clock accepts done)
  | read {world : World} {account : Utf16} {clock : Nat → Rat} {done : Rat}
      (ticks : Ticks world.now clock) (ends : ∀ index, clock index ≤ done) :
      Step world (.read account clock done) { world with now := done }

/-- What the client can read of other requests when an operation is saved. -/
def others (storage : Storage) (operation : PendingOperation) (clock : Nat → Rat) :
    List PendingOperation :=
  (read numeral storage operation.account fun index => clock (index + 1)).filter
    fun record => record.requestId ≠ operation.requestId

/-- There is room beside some operations, or one of them makes room. -/
def HasRoom (others : List PendingOperation) : Prop :=
  others.length < operationLimit ∨ others.any PendingOperation.resolved

instance (others : List PendingOperation) : Decidable (HasRoom others) :=
  inferInstanceAs (Decidable (_ ∨ _))

/-- The operations beside which another one is stored. -/
def besides (others : List PendingOperation) : List PendingOperation :=
  if others.length < operationLimit then others else others.eraseP PendingOperation.resolved

/-- If a save stores an operation, then the text of the list is one that is read, or nothing in it
is unresolved. -/
def Event.Fits (world : World) : Event → Prop
  | .save operation clock accepts _ =>
    let rest := others numeral world.storage operation clock
    validRecord operation operation.account (clock 0) → wellFormed operation.account → accepts →
      HasRoom rest →
      (stringify numeral (besides rest ++ [operation])).length ≤ textLimit ∨
        ∀ record ∈ besides rest ++ [operation], record.resolved
  | .read .. => True

end

end Negotiation.Client
