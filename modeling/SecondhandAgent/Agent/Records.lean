/-
This file models the ledger of a conversation as the seller agent reads it: the
numbered records of what was said and done, and the messages that a model is
shown for them. A record of the buyer, of a reply or of a notification carries
its text, a record of a call or of a result carries a message, and the others
are not shown to a model.
-/

import SecondhandAgent.Encoding

namespace Negotiation.Agent

/-! ### Messages -/

/-- A call of a tool; `arguments` is the text of the arguments. A call whose id is missing has the
empty text for it. -/
structure ToolCall where
  id : String
  name : String
  arguments : String
deriving DecidableEq

/-- A message of a model call. -/
inductive Message where
  | system (content : String)
  | human (content : String)
  | ai (content : String) (toolCalls : List ToolCall)
  | tool (content toolCallId name : String)
deriving DecidableEq

/-- The role of `wire_message`. -/
def Message.role : Message → String
  | system _ => "system"
  | human _ => "user"
  | ai _ _ => "assistant"
  | tool _ _ _ => "tool"

/-! ### Records -/

inductive RecordKind where
  | buyerInput
  | publicReply
  | approvalNotification
  | sessionNotification
  | toolCall
  | toolResult
  | modelCandidate
  | runtimeEvent
  | runConfig
  | contextArtifact
deriving DecidableEq

def RecordKind.text : RecordKind → String
  | buyerInput => "BUYER_INPUT"
  | publicReply => "PUBLIC_REPLY"
  | approvalNotification => "APPROVAL_NOTIFICATION"
  | sessionNotification => "SESSION_NOTIFICATION"
  | toolCall => "TOOL_CALL"
  | toolResult => "TOOL_RESULT"
  | modelCandidate => "MODEL_CANDIDATE"
  | runtimeEvent => "RUNTIME_EVENT"
  | runConfig => "RUN_CONFIG"
  | contextArtifact => "CONTEXT_ARTIFACT"

/-- What a record keeps, by its kind. -/
inductive RecordBody where
  | buyerInput (content : String)
  | publicReply (content : String)
  | approvalNotification (content : String)
  | sessionNotification (content : String)
  | toolCall (message : Message)
  | toolResult (message : Message)
  | modelCandidate (message : Message)
  | runtimeEvent
  | runConfig
  | contextArtifact
deriving DecidableEq

def RecordBody.kind : RecordBody → RecordKind
  | buyerInput _ => .buyerInput
  | publicReply _ => .publicReply
  | approvalNotification _ => .approvalNotification
  | sessionNotification _ => .sessionNotification
  | toolCall _ => .toolCall
  | toolResult _ => .toolResult
  | modelCandidate _ => .modelCandidate
  | runtimeEvent => .runtimeEvent
  | runConfig => .runConfig
  | contextArtifact => .contextArtifact

inductive Visibility where
  | internal
  | everyone
deriving DecidableEq

/-- `StreamRecord` -/
structure StreamRecord where
  seq : Int
  body : RecordBody
  visibility : Visibility := .internal
deriving DecidableEq

def StreamRecord.kind (record : StreamRecord) : RecordKind := record.body.kind

/-- `payload.get("content", "")` -/
def StreamRecord.content (record : StreamRecord) : String :=
  match record.body with
  | .buyerInput content | .publicReply content | .approvalNotification content
  | .sessionNotification content => content
  | _ => ""

/-- `record_message` -/
def recordMessage (record : StreamRecord) : Option Message :=
  match record.body with
  | .buyerInput content => some (.human content)
  | .publicReply content | .approvalNotification content | .sessionNotification content =>
    some (.ai content [])
  | .toolCall message | .toolResult message | .modelCandidate message => some message
  | .runtimeEvent | .runConfig | .contextArtifact => none

end Negotiation.Agent
