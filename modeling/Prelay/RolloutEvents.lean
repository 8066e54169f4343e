import Prelay.Json

namespace Prelay.Rollout

open Json

inductive RolloutStatus where
  | writing | completed | failed | partly
  deriving DecidableEq, Repr

def RolloutStatus.asStr : RolloutStatus → String
  | .writing => "writing"
  | .completed => "completed"
  | .failed => "failed"
  | .partly => "partial"

inductive ConversationFormat where
  | v1 | legacy
  deriving DecidableEq, Repr

inductive EventPhase where
  | request | response
  deriving DecidableEq, Repr

def EventPhase.asStr : EventPhase → String
  | .request => "request"
  | .response => "response"

structure ConversationMessage where
  phase : EventPhase
  role : String
  messagePhase : Option String := none
  content : Value
  deriving DecidableEq

structure ConversationReasoning where
  phase : EventPhase
  summary : Option String := none
  content : Option String := none
  deriving DecidableEq

structure ConversationToolCall where
  phase : EventPhase
  toolCallId : String
  name : String
  arguments : Value
  deriving DecidableEq

structure ConversationToolResult where
  phase : EventPhase
  toolCallId : String
  content : Value
  deriving DecidableEq

structure ConversationUsage where
  inputTokens : Option ℤ := none
  outputTokens : Option ℤ := none
  reasoningTokens : Option ℤ := none
  cacheReadTokens : Option ℤ := none
  cacheWriteTokens : Option ℤ := none
  deriving DecidableEq

structure ConversationError where
  code : Option String := none
  message : String
  httpStatus : Option ℕ := none
  deriving DecidableEq

inductive ContentEventBody where
  | message (message : ConversationMessage)
  | reasoning (reasoning : ConversationReasoning)
  | toolCall (toolCall : ConversationToolCall)
  | toolResult (toolResult : ConversationToolResult)
  | usage (usage : ConversationUsage)
  | error (error : ConversationError)
  deriving DecidableEq

structure ContentDraft where
  itemId : Option String := none
  body : ContentEventBody
  deriving DecidableEq

structure WindowEvent where
  windowId : Option String
  generation : ℕ
  deriving DecidableEq

structure TurnEvent where
  turnId : String
  activityId : String
  model : String
  upstreamModel : String
  deriving DecidableEq

structure TurnEndEvent where
  status : RolloutStatus
  httpStatus : Option ℕ := none
  errorCode : Option String := none
  deriving DecidableEq

inductive ControlEventBody where
  | window (window : WindowEvent)
  | turn (turn : TurnEvent)
  | context (refs : List ℕ)
  | turnEnd (turnEnd : TurnEndEvent)
  deriving DecidableEq

structure ConversationEvent where
  seq : ℕ
  time : String
  eventType : String
  payload : Value
  deriving DecidableEq

structure ConversationMeta where
  v : ℕ := 1
  kind : String := "meta"
  threadId : String
  createdAt : String
  deriving DecidableEq

structure SessionContext where
  threadId : String
  windowId : Option String := none
  generation : ℕ := 0
  deriving DecidableEq

structure TurnContext where
  activityId : String
  modelRequested : String
  modelUpstream : String
  deriving DecidableEq

structure RolloutSummary where
  activityId : String
  threadId : String
  windowId : Option String
  generation : ℕ
  relativePath : String
  status : RolloutStatus
  startLine : ℕ
  endLine : ℕ
  eventCount : ℕ
  byteSize : ℕ
  sha256 : String
  deriving DecidableEq

def optionalMember (key : String) (f : α → Value) (a : Option α) : List (String × Value) :=
  a.toList.map (fun a => (key, f a))

def ConversationMessage.members (m : ConversationMessage) : List (String × Value) :=
  [("phase", .string m.phase.asStr), ("role", .string m.role)] ++
    optionalMember "message_phase" .string m.messagePhase ++ [("content", m.content)]

def ConversationReasoning.members (r : ConversationReasoning) : List (String × Value) :=
  [("phase", .string r.phase.asStr)] ++ optionalMember "summary" .string r.summary ++
    optionalMember "content" .string r.content

def ConversationToolCall.members (t : ConversationToolCall) : List (String × Value) :=
  [("phase", .string t.phase.asStr), ("tool_call_id", .string t.toolCallId), ("name", .string t.name),
    ("arguments", t.arguments)]

def ConversationToolResult.members (t : ConversationToolResult) : List (String × Value) :=
  [("phase", .string t.phase.asStr), ("tool_call_id", .string t.toolCallId), ("content", t.content)]

def ConversationUsage.members (u : ConversationUsage) : List (String × Value) :=
  optionalMember "input_tokens" .int u.inputTokens ++
    optionalMember "output_tokens" .int u.outputTokens ++
    optionalMember "reasoning_tokens" .int u.reasoningTokens ++
    optionalMember "cache_read_tokens" .int u.cacheReadTokens ++
    optionalMember "cache_write_tokens" .int u.cacheWriteTokens

def ConversationError.members (e : ConversationError) : List (String × Value) :=
  optionalMember "code" .string e.code ++ [("message", .string e.message)] ++
    optionalMember "http_status" .nat e.httpStatus

def ContentEventBody.eventType : ContentEventBody → String
  | .message _ => "message"
  | .reasoning _ => "reasoning"
  | .toolCall _ => "tool_call"
  | .toolResult _ => "tool_result"
  | .usage _ => "usage"
  | .error _ => "error"

def ContentEventBody.members : ContentEventBody → List (String × Value)
  | .message m => m.members
  | .reasoning r => r.members
  | .toolCall t => t.members
  | .toolResult t => t.members
  | .usage u => u.members
  | .error e => e.members

def WindowEvent.members (w : WindowEvent) : List (String × Value) :=
  optionalMember "window_id" .string w.windowId ++ [("generation", .nat w.generation)]

def TurnEvent.members (t : TurnEvent) : List (String × Value) :=
  [("turn_id", .string t.turnId), ("activity_id", .string t.activityId), ("model", .string t.model),
    ("upstream_model", .string t.upstreamModel)]

def TurnEndEvent.members (t : TurnEndEvent) : List (String × Value) :=
  [("status", .string t.status.asStr)] ++ optionalMember "http_status" .nat t.httpStatus ++
    optionalMember "error_code" .string t.errorCode

def ControlEventBody.eventType : ControlEventBody → String
  | .window _ => "window"
  | .turn _ => "turn"
  | .context _ => "context"
  | .turnEnd _ => "turn_end"

def ControlEventBody.members : ControlEventBody → List (String × Value)
  | .window w => w.members
  | .turn t => t.members
  | .context refs => [("refs", .array (refs.map .nat))]
  | .turnEnd t => t.members

/-- A record as `serde_json::to_value` builds it, tagged with its type. -/
def bodyValue (eventType : String) (members : List (String × Value)) : Value :=
  (Value.object [("type", .string eventType), ("payload", .object members)]).normalize

def ContentEventBody.toValue (body : ContentEventBody) : Value := bodyValue body.eventType body.members

def ControlEventBody.toValue (body : ControlEventBody) : Value := bodyValue body.eventType body.members

theorem get_normalize (key : String) (members : List (String × Value)) :
    (Value.object members).normalize.get key =
      (members.reverse.find? (fun m => m.1 = key)).map (fun m => m.2.normalize) := by
  rw [Value.normalize, Value.get, find_collectMembers, Value.normalizeMembers_eq, ← List.map_reverse,
    List.find?_map, Option.map_map]
  rfl

theorem bodyValue_type (eventType : String) (members : List (String × Value)) :
    (bodyValue eventType members).get "type" = some (.string eventType) := by
  rw [bodyValue, get_normalize]
  simp [Value.normalize]

theorem bodyValue_payload (eventType : String) (members : List (String × Value)) :
    (bodyValue eventType members).get "payload" = some (Value.object members).normalize := by
  rw [bodyValue, get_normalize]
  simp

end Prelay.Rollout
