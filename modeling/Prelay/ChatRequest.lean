import Prelay.ChatAnswer

namespace Prelay.Bridge

open Json Recording

structure InternalTool where
  name : String
  description : Option String
  inputSchema : Value
  deriving DecidableEq

structure InternalRequest where
  model : String
  stream : Bool
  maxTokens : Option ℤ
  maxCompletionTokens : Option ℤ
  previousResponseId : Option String
  instructions : Option String
  store : Bool
  reasoning : Option Value
  toolChoice : Option Value
  parallelToolCalls : Option Bool
  text : Option Value
  reasoningRequested : Bool
  toolChoiceRequested : Bool
  structuredOutputRequested : Bool
  parallelToolCallsRequested : Bool
  streamingUsageRequested : Bool
  tools : List InternalTool
  messages : List InternalMessage
  deriving DecidableEq

def setMember (key : String) (member : Value) : Value → Value
  | .object members => .object (insertMember key member members)
  | value => value

def setOptional {α : Type} (key : String) (f : α → Value) (member : Option α) (value : Value) : Value :=
  member.elim value (fun a => setMember key (f a) value)

def joinTextContent (content : List InternalContentPart) : String :=
  Str.join "\n" (content.filterMap (fun part => match part with
    | .text text => some text
    | .image _ => none))

def encodeToolCall (toolCall : InternalToolCall) : Value :=
  .json [
    ("id", .string toolCall.id),
    ("type", .string "function"),
    ("function", .json [
      ("name", .string toolCall.name),
      ("arguments", .string toolCall.arguments)])]

def encodeMessage (message : InternalMessage) : Value :=
  let value := Value.json [
    ("role", .string (encodeRole message.role)),
    ("content", .string (joinTextContent message.content))]
  let value := if message.role = .tool then setOptional "tool_call_id" .string message.toolCallId value else value
  if message.toolCalls = [] then value
  else
    let value := setMember "tool_calls" (.array (message.toolCalls.map encodeToolCall)) value
    if message.role = .assistant then setOptional "reasoning_content" .string message.reasoningContent value else value

def encodeTool (tool : InternalTool) : Value :=
  .json [
    ("type", .string "function"),
    ("function", setOptional "description" .string tool.description (.json [
      ("name", .string tool.name),
      ("parameters", tool.inputSchema)]))]

def normalizeToolChoice (value : Value) : Value :=
  if (value.get "type").bind Value.asStr = some "function" ∧ ((value.get "name").bind Value.asStr).isSome ∧
      value.get "function" = none then
    .json [
      ("type", .string "function"),
      ("function", .json [("name", (value.get "name").getD .null)])]
  else value

def encodeChatRequest (request : InternalRequest) : Value :=
  let value := Value.json [
    ("model", .string request.model),
    ("stream", .bool request.stream),
    ("messages", .array (request.messages.map encodeMessage))]
  let value := match request.maxCompletionTokens with
    | some tokens => setMember "max_completion_tokens" (.int tokens) value
    | none => setOptional "max_tokens" .int request.maxTokens value
  let value := setOptional "tool_choice" normalizeToolChoice request.toolChoice value
  let value := setOptional "parallel_tool_calls" .bool request.parallelToolCalls value
  if request.tools = [] then value else setMember "tools" (.array (request.tools.map encodeTool)) value

def chatMessages (body : Value) : List Value := ((body.get "messages").bind Value.asArray).getD []

def chatTools (body : Value) : List Value := ((body.get "tools").bind Value.asArray).getD []

theorem get_setMember_same (key : String) (member : Value) {value : Value} (h : ∃ members, value = .object members) :
    (setMember key member value).get key = some member := by
  obtain ⟨members, rfl⟩ := h
  simp [setMember, Value.get, find_insertMember]

theorem get_setMember_ne {key other : String} (member value : Value) (h : key ≠ other) :
    (setMember key member value).get other = value.get other := by
  cases value with
  | object members => simp [setMember, Value.get, find_insertMember, h]
  | _ => rfl

theorem setMember_object (key : String) (member : Value) {value : Value} (h : ∃ members, value = .object members) :
    ∃ members, setMember key member value = .object members := by
  obtain ⟨members, rfl⟩ := h
  exact ⟨_, rfl⟩

theorem get_setOptional_same {α : Type} (key : String) (f : α → Value) (member : Option α) {value : Value}
    (h : ∃ members, value = .object members) :
    (setOptional key f member value).get key = (member.map f).or (value.get key) := by
  cases member with
  | none => rfl
  | some a => exact get_setMember_same key (f a) h

theorem get_setOptional_ne {α : Type} {key other : String} (f : α → Value) (member : Option α) (value : Value)
    (h : key ≠ other) : (setOptional key f member value).get other = value.get other := by
  cases member with
  | none => rfl
  | some a => exact get_setMember_ne (f a) value h

theorem setOptional_object {α : Type} (key : String) (f : α → Value) (member : Option α) {value : Value}
    (h : ∃ members, value = .object members) : ∃ members, setOptional key f member value = .object members := by
  cases member with
  | none => exact h
  | some a => exact setMember_object key (f a) h

theorem json_object (members : List (String × Value)) : ∃ ms, Value.json members = .object ms := ⟨_, rfl⟩

theorem encodeChatRequest_get (request : InternalRequest) :
    (encodeChatRequest request).get "messages" = some (.array (request.messages.map encodeMessage)) ∧
      (encodeChatRequest request).get "tools" =
        if request.tools = [] then none else some (.array (request.tools.map encodeTool)) := by
  have hbase : ∀ key : String, key ≠ "max_completion_tokens" → key ≠ "max_tokens" → key ≠ "tool_choice" →
      key ≠ "parallel_tool_calls" → ∃ value, (∃ members, value = Value.object members) ∧
        value.get key = (Value.json [
          ("model", .string request.model),
          ("stream", .bool request.stream),
          ("messages", .array (request.messages.map encodeMessage))]).get key ∧
        encodeChatRequest request = if request.tools = [] then value
          else setMember "tools" (.array (request.tools.map encodeTool)) value := by
    intro key hmax htokens hchoice hparallel
    refine ⟨_, ?_, ?_, rfl⟩
    · apply setOptional_object
      apply setOptional_object
      split
      · exact setMember_object _ _ (json_object _)
      · exact setOptional_object _ _ _ (json_object _)
    · rw [get_setOptional_ne _ _ _ hparallel.symm, get_setOptional_ne _ _ _ hchoice.symm]
      split
      · exact get_setMember_ne _ _ hmax.symm
      · exact get_setOptional_ne _ _ _ htokens.symm
  constructor
  · obtain ⟨value, -, hget, hbody⟩ := hbase "messages" (by decide) (by decide) (by decide) (by decide)
    rw [hbody]
    split_ifs
    · rw [hget]
      simp [Value.get_json]
    · rw [get_setMember_ne _ _ (by decide), hget]
      simp [Value.get_json]
  · obtain ⟨value, hobject, hget, hbody⟩ := hbase "tools" (by decide) (by decide) (by decide) (by decide)
    rw [hbody]
    split_ifs
    · rw [hget]
      simp [Value.get_json]
    · exact get_setMember_same _ _ hobject

theorem chatMessages_encode (request : InternalRequest) :
    chatMessages (encodeChatRequest request) = request.messages.map encodeMessage := by
  rw [chatMessages, (encodeChatRequest_get request).1]
  rfl

theorem chatTools_encode (request : InternalRequest) :
    chatTools (encodeChatRequest request) = request.tools.map encodeTool := by
  rw [chatTools, (encodeChatRequest_get request).2]
  split_ifs with hnil
  · rw [hnil]
    rfl
  · rfl

def messageHead (message : InternalMessage) : Value :=
  if message.role = .tool then setOptional "tool_call_id" .string message.toolCallId (.json [
    ("role", .string (encodeRole message.role)),
    ("content", .string (joinTextContent message.content))])
  else .json [
    ("role", .string (encodeRole message.role)),
    ("content", .string (joinTextContent message.content))]

theorem messageHead_get (message : InternalMessage) :
    (∃ members, messageHead message = .object members) ∧
    (messageHead message).get "role" = some (.string (encodeRole message.role)) ∧
    (messageHead message).get "content" = some (.string (joinTextContent message.content)) ∧
    (messageHead message).get "tool_call_id" = (if message.role = .tool then message.toolCallId.map .string else none) ∧
    (messageHead message).get "tool_calls" = none := by
  unfold messageHead
  split_ifs
  · refine ⟨setOptional_object _ _ _ (json_object _), ?_⟩
    rw [get_setOptional_ne _ _ _ (by decide), get_setOptional_ne _ _ _ (by decide),
      get_setOptional_same _ _ _ (json_object _), get_setOptional_ne _ _ _ (by decide)]
    simp [Value.get_json]
  · refine ⟨json_object _, ?_⟩
    simp [Value.get_json]

theorem encodeMessage_eq (message : InternalMessage) :
    encodeMessage message = if message.toolCalls = [] then messageHead message
      else if message.role = .assistant then
        setOptional "reasoning_content" .string message.reasoningContent
          (setMember "tool_calls" (.array (message.toolCalls.map encodeToolCall)) (messageHead message))
      else setMember "tool_calls" (.array (message.toolCalls.map encodeToolCall)) (messageHead message) := rfl

theorem encodeMessage_other (message : InternalMessage) {key : String} (hcalls : key ≠ "tool_calls")
    (hreasoning : key ≠ "reasoning_content") : (encodeMessage message).get key = (messageHead message).get key := by
  rw [encodeMessage_eq]
  split_ifs
  · rfl
  · rw [get_setOptional_ne _ _ _ hreasoning.symm, get_setMember_ne _ _ hcalls.symm]
  · rw [get_setMember_ne _ _ hcalls.symm]

theorem encodeMessage_get (message : InternalMessage) :
    (encodeMessage message).get "role" = some (.string (encodeRole message.role)) ∧
    (encodeMessage message).get "content" = some (.string (joinTextContent message.content)) ∧
    (encodeMessage message).get "tool_call_id" =
      (if message.role = .tool then message.toolCallId.map .string else none) ∧
    (encodeMessage message).get "tool_calls" =
      if message.toolCalls = [] then none else some (.array (message.toolCalls.map encodeToolCall)) := by
  obtain ⟨hobject, hrole, hcontent, hid, hcalls⟩ := messageHead_get message
  refine ⟨?_, ?_, ?_, ?_⟩
  · rw [encodeMessage_other message (by decide) (by decide), hrole]
  · rw [encodeMessage_other message (by decide) (by decide), hcontent]
  · rw [encodeMessage_other message (by decide) (by decide), hid]
  · rw [encodeMessage_eq]
    split_ifs
    · exact hcalls
    · rw [get_setOptional_ne _ _ _ (by decide), get_setMember_same _ _ hobject]
    · exact get_setMember_same _ _ hobject

end Prelay.Bridge
