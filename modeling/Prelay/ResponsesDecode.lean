import Prelay.ChatRequest
import Prelay.JsonText
import Prelay.ResponsesItems

namespace Prelay.Bridge

open Json Recording

def asBool : Value → Option Bool
  | .bool b => some b
  | _ => none

-- the reader of the input that every Responses request goes through, also one that is not bridged
namespace Input

variable (serde : SerdeJson)

def decodeRole (role : String) : InternalRole :=
  if role = "user" then .user
  else if role = "assistant" then .assistant
  else if role = "system" ∨ role = "developer" then .system
  else if role = "tool" then .tool
  else .user

def decodeContentPart (part : Value) : Option InternalContentPart :=
  match (part.get "type").bind Value.asStr with
  | some type =>
    if type = "input_image" then
      let imageUrl := part.get "image_url"
      let fileId := (part.get "file_id").bind Value.asStr
      if imageUrl = none ∧ fileId = none then none
      else some (.image { imageUrl := imageUrl, fileId := fileId, detail := (part.get "detail").bind Value.asStr })
    else if type = "input_text" ∨ type = "text" ∨ type = "output_text" then
      (((part.get "text").or (part.get "content")).bind Value.asStr).map .text
    else if type = "refusal" then ((part.get "refusal").bind Value.asStr).map .text
    else none
  | none => none

def decodeContent (value : Value) : Except AppError (List InternalContentPart) :=
  match value.asStr with
  | some text => .ok [.text text]
  | none => do
    let parts ← okOr value.asArray (invalid "content must be a string or an array of content parts")
    .ok (parts.filterMap decodeContentPart)

def valueToText (value : Value) : String := value.asStr.getD (serde.toStr value)

def decodeMessage (value : Value) : Except AppError InternalMessage := do
  let role ← okOr ((value.get "role").bind Value.asStr) (invalid "message item requires a role")
  let content ← okOr (value.get "content") (invalid "message item requires content")
  let content ← decodeContent content
  .ok { role := decodeRole role, content := content, toolCallId := (value.get "call_id").bind Value.asStr }

def reasoningText (value : Option Value) (expectedType : String) : String :=
  Str.join "\n" ((((value.bind Value.asArray).getD []).filter (fun part =>
    ((part.get "type").bind Value.asStr).all (fun kind => kind = expectedType))).filterMap (fun part =>
      (part.get "text").bind Value.asStr))

def decodeReasoning (value : Value) : Option InternalMessage :=
  let summary := reasoningText (value.get "summary") "summary_text"
  let content := reasoningText (value.get "content") "reasoning_text"
  let reasoning := if summary = "" then content else summary
  if reasoning = "" then none
  else some { role := .assistant, content := [], reasoningContent := some reasoning }

def decodeFunctionCallOutput (value : Value) : Except AppError InternalMessage := do
  let output := (value.get "output").getD .null
  let content ← if output.isNull then .ok [] else decodeContent output
  .ok { role := .tool, content := content, toolCallId := (value.get "call_id").bind Value.asStr }

def decodeFunctionCall (value : Value) : Except AppError InternalMessage := do
  let id := (((value.get "call_id").or (value.get "id")).bind Value.asStr).getD "call_unknown"
  let name ← okOr ((value.get "name").bind Value.asStr) (invalid "function_call item requires a name")
  let arguments := ((value.get "arguments").map (valueToText serde)).getD "\x7b\x7d"
  .ok { role := .assistant, content := [], toolCalls := [{ id := id, name := name, arguments := arguments }] }

def decodeItem (value : Value) : Except AppError (Option InternalMessage) :=
  match itemType value with
  | none => (decodeMessage value).map some
  | some type =>
    if type = "function_call_output" then (decodeFunctionCallOutput value).map some
    else if type = "function_call" then (decodeFunctionCall serde value).map some
    else if type = "reasoning" then .ok (decodeReasoning value)
    else if type = "message" then (decodeMessage value).map some
    else .ok none

def decodeInput (input : Value) : Except AppError (List InternalMessage) :=
  if input.isNull then .ok []
  else match input.asStr with
    | some text => .ok [{ role := .user, content := [.text text] }]
    | none => do
      let items ← okOr input.asArray (AppError.badRequest "input 必须是字符串或消息数组")
      let messages ← items.mapM (decodeItem serde)
      .ok (messages.filterMap id)

end Input

def unsupportedBridgeFeature (feature : String) : AppError :=
  .badRequest ("Responses bridge does not support " ++ feature)

def responsesStructuredOutputRequested (value : Value) : Bool :=
  ((value.pointer ["text", "format", "type"]).bind Value.asStr).any (fun kind => kind ≠ "text") ||
    ((value.pointer ["response_format", "type"]).bind Value.asStr).any (fun kind => kind ≠ "text")

def decodeOptionalBool (value : Option Value) (param : String) (default : Bool) : Except AppError Bool :=
  match value with
  | none | some .null => .ok default
  | some (.bool b) => .ok b
  | some _ => .error (.openaiInvalid param (param ++ " must be a boolean or null"))

def decodePreviousResponseId (value : Option Value) : Except AppError (Option String) :=
  match value with
  | none | some .null => .ok none
  | some (.string id) =>
    if Str.trim id ≠ "" then .ok (some id)
    else .error (.openaiInvalid "previous_response_id" "previous_response_id must not be empty")
  | some _ => .error (.openaiInvalid "previous_response_id" "previous_response_id must be a string or null")

def decodeConversation (value : Option Value) : Except AppError (Option String) :=
  let error := AppError.openaiInvalid "conversation" "conversation must be a string or an object with a non-empty id"
  match value with
  | none | some .null => .ok none
  | some (.string id) => if Str.trim id ≠ "" then .ok (some id) else .error error
  | some (.object members) =>
    okOr ((((Value.object members).get "id").bind Value.asStr).filter (fun id => Str.trim id ≠ "") |>.map some) error
  | some _ => .error error

/-- The function of a tool, which may stand in a member of its own. -/
def toolFunction (tool : Value) : Value := (tool.get "function").getD tool

def decodeTool (tool : Value) : Option InternalTool := do
  let function := toolFunction tool
  let name ← (((function.get "name").or (tool.get "name")).bind Value.asStr).filter (fun name => Str.trim name ≠ "")
  let description := ((function.get "description").or (tool.get "description")).bind Value.asStr
  let inputSchema := ((function.get "parameters").or (function.get "input_schema")).getD
    (.json [("type", .string "object")])
  some { name := name, description := description, inputSchema := inputSchema }

def decodeTools (value : Option Value) : List InternalTool := ((value.bind Value.asArray).getD []).filterMap decodeTool

def decodeResponsesRequest (serde : SerdeJson) (value : Value) : Except AppError InternalRequest := do
  let model ← okOr (((value.get "model").bind Value.asStr).filter (fun model => Str.trim model ≠ ""))
    (AppError.badRequest "model 不能为空")
  let stream ← decodeOptionalBool (value.get "stream") "stream" false
  let previousResponseId ← decodePreviousResponseId (value.get "previous_response_id")
  let conversation ← decodeConversation (value.get "conversation")
  if previousResponseId.isSome ∧ conversation.isSome then
    .error (.openaiInvalid "conversation" "previous_response_id and conversation cannot be used together")
  else if conversation.isSome then
    .error (.openaiUnsupported "conversation" "conversation is not supported yet")
  else
    let maxTokens := (value.get "max_output_tokens").bind asI64
    let store ← decodeOptionalBool (value.get "store") "store" true
    let parallelToolCalls := (value.get "parallel_tool_calls").bind asBool
    let messages ← Input.decodeInput serde ((value.get "input").getD .null)
    .ok {
      model := model
      stream := stream
      maxTokens := maxTokens
      maxCompletionTokens := maxTokens
      previousResponseId := previousResponseId
      instructions := (value.get "instructions").bind Value.asStr
      store := store
      reasoning := value.get "reasoning"
      toolChoice := value.get "tool_choice"
      parallelToolCalls := parallelToolCalls
      text := value.get "text"
      reasoningRequested := (value.get "reasoning").isSome
      toolChoiceRequested := (value.get "tool_choice").isSome
      structuredOutputRequested := responsesStructuredOutputRequested value
      parallelToolCallsRequested := parallelToolCalls.getD false
      streamingUsageRequested := ((value.pointer ["stream_options", "include_usage"]).bind asBool).getD false
      tools := decodeTools (value.get "tools")
      messages := messages }

/-- The parts of a content array of an item; their type is `text` where none is given. -/
def validateParts (allowed : List String) (feature : String) (parts : Option Value) : Except AppError Unit :=
  ((parts.bind Value.asArray).getD []).forM (fun part =>
    let partType := ((part.get "type").bind Value.asStr).getD "text"
    if partType ∈ allowed then .ok () else .error (unsupportedBridgeFeature (feature ++ " `" ++ partType ++ "`")))

def validateItem (item : Value) : Except AppError Unit := do
  if (item.get "phase").any (fun phase => !phase.isNull) then
    .error (unsupportedBridgeFeature "assistant message phase")
  else
    let type := (itemType item).getD "message"
    if type ∉ ["message", "function_call", "function_call_output"] then
      .error (unsupportedBridgeFeature ("input item type `" ++ type ++ "`"))
    else
      validateParts ["input_text", "output_text", "text", "refusal"] "content part type" (item.get "content")
      validateParts ["input_text", "text"] "function output part type" (item.get "output")

def validateTool (tool : Value) : Except AppError Unit :=
  let toolType := ((tool.get "type").bind Value.asStr).getD "function"
  if toolType ≠ "function" then .error (unsupportedBridgeFeature ("tool type `" ++ toolType ++ "`")) else .ok ()

def validateResponsesBridgePayload (value : Value) : Except AppError Unit := do
  if (value.get "instructions").any (fun instructions => !instructions.isNull && !instructions.isString) then
    .error (unsupportedBridgeFeature "instruction items")
  else if (value.get "reasoning").isSome then .error (unsupportedBridgeFeature "reasoning")
  else if responsesStructuredOutputRequested value then .error (unsupportedBridgeFeature "structured output")
  else
    (((value.get "tools").bind Value.asArray).getD []).forM validateTool
    match value.get "input" with
    | none => .ok ()
    | some input => match input.asArray with
      | some items => items.forM validateItem
      | none =>
        if !input.isNull && !input.isString then .error (unsupportedBridgeFeature "non-text input value") else .ok ()

def InternalContentPart.isImage : InternalContentPart → Bool
  | .text _ => false
  | .image _ => true

def validateInternalRequestForBridge (request : InternalRequest) : Except AppError Unit :=
  if request.messages.any (fun message => message.content.any InternalContentPart.isImage) then
    .error (unsupportedBridgeFeature "input images")
  else .ok ()

end Prelay.Bridge
