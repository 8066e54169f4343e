import Prelay.AppError
import Prelay.Internal
import Prelay.Str

namespace Prelay.Bridge

open Json Recording

def asI64 : Value → Option ℤ
  | .number (.posInt n) => if n < 2 ^ 63 then some n else none
  | .number (.negInt n) => if n < 2 ^ 63 then some (-(n + 1)) else none
  | _ => none

def decodeUsage (value : Option Value) : Option InternalUsage := value.map (fun usage => {
  inputTokens := ((usage.get "input_tokens").or (usage.get "prompt_tokens")).bind asI64
  outputTokens := ((usage.get "output_tokens").or (usage.get "completion_tokens")).bind asI64
  reasoningTokens := ((usage.pointer ["output_tokens_details", "reasoning_tokens"]).or
    (usage.pointer ["completion_tokens_details", "reasoning_tokens"])).bind asI64
  cacheReadTokens := (((usage.pointer ["input_tokens_details", "cached_tokens"]).or
    (usage.pointer ["prompt_tokens_details", "cached_tokens"])).or
    (usage.get "cache_read_input_tokens")).bind asI64
  cacheWriteTokens := (((usage.pointer ["input_tokens_details", "cache_write_tokens"]).or
    (usage.pointer ["prompt_tokens_details", "cache_write_tokens"])).or
    (usage.get "cache_creation_input_tokens")).bind asI64 })

def messageText (message : Value) : String :=
  match (message.get "content").bind Value.asStr with
  | some text => text
  | none =>
    match (message.get "refusal").bind Value.asStr with
    | some text => text
    | none => String.join ((((message.get "content").bind Value.asArray).getD []).filterMap (fun part =>
        ((part.get "text").or (part.get "refusal")).bind Value.asStr))

def decodeLegacyFunctionCall (value : Value) : Option InternalOutputItem := do
  let name ← (value.get "name").bind Value.asStr
  some (.functionToolCall "call_legacy" name (((value.get "arguments").bind Value.asStr).getD "\x7b\x7d") none)

def decodeToolCall (reasoningContent : Option String) (value : Value) : Option InternalOutputItem := do
  let id ← (value.get "id").bind Value.asStr
  let function ← value.get "function"
  let name ← (function.get "name").bind Value.asStr
  some (.functionToolCall id name (((function.get "arguments").bind Value.asStr).getD "\x7b\x7d") reasoningContent)

/-- The items of an assistant message; an empty message stands for an answer without any. -/
def messageOutput (message : Value) : List InternalOutputItem :=
  let reasoningContent := ((message.get "reasoning_content").bind Value.asStr).filter (fun text => Str.trim text ≠ "")
  let content := messageText message
  let text := if content = "" then [] else [InternalOutputItem.message "msg_0" .assistant [.text content]]
  let calls := match (message.get "tool_calls").bind Value.asArray with
    | some toolCalls => toolCalls.filterMap (decodeToolCall reasoningContent)
    | none => ((message.get "function_call").bind decodeLegacyFunctionCall).toList
  if text ++ calls = [] then [.message "msg_0" .assistant []] else text ++ calls

def decodeChatResponse (value : Value) : Except AppError InternalResponse :=
  let id := ((value.get "id").bind Value.asStr).getD "chatcmpl_unknown"
  let model := ((value.get "model").bind Value.asStr).getD "unknown"
  let choices := (value.get "choices").bind Value.asArray
  match (choices.bind List.head?).bind (Value.get "message") with
  | some message => .ok ⟨id, model, messageOutput message, decodeUsage (value.get "usage")⟩
  | none =>
    if choices = some [] then .ok ⟨id, model, [], decodeUsage (value.get "usage")⟩
    else .error (.upstreamInvalidResponse "上游响应格式无效")

def encodeRole : InternalRole → String
  | .user => "user"
  | .assistant => "assistant"
  | .system => "system"
  | .tool => "tool"

def encodeContentPart : InternalContentPart → Option Value
  | .text text => some (.json [
      ("type", .string "output_text"),
      ("text", .string text),
      ("annotations", .array [])])
  | .image _ => none

def encodeOutputItem : InternalOutputItem → Value
  | .message id role content => .json [
      ("type", .string "message"),
      ("id", .string id),
      ("status", .string "completed"),
      ("role", .string (encodeRole role)),
      ("content", .array (content.filterMap encodeContentPart))]
  | .functionToolCall id name arguments _ => .json [
      ("type", .string "function_call"),
      ("id", .string id),
      ("call_id", .string id),
      ("name", .string name),
      ("arguments", .string arguments),
      ("status", .string "completed")]

def encodeUsage (usage : InternalUsage) : Value :=
  .json [
    ("input_tokens", .ofOption .int usage.inputTokens),
    ("output_tokens", .ofOption .int usage.outputTokens),
    ("total_tokens", .int (Int.bmod (usage.inputTokens.getD 0 + usage.outputTokens.getD 0) (2 ^ 64))),
    ("input_tokens_details", .json [
      ("cached_tokens", .int (usage.cacheReadTokens.getD 0)),
      ("cache_write_tokens", .int (usage.cacheWriteTokens.getD 0))]),
    ("output_tokens_details", .json [
      ("reasoning_tokens", .ofOption .int usage.reasoningTokens)])]

def encodeResponsesResponse (now : ℤ) (response : InternalResponse) : Value :=
  .json [
    ("id", .string response.id),
    ("object", .string "response"),
    ("created_at", .int now),
    ("status", .string "completed"),
    ("model", .string response.model),
    ("output", .array (response.output.map encodeOutputItem)),
    ("usage", .ofOption encodeUsage response.usage)]

def outputArray (response : Value) : Option (List Value) := (response.get "output").bind Value.asArray

theorem outputArray_encode (now : ℤ) (response : InternalResponse) :
    outputArray (encodeResponsesResponse now response) = some (response.output.map encodeOutputItem) := by
  simp [outputArray, encodeResponsesResponse, Value.get_json, Value.asArray]

end Prelay.Bridge
