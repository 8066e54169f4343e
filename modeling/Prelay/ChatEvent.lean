import Prelay.JsonText
import Prelay.Str
import Prelay.StreamEvents

namespace Prelay.Bridge

open Json

def usageOf (usage : Value) : StreamUsage where
  inputTokens := ((usage.get "prompt_tokens").or (usage.get "input_tokens")).bind Value.asU64
  outputTokens := ((usage.get "completion_tokens").or (usage.get "output_tokens")).bind Value.asU64
  totalTokens := (usage.get "total_tokens").bind Value.asU64
  cacheReadTokens :=
    (((usage.pointer ["prompt_tokens_details", "cached_tokens"]).or
      (usage.pointer ["input_tokens_details", "cached_tokens"])).or
      (usage.get "cache_read_input_tokens")).bind Value.asU64
  cacheWriteTokens :=
    (((usage.pointer ["prompt_tokens_details", "cache_write_tokens"]).or
      (usage.pointer ["input_tokens_details", "cache_write_tokens"])).or
      (usage.get "cache_creation_input_tokens")).bind Value.asU64

def decodeChatToolCallDelta (value : Value) : Option ChatToolCallDelta := do
  let index ← (value.get "index").bind Value.asU64
  let function := value.get "function"
  some {
    index := index
    id := (value.get "id").bind Value.asStr
    name := (function.bind (Value.get "name")).bind Value.asStr
    arguments := (function.bind (Value.get "arguments")).bind Value.asStr }

def finishReasonOf (choice : Value) : Option InternalFinishReason :=
  match choice.get "finish_reason" with
  | some (.string reason) => if reason = "" then none else some (internalFinishReasonFromStr (some reason))
  | _ => none

def choiceEvent (usage : Option StreamUsage) (choice : Value) : ChatSseEvent :=
  let delta := choice.get "delta"
  { textDelta := ((delta.bind (Value.get "content")).bind Value.asStr).or
      ((delta.bind (Value.get "refusal")).bind Value.asStr)
    reasoningDelta := ((delta.bind (Value.get "reasoning_content")).bind Value.asStr).filter (· ≠ "")
    toolCallDeltas := (((delta.bind (Value.get "tool_calls")).bind Value.asArray).getD []).filterMap
      decodeChatToolCallDelta
    finishReason := finishReasonOf choice
    usage := usage }

def decodeChatSseEvent (serde : SerdeJson) (data : String) : Option ChatSseEvent := do
  let value ← serde.fromStr data
  let usage := (value.get "usage").map usageOf
  match ((value.get "choices").bind Value.asArray).bind List.head? with
  | none => usage.map (fun usage => { usage := some usage })
  | some choice => some (choiceEvent usage choice)

/-- The events one `data` payload stands for; a payload that cannot be decoded stands for none. -/
def internalEventsOf (serde : SerdeJson) (data : String) : List InternalStreamEvent :=
  match decodeChatSseEvent serde data with
  | some event => event.toInternalEvents
  | none => []

def isDone (data : String) : Bool := Str.trim data = "[DONE]"

end Prelay.Bridge
