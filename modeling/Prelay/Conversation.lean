import Mathlib.Data.List.Infix
import Prelay.ChatAnswer
import Prelay.JsonSize
import Prelay.Redaction
import Prelay.RolloutEvents
import Prelay.StreamEvents

namespace Prelay.Conversation

open Json Rollout Redaction Bridge

/-- What the recording of a conversation is built on. No JSON text is shorter than the value it stands for. -/
structure ConversationEnv where
  serde : SerdeJson
  shrinks : ∀ text value, serde.fromStr text = some value → value.weight ≤ text.toList.length
  patterns : Patterns

section sanitizing

def omittedMediaTypes : List String :=
  ["audio", "file", "image", "image_url", "input_audio", "input_file", "input_image", "output_audio", "output_file",
    "output_image", "video"]

def omittedMediaKeys : List String :=
  ["audio_data", "b64_json", "base64", "file_data", "image_url", "input_audio", "input_image"]

def secretKeys : List String :=
  ["authorization", "cookie", "set_cookie", "api_key", "endpoint_token", "device_credential", "access_token",
    "refresh_token", "id_token", "client_secret", "private_key", "password"]

def isMediaType (value : String) : Bool := omittedMediaTypes.contains value

def isOmittedMediaKey (key : String) : Bool := omittedMediaKeys.contains key.toLower

def isSecretKey (key : String) : Bool := secretKeys.contains key.toLower

def omittedMedia (partType : String) : Value := .json [("type", .string partType), ("omitted", .bool true)]

def looksLikeBinary (value : String) : Bool :=
  let value := (Str.trimStart value).toList
  (value.take 5).map Char.toLower = "data:".toList ∧ ";base64,".toList <:+: value

def isComposite : Value → Bool
  | .object _ | .array _ => true
  | _ => false

variable (env : ConversationEnv)

def redact (text : String) : String := redactSensitiveText env.patterns text

def sanitizeJson : Value → Value
  | .string text =>
    if looksLikeBinary text then omittedMedia "binary"
    else match _ : env.serde.fromStr text with
      | some parsed => if isComposite parsed then sanitizeJson parsed else .string (redact env text)
      | none => .string (redact env text)
  | .array items => .array (items.attach.map (fun item => sanitizeJson item.1))
  | .object members =>
    match (((Value.object members).get "type").bind Value.asStr).filter isMediaType with
    | some partType => omittedMedia partType
    | none => redactJsonValue env.patterns (.object ((members.attach.filter (fun member => !isSecretKey member.1.1)).map
        (fun member => (member.1.1, if isOmittedMediaKey member.1.1 then omittedMedia "binary"
          else sanitizeJson member.1.2))))
  | v => v
termination_by v => v.weight
decreasing_by
  · next h _ =>
    rw [Value.weight]
    exact Nat.lt_succ_of_le (env.shrinks _ _ h)
  · rw [Value.weight]
    exact Nat.lt_succ_of_le (Value.weight_le_items item.2)
  · rw [Value.weight]
    exact Nat.lt_succ_of_le (Value.weight_le_members member.2)

end sanitizing

section items

variable (env : ConversationEnv)

def contentPart (part : Value) : Option Value :=
  let partType := ((part.get "type").bind Value.asStr).getD "text"
  if isMediaType partType then some (omittedMedia partType)
  else if partType = "refusal" then ((part.get "refusal").bind Value.asStr).map (fun text =>
    .json [("type", .string "refusal"), ("text", .string (redact env text))])
  else if partType = "input_text" ∨ partType = "output_text" ∨ partType = "text" then
    ((part.get "text").bind Value.asStr).map (fun text =>
      .json [("type", .string partType), ("text", .string (redact env text))])
  else none

/-- A single text part that is no refusal stands for its text. -/
def singleText : List Value → Option String
  | [part] => if (part.get "type").bind Value.asStr ≠ some "refusal" then (part.get "text").bind Value.asStr else none
  | _ => none

def messageContent : Value → Option Value
  | .string text => if text = "" then none else some (.string (redact env text))
  | .array parts =>
    let parts := parts.filterMap (contentPart env)
    if parts = [] then none
    else match singleText parts with
      | some text => some (.string text)
      | none => some (.array parts)
  | _ => none

def readable (text : String) : Option String :=
  if Str.trim text = "" then none else some (redact env (Str.trim text))

def readableText : Option Value → Option String
  | some (.string text) => readable env text
  | some (.array parts) => readable env (Str.join "\n" (parts.filterMap (fun part => (part.get "text").bind Value.asStr)))
  | _ => none

def withItemId (draft : ContentDraft) (item : Value) : ContentDraft :=
  match ((item.get "id").bind Value.asStr).filter (fun id => id ≠ "") with
  | some id => { draft with itemId := some id }
  | none => draft

def messageEvent (item : Value) (phase : EventPhase) : Option ContentDraft := do
  let role ← ((item.get "role").bind Value.asStr).map Str.trim
  let messagePhase := if role = "assistant" then
      (((item.get "message_phase").or (item.get "phase")).bind Value.asStr).filter (fun value =>
        value = "commentary" || value = "final_answer")
    else none
  let content ← (item.get "content").bind (messageContent env)
  some (withItemId { body := .message ⟨phase, role, messagePhase, content⟩ } item)

def reasoningEvent (item : Value) (phase : EventPhase) : Option ContentDraft :=
  let summary := readableText env (item.get "summary")
  let content := readableText env (item.get "content")
  if summary = none ∧ content = none then none
  else some (withItemId { body := .reasoning ⟨phase, summary, content⟩ } item)

def toolArgumentsRemainder (item : Value) : Value :=
  match item with
  | .object members => sanitizeJson env (.object (members.filter (fun member =>
      member.1 ∉ ["type", "id", "call_id", "name", "status", "output", "result", "encrypted_content"])))
  | _ => .object []

def callIdOf (item : Value) : String := (((item.get "call_id").or (item.get "id")).bind Value.asStr).getD ""

def toolCallEvent (item : Value) (phase : EventPhase) : Option ContentDraft := do
  let itemType ← (item.get "type").bind Value.asStr
  let name := (((item.get "name").bind Value.asStr).filter (fun value => Str.trim value ≠ "")).getD itemType
  let arguments := (((item.get "arguments").or (item.get "input")).map (sanitizeJson env)).getD
    (toolArgumentsRemainder env item)
  some (withItemId { body := .toolCall ⟨phase, callIdOf item, name, arguments⟩ } item)

def toolResultEvent (item : Value) (phase : EventPhase) : Option ContentDraft :=
  let content := ((((item.get "output").or (item.get "result")).or (item.get "content")).map (sanitizeJson env)).getD
    (.string "")
  some (withItemId { body := .toolResult ⟨phase, callIdOf item, content⟩ } item)

def isToolCallType (itemType : String) : Bool := "_call".toList <:+ itemType.toList

def isToolResultType (itemType : String) : Bool := "_call_output".toList <:+ itemType.toList

def responseItem (item : Value) (phase : EventPhase) : List ContentDraft :=
  let itemType := ((item.get "type").bind Value.asStr).getD ""
  if itemType = "message" ∨ itemType = "" then (messageEvent env item phase).toList
  else if itemType = "reasoning" then (reasoningEvent env item phase).toList
  else if itemType = "configuration_update" ∨ itemType = "item_reference" then []
  else if isToolResultType itemType then (toolResultEvent env item phase).toList
  else if isToolCallType itemType then (toolCallEvent env item phase).toList
  else []

end items

section chat

variable (env : ConversationEnv)

def withRefusal (content : Option Value) (refusal : String) : Value :=
  let refusal := Value.json [("type", .string "refusal"), ("text", .string (redact env refusal))]
  match content with
  | some (.array parts) => .array (parts ++ [refusal])
  | some (.string text) => .array [.json [("type", .string "text"), ("text", .string text)], refusal]
  | some other => other
  | none => .array [refusal]

def chatToolCall (phase : EventPhase) (toolCall : Value) : ContentDraft :=
  { body := .toolCall {
      phase := phase
      toolCallId := ((toolCall.get "id").bind Value.asStr).getD ""
      name := ((toolCall.pointer ["function", "name"]).bind Value.asStr).getD ""
      arguments := ((toolCall.pointer ["function", "arguments"]).map (sanitizeJson env)).getD (.object []) } }

def chatMessage (phase : EventPhase) (message : Value) : List ContentDraft :=
  let content := (message.get "content").bind (messageContent env)
  let content := match (message.get "refusal").bind Value.asStr with
    | some refusal => some (withRefusal env content refusal)
    | none => content
  let said : Option ContentEventBody := content.map (fun content =>
    match (message.get "tool_call_id").bind Value.asStr with
    | some toolCallId => .toolResult ⟨phase, toolCallId, content⟩
    | none => .message ⟨phase, ((message.get "role").bind Value.asStr).getD "user", none, content⟩)
  let reasoning := ((message.get "reasoning_content").bind Value.asStr).bind (readable env)
  said.toList.map (fun body => { body := body }) ++
    reasoning.toList.map (fun text => { body := .reasoning ⟨phase, none, some text⟩ }) ++
    (((message.get "tool_calls").bind Value.asArray).getD []).map (chatToolCall env phase)

def chatRequest (payload : Value) : List ContentDraft :=
  (((payload.get "messages").bind Value.asArray).getD []).flatMap (chatMessage env .request)

def number (usage : Value) (keys : List String) : Option ℤ := keys.findSome? (fun key => (usage.get key).bind asI64)

def numberAt (usage : Value) (pointers : List (List String)) : Option ℤ :=
  pointers.findSome? (fun pointer => (usage.pointer pointer).bind asI64)

def usageEvent (usage : Option Value) : Option ContentDraft := do
  let usage ← usage
  let event : ConversationUsage := {
    inputTokens := number usage ["input_tokens", "prompt_tokens"]
    outputTokens := number usage ["output_tokens", "completion_tokens"]
    reasoningTokens := numberAt usage [["output_tokens_details", "reasoning_tokens"],
      ["completion_tokens_details", "reasoning_tokens"], ["reasoning_tokens"]]
    cacheReadTokens := numberAt usage [["input_tokens_details", "cached_tokens"],
      ["prompt_tokens_details", "cached_tokens"], ["cache_read_input_tokens"]]
    cacheWriteTokens := numberAt usage [["input_tokens_details", "cache_write_tokens"],
      ["prompt_tokens_details", "cache_write_tokens"], ["cache_creation_input_tokens"]] }
  if event = {} then none else some { body := .usage event }

def chatResponse (payload : Value) : List ContentDraft :=
  (((payload.get "choices").bind Value.asArray).getD []).flatMap (fun choice =>
    ((choice.get "message").map (chatMessage env .response)).getD []) ++ (usageEvent (payload.get "usage")).toList

end chat

section snapshot

variable (env : ConversationEnv)

def ContentEventBody.isMessage : ContentEventBody → Bool
  | .message _ => true
  | _ => false

def ContentEventBody.isReasoning : ContentEventBody → Bool
  | .reasoning _ => true
  | _ => false

def toolCallIdOf : ContentEventBody → Option String
  | .toolCall toolCall => some toolCall.toolCallId
  | _ => none

def newToolCalls : List String → List (String × String × String) → List ContentDraft
  | _, [] => []
  | seen, (id, name, arguments) :: calls =>
    if id ∈ seen then newToolCalls seen calls
    else { body := .toolCall ⟨.response, id, name, .string arguments⟩ } :: newToolCalls (id :: seen) calls

def streamSnapshot (snapshot : StreamStatsSnapshot) : List ContentDraft :=
  let events := snapshot.responseOutputItems.flatMap (fun item => responseItem env item .response)
  let hasMessage := events.any (fun event => ContentEventBody.isMessage event.body)
  let hasReasoning := events.any (fun event => ContentEventBody.isReasoning event.body)
  let toolCallIds := events.filterMap (fun event => toolCallIdOf event.body)
  let message := if !hasMessage ∧ snapshot.outputText ≠ "" then
      [{ body := .message ⟨.response, "assistant", none, .string (redact env snapshot.outputText)⟩ }]
    else []
  let reasoning := if !hasReasoning ∧ snapshot.reasoningText ≠ "" then
      [{ body := .reasoning ⟨.response, none, some (redact env snapshot.reasoningText)⟩ }]
    else []
  let usage := if snapshot.inputTokens.isSome ∨ snapshot.outputTokens.isSome ∨ snapshot.cacheReadTokens.isSome ∨
      snapshot.cacheWriteTokens.isSome then
      [{ body := .usage {
        inputTokens := snapshot.inputTokens.map Int.ofNat
        outputTokens := snapshot.outputTokens.map Int.ofNat
        cacheReadTokens := snapshot.cacheReadTokens.map Int.ofNat
        cacheWriteTokens := snapshot.cacheWriteTokens.map Int.ofNat } }]
    else []
  events ++ message ++ reasoning ++ newToolCalls toolCallIds snapshot.capturedToolCalls ++ usage

end snapshot

end Prelay.Conversation
