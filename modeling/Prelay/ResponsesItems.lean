import Prelay.AppError
import Prelay.Fallible
import Prelay.Internal

namespace Prelay.Bridge

open Json Recording

def invalid (message : String) : AppError := .openaiInvalid "input" message

def stringField (value : Option Value) : Option String := (value.bind Value.asStr).filter (fun text => Str.trim text ≠ "")

def decodeText (field message : String) (part : Value) : Except AppError InternalContentPart :=
  okOr (((part.get field).bind Value.asStr).map .text) (invalid message)

def decodeContentPart (part : Value) : Except AppError InternalContentPart := do
  let partType ← okOr ((part.get "type").bind Value.asStr) (invalid "content part requires a type")
  if partType = "input_text" ∨ partType = "output_text" ∨ partType = "text" then
    decodeText "text" (partType ++ " content part requires text") part
  else if partType = "refusal" then decodeText "refusal" "refusal content part requires refusal" part
  else if partType = "input_image" then
    let imageUrl := part.get "image_url"
    let fileId := stringField (part.get "file_id")
    if imageUrl = none ∧ fileId = none then
      .error (invalid "input_image content part requires image_url or file_id")
    else .ok (.image { imageUrl := imageUrl, fileId := fileId, detail := stringField (part.get "detail") })
  else .error (invalid ("content part type `" ++ partType ++ "` cannot be bridged"))

def decodeContent (value : Value) : Except AppError (List InternalContentPart) :=
  match value.asStr with
  | some text => .ok [.text text]
  | none => do
    let parts ← okOr value.asArray (invalid "content must be a string or an array of content parts")
    parts.mapM decodeContentPart

def decodeRole (role : String) : Except AppError InternalRole :=
  if role = "user" then .ok .user
  else if role = "assistant" then .ok .assistant
  else if role = "system" ∨ role = "developer" then .ok .system
  else .error (invalid ("message role `" ++ role ++ "` cannot be bridged"))

def decodeMessage (value : Value) : Except AppError InternalMessage := do
  let role ← okOr ((value.get "role").bind Value.asStr) (invalid "message item requires a role")
  let role ← decodeRole role
  let content ← okOr (value.get "content") (invalid "message item requires content")
  let content ← decodeContent content
  .ok { role := role, content := content }

/-- The id of a `function_call` item: its `call_id`, or its `id` where it has none. -/
def functionCallId (value : Value) : Option String := stringField ((value.get "call_id").or (value.get "id"))

def decodeFunctionCall (value : Value) : Except AppError InternalMessage := do
  let callId ← okOr (functionCallId value) (invalid "function_call item requires a non-empty call_id")
  let name ← okOr (stringField (value.get "name")) (invalid "function_call item requires a non-empty name")
  let arguments ← okOr ((value.get "arguments").bind Value.asStr) (invalid "function_call item requires string arguments")
  .ok { role := .assistant, content := [], toolCalls := [{ id := callId, name := name, arguments := arguments }] }

def decodeFunctionCallOutput (value : Value) : Except AppError InternalMessage := do
  let callId ← okOr (stringField (value.get "call_id"))
    (invalid "function_call_output item requires a non-empty call_id")
  let output ← okOr (value.get "output") (invalid "function_call_output item requires output")
  let content ← decodeContent output
  .ok { role := .tool, content := content, toolCallId := some callId }

def itemType (value : Value) : Option String := (value.get "type").bind Value.asStr

def decodeItem (value : Value) : Except AppError InternalMessage :=
  match itemType value with
  | none => decodeMessage value
  | some type =>
    if type = "function_call" then decodeFunctionCall value
    else if type = "function_call_output" then decodeFunctionCallOutput value
    else if type = "message" then decodeMessage value
    else .error (.openaiUnsupported "input" ("Responses input item type `" ++ type ++ "` cannot be bridged"))

def decodeItemsForChatBridge (items : List Value) : Except AppError (List InternalMessage) := items.mapM decodeItem

theorem stringField_eq_some {value : Option Value} {text : String} (h : stringField value = some text) :
    Str.trim text ≠ "" := by
  obtain ⟨-, htext⟩ := Option.filter_eq_some_iff.mp h
  simpa using htext

theorem stringField_string {text : String} (h : Str.trim text ≠ "") : stringField (some (.string text)) = some text := by
  rw [stringField, Option.bind_some, Value.asStr, Option.filter_some, if_pos (by simpa using h)]

theorem decodeMessage_ok {value : Value} {message : InternalMessage} (h : decodeMessage value = .ok message) :
    message.role ≠ .tool ∧ message.toolCalls = [] := by
  obtain ⟨text, -, h⟩ := bind_ok h
  obtain ⟨role, hrole, h⟩ := bind_ok h
  obtain ⟨content, -, h⟩ := bind_ok h
  obtain ⟨parts, -, h⟩ := bind_ok h
  obtain rfl := Except.ok.inj h
  refine ⟨?_, rfl⟩
  rintro rfl
  unfold decodeRole at hrole
  split_ifs at hrole
  all_goals exact nomatch hrole

theorem decodeFunctionCall_ok {value : Value} {message : InternalMessage} (h : decodeFunctionCall value = .ok message) :
    ∃ call, message = { role := .assistant, content := [], toolCalls := [call] } ∧ functionCallId value = some call.id ∧
      Str.trim call.name ≠ "" := by
  obtain ⟨callId, hid, h⟩ := bind_ok h
  obtain ⟨name, hname, h⟩ := bind_ok h
  obtain ⟨arguments, -, h⟩ := bind_ok h
  exact ⟨_, (Except.ok.inj h).symm, okOr_ok hid, stringField_eq_some (okOr_ok hname)⟩

theorem decodeFunctionCallOutput_ok {value : Value} {message : InternalMessage}
    (h : decodeFunctionCallOutput value = .ok message) :
    ∃ callId content, message = { role := .tool, content := content, toolCallId := some callId } ∧
      stringField (value.get "call_id") = some callId := by
  obtain ⟨callId, hid, h⟩ := bind_ok h
  obtain ⟨output, -, h⟩ := bind_ok h
  obtain ⟨content, -, h⟩ := bind_ok h
  exact ⟨callId, content, (Except.ok.inj h).symm, okOr_ok hid⟩

theorem decodeItem_ok {value : Value} {message : InternalMessage} (h : decodeItem value = .ok message) :
    (itemType value ≠ some "function_call" ∧ itemType value ≠ some "function_call_output" ∧
      decodeMessage value = .ok message) ∨
    (itemType value = some "function_call" ∧ decodeFunctionCall value = .ok message) ∨
    (itemType value = some "function_call_output" ∧ decodeFunctionCallOutput value = .ok message) := by
  unfold decodeItem at h
  cases htype : itemType value with
  | none =>
    rw [htype] at h
    exact Or.inl ⟨by simp, by simp, h⟩
  | some type =>
    rw [htype] at h
    dsimp only at h
    split_ifs at h with hcall houtput hmessage
    · exact Or.inr (Or.inl ⟨by rw [hcall], h⟩)
    · exact Or.inr (Or.inr ⟨by rw [houtput], h⟩)
    · exact Or.inl ⟨by simp [hcall], by simp [houtput], h⟩

end Prelay.Bridge
