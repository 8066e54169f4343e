import Prelay.ResponsesItems
import Prelay.SplitAnswer

namespace Prelay.Bridge

open Json Recording ChatToResponses

namespace ChatCall

def Named (call : ChatCall) : Prop := Str.trim call.id ≠ "" ∧ Str.trim call.name ≠ ""

instance (call : ChatCall) : Decidable call.Named := inferInstanceAs (Decidable (_ ∧ _))

end ChatCall

def InternalContentPart.text? : InternalContentPart → Option String
  | .text text => some text
  | .image _ => none

def textOf (messages : List InternalMessage) : String :=
  String.join (messages.flatMap (fun message => message.content.filterMap InternalContentPart.text?))

def callsOf (messages : List InternalMessage) : List ChatCall :=
  messages.flatMap (fun message => message.toolCalls.map (fun call => ⟨call.id, call.name, call.arguments⟩))

/-- Saved items that a later request can go on from: they are read as messages of the assistant with the text and the
calls of the answer. -/
def Continues (items : Value) (content : String) (calls : List ChatCall) : Prop :=
  ∃ messages, decodeItemsForChatBridge (items.asArray.getD []) = .ok messages ∧
    (∀ message ∈ messages, message.role = .assistant) ∧ textOf messages = content ∧ callsOf messages = calls

theorem decode_named {items : List Value} {messages : List InternalMessage}
    (h : decodeItemsForChatBridge items = .ok messages) : ∀ call ∈ callsOf messages, call.Named := by
  intro call hcall
  obtain ⟨message, hmessage, hmem⟩ := List.mem_flatMap.mp hcall
  obtain ⟨toolCall, htool, rfl⟩ := List.mem_map.mp hmem
  have hall := mapM_ok.mp h
  obtain ⟨item, -, hitem⟩ : ∃ item ∈ items, decodeItem item = .ok message := by
    clear h hcall
    induction hall with
    | nil => exact nomatch hmessage
    | cons hhead _ ih =>
      rcases List.mem_cons.mp hmessage with rfl | hmessage
      · exact ⟨_, List.mem_cons_self, hhead⟩
      · obtain ⟨item, hmem, hitem⟩ := ih hmessage
        exact ⟨item, List.mem_cons_of_mem _ hmem, hitem⟩
  rcases decodeItem_ok hitem with ⟨-, -, hdecode⟩ | ⟨-, hdecode⟩ | ⟨-, hdecode⟩
  · rw [(decodeMessage_ok hdecode).2] at htool
    exact nomatch htool
  · obtain ⟨call, rfl, hid, hname⟩ := decodeFunctionCall_ok hdecode
    obtain rfl := List.mem_singleton.mp htool
    exact ⟨stringField_eq_some hid, hname⟩
  · obtain ⟨callId, content, rfl, -⟩ := decodeFunctionCallOutput_ok hdecode
    exact nomatch htool

theorem Continues.named {items : Value} {content : String} {calls : List ChatCall} (h : Continues items content calls) :
    ∀ call ∈ calls, call.Named := by
  obtain ⟨messages, hdecode, -, -, rfl⟩ := h
  exact decode_named hdecode

def callMessage (call : ChatCall) : InternalMessage :=
  { role := .assistant, content := [], toolCalls := [⟨call.id, call.name, call.arguments⟩] }

theorem decode_functionCallItem {call : ChatCall} (h : call.Named) :
    decodeItem (functionCallItem { id := call.id, name := call.name, arguments := call.arguments }) =
      .ok (callMessage call) := by
  obtain ⟨hid, hname⟩ := h
  have htype : itemType (functionCallItem { id := call.id, name := call.name, arguments := call.arguments }) =
      some "function_call" := by
    simp [itemType, functionCallItem, Value.get_json, Value.asStr]
  rw [decodeItem, htype]
  simp [decodeFunctionCall, functionCallId, functionCallItem, Value.get_json, Value.asStr, stringField_string hid,
    stringField_string hname, callMessage, bind, Except.bind]

theorem decode_messageItem (text : String) :
    decodeItem (messageItem text) = .ok { role := .assistant, content := [.text text] } := by
  have htype : itemType (messageItem text) = some "message" := by
    simp [itemType, messageItem, Value.get_json, Value.asStr]
  have hpart : decodeContentPart (.json [
      ("type", .string "output_text"),
      ("text", .string text),
      ("annotations", .array [])]) = .ok (.text text) := by
    simp [decodeContentPart, decodeText, Value.get_json, Value.asStr, bind, Except.bind]
  have hparts : ([.json [
      ("type", .string "output_text"),
      ("text", .string text),
      ("annotations", .array [])]] : List Value).mapM decodeContentPart = .ok [.text text] := by
    rw [mapM_ok]
    exact .cons hpart .nil
  rw [decodeItem, htype]
  simp [decodeMessage, decodeRole, messageItem, Value.get_json, Value.asStr, decodeContent, Value.asArray, bind,
    Except.bind, hparts]

theorem continues_answerItems {content : String} {calls : List ChatCall} (h : ∀ call ∈ calls, call.Named) :
    Continues (.array (answerItems content calls)) content calls := by
  refine ⟨(if content = "" then [] else [{ role := .assistant, content := [.text content] }]) ++ calls.map callMessage,
    mapM_ok.mpr (List.rel_append ?_ ?_), ?_, ?_, ?_⟩
  · split_ifs
    · exact .nil
    · exact .cons (decode_messageItem content) .nil
  · rw [List.forall₂_map_left_iff, List.forall₂_map_right_iff, List.forall₂_same]
    intro call hcall
    exact decode_functionCallItem (h call hcall)
  · intro message hmessage
    rcases List.mem_append.mp hmessage with hmessage | hmessage
    · split_ifs at hmessage
      · exact nomatch hmessage
      · obtain rfl := List.mem_singleton.mp hmessage
        rfl
    · obtain ⟨call, -, rfl⟩ := List.mem_map.mp hmessage
      rfl
  · have hcalls : (calls.map callMessage).flatMap (fun message => message.content.filterMap InternalContentPart.text?) =
        [] := by
      simp [callMessage]
    rw [textOf, List.flatMap_append, hcalls, List.append_nil]
    split_ifs with hcontent
    · exact hcontent.symm
    · simp [InternalContentPart.text?]
  · have hcalls : callsOf (calls.map callMessage) = calls := by
      simp [callsOf, callMessage, List.flatMap_map]
    unfold callsOf at hcalls ⊢
    rw [List.flatMap_append, hcalls]
    split_ifs <;> rfl

section whole

def answerCall (item : Value) : ChatCall where
  id := ((item.get "id").bind Value.asStr).getD ""
  name := (((item.get "function").bind (Value.get "name")).bind Value.asStr).getD ""
  arguments := (((item.get "function").bind (Value.get "arguments")).bind Value.asStr).getD "\x7b\x7d"

/-- The call of a message without `tool_calls`; the old form has no id. -/
def legacyCall (function : Value) : Option ChatCall :=
  ((function.get "name").bind Value.asStr).map (fun name =>
    ⟨"call_legacy", name, ((function.get "arguments").bind Value.asStr).getD "\x7b\x7d"⟩)

def messageCalls (message : Value) : List ChatCall :=
  match (message.get "tool_calls").bind Value.asArray with
  | some items => items.map answerCall
  | none => ((message.get "function_call").bind legacyCall).toList

def answerMessage (value : Value) : Option Value :=
  (((value.get "choices").bind Value.asArray).bind List.head?).bind (Value.get "message")

def answerText (value : Value) : String := ((answerMessage value).map messageText).getD ""

def answerCalls (value : Value) : List ChatCall := ((answerMessage value).map messageCalls).getD []

def savedItems (now : ℤ) (responseId : String) (response : InternalResponse) : Value :=
  ((encodeResponsesResponse now { response with id := responseId }).get "output").getD (.array [])

theorem savedItems_eq (now : ℤ) (responseId : String) (response : InternalResponse) :
    savedItems now responseId response = .array (response.output.map encodeOutputItem) := by
  simp [savedItems, encodeResponsesResponse, Value.get_json]

theorem decodeToolCall_named {item : Value} (h : (answerCall item).Named) (reasoning : Option String) :
    decodeToolCall reasoning item =
      some (.functionToolCall (answerCall item).id (answerCall item).name (answerCall item).arguments reasoning) := by
  obtain ⟨hid, hname⟩ := h
  unfold answerCall at hid hname ⊢
  dsimp only at hid hname
  have htrim : Str.trim "" = "" := by decide
  cases hget : (item.get "id").bind Value.asStr with
  | none =>
    rw [hget] at hid
    exact absurd htrim hid
  | some id =>
    cases hfunction : item.get "function" with
    | none =>
      rw [hfunction] at hname
      exact absurd htrim hname
    | some function =>
      rw [hfunction, Option.bind_some] at hname
      cases hget' : (function.get "name").bind Value.asStr with
      | none =>
        rw [hget'] at hname
        exact absurd htrim hname
      | some name => simp [decodeToolCall, hget, hfunction, hget']

theorem decodeLegacy_eq (function : Value) :
    decodeLegacyFunctionCall function =
      (legacyCall function).map (fun call => .functionToolCall call.id call.name call.arguments none) := by
  unfold decodeLegacyFunctionCall legacyCall
  cases (function.get "name").bind Value.asStr <;> rfl

def messageToolItems (message : Value) : List InternalOutputItem :=
  match (message.get "tool_calls").bind Value.asArray with
  | some toolCalls => toolCalls.filterMap
      (decodeToolCall (((message.get "reasoning_content").bind Value.asStr).filter (fun text => Str.trim text ≠ "")))
  | none => ((message.get "function_call").bind decodeLegacyFunctionCall).toList

def messageTextItems (message : Value) : List InternalOutputItem :=
  if messageText message = "" then [] else [.message "msg_0" .assistant [.text (messageText message)]]

theorem messageOutput_eq (message : Value) :
    messageOutput message = if messageTextItems message ++ messageToolItems message = []
      then [.message "msg_0" .assistant []] else messageTextItems message ++ messageToolItems message := rfl

theorem messageToolItems_named {message : Value} (h : ∀ call ∈ messageCalls message, call.Named) :
    ∃ reasoning, messageToolItems message =
      (messageCalls message).map (fun call => .functionToolCall call.id call.name call.arguments reasoning) := by
  unfold messageCalls at h ⊢
  unfold messageToolItems
  cases hcalls : (message.get "tool_calls").bind Value.asArray with
  | some items =>
    rw [hcalls] at h
    refine ⟨((message.get "reasoning_content").bind Value.asStr).filter (fun text => Str.trim text ≠ ""), ?_⟩
    dsimp only at h ⊢
    rw [List.map_map]
    apply List.filterMap_eq_map_iff_forall_eq_some.mpr
    intro item hitem
    exact decodeToolCall_named (h _ (List.mem_map_of_mem hitem)) _
  | none =>
    refine ⟨none, ?_⟩
    cases message.get "function_call" with
    | none => rfl
    | some function =>
      dsimp only
      rw [Option.bind_some, Option.bind_some, decodeLegacy_eq]
      cases legacyCall function <;> rfl

theorem messageOutput_named {message : Value} (h : ∀ call ∈ messageCalls message, call.Named) :
    (messageOutput message).map encodeOutputItem =
      if messageText message = "" ∧ messageCalls message = [] then [encodeOutputItem (.message "msg_0" .assistant [])]
      else answerItems (messageText message) (messageCalls message) := by
  obtain ⟨reasoning, hcalls⟩ := messageToolItems_named h
  have hempty : messageTextItems message ++ messageToolItems message = [] ↔
      messageText message = "" ∧ messageCalls message = [] := by
    rw [List.append_eq_nil_iff, hcalls, List.map_eq_nil_iff, messageTextItems]
    by_cases htext : messageText message = "" <;> simp [htext]
  rw [messageOutput_eq]
  simp only [hempty]
  split_ifs
  · rfl
  · rw [List.map_append, hcalls, List.map_map, answerItems, messageTextItems]
    congr 1
    split_ifs <;> rfl

theorem continues_whole {value : Value} {response : InternalResponse} (hdecode : decodeChatResponse value = .ok response)
    (h : ∀ call ∈ answerCalls value, call.Named) (now : ℤ) (responseId : String) :
    Continues (savedItems now responseId response) (answerText value) (answerCalls value) := by
  rw [savedItems_eq]
  unfold decodeChatResponse at hdecode
  dsimp only at hdecode
  have hanswer : (((value.get "choices").bind Value.asArray).bind List.head?).bind (Value.get "message") =
      answerMessage value := rfl
  rw [hanswer] at hdecode
  unfold answerCalls answerText at *
  cases hmessage : answerMessage value with
  | some message =>
    rw [hmessage] at hdecode h
    obtain rfl := Except.ok.inj hdecode
    have hnamed : ∀ call ∈ messageCalls message, call.Named := h
    dsimp only
    rw [messageOutput_named hnamed, Option.map_some, Option.map_some, Option.getD_some, Option.getD_some]
    split_ifs with hempty
    · rw [hempty.1, hempty.2]
      exact ⟨[{ role := .assistant, content := [] }], rfl, by simp, rfl, rfl⟩
    · exact continues_answerItems hnamed
  | none =>
    rw [hmessage] at hdecode
    dsimp only at hdecode
    split_ifs at hdecode
    obtain rfl := Except.ok.inj hdecode
    exact ⟨[], rfl, by simp, rfl, rfl⟩

end whole

end Prelay.Bridge
