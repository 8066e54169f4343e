import Prelay.ToolProtocol
import Prelay.JsonRoundTrip

namespace Prelay.Bridge

open Json Recording

inductive Entry where
  | text (role text : String)
  | call (id name arguments : String)
  | result (id text : String)
  deriving DecidableEq

section chat

def chatText (message : Value) : String := ((message.get "content").bind Value.asStr).getD ""

def callEntry (call : Value) : Option Entry := do
  let id ← (call.get "id").bind Value.asStr
  let function ← call.get "function"
  let name ← (function.get "name").bind Value.asStr
  let arguments ← (function.get "arguments").bind Value.asStr
  some (.call id name arguments)

def chatCalls (message : Value) : List Entry :=
  (((message.get "tool_calls").bind Value.asArray).getD []).filterMap callEntry

/-- The entries of a Chat message. The empty content of a message that only carries tool calls says nothing. -/
def chatEntries (message : Value) : List Entry :=
  let role := (chatRole message).getD ""
  if role = "tool" then [.result ((answeredId message).getD "") (chatText message)]
  else if chatCalls message ≠ [] ∧ chatText message = "" then chatCalls message
  else .text role (chatText message) :: chatCalls message

end chat

section item

def partText (part : Value) : Option String :=
  let partType := (part.get "type").bind Value.asStr
  if partType = some "input_text" ∨ partType = some "output_text" ∨ partType = some "text" then
    (part.get "text").bind Value.asStr
  else if partType = some "refusal" then (part.get "refusal").bind Value.asStr
  else none

def contentText (content : Value) : Option String :=
  content.asStr.or (content.asArray.bind (fun parts => (parts.mapM partText).map (Str.join "\n")))

def entryRole (role : String) : Option String :=
  if role = "developer" then some "system"
  else if role = "user" ∨ role = "assistant" ∨ role = "system" then some role
  else none

def messageEntry (item : Value) : Option Entry := do
  let role ← ((item.get "role").bind Value.asStr).bind entryRole
  let text ← (item.get "content").bind contentText
  some (.text role text)

def functionCallEntry (item : Value) : Option Entry := do
  let id ← functionCallId item
  let name ← (item.get "name").bind Value.asStr
  let arguments ← (item.get "arguments").bind Value.asStr
  some (.call id name arguments)

def functionOutputEntry (item : Value) : Option Entry := do
  let id ← (item.get "call_id").bind Value.asStr
  let text ← (item.get "output").bind contentText
  some (.result id text)

def itemEntry (item : Value) : Option Entry :=
  match itemType item with
  | none => messageEntry item
  | some type =>
    if type = "message" then messageEntry item
    else if type = "function_call" then functionCallEntry item
    else if type = "function_call_output" then functionOutputEntry item
    else none

end item

def bridgeItems (request : InternalRequest) (items : List Value) : Except AppError Value := do
  let messages ← decodeItemsForChatBridge items
  let request := { request with messages := messages }
  validateInternalRequestForBridge request
  .ok (encodeChatRequest request)

theorem stringField_asStr {value : Option Value} {text : String} (h : stringField value = some text) :
    value.bind Value.asStr = some text := (Option.filter_eq_some_iff.mp h).1

section content

theorem decodeText_ok {field message : String} {part : Value} {decoded : InternalContentPart}
    (h : decodeText field message part = .ok decoded) :
    ∃ text, (part.get field).bind Value.asStr = some text ∧ decoded = .text text := by
  obtain ⟨text, htext, hdecoded⟩ := Option.map_eq_some_iff.mp (okOr_ok h)
  exact ⟨text, htext, hdecoded.symm⟩

theorem decodeContentPart_ok {part : Value} {decoded : InternalContentPart}
    (h : decodeContentPart part = .ok decoded) (himage : InternalContentPart.isImage decoded = false) :
    ∃ text, partText part = some text ∧ decoded = .text text := by
  obtain ⟨partType, htype, h⟩ := bind_ok h
  have htype := okOr_ok htype
  unfold partText
  rw [htype]
  simp only [Option.some.injEq]
  split_ifs at h with htext hrefusal
  · rw [if_pos htext]
    exact decodeText_ok h
  · rw [if_neg htext, if_pos hrefusal]
    exact decodeText_ok h
  · dsimp only at h
    split_ifs at h
    obtain rfl := Except.ok.inj h
    exact nomatch himage

theorem decodeParts_ok {parts : List Value} {content : List InternalContentPart}
    (h : List.Forall₂ (fun part decoded => decodeContentPart part = .ok decoded) parts content)
    (himage : ∀ part ∈ content, InternalContentPart.isImage part = false) :
    ∃ texts, parts.mapM partText = some texts ∧ content = texts.map .text := by
  induction h with
  | nil => exact ⟨[], rfl, rfl⟩
  | cons hpart _ ih =>
    rw [List.forall_mem_cons] at himage
    obtain ⟨text, htext, rfl⟩ := decodeContentPart_ok hpart himage.1
    obtain ⟨texts, htexts, rfl⟩ := ih himage.2
    refine ⟨text :: texts, ?_, rfl⟩
    rw [List.mapM_cons, htext, htexts]
    rfl

theorem joinTextContent_text (texts : List String) : joinTextContent (texts.map .text) = Str.join "\n" texts := by
  simp [joinTextContent, List.filterMap_map]

theorem decodeContent_ok {value : Value} {content : List InternalContentPart} (h : decodeContent value = .ok content)
    (himage : ∀ part ∈ content, InternalContentPart.isImage part = false) :
    contentText value = some (joinTextContent content) := by
  unfold decodeContent at h
  unfold contentText
  cases hstr : value.asStr with
  | some text =>
    rw [hstr] at h
    obtain rfl := Except.ok.inj h
    rfl
  | none =>
    rw [hstr] at h
    obtain ⟨parts, hparts, h⟩ := bind_ok h
    obtain ⟨texts, htexts, rfl⟩ := decodeParts_ok (mapM_ok.mp h) himage
    rw [okOr_ok hparts, Option.none_or, Option.bind_some, htexts, joinTextContent_text]
    rfl

end content

section message

variable {item : Value} {message : InternalMessage}

theorem decodeRole_entry {text : String} {role : InternalRole} (h : decodeRole text = .ok role) :
    entryRole text = some (encodeRole role) ∧ encodeRole role ≠ "tool" := by
  unfold decodeRole at h
  unfold entryRole
  split_ifs at h with huser hassistant hsystem
  · obtain rfl := Except.ok.inj h
    subst huser
    decide
  · obtain rfl := Except.ok.inj h
    subst hassistant
    decide
  · obtain rfl := Except.ok.inj h
    obtain rfl | rfl := hsystem
    · decide
    · decide

theorem chatText_encode (message : InternalMessage) :
    chatText (encodeMessage message) = joinTextContent message.content := by
  rw [chatText, (encodeMessage_get message).2.1]
  rfl

theorem callEntry_encode (call : InternalToolCall) :
    callEntry (encodeToolCall call) = some (.call call.id call.name call.arguments) := by
  simp [callEntry, encodeToolCall, Value.get_json, Value.asStr]

theorem chatCalls_encode (message : InternalMessage) :
    chatCalls (encodeMessage message) = message.toolCalls.map (fun call => .call call.id call.name call.arguments) := by
  rw [chatCalls, (encodeMessage_get message).2.2.2]
  split_ifs with hnil
  · rw [hnil]
    rfl
  · simp [Value.asArray, List.filterMap_map, callEntry_encode]

theorem decodeMessage_entry (h : decodeMessage item = .ok message)
    (himage : ∀ part ∈ message.content, InternalContentPart.isImage part = false) :
    ∃ entry, messageEntry item = some entry ∧ chatEntries (encodeMessage message) = [entry] := by
  obtain ⟨text, htext, h⟩ := bind_ok h
  obtain ⟨role, hrole, h⟩ := bind_ok h
  obtain ⟨value, hvalue, h⟩ := bind_ok h
  obtain ⟨content, hcontent, h⟩ := bind_ok h
  obtain rfl := Except.ok.inj h
  obtain ⟨hentry, htool⟩ := decodeRole_entry hrole
  refine ⟨.text (encodeRole role) (joinTextContent content), ?_, ?_⟩
  · rw [messageEntry, okOr_ok htext, Option.bind_some, hentry, okOr_ok hvalue, Option.bind_some,
      decodeContent_ok hcontent himage]
    rfl
  · simp [chatEntries, chatRole_encode, htool, chatCalls_encode, chatText_encode]

theorem decodeFunctionCall_entry (h : decodeFunctionCall item = .ok message) :
    ∃ entry, functionCallEntry item = some entry ∧ chatEntries (encodeMessage message) = [entry] := by
  obtain ⟨id, hid, h⟩ := bind_ok h
  obtain ⟨name, hname, h⟩ := bind_ok h
  obtain ⟨arguments, harguments, h⟩ := bind_ok h
  obtain rfl := Except.ok.inj h
  refine ⟨.call id name arguments, ?_, ?_⟩
  · rw [functionCallEntry, okOr_ok hid, stringField_asStr (okOr_ok hname), okOr_ok harguments]
    rfl
  · simp [chatEntries, chatRole_encode, encodeRole, chatCalls_encode, chatText_encode, joinTextContent, Str.join]

theorem decodeFunctionCallOutput_entry (h : decodeFunctionCallOutput item = .ok message)
    (himage : ∀ part ∈ message.content, InternalContentPart.isImage part = false) :
    ∃ entry, functionOutputEntry item = some entry ∧ chatEntries (encodeMessage message) = [entry] := by
  obtain ⟨id, hid, h⟩ := bind_ok h
  obtain ⟨output, houtput, h⟩ := bind_ok h
  obtain ⟨content, hcontent, h⟩ := bind_ok h
  obtain rfl := Except.ok.inj h
  refine ⟨.result id (joinTextContent content), ?_, ?_⟩
  · rw [functionOutputEntry, stringField_asStr (okOr_ok hid), okOr_ok houtput, Option.bind_some,
      decodeContent_ok hcontent himage]
    rfl
  · simp [chatEntries, chatRole_encode, encodeRole, chatText_encode, answeredId_encode]

theorem decodeItem_entry (h : decodeItem item = .ok message)
    (himage : ∀ part ∈ message.content, InternalContentPart.isImage part = false) :
    ∃ entry, itemEntry item = some entry ∧ chatEntries (encodeMessage message) = [entry] := by
  unfold decodeItem at h
  unfold itemEntry
  cases htype : itemType item with
  | none =>
    rw [htype] at h
    exact decodeMessage_entry h himage
  | some type =>
    rw [htype] at h
    dsimp only at h ⊢
    split_ifs at h with hcall houtput hmessage
    · subst hcall
      exact decodeFunctionCall_entry h
    · subst houtput
      exact decodeFunctionCallOutput_entry h himage
    · rw [if_pos hmessage]
      exact decodeMessage_entry h himage

end message

theorem decodeItems_entries {items : List Value} {messages : List InternalMessage}
    (h : List.Forall₂ (fun item message => decodeItem item = .ok message) items messages)
    (himage : ∀ message ∈ messages, ∀ part ∈ message.content, InternalContentPart.isImage part = false) :
    items.map itemEntry = ((messages.map encodeMessage).flatMap chatEntries).map some := by
  induction h with
  | nil => rfl
  | cons hitem _ ih =>
    rw [List.forall_mem_cons] at himage
    obtain ⟨entry, hentry, hchat⟩ := decodeItem_entry hitem himage.1
    rw [List.map_cons, List.map_cons, List.flatMap_cons, hchat, hentry, ih himage.2]
    rfl

theorem bridgeItems_entries {request : InternalRequest} {items : List Value} {body : Value}
    (h : bridgeItems request items = .ok body) :
    items.map itemEntry = ((chatMessages body).flatMap chatEntries).map some := by
  obtain ⟨messages, hmessages, h⟩ := bind_ok h
  obtain ⟨_, hvalid, h⟩ := bind_ok h
  obtain rfl := Except.ok.inj h
  rw [chatMessages_encode]
  exact decodeItems_entries (mapM_ok.mp hmessages) (validateInternalRequest_ok hvalid)

/-- The bridge neither loses nor invents content, and what it cannot express it rejects. -/
theorem bridge_keeps_content (request : InternalRequest) (items : List Value) :
    (∀ body, bridgeItems request items = .ok body →
      items.map itemEntry = ((chatMessages body).flatMap chatEntries).map some) ∧
    ((∃ item ∈ items, itemEntry item = none) → ∃ error, bridgeItems request items = .error error) := by
  refine ⟨fun body h => bridgeItems_entries h, ?_⟩
  rintro ⟨item, hmem, hnone⟩
  cases h : bridgeItems request items with
  | error e => exact ⟨e, rfl⟩
  | ok body =>
    have hmem := List.mem_map_of_mem (f := itemEntry) hmem
    rw [bridgeItems_entries h, hnone] at hmem
    simp at hmem

theorem bridge_keeps_call :
    ∃ body, bridgeItems plainRequest [helloItem, callItem "call_1", outputItem "call_1"] = .ok body ∧
      [helloItem, callItem "call_1", outputItem "call_1"].map itemEntry =
        ((chatMessages body).flatMap chatEntries).map some :=
  ⟨_, rfl, (bridge_keeps_content _ _).1 _ rfl⟩

end Prelay.Bridge
