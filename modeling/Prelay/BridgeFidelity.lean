import Prelay.ToolProtocol
import Prelay.JsonRoundTrip

namespace Prelay.Bridge

open Json Recording

section instructions

def KeepsInstructions (payload : Value) (items : List Value) (body : Value) : Prop :=
  ∀ text, payload.get "instructions" = some (.string text) → text ≠ "" →
    ∃ before messages, decodeItemsForChatBridge items = .ok messages ∧
      chatMessages body = before ++ messages.map encodeMessage ∧
      ∃ message ∈ before, chatRole message = some "system" ∧ message.get "content" = some (.string text)

def payloadTools (payload : Value) : List Value := ((payload.get "tools").bind Value.asArray).getD []

def toolName (tool : Value) : Option Value := ((toolFunction tool).get "name").or (tool.get "name")

def toolDescription (tool : Value) : Option String :=
  (((toolFunction tool).get "description").or (tool.get "description")).bind Value.asStr

def toolParameters (tool : Value) : Value :=
  (((toolFunction tool).get "parameters").or ((toolFunction tool).get "input_schema")).getD
    (.json [("type", .string "object")])

def SameFunction (tool chatTool : Value) : Prop :=
  chatTool.get "type" = some (.string "function") ∧ ∃ function, chatTool.get "function" = some function ∧
    function.get "name" = toolName tool ∧ (function.get "description").bind Value.asStr = toolDescription tool ∧
    function.get "parameters" = some (toolParameters tool)

def KeepsTools (payload body : Value) : Prop := List.Forall₂ SameFunction (payloadTools payload) (chatTools body)

def NamedTool (tool : Value) : Prop := ∃ name, toolName tool = some (.string name) ∧ Str.trim name ≠ ""

theorem decodeTool_eq (tool : Value) :
    decodeTool tool = (stringField (toolName tool)).bind (fun name =>
      some { name := name, description := toolDescription tool, inputSchema := toolParameters tool }) := rfl

theorem decodeTool_named {tool : Value} : (decodeTool tool).isSome ↔ NamedTool tool := by
  constructor
  · intro h
    obtain ⟨decoded, hdecoded⟩ := Option.isSome_iff_exists.mp h
    rw [decodeTool_eq] at hdecoded
    obtain ⟨name, hname, -⟩ := Option.bind_eq_some_iff.mp hdecoded
    obtain ⟨hbind, htrim⟩ := Option.filter_eq_some_iff.mp hname
    obtain ⟨value, hvalue, hstr⟩ := Option.bind_eq_some_iff.mp hbind
    cases value with
    | string text =>
      obtain rfl := Option.some.inj hstr
      exact ⟨text, hvalue, of_decide_eq_true htrim⟩
    | _ => exact nomatch hstr
  · rintro ⟨name, hname, htrim⟩
    rw [decodeTool_eq, hname, stringField_string htrim]
    rfl

theorem decodeTool_same {tool : Value} {decoded : InternalTool} (h : decodeTool tool = some decoded) :
    SameFunction tool (encodeTool decoded) := by
  obtain ⟨name, hname, htrim⟩ := decodeTool_named.mp (by rw [h]; rfl)
  rw [decodeTool_eq, hname, stringField_string htrim] at h
  obtain rfl := Option.some.inj h
  have hobject := json_object [("name", .string name), ("parameters", toolParameters tool)]
  refine ⟨by simp [encodeTool, Value.get_json], _, by simp [encodeTool, Value.get_json]; rfl, ?_, ?_, ?_⟩
  · rw [get_setOptional_ne _ _ _ (by decide), hname]
    simp [Value.get_json]
  · rw [get_setOptional_same _ _ _ hobject]
    cases toolDescription tool <;> simp [Value.get_json, Value.asStr]
  · rw [get_setOptional_ne _ _ _ (by decide)]
    simp [Value.get_json]

theorem keepsTools_iff (tools : List Value) :
    List.Forall₂ SameFunction tools ((tools.filterMap decodeTool).map encodeTool) ↔ ∀ tool ∈ tools, NamedTool tool := by
  constructor
  · intro h
    have hlength := h.length_eq
    rw [List.length_map] at hlength
    intro tool htool
    exact decodeTool_named.mp (List.filterMap_length_eq_length.mp hlength.symm tool htool)
  · intro h
    induction tools with
    | nil => exact .nil
    | cons tool tools ih =>
      obtain ⟨decoded, hdecoded⟩ := Option.isSome_iff_exists.mp (decodeTool_named.mpr (h tool List.mem_cons_self))
      rw [List.filterMap_cons_some hdecoded, List.map_cons]
      exact .cons (decodeTool_same hdecoded) (ih (fun t ht => h t (List.mem_cons_of_mem _ ht)))

theorem decodeResponsesRequest_tools {serde : SerdeJson} {payload : Value} {request : InternalRequest}
    (h : decodeResponsesRequest serde payload = .ok request) :
    request.tools = (payloadTools payload).filterMap decodeTool := by
  obtain ⟨model, -, h⟩ := bind_ok h
  obtain ⟨stream, -, h⟩ := bind_ok h
  obtain ⟨previous, -, h⟩ := bind_ok h
  obtain ⟨conversation, -, h⟩ := bind_ok h
  split_ifs at h
  obtain ⟨store, -, h⟩ := bind_ok h
  obtain ⟨messages, -, h⟩ := bind_ok h
  obtain rfl := Except.ok.inj h
  rfl

/-- A bridged request keeps instructions and tools exactly when there are no instructions and every tool has a name. -/
theorem bridge_keeps_iff {serde : SerdeJson} {payload body : Value} {request : InternalRequest}
    {parentState : Option ResponseState} {modelUpstream : String} {items : List Value}
    (hrequest : decodeResponsesRequest serde payload = .ok request) (hitems : inputItems payload parentState = .ok items)
    (hbody : chatRequest payload request parentState modelUpstream = .ok body) :
    (KeepsInstructions payload items body ∧ KeepsTools payload body) ↔
      (∀ text, payload.get "instructions" = some (.string text) → text = "") ∧
        ∀ tool ∈ payloadTools payload, NamedTool tool := by
  obtain ⟨items', messages, hitems', hmessages, -, hchat, htools⟩ := chatRequest_ok hbody
  obtain rfl := Except.ok.inj (hitems.symm.trans hitems')
  have hkept : KeepsTools payload body ↔ ∀ tool ∈ payloadTools payload, NamedTool tool := by
    rw [KeepsTools, htools, decodeResponsesRequest_tools hrequest]
    exact keepsTools_iff _
  rw [hkept]
  refine and_congr_left (fun _ => ?_)
  constructor
  · intro h text htext
    by_contra hne
    obtain ⟨before, messages', hmessages', hbefore, message, hmem, -⟩ := h text htext hne
    obtain rfl := Except.ok.inj (hmessages.symm.trans hmessages')
    rw [hchat] at hbefore
    have hnil : before = [] := by
      have hlength := congrArg List.length hbefore
      rw [List.length_append] at hlength
      exact List.length_eq_zero_iff.mp (by omega)
    rw [hnil] at hmem
    exact nomatch hmem
  · intro h text htext hne
    exact absurd (h text htext) hne

def toolPayload : Value :=
  .json [("model", .string "m"), ("input", .string "hi"), ("tools", .array [.json [("name", .string "search")]])]

theorem bridge_keeps_tool :
    ∃ request items body, decodeResponsesRequest Text.codec toolPayload = .ok request ∧
      inputItems toolPayload none = .ok items ∧ chatRequest toolPayload request none "m" = .ok body ∧
      KeepsInstructions toolPayload items body ∧ KeepsTools toolPayload body := by
  obtain ⟨request, hrequest⟩ : ∃ request, decodeResponsesRequest Text.codec toolPayload = .ok request := ⟨_, rfl⟩
  obtain ⟨items, hitems⟩ : ∃ items, inputItems toolPayload none = .ok items := ⟨_, rfl⟩
  obtain ⟨body, hbody⟩ : ∃ body, chatRequest toolPayload request none "m" = .ok body := ⟨_, rfl⟩
  refine ⟨request, items, body, hrequest, hitems, hbody, (bridge_keeps_iff hrequest hitems hbody).mpr ⟨?_, ?_⟩⟩
  · intro text htext
    exact nomatch htext
  · have htools : payloadTools toolPayload = [.json [("name", .string "search")]] := rfl
    rw [htools]
    simp only [List.mem_singleton, forall_eq]
    exact ⟨"search", by decide +kernel, by decide⟩

def instructedPayload : Value :=
  .json [("model", .string "m"), ("instructions", .string "Be brief."), ("input", .string "hi")]

/-- The instructions are accepted and do not reach the upstream. -/
theorem instructions_lost :
    ∃ request items body, decodeResponsesRequest Text.codec instructedPayload = .ok request ∧
      inputItems instructedPayload none = .ok items ∧ chatRequest instructedPayload request none "m" = .ok body ∧
      ¬KeepsInstructions instructedPayload items body := by
  obtain ⟨request, hrequest⟩ : ∃ request, decodeResponsesRequest Text.codec instructedPayload = .ok request := ⟨_, rfl⟩
  obtain ⟨items, hitems⟩ : ∃ items, inputItems instructedPayload none = .ok items := ⟨_, rfl⟩
  obtain ⟨body, hbody⟩ : ∃ body, chatRequest instructedPayload request none "m" = .ok body := ⟨_, rfl⟩
  obtain ⟨items', messages, hitems', hmessages, -, hchat, -⟩ := chatRequest_ok hbody
  obtain rfl := Except.ok.inj (hitems.symm.trans hitems')
  refine ⟨request, items, body, hrequest, hitems, hbody, ?_⟩
  intro h
  obtain ⟨before, messages', hmessages', hbefore, message, hmem, -⟩ := h "Be brief." (by decide +kernel) (by decide)
  obtain rfl := Except.ok.inj (hmessages.symm.trans hmessages')
  have hlength := congrArg List.length (hchat.symm.trans hbefore)
  rw [List.length_append] at hlength
  have hnil : before = [] := List.length_eq_zero_iff.mp (by omega)
  rw [hnil] at hmem
  exact nomatch hmem

end instructions

end Prelay.Bridge
