import Prelay.BridgeRequest
import Mathlib.Data.List.Perm.Basic

namespace Prelay.Bridge

open Json Recording

def chatRole (message : Value) : Option String := (message.get "role").bind Value.asStr

def toolCallIds (message : Value) : List String :=
  (((message.get "tool_calls").bind Value.asArray).getD []).filterMap (fun call => (call.get "id").bind Value.asStr)

def answeredId (message : Value) : Option String := (message.get "tool_call_id").bind Value.asStr

/-- The rule of Chat Completions: an assistant message with tool calls is followed at once by tool messages that answer
exactly these calls, and no tool message stands elsewhere. -/
inductive ObeysToolRule : List Value → Prop
  | nil : ObeysToolRule []
  | other {message : Value} {rest : List Value} (role : chatRole message ≠ some "tool")
      (calls : message.get "tool_calls" = none) : ObeysToolRule rest → ObeysToolRule (message :: rest)
  | calls {message : Value} {answers rest : List Value} (role : chatRole message = some "assistant")
      (some_call : toolCallIds message ≠ []) (tools : ∀ answer ∈ answers, chatRole answer = some "tool")
      (answered : (answers.map answeredId).Perm ((toolCallIds message).map some)) :
      ObeysToolRule rest → ObeysToolRule (message :: (answers ++ rest))

def callId (item : Value) : Option String :=
  if itemType item = some "function_call" then functionCallId item else none

def outputId (item : Value) : Option String :=
  if itemType item = some "function_call_output" then stringField (item.get "call_id") else none

/-- Every tool call stands directly before its output, and every output directly behind its call. -/
structure AdjacentCalls (items : List Value) : Prop where
  called : ∀ i id, items[i]?.bind callId = some id → items[i + 1]?.bind outputId = some id
  answered : ∀ j id, items[j]?.bind outputId = some id → ∃ i, j = i + 1 ∧ items[i]?.bind callId = some id

theorem decodeItem_kind {item : Value} {message : InternalMessage} (h : decodeItem item = .ok message) :
    (callId item = none ∧ outputId item = none ∧ message.role ≠ .tool ∧ message.toolCalls = []) ∨
    (∃ call, callId item = some call.id ∧ outputId item = none ∧ message.role = .assistant ∧ message.toolCalls = [call]) ∨
    ∃ id, callId item = none ∧ outputId item = some id ∧ message.role = .tool ∧ message.toolCallId = some id := by
  rcases decodeItem_ok h with ⟨hcall, houtput, hdecode⟩ | ⟨htype, hdecode⟩ | ⟨htype, hdecode⟩
  · obtain ⟨hrole, hcalls⟩ := decodeMessage_ok hdecode
    exact Or.inl ⟨if_neg hcall, if_neg houtput, hrole, hcalls⟩
  · obtain ⟨call, rfl, hid, -⟩ := decodeFunctionCall_ok hdecode
    refine Or.inr (Or.inl ⟨call, ?_, ?_, rfl, rfl⟩)
    · rw [callId, if_pos htype, hid]
    · rw [outputId, htype, if_neg (by decide)]
  · obtain ⟨id, content, rfl, hid⟩ := decodeFunctionCallOutput_ok hdecode
    refine Or.inr (Or.inr ⟨id, ?_, ?_, rfl, rfl⟩)
    · rw [callId, htype, if_neg (by decide)]
    · rw [outputId, if_pos htype, hid]

theorem chatRole_encode (message : InternalMessage) :
    chatRole (encodeMessage message) = some (encodeRole message.role) := by
  rw [chatRole, (encodeMessage_get message).1]
  rfl

theorem encodeRole_tool {role : InternalRole} : encodeRole role = "tool" ↔ role = .tool := by
  cases role <;> simp [encodeRole]

theorem toolCallIds_encode (message : InternalMessage) :
    toolCallIds (encodeMessage message) = message.toolCalls.map InternalToolCall.id := by
  have hid : ∀ call, ((encodeToolCall call).get "id").bind Value.asStr = some call.id := by
    intro call
    simp [encodeToolCall, Value.get_json, Value.asStr]
  rw [toolCallIds, (encodeMessage_get message).2.2.2]
  split_ifs with hnil
  · rw [hnil]
    rfl
  · simp [Value.asArray, List.filterMap_map, hid]

theorem answeredId_encode {message : InternalMessage} (h : message.role = .tool) :
    answeredId (encodeMessage message) = message.toolCallId := by
  rw [answeredId, (encodeMessage_get message).2.2.1, if_pos h]
  cases message.toolCallId <;> rfl

section shift

variable {item : Value} {items : List Value}

theorem adjacentCalls_message (hcall : callId item = none) (houtput : outputId item = none) :
    AdjacentCalls (item :: items) ↔ AdjacentCalls items := by
  constructor
  · intro h
    constructor
    · intro i id hi
      exact h.called (i + 1) id hi
    · intro j id hj
      obtain ⟨i, hi, hid⟩ := h.answered (j + 1) id hj
      obtain rfl : j = i := by omega
      cases j with
      | zero =>
        have hnone : callId item = some id := hid
        rw [hcall] at hnone
        exact nomatch hnone
      | succ j => exact ⟨j, rfl, hid⟩
  · intro h
    constructor
    · intro i id hi
      cases i with
      | zero =>
        have hnone : callId item = some id := hi
        rw [hcall] at hnone
        exact nomatch hnone
      | succ i => exact h.called i id hi
    · intro j id hj
      cases j with
      | zero =>
        have hnone : outputId item = some id := hj
        rw [houtput] at hnone
        exact nomatch hnone
      | succ j =>
        obtain ⟨i, rfl, hid⟩ := h.answered j id hj
        exact ⟨i + 1, rfl, hid⟩

theorem not_adjacentCalls_output {id : String} (h : outputId item = some id) : ¬AdjacentCalls (item :: items) := by
  intro hadjacent
  obtain ⟨i, hi, -⟩ := hadjacent.answered 0 id h
  omega

theorem not_adjacentCalls_last {id : String} (h : callId item = some id) : ¬AdjacentCalls [item] := by
  intro hadjacent
  exact nomatch hadjacent.called 0 id h

theorem adjacentCalls_call {next : Value} {id : String} (hcall : callId item = some id) (houtput : outputId item = none)
    (hnext : (outputId next).isSome → callId next = none) :
    AdjacentCalls (item :: next :: items) ↔ outputId next = some id ∧ AdjacentCalls items := by
  constructor
  · intro h
    have hid : outputId next = some id := h.called 0 id hcall
    have hnone : callId next = none := hnext (by rw [hid]; rfl)
    refine ⟨hid, ?_, ?_⟩
    · intro i id' hi
      exact h.called (i + 2) id' hi
    · intro j id' hj
      obtain ⟨i, hi, hid'⟩ := h.answered (j + 2) id' hj
      obtain rfl : i = j + 1 := by omega
      cases j with
      | zero =>
        have hcalled : callId next = some id' := hid'
        rw [hnone] at hcalled
        exact nomatch hcalled
      | succ j => exact ⟨j, rfl, hid'⟩
  · rintro ⟨hid, h⟩
    have hnone : callId next = none := hnext (by rw [hid]; rfl)
    constructor
    · intro i id' hi
      match i with
      | 0 =>
        have hsame : callId item = some id' := hi
        rw [hcall] at hsame
        rw [← Option.some.inj hsame]
        exact hid
      | 1 =>
        have hcalled : callId next = some id' := hi
        rw [hnone] at hcalled
        exact nomatch hcalled
      | i + 2 => exact h.called i id' hi
    · intro j id' hj
      match j with
      | 0 =>
        have hanswer : outputId item = some id' := hj
        rw [houtput] at hanswer
        exact nomatch hanswer
      | 1 =>
        have hsame : outputId next = some id' := hj
        rw [hid] at hsame
        rw [← Option.some.inj hsame]
        exact ⟨0, rfl, hcall⟩
      | j + 2 =>
        obtain ⟨i, rfl, hid'⟩ := h.answered j id' hj
        exact ⟨i + 2, rfl, hid'⟩

end shift

section rule

variable {message : InternalMessage} {rest : List Value}

theorem obeys_message (hrole : message.role ≠ .tool) (hcalls : message.toolCalls = []) :
    ObeysToolRule (encodeMessage message :: rest) ↔ ObeysToolRule rest := by
  have htool : chatRole (encodeMessage message) ≠ some "tool" := by
    rw [chatRole_encode]
    exact fun h => hrole (encodeRole_tool.mp (Option.some.inj h))
  have hnone : (encodeMessage message).get "tool_calls" = none := by
    rw [(encodeMessage_get message).2.2.2, if_pos hcalls]
  constructor
  · intro h
    cases h with
    | other _ _ h => exact h
    | calls _ hsome _ _ _ =>
      rw [toolCallIds_encode, hcalls] at hsome
      exact absurd rfl hsome
  · exact ObeysToolRule.other htool hnone

theorem not_obeys_output (hrole : message.role = .tool) : ¬ObeysToolRule (encodeMessage message :: rest) := by
  have htool : chatRole (encodeMessage message) = some "tool" := by rw [chatRole_encode, hrole]; rfl
  intro h
  cases h with
  | other role _ _ => exact role htool
  | calls role _ _ _ _ =>
    rw [htool] at role
    exact absurd role (by decide)

theorem obeys_call {call : InternalToolCall} (hrole : message.role = .assistant) (hcalls : message.toolCalls = [call]) :
    ObeysToolRule (encodeMessage message :: rest) ↔ ∃ answer rest', rest = answer :: rest' ∧
      chatRole answer = some "tool" ∧ answeredId answer = some call.id ∧ ObeysToolRule rest' := by
  have hids : toolCallIds (encodeMessage message) = [call.id] := by rw [toolCallIds_encode, hcalls]; rfl
  have hassistant : chatRole (encodeMessage message) = some "assistant" := by rw [chatRole_encode, hrole]; rfl
  constructor
  · intro h
    generalize heq : encodeMessage message :: rest = messages at h
    cases h with
    | nil => exact nomatch heq
    | other _ hnone _ =>
      obtain ⟨rfl, rfl⟩ := List.cons.inj heq
      rw [(encodeMessage_get message).2.2.2, hcalls] at hnone
      exact nomatch hnone
    | @calls head answers tail role some_call tools answered h =>
      obtain ⟨rfl, rfl⟩ := List.cons.inj heq
      rw [hids, List.map_singleton, List.perm_singleton] at answered
      obtain ⟨answer, rfl, hanswer⟩ := List.map_eq_singleton_iff.mp answered
      exact ⟨answer, tail, rfl, tools answer List.mem_cons_self, hanswer, h⟩
  · rintro ⟨answer, rest', rfl, htool, hanswer, h⟩
    exact @ObeysToolRule.calls _ [answer] rest' hassistant (by rw [hids]; simp) (by simpa using htool)
      (by rw [hids]; simp [hanswer]) h

end rule

/-- Item by item, the rule asks for calls and outputs in adjacent pairs. -/
theorem obeysToolRule_iff {items : List Value} {messages : List InternalMessage}
    (h : decodeItemsForChatBridge items = .ok messages) :
    ObeysToolRule (messages.map encodeMessage) ↔ AdjacentCalls items := by
  have hall := mapM_ok.mp h
  clear h
  induction hn : items.length using Nat.strong_induction_on generalizing items messages with
  | h n ih =>
    cases hall with
    | nil => exact ⟨fun _ => ⟨fun i id hi => by simp at hi, fun j id hj => by simp at hj⟩, fun _ => .nil⟩
    | @cons item message items messages hitem hrest =>
      subst hn
      rw [List.map_cons]
      rcases decodeItem_kind hitem with ⟨hcall, houtput, hrole, hcalls⟩ | ⟨call, hcall, houtput, hrole, hcalls⟩ |
        ⟨id, -, houtput, hrole, -⟩
      · rw [obeys_message hrole hcalls, adjacentCalls_message hcall houtput]
        exact ih items.length (by simp) hrest rfl
      · rw [obeys_call hrole hcalls]
        cases hrest with
        | nil =>
          refine iff_of_false ?_ (not_adjacentCalls_last hcall)
          rintro ⟨answer, rest', heq, -⟩
          exact nomatch heq
        | @cons next answer items messages hnext hrest =>
          have hshorter : items.length < (item :: next :: items).length := by
            rw [List.length_cons, List.length_cons]
            omega
          have hiff := ih items.length hshorter hrest rfl
          rcases decodeItem_kind hnext with ⟨-, houtput', hrole', -⟩ | ⟨call', -, houtput', hrole', -⟩ |
            ⟨id, hcall', houtput', hrole', hid⟩
          · rw [adjacentCalls_call hcall houtput (by simp [houtput'])]
            refine iff_of_false ?_ (by simp [houtput'])
            rintro ⟨_, rest', heq, htool, -⟩
            obtain ⟨rfl, rfl⟩ := List.cons.inj heq
            rw [chatRole_encode] at htool
            exact hrole' (encodeRole_tool.mp (Option.some.inj htool))
          · rw [adjacentCalls_call hcall houtput (by simp [houtput'])]
            refine iff_of_false ?_ (by simp [houtput'])
            rintro ⟨_, rest', heq, htool, -⟩
            obtain ⟨rfl, rfl⟩ := List.cons.inj heq
            rw [chatRole_encode, hrole'] at htool
            exact absurd (Option.some.inj htool) (by decide)
          · rw [adjacentCalls_call hcall houtput (fun _ => hcall'), houtput']
            have htool : chatRole (encodeMessage answer) = some "tool" := by rw [chatRole_encode, hrole']; rfl
            have hanswer : answeredId (encodeMessage answer) = some id := by rw [answeredId_encode hrole', hid]
            constructor
            · rintro ⟨_, rest', heq, -, hanswered, hobeys⟩
              obtain ⟨rfl, rfl⟩ := List.cons.inj heq
              exact ⟨hanswer.symm.trans hanswered, hiff.mp hobeys⟩
            · rintro ⟨hid', hobeys⟩
              exact ⟨_, _, rfl, htool, hanswer.trans hid', hiff.mpr hobeys⟩
      · exact iff_of_false (not_obeys_output hrole) (not_adjacentCalls_output houtput)

/-- The messages of a bridged request obey the rule exactly when its items have every call directly before its output. -/
theorem tool_rule_iff {payload : Value} {request : InternalRequest} {parentState : Option ResponseState}
    {modelUpstream : String} {items : List Value} {body : Value} (hitems : inputItems payload parentState = .ok items)
    (hbody : chatRequest payload request parentState modelUpstream = .ok body) :
    ObeysToolRule (chatMessages body) ↔ AdjacentCalls items := by
  obtain ⟨items', messages, hitems', hmessages, -, hchat, -⟩ := chatRequest_ok hbody
  obtain rfl := Except.ok.inj (hitems.symm.trans hitems')
  rw [hchat]
  exact obeysToolRule_iff hmessages

def isUserMessage (item : Value) : Bool := (item.get "role").bind Value.asStr = some "user"

def Answered (items : List Value) : Prop :=
  ∀ (i : ℕ) (id : String), items[i]?.bind callId = some id → ∃ j, i < j ∧ items[j]?.bind outputId = some id ∧
    (∀ k, i < k → items[k]?.bind outputId = some id → k = j) ∧
    ∀ k, i < k → k < j → items[k]?.any isUserMessage = false

def helloItem : Value := .json [("role", .string "user"), ("content", .string "hi")]

def callItem (id : String) : Value :=
  .json [
    ("type", .string "function_call"),
    ("id", .string id),
    ("call_id", .string id),
    ("name", .string "search"),
    ("arguments", .string "query"),
    ("status", .string "completed")]

def outputItem (id : String) : Value :=
  .json [("type", .string "function_call_output"), ("call_id", .string id), ("output", .string "found")]

def plainRequest : InternalRequest where
  model := "model"
  stream := false
  maxTokens := none
  maxCompletionTokens := none
  previousResponseId := none
  instructions := none
  store := true
  reasoning := none
  toolChoice := none
  parallelToolCalls := none
  text := none
  reasoningRequested := false
  toolChoiceRequested := false
  structuredOutputRequested := false
  parallelToolCallsRequested := false
  streamingUsageRequested := false
  tools := []
  messages := []

def savedCalls (ids : List String) : ResponseState where
  identityId := "identity"
  responseId := "resp_1"
  previousResponseId := none
  conversationId := none
  providerId := "provider"
  model := "model"
  upstreamResponseId := none
  requestItems := .array [helloItem]
  responseItems := .array (ids.map callItem)
  createdAt := 0
  expiresAt := 0

def outputsPayload (ids : List String) : Value :=
  .json [("model", .string "model"), ("previous_response_id", .string "resp_1"), ("input", .array (ids.map outputItem))]

theorem helloItem_kind : callId helloItem = none ∧ outputId helloItem = none := by decide +kernel

theorem callItem_kind {id : String} (h : Str.trim id ≠ "") :
    callId (callItem id) = some id ∧ outputId (callItem id) = none := by
  have htype : itemType (callItem id) = some "function_call" := by
    simp [itemType, callItem, Value.get_json, Value.asStr]
  rw [callId, outputId, htype, if_pos rfl, if_neg (by decide)]
  simp [functionCallId, callItem, Value.get_json, stringField_string h]

theorem outputItem_kind {id : String} (h : Str.trim id ≠ "") :
    callId (outputItem id) = none ∧ outputId (outputItem id) = some id := by
  have htype : itemType (outputItem id) = some "function_call_output" := by
    simp [itemType, outputItem, Value.get_json, Value.asStr]
  rw [callId, outputId, htype, if_pos rfl, if_neg (by decide)]
  simp [outputItem, Value.get_json, stringField_string h]

theorem tool_rule_one_call :
    ∃ body, chatRequest (outputsPayload ["call_1"]) plainRequest (some (savedCalls ["call_1"])) "model" = .ok body ∧
      ObeysToolRule (chatMessages body) := by
  obtain ⟨body, hbody⟩ : ∃ body, chatRequest (outputsPayload ["call_1"]) plainRequest (some (savedCalls ["call_1"]))
      "model" = .ok body := ⟨_, rfl⟩
  have hitems : inputItems (outputsPayload ["call_1"]) (some (savedCalls ["call_1"])) =
      .ok [helloItem, callItem "call_1", outputItem "call_1"] := rfl
  have hcall := @callItem_kind "call_1" (by decide)
  have houtput := @outputItem_kind "call_1" (by decide)
  refine ⟨body, hbody, (tool_rule_iff hitems hbody).mpr ?_⟩
  rw [adjacentCalls_message helloItem_kind.1 helloItem_kind.2, adjacentCalls_call hcall.1 hcall.2 (fun _ => houtput.1)]
  exact ⟨houtput.2, ⟨fun i id hi => by simp at hi, fun j id hj => by simp at hj⟩⟩

theorem answered_parallel {a b x y : Value} {first second : String} (hne : first ≠ second)
    (ha : callId a = some first ∧ outputId a = none) (hb : callId b = some second ∧ outputId b = none)
    (hx : callId x = none ∧ outputId x = some first) (hy : callId y = none ∧ outputId y = some second)
    (hquiet : isUserMessage b = false ∧ isUserMessage x = false) : Answered [helloItem, a, b, x, y] := by
  intro i id hi
  match i with
  | 0 => simp [helloItem_kind] at hi
  | 1 =>
    obtain rfl : first = id := by simpa [ha] using hi
    refine ⟨3, by omega, hx.2, ?_, ?_⟩
    · intro k hk hout
      match k with
      | 2 => simp [hb] at hout
      | 3 => rfl
      | 4 => simp [hy, hne.symm] at hout
      | k + 5 => simp at hout
    · intro k hk hk'
      obtain rfl : k = 2 := by omega
      exact hquiet.1
  | 2 =>
    obtain rfl : second = id := by simpa [hb] using hi
    refine ⟨4, by omega, hy.2, ?_, ?_⟩
    · intro k hk hout
      match k with
      | 3 => simp [hx, hne] at hout
      | 4 => rfl
      | k + 5 => simp at hout
    · intro k hk hk'
      obtain rfl : k = 3 := by omega
      exact hquiet.2
  | 3 => simp [hx] at hi
  | 4 => simp [hy] at hi
  | i + 5 => simp at hi

/-- Two parallel calls that the bridge has saved, then their outputs: the second call breaks the rule. -/
theorem parallel_calls_break_rule :
    ∃ items body, inputItems (outputsPayload ["call_1", "call_2"]) (some (savedCalls ["call_1", "call_2"])) = .ok items ∧
      Answered items ∧
      chatRequest (outputsPayload ["call_1", "call_2"]) plainRequest (some (savedCalls ["call_1", "call_2"])) "model" =
        .ok body ∧ ¬ObeysToolRule (chatMessages body) := by
  obtain ⟨body, hbody⟩ : ∃ body, chatRequest (outputsPayload ["call_1", "call_2"]) plainRequest
      (some (savedCalls ["call_1", "call_2"])) "model" = .ok body := ⟨_, rfl⟩
  have hitems : inputItems (outputsPayload ["call_1", "call_2"]) (some (savedCalls ["call_1", "call_2"])) =
      .ok [helloItem, callItem "call_1", callItem "call_2", outputItem "call_1", outputItem "call_2"] := rfl
  obtain ⟨items, messages, hitems', hmessages, -, hchat, -⟩ := chatRequest_ok hbody
  obtain rfl := Except.ok.inj (hitems.symm.trans hitems')
  have hfirst := @callItem_kind "call_1" (by decide)
  have hsecond := @callItem_kind "call_2" (by decide)
  refine ⟨_, body, hitems, ?_, hbody, ?_⟩
  · exact answered_parallel (by decide) hfirst hsecond (outputItem_kind (by decide)) (outputItem_kind (by decide))
      (by decide +kernel)
  · rw [hchat, obeysToolRule_iff hmessages, adjacentCalls_message helloItem_kind.1 helloItem_kind.2,
      adjacentCalls_call hfirst.1 hfirst.2 (by simp [hsecond]), hsecond.2]
    exact fun h => nomatch h.1

end Prelay.Bridge
