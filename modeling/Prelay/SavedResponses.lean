import Prelay.Continuable
import Prelay.EndpointStore
import Prelay.ImageBudget
import Prelay.ResponseStates

namespace Prelay.Responses

open Json Bridge Recording Store ResponseStates ImageBudget Value

section handler

structure ResponseCandidateRequest where
  identityId : String
  payload : Value
  built : payload.Built
  request : InternalRequest
  parentState : Option ResponseState
  responseId : String
  previousResponseId : Option String
  conversationId : String

def loadParentState (env : StateEnv) (db : Database) (now : ℤ) (identityId : String) :
    Option String → Except AppError (Option ResponseState)
  | none => .ok none
  | some responseId => (loadResponseState env db now identityId responseId).mapError env.storageError

def candidateRequest (identityId responseId conversationId : String) (payload : { payload : Value // payload.Built })
    (request : InternalRequest) (parentState : Option ResponseState) : ResponseCandidateRequest where
  identityId := identityId
  payload := payload.1
  built := payload.2
  request := request
  parentState := parentState
  responseId := responseId
  previousResponseId := request.previousResponseId
  conversationId := (parentState.bind ResponseState.conversationId).getD conversationId

def createResponse (env : StateEnv) (db : Database) (now : ℤ) (identityId responseId conversationId : String)
    (payload : { payload : Value // payload.Built }) : Except AppError ResponseCandidateRequest := do
  let request ← decodeResponsesRequest env.serde payload.1
  let parentState ← loadParentState env db now identityId request.previousResponseId
  if request.previousResponseId.isSome ∧ parentState.isNone then .error .openaiPreviousResponseNotFound
  else .ok (candidateRequest identityId responseId conversationId payload request parentState)

end handler

section candidate

def budgetInputItems (items : List Value) (policy : ImageBudgetPolicy) : Except AppError (List Value) :=
  if !policy.enabled then .ok items
  else match apply (.json [("input", .array items)]) policy with
    | .disabled | .withinBudget _ => .ok items
    | .trimmed payload _ => .ok (((payload.get "input").bind asArray).getD [])
    | .cannotMeetBudget report => .error (.payloadTooLarge (
        "图片请求体超过上游预算：已丢弃 " ++ toString report.droppedImages ++ " 张历史图片，仍有 " ++
        toString report.remainingBytes ++ " 字节，预算 " ++ toString policy.maxBytes ++
        " 字节。请减少图片，或调整 IMAGE_BUDGET_MAX_BYTES。"))

def candidateItems (policy : ImageBudgetPolicy) (c : ResponseCandidateRequest) (upstreamProtocol : UpstreamProtocol)
    (modelUpstream : String) : Except AppError (List Value) := do
  let items ← inputItems c.payload c.parentState
  if upstreamProtocol = .responses then budgetInputItems items policy
  else
    let _ ← chatRequest c.payload c.request c.parentState modelUpstream
    .ok items

end candidate

section answers

namespace Native

def decodeRole (role : String) : InternalRole :=
  if role = "user" then .user
  else if role = "system" ∨ role = "developer" then .system
  else if role = "tool" then .tool
  else .assistant

def decodeMessageContent (content : Option Value) : Option (List InternalContentPart) := do
  let parts ← content.bind asArray
  let texts := (parts.filter (fun part => (part.get "type").bind asStr = some "output_text")).filterMap
    (fun part => (part.get "text").bind asStr)
  some [.text ("\n".intercalate texts)]

def decodeOutputItem (item : Value) : Option InternalOutputItem := do
  let type ← (item.get "type").bind asStr
  if type = "message" then
    let content ← decodeMessageContent (item.get "content")
    some (.message (((item.get "id").bind asStr).getD "msg_0")
      ((((item.get "role").bind asStr).map decodeRole).getD .assistant) content)
  else if type = "function_call" then
    let id ← ((item.get "call_id").or (item.get "id")).bind asStr
    let name ← (item.get "name").bind asStr
    some (.functionToolCall id name (((item.get "arguments").bind asStr).getD "\x7b\x7d") none)
  else none

end Native

def decodeResponsesResponse (value : Value) : Except AppError InternalResponse := do
  let id := ((value.get "id").bind asStr).getD "resp_unknown"
  let model := ((value.get "model").bind asStr).getD "unknown"
  let output ← okOr ((value.get "output").bind asArray) (.upstreamInvalidResponse "上游响应格式无效")
  .ok ⟨id, model, output.filterMap Native.decodeOutputItem, decodeUsage (value.get "usage")⟩

def nativeInsert (c : ResponseCandidateRequest) (items : List Value) (providerId : String)
    (members : List (String × Value)) : Except AppError ResponseStateInsert := do
  let upstreamResponseId := ((Value.object members).get "id").bind asStr
  let response := setMember "id" (.string c.responseId) (.object members)
  let decoded ← decodeResponsesResponse response
  .ok {
    identityId := c.identityId
    responseId := decoded.id
    previousResponseId := c.previousResponseId
    conversationId := c.conversationId
    providerId := providerId
    model := decoded.model
    upstreamResponseId := upstreamResponseId
    requestItems := .array items
    responseItems := (response.get "output").getD (.array [])
    inputMessages := c.request.messages
    response := decoded }

def bridgedMessages (items : List Value) : List InternalMessage := (decodeItemsForChatBridge items).toOption.getD []

def chatInsert (now : ℤ) (c : ResponseCandidateRequest) (items : List Value) (providerId : String) (value : Value) :
    Except AppError ResponseStateInsert := do
  let response ← decodeChatResponse value
  .ok {
    identityId := c.identityId
    responseId := c.responseId
    previousResponseId := c.previousResponseId
    conversationId := c.conversationId
    providerId := providerId
    model := response.model
    upstreamResponseId := none
    requestItems := .array items
    responseItems := savedItems now c.responseId response
    inputMessages := bridgedMessages items
    response := { response with id := c.responseId } }

def streamSession (c : ResponseCandidateRequest) (items : List Value) (upstreamProtocol : UpstreamProtocol)
    (providerId modelUpstream : String) : StreamSession where
  previousResponseId := c.previousResponseId
  conversationId := c.conversationId
  providerId := providerId
  model := modelUpstream
  inputMessages := if upstreamProtocol = .responses then c.request.messages else bridgedMessages items
  requestItems := items
  responseId := c.responseId

inductive Answer where
  | native (providerId : String) (members : List (String × Value)) (built : (Value.object members).Built)
  | chat (now : ℤ) (providerId : String) (value : Value)
  | stream (upstreamProtocol : UpstreamProtocol) (providerId modelUpstream : String) (snapshot : StreamStatsSnapshot)
      (built : (Value.array snapshot.responseOutputItems).Built)

def answerInserts (c : ResponseCandidateRequest) (items : List Value) (answer : Answer) : List ResponseStateInsert :=
  if !c.request.store then []
  else match answer with
    | .native providerId members _ => (nativeInsert c items providerId members).toOption.toList
    | .chat now providerId value => (chatInsert now c items providerId value).toOption.toList
    | .stream upstreamProtocol providerId modelUpstream snapshot _ =>
      (saveStreamStateIfReady (some (streamSession c items upstreamProtocol providerId modelUpstream)) c.identityId
        snapshot).2

end answers

section inserts

variable {c : ResponseCandidateRequest} {items : List Value} {insert : ResponseStateInsert}

structure StandsFor (c : ResponseCandidateRequest) (items : List Value) (insert : ResponseStateInsert) : Prop where
  identityId : insert.identityId = c.identityId
  responseId : insert.responseId = c.responseId
  requestItems : insert.requestItems = .array items
  responseItems : ∃ output, insert.responseItems = .array output ∧ (Value.array output).Built

theorem asArray_eq_some {value : Value} {items : List Value} (h : value.asArray = some items) :
    value = .array items := by
  cases value with
  | array others => rw [Option.some.inj h]
  | _ => cases h

theorem setMember_normal {members : List (String × Value)} (h : (Value.object members).Normal) (key : String)
    {member : Value} (hmember : member.Normal) : (Value.object (insertMember key member members)).Normal := by
  obtain ⟨hsorted, hall⟩ := normal_object h
  refine normal_object_of (insertMember_sorted key member members hsorted) ?_
  intro entry hentry
  rcases mem_insertMember hentry with rfl | hentry
  · exact hmember
  · exact hall entry hentry

theorem nativeInsert_standsFor {providerId : String} {members : List (String × Value)}
    (hbuilt : (Value.object members).Built) (h : nativeInsert c items providerId members = .ok insert) :
    StandsFor c items insert := by
  obtain ⟨decoded, hdecoded, h⟩ := bind_ok h
  obtain rfl := Except.ok.inj h
  obtain ⟨output, houtput, hdecoded⟩ := bind_ok hdecoded
  obtain rfl := Except.ok.inj hdecoded
  obtain ⟨value, hvalue, harray⟩ := Option.bind_eq_some_iff.mp (okOr_ok houtput)
  refine ⟨rfl, ?_, rfl, output, ?_, ?_⟩
  · change (((setMember "id" (.string c.responseId) (.object members)).get "id").bind asStr).getD "resp_unknown" = _
    rw [get_setMember_same _ _ ⟨members, rfl⟩]
    rfl
  · change ((setMember "id" (.string c.responseId) (.object members)).get "output").getD (.array []) = _
    rw [hvalue]
    exact asArray_eq_some harray
  · rw [← asArray_eq_some harray]
    have hid : (Value.string c.responseId).Normal := rfl
    refine ⟨normal_of_get (setMember_normal hbuilt.normal "id" hid) hvalue, ?_⟩
    rw [get_setMember_ne _ _ (by decide)] at hvalue
    exact (depth_get_lt hvalue).trans hbuilt.shallow

theorem encodeOutputItem_stable (item : InternalOutputItem) : (encodeOutputItem item).Stable 4 := by
  cases item with
  | message id role content =>
    refine stable_json ?_
    simp only [List.forall_mem_cons]
    refine ⟨stable_string _, stable_string _, stable_string _, stable_string _, ?_, by simp⟩
    apply stable_array
    intro part hpart
    obtain ⟨source, -, hsource⟩ := List.mem_filterMap.mp hpart
    cases source with
    | text text =>
      obtain rfl := Option.some.inj hsource
      refine stable_json ?_
      simp only [List.forall_mem_cons]
      exact ⟨stable_string _, stable_string _, stable_array (n := 0) (by simp), by simp⟩
    | image _ => exact nomatch hsource
  | functionToolCall id name arguments reasoning =>
    refine stable_json ?_
    simp only [List.forall_mem_cons]
    exact ⟨stable_string _, stable_string _, stable_string _, stable_string _, stable_string _, stable_string _, by simp⟩

theorem chatInsert_standsFor {now : ℤ} {providerId : String} {value : Value}
    (h : chatInsert now c items providerId value = .ok insert) : StandsFor c items insert := by
  obtain ⟨response, -, h⟩ := bind_ok h
  obtain rfl := Except.ok.inj h
  refine ⟨rfl, rfl, rfl, response.output.map encodeOutputItem, savedItems_eq now c.responseId response, ?_⟩
  have hstable : (Value.array (response.output.map encodeOutputItem)).Stable 5 := by
    apply stable_array
    rw [List.forall_mem_map]
    exact fun item _ => encodeOutputItem_stable item
  exact ⟨hstable.normal, hstable.depth_le.trans_lt (by decide)⟩

theorem streamInsert_standsFor {upstreamProtocol : UpstreamProtocol} {providerId modelUpstream : String}
    {snapshot : StreamStatsSnapshot} (hbuilt : (Value.array snapshot.responseOutputItems).Built)
    (h : insert ∈ (saveStreamStateIfReady
      (some (streamSession c items upstreamProtocol providerId modelUpstream)) c.identityId snapshot).2) :
    StandsFor c items insert := by
  unfold saveStreamStateIfReady at h
  dsimp only at h
  split_ifs at h with hcompleted hitems
  · cases h
  · cases h
  · cases hresponse : responseFromStreamSession (streamSession c items upstreamProtocol providerId modelUpstream)
      snapshot with
    | none =>
      rw [hresponse] at h
      cases h
    | some response =>
      rw [hresponse] at h
      rw [List.mem_singleton.mp h]
      exact ⟨rfl, rfl, rfl, snapshot.responseOutputItems, rfl, hbuilt⟩

theorem answerInserts_standsFor {answer : Answer} (h : insert ∈ answerInserts c items answer) :
    StandsFor c items insert := by
  unfold answerInserts at h
  split_ifs at h with hstore
  · cases h
  · cases answer with
    | native providerId members built => exact nativeInsert_standsFor built (toOption_some h)
    | chat now providerId value => exact chatInsert_standsFor (toOption_some h)
    | stream upstreamProtocol providerId modelUpstream snapshot built => exact streamInsert_standsFor built h

theorem budgetInputItems_disabled {policy : ImageBudgetPolicy} (hpolicy : policy.enabled = false) (items : List Value) :
    budgetInputItems items policy = .ok items := by
  unfold budgetInputItems
  rw [hpolicy]
  rfl

theorem candidateItems_ok {policy : ImageBudgetPolicy} (hpolicy : policy.enabled = false)
    {upstreamProtocol : UpstreamProtocol} {modelUpstream : String}
    (h : candidateItems policy c upstreamProtocol modelUpstream = .ok items) :
    inputItems c.payload c.parentState = .ok items := by
  obtain ⟨items', hitems, h⟩ := bind_ok h
  rw [budgetInputItems_disabled hpolicy] at h
  split_ifs at h
  · rw [hitems, h]
  · obtain ⟨_, -, h⟩ := bind_ok h
    rw [hitems, h]

end inserts

end Prelay.Responses
