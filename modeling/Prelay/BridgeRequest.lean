import Prelay.ResponsesDecode

namespace Prelay.Bridge

open Json Recording

structure ResponseState where
  identityId : String
  responseId : String
  previousResponseId : Option String
  conversationId : Option String
  providerId : String
  model : String
  upstreamResponseId : Option String
  requestItems : Value
  responseItems : Value
  createdAt : ℤ
  expiresAt : ℤ
  deriving DecidableEq

def currentInputItems (payload : Value) : Except AppError (List Value) :=
  match payload.get "input" with
  | none | some .null => .ok []
  | some (.string text) => .ok [.json [("role", .string "user"), ("content", .string text)]]
  | some (.array items) => .ok items
  | some _ => .error (.openaiInvalid "input" "input must be a string or an array of response items")

def continuationItems (parent : ResponseState) (current : List Value) : List Value :=
  parent.requestItems.asArray.getD [] ++ parent.responseItems.asArray.getD [] ++ current

def inputItems (payload : Value) (parentState : Option ResponseState) : Except AppError (List Value) := do
  let currentItems ← currentInputItems payload
  .ok (match parentState with
    | some parent => continuationItems parent currentItems
    | none => currentItems)

def requestForUpstream (request : InternalRequest) (modelUpstream : String) : InternalRequest :=
  { request with model := modelUpstream }

def chatRequest (payload : Value) (request : InternalRequest) (parentState : Option ResponseState)
    (modelUpstream : String) : Except AppError Value := do
  let items ← inputItems payload parentState
  validateResponsesBridgePayload payload
  let messages ← decodeItemsForChatBridge items
  let request := { requestForUpstream request modelUpstream with messages := messages }
  validateInternalRequestForBridge request
  .ok (encodeChatRequest request)

theorem validateInternalRequest_ok {request : InternalRequest} (h : validateInternalRequestForBridge request = .ok ()) :
    ∀ message ∈ request.messages, ∀ part ∈ message.content, InternalContentPart.isImage part = false := by
  unfold validateInternalRequestForBridge at h
  split_ifs at h with himage
  intro message hmessage part hpart
  by_contra hpart'
  apply himage
  rw [List.any_eq_true]
  refine ⟨message, hmessage, List.any_eq_true.mpr ⟨part, hpart, ?_⟩⟩
  simpa using hpart'

theorem chatRequest_ok {payload : Value} {request : InternalRequest} {parentState : Option ResponseState}
    {modelUpstream : String} {body : Value} (h : chatRequest payload request parentState modelUpstream = .ok body) :
    ∃ items messages, inputItems payload parentState = .ok items ∧ decodeItemsForChatBridge items = .ok messages ∧
      (∀ message ∈ messages, ∀ part ∈ message.content, InternalContentPart.isImage part = false) ∧
      chatMessages body = messages.map encodeMessage ∧ chatTools body = request.tools.map encodeTool := by
  obtain ⟨items, hitems, h⟩ := bind_ok h
  obtain ⟨_, -, h⟩ := bind_ok h
  obtain ⟨messages, hmessages, h⟩ := bind_ok h
  obtain ⟨_, hvalid, h⟩ := bind_ok h
  obtain rfl := Except.ok.inj h
  refine ⟨items, messages, hitems, hmessages, validateInternalRequest_ok hvalid, chatMessages_encode _, ?_⟩
  rw [chatTools_encode]
  rfl

end Prelay.Bridge
