import Prelay.BridgeRequest
import Prelay.ResponseSessions

namespace Prelay.Store.ResponseStates

open Json Bridge Recording

/-- Instants are counted in nanoseconds; the columns hold whole seconds. -/
def perSecond : ℤ := 1000000000

def seconds (instant : ℤ) : ℤ := instant / perSecond

def thirtyDays : ℤ := 30 * 86400 * perSecond

/-- What the states are stored with; `jsonError` is the text of the error for a text that is no JSON. -/
structure StateEnv where
  serde : SerdeJson
  cipher : KeyCipher
  jsonError : String → String
  storageError : StorageError → AppError

structure StateEnv.Lawful (env : StateEnv) : Prop where
  serde : env.serde.Lawful
  cipher : env.cipher.Lawful

structure StateNonces where
  requestItems : ℕ
  responseItems : ℕ
  inputMessages : ℕ
  outputItems : ℕ

section serialize

def withOptional (members : List (String × Value)) (key : String) (member : Option Value) : List (String × Value) :=
  members ++ (member.map (fun value => (key, value))).toList

def roleValue : InternalRole → Value
  | .user => .string "User"
  | .assistant => .string "Assistant"
  | .system => .string "System"
  | .tool => .string "Tool"

def imageValue (image : InternalImagePart) : Value :=
  .object (withOptional (withOptional (withOptional [] "image_url" image.imageUrl) "file_id" (image.fileId.map .string))
    "detail" (image.detail.map .string))

def contentPartValue : InternalContentPart → Value
  | .text text => .object [("Text", .string text)]
  | .image image => .object [("Image", imageValue image)]

def toolCallValue (call : InternalToolCall) : Value :=
  .object [("id", .string call.id), ("name", .string call.name), ("arguments", .string call.arguments)]

def messageValue (message : InternalMessage) : Value :=
  .object (withOptional [
    ("role", roleValue message.role),
    ("content", .array (message.content.map contentPartValue)),
    ("tool_call_id", .ofOption .string message.toolCallId),
    ("tool_calls", .array (message.toolCalls.map toolCallValue))]
    "reasoning_content" (message.reasoningContent.map .string))

def outputItemValue : InternalOutputItem → Value
  | .message id role content => .object [("Message", .object [
      ("id", .string id),
      ("role", roleValue role),
      ("content", .array (content.map contentPartValue))])]
  | .functionToolCall id name arguments reasoningContent => .object [("FunctionToolCall", .object (withOptional [
      ("id", .string id),
      ("name", .string name),
      ("arguments", .string arguments)]
      "reasoning_content" (reasoningContent.map .string)))]

end serialize

section storage

variable (env : StateEnv)

def newSession (nonces : StateNonces) (now : ℤ) (insert : ResponseStateInsert) :
    Except StorageError ResponseSession := do
  let requestItemsJson ← encryptSessionValue env.cipher nonces.requestItems (env.serde.toStr insert.requestItems)
  let responseItemsJson ← encryptSessionValue env.cipher nonces.responseItems (env.serde.toStr insert.responseItems)
  let inputMessagesJson ← encryptSessionValue env.cipher nonces.inputMessages
    (env.serde.toStr (.array (insert.inputMessages.map messageValue)))
  let outputItemsJson ← encryptSessionValue env.cipher nonces.outputItems
    (env.serde.toStr (.array (insert.response.output.map outputItemValue)))
  .ok {
    responseId := insert.responseId
    identityId := insert.identityId
    previousResponseId := insert.previousResponseId
    conversationId := some insert.conversationId
    providerId := insert.providerId
    model := insert.model
    status := "completed"
    protocolFormat := "responses_items_v1"
    upstreamResponseId := insert.upstreamResponseId
    requestItemsJson := some requestItemsJson
    responseItemsJson := some responseItemsJson
    expiresAt := some (seconds (now + thirtyDays))
    inputMessagesJson := inputMessagesJson
    outputItemsJson := outputItemsJson
    createdAt := seconds now }

def hasKey (responseId identityId : String) (row : ResponseSession) : Bool :=
  row.responseId = responseId ∧ row.identityId = identityId

def upsertSession (row : ResponseSession) (db : Database) : Except StorageError Database :=
  if db.sessions.any (hasKey row.responseId row.identityId) then
    .ok { db with sessions := db.sessions.map (fun other =>
      if hasKey row.responseId row.identityId other then row else other) }
  else if ¬sessionIdentity.HasParent db.identities row then .error (.database .foreignKeyViolation)
  else .ok { db with sessions := db.sessions ++ [row] }

def saveResponseState (nonces : StateNonces) (now : ℤ) (insert : ResponseStateInsert) (db : Database) :
    Except StorageError Database := do
  let row ← newSession env nonces now insert
  upsertSession row db

def readItems (value label : String) : Except StorageError Value := do
  let text ← decryptSessionValue env.cipher value
  okOr (env.serde.fromStr text) (.invalidStoredState ("invalid " ++ label ++ ": " ++ env.jsonError text))

def loadResponseState (db : Database) (now : ℤ) (identityId responseId : String) :
    Except StorageError (Option ResponseState) :=
  match db.sessions.find? (hasKey responseId identityId) with
  | none => .ok none
  | some row =>
    if row.protocolFormat ≠ "responses_items_v1" ∨ row.status ≠ "completed" then .ok none
    else do
      let expiresAt ← okOr row.expiresAt (.invalidStoredState "completed response has no expiry")
      if expiresAt * perSecond ≤ now then .ok none
      else
        let requestItemsJson ← okOr row.requestItemsJson (.invalidStoredState "missing request items")
        let responseItemsJson ← okOr row.responseItemsJson (.invalidStoredState "missing response items")
        let requestItems ← readItems env requestItemsJson "request items"
        let responseItems ← readItems env responseItemsJson "response items"
        .ok (some {
          identityId := row.identityId
          responseId := row.responseId
          previousResponseId := row.previousResponseId
          conversationId := row.conversationId
          providerId := row.providerId
          model := row.model
          upstreamResponseId := row.upstreamResponseId
          requestItems := requestItems
          responseItems := responseItems
          createdAt := row.createdAt
          expiresAt := expiresAt })

def deleteExpiredResponseStates (now : ℤ) (db : Database) : Database × ℕ :=
  let expired := fun row : ResponseSession => row.expiresAt.any (fun expiresAt => expiresAt < seconds now)
  ({ db with sessions := db.sessions.filter (fun row => !expired row) }, (db.sessions.filter expired).length)

end storage

section states

variable {env : StateEnv}

theorem hasKey_iff {responseId identityId : String} {row : ResponseSession} :
    hasKey responseId identityId row = true ↔ row.responseId = responseId ∧ row.identityId = identityId :=
  decide_eq_true_iff

structure RowOf (env : StateEnv) (responseId identityId : String) (requestItems responseItems : Value) (savedAt : ℤ)
    (row : ResponseSession) : Prop where
  responseId : row.responseId = responseId
  identityId : row.identityId = identityId
  protocolFormat : row.protocolFormat = "responses_items_v1"
  status : row.status = "completed"
  expiresAt : row.expiresAt = some (seconds (savedAt + thirtyDays))
  requestItems : ∃ value, row.requestItemsJson = some value ∧ Stored env.cipher (env.serde.toStr requestItems) value
  responseItems : ∃ value, row.responseItemsJson = some value ∧ Stored env.cipher (env.serde.toStr responseItems) value

theorem newSession_ok (h : env.Lawful) {nonces : StateNonces} {now : ℤ} {insert : ResponseStateInsert}
    {row : ResponseSession} (hrow : newSession env nonces now insert = .ok row) :
    RowOf env insert.responseId insert.identityId insert.requestItems insert.responseItems now row := by
  obtain ⟨requestItems, hrequest, hrow⟩ := bind_ok hrow
  obtain ⟨responseItems, hresponse, hrow⟩ := bind_ok hrow
  obtain ⟨inputMessages, -, hrow⟩ := bind_ok hrow
  obtain ⟨outputItems, -, hrow⟩ := bind_ok hrow
  obtain rfl := Except.ok.inj hrow
  refine ⟨rfl, rfl, rfl, rfl, rfl, ?_, ?_⟩
  · exact ⟨requestItems, rfl, (encryptSessionValue_stored h.cipher hrequest).2⟩
  · exact ⟨responseItems, rfl, (encryptSessionValue_stored h.cipher hresponse).2⟩

theorem saveResponseState_new (h : env.Lawful) {nonces : StateNonces} {now : ℤ} {insert : ResponseStateInsert}
    {db db' : Database} (hsave : saveResponseState env nonces now insert db = .ok db')
    (hnew : ∀ row ∈ db.sessions, row.responseId ≠ insert.responseId) :
    ∃ row, RowOf env insert.responseId insert.identityId insert.requestItems insert.responseItems now row ∧
      db'.sessions = db.sessions ++ [row] := by
  obtain ⟨row, hrow, hsave⟩ := bind_ok hsave
  have hrowOf := newSession_ok h hrow
  unfold upsertSession at hsave
  split_ifs at hsave with hany hparent
  · obtain ⟨other, hother, hkey⟩ := List.any_eq_true.mp hany
    rw [hasKey_iff, hrowOf.responseId] at hkey
    exact absurd hkey.1 (hnew other hother)
  · obtain rfl := Except.ok.inj hsave
    exact ⟨row, hrowOf, rfl⟩

theorem readItems_stored (h : env.Lawful) {items : Value} (hitems : items.Built) {value : String}
    (hvalue : Stored env.cipher (env.serde.toStr items) value) (label : String) :
    readItems env value label = .ok (items.mapNumbers env.serde.reread) := by
  unfold readItems
  rw [hvalue.decrypts]
  change okOr (env.serde.fromStr (env.serde.toStr items)) _ = _
  rw [h.serde.fromStr_built hitems]
  rfl

theorem loadResponseState_found (h : env.Lawful) {db : Database} {row : ResponseSession}
    {responseId identityId : String} {requestItems responseItems : Value} {savedAt : ℤ}
    (hfind : db.sessions.find? (hasKey responseId identityId) = some row)
    (hrow : RowOf env responseId identityId requestItems responseItems savedAt row)
    (hrequest : requestItems.Built) (hresponse : responseItems.Built) (now : ℤ) :
    (seconds (savedAt + thirtyDays) * perSecond ≤ now ∧
      loadResponseState env db now identityId responseId = .ok none) ∨
    (now < seconds (savedAt + thirtyDays) * perSecond ∧
      ∃ state, loadResponseState env db now identityId responseId = .ok (some state) ∧
        state.requestItems = requestItems.mapNumbers env.serde.reread ∧
        state.responseItems = responseItems.mapNumbers env.serde.reread) := by
  obtain ⟨requestValue, hrequestValue, hrequestStored⟩ := hrow.requestItems
  obtain ⟨responseValue, hresponseValue, hresponseStored⟩ := hrow.responseItems
  have hformat : ¬(row.protocolFormat ≠ "responses_items_v1" ∨ row.status ≠ "completed") := by
    rw [not_or, not_not, not_not]
    exact ⟨hrow.protocolFormat, hrow.status⟩
  unfold loadResponseState
  rw [hfind]
  dsimp only
  rw [if_neg hformat, hrow.expiresAt, hrequestValue, hresponseValue]
  rcases le_or_gt (seconds (savedAt + thirtyDays) * perSecond) now with hexpired | hlive
  · refine .inl ⟨hexpired, ?_⟩
    change (if seconds (savedAt + thirtyDays) * perSecond ≤ now then Except.ok none else _) = _
    rw [if_pos hexpired]
  · refine .inr ⟨hlive, ?_⟩
    change ∃ state, (if seconds (savedAt + thirtyDays) * perSecond ≤ now then Except.ok none else _) = _ ∧ _
    rw [if_neg hlive.not_ge]
    change ∃ state, (readItems env requestValue _ >>= _) = _ ∧ _
    rw [readItems_stored h hrequest hrequestStored]
    change ∃ state, (readItems env responseValue _ >>= _) = _ ∧ _
    rw [readItems_stored h hresponse hresponseStored]
    exact ⟨_, rfl, rfl, rfl⟩

theorem mem_deleteExpired {now : ℤ} {db : Database} {row : ResponseSession}
    (h : row ∈ (deleteExpiredResponseStates now db).1.sessions) : row ∈ db.sessions :=
  (List.mem_filter.mp h).1

end states

end Prelay.Store.ResponseStates
