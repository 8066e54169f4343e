import Mathlib.Algebra.Order.Ring.Rat
import Prelay.AppError
import Prelay.ProviderStore

namespace Prelay.Store

open Json Bridge Relational

structure EndpointModelInput where
  providerId : String
  upstreamModel : String

structure CreateEndpointRequest where
  name : String
  protocol : Option String := none
  models : List EndpointModelInput

structure UpdateEndpointRequest where
  name : Option String := none
  protocol : Option String := none
  models : Option (List EndpointModelInput) := none

structure NormalizedModel where
  providerId : String
  upstreamModel : String
  modelName : String
  deriving DecidableEq

namespace Endpoints

section validation

def normalizeModel (normalized : List NormalizedModel) (model : EndpointModelInput) :
    Except StorageError (List NormalizedModel) :=
  let modelName := Str.trim model.upstreamModel
  if modelName = "" then .error (.validationFailed "接入点模型不能为空")
  else if normalized.any (fun other => other.modelName = modelName ∧ other.providerId = model.providerId) then
    .error (.validationFailed ("模型 " ++ modelName ++ " 在同一个供应商下重复绑定，请先移除重复项"))
  else .ok (normalized ++ [⟨model.providerId, modelName, modelName⟩])

def normalizeModels (models : List EndpointModelInput) : Except StorageError (List NormalizedModel) :=
  models.foldlM normalizeModel []

variable (serde : SerdeJson) (catalog : Option ProviderCatalog) (db : Database) (identityId : String)

def resolveModel (model : NormalizedModel) : Except StorageError NormalizedModel := do
  let usable ← canUseProviderOn db identityId model.providerId
  if ¬usable then .error .providerNotUsable
  else
    let provider ← okOr (findProvider db model.providerId) .providerNotUsable
    match catalog with
    | none => .ok model
    | some catalog =>
      if ¬(parseModels serde provider.modelsJson).contains model.modelName then
        .error (.validationFailed ("模型 " ++ model.modelName ++ " 不在供应商“" ++ provider.name ++
          "”的模型清单里，请先移除或改选后再保存"))
      else .ok { model with upstreamModel := catalog.providerUpstreamModel provider.providerType model.modelName }

def resolveModels (models : List NormalizedModel) : Except StorageError (List NormalizedModel) :=
  models.mapM (resolveModel serde catalog db identityId)

end validation

section statements

def findEndpoint (db : Database) (identityId endpointId : String) : Option EndpointConfig :=
  db.endpoints.find? (fun row => row.id = endpointId ∧ row.identityId = identityId)

def ensureNameAvailable (db : Database) (identityId name : String) (currentEndpointId : Option String) :
    Except StorageError Unit :=
  if db.endpoints.any (fun row => row.identityId = identityId ∧ row.name = name ∧ currentEndpointId ≠ some row.id) then
    .error (.validationFailed ("接入点名称“" ++ name ++ "”已被占用，请换一个名称"))
  else .ok ()

def insertEndpoint (row : EndpointConfig) (db : Database) : Except StorageError Database :=
  if db.endpoints.any (fun other => other.id = row.id ∨ other.token = row.token) then .error (.database .uniqueViolation)
  else if ¬endpointIdentity.HasParent db.identities row then .error (.database .foreignKeyViolation)
  else .ok { db with endpoints := db.endpoints ++ [row] }

def modelRow (ids : ℕ → String) (endpointId : String) (createdAt : ℤ) (candidateOrder : ℕ) (model : NormalizedModel) :
    EndpointModel :=
  ⟨ids candidateOrder, endpointId, model.modelName, model.providerId, model.upstreamModel, candidateOrder, createdAt⟩

def SameCandidate (row other : EndpointModel) : Prop :=
  other.id = row.id ∨ other.endpointId = row.endpointId ∧ other.modelName = row.modelName ∧
    other.providerId = row.providerId ∧ other.upstreamModel = row.upstreamModel

instance (row other : EndpointModel) : Decidable (SameCandidate row other) :=
  inferInstanceAs (Decidable (_ ∨ _))

def insertModel (db : Database) (row : EndpointModel) : Except StorageError Database :=
  if db.models.any (fun other => SameCandidate row other) then .error (.database .uniqueViolation)
  else if ¬(modelEndpoint.HasParent db.endpoints row ∧ modelProvider.HasParent db.providers row) then
    .error (.database .foreignKeyViolation)
  else .ok { db with models := db.models ++ [row] }

def insertModels (ids : ℕ → String) (endpointId : String) (models : List NormalizedModel) (createdAt : ℤ) (db : Database) :
    Except StorageError Database :=
  (models.mapIdx (modelRow ids endpointId createdAt)).foldlM insertModel db

def replaceModels (ids : ℕ → String) (endpointId : String) (models : List NormalizedModel) (createdAt : ℤ)
    (db : Database) : Except StorageError Database :=
  insertModels ids endpointId models createdAt { db with
    routes := db.routes.filter (fun row => row.endpointId ≠ endpointId)
    models := db.models.filter (fun row => row.endpointId ≠ endpointId) }

def updateEndpointRow (endpointId : String) (name protocol : Option String) (db : Database) :
    Except StorageError Database :=
  if name = none ∧ protocol = none then .ok db
  else if ¬db.endpoints.any (fun row => row.id = endpointId) then .error (.database .recordNotUpdated)
  else .ok { db with endpoints := db.endpoints.map (fun row =>
    if row.id = endpointId then { row with name := name.getD row.name, protocol := protocol.getD row.protocol }
    else row) }

end statements

section operations

variable (serde : SerdeJson) (catalog : Option ProviderCatalog) (identityId endpointId : String) (ids : ℕ → String)
  (createdAt : ℤ)

def create (token : String) (input : CreateEndpointRequest) (db : Database) : Except StorageError Database := do
  let name := Str.trim input.name
  if findIdentity db identityId = none then .error .identityNotFound
  else
    ensureNameAvailable db identityId name none
    let models ← normalizeModels input.models
    let models ← resolveModels serde catalog db identityId models
    let db ← insertEndpoint {
      id := endpointId
      identityId := identityId
      name := name
      protocol := Str.trim (input.protocol.getD "all")
      token := token
      createdAt := createdAt } db
    insertModels ids endpointId models createdAt db

def update (input : UpdateEndpointRequest) (db : Database) : Except StorageError Database := do
  let current ← okOr (findEndpoint db identityId endpointId) .endpointNotFound
  let name := (input.name.map Str.trim).getD current.name
  let models ← input.models.mapM normalizeModels
  ensureNameAvailable db identityId name (some endpointId)
  let models ← models.mapM (resolveModels serde catalog db identityId)
  let db ← updateEndpointRow endpointId (input.name.map Str.trim) (input.protocol.map Str.trim) db
  models.elim (.ok db) (fun models => replaceModels ids endpointId models createdAt db)

end operations

end Endpoints

section access

structure ProtocolAccess where
  identityId : String
  endpointId : String
  endpointName : String

structure RegistryProvider where
  id : String
  name : String
  providerType : String
  baseUrl : String
  apiKey : String
  capabilitiesJson : Option String
  models : List String
  createdAt : ℤ

def RegistryProvider.providesModel (provider : RegistryProvider) (modelId : String) : Bool :=
  provider.models.any (fun id => id = modelId)

structure ProtocolModel where
  model : EndpointModel
  provider : RegistryProvider

variable (serde : SerdeJson) (cipher : KeyCipher) (db : Database) (access : ProtocolAccess)

def protocolModel (model : EndpointModel) : Except StorageError (Option ProtocolModel) :=
  match findProvider db model.providerId with
  | none => .ok none
  | some provider => do
    let usable ← canUseProviderOn db access.identityId model.providerId
    if ¬usable then .ok none
    else
      let apiKey ← cipher.decrypt provider.apiKeyCiphertext
      .ok (some ⟨model, {
        id := provider.id
        name := provider.name
        providerType := provider.providerType
        baseUrl := provider.baseUrl
        apiKey := apiKey
        capabilitiesJson := provider.capabilitiesJson
        models := parseModels serde provider.modelsJson
        createdAt := provider.createdAt }⟩)

def candidateBefore (left right : EndpointModel) : Bool :=
  left.candidateOrder < right.candidateOrder ∨ left.candidateOrder = right.candidateOrder ∧ left.id ≤ right.id

def loadProtocolModels (modelName : Option String) : Except StorageError (List ProtocolModel) :=
  if Endpoints.findEndpoint db access.identityId access.endpointId = none then .ok []
  else
    let models := db.models.filter (fun model => model.endpointId = access.endpointId ∧
      ∀ name ∈ modelName, model.modelName = name)
    ((models.mergeSort candidateBefore).mapM (protocolModel serde cipher db access)).map List.reduceOption

def sortByLatency (latency : String → Option ℚ) (left right : ProtocolModel) : Bool :=
  match latency left.provider.id, latency right.provider.id with
  | some left, some right => left ≤ right
  | some _, none => true
  | none, some _ => false
  | none, none => true

def selectCandidates (latency : String → Option ℚ) (modelName : String) (candidates : List ProtocolModel) :
    List ProtocolModel :=
  if candidates.length < 2 then candidates
  else
    let route := db.routes.find? (fun route => route.endpointId = access.endpointId ∧ route.modelName = modelName)
    let active := route.bind (fun route => candidates.find? (fun candidate => candidate.provider.id = route.providerId))
    match active with
    | some active =>
      active :: (candidates.eraseP (fun candidate => candidate.provider.id = active.provider.id)).mergeSort
        (sortByLatency latency)
    | none => candidates.mergeSort (sortByLatency latency)

end access

section resolver

inductive UpstreamProtocol where
  | responses | chatCompletions | imageGenerations
  deriving DecidableEq

structure ResolverEnv where
  serde : SerdeJson
  cipher : KeyCipher
  latency : String → Option ℚ
  supportedProtocols : RegistryProvider → List UpstreamProtocol
  storageError : StorageError → AppError

variable (env : ResolverEnv)

def upstreamForDownstream (provider : RegistryProvider) (downstreamProtocol : String) : Option UpstreamProtocol :=
  let preference :=
    if downstreamProtocol = "responses" then [.responses, .chatCompletions]
    else if downstreamProtocol = "chat_completions" then [.chatCompletions]
    else if downstreamProtocol = "images_generations" then [.imageGenerations]
    else []
  preference.find? (fun protocol => (env.supportedProtocols provider).contains protocol)

structure ResolvedEndpointProvider where
  provider : RegistryProvider
  modelUpstream : String
  upstreamProtocol : UpstreamProtocol

def resolvedProvider (model downstreamProtocol : String) (resolved : ProtocolModel) : Option ResolvedEndpointProvider :=
  if ¬resolved.provider.providesModel model then none
  else (upstreamForDownstream env resolved.provider downstreamProtocol).map
    (fun protocol => ⟨resolved.provider, resolved.model.upstreamModel, protocol⟩)

def resolveEndpointModelCandidates (db : Database) (access : ProtocolAccess) (model downstreamProtocol : String) :
    Except AppError (List ResolvedEndpointProvider) := do
  let resolved ← (loadProtocolModels env.serde env.cipher db access (some model)).mapError env.storageError
  let resolved := selectCandidates db access env.latency model resolved
  let candidates := resolved.filterMap (resolvedProvider env model downstreamProtocol)
  if candidates.isEmpty then
    if resolved.any (fun resolved => !resolved.provider.providesModel model) then
      .error (.badRequest ("模型 " ++ model ++ " 不在供应商的模型清单里"))
    else .error (.badRequest ("接入点未配置支持 " ++ downstreamProtocol ++ " 的模型 " ++ model))
  else .ok candidates

end resolver

end Prelay.Store
