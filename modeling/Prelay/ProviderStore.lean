import Prelay.IdentityCleanup
import Prelay.JsonReread

namespace Prelay.Store

open Json Bridge Relational

structure KeyCipher where
  encrypt : ℕ → String → Except StorageError String
  decrypt : String → Except StorageError String

/-- What the storage is built on. The capability overrides of a request are taken by the text they are stored as. -/
structure StorageEnv where
  serde : SerdeJson
  cipher : KeyCipher
  Capabilities : Type
  capabilitiesJson : Capabilities → Except String String

section catalog

structure CatalogProvider where
  languageModels : List String
  imageGenerationModels : List String
  upstreamModelNames : List (String × String) := []

/-- The catalog by the ids of its providers, which are loaded without surrounding blanks. -/
structure ProviderCatalog where
  provider : String → Option CatalogProvider
  trimmed : ∀ id, (provider id).isSome → Str.trim id = id

namespace ProviderCatalog

variable (catalog : ProviderCatalog)

def providerSupportsLanguageModel (providerId modelId : String) : Bool :=
  (catalog.provider providerId).any (fun provider => provider.languageModels.contains modelId)

def providerSupportsImageGenerationModel (providerId modelId : String) : Bool :=
  (catalog.provider providerId).any (fun provider => provider.imageGenerationModels.contains modelId)

def providerUpstreamModel (providerId modelId : String) : String :=
  ((catalog.provider providerId).bind (fun provider => provider.upstreamModelNames.lookup modelId)).getD modelId

def models (providerId : String) : List String :=
  (catalog.provider providerId).elim [] (fun provider => provider.languageModels ++ provider.imageGenerationModels)

theorem supports_iff (providerId modelId : String) :
    (catalog.providerSupportsLanguageModel providerId modelId = true ∨
      catalog.providerSupportsImageGenerationModel providerId modelId = true) ↔ modelId ∈ catalog.models providerId := by
  unfold providerSupportsLanguageModel providerSupportsImageGenerationModel models
  cases catalog.provider providerId with
  | none => simp
  | some provider => simp

end ProviderCatalog

end catalog

section validation

def normalizeModel (normalized : List String) (modelId : String) : Except StorageError (List String) :=
  let modelId := Str.trim modelId
  if modelId = "" then .error (.validationFailed "供应商模型不能为空")
  else if modelId ∈ normalized then .ok normalized
  else .ok (normalized ++ [modelId])

def normalizeModels (models : List String) : Except StorageError (List String) := models.foldlM normalizeModel []

def validateModels (catalog : ProviderCatalog) (providerType : String) (models : List String) :
    Except StorageError Unit :=
  let missing := models.filter (fun modelId =>
    !catalog.providerSupportsLanguageModel providerType modelId &&
      !catalog.providerSupportsImageGenerationModel providerType modelId)
  if missing.isEmpty then .ok ()
  else .error (.validationFailed ("供应商 " ++ providerType ++ " 的目录条目里已没有模型 " ++ Str.join "、" missing ++
    "，请先移除后再保存"))

def modelsJson (serde : SerdeJson) (models : List String) : Option String :=
  if models.isEmpty then none else some (serde.toStr (.array (models.map .string)))

def stringList (value : Value) : Option (List String) := value.asArray.bind (fun items => items.mapM Value.asStr)

def parseModels (serde : SerdeJson) (value : Option String) : List String :=
  (value.bind (fun text => (serde.fromStr text).bind stringList)).getD []

def validateCatalogProvider (catalog : ProviderCatalog) (providerType : String) : Except StorageError Unit :=
  let providerType := Str.trim providerType
  if (catalog.provider providerType).isSome then .ok ()
  else .error (.validationFailed ("供应商类型 " ++ providerType ++ " 不在当前模型目录里"))

def resolveProviderModels (catalog : Option ProviderCatalog) (providerType : String) (models : List String) :
    Except StorageError (List String) := do
  let models ← normalizeModels models
  catalog.elim (.ok ()) (fun catalog => validateModels catalog providerType models)
  .ok models

def catalogModels (catalog : Option ProviderCatalog) (providerType : String) : List String :=
  catalog.elim [] (fun catalog => catalog.models providerType)

end validation

section visibility

inductive ProviderVisibility where
  | private_ | selected | all
  deriving DecidableEq

structure VisibleProvider where
  provider : ProviderConfig
  ownerIdentityId : String
  ownerDisplayName : String
  visibility : ProviderVisibility
  canManage : Bool
  deriving DecidableEq

def parseVisibility (value : String) : Except StorageError ProviderVisibility :=
  if value = "private" then .ok .private_
  else if value = "selected" then .ok .selected
  else if value = "all" then .ok .all
  else .error (.invalidProviderSharing ("unknown visibility " ++ value))

def visibilityValue : ProviderVisibility → String
  | .private_ => "private"
  | .selected => "selected"
  | .all => "all"

variable (db : Database) (identityId : String)

def findIdentity (id : String) : Option Identity := db.identities.find? (fun row => row.id = id)

def findProvider (id : String) : Option ProviderConfig := db.providers.find? (fun row => row.id = id)

def sharedWith (providerId : String) : ProviderVisibility → Bool
  | .private_ => false
  | .all => (findIdentity db identityId).isSome
  | .selected => db.shares.any (fun share => share.providerId = providerId ∧ share.granteeIdentityId = identityId)

def visibleProvider (provider : ProviderConfig) : Except StorageError (Option VisibleProvider) := do
  let visibility ← parseVisibility provider.visibility
  let isOwner := provider.identityId = identityId
  if ¬(isOwner ∨ sharedWith db identityId provider.id visibility) then .ok none
  else
    let owner ← okOr (findIdentity db provider.identityId) .identityNotFound
    .ok (some {
      ownerIdentityId := owner.id
      ownerDisplayName := owner.displayName
      canManage := isOwner
      visibility := visibility
      provider := provider })

def canUseProviderOn (providerId : String) : Except StorageError Bool :=
  match findProvider db providerId with
  | none => .ok false
  | some provider => (visibleProvider db identityId provider).map Option.isSome

def ownedProvider (providerId : String) : Except StorageError ProviderConfig := do
  let provider ← okOr (findProvider db providerId) .providerNotFound
  if provider.identityId = identityId then .ok provider
  else
    let visible ← visibleProvider db identityId provider
    .error (if visible.isSome then .providerSharingNotAllowed else .providerNotFound)

end visibility

section providers

variable (env : StorageEnv)

structure CreateProviderRequest where
  name : String
  providerType : String
  baseUrl : String
  apiKey : String
  capabilities : Option env.Capabilities
  models : Option (List String)

structure UpdateProviderRequest where
  name : Option String := none
  providerType : Option String := none
  baseUrl : Option String := none
  apiKey : Option String := none
  capabilities : Option env.Capabilities := none
  models : Option (List String) := none

structure ProviderChanges where
  name : Option String
  providerType : Option String
  baseUrl : Option String
  apiKeyCiphertext : String
  capabilitiesJson : Option String
  modelsJson : Option String
  deriving DecidableEq

def ProviderChanges.apply (changes : ProviderChanges) (row : ProviderConfig) : ProviderConfig :=
  { row with
    name := changes.name.getD row.name
    providerType := changes.providerType.getD row.providerType
    baseUrl := changes.baseUrl.getD row.baseUrl
    apiKeyCiphertext := changes.apiKeyCiphertext
    capabilitiesJson := changes.capabilitiesJson
    modelsJson := changes.modelsJson }

def storedCapabilities (capabilities : env.Capabilities) : Except StorageError String :=
  (env.capabilitiesJson capabilities).mapError .crypto

def insertProvider (row : ProviderConfig) (db : Database) : Except StorageError Database :=
  if row.id ∈ db.providers.map ProviderConfig.id then .error (.database .uniqueViolation)
  else .ok { db with providers := db.providers ++ [row] }

variable {env} (catalog : Option ProviderCatalog) (identityId : String)

def createInner (providerId : String) (createdAt : ℤ) (nonce : ℕ) (input : CreateProviderRequest env) (db : Database) :
    Except StorageError (String × Database) := do
  catalog.elim (.ok ()) (fun catalog => validateCatalogProvider catalog input.providerType)
  let models ← input.models.elim (.ok (catalogModels catalog input.providerType))
    (resolveProviderModels catalog input.providerType)
  let apiKeyCiphertext ← env.cipher.encrypt nonce input.apiKey
  let capabilitiesJson ← input.capabilities.mapM (storedCapabilities env)
  if findIdentity db identityId = none then .error .identityNotFound
  else
    let db ← insertProvider {
      id := providerId
      identityId := identityId
      name := Str.trim input.name
      providerType := Str.trim input.providerType
      visibility := "private"
      baseUrl := Str.trim input.baseUrl
      apiKeyCiphertext := apiKeyCiphertext
      capabilitiesJson := capabilitiesJson
      modelsJson := modelsJson env.serde models
      createdAt := createdAt } db
    .ok (providerId, db)

def providerChanges (nonce : ℕ) (input : UpdateProviderRequest env) (existing : ProviderConfig) :
    Except StorageError ProviderChanges := do
  let providerType := Str.trim (input.providerType.getD existing.providerType)
  catalog.elim (.ok ()) (fun catalog => validateCatalogProvider catalog providerType)
  let modelsJson ← input.models.elim (.ok existing.modelsJson)
    (fun models => (resolveProviderModels catalog providerType models).map (modelsJson env.serde))
  let capabilitiesJson ← input.capabilities.elim (.ok existing.capabilitiesJson)
    (fun capabilities => (storedCapabilities env capabilities).map some)
  let apiKeyCiphertext ← input.apiKey.elim (.ok existing.apiKeyCiphertext) (env.cipher.encrypt nonce)
  .ok {
    name := input.name.map Str.trim
    providerType := input.providerType.map Str.trim
    baseUrl := input.baseUrl.map Str.trim
    apiKeyCiphertext := apiKeyCiphertext
    capabilitiesJson := capabilitiesJson
    modelsJson := modelsJson }

def updateProviderRow (providerId : String) (changes : ProviderChanges) (db : Database) : Except StorageError Database :=
  if findProvider db providerId = none then .error (.database .recordNotUpdated)
  else .ok { db with
    providers := db.providers.map (fun row => if row.id = providerId then changes.apply row else row) }

def updateProvider (providerId : String) (nonce : ℕ) (input : UpdateProviderRequest env) (db : Database) :
    Except StorageError Database := do
  let existing ← ownedProvider db identityId providerId
  let changes ← providerChanges catalog nonce input existing
  updateProviderRow providerId changes db

end providers

section models

variable {serde : SerdeJson}

theorem mapM_asStr (models : List String) : (models.map Value.string).mapM Value.asStr = some models := by
  induction models with
  | nil => rfl
  | cons model models ih =>
    rw [List.map_cons, List.mapM_cons, ih]
    rfl

theorem parse_toStr (hserde : serde.Lawful) (models : List String) :
    parseModels serde (some (serde.toStr (.array (models.map .string)))) = models := by
  rw [parseModels, Option.bind_some, hserde.fromStr_stable (Value.stable_strings models) (by decide), Option.bind_some,
    stringList, Value.asArray, Option.bind_some, mapM_asStr]
  rfl

theorem parse_modelsJson (hserde : serde.Lawful) (models : List String) :
    parseModels serde (modelsJson serde models) = models := by
  unfold modelsJson
  cases models with
  | nil => rfl
  | cons model models => exact parse_toStr hserde (model :: models)

theorem validateModels_ok {catalog : ProviderCatalog} {providerType : String} {models : List String}
    (h : validateModels catalog providerType models = .ok ()) : ∀ model ∈ models, model ∈ catalog.models providerType := by
  unfold validateModels at h
  dsimp only at h
  split_ifs at h with hmissing
  intro model hmodel
  rw [← ProviderCatalog.supports_iff]
  by_contra hnot
  rw [not_or, Bool.not_eq_true, Bool.not_eq_true] at hnot
  have hmem : model ∈ models.filter (fun modelId => !catalog.providerSupportsLanguageModel providerType modelId &&
      !catalog.providerSupportsImageGenerationModel providerType modelId) :=
    List.mem_filter.mpr ⟨hmodel, by simp [hnot]⟩
  rw [List.isEmpty_iff.mp hmissing] at hmem
  exact nomatch hmem

theorem resolveProviderModels_ok {catalog : ProviderCatalog} {providerType : String} {given models : List String}
    (h : resolveProviderModels (some catalog) providerType given = .ok models) :
    ∀ model ∈ models, model ∈ catalog.models providerType := by
  obtain ⟨normalized, -, h⟩ := bind_ok h
  obtain ⟨_, hvalid, h⟩ := bind_ok h
  obtain rfl := Except.ok.inj h
  exact validateModels_ok hvalid

theorem validateCatalogProvider_ok {catalog : ProviderCatalog} {providerType : String}
    (h : validateCatalogProvider catalog providerType = .ok ()) : (catalog.provider (Str.trim providerType)).isSome := by
  unfold validateCatalogProvider at h
  dsimp only at h
  split_ifs at h with hsome
  exact hsome

theorem normalizeModel_ne_nil {normalized next : List String} {model : String}
    (h : normalizeModel normalized model = .ok next) : next ≠ [] := by
  unfold normalizeModel at h
  dsimp only at h
  split_ifs at h with hempty hmem
  · rw [← Except.ok.inj h]
    exact List.ne_nil_of_mem hmem
  · rw [← Except.ok.inj h]
    simp

theorem foldlM_normalizeModel_nil {start models normalized : List String}
    (h : models.foldlM normalizeModel start = .ok normalized) : normalized = [] ↔ start = [] ∧ models = [] := by
  induction models generalizing start with
  | nil => simp [← Except.ok.inj h]
  | cons model models ih =>
    rw [List.foldlM_cons] at h
    obtain ⟨next, hnext, h⟩ := bind_ok h
    rw [ih h]
    simp [normalizeModel_ne_nil hnext]

theorem normalizeModels_nil {models normalized : List String} (h : normalizeModels models = .ok normalized) :
    normalized = [] ↔ models = [] := by
  simpa using foldlM_normalizeModel_nil h

theorem resolveProviderModels_nil {catalog : Option ProviderCatalog} {providerType : String} {given models : List String}
    (h : resolveProviderModels catalog providerType given = .ok models) : models = [] ↔ given = [] := by
  obtain ⟨normalized, hnormal, h⟩ := bind_ok h
  obtain ⟨_, -, h⟩ := bind_ok h
  obtain rfl := Except.ok.inj h
  exact normalizeModels_nil hnormal

theorem modelsJson_none {models : List String} : modelsJson serde models = none ↔ models = [] := by
  unfold modelsJson
  cases models with
  | nil => simp
  | cons model models => simp

end models

section accepted

variable {env : StorageEnv} {catalog : ProviderCatalog} {identityId providerId : String} {db db' : Database}

theorem findProvider_iff (hkey : (db.providers.map ProviderConfig.id).Nodup) {id : String} {provider : ProviderConfig} :
    findProvider db id = some provider ↔ provider ∈ db.providers ∧ provider.id = id := find?_key hkey

theorem findProvider_id {id : String} {provider : ProviderConfig} (h : findProvider db id = some provider) :
    provider.id = id := by
  simpa using List.find?_some h

theorem ownedProvider_ok {provider : ProviderConfig} (h : ownedProvider db identityId providerId = .ok provider) :
    findProvider db providerId = some provider ∧ provider.identityId = identityId := by
  obtain ⟨found, hfound, h⟩ := bind_ok h
  split_ifs at h with howner
  · obtain rfl := Except.ok.inj h
    exact ⟨okOr_ok hfound, howner⟩
  · obtain ⟨_, -, h⟩ := bind_ok h
    exact nomatch h

theorem insertProvider_ok {row : ProviderConfig} (h : insertProvider row db = .ok db') :
    row.id ∉ db.providers.map ProviderConfig.id ∧ db' = { db with providers := db.providers ++ [row] } := by
  unfold insertProvider at h
  split_ifs at h with hexists
  exact ⟨hexists, (Except.ok.inj h).symm⟩

def updatedType (input : UpdateProviderRequest env) (existing : ProviderConfig) : String :=
  (input.providerType.map Str.trim).getD existing.providerType

theorem createInner_ok {createdAt : ℤ} {nonce : ℕ} {input : CreateProviderRequest env} {id : String}
    (h : createInner (some catalog) identityId providerId createdAt nonce input db = .ok (id, db')) :
    ∃ row models, row.id = providerId ∧ row.id ∉ db.providers.map ProviderConfig.id ∧
      row.providerType = Str.trim input.providerType ∧ (catalog.provider row.providerType).isSome ∧
      input.models.elim (.ok (catalog.models input.providerType))
        (resolveProviderModels (some catalog) input.providerType) = .ok models ∧
      row.modelsJson = modelsJson env.serde models ∧
      db' = { db with providers := db.providers ++ [row] } := by
  obtain ⟨_, hvalid, h⟩ := bind_ok h
  obtain ⟨models, hmodels, h⟩ := bind_ok h
  obtain ⟨ciphertext, -, h⟩ := bind_ok h
  obtain ⟨capabilities, -, h⟩ := bind_ok h
  split_ifs at h
  obtain ⟨inserted, hinsert, h⟩ := bind_ok h
  obtain ⟨-, rfl⟩ := Prod.mk.inj (Except.ok.inj h)
  obtain ⟨hfresh, heq⟩ := insertProvider_ok hinsert
  exact ⟨_, models, rfl, hfresh, rfl, validateCatalogProvider_ok hvalid, hmodels, rfl, heq⟩

theorem providerChanges_ok {nonce : ℕ} {input : UpdateProviderRequest env} {existing : ProviderConfig}
    {changes : ProviderChanges} (h : providerChanges (some catalog) nonce input existing = .ok changes) :
    changes.providerType = input.providerType.map Str.trim ∧
      (catalog.provider (Str.trim (input.providerType.getD existing.providerType))).isSome ∧
      (match input.models with
        | some given => ∃ models, changes.modelsJson = modelsJson env.serde models ∧ resolveProviderModels (some catalog)
            (Str.trim (input.providerType.getD existing.providerType)) given = .ok models
        | none => changes.modelsJson = existing.modelsJson) := by
  obtain ⟨_, hvalid, h⟩ := bind_ok h
  obtain ⟨json, hjson, h⟩ := bind_ok h
  obtain ⟨capabilities, -, h⟩ := bind_ok h
  obtain ⟨ciphertext, -, h⟩ := bind_ok h
  obtain rfl := Except.ok.inj h
  have hsome := validateCatalogProvider_ok hvalid
  rw [Str.trim_trim] at hsome
  refine ⟨rfl, hsome, ?_⟩
  cases hgiven : input.models with
  | none =>
    rw [hgiven] at hjson
    exact (Except.ok.inj hjson).symm
  | some given =>
    rw [hgiven] at hjson
    obtain ⟨models, hmodels, rfl⟩ := map_ok hjson
    exact ⟨models, rfl, hmodels⟩

theorem updateProvider_ok {nonce : ℕ} {input : UpdateProviderRequest env}
    (h : updateProvider (some catalog) identityId providerId nonce input db = .ok db') :
    ∃ existing changes, findProvider db providerId = some existing ∧
      providerChanges (some catalog) nonce input existing = .ok changes ∧
      db' = { db with
        providers := db.providers.map (fun row => if row.id = providerId then changes.apply row else row) } := by
  obtain ⟨existing, howned, h⟩ := bind_ok h
  obtain ⟨changes, hchanges, h⟩ := bind_ok h
  unfold updateProviderRow at h
  split_ifs at h
  exact ⟨existing, changes, (ownedProvider_ok howned).1, hchanges, (Except.ok.inj h).symm⟩

end accepted

end Prelay.Store
