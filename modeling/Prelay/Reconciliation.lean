import Mathlib.Data.List.Nodup
import Prelay.ProviderRestart
import Prelay.TableSweep

namespace Prelay.Store

open Json Bridge Relational Sweep

inductive ProviderProtocol where
  | chatCompletions | responses | imagesGenerations
  deriving DecidableEq

structure ProviderProtocolBaseUrls where
  responses : Option String := none
  openai : Option String := none
  imagesGenerations : Option String := none
  deriving DecidableEq

namespace ProviderProtocolBaseUrls

def slot (urls : ProviderProtocolBaseUrls) : ProviderProtocol → Option String
  | .chatCompletions => urls.openai
  | .responses => urls.responses
  | .imagesGenerations => urls.imagesGenerations

def set (urls : ProviderProtocolBaseUrls) (url : String) : ProviderProtocol → ProviderProtocolBaseUrls
  | .chatCompletions => { urls with openai := some url }
  | .responses => { urls with responses := some url }
  | .imagesGenerations => { urls with imagesGenerations := some url }

theorem slot_set (urls : ProviderProtocolBaseUrls) (url : String) (protocol other : ProviderProtocol) :
    (urls.set url protocol).slot other = if other = protocol then some url else urls.slot other := by
  cases protocol <;> cases other <;> rfl

end ProviderProtocolBaseUrls

structure ProviderCapabilityOverrides where
  upstreamProtocols : Option (List String) := none
  protocolBaseUrls : Option ProviderProtocolBaseUrls := none
  toolCalls : Option Bool := none
  reasoning : Option Bool := none
  toolChoice : Option Bool := none
  parallelToolCalls : Option Bool := none
  systemMessages : Option Bool := none
  structuredOutputs : Option Bool := none
  streamingUsage : Option Bool := none
  maxContextTokens : Option ℤ := none
  maxOutputTokens : Option ℤ := none
  deriving DecidableEq

/-- The stored texts of the capability overrides; what is written is read back. -/
structure CapabilityCodec where
  parse : String → Option ProviderCapabilityOverrides
  toStr : ProviderCapabilityOverrides → String
  lossless : ∀ overrides, parse (toStr overrides) = some overrides

/-- A catalog with the addresses that its entries declare, one for a protocol. -/
structure StartupCatalog extends ProviderCatalog where
  protocolBaseUrls : String → List (ProviderProtocol × String)
  distinct : ∀ id, ((protocolBaseUrls id).map Prod.fst).Nodup

/-- The orders in which a select without an order returns its rows. -/
structure Scan where
  providers : List ProviderConfig → List ProviderConfig
  models : List EndpointModel → List EndpointModel
  providersPerm : ∀ rows, (providers rows).Perm rows
  modelsPerm : ∀ rows, (models rows).Perm rows

namespace Startup

section urls

variable (codec : CapabilityCodec) (catalog : StartupCatalog)

def capabilityOverrides (provider : ProviderConfig) : ProviderCapabilityOverrides :=
  (provider.capabilitiesJson.bind codec.parse).getD {}

def alignUrl (aligned : ProviderProtocolBaseUrls × Bool) (entry : ProviderProtocol × String) :
    ProviderProtocolBaseUrls × Bool :=
  if aligned.1.slot entry.1 ≠ some entry.2 then (aligned.1.set entry.2 entry.1, true) else aligned

def updateCapabilities (providerId : String) (capabilitiesJson : Option String) (db : Database) :
    Except StorageError Database :=
  if findProvider db providerId = none then .error (.database .recordNotUpdated)
  else .ok { db with providers := db.providers.map (fun row =>
    if row.id = providerId then { row with capabilitiesJson := capabilitiesJson } else row) }

def reconcileProvider (provider : ProviderConfig) (db : Database) : Except StorageError Database :=
  match catalog.provider provider.providerType with
  | none => .ok db
  | some _ =>
    let declared := catalog.protocolBaseUrls provider.providerType
    if declared.isEmpty then .ok db
    else
      let capabilities := capabilityOverrides codec provider
      let baseUrls := capabilities.protocolBaseUrls.getD {}
      let (baseUrls, changed) := declared.foldl alignUrl (baseUrls, false)
      if ¬changed then .ok db
      else
        let updated := codec.toStr { capabilities with protocolBaseUrls := some baseUrls }
        updateCapabilities provider.id (some updated) db

def reconcileProtocolBaseUrls (scan : Scan) (db : Database) : Database × Except StorageError Unit :=
  each (reconcileProvider codec catalog) (scan.providers db.providers) db

end urls

def RouteOf (route : EndpointModelRoute) (model : EndpointModel) : Prop :=
  route.endpointId = model.endpointId ∧ route.modelName = model.modelName ∧ route.providerId = model.providerId

instance (route : EndpointModelRoute) (model : EndpointModel) : Decidable (RouteOf route model) :=
  inferInstanceAs (Decidable (_ ∧ _))

section models

variable (serde : SerdeJson) (catalog : ProviderCatalog)

def providerTypes (providers : List ProviderConfig) (providerId : String) : Option (String × List String) :=
  (providers.reverse.find? (fun provider => provider.id = providerId)).map
    (fun provider => (provider.providerType, parseModels serde provider.modelsJson))

def deleteEndpointModel (model : EndpointModel) (db : Database) : Database :=
  (db.deleteRoutes (fun route => RouteOf route model)).deleteModels (fun row => row.id = model.id)

def candidate (model : EndpointModel) : String × String × String × String :=
  (model.endpointId, model.modelName, model.providerId, model.upstreamModel)

def updateUpstream (modelId upstreamModel : String) (db : Database) : Except StorageError Database :=
  let models := db.models.map (fun row => if row.id = modelId then { row with upstreamModel := upstreamModel } else row)
  if ¬db.models.any (fun row => row.id = modelId) then .error (.database .recordNotUpdated)
  else if ¬(models.map candidate).Nodup then .error (.database .uniqueViolation)
  else .ok { db with models := models }

def reconcileModel (providers : String → Option (String × List String)) (model : EndpointModel) (db : Database) :
    Except StorageError Database :=
  match providers model.providerId with
  | none => .ok (deleteEndpointModel model db)
  | some (providerType, providerModels) =>
    if ¬providerModels.contains model.modelName then .ok (deleteEndpointModel model db)
    else if (catalog.provider providerType).isNone then .ok db
    else
      let upstreamModel := catalog.providerUpstreamModel providerType model.modelName
      if model.upstreamModel ≠ upstreamModel then updateUpstream model.id upstreamModel db else .ok db

def reconcileEndpointModels (scan : Scan) (db : Database) : Database × Except StorageError Unit :=
  each (reconcileModel catalog (providerTypes serde (scan.providers db.providers))) (scan.models db.models) db

end models

def reconcile (serde : SerdeJson) (codec : CapabilityCodec) (catalog : StartupCatalog) (scan : Scan) (db : Database) :
    Database × Except StorageError Unit :=
  match reconcileProtocolBaseUrls codec catalog scan db with
  | (db, .ok ()) => reconcileEndpointModels serde catalog.toProviderCatalog scan db
  | (db, .error error) => (db, .error error)

section aligned

variable {codec : CapabilityCodec} {catalog : StartupCatalog}

theorem alignUrl_changed {declared : List (ProviderProtocol × String)} {urls : ProviderProtocolBaseUrls} :
    (declared.foldl alignUrl (urls, true)).2 = true := by
  induction declared generalizing urls with
  | nil => rfl
  | cons entry rest ih =>
    rw [List.foldl_cons, alignUrl]
    split
    · exact ih
    · exact ih

theorem alignUrl_unchanged_iff {declared : List (ProviderProtocol × String)} {urls : ProviderProtocolBaseUrls} :
    (declared.foldl alignUrl (urls, false)).2 = false ↔ ∀ entry ∈ declared, urls.slot entry.1 = some entry.2 := by
  induction declared with
  | nil => simp
  | cons entry rest ih =>
    rw [List.foldl_cons, alignUrl, List.forall_mem_cons]
    split
    · next hdiffers =>
      rw [alignUrl_changed]
      exact iff_of_false Bool.true_eq_false_eq_False (fun h => hdiffers h.1)
    · next hsame =>
      rw [ih, and_iff_right (not_not.mp hsame)]

theorem slot_aligned {declared : List (ProviderProtocol × String)} (hdistinct : (declared.map Prod.fst).Nodup)
    (urls : ProviderProtocolBaseUrls) (changed : Bool) (protocol : ProviderProtocol) :
    (declared.foldl alignUrl (urls, changed)).1.slot protocol =
      ((declared.find? (fun entry => entry.1 = protocol)).map Prod.snd).or (urls.slot protocol) := by
  induction declared generalizing urls changed with
  | nil => simp
  | cons entry rest ih =>
    obtain ⟨hentry, hrest⟩ := List.nodup_cons.mp hdistinct
    have hnone (heq : entry.1 = protocol) : rest.find? (fun other => other.1 = protocol) = none := by
      rw [List.find?_eq_none]
      intro other hother hprotocol
      exact hentry (heq ▸ of_decide_eq_true hprotocol ▸ List.mem_map_of_mem hother)
    have hslot : (alignUrl (urls, changed) entry).1.slot protocol =
        if protocol = entry.1 then some entry.2 else urls.slot protocol := by
      rw [alignUrl]
      split
      · exact ProviderProtocolBaseUrls.slot_set urls entry.2 entry.1 protocol
      · next hsame =>
        split
        · next heq => rw [heq, not_not.mp hsame]
        · rfl
    rw [List.foldl_cons, ih hrest, hslot, List.find?_cons]
    by_cases heq : entry.1 = protocol
    · simp [heq, hnone heq]
    · simp [heq, Ne.symm heq]

def baseUrl (overrides : ProviderCapabilityOverrides) (protocol : ProviderProtocol) : Option String :=
  (overrides.protocolBaseUrls.getD {}).slot protocol

def declaredUrl (catalog : StartupCatalog) (providerType : String) (protocol : ProviderProtocol) : Option String :=
  if catalog.provider providerType = none then none
  else ((catalog.protocolBaseUrls providerType).find? (fun entry => entry.1 = protocol)).map Prod.snd

def alignedUrls (codec : CapabilityCodec) (catalog : StartupCatalog) (provider : ProviderConfig) :
    ProviderProtocolBaseUrls × Bool :=
  (catalog.protocolBaseUrls provider.providerType).foldl alignUrl
    ((capabilityOverrides codec provider).protocolBaseUrls.getD {}, false)

def alignedProvider (codec : CapabilityCodec) (catalog : StartupCatalog) (provider : ProviderConfig) : ProviderConfig :=
  if catalog.provider provider.providerType ≠ none ∧ (alignedUrls codec catalog provider).2 = true then
    { provider with capabilitiesJson := some (codec.toStr { capabilityOverrides codec provider with
        protocolBaseUrls := some (alignedUrls codec catalog provider).1 }) }
  else provider

theorem reconcileProvider_cases (provider : ProviderConfig) (db : Database) :
    alignedProvider codec catalog provider = provider ∧ reconcileProvider codec catalog provider db = .ok db ∨
      reconcileProvider codec catalog provider db =
        updateCapabilities provider.id (alignedProvider codec catalog provider).capabilitiesJson db := by
  have hfold : (catalog.protocolBaseUrls provider.providerType).foldl alignUrl
    ((capabilityOverrides codec provider).protocolBaseUrls.getD {}, false) = alignedUrls codec catalog provider := rfl
  rw [alignedProvider, reconcileProvider]
  cases hentry : catalog.provider provider.providerType with
  | none => exact .inl ⟨by simp, rfl⟩
  | some entry =>
    cases hchanged : (alignedUrls codec catalog provider).2 with
    | true =>
      right
      have hdeclared : (catalog.protocolBaseUrls provider.providerType).isEmpty = false := by
        rw [alignedUrls] at hchanged
        cases hlist : catalog.protocolBaseUrls provider.providerType with
        | nil =>
          rw [hlist] at hchanged
          exact nomatch hchanged
        | cons entry rest => rfl
      simp [hdeclared, hfold, hchanged]
    | false =>
      left
      simp [hfold, hchanged]

structure Aligned (codec : CapabilityCodec) (catalog : StartupCatalog) (provider aligned : ProviderConfig) : Prop where
  columns : { aligned with capabilitiesJson := provider.capabilitiesJson } = provider
  uncatalogued : catalog.provider provider.providerType = none → aligned = provider
  overrides : { capabilityOverrides codec aligned with
      protocolBaseUrls := (capabilityOverrides codec provider).protocolBaseUrls } = capabilityOverrides codec provider
  urls : ∀ protocol, baseUrl (capabilityOverrides codec aligned) protocol =
    (declaredUrl catalog provider.providerType protocol).or (baseUrl (capabilityOverrides codec provider) protocol)

theorem alignedProvider_spec (codec : CapabilityCodec) (catalog : StartupCatalog) (provider : ProviderConfig) :
    Aligned codec catalog provider (alignedProvider codec catalog provider) := by
  have hslots (protocol : ProviderProtocol) := slot_aligned (catalog.distinct provider.providerType)
    ((capabilityOverrides codec provider).protocolBaseUrls.getD {}) false protocol
  by_cases hchanged : catalog.provider provider.providerType ≠ none ∧ (alignedUrls codec catalog provider).2 = true
  · have hread : capabilityOverrides codec (alignedProvider codec catalog provider) =
        { capabilityOverrides codec provider with
          protocolBaseUrls := some (alignedUrls codec catalog provider).1 } := by
      rw [alignedProvider, if_pos hchanged]
      simp only [capabilityOverrides, Option.bind_some, codec.lossless, Option.getD_some]
    refine ⟨?_, fun hnone => absurd hnone hchanged.1, by rw [hread], fun protocol => ?_⟩
    · rw [alignedProvider, if_pos hchanged]
    · rw [hread, declaredUrl, if_neg hchanged.1]
      exact hslots protocol
  · rw [alignedProvider, if_neg hchanged]
    refine ⟨rfl, fun _ => rfl, rfl, fun protocol => ?_⟩
    rw [declaredUrl]
    split
    · rfl
    · next hentry =>
      have hsame : (alignedUrls codec catalog provider).2 = false := by
        simpa [hentry] using hchanged
      have hall := alignUrl_unchanged_iff.mp hsame
      cases hfind : (catalog.protocolBaseUrls provider.providerType).find? (fun entry => entry.1 = protocol) with
      | none => rfl
      | some entry =>
        have hprotocol : entry.1 = protocol := by simpa using List.find?_some hfind
        exact hprotocol ▸ hall entry (List.mem_of_find?_eq_some hfind)

theorem alignedProvider_id (provider : ProviderConfig) :
    (alignedProvider codec catalog provider).id = provider.id ∧
      (alignedProvider codec catalog provider).providerType = provider.providerType ∧
      (alignedProvider codec catalog provider).modelsJson = provider.modelsJson := by
  rw [alignedProvider]
  split
  · exact ⟨rfl, rfl, rfl⟩
  · exact ⟨rfl, rfl, rfl⟩

theorem alignedProvider_idempotent (provider : ProviderConfig) :
    alignedProvider codec catalog (alignedProvider codec catalog provider) =
      alignedProvider codec catalog provider := by
  have hspec := alignedProvider_spec codec catalog provider
  have htype := (@alignedProvider_id codec catalog provider).2.1
  rw [alignedProvider.eq_1 codec catalog (alignedProvider codec catalog provider), if_neg]
  rintro ⟨hentry, hchanged⟩
  rw [htype] at hentry
  have hsame : (alignedUrls codec catalog (alignedProvider codec catalog provider)).2 = false := by
    apply alignUrl_unchanged_iff.mpr
    intro entry hmem
    rw [htype] at hmem
    have hurl := hspec.urls entry.1
    rw [declaredUrl, if_neg hentry] at hurl
    have hsome : ((catalog.protocolBaseUrls provider.providerType).find? (fun other => other.1 = entry.1)).isSome :=
      List.find?_isSome.mpr ⟨entry, hmem, decide_eq_true rfl⟩
    obtain ⟨found, hfind⟩ := Option.isSome_iff_exists.mp hsome
    have hfound : found = entry := List.inj_on_of_nodup_map (catalog.distinct provider.providerType)
      (List.mem_of_find?_eq_some hfind) hmem (by simpa using List.find?_some hfind)
    rw [hfind, hfound] at hurl
    exact hurl
  rw [hsame] at hchanged
  exact nomatch hchanged

theorem updateCapabilities_ok {db : Database} {providerId : String}
    (hmem : ∃ provider ∈ db.providers, provider.id = providerId) (capabilitiesJson : Option String) :
    updateCapabilities providerId capabilitiesJson db = .ok { db with providers := db.providers.map (fun row =>
      if row.id = providerId then { row with capabilitiesJson := capabilitiesJson } else row) } := by
  rw [updateCapabilities, if_neg]
  obtain ⟨provider, hprovider, hid⟩ := hmem
  intro hnone
  exact List.find?_eq_none.mp hnone provider hprovider (decide_eq_true hid)

def alignedRow (codec : CapabilityCodec) (catalog : StartupCatalog) (provider : ProviderConfig) :
    Option ProviderConfig := some (alignedProvider codec catalog provider)

theorem keepsKey_aligned : KeepsKey ProviderConfig.id (alignedRow codec catalog) := by
  intro provider kept hkept
  rw [← Option.some.inj hkept]
  exact (alignedProvider_id provider).1

def alignedUpTo (codec : CapabilityCodec) (catalog : StartupCatalog) (done : List String) (db : Database) : Database :=
  { db with providers := settled ProviderConfig.id (alignedRow codec catalog) done db.providers }

theorem reconcileProvider_step {db : Database} (hkey : (db.providers.map ProviderConfig.id).Nodup)
    {provider : ProviderConfig} (hmem : provider ∈ db.providers) {done : List String} (hnew : provider.id ∉ done) :
    reconcileProvider codec catalog provider (alignedUpTo codec catalog done db) =
      .ok (alignedUpTo codec catalog (done ++ [provider.id]) db) := by
  rcases @reconcileProvider_cases codec catalog provider (alignedUpTo codec catalog done db) with ⟨hsame, hok⟩ | hupdate
  · rw [hok, alignedUpTo, alignedUpTo, settled_same (alignedRow codec catalog) done hkey hmem (congrArg some hsame)]
  · let set (row : ProviderConfig) : ProviderConfig :=
      { row with capabilitiesJson := (alignedProvider codec catalog provider).capabilitiesJson }
    have hset : alignedRow codec catalog provider = some (set provider) := by
      simp only [alignedRow, set, alignedProvider]
      split
      · rfl
      · rfl
    have hmem' : provider ∈ (alignedUpTo codec catalog done db).providers := mem_settled hmem hnew
    rw [hupdate, updateCapabilities_ok ⟨provider, hmem', rfl⟩, alignedUpTo, alignedUpTo,
      ← Sweep.settled_update hkey keepsKey_aligned hmem hnew set hset]

theorem not_mem_passed {α κ : Type} {key : α → κ} {rows done rest : List α} {row : α} (hnodup : (rows.map key).Nodup)
    (hrows : done ++ row :: rest = rows) : key row ∉ done.map key := by
  rw [← hrows, List.map_append, List.map_cons] at hnodup
  exact fun hin => (List.nodup_append.mp hnodup).2.2 _ hin _ List.mem_cons_self rfl

theorem reconcileProtocolBaseUrls_eq (scan : Scan) {db : Database} (hkey : (db.providers.map ProviderConfig.id).Nodup) :
    reconcileProtocolBaseUrls codec catalog scan db =
      ({ db with providers := db.providers.map (alignedProvider codec catalog) }, .ok ()) := by
  have hperm := scan.providersPerm db.providers
  have hnodup : ((scan.providers db.providers).map ProviderConfig.id).Nodup := (hperm.map _).nodup_iff.mpr hkey
  obtain ⟨hstate, hok⟩ := each_all (reconcileProvider codec catalog)
    (fun done state => state = alignedUpTo codec catalog (done.map ProviderConfig.id) db) (scan.providers db.providers)
    (fun done provider rest state hrows hdone => by
      have hmem : provider ∈ db.providers := hperm.subset (hrows ▸ by simp)
      refine ⟨_, hdone ▸ reconcileProvider_step hkey hmem (not_mem_passed hnodup hrows), ?_⟩
      rw [List.map_append, List.map_singleton])
    (by rw [List.map_nil, alignedUpTo, settled_nil])
  have hmap : db.providers.filterMap (alignedRow codec catalog) = db.providers.map (alignedProvider codec catalog) :=
    congrFun List.filterMap_eq_map' db.providers
  rw [alignedUpTo, settled_all (fun row hrow => List.mem_map_of_mem (hperm.symm.subset hrow)), hmap] at hstate
  exact Prod.ext hstate hok

end aligned

section settledModels

variable {env : StartupEnv} {catalog : ProviderCatalog} {db : Database}

def upstreamOf (env : StartupEnv) (catalog : ProviderCatalog) (db : Database) (providerId modelName : String) :
    Option (Option String) :=
  match findProvider db providerId with
  | none => none
  | some provider =>
    if ¬(parseModels env.serde provider.modelsJson).contains modelName then none
    else if catalog.provider provider.providerType = none then some none
    else some (some (catalog.providerUpstreamModel provider.providerType modelName))

theorem reconciledModel_eq (model : EndpointModel) :
    reconciledModel env catalog db model = (upstreamOf env catalog db model.providerId model.modelName).map
      (fun upstream => { model with upstreamModel := upstream.getD model.upstreamModel }) := by
  unfold reconciledModel upstreamOf
  cases findProvider db model.providerId with
  | none => rfl
  | some provider =>
    dsimp only
    split_ifs
    · rfl
    · rfl
    · rfl

theorem keepsKey_reconciled : KeepsKey EndpointModel.id (reconciledModel env catalog db) := by
  intro model kept hkept
  rw [reconciledModel_eq] at hkept
  obtain ⟨upstream, -, rfl⟩ := Option.map_eq_some_iff.mp hkept
  rfl

theorem providerTypes_eq (serde : SerdeJson) {providers : List ProviderConfig} (hperm : providers.Perm db.providers)
    (hkey : (db.providers.map ProviderConfig.id).Nodup) (providerId : String) :
    providerTypes serde providers providerId = (findProvider db providerId).map
      (fun provider => (provider.providerType, parseModels serde provider.modelsJson)) := by
  have hreverse : providers.reverse.Perm db.providers := (List.reverse_perm providers).trans hperm
  have hnodup : (providers.reverse.map ProviderConfig.id).Nodup := (hreverse.map _).nodup_iff.mpr hkey
  unfold providerTypes
  congr 1
  apply Option.ext
  intro provider
  rw [find?_key hnodup, findProvider_iff hkey, hreverse.mem_iff]

def SameTarget (model other : EndpointModel) : Prop :=
  model.endpointId = other.endpointId ∧ model.modelName = other.modelName ∧ model.providerId = other.providerId

instance (model other : EndpointModel) : Decidable (SameTarget model other) := inferInstanceAs (Decidable (_ ∧ _))

def reconciledUpTo (env : StartupEnv) (catalog : ProviderCatalog) (done : List String) (db : Database) : Database :=
  let removed := db.models.filter (fun model => model.id ∈ done ∧ (reconciledModel env catalog db model).isNone)
  { db with
    models := settled EndpointModel.id (reconciledModel env catalog db) done db.models
    routes := db.routes.filter (fun route => !removed.any (fun model => RouteOf route model)) }

def UniqueCandidates (db : Database) : Prop := (db.models.map candidate).Nodup

instance (db : Database) : Decidable (UniqueCandidates db) := inferInstanceAs (Decidable (List.Nodup _))

theorem reconciledUpTo_delete (hkey : (db.models.map EndpointModel.id).Nodup) {model : EndpointModel}
    (hmem : model ∈ db.models) {done : List String} (hnew : model.id ∉ done)
    (hgone : reconciledModel env catalog db model = none) :
    deleteEndpointModel model (reconciledUpTo env catalog done db) =
      reconciledUpTo env catalog (done ++ [model.id]) db := by
  have hmodels := settled_delete hkey keepsKey_reconciled hmem hnew hgone
  have hroutes : (reconciledUpTo env catalog done db).routes.filter (fun route => !decide (RouteOf route model)) =
      (reconciledUpTo env catalog (done ++ [model.id]) db).routes := by
    simp only [reconciledUpTo, List.filter_filter]
    apply List.filter_congr
    intro route _
    rw [Bool.eq_iff_iff]
    simp only [Bool.and_eq_true, Bool.not_eq_true', decide_eq_false_iff_not, List.any_eq_false, List.mem_filter,
      decide_eq_true_eq, List.mem_append, List.mem_singleton]
    constructor
    · rintro ⟨hother, hrest⟩ removed ⟨hremoved, hin | heq, hnone⟩
      · exact hrest removed ⟨hremoved, hin, hnone⟩
      · rwa [List.inj_on_of_nodup_map hkey hremoved hmem heq]
    · intro hall
      refine ⟨hall model ⟨hmem, .inr rfl, by rw [hgone]; rfl⟩, fun removed hremoved => ?_⟩
      exact hall removed ⟨hremoved.1, .inl hremoved.2.1, hremoved.2.2⟩
  rw [deleteEndpointModel, Database.deleteModels, Database.deleteRoutes]
  rw [hroutes]
  exact congrArg (fun models => { reconciledUpTo env catalog (done ++ [model.id]) db with models := models }) hmodels

theorem reconciledUpTo_same (hkey : (db.models.map EndpointModel.id).Nodup) {model : EndpointModel}
    (hmem : model ∈ db.models) (done : List String) {kept : EndpointModel}
    (hkept : reconciledModel env catalog db model = some kept) :
    (reconciledUpTo env catalog (done ++ [model.id]) db).routes = (reconciledUpTo env catalog done db).routes := by
  simp only [reconciledUpTo]
  congr 3
  funext route
  congr 2
  apply List.filter_congr
  intro other hother
  rw [decide_eq_decide, List.mem_append, List.mem_singleton]
  constructor
  · rintro ⟨hin | heq, hnone⟩
    · exact ⟨hin, hnone⟩
    · rw [List.inj_on_of_nodup_map hkey hother hmem heq, hkept] at hnone
      exact nomatch hnone
  · exact fun h => ⟨.inl h.1, h.2⟩

theorem candidates_deleted {model : EndpointModel} (h : UniqueCandidates db) :
    UniqueCandidates (deleteEndpointModel model db) :=
  h.sublist (List.filter_sublist.map candidate)

theorem updateUpstream_eq (hkey : (db.models.map EndpointModel.id).Nodup) {model : EndpointModel}
    (hmem : model ∈ db.models) {done : List String} (hnew : model.id ∉ done) {upstream : String}
    (hkept : reconciledModel env catalog db model = some { model with upstreamModel := upstream }) :
    updateUpstream model.id upstream (reconciledUpTo env catalog done db) =
      if UniqueCandidates (reconciledUpTo env catalog (done ++ [model.id]) db) then
        .ok (reconciledUpTo env catalog (done ++ [model.id]) db)
      else .error (.database .uniqueViolation) := by
  have hin : model ∈ (reconciledUpTo env catalog done db).models := mem_settled hmem hnew
  have hany : (reconciledUpTo env catalog done db).models.any (fun row => row.id = model.id) = true :=
    List.any_eq_true.mpr ⟨model, hin, decide_eq_true rfl⟩
  have hmodels : (reconciledUpTo env catalog done db).models.map (fun row =>
      if row.id = model.id then { row with upstreamModel := upstream } else row) =
        (reconciledUpTo env catalog (done ++ [model.id]) db).models :=
    Sweep.settled_update hkey keepsKey_reconciled hmem hnew (fun row => { row with upstreamModel := upstream }) hkept
  have hroutes := reconciledUpTo_same hkey hmem done hkept
  rw [updateUpstream, if_neg (by rw [hany]; exact not_not.mpr rfl), hmodels]
  by_cases hunique : UniqueCandidates (reconciledUpTo env catalog (done ++ [model.id]) db)
  · rw [if_pos hunique]
    refine (if_neg (not_not.mpr hunique)).trans ?_
    exact congrArg (fun routes =>
      Except.ok { reconciledUpTo env catalog (done ++ [model.id]) db with routes := routes }) hroutes.symm
  · rw [if_neg hunique]
    exact if_pos hunique

theorem reconcileModel_step (hkey : (db.models.map EndpointModel.id).Nodup)
    {providers : String → Option (String × List String)}
    (hproviders : ∀ id, providers id = (findProvider db id).map (fun provider =>
      (provider.providerType, parseModels env.serde provider.modelsJson)))
    {model : EndpointModel} (hmem : model ∈ db.models) {done : List String} (hnew : model.id ∉ done)
    (hunique : UniqueCandidates (reconciledUpTo env catalog done db)) :
    reconcileModel catalog providers model (reconciledUpTo env catalog done db) =
      if UniqueCandidates (reconciledUpTo env catalog (done ++ [model.id]) db) then
        .ok (reconciledUpTo env catalog (done ++ [model.id]) db)
      else .error (.database .uniqueViolation) := by
  have hdelete (hgone : reconciledModel env catalog db model = none) :
      .ok (deleteEndpointModel model (reconciledUpTo env catalog done db)) =
        if UniqueCandidates (reconciledUpTo env catalog (done ++ [model.id]) db) then
          .ok (reconciledUpTo env catalog (done ++ [model.id]) db)
        else Except.error (StorageError.database .uniqueViolation) := by
    have hstate := reconciledUpTo_delete hkey hmem hnew hgone
    rw [if_pos (hstate ▸ candidates_deleted hunique), hstate]
  have hsame (hkept : reconciledModel env catalog db model = some model) :
      .ok (reconciledUpTo env catalog done db) =
        if UniqueCandidates (reconciledUpTo env catalog (done ++ [model.id]) db) then
          .ok (reconciledUpTo env catalog (done ++ [model.id]) db)
        else Except.error (StorageError.database .uniqueViolation) := by
    have hstate : reconciledUpTo env catalog (done ++ [model.id]) db = reconciledUpTo env catalog done db := by
      have hroutes := reconciledUpTo_same hkey hmem done hkept
      have hmodels := settled_same (reconciledModel env catalog db) done hkey hmem hkept
      rw [reconciledUpTo, ← hmodels]
      exact congrArg (fun routes => { reconciledUpTo env catalog done db with routes := routes }) hroutes
    rw [hstate, if_pos hunique]
  rw [reconcileModel, hproviders]
  cases hfound : findProvider db model.providerId with
  | none => exact hdelete (by simp [reconciledModel, hfound])
  | some provider =>
    simp only [Option.map_some]
    split
    · next hmissing =>
      apply hdelete
      simp only [reconciledModel, hfound, if_pos hmissing]
    · next hoffered =>
      split
      · next hentry =>
        apply hsame
        simp only [reconciledModel, hfound, if_neg hoffered, Option.isNone_iff_eq_none.mp hentry, ↓reduceIte]
      · next hentry =>
        have hkept : reconciledModel env catalog db model = some { model with
            upstreamModel := catalog.providerUpstreamModel provider.providerType model.modelName } := by
          simp only [reconciledModel, hfound, if_neg hoffered,
            if_neg (fun h => hentry (Option.isNone_iff_eq_none.mpr h))]
        split
        · exact updateUpstream_eq hkey hmem hnew hkept
        · next hupstream =>
          apply hsame
          rw [hkept, ← not_not.mp hupstream]

theorem reconciledUpTo_nil (env : StartupEnv) (catalog : ProviderCatalog) (db : Database) :
    reconciledUpTo env catalog [] db = db := by
  simp only [reconciledUpTo, settled_nil]
  simp

variable (env catalog) in
theorem reconcileEndpointModels_passed (scan : Scan) (hproviders : (db.providers.map ProviderConfig.id).Nodup)
    (hkey : (db.models.map EndpointModel.id).Nodup) (hunique : UniqueCandidates db) :
    ∃ done, (reconcileEndpointModels env.serde catalog scan db).1 = reconciledUpTo env catalog done db ∧
      UniqueCandidates (reconciledUpTo env catalog done db) ∧
      ((reconcileEndpointModels env.serde catalog scan db).2 = .ok () → ∀ model ∈ db.models, model.id ∈ done) := by
  have hperm := scan.modelsPerm db.models
  have hnodup : ((scan.models db.models).map EndpointModel.id).Nodup := (hperm.map _).nodup_iff.mpr hkey
  have htypes := @providerTypes_eq db env.serde _ (scan.providersPerm db.providers) hproviders
  obtain ⟨done, rest, hrows, ⟨hstate, hdone⟩, hall⟩ := each_passed
    (reconcileModel catalog (providerTypes env.serde (scan.providers db.providers)))
    (fun done state => state = reconciledUpTo env catalog (done.map EndpointModel.id) db ∧ UniqueCandidates state)
    (scan.models db.models)
    (fun done model rest state state' hrows hdone hstep => by
      obtain ⟨rfl, hunique⟩ := hdone
      have hmem : model ∈ db.models := hperm.subset (hrows ▸ by simp)
      rw [reconcileModel_step hkey htypes hmem (not_mem_passed hnodup hrows) hunique] at hstep
      split at hstep
      · next hnext =>
        obtain rfl := Except.ok.inj hstep
        rw [List.map_append, List.map_singleton]
        exact ⟨rfl, hnext⟩
      · exact nomatch hstep)
    ⟨(reconciledUpTo_nil env catalog db).symm, hunique⟩
  refine ⟨done.map EndpointModel.id, hstate, hstate ▸ hdone, fun hok model hmodel => ?_⟩
  rw [hall hok, List.append_nil] at hrows
  exact List.mem_map_of_mem (hrows ▸ hperm.symm.subset hmodel)

theorem upstreamOf_target {model other : EndpointModel} (h : SameTarget model other) :
    upstreamOf env catalog db model.providerId model.modelName =
      upstreamOf env catalog db other.providerId other.modelName := by
  rw [h.2.1, h.2.2]

/-- The catalog gives the model a name under a provider that enables it. -/
def Renamed (env : StartupEnv) (catalog : ProviderCatalog) (db : Database) (model : EndpointModel) : Prop :=
  ∃ provider ∈ db.providers, provider.id = model.providerId ∧
    model.modelName ∈ parseModels env.serde provider.modelsJson ∧ catalog.provider provider.providerType ≠ none

theorem renamed_iff (hkey : (db.providers.map ProviderConfig.id).Nodup) (model : EndpointModel) :
    Renamed env catalog db model ↔
      ∃ upstream, upstreamOf env catalog db model.providerId model.modelName = some (some upstream) := by
  unfold Renamed upstreamOf
  constructor
  · rintro ⟨provider, hmem, hid, hname, hentry⟩
    rw [(findProvider_iff hkey).mpr ⟨hmem, hid⟩]
    exact ⟨catalog.providerUpstreamModel provider.providerType model.modelName, by simp [hname, hentry]⟩
  · rintro ⟨upstream, h⟩
    cases hfound : findProvider db model.providerId with
    | none => simp [hfound] at h
    | some provider =>
      obtain ⟨hmem, hid⟩ := (findProvider_iff hkey).mp hfound
      simp only [hfound] at h
      split_ifs at h with hname hentry
      · exact nomatch Option.some.inj h
      · exact ⟨provider, hmem, hid, by simpa using hname, hentry⟩

/-- No two models that the catalog names are of one endpoint, model and provider. -/
def NoTwins (env : StartupEnv) (catalog : ProviderCatalog) (db : Database) : Prop :=
  ∀ model ∈ db.models, ∀ other ∈ db.models, Renamed env catalog db model → SameTarget model other → model = other

theorem mem_reconciledUpTo {done : List String} {kept : EndpointModel}
    (h : kept ∈ (reconciledUpTo env catalog done db).models) :
    ∃ model ∈ db.models, kept.id = model.id ∧ SameTarget kept model ∧
      (kept = model ∨ reconciledModel env catalog db model = some kept) := by
  obtain ⟨model, hmem, hkept⟩ := List.mem_filterMap.mp h
  split at hkept
  · refine ⟨model, hmem, keepsKey_reconciled model kept hkept, ?_, .inr hkept⟩
    rw [reconciledModel_eq] at hkept
    obtain ⟨upstream, -, rfl⟩ := Option.map_eq_some_iff.mp hkept
    exact ⟨rfl, rfl, rfl⟩
  · obtain rfl := Option.some.inj hkept
    exact ⟨model, hmem, rfl, ⟨rfl, rfl, rfl⟩, .inl rfl⟩

theorem candidate_eq_iff {model other : EndpointModel} :
    candidate model = candidate other ↔ SameTarget model other ∧ model.upstreamModel = other.upstreamModel := by
  simp only [candidate, Prod.mk.injEq, SameTarget]
  tauto

theorem renamed_target (hkey : (db.providers.map ProviderConfig.id).Nodup) {model other : EndpointModel}
    (h : SameTarget model other) : Renamed env catalog db model ↔ Renamed env catalog db other := by
  rw [renamed_iff hkey, renamed_iff hkey, upstreamOf_target h]

theorem unnamed_same (hkey : (db.providers.map ProviderConfig.id).Nodup) {model kept : EndpointModel}
    (hrenamed : ¬Renamed env catalog db model) (hkept : reconciledModel env catalog db model = some kept) :
    kept = model := by
  rw [reconciledModel_eq] at hkept
  obtain ⟨upstream, hupstream, rfl⟩ := Option.map_eq_some_iff.mp hkept
  cases upstream with
  | none => rfl
  | some upstream => exact absurd ((renamed_iff hkey model).mpr ⟨upstream, hupstream⟩) hrenamed

theorem NoTwins.unique (h : NoTwins env catalog db) (hproviders : (db.providers.map ProviderConfig.id).Nodup)
    (hkey : (db.models.map EndpointModel.id).Nodup) (hunique : UniqueCandidates db) (done : List String) :
    UniqueCandidates (reconciledUpTo env catalog done db) := by
  have hkeys : ((reconciledUpTo env catalog done db).models.map EndpointModel.id).Nodup :=
    keys_settled_nodup hkey keepsKey_reconciled done
  apply List.Nodup.map_on ?_ (List.Nodup.of_map _ hkeys)
  intro first hfirst second hsecond heq
  obtain ⟨model, hmodel, hid, htarget, hfrom⟩ := mem_reconciledUpTo hfirst
  obtain ⟨other, hother, hid', htarget', hfrom'⟩ := mem_reconciledUpTo hsecond
  have hsame : SameTarget model other := by
    obtain ⟨hendpoint, hname, hprovider⟩ := (candidate_eq_iff.mp heq).1
    exact ⟨htarget.1.symm.trans (hendpoint.trans htarget'.1), htarget.2.1.symm.trans (hname.trans htarget'.2.1),
      htarget.2.2.symm.trans (hprovider.trans htarget'.2.2)⟩
  apply List.inj_on_of_nodup_map hkeys hfirst hsecond
  suffices hmodels : model = other by rw [hid, hid', hmodels]
  by_cases hrenamed : Renamed env catalog db model
  · exact h model hmodel other hother hrenamed hsame
  · -- neither row is rewritten, so that they were one candidate before
    have hfirst := hfrom.elim id (unnamed_same hproviders hrenamed)
    have hsecond := hfrom'.elim id (unnamed_same hproviders (mt (renamed_target hproviders hsame).mpr hrenamed))
    exact List.inj_on_of_nodup_map hunique hmodel hother (hfirst ▸ hsecond ▸ heq)

end settledModels

end Startup

end Prelay.Store
