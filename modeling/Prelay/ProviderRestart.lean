import Prelay.ProviderStore
import Prelay.JsonRoundTrip
import Prelay.Runs

namespace Prelay.Store

open Json Bridge Relational Runs

section startup

/-- What the startup is built on. The capability overrides with the addresses of a catalog entry are taken by their
text. -/
structure StartupEnv extends StorageEnv where
  reconcileCapabilities : CatalogProvider → Option String → Option String

variable (env : StartupEnv) (catalog : ProviderCatalog)

def withoutProtocolOverrides (provider : ProviderConfig) : ProviderConfig :=
  match provider.capabilitiesJson.bind env.serde.fromStr with
  | some (.object members) =>
    if members.any (fun member => member.1 = "upstream_protocols") then { provider with
      capabilitiesJson := some (env.serde.toStr (.object (members.filter (fun member =>
        member.1 ≠ "upstream_protocols")))) }
    else provider
  | _ => provider

def stripLegacyProtocolOverrides (db : Database) : Database :=
  { db with providers := db.providers.map (withoutProtocolOverrides env) }

def withModels (disabled : String → List String) (provider : ProviderConfig) : ProviderConfig :=
  if provider.modelsJson.isSome then provider
  else match catalog.provider provider.providerType with
    | none => provider
    | some catalogProvider =>
      let models := (catalogProvider.languageModels ++ catalogProvider.imageGenerationModels).filter
        (fun modelId => !(disabled provider.id).contains modelId)
      { provider with modelsJson := some (env.serde.toStr (.array (models.map .string))) }

/-- `disabled` are the lists of the legacy column, none once that column is gone. -/
def migrateProviderModels (disabled : String → List String) (db : Database) : Database :=
  { db with providers := db.providers.map (withModels env catalog disabled) }

def withProtocolBaseUrls (provider : ProviderConfig) : ProviderConfig :=
  match catalog.provider provider.providerType with
  | none => provider
  | some catalogProvider =>
    { provider with capabilitiesJson := env.reconcileCapabilities catalogProvider provider.capabilitiesJson }

def reconcileProtocolBaseUrls (db : Database) : Database :=
  { db with providers := db.providers.map (withProtocolBaseUrls env catalog) }

def reconciledModel (db : Database) (model : EndpointModel) : Option EndpointModel :=
  match findProvider db model.providerId with
  | none => none
  | some provider =>
    if ¬(parseModels env.serde provider.modelsJson).contains model.modelName then none
    else if catalog.provider provider.providerType = none then some model
    else some { model with
      upstreamModel := catalog.providerUpstreamModel provider.providerType model.modelName }

def reconcileEndpointModels (db : Database) : Database :=
  let removed := db.models.filter (fun model => (reconciledModel env catalog db model).isNone)
  { db with
    models := db.models.filterMap (reconciledModel env catalog db)
    routes := db.routes.filter (fun route => !removed.any (fun model =>
      route.endpointId = model.endpointId ∧ route.modelName = model.modelName ∧ route.providerId = model.providerId)) }

def initializeWithCatalog (db : Database) : Database :=
  let db := stripLegacyProtocolOverrides env db
  let db := migrateProviderModels env catalog (fun _ => []) db
  let db := reconcileProtocolBaseUrls env catalog db
  reconcileEndpointModels env catalog db

end startup

section survives

variable (env : StartupEnv) (catalog : ProviderCatalog)

def enabledModels (serde : SerdeJson) (db : Database) : List (String × List String) :=
  db.providers.map (fun provider => (provider.id, parseModels serde provider.modelsJson))

def enabledEndpointModels (serde : SerdeJson) (db : Database) : List EndpointModel :=
  (db.models.filter (fun model => ∃ enabled ∈ enabledModels serde db,
    enabled.1 = model.providerId ∧ model.modelName ∈ enabled.2)).map (fun model => { model with upstreamModel := "" })

/-- A restart keeps the enabled models and the endpoint models that reference them. -/
def Survives (db : Database) : Prop :=
  enabledModels env.serde (initializeWithCatalog env catalog db) = enabledModels env.serde db ∧
    enabledEndpointModels env.serde (initializeWithCatalog env catalog db) = enabledEndpointModels env.serde db

/-- A provider without a stored list is of a type that offers no models. -/
def Settled (db : Database) : Prop :=
  ∀ provider ∈ db.providers, provider.modelsJson = none → catalog.models provider.providerType = []

end survives

section restart

variable {env : StartupEnv} {catalog : ProviderCatalog} {db : Database}

def restartedProvider (env : StartupEnv) (catalog : ProviderCatalog) (provider : ProviderConfig) : ProviderConfig :=
  withProtocolBaseUrls env catalog (withModels env catalog (fun _ => []) (withoutProtocolOverrides env provider))

def restartedModels (env : StartupEnv) (catalog : ProviderCatalog) (provider : ProviderConfig) : List String :=
  if provider.modelsJson = none then catalog.models provider.providerType
  else parseModels env.serde provider.modelsJson

theorem withoutProtocolOverrides_frame (provider : ProviderConfig) :
    (withoutProtocolOverrides env provider).id = provider.id ∧
      (withoutProtocolOverrides env provider).providerType = provider.providerType ∧
      (withoutProtocolOverrides env provider).modelsJson = provider.modelsJson := by
  unfold withoutProtocolOverrides
  split
  · split_ifs
    · exact ⟨rfl, rfl, rfl⟩
    · exact ⟨rfl, rfl, rfl⟩
  · exact ⟨rfl, rfl, rfl⟩

theorem withProtocolBaseUrls_frame (provider : ProviderConfig) :
    (withProtocolBaseUrls env catalog provider).id = provider.id ∧
      (withProtocolBaseUrls env catalog provider).providerType = provider.providerType ∧
      (withProtocolBaseUrls env catalog provider).modelsJson = provider.modelsJson := by
  unfold withProtocolBaseUrls
  split
  · exact ⟨rfl, rfl, rfl⟩
  · exact ⟨rfl, rfl, rfl⟩

theorem withModels_frame (hserde : env.serde.Lawful) (provider : ProviderConfig) :
    (withModels env catalog (fun _ => []) provider).id = provider.id ∧
      parseModels env.serde (withModels env catalog (fun _ => []) provider).modelsJson =
        restartedModels env catalog provider := by
  unfold withModels restartedModels ProviderCatalog.models
  by_cases hstored : provider.modelsJson = none
  · rw [if_neg (by simp [hstored]), if_pos hstored]
    cases catalog.provider provider.providerType with
    | none =>
      refine ⟨rfl, ?_⟩
      dsimp only
      rw [hstored]
      rfl
    | some catalogProvider =>
      refine ⟨rfl, ?_⟩
      simp only [List.contains_nil, Bool.not_false, List.filter_true, Option.elim_some]
      exact parse_toStr hserde _
  · rw [if_pos (Option.isSome_iff_ne_none.mpr hstored), if_neg hstored]
    exact ⟨rfl, rfl⟩

theorem restartedProvider_spec (hserde : env.serde.Lawful) (provider : ProviderConfig) :
    (restartedProvider env catalog provider).id = provider.id ∧
      parseModels env.serde (restartedProvider env catalog provider).modelsJson =
        restartedModels env catalog provider := by
  obtain ⟨hid, htype, hjson⟩ := @withoutProtocolOverrides_frame env provider
  obtain ⟨hmodelsId, hmodels⟩ := @withModels_frame env catalog hserde (withoutProtocolOverrides env provider)
  obtain ⟨hurlId, -, hurl⟩ := @withProtocolBaseUrls_frame env catalog
    (withModels env catalog (fun _ => []) (withoutProtocolOverrides env provider))
  unfold restartedProvider
  rw [hurlId, hurl, hmodelsId, hmodels, hid]
  refine ⟨rfl, ?_⟩
  unfold restartedModels
  rw [htype, hjson]

def beforeReconcile (env : StartupEnv) (catalog : ProviderCatalog) (db : Database) : Database :=
  { db with providers := db.providers.map (restartedProvider env catalog) }

theorem initializeWithCatalog_eq (db : Database) :
    initializeWithCatalog env catalog db = reconcileEndpointModels env catalog (beforeReconcile env catalog db) := by
  unfold initializeWithCatalog beforeReconcile stripLegacyProtocolOverrides migrateProviderModels
    reconcileProtocolBaseUrls
  dsimp only
  rw [List.map_map, List.map_map]
  rfl

theorem enabledModels_restart (hserde : env.serde.Lawful) (db : Database) :
    enabledModels env.serde (initializeWithCatalog env catalog db) =
      db.providers.map (fun provider => (provider.id, restartedModels env catalog provider)) := by
  rw [initializeWithCatalog_eq, enabledModels, reconcileEndpointModels, beforeReconcile, List.map_map]
  apply List.map_congr_left
  intro provider _
  obtain ⟨hid, hmodels⟩ := @restartedProvider_spec env catalog hserde provider
  rw [Function.comp_apply, hid, hmodels]

theorem restartedModels_settled {provider : ProviderConfig} :
    restartedModels env catalog provider = parseModels env.serde provider.modelsJson ↔
      (provider.modelsJson = none → catalog.models provider.providerType = []) := by
  unfold restartedModels
  by_cases hstored : provider.modelsJson = none
  · rw [if_pos hstored, hstored]
    simp [parseModels]
  · rw [if_neg hstored]
    simp [hstored]

theorem enabledModels_restart_iff (hserde : env.serde.Lawful) (db : Database) :
    enabledModels env.serde (initializeWithCatalog env catalog db) = enabledModels env.serde db ↔ Settled catalog db := by
  rw [enabledModels_restart hserde, enabledModels, List.map_inj_left]
  refine forall₂_congr (fun provider _ => ?_)
  rw [Prod.mk.injEq, restartedModels_settled]
  simp

theorem findProvider_beforeReconcile (hserde : env.serde.Lawful) (id : String) :
    findProvider (beforeReconcile env catalog db) id = (findProvider db id).map (restartedProvider env catalog) :=
  find?_map_key (fun provider => (@restartedProvider_spec env catalog hserde provider).1) id

theorem reconciledModel_isSome (hserde : env.serde.Lawful) (hkey : (db.providers.map ProviderConfig.id).Nodup)
    (h : Settled catalog db) (model : EndpointModel) :
    (reconciledModel env catalog (beforeReconcile env catalog db) model).isSome ↔
      ∃ enabled ∈ enabledModels env.serde db, enabled.1 = model.providerId ∧ model.modelName ∈ enabled.2 := by
  have hlist (provider) (hmem : provider ∈ db.providers) :
      parseModels env.serde (restartedProvider env catalog provider).modelsJson =
        parseModels env.serde provider.modelsJson :=
    (restartedProvider_spec hserde provider).2.trans (restartedModels_settled.mpr (h provider hmem))
  unfold reconciledModel
  rw [findProvider_beforeReconcile hserde]
  constructor
  · intro hkept
    cases hfound : findProvider db model.providerId with
    | none => simp [hfound] at hkept
    | some provider =>
      obtain ⟨hmem, hid⟩ := (findProvider_iff hkey).mp hfound
      refine ⟨_, List.mem_map_of_mem hmem, hid, ?_⟩
      by_contra hnot
      simp [hfound, hlist provider hmem, hnot] at hkept
  · rintro ⟨_, hmem, hid, hname⟩
    obtain ⟨provider, hprovider, rfl⟩ := List.mem_map.mp hmem
    rw [(findProvider_iff hkey).mpr ⟨hprovider, hid⟩]
    simp only [Option.map_some, hlist provider hprovider]
    rw [if_neg (by simpa using hname)]
    split_ifs
    · rfl
    · rfl

theorem reconciledModel_frame {model kept : EndpointModel} (h : reconciledModel env catalog db model = some kept) :
    { kept with upstreamModel := "" } = { model with upstreamModel := "" } := by
  unfold reconciledModel at h
  split at h
  · exact nomatch h
  · split_ifs at h
    · rw [Option.some.inj h]
    · rw [← Option.some.inj h]

theorem map_filterMap_filter {α β : Type} {f : α → Option α} {p : α → Bool} {g : α → β} {rows : List α}
    (hp : ∀ row, (f row).isSome = p row) (hg : ∀ row kept, f row = some kept → g kept = g row) :
    (rows.filterMap f).map g = (rows.filter p).map g := by
  induction rows with
  | nil => rfl
  | cons row rows ih =>
    cases hrow : f row with
    | none =>
      have hnot : p row = false := by rw [← hp, hrow, Option.isSome_none]
      rw [List.filterMap_cons_none hrow, List.filter_cons_of_neg (by simp [hnot]), ih]
    | some kept =>
      have hkept : p row = true := by rw [← hp, hrow, Option.isSome_some]
      rw [List.filterMap_cons_some hrow, List.filter_cons_of_pos hkept, List.map_cons, List.map_cons, ih, hg row kept hrow]

theorem enabledEndpointModels_restart (hserde : env.serde.Lawful) (hkey : (db.providers.map ProviderConfig.id).Nodup)
    (h : Settled catalog db) :
    enabledEndpointModels env.serde (initializeWithCatalog env catalog db) = enabledEndpointModels env.serde db := by
  have henabled := (enabledModels_restart_iff hserde db).mpr h
  have hsome := @reconciledModel_isSome env catalog db hserde hkey h
  unfold enabledEndpointModels
  rw [henabled, initializeWithCatalog_eq, reconcileEndpointModels]
  dsimp only
  -- every model that a restart keeps is a model of an enabled one
  rw [List.filter_eq_self.mpr]
  · apply map_filterMap_filter
    · intro model
      rw [Bool.eq_iff_iff, hsome, decide_eq_true_iff]
    · intro model kept hkept
      exact reconciledModel_frame hkept
  · intro kept hkept
    obtain ⟨model, -, hmodel⟩ := List.mem_filterMap.mp hkept
    have hframe := reconciledModel_frame hmodel
    rw [EndpointModel.mk.injEq] at hframe
    rw [decide_eq_true_iff, hframe.2.2.1, hframe.2.2.2.1]
    exact (hsome model).mp (hmodel ▸ rfl)

theorem survives_iff_settled (hserde : env.serde.Lawful) (hkey : (db.providers.map ProviderConfig.id).Nodup) :
    Survives env catalog db ↔ Settled catalog db := by
  constructor
  · rintro ⟨hmodels, -⟩
    exact (enabledModels_restart_iff hserde db).mp hmodels
  · intro h
    exact ⟨(enabledModels_restart_iff hserde db).mpr h, enabledEndpointModels_restart hserde hkey h⟩

end restart

section runs

variable (env : StartupEnv) (catalog : ProviderCatalog)

inductive ProviderOp where
  | create (identityId providerId : String) (createdAt : ℤ) (nonce : ℕ)
      (input : CreateProviderRequest env.toStorageEnv)
  | update (identityId providerId : String) (nonce : ℕ) (input : UpdateProviderRequest env.toStorageEnv)
  | endpoints (configs : List EndpointConfig) (models : List EndpointModel) (routes : List EndpointModelRoute)
  | restart

def ProviderOp.step (db : Database) : ProviderOp env → Except StorageError Database
  | .create identityId providerId createdAt nonce input =>
    (createInner (some catalog) identityId providerId createdAt nonce input db).map Prod.snd
  | .update identityId providerId nonce input => updateProvider (some catalog) identityId providerId nonce input db
  | .endpoints configs models routes => .ok { db with endpoints := configs, models := models, routes := routes }
  | .restart => .ok (initializeWithCatalog env catalog db)

def ProviderStep (db : Database) (op : ProviderOp env) (db' : Database) : Prop := op.step env catalog db = .ok db'

variable {env}

def SafeCreate (input : CreateProviderRequest env.toStorageEnv) : Prop :=
  catalog.models (Str.trim input.providerType) = [] ∨
    input.models.elim (Str.trim input.providerType = input.providerType) (fun models => models ≠ [])

def SafeUpdate (input : UpdateProviderRequest env.toStorageEnv) (existing : ProviderConfig) : Prop :=
  catalog.models (updatedType input existing) = [] ∨
    input.models.elim (existing.modelsJson ≠ none) (fun models => models ≠ [])

def ProviderOp.Safe (db : Database) : ProviderOp env → Prop
  | .create _ _ _ _ input => SafeCreate catalog input
  | .update _ providerId _ input => ∀ existing, findProvider db providerId = some existing →
      SafeUpdate catalog input existing
  | .endpoints _ _ _ => True
  | .restart => True

end runs

section steps

variable {env : StartupEnv} {catalog : ProviderCatalog} {db db' : Database} {identityId providerId : String}

theorem settled_append {row : ProviderConfig} :
    Settled catalog { db with providers := db.providers ++ [row] } ↔
      Settled catalog db ∧ (row.modelsJson = none → catalog.models row.providerType = []) := by
  unfold Settled
  simp only [List.mem_append, List.mem_singleton, or_imp, forall_and, forall_eq]

theorem create_settled {createdAt : ℤ} {nonce : ℕ} {input : CreateProviderRequest env.toStorageEnv} {id : String}
    (hdb : Settled catalog db)
    (h : createInner (some catalog) identityId providerId createdAt nonce input db = .ok (id, db')) :
    Settled catalog db' ↔ SafeCreate catalog input := by
  obtain ⟨row, models, -, -, htype, hsome, hmodels, hjson, rfl⟩ := createInner_ok h
  rw [settled_append, and_iff_right hdb, hjson, modelsJson_none, htype]
  unfold SafeCreate
  cases hgiven : input.models with
  | none =>
    rw [hgiven] at hmodels
    obtain rfl := Except.ok.inj hmodels
    rw [Option.elim_none]
    by_cases htrim : Str.trim input.providerType = input.providerType
    · simp [htrim]
    · have hnone : catalog.models input.providerType = [] := by
        unfold ProviderCatalog.models
        cases hprovider : catalog.provider input.providerType with
        | none => rfl
        | some provider => exact absurd (catalog.trimmed _ (hprovider ▸ rfl)) htrim
      simp [htrim, hnone]
  | some given =>
    rw [hgiven] at hmodels
    rw [resolveProviderModels_nil hmodels, Option.elim_some]
    tauto

theorem changes_apply_id (changes : ProviderChanges) (row : ProviderConfig) :
    (if row.id = providerId then changes.apply row else row).id = row.id := by
  split_ifs
  · rfl
  · rfl

theorem settled_update (hkey : (db.providers.map ProviderConfig.id).Nodup) (hdb : Settled catalog db)
    {existing : ProviderConfig} (hfound : findProvider db providerId = some existing) (changes : ProviderChanges) :
    Settled catalog { db with
        providers := db.providers.map (fun row => if row.id = providerId then changes.apply row else row) } ↔
      (changes.modelsJson = none → catalog.models (changes.providerType.getD existing.providerType) = []) := by
  obtain ⟨hmem, hid⟩ := (findProvider_iff hkey).mp hfound
  unfold Settled
  simp only [List.forall_mem_map]
  constructor
  · intro h
    have hexisting := h existing hmem
    rw [if_pos hid] at hexisting
    exact hexisting
  · intro h row hrow
    split_ifs with hrowId
    · obtain rfl := List.inj_on_of_nodup_map hkey hrow hmem (hrowId.trans hid.symm)
      exact h
    · exact hdb row hrow

theorem update_settled {nonce : ℕ} {input : UpdateProviderRequest env.toStorageEnv}
    (hkey : (db.providers.map ProviderConfig.id).Nodup) (hdb : Settled catalog db)
    (h : updateProvider (some catalog) identityId providerId nonce input db = .ok db') :
    Settled catalog db' ↔ ∀ existing, findProvider db providerId = some existing → SafeUpdate catalog input existing := by
  obtain ⟨existing, changes, hfound, hchanges, rfl⟩ := updateProvider_ok h
  obtain ⟨htype, -, hmodels⟩ := providerChanges_ok hchanges
  rw [settled_update hkey hdb hfound, htype]
  simp only [hfound, Option.some.injEq, forall_eq', SafeUpdate]
  cases hgiven : input.models with
  | none =>
    rw [hgiven] at hmodels
    rw [hmodels, Option.elim_none, updatedType]
    tauto
  | some given =>
    rw [hgiven] at hmodels
    obtain ⟨models, hjson, hresolve⟩ := hmodels
    rw [hjson, modelsJson_none, resolveProviderModels_nil hresolve, Option.elim_some, updatedType]
    tauto

theorem restartedProvider_settled (provider : ProviderConfig)
    (h : (restartedProvider env catalog provider).modelsJson = none) :
    catalog.models (restartedProvider env catalog provider).providerType = [] := by
  unfold restartedProvider at h ⊢
  generalize withoutProtocolOverrides env provider = provider at h ⊢
  rw [(withProtocolBaseUrls_frame _).2.2] at h
  rw [(withProtocolBaseUrls_frame _).2.1]
  unfold withModels at h ⊢
  split_ifs at h ⊢ with hstored
  · rw [h] at hstored
    exact nomatch hstored
  · cases hprovider : catalog.provider provider.providerType with
    | none => simp [ProviderCatalog.models, hprovider]
    | some catalogProvider => simp [hprovider] at h

theorem restart_settled (db : Database) : Settled catalog (initializeWithCatalog env catalog db) := by
  rw [initializeWithCatalog_eq]
  intro provider hprovider
  obtain ⟨stored, -, rfl⟩ := List.mem_map.mp hprovider
  exact restartedProvider_settled stored

theorem step_keys (hserde : env.serde.Lawful) {op : ProviderOp env} (hkey : (db.providers.map ProviderConfig.id).Nodup)
    (h : op.step env catalog db = .ok db') : (db'.providers.map ProviderConfig.id).Nodup := by
  cases op with
  | create identityId providerId createdAt nonce input =>
    obtain ⟨⟨id, db''⟩, hcreate, rfl⟩ := map_ok h
    obtain ⟨row, models, -, hfresh, -, -, -, -, rfl⟩ := createInner_ok hcreate
    rw [List.map_append, List.map_singleton]
    exact List.nodup_append_comm.mp (List.nodup_cons.mpr ⟨hfresh, hkey⟩)
  | update identityId providerId nonce input =>
    obtain ⟨existing, changes, -, -, rfl⟩ := updateProvider_ok h
    rw [map_key (changes_apply_id changes)]
    exact hkey
  | endpoints configs models routes =>
    obtain rfl := Except.ok.inj h
    exact hkey
  | restart =>
    obtain rfl := Except.ok.inj h
    rw [initializeWithCatalog_eq]
    unfold reconcileEndpointModels beforeReconcile
    rw [map_key (fun provider => (@restartedProvider_spec env catalog hserde provider).1)]
    exact hkey

theorem step_settled {op : ProviderOp env} (hkey : (db.providers.map ProviderConfig.id).Nodup)
    (hdb : Settled catalog db) (h : op.step env catalog db = .ok db') :
    Settled catalog db' ↔ op.Safe catalog db := by
  cases op with
  | create identityId providerId createdAt nonce input =>
    obtain ⟨⟨id, db''⟩, hcreate, rfl⟩ := map_ok h
    exact create_settled hdb hcreate
  | update identityId providerId nonce input => exact update_settled hkey hdb h
  | endpoints configs models routes =>
    obtain rfl := Except.ok.inj h
    exact iff_of_true hdb trivial
  | restart =>
    obtain rfl := Except.ok.inj h
    exact iff_of_true (restart_settled db) trivial

end steps

section modelLists

variable (env : StartupEnv) (catalog : ProviderCatalog)

def ProvidersKeyed (db : Database) : Prop := (db.providers.map ProviderConfig.id).Nodup

theorem models_survive_restart_iff (hserde : env.serde.Lawful) {db : Database} (hdb : db.providers = [])
    {history : List (ProviderOp env × Database)} (h : Run (ProviderStep env catalog) db history) :
    (∀ entry ∈ history, Survives env catalog entry.2) ↔ Along (fun db op => op.Safe catalog db) db history := by
  have hnil : ProvidersKeyed db := by
    unfold ProvidersKeyed
    rw [hdb]
    exact List.nodup_nil
  apply h.forall_iff hnil
  · rw [survives_iff_settled hserde hnil]
    intro provider hprovider
    rw [hdb] at hprovider
    exact nomatch hprovider
  · intro db op db' hkey hstep
    exact step_keys hserde hkey hstep
  · intro db op db' hkey hsurvives hstep
    rw [survives_iff_settled hserde (step_keys hserde hkey hstep)]
    exact step_settled hkey ((survives_iff_settled hserde hkey).mp hsurvives) hstep

def plainCipher : KeyCipher := ⟨fun _ key => .ok ("enc:v1:" ++ key), fun text => .ok text⟩

def plainEnv : StartupEnv :=
  { serde := Text.codec, cipher := plainCipher, Capabilities := String, capabilitiesJson := .ok,
    reconcileCapabilities := fun _ capabilities => capabilities }

def smallCatalog : ProviderCatalog where
  provider id := if id = "kimi" then some ⟨["k2"], [], []⟩ else none
  trimmed id h := by
    split_ifs at h with hid
    · rw [hid]
      decide
    · exact nomatch h

def ownerDatabase : Database := { identities := [identityRow "owner" 0] }

def kimiRequest : CreateProviderRequest plainEnv.toStorageEnv := ⟨"Kimi", "kimi", "https://kimi", "key", none, none⟩

def kimiRow (models : Option String) : ProviderConfig :=
  ⟨"p", "owner", "Kimi", "kimi", "private", "https://kimi", "enc:v1:key", none, models, 0⟩

def kimiDatabase (models : Option String) : Database := { ownerDatabase with providers := [kimiRow models] }

def createKimi : ProviderOp plainEnv := .create "owner" "p" 0 0 kimiRequest

theorem createKimi_step : createKimi.step plainEnv smallCatalog ownerDatabase =
    .ok (kimiDatabase (some "[\"k2\"]")) := by
  rfl

def clearModels : ProviderOp plainEnv := .update "owner" "p" 0 { models := some [] }

theorem clearModels_step :
    clearModels.step plainEnv smallCatalog (kimiDatabase (some "[\"k2\"]")) = .ok (kimiDatabase none) := by
  rfl

theorem models_survive_restart_kimi : Survives plainEnv smallCatalog (kimiDatabase (some "[\"k2\"]")) :=
  (models_survive_restart_iff plainEnv smallCatalog Text.codec_lawful rfl (.cons createKimi_step (.nil _))).mpr
    ⟨.inr (show Str.trim "kimi" = "kimi" by decide), trivial⟩ _ (List.mem_singleton_self _)

/-- A list that is emptied comes back with the next start. -/
theorem models_survive_restart_not :
    Run (ProviderStep plainEnv smallCatalog) ownerDatabase
      [(createKimi, kimiDatabase (some "[\"k2\"]")), (clearModels, kimiDatabase none)] ∧
    ¬Survives plainEnv smallCatalog (kimiDatabase none) := by
  refine ⟨.cons createKimi_step (.cons clearModels_step (.nil _)), ?_⟩
  intro h
  have hkey : ((kimiDatabase none).providers.map ProviderConfig.id).Nodup := List.nodup_singleton "p"
  have hsettled := (survives_iff_settled Text.codec_lawful hkey).mp h
  exact absurd (hsettled (kimiRow none) (List.mem_singleton_self _) rfl) (by decide)

end modelLists

end Prelay.Store
