import Mathlib.Data.String.Basic
import Prelay.StartupReconciliation

namespace Prelay.Store.Startup

open Json Bridge Relational Sweep

structure MigratedDatabase extends Database where
  migrations : List String := []

def migrationVersion : String := "provider_catalog_v1"

def modelSourceMigrationVersion : String := "provider_model_catalog_v2"

def targetProviderId (providerType : String) : Option String :=
  match Str.trim providerType with
  | "gotoken" => some "gotoken"
  | "deepseek" | "deepseek_anthropic" => some "deepseek"
  | "kimi" | "kimi_coding" | "kimi_coding_anthropic" => some "kimi"
  | "zhipu_coding" | "zhipu_coding_openai" => some "bigmodel_coding_plan"
  | "bigmodel_coding_plan" => some "bigmodel_coding_plan"
  | "qwen" | "qwen_token_plan" => some "qwen_token_plan"
  | "minimax" | "minimax_token" | "minimax_token_openai" | "minimax_token_plan" => some "minimax"
  | _ => none

section migrations

variable (catalog : ProviderCatalog)

def migrationError (message : String) : String := "provider catalog migration failed: " ++ message

def shouldRemoveModel (providerId modelName : String) : Bool :=
  !catalog.providerSupportsLanguageModel providerId modelName &&
    !catalog.providerSupportsImageGenerationModel providerId modelName

def providerEntry (unmapped missing : ProviderConfig → String → String) (provider : ProviderConfig) :
    Except String (String × String) :=
  match targetProviderId provider.providerType with
  | none => .error (migrationError (unmapped provider provider.providerType))
  | some target =>
    if (catalog.provider target).isNone then .error (migrationError (missing provider target))
    else .ok (provider.id, target)

def providerTargets (unmapped missing : ProviderConfig → String → String) (rows : List ProviderConfig) :
    Except String (List (String × String)) := rows.mapM (providerEntry catalog unmapped missing)

def targetOf (targets : List (String × String)) (providerId : String) : Option String :=
  (targets.reverse.find? (fun entry => entry.1 = providerId)).map Prod.snd

def removeModel (target : EndpointModel → Except String String) (isRoute : EndpointModelRoute → EndpointModel → Bool)
    (db : Database) (model : EndpointModel) : Except String Database := do
  let target ← target model
  if shouldRemoveModel catalog target model.modelName then
    .ok ((db.deleteRoutes (fun route => isRoute route model)).deleteModels (fun row => row.id = model.id))
  else .ok db

def removeModels (target : EndpointModel → Except String String) (isRoute : EndpointModelRoute → EndpointModel → Bool)
    (rows : List EndpointModel) (db : Database) : Except String Database :=
  rows.foldlM (removeModel catalog target isRoute) db

def updateProviderTypes (targets : List (String × String)) (db : Database) : Database :=
  { db with providers := db.providers.map (fun provider =>
    match targetOf targets provider.id with
    | some target => if provider.providerType ≠ target then { provider with providerType := target } else provider
    | none => provider) }

section legacy

def legacyTargets (rows : List ProviderConfig) : Except String (List (String × String)) :=
  providerTargets catalog
    (fun provider providerType =>
      "供应商 " ++ provider.id ++ " 的旧 provider_type " ++ providerType ++ " 没有明确目录映射")
    (fun provider target => "供应商 " ++ provider.id ++ " 映射到目录供应商 " ++ target ++ "，但目录中不存在") rows

def providerTarget (targets : List (String × String)) (providerId : String) : Except String String :=
  (targetOf targets providerId).elim (.error (migrationError ("数据引用了不存在的供应商 " ++ providerId))) .ok

def cleanupEndpointModels (targets : List (String × String)) (db : Database) : Except String Database :=
  removeModels catalog (fun model => providerTarget targets model.providerId)
    (fun route model => route.endpointId = model.endpointId ∧ route.modelName = model.modelName ∧
      route.providerId = model.providerId)
    (db.models.mergeSort (fun row other => row.id ≤ other.id)) db

def applyPostgresLegacyMigration (db : MigratedDatabase) : Except String MigratedDatabase :=
  if migrationVersion ∈ db.migrations then .ok db
  else do
    let targets ← legacyTargets catalog (db.providers.mergeSort (fun row other => row.id ≤ other.id))
    let tables ← cleanupEndpointModels catalog targets db.toDatabase
    .ok { updateProviderTypes targets tables with migrations := db.migrations ++ [migrationVersion] }

end legacy

section modelSource

def modelSourceTargets (rows : List ProviderConfig) : Except String (List (String × String)) :=
  providerTargets catalog
    (fun provider providerType => "供应商 " ++ provider.id ++ " 的 provider_type " ++ providerType ++ " 没有明确目录映射")
    (fun provider target => "供应商 " ++ provider.id ++ " 映射到目录供应商 " ++ target ++ "，但目录中不存在") rows

def modelTarget (targets : List (String × String)) (model : EndpointModel) : Except String String :=
  (targetOf targets model.providerId).elim
    (.error (migrationError ("接入点模型 " ++ model.id ++ " 引用了不存在的供应商 " ++ model.providerId))) .ok

/-- A route is deleted by its primary key, which has no provider. -/
def applyPostgresModelSourceMigration (scan : Scan) (db : MigratedDatabase) : Except String MigratedDatabase :=
  if modelSourceMigrationVersion ∈ db.migrations then .ok db
  else do
    let targets ← modelSourceTargets catalog (scan.providers db.providers)
    let tables := updateProviderTypes targets db.toDatabase
    let tables ← removeModels catalog (modelTarget targets)
      (fun route model => route.endpointId = model.endpointId ∧ route.modelName = model.modelName)
      (scan.models tables.models) tables
    .ok { tables with migrations := db.migrations ++ [modelSourceMigrationVersion] }

end modelSource

end migrations

section targets

variable {catalog : ProviderCatalog} {unmapped missing : ProviderConfig → String → String} {rows : List ProviderConfig}

def HasTarget (catalog : ProviderCatalog) (provider : ProviderConfig) : Prop :=
  ∃ target, targetProviderId provider.providerType = some target ∧ catalog.provider target ≠ none

theorem providerEntry_ok_iff (provider : ProviderConfig) {entry : String × String} :
    providerEntry catalog unmapped missing provider = .ok entry ↔
      HasTarget catalog provider ∧ entry = (provider.id, (targetProviderId provider.providerType).getD "") := by
  unfold providerEntry HasTarget
  cases targetProviderId provider.providerType with
  | none => simp
  | some target =>
    by_cases hentry : catalog.provider target = none
    · simp [hentry]
    · simp only [Option.isNone_iff_eq_none, hentry, ↓reduceIte, Except.ok.injEq, Option.some.injEq, exists_eq_left',
        ne_eq, not_false_eq_true, true_and, Option.getD_some]
      exact eq_comm

theorem providerTargets_ok_iff {targets : List (String × String)} :
    providerTargets catalog unmapped missing rows = .ok targets ↔ (∀ provider ∈ rows, HasTarget catalog provider) ∧
      targets = rows.map (fun provider => (provider.id, (targetProviderId provider.providerType).getD "")) := by
  unfold providerTargets
  induction rows generalizing targets with
  | nil =>
    rw [List.mapM_nil]
    change Except.ok [] = .ok targets ↔ _
    rw [Except.ok.injEq]
    simp [eq_comm]
  | cons provider rows ih =>
    rw [List.mapM_cons, List.forall_mem_cons, List.map_cons]
    constructor
    · intro h
      obtain ⟨entry, hentry, h⟩ := bind_ok h
      obtain ⟨entries, hentries, h⟩ := bind_ok h
      obtain ⟨hhas, rfl⟩ := (providerEntry_ok_iff provider).mp hentry
      obtain ⟨hall, rfl⟩ := ih.mp hentries
      exact ⟨⟨hhas, hall⟩, (Except.ok.inj h).symm⟩
    · rintro ⟨⟨hhas, hall⟩, rfl⟩
      rw [(providerEntry_ok_iff provider).mpr ⟨hhas, rfl⟩, ih.mpr ⟨hall, rfl⟩]
      rfl

theorem targetOf_eq {db : Database} (hkey : (db.providers.map ProviderConfig.id).Nodup) (hperm : rows.Perm db.providers)
    {targets : List (String × String)} (h : providerTargets catalog unmapped missing rows = .ok targets)
    (providerId : String) :
    targetOf targets providerId =
      (findProvider db providerId).bind (fun provider => targetProviderId provider.providerType) := by
  obtain ⟨hall, rfl⟩ := providerTargets_ok_iff.mp h
  have hreverse : rows.reverse.Perm db.providers := (List.reverse_perm rows).trans hperm
  have hnodup : (rows.reverse.map ProviderConfig.id).Nodup := (hreverse.map _).nodup_iff.mpr hkey
  have hfind : rows.reverse.find? (fun provider => provider.id = providerId) = findProvider db providerId := by
    apply Option.ext
    intro provider
    rw [find?_key hnodup, findProvider_iff hkey, hreverse.mem_iff]
  rw [targetOf, ← List.map_reverse, List.find?_map, Option.map_map]
  change (rows.reverse.find? (fun provider => provider.id = providerId)).map _ = _
  rw [hfind]
  cases hfound : findProvider db providerId with
  | none => rfl
  | some provider =>
    have hmem := hperm.symm.subset ((findProvider_iff hkey).mp hfound).1
    obtain ⟨target, htarget, -⟩ := hall provider hmem
    simp only [Option.map_some, Function.comp_apply, htarget, Option.getD_some, Option.bind_some]

end targets

section removal

variable {catalog : ProviderCatalog} {target : EndpointModel → Except String String}
  {isRoute : EndpointModelRoute → EndpointModel → Bool} {rows : List EndpointModel} {db db' : Database}

def removes (catalog : ProviderCatalog) (target : EndpointModel → Except String String) (model : EndpointModel) :
    Bool :=
  match target model with
  | .ok target => shouldRemoveModel catalog target model.modelName
  | .error _ => false

def withoutRemoved (catalog : ProviderCatalog) (target : EndpointModel → Except String String)
    (isRoute : EndpointModelRoute → EndpointModel → Bool) (rows : List EndpointModel) (db : Database) : Database :=
  { db with
    models := db.models.filter (fun row => !rows.any (fun model => removes catalog target model && row.id == model.id))
    routes := db.routes.filter (fun route =>
      !rows.any (fun model => removes catalog target model && isRoute route model)) }

theorem removeModels_cons (model : EndpointModel) :
    removeModels catalog target isRoute (model :: rows) db = (target model).bind (fun providerId =>
      removeModels catalog target isRoute rows (if shouldRemoveModel catalog providerId model.modelName then
        (db.deleteRoutes (fun route => isRoute route model)).deleteModels (fun row => row.id = model.id) else db)) := by
  rw [removeModels, List.foldlM_cons, removeModel]
  cases target model with
  | error message => rfl
  | ok providerId =>
    change (if shouldRemoveModel catalog providerId model.modelName then Except.ok _ else Except.ok db) >>= _ = _
    simp only [Except.bind]
    split
    · rfl
    · rfl

theorem withoutRemoved_cons (model : EndpointModel) {providerId : String} (htarget : target model = .ok providerId) :
    withoutRemoved catalog target isRoute (model :: rows) db =
      withoutRemoved catalog target isRoute rows (if shouldRemoveModel catalog providerId model.modelName then
        (db.deleteRoutes (fun route => isRoute route model)).deleteModels (fun row => row.id = model.id) else db) := by
  have hremoves : removes catalog target model = shouldRemoveModel catalog providerId model.modelName := by
    rw [removes, htarget]
  cases hremoved : shouldRemoveModel catalog providerId model.modelName with
  | false => simp [withoutRemoved, hremoves, hremoved]
  | true =>
    simp only [withoutRemoved, List.any_cons, hremoves, hremoved, Bool.true_and, Bool.not_or, ↓reduceIte,
      Database.deleteModels, Database.deleteRoutes, List.filter_filter]
    congr 1
    · apply List.filter_congr
      intro row _
      rw [Bool.and_comm]
      rfl
    · apply List.filter_congr
      intro route _
      rw [Bool.and_comm]

theorem removeModels_ok_iff : removeModels catalog target isRoute rows db = .ok db' ↔
    (∀ model ∈ rows, ∃ providerId, target model = .ok providerId) ∧
      db' = withoutRemoved catalog target isRoute rows db := by
  induction rows generalizing db with
  | nil =>
    have hnone : withoutRemoved catalog target isRoute [] db = db := by simp [withoutRemoved]
    rw [hnone]
    change Except.ok db = .ok db' ↔ _
    rw [Except.ok.injEq]
    simp [eq_comm]
  | cons model rows ih =>
    rw [removeModels_cons, List.forall_mem_cons]
    cases htarget : target model with
    | error message =>
      refine iff_of_false (fun h => nomatch h) ?_
      rintro ⟨⟨⟨providerId, hok⟩, -⟩, -⟩
      exact nomatch hok
    | ok providerId =>
      rw [withoutRemoved_cons model htarget]
      change removeModels catalog target isRoute rows _ = .ok db' ↔ _
      rw [ih]
      simp

end removal

section cleaned

variable {catalog : ProviderCatalog} {db : Database}

def Removable (catalog : ProviderCatalog) (db : Database) (model : EndpointModel) : Prop :=
  ∃ provider ∈ db.providers, provider.id = model.providerId ∧
    ∃ target, targetProviderId provider.providerType = some target ∧
      shouldRemoveModel catalog target model.modelName = true

def Migratable (catalog : ProviderCatalog) (db : Database) : Prop :=
  (∀ provider ∈ db.providers, HasTarget catalog provider) ∧
    ∀ model ∈ db.models, ∃ provider ∈ db.providers, provider.id = model.providerId

structure Cleaned (catalog : ProviderCatalog) (isRoute : EndpointModelRoute → EndpointModel → Prop)
    (db db' : Database) : Prop where
  models : ∀ row, row ∈ db'.models ↔ row ∈ db.models ∧ ¬Removable catalog db row
  routes : ∀ route, route ∈ db'.routes ↔ route ∈ db.routes ∧
    ¬∃ model ∈ db.models, Removable catalog db model ∧ isRoute route model

def targetIn (failure : EndpointModel → String) (targets : List (String × String)) (model : EndpointModel) :
    Except String String := (targetOf targets model.providerId).elim (.error (failure model)) .ok

variable {targets : List (String × String)} {failure : EndpointModel → String}

theorem removes_iff (hkey : (db.providers.map ProviderConfig.id).Nodup)
    (htargets : ∀ id, targetOf targets id =
      (findProvider db id).bind (fun provider => targetProviderId provider.providerType)) (model : EndpointModel) :
    removes catalog (targetIn failure targets) model = true ↔ Removable catalog db model := by
  rw [removes, targetIn, htargets, Removable]
  constructor
  · intro h
    cases hfound : findProvider db model.providerId with
    | none => simp [hfound] at h
    | some provider =>
      obtain ⟨hmem, hid⟩ := (findProvider_iff hkey).mp hfound
      refine ⟨provider, hmem, hid, ?_⟩
      cases htarget : targetProviderId provider.providerType with
      | none => simp [hfound, htarget] at h
      | some target => exact ⟨target, rfl, by simpa [hfound, htarget] using h⟩
  · rintro ⟨provider, hmem, hid, target, htarget, hremove⟩
    rw [(findProvider_iff hkey).mpr ⟨hmem, hid⟩]
    simpa [htarget] using hremove

theorem cleaned_of_removeModels (hdb : Keyed db)
    (htargets : ∀ id, targetOf targets id =
      (findProvider db id).bind (fun provider => targetProviderId provider.providerType))
    {isRoute : EndpointModelRoute → EndpointModel → Prop} [∀ route model, Decidable (isRoute route model)]
    {rows : List EndpointModel} (hrows : rows.Perm db.models) {tables tables' : Database}
    (hmodels : tables.models = db.models) (hroutes : tables.routes = db.routes)
    (h : removeModels catalog (targetIn failure targets) (fun route model => isRoute route model) rows tables =
      .ok tables') : Cleaned catalog isRoute db tables' := by
  obtain ⟨-, rfl⟩ := removeModels_ok_iff.mp h
  have hremoves := @removes_iff catalog db targets failure hdb.providers htargets
  constructor
  · intro row
    rw [withoutRemoved, List.mem_filter, hmodels, Bool.not_eq_true', List.any_eq_false]
    refine and_congr_right (fun hrow => ?_)
    constructor
    · intro hall hremovable
      apply hall row (hrows.symm.subset hrow)
      simp [(hremoves row).mpr hremovable]
    · intro hkept model hmodel hgone
      obtain ⟨hremoved, hid⟩ := Bool.and_eq_true_iff.mp hgone
      have hsame := List.inj_on_of_nodup_map hdb.models hrow (hrows.subset hmodel) (of_decide_eq_true hid)
      exact hkept (hsame ▸ (hremoves model).mp hremoved)
  · intro route
    rw [withoutRemoved, List.mem_filter, hroutes, Bool.not_eq_true', List.any_eq_false]
    refine and_congr_right (fun _ => ?_)
    constructor
    · rintro hall ⟨model, hmodel, hremovable, hroute⟩
      apply hall model (hrows.symm.subset hmodel)
      simp [(hremoves model).mpr hremovable, hroute]
    · intro hnone model hmodel hgone
      obtain ⟨hremoved, hroute⟩ := Bool.and_eq_true_iff.mp hgone
      exact hnone ⟨model, hrows.subset hmodel, (hremoves model).mp hremoved, of_decide_eq_true hroute⟩

variable {old new : MigratedDatabase}

theorem legacy_cleaned (hdb : Keyed old.toDatabase) (hrecorded : migrationVersion ∉ old.migrations)
    (h : applyPostgresLegacyMigration catalog old = .ok new) :
    Cleaned catalog RouteOf old.toDatabase new.toDatabase := by
  rw [applyPostgresLegacyMigration, if_neg hrecorded] at h
  obtain ⟨targets, htargets, h⟩ := bind_ok h
  obtain ⟨tables, htables, h⟩ := bind_ok h
  obtain rfl := Except.ok.inj h
  have hcleaned := cleaned_of_removeModels hdb (targetOf_eq hdb.providers (List.mergeSort_perm _ _) htargets)
    (List.mergeSort_perm _ _) rfl rfl htables
  exact ⟨hcleaned.models, hcleaned.routes⟩

def KeyOf (route : EndpointModelRoute) (model : EndpointModel) : Prop :=
  route.endpointId = model.endpointId ∧ route.modelName = model.modelName

instance (route : EndpointModelRoute) (model : EndpointModel) : Decidable (KeyOf route model) :=
  inferInstanceAs (Decidable (_ ∧ _))

theorem modelSource_cleaned (hdb : Keyed old.toDatabase) (hrecorded : modelSourceMigrationVersion ∉ old.migrations)
    {scan : Scan} (h : applyPostgresModelSourceMigration catalog scan old = .ok new) :
    Cleaned catalog KeyOf old.toDatabase new.toDatabase := by
  rw [applyPostgresModelSourceMigration, if_neg hrecorded] at h
  obtain ⟨targets, htargets, h⟩ := bind_ok h
  obtain ⟨tables, htables, h⟩ := bind_ok h
  obtain rfl := Except.ok.inj h
  have hcleaned : Cleaned catalog KeyOf old.toDatabase tables := by
    apply cleaned_of_removeModels hdb (targetOf_eq hdb.providers (scan.providersPerm _) htargets) (scan.modelsPerm _)
      ?_ ?_ htables
    · rfl
    · rfl
  exact ⟨hcleaned.models, hcleaned.routes⟩

theorem modelSource_runs_iff (hdb : Keyed old.toDatabase) (hrecorded : modelSourceMigrationVersion ∉ old.migrations)
    (scan : Scan) :
    (∃ new, applyPostgresModelSourceMigration catalog scan old = .ok new) ↔ Migratable catalog old.toDatabase := by
  have hproviders := scan.providersPerm old.providers
  have hmodels := scan.modelsPerm old.models
  rw [applyPostgresModelSourceMigration, if_neg hrecorded]
  constructor
  · rintro ⟨new, h⟩
    obtain ⟨targets, htargets, h⟩ := bind_ok h
    obtain ⟨tables, htables, h⟩ := bind_ok h
    obtain ⟨hall, -⟩ := removeModels_ok_iff.mp htables
    have htarget := targetOf_eq hdb.providers hproviders htargets
    refine ⟨fun provider hmem => (providerTargets_ok_iff.mp htargets).1 provider (hproviders.symm.subset hmem), ?_⟩
    intro model hmodel
    obtain ⟨providerId, hok⟩ := hall model (hmodels.symm.subset hmodel)
    cases hfound : findProvider old.toDatabase model.providerId with
    | none => simp [modelTarget, htarget, hfound] at hok
    | some provider => exact ⟨provider, (findProvider_iff hdb.providers).mp hfound⟩
  · rintro ⟨htargets, hparents⟩
    obtain ⟨targets, hok⟩ : ∃ targets, modelSourceTargets catalog (scan.providers old.providers) = .ok targets :=
      ⟨_, providerTargets_ok_iff.mpr ⟨fun provider hmem => htargets provider (hproviders.subset hmem), rfl⟩⟩
    have htarget := targetOf_eq hdb.providers hproviders hok
    have hall : ∀ model ∈ scan.models old.models, ∃ providerId, modelTarget targets model = .ok providerId := by
      intro model hmodel
      obtain ⟨provider, hprovider, hid⟩ := hparents model (hmodels.subset hmodel)
      obtain ⟨target, hsome, -⟩ := htargets provider hprovider
      refine ⟨target, ?_⟩
      rw [modelTarget, htarget, (findProvider_iff hdb.providers).mpr ⟨hprovider, hid⟩, Option.bind_some, hsome]
      rfl
    obtain ⟨tables, htables⟩ : ∃ tables, removeModels catalog (modelTarget targets)
        (fun route model => route.endpointId = model.endpointId ∧ route.modelName = model.modelName)
        (scan.models old.models) (updateProviderTypes targets old.toDatabase) = .ok tables :=
      ⟨_, removeModels_ok_iff.mpr ⟨hall, rfl⟩⟩
    let record (tables : Database) : Except String MigratedDatabase :=
      .ok { tables with migrations := old.migrations ++ [modelSourceMigrationVersion] }
    refine ⟨{ tables with migrations := old.migrations ++ [modelSourceMigrationVersion] }, ?_⟩
    rw [hok]
    exact congrArg (fun result => Except.bind result record) htables

/-- A route goes only together with an endpoint model of the same endpoint, model and provider. -/
def RemovesOwnRoutes (db db' : Database) : Prop :=
  ∀ route ∈ db.routes, route ∉ db'.routes → ∃ model ∈ db.models, RouteOf route model ∧ model ∉ db'.models

def KeepsOffered (db db' : Database) : Prop :=
  ∀ route ∈ db.routes, (∃ model ∈ db'.models, RouteOf route model) → route ∈ db'.routes

theorem removable_target {model other : EndpointModel} (hname : model.modelName = other.modelName)
    (hprovider : model.providerId = other.providerId) : Removable catalog db model ↔ Removable catalog db other := by
  rw [Removable, hname, hprovider]
  rfl

theorem Cleaned.removesOwnRoutes {db' : Database} (h : Cleaned catalog RouteOf db db') : RemovesOwnRoutes db db' := by
  intro route hroute hgone
  rw [h.routes, not_and, not_not] at hgone
  obtain ⟨model, hmodel, hremovable, hof⟩ := hgone hroute
  exact ⟨model, hmodel, hof, fun hkept => ((h.models model).mp hkept).2 hremovable⟩

theorem Cleaned.keepsOffered {db' : Database} (h : Cleaned catalog RouteOf db db') : KeepsOffered db db' := by
  rintro route hroute ⟨offered, hoffered, hof⟩
  apply (h.routes route).mpr ⟨hroute, ?_⟩
  rintro ⟨model, -, hremovable, hmodel⟩
  apply ((h.models offered).mp hoffered).2
  apply (removable_target _ _).mp hremovable
  · exact hmodel.2.1.symm.trans hof.2.1
  · exact hmodel.2.2.symm.trans hof.2.2

/-- Where a route shares its key with a removable model, its own provider has a removable one. -/
def OwnRoutes (catalog : ProviderCatalog) (db : Database) : Prop :=
  ∀ route ∈ db.routes, (∃ model ∈ db.models, Removable catalog db model ∧ KeyOf route model) →
    ∃ own ∈ db.models, Removable catalog db own ∧ RouteOf route own

theorem Cleaned.own_iff {db' : Database} (h : Cleaned catalog KeyOf db db') :
    RemovesOwnRoutes db db' ∧ KeepsOffered db db' ↔ OwnRoutes catalog db := by
  constructor
  · rintro ⟨hown, -⟩ route hroute hshared
    have hgone : route ∉ db'.routes := fun hkept => ((h.routes route).mp hkept).2 hshared
    obtain ⟨model, hmodel, hof, hdeleted⟩ := hown route hroute hgone
    rw [h.models, not_and, not_not] at hdeleted
    exact ⟨model, hmodel, hdeleted hmodel, hof⟩
  · intro hown
    constructor
    · intro route hroute hgone
      rw [h.routes, not_and, not_not] at hgone
      obtain ⟨own, hmodel, hremovable, hof⟩ := hown route hroute (hgone hroute)
      exact ⟨own, hmodel, hof, fun hkept => ((h.models own).mp hkept).2 hremovable⟩
    · rintro route hroute ⟨offered, hoffered, hof⟩
      apply (h.routes route).mpr ⟨hroute, fun hshared => ?_⟩
      obtain ⟨own, -, hremovable, hownOf⟩ := hown route hroute hshared
      apply ((h.models offered).mp hoffered).2
      apply (removable_target _ _).mp hremovable
      · exact hownOf.2.1.symm.trans hof.2.1
      · exact hownOf.2.2.symm.trans hof.2.2

end cleaned

section reconciled

variable {env : StartupEnv} {catalog : ProviderCatalog} {db : Database} {done : List String}

theorem not_mem_removed (hkey : (db.models.map EndpointModel.id).Nodup) {model : EndpointModel}
    (hmem : model ∈ db.models) (hin : model.id ∈ done) (hgone : reconciledModel env catalog db model = none) :
    model ∉ (reconciledUpTo env catalog done db).models := by
  intro hkept
  obtain ⟨source, hsource, hid, -, hfrom⟩ := mem_reconciledUpTo hkept
  obtain rfl := List.inj_on_of_nodup_map hkey hmem hsource hid
  obtain ⟨other, hother, hsettled⟩ := List.mem_filterMap.mp hkept
  split at hsettled
  · have hsame := List.inj_on_of_nodup_map hkey hmem hother (keepsKey_reconciled other model hsettled)
    rw [← hsame, hgone] at hsettled
    exact nomatch hsettled
  · next hout =>
    rw [Option.some.inj hsettled] at hout
    exact hout hin

/-- The second pass removes its own routes wherever it stops. -/
theorem reconciled_removesOwnRoutes (hkey : (db.models.map EndpointModel.id).Nodup) (done : List String) :
    RemovesOwnRoutes db (reconciledUpTo env catalog done db) := by
  intro route hroute hgone
  by_contra hnone
  apply hgone
  refine List.mem_filter.mpr ⟨hroute, ?_⟩
  rw [Bool.not_eq_true', List.any_eq_false]
  intro model hmodel hof
  obtain ⟨hmem, hremoved⟩ := List.mem_filter.mp hmodel
  obtain ⟨hin, hsettled⟩ := of_decide_eq_true hremoved
  have hdeleted := not_mem_removed hkey hmem hin (Option.isNone_iff_eq_none.mp hsettled)
  exact hnone ⟨model, hmem, of_decide_eq_true hof, hdeleted⟩

theorem reconciled_keepsOffered (hall : ∀ model ∈ db.models, model.id ∈ done) :
    KeepsOffered db (reconciledUpTo env catalog done db) := by
  rintro route hroute ⟨offered, hoffered, hof⟩
  refine List.mem_filter.mpr ⟨hroute, ?_⟩
  rw [Bool.not_eq_true', List.any_eq_false]
  intro model hmodel hmodelOf
  obtain ⟨-, hremoved⟩ := List.mem_filter.mp hmodel
  have hgone := Option.isNone_iff_eq_none.mp (of_decide_eq_true hremoved).2
  obtain ⟨source, hsource, hkept⟩ := List.mem_filterMap.mp hoffered
  rw [if_pos (hall source hsource), reconciledModel_eq] at hkept
  obtain ⟨upstream, hupstream, rfl⟩ := Option.map_eq_some_iff.mp hkept
  have hmodelOf := of_decide_eq_true hmodelOf
  rw [reconciledModel_eq, ← hmodelOf.2.2, ← hmodelOf.2.1, hof.2.2, hof.2.1, hupstream] at hgone
  exact nomatch hgone

end reconciled

section cleanups

def CleanupsRemoveOwn (env : StartupEnv) (catalog : ProviderCatalog) (scan : Scan) (db : MigratedDatabase) : Prop :=
  (∀ new, applyPostgresLegacyMigration catalog db = .ok new →
    RemovesOwnRoutes db.toDatabase new.toDatabase ∧ KeepsOffered db.toDatabase new.toDatabase) ∧
  (∀ new, applyPostgresModelSourceMigration catalog scan db = .ok new →
    RemovesOwnRoutes db.toDatabase new.toDatabase ∧ KeepsOffered db.toDatabase new.toDatabase) ∧
  RemovesOwnRoutes db.toDatabase (reconcileEndpointModels env.serde catalog scan db.toDatabase).1 ∧
  ((reconcileEndpointModels env.serde catalog scan db.toDatabase).2 = .ok () →
    KeepsOffered db.toDatabase (reconcileEndpointModels env.serde catalog scan db.toDatabase).1)

variable {env : StartupEnv} {catalog : ProviderCatalog} {db : MigratedDatabase}

theorem same_removesOwn (db : Database) : RemovesOwnRoutes db db ∧ KeepsOffered db db :=
  ⟨fun _ hroute hgone => absurd hroute hgone, fun _ hroute _ => hroute⟩

theorem legacy_removesOwn (hdb : Keyed db.toDatabase) {new : MigratedDatabase}
    (h : applyPostgresLegacyMigration catalog db = .ok new) :
    RemovesOwnRoutes db.toDatabase new.toDatabase ∧ KeepsOffered db.toDatabase new.toDatabase := by
  by_cases hrecorded : migrationVersion ∈ db.migrations
  · rw [applyPostgresLegacyMigration, if_pos hrecorded] at h
    obtain rfl := Except.ok.inj h
    exact same_removesOwn _
  · have hcleaned := legacy_cleaned hdb hrecorded h
    exact ⟨hcleaned.removesOwnRoutes, hcleaned.keepsOffered⟩

theorem modelSource_removesOwn_iff (hdb : Keyed db.toDatabase) (scan : Scan) :
    (∀ new, applyPostgresModelSourceMigration catalog scan db = .ok new →
      RemovesOwnRoutes db.toDatabase new.toDatabase ∧ KeepsOffered db.toDatabase new.toDatabase) ↔
    modelSourceMigrationVersion ∈ db.migrations ∨ ¬Migratable catalog db.toDatabase ∨
      OwnRoutes catalog db.toDatabase := by
  by_cases hrecorded : modelSourceMigrationVersion ∈ db.migrations
  · refine iff_of_true (fun new h => ?_) (.inl hrecorded)
    rw [applyPostgresModelSourceMigration, if_pos hrecorded] at h
    obtain rfl := Except.ok.inj h
    exact same_removesOwn _
  · have hruns := @modelSource_runs_iff catalog db hdb hrecorded scan
    rw [or_iff_right hrecorded]
    constructor
    · intro h
      by_contra hnot
      obtain ⟨hmigratable, hown⟩ := not_or.mp hnot
      obtain ⟨new, hnew⟩ := hruns.mpr (not_not.mp hmigratable)
      exact hown ((modelSource_cleaned hdb hrecorded hnew).own_iff.mp (h new hnew))
    · rintro (hblocked | hown) new hnew
      · exact absurd (hruns.mp ⟨new, hnew⟩) hblocked
      · exact (modelSource_cleaned hdb hrecorded hnew).own_iff.mpr hown

theorem reconcile_removesOwn (env : StartupEnv) (hdb : Keyed db.toDatabase) (scan : Scan) :
    RemovesOwnRoutes db.toDatabase (reconcileEndpointModels env.serde catalog scan db.toDatabase).1 ∧
      ((reconcileEndpointModels env.serde catalog scan db.toDatabase).2 = .ok () →
        KeepsOffered db.toDatabase (reconcileEndpointModels env.serde catalog scan db.toDatabase).1) := by
  obtain ⟨done, hstate, -, hall⟩ := reconcileEndpointModels_passed env catalog scan hdb.providers hdb.models
    hdb.candidates
  rw [hstate]
  exact ⟨reconciled_removesOwnRoutes hdb.models done, fun hok => reconciled_keepsOffered (hall hok)⟩

theorem cleanups_remove_own_iff (env : StartupEnv) (hdb : Keyed db.toDatabase) (scan : Scan) :
    CleanupsRemoveOwn env catalog scan db ↔
      modelSourceMigrationVersion ∈ db.migrations ∨ ¬Migratable catalog db.toDatabase ∨
        OwnRoutes catalog db.toDatabase := by
  rw [← modelSource_removesOwn_iff hdb scan]
  constructor
  · exact fun h => h.2.1
  · intro h
    exact ⟨fun new hnew => legacy_removesOwn hdb hnew, h, reconcile_removesOwn env hdb scan⟩

def twoEntryCatalog : ProviderCatalog where
  provider id := if id = "kimi" then some ⟨["k2"], [], []⟩ else if id = "gotoken" then some ⟨["gpt"], [], []⟩ else none
  trimmed id h := by
    split_ifs at h with hkimi hgotoken
    · rw [hkimi]
      decide
    · rw [hgotoken]
      decide
    · exact nomatch h

def typedProvider (id providerType : String) : ProviderConfig :=
  ⟨id, "identity-a", "Provider", providerType, "private", "https://provider", "ciphertext", none, none, 0⟩

def gptModel (id providerId : String) : EndpointModel := ⟨id, "endpoint-a", "gpt", providerId, "gpt", 0, 0⟩

def routedDatabase (routed : String) : MigratedDatabase :=
  { identities := [identityRow "identity-a" 0]
    providers := [typedProvider "provider-kimi" "kimi", typedProvider "provider-gotoken" "gotoken"]
    endpoints := [⟨"endpoint-a", "identity-a", "Endpoint", "all", "token-a", 0⟩]
    models := [gptModel "model-a" "provider-kimi", gptModel "model-b" "provider-gotoken"]
    routes := [⟨"endpoint-a", "gpt", routed, 0⟩]
    migrations := ["provider_catalog_v1"] }

theorem shared_keyed (routed : String) : Keyed (routedDatabase routed).toDatabase :=
  ⟨show ["provider-kimi", "provider-gotoken"].Nodup by decide, show ["model-a", "model-b"].Nodup by decide,
    show ([("endpoint-a", "gpt", "provider-kimi", "gpt"), ("endpoint-a", "gpt", "provider-gotoken", "gpt")] :
      List (String × String × String × String)).Nodup by decide⟩

theorem shared_removable (routed : String) :
    Removable twoEntryCatalog (routedDatabase routed).toDatabase (gptModel "model-a" "provider-kimi") :=
  ⟨typedProvider "provider-kimi" "kimi", List.mem_cons_self, rfl, "kimi", by decide, by decide⟩

theorem cleanups_remove_own_kimi :
    CleanupsRemoveOwn plainEnv twoEntryCatalog listed (routedDatabase "provider-kimi") := by
  apply (cleanups_remove_own_iff plainEnv (shared_keyed _) listed).mpr
  right
  right
  intro route hroute _
  obtain rfl := List.mem_singleton.mp hroute
  exact ⟨gptModel "model-a" "provider-kimi", List.mem_cons_self, shared_removable _, rfl, rfl, rfl⟩

/-- The route to the provider that offers the model goes with the model of the other one. -/
theorem cleanups_remove_own_not :
    Keyed (routedDatabase "provider-gotoken").toDatabase ∧
      ¬CleanupsRemoveOwn plainEnv twoEntryCatalog listed (routedDatabase "provider-gotoken") := by
  have hkeyed := shared_keyed "provider-gotoken"
  refine ⟨hkeyed, ?_⟩
  intro h
  have hrecorded : modelSourceMigrationVersion ∉ (routedDatabase "provider-gotoken").migrations := by decide
  have hmigratable : Migratable twoEntryCatalog (routedDatabase "provider-gotoken").toDatabase := by
    constructor
    · intro provider hprovider
      simp only [routedDatabase, List.mem_cons, List.not_mem_nil, or_false] at hprovider
      rcases hprovider with rfl | rfl
      · exact ⟨"kimi", by decide, by decide⟩
      · exact ⟨"gotoken", by decide, by decide⟩
    · intro model hmodel
      simp only [routedDatabase, List.mem_cons, List.not_mem_nil, or_false] at hmodel
      rcases hmodel with rfl | rfl
      · exact ⟨_, List.mem_cons_self, rfl⟩
      · exact ⟨_, List.mem_cons_of_mem _ List.mem_cons_self, rfl⟩
  have hall := (modelSource_removesOwn_iff hkeyed listed).mp h.2.1
  obtain hrecord | hblocked | hown := hall
  · exact hrecorded hrecord
  · exact hblocked hmigratable
  · obtain ⟨own, hmem, ⟨provider, hprovider, hid, target, htarget, hremove⟩, hof⟩ :=
      hown _ (List.mem_singleton_self _) ⟨_, List.mem_cons_self, shared_removable _, rfl, rfl⟩
    simp only [routedDatabase, List.mem_cons, List.not_mem_nil, or_false] at hmem hprovider
    rcases hmem with rfl | rfl
    · exact absurd hof.2.2 (by decide)
    · rcases hprovider with rfl | rfl
      · exact absurd hid (by decide)
      · have hgotoken : targetProviderId "gotoken" = some "gotoken" := by decide
        rw [← Option.some.inj (hgotoken.symm.trans htarget)] at hremove
        exact absurd hremove (by decide)

end cleanups

end Prelay.Store.Startup
