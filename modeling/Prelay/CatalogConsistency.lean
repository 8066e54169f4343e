import Mathlib.Data.List.ReduceOption
import Prelay.EndpointStore
import Prelay.ProviderRestart

namespace Prelay.Store

open Json Bridge Relational Runs

section property

variable (env : ResolverEnv) (catalog : ProviderCatalog)

/-- Providers enable models of their type, and candidates are called by the names of their type. -/
structure CatalogConsistent (db : Database) : Prop where
  offered : ∀ provider ∈ db.providers, ∀ model ∈ parseModels env.serde provider.modelsJson,
    model ∈ catalog.models provider.providerType
  named : ∀ access model downstreamProtocol candidates,
    resolveEndpointModelCandidates env db access model downstreamProtocol = .ok candidates →
      ∀ candidate ∈ candidates,
        candidate.modelUpstream = catalog.providerUpstreamModel candidate.provider.providerType model

end property

section invariant

variable (serde : SerdeJson) (catalog : ProviderCatalog)

structure Mapped (db : Database) : Prop where
  keys : (db.providers.map ProviderConfig.id).Nodup
  trimmed : ∀ provider ∈ db.providers, Str.trim provider.providerType = provider.providerType
  provided : modelProvider.Holds db.models db.providers
  offered : ∀ provider ∈ db.providers, ∀ model ∈ parseModels serde provider.modelsJson,
    model ∈ catalog.models provider.providerType
  named : ∀ model ∈ db.models, ∀ provider ∈ db.providers, provider.id = model.providerId →
    model.modelName ∈ parseModels serde provider.modelsJson →
      model.upstreamModel = catalog.providerUpstreamModel provider.providerType model.modelName

end invariant

section resolve

variable {env : ResolverEnv} {catalog : ProviderCatalog} {db : Database} {access : ProtocolAccess}

theorem mem_selectCandidates {latency : String → Option ℚ} {modelName : String} {candidates : List ProtocolModel}
    {candidate : ProtocolModel} (h : candidate ∈ selectCandidates db access latency modelName candidates) :
    candidate ∈ candidates := by
  unfold selectCandidates at h
  dsimp only at h
  split_ifs at h with hlength
  · exact h
  · split at h
    · next active hactive =>
      obtain ⟨route, -, hfound⟩ := Option.bind_eq_some_iff.mp hactive
      cases List.mem_cons.mp h with
      | inl heq => exact heq ▸ List.mem_of_find?_eq_some hfound
      | inr hrest => exact List.mem_of_mem_eraseP (List.mem_mergeSort.mp hrest)
    · exact List.mem_mergeSort.mp h

theorem protocolModel_ok {serde : SerdeJson} {cipher : KeyCipher} {model : EndpointModel} {resolved : ProtocolModel}
    (h : protocolModel serde cipher db access model = .ok (some resolved)) :
    ∃ provider, findProvider db model.providerId = some provider ∧
      canUseProviderOn db access.identityId model.providerId = .ok true ∧ resolved.model = model ∧
      resolved.provider.id = provider.id ∧ resolved.provider.providerType = provider.providerType ∧
      resolved.provider.models = parseModels serde provider.modelsJson := by
  unfold protocolModel at h
  split at h
  · exact nomatch Except.ok.inj h
  · next provider hfound =>
    obtain ⟨usable, husable, h⟩ := bind_ok h
    split_ifs at h with htrue
    · obtain ⟨apiKey, -, h⟩ := bind_ok h
      obtain rfl := Option.some.inj (Except.ok.inj h)
      exact ⟨provider, hfound, htrue ▸ husable, rfl, rfl, rfl, rfl⟩
    · exact nomatch Except.ok.inj h

theorem loadProtocolModels_ok {serde : SerdeJson} {cipher : KeyCipher} {modelName : Option String}
    {resolved : List ProtocolModel} (h : loadProtocolModels serde cipher db access modelName = .ok resolved)
    {candidate : ProtocolModel} (hmem : candidate ∈ resolved) :
    candidate.model ∈ db.models ∧ candidate.model.endpointId = access.endpointId ∧
      (∀ name ∈ modelName, candidate.model.modelName = name) ∧
      protocolModel serde cipher db access candidate.model = .ok (some candidate) := by
  unfold loadProtocolModels at h
  split_ifs at h with hendpoint
  · rw [← Except.ok.inj h] at hmem
    exact nomatch hmem
  · obtain ⟨loaded, hloaded, rfl⟩ := map_ok h
    have hsome : some candidate ∈ loaded := List.reduceOption_mem_iff.mp hmem
    obtain ⟨model, hmodel, hprotocol⟩ := mapM_mem hloaded hsome
    rw [List.mem_mergeSort, List.mem_filter, decide_eq_true_iff] at hmodel
    obtain ⟨provider, -, -, heq, -⟩ := protocolModel_ok hprotocol
    rw [heq]
    exact ⟨hmodel.1, hmodel.2.1, hmodel.2.2, hprotocol⟩

theorem Mapped.candidates (h : Mapped env.serde catalog db) {model downstreamProtocol : String}
    {candidates : List ResolvedEndpointProvider}
    (hresolve : resolveEndpointModelCandidates env db access model downstreamProtocol = .ok candidates)
    {candidate : ResolvedEndpointProvider} (hmem : candidate ∈ candidates) :
    candidate.modelUpstream = catalog.providerUpstreamModel candidate.provider.providerType model := by
  obtain ⟨resolved, hload, hresolve⟩ := bind_ok hresolve
  dsimp only at hresolve
  split_ifs at hresolve
  obtain rfl := Except.ok.inj hresolve
  obtain ⟨selected, hselected, hcandidate⟩ := List.mem_filterMap.mp hmem
  obtain ⟨hmodel, -, hname, hprotocol⟩ := loadProtocolModels_ok (mapError_ok hload) (mem_selectCandidates hselected)
  obtain ⟨provider, hfound, -, -, -, htype, hmodels⟩ := protocolModel_ok hprotocol
  obtain ⟨hprovider, hid⟩ := (findProvider_iff h.keys).mp hfound
  unfold resolvedProvider at hcandidate
  split_ifs at hcandidate with hprovides
  obtain ⟨protocol, -, rfl⟩ := Option.map_eq_some_iff.mp hcandidate
  rw [RegistryProvider.providesModel, List.any_eq_true, hmodels] at hprovides
  obtain ⟨enabled, henabled, heq⟩ := hprovides
  rw [← hname model rfl] at heq ⊢
  dsimp only
  rw [htype]
  exact h.named _ hmodel provider hprovider hid (of_decide_eq_true heq ▸ henabled)

theorem Mapped.consistent (h : Mapped env.serde catalog db) : CatalogConsistent env catalog db where
  offered := h.offered
  named _ _ _ _ hresolve _ hmem := h.candidates hresolve hmem

end resolve

section endpoints

variable {serde : SerdeJson} {catalog : ProviderCatalog} {db db' : Database} {identityId endpointId : String}
  {ids : ℕ → String} {createdAt : ℤ}

def NamedFor (catalog : ProviderCatalog) (db : Database) (providerId modelName upstreamModel : String) : Prop :=
  ∃ provider, findProvider db providerId = some provider ∧
    upstreamModel = catalog.providerUpstreamModel provider.providerType modelName

theorem resolveModel_ok {model resolved : NormalizedModel}
    (h : Endpoints.resolveModel serde (some catalog) db identityId model = .ok resolved) :
    NamedFor catalog db resolved.providerId resolved.modelName resolved.upstreamModel := by
  obtain ⟨usable, -, h⟩ := bind_ok h
  split_ifs at h
  obtain ⟨provider, hfound, h⟩ := bind_ok h
  dsimp only at h
  split_ifs at h
  obtain rfl := Except.ok.inj h
  exact ⟨provider, okOr_ok hfound, rfl⟩

theorem insertModel_ok {row : EndpointModel} (h : Endpoints.insertModel db row = .ok db') :
    db' = { db with models := db.models ++ [row] } := by
  unfold Endpoints.insertModel at h
  split_ifs at h
  exact (Except.ok.inj h).symm

theorem foldlM_insertModel_ok {rows : List EndpointModel} (h : rows.foldlM Endpoints.insertModel db = .ok db') :
    db' = { db with models := db.models ++ rows } := by
  induction rows generalizing db with
  | nil => rw [← Except.ok.inj h, List.append_nil]
  | cons row rows ih =>
    rw [List.foldlM_cons] at h
    obtain ⟨next, hnext, h⟩ := bind_ok h
    rw [ih h, insertModel_ok hnext, List.append_assoc, List.singleton_append]

theorem insertModels_ok {models : List NormalizedModel}
    (h : Endpoints.insertModels ids endpointId models createdAt db = .ok db') :
    db' = { db with models := db.models ++ models.mapIdx (Endpoints.modelRow ids endpointId createdAt) } :=
  foldlM_insertModel_ok h

theorem insertEndpoint_ok {row : EndpointConfig} (h : Endpoints.insertEndpoint row db = .ok db') :
    db' = { db with endpoints := db.endpoints ++ [row] } := by
  unfold Endpoints.insertEndpoint at h
  split_ifs at h
  exact (Except.ok.inj h).symm

theorem resolved_rows {models resolved : List NormalizedModel}
    (h : Endpoints.resolveModels serde (some catalog) db identityId models = .ok resolved) {row : EndpointModel}
    (hrow : row ∈ resolved.mapIdx (Endpoints.modelRow ids endpointId createdAt)) :
    NamedFor catalog db row.providerId row.modelName row.upstreamModel := by
  obtain ⟨position, hposition, rfl⟩ := List.mem_mapIdx.mp hrow
  obtain ⟨model, -, hmodel⟩ := mapM_mem h (List.getElem_mem hposition)
  exact resolveModel_ok hmodel

theorem Mapped.endpoints (h : Mapped serde catalog db) (hproviders : db'.providers = db.providers)
    (hmodels : ∀ row ∈ db'.models, row ∈ db.models ∨ NamedFor catalog db row.providerId row.modelName row.upstreamModel) :
    Mapped serde catalog db' where
  keys := hproviders ▸ h.keys
  trimmed := hproviders ▸ h.trimmed
  offered := hproviders ▸ h.offered
  provided := by
    intro row hrow
    rw [hproviders]
    obtain hold | ⟨provider, hfound, -⟩ := hmodels row hrow
    · exact h.provided row hold
    · obtain ⟨hmem, hid⟩ := (findProvider_iff h.keys).mp hfound
      exact ⟨provider, hmem, hid⟩
  named := by
    intro row hrow provider hprovider hid henabled
    rw [hproviders] at hprovider
    obtain hold | ⟨found, hfound, hname⟩ := hmodels row hrow
    · exact h.named row hold provider hprovider hid henabled
    · rw [(findProvider_iff h.keys).mpr ⟨hprovider, hid⟩] at hfound
      rw [hname, Option.some.inj hfound]

theorem Mapped.createEndpoint (h : Mapped serde catalog db) {token : String} {input : CreateEndpointRequest}
    (hcreate : Endpoints.create serde (some catalog) identityId endpointId ids createdAt token input db = .ok db') :
    Mapped serde catalog db' := by
  unfold Endpoints.create at hcreate
  dsimp only at hcreate
  split_ifs at hcreate
  obtain ⟨_, -, hcreate⟩ := bind_ok hcreate
  obtain ⟨normalized, -, hcreate⟩ := bind_ok hcreate
  obtain ⟨resolved, hresolved, hcreate⟩ := bind_ok hcreate
  obtain ⟨inserted, hinserted, hcreate⟩ := bind_ok hcreate
  obtain rfl := insertModels_ok hcreate
  obtain rfl := insertEndpoint_ok hinserted
  refine h.endpoints rfl ?_
  intro row hrow
  exact (List.mem_append.mp hrow).imp_right (resolved_rows hresolved)

theorem updateEndpointRow_ok {name protocol : Option String}
    (h : Endpoints.updateEndpointRow endpointId name protocol db = .ok db') :
    ∃ endpoints, db' = { db with endpoints := endpoints } := by
  unfold Endpoints.updateEndpointRow at h
  split_ifs at h
  · exact ⟨db.endpoints, (Except.ok.inj h).symm⟩
  · exact ⟨_, (Except.ok.inj h).symm⟩

theorem Mapped.updateEndpoint (h : Mapped serde catalog db) {input : UpdateEndpointRequest}
    (hupdate : Endpoints.update serde (some catalog) identityId endpointId ids createdAt input db = .ok db') :
    Mapped serde catalog db' := by
  obtain ⟨current, -, hupdate⟩ := bind_ok hupdate
  obtain ⟨normalized, -, hupdate⟩ := bind_ok hupdate
  obtain ⟨_, -, hupdate⟩ := bind_ok hupdate
  obtain ⟨resolved, hresolved, hupdate⟩ := bind_ok hupdate
  obtain ⟨updated, hupdated, hupdate⟩ := bind_ok hupdate
  obtain ⟨endpoints, rfl⟩ := updateEndpointRow_ok hupdated
  cases resolved with
  | none =>
    obtain rfl := Except.ok.inj hupdate
    exact h.endpoints rfl (fun row hrow => .inl hrow)
  | some resolved =>
    cases normalized with
    | none => exact nomatch Except.ok.inj hresolved
    | some normalized =>
      obtain ⟨models, hmodels, heq⟩ := bind_ok hresolved
      obtain rfl := Option.some.inj (Except.ok.inj heq)
      obtain rfl := insertModels_ok hupdate
      refine h.endpoints rfl ?_
      intro row hrow
      obtain hold | hnew := List.mem_append.mp hrow
      · exact .inl (List.mem_filter.mp hold).1
      · exact .inr (resolved_rows hmodels hnew)

end endpoints

section providers

variable {env : StorageEnv} {catalog : ProviderCatalog} {db db' : Database} {identityId providerId : String}

theorem models_trimmed {id model : String} (h : model ∈ catalog.models id) : Str.trim id = id := by
  unfold ProviderCatalog.models at h
  cases hprovider : catalog.provider id with
  | none =>
    rw [hprovider] at h
    exact nomatch h
  | some provider => exact catalog.trimmed id (hprovider ▸ rfl)

theorem created_offered {input : CreateProviderRequest env} {models : List String}
    (h : input.models.elim (.ok (catalog.models input.providerType))
      (resolveProviderModels (some catalog) input.providerType) = .ok models) :
    ∀ model ∈ models, model ∈ catalog.models (Str.trim input.providerType) := by
  have hraw : ∀ model ∈ models, model ∈ catalog.models input.providerType := by
    cases hgiven : input.models with
    | none =>
      rw [hgiven] at h
      rw [← Except.ok.inj h]
      exact fun model hmodel => hmodel
    | some given =>
      rw [hgiven] at h
      exact resolveProviderModels_ok h
  intro model hmodel
  rw [models_trimmed (hraw model hmodel)]
  exact hraw model hmodel

theorem Mapped.createProvider (hserde : env.serde.Lawful) (h : Mapped env.serde catalog db) {createdAt : ℤ} {nonce : ℕ}
    {input : CreateProviderRequest env} {id : String}
    (hcreate : createInner (some catalog) identityId providerId createdAt nonce input db = .ok (id, db')) :
    Mapped env.serde catalog db' := by
  obtain ⟨row, models, -, hfresh, htype, -, hmodels, hjson, rfl⟩ := createInner_ok hcreate
  -- no mapping refers to the new provider yet
  have hunmapped : ∀ model ∈ db.models, row.id ≠ model.providerId := by
    intro model hmodel hid
    obtain ⟨provider, hprovider, hparent⟩ := h.provided model hmodel
    exact hfresh (List.mem_map.mpr ⟨provider, hprovider, hparent.trans hid.symm⟩)
  constructor
  case keys =>
    rw [List.map_append, List.map_singleton]
    exact List.nodup_append_comm.mp (List.nodup_cons.mpr ⟨hfresh, h.keys⟩)
  case trimmed =>
    rw [List.forall_mem_append, List.forall_mem_singleton, htype]
    exact ⟨h.trimmed, Str.trim_trim _⟩
  case provided =>
    intro model hmodel
    obtain ⟨provider, hprovider, hparent⟩ := h.provided model hmodel
    exact ⟨provider, List.mem_append_left _ hprovider, hparent⟩
  case offered =>
    rw [List.forall_mem_append, List.forall_mem_singleton, hjson, parse_modelsJson hserde, htype]
    exact ⟨h.offered, created_offered hmodels⟩
  case named =>
    intro model hmodel provider hprovider hid
    obtain hold | hnew := List.mem_append.mp hprovider
    · exact h.named model hmodel provider hold hid
    · rw [List.mem_singleton.mp hnew] at hid
      exact absurd hid (hunmapped model hmodel)

def updatedModels (serde : SerdeJson) (input : UpdateProviderRequest env) (existing : ProviderConfig) : List String :=
  input.models.elim (parseModels serde existing.modelsJson) (fun models => models.map Str.trim)

/-- An update that keeps what depends on the type in step with it: an omitted list is one of the new type, and the
mappings of enabled models store the names of the new type. -/
structure KeepsCatalog (catalog : ProviderCatalog) (db : Database) (input : UpdateProviderRequest env)
    (existing : ProviderConfig) : Prop where
  offered : input.models = none → ∀ model ∈ parseModels env.serde existing.modelsJson,
    model ∈ catalog.models (updatedType input existing)
  named : ∀ model ∈ db.models, model.providerId = existing.id →
    model.modelName ∈ updatedModels env.serde input existing →
      model.upstreamModel = catalog.providerUpstreamModel (updatedType input existing) model.modelName

theorem foldlM_normalizeModel_mem {start models normalized : List String}
    (h : models.foldlM normalizeModel start = .ok normalized) {model : String} (hmodel : model ∈ normalized) :
    model ∈ start ∨ model ∈ models.map Str.trim := by
  induction models generalizing start with
  | nil => exact .inl (Except.ok.inj h ▸ hmodel)
  | cons given models ih =>
    rw [List.foldlM_cons] at h
    obtain ⟨next, hnext, h⟩ := bind_ok h
    obtain hnextMem | hrest := ih h
    · unfold normalizeModel at hnext
      dsimp only at hnext
      split_ifs at hnext
      · exact .inl (Except.ok.inj hnext ▸ hnextMem)
      · rw [← Except.ok.inj hnext, List.mem_append, List.mem_singleton] at hnextMem
        exact hnextMem.imp_right (fun hgiven => by rw [hgiven]; exact List.mem_cons_self)
    · exact .inr (List.mem_cons_of_mem _ hrest)

theorem resolveProviderModels_mem {providerType : String} {given models : List String}
    (h : resolveProviderModels (some catalog) providerType given = .ok models) {model : String} (hmodel : model ∈ models) :
    model ∈ given.map Str.trim := by
  obtain ⟨normalized, hnormal, h⟩ := bind_ok h
  obtain ⟨_, -, h⟩ := bind_ok h
  obtain rfl := Except.ok.inj h
  exact (foldlM_normalizeModel_mem hnormal hmodel).resolve_left List.not_mem_nil

theorem trim_getD (input : UpdateProviderRequest env) {existing : ProviderConfig}
    (h : Str.trim existing.providerType = existing.providerType) :
    Str.trim (input.providerType.getD existing.providerType) = updatedType input existing := by
  unfold updatedType
  cases input.providerType with
  | none => exact h
  | some providerType => rfl

theorem changes_models (hserde : env.serde.Lawful) {nonce : ℕ} {input : UpdateProviderRequest env}
    {existing : ProviderConfig} {changes : ProviderChanges}
    (htrim : Str.trim existing.providerType = existing.providerType)
    (h : providerChanges (some catalog) nonce input existing = .ok changes) {model : String}
    (hmodel : model ∈ parseModels env.serde changes.modelsJson) :
    model ∈ updatedModels env.serde input existing ∧
      (input.models ≠ none → model ∈ catalog.models (updatedType input existing)) := by
  obtain ⟨-, -, hmodels⟩ := providerChanges_ok h
  unfold updatedModels
  cases hgiven : input.models with
  | none =>
    rw [hgiven] at hmodels
    rw [hmodels] at hmodel
    exact ⟨hmodel, fun hne => absurd rfl hne⟩
  | some given =>
    rw [hgiven] at hmodels
    obtain ⟨models, hjson, hresolve⟩ := hmodels
    rw [hjson, parse_modelsJson hserde] at hmodel
    rw [trim_getD input htrim] at hresolve
    exact ⟨resolveProviderModels_mem hresolve hmodel, fun _ => resolveProviderModels_ok hresolve model hmodel⟩

theorem Mapped.updateProvider (hserde : env.serde.Lawful) (h : Mapped env.serde catalog db) {nonce : ℕ}
    {input : UpdateProviderRequest env}
    (hkeeps : ∀ existing, findProvider db providerId = some existing → KeepsCatalog catalog db input existing)
    (hupdate : updateProvider (some catalog) identityId providerId nonce input db = .ok db') :
    Mapped env.serde catalog db' := by
  obtain ⟨existing, changes, hfound, hchanges, rfl⟩ := updateProvider_ok hupdate
  obtain ⟨hmem, hid⟩ := (findProvider_iff h.keys).mp hfound
  have hexisting := hkeeps existing hfound
  obtain ⟨htype, -, -⟩ := providerChanges_ok hchanges
  have htrim := h.trimmed existing hmem
  have htypeUpdated : (changes.apply existing).providerType = updatedType input existing := by
    unfold ProviderChanges.apply updatedType
    rw [htype]
  -- the row of the provider is the only one that changes
  have hrow : ∀ row ∈ db.providers, row.id = providerId → row = existing := fun row hrow hrowId =>
    List.inj_on_of_nodup_map h.keys hrow hmem (hrowId.trans hid.symm)
  constructor
  case keys =>
    rw [map_key (changes_apply_id changes)]
    exact h.keys
  case trimmed =>
    rw [List.forall_mem_map]
    intro row hmemRow
    split_ifs with hrowId
    · rw [hrow row hmemRow hrowId, htypeUpdated, ← trim_getD input htrim, Str.trim_trim]
    · exact h.trimmed row hmemRow
  case provided =>
    intro model hmodel
    obtain ⟨provider, hprovider, hparent⟩ := h.provided model hmodel
    exact ⟨_, List.mem_map_of_mem hprovider, (changes_apply_id changes provider).trans hparent⟩
  case offered =>
    rw [List.forall_mem_map]
    intro row hmemRow
    split_ifs with hrowId
    · rw [hrow row hmemRow hrowId, htypeUpdated]
      intro model hmodel
      obtain ⟨-, hgiven⟩ := changes_models hserde htrim hchanges hmodel
      by_cases hnone : input.models = none
      · obtain ⟨henabled, -⟩ := changes_models hserde htrim hchanges hmodel
        rw [updatedModels, hnone] at henabled
        exact hexisting.offered hnone model henabled
      · exact hgiven hnone
    · exact h.offered row hmemRow
  case named =>
    intro model hmodel
    rw [List.forall_mem_map]
    intro row hmemRow hrowModel henabled
    split_ifs at hrowModel henabled ⊢ with hrowId
    · obtain rfl := hrow row hmemRow hrowId
      rw [htypeUpdated]
      exact hexisting.named model hmodel hrowModel.symm (changes_models hserde htrim hchanges henabled).1
    · exact h.named model hmodel row hmemRow hrowModel henabled

end providers

section histories

variable (env : StorageEnv) (catalog : ProviderCatalog)

inductive ConfigOp where
  | createProvider (identityId providerId : String) (createdAt : ℤ) (nonce : ℕ) (input : CreateProviderRequest env)
  | updateProvider (identityId providerId : String) (nonce : ℕ) (input : UpdateProviderRequest env)
  | createEndpoint (identityId endpointId token : String) (ids : ℕ → String) (createdAt : ℤ)
      (input : CreateEndpointRequest)
  | updateEndpoint (identityId endpointId : String) (ids : ℕ → String) (createdAt : ℤ) (input : UpdateEndpointRequest)

def ConfigOp.step (db : Database) : ConfigOp env → Except StorageError Database
  | .createProvider identityId providerId createdAt nonce input =>
    (createInner (some catalog) identityId providerId createdAt nonce input db).map Prod.snd
  | .updateProvider identityId providerId nonce input =>
    Store.updateProvider (some catalog) identityId providerId nonce input db
  | .createEndpoint identityId endpointId token ids createdAt input =>
    Endpoints.create env.serde (some catalog) identityId endpointId ids createdAt token input db
  | .updateEndpoint identityId endpointId ids createdAt input =>
    Endpoints.update env.serde (some catalog) identityId endpointId ids createdAt input db

variable {env}

def ConfigOp.Keeps (db : Database) : ConfigOp env → Prop
  | .updateProvider _ providerId _ input => ∀ existing, findProvider db providerId = some existing →
      KeepsCatalog catalog db input existing
  | _ => True

variable (env)

def ConfigStep (db : Database) (op : ConfigOp env) (db' : Database) : Prop := op.step env catalog db = .ok db'

variable {env catalog}

theorem Mapped.step (hserde : env.serde.Lawful) {db db' : Database} (h : Mapped env.serde catalog db)
    {op : ConfigOp env} (hkeeps : op.Keeps catalog db) (hstep : op.step env catalog db = .ok db') :
    Mapped env.serde catalog db' := by
  cases op with
  | createProvider identityId providerId createdAt nonce input =>
    obtain ⟨⟨id, created⟩, hcreate, rfl⟩ := map_ok hstep
    exact h.createProvider hserde hcreate
  | updateProvider identityId providerId nonce input => exact h.updateProvider hserde hkeeps hstep
  | createEndpoint identityId endpointId token ids createdAt input => exact h.createEndpoint hstep
  | updateEndpoint identityId endpointId ids createdAt input => exact h.updateEndpoint hstep

theorem Mapped.initial {serde : SerdeJson} {start : Database} (hproviders : start.providers = [])
    (hmodels : start.models = []) : Mapped serde catalog start where
  keys := by simp [hproviders]
  trimmed := by simp [hproviders]
  provided := by
    intro model hmodel
    rw [hmodels] at hmodel
    exact nomatch hmodel
  offered := by simp [hproviders]
  named := by simp [hmodels]

end histories

section consistency

theorem reached_consistent (env : StorageEnv) (resolver : ResolverEnv) (catalog : ProviderCatalog)
    (hserde : env.serde.Lawful) (hsame : resolver.serde = env.serde) {start db : Database}
    (hproviders : start.providers = []) (hmodels : start.models = [])
    (h : Reaches (ConfigStep env catalog) (fun db op => op.Keeps catalog db) start db) :
    CatalogConsistent resolver catalog db := by
  apply Mapped.consistent
  rw [hsame]
  apply h.invariant
  · exact Mapped.initial hproviders hmodels
  · intro db op db' hmapped hkeeps hstep
    exact hmapped.step hserde hkeeps hstep

def plainResolver : ResolverEnv :=
  { serde := Text.codec, cipher := plainCipher, latency := fun _ => none,
    supportedProtocols := fun _ => [.chatCompletions], storageError := fun _ => .internal "storage" }

def twoCatalog : ProviderCatalog where
  provider id := if id = "kimi" then some ⟨["k2"], [], []⟩ else if id = "glm" then some ⟨["g1"], [], []⟩ else none
  trimmed id h := by
    split_ifs at h with hkimi hglm
    · rw [hkimi]
      decide
    · rw [hglm]
      decide
    · exact nomatch h

def glmDatabase (models : String) : Database :=
  { ownerDatabase with providers := [{ kimiRow (some models) with providerType := "glm" }] }

def createKimiOp : ConfigOp plainEnv.toStorageEnv := .createProvider "owner" "p" 0 0 kimiRequest

theorem createKimiOp_step :
    createKimiOp.step plainEnv.toStorageEnv twoCatalog ownerDatabase = .ok (kimiDatabase (some "[\"k2\"]")) := by
  rfl

def changeType (models : Option (List String)) : ConfigOp plainEnv.toStorageEnv :=
  .updateProvider "owner" "p" 0 { providerType := some "glm", models := models }

theorem changeType_step :
    (changeType none).step plainEnv.toStorageEnv twoCatalog (kimiDatabase (some "[\"k2\"]")) =
      .ok (glmDatabase "[\"k2\"]") := by
  rfl

theorem changeType_models_step :
    (changeType (some ["g1"])).step plainEnv.toStorageEnv twoCatalog (kimiDatabase (some "[\"k2\"]")) =
      .ok (glmDatabase "[\"g1\"]") := by
  rfl

theorem reached_consistent_glm : CatalogConsistent plainResolver twoCatalog (glmDatabase "[\"g1\"]") := by
  refine reached_consistent plainEnv.toStorageEnv plainResolver twoCatalog Text.codec_lawful rfl rfl rfl
    (.step (.step .start ?_ createKimiOp_step) ?_ changeType_models_step)
  · trivial
  · intro existing _
    constructor
    · exact fun hnone => nomatch hnone
    · exact fun model hmodel => nomatch hmodel

/-- A change of the type alone keeps a list of the old type. -/
theorem reached_consistent_not :
    Reaches (ConfigStep plainEnv.toStorageEnv twoCatalog) (fun _ _ => True) ownerDatabase (glmDatabase "[\"k2\"]") ∧
      ¬CatalogConsistent plainResolver twoCatalog (glmDatabase "[\"k2\"]") := by
  refine ⟨.step (.step .start trivial createKimiOp_step) trivial changeType_step, ?_⟩
  intro hconsistent
  have hmodel : "k2" ∈ parseModels Text.codec (some (Text.codec.toStr (.array (["k2"].map .string)))) := by
    rw [parse_toStr Text.codec_lawful]
    exact List.mem_singleton_self _
  have hoffered := hconsistent.offered _ (List.mem_singleton_self _) "k2" hmodel
  exact absurd hoffered (by decide)

end consistency

end Prelay.Store
