import Mathlib.Data.List.Forall2
import Prelay.Reconciliation
import Prelay.ResponsesDecode

namespace Prelay.Store.Startup

open Json Bridge Relational Sweep

structure Keyed (db : Database) : Prop where
  providers : (db.providers.map ProviderConfig.id).Nodup
  models : (db.models.map EndpointModel.id).Nodup
  candidates : UniqueCandidates db

/-- The state that the two passes are meant to reach. -/
structure Reconciled (env : StartupEnv) (codec : CapabilityCodec) (catalog : StartupCatalog) (db db' : Database) :
    Prop where
  frame : { db' with providers := db.providers, models := db.models, routes := db.routes } = db
  providers : List.Forall₂ (Aligned codec catalog) db.providers db'.providers
  kept : ∀ kept ∈ db'.models, ∃ model ∈ db.models, { kept with upstreamModel := model.upstreamModel } = model ∧
    ∃ provider ∈ db'.providers, provider.id = kept.providerId ∧
      kept.modelName ∈ parseModels env.serde provider.modelsJson ∧
      kept.upstreamModel = if catalog.provider provider.providerType = none then model.upstreamModel
        else catalog.providerUpstreamModel provider.providerType kept.modelName
  deleted : ∀ model ∈ db.models, (∀ kept ∈ db'.models, kept.id ≠ model.id) →
    ∀ provider ∈ db.providers, provider.id = model.providerId →
      model.modelName ∉ parseModels env.serde provider.modelsJson

section passes

variable {env : StartupEnv} {codec : CapabilityCodec} {catalog : StartupCatalog} {db : Database}

def alignedDatabase (codec : CapabilityCodec) (catalog : StartupCatalog) (db : Database) : Database :=
  { db with providers := db.providers.map (alignedProvider codec catalog) }

def settledDatabase (env : StartupEnv) (codec : CapabilityCodec) (catalog : StartupCatalog) (db : Database) :
    Database :=
  Store.reconcileEndpointModels env catalog.toProviderCatalog (alignedDatabase codec catalog db)

theorem findProvider_aligned (id : String) :
    findProvider (alignedDatabase codec catalog db) id = (findProvider db id).map (alignedProvider codec catalog) :=
  find?_map_key (fun provider => (alignedProvider_id provider).1) id

theorem upstreamOf_aligned (providerId modelName : String) :
    upstreamOf env catalog.toProviderCatalog (alignedDatabase codec catalog db) providerId modelName =
      upstreamOf env catalog.toProviderCatalog db providerId modelName := by
  rw [upstreamOf, upstreamOf, findProvider_aligned]
  cases findProvider db providerId with
  | none => rfl
  | some provider =>
    obtain ⟨-, htype, hmodels⟩ := @alignedProvider_id codec catalog provider
    simp only [Option.map_some, htype, hmodels]

theorem reconciledModel_aligned (model : EndpointModel) :
    reconciledModel env catalog.toProviderCatalog (alignedDatabase codec catalog db) model =
      reconciledModel env catalog.toProviderCatalog db model := by
  rw [reconciledModel_eq, reconciledModel_eq, upstreamOf_aligned]

theorem Keyed.aligned (h : Keyed db) (codec : CapabilityCodec) (catalog : StartupCatalog) :
    Keyed (alignedDatabase codec catalog db) := by
  refine ⟨?_, h.models, h.candidates⟩
  rw [alignedDatabase, map_key (fun provider => (alignedProvider_id provider).1)]
  exact h.providers

theorem noTwins_aligned (h : Keyed db) :
    NoTwins env catalog.toProviderCatalog (alignedDatabase codec catalog db) ↔
      NoTwins env catalog.toProviderCatalog db := by
  have hrenamed (model : EndpointModel) :
      Renamed env catalog.toProviderCatalog (alignedDatabase codec catalog db) model ↔
        Renamed env catalog.toProviderCatalog db model := by
    rw [renamed_iff (h.aligned codec catalog).providers, renamed_iff h.providers, upstreamOf_aligned]
  simp only [NoTwins, hrenamed]
  rfl

theorem reconciledUpTo_all {catalog : ProviderCatalog} {done : List String} (h : ∀ model ∈ db.models, model.id ∈ done) :
    reconciledUpTo env catalog done db = Store.reconcileEndpointModels env catalog db := by
  have hremoved : db.models.filter (fun model => model.id ∈ done ∧ (reconciledModel env catalog db model).isNone) =
      db.models.filter (fun model => (reconciledModel env catalog db model).isNone) := by
    apply List.filter_congr
    intro model hmodel
    rw [Bool.eq_iff_iff, decide_eq_true_iff]
    exact and_iff_right (h model hmodel)
  rw [reconciledUpTo, settled_all h, hremoved]
  rfl

theorem reconcileEndpointModels_ok {catalog : ProviderCatalog} (hdb : Keyed db) (h : NoTwins env catalog db)
    (scan : Scan) : (reconcileEndpointModels env.serde catalog scan db).2 = .ok () := by
  have hperm := scan.modelsPerm db.models
  have hnodup : ((scan.models db.models).map EndpointModel.id).Nodup := (hperm.map _).nodup_iff.mpr hdb.models
  have htypes := @providerTypes_eq db env.serde _ (scan.providersPerm db.providers) hdb.providers
  have hunique := h.unique hdb.providers hdb.models hdb.candidates
  refine (each_all (reconcileModel catalog (providerTypes env.serde (scan.providers db.providers)))
    (fun done state => state = reconciledUpTo env catalog (done.map EndpointModel.id) db) (scan.models db.models)
    (fun done model rest state hrows hdone => ?_) (reconciledUpTo_nil env catalog db).symm).2
  have hmem : model ∈ db.models := hperm.subset (hrows ▸ by simp)
  have hstep := reconcileModel_step hdb.models htypes hmem (not_mem_passed hnodup hrows)
    (hunique (done.map EndpointModel.id))
  rw [if_pos (hunique _)] at hstep
  refine ⟨_, hdone ▸ hstep, ?_⟩
  rw [List.map_append, List.map_singleton]

theorem noTwins_of_unique {catalog : ProviderCatalog} (hdb : Keyed db) {done : List String}
    (hall : ∀ model ∈ db.models, model.id ∈ done) (h : UniqueCandidates (reconciledUpTo env catalog done db)) :
    NoTwins env catalog db := by
  intro model hmodel other hother hrenamed htarget
  obtain ⟨upstream, hupstream⟩ := (renamed_iff hdb.providers model).mp hrenamed
  have hmem {row : EndpointModel} (hrow : row ∈ db.models)
      (hname : upstreamOf env catalog db row.providerId row.modelName = some (some upstream)) :
      { row with upstreamModel := upstream } ∈ (reconciledUpTo env catalog done db).models := by
    apply List.mem_filterMap.mpr
    refine ⟨row, hrow, ?_⟩
    rw [if_pos (hall row hrow), reconciledModel_eq, hname]
    rfl
  have hsame := List.inj_on_of_nodup_map h (hmem hmodel hupstream)
    (hmem hother (upstreamOf_target htarget ▸ hupstream)) (candidate_eq_iff.mpr ⟨htarget, rfl⟩)
  exact List.inj_on_of_nodup_map hdb.models hmodel hother (EndpointModel.mk.inj hsame).1

/-- A run that does not fail reaches the settled database, and without twins no run fails. -/
theorem reconcile_ok_iff (hdb : Keyed db) (scan : Scan) (db' : Database) :
    reconcile env.serde codec catalog scan db = (db', .ok ()) ↔
      NoTwins env catalog.toProviderCatalog db ∧ db' = settledDatabase env codec catalog db := by
  have haligned := hdb.aligned codec catalog
  have hpass := @reconcileProtocolBaseUrls_eq codec catalog scan db hdb.providers
  obtain ⟨done, hstate, hunique, hall⟩ := reconcileEndpointModels_passed env catalog.toProviderCatalog scan
    haligned.providers haligned.models haligned.candidates
  have hreached (hok : (reconcileEndpointModels env.serde catalog.toProviderCatalog scan
      (alignedDatabase codec catalog db)).2 = .ok ()) :
      (reconcileEndpointModels env.serde catalog.toProviderCatalog scan (alignedDatabase codec catalog db)).1 =
        settledDatabase env codec catalog db := by
    rw [hstate, reconciledUpTo_all (hall hok)]
    rfl
  rw [reconcile, hpass]
  change reconcileEndpointModels env.serde catalog.toProviderCatalog scan (alignedDatabase codec catalog db) = _ ↔ _
  constructor
  · intro hrun
    have hok := congrArg Prod.snd hrun
    refine ⟨(noTwins_aligned hdb).mp (noTwins_of_unique haligned (hall hok) hunique), ?_⟩
    exact (congrArg Prod.fst hrun).symm.trans (hreached hok)
  · rintro ⟨hnone, rfl⟩
    have hok := reconcileEndpointModels_ok haligned ((noTwins_aligned hdb).mpr hnone) scan
    exact Prod.ext (hreached hok) hok

theorem upstreamOf_settled (providerId modelName : String) :
    upstreamOf env catalog.toProviderCatalog (settledDatabase env codec catalog db) providerId modelName =
      upstreamOf env catalog.toProviderCatalog db providerId modelName :=
  upstreamOf_aligned providerId modelName

theorem reconciledModel_settled {kept : EndpointModel} (h : kept ∈ (settledDatabase env codec catalog db).models) :
    reconciledModel env catalog.toProviderCatalog (settledDatabase env codec catalog db) kept = some kept := by
  obtain ⟨model, -, hkept⟩ := List.mem_filterMap.mp h
  rw [reconciledModel_aligned, reconciledModel_eq] at hkept
  obtain ⟨upstream, hupstream, rfl⟩ := Option.map_eq_some_iff.mp hkept
  rw [reconciledModel_eq, upstreamOf_settled, hupstream]
  cases upstream <;> rfl

theorem settled_keyed (hdb : Keyed db) (h : NoTwins env catalog.toProviderCatalog db) :
    Keyed (settledDatabase env codec catalog db) := by
  have haligned := hdb.aligned codec catalog
  have hall : ∀ model ∈ (alignedDatabase codec catalog db).models, model.id ∈ db.models.map EndpointModel.id :=
    fun model hmodel => List.mem_map_of_mem hmodel
  have hstate := @reconciledUpTo_all env (alignedDatabase codec catalog db) catalog.toProviderCatalog _ hall
  refine ⟨haligned.providers, ?_, ?_⟩
  · rw [settledDatabase, ← hstate]
    exact keys_settled_nodup haligned.models keepsKey_reconciled _
  · rw [settledDatabase, ← hstate]
    exact ((noTwins_aligned hdb).mpr h).unique haligned.providers haligned.models haligned.candidates _

theorem settled_noTwins (hdb : Keyed db) (h : NoTwins env catalog.toProviderCatalog db) :
    NoTwins env catalog.toProviderCatalog (settledDatabase env codec catalog db) := by
  have hkeyed := @settled_keyed env codec catalog db hdb h
  intro model hmodel other hother hrenamed htarget
  obtain ⟨upstream, hupstream⟩ := (renamed_iff hkeyed.providers model).mp hrenamed
  have hname {row : EndpointModel} (hrow : row ∈ (settledDatabase env codec catalog db).models)
      (hrenamed : upstreamOf env catalog.toProviderCatalog (settledDatabase env codec catalog db) row.providerId
        row.modelName = some (some upstream)) : row.upstreamModel = upstream := by
    have hsame := reconciledModel_settled hrow
    rw [reconciledModel_eq, hrenamed] at hsame
    exact congrArg EndpointModel.upstreamModel (Option.some.inj hsame).symm
  apply List.inj_on_of_nodup_map hkeyed.candidates hmodel hother
  apply candidate_eq_iff.mpr
  exact ⟨htarget, (hname hmodel hupstream).trans (hname hother (upstreamOf_target htarget ▸ hupstream)).symm⟩

theorem settled_idempotent (env : StartupEnv) (codec : CapabilityCodec) (catalog : StartupCatalog) (db : Database) :
    settledDatabase env codec catalog (settledDatabase env codec catalog db) =
      settledDatabase env codec catalog db := by
  have hproviders : alignedDatabase codec catalog (settledDatabase env codec catalog db) =
      settledDatabase env codec catalog db := by
    have hmap : (db.providers.map (alignedProvider codec catalog)).map (alignedProvider codec catalog) =
        db.providers.map (alignedProvider codec catalog) :=
      map_eq_self_iff.mpr (fun provider hprovider => by
        obtain ⟨source, -, rfl⟩ := List.mem_map.mp hprovider
        exact alignedProvider_idempotent source)
    exact congrArg (fun providers => { settledDatabase env codec catalog db with providers := providers }) hmap
  have hmodels : (settledDatabase env codec catalog db).models.filterMap
      (reconciledModel env catalog.toProviderCatalog (settledDatabase env codec catalog db)) =
        (settledDatabase env codec catalog db).models := by
    rw [List.filterMap_congr (fun kept hkept => reconciledModel_settled hkept), List.filterMap_some]
  have hremoved : (settledDatabase env codec catalog db).models.filter (fun model =>
      (reconciledModel env catalog.toProviderCatalog (settledDatabase env codec catalog db) model).isNone) = [] := by
    rw [List.filter_eq_nil_iff]
    intro kept hkept
    rw [reconciledModel_settled hkept]
    exact Bool.false_ne_true
  rw [settledDatabase.eq_1 env codec catalog (settledDatabase env codec catalog db), hproviders,
    Store.reconcileEndpointModels, hmodels, hremoved]
  simp

theorem settled_reconciled (hdb : Keyed db) :
    Reconciled env codec catalog db (settledDatabase env codec catalog db) := by
  constructor
  · rfl
  · change List.Forall₂ _ db.providers (db.providers.map (alignedProvider codec catalog))
    rw [List.forall₂_map_right_iff]
    exact List.forall₂_same.mpr (fun provider _ => alignedProvider_spec codec catalog provider)
  · intro kept hkept
    obtain ⟨model, hmodel, hfrom⟩ := List.mem_filterMap.mp hkept
    rw [reconciledModel_aligned, reconciledModel] at hfrom
    cases hfound : findProvider db model.providerId with
    | none => simp [hfound] at hfrom
    | some provider =>
      obtain ⟨hmem, hid⟩ := (findProvider_iff hdb.providers).mp hfound
      obtain ⟨haid, hatype, hamodels⟩ := @alignedProvider_id codec catalog provider
      simp only [hfound] at hfrom
      split_ifs at hfrom with hname hentry
      · obtain rfl := Option.some.inj hfrom
        refine ⟨model, hmodel, rfl, _, List.mem_map_of_mem hmem, haid.trans hid, ?_, ?_⟩
        · rw [hamodels]
          simpa using hname
        · rw [hatype, if_pos hentry]
      · obtain rfl := Option.some.inj hfrom
        refine ⟨model, hmodel, rfl, _, List.mem_map_of_mem hmem, haid.trans hid, ?_, ?_⟩
        · rw [hamodels]
          simpa using hname
        · rw [hatype, if_neg hentry]
  · intro model hmodel hgone provider hprovider hid hname
    have hfound := (findProvider_iff hdb.providers).mpr ⟨hprovider, hid⟩
    cases hsettled : reconciledModel env catalog.toProviderCatalog db model with
    | none =>
      simp only [reconciledModel, hfound] at hsettled
      split_ifs at hsettled with hmissing
      exact hmissing (by simpa using hname)
    | some kept =>
      apply hgone kept ?_ (keepsKey_reconciled model kept hsettled)
      exact List.mem_filterMap.mpr ⟨model, hmodel, (reconciledModel_aligned model).trans hsettled⟩

/-- The passes reach what they are meant to and leave it alone exactly when no two models become one candidate. -/
theorem reconcile_exact_iff (hdb : Keyed db) (scan : Scan) :
    (∃ db', reconcile env.serde codec catalog scan db = (db', .ok ()) ∧ Reconciled env codec catalog db db' ∧
      ∀ again, reconcile env.serde codec catalog again db' = (db', .ok ())) ↔
        NoTwins env catalog.toProviderCatalog db := by
  constructor
  · rintro ⟨db', hrun, -⟩
    exact ((reconcile_ok_iff hdb scan db').mp hrun).1
  · intro h
    refine ⟨settledDatabase env codec catalog db, ?_, settled_reconciled hdb, fun again => ?_⟩
    · exact (reconcile_ok_iff hdb scan _).mpr ⟨h, rfl⟩
    · apply (reconcile_ok_iff (settled_keyed hdb h) again _).mpr
      exact ⟨settled_noTwins hdb h, (settled_idempotent env codec catalog db).symm⟩

end passes

section overridesJson

def optionalBool (value : Option Bool) : Value := Value.ofOption .bool value

def optionalInt (value : Option ℤ) : Value := Value.ofOption Value.int value

def urlsValue (urls : ProviderProtocolBaseUrls) : Value := .json [
  ("responses", .ofOption .string urls.responses),
  ("openai", .ofOption .string urls.openai),
  ("images_generations", .ofOption .string urls.imagesGenerations)]

def overridesValue (overrides : ProviderCapabilityOverrides) : Value := .json [
  ("upstream_protocols", .ofOption (fun protocols => .array (protocols.map .string)) overrides.upstreamProtocols),
  ("protocol_base_urls", .ofOption urlsValue overrides.protocolBaseUrls),
  ("tool_calls", optionalBool overrides.toolCalls),
  ("reasoning", optionalBool overrides.reasoning),
  ("tool_choice", optionalBool overrides.toolChoice),
  ("parallel_tool_calls", optionalBool overrides.parallelToolCalls),
  ("system_messages", optionalBool overrides.systemMessages),
  ("structured_outputs", optionalBool overrides.structuredOutputs),
  ("streaming_usage", optionalBool overrides.streamingUsage),
  ("max_context_tokens", optionalInt overrides.maxContextTokens),
  ("max_output_tokens", optionalInt overrides.maxOutputTokens)]

/-- A field that may be null or absent. -/
def optionalField {α : Type} (read : Value → Option α) : Option Value → Option (Option α)
  | none | some .null => some none
  | some value => (read value).map some

def asInt : Value → Option ℤ
  | .number (.posInt n) => some n
  | .number (.negInt n) => some (-(n + 1))
  | _ => none

def urlsOf (value : Value) : Option ProviderProtocolBaseUrls := do
  some ⟨← optionalField Value.asStr (value.get "responses"), ← optionalField Value.asStr (value.get "openai"),
    ← optionalField Value.asStr (value.get "images_generations")⟩

def overridesOf (value : Value) : Option ProviderCapabilityOverrides := do
  some ⟨← optionalField stringList (value.get "upstream_protocols"),
    ← optionalField urlsOf (value.get "protocol_base_urls"), ← optionalField asBool (value.get "tool_calls"),
    ← optionalField asBool (value.get "reasoning"), ← optionalField asBool (value.get "tool_choice"),
    ← optionalField asBool (value.get "parallel_tool_calls"), ← optionalField asBool (value.get "system_messages"),
    ← optionalField asBool (value.get "structured_outputs"), ← optionalField asBool (value.get "streaming_usage"),
    ← optionalField asInt (value.get "max_context_tokens"), ← optionalField asInt (value.get "max_output_tokens")⟩

theorem optionalField_ofOption {α : Type} {read : Value → Option α} {write : α → Value}
    (h : ∀ a, read (write a) = some a) (hnull : ∀ a, write a ≠ .null) (value : Option α) :
    optionalField read (some (.ofOption write value)) = some value := by
  cases value with
  | none => rfl
  | some a =>
    have hread : optionalField read (some (write a)) = (read (write a)).map some := by
      cases hwrite : write a with
      | null => exact absurd hwrite (hnull a)
      | bool | number | string | array | object => rfl
    exact hread.trans (by rw [h, Option.map_some])

theorem asInt_int (n : ℤ) : asInt (.int n) = some n := by
  cases n with
  | ofNat n => rfl
  | negSucc n => rw [Int.negSucc_eq]; rfl

theorem int_ne_null (n : ℤ) : Value.int n ≠ .null := by
  cases n <;> exact Value.noConfusion

theorem urlsOf_value (urls : ProviderProtocolBaseUrls) : urlsOf (urlsValue urls) = some urls := by
  have hstring := @optionalField_ofOption String Value.asStr .string (fun _ => rfl) (fun _ => Value.noConfusion)
  simp [urlsOf, urlsValue, Value.get_json, hstring]

theorem overridesOf_value (overrides : ProviderCapabilityOverrides) :
    overridesOf (overridesValue overrides) = some overrides := by
  have hbool := @optionalField_ofOption Bool asBool .bool (fun _ => rfl) (fun _ => Value.noConfusion)
  have hint := optionalField_ofOption asInt_int int_ne_null
  have hurls := optionalField_ofOption urlsOf_value (fun _ => Value.noConfusion)
  have hlist := @optionalField_ofOption (List String) stringList (fun protocols => .array (protocols.map .string))
    (fun protocols => mapM_asStr protocols) (fun _ => Value.noConfusion)
  simp [overridesOf, overridesValue, optionalBool, optionalInt, Value.get_json, hbool, hint, hurls, hlist]

theorem stable_urls (urls : ProviderProtocolBaseUrls) : (urlsValue urls).Stable 1 := by
  apply Value.stable_json
  simp [Value.stable_ofOption, Value.stable_string]

theorem stable_overrides (overrides : ProviderCapabilityOverrides) : (overridesValue overrides).Stable 2 := by
  have hurls := Value.stable_ofOption stable_urls overrides.protocolBaseUrls
  have hlist := Value.stable_ofOption Value.stable_strings overrides.upstreamProtocols
  apply Value.stable_json
  simp [optionalBool, optionalInt, Value.stable_ofOption, Value.stable_bool, Value.stable_int, hurls, hlist]

theorem overrides_read {serde : SerdeJson} (h : serde.Lawful) (overrides : ProviderCapabilityOverrides) :
    (serde.fromStr (serde.toStr (overridesValue overrides))).bind overridesOf = some overrides := by
  rw [h.fromStr_stable (stable_overrides overrides) (by decide), Option.bind_some, overridesOf_value]

def jsonCodec : CapabilityCodec where
  parse text := (Text.codec.fromStr text).bind overridesOf
  toStr overrides := Text.codec.toStr (overridesValue overrides)
  lossless := overrides_read Text.codec_lawful

end overridesJson

section twins

def listed : Scan := ⟨id, id, fun _ => List.Perm.refl _, fun _ => List.Perm.refl _⟩

def relayCatalog : StartupCatalog where
  provider id := if id = "relay" then some ⟨["k3"], [], [("k3", "kimi-k3")]⟩ else none
  trimmed id h := by
    split_ifs at h with hid
    · rw [hid]
      decide
    · exact nomatch h
  protocolBaseUrls id := if id = "relay" then [(.responses, "https://relay/responses")] else []
  distinct id := by
    split_ifs
    · exact List.nodup_singleton _
    · exact List.nodup_nil

def relayProvider : ProviderConfig :=
  ⟨"provider-relay", "identity-a", "Provider", "relay", "private", "https://provider", "ciphertext", none,
    some "[\"k3\"]", 0⟩

def relayModel (id upstreamModel : String) : EndpointModel :=
  ⟨id, "endpoint-a", "k3", "provider-relay", upstreamModel, 0, 0⟩

def relayDatabase (models : List EndpointModel) : Database :=
  { identities := [identityRow "identity-a" 0], providers := [relayProvider],
    endpoints := [⟨"endpoint-a", "identity-a", "Endpoint", "all", "token-a", 0⟩], models := models }

def twinDatabase : Database := relayDatabase [relayModel "model-a" "k3", relayModel "model-b" "kimi-k2"]

theorem relay_keyed {models : List EndpointModel} (hmodels : (models.map EndpointModel.id).Nodup)
    (hcandidates : (models.map candidate).Nodup) : Keyed (relayDatabase models) :=
  ⟨List.nodup_singleton _, hmodels, hcandidates⟩

theorem relay_enabled : "k3" ∈ parseModels plainEnv.serde relayProvider.modelsJson := by decide

theorem relay_renamed {models : List EndpointModel} (id upstreamModel : String) :
    Renamed plainEnv relayCatalog.toProviderCatalog (relayDatabase models) (relayModel id upstreamModel) :=
  ⟨relayProvider, List.mem_singleton_self _, rfl, relay_enabled, by decide⟩

def mixedDatabase : Database :=
  relayDatabase [relayModel "model-a" "k3", { relayModel "model-b" "k4" with modelName := "k4" }]

theorem reconcile_exact_relay :
    (alignedProvider jsonCodec relayCatalog relayProvider).capabilitiesJson.isSome = true ∧
      ∃ db', reconcile plainEnv.serde jsonCodec relayCatalog listed mixedDatabase = (db', .ok ()) ∧
        Reconciled plainEnv jsonCodec relayCatalog mixedDatabase db' ∧
        ∀ again, reconcile plainEnv.serde jsonCodec relayCatalog again db' = (db', .ok ()) := by
  refine ⟨by decide +kernel, ?_⟩
  apply (reconcile_exact_iff (relay_keyed (by decide) (by decide)) listed).mpr
  intro model hmodel other hother _ htarget
  simp only [relayDatabase, List.mem_cons, List.not_mem_nil, or_false] at hmodel hother
  rcases hmodel with rfl | rfl <;> rcases hother with rfl | rfl
  · rfl
  · exact absurd htarget.2.1 (by decide)
  · exact absurd htarget.2.1 (by decide)
  · rfl

/-- Two stored names of one model under one provider stop the startup. -/
theorem reconcile_exact_not :
    Keyed twinDatabase ∧ ¬∃ db', reconcile plainEnv.serde jsonCodec relayCatalog listed twinDatabase = (db', .ok ()) ∧
      Reconciled plainEnv jsonCodec relayCatalog twinDatabase db' ∧
      ∀ again, reconcile plainEnv.serde jsonCodec relayCatalog again db' = (db', .ok ()) := by
  have hkeyed : Keyed twinDatabase := relay_keyed (by decide) (by decide)
  refine ⟨hkeyed, ?_⟩
  rintro ⟨db', hrun, -⟩
  have hnone := ((reconcile_ok_iff hkeyed listed db').mp hrun).1
  have hsame := hnone (relayModel "model-a" "k3") (by simp [twinDatabase, relayDatabase])
    (relayModel "model-b" "kimi-k2") (by simp [twinDatabase, relayDatabase]) (relay_renamed _ _) ⟨rfl, rfl, rfl⟩
  exact absurd hsame (by decide)

end twins

end Prelay.Store.Startup
