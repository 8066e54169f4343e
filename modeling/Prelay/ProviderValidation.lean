import Prelay.CatalogEntries

namespace Prelay.Catalog

open Store KeyedLoad Std

variable {Auth : Type}

section validation

variable (env : LoadEnv Auth) (providerId : String)

def checkPosition (previousPosition : Option ℕ) (protocol : ProviderProtocol) : Except String (Option ℕ) := do
  let position := env.ordered.idxOf protocol
  rejectIf (previousPosition.any (fun previous => position ≤ previous))
    ("供应商 " ++ providerId ++ " 的 protocols 未按固定顺序排列")
  .ok (some position)

def validateProtocols (protocols : List ProviderProtocol) : Except String Unit := do
  rejectIf (protocols = []) ("供应商 " ++ providerId ++ " 未配置协议")
  let _ ← protocols.foldlM (checkPosition env providerId) none
  .ok ()

def protocolKey : ProviderProtocol → String
  | .chatCompletions => "chat_completions"
  | .responses => "responses"
  | .imagesGenerations => "images_generations"

def protocolBaseUrl (provider : RawProvider Auth) (urls : List (ProviderProtocol × String))
    (protocol : ProviderProtocol) : Except String (List (ProviderProtocol × String)) :=
  let key := protocolKey protocol
  match provider.protocolBaseUrls[key]? with
  | none => .ok urls
  | some url => do
    rejectIf (protocol ∉ provider.protocols) ("供应商 " ++ providerId ++ " 为未声明协议 " ++ key ++ " 配置了 URL")
    let url ← requiredValue "协议 URL" url
    .ok (urls ++ [(protocol, url)])

def validateProtocolBaseUrls (provider : RawProvider Auth) (baseUrl : String) :
    Except String (List (ProviderProtocol × String)) := do
  let urls ← env.ordered.foldlM (protocolBaseUrl providerId provider) []
  rejectIf (provider.protocolBaseUrls.size ≠ urls.length) ("供应商 " ++ providerId ++ " 配置了未知协议 URL")
  rejectIf (baseUrl = "") ("供应商 " ++ providerId ++ " 的默认 URL 不能为空")
  .ok urls

/-- The references are read one by one; `known` are the ids of the loaded models. -/
def validateProviderModelReferences (category : String) (modelIds : List String) (known : String → Bool) :
    Except String Unit := do
  let _ ← load (inOrder String Unit) (fun modelId => .ok (modelId, ()))
    (fun modelId _ => rejectIf (¬known modelId) ("供应商 " ++ providerId ++ " 引用了未知" ++ category ++ " " ++ modelId))
    (fun modelId => "供应商 " ++ providerId ++ " 重复引用" ++ category ++ " " ++ modelId) [] modelIds
  .ok ()

def requestHeaderName (raw : String × RawRequestHeaderValue) : Except String (String × RawRequestHeaderValue) :=
  match env.headerName (Str.trim raw.1) with
  | none => .error ("供应商 " ++ providerId ++ " 的请求头名称无效: " ++ raw.1)
  | some name => do
    rejectIf (name = "authorization" ∨ name = "proxy-authorization")
      ("供应商 " ++ providerId ++ " 的认证头 " ++ name ++ " 必须由 auth_scheme 管理")
    .ok (name, raw.2)

def requestHeaderValue (name : String) : RawRequestHeaderValue → Except String CatalogRequestHeaderValue
  | .literal value => do
    let value ← requiredValue "请求头值" value
    rejectIf (¬env.headerValue value) ("供应商 " ++ providerId ++ " 的请求头 " ++ name ++ " 值无效")
    .ok (.literal value)
  | .source source =>
    let source := Str.trim source
    if source = "session_id" then .ok .sessionId
    else .error ("供应商 " ++ providerId ++ " 的请求头 " ++ name ++ " 来源无效: " ++ source)

def validateRequestHeaders (provider : RawProvider Auth) : Except String (List (String × CatalogRequestHeaderValue)) :=
  load (inOrder String CatalogRequestHeaderValue) (requestHeaderName env providerId) (requestHeaderValue env providerId)
    (fun name => "供应商 " ++ providerId ++ " 重复声明请求头 " ++ name) [] provider.requestHeaders.toList

def upstreamModelName (provider : RawProvider Auth) (entry : String × String) : Except String (String × String) := do
  rejectIf (entry.1 ∉ provider.languageModels ∧ entry.1 ∉ provider.imageGenerationModels)
    ("供应商 " ++ providerId ++ " 为未引用的模型 " ++ entry.1 ++ " 配置了上游名称")
  let upstreamModel ← requiredValue "上游模型名称" entry.2
  .ok (entry.1, upstreamModel)

def validateUpstreamModelNames (provider : RawProvider Auth) : Except String (ExtTreeMap String String) := do
  let names ← provider.upstreamModelNames.toList.mapM (upstreamModelName providerId provider)
  .ok (insertAll (byKey String) ∅ names)

def validateProxyUrl (value : Option String) : Except String (Option String) :=
  match (value.map Str.trim).filter (· ≠ "") with
  | none => .ok none
  | some value =>
    match env.urlScheme value with
    | none => .error ("供应商 " ++ providerId ++ " 的代理地址不是合法 URL")
    | some scheme => do
      rejectIf (scheme ≠ "http" ∧ scheme ≠ "https")
        ("供应商 " ++ providerId ++ " 的代理地址只支持 http 或 https，收到 " ++ scheme)
      .ok (some value)

end validation

section accepted

variable {env : LoadEnv Auth} {providerId : String} {provider : RawProvider Auth}

def InOrder (env : LoadEnv Auth) (protocols : List ProviderProtocol) : Prop :=
  protocols.Pairwise (fun protocol later => env.ordered.idxOf protocol < env.ordered.idxOf later)

theorem foldlM_checkPosition {protocols : List ProviderProtocol} {previous : Option ℕ} :
    (∃ last, protocols.foldlM (checkPosition env providerId) previous = .ok last) ↔
      (∀ position ∈ previous, ∀ protocol ∈ protocols, position < env.ordered.idxOf protocol) ∧
        InOrder env protocols := by
  induction protocols generalizing previous with
  | nil =>
    constructor
    · rintro -
      exact ⟨by simp, List.Pairwise.nil⟩
    · rintro -
      exact ⟨previous, rfl⟩
  | cons protocol protocols ih =>
    unfold InOrder at *
    rw [List.foldlM_cons, List.pairwise_cons]
    unfold checkPosition
    simp only [bind_ok_iff, rejectIf_ok]
    constructor
    · rintro ⟨last, next, ⟨_, hposition, hnext⟩, hlast⟩
      obtain rfl := Except.ok.inj hnext
      obtain ⟨hlater, hpairwise⟩ := ih.mp ⟨last, hlast⟩
      have hfirst : ∀ position ∈ previous, position < env.ordered.idxOf protocol := by
        intro position hmem
        rw [Option.mem_def.mp hmem] at hposition
        simpa using hposition
      refine ⟨?_, hlater _ rfl, hpairwise⟩
      intro position hmem other hother
      rcases List.mem_cons.mp hother with rfl | hother
      · exact hfirst position hmem
      · exact (hfirst position hmem).trans (hlater _ rfl other hother)
    · rintro ⟨hprevious, hlater, hpairwise⟩
      obtain ⟨last, hlast⟩ := ih.mpr ⟨fun position hmem other hother => by
        obtain rfl := Option.some.inj hmem
        exact hlater other hother, hpairwise⟩
      refine ⟨last, some (env.ordered.idxOf protocol), ⟨(), ?_, rfl⟩, hlast⟩
      cases previous with
      | none => simp
      | some position => simpa using hprevious position rfl protocol List.mem_cons_self

theorem validateProtocols_ok {protocols : List ProviderProtocol} {u : Unit} :
    validateProtocols env providerId protocols = .ok u ↔ protocols ≠ [] ∧ InOrder env protocols := by
  have hfold : (∃ last, protocols.foldlM (checkPosition env providerId) none = .ok last) ↔
      (∀ position ∈ (none : Option ℕ), ∀ protocol ∈ protocols, position < env.ordered.idxOf protocol) ∧
        InOrder env protocols := foldlM_checkPosition
  unfold validateProtocols
  rw [rejectIf_bind]
  apply and_congr_right
  intro _
  rw [bind_ok_iff]
  constructor
  · rintro ⟨last, hlast, -⟩
    exact (hfold.mp ⟨last, hlast⟩).2
  · intro h
    obtain ⟨last, hlast⟩ := hfold.mpr ⟨by simp, h⟩
    exact ⟨last, hlast, rfl⟩

theorem protocolKey_injective : Function.Injective protocolKey := by
  intro protocol other h
  cases protocol <;> cases other <;> first | rfl | simp [protocolKey] at h

def declaredUrls (provider : RawProvider Auth) (protocols : List ProviderProtocol) : List (ProviderProtocol × String) :=
  protocols.filterMap (fun protocol =>
    provider.protocolBaseUrls[protocolKey protocol]?.map (fun url => (protocol, Str.trim url)))

def UrlsValid (provider : RawProvider Auth) (protocols : List ProviderProtocol) : Prop :=
  ∀ protocol ∈ protocols, ∀ url ∈ provider.protocolBaseUrls[protocolKey protocol]?,
    protocol ∈ provider.protocols ∧ Str.trim url ≠ ""

theorem foldlM_protocolBaseUrl {protocols : List ProviderProtocol} {urls result : List (ProviderProtocol × String)} :
    protocols.foldlM (protocolBaseUrl providerId provider) urls = .ok result ↔
      UrlsValid provider protocols ∧ result = urls ++ declaredUrls provider protocols := by
  induction protocols generalizing urls with
  | nil =>
    simp only [List.foldlM_nil, UrlsValid, declaredUrls, List.not_mem_nil, false_implies, implies_true, true_and,
      List.filterMap_nil, List.append_nil]
    exact ⟨fun h => (Except.ok.inj h).symm, fun h => congrArg Except.ok h.symm⟩
  | cons protocol protocols ih =>
    have hcons : UrlsValid provider (protocol :: protocols) ↔
        (∀ url ∈ provider.protocolBaseUrls[protocolKey protocol]?, protocol ∈ provider.protocols ∧ Str.trim url ≠ "") ∧
          UrlsValid provider protocols := by
      unfold UrlsValid
      rw [List.forall_mem_cons]
    rw [List.foldlM_cons, bind_ok_iff, hcons]
    unfold protocolBaseUrl declaredUrls
    simp only
    cases hurl : provider.protocolBaseUrls[protocolKey protocol]? with
    | none =>
      rw [List.filterMap_cons_none (by rw [hurl]; rfl)]
      constructor
      · rintro ⟨next, hnext, h⟩
        obtain rfl := Except.ok.inj hnext
        obtain ⟨hvalid, rfl⟩ := ih.mp h
        exact ⟨⟨by simp, hvalid⟩, rfl⟩
      · rintro ⟨⟨-, hvalid⟩, rfl⟩
        exact ⟨urls, rfl, ih.mpr ⟨hvalid, rfl⟩⟩
    | some url =>
      rw [List.filterMap_cons_some (by rw [hurl]; rfl)]
      simp only [bind_ok_iff, rejectIf_ok, requiredValue_ok]
      constructor
      · rintro ⟨next, ⟨_, hprotocol, value, ⟨hvalue, rfl⟩, hnext⟩, h⟩
        obtain rfl := Except.ok.inj hnext
        obtain ⟨hvalid, rfl⟩ := ih.mp h
        refine ⟨⟨?_, hvalid⟩, ?_⟩
        · intro other hother
          obtain rfl := Option.some.inj hother
          exact ⟨not_not.mp hprotocol, hvalue⟩
        · rw [List.append_assoc]
          rfl
      · rintro ⟨⟨hfirst, hvalid⟩, rfl⟩
        obtain ⟨hprotocol, hvalue⟩ := hfirst url rfl
        refine ⟨urls ++ [(protocol, Str.trim url)], ⟨(), not_not.mpr hprotocol, _, ⟨hvalue, rfl⟩, rfl⟩, ?_⟩
        refine ih.mpr ⟨hvalid, ?_⟩
        rw [List.append_assoc]
        rfl

theorem length_declaredUrls (h : env.Ordered) :
    provider.protocolBaseUrls.size = (declaredUrls provider env.ordered).length ↔
      ∀ key ∈ provider.protocolBaseUrls, ∃ protocol, protocolKey protocol = key := by
  let present := (env.ordered.filter (fun protocol => provider.protocolBaseUrls.contains (protocolKey protocol))).map
    protocolKey
  have hlength : (declaredUrls provider env.ordered).length = present.length := by
    unfold declaredUrls
    rw [List.length_filterMap_eq_countP, List.length_map, ← List.countP_eq_length_filter]
    apply List.countP_congr
    intro protocol _
    rw [Option.isSome_map, ← ExtTreeMap.contains_eq_isSome_getElem?]
  have hnodup : present.Nodup := (h.nodup.filter _).map protocolKey_injective
  have hmem : ∀ key, key ∈ present ↔ key ∈ provider.protocolBaseUrls ∧ ∃ protocol, protocolKey protocol = key := by
    intro key
    rw [List.mem_map]
    constructor
    · rintro ⟨protocol, hprotocol, rfl⟩
      exact ⟨ExtTreeMap.contains_iff_mem.mp (List.mem_filter.mp hprotocol).2, protocol, rfl⟩
    · rintro ⟨hkey, protocol, rfl⟩
      exact ⟨protocol, List.mem_filter.mpr ⟨h.all protocol, ExtTreeMap.contains_iff_mem.mpr hkey⟩, rfl⟩
  have hsubset : present ⊆ provider.protocolBaseUrls.keys := by
    intro key hkey
    exact ExtTreeMap.mem_keys.mpr ((hmem key).mp hkey).1
  have hsubperm := hnodup.subperm hsubset
  rw [hlength, ← ExtTreeMap.length_keys]
  constructor
  · intro heq key hkey
    have hperm := hsubperm.perm_of_length_le heq.le
    exact ((hmem key).mp (hperm.mem_iff.mpr (ExtTreeMap.mem_keys.mpr hkey))).2
  · intro hkeys
    have hsubperm' : provider.protocolBaseUrls.keys.Subperm present := by
      apply ExtTreeMap.nodup_keys.subperm
      intro key hkey
      have hkey' := ExtTreeMap.mem_keys.mp hkey
      exact (hmem key).mpr ⟨hkey', hkeys key hkey'⟩
    exact Nat.le_antisymm hsubperm'.length_le hsubperm.length_le

theorem validateProtocolBaseUrls_ok (h : env.Ordered) {baseUrl : String} {urls : List (ProviderProtocol × String)} :
    validateProtocolBaseUrls env providerId provider baseUrl = .ok urls ↔
      (∀ key ∈ provider.protocolBaseUrls, ∃ protocol, protocolKey protocol = key) ∧
        UrlsValid provider env.ordered ∧ urls = declaredUrls provider env.ordered ∧ baseUrl ≠ "" := by
  unfold validateProtocolBaseUrls
  rw [bind_ok_iff]
  simp only [foldlM_protocolBaseUrl, rejectIf_bind, List.nil_append, not_not]
  constructor
  · rintro ⟨_, ⟨hvalid, rfl⟩, hsize, hbase, hurls⟩
    exact ⟨(length_declaredUrls h).mp hsize, hvalid, (Except.ok.inj hurls).symm, hbase⟩
  · rintro ⟨hkeys, hvalid, rfl, hbase⟩
    exact ⟨_, ⟨hvalid, rfl⟩, (length_declaredUrls h).mpr hkeys, hbase, rfl⟩

theorem validateProviderModelReferences_ok {category : String} {modelIds : List String} {known : String → Bool}
    {u : Unit} :
    validateProviderModelReferences providerId category modelIds known = .ok u ↔
      modelIds.Nodup ∧ ∀ modelId ∈ modelIds, known modelId := by
  unfold validateProviderModelReferences
  simp only [bind_ok_iff, load_inOrder]
  constructor
  · rintro ⟨entries, ⟨hreads, hnodup⟩, -⟩
    have hread : ∀ modelId entry, Reads (fun modelId => .ok (modelId, ()))
        (fun modelId _ => rejectIf (¬known modelId) ("供应商 " ++ providerId ++ " 引用了未知" ++ category ++ " " ++ modelId))
        modelId entry → known modelId ∧ modelId = entry.1 := by
      rintro modelId ⟨key, _⟩ ⟨_, hkey, hknown⟩
      obtain ⟨rfl, -⟩ := Prod.mk.inj (Except.ok.inj hkey)
      exact ⟨not_not.mp (rejectIf_ok.mp hknown), rfl⟩
    obtain ⟨hknown, hkeys⟩ := (List.forall₂_and_left _ _).mp (hreads.imp hread)
    have heq : modelIds = entries.map Prod.fst := by
      rw [← List.forall₂_map_right_iff, List.forall₂_eq_eq_eq] at hkeys
      exact hkeys
    rw [heq]
    exact ⟨hnodup, fun modelId hmem => hknown modelId (heq ▸ hmem)⟩
  · rintro ⟨hnodup, hknown⟩
    refine ⟨modelIds.map (fun modelId => (modelId, ())), ⟨?_, ?_⟩, trivial⟩
    · rw [List.forall₂_map_right_iff, List.forall₂_same]
      intro modelId hmem
      exact ⟨(), rfl, rejectIf_ok.mpr (not_not.mpr (hknown modelId hmem))⟩
    · rw [List.map_map]
      change (modelIds.map id).Nodup
      rwa [List.map_id]

/-- What a raw header is kept as: never an authentication header, and never without a value. -/
structure HeaderReads (env : LoadEnv Auth) (raw : String × RawRequestHeaderValue)
    (header : String × CatalogRequestHeaderValue) : Prop where
  name : env.headerName (Str.trim raw.1) = some header.1
  noAuthorization : header.1 ≠ "authorization" ∧ header.1 ≠ "proxy-authorization"
  literal : ∀ value, raw.2 = .literal value →
    header.2 = .literal (Str.trim value) ∧ Str.trim value ≠ "" ∧ env.headerValue (Str.trim value)
  source : ∀ source, raw.2 = .source source → header.2 = .sessionId ∧ Str.trim source = "session_id"

theorem requestHeader_reads {raw : String × RawRequestHeaderValue} {header : String × CatalogRequestHeaderValue} :
    Reads (requestHeaderName env providerId) (requestHeaderValue env providerId) raw header ↔
      HeaderReads env raw header := by
  obtain ⟨rawName, rawValue⟩ := raw
  obtain ⟨name, value⟩ := header
  have hname : ∀ partly, requestHeaderName env providerId (rawName, rawValue) = .ok (name, partly) ↔
      env.headerName (Str.trim rawName) = some name ∧ (name ≠ "authorization" ∧ name ≠ "proxy-authorization") ∧
        partly = rawValue := by
    intro partly
    unfold requestHeaderName
    simp only
    cases env.headerName (Str.trim rawName) with
    | none => simp
    | some found =>
      simp only [rejectIf_bind, not_or, Except.ok.injEq, Prod.mk.injEq, Option.some.injEq]
      constructor
      · rintro ⟨hauth, rfl, rfl⟩
        exact ⟨rfl, hauth, rfl⟩
      · rintro ⟨rfl, hauth, rfl⟩
        exact ⟨hauth, rfl, rfl⟩
  have hvalue : requestHeaderValue env providerId name rawValue = .ok value ↔
      (∀ text, rawValue = .literal text →
        value = .literal (Str.trim text) ∧ Str.trim text ≠ "" ∧ env.headerValue (Str.trim text)) ∧
      ∀ source, rawValue = .source source → value = .sessionId ∧ Str.trim source = "session_id" := by
    cases rawValue with
    | literal text =>
      unfold requestHeaderValue
      simp only [bind_ok_iff, requiredValue_ok, rejectIf_ok, not_not, RawRequestHeaderValue.literal.injEq,
        forall_eq', reduceCtorEq, false_implies, implies_true, and_true]
      constructor
      · rintro ⟨_, ⟨htext, rfl⟩, _, hheader, h⟩
        exact ⟨(Except.ok.inj h).symm, htext, hheader⟩
      · rintro ⟨rfl, htext, hheader⟩
        exact ⟨_, ⟨htext, rfl⟩, (), hheader, rfl⟩
    | source source =>
      unfold requestHeaderValue
      simp only [RawRequestHeaderValue.source.injEq, forall_eq', reduceCtorEq, false_implies, implies_true, true_and]
      split_ifs with h
      · simp [h, eq_comm]
      · simp [h]
  constructor
  · rintro ⟨partly, hbefore, hafter⟩
    obtain ⟨hfound, hauth, rfl⟩ := (hname partly).mp hbefore
    obtain ⟨hliteral, hsource⟩ := hvalue.mp hafter
    exact ⟨hfound, hauth, hliteral, hsource⟩
  · intro h
    exact ⟨rawValue, (hname rawValue).mpr ⟨h.name, h.noAuthorization, rfl⟩, hvalue.mpr ⟨h.literal, h.source⟩⟩

theorem validateRequestHeaders_ok {headers : List (String × CatalogRequestHeaderValue)} :
    validateRequestHeaders env providerId provider = .ok headers ↔
      List.Forall₂ (HeaderReads env) provider.requestHeaders.toList headers ∧ (headers.map Prod.fst).Nodup := by
  have hreads : Reads (requestHeaderName env providerId) (requestHeaderValue env providerId) = HeaderReads env := by
    funext raw header
    exact propext requestHeader_reads
  unfold validateRequestHeaders
  rw [load_inOrder, hreads]

def NameValid (provider : RawProvider Auth) (entry : String × String) : Prop :=
  (entry.1 ∈ provider.languageModels ∨ entry.1 ∈ provider.imageGenerationModels) ∧ Str.trim entry.2 ≠ ""

def trimmedName (entry : String × String) : String × String := (entry.1, Str.trim entry.2)

theorem upstreamModelName_ok {raw entry : String × String} :
    upstreamModelName providerId provider raw = .ok entry ↔ NameValid provider raw ∧ entry = trimmedName raw := by
  unfold upstreamModelName NameValid trimmedName
  rw [rejectIf_bind, bind_ok_iff, not_and_or, not_not, not_not, and_assoc]
  simp only [requiredValue_ok, Except.ok.injEq]
  apply and_congr_right
  rintro -
  constructor
  · rintro ⟨name, ⟨hname, hvalue⟩, hentry⟩
    rw [← hentry, hvalue]
    exact ⟨hname, rfl⟩
  · rintro ⟨hname, hentry⟩
    exact ⟨Str.trim raw.2, ⟨hname, rfl⟩, hentry.symm⟩

theorem mapM_upstreamModelName {raws entries : List (String × String)} :
    raws.mapM (upstreamModelName providerId provider) = .ok entries ↔
      (∀ raw ∈ raws, NameValid provider raw) ∧ entries = raws.map trimmedName := by
  rw [mapM_ok]
  simp only [upstreamModelName_ok]
  rw [List.forall₂_and_left]
  apply and_congr_right
  rintro -
  rw [← List.forall₂_map_left_iff (f := trimmedName) (R := fun entry found => found = entry)]
  constructor
  · intro h
    have heq : List.Forall₂ (· = ·) (raws.map trimmedName) entries := h.imp (fun _ _ hentry => hentry.symm)
    rw [List.forall₂_eq_eq_eq] at heq
    exact heq.symm
  · rintro rfl
    exact List.forall₂_same.mpr (fun _ _ => rfl)

theorem getElem?_trimmed (names : ExtTreeMap String String) (modelId : String) :
    (insertAll (byKey String) ∅ (names.toList.map trimmedName))[modelId]? =
      names[modelId]?.map Str.trim := by
  have hkeys : ((names.toList.map trimmedName).map Prod.fst).Nodup := by
    have hfst : (names.toList.map trimmedName).map Prod.fst = names.keys := by
      rw [List.map_map, ← ExtTreeMap.map_fst_toList_eq_keys]
      apply List.map_congr_left
      intro entry _
      simp only [Function.comp_apply, trimmedName]
    rw [hfst]
    exact ExtTreeMap.nodup_keys
  apply Option.ext
  intro name
  rw [holds_insertAll hkeys, List.mem_map, Option.map_eq_some_iff]
  constructor
  · rintro ⟨entry, hmem, heq⟩
    obtain ⟨hkey, hname⟩ := Prod.mk.inj heq
    rw [← hkey, ← hname]
    exact ⟨entry.2, ExtTreeMap.mem_toList_iff_getElem?_eq_some.mp hmem, rfl⟩
  · rintro ⟨upstream, hupstream, rfl⟩
    exact ⟨(modelId, upstream), ExtTreeMap.mem_toList_iff_getElem?_eq_some.mpr hupstream, rfl⟩

theorem validateUpstreamModelNames_ok {names : ExtTreeMap String String} :
    validateUpstreamModelNames providerId provider = .ok names ↔
      (∀ modelId upstream, provider.upstreamModelNames[modelId]? = some upstream →
        NameValid provider (modelId, upstream)) ∧
      ∀ modelId : String, names[modelId]? = provider.upstreamModelNames[modelId]?.map Str.trim := by
  unfold validateUpstreamModelNames
  rw [bind_ok_iff]
  constructor
  · rintro ⟨entries, hentries, h⟩
    obtain ⟨hvalid, rfl⟩ := mapM_upstreamModelName.mp hentries
    obtain rfl := Except.ok.inj h
    refine ⟨?_, getElem?_trimmed _⟩
    intro modelId upstream hupstream
    exact hvalid (modelId, upstream) (ExtTreeMap.mem_toList_iff_getElem?_eq_some.mpr hupstream)
  · rintro ⟨hvalid, hnames⟩
    refine ⟨_, mapM_upstreamModelName.mpr ⟨?_, rfl⟩, ?_⟩
    · rintro ⟨modelId, upstream⟩ hmem
      exact hvalid modelId upstream (ExtTreeMap.mem_toList_iff_getElem?_eq_some.mp hmem)
    · apply congrArg Except.ok
      apply ExtTreeMap.ext_getElem?
      intro modelId
      rw [getElem?_trimmed, hnames]

theorem validateProxyUrl_ok {value proxyUrl : Option String} :
    validateProxyUrl env providerId value = .ok proxyUrl ↔ proxyUrl = (value.map Str.trim).filter (· ≠ "") ∧
      ∀ url ∈ proxyUrl, env.urlScheme url = some "http" ∨ env.urlScheme url = some "https" := by
  unfold validateProxyUrl
  cases (value.map Str.trim).filter (· ≠ "") with
  | none =>
    simp only [Except.ok.injEq]
    constructor
    · rintro rfl
      exact ⟨rfl, by simp⟩
    · rintro ⟨rfl, -⟩
      rfl
  | some url =>
    simp only
    cases hscheme : env.urlScheme url with
    | none =>
      constructor
      · intro h
        cases h
      · rintro ⟨rfl, h⟩
        simpa [hscheme] using h url rfl
    | some scheme =>
      simp only [rejectIf_bind, Except.ok.injEq]
      constructor
      · rintro ⟨hhttp, rfl⟩
        refine ⟨rfl, ?_⟩
        intro other hother
        obtain rfl := Option.some.inj hother
        rw [hscheme, Option.some.injEq, Option.some.injEq]
        tauto
      · rintro ⟨rfl, h⟩
        have hhttp := h url rfl
        rw [hscheme, Option.some.injEq, Option.some.injEq] at hhttp
        exact ⟨by tauto, rfl⟩

end accepted

end Prelay.Catalog
