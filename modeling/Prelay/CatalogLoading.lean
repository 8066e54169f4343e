import Prelay.ProviderValidation

namespace Prelay.Catalog

open Store KeyedLoad Std

variable {Auth : Type}

section loading

variable (env : LoadEnv Auth)

def joinPath (directory name : String) : String :=
  if name.toList.head? = some '/' then name
  else if directory = "" ∨ directory.toList.getLast? = some '/' then directory ++ name
  else directory ++ "/" ++ name

def parseDocument {α : Type} (fromStr : String → Except String (List α)) (path : String) : Except String (List α) :=
  match env.readToString path with
  | .error error => .error ("无法读取 " ++ path ++ ": " ++ error.message)
  | .ok contents =>
    if Str.trim contents = "" then .ok []
    else (fromStr contents).mapError (fun error => "无法解析 " ++ path ++ ": " ++ error)

def readInstructionTemplate (path : String) : Except String (Option String) :=
  match env.readToString path with
  | .ok contents => .ok (if Str.trim contents = "" then none else some contents)
  | .error error => if error.notFound then .ok none else .error ("无法读取 " ++ path ++ ": " ++ error.message)

def resolveBaseInstructions (instructionsDirectory modelId : String) (configured : Option String) :
    Except String (Option String) :=
  if configured.any (fun value => Str.trim value ≠ "") then .ok configured
  else do
    let contents ← readInstructionTemplate env (joinPath instructionsDirectory (modelId ++ ".md"))
    if contents.isSome then .ok contents
    else
      let contents ← readInstructionTemplate env (joinPath instructionsDirectory "_default.md")
      .ok (contents.or configured)

def readLanguageModel (raw : RawLanguageModel) : Except String (String × CatalogLanguageModel) := do
  let id ← requiredValue "语言模型 ID" raw.id
  let displayName ← requiredValue "语言模型显示名称" raw.displayName
  validateLanguageModel id raw
  .ok (id, { raw with id := id, displayName := displayName })

def withInstructions (instructionsDirectory id : String) (model : CatalogLanguageModel) :
    Except String CatalogLanguageModel := do
  let baseInstructions ← resolveBaseInstructions env instructionsDirectory id model.baseInstructions
  .ok { model with baseInstructions := baseInstructions }

def loadLanguageModels (path instructionsDirectory : String) :
    Except String (ExtTreeMap String CatalogLanguageModel) := do
  let models ← parseDocument env env.languageModelsFromStr path
  load (byKey CatalogLanguageModel) readLanguageModel (withInstructions env instructionsDirectory)
    (fun id => "语言模型 ID 重复: " ++ id) ∅ models

def readImageGenerationModel (raw : RawImageGenerationModel) :
    Except String (String × CatalogImageGenerationModel) := do
  let id ← requiredValue "图像生成模型 ID" raw.id
  let displayName ← requiredValue "图像生成模型显示名称" raw.displayName
  validateImageGenerationModel id raw
  .ok (id, { raw with id := id, displayName := displayName })

def loadImageGenerationModels (path : String) : Except String (ExtTreeMap String CatalogImageGenerationModel) := do
  let models ← parseDocument env env.imageGenerationModelsFromStr path
  load (byKey CatalogImageGenerationModel) readImageGenerationModel (fun _ model => .ok model)
    (fun id => "图像生成模型 ID 重复: " ++ id) ∅ models

def readProvider (knownLanguage knownImage : String → Bool) (raw : RawProvider Auth) :
    Except String (String × CatalogProvider Auth) := do
  let id ← requiredValue "供应商 ID" raw.id
  let name ← requiredValue "供应商名称" raw.name
  let baseUrl ← requiredValue "供应商默认 URL" raw.baseUrl
  validateProtocols env id raw.protocols
  let protocolBaseUrls ← validateProtocolBaseUrls env id raw baseUrl
  let requestHeaders ← validateRequestHeaders env id raw
  validateProviderModelReferences id "语言模型" raw.languageModels knownLanguage
  validateProviderModelReferences id "图像生成模型" raw.imageGenerationModels knownImage
  let upstreamModelNames ← validateUpstreamModelNames id raw
  let proxyUrl ← validateProxyUrl env id raw.proxyUrl
  rejectIf (raw.imageGenerationModels ≠ [] ∧ .imagesGenerations ∉ raw.protocols)
    ("供应商 " ++ id ++ " 引用了图像生成模型但未声明 images_generations 协议")
  .ok (id, ⟨id, name, raw.authScheme, baseUrl, raw.protocols, protocolBaseUrls, requestHeaders, raw.languageModels,
    raw.imageGenerationModels, upstreamModelNames, proxyUrl⟩)

def loadProviders (path : String) (languageModels : ExtTreeMap String CatalogLanguageModel)
    (imageGenerationModels : ExtTreeMap String CatalogImageGenerationModel) :
    Except String (ExtTreeMap String (CatalogProvider Auth)) := do
  let providers ← parseDocument env env.providersFromStr path
  load (byKey (CatalogProvider Auth)) (readProvider env languageModels.contains imageGenerationModels.contains)
    (fun _ provider => .ok provider) (fun id => "供应商 ID 重复: " ++ id) ∅ providers

def ProviderCatalog.load (directory : String) : Except String (ProviderCatalog Auth) := do
  let modelsDirectory := joinPath directory "models"
  let languageModels ← loadLanguageModels env (joinPath modelsDirectory "language.toml")
    (joinPath modelsDirectory "instructions")
  let imageGenerationModels ← loadImageGenerationModels env (joinPath modelsDirectory "image-generation.toml")
  let providers ← loadProviders env (joinPath directory "providers.toml") languageModels imageGenerationModels
  .ok ⟨languageModels, imageGenerationModels, providers⟩

end loading

section loaded

variable {env : LoadEnv Auth}

structure LanguageModelReads (env : LoadEnv Auth) (instructionsDirectory : String) (raw : RawLanguageModel)
    (entry : String × CatalogLanguageModel) : Prop where
  valid : LanguageModelValid raw
  id : entry.1 = Str.trim raw.id
  idNonempty : Str.trim raw.id ≠ ""
  displayName : Str.trim raw.displayName ≠ ""
  model : ∃ baseInstructions,
    resolveBaseInstructions env instructionsDirectory entry.1 raw.baseInstructions = .ok baseInstructions ∧
      entry.2 =
        { raw with id := entry.1, displayName := Str.trim raw.displayName, baseInstructions := baseInstructions }

theorem languageModel_reads {instructionsDirectory : String} {raw : RawLanguageModel}
    {entry : String × CatalogLanguageModel} :
    Reads readLanguageModel (withInstructions env instructionsDirectory) raw entry ↔
      LanguageModelReads env instructionsDirectory raw entry := by
  unfold Reads readLanguageModel withInstructions
  simp only [bind_ok_iff, requiredValue_ok, validateLanguageModel_ok, Except.ok.injEq, Prod.mk.injEq]
  constructor
  · rintro ⟨partly, ⟨_, ⟨hid, rfl⟩, _, ⟨hname, rfl⟩, _, hvalid, hkey, rfl⟩, baseInstructions, hbase, hmodel⟩
    refine ⟨hvalid, hkey.symm, hid, hname, baseInstructions, hbase, ?_⟩
    rw [← hmodel, hkey]
  · intro h
    obtain ⟨baseInstructions, hbase, hmodel⟩ := h.model
    refine ⟨{ raw with id := entry.1, displayName := Str.trim raw.displayName },
      ⟨_, ⟨h.idNonempty, rfl⟩, _, ⟨h.displayName, rfl⟩, (), h.valid, h.id.symm, ?_⟩, baseInstructions, hbase,
      hmodel.symm⟩
    rw [h.id]

structure ImageGenerationModelReads (raw : RawImageGenerationModel) (entry : String × CatalogImageGenerationModel) :
    Prop where
  valid : ImageGenerationModelValid raw
  id : entry.1 = Str.trim raw.id
  idNonempty : Str.trim raw.id ≠ ""
  displayName : Str.trim raw.displayName ≠ ""
  model : entry.2 = { raw with id := entry.1, displayName := Str.trim raw.displayName }

theorem imageGenerationModel_reads {raw : RawImageGenerationModel} {entry : String × CatalogImageGenerationModel} :
    Reads readImageGenerationModel (fun _ model => .ok model) raw entry ↔ ImageGenerationModelReads raw entry := by
  unfold Reads readImageGenerationModel
  simp only [bind_ok_iff, requiredValue_ok, validateImageGenerationModel_ok, Except.ok.injEq, Prod.mk.injEq]
  constructor
  · rintro ⟨partly, ⟨_, ⟨hid, rfl⟩, _, ⟨hname, rfl⟩, _, hvalid, hkey, rfl⟩, hmodel⟩
    refine ⟨hvalid, hkey.symm, hid, hname, ?_⟩
    rw [← hmodel, hkey]
  · intro h
    refine ⟨entry.2, ⟨_, ⟨h.idNonempty, rfl⟩, _, ⟨h.displayName, rfl⟩, (), h.valid, h.id.symm, ?_⟩, rfl⟩
    rw [h.model, h.id]

structure ProviderReads (env : LoadEnv Auth) (knownLanguage knownImage : String → Bool) (raw : RawProvider Auth)
    (entry : String × CatalogProvider Auth) : Prop where
  key : entry.1 = entry.2.id
  id : entry.2.id = Str.trim raw.id ∧ Str.trim raw.id ≠ ""
  name : entry.2.name = Str.trim raw.name ∧ Str.trim raw.name ≠ ""
  authScheme : entry.2.authScheme = raw.authScheme
  baseUrl : entry.2.baseUrl = Str.trim raw.baseUrl ∧ Str.trim raw.baseUrl ≠ ""
  protocols : entry.2.protocols = raw.protocols ∧ raw.protocols ≠ [] ∧ InOrder env raw.protocols
  protocolKeys : ∀ key ∈ raw.protocolBaseUrls, ∃ protocol, protocolKey protocol = key
  protocolUrls : UrlsValid raw env.ordered ∧ entry.2.protocolBaseUrls = declaredUrls raw env.ordered
  requestHeaders : List.Forall₂ (HeaderReads env) raw.requestHeaders.toList entry.2.requestHeaders ∧
    (entry.2.requestHeaders.map Prod.fst).Nodup
  languageModels : entry.2.languageModels = raw.languageModels ∧ raw.languageModels.Nodup ∧
    ∀ modelId ∈ raw.languageModels, knownLanguage modelId
  imageGenerationModels : entry.2.imageGenerationModels = raw.imageGenerationModels ∧
    raw.imageGenerationModels.Nodup ∧ ∀ modelId ∈ raw.imageGenerationModels, knownImage modelId
  namesValid : ∀ modelId upstream, raw.upstreamModelNames[modelId]? = some upstream → NameValid raw (modelId, upstream)
  upstreamModelNames : ∀ modelId : String,
    entry.2.upstreamModelNames[modelId]? = raw.upstreamModelNames[modelId]?.map Str.trim
  proxyUrl : entry.2.proxyUrl = (raw.proxyUrl.map Str.trim).filter (· ≠ "") ∧
    ∀ url ∈ entry.2.proxyUrl, env.urlScheme url = some "http" ∨ env.urlScheme url = some "https"
  imagesProtocol : raw.imageGenerationModels ≠ [] → .imagesGenerations ∈ raw.protocols

theorem provider_reads (h : env.Ordered) {knownLanguage knownImage : String → Bool} {raw : RawProvider Auth}
    {entry : String × CatalogProvider Auth} :
    Reads (readProvider env knownLanguage knownImage) (fun _ provider => .ok provider) raw entry ↔
      ProviderReads env knownLanguage knownImage raw entry := by
  obtain ⟨key, provider⟩ := entry
  unfold Reads readProvider
  simp only [bind_ok_iff, requiredValue_ok, validateProtocols_ok, validateProtocolBaseUrls_ok h,
    validateRequestHeaders_ok, validateProviderModelReferences_ok, validateUpstreamModelNames_ok, validateProxyUrl_ok,
    rejectIf_ok, Except.ok.injEq, Prod.mk.injEq]
  constructor
  · rintro ⟨partly, ⟨_, ⟨hid, rfl⟩, _, ⟨hname, rfl⟩, _, ⟨hbase, rfl⟩, _, hprotocols, urls, ⟨hkeys, hurls, rfl, -⟩,
      headers, hheaders, _, hlanguage, _, himage, names, ⟨hvalid, hnames⟩, proxyUrl, hproxy, _, himages, hkey, rfl⟩,
      hentry⟩
    subst hkey hentry
    refine ⟨rfl, ⟨rfl, hid⟩, ⟨rfl, hname⟩, rfl, ⟨rfl, hbase⟩, ⟨rfl, hprotocols⟩, hkeys, ⟨hurls, rfl⟩, hheaders,
      ⟨rfl, hlanguage⟩, ⟨rfl, himage⟩, hvalid, hnames, hproxy, ?_⟩
    intro hne
    by_contra hnot
    exact himages ⟨hne, hnot⟩
  · intro hentry
    refine ⟨provider, ⟨_, ⟨hentry.id.2, rfl⟩, _, ⟨hentry.name.2, rfl⟩, _, ⟨hentry.baseUrl.2, rfl⟩, (),
      hentry.protocols.2, _, ⟨hentry.protocolKeys, hentry.protocolUrls.1, rfl, hentry.baseUrl.2⟩, _,
      hentry.requestHeaders, (),
      hentry.languageModels.2, (), hentry.imageGenerationModels.2, _, ⟨hentry.namesValid, hentry.upstreamModelNames⟩, _,
      hentry.proxyUrl, (), ?_, ?_, ?_⟩, rfl⟩
    · rintro ⟨hne, hnot⟩
      exact hnot (hentry.imagesProtocol hne)
    · exact (hentry.key.trans hentry.id.1).symm
    · rw [← hentry.id.1, ← hentry.name.1, ← hentry.authScheme, ← hentry.baseUrl.1, ← hentry.protocols.1,
        ← hentry.protocolUrls.2, ← hentry.languageModels.1, ← hentry.imageGenerationModels.1]

theorem load_ok (h : env.Ordered) {directory : String} {catalog : ProviderCatalog Auth} :
    ProviderCatalog.load env directory = .ok catalog ↔
      ∃ languageModels imageGenerationModels providers,
        parseDocument env env.languageModelsFromStr (joinPath (joinPath directory "models") "language.toml") =
          .ok languageModels ∧
        parseDocument env env.imageGenerationModelsFromStr
          (joinPath (joinPath directory "models") "image-generation.toml") = .ok imageGenerationModels ∧
        parseDocument env env.providersFromStr (joinPath directory "providers.toml") = .ok providers ∧
        Loads (LanguageModelReads env (joinPath (joinPath directory "models") "instructions")) languageModels
          catalog.languageModels ∧
        Loads ImageGenerationModelReads imageGenerationModels catalog.imageGenerationModels ∧
        Loads (ProviderReads env catalog.languageModels.contains catalog.imageGenerationModels.contains) providers
          catalog.providers := by
  have hlanguage : ∀ instructionsDirectory, Reads readLanguageModel (withInstructions env instructionsDirectory) =
      LanguageModelReads env instructionsDirectory :=
    fun _ => funext fun _ => funext fun _ => propext languageModel_reads
  have himage : Reads readImageGenerationModel (fun _ model => .ok model) = ImageGenerationModelReads :=
    funext fun _ => funext fun _ => propext imageGenerationModel_reads
  have hprovider : ∀ knownLanguage knownImage, Reads (readProvider env knownLanguage knownImage)
      (fun _ provider => .ok provider) = ProviderReads env knownLanguage knownImage :=
    fun _ _ => funext fun _ => funext fun _ => propext (provider_reads h)
  unfold ProviderCatalog.load loadLanguageModels loadImageGenerationModels loadProviders
  simp only [bind_ok_iff, load_byKey, hlanguage, himage, hprovider, Except.ok.injEq]
  constructor
  · rintro ⟨_, ⟨languageRaws, hlanguageRaws, hlanguages⟩, _, ⟨imageRaws, himageRaws, himages⟩, _,
      ⟨providerRaws, hproviderRaws, hproviders⟩, rfl⟩
    exact ⟨languageRaws, imageRaws, providerRaws, hlanguageRaws, himageRaws, hproviderRaws, hlanguages, himages,
      hproviders⟩
  · rintro ⟨languageRaws, imageRaws, providerRaws, hlanguageRaws, himageRaws, hproviderRaws, hlanguages, himages,
      hproviders⟩
    exact ⟨_, ⟨languageRaws, hlanguageRaws, hlanguages⟩, _, ⟨imageRaws, himageRaws, himages⟩, _,
      ⟨providerRaws, hproviderRaws, hproviders⟩, rfl⟩

end loaded

section small

def languageToml : String :=
  "[[models]]\n" ++ ("id = \" text-model \"\ndisplay_name = \"Text model\"\nbase_instructions = \"Be brief.\"\n" ++
    "[[models]]\nid = \"long-model\"\ndisplay_name = \"Long model\"")

def imageToml : String :=
  "[[models]]\n" ++ "id = \"image-model\"\ndisplay_name = \"Image model\""

def providersToml : String :=
  "[[providers]]\n" ++ ("id = \"deepseek\"\nname = \"DeepSeek\"\nauth_scheme = \"bearer\"\n" ++
    "base_url = \"https://api.deepseek.com/v1\"\nprotocols = [\"chat_completions\", \"images_generations\"]\n" ++
    "language_models = [\"text-model\", \"long-model\"]\nimage_generation_models = [\"image-model\"]")

def textModel : RawLanguageModel :=
  ⟨" text-model ", "Text model", none, none, none, none, none, none, none, none, none, none, none, none, none, none,
    none, none, none, none, none, none, none, none, some "Be brief.", none, none⟩

def longModel : RawLanguageModel :=
  { textModel with id := "long-model", displayName := "Long model", baseInstructions := none }

def imageModel : RawImageGenerationModel :=
  ⟨"image-model", "Image model", none, none, none, none, none, none, none, none, none, none, none, none, none⟩

def deepseek : RawProvider String :=
  ⟨"deepseek", "DeepSeek", "bearer", "https://api.deepseek.com/v1", [.chatCompletions, .imagesGenerations], ∅, ∅,
    ["text-model", "long-model"], ["image-model"], ∅, none⟩

def longTemplate : String := joinPath (joinPath (joinPath "catalog" "models") "instructions") "long-model.md"

def smallEnv : LoadEnv String where
  readToString path :=
    if path = joinPath (joinPath "catalog" "models") "language.toml" then .ok languageToml
    else if path = joinPath (joinPath "catalog" "models") "image-generation.toml" then .ok imageToml
    else if path = joinPath "catalog" "providers.toml" then .ok providersToml
    else if path = longTemplate then .ok "Answer in full."
    else .error ⟨true, "No such file or directory (os error 2)"⟩
  languageModelsFromStr contents :=
    if contents = languageToml then .ok [textModel, longModel] else .error "expected models"
  imageGenerationModelsFromStr contents := if contents = imageToml then .ok [imageModel] else .error "expected models"
  providersFromStr contents := if contents = providersToml then .ok [deepseek] else .error "expected providers"
  ordered := [.chatCompletions, .responses, .imagesGenerations]
  headerName _ := none
  headerValue _ := false
  urlScheme _ := none

theorem smallEnv_ordered : smallEnv.Ordered where
  all protocol := by cases protocol <;> simp [smallEnv]
  nodup := by decide

theorem trim_ne_empty {text rest : String} {c : Char} (hmem : c ∈ text.toList) (hc : Str.isWhitespace c = false) :
    Str.trim (text ++ rest) ≠ "" := by
  intro h
  unfold Str.trim Str.trimEnd Str.trimStart at h
  have hempty : "".toList = [] := rfl
  rw [← String.toList_inj, String.toList_ofList, String.toList_ofList, hempty, List.rdropWhile_eq_nil_iff] at h
  have hblank : ∀ d ∈ (text ++ rest).toList, Str.isWhitespace d := by
    rw [← List.dropWhile_eq_nil_iff]
    have hhead := List.head?_dropWhile_not Str.isWhitespace (text ++ rest).toList
    cases hdrop : (text ++ rest).toList.dropWhile Str.isWhitespace with
    | nil => rfl
    | cons d ds =>
      rw [hdrop] at hhead h
      have hd := h d List.mem_cons_self
      simp [hd] at hhead
  have hspace := hblank c (by rw [String.toList_append]; exact List.mem_append_left _ hmem)
  rw [hc] at hspace
  cases hspace

theorem smallEnv_documents :
    parseDocument smallEnv smallEnv.languageModelsFromStr (joinPath (joinPath "catalog" "models") "language.toml") =
      .ok [textModel, longModel] ∧
    parseDocument smallEnv smallEnv.imageGenerationModelsFromStr
      (joinPath (joinPath "catalog" "models") "image-generation.toml") = .ok [imageModel] ∧
    parseDocument smallEnv smallEnv.providersFromStr (joinPath "catalog" "providers.toml") = .ok [deepseek] := by
  have hlanguage : Str.trim languageToml ≠ "" := trim_ne_empty (c := '[') (by decide) (by decide)
  have himage : Str.trim imageToml ≠ "" := trim_ne_empty (c := '[') (by decide) (by decide)
  have hproviders : Str.trim providersToml ≠ "" := trim_ne_empty (c := '[') (by decide) (by decide)
  have hother : joinPath (joinPath "catalog" "models") "image-generation.toml" ≠
      joinPath (joinPath "catalog" "models") "language.toml" := by decide
  have hfirst : joinPath "catalog" "providers.toml" ≠ joinPath (joinPath "catalog" "models") "language.toml" := by
    decide
  have hsecond : joinPath "catalog" "providers.toml" ≠
      joinPath (joinPath "catalog" "models") "image-generation.toml" := by decide
  refine ⟨?_, ?_, ?_⟩
  · simp [parseDocument, smallEnv, hlanguage, Except.mapError]
  · simp [parseDocument, smallEnv, hother, himage, Except.mapError]
  · simp [parseDocument, smallEnv, hfirst, hsecond, hproviders, Except.mapError]

def loadedText : CatalogLanguageModel := { textModel with id := "text-model", displayName := "Text model" }

def loadedLong : CatalogLanguageModel := { longModel with baseInstructions := some "Answer in full." }

def loadedProvider : CatalogProvider String :=
  ⟨"deepseek", "DeepSeek", "bearer", "https://api.deepseek.com/v1", [.chatCompletions, .imagesGenerations], [], [],
    ["text-model", "long-model"], ["image-model"], ∅, none⟩

theorem textModel_reads (instructionsDirectory : String) :
    LanguageModelReads smallEnv instructionsDirectory textModel ("text-model", loadedText) where
  valid := ⟨by simp [textModel], by simp [textModel], by simp [textModel], by simp [textModel],
    by simp [textModel, Listed], by simp [textModel, Listed], by simp [textModel], by simp [textModel]⟩
  id := by decide
  idNonempty := by decide
  displayName := by decide
  model := by
    have hconfigured : Str.trim "Be brief." ≠ "" := by decide
    have hname : Str.trim "Text model" = "Text model" := by decide
    refine ⟨some "Be brief.", ?_, ?_⟩
    · simp [resolveBaseInstructions, textModel, hconfigured]
    · simp [loadedText, textModel, hname]

theorem longModel_reads :
    LanguageModelReads smallEnv (joinPath (joinPath "catalog" "models") "instructions") longModel
      ("long-model", loadedLong) where
  valid := ⟨by simp [longModel, textModel], by simp [longModel, textModel], by simp [longModel, textModel],
    by simp [longModel, textModel], by simp [longModel, textModel, Listed], by simp [longModel, textModel, Listed],
    by simp [longModel, textModel], by simp [longModel, textModel]⟩
  id := by decide
  idNonempty := by decide
  displayName := by decide
  model := by
    have hpath : joinPath (joinPath (joinPath "catalog" "models") "instructions") ("long-model" ++ ".md") =
        longTemplate := rfl
    have hread : smallEnv.readToString longTemplate = .ok "Answer in full." := by
      have hlanguage : longTemplate ≠ joinPath (joinPath "catalog" "models") "language.toml" := by decide
      have himage : longTemplate ≠ joinPath (joinPath "catalog" "models") "image-generation.toml" := by decide
      have hproviders : longTemplate ≠ joinPath "catalog" "providers.toml" := by decide
      simp only [smallEnv, if_neg hlanguage, if_neg himage, if_neg hproviders, if_true]
    have hcontents : Str.trim "Answer in full." ≠ "" := by decide
    have hname : Str.trim "Long model" = "Long model" := by decide
    refine ⟨some "Answer in full.", ?_, ?_⟩
    · simp only [resolveBaseInstructions, readInstructionTemplate, longModel, Option.any_none, hpath, hread,
        if_neg hcontents,
        Bool.false_eq_true, if_false]
      rfl
    · simp [loadedLong, longModel, hname]

theorem imageModel_reads : ImageGenerationModelReads imageModel ("image-model", imageModel) where
  valid := ⟨by simp [imageModel, Listed], by simp [imageModel, Listed], by simp [imageModel, Listed],
    by simp [imageModel, Listed], by simp [imageModel, Listed], by simp [imageModel, Listed]⟩
  id := by decide
  idNonempty := by decide
  displayName := by decide
  model := by
    have hname : Str.trim "Image model" = "Image model" := by decide
    simp [imageModel, hname]

theorem deepseek_reads {knownLanguage knownImage : String → Bool} (htext : knownLanguage "text-model")
    (hlong : knownLanguage "long-model") (himage : knownImage "image-model") :
    ProviderReads smallEnv knownLanguage knownImage deepseek ("deepseek", loadedProvider) where
  key := rfl
  id := by decide
  name := by decide
  authScheme := rfl
  baseUrl := by decide
  protocols := ⟨rfl, by simp [deepseek], by unfold InOrder; decide⟩
  protocolKeys := by simp [deepseek]
  protocolUrls := ⟨by simp [deepseek, UrlsValid], by simp [deepseek, declaredUrls, loadedProvider]⟩
  requestHeaders := ⟨by simp [deepseek, loadedProvider], by simp [loadedProvider]⟩
  languageModels := ⟨rfl, by simp [deepseek], by simp [deepseek, htext, hlong]⟩
  imageGenerationModels := ⟨rfl, by simp [deepseek], by simpa [deepseek] using himage⟩
  namesValid := by simp [deepseek]
  upstreamModelNames := by simp [deepseek, loadedProvider]
  proxyUrl := ⟨by simp [deepseek, loadedProvider], by simp [loadedProvider]⟩
  imagesProtocol := by simp [deepseek]

def loadedCatalog : ProviderCatalog String :=
  ⟨insertAll (byKey _) ∅ [("text-model", loadedText), ("long-model", loadedLong)],
    insertAll (byKey _) ∅ [("image-model", imageModel)], insertAll (byKey _) ∅ [("deepseek", loadedProvider)]⟩

theorem smallEnv_loads : ProviderCatalog.load smallEnv "catalog" = .ok loadedCatalog := by
  obtain ⟨hlanguage, himage, hprovider⟩ := smallEnv_documents
  have htext : loadedCatalog.languageModels.contains "text-model" := by
    simp [loadedCatalog, insertAll, byKey]
  have hlong : loadedCatalog.languageModels.contains "long-model" := by
    simp [loadedCatalog, insertAll, byKey]
  have hknown : loadedCatalog.imageGenerationModels.contains "image-model" := by
    simp [loadedCatalog, insertAll, byKey]
  refine (load_ok smallEnv_ordered).mpr ⟨_, _, _, hlanguage, himage, hprovider, ⟨_, ?_, ?_, holds_insertAll ?_⟩,
    ⟨_, .cons imageModel_reads .nil, List.nodup_singleton _, holds_insertAll (List.nodup_singleton _)⟩,
    ⟨_, .cons (deepseek_reads htext hlong hknown) .nil, List.nodup_singleton _,
      holds_insertAll (List.nodup_singleton _)⟩⟩
  · exact .cons (textModel_reads _) (.cons longModel_reads .nil)
  · decide
  · decide

end small

section accepts

variable {env : LoadEnv Auth}

/-- Whether a catalog is loaded depends on the entries of the three documents alone: all of them must be valid, the
providers against the ids of the models, and within a document no two ids may be alike. -/
theorem load_accepts (h : env.Ordered) {directory : String} :
    (∃ catalog, ProviderCatalog.load env directory = .ok catalog) ↔
      ∃ languageModels imageGenerationModels providers,
        parseDocument env env.languageModelsFromStr (joinPath (joinPath directory "models") "language.toml") =
          .ok languageModels ∧
        parseDocument env env.imageGenerationModelsFromStr
          (joinPath (joinPath directory "models") "image-generation.toml") = .ok imageGenerationModels ∧
        parseDocument env env.providersFromStr (joinPath directory "providers.toml") = .ok providers ∧
        ((∀ raw ∈ languageModels, ∃ entry,
            LanguageModelReads env (joinPath (joinPath directory "models") "instructions") raw entry) ∧
          (languageModels.map (fun raw => Str.trim raw.id)).Nodup) ∧
        ((∀ raw ∈ imageGenerationModels, ∃ entry, ImageGenerationModelReads raw entry) ∧
          (imageGenerationModels.map (fun raw => Str.trim raw.id)).Nodup) ∧
        (∀ raw ∈ providers, ∃ entry,
            ProviderReads env (fun id => decide (id ∈ languageModels.map (fun raw => Str.trim raw.id)))
              (fun id => decide (id ∈ imageGenerationModels.map (fun raw => Str.trim raw.id))) raw entry) ∧
          (providers.map (fun raw => Str.trim raw.id)).Nodup := by
  have hlanguageKey : ∀ instructionsDirectory raw entry, LanguageModelReads env instructionsDirectory raw entry →
      Str.trim raw.id = entry.1 := fun _ _ _ hread => hread.id.symm
  have himageKey : ∀ raw entry, ImageGenerationModelReads raw entry → Str.trim raw.id = entry.1 :=
    fun _ _ hread => hread.id.symm
  have hproviderKey : ∀ knownLanguage knownImage raw entry, ProviderReads env knownLanguage knownImage raw entry →
      Str.trim raw.id = entry.1 := fun _ _ _ _ hread => (hread.key.trans hread.id.1).symm
  simp only [load_ok h]
  constructor
  · rintro ⟨catalog, languageRaws, imageRaws, providerRaws, hlanguageRaws, himageRaws, hproviderRaws, hlanguages,
      himages, hproviders⟩
    refine ⟨languageRaws, imageRaws, providerRaws, hlanguageRaws, himageRaws, hproviderRaws,
      (exists_loads (hlanguageKey _)).mp ⟨_, hlanguages⟩, (exists_loads himageKey).mp ⟨_, himages⟩, ?_⟩
    rw [← funext (hlanguages.contains (hlanguageKey _)), ← funext (himages.contains himageKey)]
    exact (exists_loads (hproviderKey _ _)).mp ⟨_, hproviders⟩
  · rintro ⟨languageRaws, imageRaws, providerRaws, hlanguageRaws, himageRaws, hproviderRaws, hlanguages, himages,
      hproviders⟩
    obtain ⟨languageModels, hlanguages⟩ := (exists_loads (hlanguageKey _)).mpr hlanguages
    obtain ⟨imageGenerationModels, himages⟩ := (exists_loads himageKey).mpr himages
    rw [← funext (hlanguages.contains (hlanguageKey _)), ← funext (himages.contains himageKey)] at hproviders
    obtain ⟨providers, hproviders⟩ := (exists_loads (hproviderKey _ _)).mpr hproviders
    exact ⟨⟨languageModels, imageGenerationModels, providers⟩, languageRaws, imageRaws, providerRaws, hlanguageRaws,
      himageRaws, hproviderRaws, hlanguages, himages, hproviders⟩

theorem load_accepts_small : ∃ languageModels imageGenerationModels providers,
    parseDocument smallEnv smallEnv.languageModelsFromStr (joinPath (joinPath "catalog" "models") "language.toml") =
      .ok languageModels ∧
    parseDocument smallEnv smallEnv.imageGenerationModelsFromStr
      (joinPath (joinPath "catalog" "models") "image-generation.toml") = .ok imageGenerationModels ∧
    parseDocument smallEnv smallEnv.providersFromStr (joinPath "catalog" "providers.toml") = .ok providers ∧
    ((∀ raw ∈ languageModels, ∃ entry,
        LanguageModelReads smallEnv (joinPath (joinPath "catalog" "models") "instructions") raw entry) ∧
      (languageModels.map (fun raw => Str.trim raw.id)).Nodup) ∧
    ((∀ raw ∈ imageGenerationModels, ∃ entry, ImageGenerationModelReads raw entry) ∧
      (imageGenerationModels.map (fun raw => Str.trim raw.id)).Nodup) ∧
    (∀ raw ∈ providers, ∃ entry,
        ProviderReads smallEnv (fun id => decide (id ∈ languageModels.map (fun raw => Str.trim raw.id)))
          (fun id => decide (id ∈ imageGenerationModels.map (fun raw => Str.trim raw.id))) raw entry) ∧
      (providers.map (fun raw => Str.trim raw.id)).Nodup :=
  (load_accepts smallEnv_ordered).mp ⟨_, smallEnv_loads⟩

end accepts

section order

variable {env : LoadEnv Auth}

def Reordered {α : Type} (fromStr fromStr' : String → Except String (List α)) : Prop :=
  ∀ contents raws, fromStr contents = .ok raws → ∃ raws', fromStr' contents = .ok raws' ∧ raws.Perm raws'

theorem parseDocument_reordered {α : Type} {fromStr fromStr' : String → Except String (List α)}
    (h : Reordered fromStr fromStr') {path : String} {raws : List α}
    (hparse : parseDocument env fromStr path = .ok raws) :
    ∃ raws', parseDocument env fromStr' path = .ok raws' ∧ raws.Perm raws' := by
  unfold parseDocument at hparse ⊢
  cases hcontents : env.readToString path with
  | error error =>
    rw [hcontents] at hparse
    cases hparse
  | ok contents =>
    rw [hcontents] at hparse
    simp only at hparse ⊢
    split_ifs at hparse ⊢ with hblank
    · exact ⟨raws, hparse, .refl _⟩
    · cases hfrom : fromStr contents with
      | error error =>
        rw [hfrom] at hparse
        cases hparse
      | ok found =>
        rw [hfrom] at hparse
        obtain rfl := Except.ok.inj hparse
        obtain ⟨raws', hfrom', hperm⟩ := h contents _ hfrom
        rw [hfrom']
        exact ⟨raws', rfl, hperm⟩

def LoadEnv.withParsers (env : LoadEnv Auth) (languageModelsFromStr : String → Except String (List RawLanguageModel))
    (imageGenerationModelsFromStr : String → Except String (List RawImageGenerationModel))
    (providersFromStr : String → Except String (List (RawProvider Auth))) : LoadEnv Auth :=
  { env with
    languageModelsFromStr := languageModelsFromStr
    imageGenerationModelsFromStr := imageGenerationModelsFromStr
    providersFromStr := providersFromStr }

variable {languageModelsFromStr : String → Except String (List RawLanguageModel)}
  {imageGenerationModelsFromStr : String → Except String (List RawImageGenerationModel)}
  {providersFromStr : String → Except String (List (RawProvider Auth))}

theorem parseDocument_withParsers {α : Type} (fromStr : String → Except String (List α)) (path : String) :
    parseDocument (env.withParsers languageModelsFromStr imageGenerationModelsFromStr providersFromStr) fromStr path =
      parseDocument env fromStr path := rfl

theorem languageModelReads_withParsers {instructionsDirectory : String} {raw : RawLanguageModel}
    {entry : String × CatalogLanguageModel} (h : LanguageModelReads env instructionsDirectory raw entry) :
    LanguageModelReads (env.withParsers languageModelsFromStr imageGenerationModelsFromStr providersFromStr)
      instructionsDirectory raw entry := ⟨h.valid, h.id, h.idNonempty, h.displayName, h.model⟩

theorem providerReads_withParsers {knownLanguage knownImage : String → Bool} {raw : RawProvider Auth}
    {entry : String × CatalogProvider Auth} (h : ProviderReads env knownLanguage knownImage raw entry) :
    ProviderReads (env.withParsers languageModelsFromStr imageGenerationModelsFromStr providersFromStr) knownLanguage
      knownImage raw entry := by
  have hheader : ∀ raw header, HeaderReads env raw header →
      HeaderReads (env.withParsers languageModelsFromStr imageGenerationModelsFromStr providersFromStr) raw header :=
    fun _ _ hheader => ⟨hheader.name, hheader.noAuthorization, hheader.literal, hheader.source⟩
  exact { h with requestHeaders := ⟨h.requestHeaders.1.imp hheader, h.requestHeaders.2⟩ }

/-- The order of the entries of the three documents does not change the catalog. -/
theorem load_reordered (h : env.Ordered) (hlanguage : Reordered env.languageModelsFromStr languageModelsFromStr)
    (himage : Reordered env.imageGenerationModelsFromStr imageGenerationModelsFromStr)
    (hprovider : Reordered env.providersFromStr providersFromStr) {directory : String} {catalog : ProviderCatalog Auth}
    (hload : ProviderCatalog.load env directory = .ok catalog) :
    ProviderCatalog.load (env.withParsers languageModelsFromStr imageGenerationModelsFromStr providersFromStr)
      directory = .ok catalog := by
  obtain ⟨languageRaws, imageRaws, providerRaws, hlanguageRaws, himageRaws, hproviderRaws, hlanguages, himages,
    hproviders⟩ := (load_ok h).mp hload
  obtain ⟨languageRaws', hlanguageRaws', hlanguagePerm⟩ := parseDocument_reordered hlanguage hlanguageRaws
  obtain ⟨imageRaws', himageRaws', himagePerm⟩ := parseDocument_reordered himage himageRaws
  obtain ⟨providerRaws', hproviderRaws', hproviderPerm⟩ := parseDocument_reordered hprovider hproviderRaws
  have hordered : (env.withParsers languageModelsFromStr imageGenerationModelsFromStr providersFromStr).Ordered :=
    ⟨h.all, h.nodup⟩
  rw [load_ok hordered]
  simp only [parseDocument_withParsers]
  refine ⟨languageRaws', imageRaws', providerRaws', hlanguageRaws', himageRaws', hproviderRaws', ?_,
    himages.perm himagePerm, ?_⟩
  · exact (hlanguages.imp (fun _ _ => languageModelReads_withParsers)).perm hlanguagePerm
  · exact (hproviders.imp (fun _ _ => providerReads_withParsers)).perm hproviderPerm

theorem load_reordered_small :
    smallEnv.languageModelsFromStr languageToml = .ok [textModel, longModel] ∧
    ProviderCatalog.load
      (smallEnv.withParsers (fun contents => (smallEnv.languageModelsFromStr contents).map List.reverse)
        smallEnv.imageGenerationModelsFromStr smallEnv.providersFromStr) "catalog" = .ok loadedCatalog := by
  refine ⟨by simp only [smallEnv, if_true], load_reordered smallEnv_ordered ?_ ?_ ?_ smallEnv_loads⟩
  · intro contents raws hraws
    refine ⟨raws.reverse, ?_, (List.reverse_perm raws).symm⟩
    simp only [hraws]
    rfl
  · exact fun contents raws hraws => ⟨raws, hraws, .refl _⟩
  · exact fun contents raws hraws => ⟨raws, hraws, .refl _⟩

end order

section references

variable {env : LoadEnv Auth}

def ProviderCatalog.modelExists (catalog : ProviderCatalog Auth) (modelId : String) : Bool :=
  catalog.languageModels.contains modelId || catalog.imageGenerationModels.contains modelId

def ProviderCatalog.modelDisplayName (catalog : ProviderCatalog Auth) (modelId : String) : String :=
  ((catalog.languageModels[modelId]?.map RawLanguageModel.displayName).or
    (catalog.imageGenerationModels[modelId]?.map RawImageGenerationModel.displayName)).getD modelId

def storedProvider (provider : CatalogProvider Auth) : Store.CatalogProvider :=
  ⟨provider.languageModels, provider.imageGenerationModels, provider.upstreamModelNames.toList⟩

theorem lookup_toList (names : ExtTreeMap String String) (modelId : String) :
    names.toList.lookup modelId = names[modelId]? := by
  apply Option.ext
  intro name
  rw [← ExtTreeMap.mem_toList_iff_getElem?_eq_some, List.lookup_eq_some_iff]
  have hnodup : (names.toList.map Prod.fst).Nodup := by
    rw [ExtTreeMap.map_fst_toList_eq_keys]
    exact ExtTreeMap.nodup_keys
  constructor
  · rintro ⟨before, after, heq, -⟩
    rw [heq]
    exact List.mem_append_right _ List.mem_cons_self
  · intro hmem
    obtain ⟨before, after, heq⟩ := List.append_of_mem hmem
    refine ⟨before, after, heq, ?_⟩
    intro entry hentry
    rw [heq, List.map_append, List.nodup_append] at hnodup
    have hne := hnodup.2.2 entry.1 (List.mem_map_of_mem hentry) modelId (List.mem_map_of_mem List.mem_cons_self)
    simpa using hne.symm

/-- Every model that a provider of a loaded catalog refers to has an entry with a name and a name upstream, and image
models are only referred to by providers that speak the protocol for images. -/
theorem loaded_references (h : env.Ordered) {directory : String} {catalog : ProviderCatalog Auth}
    (hload : ProviderCatalog.load env directory = .ok catalog) :
    ∃ stored : Store.ProviderCatalog,
      (∀ providerId, stored.provider providerId = catalog.providers[providerId]?.map storedProvider) ∧
      ∀ providerId modelId, modelId ∈ stored.models providerId →
        catalog.modelExists modelId ∧ IsValue modelId ∧ IsValue (catalog.modelDisplayName modelId) ∧
        IsValue (stored.providerUpstreamModel providerId modelId) ∧
        (stored.providerSupportsImageGenerationModel providerId modelId →
          ∃ provider, catalog.providers[providerId]? = some provider ∧ .imagesGenerations ∈ provider.protocols) := by
  obtain ⟨_, _, _, -, -, -, hlanguages, himages, hproviders⟩ := (load_ok h).mp hload
  have hlanguage : ∀ id model, catalog.languageModels[id]? = some model → IsValue id ∧ IsValue model.displayName := by
    intro id model hget
    obtain ⟨raw, -, hread⟩ := hlanguages.entry hget
    obtain ⟨_, -, hmodel⟩ := hread.model
    have hid : id = Str.trim raw.id := hread.id
    have hname : model.displayName = Str.trim raw.displayName := by
      simp only at hmodel
      rw [hmodel]
    rw [hid, hname]
    exact ⟨isValue_trim hread.idNonempty, isValue_trim hread.displayName⟩
  have himage : ∀ id model, catalog.imageGenerationModels[id]? = some model →
      IsValue id ∧ IsValue model.displayName := by
    intro id model hget
    obtain ⟨raw, -, hread⟩ := himages.entry hget
    have hid : id = Str.trim raw.id := hread.id
    have hname : model.displayName = Str.trim raw.displayName := by
      have hmodel := hread.model
      simp only at hmodel
      rw [hmodel]
    rw [hid, hname]
    exact ⟨isValue_trim hread.idNonempty, isValue_trim hread.displayName⟩
  have htrimmed : ∀ id, (catalog.providers[id]?.map storedProvider).isSome → Str.trim id = id := by
    intro id hsome
    rw [Option.isSome_map] at hsome
    obtain ⟨provider, hget⟩ := Option.isSome_iff_exists.mp hsome
    obtain ⟨raw, -, hread⟩ := hproviders.entry hget
    have hid : id = Str.trim raw.id := hread.key.trans hread.id.1
    rw [hid, Str.trim_trim]
  refine ⟨⟨fun id => catalog.providers[id]?.map storedProvider, htrimmed⟩, fun _ => rfl, ?_⟩
  intro providerId modelId hmem
  cases hget : catalog.providers[providerId]? with
  | none => simp [Store.ProviderCatalog.models, hget] at hmem
  | some provider =>
    obtain ⟨raw, -, hread⟩ := hproviders.entry hget
    have hmem' : modelId ∈ provider.languageModels ∨ modelId ∈ provider.imageGenerationModels := by
      simpa [Store.ProviderCatalog.models, hget, storedProvider] using hmem
    have hexists : catalog.modelExists modelId := by
      unfold ProviderCatalog.modelExists
      rw [Bool.or_eq_true]
      rcases hmem' with hlang | himg
      · rw [hread.languageModels.1] at hlang
        exact .inl (hread.languageModels.2.2 modelId hlang)
      · rw [hread.imageGenerationModels.1] at himg
        exact .inr (hread.imageGenerationModels.2.2 modelId himg)
    have hnamed : IsValue modelId ∧ IsValue (catalog.modelDisplayName modelId) := by
      unfold ProviderCatalog.modelDisplayName
      cases hlang : catalog.languageModels[modelId]? with
      | some model => exact hlanguage modelId model hlang
      | none =>
        cases himg : catalog.imageGenerationModels[modelId]? with
        | some model => exact himage modelId model himg
        | none =>
          unfold ProviderCatalog.modelExists at hexists
          rw [ExtTreeMap.contains_eq_isSome_getElem?, ExtTreeMap.contains_eq_isSome_getElem?, hlang, himg] at hexists
          cases hexists
    refine ⟨hexists, hnamed.1, hnamed.2, ?_, ?_⟩
    · unfold Store.ProviderCatalog.providerUpstreamModel
      simp only [hget, Option.map_some, Option.bind_some, storedProvider, lookup_toList, hread.upstreamModelNames]
      cases hname : raw.upstreamModelNames[modelId]? with
      | none => exact hnamed.1
      | some upstream => exact isValue_trim (hread.namesValid modelId upstream hname).2
    · intro hsupports
      refine ⟨provider, rfl, ?_⟩
      rw [hread.protocols.1]
      apply hread.imagesProtocol
      intro hempty
      have himg : provider.imageGenerationModels = [] := hread.imageGenerationModels.1.trans hempty
      unfold Store.ProviderCatalog.providerSupportsImageGenerationModel at hsupports
      simp [hget, storedProvider, himg] at hsupports

theorem loaded_references_small : ∃ stored : Store.ProviderCatalog,
    (∀ providerId, stored.provider providerId = loadedCatalog.providers[providerId]?.map storedProvider) ∧
    "image-model" ∈ stored.models "deepseek" ∧ ∀ modelId ∈ stored.models "deepseek",
      loadedCatalog.modelExists modelId ∧ IsValue modelId ∧ IsValue (loadedCatalog.modelDisplayName modelId) ∧
      IsValue (stored.providerUpstreamModel "deepseek" modelId) ∧
      (stored.providerSupportsImageGenerationModel "deepseek" modelId →
        ∃ provider, loadedCatalog.providers["deepseek"]? = some provider ∧
          .imagesGenerations ∈ provider.protocols) := by
  obtain ⟨stored, hprovider, hstored⟩ := loaded_references smallEnv_ordered smallEnv_loads
  refine ⟨stored, hprovider, ?_, hstored "deepseek"⟩
  simp [Store.ProviderCatalog.models, hprovider, loadedCatalog, insertAll, byKey, storedProvider, loadedProvider]

end references

end Prelay.Catalog
