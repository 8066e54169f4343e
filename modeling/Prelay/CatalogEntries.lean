import Mathlib.Data.Finset.Card
import Prelay.KeyedLoad
import Prelay.Reconciliation

namespace Prelay.Catalog

open Store KeyedLoad Std

section entries

structure CatalogTruncationPolicy where
  mode : String
  limit : ℕ

/-- An entry of `language.toml`; a loaded entry has the same fields. -/
structure RawLanguageModel where
  id : String
  displayName : String
  description : Option String
  reasoningEfforts : Option (List String)
  defaultReasoningEffort : Option String
  contextWindow : Option ℕ
  maxContextWindow : Option ℕ
  effectiveContextWindowPercent : Option ℕ
  inputModalities : Option (List String)
  supportsParallelToolCalls : Option Bool
  supportsReasoningSummaries : Option Bool
  supportsImageDetailOriginal : Option Bool
  supportVerbosity : Option Bool
  defaultVerbosity : Option String
  applyPatchToolType : Option String
  webSearchToolType : Option String
  supportsSearchTool : Option Bool
  truncationPolicy : Option CatalogTruncationPolicy
  reasoningSummaryFormat : Option String
  defaultReasoningSummary : Option String
  shellType : Option String
  visibility : Option String
  supportedInApi : Option Bool
  priority : Option ℕ
  baseInstructions : Option String
  experimentalSupportedTools : Option (List String)
  minimalClientVersion : Option String

abbrev CatalogLanguageModel := RawLanguageModel

structure RawImageGenerationModel where
  id : String
  displayName : String
  description : Option String
  inputModalities : Option (List String)
  outputModalities : Option (List String)
  sizes : Option (List String)
  qualityOptions : Option (List String)
  backgroundOptions : Option (List String)
  outputFormats : Option (List String)
  supportsEditing : Option Bool
  supportsMask : Option Bool
  supportsReferenceImages : Option Bool
  visibility : Option String
  supportedInApi : Option Bool
  priority : Option ℕ

abbrev CatalogImageGenerationModel := RawImageGenerationModel

inductive RawRequestHeaderValue where
  | literal (value : String)
  | source (source : String)

structure RawProvider (Auth : Type) where
  id : String
  name : String
  authScheme : Auth
  baseUrl : String
  protocols : List ProviderProtocol
  protocolBaseUrls : ExtTreeMap String String
  requestHeaders : ExtTreeMap String RawRequestHeaderValue
  languageModels : List String
  imageGenerationModels : List String
  upstreamModelNames : ExtTreeMap String String
  proxyUrl : Option String

inductive CatalogRequestHeaderValue where
  | literal (value : String)
  | sessionId
  deriving DecidableEq

structure CatalogProvider (Auth : Type) where
  id : String
  name : String
  authScheme : Auth
  baseUrl : String
  protocols : List ProviderProtocol
  protocolBaseUrls : List (ProviderProtocol × String)
  requestHeaders : List (String × CatalogRequestHeaderValue)
  languageModels : List String
  imageGenerationModels : List String
  upstreamModelNames : ExtTreeMap String String
  proxyUrl : Option String

structure ProviderCatalog (Auth : Type) where
  languageModels : ExtTreeMap String CatalogLanguageModel
  imageGenerationModels : ExtTreeMap String CatalogImageGenerationModel
  providers : ExtTreeMap String (CatalogProvider Auth)

structure ReadError where
  notFound : Bool
  message : String

/-- What the loading calls: the file system, the parsers of the three documents, of header names and values and of
addresses; and the fixed order of the protocols. -/
structure LoadEnv (Auth : Type) where
  readToString : String → Except ReadError String
  languageModelsFromStr : String → Except String (List RawLanguageModel)
  imageGenerationModelsFromStr : String → Except String (List RawImageGenerationModel)
  providersFromStr : String → Except String (List (RawProvider Auth))
  ordered : List ProviderProtocol
  headerName : String → Option String
  headerValue : String → Bool
  urlScheme : String → Option String

structure LoadEnv.Ordered {Auth : Type} (env : LoadEnv Auth) : Prop where
  all : ∀ protocol, protocol ∈ env.ordered
  nodup : env.ordered.Nodup

end entries

section checks

def rejectIf (bad : Prop) [Decidable bad] (message : String) : Except String Unit :=
  if bad then .error message else .ok ()

theorem rejectIf_ok {bad : Prop} [Decidable bad] {message : String} {u : Unit} :
    rejectIf bad message = .ok u ↔ ¬bad := by
  unfold rejectIf
  split_ifs with h
  · simp [h]
  · simp [h]

theorem rejectIf_bind {bad : Prop} [Decidable bad] {message : String} {β : Type} {f : Unit → Except String β} {b : β} :
    (rejectIf bad message >>= f) = .ok b ↔ ¬bad ∧ f () = .ok b := by
  rw [bind_ok_iff]
  constructor
  · rintro ⟨_, hbad, h⟩
    exact ⟨rejectIf_ok.mp hbad, h⟩
  · rintro ⟨hbad, h⟩
    exact ⟨(), rejectIf_ok.mpr hbad, h⟩

def requiredValue (label value : String) : Except String String :=
  let value := Str.trim value
  if value = "" then .error (label ++ "不能为空") else .ok value

def IsValue (value : String) : Prop := Str.trim value = value ∧ value ≠ ""

theorem isValue_trim {value : String} (h : Str.trim value ≠ "") : IsValue (Str.trim value) := ⟨Str.trim_trim value, h⟩

theorem requiredValue_ok {label value result : String} :
    requiredValue label value = .ok result ↔ Str.trim value ≠ "" ∧ result = Str.trim value := by
  unfold requiredValue
  simp only
  split_ifs with h
  · simp [h]
  · simp [h, eq_comm]

def hasDuplicates (values : List String) : Prop := values.toFinset.card ≠ values.length

instance (values : List String) : Decidable (hasDuplicates values) := inferInstanceAs (Decidable (_ ≠ _))

theorem hasDuplicates_iff {values : List String} : hasDuplicates values ↔ ¬values.Nodup := by
  have h := Multiset.toFinset_card_eq_card_iff_nodup (m := (values : Multiset String))
  rw [Multiset.coe_nodup] at h
  exact not_congr h

end checks

section models

def reasoningEfforts : List String := ["none", "minimal", "low", "medium", "high", "xhigh", "max"]

def inputModalities : List String := ["text", "image"]

def outputModalities : List String := ["image"]

def validateContextWindow (modelId : String) (contextWindow maxContextWindow : Option ℕ) : Except String Unit := do
  rejectIf (contextWindow = some 0) ("语言模型 " ++ modelId ++ " 的上下文窗口必须大于零")
  rejectIf (maxContextWindow = some 0 ∨
      maxContextWindow.any (fun maximum => contextWindow.any (fun current => maximum < current)))
    ("语言模型 " ++ modelId ++ " 的最大上下文窗口无效")

def validateModalities (modelId label : String) (modalities : Option (List String)) (allowed : List String) :
    Except String Unit :=
  match modalities with
  | none => .ok ()
  | some modalities =>
    rejectIf (hasDuplicates modalities ∨ modalities.any (fun value => !allowed.contains value))
      ("模型 " ++ modelId ++ " 的" ++ label ++ "模态无效")

def validateNonemptyValues (modelId label : String) (values : Option (List String)) : Except String Unit :=
  match values with
  | none => .ok ()
  | some values =>
    rejectIf (values.any (fun value => Str.trim value = "") ∨ hasDuplicates values)
      ("图像生成模型 " ++ modelId ++ " 的" ++ label ++ "配置无效")

def validateReasoningEfforts (modelId : String) (efforts : Option (List String)) : Except String Unit :=
  match efforts with
  | none => .ok ()
  | some efforts =>
    rejectIf (hasDuplicates efforts ∨ efforts.any (fun effort => !reasoningEfforts.contains effort))
      ("语言模型 " ++ modelId ++ " 的思考档位无效")

def validateReasoning (modelId : String) (efforts : Option (List String)) (defaultEffort : Option String) :
    Except String Unit := do
  validateReasoningEfforts modelId efforts
  match defaultEffort with
  | some defaultEffort =>
    rejectIf (defaultEffort ∉ reasoningEfforts ∨ ¬efforts.any (fun efforts => efforts.contains defaultEffort))
      ("语言模型 " ++ modelId ++ " 的默认思考档位无效")
  | none =>
    rejectIf (efforts.any (fun efforts => !efforts.isEmpty))
      ("语言模型 " ++ modelId ++ " 配置思考档位时必须指定默认值")

def validateLanguageModel (modelId : String) (model : RawLanguageModel) : Except String Unit := do
  validateContextWindow modelId model.contextWindow model.maxContextWindow
  rejectIf (model.effectiveContextWindowPercent.any (fun percent => percent = 0 ∨ 100 < percent))
    ("语言模型 " ++ modelId ++ " 的有效上下文比例无效")
  rejectIf (model.truncationPolicy.any (fun policy => Str.trim policy.mode = "" ∨ policy.limit = 0))
    ("语言模型 " ++ modelId ++ " 的截断策略无效")
  validateModalities modelId "输入" model.inputModalities inputModalities
  validateReasoning modelId model.reasoningEfforts model.defaultReasoningEffort

def validateImageGenerationModel (modelId : String) (model : RawImageGenerationModel) : Except String Unit := do
  validateModalities modelId "输入" model.inputModalities inputModalities
  validateModalities modelId "输出" model.outputModalities outputModalities
  validateNonemptyValues modelId "尺寸" model.sizes
  validateNonemptyValues modelId "质量" model.qualityOptions
  validateNonemptyValues modelId "背景" model.backgroundOptions
  validateNonemptyValues modelId "输出格式" model.outputFormats

def Listed (kind : String → Prop) (values : Option (List String)) : Prop :=
  ∀ listed ∈ values, listed.Nodup ∧ ∀ value ∈ listed, kind value

structure LanguageModelValid (model : RawLanguageModel) : Prop where
  context : model.contextWindow ≠ some 0
  maximum : ∀ maximum ∈ model.maxContextWindow, 0 < maximum ∧ ∀ current ∈ model.contextWindow, current ≤ maximum
  percent : ∀ percent ∈ model.effectiveContextWindowPercent, 0 < percent ∧ percent ≤ 100
  truncation : ∀ policy ∈ model.truncationPolicy, Str.trim policy.mode ≠ "" ∧ 0 < policy.limit
  input : Listed (· ∈ inputModalities) model.inputModalities
  efforts : Listed (· ∈ reasoningEfforts) model.reasoningEfforts
  defaultEffort : ∀ effort ∈ model.defaultReasoningEffort, ∃ efforts ∈ model.reasoningEfforts, effort ∈ efforts
  someDefault : model.defaultReasoningEffort = none → ∀ efforts ∈ model.reasoningEfforts, efforts = []

structure ImageGenerationModelValid (model : RawImageGenerationModel) : Prop where
  input : Listed (· ∈ inputModalities) model.inputModalities
  output : Listed (· ∈ outputModalities) model.outputModalities
  sizes : Listed (Str.trim · ≠ "") model.sizes
  qualityOptions : Listed (Str.trim · ≠ "") model.qualityOptions
  backgroundOptions : Listed (Str.trim · ≠ "") model.backgroundOptions
  outputFormats : Listed (Str.trim · ≠ "") model.outputFormats

theorem validateContextWindow_ok {modelId : String} {contextWindow maxContextWindow : Option ℕ} {u : Unit} :
    validateContextWindow modelId contextWindow maxContextWindow = .ok u ↔ contextWindow ≠ some 0 ∧
      ∀ maximum ∈ maxContextWindow, 0 < maximum ∧ ∀ current ∈ contextWindow, current ≤ maximum := by
  unfold validateContextWindow
  rw [rejectIf_bind, rejectIf_ok]
  apply and_congr_right
  intro _
  cases maxContextWindow with
  | none => simp
  | some maximum =>
    cases contextWindow with
    | none => simp [Nat.pos_iff_ne_zero]
    | some current => simp [Nat.pos_iff_ne_zero]

theorem validateModalities_ok {modelId label : String} {modalities : Option (List String)} {allowed : List String}
    {u : Unit} : validateModalities modelId label modalities allowed = .ok u ↔ Listed (· ∈ allowed) modalities := by
  unfold validateModalities Listed
  cases modalities with
  | none => simp
  | some modalities =>
    simp only
    rw [rejectIf_ok, hasDuplicates_iff, not_or, not_not]
    simp

theorem validateNonemptyValues_ok {modelId label : String} {values : Option (List String)} {u : Unit} :
    validateNonemptyValues modelId label values = .ok u ↔ Listed (Str.trim · ≠ "") values := by
  unfold validateNonemptyValues Listed
  cases values with
  | none => simp
  | some values =>
    simp only
    rw [rejectIf_ok, hasDuplicates_iff, not_or, not_not, and_comm]
    simp

theorem validateReasoning_ok {modelId : String} {efforts : Option (List String)} {defaultEffort : Option String}
    {u : Unit} :
    validateReasoning modelId efforts defaultEffort = .ok u ↔ Listed (· ∈ reasoningEfforts) efforts ∧
      (∀ effort ∈ defaultEffort, ∃ listed ∈ efforts, effort ∈ listed) ∧
      (defaultEffort = none → ∀ listed ∈ efforts, listed = []) := by
  have hefforts : ∀ u, validateReasoningEfforts modelId efforts = .ok u ↔ Listed (· ∈ reasoningEfforts) efforts := by
    intro u
    unfold validateReasoningEfforts Listed
    cases efforts with
    | none => simp
    | some efforts =>
      simp only
      rw [rejectIf_ok, hasDuplicates_iff, not_or, not_not]
      simp
  unfold validateReasoning
  rw [bind_ok_iff]
  simp only [hefforts, exists_const]
  apply and_congr_right
  intro hlisted
  cases defaultEffort with
  | none =>
    rw [rejectIf_ok]
    cases efforts with
    | none => simp
    | some efforts => simp
  | some effort =>
    rw [rejectIf_ok]
    cases efforts with
    | none => simp
    | some efforts =>
      -- a default among the efforts is one of the known ones
      have hknown : effort ∈ efforts → effort ∈ reasoningEfforts := (hlisted efforts rfl).2 effort
      simp only [Option.any_some, List.contains_eq_mem, decide_eq_true_eq, not_or, not_not, Option.mem_def,
        Option.some.injEq, forall_eq', exists_eq_left', reduceCtorEq, false_implies, and_true]
      exact ⟨fun h => h.2, fun h => ⟨hknown h, h⟩⟩

theorem validateLanguageModel_ok {modelId : String} {model : RawLanguageModel} {u : Unit} :
    validateLanguageModel modelId model = .ok u ↔ LanguageModelValid model := by
  unfold validateLanguageModel
  simp only [bind_ok_iff, rejectIf_ok, validateContextWindow_ok, validateModalities_ok, validateReasoning_ok]
  constructor
  · rintro ⟨_, ⟨hcontext, hmaximum⟩, _, hpercent, _, htruncation, _, hinput, hefforts, hdefault, hsome⟩
    refine ⟨hcontext, hmaximum, ?_, ?_, hinput, hefforts, hdefault, hsome⟩
    · intro percent hmem
      rw [Option.mem_def.mp hmem] at hpercent
      simp only [Option.any_some, decide_eq_true_eq, not_or] at hpercent
      omega
    · intro policy hmem
      rw [Option.mem_def.mp hmem] at htruncation
      simp only [Option.any_some, decide_eq_true_eq, not_or] at htruncation
      exact ⟨htruncation.1, Nat.pos_of_ne_zero htruncation.2⟩
  · intro h
    refine ⟨(), ⟨h.context, h.maximum⟩, (), ?_, (), ?_, (), h.input, h.efforts, h.defaultEffort, h.someDefault⟩
    · cases hpercent : model.effectiveContextWindowPercent with
      | none => simp
      | some percent =>
        have := h.percent percent hpercent
        simp only [Option.any_some, decide_eq_true_eq, not_or]
        omega
    · cases htruncation : model.truncationPolicy with
      | none => simp
      | some policy =>
        have hpolicy := h.truncation policy htruncation
        simp only [Option.any_some, decide_eq_true_eq, not_or]
        exact ⟨hpolicy.1, hpolicy.2.ne'⟩

theorem validateImageGenerationModel_ok {modelId : String} {model : RawImageGenerationModel} {u : Unit} :
    validateImageGenerationModel modelId model = .ok u ↔ ImageGenerationModelValid model := by
  unfold validateImageGenerationModel
  simp only [bind_ok_iff, validateModalities_ok, validateNonemptyValues_ok]
  constructor
  · rintro ⟨_, hinput, _, houtput, _, hsizes, _, hquality, _, hbackground, hformats⟩
    exact ⟨hinput, houtput, hsizes, hquality, hbackground, hformats⟩
  · intro h
    exact ⟨(), h.input, (), h.output, (), h.sizes, (), h.qualityOptions, (), h.backgroundOptions, h.outputFormats⟩

end models

end Prelay.Catalog
