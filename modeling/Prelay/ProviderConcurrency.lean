import Prelay.ProviderRestart

namespace Prelay.Store

open Json Bridge Runs

section system

variable (env : StorageEnv) (ι : Type)

structure UpdateCall where
  identityId : String
  nonce : ℕ
  input : UpdateProviderRequest env

/-- Where a call stands: before its read of the row, between the read and the `UPDATE`, between the `UPDATE` and the
commit, or at its end. -/
inductive CallStage where
  | waiting
  | read (existing : ProviderConfig) (changes : ProviderChanges)
  | written (existing : ProviderConfig) (changes : ProviderChanges)
  | committed
  | failed
  deriving DecidableEq

/-- The committed row of the provider, the version of the transaction that holds its lock, and the calls in the order of
their commits. -/
structure RowState where
  row : ProviderConfig
  locked : Option (ι × ProviderConfig)
  stage : ι → CallStage
  log : List ι

inductive RowAction where
  | read (call : ι)
  | update (call : ι)
  | commit (call : ι)
  | rollback (call : ι)

variable {env ι} [DecidableEq ι] (catalog : Option ProviderCatalog) (calls : ι → UpdateCall env)

def RowState.set (s : RowState ι) (call : ι) (stage : CallStage) : ι → CallStage :=
  fun other => if other = call then stage else s.stage other

def readStage (call : UpdateCall env) (row : ProviderConfig) : CallStage :=
  if row.identityId ≠ call.identityId then .failed
  else match providerChanges catalog call.nonce call.input row with
    | .ok changes => .read row changes
    | .error _ => .failed

/-- A statement reads the committed row; an `UPDATE` waits until no other transaction holds the row. -/
def RowState.next (s : RowState ι) : RowAction ι → Option (RowState ι)
  | .read call =>
    if s.stage call = .waiting then some { s with stage := s.set call (readStage catalog (calls call) s.row) } else none
  | .update call =>
    match s.stage call, s.locked with
    | .read existing changes, none => some { s with
        locked := some (call, changes.apply s.row)
        stage := s.set call (.written existing changes) }
    | _, _ => none
  | .commit call =>
    match s.locked with
    | some (holder, version) =>
      if holder = call then some
        { row := version, locked := none, stage := s.set call .committed, log := s.log ++ [call] }
      else none
    | none => none
  | .rollback call =>
    match s.locked with
    | some (holder, _) => if holder = call then some { s with locked := none, stage := s.set call .failed } else none
    | none => none

def RowStep (s : RowState ι) (action : RowAction ι) (s' : RowState ι) : Prop := s.next catalog calls action = some s'

def RowState.initial (row : ProviderConfig) : RowState ι := ⟨row, none, fun _ => .waiting, []⟩

end system

section property

variable {env : StorageEnv} {ι : Type}

def lastGiven {α : Type} (field : ι → Option α) (initial : α) (log : List ι) : α :=
  (log.reverse.findSome? field).getD initial

theorem lastGiven_append {α : Type} (field : ι → Option α) (initial : α) (log : List ι) (call : ι) :
    lastGiven field initial (log ++ [call]) = (field call).getD (lastGiven field initial log) := by
  unfold lastGiven
  rw [List.reverse_append, List.reverse_singleton, List.singleton_append, List.findSome?_cons]
  cases field call with
  | none => rfl
  | some value => rfl

structure Given where
  name : Option String
  providerType : Option String
  baseUrl : Option String
  apiKeyCiphertext : Option String
  capabilitiesJson : Option (Option String)
  modelsJson : Option (Option String)

def given (call : UpdateCall env) : Given where
  name := call.input.name.map Str.trim
  providerType := call.input.providerType.map Str.trim
  baseUrl := call.input.baseUrl.map Str.trim
  apiKeyCiphertext := call.input.apiKey.bind (fun key => (env.cipher.encrypt call.nonce key).toOption)
  capabilitiesJson := call.input.capabilities.bind (fun capabilities =>
    (storedCapabilities env capabilities).toOption.map some)
  modelsJson := call.input.models.bind (fun models => (normalizeModels models).toOption.map (modelsJson env.serde))

/-- Each column has the value of the last committed update that contained it. -/
structure NoLostUpdate (calls : ι → UpdateCall env) (initial : ProviderConfig) (log : List ι) (row : ProviderConfig) :
    Prop where
  name : row.name = lastGiven (fun call => (given (calls call)).name) initial.name log
  providerType : row.providerType = lastGiven (fun call => (given (calls call)).providerType) initial.providerType log
  baseUrl : row.baseUrl = lastGiven (fun call => (given (calls call)).baseUrl) initial.baseUrl log
  apiKey : row.apiKeyCiphertext =
    lastGiven (fun call => (given (calls call)).apiKeyCiphertext) initial.apiKeyCiphertext log
  capabilities : row.capabilitiesJson =
    lastGiven (fun call => (given (calls call)).capabilitiesJson) initial.capabilitiesJson log
  models : row.modelsJson = lastGiven (fun call => (given (calls call)).modelsJson) initial.modelsJson log

/-- The key, the capabilities and the models that a request omits are those of the row it has read. -/
structure Fresh (call : UpdateCall env) (existing row : ProviderConfig) : Prop where
  apiKey : call.input.apiKey = none → existing.apiKeyCiphertext = row.apiKeyCiphertext
  capabilities : call.input.capabilities = none → existing.capabilitiesJson = row.capabilitiesJson
  models : call.input.models = none → existing.modelsJson = row.modelsJson

def FreshCommit (calls : ι → UpdateCall env) (s : RowState ι) : RowAction ι → Prop
  | .commit call => ∀ existing changes, s.stage call = .written existing changes → Fresh (calls call) existing s.row
  | _ => True

end property

section steps

variable {env : StorageEnv} {ι : Type} {catalog : Option ProviderCatalog} {calls : ι → UpdateCall env}

theorem elim_column {α β : Type} {value : Option α} {f : α → Except StorageError β} {existing column : β}
    (h : value.elim (.ok existing) f = .ok column) :
    column = (value.bind (fun a => (f a).toOption)).getD existing ∧
      (value.bind (fun a => (f a).toOption) = none ↔ value = none) := by
  cases value with
  | none => exact ⟨(Except.ok.inj h).symm, by simp⟩
  | some a =>
    rw [Option.elim_some] at h
    rw [Option.bind_some, h]
    exact ⟨rfl, by simp [Except.toOption]⟩

theorem normalizeModels_of_resolve {providerType : String} {models resolved : List String}
    (h : resolveProviderModels catalog providerType models = .ok resolved) : normalizeModels models = .ok resolved := by
  obtain ⟨normalized, hnormal, h⟩ := bind_ok h
  obtain ⟨_, -, h⟩ := bind_ok h
  rw [hnormal, ← Except.ok.inj h]

theorem providerChanges_columns {call : UpdateCall env} {existing : ProviderConfig} {changes : ProviderChanges}
    (h : providerChanges catalog call.nonce call.input existing = .ok changes) :
    (changes.name = (given call).name ∧ changes.providerType = (given call).providerType ∧
      changes.baseUrl = (given call).baseUrl) ∧
    (changes.apiKeyCiphertext = (given call).apiKeyCiphertext.getD existing.apiKeyCiphertext ∧
      ((given call).apiKeyCiphertext = none ↔ call.input.apiKey = none)) ∧
    (changes.capabilitiesJson = (given call).capabilitiesJson.getD existing.capabilitiesJson ∧
      ((given call).capabilitiesJson = none ↔ call.input.capabilities = none)) ∧
    changes.modelsJson = (given call).modelsJson.getD existing.modelsJson ∧
      ((given call).modelsJson = none ↔ call.input.models = none) := by
  obtain ⟨_, -, h⟩ := bind_ok h
  obtain ⟨models, hmodels, h⟩ := bind_ok h
  obtain ⟨capabilities, hcapabilities, h⟩ := bind_ok h
  obtain ⟨ciphertext, hciphertext, h⟩ := bind_ok h
  obtain rfl := Except.ok.inj h
  refine ⟨⟨rfl, rfl, rfl⟩, elim_column hciphertext, ?_, ?_⟩
  · have hcolumn := elim_column hcapabilities
    simp only [toOption_map] at hcolumn
    exact hcolumn
  · have hcolumn := elim_column hmodels
    unfold given
    cases hgiven : call.input.models with
    | none =>
      rw [hgiven] at hcolumn
      exact hcolumn
    | some input =>
      rw [hgiven] at hmodels
      obtain ⟨resolved, hresolved, rfl⟩ := map_ok hmodels
      rw [Option.bind_some, normalizeModels_of_resolve hresolved]
      exact ⟨rfl, by simp [Except.toOption]⟩

theorem noLostUpdate_commit {initial row existing : ProviderConfig} {log : List ι} {call : ι} {changes : ProviderChanges}
    (h : NoLostUpdate calls initial log row)
    (hchanges : providerChanges catalog (calls call).nonce (calls call).input existing = .ok changes) :
    NoLostUpdate calls initial (log ++ [call]) (changes.apply row) ↔ Fresh (calls call) existing row := by
  obtain ⟨⟨hname, htype, hurl⟩, ⟨hkey, hkeyNone⟩, ⟨hcapabilities, hcapabilitiesNone⟩, hmodels, hmodelsNone⟩ :=
    providerChanges_columns hchanges
  constructor
  · intro hnext
    have hnextKey := hnext.apiKey
    have hnextCapabilities := hnext.capabilities
    have hnextModels := hnext.models
    rw [lastGiven_append, ← h.apiKey] at hnextKey
    rw [lastGiven_append, ← h.capabilities] at hnextCapabilities
    rw [lastGiven_append, ← h.models] at hnextModels
    constructor
    · intro hnone
      change changes.apiKeyCiphertext = _ at hnextKey
      rwa [hkey, hkeyNone.mpr hnone] at hnextKey
    · intro hnone
      change changes.capabilitiesJson = _ at hnextCapabilities
      rwa [hcapabilities, hcapabilitiesNone.mpr hnone] at hnextCapabilities
    · intro hnone
      change changes.modelsJson = _ at hnextModels
      rwa [hmodels, hmodelsNone.mpr hnone] at hnextModels
  · intro hfresh
    have hcolumn {α : Type} {value : Option α} {old current : α} (hsame : value = none → old = current) :
        value.getD old = value.getD current := by
      cases value with
      | none => exact hsame rfl
      | some a => rfl
    constructor
    case name => rw [lastGiven_append, ← h.name, ← hname]; rfl
    case providerType => rw [lastGiven_append, ← h.providerType, ← htype]; rfl
    case baseUrl => rw [lastGiven_append, ← h.baseUrl, ← hurl]; rfl
    case apiKey =>
      rw [lastGiven_append, ← h.apiKey]
      exact hkey.trans (hcolumn (fun hnone => hfresh.apiKey (hkeyNone.mp hnone)))
    case capabilities =>
      rw [lastGiven_append, ← h.capabilities]
      exact hcapabilities.trans (hcolumn (fun hnone => hfresh.capabilities (hcapabilitiesNone.mp hnone)))
    case models =>
      rw [lastGiven_append, ← h.models]
      exact hmodels.trans (hcolumn (fun hnone => hfresh.models (hmodelsNone.mp hnone)))

structure Computed (catalog : Option ProviderCatalog) (calls : ι → UpdateCall env) (s : RowState ι) : Prop where
  changes : ∀ call existing changes, s.stage call = .read existing changes ∨ s.stage call = .written existing changes →
    providerChanges catalog (calls call).nonce (calls call).input existing = .ok changes
  locked : ∀ call version, s.locked = some (call, version) →
    ∃ existing changes, s.stage call = .written existing changes ∧ version = changes.apply s.row

variable [DecidableEq ι]

theorem RowState.set_self (s : RowState ι) (call : ι) (stage : CallStage) : s.set call stage call = stage :=
  if_pos rfl

theorem RowState.set_of_ne (s : RowState ι) {call other : ι} (stage : CallStage) (h : other ≠ call) :
    s.set call stage other = s.stage other := if_neg h

theorem RowStep.cases {s s' : RowState ι} {action : RowAction ι} (h : RowStep catalog calls s action s') :
    (∃ call, action = .read call ∧ s.stage call = .waiting ∧
      s' = { s with stage := s.set call (readStage catalog (calls call) s.row) }) ∨
    (∃ call existing changes, action = .update call ∧ s.stage call = .read existing changes ∧ s' = { s with
      locked := some (call, changes.apply s.row), stage := s.set call (.written existing changes) }) ∨
    (∃ call version, action = .commit call ∧ s.locked = some (call, version) ∧
      s' = { row := version, locked := none, stage := s.set call .committed, log := s.log ++ [call] }) ∨
    ∃ call, action = .rollback call ∧ s' = { s with locked := none, stage := s.set call .failed } := by
  unfold RowStep RowState.next at h
  cases action with
  | read call =>
    dsimp only at h
    split_ifs at h with hstage
    exact .inl ⟨call, rfl, hstage, (Option.some.inj h).symm⟩
  | update call =>
    dsimp only at h
    split at h
    · next existing changes hstage _ =>
      exact .inr (.inl ⟨call, existing, changes, rfl, hstage, (Option.some.inj h).symm⟩)
    · exact nomatch h
  | commit call =>
    dsimp only at h
    split at h
    · next holder version hlock =>
      split_ifs at h with hholder
      obtain rfl := hholder
      exact .inr (.inr (.inl ⟨holder, version, rfl, hlock, (Option.some.inj h).symm⟩))
    · exact nomatch h
  | rollback call =>
    dsimp only at h
    split at h
    · split_ifs at h
      exact .inr (.inr (.inr ⟨call, rfl, (Option.some.inj h).symm⟩))
    · exact nomatch h

theorem readStage_changes {call : UpdateCall env} {row existing : ProviderConfig} {changes : ProviderChanges}
    (h : readStage catalog call row = .read existing changes ∨ readStage catalog call row = .written existing changes) :
    providerChanges catalog call.nonce call.input existing = .ok changes := by
  unfold readStage at h
  split_ifs at h
  · simp at h
  · split at h
    · next columns hcolumns =>
      simp only [CallStage.read.injEq, reduceCtorEq, or_false] at h
      obtain ⟨rfl, rfl⟩ := h
      exact hcolumns
    · simp at h

theorem Computed.set_changes {s : RowState ι} (h : Computed catalog calls s) {call : ι} {stage : CallStage}
    (hstage : ∀ existing changes, stage = .read existing changes ∨ stage = .written existing changes →
      providerChanges catalog (calls call).nonce (calls call).input existing = .ok changes)
    (other : ι) (existing : ProviderConfig) (changes : ProviderChanges)
    (hother : s.set call stage other = .read existing changes ∨ s.set call stage other = .written existing changes) :
    providerChanges catalog (calls other).nonce (calls other).input existing = .ok changes := by
  by_cases hcall : other = call
  · subst hcall
    rw [RowState.set_self] at hother
    exact hstage existing changes hother
  · rw [RowState.set_of_ne s stage hcall] at hother
    exact h.changes other existing changes hother

theorem Computed.step {s s' : RowState ι} {action : RowAction ι} (h : Computed catalog calls s)
    (hstep : RowStep catalog calls s action s') : Computed catalog calls s' := by
  obtain ⟨call, -, hstage, rfl⟩ | ⟨call, existing, changes, -, hstage, rfl⟩ | ⟨call, version, -, -, rfl⟩ |
    ⟨call, -, rfl⟩ := hstep.cases
  · constructor
    · exact h.set_changes (fun existing changes => readStage_changes)
    · intro other version hlock
      obtain ⟨existing, changes, hwritten, hversion⟩ := h.locked other version hlock
      have hne : other ≠ call := by
        rintro rfl
        rw [hstage] at hwritten
        exact nomatch hwritten
      exact ⟨existing, changes, (s.set_of_ne _ hne).trans hwritten, hversion⟩
  · constructor
    · apply h.set_changes
      intro existing' changes' heq
      simp only [reduceCtorEq, CallStage.written.injEq, false_or] at heq
      obtain ⟨rfl, rfl⟩ := heq
      exact h.changes call existing changes (.inl hstage)
    · intro other version hlock
      obtain ⟨rfl, rfl⟩ := Prod.mk.inj (Option.some.inj hlock)
      exact ⟨existing, changes, s.set_self _ _, rfl⟩
  · constructor
    · apply h.set_changes
      intro existing changes heq
      simp at heq
    · intro other version hnone
      exact nomatch hnone
  · constructor
    · apply h.set_changes
      intro existing changes heq
      simp at heq
    · intro other version hnone
      exact nomatch hnone

theorem noLostUpdate_step {initial : ProviderConfig} {s s' : RowState ι} {action : RowAction ι}
    (h : Computed catalog calls s) (hvalues : NoLostUpdate calls initial s.log s.row)
    (hstep : RowStep catalog calls s action s') :
    NoLostUpdate calls initial s'.log s'.row ↔ FreshCommit calls s action := by
  obtain ⟨call, rfl, -, rfl⟩ | ⟨call, existing, changes, rfl, -, rfl⟩ | ⟨call, version, rfl, hlock, rfl⟩ |
    ⟨call, rfl, rfl⟩ := hstep.cases
  · exact iff_of_true hvalues trivial
  · exact iff_of_true hvalues trivial
  · obtain ⟨existing, changes, hwritten, rfl⟩ := h.locked call version hlock
    rw [noLostUpdate_commit hvalues (h.changes call existing changes (.inr hwritten))]
    constructor
    · intro hfresh other columns heq
      rw [hwritten] at heq
      obtain ⟨rfl, rfl⟩ := CallStage.written.inj heq
      exact hfresh
    · intro hfresh
      exact hfresh existing changes hwritten
  · exact iff_of_true hvalues trivial

end steps

section lostUpdates

theorem no_lost_update_iff (env : StorageEnv) {ι : Type} [DecidableEq ι] (catalog : Option ProviderCatalog)
    (calls : ι → UpdateCall env) (initial : ProviderConfig) {run : List (RowAction ι × RowState ι)}
    (h : Run (RowStep catalog calls) (RowState.initial initial) run) :
    (∀ entry ∈ run, NoLostUpdate calls initial entry.2.log entry.2.row) ↔
      Along (FreshCommit calls) (RowState.initial initial) run := by
  refine @Run.forall_iff _ _ _ (Computed catalog calls) (fun s => NoLostUpdate calls initial s.log s.row) _ _ _ h
    ?_ ?_ ?_ ?_
  · constructor
    · intro call existing changes hstage
      simp [RowState.initial] at hstage
    · intro call version hlock
      exact nomatch hlock
  · exact ⟨rfl, rfl, rfl, rfl, rfl, rfl⟩
  · intro s action s' hcomputed hstep
    exact hcomputed.step hstep
  · intro s action s' hcomputed hvalues hstep
    exact noLostUpdate_step hcomputed hvalues hstep

def keyAndName : Bool → UpdateCall plainEnv.toStorageEnv
  | true => ⟨"owner", 1, { apiKey := some "new" }⟩
  | false => ⟨"owner", 2, { name := some "Kimi 2" }⟩

def storedRow : ProviderConfig := kimiRow (some "[\"k2\"]")

def staleActions : List (RowAction Bool) :=
  [.read true, .read false, .update true, .commit true, .update false, .commit false]

def serialActions : List (RowAction Bool) :=
  [.read true, .update true, .commit true, .read false, .update false, .commit false]

def runOf (actions : List (RowAction Bool)) : List (RowAction Bool × RowState Bool) :=
  (follow (fun s => s.next (some smallCatalog) keyAndName) (RowState.initial storedRow) actions).getD []

theorem serial_run : Run (RowStep (some smallCatalog) keyAndName) (RowState.initial storedRow) (runOf serialActions) :=
  @follow_run _ _ _ _ serialActions _ rfl

theorem stale_run : Run (RowStep (some smallCatalog) keyAndName) (RowState.initial storedRow) (runOf staleActions) :=
  @follow_run _ _ _ _ staleActions _ rfl

theorem no_lost_update_serial : (runOf serialActions).length = 6 ∧
    ∀ entry ∈ runOf serialActions, NoLostUpdate keyAndName storedRow entry.2.log entry.2.row := by
  refine ⟨rfl, (no_lost_update_iff _ (some smallCatalog) keyAndName storedRow serial_run).mpr ?_⟩
  refine ⟨trivial, trivial, ?_, trivial, trivial, ?_, trivial⟩
  · intro existing changes hwritten
    obtain ⟨rfl, -⟩ := CallStage.written.inj hwritten
    exact ⟨fun _ => rfl, fun _ => rfl, fun _ => rfl⟩
  · intro existing changes hwritten
    obtain ⟨rfl, -⟩ := CallStage.written.inj hwritten
    exact ⟨fun _ => rfl, fun _ => rfl, fun _ => rfl⟩

/-- The rename writes back the key that it has read before the key was replaced. -/
theorem no_lost_update_not :
    Run (RowStep (some smallCatalog) keyAndName) (RowState.initial storedRow) (runOf staleActions) ∧
      ∃ entry ∈ runOf staleActions, (∀ call, entry.2.stage call = .committed ∨ entry.2.stage call = .failed) ∧
        ¬NoLostUpdate keyAndName storedRow entry.2.log entry.2.row := by
  refine ⟨stale_run, _, List.getLast_mem (show runOf staleActions ≠ [] from List.cons_ne_nil _ _), by decide, ?_⟩
  intro hlast
  exact absurd hlast.apiKey (by decide)

end lostUpdates

end Prelay.Store
