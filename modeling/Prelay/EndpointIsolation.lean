import Prelay.EndpointConcurrency
import Prelay.ProviderRestart

namespace Prelay.Store

open Json Bridge Relational Transactions Runs

section property

def candidateList (db : Database) (endpointId : String) : List NormalizedModel :=
  ((db.models.filter (fun row => row.endpointId = endpointId)).mergeSort candidateBefore).map
    (fun row => ⟨row.providerId, row.upstreamModel, row.modelName⟩)

def UniqueNames (identityId : String) (db : Database) : Prop :=
  ((db.endpoints.filter (fun row => row.identityId = identityId)).map EndpointConfig.name).Nodup

instance (identityId : String) (db : Database) : Decidable (UniqueNames identityId db) :=
  inferInstanceAs (Decidable (List.Nodup _))

variable {ι : Type} (serde : SerdeJson) (catalog : Option ProviderCatalog) (identityId : String)
  (calls : ι → EndpointCall) (start : Database)

/-- The models of an endpoint are those of one committed request, or of the database before the calls. -/
def OneRequest (s : EndpointState ι) (endpointId : String) : Prop :=
  ((∃ row ∈ start.endpoints, row.id = endpointId) ∧ candidateList s.db endpointId = candidateList start endpointId) ∨
    ∃ call, s.stage call = .committed ∧ (calls call).endpointId = endpointId ∧
      (calls call).resolve serde catalog identityId start = .ok (some (candidateList s.db endpointId))

def EndpointStage.Checked : EndpointStage → Prop
  | .waiting | .begun _ | .committed | .failed => False
  | .checked | .resolved _ | .written _ | .deletingRoutes _ _ | .deletingModels _ _ | .inserting _ => True

def EndpointStage.Replacing : EndpointStage → Prop
  | .waiting | .begun _ | .checked | .resolved _ | .written _ | .deletingRoutes _ _ | .committed | .failed => False
  | .deletingModels _ _ | .inserting _ => True

/-- At a name check no other open transaction is about to write the name for another endpoint, and when a call begins to
delete the mappings of its endpoint no other open transaction has begun to replace them. -/
def Undisturbed (s : EndpointState ι) : EndpointAction ι → Prop
  | .rollback _ => True
  | .statement call =>
    match s.stage call with
    | .begun _ => ∀ other ≠ call, (s.stage other).Checked → (calls other).writtenName = (calls call).writtenName →
        (calls call).writtenName = none ∨ (calls other).endpointId = (calls call).endpointId
    | .deletingRoutes [] _ => ∀ other ≠ call, (s.stage other).Replacing →
        (calls other).endpointId ≠ (calls call).endpointId
    | _ => True

end property

section tracked

variable {ι : Type} (serde : SerdeJson) (catalog : Option ProviderCatalog) (identityId : String)
  (calls : ι → EndpointCall) (start : Database)

inductive EndpointWrites (call : EndpointCall) : Writes EndpointConfig → Prop
  | none : EndpointWrites call {}
  | created (row : EndpointConfig) (hid : row.id = call.endpointId) (hidentity : row.identityId = identityId)
      (hname : call.writtenName = some row.name) : EndpointWrites call ⟨[], [row]⟩
  | updated (row version : EndpointConfig) (hid : row.id = call.endpointId)
      (hversion : version.id = row.id ∧ version.identityId = row.identityId)
      (hname : version.name = call.writtenName.getD row.name) : EndpointWrites call ⟨[row], [version]⟩

def StageOk (call : EndpointCall) (endpoints : Writes EndpointConfig) (models : Writes EndpointModel) :
    EndpointStage → Prop
  | .waiting | .checked | .committed | .failed => endpoints = {} ∧ models = {}
  | .begun name => endpoints = {} ∧ models = {} ∧ ∀ written ∈ call.writtenName, written = name
  | .resolved list => endpoints = {} ∧ models = {} ∧ call.resolve serde catalog identityId start = .ok list
  | .written list => EndpointWrites identityId call endpoints ∧ models = {} ∧ call.IsUpdate ∧
      call.resolve serde catalog identityId start = .ok list
  | .deletingRoutes _ list => EndpointWrites identityId call endpoints ∧ models = {} ∧ call.IsUpdate ∧
      call.resolve serde catalog identityId start = .ok (some list)
  | .deletingModels rest list => EndpointWrites identityId call endpoints ∧
      (models.inserted = [] ∧ ∀ row ∈ models.deleted ++ rest, row.endpointId = call.endpointId) ∧ call.IsUpdate ∧
      call.resolve serde catalog identityId start = .ok (some list)
  | .inserting rest => EndpointWrites identityId call endpoints ∧
      (∀ row ∈ models.deleted, row.endpointId = call.endpointId) ∧
      (call.IsUpdate ∨ ∃ row ∈ endpoints.inserted, row.id = call.endpointId) ∧
      ∃ list, call.resolve serde catalog identityId start = .ok (some list) ∧
        models.inserted ++ rest = call.mappings list

structure TrackedCalls (s : EndpointState ι) : Prop where
  fixed : s.fixed = start
  exclusive : s.endpoints.Exclusive EndpointConfig.id
  parents : modelEndpoint.Holds s.models.rows s.endpoints.rows
  stages : ∀ call, StageOk serde catalog identityId start (calls call) (s.endpoints.writes call) (s.models.writes call)
    (s.stage call)
  targets : ∀ call, (calls call).IsUpdate → s.stage call ≠ .waiting → s.stage call ≠ .failed →
    ∃ row ∈ s.endpoints.rows, row.id = (calls call).endpointId

structure OwnChange (s : EndpointState ι) (call : ι) (s' : EndpointState ι) : Prop where
  fixed : s'.fixed = s.fixed
  endpoints : s'.endpoints.rows = s.endpoints.rows
  models : s'.models.rows = s.models.rows
  endpointWrites : ∀ other ≠ call, s'.endpoints.writes other = s.endpoints.writes other
  modelWrites : ∀ other ≠ call, s'.models.writes other = s.models.writes other
  stage : ∀ other ≠ call, s'.stage other = s.stage other

variable {serde catalog identityId calls start} {s s' : EndpointState ι} {call : ι}

theorem TrackedCalls.own (h : TrackedCalls serde catalog identityId calls start s) (hown : OwnChange s call s')
    (hexclusive : s'.endpoints.Exclusive EndpointConfig.id)
    (hstage : StageOk serde catalog identityId start (calls call) (s'.endpoints.writes call) (s'.models.writes call)
      (s'.stage call))
    (htarget : (calls call).IsUpdate → s'.stage call ≠ .failed → ∃ row ∈ s.endpoints.rows,
      row.id = (calls call).endpointId) : TrackedCalls serde catalog identityId calls start s' := by
  constructor
  · rw [hown.fixed, h.fixed]
  · exact hexclusive
  · rw [hown.models, hown.endpoints]
    exact h.parents
  · intro other
    by_cases hother : other = call
    · rw [hother]
      exact hstage
    · rw [hown.endpointWrites other hother, hown.modelWrites other hother, hown.stage other hother]
      exact h.stages other
  · intro other hupdate hwaiting hfailed
    rw [hown.endpoints]
    by_cases hother : other = call
    · subst hother
      exact htarget hupdate hfailed
    · rw [hown.stage other hother] at hwaiting hfailed
      exact h.targets other hupdate hwaiting hfailed

theorem resolve_db (call : EndpointCall) (s : EndpointState ι) :
    call.resolve serde catalog identityId s.db = call.resolve serde catalog identityId s.fixed := rfl

theorem EndpointWrites.view_id {t : Table ι EndpointConfig} (h : EndpointWrites identityId (calls call) (t.writes call))
    {row : EndpointConfig} (hrow : row ∈ t.rows) : ∃ other ∈ t.view call, other.id = row.id := by
  generalize hwrites : t.writes call = writes at h
  cases h with
  | none => exact ⟨row, Table.view_of_clean hwrites ▸ hrow, rfl⟩
  | created new =>
    refine ⟨row, Table.mem_view.mpr (.inl ⟨hrow, ?_⟩), rfl⟩
    rw [hwrites]
    exact List.not_mem_nil
  | updated old version _ hversion =>
    by_cases hold : row = old
    · refine ⟨version, Table.mem_view.mpr (.inr ?_), hold ▸ hversion.1⟩
      rw [hwrites]
      exact List.mem_singleton_self _
    · refine ⟨row, Table.mem_view.mpr (.inl ⟨hrow, ?_⟩), rfl⟩
      rw [hwrites]
      exact fun hmem => hold (List.mem_singleton.mp hmem)

variable [DecidableEq ι]

theorem EndpointState.enter_stage (s : EndpointState ι) (call : ι) (stage : EndpointStage) :
    (s.enter call stage).stage call = stage := Function.update_self _ _ _

theorem EndpointState.enter_stage_of_ne (s : EndpointState ι) {call other : ι} (stage : EndpointStage)
    (h : other ≠ call) : (s.enter call stage).stage other = s.stage other := Function.update_of_ne h _ _

theorem OwnChange.enter (s : EndpointState ι) (call : ι) (stage : EndpointStage) :
    OwnChange s call (s.enter call stage) :=
  ⟨rfl, rfl, rfl, fun _ _ => rfl, fun _ _ => rfl, fun _ hother => s.enter_stage_of_ne stage hother⟩

theorem OwnChange.fail (s : EndpointState ι) (call : ι) : OwnChange s call (s.fail call) where
  fixed := rfl
  endpoints := rfl
  models := rfl
  endpointWrites := fun _ hother => Table.set_of_ne _ _ hother
  modelWrites := fun _ hother => Table.set_of_ne _ _ hother
  stage := fun _ hother => s.enter_stage_of_ne _ hother

theorem OwnChange.routes_enter (s : EndpointState ι) (call : ι) (stage : EndpointStage)
    (routes : Table ι EndpointModelRoute) : OwnChange s call { s.enter call stage with routes := routes } :=
  ⟨rfl, rfl, rfl, fun _ _ => rfl, fun _ _ => rfl, fun _ hother => s.enter_stage_of_ne stage hother⟩

theorem OwnChange.endpoints_enter {stage : EndpointStage} {endpoints : Table ι EndpointConfig}
    (hrows : endpoints.rows = s.endpoints.rows)
    (hwrites : ∀ other ≠ call, endpoints.writes other = s.endpoints.writes other) :
    OwnChange s call { s.enter call stage with endpoints := endpoints } :=
  ⟨rfl, hrows, rfl, hwrites, fun _ _ => rfl, fun _ hother => s.enter_stage_of_ne stage hother⟩

theorem OwnChange.models_enter {stage : EndpointStage} {models : Table ι EndpointModel}
    (hrows : models.rows = s.models.rows)
    (hwrites : ∀ other ≠ call, models.writes other = s.models.writes other) :
    OwnChange s call { s.enter call stage with models := models } :=
  ⟨rfl, rfl, hrows, fun _ _ => rfl, hwrites, fun _ hother => s.enter_stage_of_ne stage hother⟩

theorem TrackedCalls.enter (h : TrackedCalls serde catalog identityId calls start s) {stage : EndpointStage}
    (hstage : StageOk serde catalog identityId start (calls call) (s.endpoints.writes call) (s.models.writes call) stage)
    (htarget : (calls call).IsUpdate → ∃ row ∈ s.endpoints.rows, row.id = (calls call).endpointId) :
    TrackedCalls serde catalog identityId calls start (s.enter call stage) := by
  refine h.own (OwnChange.enter s call stage) h.exclusive ?_ (fun hupdate _ => htarget hupdate)
  rw [EndpointState.enter_stage]
  exact hstage

theorem TrackedCalls.fail (h : TrackedCalls serde catalog identityId calls start s) (call : ι) :
    TrackedCalls serde catalog identityId calls start (s.fail call) := by
  refine h.own (OwnChange.fail s call) (h.exclusive.rollback call) ?_ (fun _ hfailed => ?_)
  · have hfailed : (s.fail call).stage call = .failed := Function.update_self _ _ _
    rw [hfailed]
    exact ⟨Table.set_self _ _, Table.set_self _ _⟩
  · exact absurd (Function.update_self _ _ _) hfailed

theorem EndpointCall.begin_ok {call : EndpointCall} {db : Database} {name : String}
    (h : call.begin identityId db = .ok name) :
    (∀ written ∈ call.writtenName, written = name) ∧
      (call.IsUpdate → ∃ row ∈ db.endpoints, row.id = call.endpointId) := by
  unfold EndpointCall.begin at h
  cases hrequest : call.request with
  | create token input =>
    rw [hrequest] at h
    dsimp only at h
    split_ifs at h
    refine ⟨?_, fun hupdate => ?_⟩
    · intro written hwritten
      simp only [EndpointCall.writtenName, hrequest, Option.mem_some_iff] at hwritten
      exact hwritten.symm.trans (Except.ok.inj h)
    · obtain ⟨input, hupdate⟩ := EndpointCall.isUpdate_iff.mp hupdate
      rw [hrequest] at hupdate
      cases hupdate
  | update input =>
    rw [hrequest] at h
    obtain ⟨row, hrow, h⟩ := bind_ok h
    obtain ⟨_, -, h⟩ := bind_ok h
    refine ⟨?_, fun _ => ?_⟩
    · intro written hwritten
      simp only [EndpointCall.writtenName, hrequest] at hwritten
      rw [← Except.ok.inj h, hwritten, Option.getD_some]
    · have hfind := okOr_ok hrow
      refine ⟨row, List.mem_of_find?_eq_some hfind, ?_⟩
      have hid := List.find?_some hfind
      exact (of_decide_eq_true hid).1

theorem EndpointCall.resolve_create {call : EndpointCall} {db : Database} {models : Option (List NormalizedModel)}
    (hcreate : call.currentEndpointId = none) (h : call.resolve serde catalog identityId db = .ok models) :
    ∃ list, models = some list := by
  unfold EndpointCall.resolve at h
  cases hrequest : call.request with
  | create token input =>
    rw [hrequest] at h
    obtain ⟨_, -, h⟩ := bind_ok h
    obtain ⟨list, -, h⟩ := bind_ok h
    exact ⟨list, (Except.ok.inj h).symm⟩
  | update input =>
    rw [EndpointCall.currentEndpointId, hrequest] at hcreate
    cases hcreate

theorem EndpointWrites.of_stage {call : EndpointCall} {endpoints : Writes EndpointConfig} {models : Writes EndpointModel}
    {stage : EndpointStage} (h : StageOk serde catalog identityId start call endpoints models stage) :
    EndpointWrites identityId call endpoints := by
  cases stage with
  | written list => exact h.1
  | deletingRoutes rest list => exact h.1
  | deletingModels rest list => exact h.1
  | inserting rest => exact h.1
  | _ =>
    rw [h.1]
    exact .none

theorem StageOk.inserted {call : EndpointCall} {endpoints : Writes EndpointConfig} {models : Writes EndpointModel}
    {stage : EndpointStage} (h : StageOk serde catalog identityId start call endpoints models stage)
    {row : EndpointModel} (hrow : row ∈ models.inserted) : stage.Replacing ∧ row.endpointId = call.endpointId := by
  cases stage with
  | inserting rest =>
    obtain ⟨-, -, -, list, -, hrows⟩ := h
    have hmem : row ∈ call.mappings list := hrows ▸ List.mem_append_left rest hrow
    obtain ⟨index, -, rfl⟩ := List.mem_mapIdx.mp hmem
    exact ⟨trivial, rfl⟩
  | deletingModels rest list =>
    rw [h.2.1.1] at hrow
    exact nomatch hrow
  | written list | deletingRoutes rest list =>
    rw [h.2.1] at hrow
    exact nomatch hrow
  | begun name | resolved list =>
    rw [h.2.1] at hrow
    exact nomatch hrow
  | _ =>
    rw [h.2] at hrow
    exact nomatch hrow

theorem StageOk.deleted {call : EndpointCall} {endpoints : Writes EndpointConfig} {models : Writes EndpointModel}
    {stage : EndpointStage} (h : StageOk serde catalog identityId start call endpoints models stage)
    {row : EndpointModel} (hrow : row ∈ models.deleted) : row.endpointId = call.endpointId := by
  cases stage with
  | inserting rest => exact h.2.1 row hrow
  | deletingModels rest list => exact h.2.1.2 row (List.mem_append_left rest hrow)
  | written list | deletingRoutes rest list =>
    rw [h.2.1] at hrow
    exact nomatch hrow
  | begun name | resolved list =>
    rw [h.2.1] at hrow
    exact nomatch hrow
  | _ =>
    rw [h.2] at hrow
    exact nomatch hrow

theorem TrackedCalls.commit (h : TrackedCalls serde catalog identityId calls start s)
    (hstage : s.stage call = .written none ∨ s.stage call = .inserting []) :
    TrackedCalls serde catalog identityId calls start (s.commit call) := by
  have hwrites := EndpointWrites.of_stage (h.stages call)
  have hself : (s.commit call).stage call = .committed := Function.update_self _ _ _
  have htarget (hupdate : (calls call).IsUpdate) : ∃ row ∈ s.endpoints.rows, row.id = (calls call).endpointId := by
    cases hstage with
    | inl hwritten => exact h.targets call hupdate (hwritten ▸ nofun) (hwritten ▸ nofun)
    | inr hinserting => exact h.targets call hupdate (hinserting ▸ nofun) (hinserting ▸ nofun)
  constructor
  · exact h.fixed
  · exact h.exclusive.commit call
  · -- A new mapping refers to the endpoint of the call, which is there or is added with it.
    intro row hrow
    cases Table.mem_view.mp hrow with
    | inl hold =>
      obtain ⟨parent, hparent, hid⟩ := h.parents row hold.1
      obtain ⟨version, hversion, hsame⟩ := hwrites.view_id hparent
      exact ⟨version, hversion, hsame.trans hid⟩
    | inr hnew =>
      have hid := ((h.stages call).inserted hnew).2
      have hparent (hupdate : (calls call).IsUpdate) : modelEndpoint.HasParent (s.endpoints.view call) row := by
        obtain ⟨parent, hparent, hparentId⟩ := htarget hupdate
        obtain ⟨version, hversion, hsame⟩ := hwrites.view_id hparent
        exact ⟨version, hversion, (hsame.trans hparentId).trans hid.symm⟩
      have hok := h.stages call
      cases hstage with
      | inl hwritten =>
        rw [hwritten] at hok
        exact hparent hok.2.2.1
      | inr hinserting =>
        rw [hinserting] at hok
        obtain hupdate | ⟨added, hadded, haddedId⟩ := hok.2.2.1
        · exact hparent hupdate
        · exact ⟨added, Table.mem_view.mpr (.inr hadded), haddedId.trans hid.symm⟩
  · intro other
    by_cases hother : other = call
    · subst hother
      rw [hself]
      exact ⟨Table.commit_self _, Table.commit_self _⟩
    · have hstageOther : (s.commit call).stage other = s.stage other := Function.update_of_ne hother _ _
      have hendpoints : (s.commit call).endpoints.writes other = s.endpoints.writes other := Table.commit_of_ne _ hother
      have hmodels : (s.commit call).models.writes other = s.models.writes other := Table.commit_of_ne _ hother
      rw [hstageOther, hendpoints, hmodels]
      exact h.stages other
  · intro other hupdate hwaiting hfailed
    have hold : ∃ row ∈ s.endpoints.rows, row.id = (calls other).endpointId := by
      by_cases hother : other = call
      · subst hother
        exact htarget hupdate
      · have hstageOther : (s.commit call).stage other = s.stage other := Function.update_of_ne hother _ _
        rw [hstageOther] at hwaiting hfailed
        exact h.targets other hupdate hwaiting hfailed
    obtain ⟨row, hrow, hid⟩ := hold
    obtain ⟨version, hversion, hsame⟩ := hwrites.view_id hrow
    exact ⟨version, hversion, hsame.trans hid⟩

variable [Fintype ι]

theorem TrackedCalls.move (h : TrackedCalls serde catalog identityId calls start s)
    (hmove : EndpointMove serde catalog identityId calls s call s') :
    TrackedCalls serde catalog identityId calls start s' := by
  have hok := h.stages call
  have htarget (hwaiting : s.stage call ≠ .waiting) (hfailed : s.stage call ≠ .failed)
      (hupdate : (calls call).IsUpdate) := h.targets call hupdate hwaiting hfailed
  cases hmove with
  | fail => exact h.fail call
  | begin hstage hbegin =>
    rw [hstage] at hok
    obtain ⟨hwritten, htarget⟩ := EndpointCall.begin_ok hbegin
    exact h.enter ⟨hok.1, hok.2, hwritten⟩ htarget
  | check hstage =>
    rw [hstage] at hok htarget
    exact h.enter ⟨hok.1, hok.2.1⟩ (htarget (by simp) (by simp))
  | resolve hstage hmodels =>
    rw [hstage] at hok htarget
    rw [resolve_db, h.fixed] at hmodels
    exact h.enter ⟨hok.1, hok.2, hmodels⟩ (htarget (by simp) (by simp))
  | insertEndpoint row hstage hcreate hid hidentity hname hnew hfree =>
    rw [hstage] at hok htarget
    obtain ⟨hclean, hmodels, hresolve⟩ := hok
    obtain ⟨list, rfl⟩ := EndpointCall.resolve_create hcreate hresolve
    refine h.own (OwnChange.endpoints_enter rfl (fun _ hother => Table.set_of_ne _ _ hother)) ?_ ?_
      (fun hupdate _ => htarget (by simp) (by simp) hupdate)
    · apply h.exclusive.insert hnew
      intro other hother added hadded heq
      exact hfree ⟨other, hother, added, List.mem_append_left _ hadded, heq⟩
    · dsimp only
      rw [EndpointState.enter_stage, Table.insert, Table.set_self, hclean]
      refine ⟨.created row hid hidentity hname, ?_, .inr ⟨row, List.mem_singleton_self _, hid⟩, list, hresolve, ?_⟩
      · change ∀ row ∈ (s.models.writes call).deleted, _
        rw [hmodels]
        simp
      · change (s.models.writes call).inserted ++ _ = _
        rw [hmodels]
        rfl
  | skipEndpoint hstage hupdate =>
    rw [hstage] at hok htarget
    obtain ⟨hclean, hmodels, hresolve⟩ := hok
    refine h.enter ⟨?_, hmodels, hupdate, hresolve⟩ (htarget (by simp) (by simp))
    rw [hclean]
    exact .none
  | updateEndpoint row version hstage hupdate hrow hid hfree hversion hname =>
    rw [hstage] at hok htarget
    obtain ⟨hclean, hmodels, hresolve⟩ := hok
    refine h.own (OwnChange.endpoints_enter rfl (fun other hother => ?_)) ?_ ?_
      (fun hupdate _ => htarget (by simp) (by simp) hupdate)
    · rw [Table.insert, Table.set_of_ne _ _ hother, Table.delete, Table.set_of_ne _ _ hother]
    · exact h.exclusive.update hrow hfree hversion.1 (by simp [hclean])
    · dsimp only
      rw [EndpointState.enter_stage, Table.insert, Table.set_self, Table.delete, Table.set_self, hclean]
      exact ⟨.updated row version hid hversion hname, hmodels, hupdate, hresolve⟩
  | selectRoutes rest hstage =>
    rw [hstage] at hok htarget
    exact h.enter hok (htarget (by simp) (by simp))
  | deleteRoute routes hstage =>
    rw [hstage] at hok htarget
    refine h.own (OwnChange.routes_enter s call _ routes) h.exclusive ?_
      (fun hupdate _ => htarget (by simp) (by simp) hupdate)
    dsimp only
    rw [EndpointState.enter_stage]
    exact hok
  | selectModels hstage =>
    rw [hstage] at hok htarget
    obtain ⟨hwrites, hmodels, hupdate, hresolve⟩ := hok
    refine h.enter ⟨hwrites, ?_, hupdate, hresolve⟩ (htarget (by simp) (by simp))
    rw [hmodels]
    refine ⟨rfl, fun row hrow => ?_⟩
    exact of_decide_eq_true (List.mem_filter.mp hrow).2
  | deleteModel hstage hrow =>
    rw [hstage] at hok htarget
    obtain ⟨hwrites, ⟨hinserted, hdeleted⟩, hupdate, hresolve⟩ := hok
    obtain ⟨-, ⟨-, rfl⟩ | ⟨-, rfl⟩⟩ := Table.deleteNext_some hrow
    · refine h.own (OwnChange.models_enter rfl (fun _ hother => Table.set_of_ne _ _ hother)) h.exclusive ?_
        (fun hupdate _ => htarget (by simp) (by simp) hupdate)
      dsimp only
      rw [EndpointState.enter_stage, Table.delete, Table.set_self]
      refine ⟨hwrites, ⟨hinserted, fun other hother => hdeleted other ?_⟩, hupdate, hresolve⟩
      exact List.perm_middle.symm.subset hother
    · refine h.own (OwnChange.models_enter rfl (fun _ _ => rfl)) h.exclusive ?_
        (fun hupdate _ => htarget (by simp) (by simp) hupdate)
      dsimp only
      rw [EndpointState.enter_stage]
      refine ⟨hwrites, ⟨hinserted, fun other hother => hdeleted other ?_⟩, hupdate, hresolve⟩
      exact List.mem_append.mpr ((List.mem_append.mp hother).imp_right (List.mem_cons_of_mem _))
  | startInserting hstage =>
    rw [hstage] at hok htarget
    obtain ⟨hwrites, ⟨hinserted, hdeleted⟩, hupdate, hresolve⟩ := hok
    refine h.enter ⟨hwrites, fun row hrow => hdeleted row (List.mem_append_left _ hrow), .inl hupdate, _, hresolve, ?_⟩
      (htarget (by simp) (by simp))
    rw [hinserted, List.nil_append]
  | insertModel hstage =>
    rw [hstage] at hok htarget
    obtain ⟨hwrites, hdeleted, horigin, list, hresolve, hrows⟩ := hok
    refine h.own (OwnChange.models_enter rfl (fun _ hother => Table.set_of_ne _ _ hother)) h.exclusive ?_
      (fun hupdate _ => htarget (by simp) (by simp) hupdate)
    dsimp only
    rw [EndpointState.enter_stage, Table.insert, Table.set_self]
    refine ⟨hwrites, hdeleted, horigin, list, hresolve, ?_⟩
    rw [List.append_assoc]
    exact hrows
  | commit hstage => exact h.commit hstage

end tracked

section apart

variable {ι : Type} (serde : SerdeJson) (catalog : Option ProviderCatalog) (identityId : String)
  (calls : ι → EndpointCall) (start : Database)

def StageCovers (models : Table ι EndpointModel) (call : ι) : EndpointStage → Prop
  | .deletingModels rest _ => models.Covers call (fun row => row.endpointId = (calls call).endpointId) rest
  | .inserting _ => models.Covers call (fun row => row.endpointId = (calls call).endpointId) []
  | .waiting | .begun _ | .checked | .resolved _ | .written _ | .deletingRoutes _ _ | .committed | .failed => True

/-- What undisturbed runs keep: open transactions that write the same name do so for the same endpoint, a name to be
written is free, no two transactions replace the mappings of one endpoint, and those that replace them remove all of
them. -/
structure Apart (s : EndpointState ι) : Prop where
  names : ∀ call other, call ≠ other → (s.stage call).Checked → (s.stage other).Checked →
    (calls call).writtenName = (calls other).writtenName → (calls call).writtenName = none ∨
      (calls call).endpointId = (calls other).endpointId
  free : ∀ call, (s.stage call).Checked → ∀ row ∈ s.endpoints.rows, row.identityId = identityId →
    (calls call).writtenName = some row.name → row.id = (calls call).endpointId
  replacing : ∀ call other, call ≠ other → (s.stage call).Replacing → (s.stage other).Replacing →
    (calls call).endpointId ≠ (calls other).endpointId
  covers : ∀ call, StageCovers calls s.models call (s.stage call)
  unique : ∀ row ∈ s.endpoints.rows, ∀ other ∈ s.endpoints.rows, row.identityId = identityId →
    other.identityId = identityId → row.name = other.name → row.id = other.id
  lists : ∀ row ∈ s.endpoints.rows, OneRequest serde catalog identityId calls start s row.id

variable {serde catalog identityId calls start} {s s' : EndpointState ι} {call : ι}

theorem OneRequest.own {endpointId : String} (h : OneRequest serde catalog identityId calls start s endpointId)
    (hown : OwnChange s call s') (hopen : s.stage call ≠ .committed) :
    OneRequest serde catalog identityId calls start s' endpointId := by
  have hlist : candidateList s'.db endpointId = candidateList s.db endpointId := by
    unfold candidateList EndpointState.db
    rw [hown.models]
  unfold OneRequest
  rw [hlist]
  refine h.imp_right ?_
  rintro ⟨other, hcommitted, hid, hresolve⟩
  refine ⟨other, ?_, hid, hresolve⟩
  rw [hown.stage other (fun heq => hopen (heq ▸ hcommitted))]
  exact hcommitted

theorem Apart.own (h : Apart serde catalog identityId calls start s) (hown : OwnChange s call s')
    (hopen : s.stage call ≠ .committed)
    (hchecked : (s'.stage call).Checked → (s.stage call).Checked ∨
      (∀ other ≠ call, (s.stage other).Checked → (calls other).writtenName = (calls call).writtenName →
        (calls call).writtenName = none ∨ (calls other).endpointId = (calls call).endpointId) ∧
      ∀ row ∈ s.endpoints.rows, row.identityId = identityId → (calls call).writtenName = some row.name →
        row.id = (calls call).endpointId)
    (hreplacing : (s'.stage call).Replacing → (s.stage call).Replacing ∨
      ∀ other ≠ call, (s.stage other).Replacing → (calls other).endpointId ≠ (calls call).endpointId)
    (hcovers : StageCovers calls s'.models call (s'.stage call)) : Apart serde catalog identityId calls start s' := by
  have hnames (other : ι) (hne : other ≠ call) (hcall : (s'.stage call).Checked) (hother : (s.stage other).Checked)
      (hname : (calls other).writtenName = (calls call).writtenName) :
      (calls call).writtenName = none ∨ (calls other).endpointId = (calls call).endpointId := by
    obtain hold | ⟨hnew, -⟩ := hchecked hcall
    · rw [← hname]
      exact h.names other call hne hother hold hname
    · exact hnew other hne hother hname
  have hapart (other : ι) (hne : other ≠ call) (hcall : (s'.stage call).Replacing)
      (hother : (s.stage other).Replacing) : (calls other).endpointId ≠ (calls call).endpointId := by
    obtain hold | hnew := hreplacing hcall
    · exact h.replacing other call hne hother hold
    · exact hnew other hne hother
  constructor
  · intro first second hne hfirst hsecond hname
    by_cases hcall : first = call
    · subst hcall
      rw [hown.stage second hne.symm] at hsecond
      exact (hnames second hne.symm hfirst hsecond hname.symm).imp_right Eq.symm
    · rw [hown.stage first hcall] at hfirst
      by_cases hcall' : second = call
      · subst hcall'
        rw [hname]
        exact hnames first hne hsecond hfirst hname
      · rw [hown.stage second hcall'] at hsecond
        exact h.names first second hne hfirst hsecond hname
  · rw [hown.endpoints]
    intro other hother
    by_cases hcall : other = call
    · subst hcall
      obtain hold | ⟨-, hnew⟩ := hchecked hother
      · exact h.free other hold
      · exact hnew
    · rw [hown.stage other hcall] at hother
      exact h.free other hother
  · intro first second hne hfirst hsecond
    by_cases hcall : first = call
    · subst hcall
      rw [hown.stage second hne.symm] at hsecond
      exact (hapart second hne.symm hfirst hsecond).symm
    · rw [hown.stage first hcall] at hfirst
      by_cases hcall' : second = call
      · subst hcall'
        exact hapart first hne hsecond hfirst
      · rw [hown.stage second hcall'] at hsecond
        exact h.replacing first second hne hfirst hsecond
  · intro other
    by_cases hcall : other = call
    · rw [hcall]
      exact hcovers
    · rw [hown.stage other hcall]
      have hkept := h.covers other
      unfold StageCovers Table.Covers at hkept ⊢
      rw [hown.models, hown.modelWrites other hcall]
      exact hkept
  · rw [hown.endpoints]
    exact h.unique
  · rw [hown.endpoints]
    intro row hrow
    exact (h.lists row hrow).own hown hopen

theorem mappings_sorted (call : EndpointCall) (list : List NormalizedModel) :
    (call.mappings list).mergeSort candidateBefore = call.mappings list := by
  apply List.mergeSort_of_pairwise
  rw [EndpointCall.mappings, List.pairwise_iff_getElem]
  intro i j hi hj hlt
  simp only [List.getElem_mapIdx, Endpoints.modelRow, candidateBefore]
  exact decide_eq_true (.inl hlt)

theorem candidateList_mappings {call : EndpointCall} {list : List NormalizedModel} {db : Database}
    (h : db.models.filter (fun row => row.endpointId = call.endpointId) = call.mappings list) :
    candidateList db call.endpointId = list := by
  rw [candidateList, h, mappings_sorted, EndpointCall.mappings]
  apply List.ext_getElem
  · simp
  · intro i hi hi'
    simp [Endpoints.modelRow]

theorem mem_mappings {call : EndpointCall} {list : List NormalizedModel} {row : EndpointModel}
    (h : row ∈ call.mappings list) : row.endpointId = call.endpointId := by
  obtain ⟨index, -, rfl⟩ := List.mem_mapIdx.mp h
  rfl

theorem TrackedCalls.filter_models (h : TrackedCalls serde catalog identityId calls start s) {endpointId : String}
    (hne : endpointId ≠ (calls call).endpointId) :
    (s.models.view call).filter (fun row => row.endpointId = endpointId) =
      s.models.rows.filter (fun row => row.endpointId = endpointId) := by
  apply Table.view_filter_untouched
  · intro row hrow heq
    exact hne (heq.symm.trans ((h.stages call).deleted hrow))
  · intro row hrow heq
    exact hne (heq.symm.trans ((h.stages call).inserted hrow).2)

theorem TrackedCalls.view_endpoint (h : TrackedCalls serde catalog identityId calls start s) {row : EndpointConfig}
    (hrow : row ∈ s.endpoints.view call) :
    (∃ old ∈ s.endpoints.rows, old.id = row.id ∧ old.identityId = row.identityId ∧ old.name = row.name) ∨
      row.id = (calls call).endpointId ∧ (calls call).writtenName = some row.name := by
  have hwrites := EndpointWrites.of_stage (h.stages call)
  have hdeleted := h.exclusive.deletedMem call
  cases Table.mem_view.mp hrow with
  | inl hold => exact .inl ⟨row, hold.1, rfl, rfl, rfl⟩
  | inr hnew =>
    generalize s.endpoints.writes call = writes at hwrites hnew hdeleted
    cases hwrites with
    | none => exact nomatch hnew
    | created added hid hidentity hname =>
      obtain rfl := List.mem_singleton.mp hnew
      exact .inr ⟨hid, hname⟩
    | updated old version hid hversion hname =>
      obtain rfl := List.mem_singleton.mp hnew
      cases hwritten : (calls call).writtenName with
      | none =>
        rw [hwritten] at hname
        exact .inl ⟨old, hdeleted old (List.mem_singleton_self _), hversion.1.symm, hversion.2.symm, hname.symm⟩
      | some name =>
        rw [hwritten] at hname
        exact .inr ⟨hversion.1.trans hid, congrArg some hname.symm⟩

variable [DecidableEq ι]

theorem EndpointState.commit_stage (s : EndpointState ι) (call : ι) : (s.commit call).stage call = .committed :=
  Function.update_self _ _ _

theorem EndpointState.commit_stage_of_ne (s : EndpointState ι) {call other : ι} (h : other ≠ call) :
    (s.commit call).stage other = s.stage other := Function.update_of_ne h _ _

theorem TrackedCalls.list_replaced (h : TrackedCalls serde catalog identityId calls start s)
    (hcovers : StageCovers calls s.models call (s.stage call)) (hstage : s.stage call = .inserting []) :
    (calls call).resolve serde catalog identityId start =
      .ok (some (candidateList (s.commit call).db (calls call).endpointId)) := by
  have hok := h.stages call
  rw [hstage] at hok hcovers
  obtain ⟨-, -, -, list, hresolve, hrows⟩ := hok
  rw [List.append_nil] at hrows
  rw [hresolve, candidateList_mappings]
  have hview := Table.Covers.view_filter hcovers
  rw [hrows] at hview
  rw [EndpointState.db]
  change (s.models.view call).filter _ = _
  rw [hview, List.filter_eq_self]
  intro row hrow
  exact decide_eq_true (mem_mappings hrow)

theorem Apart.commit_lists (h : Apart serde catalog identityId calls start s)
    (htracked : TrackedCalls serde catalog identityId calls start s)
    (hstage : s.stage call = .written none ∨ s.stage call = .inserting []) {endpointId : String}
    (hold : endpointId ≠ (calls call).endpointId ∨ s.stage call = .written none →
      OneRequest serde catalog identityId calls start s endpointId) :
    OneRequest serde catalog identityId calls start (s.commit call) endpointId := by
  -- Either the mappings of the endpoint stay, or the call has replaced them.
  by_cases hreplaced : endpointId = (calls call).endpointId ∧ s.stage call = .inserting []
  · obtain ⟨rfl, hinserting⟩ := hreplaced
    exact .inr ⟨call, s.commit_stage call, rfl, htracked.list_replaced (h.covers call) hinserting⟩
  · have hkept : endpointId ≠ (calls call).endpointId ∨ s.stage call = .written none := by
      by_cases hid : endpointId = (calls call).endpointId
      · exact .inr (hstage.resolve_right (fun hinserting => hreplaced ⟨hid, hinserting⟩))
      · exact .inl hid
    have hrows : (s.models.view call).filter (fun row => row.endpointId = endpointId) =
        s.models.rows.filter (fun row => row.endpointId = endpointId) := by
      obtain hid | hwritten := hkept
      · exact htracked.filter_models hid
      · have hok := htracked.stages call
        rw [hwritten] at hok
        rw [Table.view_of_clean hok.2.1]
    have hlist : candidateList (s.commit call).db endpointId = candidateList s.db endpointId := by
      unfold candidateList
      change (((s.models.view call).filter _).mergeSort _).map _ = _
      rw [hrows]
      rfl
    unfold OneRequest
    rw [hlist]
    refine (hold hkept).imp_right ?_
    rintro ⟨other, hcommitted, hid, hresolve⟩
    have hne : other ≠ call := by
      rintro rfl
      rw [hcommitted] at hstage
      simp at hstage
    exact ⟨other, (s.commit_stage_of_ne hne).trans hcommitted, hid, hresolve⟩

theorem Apart.commit (h : Apart serde catalog identityId calls start s)
    (htracked : TrackedCalls serde catalog identityId calls start s)
    (hstage : s.stage call = .written none ∨ s.stage call = .inserting []) :
    Apart serde catalog identityId calls start (s.commit call) := by
  have hchecked : (s.stage call).Checked := by
    cases hstage with
    | inl hwritten => exact hwritten ▸ trivial
    | inr hinserting => exact hinserting ▸ trivial
  have hne {other : ι} (hother : ((s.commit call).stage other).Checked ∨ ((s.commit call).stage other).Replacing) :
      other ≠ call := by
    rintro rfl
    rw [s.commit_stage] at hother
    exact hother.elim id id
  constructor
  · intro first second hdistinct hfirst hsecond
    rw [s.commit_stage_of_ne (hne (.inl hfirst))] at hfirst
    rw [s.commit_stage_of_ne (hne (.inl hsecond))] at hsecond
    exact h.names first second hdistinct hfirst hsecond
  · intro other hother row hrow hidentity hname
    have hdistinct := hne (.inl hother)
    rw [s.commit_stage_of_ne hdistinct] at hother
    obtain ⟨old, hold, hid, hsame, holdName⟩ | ⟨hid, hwritten⟩ := htracked.view_endpoint hrow
    · rw [← hid]
      exact h.free other hother old hold (hsame.trans hidentity) (holdName ▸ hname)
    · have hnames := h.names other call hdistinct hother hchecked (hname.trans hwritten.symm)
      obtain hnone | hsame := hnames
      · rw [hname] at hnone
        exact nomatch hnone
      · exact hid.trans hsame.symm
  · intro first second hdistinct hfirst hsecond
    rw [s.commit_stage_of_ne (hne (.inr hfirst))] at hfirst
    rw [s.commit_stage_of_ne (hne (.inr hsecond))] at hsecond
    exact h.replacing first second hdistinct hfirst hsecond
  · intro other
    by_cases hother : other = call
    · subst hother
      rw [s.commit_stage]
      trivial
    · rw [s.commit_stage_of_ne hother]
      have hkept := h.covers other
      -- The call adds no mapping of an endpoint that another transaction replaces.
      have hinserted (hreplacing : (s.stage other).Replacing) (row : EndpointModel)
          (hrow : row ∈ (s.models.writes call).inserted) : row.endpointId ≠ (calls other).endpointId := by
        obtain ⟨hcall, hid⟩ := (htracked.stages call).inserted hrow
        rw [hid]
        exact h.replacing call other (Ne.symm hother) hcall hreplacing
      cases hstageOther : s.stage other with
      | deletingModels rest list =>
        rw [hstageOther] at hkept hinserted
        exact Table.Covers.commit hkept hother (hinserted trivial)
      | inserting rest =>
        rw [hstageOther] at hkept hinserted
        exact Table.Covers.commit hkept hother (hinserted trivial)
      | _ => trivial
  · intro row hrow other hother hidentity hotherIdentity hname
    obtain ⟨old, hold, hid, hsame, holdName⟩ | ⟨hid, hwritten⟩ := htracked.view_endpoint hrow
    · obtain ⟨old', hold', hid', hsame', holdName'⟩ | ⟨hid', hwritten'⟩ := htracked.view_endpoint hother
      · rw [← hid, ← hid']
        exact h.unique old hold old' hold' (hsame.trans hidentity) (hsame'.trans hotherIdentity)
          (holdName.trans (hname.trans holdName'.symm))
      · rw [← hid, hid']
        apply h.free call hchecked old hold (hsame.trans hidentity)
        rw [hwritten', holdName, hname]
    · obtain ⟨old', hold', hid', hsame', holdName'⟩ | ⟨hid', -⟩ := htracked.view_endpoint hother
      · rw [hid, ← hid']
        refine (h.free call hchecked old' hold' (hsame'.trans hotherIdentity) ?_).symm
        rw [hwritten, holdName', hname]
      · exact hid.trans hid'.symm
  · intro row hrow
    apply h.commit_lists htracked hstage
    intro hkept
    obtain ⟨old, hold, hid, -, -⟩ | ⟨hid, -⟩ := htracked.view_endpoint hrow
    · rw [← hid]
      exact h.lists old hold
    · have hwritten := hkept.resolve_left (fun hother => hother hid)
      have hok := htracked.stages call
      rw [hwritten] at hok
      obtain ⟨target, htarget, htargetId⟩ :=
        htracked.targets call hok.2.2.1 (hwritten ▸ nofun) (hwritten ▸ nofun)
      rw [hid, ← htargetId]
      exact h.lists target htarget

theorem Apart.enter (h : Apart serde catalog identityId calls start s) {stage : EndpointStage}
    (hchecked : (s.stage call).Checked) (hreplacing : ¬stage.Replacing)
    (hcovers : StageCovers calls s.models call stage) :
    Apart serde catalog identityId calls start (s.enter call stage) := by
  refine h.own (OwnChange.enter s call stage) ?_ (fun _ => .inl hchecked) ?_ ?_
  · intro hcommitted
    rw [hcommitted] at hchecked
    exact hchecked
  · rw [s.enter_stage]
    exact fun hstage => absurd hstage hreplacing
  · rw [s.enter_stage]
    exact hcovers

theorem Apart.fail (h : Apart serde catalog identityId calls start s) (hopen : s.stage call ≠ .committed) :
    Apart serde catalog identityId calls start (s.fail call) := by
  have hfailed : (s.fail call).stage call = .failed := Function.update_self _ _ _
  refine h.own (OwnChange.fail s call) hopen ?_ ?_ ?_
  · rw [hfailed]
    exact False.elim
  · rw [hfailed]
    exact False.elim
  · rw [hfailed]
    trivial

theorem ensureNameAvailable_ok {db : Database} {name : String} {current : Option String}
    (h : Endpoints.ensureNameAvailable db identityId name current = .ok ()) {row : EndpointConfig}
    (hrow : row ∈ db.endpoints) (hidentity : row.identityId = identityId) (hname : row.name = name) :
    current = some row.id := by
  unfold Endpoints.ensureNameAvailable at h
  split_ifs at h with hany
  by_contra hne
  exact hany (List.any_eq_true.mpr ⟨row, hrow, decide_eq_true ⟨hidentity, hname, hne⟩⟩)

theorem Apart.insertEndpoint (h : Apart serde catalog identityId calls start s)
    (htracked : TrackedCalls serde catalog identityId calls start s) {models : Option (List NormalizedModel)}
    {row : EndpointConfig} (hstage : s.stage call = .resolved models) (hid : row.id = (calls call).endpointId)
    (hnew : ∀ other ∈ s.endpoints.view call, other.id ≠ row.id)
    (hfree : ¬s.endpoints.Contested call (fun other => other.id = row.id)) :
    Apart serde catalog identityId calls start
      { s.enter call (.inserting ((calls call).mappings (models.getD []))) with
        endpoints := s.endpoints.insert call row } := by
  have hok := htracked.stages call
  rw [hstage] at hok
  rw [Table.view_of_clean hok.1] at hnew
  refine h.own (OwnChange.endpoints_enter rfl (fun _ hother => Table.set_of_ne _ _ hother)) (hstage ▸ nofun) ?_ ?_ ?_
  · exact fun _ => .inl (hstage ▸ trivial)
  · refine fun _ => .inr (fun other hother hreplacing heq => ?_)
    have hokOther := htracked.stages other
    have htarget (hupdate : (calls other).IsUpdate) (hwaiting : s.stage other ≠ .waiting)
        (hfailed : s.stage other ≠ .failed) : False := by
      obtain ⟨target, htarget, htargetId⟩ := htracked.targets other hupdate hwaiting hfailed
      exact hnew target htarget (htargetId.trans (heq.trans hid.symm))
    cases hstageOther : s.stage other with
    | deletingModels rest list =>
      rw [hstageOther] at hokOther htarget
      exact htarget hokOther.2.2.1 nofun nofun
    | inserting rest =>
      rw [hstageOther] at hokOther htarget
      obtain hupdate | ⟨added, hadded, haddedId⟩ := hokOther.2.2.1
      · exact htarget hupdate nofun nofun
      · exact hfree ⟨other, hother, added, List.mem_append_left _ hadded, haddedId.trans (heq.trans hid.symm)⟩
    | _ =>
      rw [hstageOther] at hreplacing
      exact hreplacing
  · dsimp only
    rw [s.enter_stage]
    intro mapping hmapping hmappingId
    obtain ⟨parent, hparent, hparentId⟩ := htracked.parents mapping hmapping
    exact absurd (hparentId.trans (hmappingId.trans hid.symm)) (hnew parent hparent)

theorem Apart.selectModels (h : Apart serde catalog identityId calls start s) {models : List NormalizedModel}
    (hstage : s.stage call = .deletingRoutes [] models)
    (halone : ∀ other ≠ call, (s.stage other).Replacing → (calls other).endpointId ≠ (calls call).endpointId) :
    Apart serde catalog identityId calls start (s.enter call (.deletingModels
      ((s.models.view call).filter (fun row => row.endpointId = (calls call).endpointId)) models)) := by
  refine h.own (OwnChange.enter s call _) (hstage ▸ nofun) (fun _ => .inl (hstage ▸ trivial))
    (fun _ => .inr halone) ?_
  rw [s.enter_stage]
  exact Table.covers_view call s.models

variable [Fintype ι]

theorem Apart.move (h : Apart serde catalog identityId calls start s)
    (htracked : TrackedCalls serde catalog identityId calls start s) (hundisturbed : Undisturbed calls s (.statement call))
    (hmove : EndpointMove serde catalog identityId calls s call s') : Apart serde catalog identityId calls start s' := by
  have hok := htracked.stages call
  have hcovers := h.covers call
  unfold Undisturbed at hundisturbed
  dsimp only at hundisturbed
  cases hmove with
  | fail hopen => exact h.fail hopen
  | begin hstage =>
    refine h.own (OwnChange.enter s call _) (by simp [hstage]) ?_ ?_ ?_
    · rw [s.enter_stage]
      exact False.elim
    · rw [s.enter_stage]
      exact False.elim
    · rw [s.enter_stage]
      trivial
  | check hstage hname =>
    rw [hstage] at hok hundisturbed
    refine h.own (OwnChange.enter s call _) (by simp [hstage]) (fun _ => .inr ⟨hundisturbed, ?_⟩) ?_ ?_
    · intro row hrow hidentity hwritten
      have hcurrent := ensureNameAvailable_ok hname hrow hidentity (hok.2.2 row.name hwritten)
      unfold EndpointCall.currentEndpointId at hcurrent
      cases hrequest : (calls call).request with
      | create token input =>
        rw [hrequest] at hcurrent
        cases hcurrent
      | update input =>
        rw [hrequest] at hcurrent
        exact (Option.some.inj hcurrent).symm
    · rw [s.enter_stage]
      exact False.elim
    · rw [s.enter_stage]
      trivial
  | resolve hstage => exact h.enter (hstage ▸ trivial) id trivial
  | insertEndpoint row hstage hcreate hid hidentity hname hnew hfree =>
    exact h.insertEndpoint htracked hstage hid hnew hfree
  | skipEndpoint hstage => exact h.enter (hstage ▸ trivial) id trivial
  | updateEndpoint row version hstage =>
    refine h.own (OwnChange.endpoints_enter rfl (fun other hother => ?_)) (by simp [hstage])
      (fun _ => .inl (hstage ▸ trivial)) ?_ ?_
    · rw [Table.insert, Table.set_of_ne _ _ hother, Table.delete, Table.set_of_ne _ _ hother]
    · dsimp only
      rw [s.enter_stage]
      exact False.elim
    · dsimp only
      rw [s.enter_stage]
      trivial
  | selectRoutes rest hstage => exact h.enter (hstage ▸ trivial) id trivial
  | deleteRoute routes hstage =>
    refine h.own (OwnChange.routes_enter s call _ routes) (by simp [hstage]) (fun _ => .inl (hstage ▸ trivial)) ?_ ?_
    · dsimp only
      rw [s.enter_stage]
      exact False.elim
    · dsimp only
      rw [s.enter_stage]
      trivial
  | selectModels hstage =>
    rw [hstage] at hundisturbed
    exact h.selectModels hstage hundisturbed
  | deleteModel hstage hrow =>
    rw [hstage] at hcovers
    have hnext := Table.Covers.deleteNext hcovers hrow
    obtain ⟨-, ⟨-, rfl⟩ | ⟨-, rfl⟩⟩ := Table.deleteNext_some hrow
    · refine h.own (OwnChange.models_enter rfl (fun _ hother => Table.set_of_ne _ _ hother)) (by simp [hstage])
        (fun _ => .inl (hstage ▸ trivial)) (fun _ => .inl (hstage ▸ trivial)) ?_
      dsimp only
      rw [s.enter_stage]
      exact hnext
    · refine h.own (OwnChange.models_enter rfl (fun _ _ => rfl)) (by simp [hstage])
        (fun _ => .inl (hstage ▸ trivial)) (fun _ => .inl (hstage ▸ trivial)) ?_
      dsimp only
      rw [s.enter_stage]
      exact hnext
  | startInserting hstage =>
    rw [hstage] at hcovers
    refine h.own (OwnChange.enter s call _) (by simp [hstage]) (fun _ => .inl (hstage ▸ trivial))
      (fun _ => .inl (hstage ▸ trivial)) ?_
    rw [s.enter_stage]
    exact hcovers
  | insertModel hstage =>
    rw [hstage] at hcovers
    refine h.own (OwnChange.models_enter rfl (fun _ hother => Table.set_of_ne _ _ hother)) (by simp [hstage])
      (fun _ => .inl (hstage ▸ trivial)) (fun _ => .inl (hstage ▸ trivial)) ?_
    dsimp only
    rw [s.enter_stage]
    exact Table.Covers.of_set hcovers (fun _ => id)
  | commit hstage => exact h.commit htracked hstage

theorem apart_step {action : EndpointAction ι} (h : Apart serde catalog identityId calls start s)
    (htracked : TrackedCalls serde catalog identityId calls start s) (hundisturbed : Undisturbed calls s action)
    (hstep : EndpointStep serde catalog identityId calls s action s') : Apart serde catalog identityId calls start s' := by
  cases action with
  | statement call => exact h.move htracked hundisturbed hstep.move
  | rollback call =>
    unfold EndpointStep EndpointState.next at hstep
    dsimp only at hstep
    split_ifs at hstep with hopen
    obtain rfl := Option.some.inj hstep
    exact h.fail hopen

end apart

section undisturbed

variable {ι : Type} {serde : SerdeJson} {catalog : Option ProviderCatalog} {identityId : String}
  {calls : ι → EndpointCall} {start : Database}

theorem trackedCalls_initial (hvalid : start.Valid) :
    TrackedCalls serde catalog identityId calls start (EndpointState.initial start) where
  fixed := rfl
  exclusive := Table.exclusive_start hvalid.endpointKey
  parents := hvalid.modelEndpoint
  stages := fun _ => ⟨rfl, rfl⟩
  targets := fun _ _ hwaiting => absurd rfl hwaiting

theorem apart_initial (hnames : UniqueNames identityId start) :
    Apart serde catalog identityId calls start (EndpointState.initial start) where
  names := fun _ _ _ hchecked => hchecked.elim
  free := fun _ hchecked => hchecked.elim
  replacing := fun _ _ _ hreplacing => hreplacing.elim
  covers := fun _ => trivial
  unique := by
    intro row hrow other hother hidentity hotherIdentity hname
    rw [List.inj_on_of_nodup_map hnames (List.mem_filter.mpr ⟨hrow, decide_eq_true hidentity⟩)
      (List.mem_filter.mpr ⟨hother, decide_eq_true hotherIdentity⟩) hname]
  lists := fun row hrow => .inl ⟨⟨row, hrow, rfl⟩, rfl⟩

theorem Apart.uniqueNames {s : EndpointState ι} (h : Apart serde catalog identityId calls start s)
    (htracked : TrackedCalls serde catalog identityId calls start s) : UniqueNames identityId s.db := by
  have hrows : (s.endpoints.rows.filter (fun row => row.identityId = identityId)).Nodup :=
    (List.Nodup.of_map _ htracked.exclusive.rowsKey).filter _
  apply hrows.map_on
  intro row hrow other hother hname
  obtain ⟨hrow, hidentity⟩ := List.mem_filter.mp hrow
  obtain ⟨hother, hotherIdentity⟩ := List.mem_filter.mp hother
  have hid := h.unique row hrow other hother (of_decide_eq_true hidentity) (of_decide_eq_true hotherIdentity) hname
  exact List.inj_on_of_nodup_map htracked.exclusive.rowsKey hrow hother hid

theorem endpoints_undisturbed (serde : SerdeJson) (catalog : Option ProviderCatalog) (identityId : String) {ι : Type}
    [DecidableEq ι] [Fintype ι] (calls : ι → EndpointCall) (start : Database) (hvalid : start.Valid)
    (hnames : UniqueNames identityId start) {run : List (EndpointAction ι × EndpointState ι)}
    (h : Run (EndpointStep serde catalog identityId calls) (EndpointState.initial start) run)
    (hundisturbed : Along (Undisturbed calls) (EndpointState.initial start) run) :
    ∀ entry ∈ run, UniqueNames identityId entry.2.db ∧
      ∀ row ∈ entry.2.db.endpoints, OneRequest serde catalog identityId calls start entry.2 row.id := by
  have hinvariant := @Run.forall_of_along _ _ _ (fun s => TrackedCalls serde catalog identityId calls start s ∧
    Apart serde catalog identityId calls start s) _ _ _ h ⟨trackedCalls_initial hvalid, apart_initial hnames⟩ hundisturbed
    (fun s action s' hinvariant hcondition hstep => ⟨hinvariant.1.move hstep.move,
      apart_step hinvariant.2 hinvariant.1 hcondition hstep⟩)
  intro entry hentry
  obtain ⟨htracked, hapart⟩ := hinvariant entry hentry
  exact ⟨hapart.uniqueNames htracked, hapart.lists⟩

end undisturbed

section disturbed

def createBoth (first second : String) : Bool → EndpointCall
  | true => ⟨"e1", fun n => s!"a{n}", 0, .create "t1" { name := first, models := [] }⟩
  | false => ⟨"e2", fun n => s!"b{n}", 0, .create "t2" { name := second, models := [] }⟩

def alternating (statements : ℕ) : List (EndpointAction Bool) :=
  (List.replicate statements [.statement true, .statement false]).flatten

def endpointRun (calls : Bool → EndpointCall) (start : Database) (actions : List (EndpointAction Bool)) :
    List (EndpointAction Bool × EndpointState Bool) :=
  (follow (fun s => s.next Text.codec none "owner" calls) (EndpointState.initial start) actions).getD []

theorem endpointRun_run {calls : Bool → EndpointCall} {start : Database} {actions : List (EndpointAction Bool)}
    (h : (follow (fun s => s.next Text.codec none "owner" calls) (EndpointState.initial start) actions).isSome) :
    Run (EndpointStep Text.codec none "owner" calls) (EndpointState.initial start) (endpointRun calls start actions) := by
  obtain ⟨run, hrun⟩ := Option.isSome_iff_exists.mp h
  rw [endpointRun, hrun]
  exact follow_run hrun

theorem ownerDatabase_valid : ownerDatabase.Valid := by
  constructor <;> decide

theorem endpoints_undisturbed_both : (endpointRun (createBoth "a" "b") ownerDatabase (alternating 5)).length = 10 ∧
    ∀ entry ∈ endpointRun (createBoth "a" "b") ownerDatabase (alternating 5), UniqueNames "owner" entry.2.db ∧
      ∀ row ∈ entry.2.db.endpoints,
        OneRequest Text.codec none "owner" (createBoth "a" "b") ownerDatabase entry.2 row.id := by
  refine ⟨rfl, endpoints_undisturbed Text.codec none "owner" (createBoth "a" "b") ownerDatabase ownerDatabase_valid
    (by decide) (endpointRun_run rfl) ?_⟩
  refine ⟨trivial, trivial, ?_, ?_, trivial, trivial, trivial, trivial, trivial, trivial, trivial⟩
  · intro other hother hchecked
    cases other with
    | true => exact absurd rfl hother
    | false => exact hchecked.elim
  · intro other hother hchecked hname
    cases other with
    | true => exact absurd hname (by decide)
    | false => exact absurd rfl hother

def mappedDatabase : Database :=
  { kimiDatabase none with endpoints := [⟨"e", "owner", "a", "all", "t", 0⟩] }

def replaceBoth : Bool → EndpointCall
  | true => ⟨"e", fun n => s!"a{n}", 0, .update { models := some [⟨"p", "k1"⟩] }⟩
  | false => ⟨"e", fun n => s!"b{n}", 0, .update { models := some [⟨"p", "k2"⟩] }⟩

theorem mappedDatabase_valid : mappedDatabase.Valid := by
  constructor <;> decide

theorem candidateList_length (db : Database) (endpointId : String) :
    (candidateList db endpointId).length = (db.models.filter (fun row => row.endpointId = endpointId)).length := by
  rw [candidateList, List.length_map, List.length_mergeSort]

/-- Two creations of one name pass the check before either inserts, and two updates that set no column delete the mappings
before either adds its own: the names are not unique and the mappings are those of both. -/
theorem endpoints_disturbed :
    (Run (EndpointStep Text.codec none "owner" (createBoth "a" "a")) (.initial ownerDatabase)
        (endpointRun (createBoth "a" "a") ownerDatabase (alternating 5)) ∧
      UniqueNames "owner" ownerDatabase ∧
      ∃ entry ∈ endpointRun (createBoth "a" "a") ownerDatabase (alternating 5),
        (∀ call, entry.2.stage call = .committed ∨ entry.2.stage call = .failed) ∧ ¬UniqueNames "owner" entry.2.db) ∧
    Run (EndpointStep Text.codec none "owner" replaceBoth) (.initial mappedDatabase)
        (endpointRun replaceBoth mappedDatabase (alternating 9)) ∧
      ∃ entry ∈ endpointRun replaceBoth mappedDatabase (alternating 9),
        (∀ call, entry.2.stage call = .committed ∨ entry.2.stage call = .failed) ∧
        ∃ row ∈ entry.2.db.endpoints, ¬OneRequest Text.codec none "owner" replaceBoth mappedDatabase entry.2 row.id := by
  refine ⟨⟨endpointRun_run rfl, by decide, _, List.getLast_mem
    (show endpointRun (createBoth "a" "a") ownerDatabase (alternating 5) ≠ [] from List.cons_ne_nil _ _),
    by decide, by decide⟩, endpointRun_run rfl, _, List.getLast_mem
    (show endpointRun replaceBoth mappedDatabase (alternating 9) ≠ [] from List.cons_ne_nil _ _),
    by decide, ⟨"e", "owner", "a", "all", "t", 0⟩, by decide, ?_⟩
  intro hlast
  have hboth := candidateList_length
    ((endpointRun replaceBoth mappedDatabase (alternating 9)).getLast (List.cons_ne_nil _ _)).2.db "e"
  change _ = 2 at hboth
  obtain ⟨-, hinitial⟩ | ⟨call, -, -, hresolve⟩ := hlast
  · rw [hinitial, candidateList_length] at hboth
    exact absurd hboth (by decide)
  · have hone (call : Bool) : ∃ model, (replaceBoth call).resolve Text.codec none "owner" mappedDatabase =
        .ok (some [model]) := by
      cases call with
      | true => exact ⟨_, rfl⟩
      | false => exact ⟨_, rfl⟩
    obtain ⟨model, hmodel⟩ := hone call
    rw [hmodel] at hresolve
    rw [← Option.some.inj (Except.ok.inj hresolve)] at hboth
    simp at hboth

end disturbed

end Prelay.Store
