import Prelay.EndpointStore
import Prelay.Runs
import Prelay.Transactions

namespace Prelay.Store

open Json Bridge Relational Transactions Runs

section system

inductive EndpointRequest where
  | create (token : String) (input : CreateEndpointRequest)
  | update (input : UpdateEndpointRequest)

structure EndpointCall where
  endpointId : String
  ids : ℕ → String
  createdAt : ℤ
  request : EndpointRequest

/-- Where a call stands. A `DELETE` keeps the rows of its snapshot that it has not reached. -/
inductive EndpointStage where
  | waiting
  | begun (name : String)
  | checked
  | resolved (models : Option (List NormalizedModel))
  | written (models : Option (List NormalizedModel))
  | deletingRoutes (rest : List EndpointModelRoute) (models : List NormalizedModel)
  | deletingModels (rest : List EndpointModel) (models : List NormalizedModel)
  | inserting (rest : List EndpointModel)
  | committed
  | failed
  deriving DecidableEq

structure EndpointState (ι : Type) where
  fixed : Database
  endpoints : Table ι EndpointConfig
  routes : Table ι EndpointModelRoute
  models : Table ι EndpointModel
  stage : ι → EndpointStage

inductive EndpointAction (ι : Type) where
  | statement (call : ι)
  | rollback (call : ι)

namespace EndpointCall

variable (serde : SerdeJson) (catalog : Option ProviderCatalog) (identityId : String) (call : EndpointCall)

def writtenName : Option String :=
  match call.request with
  | .create _ input => some (Str.trim input.name)
  | .update input => input.name.map Str.trim

def currentEndpointId : Option String :=
  match call.request with
  | .create _ _ => none
  | .update _ => some call.endpointId

/-- What precedes the name check: the identity of a new endpoint or the row of an old one, and the name to check. -/
def begin (db : Database) : Except StorageError String :=
  match call.request with
  | .create _ input => if findIdentity db identityId = none then .error .identityNotFound else .ok (Str.trim input.name)
  | .update input => do
    let current ← okOr (Endpoints.findEndpoint db identityId call.endpointId) .endpointNotFound
    let _ ← input.models.mapM Endpoints.normalizeModels
    .ok ((input.name.map Str.trim).getD current.name)

def resolve (db : Database) : Except StorageError (Option (List NormalizedModel)) :=
  match call.request with
  | .create _ input => do
    let models ← Endpoints.normalizeModels input.models
    let models ← Endpoints.resolveModels serde catalog db identityId models
    .ok (some models)
  | .update input => do
    let models ← input.models.mapM Endpoints.normalizeModels
    models.mapM (Endpoints.resolveModels serde catalog db identityId)

def newRow (token : String) (input : CreateEndpointRequest) : EndpointConfig where
  id := call.endpointId
  identityId := identityId
  name := Str.trim input.name
  protocol := Str.trim (input.protocol.getD "all")
  token := token
  createdAt := call.createdAt

def newVersion (input : UpdateEndpointRequest) (row : EndpointConfig) : EndpointConfig :=
  { row with
    name := (input.name.map Str.trim).getD row.name
    protocol := (input.protocol.map Str.trim).getD row.protocol }

def mappings (models : List NormalizedModel) : List EndpointModel :=
  models.mapIdx (Endpoints.modelRow call.ids call.endpointId call.createdAt)

end EndpointCall

namespace EndpointState

variable {ι : Type} [DecidableEq ι] (s : EndpointState ι)

def db : Database :=
  { s.fixed with endpoints := s.endpoints.rows, routes := s.routes.rows, models := s.models.rows }

def initial (start : Database) : EndpointState ι :=
  ⟨start, ⟨start.endpoints, fun _ => {}⟩, ⟨start.routes, fun _ => {}⟩, ⟨start.models, fun _ => {}⟩, fun _ => .waiting⟩

def enter (call : ι) (stage : EndpointStage) : EndpointState ι :=
  { s with stage := Function.update s.stage call stage }

def fail (call : ι) : EndpointState ι :=
  { s.enter call .failed with
    endpoints := s.endpoints.rollback call
    routes := s.routes.rollback call
    models := s.models.rollback call }

def commit (call : ι) : EndpointState ι :=
  { s.enter call .committed with
    endpoints := s.endpoints.commit call
    routes := s.routes.commit call
    models := s.models.commit call }

def proceed {α : Type} (call : ι) (result : Except StorageError α) (stage : α → EndpointStage) : EndpointState ι :=
  match result with
  | .ok value => s.enter call (stage value)
  | .error _ => s.fail call

variable [Fintype ι] (serde : SerdeJson) (catalog : Option ProviderCatalog) (identityId : String)
  (calls : ι → EndpointCall)

def insertEndpoint (call : ι) (token : String) (input : CreateEndpointRequest) (models : Option (List NormalizedModel)) :
    Option (EndpointState ι) :=
  let row := (calls call).newRow identityId token input
  match s.endpoints.tryInsert call (fun other => other.id = row.id ∨ other.token = row.token) row with
  | none => none
  | some none => some (s.fail call)
  | some (some endpoints) =>
    if ¬endpointIdentity.HasParent s.fixed.identities row then some (s.fail call)
    else some { s.enter call (.inserting ((calls call).mappings (models.getD []))) with endpoints := endpoints }

def updateEndpoint (call : ι) (input : UpdateEndpointRequest) (models : Option (List NormalizedModel)) :
    Option (EndpointState ι) :=
  if input.name = none ∧ input.protocol = none then some (s.enter call (.written models))
  else match s.endpoints.rows.find? (fun row => row.id = (calls call).endpointId) with
    | none => some (s.fail call)
    | some row =>
      if s.endpoints.Locked call row then none
      else some { s.enter call (.written models) with
        endpoints := (s.endpoints.delete call row).insert call (EndpointCall.newVersion input row) }

def insertModel (call : ι) (row : EndpointModel) (rest : List EndpointModel) : Option (EndpointState ι) :=
  match s.models.tryInsert call (fun other => Endpoints.SameCandidate row other) row with
  | none => none
  | some none => some (s.fail call)
  | some (some models) =>
    if ¬(modelEndpoint.HasParent (s.endpoints.view call) row ∧ modelProvider.HasParent s.fixed.providers row) then
      some (s.fail call)
    else some { s.enter call (.inserting rest) with models := models }

def nextStatement (call : ι) : Option (EndpointState ι) :=
  match s.stage call with
  | .waiting => some (s.proceed call ((calls call).begin identityId s.db) .begun)
  | .begun name =>
    let available := Endpoints.ensureNameAvailable s.db identityId name (calls call).currentEndpointId
    some (s.proceed call available (fun _ => .checked))
  | .checked => some (s.proceed call ((calls call).resolve serde catalog identityId s.db) .resolved)
  | .resolved models =>
    match (calls call).request with
    | .create token input => s.insertEndpoint identityId calls call token input models
    | .update input => s.updateEndpoint calls call input models
  | .written none => some (s.commit call)
  | .written (some models) =>
    let rows := (s.routes.view call).filter (fun row => row.endpointId = (calls call).endpointId)
    some (s.enter call (.deletingRoutes rows models))
  | .deletingRoutes (row :: rest) models =>
    (s.routes.deleteNext call row).map (fun routes =>
      { s.enter call (.deletingRoutes rest models) with routes := routes })
  | .deletingRoutes [] models =>
    let rows := (s.models.view call).filter (fun row => row.endpointId = (calls call).endpointId)
    some (s.enter call (.deletingModels rows models))
  | .deletingModels (row :: rest) models =>
    (s.models.deleteNext call row).map (fun rows =>
      { s.enter call (.deletingModels rest models) with models := rows })
  | .deletingModels [] models => some (s.enter call (.inserting ((calls call).mappings models)))
  | .inserting (row :: rest) => s.insertModel call row rest
  | .inserting [] => some (s.commit call)
  | .committed => none
  | .failed => none

def next : EndpointAction ι → Option (EndpointState ι)
  | .statement call => s.nextStatement serde catalog identityId calls call
  | .rollback call => if s.stage call = .committed then none else some (s.fail call)

end EndpointState

end system

section moves

variable {ι : Type} [DecidableEq ι] [Fintype ι] (serde : SerdeJson) (catalog : Option ProviderCatalog)
  (identityId : String) (calls : ι → EndpointCall)

def EndpointStep (s : EndpointState ι) (action : EndpointAction ι) (s' : EndpointState ι) : Prop :=
  s.next serde catalog identityId calls action = some s'

def EndpointCall.IsUpdate (call : EndpointCall) : Prop := call.currentEndpointId = some call.endpointId

inductive EndpointMove (s : EndpointState ι) (call : ι) : EndpointState ι → Prop
  | fail (hopen : s.stage call ≠ .committed) : EndpointMove s call (s.fail call)
  | begin {name : String} (hstage : s.stage call = .waiting) (hbegin : (calls call).begin identityId s.db = .ok name) :
      EndpointMove s call (s.enter call (.begun name))
  | check {name : String} (hstage : s.stage call = .begun name)
      (hname : Endpoints.ensureNameAvailable s.db identityId name (calls call).currentEndpointId = .ok ()) :
      EndpointMove s call (s.enter call .checked)
  | resolve {models : Option (List NormalizedModel)} (hstage : s.stage call = .checked)
      (hmodels : (calls call).resolve serde catalog identityId s.db = .ok models) :
      EndpointMove s call (s.enter call (.resolved models))
  | insertEndpoint {models : Option (List NormalizedModel)} (row : EndpointConfig)
      (hstage : s.stage call = .resolved models) (hcreate : (calls call).currentEndpointId = none)
      (hid : row.id = (calls call).endpointId) (hidentity : row.identityId = identityId)
      (hname : (calls call).writtenName = some row.name) (hnew : ∀ other ∈ s.endpoints.view call, other.id ≠ row.id)
      (hfree : ¬s.endpoints.Contested call (fun other => other.id = row.id)) :
      EndpointMove s call { s.enter call (.inserting ((calls call).mappings (models.getD []))) with
        endpoints := s.endpoints.insert call row }
  | skipEndpoint {models : Option (List NormalizedModel)} (hstage : s.stage call = .resolved models)
      (hupdate : (calls call).IsUpdate) : EndpointMove s call (s.enter call (.written models))
  | updateEndpoint {models : Option (List NormalizedModel)} (row version : EndpointConfig)
      (hstage : s.stage call = .resolved models) (hupdate : (calls call).IsUpdate) (hrow : row ∈ s.endpoints.rows)
      (hid : row.id = (calls call).endpointId) (hfree : ¬s.endpoints.Locked call row)
      (hversion : version.id = row.id ∧ version.identityId = row.identityId)
      (hname : version.name = (calls call).writtenName.getD row.name) :
      EndpointMove s call { s.enter call (.written models) with
        endpoints := (s.endpoints.delete call row).insert call version }
  | selectRoutes {models : List NormalizedModel} (rest : List EndpointModelRoute)
      (hstage : s.stage call = .written (some models)) : EndpointMove s call (s.enter call (.deletingRoutes rest models))
  | deleteRoute {models : List NormalizedModel} {row : EndpointModelRoute} {rest : List EndpointModelRoute}
      (routes : Table ι EndpointModelRoute) (hstage : s.stage call = .deletingRoutes (row :: rest) models) :
      EndpointMove s call { s.enter call (.deletingRoutes rest models) with routes := routes }
  | selectModels {models : List NormalizedModel} (hstage : s.stage call = .deletingRoutes [] models) :
      EndpointMove s call (s.enter call (.deletingModels
        ((s.models.view call).filter (fun row => row.endpointId = (calls call).endpointId)) models))
  | deleteModel {models : List NormalizedModel} {row : EndpointModel} {rest : List EndpointModel}
      {rows : Table ι EndpointModel} (hstage : s.stage call = .deletingModels (row :: rest) models)
      (hrow : s.models.deleteNext call row = some rows) :
      EndpointMove s call { s.enter call (.deletingModels rest models) with models := rows }
  | startInserting {models : List NormalizedModel} (hstage : s.stage call = .deletingModels [] models) :
      EndpointMove s call (s.enter call (.inserting ((calls call).mappings models)))
  | insertModel {row : EndpointModel} {rest : List EndpointModel} (hstage : s.stage call = .inserting (row :: rest)) :
      EndpointMove s call { s.enter call (.inserting rest) with models := s.models.insert call row }
  | commit (hstage : s.stage call = .written none ∨ s.stage call = .inserting []) :
      EndpointMove s call (s.commit call)

def EndpointAction.call : EndpointAction ι → ι
  | .statement call => call
  | .rollback call => call

variable {serde catalog identityId calls}

omit [Fintype ι] in
theorem proceed_cases {s : EndpointState ι} {call : ι} {α : Type} {result : Except StorageError α}
    {stage : α → EndpointStage} {P : EndpointState ι → Prop} (hfail : P (s.fail call))
    (hok : ∀ value, result = .ok value → P (s.enter call (stage value))) : P (s.proceed call result stage) := by
  unfold EndpointState.proceed
  cases result with
  | error e => exact hfail
  | ok value => exact hok value rfl

theorem EndpointCall.isUpdate_iff {call : EndpointCall} : call.IsUpdate ↔ ∃ input, call.request = .update input := by
  unfold EndpointCall.IsUpdate EndpointCall.currentEndpointId
  cases hrequest : call.request with
  | create token input => simp
  | update input => simp

theorem insertEndpoint_move {s s' : EndpointState ι} {call : ι} {token : String} {input : CreateEndpointRequest}
    {models : Option (List NormalizedModel)} (hstage : s.stage call = .resolved models)
    (hrequest : (calls call).request = .create token input)
    (h : s.insertEndpoint identityId calls call token input models = some s') :
    EndpointMove serde catalog identityId calls s call s' := by
  unfold EndpointState.insertEndpoint at h
  dsimp only at h
  split at h
  · exact nomatch h
  · obtain rfl := Option.some.inj h
    exact .fail (hstage ▸ nofun)
  · next endpoints hinsert =>
    obtain ⟨rfl, hnew, hfree⟩ := Table.tryInsert_some hinsert
    split_ifs at h
    · obtain rfl := Option.some.inj h
      refine .insertEndpoint ((calls call).newRow identityId token input) hstage ?_ rfl rfl ?_ ?_ ?_
      · rw [EndpointCall.currentEndpointId, hrequest]
      · rw [EndpointCall.writtenName, hrequest, EndpointCall.newRow]
      · intro other hother hid
        exact hnew other hother (.inl hid)
      · rintro ⟨other, hne, row, hrow, hid⟩
        exact hfree ⟨other, hne, row, hrow, .inl hid⟩
    · obtain rfl := Option.some.inj h
      exact .fail (hstage ▸ nofun)

theorem updateEndpoint_move {s s' : EndpointState ι} {call : ι} {input : UpdateEndpointRequest}
    {models : Option (List NormalizedModel)} (hstage : s.stage call = .resolved models)
    (hrequest : (calls call).request = .update input) (h : s.updateEndpoint calls call input models = some s') :
    EndpointMove serde catalog identityId calls s call s' := by
  have hupdate : (calls call).IsUpdate := EndpointCall.isUpdate_iff.mpr ⟨input, hrequest⟩
  unfold EndpointState.updateEndpoint at h
  split_ifs at h
  · obtain rfl := Option.some.inj h
    exact .skipEndpoint hstage hupdate
  · split at h
    · obtain rfl := Option.some.inj h
      exact .fail (hstage ▸ nofun)
    · next row hrow =>
      split_ifs at h with hlocked
      obtain rfl := Option.some.inj h
      refine .updateEndpoint row _ hstage hupdate (List.mem_of_find?_eq_some hrow) ?_ hlocked ⟨rfl, rfl⟩ ?_
      · have hid := List.find?_some hrow
        exact of_decide_eq_true hid
      · rw [EndpointCall.writtenName, hrequest, EndpointCall.newVersion]

theorem insertModel_move {s s' : EndpointState ι} {call : ι} {row : EndpointModel} {rest : List EndpointModel}
    (hstage : s.stage call = .inserting (row :: rest)) (h : s.insertModel call row rest = some s') :
    EndpointMove serde catalog identityId calls s call s' := by
  unfold EndpointState.insertModel at h
  split at h
  · exact nomatch h
  · obtain rfl := Option.some.inj h
    exact .fail (hstage ▸ nofun)
  · next models hinsert =>
    obtain ⟨rfl, -, -⟩ := Table.tryInsert_some hinsert
    split_ifs at h
    · obtain rfl := Option.some.inj h
      exact .insertModel hstage
    · obtain rfl := Option.some.inj h
      exact .fail (hstage ▸ nofun)

theorem nextStatement_move {s s' : EndpointState ι} {call : ι}
    (h : s.nextStatement serde catalog identityId calls call = some s') :
    EndpointMove serde catalog identityId calls s call s' := by
  unfold EndpointState.nextStatement at h
  split at h
  case h_1 hstage =>
    obtain rfl := Option.some.inj h
    exact proceed_cases (.fail (hstage ▸ nofun)) (fun name hname => .begin hstage hname)
  case h_2 name hstage =>
    obtain rfl := Option.some.inj h
    exact proceed_cases (.fail (hstage ▸ nofun)) (fun _ hname => .check hstage hname)
  case h_3 hstage =>
    obtain rfl := Option.some.inj h
    exact proceed_cases (.fail (hstage ▸ nofun)) (fun models hmodels => .resolve hstage hmodels)
  case h_4 models hstage =>
    split at h
    · next token input hrequest => exact insertEndpoint_move hstage hrequest h
    · next input hrequest => exact updateEndpoint_move hstage hrequest h
  case h_5 hstage =>
    obtain rfl := Option.some.inj h
    exact .commit (.inl hstage)
  case h_6 models hstage =>
    obtain rfl := Option.some.inj h
    exact .selectRoutes _ hstage
  case h_7 row rest models hstage =>
    obtain ⟨routes, -, rfl⟩ := Option.map_eq_some_iff.mp h
    exact .deleteRoute routes hstage
  case h_8 models hstage =>
    obtain rfl := Option.some.inj h
    exact .selectModels hstage
  case h_9 row rest models hstage =>
    obtain ⟨rows, hrow, rfl⟩ := Option.map_eq_some_iff.mp h
    exact .deleteModel hstage hrow
  case h_10 models hstage =>
    obtain rfl := Option.some.inj h
    exact .startInserting hstage
  case h_11 row rest hstage => exact insertModel_move hstage h
  case h_12 hstage =>
    obtain rfl := Option.some.inj h
    exact .commit (.inr hstage)
  case h_13 => exact nomatch h
  case h_14 => exact nomatch h

theorem EndpointStep.move {s s' : EndpointState ι} {action : EndpointAction ι}
    (h : EndpointStep serde catalog identityId calls s action s') :
    EndpointMove serde catalog identityId calls s action.call s' := by
  cases action with
  | statement call => exact nextStatement_move h
  | rollback call =>
    unfold EndpointStep EndpointState.next at h
    dsimp only at h
    split_ifs at h with hopen
    obtain rfl := Option.some.inj h
    exact .fail hopen

end moves

end Prelay.Store
