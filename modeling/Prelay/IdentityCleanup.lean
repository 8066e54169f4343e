import Prelay.Fallible
import Prelay.Schema

namespace Prelay.Store

open Relational Bridge

/-- The end of a statement: its foreign keys without an action are checked. -/
def enforce (keys : Prop) [Decidable keys] (db : Database) : Except StorageError Database :=
  if keys then .ok db else .error (.database .foreignKeyViolation)

theorem enforce_ok {keys : Prop} [Decidable keys] {db db' : Database} : enforce keys db = .ok db' ↔ keys ∧ db = db' := by
  unfold enforce
  split_ifs with h
  · simp [h]
  · simp [h]

namespace Database

section statements

variable (db : Database)

def deleteActivities (p : Activity → Bool) : Database :=
  let activities := db.activities.filter (fun row => !p row)
  { db with activities := activities, rollouts := rolloutActivity.cascade db.rollouts activities }

def deleteSessions (p : ResponseSession → Bool) : Database :=
  { db with sessions := db.sessions.filter (fun row => !p row) }

def deleteRoutes (p : EndpointModelRoute → Bool) : Database :=
  { db with routes := db.routes.filter (fun row => !p row) }

def deleteModels (p : EndpointModel → Bool) : Database :=
  { db with models := db.models.filter (fun row => !p row) }

def deleteEndpoints (p : EndpointConfig → Bool) : Except StorageError Database :=
  let endpoints := db.endpoints.filter (fun row => !p row)
  enforce (modelEndpoint.Holds db.models endpoints ∧ routeEndpoint.Holds db.routes endpoints)
    { db with endpoints := endpoints }

def deleteProviders (p : ProviderConfig → Bool) : Except StorageError Database :=
  let providers := db.providers.filter (fun row => !p row)
  enforce (modelProvider.Holds db.models providers ∧ routeProvider.Holds db.routes providers)
    { db with providers := providers, shares := shareProvider.cascade db.shares providers }

def deleteIdentities (p : Identity → Bool) : Except StorageError Database :=
  let identities := db.identities.filter (fun row => !p row)
  enforce (providerIdentity.Holds db.providers identities ∧ endpointIdentity.Holds db.endpoints identities ∧
      sessionIdentity.Holds db.sessions identities ∧ activityIdentity.Holds db.activities identities)
    { db with identities := identities, shares := shareGrantee.cascade db.shares identities }

end statements

end Database

structure DeleteInactiveResult where
  deleted : ℕ
  rolloutPaths : List String
  deriving DecidableEq

def inactiveIds (cutoff : ℤ) (db : Database) : List String :=
  (db.identities.filter (fun identity => identity.lastActiveAt ≤ cutoff)).map Identity.id

def endpointIds (identityIds : List String) (db : Database) : List String :=
  (db.endpoints.filter (fun endpoint => endpoint.identityId ∈ identityIds)).map EndpointConfig.id

def activityIds (identityIds : List String) (db : Database) : List String :=
  (db.activities.filter (fun activity => activity.identityId ∈ identityIds)).map Activity.id

def deleteInactive (now retention : ℤ) (db : Database) : Except StorageError (DeleteInactiveResult × Database) := do
  let identityIds := inactiveIds (now - retention) db
  if identityIds.isEmpty then .ok ({ deleted := 0, rolloutPaths := [] }, db)
  else
    let endpointIds := endpointIds identityIds db
    let activityIds := activityIds identityIds db
    let rolloutPaths := if activityIds.isEmpty then [] else
      (db.rollouts.filter (fun rollout => rollout.activityId ∈ activityIds)).map ActivityRollout.rolloutPath
    let db := db.deleteActivities (fun activity => activity.identityId ∈ identityIds)
    let db := db.deleteSessions (fun session => session.identityId ∈ identityIds)
    let db := if endpointIds.isEmpty then db else
      (db.deleteRoutes (fun route => route.endpointId ∈ endpointIds)).deleteModels
        (fun model => model.endpointId ∈ endpointIds)
    let db ← db.deleteEndpoints (fun endpoint => endpoint.identityId ∈ identityIds)
    let db ← db.deleteProviders (fun provider => provider.identityId ∈ identityIds)
    let deleted := db.identities.countP (fun identity => identity.id ∈ identityIds)
    let db ← db.deleteIdentities (fun identity => identity.id ∈ identityIds)
    .ok ({ deleted := deleted, rolloutPaths := rolloutPaths }, db)

section cleaned

variable (cutoff : ℤ) (db : Database)

def GoneIdentity (id : String) : Prop := ∃ identity ∈ db.identities, identity.id = id ∧ identity.lastActiveAt ≤ cutoff

def GoneProvider (id : String) : Prop :=
  ∃ provider ∈ db.providers, provider.id = id ∧ GoneIdentity cutoff db provider.identityId

def GoneEndpoint (id : String) : Prop :=
  ∃ endpoint ∈ db.endpoints, endpoint.id = id ∧ GoneIdentity cutoff db endpoint.identityId

def GoneActivity (id : String) : Prop :=
  ∃ activity ∈ db.activities, activity.id = id ∧ GoneIdentity cutoff db activity.identityId

instance (id : String) : Decidable (GoneIdentity cutoff db id) :=
  inferInstanceAs (Decidable (∃ identity ∈ db.identities, identity.id = id ∧ identity.lastActiveAt ≤ cutoff))

instance (id : String) : Decidable (GoneProvider cutoff db id) :=
  inferInstanceAs (Decidable (∃ provider ∈ db.providers, provider.id = id ∧ GoneIdentity cutoff db provider.identityId))

instance (id : String) : Decidable (GoneEndpoint cutoff db id) :=
  inferInstanceAs (Decidable (∃ endpoint ∈ db.endpoints, endpoint.id = id ∧ GoneIdentity cutoff db endpoint.identityId))

instance (id : String) : Decidable (GoneActivity cutoff db id) :=
  inferInstanceAs (Decidable (∃ activity ∈ db.activities, activity.id = id ∧ GoneIdentity cutoff db activity.identityId))

def cleaned : Database where
  identities := db.identities.filter (fun identity => ¬identity.lastActiveAt ≤ cutoff)
  providers := db.providers.filter (fun provider => ¬GoneIdentity cutoff db provider.identityId)
  shares := db.shares.filter (fun share =>
    ¬GoneProvider cutoff db share.providerId ∧ ¬GoneIdentity cutoff db share.granteeIdentityId)
  endpoints := db.endpoints.filter (fun endpoint => ¬GoneIdentity cutoff db endpoint.identityId)
  models := db.models.filter (fun model =>
    ¬GoneEndpoint cutoff db model.endpointId ∧ ¬GoneProvider cutoff db model.providerId)
  routes := db.routes.filter (fun route =>
    ¬GoneEndpoint cutoff db route.endpointId ∧ ¬GoneProvider cutoff db route.providerId)
  sessions := db.sessions.filter (fun session => ¬GoneIdentity cutoff db session.identityId)
  activities := db.activities.filter (fun activity => ¬GoneIdentity cutoff db activity.identityId)
  rollouts := db.rollouts.filter (fun rollout => ¬GoneActivity cutoff db rollout.activityId)

def cleanedResult : DeleteInactiveResult where
  deleted := db.identities.countP (fun identity => identity.lastActiveAt ≤ cutoff)
  rolloutPaths :=
    (db.rollouts.filter (fun rollout => GoneActivity cutoff db rollout.activityId)).map ActivityRollout.rolloutPath

/-- No endpoint of an active identity maps or routes a provider of an inactive one. -/
def NoForeignUse : Prop :=
  (∀ model ∈ db.models, GoneProvider cutoff db model.providerId → GoneEndpoint cutoff db model.endpointId) ∧
    ∀ route ∈ db.routes, GoneProvider cutoff db route.providerId → GoneEndpoint cutoff db route.endpointId

end cleaned

section proofs

variable {cutoff : ℤ} {db : Database}

theorem mem_inactiveIds {id : String} : id ∈ inactiveIds cutoff db ↔ GoneIdentity cutoff db id := by
  simp [inactiveIds, GoneIdentity, and_right_comm, and_assoc]

theorem mem_endpointIds {id : String} : id ∈ endpointIds (inactiveIds cutoff db) db ↔ GoneEndpoint cutoff db id := by
  simp [endpointIds, GoneEndpoint, mem_inactiveIds, and_right_comm, and_assoc]

theorem mem_activityIds {id : String} : id ∈ activityIds (inactiveIds cutoff db) db ↔ GoneActivity cutoff db id := by
  simp [activityIds, GoneActivity, mem_inactiveIds, and_right_comm, and_assoc]

theorem not_goneIdentity {id : String} : ¬GoneIdentity cutoff db id ↔
    ∀ identity ∈ db.identities, identity.id = id → ¬identity.lastActiveAt ≤ cutoff := by
  simp only [GoneIdentity, not_exists, not_and]

theorem not_goneProvider {id : String} : ¬GoneProvider cutoff db id ↔
    ∀ provider ∈ db.providers, provider.id = id → ¬GoneIdentity cutoff db provider.identityId := by
  simp only [GoneProvider, not_exists, not_and]

theorem not_goneEndpoint {id : String} : ¬GoneEndpoint cutoff db id ↔
    ∀ endpoint ∈ db.endpoints, endpoint.id = id → ¬GoneIdentity cutoff db endpoint.identityId := by
  simp only [GoneEndpoint, not_exists, not_and]

theorem not_goneActivity {id : String} : ¬GoneActivity cutoff db id ↔
    ∀ activity ∈ db.activities, activity.id = id → ¬GoneIdentity cutoff db activity.identityId := by
  simp only [GoneActivity, not_exists, not_and]

theorem goneIdentity_iff (h : db.Valid) {identity : Identity} (hmem : identity ∈ db.identities) :
    GoneIdentity cutoff db identity.id ↔ identity.lastActiveAt ≤ cutoff := by
  constructor
  · rintro ⟨other, hother, hid, hinactive⟩
    obtain rfl := List.inj_on_of_nodup_map h.identityKey hmem hother hid.symm
    exact hinactive
  · intro hinactive
    exact ⟨identity, hmem, rfl, hinactive⟩

theorem filter_inactive {α : Type} (rows : List α) (identityId : α → String) :
    rows.filter (fun row => !decide (identityId row ∈ inactiveIds cutoff db)) =
      rows.filter (fun row => ¬GoneIdentity cutoff db (identityId row)) := by
  apply List.filter_congr
  intro row _
  rw [← decide_not, decide_eq_decide, mem_inactiveIds]

theorem filter_endpoint {α : Type} (rows : List α) (endpointId : α → String) :
    rows.filter (fun row => !decide (endpointId row ∈ endpointIds (inactiveIds cutoff db) db)) =
      rows.filter (fun row => ¬GoneEndpoint cutoff db (endpointId row)) := by
  apply List.filter_congr
  intro row _
  rw [← decide_not, decide_eq_decide, mem_endpointIds]

theorem filter_identities (h : db.Valid) :
    db.identities.filter (fun identity => !decide (identity.id ∈ inactiveIds cutoff db)) =
      (cleaned cutoff db).identities := by
  apply List.filter_congr
  intro identity hmem
  rw [← decide_not, decide_eq_decide, mem_inactiveIds, goneIdentity_iff h hmem]

def withoutEndpoints (cutoff : ℤ) (db : Database) : Database :=
  { db with
    activities := (cleaned cutoff db).activities
    rollouts := (cleaned cutoff db).rollouts
    sessions := (cleaned cutoff db).sessions
    routes := db.routes.filter (fun route => ¬GoneEndpoint cutoff db route.endpointId)
    models := db.models.filter (fun model => ¬GoneEndpoint cutoff db model.endpointId)
    endpoints := (cleaned cutoff db).endpoints }

theorem cascade_rollouts (h : db.Valid) :
    rolloutActivity.cascade db.rollouts (cleaned cutoff db).activities = (cleaned cutoff db).rollouts := by
  refine (ForeignKey.cascade_filter h.activityKey h.rolloutActivity _).trans (List.filter_congr ?_)
  intro rollout _
  simp only [decide_eq_true_iff]
  exact decide_eq_decide.mpr not_goneActivity.symm

theorem cascade_shares (h : db.Valid) :
    shareGrantee.cascade (shareProvider.cascade db.shares (cleaned cutoff db).providers) (cleaned cutoff db).identities =
      (cleaned cutoff db).shares := by
  have hgrantee : shareGrantee.Holds (shareProvider.cascade db.shares (cleaned cutoff db).providers) db.identities :=
    fun share hshare => h.shareGrantee share (List.mem_of_mem_filter hshare)
  refine (ForeignKey.cascade_filter h.identityKey hgrantee _).trans ?_
  have hprovider : shareProvider.cascade db.shares (cleaned cutoff db).providers = _ :=
    ForeignKey.cascade_filter h.providerKey h.shareProvider _
  rw [hprovider, List.filter_filter]
  apply List.filter_congr
  intro share _
  rw [← Bool.decide_and, decide_eq_decide]
  simp only [decide_eq_true_iff]
  exact (and_congr not_goneIdentity not_goneProvider).symm.trans and_comm

theorem deleteEndpoints_eq (h : db.Valid) :
    { withoutEndpoints cutoff db with endpoints := db.endpoints }.deleteEndpoints
      (fun endpoint => endpoint.identityId ∈ inactiveIds cutoff db) = .ok (withoutEndpoints cutoff db) := by
  refine enforce_ok.mpr ?_
  dsimp only
  rw [filter_inactive]
  refine ⟨⟨?_, ?_⟩, rfl⟩
  · refine (ForeignKey.holds_filter_iff h.endpointKey h.modelEndpoint).mpr ?_
    intro model _ hkept endpoint hendpoint hid
    exact decide_eq_true (not_goneEndpoint.mp (of_decide_eq_true hkept) endpoint hendpoint hid)
  · refine (ForeignKey.holds_filter_iff h.endpointKey h.routeEndpoint).mpr ?_
    intro route _ hkept endpoint hendpoint hid
    exact decide_eq_true (not_goneEndpoint.mp (of_decide_eq_true hkept) endpoint hendpoint hid)

theorem providers_free (h : db.Valid) :
    (modelProvider.Holds (withoutEndpoints cutoff db).models (cleaned cutoff db).providers ∧
      routeProvider.Holds (withoutEndpoints cutoff db).routes (cleaned cutoff db).providers) ↔ NoForeignUse cutoff db := by
  refine and_congr ?_ ?_
  · refine (ForeignKey.holds_filter_iff h.providerKey h.modelProvider).trans (forall₂_congr (fun model _ => ?_))
    simp only [decide_eq_true_iff]
    exact (imp_congr_right (fun _ => not_goneProvider.symm)).trans not_imp_not
  · refine (ForeignKey.holds_filter_iff h.providerKey h.routeProvider).trans (forall₂_congr (fun route _ => ?_))
    simp only [decide_eq_true_iff]
    exact (imp_congr_right (fun _ => not_goneProvider.symm)).trans not_imp_not

theorem withoutEndpoints_rows (h : NoForeignUse cutoff db) :
    (withoutEndpoints cutoff db).models = (cleaned cutoff db).models ∧
      (withoutEndpoints cutoff db).routes = (cleaned cutoff db).routes := by
  constructor
  · apply List.filter_congr
    intro model hmodel
    rw [decide_eq_decide]
    exact ⟨fun hkept => ⟨hkept, fun hgone => hkept (h.1 model hmodel hgone)⟩, And.left⟩
  · apply List.filter_congr
    intro route hroute
    rw [decide_eq_decide]
    exact ⟨fun hkept => ⟨hkept, fun hgone => hkept (h.2 route hroute hgone)⟩, And.left⟩

theorem identities_free (h : db.Valid) :
    providerIdentity.Holds (cleaned cutoff db).providers (cleaned cutoff db).identities ∧
      endpointIdentity.Holds (cleaned cutoff db).endpoints (cleaned cutoff db).identities ∧
      sessionIdentity.Holds (cleaned cutoff db).sessions (cleaned cutoff db).identities ∧
      activityIdentity.Holds (cleaned cutoff db).activities (cleaned cutoff db).identities := by
  have hkept : ∀ {α : Type} {fk : ForeignKey α Identity String} (rows : List α), fk.key = Identity.id →
      fk.Holds rows db.identities → fk.Holds (rows.filter (fun row => ¬GoneIdentity cutoff db (fk.references row)))
        (cleaned cutoff db).identities := by
    intro α fk rows hid hholds
    refine (ForeignKey.holds_filter_iff (hid ▸ h.identityKey) hholds).mpr ?_
    intro row _ hrow identity hidentity hkey
    exact decide_eq_true (not_goneIdentity.mp (of_decide_eq_true hrow) identity hidentity (hid ▸ hkey))
  exact ⟨hkept _ rfl h.providerIdentity, hkept _ rfl h.endpointIdentity, hkept _ rfl h.sessionIdentity,
    hkept _ rfl h.activityIdentity⟩

theorem cleaned_valid (h : db.Valid) : (cleaned cutoff db).Valid := by
  obtain ⟨hproviders, hendpoints, hsessions, hactivities⟩ := @identities_free cutoff db h
  have hshares := @cascade_shares cutoff db h
  refine ⟨nodup_map_filter h.identityKey _, nodup_map_filter h.providerKey _, nodup_map_filter h.endpointKey _,
    nodup_map_filter h.activityKey _, hproviders, ?_, ?_, hendpoints, ?_, ?_, ?_, ?_, hsessions, hactivities, ?_⟩
  · rw [← hshares]
    exact fun share hshare => ForeignKey.holds_cascade _ _ share (List.mem_of_mem_filter hshare)
  · rw [← hshares]
    exact ForeignKey.holds_cascade _ _
  · refine (ForeignKey.holds_filter_iff h.endpointKey h.modelEndpoint).mpr ?_
    intro model _ hkept endpoint hendpoint hid
    exact decide_eq_true (not_goneEndpoint.mp (of_decide_eq_true hkept).1 endpoint hendpoint hid)
  · refine (ForeignKey.holds_filter_iff h.providerKey h.modelProvider).mpr ?_
    intro model _ hkept provider hprovider hid
    exact decide_eq_true (not_goneProvider.mp (of_decide_eq_true hkept).2 provider hprovider hid)
  · refine (ForeignKey.holds_filter_iff h.endpointKey h.routeEndpoint).mpr ?_
    intro route _ hkept endpoint hendpoint hid
    exact decide_eq_true (not_goneEndpoint.mp (of_decide_eq_true hkept).1 endpoint hendpoint hid)
  · refine (ForeignKey.holds_filter_iff h.providerKey h.routeProvider).mpr ?_
    intro route _ hkept provider hprovider hid
    exact decide_eq_true (not_goneProvider.mp (of_decide_eq_true hkept).2 provider hprovider hid)
  · rw [← cascade_rollouts h]
    exact ForeignKey.holds_cascade _ _

theorem deleteRows_empty (db : Database) (ids : List String) :
    (if ids.isEmpty then db else
      (db.deleteRoutes (fun route => route.endpointId ∈ ids)).deleteModels (fun model => model.endpointId ∈ ids)) =
      (db.deleteRoutes (fun route => route.endpointId ∈ ids)).deleteModels (fun model => model.endpointId ∈ ids) := by
  cases ids with
  | nil => simp [Database.deleteRoutes, Database.deleteModels]
  | cons id ids => rfl

theorem rolloutPaths_empty (rollouts : List ActivityRollout) (ids : List String) :
    (if ids.isEmpty then [] else
      (rollouts.filter (fun rollout => rollout.activityId ∈ ids)).map ActivityRollout.rolloutPath) =
      (rollouts.filter (fun rollout => rollout.activityId ∈ ids)).map ActivityRollout.rolloutPath := by
  cases ids with
  | nil => simp
  | cons id ids => rfl

theorem deleteRows_eq (h : db.Valid) :
    (((db.deleteActivities (fun activity => activity.identityId ∈ inactiveIds cutoff db)).deleteSessions
      (fun session => session.identityId ∈ inactiveIds cutoff db)).deleteRoutes
      (fun route => route.endpointId ∈ endpointIds (inactiveIds cutoff db) db)).deleteModels
      (fun model => model.endpointId ∈ endpointIds (inactiveIds cutoff db) db) =
    { withoutEndpoints cutoff db with endpoints := db.endpoints } := by
  have hactivities := @filter_inactive cutoff db _ db.activities Activity.identityId
  have hrollouts := @cascade_rollouts cutoff db h
  have hsessions := @filter_inactive cutoff db _ db.sessions ResponseSession.identityId
  have hroutes := @filter_endpoint cutoff db _ db.routes EndpointModelRoute.endpointId
  have hmodels := @filter_endpoint cutoff db _ db.models EndpointModel.endpointId
  unfold Database.deleteActivities Database.deleteSessions Database.deleteRoutes Database.deleteModels
  dsimp only
  rw [hactivities, hsessions, hroutes, hmodels]
  exact congrArg (fun rollouts => { withoutEndpoints cutoff db with endpoints := db.endpoints, rollouts := rollouts })
    hrollouts

theorem not_gone_of_active (h : inactiveIds cutoff db = []) (id : String) : ¬GoneIdentity cutoff db id := by
  intro hid
  have hmem := mem_inactiveIds.mpr hid
  rw [h] at hmem
  exact nomatch hmem

theorem cleaned_of_active (h : inactiveIds cutoff db = []) : cleaned cutoff db = db := by
  have hnone := not_gone_of_active h
  have hactive : ∀ identity ∈ db.identities, cutoff < identity.lastActiveAt := by
    intro identity hidentity
    by_contra hinactive
    exact hnone identity.id ⟨identity, hidentity, rfl, not_lt.mp hinactive⟩
  have hidentities : db.identities.filter (fun identity => ¬identity.lastActiveAt ≤ cutoff) = db.identities := by
    rw [List.filter_eq_self]
    intro identity hidentity
    simpa using hactive identity hidentity
  unfold cleaned
  simp only [hidentities, GoneProvider, GoneEndpoint, GoneActivity, hnone]
  simp

theorem cleanedResult_of_active (h : inactiveIds cutoff db = []) :
    cleanedResult cutoff db = { deleted := 0, rolloutPaths := [] } := by
  have hnone := not_gone_of_active h
  have hcount : db.identities.countP (fun identity => identity.lastActiveAt ≤ cutoff) = 0 := by
    have hlength := congrArg List.length h
    rw [inactiveIds, List.length_map] at hlength
    rw [List.countP_eq_length_filter]
    exact hlength
  unfold cleanedResult
  rw [hcount]
  simp [GoneActivity, hnone]

theorem countP_inactive (h : db.Valid) :
    db.identities.countP (fun identity => identity.id ∈ inactiveIds cutoff db) = (cleanedResult cutoff db).deleted := by
  apply List.countP_congr
  intro identity hmem
  rw [decide_eq_true_iff, decide_eq_true_iff, mem_inactiveIds, goneIdentity_iff h hmem]

theorem rolloutPaths_eq :
    (db.rollouts.filter (fun rollout => rollout.activityId ∈ activityIds (inactiveIds cutoff db) db)).map
      ActivityRollout.rolloutPath = (cleanedResult cutoff db).rolloutPaths := by
  refine congrArg (List.map ActivityRollout.rolloutPath) (List.filter_congr ?_)
  intro rollout _
  rw [decide_eq_decide, mem_activityIds]

end proofs

section main

variable {db : Database}

theorem deleteInactive_active {now retention : ℤ} (h : inactiveIds (now - retention) db = []) :
    deleteInactive now retention db = .ok (cleanedResult (now - retention) db, cleaned (now - retention) db) := by
  unfold deleteInactive
  rw [h, cleaned_of_active h, cleanedResult_of_active h]
  rfl

theorem deleteInactive_inactive (hvalid : db.Valid) {now retention : ℤ} (h : inactiveIds (now - retention) db ≠ []) :
    deleteInactive now retention db = (do
      let swept ← (withoutEndpoints (now - retention) db).deleteProviders
        (fun provider => provider.identityId ∈ inactiveIds (now - retention) db)
      let deleted := swept.identities.countP (fun identity => identity.id ∈ inactiveIds (now - retention) db)
      let swept ← swept.deleteIdentities (fun identity => identity.id ∈ inactiveIds (now - retention) db)
      .ok ({ deleted := deleted, rolloutPaths := (cleanedResult (now - retention) db).rolloutPaths }, swept)) := by
  unfold deleteInactive
  dsimp only
  rw [if_neg (by simpa using h), rolloutPaths_empty, deleteRows_empty, rolloutPaths_eq, deleteRows_eq hvalid,
    deleteEndpoints_eq hvalid]
  rfl

theorem deleteProviders_eq (cutoff : ℤ) (db : Database) :
    (withoutEndpoints cutoff db).deleteProviders (fun provider => provider.identityId ∈ inactiveIds cutoff db) =
      enforce (modelProvider.Holds (withoutEndpoints cutoff db).models (cleaned cutoff db).providers ∧
          routeProvider.Holds (withoutEndpoints cutoff db).routes (cleaned cutoff db).providers)
        { withoutEndpoints cutoff db with
          providers := (cleaned cutoff db).providers
          shares := shareProvider.cascade db.shares (cleaned cutoff db).providers } := by
  have hproviders := @filter_inactive cutoff db _ db.providers ProviderConfig.identityId
  unfold Database.deleteProviders
  dsimp only
  rw [show (withoutEndpoints cutoff db).providers = db.providers from rfl, hproviders]
  rfl

theorem deleteIdentities_eq {cutoff : ℤ} (hvalid : db.Valid) (hfree : NoForeignUse cutoff db) :
    { withoutEndpoints cutoff db with
      providers := (cleaned cutoff db).providers
      shares := shareProvider.cascade db.shares (cleaned cutoff db).providers }.deleteIdentities
        (fun identity => identity.id ∈ inactiveIds cutoff db) = .ok (cleaned cutoff db) := by
  obtain ⟨hmodels, hroutes⟩ := withoutEndpoints_rows hfree
  refine enforce_ok.mpr ?_
  dsimp only
  rw [show (withoutEndpoints cutoff db).identities = db.identities from rfl, filter_identities hvalid,
    cascade_shares hvalid, hmodels, hroutes]
  exact ⟨identities_free hvalid, rfl⟩

/-- The cleanup does what it is for exactly when no active identity uses a provider of an inactive one. -/
theorem deleteInactive_iff (hvalid : db.Valid) (now retention : ℤ) :
    (deleteInactive now retention db = .ok (cleanedResult (now - retention) db, cleaned (now - retention) db) ∧
      (cleaned (now - retention) db).Valid) ↔ NoForeignUse (now - retention) db := by
  by_cases hactive : inactiveIds (now - retention) db = []
  · have hnone : ∀ id, ¬GoneProvider (now - retention) db id := by
      rintro id ⟨provider, -, -, hgone⟩
      exact not_gone_of_active hactive _ hgone
    constructor
    · intro _
      exact ⟨fun model _ hgone => absurd hgone (hnone _), fun route _ hgone => absurd hgone (hnone _)⟩
    · intro _
      exact ⟨deleteInactive_active hactive, cleaned_valid hvalid⟩
  · rw [deleteInactive_inactive hvalid hactive, deleteProviders_eq]
    constructor
    · rintro ⟨h, -⟩
      obtain ⟨after, hafter, -⟩ := bind_ok h
      exact (providers_free hvalid).mp (enforce_ok.mp hafter).1
    · intro hfree
      refine ⟨?_, cleaned_valid hvalid⟩
      rw [enforce_ok.mpr ⟨(providers_free hvalid).mpr hfree, rfl⟩]
      have hcount := @countP_inactive (now - retention) db hvalid
      have hidentities := deleteIdentities_eq hvalid hfree
      dsimp only [bind, Except.bind]
      rw [hidentities]
      dsimp only
      rw [show (withoutEndpoints (now - retention) db).identities = db.identities from rfl, hcount]

def identityRow (id : String) (lastActiveAt : ℤ) : Identity :=
  { id := id, machineId := id, accountSid := id, credentialHash := "", displayName := "", createdAt := 0,
    lastActiveAt := lastActiveAt }

def providerRow (id identityId : String) : ProviderConfig :=
  { id := id, identityId := identityId, name := id, providerType := "deepseek", visibility := "all", baseUrl := "",
    apiKeyCiphertext := "", capabilitiesJson := none, modelsJson := none, createdAt := 0 }

def endpointRow (id identityId : String) : EndpointConfig :=
  { id := id, identityId := identityId, name := id, protocol := "all", token := id, createdAt := 0 }

def modelRow (id endpointId providerId : String) : EndpointModel :=
  { id := id, endpointId := endpointId, modelName := "chat", providerId := providerId, upstreamModel := "chat",
    candidateOrder := 0, createdAt := 0 }

def sharedDatabase (endpointOwner : String) : Database where
  identities := [identityRow "owner" 0, identityRow "user" 100]
  providers := [providerRow "provider" "owner"]
  endpoints := [endpointRow "endpoint" endpointOwner]
  models := [modelRow "model" "endpoint" "provider"]

theorem sharedDatabase_valid {endpointOwner : String} (h : endpointOwner = "owner" ∨ endpointOwner = "user") :
    (sharedDatabase endpointOwner).Valid := by
  obtain rfl | rfl := h
  all_goals constructor <;> decide

theorem deleteInactive_own_provider :
    deleteInactive 90 10 (sharedDatabase "owner") =
        .ok (cleanedResult 80 (sharedDatabase "owner"), cleaned 80 (sharedDatabase "owner")) ∧
      (cleaned 80 (sharedDatabase "owner")).Valid :=
  (deleteInactive_iff (sharedDatabase_valid (Or.inl rfl)) 90 10).mpr (by
    unfold NoForeignUse
    decide)

/-- The endpoint model of the user keeps the provider, and with it the identity, from being deleted. -/
theorem shared_provider_blocks_cleanup :
    (sharedDatabase "user").Valid ∧
      deleteInactive 90 10 (sharedDatabase "user") = .error (.database .foreignKeyViolation) :=
  ⟨sharedDatabase_valid (Or.inr rfl), by decide⟩

end main

end Prelay.Store
