import Prelay.CatalogConsistency
import Prelay.Transactions

namespace Prelay.Store

open Json Bridge Relational Transactions

section sharing

structure UpdateProviderSharingRequest where
  visibility : ProviderVisibility
  identityIds : List String

def validateSharingInput (db : Database) (ownerIdentityId : String) (input : UpdateProviderSharingRequest) :
    Except StorageError Unit :=
  if ¬input.identityIds.Nodup then .error (.invalidProviderSharing "selected identities must be unique")
  else if input.visibility ≠ .selected ∧ input.identityIds ≠ [] then
    .error (.invalidProviderSharing "private and all visibility must not include selected identities")
  else if input.visibility ≠ .selected then .ok ()
  else if ownerIdentityId ∈ input.identityIds then
    .error (.invalidProviderSharing "provider owner cannot be a selected grantee")
  else if (db.identities.filter (fun row => row.id ∈ input.identityIds)).length ≠ input.identityIds.length then
    .error (.invalidProviderSharing "selected identity does not exist")
  else .ok ()

def UpdateProviderSharingRequest.grantees (input : UpdateProviderSharingRequest) : List String :=
  if input.visibility = .selected then input.identityIds else []

inductive SharingRequest where
  | update (input : UpdateProviderSharingRequest) (createdAt : ℤ)
  | delete

structure SharingCall where
  identityId : String
  providerId : String
  request : SharingRequest

def SharingCall.shareRow (call : SharingCall) (createdAt : ℤ) (granteeIdentityId : String) : ProviderShare where
  providerId := call.providerId
  granteeIdentityId := granteeIdentityId
  createdAt := createdAt

/-- Where a call stands. A `DELETE` keeps the rows of its snapshot that it has not reached; a deleted provider takes its
shares with it. -/
inductive SharingStage where
  | waiting
  | owned
  | validated
  | updated
  | deletingShares (rest : List ProviderShare)
  | inserting (rest : List String)
  | cascading (rest : List ProviderShare)
  | committed
  | failed

structure SharingState (ι : Type) where
  fixed : Database
  identities : List Identity
  providers : Table ι ProviderConfig
  shares : Table ι ProviderShare
  stage : ι → SharingStage
  log : List (String × UpdateProviderSharingRequest) := []

namespace SharingState

variable {ι : Type} (s : SharingState ι)

def db : Database :=
  { s.fixed with identities := s.identities, providers := s.providers.rows, shares := s.shares.rows }

def initial (start : Database) : SharingState ι where
  fixed := start
  identities := start.identities
  providers := ⟨start.providers, fun _ => {}⟩
  shares := ⟨start.shares, fun _ => {}⟩
  stage := fun _ => .waiting

variable [DecidableEq ι]

def enter (call : ι) (stage : SharingStage) : SharingState ι := { s with stage := Function.update s.stage call stage }

def fail (call : ι) : SharingState ι :=
  { s.enter call .failed with providers := s.providers.rollback call, shares := s.shares.rollback call }

def commit (call : ι) : SharingState ι :=
  { s.enter call .committed with providers := s.providers.commit call, shares := s.shares.commit call }

end SharingState

def sharesOf (db : Database) (providerId : String) : List String :=
  (db.shares.filter (fun share => share.providerId = providerId)).map ProviderShare.granteeIdentityId

end sharing

section steps

variable {ι : Type} [DecidableEq ι] [Fintype ι] (calls : ι → SharingCall)

/-- The statements of the calls, one after another in any order. A statement that meets an error, and a deadlock, ends
its transaction by a rollback. What a deletion does to the mappings and routes of the provider touches none of these
tables. -/
inductive SharingStep (s : SharingState ι) : SharingState ι → Prop
  | register (identity : Identity) (hnew : ∀ other ∈ s.identities, other.id ≠ identity.id) :
      SharingStep s { s with identities := s.identities ++ [identity] }
  | begin {call : ι} {provider : ProviderConfig} (hstage : s.stage call = .waiting)
      (howned : ownedProvider s.db (calls call).identityId (calls call).providerId = .ok provider) :
      SharingStep s (s.enter call .owned)
  | validate {call : ι} {input : UpdateProviderSharingRequest} {createdAt : ℤ} (hstage : s.stage call = .owned)
      (hrequest : (calls call).request = .update input createdAt)
      (hvalid : validateSharingInput s.db (calls call).identityId input = .ok ()) :
      SharingStep s (s.enter call .validated)
  | update {call : ι} {input : UpdateProviderSharingRequest} {createdAt : ℤ} {row : ProviderConfig}
      (hstage : s.stage call = .validated) (hrequest : (calls call).request = .update input createdAt)
      (hrow : row ∈ s.providers.rows) (hid : row.id = (calls call).providerId) (hfree : ¬s.providers.Locked call row) :
      SharingStep s { s.enter call .updated with
        providers := (s.providers.delete call row).insert call
          { row with visibility := visibilityValue input.visibility } }
  | selectShares {call : ι}
      (hstage : s.stage call = .updated ∨ s.stage call = .owned ∧ (calls call).request = .delete) :
      SharingStep s (s.enter call (.deletingShares
        ((s.shares.view call).filter (fun share => share.providerId = (calls call).providerId))))
  | deleteShare {call : ι} {share : ProviderShare} {rest : List ProviderShare} {shares : Table ι ProviderShare}
      (hstage : s.stage call = .deletingShares (share :: rest))
      (hshare : s.shares.deleteNext call share = some shares) :
      SharingStep s { s.enter call (.deletingShares rest) with shares := shares }
  | startInserting {call : ι} {input : UpdateProviderSharingRequest} {createdAt : ℤ}
      (hstage : s.stage call = .deletingShares []) (hrequest : (calls call).request = .update input createdAt) :
      SharingStep s (s.enter call (.inserting input.grantees))
  | insertShare {call : ι} {input : UpdateProviderSharingRequest} {createdAt : ℤ} {grantee : String}
      {rest : List String} {shares : Table ι ProviderShare} (hstage : s.stage call = .inserting (grantee :: rest))
      (hrequest : (calls call).request = .update input createdAt)
      (hinsert : s.shares.tryInsert call
        (fun other => other.providerId = (calls call).providerId ∧ other.granteeIdentityId = grantee)
        ((calls call).shareRow createdAt grantee) = some (some shares))
      (hprovider : shareProvider.HasParent (s.providers.view call) ((calls call).shareRow createdAt grantee))
      (hgrantee : shareGrantee.HasParent s.identities ((calls call).shareRow createdAt grantee)) :
      SharingStep s { s.enter call (.inserting rest) with shares := shares }
  | commitUpdate {call : ι} {input : UpdateProviderSharingRequest} {createdAt : ℤ}
      (hstage : s.stage call = .inserting []) (hrequest : (calls call).request = .update input createdAt) :
      SharingStep s { s.commit call with log := s.log ++ [((calls call).providerId, input)] }
  | deleteProvider {call : ι} {row : ProviderConfig} (hstage : s.stage call = .deletingShares [])
      (hrequest : (calls call).request = .delete) (hrow : row ∈ s.providers.rows)
      (hid : row.id = (calls call).providerId) (hfree : ¬s.providers.Locked call row) :
      SharingStep s { s.enter call (.cascading
          ((s.shares.view call).filter (fun share => share.providerId = (calls call).providerId))) with
        providers := s.providers.delete call row }
  | deleteMissing {call : ι} (hstage : s.stage call = .deletingShares []) (hrequest : (calls call).request = .delete)
      (hmissing : ∀ row ∈ s.providers.rows, row.id ≠ (calls call).providerId) : SharingStep s (s.commit call)
  | cascade {call : ι} {share : ProviderShare} {rest : List ProviderShare} {shares : Table ι ProviderShare}
      (hstage : s.stage call = .cascading (share :: rest)) (hshare : s.shares.deleteNext call share = some shares) :
      SharingStep s { s.enter call (.cascading rest) with shares := shares }
  | commitDelete {call : ι} (hstage : s.stage call = .cascading []) : SharingStep s (s.commit call)
  | fail {call : ι} (hopen : s.stage call ≠ .committed) : SharingStep s (s.fail call)

end steps

end Prelay.Store
