import Prelay.ForeignKey
import Prelay.Recording

namespace Prelay.Store

open Relational Recording Rollout

inductive DbErr where
  | foreignKeyViolation
  | uniqueViolation
  | recordNotUpdated
  | numericOutOfRange
  deriving DecidableEq

inductive StorageError where
  | identityAlreadyRegistered | identityNotFound | invalidCredential | providerNotFound
  | invalidProviderSharing (message : String)
  | providerSharingNotAllowed | providerNotVisible | providerNotUsable | providerRouteUnavailable | endpointNotFound
  | activityNotFound | memoryNotFound
  | invalidStoredState (message : String)
  | validationFailed (message : String)
  | invalidTimestamp (message : String)
  | invalidMasterKey (message : String)
  | crypto (message : String)
  | rollout (message : String)
  | serialization
  | database (error : DbErr)
  deriving DecidableEq

structure Identity where
  id : String
  machineId : String
  accountSid : String
  credentialHash : String
  displayName : String
  createdAt : ℤ
  lastActiveAt : ℤ
  deriving DecidableEq

structure ProviderConfig where
  id : String
  identityId : String
  name : String
  providerType : String
  visibility : String
  baseUrl : String
  apiKeyCiphertext : String
  capabilitiesJson : Option String
  modelsJson : Option String
  createdAt : ℤ
  deriving DecidableEq

structure ProviderShare where
  providerId : String
  granteeIdentityId : String
  createdAt : ℤ
  deriving DecidableEq

structure EndpointConfig where
  id : String
  identityId : String
  name : String
  protocol : String
  token : String
  createdAt : ℤ
  deriving DecidableEq

structure EndpointModel where
  id : String
  endpointId : String
  modelName : String
  providerId : String
  upstreamModel : String
  candidateOrder : ℕ
  createdAt : ℤ
  deriving DecidableEq

structure EndpointModelRoute where
  endpointId : String
  modelName : String
  providerId : String
  updatedAt : ℤ
  deriving DecidableEq

structure ResponseSession where
  responseId : String
  identityId : String
  previousResponseId : Option String
  conversationId : Option String
  providerId : String
  model : String
  status : String
  protocolFormat : String
  upstreamResponseId : Option String
  requestItemsJson : Option String
  responseItemsJson : Option String
  expiresAt : Option ℤ
  inputMessagesJson : String
  outputItemsJson : String
  createdAt : ℤ
  deriving DecidableEq

structure Activity where
  id : String
  identityId : String
  createdAt : ℤ
  status : ActivityStatus
  httpStatus : Option ℤ
  errorCode : Option String
  errorMessage : Option String
  isStreaming : Option Bool
  inputTokens : Option ℕ
  outputTokens : Option ℕ
  reasoningTokens : Option ℕ
  cacheReadTokens : Option ℕ
  cacheWriteTokens : Option ℕ
  toolCallCount : Option ℕ
  deriving DecidableEq

structure ActivityRollout where
  activityId : String
  identityId : String
  threadId : String
  windowId : Option String
  generation : ℕ
  rolloutPath : String
  status : RolloutStatus
  startLine : ℕ
  endLine : ℕ
  eventCount : ℕ
  byteSize : ℕ
  sha256 : Option String
  createdAt : ℤ
  completedAt : Option ℤ
  lastError : Option String
  deriving DecidableEq

structure Database where
  identities : List Identity := []
  providers : List ProviderConfig := []
  shares : List ProviderShare := []
  endpoints : List EndpointConfig := []
  models : List EndpointModel := []
  routes : List EndpointModelRoute := []
  sessions : List ResponseSession := []
  activities : List Activity := []
  rollouts : List ActivityRollout := []
  deriving DecidableEq

section keys

def providerIdentity : ForeignKey ProviderConfig Identity String := ⟨ProviderConfig.identityId, Identity.id⟩
def shareProvider : ForeignKey ProviderShare ProviderConfig String := ⟨ProviderShare.providerId, ProviderConfig.id⟩
def shareGrantee : ForeignKey ProviderShare Identity String := ⟨ProviderShare.granteeIdentityId, Identity.id⟩
def endpointIdentity : ForeignKey EndpointConfig Identity String := ⟨EndpointConfig.identityId, Identity.id⟩
def modelEndpoint : ForeignKey EndpointModel EndpointConfig String := ⟨EndpointModel.endpointId, EndpointConfig.id⟩
def modelProvider : ForeignKey EndpointModel ProviderConfig String := ⟨EndpointModel.providerId, ProviderConfig.id⟩
def routeEndpoint : ForeignKey EndpointModelRoute EndpointConfig String :=
  ⟨EndpointModelRoute.endpointId, EndpointConfig.id⟩
def routeProvider : ForeignKey EndpointModelRoute ProviderConfig String :=
  ⟨EndpointModelRoute.providerId, ProviderConfig.id⟩
def sessionIdentity : ForeignKey ResponseSession Identity String := ⟨ResponseSession.identityId, Identity.id⟩
def activityIdentity : ForeignKey Activity Identity String := ⟨Activity.identityId, Identity.id⟩
def rolloutActivity : ForeignKey ActivityRollout Activity String := ⟨ActivityRollout.activityId, Activity.id⟩

end keys

structure Database.Valid (db : Database) : Prop where
  identityKey : (db.identities.map Identity.id).Nodup
  providerKey : (db.providers.map ProviderConfig.id).Nodup
  endpointKey : (db.endpoints.map EndpointConfig.id).Nodup
  activityKey : (db.activities.map Activity.id).Nodup
  providerIdentity : providerIdentity.Holds db.providers db.identities
  shareProvider : shareProvider.Holds db.shares db.providers
  shareGrantee : shareGrantee.Holds db.shares db.identities
  endpointIdentity : endpointIdentity.Holds db.endpoints db.identities
  modelEndpoint : modelEndpoint.Holds db.models db.endpoints
  modelProvider : modelProvider.Holds db.models db.providers
  routeEndpoint : routeEndpoint.Holds db.routes db.endpoints
  routeProvider : routeProvider.Holds db.routes db.providers
  sessionIdentity : sessionIdentity.Holds db.sessions db.identities
  activityIdentity : activityIdentity.Holds db.activities db.identities
  rolloutActivity : rolloutActivity.Holds db.rollouts db.activities

end Prelay.Store
