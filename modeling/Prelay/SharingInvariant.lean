import Mathlib.Logic.Relation
import Prelay.ProviderSharing

namespace Prelay.Store

open Json Bridge Relational Transactions

section access

variable {db : Database} {identityId providerId : String}

theorem parseVisibility_ok {value : String} {visibility : ProviderVisibility}
    (h : parseVisibility value = .ok visibility) : value = visibilityValue visibility := by
  unfold parseVisibility at h
  split_ifs at h with hprivate hselected hall
  · rw [← Except.ok.inj h, hprivate]
    rfl
  · rw [← Except.ok.inj h, hselected]
    rfl
  · rw [← Except.ok.inj h, hall]
    rfl

theorem visibilityValue_eq_all {visibility : ProviderVisibility} (h : visibilityValue visibility = "all") :
    visibility = .all := by
  cases visibility with
  | all => rfl
  | private_ => exact absurd h (by decide)
  | selected => exact absurd h (by decide)

/-- An identity can use a provider of its own, one that all can use, or one that is shared with it. -/
def MayUse (identityId ownerIdentityId : String) (sharing : String × List String) : Prop :=
  ownerIdentityId = identityId ∨ sharing.1 = "all" ∨ sharing.1 = "selected" ∧ identityId ∈ sharing.2

theorem mem_sharesOf : identityId ∈ sharesOf db providerId ↔
    ∃ share ∈ db.shares, share.providerId = providerId ∧ share.granteeIdentityId = identityId := by
  simp only [sharesOf, List.mem_map, List.mem_filter, decide_eq_true_eq, and_assoc]

theorem canUse_mayUse (h : canUseProviderOn db identityId providerId = .ok true) : ∃ provider,
    findProvider db providerId = some provider ∧
      MayUse identityId provider.identityId (provider.visibility, sharesOf db providerId) := by
  unfold canUseProviderOn at h
  cases hfound : findProvider db providerId with
  | none =>
    rw [hfound] at h
    cases h
  | some provider =>
    rw [hfound] at h
    refine ⟨provider, rfl, ?_⟩
    obtain ⟨visible, hvisible, hsome⟩ := map_ok h
    obtain ⟨visibility, hvisibility, hvisible⟩ := bind_ok hvisible
    have hvalue := parseVisibility_ok hvisibility
    dsimp only at hvisible
    split_ifs at hvisible with hmay
    · rcases hmay with howner | hshared
      · exact .inl howner
      · cases visibility with
        | private_ => cases hshared
        | all => exact .inr (.inl hvalue)
        | selected =>
          refine .inr (.inr ⟨hvalue, mem_sharesOf.mpr ?_⟩)
          obtain ⟨share, hshare, hkey⟩ := List.any_eq_true.mp hshared
          have hkey := of_decide_eq_true hkey
          rw [findProvider_id hfound] at hkey
          exact ⟨share, hshare, hkey⟩
    · rw [← Except.ok.inj hvisible] at hsome
      cases hsome

theorem loaded_mayUse {serde : SerdeJson} {cipher : KeyCipher} {access : ProtocolAccess} {modelName : Option String}
    {resolved : List ProtocolModel} (hload : loadProtocolModels serde cipher db access modelName = .ok resolved)
    {candidate : ProtocolModel} (hcandidate : candidate ∈ resolved) : ∃ provider ∈ db.providers,
      provider.id = candidate.provider.id ∧
        MayUse access.identityId provider.identityId (provider.visibility, sharesOf db provider.id) := by
  obtain ⟨-, -, -, hprotocol⟩ := loadProtocolModels_ok hload hcandidate
  obtain ⟨provider, hfound, husable, -, hid, -⟩ := protocolModel_ok hprotocol
  obtain ⟨provider', hfound', hmay⟩ := canUse_mayUse husable
  obtain rfl := Option.some.inj (hfound.symm.trans hfound')
  rw [← findProvider_id hfound] at hmay
  exact ⟨provider, List.mem_of_find?_eq_some hfound, hid.symm, hmay⟩

theorem loaded_mayUse_of_eq {db' : Database} (hproviders : db.providers = db'.providers) (hshares : db.shares = db'.shares)
    {serde : SerdeJson} {cipher : KeyCipher} {access : ProtocolAccess} {modelName : Option String}
    {resolved : List ProtocolModel} (hload : loadProtocolModels serde cipher db access modelName = .ok resolved)
    {candidate : ProtocolModel} (hcandidate : candidate ∈ resolved) : ∃ provider ∈ db'.providers,
      provider.id = candidate.provider.id ∧
        MayUse access.identityId provider.identityId (provider.visibility, sharesOf db' provider.id) := by
  have hsame : sharesOf db = sharesOf db' := by
    unfold sharesOf
    rw [hshares]
  rw [← hproviders, ← hsame]
  exact loaded_mayUse hload hcandidate

end access

section sharing

def Granted (db : Database) : Prop :=
  ∀ share ∈ db.shares, ∃ provider ∈ db.providers, provider.id = share.providerId ∧
    provider.visibility = visibilityValue .selected ∧ share.granteeIdentityId ≠ provider.identityId ∧
    shareGrantee.HasParent db.identities share

/-- The visibility and the grantees that the last committed request for a provider gives it. -/
def lastSharing (providerId : String) (initial : String × List String)
    (log : List (String × UpdateProviderSharingRequest)) : String × List String :=
  log.foldl (fun current entry =>
    if entry.1 = providerId then (visibilityValue entry.2.visibility, entry.2.grantees) else current) initial

theorem lastSharing_concat (providerId : String) (initial : String × List String)
    (log : List (String × UpdateProviderSharingRequest)) (entry : String × UpdateProviderSharingRequest) :
    lastSharing providerId initial (log ++ [entry]) =
      if entry.1 = providerId then (visibilityValue entry.2.visibility, entry.2.grantees)
      else lastSharing providerId initial log := by
  unfold lastSharing
  rw [List.foldl_append]
  rfl

theorem lastSharing_last {providerId : String} {request : UpdateProviderSharingRequest}
    {before after : List (String × UpdateProviderSharingRequest)} (hafter : ∀ entry ∈ after, entry.1 ≠ providerId)
    (initial : String × List String) :
    lastSharing providerId initial (before ++ (providerId, request) :: after) =
      (visibilityValue request.visibility, request.grantees) := by
  induction after using List.reverseRecOn with
  | nil => rw [lastSharing_concat, if_pos rfl]
  | append_singleton after entry ih =>
    rw [List.forall_mem_append, List.forall_mem_singleton] at hafter
    rw [← List.cons_append, ← List.append_assoc, lastSharing_concat, if_neg hafter.2, ih hafter.1]

theorem validateSharingInput_ok {db : Database} {ownerIdentityId : String} {input : UpdateProviderSharingRequest}
    (h : validateSharingInput db ownerIdentityId input = .ok ()) : ownerIdentityId ∉ input.grantees := by
  unfold UpdateProviderSharingRequest.grantees
  split_ifs with hselected
  · unfold validateSharingInput at h
    split_ifs at h with _ _ hvisibility howner
    · exact absurd hselected hvisibility
    · exact howner
  · exact List.not_mem_nil

theorem grantees_selected {input : UpdateProviderSharingRequest} {grantee : String} (h : grantee ∈ input.grantees) :
    input.visibility = .selected := by
  unfold UpdateProviderSharingRequest.grantees at h
  split_ifs at h with hselected
  · exact hselected
  · cases h

end sharing

section invariant

variable {ι : Type}

def OwnedFrom (start : Database) (call : SharingCall) : Prop :=
  ∃ first ∈ start.providers, first.id = call.providerId ∧ first.identityId = call.identityId

variable (start : Database) (calls : ι → SharingCall) (s : SharingState ι) (call : ι)

def Clean : Prop := s.providers.writes call = {} ∧ s.shares.writes call = {}

def OfProvider (share : ProviderShare) : Prop := share.providerId = (calls call).providerId

instance : DecidablePred (OfProvider calls call) := fun share =>
  inferInstanceAs (Decidable (share.providerId = (calls call).providerId))

def Holds (added : ProviderConfig → List ProviderConfig) : Prop :=
  ∃ row ∈ s.providers.rows, row.id = (calls call).providerId ∧ s.providers.writes call = ⟨[row], added row⟩

def newVersion (input : UpdateProviderSharingRequest) (row : ProviderConfig) : List ProviderConfig :=
  [{ row with visibility := visibilityValue input.visibility }]

def Removes (rest : List ProviderShare) : Prop :=
  ∀ share ∈ (s.shares.writes call).deleted ++ rest, OfProvider calls call share

structure Updating (input : UpdateProviderSharingRequest) (createdAt : ℤ) (rest : List ProviderShare)
    (done : List String) : Prop where
  request : (calls call).request = .update input createdAt
  owned : OwnedFrom start (calls call)
  valid : (calls call).identityId ∉ input.grantees
  holds : Holds calls s call (newVersion input)
  removes : Removes calls s call rest
  covers : s.shares.Covers call (OfProvider calls call) rest
  inserted : (s.shares.writes call).inserted = done.map ((calls call).shareRow createdAt)
  parents : ∀ grantee ∈ done, ∃ identity ∈ s.identities, identity.id = grantee

def StageHolds : SharingStage → Prop
  | .waiting | .committed | .failed => Clean s call
  | .owned => Clean s call ∧ OwnedFrom start (calls call)
  | .validated => Clean s call ∧ OwnedFrom start (calls call) ∧ ∀ input createdAt,
      (calls call).request = .update input createdAt → (calls call).identityId ∉ input.grantees
  | .updated => s.shares.writes call = {} ∧ ∃ input createdAt, (calls call).request = .update input createdAt ∧
      OwnedFrom start (calls call) ∧ (calls call).identityId ∉ input.grantees ∧ Holds calls s call (newVersion input)
  | .deletingShares rest =>
      (∃ input createdAt, Updating start calls s call input createdAt rest []) ∨
        (calls call).request = .delete ∧ s.providers.writes call = {} ∧ Removes calls s call rest ∧
          (s.shares.writes call).inserted = []
  | .inserting rest => ∃ input createdAt done, done ++ rest = input.grantees ∧
      Updating start calls s call input createdAt [] done
  | .cascading rest => Holds calls s call (fun _ => []) ∧ Removes calls s call rest ∧
      s.shares.Covers call (OfProvider calls call) rest ∧ (s.shares.writes call).inserted = []

structure Shared : Prop where
  granted : Granted s.db
  sharing : ∀ provider ∈ s.providers.rows, ∃ first ∈ start.providers, first.id = provider.id ∧
    first.identityId = provider.identityId ∧
    (provider.visibility, sharesOf s.db provider.id) =
      lastSharing provider.id (first.visibility, sharesOf start first.id) s.log

structure Sharing : Prop where
  stage : ∀ call, StageHolds start calls s call (s.stage call)
  exclusive : s.providers.Exclusive ProviderConfig.id
  shared : Shared start s

variable {start calls s call}

theorem StageHolds.carry {s' : SharingState ι} {stage : SharingStage} (h : StageHolds start calls s call stage)
    (hproviders : s'.providers.writes call = s.providers.writes call)
    (hshares : s'.shares.writes call = s.shares.writes call)
    (hidentities : ∀ identity ∈ s.identities, identity ∈ s'.identities)
    (hheld : ∀ row ∈ (s.providers.writes call).deleted, row ∈ s'.providers.rows)
    (hcovers : (s.providers.writes call).deleted ≠ [] → ∀ rest, s.shares.Covers call (OfProvider calls call) rest →
      s'.shares.Covers call (OfProvider calls call) rest) : StageHolds start calls s' call stage := by
  have hclean : Clean s call → Clean s' call := fun h => ⟨hproviders.trans h.1, hshares.trans h.2⟩
  have hholds {added : ProviderConfig → List ProviderConfig} (h : Holds calls s call added) :
      Holds calls s' call added ∧ (s.providers.writes call).deleted ≠ [] := by
    obtain ⟨row, -, hid, hwrites⟩ := h
    rw [hwrites] at hheld hproviders ⊢
    exact ⟨⟨row, hheld row List.mem_cons_self, hid, hproviders⟩, List.cons_ne_nil _ _⟩
  have hremoves {rest : List ProviderShare} (h : Removes calls s call rest) : Removes calls s' call rest := by
    unfold Removes
    rwa [hshares]
  have hupdating {input : UpdateProviderSharingRequest} {createdAt : ℤ} {rest : List ProviderShare} {done : List String}
      (h : Updating start calls s call input createdAt rest done) :
      Updating start calls s' call input createdAt rest done := by
    refine ⟨h.request, h.owned, h.valid, (hholds h.holds).1, hremoves h.removes,
      hcovers (hholds h.holds).2 rest h.covers, hshares ▸ h.inserted, ?_⟩
    intro grantee hgrantee
    obtain ⟨identity, hidentity, hid⟩ := h.parents grantee hgrantee
    exact ⟨identity, hidentities identity hidentity, hid⟩
  cases stage with
  | waiting | committed | failed => exact hclean h
  | owned => exact ⟨hclean h.1, h.2⟩
  | validated => exact ⟨hclean h.1, h.2⟩
  | updated =>
    obtain ⟨hempty, input, createdAt, hrequest, howned, hvalid, hrow⟩ := h
    exact ⟨hshares.trans hempty, input, createdAt, hrequest, howned, hvalid, (hholds hrow).1⟩
  | deletingShares rest =>
    rcases h with ⟨input, createdAt, h⟩ | ⟨hrequest, hempty, hremove, hinserted⟩
    · exact .inl ⟨input, createdAt, hupdating h⟩
    · exact .inr ⟨hrequest, hproviders.trans hempty, hremoves hremove, by rw [hshares, hinserted]⟩
  | inserting rest =>
    obtain ⟨input, createdAt, done, hdone, h⟩ := h
    exact ⟨input, createdAt, done, hdone, hupdating h⟩
  | cascading rest =>
    obtain ⟨hrow, hremove, hcover, hinserted⟩ := h
    exact ⟨(hholds hrow).1, hremoves hremove, hcovers (hholds hrow).2 rest hcover, by rw [hshares, hinserted]⟩

theorem StageHolds.providers_id {stage : SharingStage} (h : StageHolds start calls s call stage) :
    (∀ row ∈ (s.providers.writes call).deleted, row.id = (calls call).providerId) ∧
      ∀ row ∈ (s.providers.writes call).inserted, row.id = (calls call).providerId := by
  have hempty (h : s.providers.writes call = {}) :
      (∀ row ∈ (s.providers.writes call).deleted, row.id = (calls call).providerId) ∧
        ∀ row ∈ (s.providers.writes call).inserted, row.id = (calls call).providerId := by
    rw [h]
    exact ⟨fun row hrow => absurd hrow List.not_mem_nil, fun row hrow => absurd hrow List.not_mem_nil⟩
  have hupdate {input : UpdateProviderSharingRequest} (h : Holds calls s call (newVersion input)) :
      (∀ row ∈ (s.providers.writes call).deleted, row.id = (calls call).providerId) ∧
        ∀ row ∈ (s.providers.writes call).inserted, row.id = (calls call).providerId := by
    obtain ⟨row, -, hid, hwrites⟩ := h
    rw [hwrites]
    unfold newVersion
    exact ⟨List.forall_mem_singleton.mpr hid, List.forall_mem_singleton.mpr hid⟩
  cases stage with
  | waiting | committed | failed => exact hempty h.1
  | owned => exact hempty h.1.1
  | validated => exact hempty h.1.1
  | updated =>
    obtain ⟨-, input, createdAt, -, -, -, hrow⟩ := h
    exact hupdate hrow
  | deletingShares rest =>
    rcases h with ⟨input, createdAt, h⟩ | ⟨-, h, -⟩
    · exact hupdate h.holds
    · exact hempty h
  | inserting rest =>
    obtain ⟨input, createdAt, done, -, h⟩ := h
    exact hupdate h.holds
  | cascading rest =>
    obtain ⟨⟨row, -, hid, hwrites⟩, -⟩ := h
    rw [hwrites]
    exact ⟨List.forall_mem_singleton.mpr hid, fun row hrow => absurd hrow List.not_mem_nil⟩

theorem Updating.provider (h : Sharing start calls s) (hstart : (start.providers.map ProviderConfig.id).Nodup)
    {input : UpdateProviderSharingRequest} {createdAt : ℤ} {rest : List ProviderShare} {done : List String}
    (hupdating : Updating start calls s call input createdAt rest done) :
    ∃ row ∈ s.providers.rows, row.id = (calls call).providerId ∧ row.identityId = (calls call).identityId ∧
      s.providers.writes call = ⟨[row], newVersion input row⟩ := by
  obtain ⟨row, hrow, hid, hwrites⟩ := hupdating.holds
  refine ⟨row, hrow, hid, ?_, hwrites⟩
  obtain ⟨first, hfirst, hfirstId, howner⟩ := hupdating.owned
  obtain ⟨other, hother, hotherId, hotherOwner, -⟩ := h.shared.sharing row hrow
  have hsame := List.inj_on_of_nodup_map hstart hfirst hother (hfirstId.trans (hotherId.trans hid).symm)
  rw [← hotherOwner, ← hsame, howner]

theorem Sharing.view_held (h : Sharing start calls s) {row : ProviderConfig} {added : List ProviderConfig}
    (hrow : row ∈ s.providers.rows) (hid : row.id = (calls call).providerId)
    (hwrites : s.providers.writes call = ⟨[row], added⟩) {provider : ProviderConfig}
    (hprovider : provider ∈ s.providers.view call) (hproviderId : provider.id = (calls call).providerId) :
    provider ∈ added := by
  rcases Table.mem_view.mp hprovider with ⟨hold, hkept⟩ | hnew
  · have hsame := List.inj_on_of_nodup_map h.exclusive.rowsKey hold hrow (hproviderId.trans hid.symm)
    rw [hwrites, hsame] at hkept
    exact absurd List.mem_cons_self hkept
  · rwa [hwrites] at hnew

theorem mem_inserted {share : ProviderShare} (hcovers : s.shares.Covers call (OfProvider calls call) [])
    (hshare : share ∈ s.shares.view call) (hkind : OfProvider calls call share) :
    share ∈ (s.shares.writes call).inserted := by
  rcases Table.mem_view.mp hshare with ⟨hold, hkept⟩ | hnew
  · rcases hcovers share hold hkind with hgone | hrest
    · exact absurd hgone hkept
    · cases hrest
  · exact hnew

end invariant

section statements

variable {ι : Type} [DecidableEq ι] {start : Database} {calls : ι → SharingCall} {s : SharingState ι} {call : ι}

theorem Sharing.enter (h : Sharing start calls s) {stage : SharingStage} {providers : Table ι ProviderConfig}
    {shares : Table ι ProviderShare} (hproviderRows : providers.rows = s.providers.rows)
    (hproviders : ∀ other ≠ call, providers.writes other = s.providers.writes other)
    (hshareRows : shares.rows = s.shares.rows)
    (hshares : ∀ other ≠ call, shares.writes other = s.shares.writes other)
    (hexclusive : providers.Exclusive ProviderConfig.id)
    (hstage : StageHolds start calls { s.enter call stage with providers := providers, shares := shares } call stage) :
    Sharing start calls { s.enter call stage with providers := providers, shares := shares } where
  stage := by
    intro other
    change StageHolds start calls _ other (Function.update s.stage call stage other)
    by_cases hother : other = call
    · rw [hother, Function.update_self]
      exact hstage
    · rw [Function.update_of_ne hother]
      refine (h.stage other).carry (hproviders other hother) (hshares other hother) (fun _ hidentity => hidentity) ?_ ?_
      · intro row hrow
        rw [hproviderRows]
        exact h.exclusive.deletedMem other row hrow
      · intro _ rest hcovers row hrow hkind
        rw [hshareRows] at hrow
        rw [hshares other hother]
        exact hcovers row hrow hkind
  exclusive := hexclusive
  shared := by
    have hdb : SharingState.db { s.enter call stage with providers := providers, shares := shares } = s.db := by
      unfold SharingState.db
      rw [hproviderRows, hshareRows]
      rfl
    constructor
    · rw [hdb]
      exact h.shared.granted
    · rw [hdb, hproviderRows]
      exact h.shared.sharing

theorem Sharing.enter_only (h : Sharing start calls s) {stage : SharingStage}
    (hstage : StageHolds start calls (s.enter call stage) call stage) : Sharing start calls (s.enter call stage) :=
  h.enter rfl (fun _ _ => rfl) rfl (fun _ _ => rfl) h.exclusive hstage

theorem Sharing.commit (h : Sharing start calls s) {log : List (String × UpdateProviderSharingRequest)}
    (hremoved : ∀ share ∈ (s.shares.writes call).deleted, OfProvider calls call share)
    (hadded : ∀ share ∈ (s.shares.writes call).inserted, OfProvider calls call share)
    (hholds : (s.shares.writes call).inserted ≠ [] → (s.providers.writes call).deleted ≠ [])
    (hlog : ∀ providerId ≠ (calls call).providerId, ∀ initial,
      lastSharing providerId initial log = lastSharing providerId initial s.log)
    (hgranted : ∀ share ∈ s.shares.view call, OfProvider calls call share → ∃ provider ∈ s.providers.view call,
      provider.id = share.providerId ∧ provider.visibility = visibilityValue .selected ∧
        share.granteeIdentityId ≠ provider.identityId ∧ shareGrantee.HasParent s.identities share)
    (hsharing : ∀ provider ∈ s.providers.view call, provider.id = (calls call).providerId → ∃ first ∈ start.providers,
      first.id = provider.id ∧ first.identityId = provider.identityId ∧
      (provider.visibility, ((s.shares.view call).filter (fun share => share.providerId = provider.id)).map
        ProviderShare.granteeIdentityId) =
          lastSharing provider.id (first.visibility, sharesOf start first.id) log) :
    Sharing start calls { s.commit call with log := log } where
  stage := by
    intro other
    change StageHolds start calls _ other (Function.update s.stage call .committed other)
    by_cases hother : other = call
    · rw [hother, Function.update_self]
      exact ⟨s.providers.commit_self, s.shares.commit_self⟩
    · rw [Function.update_of_ne hother]
      refine (h.stage other).carry (s.providers.commit_of_ne hother) (s.shares.commit_of_ne hother)
        (fun _ hidentity => hidentity) ?_ ?_
      · intro row hrow
        refine Table.mem_view.mpr (.inl ⟨h.exclusive.deletedMem other row hrow, fun hown => ?_⟩)
        exact hother (h.exclusive.deletedOnce other call row hrow hown)
      · intro hheld rest hcovers
        refine hcovers.commit hother ?_
        intro share hshare hkind
        -- two calls that hold the row of one provider are one call
        obtain ⟨own, hown⟩ := List.exists_mem_of_ne_nil _ (hholds (List.ne_nil_of_mem hshare))
        obtain ⟨held, hheld⟩ := List.exists_mem_of_ne_nil _ hheld
        have hid : held.id = own.id := by
          rw [(h.stage other).providers_id.1 held hheld, (h.stage call).providers_id.1 own hown]
          exact hkind.symm.trans (hadded share hshare)
        have hsame := List.inj_on_of_nodup_map h.exclusive.rowsKey (h.exclusive.deletedMem other held hheld)
          (h.exclusive.deletedMem call own hown) hid
        rw [hsame] at hheld
        exact hother (h.exclusive.deletedOnce other call own hheld hown)
  exclusive := h.exclusive.commit call
  shared := by
    obtain ⟨hdeletedId, hinsertedId⟩ := (h.stage call).providers_id
    constructor
    · intro share hshare
      by_cases hkind : OfProvider calls call share
      · exact hgranted share hshare hkind
      · rcases Table.mem_view.mp hshare with ⟨hold, -⟩ | hnew
        · obtain ⟨provider, hprovider, hid, hrest⟩ := h.shared.granted share hold
          refine ⟨provider, Table.mem_view.mpr (.inl ⟨hprovider, fun hgone => ?_⟩), hid, hrest⟩
          exact hkind (hid.symm.trans (hdeletedId provider hgone))
        · exact absurd (hadded share hnew) hkind
    · intro provider hprovider
      by_cases hid : provider.id = (calls call).providerId
      · exact hsharing provider hprovider hid
      · rcases Table.mem_view.mp hprovider with ⟨hold, -⟩ | hnew
        · obtain ⟨first, hfirst, hfirstId, howner, heq⟩ := h.shared.sharing provider hold
          refine ⟨first, hfirst, hfirstId, howner, ?_⟩
          rw [hlog provider.id hid, ← heq]
          have huntouched : (s.shares.view call).filter (fun share => share.providerId = provider.id) =
              s.shares.rows.filter (fun share => share.providerId = provider.id) := by
            apply Table.view_filter_untouched
            · exact fun share hshare hkind => hid (hkind.symm.trans (hremoved share hshare))
            · exact fun share hshare hkind => hid (hkind.symm.trans (hadded share hshare))
          change (provider.visibility, ((s.shares.view call).filter _).map _) = _
          rw [huntouched]
          rfl
        · exact absurd (hinsertedId provider hnew) hid

theorem Sharing.commitUpdate (h : Sharing start calls s) (hstart : (start.providers.map ProviderConfig.id).Nodup)
    {input : UpdateProviderSharingRequest} {createdAt : ℤ} (hstage : s.stage call = .inserting [])
    (hrequest : (calls call).request = .update input createdAt) :
    Sharing start calls { s.commit call with log := s.log ++ [((calls call).providerId, input)] } := by
  have hinserting := h.stage call
  rw [hstage] at hinserting
  obtain ⟨input', createdAt', done, hdone, hupdating⟩ := hinserting
  obtain ⟨rfl, rfl⟩ := SharingRequest.update.inj (hrequest.symm.trans hupdating.request)
  rw [List.append_nil] at hdone
  obtain ⟨row, hrow, hid, howner, hwrites⟩ := hupdating.provider h hstart
  have hadded : ∀ share ∈ (s.shares.writes call).inserted, OfProvider calls call share := by
    rw [hupdating.inserted, List.forall_mem_map]
    exact fun _ _ => rfl
  have hversion : ∀ provider ∈ s.providers.view call, provider.id = (calls call).providerId →
      provider = { row with visibility := visibilityValue input.visibility } := by
    intro provider hprovider hproviderId
    exact List.mem_singleton.mp (h.view_held hrow hid hwrites hprovider hproviderId)
  refine h.commit (fun share hshare => hupdating.removes share (List.mem_append_left _ hshare)) hadded ?_ ?_ ?_ ?_
  · rw [hwrites]
    exact fun _ => List.cons_ne_nil _ _
  · intro providerId hne initial
    rw [lastSharing_concat, if_neg hne.symm]
  · intro share hshare hkind
    have hnew := mem_inserted hupdating.covers hshare hkind
    rw [hupdating.inserted] at hnew
    obtain ⟨grantee, hgrantee, rfl⟩ := List.mem_map.mp hnew
    refine ⟨{ row with visibility := visibilityValue input.visibility }, ?_, hid, ?_, ?_, ?_⟩
    · rw [Table.mem_view, hwrites]
      exact .inr (List.mem_singleton_self _)
    · rw [grantees_selected (hdone ▸ hgrantee)]
    · intro heq
      apply hupdating.valid
      rw [← hdone, ← howner]
      change grantee = row.identityId at heq
      rwa [← heq]
    · obtain ⟨identity, hidentity, hidentityId⟩ := hupdating.parents grantee hgrantee
      exact ⟨identity, hidentity, hidentityId⟩
  · intro provider hprovider hproviderId
    obtain ⟨first, hfirst, hfirstId, hfirstOwner, -⟩ := h.shared.sharing row hrow
    rw [hversion provider hprovider hproviderId]
    refine ⟨first, hfirst, hfirstId, hfirstOwner, ?_⟩
    rw [lastSharing_concat, if_pos hid.symm]
    refine Prod.ext rfl ?_
    have hview := hupdating.covers.view_filter
    have hall : (s.shares.writes call).inserted.filter (fun share => OfProvider calls call share) =
        (s.shares.writes call).inserted := by
      rw [List.filter_eq_self]
      exact fun share hshare => decide_eq_true (hadded share hshare)
    rw [hall, hupdating.inserted] at hview
    change ((s.shares.view call).filter (fun share => share.providerId = row.id)).map _ = input.grantees
    rw [hid]
    refine (congrArg (List.map ProviderShare.granteeIdentityId) hview).trans ?_
    rw [List.map_map, ← hdone]
    exact List.map_id done

theorem Sharing.commitDelete (h : Sharing start calls s) (hstage : s.stage call = .cascading []) :
    Sharing start calls (s.commit call) := by
  have hcascading := h.stage call
  rw [hstage] at hcascading
  obtain ⟨⟨row, hrow, hid, hwrites⟩, hremoves, hcovers, hinserted⟩ := hcascading
  refine h.commit (fun share hshare => hremoves share (List.mem_append_left _ hshare)) ?_ ?_ (fun _ _ _ => rfl) ?_ ?_
  · rw [hinserted]
    exact fun share hshare => absurd hshare List.not_mem_nil
  · exact fun hne => absurd hinserted hne
  · intro share hshare hkind
    have hnew := mem_inserted hcovers hshare hkind
    rw [hinserted] at hnew
    cases hnew
  · intro provider hprovider hproviderId
    cases h.view_held hrow hid hwrites hprovider hproviderId

theorem Sharing.deleteMissing (h : Sharing start calls s) (hstage : s.stage call = .deletingShares [])
    (hrequest : (calls call).request = .delete)
    (hmissing : ∀ row ∈ s.providers.rows, row.id ≠ (calls call).providerId) : Sharing start calls (s.commit call) := by
  have hdeleting := h.stage call
  rw [hstage] at hdeleting
  rcases hdeleting with ⟨input, createdAt, hupdating⟩ | ⟨-, hempty, hremoves, hinserted⟩
  · rw [hupdating.request] at hrequest
    cases hrequest
  refine h.commit (fun share hshare => hremoves share (List.mem_append_left _ hshare)) ?_ ?_ (fun _ _ _ => rfl) ?_ ?_
  · rw [hinserted]
    exact fun share hshare => absurd hshare List.not_mem_nil
  · exact fun hne => absurd hinserted hne
  · intro share hshare hkind
    rcases Table.mem_view.mp hshare with ⟨hold, -⟩ | hnew
    · obtain ⟨provider, hprovider, hid, -⟩ := h.shared.granted share hold
      exact absurd (hid.trans hkind) (hmissing provider hprovider)
    · rw [hinserted] at hnew
      cases hnew
  · intro provider hprovider hproviderId
    rw [Table.view_of_clean hempty] at hprovider
    exact absurd hproviderId (hmissing provider hprovider)

theorem Sharing.begin (h : Sharing start calls s) {provider : ProviderConfig} (hstage : s.stage call = .waiting)
    (howned : ownedProvider s.db (calls call).identityId (calls call).providerId = .ok provider) :
    Sharing start calls (s.enter call .owned) := by
  have hwaiting := h.stage call
  rw [hstage] at hwaiting
  obtain ⟨hfound, howner⟩ := ownedProvider_ok howned
  obtain ⟨first, hfirst, hid, hidentity, -⟩ := h.shared.sharing provider (List.mem_of_find?_eq_some hfound)
  rw [findProvider_id hfound] at hid
  exact h.enter_only ⟨hwaiting, first, hfirst, hid, hidentity.trans howner⟩

theorem Sharing.validate (h : Sharing start calls s) {input : UpdateProviderSharingRequest} {createdAt : ℤ}
    (hstage : s.stage call = .owned) (hrequest : (calls call).request = .update input createdAt)
    (hvalid : validateSharingInput s.db (calls call).identityId input = .ok ()) :
    Sharing start calls (s.enter call .validated) := by
  have howned := h.stage call
  rw [hstage] at howned
  refine h.enter_only ⟨howned.1, howned.2, ?_⟩
  intro input' createdAt' hrequest'
  obtain ⟨rfl, -⟩ := SharingRequest.update.inj (hrequest.symm.trans hrequest')
  exact validateSharingInput_ok hvalid

theorem Sharing.update (h : Sharing start calls s) {input : UpdateProviderSharingRequest} {createdAt : ℤ}
    {row : ProviderConfig} (hstage : s.stage call = .validated)
    (hrequest : (calls call).request = .update input createdAt) (hrow : row ∈ s.providers.rows)
    (hid : row.id = (calls call).providerId) (hfree : ¬s.providers.Locked call row) :
    Sharing start calls { s.enter call .updated with
      providers := (s.providers.delete call row).insert call
        { row with visibility := visibilityValue input.visibility } } := by
  have hvalidated := h.stage call
  rw [hstage] at hvalidated
  obtain ⟨⟨hempty, hshares⟩, howned, hvalid⟩ := hvalidated
  refine h.enter rfl ?_ rfl (fun _ _ => rfl) (h.exclusive.update hrow hfree rfl ?_) ?_
  · intro other hother
    rw [Table.insert, Table.set_of_ne _ _ hother, Table.delete, Table.set_of_ne _ _ hother]
  · rw [hempty]
    exact fun own hown => absurd hown List.not_mem_nil
  · refine ⟨hshares, input, createdAt, hrequest, howned, hvalid input createdAt hrequest, row, hrow, hid, ?_⟩
    change ((s.providers.delete call row).insert call _).writes call = _
    rw [Table.insert, Table.set_self, Table.delete, Table.set_self, hempty]
    rfl

theorem Sharing.selectShares (h : Sharing start calls s)
    (hstage : s.stage call = .updated ∨ s.stage call = .owned ∧ (calls call).request = .delete) :
    Sharing start calls (s.enter call (.deletingShares
      ((s.shares.view call).filter (fun share => share.providerId = (calls call).providerId)))) := by
  have hkind : ∀ share ∈ (s.shares.view call).filter (fun share => share.providerId = (calls call).providerId),
      OfProvider calls call share := fun share hshare => of_decide_eq_true (List.mem_filter.mp hshare).2
  have hholds := h.stage call
  rcases hstage with hstage | ⟨hstage, hrequest⟩
  · rw [hstage] at hholds
    obtain ⟨hempty, input, createdAt, hrequest, howned, hvalid, hrow⟩ := hholds
    refine h.enter_only (.inl ⟨input, createdAt, hrequest, howned, hvalid, hrow, ?_, ?_, ?_, ?_⟩)
    · change ∀ share ∈ (s.shares.writes call).deleted ++ _, _
      rw [hempty]
      exact hkind
    · exact Table.covers_view call s.shares
    · change (s.shares.writes call).inserted = []
      rw [hempty]
    · exact fun grantee hgrantee => absurd hgrantee List.not_mem_nil
  · rw [hstage] at hholds
    obtain ⟨⟨hproviders, hempty⟩, -⟩ := hholds
    refine h.enter_only (.inr ⟨hrequest, hproviders, ?_, ?_⟩)
    · change ∀ share ∈ (s.shares.writes call).deleted ++ _, _
      rw [hempty]
      exact hkind
    · change (s.shares.writes call).inserted = []
      rw [hempty]

theorem Sharing.startInserting (h : Sharing start calls s) {input : UpdateProviderSharingRequest} {createdAt : ℤ}
    (hstage : s.stage call = .deletingShares []) (hrequest : (calls call).request = .update input createdAt) :
    Sharing start calls (s.enter call (.inserting input.grantees)) := by
  have hholds := h.stage call
  rw [hstage] at hholds
  rcases hholds with ⟨input', createdAt', hupdating⟩ | ⟨hdelete, -⟩
  · obtain ⟨rfl, rfl⟩ := SharingRequest.update.inj (hrequest.symm.trans hupdating.request)
    exact h.enter_only ⟨input, createdAt, [], rfl, hupdating.request, hupdating.owned, hupdating.valid, hupdating.holds,
      hupdating.removes, hupdating.covers, hupdating.inserted, hupdating.parents⟩
  · rw [hrequest] at hdelete
    cases hdelete

theorem Sharing.insertShare (h : Sharing start calls s) {input : UpdateProviderSharingRequest} {createdAt : ℤ}
    {grantee : String} {rest : List String} (hstage : s.stage call = .inserting (grantee :: rest))
    (hrequest : (calls call).request = .update input createdAt)
    (hgrantee : shareGrantee.HasParent s.identities ((calls call).shareRow createdAt grantee)) :
    Sharing start calls { s.enter call (.inserting rest) with
      shares := s.shares.insert call ((calls call).shareRow createdAt grantee) } := by
  have hholds := h.stage call
  rw [hstage] at hholds
  obtain ⟨input', createdAt', done, hdone, hupdating⟩ := hholds
  obtain ⟨rfl, rfl⟩ := SharingRequest.update.inj (hrequest.symm.trans hupdating.request)
  refine h.enter rfl (fun _ _ => rfl) rfl (fun other hother => s.shares.set_of_ne _ hother) h.exclusive ?_
  have hremoves := hupdating.removes
  refine ⟨input, createdAt, done ++ [grantee], ?_, hrequest, hupdating.owned, hupdating.valid, hupdating.holds, ?_, ?_,
    ?_, ?_⟩
  · rw [List.append_assoc]
    exact hdone
  · unfold Removes
    change ∀ share ∈ ((s.shares.insert call _).writes call).deleted ++ [], _
    rw [Table.insert, Table.set_self]
    exact hremoves
  · refine hupdating.covers.of_set ?_
    exact fun _ hdeleted => hdeleted
  · change ((s.shares.insert call _).writes call).inserted = _
    rw [Table.insert, Table.set_self, hupdating.inserted, List.map_append]
    rfl
  · rw [List.forall_mem_append]
    exact ⟨hupdating.parents, List.forall_mem_singleton.mpr hgrantee⟩

theorem Sharing.deleteProvider (h : Sharing start calls s) {row : ProviderConfig}
    (hstage : s.stage call = .deletingShares []) (hrequest : (calls call).request = .delete)
    (hrow : row ∈ s.providers.rows) (hid : row.id = (calls call).providerId) (hfree : ¬s.providers.Locked call row) :
    Sharing start calls { s.enter call (.cascading
        ((s.shares.view call).filter (fun share => share.providerId = (calls call).providerId))) with
      providers := s.providers.delete call row } := by
  have hholds := h.stage call
  rw [hstage] at hholds
  rcases hholds with ⟨input, createdAt, hupdating⟩ | ⟨-, hempty, hremoves, hinserted⟩
  · rw [hupdating.request] at hrequest
    cases hrequest
  refine h.enter rfl (fun other hother => s.providers.set_of_ne _ hother) rfl (fun _ _ => rfl)
    (h.exclusive.delete hrow hfree) ⟨⟨row, hrow, hid, ?_⟩, ?_, Table.covers_view call s.shares, hinserted⟩
  · change (s.providers.delete call row).writes call = _
    rw [Table.delete, Table.set_self, hempty]
  · intro share hshare
    rcases List.mem_append.mp hshare with hgone | hrest
    · exact hremoves share (List.mem_append_left _ hgone)
    · exact of_decide_eq_true (List.mem_filter.mp hrest).2

theorem Sharing.fail (h : Sharing start calls s) (call : ι) : Sharing start calls (s.fail call) := by
  refine h.enter rfl (fun other hother => s.providers.set_of_ne _ hother) rfl
    (fun other hother => s.shares.set_of_ne _ hother) (h.exclusive.rollback call) ?_
  exact ⟨s.providers.set_self _, s.shares.set_self _⟩

omit [DecidableEq ι] in
theorem Sharing.register (h : Sharing start calls s) (identity : Identity) :
    Sharing start calls { s with identities := s.identities ++ [identity] } where
  stage := fun call => (h.stage call).carry rfl rfl (fun _ hold => List.mem_append_left _ hold)
    (h.exclusive.deletedMem call) (fun _ _ hcovers => hcovers)
  exclusive := h.exclusive
  shared := by
    refine ⟨?_, h.shared.sharing⟩
    intro share hshare
    obtain ⟨provider, hprovider, hid, hvisibility, hne, parent, hparent, hkey⟩ := h.shared.granted share hshare
    exact ⟨provider, hprovider, hid, hvisibility, hne, parent, List.mem_append_left _ hparent, hkey⟩

omit [DecidableEq ι] in
theorem Sharing.initial (hstart : (start.providers.map ProviderConfig.id).Nodup) (hgranted : Granted start) :
    Sharing start calls (.initial start) where
  stage := fun _ => ⟨rfl, rfl⟩
  exclusive := Table.exclusive_start hstart
  shared := ⟨hgranted, fun provider hprovider => ⟨provider, hprovider, rfl, rfl, rfl⟩⟩

end statements

section steps

variable {ι : Type} [DecidableEq ι] [Fintype ι] {start : Database} {calls : ι → SharingCall} {s : SharingState ι}
  {call : ι}

theorem deleteNext_frame {t t' : Table ι ProviderShare} {share : ProviderShare}
    (h : t.deleteNext call share = some t') :
    t'.rows = t.rows ∧ (∀ other ≠ call, t'.writes other = t.writes other) ∧
      (t'.writes call).inserted = (t.writes call).inserted ∧
      ∀ other ∈ (t'.writes call).deleted, other ∈ share :: (t.writes call).deleted := by
  obtain ⟨-, ⟨-, rfl⟩ | ⟨-, rfl⟩⟩ := Table.deleteNext_some h
  · refine ⟨rfl, fun other hother => t.set_of_ne _ hother, ?_, ?_⟩
    · rw [Table.delete, Table.set_self]
    · rw [Table.delete, Table.set_self]
      exact fun _ hother => hother
  · exact ⟨rfl, fun _ _ => rfl, rfl, fun other hother => List.mem_cons_of_mem _ hother⟩

theorem Removes.deleteNext {share : ProviderShare} {rest : List ProviderShare} {shares : Table ι ProviderShare}
    (h : Removes calls s call (share :: rest)) (hshare : s.shares.deleteNext call share = some shares) :
    ∀ other ∈ (shares.writes call).deleted ++ rest, OfProvider calls call other := by
  obtain ⟨-, -, -, hdeleted⟩ := deleteNext_frame hshare
  intro other hother
  rcases List.mem_append.mp hother with hother | hother
  · rcases List.mem_cons.mp (hdeleted other hother) with rfl | hold
    · exact h other (List.mem_append_right _ List.mem_cons_self)
    · exact h other (List.mem_append_left _ hold)
  · exact h other (List.mem_append_right _ (List.mem_cons_of_mem _ hother))

theorem Sharing.deleteShare (h : Sharing start calls s) {share : ProviderShare} {rest : List ProviderShare}
    {shares : Table ι ProviderShare} (hstage : s.stage call = .deletingShares (share :: rest))
    (hshare : s.shares.deleteNext call share = some shares) :
    Sharing start calls { s.enter call (.deletingShares rest) with shares := shares } := by
  obtain ⟨hrows, hothers, hinserted, -⟩ := deleteNext_frame hshare
  have hholds := h.stage call
  rw [hstage] at hholds
  refine h.enter rfl (fun _ _ => rfl) hrows hothers h.exclusive ?_
  rcases hholds with ⟨input, createdAt, hupdating⟩ | ⟨hrequest, hempty, hremoves, hnone⟩
  · exact .inl ⟨input, createdAt, hupdating.request, hupdating.owned, hupdating.valid, hupdating.holds,
      hupdating.removes.deleteNext hshare, hupdating.covers.deleteNext hshare, hinserted.trans hupdating.inserted,
      hupdating.parents⟩
  · exact .inr ⟨hrequest, hempty, hremoves.deleteNext hshare, hinserted.trans hnone⟩

theorem Sharing.cascade (h : Sharing start calls s) {share : ProviderShare} {rest : List ProviderShare}
    {shares : Table ι ProviderShare} (hstage : s.stage call = .cascading (share :: rest))
    (hshare : s.shares.deleteNext call share = some shares) :
    Sharing start calls { s.enter call (.cascading rest) with shares := shares } := by
  obtain ⟨hrows, hothers, hinserted, -⟩ := deleteNext_frame hshare
  have hholds := h.stage call
  rw [hstage] at hholds
  obtain ⟨hrow, hremoves, hcovers, hnone⟩ := hholds
  refine h.enter rfl (fun _ _ => rfl) hrows hothers h.exclusive ?_
  exact ⟨hrow, hremoves.deleteNext hshare, hcovers.deleteNext hshare, hinserted.trans hnone⟩

theorem Sharing.step (hstart : (start.providers.map ProviderConfig.id).Nodup) {s' : SharingState ι}
    (h : Sharing start calls s) (hstep : SharingStep calls s s') : Sharing start calls s' := by
  cases hstep with
  | register identity hnew => exact h.register identity
  | begin hstage howned => exact h.begin hstage howned
  | validate hstage hrequest hvalid => exact h.validate hstage hrequest hvalid
  | update hstage hrequest hrow hid hfree => exact h.update hstage hrequest hrow hid hfree
  | selectShares hstage => exact h.selectShares hstage
  | deleteShare hstage hshare => exact h.deleteShare hstage hshare
  | startInserting hstage hrequest => exact h.startInserting hstage hrequest
  | insertShare hstage hrequest hinsert hprovider hgrantee =>
    obtain ⟨rfl, -, -⟩ := Table.tryInsert_some hinsert
    exact h.insertShare hstage hrequest hgrantee
  | commitUpdate hstage hrequest => exact h.commitUpdate hstart hstage hrequest
  | deleteProvider hstage hrequest hrow hid hfree => exact h.deleteProvider hstage hrequest hrow hid hfree
  | deleteMissing hstage hrequest hmissing => exact h.deleteMissing hstage hrequest hmissing
  | cascade hstage hshare => exact h.cascade hstage hshare
  | commitDelete hstage => exact h.commitDelete hstage
  | fail hopen => exact h.fail _

theorem Sharing.run (hstart : (start.providers.map ProviderConfig.id).Nodup) (hgranted : Granted start)
    (h : Relation.ReflTransGen (SharingStep calls) (.initial start) s) : Sharing start calls s := by
  induction h with
  | refl => exact .initial hstart hgranted
  | tail _ hstep ih => exact ih.step hstart hstep

end steps

section sample

def sharedStart : Database where
  identities := [⟨"identity-1", "machine-1", "S-1", "hash-1", "One", 0, 0⟩,
    ⟨"identity-2", "machine-2", "S-2", "hash-2", "Two", 0, 0⟩]
  providers := [⟨"provider-1", "identity-1", "Kimi", "kimi", "private", "https://api.test", "key", none, none, 0⟩]
  endpoints := [⟨"endpoint-2", "identity-2", "main", "all", "token", 0⟩]
  models := [⟨"mapping-1", "endpoint-2", "k2", "provider-1", "k2", 0, 0⟩]

def shareByName : UpdateProviderSharingRequest := ⟨.selected, ["identity-2"]⟩

def keepPrivate : UpdateProviderSharingRequest := ⟨.private_, []⟩

def sampleCalls : Bool → SharingCall
  | true => ⟨"identity-1", "provider-1", .update shareByName 0⟩
  | false => ⟨"identity-1", "provider-1", .update keepPrivate 1⟩

def privateRow : ProviderConfig :=
  ⟨"provider-1", "identity-1", "Kimi", "kimi", "private", "https://api.test", "key", none, none, 0⟩

def validatedState : SharingState Bool := ((SharingState.initial sharedStart).enter true .owned).enter true .validated

def updatedState : SharingState Bool :=
  { validatedState.enter true .updated with
    providers := (validatedState.providers.delete true privateRow).insert true
      { privateRow with visibility := visibilityValue shareByName.visibility } }

def insertedState : SharingState Bool :=
  { ((updatedState.enter true (.deletingShares [])).enter true (.inserting shareByName.grantees)).enter true
      (.inserting []) with
    shares := updatedState.shares.insert true ⟨"provider-1", "identity-2", 0⟩ }

def sharedState : SharingState Bool :=
  { insertedState.commit true with log := [("provider-1", shareByName)] }

theorem sharedState_reached :
    Relation.ReflTransGen (SharingStep sampleCalls) (.initial sharedStart) sharedState := by
  have hvalidated : Relation.ReflTransGen (SharingStep sampleCalls) (.initial sharedStart) validatedState := by
    have howned : SharingStep sampleCalls (.initial sharedStart)
        ((SharingState.initial sharedStart).enter true .owned) := .begin rfl rfl
    exact (Relation.ReflTransGen.refl.tail howned).tail (.validate rfl rfl rfl)
  have hupdated : SharingStep sampleCalls validatedState updatedState := by
    refine .update rfl rfl (List.mem_singleton_self privateRow) rfl ?_
    rintro ⟨other, hne, hlocked⟩
    cases hlocked
  have hselected : SharingStep sampleCalls updatedState (updatedState.enter true (.deletingShares [])) :=
    .selectShares (.inl rfl)
  have hstarted : SharingStep sampleCalls (updatedState.enter true (.deletingShares []))
      ((updatedState.enter true (.deletingShares [])).enter true (.inserting shareByName.grantees)) :=
    .startInserting rfl rfl
  have hinserted : SharingStep sampleCalls
      ((updatedState.enter true (.deletingShares [])).enter true (.inserting shareByName.grantees)) insertedState := by
    refine .insertShare rfl rfl ?_ ?_ ?_
    · unfold Table.tryInsert
      rw [if_neg (by decide), if_neg (by decide)]
      rfl
    · exact ⟨_, List.mem_singleton_self _, rfl⟩
    · exact ⟨_, List.mem_cons_of_mem _ List.mem_cons_self, rfl⟩
  have hcommitted : SharingStep sampleCalls insertedState sharedState := .commitUpdate rfl rfl
  exact ((((hvalidated.tail hupdated).tail hselected).tail hstarted).tail hinserted).tail hcommitted

def withdrawnState : SharingState Bool :=
  let validated := (sharedState.enter false .owned).enter false .validated
  { validated.enter false .updated with
    providers := (validated.providers.delete false { privateRow with visibility := "selected" }).insert false
      { privateRow with visibility := visibilityValue keepPrivate.visibility } }

def emptiedState : SharingState Bool :=
  { (withdrawnState.enter false (.deletingShares [⟨"provider-1", "identity-2", 0⟩])).enter false (.deletingShares []) with
    shares := withdrawnState.shares.delete false ⟨"provider-1", "identity-2", 0⟩ }

def privateState : SharingState Bool :=
  { (emptiedState.enter false (.inserting keepPrivate.grantees)).commit false with
    log := [("provider-1", shareByName), ("provider-1", keepPrivate)] }

theorem privateState_reached :
    Relation.ReflTransGen (SharingStep sampleCalls) (.initial sharedStart) privateState := by
  have howned : SharingStep sampleCalls sharedState (sharedState.enter false .owned) := .begin rfl rfl
  have hvalidated : SharingStep sampleCalls (sharedState.enter false .owned)
      ((sharedState.enter false .owned).enter false .validated) := .validate rfl rfl rfl
  have hupdated : SharingStep sampleCalls ((sharedState.enter false .owned).enter false .validated) withdrawnState := by
    refine .update rfl rfl (List.mem_singleton_self _) rfl ?_
    rintro ⟨other, hne, hlocked⟩
    cases other with
    | true => cases hlocked
    | false => exact hne rfl
  have hselected : SharingStep sampleCalls withdrawnState
      (withdrawnState.enter false (.deletingShares [⟨"provider-1", "identity-2", 0⟩])) := .selectShares (.inl rfl)
  have hdeleted : SharingStep sampleCalls
      (withdrawnState.enter false (.deletingShares [⟨"provider-1", "identity-2", 0⟩])) emptiedState :=
    .deleteShare rfl rfl
  have hstarted : SharingStep sampleCalls emptiedState (emptiedState.enter false (.inserting keepPrivate.grantees)) :=
    .startInserting rfl rfl
  have hcommitted : SharingStep sampleCalls (emptiedState.enter false (.inserting keepPrivate.grantees)) privateState :=
    .commitUpdate rfl rfl
  exact ((((((sharedState_reached.tail howned).tail hvalidated).tail hupdated).tail hselected).tail hdeleted).tail
    hstarted).tail hcommitted

def sampleAccess : ProtocolAccess := ⟨"identity-2", "endpoint-2", "main"⟩

def sampleCipher : KeyCipher := ⟨fun _ text => .ok text, .ok⟩

def sharedModel : EndpointModel := ⟨"mapping-1", "endpoint-2", "k2", "provider-1", "k2", 0, 0⟩

def sharedCandidate : ProtocolModel :=
  ⟨sharedModel, ⟨"provider-1", "Kimi", "kimi", "https://api.test", "key", none, parseModels Text.codec none, 0⟩⟩

theorem sharedState_resolved :
    loadProtocolModels Text.codec sampleCipher sharedState.db sampleAccess (some "k2") = .ok [sharedCandidate] := by
  have hmodels : sharedState.db.models.filter (fun model => model.endpointId = sampleAccess.endpointId ∧
      ∀ name ∈ some "k2", model.modelName = name) = [sharedModel] := by decide
  unfold loadProtocolModels
  rw [if_neg (by decide)]
  dsimp only
  rw [hmodels, List.mergeSort_singleton]
  rfl

end sample

/-- In every state that the statements of the calls reach, in any order, the committed shares are of providers that are
shared by name with other identities that exist, and they are those of the last committed request for the provider. An
endpoint resolves only to providers that its identity owns, that all can use or that have a share for it, so to none that
the last committed request withdrew from it. -/
theorem shares_in_force {ι : Type} [DecidableEq ι] [Fintype ι] {calls : ι → SharingCall} {start : Database}
    (hstart : (start.providers.map ProviderConfig.id).Nodup) (hgranted : Granted start) {s : SharingState ι}
    (h : Relation.ReflTransGen (SharingStep calls) (.initial start) s) :
    Granted s.db ∧
      (∀ provider ∈ s.db.providers, ∀ before request after, s.log = before ++ (provider.id, request) :: after →
        (∀ entry ∈ after, entry.1 ≠ provider.id) → provider.visibility = visibilityValue request.visibility ∧
          sharesOf s.db provider.id = request.grantees) ∧
      ∀ (serde : SerdeJson) (cipher : KeyCipher) (db : Database) (access : ProtocolAccess) (modelName : Option String)
        (resolved : List ProtocolModel), db.providers = s.db.providers → db.shares = s.db.shares →
        loadProtocolModels serde cipher db access modelName = .ok resolved → ∀ candidate ∈ resolved,
          ∃ provider ∈ s.db.providers, provider.id = candidate.provider.id ∧
            (provider.identityId = access.identityId ∨ provider.visibility = "all" ∨ ∃ share ∈ s.db.shares,
              share.providerId = provider.id ∧ share.granteeIdentityId = access.identityId) ∧
            ∀ before request after, s.log = before ++ (provider.id, request) :: after →
              (∀ entry ∈ after, entry.1 ≠ provider.id) → provider.identityId = access.identityId ∨
                request.visibility = .all ∨ access.identityId ∈ request.grantees := by
  have hshared := (Sharing.run hstart hgranted h).shared
  have hlast : ∀ provider ∈ s.db.providers, ∀ before request after,
      s.log = before ++ (provider.id, request) :: after → (∀ entry ∈ after, entry.1 ≠ provider.id) →
        (provider.visibility, sharesOf s.db provider.id) = (visibilityValue request.visibility, request.grantees) := by
    intro provider hprovider before request after hlog hafter
    obtain ⟨first, -, -, -, hsharing⟩ := hshared.sharing provider hprovider
    rw [hsharing, hlog, lastSharing_last hafter]
  refine ⟨hshared.granted, ?_, ?_⟩
  · intro provider hprovider before request after hlog hafter
    exact Prod.ext_iff.mp (hlast provider hprovider before request after hlog hafter)
  · intro serde cipher db access modelName resolved hproviders hshares hload candidate hcandidate
    obtain ⟨provider, hprovider, hid, hmay⟩ := loaded_mayUse_of_eq hproviders hshares hload hcandidate
    refine ⟨provider, hprovider, hid, ?_, ?_⟩
    · rcases hmay with howner | hall | ⟨-, hshare⟩
      · exact .inl howner
      · exact .inr (.inl hall)
      · exact .inr (.inr (mem_sharesOf.mp hshare))
    · intro before request after hlog hafter
      rw [hlast provider hprovider before request after hlog hafter] at hmay
      rcases hmay with howner | hall | ⟨-, hgrantee⟩
      · exact .inl howner
      · exact .inr (.inl (visibilityValue_eq_all hall))
      · exact .inr (.inr hgrantee)

/-- The endpoint of the second identity still maps the provider when it is withdrawn. -/
theorem shares_in_force_withdrawn : sharesOf sharedState.db "provider-1" = ["identity-2"] ∧
    privateState.log = [("provider-1", shareByName), ("provider-1", keepPrivate)] ∧
    sharesOf privateState.db "provider-1" = [] ∧ privateState.db.models = [sharedModel] ∧
    ∀ resolved, loadProtocolModels Text.codec sampleCipher privateState.db sampleAccess (some "k2") = .ok resolved →
      ∀ candidate ∈ resolved, candidate.provider.id ≠ "provider-1" := by
  have hnodup : (sharedStart.providers.map ProviderConfig.id).Nodup := by decide
  have hgranted : Granted sharedStart := fun _ hshare => absurd hshare List.not_mem_nil
  obtain ⟨-, hshares, -⟩ := shares_in_force hnodup hgranted sharedState_reached
  obtain ⟨-, hwithdrawn, hload⟩ := shares_in_force hnodup hgranted privateState_reached
  have hlog : privateState.log = [("provider-1", shareByName)] ++ ("provider-1", keepPrivate) :: [] := rfl
  refine ⟨?_, rfl, ?_, rfl, ?_⟩
  · exact (hshares _ List.mem_cons_self [] shareByName [] rfl (List.forall_mem_nil _)).2
  · exact (hwithdrawn _ List.mem_cons_self _ _ _ hlog (List.forall_mem_nil _)).2
  · intro resolved hok candidate hcandidate hid
    obtain ⟨provider, hprovider, hsame, -, hrevoked⟩ := hload _ _ _ _ _ _ rfl rfl hok candidate hcandidate
    obtain rfl := List.mem_singleton.mp hprovider
    rcases hrevoked _ _ _ hlog (List.forall_mem_nil _) with howner | hall | hgrantee
    · exact absurd howner (by decide)
    · cases hall
    · cases hgrantee

/-- In every interleaving of the statements of sharing changes, deletions and registrations, the committed shares are of
providers that are shared by name with other identities that exist, and every provider has the visibility and the shares
of the last request that was committed for it. Whatever the endpoints map, their models are resolved only to providers
that the identity owns or that are shared with it, in the committed state and so by the last requests. -/
theorem provider_sharing {ι : Type} [DecidableEq ι] [Fintype ι] {calls : ι → SharingCall} {start : Database}
    (hstart : (start.providers.map ProviderConfig.id).Nodup) (hgranted : Granted start) {s : SharingState ι}
    (h : Relation.ReflTransGen (SharingStep calls) (.initial start) s) :
    Granted s.db ∧
      (∀ provider ∈ s.db.providers, ∃ first ∈ start.providers, first.id = provider.id ∧
        first.identityId = provider.identityId ∧ (provider.visibility, sharesOf s.db provider.id) =
          lastSharing provider.id (first.visibility, sharesOf start first.id) s.log) ∧
      ∀ (serde : SerdeJson) (cipher : KeyCipher) (db : Database) (access : ProtocolAccess) (modelName : Option String)
        (resolved : List ProtocolModel), db.providers = s.db.providers → db.shares = s.db.shares →
        loadProtocolModels serde cipher db access modelName = .ok resolved → ∀ candidate ∈ resolved,
          ∃ provider ∈ s.db.providers, provider.id = candidate.provider.id ∧
            MayUse access.identityId provider.identityId (provider.visibility, sharesOf s.db provider.id) ∧
            ∃ first ∈ start.providers, first.id = provider.id ∧ MayUse access.identityId provider.identityId
              (lastSharing provider.id (first.visibility, sharesOf start first.id) s.log) := by
  have hshared := (Sharing.run hstart hgranted h).shared
  refine ⟨hshared.granted, hshared.sharing, ?_⟩
  intro serde cipher db access modelName resolved hproviders hshares hload candidate hcandidate
  obtain ⟨provider, hprovider, hid, hmay⟩ := loaded_mayUse_of_eq hproviders hshares hload hcandidate
  obtain ⟨first, hfirst, hfirstId, -, heq⟩ := hshared.sharing provider hprovider
  exact ⟨provider, hprovider, hid, hmay, first, hfirst, hfirstId, heq ▸ hmay⟩

/-- The provider is shared with the second identity, which resolves it, and then it is withdrawn. -/
theorem provider_sharing_one : sharedState.log = [("provider-1", shareByName)] ∧ Granted sharedState.db ∧
    (∀ provider ∈ sharedState.db.providers, ∃ first ∈ sharedStart.providers, first.id = provider.id ∧
      first.identityId = provider.identityId ∧ (provider.visibility, sharesOf sharedState.db provider.id) =
        lastSharing provider.id (first.visibility, sharesOf sharedStart first.id) sharedState.log) ∧
    (∃ provider ∈ sharedState.db.providers, provider.id = sharedCandidate.provider.id ∧
      MayUse "identity-2" provider.identityId (provider.visibility, sharesOf sharedState.db provider.id)) ∧
    privateState.log = sharedState.log ++ [("provider-1", keepPrivate)] ∧ privateState.db.providers ≠ [] ∧
    ∀ provider ∈ privateState.db.providers, ∃ first ∈ sharedStart.providers, first.id = provider.id ∧
      first.identityId = provider.identityId ∧ (provider.visibility, sharesOf privateState.db provider.id) =
        lastSharing provider.id (first.visibility, sharesOf sharedStart first.id) privateState.log := by
  have hnodup : (sharedStart.providers.map ProviderConfig.id).Nodup := by decide
  have hgranted : Granted sharedStart := fun _ hshare => absurd hshare List.not_mem_nil
  obtain ⟨hshared, hlast, hload⟩ := provider_sharing hnodup hgranted sharedState_reached
  obtain ⟨provider, hprovider, hid, hmay, -⟩ := hload _ _ _ sampleAccess _ _ rfl rfl sharedState_resolved
    sharedCandidate (List.mem_singleton_self _)
  obtain ⟨-, hlast', -⟩ := provider_sharing hnodup hgranted privateState_reached
  exact ⟨rfl, hshared, hlast, ⟨provider, hprovider, hid, hmay⟩, rfl, List.cons_ne_nil _ _, hlast'⟩

end Prelay.Store
