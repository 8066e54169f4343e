import Mathlib.Data.Rat.Defs
import Mathlib.Algebra.Order.Ring.Rat
import Mathlib.Order.WithBot
import Prelay.CatalogConsistency
import Prelay.FailoverRun
import Prelay.StableOrder

namespace Prelay.Store

open Recording Failover StableOrder

structure LatencyRow where
  identityId : String
  status : ActivityStatus
  providerId : Option String
  upstreamLatencyMs : Option ℤ

def addLatency (totals : Std.ExtTreeMap String (ℤ × ℕ)) (row : LatencyRow) : Std.ExtTreeMap String (ℤ × ℕ) :=
  match row.providerId, row.upstreamLatencyMs with
  | some providerId, some latency =>
    let total := totals.getD providerId (0, 0)
    totals.insert providerId (total.1 + latency, total.2 + 1)
  | _, _ => totals

def providerAverageLatencies (activities : List LatencyRow) (identityId : String) (providerIds : List String) :
    String → Option ℚ :=
  let rows := activities.filter (fun row => row.identityId = identityId ∧ row.status = .success ∧
    (∃ providerId ∈ row.providerId, providerId ∈ providerIds) ∧ row.upstreamLatencyMs ≠ none)
  let totals := rows.foldl addLatency ∅
  fun providerId => totals[providerId]?.map (fun total => (total.1 : ℚ) / total.2)

def pastLatencies (activities : List LatencyRow) (identityId providerId : String) : List ℤ :=
  activities.filterMap (fun row =>
    if row.identityId = identityId ∧ row.status = .success ∧ row.providerId = some providerId
    then row.upstreamLatencyMs else none)

def average (latencies : List ℤ) : Option ℚ :=
  if latencies = [] then none else some ((latencies.sum : ℚ) / latencies.length)

section average

def latenciesOf (providerId : String) (rows : List LatencyRow) : List ℤ :=
  rows.filterMap (fun row => if row.providerId = some providerId then row.upstreamLatencyMs else none)

def totalOf (latencies : List ℤ) : Option (ℤ × ℕ) :=
  if latencies = [] then none else some (latencies.sum, latencies.length)

theorem totalOf_concat (latencies : List ℤ) (latency : ℤ) :
    totalOf (latencies ++ [latency]) =
      some (((totalOf latencies).getD (0, 0)).1 + latency, ((totalOf latencies).getD (0, 0)).2 + 1) := by
  unfold totalOf
  split_ifs with h h'
  · simp at h
  · simp [h']
  · simp

theorem totals_get (rows : List LatencyRow) (providerId : String) :
    (rows.foldl addLatency ∅)[providerId]? = totalOf (latenciesOf providerId rows) := by
  induction rows using List.reverseRecOn with
  | nil => simp [latenciesOf, totalOf]
  | append_singleton rows row ih =>
    have hconcat : latenciesOf providerId (rows ++ [row]) = latenciesOf providerId rows ++
        (if row.providerId = some providerId then row.upstreamLatencyMs else none).toList := by
      simp [latenciesOf, List.filterMap_append, List.filterMap_cons]
      split <;> simp_all
    rw [List.foldl_concat, hconcat, addLatency]
    cases hprovider : row.providerId with
    | none => simpa using ih
    | some id =>
      cases hlatency : row.upstreamLatencyMs with
      | none => simpa using ih
      | some latency =>
        dsimp only
        by_cases hid : id = providerId
        · subst hid
          rw [Std.ExtTreeMap.getElem?_insert_self, if_pos rfl, Option.toList_some, totalOf_concat,
            Std.ExtTreeMap.getD_eq_getD_getElem?, ih]
        · have hne : compare id providerId ≠ .eq := fun heq => hid (Std.LawfulEqCmp.eq_of_compare heq)
          rw [Std.ExtTreeMap.getElem?_insert, if_neg hne, if_neg (fun heq => hid (Option.some.inj heq)),
            Option.toList_none, List.append_nil, ih]

theorem providerAverageLatencies_eq (activities : List LatencyRow) (identityId : String) {providerIds : List String}
    {providerId : String} (h : providerId ∈ providerIds) :
    providerAverageLatencies activities identityId providerIds providerId =
      average (pastLatencies activities identityId providerId) := by
  have hpast : latenciesOf providerId (activities.filter (fun row => row.identityId = identityId ∧
      row.status = .success ∧ (∃ providerId ∈ row.providerId, providerId ∈ providerIds) ∧
        row.upstreamLatencyMs ≠ none)) = pastLatencies activities identityId providerId := by
    rw [latenciesOf, List.filterMap_filter, pastLatencies]
    apply List.filterMap_congr
    intro row _
    by_cases hprovider : row.providerId = some providerId
    · cases hlatency : row.upstreamLatencyMs with
      | none => simp
      | some latency => simp [hprovider, h]
    · simp [hprovider]
  unfold providerAverageLatencies
  rw [totals_get, hpast, totalOf, average]
  split_ifs
  · rfl
  · rfl

end average

section order

variable (db : Database) (access : ProtocolAccess) (activities : List LatencyRow) (modelName : String)

def candidateId (candidate : ProtocolModel) : String := candidate.provider.id

def rememberedProvider : Option String :=
  (db.routes.find? (fun route => route.endpointId = access.endpointId ∧ route.modelName = modelName)).map
    EndpointModelRoute.providerId

def Remembered (candidate : ProtocolModel) : Prop :=
  rememberedProvider db access modelName = some (candidateId candidate)

/-- A latency that is not known comes last. -/
def topRank : Option ℚ → WithTop ℚ
  | some latency => latency
  | none => ⊤

def latencyRank (candidate : ProtocolModel) : WithTop ℚ :=
  topRank (average (pastLatencies activities access.identityId (candidateId candidate)))

/-- The order within one group: the remembered candidate, then by latency, then as configured. -/
def Preferred (candidates : List ProtocolModel) (a b : ProtocolModel) : Prop :=
  Remembered db access modelName a ∨ ¬Remembered db access modelName b ∧
    (latencyRank access activities a < latencyRank access activities b ∨
      latencyRank access activities a = latencyRank access activities b ∧ Earlier candidates a b)

def selectedCandidates (candidates : List ProtocolModel) : List ProtocolModel :=
  selectCandidates db access (providerAverageLatencies activities access.identityId (candidates.map candidateId))
    modelName candidates

end order

section select

variable {db : Database} {access : ProtocolAccess} {activities : List LatencyRow} {modelName : String}
  {candidates : List ProtocolModel}

theorem sortByLatency_iff (latency : String → Option ℚ) (a b : ProtocolModel) :
    sortByLatency latency a b = true ↔ topRank (latency (candidateId a)) ≤ topRank (latency (candidateId b)) := by
  unfold sortByLatency candidateId topRank
  cases latency a.provider.id with
  | none =>
    cases latency b.provider.id with
    | none => exact iff_of_true rfl le_rfl
    | some y => exact iff_of_false Bool.false_ne_true (WithTop.coe_lt_top y).not_ge
  | some x =>
    cases latency b.provider.id with
    | none => exact iff_of_true rfl le_top
    | some y => exact decide_eq_true_iff.trans WithTop.coe_le_coe.symm

theorem sortByLatency_trans (latency : String → Option ℚ) (a b c : ProtocolModel)
    (hab : sortByLatency latency a b = true) (hbc : sortByLatency latency b c = true) :
    sortByLatency latency a c = true := by
  rw [sortByLatency_iff] at *
  exact hab.trans hbc

theorem sortByLatency_total (latency : String → Option ℚ) (a b : ProtocolModel) :
    (sortByLatency latency a b || sortByLatency latency b a) = true := by
  rw [Bool.or_eq_true, sortByLatency_iff, sortByLatency_iff]
  exact le_total _ _

theorem pairwise_sorted {sorted : List ProtocolModel} (hsub : sorted.Sublist candidates) (hnodup : candidates.Nodup) :
    (sorted.mergeSort (sortByLatency (providerAverageLatencies activities access.identityId
      (candidates.map candidateId)))).Pairwise (fun a b =>
        latencyRank access activities a < latencyRank access activities b ∨
          latencyRank access activities a = latencyRank access activities b ∧ Earlier candidates a b) := by
  have hrank : ∀ c ∈ sorted, topRank (providerAverageLatencies activities access.identityId
      (candidates.map candidateId) (candidateId c)) = latencyRank access activities c := by
    intro c hc
    rw [providerAverageLatencies_eq activities access.identityId (List.mem_map_of_mem (hsub.subset hc)), latencyRank]
  have hstable := pairwise_mergeSort_earlier
    (sortByLatency_trans (providerAverageLatencies activities access.identityId (candidates.map candidateId)))
    (sortByLatency_total _) (hsub.nodup hnodup)
  apply List.Pairwise.imp_of_mem _ hstable
  rintro a b ha hb ⟨hle, hties⟩
  rw [sortByLatency_iff, hrank a (List.mem_mergeSort.mp ha), hrank b (List.mem_mergeSort.mp hb)] at hle
  rw [sortByLatency_iff, hrank a (List.mem_mergeSort.mp ha), hrank b (List.mem_mergeSort.mp hb)] at hties
  rcases hle.lt_or_eq with hlt | heq
  · exact .inl hlt
  · exact .inr ⟨heq, (hties heq.ge).trans hsub⟩

theorem selectCandidates_cases (latency : String → Option ℚ) (hlength : ¬candidates.length < 2) :
    (∃ front active back, candidates = front ++ active :: back ∧ Remembered db access modelName active ∧
      selectCandidates db access latency modelName candidates =
        active :: (front ++ back).mergeSort (sortByLatency latency)) ∨
    (∀ c ∈ candidates, ¬Remembered db access modelName c) ∧
      selectCandidates db access latency modelName candidates = candidates.mergeSort (sortByLatency latency) := by
  unfold selectCandidates Remembered rememberedProvider
  rw [if_neg hlength]
  cases hroute : db.routes.find? (fun route => route.endpointId = access.endpointId ∧ route.modelName = modelName) with
  | none => exact .inr ⟨fun _ _ => nofun, by simp⟩
  | some route =>
    cases hactive : candidates.find? (fun candidate => candidate.provider.id = route.providerId) with
    | none =>
      refine .inr ⟨fun c hc heq => ?_, by simp [hactive]⟩
      have hother := List.find?_eq_none.mp hactive c hc
      exact hother (decide_eq_true (Option.some.inj heq).symm)
    | some active =>
      obtain ⟨hid, front, back, hsplit, hfront⟩ := List.find?_eq_some_iff_append.mp hactive
      have hid := of_decide_eq_true hid
      refine .inl ⟨front, active, back, hsplit, congrArg some hid.symm, ?_⟩
      have herase : candidates.eraseP (fun candidate => candidate.provider.id = active.provider.id) = front ++ back := by
        rw [hsplit, List.eraseP_append_right, List.eraseP_cons_of_pos (by simp)]
        intro c hc
        simpa [hid] using hfront c hc
      simp [hactive, herase]

theorem selectedCandidates_perm (candidates : List ProtocolModel) :
    (selectedCandidates db access activities modelName candidates).Perm candidates := by
  unfold selectedCandidates
  by_cases hlength : candidates.length < 2
  · rw [selectCandidates, if_pos hlength]
  · rcases @selectCandidates_cases db access modelName candidates
      (providerAverageLatencies activities access.identityId (candidates.map candidateId)) hlength with
      ⟨front, active, back, hsplit, -, hselected⟩ | ⟨-, hselected⟩
    · rw [hselected]
      conv_rhs => rw [hsplit]
      exact ((List.mergeSort_perm _ _).cons active).trans List.perm_middle.symm
    · rw [hselected]
      exact List.mergeSort_perm _ _

theorem selectedCandidates_pairwise (hdistinct : (candidates.map candidateId).Nodup) :
    (selectedCandidates db access activities modelName candidates).Pairwise
      (Preferred db access activities modelName candidates) := by
  have hnodup : candidates.Nodup := hdistinct.of_map candidateId
  unfold selectedCandidates
  by_cases hlength : candidates.length < 2
  · rw [selectCandidates, if_pos hlength]
    match candidates, hlength with
    | [], _ => exact List.Pairwise.nil
    | [c], _ => exact List.pairwise_singleton _ c
  · rcases @selectCandidates_cases db access modelName candidates
      (providerAverageLatencies activities access.identityId (candidates.map candidateId)) hlength with
      ⟨front, active, back, hsplit, hactive, hselected⟩ | ⟨hnone, hselected⟩
    · rw [hselected, List.pairwise_cons]
      have hsub : (front ++ back).Sublist candidates := by
        rw [hsplit]
        exact List.Sublist.append_left (List.sublist_cons_self active back) front
      refine ⟨fun _ _ => .inl hactive, ?_⟩
      apply List.Pairwise.imp_of_mem _ (pairwise_sorted hsub hnodup)
      intro a b ha hb hab
      refine .inr ⟨fun hb' => ?_, hab⟩
      have hsame : candidateId b = candidateId active := Option.some.inj (hb'.symm.trans hactive)
      have hrest := List.mem_map_of_mem (f := candidateId) (List.mem_mergeSort.mp hb)
      rw [hsplit, List.map_append, List.map_cons, List.nodup_middle] at hdistinct
      rw [List.map_append, hsame] at hrest
      exact (List.nodup_cons.mp hdistinct).1 hrest
    · rw [hselected]
      apply List.Pairwise.imp_of_mem _ (pairwise_sorted (List.Sublist.refl candidates) hnodup)
      intro a b ha hb hab
      exact .inr ⟨hnone b (List.mem_mergeSort.mp hb), hab⟩

theorem readyThenResting_eq {clock : ℕ → ℕ} {failover : FailoverRegistry} {selected : List ProtocolModel}
    {resting : ProtocolModel → Bool}
    (hresting : ∀ p ∈ selected.zipIdx, resting p.1 = restsAt candidateId clock failover p) :
    readyThenResting candidateId clock selected failover =
      selected.filter (fun c => !resting c) ++ selected.filter resting := by
  have hready : ∀ p ∈ selected.zipIdx, (fun c => !resting c) p.1 = !restsAt candidateId clock failover p :=
    fun p hp => congrArg not (hresting p hp)
  rw [readyThenResting, List.map_append, filter_zipIdx hresting,
    @filter_zipIdx _ _ _ (fun c => !resting c) hready]

/-- The order in which providers are tried: those that rest last, in either group the remembered one first, then by
their average latency, and as configured where that does not decide. -/
structure TriedInOrder (db : Database) (access : ProtocolAccess) (activities : List LatencyRow) (modelName : String)
    (candidates : List ProtocolModel) (clock : ℕ → ℕ) (failover : FailoverRegistry) (resting : ProtocolModel → Bool)
    (tried : List ProtocolModel) : Prop where
  asked : ∀ p ∈ (selectedCandidates db access activities modelName candidates).zipIdx,
    resting p.1 = restsAt candidateId clock failover p
  perm : tried.Perm candidates
  sorted : tried.Pairwise (fun a b => resting a = false ∧ resting b = true ∨
    resting a = resting b ∧ Preferred db access activities modelName candidates a b)

theorem candidates_in_order {clock : ℕ → ℕ} (hclock : Monotone clock) (failover : FailoverRegistry)
    (hdistinct : (candidates.map candidateId).Nodup) :
    ∃ resting, TriedInOrder db access activities modelName candidates clock failover resting
      (orderCandidates candidateId clock (selectedCandidates db access activities modelName candidates) failover).1 := by
  have hperm := @selectedCandidates_perm db access activities modelName candidates
  obtain ⟨resting, hresting⟩ := exists_pred_zipIdx (hperm.nodup_iff.mpr (hdistinct.of_map candidateId))
    (restsAt candidateId clock failover)
  have hpairwise := @selectedCandidates_pairwise db access activities modelName candidates hdistinct
  rw [(orderCandidates_spec hclock _ failover).1, readyThenResting_eq hresting]
  refine ⟨resting, hresting, ?_, ?_⟩
  · apply List.Perm.trans _ hperm
    apply List.Perm.trans List.perm_append_comm
    exact List.filter_append_perm resting _
  · rw [List.pairwise_append]
    refine ⟨?_, ?_, ?_⟩
    · apply List.Pairwise.imp_of_mem _ (hpairwise.filter _)
      intro a b ha hb hab
      have ha : resting a = false := by simpa using (List.mem_filter.mp ha).2
      have hb : resting b = false := by simpa using (List.mem_filter.mp hb).2
      exact .inr ⟨ha.trans hb.symm, hab⟩
    · apply List.Pairwise.imp_of_mem _ (hpairwise.filter _)
      intro a b ha hb hab
      exact .inr ⟨(List.mem_filter.mp ha).2.trans (List.mem_filter.mp hb).2.symm, hab⟩
    · intro a ha b hb
      exact .inl ⟨by simpa using (List.mem_filter.mp ha).2, (List.mem_filter.mp hb).2⟩

end select

def configured (id : String) : ProtocolModel where
  model := ⟨id, "e1", "m", id, "m", 0, 0⟩
  provider := ⟨id, id, "openai", "", "", none, [], 0⟩

def routed : Database := { routes := [⟨"e1", "m", "p3", 0⟩] }

/-- The first provider has answered slowly, the second one rests and the third one is remembered for the model. -/
theorem candidates_in_order_two : Remembered routed ⟨"owner", "e1", "e1"⟩ "m" (configured "p3") ∧ ∃ resting,
    TriedInOrder routed ⟨"owner", "e1", "e1"⟩ [⟨"owner", .success, some "p1", some 900⟩] "m"
      [configured "p1", configured "p2", configured "p3"] (fun _ => 1000)
      (fun id => if id = "p2" then some ⟨60000, 1⟩ else none) resting
      (orderCandidates candidateId (fun _ => 1000)
        (selectedCandidates routed ⟨"owner", "e1", "e1"⟩ [⟨"owner", .success, some "p1", some 900⟩] "m"
          [configured "p1", configured "p2", configured "p3"])
        (fun id => if id = "p2" then some ⟨60000, 1⟩ else none)).1 :=
  ⟨rfl, candidates_in_order monotone_const _ (by decide)⟩

end Prelay.Store
