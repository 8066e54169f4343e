import Prelay.TimelineTotals

namespace Prelay.Stats

open Calendar Tiling Store

section sums

variable {rows : List ActivityRow}

theorem bigint_eq {value result : ℤ} (h : bigint value = .ok result) : result = value := by
  unfold bigint at h
  split_ifs at h
  exact (Except.ok.inj h).symm

theorem integerSum_eq {total result : Option ℤ} (h : integerSum total = .ok result) : result = total := by
  cases total with
  | none => exact (Except.ok.inj h).symm
  | some value =>
    rw [integerSum, Option.mapM_some] at h
    obtain ⟨cast, hcast, h⟩ := map_ok h
    rw [← h, bigint_eq hcast]

theorem totalInputTokens_eq {row : ActivityRow} {total : ℤ} (h : totalInputTokens row = .ok total) :
    total = normalizedInput row + row.cacheWriteTokens.getD 0 := by
  obtain ⟨normalized, hnormalized, h⟩ := bind_ok h
  rw [bigint_eq h, bigint_eq hnormalized]

theorem totalInputTokensExpr_eq {total : Option ℤ} (h : totalInputTokensExpr rows = .ok total) :
    total = sumOf (rows.map (fun row => normalizedInput row + row.cacheWriteTokens.getD 0)) := by
  obtain ⟨totals, htotals, h⟩ := bind_ok h
  rw [integerSum_eq h, eq_map_of_mapM (fun _ _ => totalInputTokens_eq) htotals]

theorem tokenSums_eq {sums : TokenSums} (h : tokenSums rows = .ok sums) : sums = exactSums rows := by
  obtain ⟨input, hinput, h⟩ := bind_ok h
  obtain ⟨total, htotal, h⟩ := bind_ok h
  obtain ⟨output, houtput, h⟩ := bind_ok h
  obtain ⟨cacheRead, hread, h⟩ := bind_ok h
  obtain ⟨cacheWrite, hwrite, h⟩ := bind_ok h
  rw [← Except.ok.inj h, integerSum_eq hinput, totalInputTokensExpr_eq htotal, integerSum_eq houtput,
    integerSum_eq hread, integerSum_eq hwrite]
  rfl

theorem bucketTotals_eq {env : SqlEnv} {db : StatsDb} {identityId : String} {scope : ModelStatsScope}
    {bounds : TimeBounds} {granularity : TimelineGranularity} {groups : List BucketTokenAggregate}
    (h : bucketTotals env db identityId scope bounds granularity = .ok groups) :
    groups = groupsOf env (queryBucket granularity) (scopeQuery env db identityId scope (some bounds)) := by
  refine eq_map_of_mapM ?_ h
  intro group row hrow
  obtain ⟨sums, hsums, hrow⟩ := bind_ok hrow
  rw [← Except.ok.inj hrow, tokenSums_eq hsums]

end sums

/-- Every column has 64 bits. -/
def UsageTotals.Representable (a : UsageTotals) : Prop :=
  ∀ total ∈ [a.inputTokens, a.totalInputTokens, a.outputTokens, a.cacheReadTokens, a.cacheWriteTokens],
    -2 ^ 63 ≤ total ∧ total < 2 ^ 63

theorem bmod_eq_self_iff (n : ℤ) : n.bmod (2 ^ 64) = n ↔ -2 ^ 63 ≤ n ∧ n < 2 ^ 63 := by
  constructor
  · intro h
    have hlow := Int.le_bmod (x := n) (m := 2 ^ 64) (by decide)
    have hhigh := Int.bmod_lt (x := n) (m := 2 ^ 64) (by decide)
    omega
  · rintro ⟨hlow, hhigh⟩
    apply Int.bmod_eq_of_le
    · omega
    · omega

theorem UsageTotals.wrap_eq_self_iff (a : UsageTotals) : a.wrap = a ↔ a.Representable := by
  unfold Representable
  simp only [List.forall_mem_cons, ← bmod_eq_self_iff]
  rw [UsageTotals.ext_iff]
  simp [wrap]

section merging

variable {env : SqlEnv} {buckets : List TimelineBucket} {start stop : ℤ}

def outsideRange (bucket : String) : StorageError :=
  .invalidTimestamp ("timeline bucket " ++ bucket ++ " is outside the requested range")

theorem mergeRow_outside (htiles : Tiles start stop (buckets.map TimelineBucket.tile)) {row : BucketTokenAggregate}
    {time : ℤ} (hparse : parseBeijingTimestamp env row.bucket = some time) (hstop : stop ≤ time)
    (totals : List UsageTotals) : mergeRow env buckets totals row = .error (outsideRange row.bucket) := by
  unfold mergeRow
  rw [hparse]
  dsimp only
  rw [if_neg]
  · rfl
  · rintro ⟨-, hany⟩
    cases hget : buckets[partitionPoint buckets time - 1]? with
    | none =>
      rw [hget] at hany
      cases hany
    | some bucket =>
      rw [hget, Option.any_some, decide_eq_true_eq] at hany
      have hbounds := htiles.bounds (List.mem_map_of_mem (List.mem_of_getElem? hget))
      exact absurd hany (not_lt.mpr (hbounds.2.2.trans hstop))

theorem groupsOf_row (harrange : ∀ groups, (env.arrange groups).Perm groups) {bucket : QueryBucket}
    {rows : List ActivityRow} {row : ActivityRow} (hrow : row ∈ rows) :
    ∃ group ∈ groupsOf env bucket rows, group.bucket = env.beijingBucket bucket row.createdAt := by
  have hgroup := mem_groupBy (fun row => env.beijingBucket bucket row.createdAt) hrow
  exact ⟨_, List.mem_map_of_mem ((harrange _).mem_iff.mpr hgroup), rfl⟩

theorem mergeBuckets_before (htiles : Tiles start stop (buckets.map TimelineBucket.tile))
    {groups : List BucketTokenAggregate} {points : List TokenUsageTimelinePoint}
    (h : mergeBuckets env buckets groups = .ok points) {group : BucketTokenAggregate} (hgroup : group ∈ groups) {time : ℤ}
    (hparse : parseBeijingTimestamp env group.bucket = some time) : time < stop := by
  obtain ⟨totals, hfold, -⟩ := bind_ok h
  obtain ⟨before, after, hstep⟩ := foldlM_steps hfold group hgroup
  by_contra hafter
  rw [mergeRow_outside htiles hparse (not_lt.mp hafter)] at hstep
  cases hstep

end merging

/-- What a query for some bounds relies on: the database has the texts in the order of their instants, and the group of
an activity is the hour or day in Beijing of its instant, which PostgreSQL rounds to microseconds. -/
structure SqlEnv.Groups (env : SqlEnv) (micros : ℤ → ℤ) (bucket : QueryBucket) (now : ℤ) (bounds : TimeBounds)
    (rows : List ActivityRow) : Prop where
  order : env.InOrder rows
  past : ∀ row ∈ rows, instantOf env row ≤ now
  start : ∀ row ∈ rows, (env.le (toRfc3339 bounds.start) row.createdAt = true ↔ bounds.start ≤ instantOf env row)
  stop : ∀ row ∈ rows, (env.le (toRfc3339 bounds.stop) row.createdAt = true ↔ bounds.stop ≤ instantOf env row)
  rounds : ∀ instant, 1000 ∣ micros instant ∧ |micros instant - instant| ≤ 500
  groupsBy : env.GroupsBy bucket rows (fun row => micros (instantOf env row))
  arrange : ∀ groups, (env.arrange groups).Perm groups

section queries

variable {env : SqlEnv} {micros : ℤ → ℤ} {bucket : QueryBucket} {now : ℤ} {bounds : TimeBounds} {db : StatsDb}
  {identityId : String} {scope : ModelStatsScope}

theorem SqlEnv.Groups.inBounds (h : env.Groups micros bucket now bounds db.activities) {row : ActivityRow}
    (hrow : row ∈ db.activities) :
    inBounds env (some bounds) row = true ↔ bounds.start ≤ instantOf env row ∧ instantOf env row < bounds.stop := by
  rw [Stats.inBounds, Option.all_some, Bool.and_eq_true, Bool.not_eq_true', ← Bool.not_eq_true, h.start row hrow,
    h.stop row hrow, not_le]

theorem SqlEnv.Groups.within (h : env.Groups micros bucket now bounds db.activities) {row : ActivityRow}
    (hrow : row ∈ scopeQuery env db identityId scope (some bounds)) :
    bounds.start ≤ instantOf env row ∧ instantOf env row < bounds.stop := by
  have hmem := hrow
  rw [scopeQuery_filter] at hmem
  exact (h.inBounds (mem_scopeQuery hrow)).mp (List.mem_filter.mp hmem).2

theorem SqlEnv.Groups.query (h : env.Groups micros bucket now bounds db.activities) :
    env.GroupsBy bucket (scopeQuery env db identityId scope (some bounds)) (fun row => micros (instantOf env row)) :=
  fun row hrow => h.groupsBy row (mem_scopeQuery hrow)

theorem le_micros (h : env.Groups micros bucket now bounds db.activities) {start : ℤ} (hstart : Aligned bucket start)
    {instant : ℤ} (hle : start ≤ instant) : start ≤ micros instant := by
  obtain ⟨hmicros, hnear⟩ := h.rounds instant
  obtain ⟨hlow, -⟩ := abs_le.mp hnear
  obtain ⟨count, hcount⟩ := hstart
  cases bucket with
  | hour =>
    simp only [QueryBucket.length, hours, beijingOffset] at hcount
    omega
  | day =>
    simp only [QueryBucket.length, days, hours, beijingOffset] at hcount
    omega

end queries

/-- Every bucket with what its groups add up to. -/
def exactPoints (env : SqlEnv) (buckets : List TimelineBucket) (groups : List BucketTokenAggregate) :
    List TokenUsageTimelinePoint :=
  buckets.map (fun bucket =>
    ⟨bucket.label, cellSum BucketTokenAggregate.intoTotals (inTile (groupStart env)) groups bucket.tile⟩)

/-- The groups are merged without an error, each into the bucket that it is in, and the points add up to the rows. -/
def MergedExactly (env : SqlEnv) (buckets : List TimelineBucket) (groups : List BucketTokenAggregate)
    (rows : List ActivityRow) : Prop :=
  ∃ points, mergeBuckets env buckets groups = .ok points ∧ points = exactPoints env buckets groups ∧
    (points.map TokenUsageTimelinePoint.totals).sum = (rows.map UsageTotals.ofRow).sum

section exactness

variable {env : SqlEnv} {granularity : TimelineGranularity} {bounds : TimeBounds} {rows : List ActivityRow}
  {time : ActivityRow → ℤ}

theorem mergedExactly_iff (harrange : ∀ groups, (env.arrange groups).Perm groups)
    (htiles : Tiles bounds.start bounds.stop ((timelineBuckets bounds granularity).map TimelineBucket.tile))
    (haligned : Aligned (queryBucket granularity) bounds.start ∧ Aligned (queryBucket granularity) bounds.stop)
    (htime : env.GroupsBy (queryBucket granularity) rows time) (hstart : ∀ row ∈ rows, bounds.start ≤ time row) :
    MergedExactly env (timelineBuckets bounds granularity) (groupsOf env (queryBucket granularity) rows) rows ↔
      (∀ row ∈ rows, time row < bounds.stop) ∧ ∀ bucket ∈ timelineBuckets bounds granularity,
        (cellSum UsageTotals.ofRow (inTile time) rows bucket.tile).Representable := by
  have hmerged (hstop : ∀ row ∈ rows, time row < bounds.stop) :=
    mergeBuckets_groups harrange htime htiles haligned (fun row hrow => ⟨hstart row hrow, hstop row hrow⟩)
  have hexact : exactPoints env (timelineBuckets bounds granularity) (groupsOf env (queryBucket granularity) rows) =
      (timelineBuckets bounds granularity).map (fun bucket =>
        ⟨bucket.label, cellSum UsageTotals.ofRow (inTile time) rows bucket.tile⟩) := by
    apply List.map_congr_left
    intro bucket hbucket
    obtain ⟨hfirst, hlast⟩ := timelineBuckets_aligned haligned.1 hbucket
    rw [cellSum_groups harrange htime hfirst hlast]
  unfold MergedExactly
  rw [hexact]
  constructor
  · rintro ⟨points, hpoints, rfl, -⟩
    have hstop : ∀ row ∈ rows, time row < bounds.stop := by
      intro row hrow
      obtain ⟨group, hgroup, hbucket⟩ := groupsOf_row harrange hrow
      have hrowTime := htime row hrow
      rw [← hbucket] at hrowTime
      have hbefore := mergeBuckets_before htiles hpoints hgroup hrowTime
      exact (bucketStart_within haligned.1 haligned.2 (time row)).2.mp hbefore
    refine ⟨hstop, ?_⟩
    intro bucket hbucket
    rw [hmerged hstop] at hpoints
    have hpoint := List.map_inj_left.mp (Except.ok.inj hpoints) bucket hbucket
    exact (UsageTotals.wrap_eq_self_iff _).mp (TokenUsageTimelinePoint.mk.inj hpoint).2
  · rintro ⟨hstop, hrepresentable⟩
    refine ⟨_, hmerged hstop, ?_, ?_⟩
    · apply List.map_congr_left
      intro bucket hbucket
      rw [(UsageTotals.wrap_eq_self_iff _).mpr (hrepresentable bucket hbucket)]
    · have hcovers := htiles.covers time (fun row hrow => ⟨hstart row hrow, hstop row hrow⟩)
      rw [← sum_cellSum UsageTotals.ofRow _ hcovers, List.map_map, List.map_map]
      apply congrArg List.sum
      apply List.map_congr_left
      intro bucket hbucket
      exact (UsageTotals.wrap_eq_self_iff _).mpr (hrepresentable bucket hbucket)

end exactness

section sample

def roundMicros (instant : ℤ) : ℤ := (instant + 500) / 1000 * 1000

theorem roundMicros_rounds (instant : ℤ) :
    1000 ∣ roundMicros instant ∧ |roundMicros instant - instant| ≤ 500 := by
  unfold roundMicros
  rw [abs_le]
  omega

/-- Noon of the first day of 2026 in Beijing. -/
def sampleNow : ℤ := 1767240000000000000

def todayBounds : TimeBounds := ⟨1767196800000000000, 1767283200000000000⟩

def yesterdayBounds : TimeBounds := ⟨1767110400000000000, 1767196800000000000⟩

theorem today_bounds : StatsRange.bounds .today sampleNow = some todayBounds := by
  simp only [StatsRange.bounds, TimeBounds.fromBeijingDates, beijingStartOfDay, Date.addDays_toDays, dateNaive_toDays]
  decide

theorem yesterday_bounds : StatsRange.bounds .yesterday sampleNow = some yesterdayBounds := by
  simp only [StatsRange.bounds, TimeBounds.fromBeijingDates, beijingStartOfDay, Date.addDays_toDays, dateNaive_toDays]
  decide

theorem morningEnv_groups : morningEnv.Groups roundMicros .hour sampleNow todayBounds [morningRow, laterRow] where
  order := morningEnv_reads.inOrder ⟨by decide, by decide⟩
  past := by decide +kernel
  start := by decide +kernel
  stop := by decide +kernel
  rounds := roundMicros_rounds
  groupsBy := by
    unfold SqlEnv.GroupsBy
    decide +kernel
  arrange _ := List.Perm.refl _

/-- An activity four hundred nanoseconds before the new year in Beijing. -/
def lateRow : ActivityRow := { morningRow with createdAt := "2025-12-31T15:59:59.999999600+00:00" }

def lateEnv : SqlEnv where
  le a b := a ≤ b
  beijingBucket := fun _ _ => "2026-01-01 00:00:00"
  parseFromStr := fun text => if text = "2026-01-01 00:00:00" then some 1767225600000000000 else none
  parseFromRfc3339 := fun text =>
    if text = lateRow.createdAt then .ok 1767196799999999600 else .error "input contains invalid characters"
  arrange := id

theorem lateEnv_groups : lateEnv.Groups roundMicros .hour sampleNow yesterdayBounds [lateRow] where
  order := ⟨by decide +kernel, by decide +kernel⟩
  past := by decide +kernel
  start := by decide +kernel
  stop := by decide +kernel
  rounds := roundMicros_rounds
  groupsBy := by
    unfold SqlEnv.GroupsBy
    decide +kernel
  arrange _ := List.Perm.refl _

theorem scopeQuery_personal {env : SqlEnv} {rows : List ActivityRow} {identityId : String} {bounds : TimeBounds}
    (hidentity : ∀ row ∈ rows, decide (row.identityId = identityId) = true)
    (hbounds : ∀ row ∈ rows, inBounds env (some bounds) row = true) :
    scopeQuery env ⟨[], rows⟩ identityId .personal (some bounds) = rows := by
  unfold scopeQuery aggregateQuery
  rw [List.filter_eq_self.mpr hidentity, List.filter_eq_self.mpr hbounds]

end sample

/-- The buckets of a timeline tile its bounds, and a range of all time holds every activity. The groups of its query are
merged exactly if no activity is rounded to the end of the bounds and the sums of every bucket have 64 bits. -/
theorem timeline_merged_iff {env : SqlEnv} {micros : ℤ → ℤ} {range : StatsRange} {granularity : TimelineGranularity}
    (hgranularity : granularity = range.timelineGranularity ∨ granularity = .day) {db : StatsDb} {identityId : String}
    {scope : ModelStatsScope} {now : ℤ} {bounds : TimeBounds}
    (hbounds : requestedBounds env db identityId scope range granularity now = .ok (some bounds))
    (h : env.Groups micros (queryBucket granularity) now bounds db.activities) {groups : List BucketTokenAggregate}
    (hgroups : bucketTotals env db identityId scope bounds granularity = .ok groups) :
    Tiles bounds.start bounds.stop ((timelineBuckets bounds granularity).map TimelineBucket.tile) ∧
      (range = .all → scopeQuery env db identityId scope (some bounds) = scopeQuery env db identityId scope none) ∧
      (MergedExactly env (timelineBuckets bounds granularity) groups (scopeQuery env db identityId scope (some bounds)) ↔
        (∀ row ∈ scopeQuery env db identityId scope (some bounds), micros (instantOf env row) < bounds.stop) ∧
          ∀ bucket ∈ timelineBuckets bounds granularity,
            (cellSum UsageTotals.ofRow (inTile (fun row => micros (instantOf env row)))
              (scopeQuery env db identityId scope (some bounds)) bucket.tile).Representable) := by
  obtain ⟨earliest, hrequested, hrecorded, hfirst⟩ :=
    requestedBounds_ok h.order identityId scope range granularity now
  rw [hrequested] at hbounds
  have hbounds := Except.ok.inj hbounds
  have hearliest : ∀ instant ∈ earliest, instant ≤ now := by
    intro instant hinstant
    obtain ⟨row, hrow, rfl⟩ := hrecorded instant hinstant
    exact h.past row hrow
  have htiles : Tiles bounds.start bounds.stop ((timelineBuckets bounds granularity).map TimelineBucket.tile) := by
    rcases hgranularity with rfl | rfl
    · exact tiles_granularity hearliest hbounds
    · exact tiles_daily hearliest hbounds
  have haligned := timelineBounds_aligned hearliest hbounds (queryBucket granularity)
  refine ⟨htiles, ?_, ?_⟩
  · rintro rfl
    rw [scopeQuery_filter env db identityId scope (some bounds)]
    apply List.filter_eq_self.mpr
    intro row hrow
    obtain ⟨instant, hinstant, hle⟩ := hfirst rfl row hrow
    obtain rfl := Option.mem_def.mp hinstant
    rw [h.inBounds (mem_scopeQuery hrow)]
    exact all_within hle (h.past row (mem_scopeQuery hrow)) hbounds
  · rw [bucketTotals_eq hgroups]
    apply mergedExactly_iff h.arrange htiles haligned h.query
    exact fun row hrow => le_micros h haligned.1 (h.within hrow).1

theorem timeline_merged_morning : ∃ groups,
    bucketTotals morningEnv ⟨[], [morningRow, laterRow]⟩ "identity-1" .personal todayBounds .hour = .ok groups ∧
      Tiles todayBounds.start todayBounds.stop ((timelineBuckets todayBounds .hour).map TimelineBucket.tile) ∧
      MergedExactly morningEnv (timelineBuckets todayBounds .hour) groups [morningRow, laterRow] := by
  have hrequested : requestedBounds morningEnv ⟨[], [morningRow, laterRow]⟩ "identity-1" .personal .today .hour
      sampleNow = .ok (some todayBounds) := by
    unfold requestedBounds
    rw [today_bounds]
  have hrows : scopeQuery morningEnv ⟨[], [morningRow, laterRow]⟩ "identity-1" .personal (some todayBounds) =
      [morningRow, laterRow] := scopeQuery_personal (by decide +kernel) (by decide +kernel)
  have hfits : Fits [morningRow, laterRow] := by
    unfold Fits
    decide +kernel
  have hgroups : bucketTotals morningEnv ⟨[], [morningRow, laterRow]⟩ "identity-1" .personal todayBounds .hour = .ok _ :=
    bucketTotals_ok morningEnv_groups.arrange (hrows ▸ hfits)
  obtain ⟨htiles, -, hmerged⟩ := timeline_merged_iff (.inl rfl) hrequested morningEnv_groups hgroups
  refine ⟨_, hgroups, htiles, ?_⟩
  rw [hrows] at hmerged
  refine hmerged.mpr ⟨by decide +kernel, ?_⟩
  intro bucket hbucket
  exact (UsageTotals.wrap_eq_self_iff _).mp (wrap_of_fits (hfits.filter _))

/-- PostgreSQL rounds the activity into the first hour after the range. -/
theorem timeline_not_merged : lateEnv.Groups roundMicros .hour sampleNow yesterdayBounds [lateRow] ∧
    scopeQuery lateEnv ⟨[], [lateRow]⟩ "identity-1" .personal (some yesterdayBounds) = [lateRow] ∧
    timeline lateEnv ⟨[], [lateRow]⟩ "identity-1" .personal .yesterday .hour sampleNow =
      .error (outsideRange "2026-01-01 00:00:00") := by
  have hrequested : requestedBounds lateEnv ⟨[], [lateRow]⟩ "identity-1" .personal .yesterday .hour sampleNow =
      .ok (some yesterdayBounds) := by
    unfold requestedBounds
    rw [yesterday_bounds]
  have hrows : scopeQuery lateEnv ⟨[], [lateRow]⟩ "identity-1" .personal (some yesterdayBounds) = [lateRow] :=
    scopeQuery_personal (by decide +kernel) (by decide +kernel)
  have hfits : Fits [lateRow] := by
    unfold Fits
    decide +kernel
  have hgroups : bucketTotals lateEnv ⟨[], [lateRow]⟩ "identity-1" .personal yesterdayBounds .hour = .ok _ :=
    bucketTotals_ok lateEnv_groups.arrange (hrows ▸ hfits)
  have htiles : Tiles yesterdayBounds.start yesterdayBounds.stop
      ((timelineBuckets yesterdayBounds .hour).map TimelineBucket.tile) :=
    tiles_granularity (by simp) (timelineBounds_of_bounds yesterday_bounds none)
  have hgroup : groupsOf lateEnv (queryBucket .hour) [lateRow] = [⟨"2026-01-01 00:00:00", exactSums [lateRow]⟩] := by
    simp [groupsOf, groupBy, lateEnv]
  have hparse : parseBeijingTimestamp lateEnv "2026-01-01 00:00:00" = some yesterdayBounds.stop := by decide +kernel
  have houtside (totals : List UsageTotals) : mergeRow lateEnv (timelineBuckets yesterdayBounds .hour) totals
      ⟨"2026-01-01 00:00:00", exactSums [lateRow]⟩ = .error (outsideRange "2026-01-01 00:00:00") := by
    apply mergeRow_outside htiles
    · exact hparse
    · exact le_refl _
  have hmerged : mergeBuckets lateEnv (timelineBuckets yesterdayBounds .hour)
      [⟨"2026-01-01 00:00:00", exactSums [lateRow]⟩] =
        .error (outsideRange "2026-01-01 00:00:00") := by
    unfold mergeBuckets
    rw [List.foldlM_cons, houtside]
    rfl
  refine ⟨lateEnv_groups, hrows, ?_⟩
  simp only [timeline, hrequested, bind, Except.bind]
  rw [if_neg (by simp), hgroups, hrows, hgroup]
  exact hmerged

end Prelay.Stats
