import Mathlib.Algebra.Ring.Divisibility.Basic
import Prelay.StatsQueries

namespace Prelay.Stats

open Calendar Tiling Store

structure TokenUsageTimelinePoint where
  bucket : String
  totals : UsageTotals

structure BucketTokenAggregate where
  bucket : String
  sums : TokenSums

def bucketRow (group : String × List ActivityRow) : Except StorageError BucketTokenAggregate := do
  let sums ← tokenSums group.2
  .ok ⟨group.1, sums⟩

def BucketTokenAggregate.intoTotals (row : BucketTokenAggregate) : UsageTotals := row.sums.intoTotals

def queryBucket : TimelineGranularity → QueryBucket
  | .hour | .sixHours => .hour
  | .day | .halfMonth | .month => .day

def QueryBucket.length : QueryBucket → ℤ
  | .hour => hours 1
  | .day => days 1

def bucketStart (bucket : QueryBucket) (instant : ℤ) : ℤ :=
  (instant + beijingOffset) / bucket.length * bucket.length - beijingOffset

section timeline

variable (env : SqlEnv)

def parseBeijingTimestamp (value : String) : Option ℤ :=
  (env.parseFromStr (Str.trim value)).map (fun naive => naive - beijingOffset)

def bucketTotals (db : StatsDb) (identityId : String) (scope : ModelStatsScope) (bounds : TimeBounds)
    (granularity : TimelineGranularity) : Except StorageError (List BucketTokenAggregate) :=
  (env.arrange (groupBy (fun row => env.beijingBucket (queryBucket granularity) row.createdAt)
    (scopeQuery env db identityId scope (some bounds)))).mapM bucketRow

/-- The number of buckets that start at or before an instant. -/
def partitionPoint (buckets : List TimelineBucket) (start : ℤ) : ℕ :=
  (buckets.takeWhile (fun bucket => bucket.bounds.start ≤ start)).length

def mergeRow (buckets : List TimelineBucket) (totals : List UsageTotals) (row : BucketTokenAggregate) :
    Except StorageError (List UsageTotals) :=
  match parseBeijingTimestamp env row.bucket with
  | none => .error (.invalidTimestamp ("invalid timeline bucket: " ++ row.bucket))
  | some start =>
    let index := partitionPoint buckets start
    let inRange := index ≠ 0 ∧ buckets[index - 1]?.any (fun bucket => start < bucket.bounds.stop)
    if inRange then .ok (totals.modify (index - 1) (fun bucket => bucket.add row.intoTotals))
    else .error (.invalidTimestamp ("timeline bucket " ++ row.bucket ++ " is outside the requested range"))

def mergeBuckets (buckets : List TimelineBucket) (rows : List BucketTokenAggregate) :
    Except StorageError (List TokenUsageTimelinePoint) := do
  let totals ← rows.foldlM (mergeRow env buckets) (List.replicate buckets.length {})
  return (buckets.zip totals).map (fun p => ⟨p.1.label, p.2⟩)

def maxDailyBuckets : ℕ := 400

def tooManyBuckets (requested : ℕ) : StorageError :=
  .validationFailed ("granularity=day supports at most " ++ toString maxDailyBuckets ++ " buckets, requested " ++
    toString requested)

def scopeEarliest (db : StatsDb) (identityId : String) : ModelStatsScope → Except StorageError (Option ℤ)
  | .personal => earliestLogTime env db (some identityId)
  | .team => earliestLogTime env db none

def requestedBounds (db : StatsDb) (identityId : String) (scope : ModelStatsScope) (range : StatsRange)
    (granularity : TimelineGranularity) (now : ℤ) : Except StorageError (Option TimeBounds) :=
  match range.bounds now with
  | some bounds => .ok (some bounds)
  | none => (scopeEarliest env db identityId scope).map (fun earliest => timelineBounds range granularity earliest now)

def timeline (db : StatsDb) (identityId : String) (scope : ModelStatsScope) (range : StatsRange)
    (granularity : TimelineGranularity) (now : ℤ) : Except StorageError (List TokenUsageTimelinePoint) := do
  match ← requestedBounds env db identityId scope range granularity now with
  | none => .ok []
  | some bounds =>
    let buckets := timelineBuckets bounds granularity
    if granularity = .day ∧ maxDailyBuckets < buckets.length then
      .error (tooManyBuckets buckets.length)
    else
      let rows ← bucketTotals env db identityId scope bounds granularity
      mergeBuckets env buckets rows

def bucketPoint (db : StatsDb) (identityId : String) (scope : ModelStatsScope) (bucket : TimelineBucket) :
    Except StorageError TokenUsageTimelinePoint :=
  (overviewAggregate (scopeQuery env db identityId scope (some bucket.bounds))).map
    (fun view => ⟨bucket.label, view.usage⟩)

end timeline

section alignment

def Aligned (bucket : QueryBucket) (instant : ℤ) : Prop := bucket.length ∣ instant + beijingOffset

theorem bucketStart_within {bucket : QueryBucket} {start stop : ℤ} (hstart : Aligned bucket start)
    (hstop : Aligned bucket stop) (instant : ℤ) :
    (start ≤ bucketStart bucket instant ↔ start ≤ instant) ∧ (bucketStart bucket instant < stop ↔ instant < stop) := by
  obtain ⟨first, hfirst⟩ := hstart
  obtain ⟨last, hlast⟩ := hstop
  cases bucket with
  | hour =>
    unfold bucketStart
    simp only [QueryBucket.length, hours, beijingOffset] at hfirst hlast ⊢
    omega
  | day =>
    unfold bucketStart
    simp only [QueryBucket.length, days, hours, beijingOffset] at hfirst hlast ⊢
    omega

theorem aligned_midnight (bucket : QueryBucket) (day : ℤ) : Aligned bucket (midnight day) := by
  cases bucket with
  | hour =>
    refine ⟨24 * day, ?_⟩
    simp only [QueryBucket.length, midnight, days, hours, beijingOffset]
    omega
  | day =>
    refine ⟨day, ?_⟩
    simp only [QueryBucket.length, midnight, days, hours, beijingOffset]
    omega

theorem aligned_add {bucket : QueryBucket} {instant : ℤ} (h : Aligned bucket instant) (n : ℤ) :
    Aligned bucket (instant + bucket.length * n) := by
  unfold Aligned
  rw [add_right_comm]
  exact dvd_add h (dvd_mul_right _ _)

theorem aligned_nextStart {granularity : TimelineGranularity} {start : ℤ}
    (h : Aligned (queryBucket granularity) start) :
    Aligned (queryBucket granularity) (nextStart granularity start) := by
  cases granularity with
  | hour => exact aligned_add h 1
  | sixHours => exact aligned_add h 6
  | day => exact aligned_add h 1
  | halfMonth => exact aligned_midnight _ _
  | month => exact aligned_midnight _ _

theorem timelineBuckets_aligned {granularity : TimelineGranularity} {bounds : TimeBounds}
    (h : Aligned (queryBucket granularity) bounds.start) {bucket : TimelineBucket}
    (hbucket : bucket ∈ timelineBuckets bounds granularity) :
    Aligned (queryBucket granularity) bucket.bounds.start ∧ Aligned (queryBucket granularity) bucket.bounds.stop := by
  induction bounds using timelineBuckets.induct granularity with
  | case1 bounds hlt ih =>
    rw [timelineBuckets, if_pos hlt] at hbucket
    rcases List.mem_cons.mp hbucket with rfl | hbucket
    · exact ⟨h, aligned_nextStart h⟩
    · exact ih (aligned_nextStart h) hbucket
  | case2 bounds hnot =>
    rw [timelineBuckets, if_neg hnot] at hbucket
    cases hbucket

end alignment

section merging

variable {env : SqlEnv} {buckets : List TimelineBucket} {start stop : ℤ}

theorem modify_middle {α : Type*} (f : α → α) (before : List α) (a : α) (after : List α) :
    (before ++ a :: after).modify before.length f = before ++ f a :: after := by
  induction before with
  | nil => rfl
  | cons b before ih =>
    rw [List.cons_append, List.length_cons, List.modify_succ_cons, ih, List.cons_append]

theorem mergeRow_tiles (htiles : Tiles start stop (buckets.map TimelineBucket.tile)) {row : BucketTokenAggregate}
    {time : BucketTokenAggregate → ℤ} (hparse : parseBeijingTimestamp env row.bucket = some (time row))
    (hwithin : start ≤ time row ∧ time row < stop) (acc : TimelineBucket → UsageTotals) :
    mergeRow env buckets (buckets.map (fun bucket => (acc bucket).wrap)) row =
      .ok (buckets.map (fun bucket =>
        (acc bucket + if inTile time bucket.tile row then row.intoTotals else 0).wrap)) := by
  obtain ⟨before, tile, after, hsplit, hprefix, hfirst, hlast, hbefore, hafter⟩ := htiles.find hwithin.1 hwithin.2
  obtain ⟨bs, rest, rfl, rfl, hrest⟩ := List.map_eq_append_iff.mp hsplit
  obtain ⟨b, as, rfl, rfl, rfl⟩ := List.map_eq_cons_iff.mp hrest
  have hindex : partitionPoint (bs ++ b :: as) (time row) = bs.length + 1 := by
    have hlength := congrArg List.length hprefix
    rw [List.takeWhile_map, List.length_map, List.length_append, List.length_map] at hlength
    exact hlength
  have hget : (bs ++ b :: as)[bs.length]? = some b := by
    rw [List.getElem?_append_right (le_refl _), Nat.sub_self, List.getElem?_cons_zero]
  have houtside : ∀ bucket ∈ bs ++ as, inTile time bucket.tile row = false := by
    intro bucket hbucket
    apply decide_eq_false
    rintro ⟨hstart, hstop⟩
    rcases List.mem_append.mp hbucket with hbucket | hbucket
    · exact absurd hstop (not_lt.mpr (hbefore _ (List.mem_map_of_mem hbucket)))
    · exact absurd hstart (not_le.mpr (hafter _ (List.mem_map_of_mem hbucket)))
  have hkept : ∀ part ⊆ bs ++ as, part.map (fun bucket => (acc bucket +
      if inTile time bucket.tile row then row.intoTotals else 0).wrap) =
      part.map (fun bucket => (acc bucket).wrap) := by
    intro part hpart
    apply List.map_congr_left
    intro bucket hbucket
    rw [houtside bucket (hpart hbucket), if_neg Bool.false_ne_true, add_zero]
  have hinside : inTile time b.tile row = true := decide_eq_true ⟨hfirst, hlast⟩
  unfold mergeRow
  rw [hparse]
  dsimp only
  rw [hindex, Nat.add_sub_cancel, hget, if_pos ⟨Nat.succ_ne_zero _, decide_eq_true hlast⟩]
  apply congrArg Except.ok
  rw [List.map_append, List.map_cons, List.map_append, List.map_cons, hkept bs (List.subset_append_left _ _),
    hkept as (List.subset_append_right _ _), if_pos hinside]
  have hmodify := modify_middle (fun totals => UsageTotals.add totals row.intoTotals)
    (bs.map (fun bucket => (acc bucket).wrap)) (acc b).wrap (as.map (fun bucket => (acc bucket).wrap))
  rw [List.length_map, UsageTotals.wrap_add] at hmodify
  exact hmodify

theorem foldlM_mergeRow (htiles : Tiles start stop (buckets.map TimelineBucket.tile)) {rows : List BucketTokenAggregate}
    {time : BucketTokenAggregate → ℤ} (hparse : ∀ row ∈ rows, parseBeijingTimestamp env row.bucket = some (time row))
    (hwithin : ∀ row ∈ rows, start ≤ time row ∧ time row < stop) (acc : TimelineBucket → UsageTotals) :
    rows.foldlM (mergeRow env buckets) (buckets.map (fun bucket => (acc bucket).wrap)) =
      .ok (buckets.map (fun bucket =>
        (acc bucket + cellSum BucketTokenAggregate.intoTotals (inTile time) rows bucket.tile).wrap)) := by
  induction rows generalizing acc with
  | nil =>
    apply congrArg Except.ok
    apply List.map_congr_left
    intro bucket _
    exact congrArg UsageTotals.wrap (add_zero _).symm
  | cons row rows ih =>
    rw [List.foldlM_cons, mergeRow_tiles htiles (hparse row List.mem_cons_self) (hwithin row List.mem_cons_self) acc]
    change rows.foldlM (mergeRow env buckets) (buckets.map _) = _
    rw [ih (fun row hrow => hparse row (List.mem_cons_of_mem _ hrow))
      (fun row hrow => hwithin row (List.mem_cons_of_mem _ hrow))]
    apply congrArg Except.ok
    apply List.map_congr_left
    intro bucket _
    rw [cellSum_cons, add_assoc]

theorem mergeBuckets_tiles (htiles : Tiles start stop (buckets.map TimelineBucket.tile))
    {rows : List BucketTokenAggregate} {time : BucketTokenAggregate → ℤ}
    (hparse : ∀ row ∈ rows, parseBeijingTimestamp env row.bucket = some (time row))
    (hwithin : ∀ row ∈ rows, start ≤ time row ∧ time row < stop) :
    mergeBuckets env buckets rows = .ok (buckets.map (fun bucket =>
      ⟨bucket.label, (cellSum BucketTokenAggregate.intoTotals (inTile time) rows bucket.tile).wrap⟩)) := by
  have hempty : List.replicate buckets.length ({} : UsageTotals) = buckets.map (fun _ => (0 : UsageTotals).wrap) := by
    rw [List.map_const']
    rfl
  unfold mergeBuckets
  rw [hempty, foldlM_mergeRow htiles hparse hwithin]
  change Except.ok _ = _
  apply congrArg Except.ok
  rw [← List.map_prod_left_eq_zip, List.map_map]
  simp only [Function.comp_def, zero_add]

end merging

section reading

/-- A text of the table with the instant it was written for. PostgreSQL rounds the instant to microseconds, which does
not take it out of its hour or day. -/
structure Recorded (env : SqlEnv) (bucket : QueryBucket) (now : ℤ) (row : ActivityRow) (instant : ℤ) : Prop where
  text : row.createdAt = toRfc3339 instant
  dated : 0 ≤ instant ∧ instant ≤ now
  parse : env.parseFromRfc3339 row.createdAt = .ok instant
  rounded : ∃ rounded, 1000 ∣ rounded ∧ |rounded - instant| ≤ 500 ∧
    env.parseFromStr (Str.trim (env.beijingBucket bucket row.createdAt)) =
      some (bucketStart bucket rounded + beijingOffset)
  settled : bucketStart bucket (instant + 500) = bucketStart bucket instant

/-- A database that compares texts by their bytes, and whose texts are read as they were written. -/
structure SqlEnv.Reads (env : SqlEnv) (bucket : QueryBucket) (now : ℤ) (rows : List ActivityRow) : Prop where
  collation : ∀ a b, env.le a b = true ↔ a ≤ b
  recorded : ∀ row ∈ rows, ∃ instant, Recorded env bucket now row instant
  arrange : ∀ groups, (env.arrange groups).Perm groups

/-- A time before the year 9998. -/
def Current (now : ℤ) : Prop := 0 ≤ now ∧ now < days 2932167

def instantOf (env : SqlEnv) (row : ActivityRow) : ℤ := (env.parseFromRfc3339 row.createdAt).toOption.getD 0

/-- The texts of some rows are read, and the database has them in the order of their instants. -/
structure SqlEnv.InOrder (env : SqlEnv) (rows : List ActivityRow) : Prop where
  parse : ∀ row ∈ rows, env.parseFromRfc3339 row.createdAt = .ok (instantOf env row)
  le : ∀ row ∈ rows, ∀ other ∈ rows,
    (env.le row.createdAt other.createdAt = true ↔ instantOf env row ≤ instantOf env other)

/-- The group of each row starts with the hour or day of a time. -/
def SqlEnv.GroupsBy (env : SqlEnv) (bucket : QueryBucket) (rows : List ActivityRow) (time : ActivityRow → ℤ) : Prop :=
  ∀ row ∈ rows, parseBeijingTimestamp env (env.beijingBucket bucket row.createdAt) = some (bucketStart bucket (time row))

variable {env : SqlEnv} {bucket : QueryBucket} {now : ℤ} {rows : List ActivityRow} {row : ActivityRow}

theorem SqlEnv.Reads.instantOf (h : env.Reads bucket now rows) (hrow : row ∈ rows) :
    Recorded env bucket now row (instantOf env row) := by
  obtain ⟨instant, hrecorded⟩ := h.recorded row hrow
  have hinstant : Stats.instantOf env row = instant := by
    rw [Stats.instantOf, hrecorded.parse]
    rfl
  rw [hinstant]
  exact hrecorded

theorem bucketStart_rounded {instant rounded : ℤ} (hmicros : 1000 ∣ rounded) (hnear : |rounded - instant| ≤ 500)
    (hsettled : bucketStart bucket (instant + 500) = bucketStart bucket instant) :
    bucketStart bucket rounded = bucketStart bucket instant := by
  obtain ⟨hlow, hhigh⟩ := abs_le.mp hnear
  cases bucket with
  | hour =>
    simp only [bucketStart, QueryBucket.length, hours, beijingOffset] at hsettled ⊢
    omega
  | day =>
    simp only [bucketStart, QueryBucket.length, days, hours, beijingOffset] at hsettled ⊢
    omega

theorem SqlEnv.Reads.groupsBy (h : env.Reads bucket now rows) : env.GroupsBy bucket rows (Stats.instantOf env) := by
  intro row hrow
  have hrecorded := h.instantOf hrow
  obtain ⟨rounded, hmicros, hnear, hparse⟩ := hrecorded.rounded
  rw [parseBeijingTimestamp, hparse, Option.map_some, add_sub_cancel_right,
    bucketStart_rounded hmicros hnear hrecorded.settled]

theorem Recorded.fourDigits {instant : ℤ} (h : Recorded env bucket now row instant) (hnow : Current now) :
    FourDigits instant := by
  obtain ⟨hfirst, hlast⟩ := h.dated
  obtain ⟨-, hyears⟩ := hnow
  apply fourDigits_of_bounds
  · unfold days
    omega
  · unfold days at hyears ⊢
    omega

theorem inBounds_iff (h : env.Reads bucket now rows) (hrow : row ∈ rows) (hnow : Current now) {bounds : TimeBounds}
    (hstart : FourDigits bounds.start) (hstop : FourDigits bounds.stop) :
    inBounds env (some bounds) row = true ↔ bounds.start ≤ instantOf env row ∧ instantOf env row < bounds.stop := by
  have hrecorded := h.instantOf hrow
  have hinstant := hrecorded.fourDigits hnow
  rw [inBounds, Option.all_some, Bool.and_eq_true, Bool.not_eq_true', ← Bool.not_eq_true, h.collation, h.collation,
    hrecorded.text, toRfc3339_le hstart hinstant, toRfc3339_le hstop hinstant, not_le]

theorem SqlEnv.Reads.inOrder (h : env.Reads bucket now rows) (hnow : Current now) : env.InOrder rows where
  parse row hrow := (h.instantOf hrow).parse
  le row hrow other hother := by
    have hrecorded := h.instantOf hrow
    have hotherRecorded := h.instantOf hother
    rw [h.collation, hrecorded.text, hotherRecorded.text,
      toRfc3339_le (hrecorded.fourDigits hnow) (hotherRecorded.fourDigits hnow)]

theorem minOf_least (h : env.InOrder rows) (hne : rows ≠ []) :
    ∃ first ∈ rows, minOf env (rows.map ActivityRow.createdAt) = some first.createdAt ∧
      ∀ row ∈ rows, instantOf env first ≤ instantOf env row := by
  induction rows with
  | nil => exact absurd rfl hne
  | cons row rows ih =>
    by_cases hempty : rows = []
    · subst hempty
      exact ⟨row, List.mem_cons_self, rfl, List.forall_mem_singleton.mpr (le_refl _)⟩
    have hrows : env.InOrder rows := ⟨fun other hother => h.parse other (List.mem_cons_of_mem _ hother),
      fun a ha b hb => h.le a (List.mem_cons_of_mem _ ha) b (List.mem_cons_of_mem _ hb)⟩
    obtain ⟨least, hleast, hmin, hle⟩ := ih hrows hempty
    have hcompare := h.le row List.mem_cons_self least (List.mem_cons_of_mem _ hleast)
    rw [List.map_cons, minOf, hmin]
    dsimp only
    by_cases hfirst : instantOf env row ≤ instantOf env least
    · rw [if_pos (hcompare.mpr hfirst)]
      refine ⟨row, List.mem_cons_self, rfl, List.forall_mem_cons.mpr ⟨le_refl _, ?_⟩⟩
      exact fun other hother => hfirst.trans (hle other hother)
    · rw [if_neg (fun hrow => hfirst (hcompare.mp hrow))]
      exact ⟨least, List.mem_cons_of_mem _ hleast, rfl, List.forall_mem_cons.mpr ⟨(not_le.mp hfirst).le, hle⟩⟩

theorem earliestLogTime_ok {db : StatsDb} (h : env.InOrder db.activities) (identityId : Option String) :
    ∃ earliest, earliestLogTime env db identityId = .ok earliest ∧
      (∀ instant ∈ earliest, ∃ row ∈ db.activities, instantOf env row = instant) ∧
      ∀ row ∈ db.activities, identityId.all (fun identityId => row.identityId = identityId) = true →
        ∃ instant ∈ earliest, instant ≤ instantOf env row := by
  obtain ⟨found, hfound⟩ : ∃ found, found = db.activities.filter
    (fun row => identityId.all (fun identityId => row.identityId = identityId)) := ⟨_, rfl⟩
  have hmem : ∀ row ∈ found, row ∈ db.activities := by
    intro row hrow
    rw [hfound] at hrow
    exact List.mem_of_mem_filter hrow
  unfold earliestLogTime
  dsimp only
  rw [← hfound]
  by_cases hempty : found = []
  · rw [hempty]
    refine ⟨none, rfl, nofun, ?_⟩
    intro row hrow hidentity
    have hin : row ∈ found := hfound ▸ List.mem_filter.mpr ⟨hrow, hidentity⟩
    rw [hempty] at hin
    exact absurd hin List.not_mem_nil
  · have horder : env.InOrder found :=
      ⟨fun row hrow => h.parse row (hmem row hrow), fun a ha b hb => h.le a (hmem a ha) b (hmem b hb)⟩
    obtain ⟨first, hfirst, hmin, hle⟩ := minOf_least horder hempty
    refine ⟨some (instantOf env first), ?_, ?_, ?_⟩
    · rw [hmin, Option.mapM_some, horder.parse first hfirst]
      rfl
    · intro instant hinstant
      exact ⟨first, hmem first hfirst, Option.some.inj hinstant⟩
    · intro row hrow hidentity
      exact ⟨_, rfl, hle row (hfound ▸ List.mem_filter.mpr ⟨hrow, hidentity⟩)⟩

end reading

section totals

variable {env : SqlEnv} {granularity : TimelineGranularity} {db : StatsDb} {identityId : String}
  {scope : ModelStatsScope} {now : ℤ}

theorem scopeQuery_filter (env : SqlEnv) (db : StatsDb) (identityId : String) (scope : ModelStatsScope)
    (bounds : Option TimeBounds) :
    scopeQuery env db identityId scope bounds =
      (scopeQuery env db identityId scope none).filter (inBounds env bounds) := by
  have hall (rows : List ActivityRow) : rows.filter (inBounds env none) = rows := List.filter_true rows
  cases scope with
  | personal =>
    change _ = ((db.activities.filter _).filter (inBounds env none)).filter _
    rw [hall]
    rfl
  | team =>
    change _ = ((teamRows db).filter (inBounds env none)).filter _
    rw [hall]
    rfl

theorem mem_scopeQuery {bounds : Option TimeBounds} {row : ActivityRow}
    (h : row ∈ scopeQuery env db identityId scope bounds) : row ∈ db.activities := by
  cases scope with
  | personal => exact List.mem_of_mem_filter (List.mem_of_mem_filter h)
  | team =>
    obtain ⟨identity, -, hrow⟩ := List.mem_flatMap.mp (List.mem_of_mem_filter h)
    exact List.mem_of_mem_filter hrow

theorem scopeEarliest_ok (h : env.InOrder db.activities) (identityId : String) (scope : ModelStatsScope) :
    ∃ earliest, scopeEarliest env db identityId scope = .ok earliest ∧
      (∀ instant ∈ earliest, ∃ row ∈ db.activities, instantOf env row = instant) ∧
      ∀ row ∈ scopeQuery env db identityId scope none, ∃ instant ∈ earliest, instant ≤ instantOf env row := by
  cases scope with
  | personal =>
    obtain ⟨earliest, hok, hrecorded, hfirst⟩ := earliestLogTime_ok h (some identityId)
    refine ⟨earliest, hok, hrecorded, ?_⟩
    intro row hrow
    obtain ⟨hmem, hidentity⟩ := List.mem_filter.mp (List.mem_of_mem_filter hrow)
    exact hfirst row hmem hidentity
  | team =>
    obtain ⟨earliest, hok, hrecorded, hfirst⟩ := earliestLogTime_ok h none
    exact ⟨earliest, hok, hrecorded, fun row hrow => hfirst row (mem_scopeQuery hrow) rfl⟩

theorem SqlEnv.Reads.query {bucket : QueryBucket} (h : env.Reads bucket now db.activities)
    (bounds : Option TimeBounds) : env.Reads bucket now (scopeQuery env db identityId scope bounds) :=
  ⟨h.collation, fun row hrow => h.recorded row (mem_scopeQuery hrow), h.arrange⟩

theorem scopeQuery_within {bucket : QueryBucket} (h : env.Reads bucket now db.activities) (hnow : Current now)
    {bounds : TimeBounds} (hstart : FourDigits bounds.start) (hstop : FourDigits bounds.stop) {row : ActivityRow}
    (hrow : row ∈ scopeQuery env db identityId scope (some bounds)) :
    bounds.start ≤ instantOf env row ∧ instantOf env row < bounds.stop := by
  have hmem := hrow
  rw [scopeQuery_filter] at hmem
  exact (inBounds_iff h (mem_scopeQuery hrow) hnow hstart hstop).mp (List.mem_filter.mp hmem).2

def groupStart (env : SqlEnv) (group : BucketTokenAggregate) : ℤ := (parseBeijingTimestamp env group.bucket).getD 0

def groupsOf (env : SqlEnv) (bucket : QueryBucket) (rows : List ActivityRow) : List BucketTokenAggregate :=
  (env.arrange (groupBy (fun row => env.beijingBucket bucket row.createdAt) rows)).map
    (fun group => ⟨group.1, exactSums group.2⟩)

theorem bucketTotals_ok {bounds : TimeBounds}
    (harrange : ∀ groups, (env.arrange groups).Perm groups)
    (hfits : Fits (scopeQuery env db identityId scope (some bounds))) :
    bucketTotals env db identityId scope bounds granularity =
      .ok (groupsOf env (queryBucket granularity) (scopeQuery env db identityId scope (some bounds))) := by
  apply mapM_eq_map
  intro group hgroup
  obtain ⟨hrows, -⟩ := groupBy_rows _ ((harrange _).mem_iff.mp hgroup)
  have hgroupFits : Fits group.2 := by
    rw [hrows]
    exact hfits.filter _
  simp only [bucketRow, tokenSums_ok hgroupFits, bind, Except.bind]

theorem groupsOf_start {bucket : QueryBucket} {rows : List ActivityRow} {time : ActivityRow → ℤ}
    (harrange : ∀ groups, (env.arrange groups).Perm groups) (htime : env.GroupsBy bucket rows time)
    {group : BucketTokenAggregate} (hgroup : group ∈ groupsOf env bucket rows) :
    ∃ row ∈ rows, parseBeijingTimestamp env group.bucket = some (bucketStart bucket (time row)) := by
  obtain ⟨found, hfound, rfl⟩ := List.mem_map.mp hgroup
  obtain ⟨hfilter, hne⟩ := groupBy_rows _ ((harrange _).mem_iff.mp hfound)
  obtain ⟨row, hrow⟩ := List.exists_mem_of_ne_nil _ hne
  rw [hfilter] at hrow
  obtain ⟨hrow, htext⟩ := List.mem_filter.mp hrow
  refine ⟨row, hrow, ?_⟩
  rw [← htime row hrow, of_decide_eq_true htext]

theorem cellSum_groups {bucket : QueryBucket} {rows : List ActivityRow} {time : ActivityRow → ℤ}
    (harrange : ∀ groups, (env.arrange groups).Perm groups) (htime : env.GroupsBy bucket rows time)
    {tile : ℤ × ℤ} (hstart : Aligned bucket tile.1) (hstop : Aligned bucket tile.2) :
    cellSum BucketTokenAggregate.intoTotals (inTile (groupStart env)) (groupsOf env bucket rows) tile =
      cellSum UsageTotals.ofRow (inTile time) rows tile := by
  rw [groupsOf, cellSum_perm _ _ ((harrange _).map _), cellSum_eq, cellSum_eq,
    ← sum_groupBy (fun row : ActivityRow => env.beijingBucket bucket row.createdAt), List.map_map]
  apply congrArg List.sum
  apply List.map_congr_left
  intro group hgroup
  obtain ⟨hrows, -⟩ := groupBy_rows _ hgroup
  have hsame : ∀ row ∈ group.2,
      inTile (groupStart env) tile (⟨group.1, exactSums group.2⟩ : BucketTokenAggregate) =
        inTile time tile row := by
    intro row hrow
    rw [hrows] at hrow
    obtain ⟨hrow, htext⟩ := List.mem_filter.mp hrow
    obtain ⟨hfirst, hlast⟩ := bucketStart_within hstart hstop (time row)
    have hgroupStart : groupStart env ⟨group.1, exactSums group.2⟩ = bucketStart bucket (time row) := by
      have hparse := htime row hrow
      rw [of_decide_eq_true htext] at hparse
      exact congrArg (fun time => time.getD 0) hparse
    apply decide_eq_decide.mpr
    rw [hgroupStart]
    exact and_congr hfirst hlast
  dsimp only [Function.comp_apply]
  rw [BucketTokenAggregate.intoTotals, intoTotals_exactSums]
  have hfixed : ∀ inside : Bool, (∀ row ∈ group.2, inside = inTile time tile row) →
      (if inside then (group.2.map UsageTotals.ofRow).sum else 0) =
        (group.2.map (fun row => if inTile time tile row then UsageTotals.ofRow row else 0)).sum := by
    intro inside hinside
    have hmap : group.2.map (fun row => if inTile time tile row then UsageTotals.ofRow row else 0) =
        group.2.map (fun row => if inside then UsageTotals.ofRow row else 0) := by
      apply List.map_congr_left
      intro row hrow
      rw [hinside row hrow]
    rw [hmap]
    cases inside with
    | true => rfl
    | false =>
      symm
      apply List.sum_eq_zero
      intro x hx
      obtain ⟨row, -, rfl⟩ := List.mem_map.mp hx
      rfl
  exact hfixed _ hsame

theorem all_within {earliest instant now : ℤ} (hfirst : earliest ≤ instant) (hlast : instant ≤ now)
    {bounds : TimeBounds} (h : timelineBounds .all granularity (some earliest) now = some bounds) :
    bounds.start ≤ instant ∧ instant < bounds.stop := by
  obtain rfl := Option.some.inj h
  have hday := dateNaive_toDays earliest
  have hnow := dateNaive_toDays now
  have hrange := (dateNaive earliest).day_range
  have hmonth := (dateNaive now).day_range
  have hstart : midnight (beijingDay earliest) ≤ instant := (midnight_beijingDay earliest).1.trans hfirst
  have hstop : instant < midnight (beijingDay now + 1) := hlast.trans_lt (midnight_beijingDay now).2
  cases granularity with
  | day =>
    constructor
    · exact (midnight_le.mpr hday.le).trans hstart
    · apply hstop.trans_le
      apply midnight_le.mpr
      rw [Date.addDays_toDays]
      omega
  | _ =>
    constructor
    · refine le_trans (midnight_le.mpr ?_) hstart
      rw [Date.firstDayOfMonth, Date.withDay_toDays]
      omega
    · apply hstop.trans_le
      apply midnight_le.mpr
      rw [Date.nextMonth_toDays]
      omega

theorem timelineBuckets_next {bounds : TimeBounds} {bucket : TimelineBucket}
    (h : bucket ∈ timelineBuckets bounds granularity) :
    bucket.bounds.stop = nextStart granularity bucket.bounds.start := by
  induction bounds using timelineBuckets.induct granularity with
  | case1 bounds hlt ih =>
    rw [timelineBuckets, if_pos hlt] at h
    rcases List.mem_cons.mp h with rfl | h
    · rfl
    · exact ih h
  | case2 bounds hnot =>
    rw [timelineBuckets, if_neg hnot] at h
    cases h

theorem timelineBounds_of_bounds {range : StatsRange} {now : ℤ} {bounds : TimeBounds}
    (h : range.bounds now = some bounds) (earliest : Option ℤ) :
    timelineBounds range granularity earliest now = some bounds := by
  unfold timelineBounds
  rw [h]

theorem daily_few {range : StatsRange} {now : ℤ} {bounds : TimeBounds} (h : range.bounds now = some bounds) :
    (timelineBuckets bounds .day).length ≤ maxDailyBuckets := by
  have htiles := tiles_daily (by simp) (timelineBounds_of_bounds h none)
  have hlength : ∀ tile ∈ (timelineBuckets bounds .day).map TimelineBucket.tile, tile.2 = tile.1 + days 1 := by
    intro tile htile
    obtain ⟨bucket, hbucket, rfl⟩ := List.mem_map.mp htile
    exact timelineBuckets_next hbucket
  have hspan := htiles.length_mul hlength
  have hdays := bounds_days h
  rw [List.length_map] at hspan
  unfold maxDailyBuckets
  unfold days at hspan hdays
  omega

theorem bounds_all {range : StatsRange} {now : ℤ} (h : range.bounds now = none) : range = .all := by
  cases range with
  | all => rfl
  | _ => cases h

theorem timelineBounds_aligned {range : StatsRange} {earliest : Option ℤ} {now : ℤ} {bounds : TimeBounds}
    (hearliest : ∀ instant ∈ earliest, instant ≤ now)
    (h : timelineBounds range granularity earliest now = some bounds) (bucket : QueryBucket) :
    Aligned bucket bounds.start ∧ Aligned bucket bounds.stop := by
  obtain ⟨start, stop, rfl, -⟩ := exists_dates hearliest h
  exact ⟨aligned_midnight bucket _, aligned_midnight bucket _⟩

theorem bounds_near {range : StatsRange} {bounds : TimeBounds} (h : range.bounds now = some bounds) :
    now - days 732 ≤ bounds.start ∧ bounds.stop ≤ now + days 366 := by
  have hdays := bounds_days h
  have hthis : ∀ {last this : StatsRange} {bounds : TimeBounds}, Precedes last this → this.bounds now = some bounds →
      now - days 366 ≤ bounds.start ∧ bounds.start ≤ now := by
    intro last this bounds hprecedes hbounds
    obtain ⟨found, before, hfound, -, hstart, hstop, -⟩ := range_around hprecedes now
    obtain rfl := Option.some.inj (hbounds.symm.trans hfound)
    have hspan := bounds_days hbounds
    omega
  have hlast : ∀ {last this : StatsRange} {before : TimeBounds}, Precedes last this → last.bounds now = some before →
      now - days 366 ≤ before.stop ∧ before.stop ≤ now := by
    intro last this before hprecedes hbefore
    obtain ⟨bounds, found, hbounds, hfound, -, -, hmeet⟩ := range_around hprecedes now
    obtain rfl := Option.some.inj (hbefore.symm.trans hfound)
    rw [hmeet]
    exact hthis hprecedes hbounds
  have hcases : (now - days 366 ≤ bounds.start ∧ bounds.start ≤ now) ∨
      (now - days 366 ≤ bounds.stop ∧ bounds.stop ≤ now) := by
    cases range with
    | all => exact nomatch h
    | today => exact .inl (hthis .day h)
    | yesterday => exact .inr (hlast .day h)
    | thisWeek => exact .inl (hthis .week h)
    | lastWeek => exact .inr (hlast .week h)
    | thisMonth => exact .inl (hthis .month h)
    | lastMonth => exact .inr (hlast .month h)
    | thisYear => exact .inl (hthis .year h)
    | lastYear => exact .inr (hlast .year h)
  unfold days at hdays hcases ⊢
  omega

theorem timelineBounds_near {range : StatsRange} {earliest : Option ℤ} {bounds : TimeBounds} (hnow : 0 ≤ now)
    (hearliest : ∀ instant ∈ earliest, 0 ≤ instant ∧ instant ≤ now)
    (h : timelineBounds range granularity earliest now = some bounds) :
    -days 732 ≤ bounds.start ∧ bounds.stop ≤ now + days 366 := by
  cases hrange : range.bounds now with
  | some found =>
    rw [timelineBounds_of_bounds hrange] at h
    obtain rfl := Option.some.inj h
    have hnear := bounds_near hrange
    omega
  | none =>
    obtain rfl := bounds_all hrange
    obtain ⟨instant, hinstant, rfl⟩ := Option.map_eq_some_iff.mp h
    obtain ⟨hfirst, hlast⟩ := hearliest instant hinstant
    have hdate := dateNaive_toDays instant
    have htoday := dateNaive_toDays now
    have hday := (dateNaive instant).day_range
    have hmonth := (dateNaive now).day_range
    have hlength := monthLength_bounds (leapDay_cases (dateNaive instant).year) (dateNaive instant).month_range.1
      (dateNaive instant).month_range.2
    have hlengthNow := monthLength_bounds (leapDay_cases (dateNaive now).year) (dateNaive now).month_range.1
      (dateNaive now).month_range.2
    have hstartDay : 0 ≤ beijingDay instant := by
      unfold beijingDay beijingOffset hours days
      omega
    have hstopDay : midnight (beijingDay now) ≤ now := (midnight_beijingDay now).1
    have hspan {start stop : Date} (hstart : -31 ≤ start.toDays) (hstop : stop.toDays ≤ beijingDay now + 31) :
        -days 732 ≤ beijingStartOfDay start ∧ beijingStartOfDay stop ≤ now + days 366 := by
      unfold beijingStartOfDay
      unfold midnight days beijingOffset hours at *
      omega
    cases granularity with
    | day =>
      apply hspan
      · omega
      · rw [Date.addDays_toDays]
        omega
    | _ =>
      apply hspan
      · rw [Date.firstDayOfMonth, Date.withDay_toDays]
        omega
      · rw [Date.nextMonth_toDays]
        omega

theorem timelineBounds_fourDigits {range : StatsRange} {earliest : Option ℤ} {bounds : TimeBounds} (hnow : Current now)
    (hearliest : ∀ instant ∈ earliest, 0 ≤ instant ∧ instant ≤ now)
    (h : timelineBounds range granularity earliest now = some bounds) {instant : ℤ} (hstart : bounds.start ≤ instant)
    (hstop : instant ≤ bounds.stop) : FourDigits instant := by
  obtain ⟨hfirst, hlast⟩ := timelineBounds_near hnow.1 hearliest h
  obtain ⟨-, hyears⟩ := hnow
  apply fourDigits_of_bounds
  · unfold days at hfirst ⊢
    omega
  · unfold days at hlast hyears ⊢
    omega

theorem bucket_usage {bucket : QueryBucket} (hreads : env.Reads bucket now db.activities) (hnow : Current now)
    {bounds inner : TimeBounds} (hyears : ∀ instant, bounds.start ≤ instant → instant ≤ bounds.stop → FourDigits instant)
    (hstart : bounds.start ≤ inner.start) (hle : inner.start ≤ inner.stop) (hstop : inner.stop ≤ bounds.stop) :
    cellSum UsageTotals.ofRow (inTile (instantOf env)) (scopeQuery env db identityId scope (some bounds))
        (inner.start, inner.stop) =
      ((scopeQuery env db identityId scope (some inner)).map UsageTotals.ofRow).sum := by
  rw [scopeQuery_filter env db identityId scope (some inner), scopeQuery_filter env db identityId scope (some bounds)]
  unfold cellSum
  rw [List.filter_filter]
  apply congrArg (fun rows => (List.map UsageTotals.ofRow rows).sum)
  apply List.filter_congr
  intro row hrow
  have hrow := mem_scopeQuery hrow
  have hinner := inBounds_iff hreads hrow hnow (hyears _ hstart (hle.trans hstop)) (hyears _ (hstart.trans hle) hstop)
  have houter := inBounds_iff hreads hrow hnow (hyears _ (le_refl _) (hstart.trans (hle.trans hstop)))
    (hyears _ (hstart.trans (hle.trans hstop)) (le_refl _))
  apply Bool.eq_iff_iff.mpr
  rw [Bool.and_eq_true, hinner, houter, inTile, decide_eq_true_eq]
  constructor
  · exact And.left
  · rintro ⟨hfirst, hlast⟩
    exact ⟨⟨hfirst, hlast⟩, hstart.trans hfirst, hlast.trans_le hstop⟩

def exactPoint (env : SqlEnv) (db : StatsDb) (identityId : String) (scope : ModelStatsScope) (bucket : TimelineBucket) :
    TokenUsageTimelinePoint :=
  ⟨bucket.label, ((scopeQuery env db identityId scope (some bucket.bounds)).map UsageTotals.ofRow).sum⟩

theorem bucketPoint_ok {bucket : TimelineBucket}
    (hfits : Fits (scopeQuery env db identityId scope (some bucket.bounds))) :
    bucketPoint env db identityId scope bucket = .ok (exactPoint env db identityId scope bucket) := by
  obtain ⟨view, hview, husage⟩ := overviewAggregate_ok hfits
  rw [bucketPoint, hview, exactPoint, ← husage]
  rfl

theorem mergeBuckets_groups {bounds : TimeBounds} {rows : List ActivityRow} {time : ActivityRow → ℤ}
    (harrange : ∀ groups, (env.arrange groups).Perm groups) (htime : env.GroupsBy (queryBucket granularity) rows time)
    (htiles : Tiles bounds.start bounds.stop ((timelineBuckets bounds granularity).map TimelineBucket.tile))
    (haligned : Aligned (queryBucket granularity) bounds.start ∧ Aligned (queryBucket granularity) bounds.stop)
    (hwithin : ∀ row ∈ rows, bounds.start ≤ time row ∧ time row < bounds.stop) :
    mergeBuckets env (timelineBuckets bounds granularity) (groupsOf env (queryBucket granularity) rows) =
      .ok ((timelineBuckets bounds granularity).map (fun bucket =>
        ⟨bucket.label, (cellSum UsageTotals.ofRow (inTile time) rows bucket.tile).wrap⟩)) := by
  have hparse : ∀ group ∈ groupsOf env (queryBucket granularity) rows,
      parseBeijingTimestamp env group.bucket = some (groupStart env group) := by
    intro group hgroup
    obtain ⟨row, -, hgroupStart⟩ := groupsOf_start harrange htime hgroup
    rw [groupStart, hgroupStart, Option.getD_some]
  have hgroups : ∀ group ∈ groupsOf env (queryBucket granularity) rows,
      bounds.start ≤ groupStart env group ∧ groupStart env group < bounds.stop := by
    intro group hgroup
    obtain ⟨row, hrow, hgroupStart⟩ := groupsOf_start harrange htime hgroup
    obtain ⟨hfirst, hlast⟩ := bucketStart_within haligned.1 haligned.2 (time row)
    rw [groupStart, hgroupStart, Option.getD_some]
    exact ⟨hfirst.mpr (hwithin row hrow).1, hlast.mpr (hwithin row hrow).2⟩
  rw [mergeBuckets_tiles htiles hparse hgroups]
  apply congrArg Except.ok
  apply List.map_congr_left
  intro bucket hbucket
  obtain ⟨hstart, hstop⟩ := timelineBuckets_aligned haligned.1 hbucket
  rw [cellSum_groups harrange htime hstart hstop]

theorem mergeBuckets_totals {bounds : TimeBounds} (hreads : env.Reads (queryBucket granularity) now db.activities)
    (hnow : Current now) (hyears : ∀ instant, bounds.start ≤ instant → instant ≤ bounds.stop → FourDigits instant)
    (htiles : Tiles bounds.start bounds.stop ((timelineBuckets bounds granularity).map TimelineBucket.tile))
    (haligned : Aligned (queryBucket granularity) bounds.start ∧ Aligned (queryBucket granularity) bounds.stop)
    (hfits : Fits (scopeQuery env db identityId scope none)) :
    mergeBuckets env (timelineBuckets bounds granularity)
        (groupsOf env (queryBucket granularity) (scopeQuery env db identityId scope (some bounds))) =
      .ok ((timelineBuckets bounds granularity).map (exactPoint env db identityId scope)) := by
  have hrows : env.Reads (queryBucket granularity) now (scopeQuery env db identityId scope (some bounds)) :=
    hreads.query _
  have hends := hyears bounds.start (le_refl _) htiles.le
  have hstops := hyears bounds.stop htiles.le (le_refl _)
  have hwithin : ∀ row ∈ scopeQuery env db identityId scope (some bounds),
      bounds.start ≤ instantOf env row ∧ instantOf env row < bounds.stop :=
    fun row hrow => scopeQuery_within hreads hnow hends hstops hrow
  rw [mergeBuckets_groups hreads.arrange hrows.groupsBy htiles haligned hwithin]
  apply congrArg Except.ok
  apply List.map_congr_left
  intro bucket hbucket
  obtain ⟨hfirst, hlt, hlast⟩ := htiles.bounds (List.mem_map_of_mem hbucket)
  have hsum : cellSum UsageTotals.ofRow (inTile (instantOf env)) (scopeQuery env db identityId scope (some bounds))
      bucket.tile = ((scopeQuery env db identityId scope (some bucket.bounds)).map UsageTotals.ofRow).sum :=
    bucket_usage hreads hnow hyears hfirst hlt.le hlast
  have hbucketFits : Fits (scopeQuery env db identityId scope (some bucket.bounds)) := by
    rw [scopeQuery_filter]
    exact hfits.filter _
  exact congrArg (TokenUsageTimelinePoint.mk bucket.label)
    ((congrArg UsageTotals.wrap hsum).trans (wrap_of_fits hbucketFits))

theorem requestedBounds_ok (h : env.InOrder db.activities) (identityId : String) (scope : ModelStatsScope)
    (range : StatsRange) (granularity : TimelineGranularity) (now : ℤ) :
    ∃ earliest, requestedBounds env db identityId scope range granularity now =
        .ok (timelineBounds range granularity earliest now) ∧
      (∀ instant ∈ earliest, ∃ row ∈ db.activities, instantOf env row = instant) ∧
      (range.bounds now = none →
        ∀ row ∈ scopeQuery env db identityId scope none, ∃ instant ∈ earliest, instant ≤ instantOf env row) := by
  unfold requestedBounds
  cases hrange : range.bounds now with
  | some bounds =>
    refine ⟨none, ?_, nofun, nofun⟩
    rw [timelineBounds_of_bounds hrange]
  | none =>
    obtain ⟨earliest, hearliest, hrecorded, hfirst⟩ := scopeEarliest_ok h identityId scope
    refine ⟨earliest, ?_, hrecorded, fun _ => hfirst⟩
    dsimp only
    rw [hearliest]
    rfl

theorem scopeQuery_bounds {bucket : QueryBucket} (hreads : env.Reads bucket now db.activities) (hnow : Current now)
    {range : StatsRange} {earliest : Option ℤ} (hdated : ∀ instant ∈ earliest, 0 ≤ instant ∧ instant ≤ now)
    (hfirst : range.bounds now = none →
      ∀ row ∈ scopeQuery env db identityId scope none, ∃ instant ∈ earliest, instant ≤ instantOf env row)
    {bounds : TimeBounds} (h : timelineBounds range granularity earliest now = some bounds)
    (hle : bounds.start ≤ bounds.stop) :
    scopeQuery env db identityId scope (range.bounds now) = scopeQuery env db identityId scope (some bounds) := by
  cases hrange : range.bounds now with
  | some found => rw [← h, timelineBounds_of_bounds hrange]
  | none =>
    obtain rfl := bounds_all hrange
    rw [scopeQuery_filter env db identityId scope (some bounds)]
    symm
    apply List.filter_eq_self.mpr
    intro row hrow
    obtain ⟨instant, hinstant, hinstantLe⟩ := hfirst hrange row hrow
    obtain rfl := Option.mem_def.mp hinstant
    have hrecorded := hreads.instantOf (mem_scopeQuery hrow)
    rw [inBounds_iff hreads (mem_scopeQuery hrow) hnow]
    · exact all_within hinstantLe hrecorded.dated.2 h
    · exact timelineBounds_fourDigits hnow hdated h (le_refl _) hle
    · exact timelineBounds_fourDigits hnow hdated h hle (le_refl _)

end totals

/-- A timeline that is not too long has a point for every bucket, with what the overview would show for it alone,
and the points add up to the overview of the range. -/
theorem timeline_conserves {env : SqlEnv} {range : StatsRange} {granularity : TimelineGranularity}
    (hgranularity : granularity = range.timelineGranularity ∨ granularity = .day) {db : StatsDb} {now : ℤ}
    (hnow : Current now) (hreads : env.Reads (queryBucket granularity) now db.activities) (identityId : String)
    (scope : ModelStatsScope) (hfits : Fits (scopeQuery env db identityId scope none)) :
    (∃ bounds, requestedBounds env db identityId scope range granularity now = .ok (some bounds) ∧
      range = .all ∧ granularity = .day ∧ maxDailyBuckets < (timelineBuckets bounds .day).length ∧
      timeline env db identityId scope range granularity now =
        .error (tooManyBuckets (timelineBuckets bounds .day).length)) ∨
    ∃ points view, timeline env db identityId scope range granularity now = .ok points ∧
      overview env db identityId scope range now = .ok view ∧
      (points.map TokenUsageTimelinePoint.totals).sum = view.usage ∧
      ∀ bounds, requestedBounds env db identityId scope range granularity now = .ok (some bounds) →
        points.map Except.ok = (timelineBuckets bounds granularity).map (bucketPoint env db identityId scope) := by
  obtain ⟨earliest, hrequested, hrecorded, hfirst⟩ :=
    requestedBounds_ok (hreads.inOrder hnow) identityId scope range granularity now
  have hdated : ∀ instant ∈ earliest, 0 ≤ instant ∧ instant ≤ now := by
    intro instant hinstant
    obtain ⟨row, hrow, rfl⟩ := hrecorded instant hinstant
    exact (hreads.instantOf hrow).dated
  have hearliest : ∀ instant ∈ earliest, instant ≤ now := fun instant hinstant => (hdated instant hinstant).2
  cases hbounds : timelineBounds range granularity earliest now with
  | none =>
    rw [hbounds] at hrequested
    have hempty : scopeQuery env db identityId scope (range.bounds now) = [] := by
      cases hrange : range.bounds now with
      | some bounds =>
        rw [timelineBounds_of_bounds hrange] at hbounds
        exact nomatch hbounds
      | none =>
        obtain rfl := bounds_all hrange
        apply List.eq_nil_iff_forall_not_mem.mpr
        intro row hrow
        obtain ⟨instant, hinstant, -⟩ := hfirst hrange row hrow
        rw [Option.mem_def.mp hinstant] at hbounds
        exact nomatch hbounds
    obtain ⟨view, hview, husage⟩ := overviewAggregate_ok (hfits.filter (inBounds env (range.bounds now)))
    rw [← scopeQuery_filter, hempty] at hview husage
    refine .inr ⟨[], view, ?_, ?_, husage.symm, ?_⟩
    · simp only [timeline, hrequested, bind, Except.bind]
    · rw [overview, hempty]
      exact hview
    · intro bounds h
      rw [hrequested] at h
      exact nomatch h
  | some bounds =>
    rw [hbounds] at hrequested
    have htiles : Tiles bounds.start bounds.stop ((timelineBuckets bounds granularity).map TimelineBucket.tile) := by
      rcases hgranularity with rfl | rfl
      · exact tiles_granularity hearliest hbounds
      · exact tiles_daily hearliest hbounds
    have hyears := fun instant => @timelineBounds_fourDigits granularity now range earliest bounds hnow hdated hbounds
        instant
    by_cases hlong : granularity = .day ∧ maxDailyBuckets < (timelineBuckets bounds granularity).length
    · obtain ⟨rfl, hlength⟩ := hlong
      refine .inl ⟨bounds, hrequested, ?_, rfl, hlength, ?_⟩
      · cases hrange : range.bounds now with
        | none => exact bounds_all hrange
        | some found =>
          rw [timelineBounds_of_bounds hrange] at hbounds
          obtain rfl := Option.some.inj hbounds
          exact absurd hlength (not_lt.mpr (daily_few hrange))
      · simp only [timeline, hrequested, bind, Except.bind]
        exact if_pos ⟨trivial, hlength⟩
    · have hinner : ∀ inner, Fits (scopeQuery env db identityId scope (some inner)) := by
        intro inner
        rw [scopeQuery_filter]
        exact hfits.filter _
      obtain ⟨view, hview, husage⟩ := overviewAggregate_ok (hinner bounds)
      have hsame := scopeQuery_bounds hreads hnow hdated hfirst hbounds htiles.le
      have hmerged := mergeBuckets_totals hreads hnow hyears htiles (timelineBounds_aligned hearliest hbounds _) hfits
      have htimeline : timeline env db identityId scope range granularity now =
          .ok ((timelineBuckets bounds granularity).map (exactPoint env db identityId scope)) := by
        simp only [timeline, hrequested, bind, Except.bind]
        rw [if_neg hlong, bucketTotals_ok hreads.arrange (hinner bounds)]
        exact hmerged
      refine .inr ⟨_, view, htimeline, ?_, ?_, ?_⟩
      · rw [overview, hsame]
        exact hview
      · have hwithin : ∀ row ∈ scopeQuery env db identityId scope (some bounds),
            bounds.start ≤ instantOf env row ∧ instantOf env row < bounds.stop := fun row hrow =>
          scopeQuery_within hreads hnow (hyears _ (le_refl _) htiles.le) (hyears _ htiles.le (le_refl _)) hrow
        have hsum := sum_cellSum UsageTotals.ofRow _ (htiles.covers (instantOf env) hwithin)
        rw [husage, ← hsum, List.map_map, List.map_map]
        apply congrArg List.sum
        apply List.map_congr_left
        intro bucket hbucket
        obtain ⟨hstart, hlt, hstop⟩ := htiles.bounds (List.mem_map_of_mem hbucket)
        exact (bucket_usage hreads hnow hyears hstart hlt.le hstop).symm
      · intro found h
        rw [hrequested] at h
        obtain rfl := Option.some.inj (Except.ok.inj h)
        rw [List.map_map]
        apply List.map_congr_left
        intro bucket _
        exact (bucketPoint_ok (hinner bucket.bounds)).symm

def morningRow : ActivityRow where
  id := "activity-1"
  identityId := "identity-1"
  createdAt := "2026-01-01T02:00:00.000000400+00:00"
  protocolUpstream := some "responses"
  providerId := some "provider-1"
  providerType := some "openai"
  modelRequested := some "gpt-5"
  status := "success"
  inputTokens := some 11
  outputTokens := some 7
  cacheReadTokens := some 4
  cacheWriteTokens := none
  latencyMs := some 80
  firstTokenMs := none

def laterRow : ActivityRow :=
  { morningRow with id := "activity-2", createdAt := "2026-01-01T02:30:00.500+00:00", inputTokens := some 5 }

def morningEnv : SqlEnv where
  le a b := a ≤ b
  beijingBucket := fun _ _ => "2026-01-01 10:00:00"
  parseFromStr := fun text => if text = "2026-01-01 10:00:00" then some 1767261600000000000 else none
  parseFromRfc3339 := fun text =>
    if text = morningRow.createdAt then .ok 1767232800000000400
    else if text = laterRow.createdAt then .ok 1767234600500000000
    else .error "input contains invalid characters"
  arrange := id

theorem morningEnv_reads : morningEnv.Reads .hour 1767240000000000000 [morningRow, laterRow] where
  collation _ _ := decide_eq_true_iff
  recorded := by
    intro row hrow
    rcases List.mem_pair.mp hrow with rfl | rfl
    · exact ⟨1767232800000000400, by decide +kernel, by decide, rfl,
        ⟨1767232800000000000, by decide, by decide, by decide +kernel⟩, by decide +kernel⟩
    · exact ⟨1767234600500000000, by decide +kernel, by decide, rfl,
        ⟨1767234600500000000, by decide, by decide, by decide +kernel⟩, by decide +kernel⟩
  arrange _ := List.Perm.refl _

theorem timeline_conserves_morning :
    ∃ points view, timeline morningEnv ⟨[], [morningRow, laterRow]⟩ "identity-1" .personal .today .hour
          1767240000000000000 = .ok points ∧
      overview morningEnv ⟨[], [morningRow, laterRow]⟩ "identity-1" .personal .today 1767240000000000000 = .ok view ∧
      (points.map TokenUsageTimelinePoint.totals).sum = view.usage ∧
      ∀ bounds, requestedBounds morningEnv ⟨[], [morningRow, laterRow]⟩ "identity-1" .personal .today .hour
          1767240000000000000 = .ok (some bounds) →
        points.map Except.ok = (timelineBuckets bounds .hour).map
          (bucketPoint morningEnv ⟨[], [morningRow, laterRow]⟩ "identity-1" .personal) := by
  have hfits : Fits (scopeQuery morningEnv ⟨[], [morningRow, laterRow]⟩ "identity-1" .personal none) := by
    unfold Fits
    decide +kernel
  apply (timeline_conserves (.inl rfl) ⟨by decide, by decide⟩ morningEnv_reads "identity-1" .personal hfits).resolve_left
  rintro ⟨bounds, -, hrange, -⟩
  exact nomatch hrange

end Prelay.Stats
