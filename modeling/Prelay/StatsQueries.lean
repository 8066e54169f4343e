import Mathlib.Algebra.Order.BigOperators.Group.List
import Prelay.Fallible
import Prelay.Rfc3339
import Prelay.Schema

namespace Prelay.Stats

open Store

structure ActivityRow where
  id : String
  identityId : String
  createdAt : String
  protocolUpstream : Option String
  providerId : Option String
  providerType : Option String
  modelRequested : Option String
  status : String
  inputTokens : Option ℤ
  outputTokens : Option ℤ
  cacheReadTokens : Option ℤ
  cacheWriteTokens : Option ℤ
  latencyMs : Option ℤ
  firstTokenMs : Option ℤ

structure StatsDb where
  identities : List Identity
  activities : List ActivityRow

inductive QueryBucket where
  | hour | day
  deriving DecidableEq

/-- What PostgreSQL and `chrono` do with the texts of instants: the order of the collation, the start of the hour or the
day of a column in Beijing, and what is read from texts; and the order that groups come in. -/
structure SqlEnv where
  le : String → String → Bool
  beijingBucket : QueryBucket → String → String
  parseFromStr : String → Option ℤ
  parseFromRfc3339 : String → Except String ℤ
  arrange : List (String × List ActivityRow) → List (String × List ActivityRow)

section queries

variable (env : SqlEnv)

def inBounds (bounds : Option TimeBounds) (row : ActivityRow) : Bool :=
  bounds.all (fun bounds =>
    env.le (toRfc3339 bounds.start) row.createdAt && !env.le (toRfc3339 bounds.stop) row.createdAt)

def aggregateQuery (db : StatsDb) (identityId : String) (bounds : Option TimeBounds) : List ActivityRow :=
  (db.activities.filter (fun row => row.identityId = identityId)).filter (inBounds env bounds)

def teamRows (db : StatsDb) : List ActivityRow :=
  db.identities.flatMap (fun identity => db.activities.filter (fun row => row.identityId = identity.id))

def teamAggregateQuery (db : StatsDb) (bounds : Option TimeBounds) : List ActivityRow :=
  (teamRows db).filter (inBounds env bounds)

def scopeQuery (db : StatsDb) (identityId : String) (scope : ModelStatsScope) (bounds : Option TimeBounds) :
    List ActivityRow :=
  match scope with
  | .personal => aggregateQuery env db identityId bounds
  | .team => teamAggregateQuery env db bounds

def minOf : List String → Option String
  | [] => none
  | text :: texts =>
    match minOf texts with
    | none => some text
    | some least => if env.le text least then some text else some least

def earliestLogTime (db : StatsDb) (identityId : Option String) : Except StorageError (Option ℤ) :=
  let rows := db.activities.filter (fun row => identityId.all (fun identityId => row.identityId = identityId))
  (minOf env (rows.map ActivityRow.createdAt)).mapM
    (fun value => (env.parseFromRfc3339 value).mapError .invalidTimestamp)

end queries

section sums

def bigint (value : ℤ) : Except StorageError ℤ :=
  if -2 ^ 63 ≤ value ∧ value < 2 ^ 63 then .ok value else .error (.database .numericOutOfRange)

/-- `SUM` of some values; without a value there is no sum. -/
def sumOf : List ℤ → Option ℤ
  | [] => none
  | values => some values.sum

def integerSum (total : Option ℤ) : Except StorageError (Option ℤ) := total.mapM bigint

def normalizedInput (row : ActivityRow) : ℤ :=
  let input := row.inputTokens.getD 0
  let cacheRead := row.cacheReadTokens.getD 0
  let useReportedInput := row.protocolUpstream.any (fun protocol => protocol ∈ ["responses", "chat_completions"]) ∧
    cacheRead ≤ input
  if useReportedInput then input else input + cacheRead

def totalInputTokens (row : ActivityRow) : Except StorageError ℤ := do
  let normalized ← bigint (normalizedInput row)
  bigint (normalized + row.cacheWriteTokens.getD 0)

def totalInputTokensExpr (rows : List ActivityRow) : Except StorageError (Option ℤ) := do
  let totals ← rows.mapM totalInputTokens
  integerSum (sumOf totals)

structure TokenSums where
  inputTokens : Option ℤ
  totalInputTokens : Option ℤ
  outputTokens : Option ℤ
  cacheReadTokens : Option ℤ
  cacheWriteTokens : Option ℤ

def tokenSums (rows : List ActivityRow) : Except StorageError TokenSums := do
  let inputTokens ← integerSum (sumOf (rows.filterMap ActivityRow.inputTokens))
  let totalInputTokens ← totalInputTokensExpr rows
  let outputTokens ← integerSum (sumOf (rows.filterMap ActivityRow.outputTokens))
  let cacheReadTokens ← integerSum (sumOf (rows.filterMap ActivityRow.cacheReadTokens))
  let cacheWriteTokens ← integerSum (sumOf (rows.filterMap ActivityRow.cacheWriteTokens))
  .ok { inputTokens, totalInputTokens, outputTokens, cacheReadTokens, cacheWriteTokens }

@[ext]
structure UsageTotals where
  inputTokens : ℤ := 0
  totalInputTokens : ℤ := 0
  outputTokens : ℤ := 0
  cacheReadTokens : ℤ := 0
  cacheWriteTokens : ℤ := 0

def TokenSums.intoTotals (sums : TokenSums) : UsageTotals where
  inputTokens := sums.inputTokens.getD 0
  totalInputTokens := sums.totalInputTokens.getD 0
  outputTokens := sums.outputTokens.getD 0
  cacheReadTokens := sums.cacheReadTokens.getD 0
  cacheWriteTokens := sums.cacheWriteTokens.getD 0

structure StatsOverview where
  totalRequests : ℕ
  successfulRequests : ℤ
  failedRequests : ℤ
  usage : UsageTotals
  averageLatencyMs : Option ℤ

def successCount (row : ActivityRow) : ℤ := if row.status = "success" then 1 else 0

def failedCount (row : ActivityRow) : ℤ := if row.status ∈ ["failed", "downstream_disconnected"] then 1 else 0

def integerAverage (total : Option ℤ) (count : ℕ) : Option ℤ :=
  if 0 < count then some ((total.getD 0).tdiv count) else none

def overviewAggregate (rows : List ActivityRow) : Except StorageError StatsOverview := do
  let sums ← tokenSums rows
  let latencyTotal ← integerSum (sumOf (rows.filterMap ActivityRow.latencyMs))
  .ok {
    totalRequests := rows.length
    successfulRequests := (sumOf (rows.map successCount)).getD 0
    failedRequests := (sumOf (rows.map failedCount)).getD 0
    usage := sums.intoTotals
    averageLatencyMs := integerAverage latencyTotal (rows.filterMap ActivityRow.latencyMs).length }

def overview (env : SqlEnv) (db : StatsDb) (identityId : String) (scope : ModelStatsScope) (range : StatsRange)
    (now : ℤ) : Except StorageError StatsOverview :=
  overviewAggregate (scopeQuery env db identityId scope (range.bounds now))

end sums

namespace UsageTotals

instance : Add UsageTotals where
  add a b := {
    inputTokens := a.inputTokens + b.inputTokens
    totalInputTokens := a.totalInputTokens + b.totalInputTokens
    outputTokens := a.outputTokens + b.outputTokens
    cacheReadTokens := a.cacheReadTokens + b.cacheReadTokens
    cacheWriteTokens := a.cacheWriteTokens + b.cacheWriteTokens }

instance : Zero UsageTotals := ⟨{}⟩

instance : AddCommMonoid UsageTotals where
  add_assoc a b c := by
    apply UsageTotals.ext
    all_goals exact Int.add_assoc _ _ _
  zero_add a := by
    apply UsageTotals.ext
    all_goals exact Int.zero_add _
  add_zero a := by
    apply UsageTotals.ext
    all_goals exact Int.add_zero _
  add_comm a b := by
    apply UsageTotals.ext
    all_goals exact Int.add_comm _ _
  nsmul := nsmulRec

def wrap (a : UsageTotals) : UsageTotals where
  inputTokens := a.inputTokens.bmod (2 ^ 64)
  totalInputTokens := a.totalInputTokens.bmod (2 ^ 64)
  outputTokens := a.outputTokens.bmod (2 ^ 64)
  cacheReadTokens := a.cacheReadTokens.bmod (2 ^ 64)
  cacheWriteTokens := a.cacheWriteTokens.bmod (2 ^ 64)

def add (a b : UsageTotals) : UsageTotals := (a + b).wrap

theorem wrap_add (a b : UsageTotals) : a.wrap.add b = (a + b).wrap := by
  apply UsageTotals.ext
  all_goals exact Int.bmod_add_bmod

def ofRow (row : ActivityRow) : UsageTotals where
  inputTokens := row.inputTokens.getD 0
  totalInputTokens := normalizedInput row + row.cacheWriteTokens.getD 0
  outputTokens := row.outputTokens.getD 0
  cacheReadTokens := row.cacheReadTokens.getD 0
  cacheWriteTokens := row.cacheWriteTokens.getD 0

end UsageTotals

section fits

def rowSize (row : ActivityRow) : ℤ :=
  |row.inputTokens.getD 0| + |row.outputTokens.getD 0| + |row.cacheReadTokens.getD 0| + |row.cacheWriteTokens.getD 0| +
    |row.latencyMs.getD 0|

/-- The sums over some rows have 64 bits. -/
def Fits (rows : List ActivityRow) : Prop := (rows.map rowSize).sum < 2 ^ 63

variable {rows : List ActivityRow}

theorem rowSize_nonneg (row : ActivityRow) : 0 ≤ rowSize row := by
  unfold rowSize
  positivity

theorem Fits.filter (h : Fits rows) (p : ActivityRow → Bool) : Fits (rows.filter p) := by
  have hnonneg : ∀ size ∈ rows.map rowSize, 0 ≤ size := by
    intro size hsize
    obtain ⟨row, -, rfl⟩ := List.mem_map.mp hsize
    exact rowSize_nonneg row
  exact lt_of_le_of_lt ((List.filter_sublist.map rowSize).sum_le_sum hnonneg) h

theorem abs_sum_le {value : ActivityRow → ℤ} (hvalue : ∀ row, |value row| ≤ rowSize row) (rows : List ActivityRow) :
    |(rows.map value).sum| ≤ (rows.map rowSize).sum := by
  induction rows with
  | nil => exact le_refl _
  | cons row rows ih =>
    rw [List.map_cons, List.sum_cons, List.map_cons, List.sum_cons]
    exact (abs_add_le _ _).trans (add_le_add (hvalue row) ih)

theorem bigint_ok {value : ℤ} (h : |value| < 2 ^ 63) : bigint value = .ok value := by
  obtain ⟨hlow, hhigh⟩ := abs_lt.mp h
  exact if_pos ⟨hlow.le, hhigh⟩

theorem sumOf_getD (values : List ℤ) : (sumOf values).getD 0 = values.sum := by
  cases values with
  | nil => rfl
  | cons value values => rfl

theorem sum_filterMap (column : ActivityRow → Option ℤ) (rows : List ActivityRow) :
    (rows.filterMap column).sum = (rows.map (fun row => (column row).getD 0)).sum := by
  induction rows with
  | nil => rfl
  | cons row rows ih =>
    rw [List.filterMap_cons, List.map_cons, List.sum_cons, ← ih]
    cases column row with
    | none => exact (zero_add _).symm
    | some value => rfl

theorem integerSum_ok {values : List ℤ} (h : |values.sum| < 2 ^ 63) : integerSum (sumOf values) = .ok (sumOf values) := by
  cases values with
  | nil => rfl
  | cons value values =>
    have hcast := bigint_ok h
    simp only [integerSum, sumOf, Option.mapM_some, hcast]
    rfl

theorem columnSum_ok (h : Fits rows) {column : ActivityRow → Option ℤ}
    (hcolumn : ∀ row, |(column row).getD 0| ≤ rowSize row) :
    integerSum (sumOf (rows.filterMap column)) = .ok (sumOf (rows.filterMap column)) := by
  apply integerSum_ok
  rw [sum_filterMap]
  exact (abs_sum_le hcolumn rows).trans_lt h

theorem abs_normalizedInput (row : ActivityRow) :
    |normalizedInput row| ≤ |row.inputTokens.getD 0| + |row.cacheReadTokens.getD 0| := by
  unfold normalizedInput
  dsimp only
  split_ifs
  · exact le_add_of_nonneg_right (abs_nonneg _)
  · exact abs_add_le _ _

theorem abs_totalInput (row : ActivityRow) : |normalizedInput row + row.cacheWriteTokens.getD 0| ≤ rowSize row := by
  have hnormalized := abs_normalizedInput row
  have hsum := abs_add_le (normalizedInput row) (row.cacheWriteTokens.getD 0)
  have houtput := abs_nonneg (row.outputTokens.getD 0)
  have hlatency := abs_nonneg (row.latencyMs.getD 0)
  unfold rowSize
  omega

theorem rowSize_le_sum {row : ActivityRow} (hrow : row ∈ rows) : rowSize row ≤ (rows.map rowSize).sum := by
  apply List.single_le_sum _ _ (List.mem_map_of_mem hrow)
  intro size hsize
  obtain ⟨other, -, rfl⟩ := List.mem_map.mp hsize
  exact rowSize_nonneg other

theorem totalInputTokens_ok (h : Fits rows) {row : ActivityRow} (hrow : row ∈ rows) :
    totalInputTokens row = .ok (normalizedInput row + row.cacheWriteTokens.getD 0) := by
  have hsize := (rowSize_le_sum hrow).trans_lt h
  have hnormalized : |normalizedInput row| < 2 ^ 63 := by
    have hle := abs_normalizedInput row
    have houtput := abs_nonneg (row.outputTokens.getD 0)
    have hwrite := abs_nonneg (row.cacheWriteTokens.getD 0)
    have hlatency := abs_nonneg (row.latencyMs.getD 0)
    unfold rowSize at hsize
    omega
  simp only [totalInputTokens, bigint_ok hnormalized, bind, Except.bind]
  exact bigint_ok ((abs_totalInput row).trans_lt hsize)

theorem totalInputTokensExpr_ok (h : Fits rows) : totalInputTokensExpr rows =
    .ok (sumOf (rows.map (fun row => normalizedInput row + row.cacheWriteTokens.getD 0))) := by
  have hrows := mapM_eq_map (fun row hrow => totalInputTokens_ok h hrow)
  simp only [totalInputTokensExpr, hrows, bind, Except.bind]
  exact integerSum_ok ((abs_sum_le abs_totalInput rows).trans_lt h)

def exactSums (rows : List ActivityRow) : TokenSums where
  inputTokens := sumOf (rows.filterMap ActivityRow.inputTokens)
  totalInputTokens := sumOf (rows.map (fun row => normalizedInput row + row.cacheWriteTokens.getD 0))
  outputTokens := sumOf (rows.filterMap ActivityRow.outputTokens)
  cacheReadTokens := sumOf (rows.filterMap ActivityRow.cacheReadTokens)
  cacheWriteTokens := sumOf (rows.filterMap ActivityRow.cacheWriteTokens)

theorem columns_le (row : ActivityRow) :
    |row.inputTokens.getD 0| ≤ rowSize row ∧ |row.outputTokens.getD 0| ≤ rowSize row ∧
      |row.cacheReadTokens.getD 0| ≤ rowSize row ∧ |row.cacheWriteTokens.getD 0| ≤ rowSize row ∧
      |row.latencyMs.getD 0| ≤ rowSize row := by
  have hinput := abs_nonneg (row.inputTokens.getD 0)
  have houtput := abs_nonneg (row.outputTokens.getD 0)
  have hread := abs_nonneg (row.cacheReadTokens.getD 0)
  have hwrite := abs_nonneg (row.cacheWriteTokens.getD 0)
  have hlatency := abs_nonneg (row.latencyMs.getD 0)
  unfold rowSize
  omega

theorem tokenSums_ok (h : Fits rows) : tokenSums rows = .ok (exactSums rows) := by
  have hinput := columnSum_ok h (fun row => (columns_le row).1)
  have houtput := columnSum_ok h (fun row => (columns_le row).2.1)
  have hread := columnSum_ok h (fun row => (columns_le row).2.2.1)
  have hwrite := columnSum_ok h (fun row => (columns_le row).2.2.2.1)
  simp only [tokenSums, hinput, totalInputTokensExpr_ok h, houtput, hread, hwrite, bind, Except.bind]
  rfl

theorem sum_ofRow (rows : List ActivityRow) : (rows.map UsageTotals.ofRow).sum =
    { inputTokens := (rows.map (fun row => row.inputTokens.getD 0)).sum
      totalInputTokens := (rows.map (fun row => normalizedInput row + row.cacheWriteTokens.getD 0)).sum
      outputTokens := (rows.map (fun row => row.outputTokens.getD 0)).sum
      cacheReadTokens := (rows.map (fun row => row.cacheReadTokens.getD 0)).sum
      cacheWriteTokens := (rows.map (fun row => row.cacheWriteTokens.getD 0)).sum } := by
  induction rows with
  | nil => rfl
  | cons row rows ih =>
    rw [List.map_cons, List.sum_cons, ih]
    rfl

theorem intoTotals_exactSums (rows : List ActivityRow) :
    (exactSums rows).intoTotals = (rows.map UsageTotals.ofRow).sum := by
  rw [sum_ofRow]
  simp only [TokenSums.intoTotals, exactSums, sumOf_getD, sum_filterMap]

theorem overviewAggregate_ok (h : Fits rows) :
    ∃ view, overviewAggregate rows = .ok view ∧ view.usage = (rows.map UsageTotals.ofRow).sum := by
  have hlatency := columnSum_ok h (fun row => (columns_le row).2.2.2.2)
  simp only [overviewAggregate, tokenSums_ok h, hlatency, bind, Except.bind]
  exact ⟨_, rfl, intoTotals_exactSums rows⟩

theorem bmod_of_fits (h : Fits rows) {value : ActivityRow → ℤ} (hvalue : ∀ row, |value row| ≤ rowSize row) :
    (rows.map value).sum.bmod (2 ^ 64) = (rows.map value).sum := by
  obtain ⟨hlow, hhigh⟩ := abs_lt.mp ((abs_sum_le hvalue rows).trans_lt h)
  apply Int.bmod_eq_of_le
  · omega
  · omega

theorem wrap_of_fits (h : Fits rows) :
    (rows.map UsageTotals.ofRow).sum.wrap = (rows.map UsageTotals.ofRow).sum := by
  rw [sum_ofRow]
  apply UsageTotals.ext
  · exact bmod_of_fits h (fun row => (columns_le row).1)
  · exact bmod_of_fits h abs_totalInput
  · exact bmod_of_fits h (fun row => (columns_le row).2.1)
  · exact bmod_of_fits h (fun row => (columns_le row).2.2.1)
  · exact bmod_of_fits h (fun row => (columns_le row).2.2.2.1)

end fits

end Prelay.Stats
