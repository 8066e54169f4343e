import Prelay.RecordingStage
import Prelay.IdentityCleanup

namespace Prelay.Store

open Recording Rollout Bridge

section recovery

structure InterruptedRollout where
  activityId : String
  rolloutPath : String
  startLine : ℕ
  endLine : ℕ
  deriving DecidableEq

structure RecoveredRollout where
  activityId : String
  status : RolloutStatus
  httpStatus : Option ℤ
  errorCode : Option String
  errorMessage : Option String
  eventCount : Option ℕ
  byteSize : Option ℕ
  sha256 : Option String
  deriving DecidableEq

/-- What a slice of a rollout file holds; a file has less than `2 ^ 63` bytes. -/
structure FileSlice where
  eventCount : ℕ
  byteSize : ℕ
  sha256 : String
  eventCount_lt : eventCount < 2 ^ 63
  byteSize_lt : byteSize < 2 ^ 63

abbrev ReadSlice : Type := String → ℕ → ℕ → Except String FileSlice

def toI64 (value : ℕ) : Except StorageError ℕ :=
  if value < 2 ^ 63 then .ok value else .error (.rollout "rollout size exceeds database integer")

def listWritingRollouts (db : Database) : List InterruptedRollout :=
  (db.rollouts.filter (fun row => row.status = .writing)).map (fun row => {
    activityId := row.activityId
    rolloutPath := row.rolloutPath
    startLine := row.startLine
    endLine := row.endLine })

def recoveredRolloutStatus (readSlice : ReadSlice) (rollout : InterruptedRollout) : RecoveredRollout :=
  let file := (readSlice rollout.rolloutPath rollout.startLine rollout.endLine).toOption
  { activityId := rollout.activityId
    status := .partly
    httpStatus := none
    errorCode := some "activity_interrupted"
    errorMessage := some "process interrupted before activity rollout completion"
    eventCount := file.map FileSlice.eventCount
    byteSize := file.map FileSlice.byteSize
    sha256 := file.map FileSlice.sha256 }

namespace RecoveredRollout

variable (now : ℤ) (update : RecoveredRollout)

def rolloutRow (eventCount byteSize : Option ℕ) (row : ActivityRollout) : ActivityRollout :=
  if row.activityId = update.activityId then { row with
    status := update.status
    completedAt := some now
    lastError := if update.status = .completed then none else update.errorMessage
    eventCount := eventCount.getD row.eventCount
    byteSize := byteSize.getD row.byteSize
    sha256 := update.sha256.or row.sha256 }
  else row

def activityRow (row : Activity) : Activity :=
  if row.id = update.activityId then { row with
    status := if update.status = .completed then .success else .failed
    isStreaming := some false
    httpStatus := update.httpStatus
    errorCode := update.errorCode
    errorMessage := update.errorMessage }
  else row

end RecoveredRollout

def recoverRolloutStatus (now : ℤ) (update : RecoveredRollout) (db : Database) : Except StorageError Database := do
  let _ ← okOr (db.rollouts.find? (fun row => row.activityId = update.activityId))
    (.rollout "rollout index does not exist")
  let eventCount ← update.eventCount.mapM toI64
  let byteSize ← update.byteSize.mapM toI64
  let _ ← okOr (db.activities.find? (fun row => row.id = update.activityId)) (.rollout "activity does not exist")
  .ok { db with
    rollouts := db.rollouts.map (update.rolloutRow now eventCount byteSize)
    activities := db.activities.map update.activityRow }

def recoverInterrupted (now : ℤ) (readSlice : ReadSlice) (db : Database) : Except StorageError (ℕ × Database) := do
  let interrupted := listWritingRollouts db
  let db ← interrupted.foldlM
    (fun db rollout => recoverRolloutStatus now (recoveredRolloutStatus readSlice rollout) db) db
  .ok (interrupted.length, db)

end recovery

section writes

structure Turn where
  columns : Activity
  opened : RolloutSummary
  closed : RolloutSummary
  createdAt : ℤ
  completedAt : ℤ

def insertedActivity (turn : Turn) (id : String) (log : ActivityInsert) : Activity :=
  { turn.columns with
    id := id
    status := log.status
    httpStatus := some log.httpStatus
    errorCode := log.errorCode
    errorMessage := log.errorMessage }

def insertedRollout (turn : Turn) (id : String) (summary : RolloutSummary) (status : RolloutStatus) : ActivityRollout where
  activityId := id
  identityId := turn.columns.identityId
  threadId := summary.threadId
  windowId := summary.windowId
  generation := summary.generation
  rolloutPath := summary.relativePath
  status := status
  startLine := summary.startLine
  endLine := summary.endLine
  eventCount := summary.eventCount
  byteSize := summary.byteSize
  sha256 := some summary.sha256
  createdAt := turn.createdAt
  completedAt := if status = .writing then none else some turn.createdAt
  lastError := none

def updatedActivity (update : StreamActivityUpdate) (row : Activity) : Activity :=
  { row with
    status := update.status.getD row.status
    httpStatus := some update.httpStatus
    errorCode := update.errorCode
    errorMessage := update.errorMessage
    inputTokens := update.inputTokens
    outputTokens := update.outputTokens
    reasoningTokens := update.reasoningTokens
    cacheReadTokens := update.cacheReadTokens
    cacheWriteTokens := update.cacheWriteTokens
    toolCallCount := update.toolCallCount }

def completedRollout (turn : Turn) (status : RolloutStatus) (row : ActivityRollout) : ActivityRollout :=
  { row with
    status := status
    threadId := turn.closed.threadId
    windowId := turn.closed.windowId
    generation := turn.closed.generation
    startLine := turn.closed.startLine
    endLine := turn.closed.endLine
    eventCount := turn.closed.eventCount
    byteSize := turn.closed.byteSize
    sha256 := some turn.closed.sha256
    completedAt := some turn.completedAt }

structure World where
  db : Database := {}
  finished : String → Option RolloutStatus := fun _ => none

def World.write (turns : String → Turn) (w : World) : String × Effect → World
  | (id, .startStream log) => { w with db := { w.db with
      activities := w.db.activities ++ [insertedActivity (turns id) id log]
      rollouts := w.db.rollouts ++ [insertedRollout (turns id) id (turns id).opened .writing] } }
  | (id, .insertStreamResult log) => { w with db := { w.db with
      activities := w.db.activities ++ [insertedActivity (turns id) id log]
      rollouts := w.db.rollouts ++
        [insertedRollout (turns id) id (turns id).closed ((w.finished id).getD .writing)] } }
  | (id, .updateStream update) => { w with db := { w.db with
      activities := w.db.activities.map (fun row => if row.id = id then updatedActivity update row else row) } }
  | (id, .completeStream) => { w with db := { w.db with
      rollouts := w.db.rollouts.map (fun row =>
        if row.activityId = id then completedRollout (turns id) ((w.finished id).getD .writing) row else row) } }
  | (id, .finishWith status _ _ _) => { w with finished := Function.update w.finished id (some status) }
  | (_, .appendContent _) => w
  | (_, .saveResponseState _) => w

def written (turns : String → Turn) (trace : List (String × Effect)) : World := trace.foldl (World.write turns) {}

def own (id : String) (trace : List (String × Effect)) : List Effect :=
  (trace.filter (fun write => write.1 = id)).map Prod.snd

def Stopped (effects : List Effect) : Prop :=
  ∃ (env : Recording.Env) (identityId : String) (log : ActivityInsert) (capture : Option RawStreamContentCapture)
    (rollout : Bool) (session : Option StreamSession) (mode : RecordingMode) (inputs : List Input),
    env.storage.Succeeds ∧
      effects <+: (run env (recorder identityId log capture rollout session mode) inputs).state.effects

end writes

/-- What the recovery is for. -/
structure Recovered (db after : Database) : Prop where
  closed : ∀ rollout ∈ after.rollouts, rollout.status ≠ .writing
  ended : ∀ activity ∈ after.activities, activity.status ≠ .streaming
  agree : ∀ activity ∈ after.activities, ∀ rollout ∈ after.rollouts, rollout.activityId = activity.id →
    (activity.status = .success ↔ rollout.status = .completed)
  kept : ∀ activity ∈ db.activities, activity.status ≠ .streaming →
    ∃ row ∈ after.activities, row.id = activity.id ∧ row.status = activity.status

section tracked

variable {turns : String → Turn} {w : World} {stages : String → Stage}

structure Tracked (w : World) (stages : String → Stage) : Prop where
  ids : w.db.activities.map Activity.id = w.db.rollouts.map ActivityRollout.activityId
  nodup : (w.db.rollouts.map ActivityRollout.activityId).Nodup
  activity : ∀ row ∈ w.db.activities, (stages row.id).activity = some row.status
  rollout : ∀ row ∈ w.db.rollouts, (stages row.activityId).rollout = some row.status
  present : ∀ id, (stages id).activity ≠ none → id ∈ w.db.activities.map Activity.id
  finished : ∀ id, w.finished id = (stages id).finished

theorem tracked_initial : Tracked {} (fun _ => .before none) where
  ids := rfl
  nodup := List.nodup_nil
  activity := fun _ hrow => nomatch hrow
  rollout := fun _ hrow => nomatch hrow
  present := fun _ hid => absurd rfl hid
  finished := fun _ => rfl

theorem Tracked.change (h : Tracked w stages) {id : String} {next : Stage} {f : Activity → Activity}
    {g : ActivityRollout → ActivityRollout} {finished : String → Option RolloutStatus}
    (hf : ∀ row, (f row).id = row.id) (hg : ∀ row, (g row).activityId = row.activityId)
    (hactivity : ∀ row, (stages id).activity = some row.status → next.activity = some (f row).status)
    (hrollout : ∀ row, (stages id).rollout = some row.status → next.rollout = some (g row).status)
    (hpresent : next.activity ≠ none → (stages id).activity ≠ none)
    (hfinished : ∀ other, finished other = (Function.update stages id next other).finished) :
    Tracked {
      db := { w.db with
        activities := w.db.activities.map (fun row => if row.id = id then f row else row)
        rollouts := w.db.rollouts.map (fun row => if row.activityId = id then g row else row) }
      finished := finished } (Function.update stages id next) := by
  have hids : (w.db.activities.map (fun row => if row.id = id then f row else row)).map Activity.id =
      w.db.activities.map Activity.id := by
    rw [List.map_map]
    apply List.map_congr_left
    intro row _
    simp only [Function.comp_apply]
    split_ifs
    · exact hf row
    · rfl
  have hactivityIds : (w.db.rollouts.map (fun row => if row.activityId = id then g row else row)).map
      ActivityRollout.activityId = w.db.rollouts.map ActivityRollout.activityId := by
    rw [List.map_map]
    apply List.map_congr_left
    intro row _
    simp only [Function.comp_apply]
    split_ifs
    · exact hg row
    · rfl
  refine ⟨?_, ?_, ?_, ?_, ?_, hfinished⟩
  · rw [hids, hactivityIds]
    exact h.ids
  · rw [hactivityIds]
    exact h.nodup
  · intro row hrow
    obtain ⟨old, hold, rfl⟩ := List.mem_map.mp hrow
    split_ifs with hid
    · rw [hf, hid, Function.update_self]
      exact hactivity old (hid ▸ h.activity old hold)
    · rw [Function.update_of_ne hid]
      exact h.activity old hold
  · intro row hrow
    obtain ⟨old, hold, rfl⟩ := List.mem_map.mp hrow
    split_ifs with hid
    · rw [hg, hid, Function.update_self]
      exact hrollout old (hid ▸ h.rollout old hold)
    · rw [Function.update_of_ne hid]
      exact h.rollout old hold
  · intro other hother
    rw [hids]
    by_cases hid : other = id
    · rw [hid, Function.update_self] at hother
      rw [hid]
      exact h.present id (hpresent hother)
    · rw [Function.update_of_ne hid] at hother
      exact h.present other hother

theorem Tracked.insert (h : Tracked w stages) {id : String} {next : Stage} {activity : Activity}
    {rollout : ActivityRollout} (hbefore : (stages id).activity = none) (hid : activity.id = id)
    (hrolloutId : rollout.activityId = id) (hactivity : next.activity = some activity.status)
    (hrollout : next.rollout = some rollout.status) (hfinished : next.finished = (stages id).finished) :
    Tracked { w with db := { w.db with
      activities := w.db.activities ++ [activity]
      rollouts := w.db.rollouts ++ [rollout] } } (Function.update stages id next) := by
  have hnew : ∀ row ∈ w.db.activities, row.id ≠ id := by
    intro row hrow heq
    have hsome := h.activity row hrow
    rw [heq, hbefore] at hsome
    exact nomatch hsome
  have hnewRollout : ∀ row ∈ w.db.rollouts, row.activityId ≠ id := by
    intro row hrow heq
    have hmem := List.mem_map_of_mem (f := ActivityRollout.activityId) hrow
    rw [← h.ids, heq] at hmem
    obtain ⟨other, hother, hotherId⟩ := List.mem_map.mp hmem
    exact hnew other hother hotherId
  refine ⟨?_, ?_, ?_, ?_, ?_, ?_⟩
  · simp [h.ids, hid, hrolloutId]
  · rw [List.map_append, List.nodup_append]
    refine ⟨h.nodup, by simp, ?_⟩
    intro other hother last hlast
    obtain ⟨row, hrow, rfl⟩ := List.mem_map.mp hother
    obtain rfl : last = id := by simpa [hrolloutId] using hlast
    exact hnewRollout row hrow
  · intro row hrow
    obtain hrow | hrow := List.mem_append.mp hrow
    · rw [Function.update_of_ne (hnew row hrow)]
      exact h.activity row hrow
    · obtain rfl := List.mem_singleton.mp hrow
      rw [hid, Function.update_self, hactivity]
  · intro row hrow
    obtain hrow | hrow := List.mem_append.mp hrow
    · rw [Function.update_of_ne (hnewRollout row hrow)]
      exact h.rollout row hrow
    · obtain rfl := List.mem_singleton.mp hrow
      rw [hrolloutId, Function.update_self, hrollout]
  · intro other hother
    rw [List.map_append, List.mem_append]
    by_cases heq : other = id
    · right
      simp [heq, hid]
    · left
      rw [Function.update_of_ne heq] at hother
      exact h.present other hother
  · intro other
    by_cases heq : other = id
    · rw [heq, Function.update_self, hfinished]
      exact h.finished id
    · rw [Function.update_of_ne heq]
      exact h.finished other

theorem Tracked.finish (h : Tracked w stages) {id : String} {next : Stage} {status : RolloutStatus}
    (hactivity : next.activity = (stages id).activity) (hrollout : next.rollout = (stages id).rollout)
    (hfinished : next.finished = some status) :
    Tracked { w with finished := Function.update w.finished id (some status) } (Function.update stages id next) := by
  have hchange := @Tracked.change w stages h id next (fun row => row) (fun row => row)
    (Function.update w.finished id (some status)) (fun _ => rfl) (fun _ => rfl) (fun row hrow => hactivity.trans hrow)
    (fun row hrow => hrollout.trans hrow) (fun hne => hactivity ▸ hne) ?_
  · simpa only [ite_self, List.map_id'] using hchange
  · intro other
    by_cases heq : other = id
    · rw [heq, Function.update_self, Function.update_self, hfinished]
    · rw [Function.update_of_ne heq, Function.update_of_ne heq]
      exact h.finished other

theorem Tracked.update (h : Tracked w stages) {id : String} {next : Stage} {update : StreamActivityUpdate}
    (hactivity : ∀ status, (stages id).activity = some status → next.activity = some (update.status.getD status))
    (hrollout : next.rollout = (stages id).rollout) (hpresent : (stages id).activity ≠ none)
    (hfinished : next.finished = (stages id).finished) :
    Tracked (w.write turns (id, .updateStream update)) (Function.update stages id next) := by
  have hchange := @Tracked.change w stages h id next (updatedActivity update) (fun row => row) w.finished
    (fun _ => rfl) (fun _ => rfl) (fun row hrow => hactivity row.status hrow) (fun row hrow => hrollout.trans hrow)
    (fun _ => hpresent) ?_
  · rw [World.write]
    simpa only [ite_self, List.map_id'] using hchange
  · intro other
    by_cases heq : other = id
    · rw [heq, Function.update_self, hfinished]
      exact h.finished id
    · rw [Function.update_of_ne heq]
      exact h.finished other

theorem Tracked.complete (h : Tracked w stages) {id : String} {next : Stage} {status : RolloutStatus}
    (hactivity : next.activity = (stages id).activity) (hrollout : next.rollout = some status)
    (hstatus : (stages id).finished = some status) (hfinished : next.finished = some status) :
    Tracked (w.write turns (id, .completeStream)) (Function.update stages id next) := by
  have hgiven : (w.finished id).getD .writing = status := by
    rw [h.finished, hstatus]
    rfl
  have hchange := @Tracked.change w stages h id next (fun row => row) (completedRollout (turns id) status) w.finished
    (fun _ => rfl) (fun _ => rfl) (fun row hrow => hactivity.trans hrow) (fun _ _ => hrollout)
    (fun hne => hactivity ▸ hne) ?_
  · rw [World.write, hgiven]
    simpa only [ite_self, List.map_id'] using hchange
  · intro other
    by_cases heq : other = id
    · rw [heq, Function.update_self, hfinished, h.finished, hstatus]
    · rw [Function.update_of_ne heq]
      exact h.finished other

theorem Tracked.write (h : Tracked w stages) {id : String} {e : Effect} {next : Stage}
    (hnext : (stages id).Next e next) : Tracked (w.write turns (id, e)) (Function.update stages id next) := by
  have hfinished := h.finished id
  generalize hstage : stages id = stage at hnext hfinished
  cases hnext with
  | start log hlog => exact h.insert (by rw [hstage]; rfl) rfl rfl rfl rfl (by rw [hstage]; rfl)
  | emptyContent draft =>
    rw [← hstage, Function.update_eq_self]
    exact h
  | emptyFinish status httpStatus code message =>
    exact h.finish (by rw [hstage]; rfl) (by rw [hstage]; rfl) rfl
  | insert log hlog =>
    refine h.insert (by rw [hstage]; rfl) rfl rfl ?_ ?_ (by rw [hstage]; rfl)
    · exact congrArg some hlog.symm
    · rw [hfinished]
      rfl
  | usage activity update hupdate =>
    refine h.update ?_ (by rw [hstage]) (by rw [hstage]; exact Option.some_ne_none _) (by rw [hstage])
    intro status hstatus
    rw [hupdate, Option.getD_none, ← hstatus, hstage]
  | close update status hupdate =>
    refine h.update ?_ (by rw [hstage]; rfl) (by rw [hstage]; exact Option.some_ne_none _) (by rw [hstage]; rfl)
    intro _ _
    rw [hupdate]
    rfl
  | save activity insert =>
    rw [← hstage, Function.update_eq_self]
    exact h
  | content activity draft =>
    rw [← hstage, Function.update_eq_self]
    exact h
  | finish activity status httpStatus code message hagree =>
    exact h.finish (by rw [hstage]; rfl) (by rw [hstage]; rfl) rfl
  | complete activity status => exact h.complete (by rw [hstage]; rfl) rfl (by rw [hstage]; rfl) rfl

theorem own_concat (id other : String) (e : Effect) (trace : List (String × Effect)) :
    own id (trace ++ [(other, e)]) = if other = id then own id trace ++ [e] else own id trace := by
  unfold own
  rw [List.filter_append, List.map_append]
  split_ifs with h
  · simp [h]
  · simp [h]

theorem written_tracked (turns : String → Turn) {trace : List (String × Effect)}
    (h : ∀ id, ∃ stage, stageOf (own id trace) = some stage) :
    ∃ stages, (∀ id, stageOf (own id trace) = some (stages id)) ∧ Tracked (written turns trace) stages := by
  induction trace using List.reverseRecOn with
  | nil => exact ⟨fun _ => .before none, fun _ => rfl, tracked_initial⟩
  | append_singleton trace last ih =>
    obtain ⟨other, e⟩ := last
    have hold : ∀ id, ∃ stage, stageOf (own id trace) = some stage := by
      intro id
      obtain ⟨stage, hstage⟩ := h id
      rw [own_concat] at hstage
      split_ifs at hstage
      · exact stageOf_prefix hstage (List.prefix_append _ _)
      · exact ⟨stage, hstage⟩
    obtain ⟨stages, hstages, htracked⟩ := ih hold
    obtain ⟨next, hnext⟩ := h other
    rw [own_concat, if_pos rfl, stageOf_concat, hstages other, Option.bind_some] at hnext
    refine ⟨Function.update stages other next, ?_, ?_⟩
    · intro id
      rw [own_concat]
      split_ifs with heq
      · rw [← heq, stageOf_concat, hstages other, Option.bind_some, Function.update_self, hnext]
      · rw [Function.update_of_ne (fun h => heq h.symm)]
        exact hstages id
    · rw [written, List.foldl_append]
      exact htracked.write (Stage.step_next hnext)

end tracked

section run

variable {now : ℤ} {readSlice : ReadSlice} {db : Database}

def recoverRows (now : ℤ) (readSlice : ReadSlice) (db : Database) (rollout : InterruptedRollout) : Database :=
  let update := recoveredRolloutStatus readSlice rollout
  { db with
    rollouts := db.rollouts.map (update.rolloutRow now update.eventCount update.byteSize)
    activities := db.activities.map update.activityRow }

theorem mapM_toI64 {value : Option ℕ} (h : ∀ n, value = some n → n < 2 ^ 63) : value.mapM toI64 = .ok value := by
  cases value with
  | none => rfl
  | some n =>
    have hn : toI64 n = .ok n := if_pos (h n rfl)
    rw [Option.mapM_some, hn]
    rfl

theorem recoveredRolloutStatus_fits (readSlice : ReadSlice) (rollout : InterruptedRollout) :
    (∀ n, (recoveredRolloutStatus readSlice rollout).eventCount = some n → n < 2 ^ 63) ∧
      ∀ n, (recoveredRolloutStatus readSlice rollout).byteSize = some n → n < 2 ^ 63 := by
  unfold recoveredRolloutStatus
  dsimp only
  constructor
  · intro n hn
    obtain ⟨file, -, rfl⟩ := Option.map_eq_some_iff.mp hn
    exact file.eventCount_lt
  · intro n hn
    obtain ⟨file, -, rfl⟩ := Option.map_eq_some_iff.mp hn
    exact file.byteSize_lt

theorem find_id {α : Type} {rows : List α} {key : α → String} {id : String} (h : id ∈ rows.map key) :
    ∃ row, rows.find? (fun row => key row = id) = some row := by
  rw [← Option.isSome_iff_exists, List.find?_isSome]
  obtain ⟨row, hrow, hkey⟩ := List.mem_map.mp h
  exact ⟨row, hrow, decide_eq_true hkey⟩

theorem recoverRolloutStatus_eq {rollout : InterruptedRollout}
    (hrollout : rollout.activityId ∈ db.rollouts.map ActivityRollout.activityId)
    (hactivity : rollout.activityId ∈ db.activities.map Activity.id) :
    recoverRolloutStatus now (recoveredRolloutStatus readSlice rollout) db =
      .ok (recoverRows now readSlice db rollout) := by
  obtain ⟨row, hrow⟩ := find_id hrollout
  obtain ⟨activity, hactivity⟩ := find_id hactivity
  obtain ⟨hevents, hbytes⟩ := recoveredRolloutStatus_fits readSlice rollout
  unfold recoverRolloutStatus
  rw [mapM_toI64 hevents, mapM_toI64 hbytes]
  have hid : (recoveredRolloutStatus readSlice rollout).activityId = rollout.activityId := rfl
  rw [hid, hrow, hactivity]
  rfl

theorem rolloutRow_id (update : RecoveredRollout) (eventCount byteSize : Option ℕ) (row : ActivityRollout) :
    (update.rolloutRow now eventCount byteSize row).activityId = row.activityId := by
  unfold RecoveredRollout.rolloutRow
  split_ifs <;> rfl

theorem activityRow_id (update : RecoveredRollout) (row : Activity) : (update.activityRow row).id = row.id := by
  unfold RecoveredRollout.activityRow
  split_ifs <;> rfl

theorem recoverRows_ids (rollout : InterruptedRollout) :
    (recoverRows now readSlice db rollout).rollouts.map ActivityRollout.activityId =
        db.rollouts.map ActivityRollout.activityId ∧
      (recoverRows now readSlice db rollout).activities.map Activity.id = db.activities.map Activity.id := by
  constructor
  · rw [recoverRows, List.map_map]
    exact List.map_congr_left (fun row _ => rolloutRow_id _ _ _ row)
  · rw [recoverRows, List.map_map]
    exact List.map_congr_left (fun row _ => activityRow_id _ row)

theorem recover_foldlM {interrupted : List InterruptedRollout}
    (hids : db.activities.map Activity.id = db.rollouts.map ActivityRollout.activityId)
    (h : ∀ rollout ∈ interrupted, rollout.activityId ∈ db.rollouts.map ActivityRollout.activityId) :
    interrupted.foldlM (fun db rollout => recoverRolloutStatus now (recoveredRolloutStatus readSlice rollout) db) db =
      .ok (interrupted.foldl (recoverRows now readSlice) db) := by
  induction interrupted generalizing db with
  | nil => rfl
  | cons rollout interrupted ih =>
    have hrollout := h rollout List.mem_cons_self
    obtain ⟨hrollouts, hactivities⟩ := @recoverRows_ids now readSlice db rollout
    rw [List.foldlM_cons, recoverRolloutStatus_eq hrollout (hids ▸ hrollout), List.foldl_cons]
    refine ih ?_ ?_
    · rw [hrollouts, hactivities]
      exact hids
    · intro other hother
      rw [hrollouts]
      exact h other (List.mem_cons_of_mem _ hother)

def recoveredRolloutRow (now : ℤ) (readSlice : ReadSlice) (row : ActivityRollout) (rollout : InterruptedRollout) :
    ActivityRollout :=
  let update := recoveredRolloutStatus readSlice rollout
  update.rolloutRow now update.eventCount update.byteSize row

def recoveredActivityRow (readSlice : ReadSlice) (row : Activity) (rollout : InterruptedRollout) : Activity :=
  (recoveredRolloutStatus readSlice rollout).activityRow row

theorem foldl_recoverRows (interrupted : List InterruptedRollout) :
    (interrupted.foldl (recoverRows now readSlice) db).rollouts =
        db.rollouts.map (fun row => interrupted.foldl (recoveredRolloutRow now readSlice) row) ∧
      (interrupted.foldl (recoverRows now readSlice) db).activities =
        db.activities.map (fun row => interrupted.foldl (recoveredActivityRow readSlice) row) := by
  induction interrupted generalizing db with
  | nil => simp
  | cons rollout interrupted ih =>
    obtain ⟨hrollouts, hactivities⟩ := @ih (recoverRows now readSlice db rollout)
    rw [List.foldl_cons, hrollouts, hactivities]
    constructor
    · rw [recoverRows, List.map_map]
      rfl
    · rw [recoverRows, List.map_map]
      rfl

theorem foldl_recoveredRolloutRow (interrupted : List InterruptedRollout) (row : ActivityRollout) :
    (interrupted.foldl (recoveredRolloutRow now readSlice) row).activityId = row.activityId ∧
      (interrupted.foldl (recoveredRolloutRow now readSlice) row).status =
        if ∃ rollout ∈ interrupted, rollout.activityId = row.activityId then .partly else row.status := by
  induction interrupted generalizing row with
  | nil => simp
  | cons rollout interrupted ih =>
    have hid : (recoveredRolloutRow now readSlice row rollout).activityId = row.activityId := rolloutRow_id _ _ _ _
    obtain ⟨hfold, hstatus⟩ := ih (recoveredRolloutRow now readSlice row rollout)
    rw [List.foldl_cons]
    refine ⟨hfold.trans hid, ?_⟩
    rw [hstatus, hid]
    by_cases hrest : ∃ rollout ∈ interrupted, rollout.activityId = row.activityId
    · simp [hrest]
    · by_cases hrow : row.activityId = rollout.activityId
      · simp [recoveredRolloutRow, RecoveredRollout.rolloutRow, recoveredRolloutStatus, hrow]
      · simp [recoveredRolloutRow, RecoveredRollout.rolloutRow, recoveredRolloutStatus, hrow, hrest, Ne.symm hrow]

theorem foldl_recoveredActivityRow (interrupted : List InterruptedRollout) (row : Activity) :
    (interrupted.foldl (recoveredActivityRow readSlice) row).id = row.id ∧
      (interrupted.foldl (recoveredActivityRow readSlice) row).status =
        if ∃ rollout ∈ interrupted, rollout.activityId = row.id then .failed else row.status := by
  induction interrupted generalizing row with
  | nil => simp
  | cons rollout interrupted ih =>
    have hid : (recoveredActivityRow readSlice row rollout).id = row.id := activityRow_id _ _
    obtain ⟨hfold, hstatus⟩ := ih (recoveredActivityRow readSlice row rollout)
    rw [List.foldl_cons]
    refine ⟨hfold.trans hid, ?_⟩
    rw [hstatus, hid]
    by_cases hrest : ∃ rollout ∈ interrupted, rollout.activityId = row.id
    · simp [hrest]
    · by_cases hrow : row.id = rollout.activityId
      · simp [recoveredActivityRow, RecoveredRollout.activityRow, recoveredRolloutStatus, hrow]
      · simp [recoveredActivityRow, RecoveredRollout.activityRow, recoveredRolloutStatus, hrow, hrest, Ne.symm hrow]

end run

section recovered

variable {now : ℤ} {readSlice : ReadSlice} {w : World} {stages : String → Stage}

def recoveredDb (now : ℤ) (readSlice : ReadSlice) (db : Database) : Database :=
  (listWritingRollouts db).foldl (recoverRows now readSlice) db

theorem interrupted_iff (h : Tracked w stages) (id : String) :
    (∃ rollout ∈ listWritingRollouts w.db, rollout.activityId = id) ↔ (stages id).rollout = some .writing := by
  constructor
  · rintro ⟨rollout, hrollout, rfl⟩
    obtain ⟨row, hrow, rfl⟩ := List.mem_map.mp hrollout
    obtain ⟨hmem, hstatus⟩ := List.mem_filter.mp hrow
    rw [h.rollout row hmem, of_decide_eq_true hstatus]
  · intro hwriting
    have hpresent : (stages id).activity ≠ none := by
      cases hstage : stages id with
      | before finished =>
        rw [hstage] at hwriting
        exact nomatch hwriting
      | writing activity finished => exact Option.some_ne_none _
      | done activity rollout => exact Option.some_ne_none _
    have hmem := h.present id hpresent
    rw [h.ids] at hmem
    obtain ⟨row, hrow, hid⟩ := List.mem_map.mp hmem
    have hstatus := h.rollout row hrow
    rw [hid, hwriting] at hstatus
    refine ⟨_, List.mem_map.mpr ⟨row, List.mem_filter.mpr ⟨hrow, ?_⟩, rfl⟩, hid⟩
    exact decide_eq_true (Option.some.inj hstatus).symm

theorem recoverInterrupted_eq (h : Tracked w stages) :
    recoverInterrupted now readSlice w.db =
      .ok ((listWritingRollouts w.db).length, recoveredDb now readSlice w.db) := by
  have hids : ∀ rollout ∈ listWritingRollouts w.db,
      rollout.activityId ∈ w.db.rollouts.map ActivityRollout.activityId := by
    intro rollout hrollout
    obtain ⟨row, hrow, rfl⟩ := List.mem_map.mp hrollout
    exact List.mem_map_of_mem (List.mem_of_mem_filter hrow)
  unfold recoverInterrupted
  dsimp only
  rw [recover_foldlM h.ids hids]
  rfl

theorem recovered_rollouts (h : Tracked w stages) {row : ActivityRollout}
    (hrow : row ∈ (recoveredDb now readSlice w.db).rollouts) :
    ∃ old ∈ w.db.rollouts, row.activityId = old.activityId ∧
      row.status = if (stages old.activityId).rollout = some .writing then .partly else old.status := by
  rw [recoveredDb, (foldl_recoverRows _).1] at hrow
  obtain ⟨old, hold, rfl⟩ := List.mem_map.mp hrow
  obtain ⟨hid, hstatus⟩ := foldl_recoveredRolloutRow (listWritingRollouts w.db) old
  refine ⟨old, hold, hid, hstatus.trans ?_⟩
  simp only [interrupted_iff h]

theorem recovered_activities (h : Tracked w stages) {old : Activity} (hold : old ∈ w.db.activities) :
    ∃ row ∈ (recoveredDb now readSlice w.db).activities, row.id = old.id ∧
      row.status = if (stages old.id).rollout = some .writing then .failed else old.status := by
  obtain ⟨hid, hstatus⟩ := @foldl_recoveredActivityRow readSlice (listWritingRollouts w.db) old
  rw [recoveredDb, (foldl_recoverRows _).2]
  refine ⟨_, List.mem_map_of_mem hold, hid, hstatus.trans ?_⟩
  simp only [interrupted_iff h]

theorem recovered_activities_only (h : Tracked w stages) {row : Activity}
    (hrow : row ∈ (recoveredDb now readSlice w.db).activities) :
    ∃ old ∈ w.db.activities, row.id = old.id ∧
      row.status = if (stages old.id).rollout = some .writing then .failed else old.status := by
  rw [recoveredDb, (foldl_recoverRows _).2] at hrow
  obtain ⟨old, hold, rfl⟩ := List.mem_map.mp hrow
  obtain ⟨hid, hstatus⟩ := @foldl_recoveredActivityRow readSlice (listWritingRollouts w.db) old
  refine ⟨old, hold, hid, hstatus.trans ?_⟩
  simp only [interrupted_iff h]

theorem recovered_closed (h : Tracked w stages) :
    ∀ rollout ∈ (recoveredDb now readSlice w.db).rollouts, rollout.status ≠ .writing := by
  intro rollout hrollout hwriting
  obtain ⟨old, hold, -, hstatus⟩ := recovered_rollouts h hrollout
  split_ifs at hstatus with hopen
  · exact nomatch hstatus.symm.trans hwriting
  · apply hopen
    rw [h.rollout old hold, ← hstatus, hwriting]

theorem stage_outcome {stage : Stage} (hsound : stage.Sound) {status : ActivityStatus}
    (h : stage.activity = some status) :
    stage.rollout = some .writing ∨ ∃ rollout, stage.rollout = some rollout ∧ rollout ≠ .writing ∧
      Agree status rollout := by
  cases stage with
  | before finished => exact nomatch h
  | writing activity finished => exact Or.inl rfl
  | done activity rollout =>
    obtain rfl := Option.some.inj h
    refine Or.inr ⟨rollout, rfl, ?_, hsound⟩
    rintro rfl
    obtain ⟨-, h⟩ | ⟨-, h⟩ := hsound
    · exact nomatch h
    · exact nomatch h

theorem recovered_ended (h : Tracked w stages) (hsound : ∀ id, (stages id).Sound) :
    ∀ activity ∈ (recoveredDb now readSlice w.db).activities, activity.status ≠ .streaming := by
  intro activity hactivity hstreaming
  obtain ⟨old, hold, -, hstatus⟩ := recovered_activities_only h hactivity
  obtain hwriting | ⟨rollout, hrollout, hne, hagree⟩ := stage_outcome (hsound old.id) (h.activity old hold)
  · rw [if_pos hwriting, hstreaming] at hstatus
    exact nomatch hstatus
  · rw [if_neg (by rw [hrollout]; simpa using hne), hstreaming] at hstatus
    rw [← hstatus] at hagree
    obtain ⟨h, -⟩ | ⟨h, -⟩ := hagree
    · exact nomatch h
    · exact nomatch h

theorem recovered_agree (h : Tracked w stages) (hsound : ∀ id, (stages id).Sound) :
    ∀ activity ∈ (recoveredDb now readSlice w.db).activities,
      ∀ rollout ∈ (recoveredDb now readSlice w.db).rollouts, rollout.activityId = activity.id →
        (activity.status = .success ↔ rollout.status = .completed) := by
  intro activity hactivity rollout hrollout hid
  obtain ⟨oldActivity, holdActivity, hactivityId, hactivityStatus⟩ := recovered_activities_only h hactivity
  obtain ⟨oldRollout, holdRollout, hrolloutId, hrolloutStatus⟩ := recovered_rollouts h hrollout
  have hsame : oldRollout.activityId = oldActivity.id := by rw [← hrolloutId, hid, hactivityId]
  have hstatus := h.rollout oldRollout holdRollout
  rw [hsame] at hrolloutStatus hstatus
  obtain hwriting | ⟨closed, hclosed, hne, hagree⟩ := stage_outcome (hsound oldActivity.id)
    (h.activity oldActivity holdActivity)
  · rw [if_pos hwriting] at hactivityStatus hrolloutStatus
    simp [hactivityStatus, hrolloutStatus]
  · have hopen : (stages oldActivity.id).rollout ≠ some .writing := by
      rw [hclosed]
      simpa using hne
    rw [if_neg hopen] at hactivityStatus hrolloutStatus
    obtain rfl := Option.some.inj (hclosed.symm.trans hstatus)
    rw [hactivityStatus, hrolloutStatus]
    obtain ⟨hactivity, hrollout⟩ | ⟨hactivity, hrollout⟩ := hagree
    · simp [hactivity, hrollout]
    · simp [hactivity, hrollout]

theorem recovered_kept_iff (h : Tracked w stages) :
    (∀ activity ∈ w.db.activities, activity.status ≠ .streaming →
      ∃ row ∈ (recoveredDb now readSlice w.db).activities, row.id = activity.id ∧ row.status = activity.status) ↔
      ∀ id, ¬((stages id).activity = some .success ∧ (stages id).rollout = some .writing) := by
  constructor
  · rintro hkept id ⟨hsuccess, hwriting⟩
    obtain ⟨activity, hactivity, rfl⟩ := List.mem_map.mp (h.present id (by rw [hsuccess]; exact Option.some_ne_none _))
    have hstatus : activity.status = .success := Option.some.inj ((h.activity activity hactivity).symm.trans hsuccess)
    obtain ⟨row, hrow, hid, hrowStatus⟩ := hkept activity hactivity (by rw [hstatus]; simp)
    obtain ⟨old, hold, holdId, holdStatus⟩ := recovered_activities_only h hrow
    rw [← holdId, hid, if_pos hwriting, hrowStatus, hstatus] at holdStatus
    exact nomatch holdStatus
  · intro hclosed activity hactivity hne
    obtain ⟨row, hrow, hid, hstatus⟩ := @recovered_activities now readSlice w stages h activity hactivity
    refine ⟨row, hrow, hid, hstatus.trans ?_⟩
    split_ifs with hwriting
    · have hnot := hclosed activity.id
      rw [h.activity activity hactivity] at hnot
      cases hactivityStatus : activity.status with
      | streaming => exact absurd hactivityStatus hne
      | failed => rfl
      | success => exact absurd ⟨congrArg some hactivityStatus, hwriting⟩ hnot
    · rfl

theorem recoverInterrupted_closed {db : Database} (h : ∀ rollout ∈ db.rollouts, rollout.status ≠ .writing) :
    recoverInterrupted now readSlice db = .ok (0, db) := by
  have hnil : listWritingRollouts db = [] := by
    rw [listWritingRollouts, List.map_eq_nil_iff, List.filter_eq_nil_iff]
    intro rollout hrollout hwriting
    exact h rollout hrollout (of_decide_eq_true hwriting)
  unfold recoverInterrupted
  rw [hnil]
  rfl

end recovered

theorem successUnclosed_iff {effects : List Effect} {stage : Stage} (h : stageOf effects = some stage) :
    SuccessUnclosed effects ↔ stage.activity = some .success ∧ stage.rollout = some .writing := by
  obtain ⟨hsound, hsuccess, hcomplete, hdone⟩ := stageOf_spec h
  unfold SuccessUnclosed
  rw [hsuccess]
  refine and_congr_right (fun hactivity => ?_)
  cases stage with
  | before finished => exact nomatch hactivity
  | writing activity finished =>
    refine iff_of_true ?_ rfl
    intro hmem
    obtain ⟨activity', rollout, hstage⟩ := hcomplete hmem
    exact nomatch hstage
  | done activity rollout =>
    obtain rfl := Option.some.inj hactivity
    obtain ⟨-, rfl⟩ | ⟨h, -⟩ := hsound
    · exact iff_of_false (not_not.mpr (hdone rfl)) (by simp [Stage.rollout])
    · exact nomatch h

/-- The recovery does what it is for exactly when no stream was stopped between the record of its success and the
closing of its rollout row. -/
theorem recovery_iff (turns : String → Turn) {trace : List (String × Effect)} (hstopped : ∀ id, Stopped (own id trace))
    (now later : ℤ) (readSlice readLater : ReadSlice) :
    (∃ recovered after, recoverInterrupted now readSlice (written turns trace).db = .ok (recovered, after) ∧
      Recovered (written turns trace).db after ∧ recoverInterrupted later readLater after = .ok (0, after)) ↔
      ∀ id, ¬SuccessUnclosed (own id trace) := by
  have haccepted : ∀ id, ∃ stage, stageOf (own id trace) = some stage := by
    intro id
    obtain ⟨env, identityId, log, capture, rollout, session, mode, inputs, hs, hpre⟩ := hstopped id
    obtain ⟨stage, hstage⟩ := recorder_stage hs (recorder_fresh identityId log capture rollout session mode) inputs
    exact stageOf_prefix hstage hpre
  obtain ⟨stages, hstages, htracked⟩ := written_tracked turns haccepted
  have hsound : ∀ id, (stages id).Sound := fun id => (stageOf_spec (hstages id)).1
  have hclosed := @recovered_closed now readSlice _ _ htracked
  simp only [successUnclosed_iff (hstages _)]
  rw [← @recovered_kept_iff now readSlice _ _ htracked]
  constructor
  · rintro ⟨recovered, after, hrecover, hafter, -⟩
    rw [recoverInterrupted_eq htracked] at hrecover
    obtain ⟨-, rfl⟩ := Prod.mk.inj (Except.ok.inj hrecover)
    exact hafter.kept
  · intro hkept
    refine ⟨_, _, recoverInterrupted_eq htracked, ⟨hclosed, recovered_ended htracked hsound,
      recovered_agree htracked hsound, hkept⟩, recoverInterrupted_closed hclosed⟩

def silentEnv : Recording.Env :=
  { serde := Json.Text.codec, streamCapture := fun _ => [], streamSnapshot := fun _ => [] }

def startedLog : ActivityInsert := { status := .streaming, httpStatus := 200 }

def plainTurn : Turn where
  columns := { id := "", identityId := "identity", createdAt := 0, status := .streaming, httpStatus := none,
               errorCode := none, errorMessage := none, isStreaming := some true, inputTokens := none,
               outputTokens := none, reasoningTokens := none, cacheReadTokens := none, cacheWriteTokens := none,
               toolCallCount := none }
  opened := ⟨"activity", "thread", none, 0, "thread.jsonl", .writing, 1, 2, 2, 128, "hash"⟩
  closed := ⟨"activity", "thread", none, 0, "thread.jsonl", .completed, 1, 3, 3, 256, "hash"⟩
  createdAt := 0
  completedAt := 1

def completeEffects : List Effect :=
  (run silentEnv (recorder "identity" startedLog none true none .required)
    [.item (.ok []) {} true, .ended { completed := true }]).state.effects

def stoppedTrace (n : ℕ) : List (String × Effect) := (completeEffects.take n).map (fun e => ("activity", e))

theorem own_stoppedTrace (n : ℕ) (id : String) :
    own id (stoppedTrace n) = if id = "activity" then completeEffects.take n else [] := by
  unfold own stoppedTrace
  rw [List.filter_map, List.map_map]
  split_ifs with h
  · simp [h, Function.comp_def]
  · simp [Ne.symm h, Function.comp_def]

theorem stoppedTrace_stopped (n : ℕ) (id : String) : Stopped (own id (stoppedTrace n)) := by
  refine ⟨silentEnv, "identity", startedLog, none, true, none, .required, [.item (.ok []) {} true,
    .ended { completed := true }], ⟨rfl, rfl, fun _ => rfl, rfl⟩, ?_⟩
  rw [own_stoppedTrace]
  split_ifs
  · exact List.take_prefix n _
  · exact List.nil_prefix

def unreadable : ReadSlice := fun _ _ _ => .error "missing"

theorem recovery_started :
    ∃ recovered after,
      recoverInterrupted 5 unreadable (written (fun _ => plainTurn) (stoppedTrace 1)).db = .ok (recovered, after) ∧
      Recovered (written (fun _ => plainTurn) (stoppedTrace 1)).db after ∧
      recoverInterrupted 6 unreadable after = .ok (0, after) := by
  refine (recovery_iff (fun _ => plainTurn) (stoppedTrace_stopped 1) 5 6 unreadable unreadable).mpr ?_
  rintro id ⟨⟨update, hmem, -⟩, -⟩
  rw [own_stoppedTrace] at hmem
  split_ifs at hmem
  · have hone : completeEffects.take 1 = [.startStream startedLog] := rfl
    rw [hone] at hmem
    exact nomatch List.mem_singleton.mp hmem
  · exact nomatch hmem

/-- The success of a stream that was stopped before its rollout row was closed is turned into a failure. -/
theorem recovery_loses_success :
    (∀ id, Stopped (own id (stoppedTrace 2))) ∧ ¬∃ recovered after,
      recoverInterrupted 5 unreadable (written (fun _ => plainTurn) (stoppedTrace 2)).db = .ok (recovered, after) ∧
      Recovered (written (fun _ => plainTurn) (stoppedTrace 2)).db after ∧
      recoverInterrupted 6 unreadable after = .ok (0, after) := by
  refine ⟨stoppedTrace_stopped 2, ?_⟩
  rintro ⟨recovered, after, hrecover, hafter, -⟩
  have hbefore : (written (fun _ => plainTurn) (stoppedTrace 2)).db.activities.map Activity.status = [.success] := rfl
  have hstatuses : (recoverInterrupted 5 unreadable (written (fun _ => plainTurn) (stoppedTrace 2)).db).map
      (fun result => result.2.activities.map Activity.status) = .ok [.failed] := rfl
  rw [hrecover] at hstatuses
  have hfailed : after.activities.map Activity.status = [.failed] := Except.ok.inj hstatuses
  obtain ⟨activity, hactivity, hstatus⟩ := List.mem_map.mp (by rw [hbefore]; exact List.mem_singleton_self _)
  obtain ⟨row, hrow, -, hrowStatus⟩ := hafter.kept activity hactivity (by rw [hstatus]; simp)
  have hmem := List.mem_map_of_mem (f := Activity.status) hrow
  rw [hfailed, hrowStatus, hstatus] at hmem
  exact nomatch List.mem_singleton.mp hmem

end Prelay.Store
