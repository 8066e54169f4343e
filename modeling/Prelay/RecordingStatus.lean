import Prelay.RecordingRun
import Prelay.RecordedStream

namespace Prelay.Recording

open Json Bridge Rollout StreamRecordState

variable {env : Env} {seen : List StreamStatsSnapshot} {s : StreamRecordState}

theorem status_closed {status : ActivityStatus} {rolloutStatus : RolloutStatus} {update : StreamActivityUpdate}
    {effects tail : List Effect} (hu : update.status = some status) (ht : Closing rolloutStatus tail) :
    activityStatus (effects ++ .updateStream update :: tail) = some status :=
  activityStatus_written effects tail (.updateStream update) status hu (fun e he => (ht.quiet e he).1)

theorem Live.recordStreamError_status (hs : env.storage.Succeeds) (h : Live seen s) (message : String) :
    activityStatus (s.recordStreamError env message).effects = some .failed := by
  obtain ⟨tail, ht, htail⟩ := finalizeRollout_effects hs
    ({ s with failed := true, session := none }.update (some .failed) 502 (some "stream_error") (some message))
    .failed (some 502) (some "stream_error") (some message) h.rollout h.notFinalized h.inserted
  rw [StreamRecordState.recordStreamError, htail, update, emit, List.append_assoc]
  exact status_closed rfl ht

theorem Live.recordStreamEnd_status (hs : env.storage.Succeeds) (h : Live seen s) :
    activityStatus (s.recordStreamEnd env).effects = if s.streamCompleted then some .success else some .failed := by
  unfold StreamRecordState.recordStreamEnd
  simp only [h.inserted, h.notFailed, Bool.not_true, Bool.false_eq_true, ↓reduceIte]
  cases hcompleted : s.streamCompleted with
  | false => exact h.recordStreamError_status hs _
  | true =>
    have hsaved := h.saveSessionIfReady
    obtain ⟨tail, ht, htail⟩ := finalizeRollout_effects hs
      (s.saveSessionIfReady.update (some .success) 200 none none) .completed (some 200) none none
      hsaved.rollout hsaved.notFinalized hsaved.inserted
    simp only [Bool.not_true, Bool.false_eq_true, ↓reduceIte]
    rw [htail, update, emit, List.append_assoc]
    exact status_closed rfl ht

theorem observeItem_capture (chunk : Bytes) : (s.observeItem env (.ok chunk)).contentCapture =
    s.contentCapture.map (fun capture => capture.observeChunk env.serde chunk) := by
  have hsave : ∀ t : StreamRecordState, t.saveSessionIfReady.contentCapture = t.contentCapture := fun _ => rfl
  have husage : ∀ t : StreamRecordState, t.recordFinalUsage.contentCapture = t.contentCapture := by
    intro t
    unfold StreamRecordState.recordFinalUsage
    split_ifs <;> rfl
  unfold StreamRecordState.observeItem
  dsimp only
  split_ifs
  · rw [hsave, husage]
  · rfl

theorem observeItem_noCapture (chunk : Bytes) (h : s.contentCapture = none) :
    (s.observeItem env (.ok chunk)).contentCapture = none := by
  rw [observeItem_capture, h]
  rfl

theorem observeItem_error_status (hs : env.storage.Succeeds) (h : Live seen s) (error : String) :
    activityStatus (s.observeItem env (.error error)).effects = some .failed := by
  have hfailed : (s.recordStreamError env error).failed = true := finalizeRollout_failed _ _ _ _ _
  unfold StreamRecordState.observeItem
  simp only [h.inserted, h.notFailed, Bool.not_true, Bool.false_eq_true, ↓reduceIte, hfailed, Bool.and_false]
  exact h.recordStreamError_status hs error

def listenedInputs (items : List (Except String Bytes × StreamStatsSnapshot)) (final : StreamStatsSnapshot) :
    List Input :=
  items.map (fun p => .item p.1 p.2 true) ++ [.ended final]

/-- The status in which a stream ends: a failed item or a missing completion makes it a failure. -/
def endStatus (items : List (Except String Bytes × StreamStatsSnapshot)) (final : StreamStatsSnapshot) :
    ActivityStatus :=
  if !items.any (fun p => isFailedItem p.1) && final.completed then .success else .failed

theorem endStatus_ok (chunk : Bytes) (stats : StreamStatsSnapshot)
    (items : List (Except String Bytes × StreamStatsSnapshot)) (final : StreamStatsSnapshot) :
    endStatus ((.ok chunk, stats) :: items) final = endStatus items final := rfl

theorem endStatus_error (error : String) (stats : StreamStatsSnapshot)
    (items : List (Except String Bytes × StreamStatsSnapshot)) (final : StreamStatsSnapshot) :
    endStatus ((.error error, stats) :: items) final = .failed := rfl

theorem run_live_status (hs : env.storage.Succeeds)
    (items : List (Except String Bytes × StreamStatsSnapshot)) (final : StreamStatsSnapshot)
    (f : Forwarding) (hstarted : f.started = true) (hconnected : f.connected = true)
    (hfinished : f.finished = false) (hcapture : f.state.contentCapture = none) (h : Live seen f.state) :
    activityStatus (run env f (listenedInputs items final)).state.effects = some (endStatus items final) := by
  induction items generalizing f seen with
  | nil =>
    have hend := (h.withStats final).recordStreamEnd_status hs
    have hcompleted : { f.state with stats := final }.streamCompleted = final.completed := by
      simp [streamCompleted, hcapture]
    rw [hcompleted] at hend
    simp only [listenedInputs, List.map_nil, List.nil_append, run, List.foldl_cons, List.foldl_nil, step, hfinished,
      hstarted, forwardStep, hconnected, Bool.false_eq_true, ↓reduceIte, hend, endStatus, List.any_nil, Bool.not_false,
      Bool.true_and]
    split_ifs <;> rfl
  | cons item items ih =>
    obtain ⟨item, stats⟩ := item
    have hstep : run env f (listenedInputs ((item, stats) :: items) final) =
        run env (forwardStep env f (.item item stats true)) (listenedInputs items final) := by
      simp [run, listenedInputs, step, hfinished, hstarted]
    rw [hstep]
    cases item with
    | ok chunk =>
      have hrest := ih (forwardStep env f (.item (.ok chunk) stats true)) hstarted
        (by simp [forwardStep, hconnected]) rfl (observeItem_noCapture chunk hcapture)
        ((h.withStats stats).observeItem_ok chunk)
      rw [endStatus_ok]
      exact hrest
    | error error =>
      rw [run_finished env rfl]
      have hstatus := observeItem_error_status hs (h.withStats stats) error
      rw [endStatus_error]
      exact hstatus

theorem prepareStream_live (hs : env.storage.Succeeds) (identityId : String) (log : ActivityInsert)
    (capture : Option RawStreamContentCapture) (session : Option StreamSession) (mode : RecordingMode) (chunk : Bytes)
    (stats : StreamStatsSnapshot) :
    ∃ f, prepareStream env (recorder identityId log capture true session mode) (.item (.ok chunk) stats true) = f ∧
      f.started = true ∧ f.connected = true ∧ f.finished = false ∧
      f.state.contentCapture = capture.map (fun capture => capture.observeChunk env.serde chunk) ∧
      Live [stats] f.state := by
  have hprepare : prepareStream env (recorder identityId log capture true session mode) (.item (.ok chunk) stats true) =
      ⟨({ (recorder identityId log capture true session mode).state with stats := stats }.start env
        (.ok chunk)).1.observeItem env (.ok chunk), true, true, false⟩ := by
    simp [prepareStream, recorder, start, hs.1, isFailedItem]
  have hrecorded : Recorded true [.item (.ok chunk) stats true] _ :=
    prepareStream_recorded hs (recorder_fresh identityId log capture true session mode) rfl (.item (.ok chunk) stats true)
  rw [hprepare] at hrecorded ⊢
  refine ⟨_, rfl, rfl, rfl, rfl, ?_, ?_⟩
  · rw [observeItem_capture]
    simp [recorder, start, hs.1, emit]
  cases hrecorded with
  | fresh h => cases h.started
  | live _ _ h => exact h
  | ended hfinished => cases hfinished

/-- The status a stream ends with, from its first item on; a stream without items is a failure. -/
theorem run_recorder_status (hs : env.storage.Succeeds) (identityId : String) (log : ActivityInsert)
    (session : Option StreamSession) (mode : RecordingMode)
    (items : List (Except String Bytes × StreamStatsSnapshot)) (final : StreamStatsSnapshot) :
    activityStatus (run env (recorder identityId log none true session mode)
      (listenedInputs items final)).state.effects =
      some (if items = [] then .failed else endStatus items final) := by
  cases items with
  | nil =>
    simp [listenedInputs, run, step, recorder, prepareStream, recordEmptyStream, hs.2.1, hs.2.2.2, emit, activityStatus,
      Effect.activityStatus]
  | cons item items =>
    obtain ⟨item, stats⟩ := item
    rw [if_neg (by simp)]
    cases item with
    | ok chunk =>
      obtain ⟨f, hf, hstarted, hconnected, hfinished, hcapture, hlive⟩ :=
        prepareStream_live hs identityId log none session mode chunk stats
      have hrun := run_live_status hs items final f hstarted hconnected hfinished hcapture hlive
      rw [← hf] at hrun
      rw [endStatus_ok]
      exact hrun
    | error error =>
      obtain ⟨log', tail, hstatus, ht, hfinished, heffects⟩ := prepareStream_error hs
        (recorder_fresh identityId log none true session mode) rfl error stats true
      have hrun := run_finished env hfinished (listenedInputs items final)
      have hwritten := activityStatus_written [] tail (.startStream log') .failed (congrArg some hstatus)
        (fun e he => (ht.quiet e he).1)
      rw [endStatus_error, ← hwritten, List.nil_append, ← heffects, ← hrun]
      rfl

end Prelay.Recording
