import Prelay.RecordingRun

namespace Prelay.Recording

open Json Bridge Rollout

/-- How far the recording of a stream has come in the database: before its rows, with a rollout that is being written,
or with a rollout that is closed. -/
inductive Stage where
  | before (finished : Option RolloutStatus)
  | writing (activity : ActivityStatus) (finished : Option RolloutStatus)
  | done (activity : ActivityStatus) (rollout : RolloutStatus)
  deriving DecidableEq

/-- The row and the turn agree on how the stream ended. -/
def Agree (activity : ActivityStatus) (rollout : RolloutStatus) : Prop :=
  activity = .success ∧ rollout = .completed ∨ activity = .failed ∧ rollout = .failed

instance (activity : ActivityStatus) (rollout : RolloutStatus) : Decidable (Agree activity rollout) :=
  inferInstanceAs (Decidable (activity = .success ∧ rollout = .completed ∨ activity = .failed ∧ rollout = .failed))

def Stage.step : Stage → Effect → Option Stage
  | .before none, .startStream log => if log.status = .success then none else some (.writing log.status none)
  | .before none, .appendContent _ => some (.before none)
  | .before none, .finishWith status _ _ _ => some (.before (some status))
  | .before (some status), .insertStreamResult log =>
    if log.status = .failed ∧ status = .failed then some (.done log.status status) else none
  | .writing activity none, .updateStream update =>
    match update.status with
    | none => some (.writing activity none)
    | some status => if activity = .streaming ∧ status ≠ .streaming then some (.writing status none) else none
  | .writing activity none, .saveResponseState _ => some (.writing activity none)
  | .writing activity none, .appendContent _ => some (.writing activity none)
  | .writing activity none, .finishWith status _ _ _ =>
    if Agree activity status then some (.writing activity (some status)) else none
  | .writing activity (some status), .completeStream => some (.done activity status)
  | _, _ => none

inductive Stage.Next : Stage → Effect → Stage → Prop
  | start (log : ActivityInsert) (h : log.status ≠ .success) :
      Next (.before none) (.startStream log) (.writing log.status none)
  | emptyContent (draft : ContentDraft) : Next (.before none) (.appendContent draft) (.before none)
  | emptyFinish (status : RolloutStatus) (httpStatus : Option ℕ) (code message : Option String) :
      Next (.before none) (.finishWith status httpStatus code message) (.before (some status))
  | insert (log : ActivityInsert) (h : log.status = .failed) :
      Next (.before (some .failed)) (.insertStreamResult log) (.done .failed .failed)
  | usage (activity : ActivityStatus) (update : StreamActivityUpdate) (h : update.status = none) :
      Next (.writing activity none) (.updateStream update) (.writing activity none)
  | close (update : StreamActivityUpdate) (status : ActivityStatus) (h : update.status = some status) :
      Next (.writing .streaming none) (.updateStream update) (.writing status none)
  | save (activity : ActivityStatus) (insert : ResponseStateInsert) :
      Next (.writing activity none) (.saveResponseState insert) (.writing activity none)
  | content (activity : ActivityStatus) (draft : ContentDraft) :
      Next (.writing activity none) (.appendContent draft) (.writing activity none)
  | finish (activity : ActivityStatus) (status : RolloutStatus) (httpStatus : Option ℕ) (code message : Option String)
      (h : Agree activity status) :
      Next (.writing activity none) (.finishWith status httpStatus code message) (.writing activity (some status))
  | complete (activity : ActivityStatus) (status : RolloutStatus) :
      Next (.writing activity (some status)) .completeStream (.done activity status)

theorem Stage.step_next {stage next : Stage} {e : Effect} (h : stage.step e = some next) : stage.Next e next := by
  unfold Stage.step at h
  split at h
  case h_1 log =>
    split_ifs at h with hlog
    obtain rfl := Option.some.inj h
    exact .start log hlog
  case h_4 status log =>
    split_ifs at h with hfailed
    obtain rfl := Option.some.inj h
    obtain ⟨hlog, rfl⟩ := hfailed
    rw [hlog]
    exact .insert log hlog
  case h_5 activity update =>
    split at h
    · rename_i hnone
      obtain rfl := Option.some.inj h
      exact .usage activity update hnone
    · rename_i status hstatus
      split_ifs at h with hopen
      obtain rfl := Option.some.inj h
      obtain ⟨rfl, -⟩ := hopen
      exact .close update status hstatus
  case h_8 activity status httpStatus code message =>
    split_ifs at h with hagree
    obtain rfl := Option.some.inj h
    exact .finish activity status httpStatus code message hagree
  case h_10 => exact nomatch h
  all_goals obtain rfl := Option.some.inj h
  · exact .emptyContent _
  · exact .emptyFinish _ _ _ _
  · exact .save _ _
  · exact .content _ _
  · exact .complete _ _

def stageOf (effects : List Effect) : Option Stage := effects.foldlM Stage.step (.before none)

theorem stageOf_append (es fs : List Effect) :
    stageOf (es ++ fs) = (stageOf es).bind (fun stage => fs.foldlM Stage.step stage) := List.foldlM_append

theorem stageOf_concat (es : List Effect) (e : Effect) :
    stageOf (es ++ [e]) = (stageOf es).bind (fun stage => stage.step e) := by
  rw [stageOf_append]
  simp

theorem stageOf_prefix {es fs : List Effect} {stage : Stage} (h : stageOf fs = some stage) (hes : es <+: fs) :
    ∃ stage', stageOf es = some stage' := by
  obtain ⟨rest, rfl⟩ := hes
  rw [stageOf_append] at h
  obtain ⟨stage', hstage, -⟩ := Option.bind_eq_some_iff.mp h
  exact ⟨stage', hstage⟩

theorem foldlM_quiet {stage : Stage} {effects : List Effect} (h : ∀ e ∈ effects, stage.step e = some stage) :
    effects.foldlM Stage.step stage = some stage := by
  induction effects with
  | nil => rfl
  | cons e effects ih =>
    rw [List.foldlM_cons, h e List.mem_cons_self]
    exact ih (fun e he => h e (List.mem_cons_of_mem _ he))

theorem foldlM_closing {activity : ActivityStatus} {status : RolloutStatus} {tail : List Effect}
    (hagree : Agree activity status) (h : Closing status tail) :
    tail.foldlM Stage.step (.writing activity none) = some (.done activity status) := by
  obtain ⟨drafts, httpStatus, code, message, rfl⟩ := h
  have hdrafts : (drafts.map Effect.appendContent).foldlM Stage.step (.writing activity none) =
      some (.writing activity none) := by
    apply foldlM_quiet
    intro e he
    obtain ⟨draft, -, rfl⟩ := List.mem_map.mp he
    rfl
  rw [List.foldlM_append, hdrafts]
  simp [Stage.step, hagree]

namespace Stage

def activity : Stage → Option ActivityStatus
  | .before _ => none
  | .writing activity _ => some activity
  | .done activity _ => some activity

def rollout : Stage → Option RolloutStatus
  | .before _ => none
  | .writing _ _ => some .writing
  | .done _ rollout => some rollout

def finished : Stage → Option RolloutStatus
  | .before finished => finished
  | .writing _ finished => finished
  | .done _ rollout => some rollout

def Sound : Stage → Prop
  | .writing activity (some status) => Agree activity status
  | .done activity rollout => Agree activity rollout
  | _ => True

end Stage

def SuccessUnclosed (effects : List Effect) : Prop :=
  (∃ update, Effect.updateStream update ∈ effects ∧ update.status = some .success) ∧ Effect.completeStream ∉ effects

theorem stageOf_spec {effects : List Effect} {stage : Stage} (h : stageOf effects = some stage) :
    stage.Sound ∧
      ((∃ update, Effect.updateStream update ∈ effects ∧ update.status = some .success) ↔
        stage.activity = some .success) ∧
      (Effect.completeStream ∈ effects → ∃ activity rollout, stage = .done activity rollout) ∧
      (stage = .done .success .completed → Effect.completeStream ∈ effects) := by
  induction effects using List.reverseRecOn generalizing stage with
  | nil =>
    obtain rfl := Option.some.inj h
    simp [Stage.Sound, Stage.activity]
  | append_singleton effects e ih =>
    rw [stageOf_concat] at h
    obtain ⟨last, hlast, hstep⟩ := Option.bind_eq_some_iff.mp h
    obtain ⟨hsound, hsuccess, hcomplete, hdone⟩ := ih hlast
    have hnext := Stage.step_next hstep
    clear h hstep hlast ih
    cases hnext with
    | start log h => simp_all [Stage.Sound, Stage.activity]
    | emptyContent draft => simp_all [Stage.Sound, Stage.activity]
    | emptyFinish status httpStatus code message => simp_all [Stage.Sound, Stage.activity]
    | insert log h => simp_all [Stage.Sound, Stage.activity, Agree]
    | usage activity update h => simp_all [Stage.Sound, Stage.activity]
    | close update status h => simp_all [Stage.Sound, Stage.activity]
    | save activity insert => simp_all [Stage.Sound, Stage.activity]
    | content activity draft => simp_all [Stage.Sound, Stage.activity]
    | finish activity status httpStatus code message h => simp_all [Stage.Sound, Stage.activity]
    | complete activity status => simp_all [Stage.Sound, Stage.activity]

section live

open StreamRecordState

variable {env : Env} {seen : List StreamStatsSnapshot} {s : StreamRecordState}

theorem stageOf_recordFinalUsage (h : stageOf s.effects = some (.writing .streaming none)) :
    stageOf s.recordFinalUsage.effects = some (.writing .streaming none) := by
  unfold StreamRecordState.recordFinalUsage
  split_ifs
  · exact h
  · simp only [StreamRecordState.update, emit]
    rw [stageOf_concat, h]
    rfl

theorem stageOf_saveSessionIfReady (h : stageOf s.effects = some (.writing .streaming none)) :
    stageOf s.saveSessionIfReady.effects = some (.writing .streaming none) := by
  unfold StreamRecordState.saveSessionIfReady
  simp only [emit]
  rw [stageOf_append, h, Option.bind_some]
  apply foldlM_quiet
  intro e he
  obtain ⟨insert, -, rfl⟩ := List.mem_map.mp he
  rfl

theorem stageOf_observeItem_ok (hlive : Live seen s) (h : stageOf s.effects = some (.writing .streaming none))
    (chunk : Bytes) : stageOf (s.observeItem env (.ok chunk)).effects = some (.writing .streaming none) := by
  have hopen : (s.inserted && !s.failed) = true := by simp [hlive.inserted, hlive.notFailed]
  unfold StreamRecordState.observeItem
  dsimp only
  rw [if_pos hopen]
  exact stageOf_saveSessionIfReady (stageOf_recordFinalUsage h)

theorem stageOf_closed {t : StreamRecordState} {update : StreamActivityUpdate} {status : ActivityStatus}
    {rolloutStatus : RolloutStatus} {tail : List Effect} (h : stageOf s.effects = some (.writing .streaming none))
    (hstatus : update.status = some status) (hagree : Agree status rolloutStatus) (ht : Closing rolloutStatus tail)
    (heffects : t.effects = s.effects ++ .updateStream update :: tail) :
    stageOf t.effects = some (.done status rolloutStatus) := by
  have hne : status ≠ .streaming := by
    rintro rfl
    obtain ⟨h, -⟩ | ⟨h, -⟩ := hagree
    · exact nomatch h
    · exact nomatch h
  rw [heffects, stageOf_append, h, Option.bind_some, List.foldlM_cons]
  simp only [Stage.step, hstatus, hne, ne_eq, not_false_eq_true, and_self, if_true, Option.bind_eq_bind, Option.bind_some]
  exact foldlM_closing hagree ht

theorem stageOf_failed (hs : env.storage.Succeeds) (hlive : Live seen s)
    (h : stageOf s.effects = some (.writing .streaming none)) {update : StreamActivityUpdate}
    (hstatus : update.status = some .failed) (httpStatus : Option ℕ) (code message : Option String) :
    stageOf (({ s with failed := true, session := none }.emit [.updateStream update]).finalizeRollout env .failed
      httpStatus code message).effects = some (.done .failed .failed) := by
  obtain ⟨tail, ht, htail⟩ := finalizeRollout_effects hs
    ({ s with failed := true, session := none }.emit [.updateStream update]) .failed httpStatus code message
    hlive.rollout hlive.notFinalized hlive.inserted
  refine stageOf_closed h hstatus (Or.inr ⟨rfl, rfl⟩) ht ?_
  rw [htail]
  simp [emit]

theorem stageOf_recordStreamEnd (hs : env.storage.Succeeds) (hlive : Live seen s)
    (h : stageOf s.effects = some (.writing .streaming none)) :
    ∃ stage, stageOf (s.recordStreamEnd env).effects = some stage := by
  unfold StreamRecordState.recordStreamEnd
  simp only [hlive.inserted, hlive.notFailed, Bool.not_true, Bool.false_eq_true, ↓reduceIte]
  split_ifs
  · exact ⟨_, stageOf_failed hs hlive h rfl _ _ _⟩
  · have hsaved := hlive.saveSessionIfReady
    obtain ⟨tail, ht, htail⟩ := finalizeRollout_effects hs
      (s.saveSessionIfReady.update (some .success) 200 none none) .completed (some 200) none none
      hsaved.rollout hsaved.notFinalized hsaved.inserted
    have hstage := stageOf_saveSessionIfReady h
    refine ⟨.done .success .completed, ?_⟩
    exact stageOf_closed hstage rfl (Or.inl ⟨rfl, rfl⟩) ht (htail.trans (List.append_assoc _ [_] tail))

theorem stageOf_recordDownstreamDisconnect (hs : env.storage.Succeeds) (hlive : Live seen s)
    (h : stageOf s.effects = some (.writing .streaming none)) :
    stageOf (s.recordDownstreamDisconnect env).effects = some (.done .failed .failed) := by
  unfold StreamRecordState.recordDownstreamDisconnect
  simp only [hlive.notFailed, Bool.false_eq_true, ↓reduceIte]
  exact stageOf_failed hs hlive h rfl _ _ _

theorem stageOf_observeItem_error (hs : env.storage.Succeeds) (hlive : Live seen s)
    (h : stageOf s.effects = some (.writing .streaming none)) (error : String) :
    stageOf (s.observeItem env (.error error)).effects = some (.done .failed .failed) := by
  have hfailed : (s.recordStreamError env error).failed = true := finalizeRollout_failed _ _ _ _ _
  unfold StreamRecordState.observeItem
  simp only [hlive.inserted, hlive.notFailed, Bool.not_true, Bool.false_eq_true, ↓reduceIte, hfailed, Bool.and_false]
  exact stageOf_failed hs hlive h rfl _ _ _

end live

section run

open StreamRecordState

variable {env : Env} {rollout : Bool} {inputs : List Input} {f : Forwarding}

inductive Staged (inputs : List Input) (f : Forwarding) : Prop
  | fresh (h : Fresh f)
  | live (hs : f.started = true) (hf : f.finished = false) (h : Live (inputs.map Input.stats) f.state)
      (hstage : stageOf f.state.effects = some (.writing .streaming none))
  | ended (hf : f.finished = true) (stage : Stage) (hstage : stageOf f.state.effects = some stage)

theorem start_ok (hs : env.storage.Succeeds) (h : Fresh f) (hr : f.state.rollout = true) (chunk : Bytes)
    (stats : StreamStatsSnapshot) :
    ∃ log, log.status = .streaming ∧ ({ f.state with stats := stats }.start env (.ok chunk)).2 = true ∧
      ({ f.state with stats := stats }.start env (.ok chunk)).1.effects = [.startStream log] ∧
      Live (stats :: inputs.map Input.stats) ({ f.state with stats := stats }.start env (.ok chunk)).1 := by
  obtain ⟨log, hlog⟩ := Option.ne_none_iff_exists'.mp h.log
  simp only [start, hlog, hr, hs.1, emit, h.effects, Bool.not_true, Bool.false_eq_true, ↓reduceIte, List.nil_append]
  refine ⟨_, rfl, trivial, rfl, rfl, h.notFailed, rfl, h.notFinalized, ⟨_, [], rfl, rfl, by simp⟩, ?_, ?_, ?_, by simp⟩
  · simp [saves, Effect.isSave]
  · intro
    simp [saves, Effect.isSave]
  · intro insert hi
    simp at hi

theorem prepareStream_refused (h : Fresh f) (hr : f.state.rollout = false) (input : Input) :
    (∃ stats, input = .drainTimeout stats) ∨ (prepareStream env f input).finished = true ∧
      (prepareStream env f input).state.effects = [] := by
  obtain ⟨log, hlog⟩ := Option.ne_none_iff_exists'.mp h.log
  cases input with
  | drainTimeout stats => exact Or.inl ⟨stats, rfl⟩
  | ended stats => exact Or.inr ⟨rfl, by simp [prepareStream, recordEmptyStream, hlog, hr, h.effects]⟩
  | item item stats delivered =>
    cases item <;> simp [prepareStream, start, hlog, hr, h.effects]

theorem prepareStream_ended (hs : env.storage.Succeeds) (h : Fresh f) (hr : f.state.rollout = true)
    (stats : StreamStatsSnapshot) :
    stageOf (prepareStream env f (.ended stats)).state.effects = some (.done .failed .failed) := by
  obtain ⟨log, hlog⟩ := Option.ne_none_iff_exists'.mp h.log
  simp [prepareStream, recordEmptyStream, hlog, hr, h.effects, hs.2.1, hs.2.2.2, emit, stageOf, Stage.step]

theorem prepareStream_staged (hs : env.storage.Succeeds) (h : Fresh f) (input : Input) :
    Staged (input :: inputs) (prepareStream env f input) := by
  cases hr : f.state.rollout with
  | false =>
    obtain ⟨stats, rfl⟩ | ⟨hfinished, heffects⟩ := @prepareStream_refused env f h hr input
    · exact .fresh h
    · exact .ended hfinished (.before none) (by rw [heffects]; rfl)
  | true =>
    cases input with
    | drainTimeout stats => exact .fresh h
    | ended stats => exact .ended rfl _ (prepareStream_ended hs h hr stats)
    | item item stats delivered =>
      cases item with
      | ok chunk =>
        obtain ⟨log, hstatus, hok, heffects, hlive⟩ := @start_ok env inputs f hs h hr chunk stats
        have hstage : stageOf ({ f.state with stats := stats }.start env (.ok chunk)).1.effects =
            some (.writing .streaming none) := by
          rw [heffects]
          simp [stageOf, Stage.step, hstatus]
        refine .live ?_ ?_ ?_ ?_
        · simp [prepareStream, hok]
        · simp [prepareStream, hok, isFailedItem]
        · simpa [prepareStream, hok, Input.stats] using hlive.observeItem_ok chunk
        · simpa [prepareStream, hok] using stageOf_observeItem_ok hlive hstage chunk
      | error error =>
        obtain ⟨log, tail, hstatus, ht, hfinished, heffects⟩ := prepareStream_error hs h hr error stats delivered
        refine .ended hfinished (.done .failed .failed) ?_
        rw [heffects, stageOf, List.foldlM_cons]
        simp only [Stage.step, hstatus, reduceCtorEq, if_false, Option.bind_eq_bind, Option.bind_some]
        exact foldlM_closing (Or.inr ⟨rfl, rfl⟩) ht

theorem forwardStep_staged (hs : env.storage.Succeeds) (hstarted : f.started = true) (hfinished : f.finished = false)
    (h : Live (inputs.map Input.stats) f.state) (hstage : stageOf f.state.effects = some (.writing .streaming none))
    (input : Input) : Staged (input :: inputs) (forwardStep env f input) := by
  have hseen := h.withStats input.stats
  cases input with
  | item item stats delivered =>
    cases item with
    | ok chunk => exact .live hstarted rfl (hseen.observeItem_ok chunk) (stageOf_observeItem_ok hseen hstage chunk)
    | error error => exact .ended rfl _ (stageOf_observeItem_error hs hseen hstage error)
  | ended stats =>
    cases hc : f.connected with
    | true =>
      simp only [forwardStep, hc, ↓reduceIte]
      obtain ⟨stage, hend⟩ := stageOf_recordStreamEnd hs hseen hstage
      exact .ended rfl stage hend
    | false =>
      simp only [forwardStep, hc, Bool.false_eq_true, ↓reduceIte]
      exact .ended rfl _ (stageOf_recordDownstreamDisconnect hs hseen hstage)
  | drainTimeout stats =>
    cases hc : f.connected with
    | true =>
      simp only [forwardStep, hc, ↓reduceIte]
      exact .live hstarted hfinished (h.mono (List.subset_cons_self _ _)) hstage
    | false =>
      simp only [forwardStep, hc, Bool.false_eq_true, ↓reduceIte]
      exact .ended rfl _ (stageOf_recordDownstreamDisconnect hs hseen hstage)

theorem step_staged (hs : env.storage.Succeeds) (h : Staged inputs f) (input : Input) :
    Staged (input :: inputs) (step env f input) := by
  cases h with
  | fresh h =>
    simp only [step, h.finished, h.started, Bool.false_eq_true, ↓reduceIte]
    exact prepareStream_staged hs h input
  | live hstarted hfinished h hstage =>
    simp only [step, hfinished, hstarted, Bool.false_eq_true, ↓reduceIte]
    exact forwardStep_staged hs hstarted hfinished h hstage input
  | ended hfinished stage hstage =>
    simp only [step, hfinished, ↓reduceIte]
    exact .ended hfinished stage hstage

theorem run_staged (hs : env.storage.Succeeds) {seen : List Input} (h : Staged seen f) (inputs : List Input) :
    Staged (inputs.reverse ++ seen) (run env f inputs) := by
  induction inputs generalizing seen f with
  | nil => exact h
  | cons input inputs ih =>
    rw [List.reverse_cons, List.append_assoc]
    exact ih (step_staged hs h input)

/-- The writes of every recorder keep to the protocol. -/
theorem recorder_stage (hs : env.storage.Succeeds) (h : Fresh f) (inputs : List Input) :
    ∃ stage, stageOf (run env f inputs).state.effects = some stage := by
  have hstaged := @run_staged env f hs [] (.fresh h) inputs
  cases hstaged with
  | fresh hfresh => exact ⟨.before none, by rw [hfresh.effects]; rfl⟩
  | live _ _ _ hstage => exact ⟨_, hstage⟩
  | ended _ stage hstage => exact ⟨stage, hstage⟩

end run

end Prelay.Recording
