import Prelay.RecordingInvariant

namespace Prelay.Recording

open Json Bridge Rollout

/-- Every saved state holds the output items of a snapshot that was complete. -/
def SavedFrom (seen : List StreamStatsSnapshot) (effects : List Effect) : Prop :=
  ∀ insert, Effect.saveResponseState insert ∈ effects → ∃ snapshot ∈ seen, snapshot.completed = true ∧
    snapshot.responseOutputItems ≠ [] ∧ insert.responseItems = .array snapshot.responseOutputItems

def saves (effects : List Effect) : ℕ := effects.countP Effect.isSave

theorem saves_append (es fs : List Effect) : saves (es ++ fs) = saves es + saves fs := List.countP_append

theorem saves_quiet {effects : List Effect} (h : ∀ e ∈ effects, e.isSave = false) : saves effects = 0 :=
  List.countP_eq_zero.mpr (fun e he => by simp [h e he])

theorem SavedFrom.mono {seen seen' : List StreamStatsSnapshot} {effects : List Effect}
    (h : SavedFrom seen effects) (hs : seen ⊆ seen') : SavedFrom seen' effects := by
  intro insert hi
  obtain ⟨snapshot, hseen, hrest⟩ := h insert hi
  exact ⟨snapshot, hs hseen, hrest⟩

theorem SavedFrom.append_quiet {seen : List StreamStatsSnapshot} {effects new : List Effect}
    (h : SavedFrom seen effects) (hnew : ∀ e ∈ new, e.isSave = false) : SavedFrom seen (effects ++ new) := by
  intro insert hi
  rcases List.mem_append.mp hi with hi | hi
  · exact h insert hi
  · exact absurd (hnew _ hi) (by simp [Effect.isSave])

theorem saveStreamStateIfReady_cases (slot : Option StreamSession) (identityId : String)
    (snapshot : StreamStatsSnapshot) :
    ((saveStreamStateIfReady slot identityId snapshot).2 = [] ∧
      (slot = none → (saveStreamStateIfReady slot identityId snapshot).1 = none)) ∨
    ∃ insert, saveStreamStateIfReady slot identityId snapshot = (none, [insert]) ∧ slot ≠ none ∧
      snapshot.completed = true ∧ snapshot.responseOutputItems ≠ [] ∧
      insert.responseItems = .array snapshot.responseOutputItems := by
  unfold saveStreamStateIfReady
  cases slot with
  | none => exact Or.inl ⟨rfl, fun _ => rfl⟩
  | some session =>
    dsimp only
    split_ifs with hcompleted hitems
    · exact Or.inl ⟨rfl, fun h => nomatch h⟩
    · exact Or.inl ⟨rfl, fun h => nomatch h⟩
    · cases hresponse : responseFromStreamSession session snapshot with
      | none => exact Or.inl ⟨rfl, fun h => nomatch h⟩
      | some response =>
        refine Or.inr ⟨_, rfl, by simp, by simpa using hcompleted, hitems, rfl⟩

structure Live (seen : List StreamStatsSnapshot) (s : StreamRecordState) : Prop where
  inserted : s.inserted = true
  notFailed : s.failed = false
  rollout : s.rollout = true
  notFinalized : s.rolloutFinalized = false
  opened : Opened s.effects
  savedOnce : saves s.effects ≤ 1
  unsaved : s.session ≠ none → saves s.effects = 0
  savedFrom : SavedFrom seen s.effects
  current : s.stats ∈ seen

/-- A recorder whose stream is over; `rollout` tells whether it was given a turn to write to. -/
structure Over (rollout : Bool) (seen : List StreamStatsSnapshot) (s : StreamRecordState) : Prop where
  ended : Ended s.effects
  written : rollout = true → s.effects ≠ []
  savedOnce : saves s.effects ≤ 1
  savedFrom : SavedFrom seen s.effects

namespace StreamRecordState

theorem finalizeRollout_effects {env : Env} (hs : env.storage.Succeeds) (s : StreamRecordState)
    (status : RolloutStatus) (httpStatus : Option ℕ) (code message : Option String)
    (hr : s.rollout = true) (hf : s.rolloutFinalized = false) (hi : s.inserted = true) :
    ∃ tail, Closing status tail ∧
      (s.finalizeRollout env status httpStatus code message).effects = s.effects ++ tail := by
  obtain ⟨-, -, happend, hfinish⟩ := hs
  have hany : (s.closingEvents env httpStatus code message).any
      (fun event => !env.storage.appendContent event) = false := by
    simp [happend]
  refine ⟨(s.closingEvents env httpStatus code message).map .appendContent ++
    [.finishWith status httpStatus code message, .completeStream], ⟨_, httpStatus, code, message, rfl⟩, ?_⟩
  simp [finalizeRollout, hf, hr, hany, finalRolloutStatus, hfinish, emit, hi]

theorem finalizeRollout_failed {env : Env} (s : StreamRecordState) (status : RolloutStatus)
    (httpStatus : Option ℕ) (code message : Option String) :
    (s.finalizeRollout env status httpStatus code message).failed = s.failed := by
  simp only [finalizeRollout]
  split_ifs <;> rfl

end StreamRecordState

namespace Live

open StreamRecordState

variable {env : Env} {rollout : Bool} {seen : List StreamStatsSnapshot} {s : StreamRecordState}

theorem withStats (h : Live seen s) (stats : StreamStatsSnapshot) :
    Live (stats :: seen) { s with stats := stats } where
  inserted := h.inserted
  notFailed := h.notFailed
  rollout := h.rollout
  notFinalized := h.notFinalized
  opened := h.opened
  savedOnce := h.savedOnce
  unsaved := h.unsaved
  savedFrom := h.savedFrom.mono (List.subset_cons_self stats seen)
  current := List.mem_cons_self

theorem mono {seen' : List StreamStatsSnapshot} (h : Live seen s) (hs : seen ⊆ seen') : Live seen' s :=
  ⟨h.inserted, h.notFailed, h.rollout, h.notFinalized, h.opened, h.savedOnce, h.unsaved, h.savedFrom.mono hs,
    hs h.current⟩

theorem withCapture (h : Live seen s) (capture : Option RawStreamContentCapture) :
    Live seen { s with contentCapture := capture } :=
  ⟨h.inserted, h.notFailed, h.rollout, h.notFinalized, h.opened, h.savedOnce, h.unsaved, h.savedFrom, h.current⟩

theorem recordFinalUsage (h : Live seen s) : Live seen s.recordFinalUsage := by
  unfold StreamRecordState.recordFinalUsage
  split_ifs with hu
  · exact h
  · refine ⟨h.inserted, h.notFailed, h.rollout, h.notFinalized, h.opened.append ?_, ?_, ?_,
      h.savedFrom.append_quiet ?_, h.current⟩
    · simp [Effect.activityStatus, Effect.isFinish]
    · simpa [update, emit, saves_append, saves, Effect.isSave] using h.savedOnce
    · intro hsession
      simpa [update, emit, saves_append, saves, Effect.isSave] using h.unsaved hsession
    · simp [Effect.isSave]

theorem saveSessionIfReady (h : Live seen s) : Live seen s.saveSessionIfReady := by
  unfold StreamRecordState.saveSessionIfReady
  rcases saveStreamStateIfReady_cases s.session s.identityId s.stats with ⟨hnone, hslot⟩ | ⟨insert, hsave, hslot,
    hcompleted, hitems, hinsert⟩
  · simp only [hnone, List.map_nil, emit, List.append_nil]
    refine ⟨h.inserted, h.notFailed, h.rollout, h.notFinalized, h.opened, h.savedOnce, ?_, h.savedFrom, h.current⟩
    intro hsession
    exact h.unsaved (fun hs => hsession (hslot hs))
  · have hunsaved := h.unsaved hslot
    simp only [hsave, List.map_cons, List.map_nil, emit]
    refine ⟨h.inserted, h.notFailed, h.rollout, h.notFinalized, h.opened.append ?_, ?_, ?_, ?_, h.current⟩
    · simp [Effect.activityStatus, Effect.isFinish]
    · rw [saves_append, hunsaved]
      simp [saves, Effect.isSave]
    · simp
    · intro other hother
      rcases List.mem_append.mp hother with hother | hother
      · exact h.savedFrom other hother
      · obtain rfl : other = insert := by simpa using hother
        exact ⟨s.stats, h.current, hcompleted, hitems, hinsert⟩

theorem closed {status : ActivityStatus} {rolloutStatus : RolloutStatus} {update : StreamActivityUpdate}
    {tail : List Effect} {t : StreamRecordState} (h : Live seen s) (hu : update.status = some status)
    (hstatus : status = .success ∧ rolloutStatus = .completed ∨ status = .failed ∧ rolloutStatus = .failed)
    (ht : Closing rolloutStatus tail) (heffects : t.effects = s.effects ++ .updateStream update :: tail) :
    Over rollout seen t := by
  have hquiet : ∀ e ∈ Effect.updateStream update :: tail, e.isSave = false := by
    intro e he
    rcases List.mem_cons.mp he with rfl | he
    · rfl
    · exact (ht.quiet e he).2
  refine ⟨?_, fun _ => by simp [heffects], ?_, ?_⟩
  · rw [heffects]
    rcases hstatus with ⟨rfl, rfl⟩ | ⟨rfl, rfl⟩
    · exact .succeeded _ _ _ h.opened hu ht
    · exact .failed _ _ _ h.opened hu ht
  · rw [heffects, saves_append, saves_quiet hquiet]
    exact h.savedOnce
  · rw [heffects]
    exact h.savedFrom.append_quiet hquiet

theorem failedOver (hs : env.storage.Succeeds) (h : Live seen s) (update : StreamActivityUpdate)
    (hu : update.status = some .failed) (httpStatus : Option ℕ) (code message : Option String) :
    Over rollout seen (({ s with failed := true, session := none }.emit [.updateStream update]).finalizeRollout env .failed
      httpStatus code message) := by
  obtain ⟨tail, ht, htail⟩ := finalizeRollout_effects hs
    ({ s with failed := true, session := none }.emit [.updateStream update]) .failed httpStatus code message
    h.rollout h.notFinalized h.inserted
  refine h.closed hu (Or.inr ⟨rfl, rfl⟩) ht ?_
  rw [htail]
  simp [emit]

theorem recordStreamError (hs : env.storage.Succeeds) (h : Live seen s) (message : String) :
    Over rollout seen (s.recordStreamError env message) :=
  h.failedOver hs _ rfl _ _ _

theorem recordDownstreamDisconnect (hs : env.storage.Succeeds) (h : Live seen s) :
    Over rollout seen (s.recordDownstreamDisconnect env) := by
  unfold StreamRecordState.recordDownstreamDisconnect
  simp only [h.notFailed, Bool.false_eq_true, ↓reduceIte]
  exact h.failedOver hs _ rfl _ _ _

theorem recordStreamEnd (hs : env.storage.Succeeds) (h : Live seen s) : Over rollout seen (s.recordStreamEnd env) := by
  unfold StreamRecordState.recordStreamEnd
  simp only [h.inserted, h.notFailed, Bool.not_true, Bool.false_eq_true, ↓reduceIte]
  split_ifs with hcompleted
  · exact h.recordStreamError hs _
  · have hsaved := h.saveSessionIfReady
    obtain ⟨tail, ht, htail⟩ := finalizeRollout_effects hs
      (s.saveSessionIfReady.update (some .success) 200 none none) .completed (some 200) none none
      hsaved.rollout hsaved.notFinalized hsaved.inserted
    refine hsaved.closed ?_ (Or.inl ⟨rfl, rfl⟩) ht (htail.trans (List.append_assoc _ [_] tail))
    rfl

theorem observeItem_ok (h : Live seen s) (chunk : Bytes) : Live seen (s.observeItem env (.ok chunk)) := by
  have hcapture := h.withCapture (s.contentCapture.map (fun capture => capture.observeChunk env.serde chunk))
  have hlive : (s.inserted && !s.failed) = true := by simp [h.inserted, h.notFailed]
  unfold StreamRecordState.observeItem
  dsimp only
  rw [if_pos hlive]
  exact hcapture.recordFinalUsage.saveSessionIfReady

theorem observeItem_error (hs : env.storage.Succeeds) (h : Live seen s) (error : String) :
    Over rollout seen (s.observeItem env (.error error)) := by
  have hfailed : (s.recordStreamError env error).failed = true := finalizeRollout_failed _ _ _ _ _
  unfold StreamRecordState.observeItem
  simp only [h.inserted, h.notFailed, Bool.not_true, Bool.false_eq_true, ↓reduceIte, hfailed, Bool.and_false]
  exact h.recordStreamError hs error

end Live

open StreamRecordState

structure Fresh (f : Forwarding) : Prop where
  started : f.started = false
  finished : f.finished = false
  log : f.state.log ≠ none
  inserted : f.state.inserted = false
  notFailed : f.state.failed = false
  notFinalized : f.state.rolloutFinalized = false
  effects : f.state.effects = []

inductive Recorded (rollout : Bool) (inputs : List Input) (f : Forwarding) : Prop
  | fresh (h : Fresh f) (hr : f.state.rollout = rollout)
  | live (hs : f.started = true) (hf : f.finished = false) (h : Live (inputs.map Input.stats) f.state)
  | ended (hf : f.finished = true) (h : Over rollout (inputs.map Input.stats) f.state)

variable {env : Env}

theorem over_refused (s : StreamRecordState) (seen : List StreamStatsSnapshot) (h : s.effects = []) :
    Over false seen s := by
  refine ⟨h ▸ Ended.refused, by simp, by simp [h, saves], fun insert hi => ?_⟩
  rw [h] at hi
  exact nomatch hi

theorem prepareStream_error (hs : env.storage.Succeeds) {f : Forwarding} (h : Fresh f) (hr : f.state.rollout = true)
    (error : String) (stats : StreamStatsSnapshot) (delivered : Bool) :
    ∃ log tail, log.status = .failed ∧ Closing .failed tail ∧
      (prepareStream env f (.item (.error error) stats delivered)).finished = true ∧
      (prepareStream env f (.item (.error error) stats delivered)).state.effects = .startStream log :: tail := by
  obtain ⟨log, hlog⟩ := Option.ne_none_iff_exists'.mp h.log
  have hok : ({ f.state with stats := stats }.start env (.error error)).2 = true := by
    simp [start, hlog, hr, hs.1, emit]
  generalize hst : ({ f.state with stats := stats }.start env (.error error)).1 = st
  have hstate : st.inserted = true ∧ st.failed = true ∧ st.rollout = true ∧ st.rolloutFinalized = false ∧
      ∃ log, log.status = .failed ∧ st.effects = [.startStream log] := by
    subst hst
    simp [start, hlog, hr, hs.1, emit, h.effects, h.notFinalized]
  obtain ⟨hinserted, hfailed, hrollout, hfinalized, log, hstatus, heffects⟩ := hstate
  obtain ⟨tail, ht, htail⟩ := finalizeRollout_effects hs st .failed (some 502) (some "stream_error")
    (some error) hrollout hfinalized hinserted
  have hobserve : (st.observeItem env (.error error)).effects = .startStream log :: tail := by
    simp only [observeItem, hinserted, hfailed, Bool.not_true, Bool.false_eq_true, ↓reduceIte,
      finalizeRollout_failed, Bool.and_false]
    rw [htail, heffects]
    rfl
  have hprepare : prepareStream env f (.item (.error error) stats delivered) =
      { state := st.observeItem env (.error error), started := true, connected := delivered,
        finished := true } := by
    simp [prepareStream, hok, hst, isFailedItem]
  rw [hprepare]
  exact ⟨log, tail, hstatus, ht, rfl, hobserve⟩

theorem prepareStream_recorded (hs : env.storage.Succeeds) {rollout : Bool} {inputs : List Input} {f : Forwarding}
    (h : Fresh f) (hr : f.state.rollout = rollout) (input : Input) :
    Recorded rollout (input :: inputs) (prepareStream env f input) := by
  obtain ⟨log, hlog⟩ := Option.ne_none_iff_exists'.mp h.log
  cases input with
  | drainTimeout stats => exact .fresh h hr
  | ended stats =>
    cases rollout with
    | false =>
      refine .ended rfl (over_refused _ _ ?_)
      simp [prepareStream, recordEmptyStream, hlog, hr, h.effects]
    | true =>
      have heffects : (prepareStream env f (.ended stats)).state.effects = [
          .appendContent { body := .error {
            code := some "empty_stream"
            message := "upstream stream finished without chunks"
            httpStatus := some 502 } },
          .finishWith .failed (some 502) (some "empty_stream") (some "upstream stream finished without chunks"),
          .insertStreamResult { log with
            status := .failed
            httpStatus := 502
            errorCode := some "empty_stream"
            errorMessage := some "upstream stream finished without chunks" }] := by
        simp [prepareStream, recordEmptyStream, hlog, hr, h.effects, hs.2.1, hs.2.2.2, emit]
      refine .ended rfl ⟨heffects ▸ .empty _ _ _ _ _ rfl, fun _ => by simp [heffects], ?_, fun insert hi => ?_⟩
      · rw [heffects]
        simp [saves, Effect.isSave]
      · rw [heffects] at hi
        simp at hi
  | item item stats delivered =>
    cases rollout with
    | false =>
      refine .ended ?_ (over_refused _ _ ?_)
      · cases item <;> simp [prepareStream, start, hlog, hr]
      · cases item <;> simp [prepareStream, start, hlog, hr, h.effects]
    | true =>
      cases item with
      | ok chunk =>
        have hlive : Live ((Input.item (.ok chunk) stats delivered :: inputs).map Input.stats)
            ({ f.state with stats := stats }.start env (.ok chunk)).1 := by
          simp only [start, hlog, hr, hs.1, emit, Bool.not_true, Bool.false_eq_true, ↓reduceIte]
          refine ⟨rfl, h.notFailed, rfl, h.notFinalized, ⟨_, [], by rw [h.effects]; rfl, rfl, by simp⟩, ?_, ?_, ?_,
            by simp [Input.stats]⟩
          · simp [h.effects, saves, Effect.isSave]
          · intro
            simp [h.effects, saves, Effect.isSave]
          · intro insert hi
            simp [h.effects] at hi
        have hok : ({ f.state with stats := stats }.start env (.ok chunk)).2 = true := by
          simp [start, hlog, hr, hs.1, emit]
        refine .live ?_ ?_ ?_
        · simp [prepareStream, hok]
        · simp [prepareStream, hok, isFailedItem]
        · simpa [prepareStream, hok] using hlive.observeItem_ok chunk
      | error error =>
        obtain ⟨log, tail, hstatus, ht, hfinished, heffects⟩ := prepareStream_error hs h hr error stats delivered
        have hquiet : ∀ e ∈ Effect.startStream log :: tail, e.isSave = false := by
          intro e he
          rcases List.mem_cons.mp he with rfl | he
          · rfl
          · exact (ht.quiet e he).2
        refine .ended hfinished ⟨?_, fun _ => by simp [heffects], ?_, ?_⟩
        · rw [heffects]
          exact .firstFailed log tail hstatus ht
        · rw [heffects, saves_quiet hquiet]
          exact Nat.zero_le 1
        · rw [heffects]
          intro insert hi
          exact absurd (hquiet _ hi) (by simp [Effect.isSave])

theorem forwardStep_recorded (hs : env.storage.Succeeds) {rollout : Bool} {inputs : List Input} {f : Forwarding}
    (hstarted : f.started = true) (hfinished : f.finished = false) (h : Live (inputs.map Input.stats) f.state)
    (input : Input) : Recorded rollout (input :: inputs) (forwardStep env f input) := by
  have hseen := h.withStats input.stats
  cases input with
  | item item stats delivered =>
    cases item with
    | ok chunk => exact .live hstarted rfl (hseen.observeItem_ok chunk)
    | error error => exact .ended rfl (hseen.observeItem_error hs error)
  | ended stats =>
    cases hc : f.connected with
    | true =>
      simp only [forwardStep, hc, ↓reduceIte]
      exact .ended rfl (hseen.recordStreamEnd hs)
    | false =>
      simp only [forwardStep, hc, Bool.false_eq_true, ↓reduceIte]
      exact .ended rfl (hseen.recordDownstreamDisconnect hs)
  | drainTimeout stats =>
    cases hc : f.connected with
    | true =>
      simp only [forwardStep, hc, ↓reduceIte]
      exact .live hstarted hfinished (h.mono (List.subset_cons_self _ _))
    | false =>
      simp only [forwardStep, hc, Bool.false_eq_true, ↓reduceIte]
      exact .ended rfl (hseen.recordDownstreamDisconnect hs)

theorem step_recorded (hs : env.storage.Succeeds) {rollout : Bool} {inputs : List Input} {f : Forwarding}
    (h : Recorded rollout inputs f) (input : Input) : Recorded rollout (input :: inputs) (step env f input) := by
  cases h with
  | fresh h hr =>
    simp only [step, h.finished, h.started, Bool.false_eq_true, ↓reduceIte]
    exact prepareStream_recorded hs h hr input
  | live hstarted hfinished h =>
    simp only [step, hfinished, hstarted, Bool.false_eq_true, ↓reduceIte]
    exact forwardStep_recorded hs hstarted hfinished h input
  | ended hfinished h =>
    simp only [step, hfinished, ↓reduceIte]
    exact .ended hfinished ⟨h.ended, h.written, h.savedOnce, h.savedFrom.mono (List.subset_cons_self _ _)⟩

theorem run_recorded (hs : env.storage.Succeeds) {rollout : Bool} {seen : List Input} {f : Forwarding}
    (h : Recorded rollout seen f) (inputs : List Input) :
    Recorded rollout (inputs.reverse ++ seen) (run env f inputs) := by
  induction inputs generalizing seen f with
  | nil => exact h
  | cons input inputs ih =>
    rw [List.reverse_cons, List.append_assoc]
    exact ih (step_recorded hs h input)

theorem Recorded.status_iff {rollout : Bool} {inputs : List Input} {f : Forwarding} (h : Recorded rollout inputs f)
    (hfinished : f.finished = true) : activityStatus f.state.effects = some .success ↔
      f.state.effects.any (Effect.finishesAs .completed) = true := by
  cases h with
  | fresh h hr => exact absurd hfinished (by simp [h.finished])
  | live hstarted hopen h => exact absurd hfinished (by simp [hopen])
  | ended hended h => exact h.ended.status_iff

theorem recorder_fresh (identityId : String) (log : ActivityInsert) (capture : Option RawStreamContentCapture)
    (rollout : Bool) (session : Option StreamSession) (mode : RecordingMode) :
    Fresh (recorder identityId log capture rollout session mode) :=
  ⟨rfl, rfl, by simp [recorder], rfl, rfl, rfl, rfl⟩

def Terminates (f : Forwarding) : Input → Prop
  | .item item _ _ => isFailedItem item = true
  | .ended _ => True
  | .drainTimeout _ => f.started = true ∧ f.connected = false

theorem step_finished {f : Forwarding} {input : Input} (hends : Terminates f input) :
    (step env f input).finished = true := by
  unfold step
  by_cases hfinished : f.finished = true
  · rw [if_pos hfinished]
    exact hfinished
  · rw [if_neg hfinished]
    cases input with
    | item item stats delivered =>
      by_cases hstarted : f.started = true
      · rw [if_pos hstarted]
        exact hends
      · rw [if_neg hstarted, prepareStream]
        cases ({ f.state with stats := stats } : StreamRecordState).start env item with
        | mk state ok => cases ok with
          | false => rfl
          | true => exact hends
    | ended stats =>
      by_cases hstarted : f.started = true
      · rw [if_pos hstarted]
        rfl
      · rw [if_neg hstarted]
        rfl
    | drainTimeout stats =>
      obtain ⟨hstarted, hconnected⟩ := hends
      rw [if_pos hstarted, forwardStep, hconnected]
      rfl

theorem run_finished (env : Env) {f : Forwarding} (h : f.finished = true) (inputs : List Input) :
    run env f inputs = f := by
  induction inputs with
  | nil => rfl
  | cons input inputs ih => simpa [run, step, h] using ih

/-- A failed item, the end of the stream and the end of the wait for it close a turn. The turn is finished once,
nothing succeeds or is saved behind a failure, one state at most is saved and only from complete output items, and the
row and the turn agree on success. -/
theorem recording_consistent (hs : env.storage.Succeeds) (identityId : String) (log : ActivityInsert)
    (capture : Option RawStreamContentCapture) (rollout : Bool) (session : Option StreamSession)
    (mode : RecordingMode) (inputs : List Input) :
    let f := run env (recorder identityId log capture rollout session mode) inputs
    (∀ before input after, inputs = before ++ input :: after →
      Terminates (run env (recorder identityId log capture rollout session mode) before) input → f.finished = true) ∧
    (f.finished = true → rollout = true → f.state.effects.countP Effect.isFinish = 1) ∧
    NoneAfterFailure (fun e => e.activityStatus = some .success) f.state.effects ∧
    f.state.effects.countP Effect.isSave ≤ 1 ∧
    NoneAfterFailure (fun e => e.isSave = true) f.state.effects ∧
    (∀ insert, Effect.saveResponseState insert ∈ f.state.effects → ∃ input ∈ inputs,
      input.stats.completed = true ∧ input.stats.responseOutputItems ≠ [] ∧
      insert.responseItems = .array input.stats.responseOutputItems) ∧
    (f.finished = true → (activityStatus f.state.effects = some .success ↔
      f.state.effects.any (Effect.finishesAs .completed) = true)) := by
  intro f
  refine ⟨?_, ?_⟩
  · rintro before input after rfl hends
    have hlast := @step_finished env _ _ hends
    have hrun : f = step env (run env (recorder identityId log capture rollout session mode) before) input := by
      rw [← run_finished env hlast after]
      exact List.foldl_append
    rw [hrun]
    exact hlast
  have hfresh : Recorded rollout [] (recorder identityId log capture rollout session mode) :=
    .fresh (recorder_fresh identityId log capture rollout session mode) rfl
  have hrecorded := run_recorded hs hfresh inputs
  rw [List.append_nil] at hrecorded
  have hsaved : ∀ {effects : List Effect}, SavedFrom (inputs.reverse.map Input.stats) effects →
      ∀ insert, Effect.saveResponseState insert ∈ effects → ∃ input ∈ inputs, input.stats.completed = true ∧
        input.stats.responseOutputItems ≠ [] ∧ insert.responseItems = .array input.stats.responseOutputItems := by
    intro effects hfrom insert hi
    obtain ⟨snapshot, hseen, hrest⟩ := hfrom insert hi
    obtain ⟨input, hinput, rfl⟩ := List.mem_map.mp hseen
    exact ⟨input, List.mem_reverse.mp hinput, hrest⟩
  change Recorded rollout inputs.reverse f at hrecorded
  have hstatus := hrecorded.status_iff
  cases hrecorded with
  | fresh h hr =>
    simp [h.effects, h.finished, NoneAfterFailure]
  | live hstarted hfinished h =>
    have hnone : ∀ bad, NoneAfterFailure bad f.state.effects := fun bad =>
      List.pairwise_of_forall_mem_list
        (fun a ha b hb hfail => absurd hfail (h.opened.not_failed a ha).1)
    exact ⟨by simp [hfinished], hnone _, h.savedOnce, hnone _, hsaved h.savedFrom, hstatus⟩
  | ended hfinished h =>
    have hnone := h.ended.noneAfterFailure
    refine ⟨fun _ hr => h.ended.finished_once (h.written hr), ?_, h.savedOnce, ?_, hsaved h.savedFrom, hstatus⟩
    · exact hnone.imp (fun hab hfail hbad => hab hfail (Or.inl hbad))
    · exact hnone.imp (fun hab hfail hbad => hab hfail (Or.inr hbad))

theorem recording_consistent_completed_stream :
    let env : Env := { serde := Text.codec, streamCapture := fun _ => [], streamSnapshot := fun _ => [] }
    let f := run env (recorder "user" { status := .streaming, httpStatus := 200 } none true none .required)
      [.item (.ok []) {} true, .ended { completed := true }]
    f.finished = true ∧ f.state.effects.countP Effect.isFinish = 1 ∧
      (activityStatus f.state.effects = some .success ↔ f.state.effects.any (Effect.finishesAs .completed) = true) := by
  intro env f
  obtain ⟨hfinished, honce, -, -, -, -, hstatus⟩ := @recording_consistent env ⟨rfl, rfl, fun _ => rfl, rfl⟩ "user"
    { status := .streaming, httpStatus := 200 } none true none .required
    [.item (.ok []) {} true, .ended { completed := true }]
  have hended : f.finished = true := hfinished [.item (.ok []) {} true] (.ended { completed := true }) [] rfl trivial
  exact ⟨hended, honce hended rfl, hstatus hended⟩

end Prelay.Recording
