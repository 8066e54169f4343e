import Prelay.RecordingInvariant
import Prelay.StreamPipeline

namespace Prelay.Recording

open Json Bridge Rollout

variable {σ ω : Type}

def recordingInputs (d : ByteStreamDecoder σ ω) (bytes : ω → Bytes) (s : σ)
    (upstream : List (Except String Bytes)) : List Input :=
  (mapResponseStream d s upstream).map (fun p => .item (p.1.map bytes) p.2 true) ++
    [.ended (finalStats d s upstream)]

def Effect.savedState? : Effect → Option ResponseStateInsert
  | .saveResponseState insert => some insert
  | _ => none

def savedStates (effects : List Effect) : List ResponseStateInsert := effects.filterMap Effect.savedState?

theorem savedStates_append (es fs : List Effect) : savedStates (es ++ fs) = savedStates es ++ savedStates fs :=
  List.filterMap_append

def sessionSaves (identityId : String) : Option StreamSession → List StreamStatsSnapshot →
    List ResponseStateInsert
  | _, [] => []
  | slot, snapshot :: snapshots =>
    (saveStreamStateIfReady slot identityId snapshot).2 ++
      sessionSaves identityId (saveStreamStateIfReady slot identityId snapshot).1 snapshots

theorem sessionSaves_none (identityId : String) (snapshots : List StreamStatsSnapshot) :
    sessionSaves identityId none snapshots = [] := by
  induction snapshots with
  | nil => rfl
  | cons snapshot snapshots ih => exact ih

theorem sessionSaves_some (identityId : String) (session : StreamSession)
    (hid : Str.trim session.responseId ≠ "") (snapshots : List StreamStatsSnapshot) :
    match snapshots.find? (fun snapshot => snapshot.completed) with
    | none => sessionSaves identityId (some session) snapshots = []
    | some snapshot =>
      if snapshot.responseOutputItems = [] then sessionSaves identityId (some session) snapshots = []
      else ∃ insert, sessionSaves identityId (some session) snapshots = [insert] ∧
        insert.responseId = session.responseId ∧ insert.responseItems = .array snapshot.responseOutputItems := by
  induction snapshots with
  | nil => rfl
  | cons snapshot snapshots ih =>
    cases hcompleted : snapshot.completed with
    | false =>
      have hsave : saveStreamStateIfReady (some session) identityId snapshot = (some session, []) := by
        simp [saveStreamStateIfReady, hcompleted]
      rw [List.find?_cons_of_neg (by simp [hcompleted])]
      simpa only [sessionSaves, hsave, List.nil_append] using ih
    | true =>
      rw [List.find?_cons_of_pos hcompleted]
      by_cases hitems : snapshot.responseOutputItems = []
      · have hsave : saveStreamStateIfReady (some session) identityId snapshot = (none, []) := by
          simp [saveStreamStateIfReady, hcompleted, hitems]
        simp [sessionSaves, hsave, hitems, sessionSaves_none]
      · have hresponse : ∃ response, responseFromStreamSession session snapshot = some response := by
          simp [responseFromStreamSession, hcompleted, hid]
        obtain ⟨response, hresponse⟩ := hresponse
        have hsave : saveStreamStateIfReady (some session) identityId snapshot =
            (none, [responseStateInsert identityId session response snapshot]) := by
          simp [saveStreamStateIfReady, hcompleted, hitems, hresponse]
        simp only [sessionSaves, hsave, sessionSaves_none, List.append_nil, hitems, ↓reduceIte]
        exact ⟨_, rfl, rfl, rfl⟩

namespace StreamRecordState

variable (env : Env)

theorem savedStates_update (s : StreamRecordState) (status : Option ActivityStatus) (httpStatus : ℕ)
    (code message : Option String) :
    savedStates (s.update status httpStatus code message).effects = savedStates s.effects := by
  rw [update, emit, savedStates_append]
  exact List.append_nil _

theorem savedStates_finalizeRollout (s : StreamRecordState) (status : RolloutStatus) (httpStatus : Option ℕ)
    (code message : Option String) :
    savedStates (s.finalizeRollout env status httpStatus code message).effects = savedStates s.effects := by
  have hdrafts : ∀ drafts : List ContentDraft, savedStates (drafts.map .appendContent) = [] := by
    intro drafts
    simp [savedStates, Effect.savedState?]
  simp only [finalizeRollout]
  split_ifs <;>
    simp [emit, markRolloutIncomplete, update, savedStates_append, hdrafts] <;>
    simp [savedStates, Effect.savedState?]

structure Observing (s : StreamRecordState) (slot : Option StreamSession) (saved : List ResponseStateInsert)
    (identityId : String) : Prop where
  inserted : s.inserted = true
  notFailed : s.failed = false
  noCapture : s.contentCapture = none
  identity : s.identityId = identityId
  session : s.session = slot
  states : savedStates s.effects = saved

variable {env} {s : StreamRecordState} {slot : Option StreamSession} {saved : List ResponseStateInsert}
  {identityId : String}

theorem Observing.recordFinalUsage (h : Observing s slot saved identityId) :
    Observing s.recordFinalUsage slot saved identityId := by
  unfold StreamRecordState.recordFinalUsage
  split_ifs
  · exact h
  · refine ⟨h.inserted, h.notFailed, h.noCapture, h.identity, h.session, ?_⟩
    rw [savedStates_update]
    exact h.states

theorem Observing.saveSessionIfReady (h : Observing s slot saved identityId) :
    Observing s.saveSessionIfReady (saveStreamStateIfReady slot identityId s.stats).1
      (saved ++ (saveStreamStateIfReady slot identityId s.stats).2) identityId := by
  have hinserts : ∀ inserts : List ResponseStateInsert,
      savedStates (inserts.map .saveResponseState) = inserts := by
    intro inserts
    simp [savedStates, List.filterMap_map, Function.comp_def, Effect.savedState?]
  unfold StreamRecordState.saveSessionIfReady
  rw [h.session]
  refine ⟨h.inserted, h.notFailed, h.noCapture, h.identity, by rw [← h.identity]; rfl, ?_⟩
  simp only [emit, savedStates_append, hinserts, h.states, h.identity]

theorem Observing.withStats (h : Observing s slot saved identityId) (stats : StreamStatsSnapshot) :
    Observing { s with stats := stats } slot saved identityId :=
  ⟨h.inserted, h.notFailed, h.noCapture, h.identity, h.session, h.states⟩

variable (env)

theorem Observing.observeItem (h : Observing s slot saved identityId) (chunk : Bytes) :
    Observing (s.observeItem env (.ok chunk)) (saveStreamStateIfReady slot identityId s.stats).1
      (saved ++ (saveStreamStateIfReady slot identityId s.stats).2) identityId := by
  have hlive : (s.inserted && !s.failed) = true := by simp [h.inserted, h.notFailed]
  have hstats : ∀ t : StreamRecordState, t.recordFinalUsage.stats = t.stats := by
    intro t
    unfold StreamRecordState.recordFinalUsage
    split_ifs <;> rfl
  have hcapture : Observing
      { s with contentCapture := s.contentCapture.map (fun capture => capture.observeChunk env.serde chunk) }
      slot saved identityId :=
    ⟨h.inserted, h.notFailed, by simp [h.noCapture], h.identity, h.session, h.states⟩
  have hsaved := hcapture.recordFinalUsage.saveSessionIfReady
  rw [hstats] at hsaved
  unfold StreamRecordState.observeItem
  dsimp only
  rw [if_pos hlive]
  exact hsaved

theorem Observing.recordStreamEnd (h : Observing s slot saved identityId) (hcompleted : s.stats.completed = true) :
    savedStates (s.recordStreamEnd env).effects = saved ++ (saveStreamStateIfReady slot identityId s.stats).2 := by
  have hdone : s.streamCompleted = true := by
    simp [streamCompleted, h.noCapture, hcompleted]
  unfold StreamRecordState.recordStreamEnd
  rw [if_neg (by simp [h.inserted]), if_neg (by simp [h.notFailed]), if_neg (by simp [hdone])]
  dsimp only
  rw [savedStates_finalizeRollout, savedStates_update]
  exact h.saveSessionIfReady.states

end StreamRecordState

open StreamRecordState

variable {env : Env} {identityId : String}

theorem run_observing (env : Env) (items : List (Bytes × StreamStatsSnapshot)) (final : StreamStatsSnapshot)
    (hc : final.completed = true) (f : Forwarding) (slot : Option StreamSession)
    (saved : List ResponseStateInsert) (hstarted : f.started = true) (hconnected : f.connected = true)
    (hfinished : f.finished = false) (h : Observing f.state slot saved identityId) :
    savedStates (run env f (items.map (fun p => .item (.ok p.1) p.2 true) ++ [.ended final])).state.effects =
      saved ++ sessionSaves identityId slot (items.map Prod.snd ++ [final]) := by
  induction items generalizing f slot saved with
  | nil =>
    have hend := (h.withStats final).recordStreamEnd env hc
    simpa [run, step, hstarted, hconnected, hfinished, forwardStep, sessionSaves] using hend
  | cons item items ih =>
    obtain ⟨chunk, stats⟩ := item
    have hitem := ih (forwardStep env f (.item (.ok chunk) stats true)) _ _ hstarted
      (by simp [forwardStep, hconnected]) rfl ((h.withStats stats).observeItem env chunk)
    simp only [run, List.map_cons, List.cons_append, List.foldl_cons, sessionSaves, ← List.append_assoc] at hitem ⊢
    rw [← hitem]
    simp [step, hstarted, hfinished]

theorem start_observing (identityId : String) (hs : env.storage.Succeeds) (log : ActivityInsert)
    (session : Option StreamSession)
    (mode : RecordingMode) (stats : StreamStatsSnapshot) (chunk : Bytes) :
    ∃ s, { (recorder identityId log none true session mode).state with stats := stats }.start env (.ok chunk) =
      (s, true) ∧ Observing s session [] identityId ∧ s.stats = stats := by
  simp only [recorder, start, Bool.not_true, Bool.false_eq_true, ↓reduceIte, hs.1]
  exact ⟨_, rfl, ⟨rfl, rfl, rfl, rfl, rfl, rfl⟩, rfl⟩

theorem run_savedStates (identityId : String) (hs : env.storage.Succeeds) (log : ActivityInsert)
    (session : Option StreamSession)
    (mode : RecordingMode) (item : Bytes × StreamStatsSnapshot) (items : List (Bytes × StreamStatsSnapshot))
    (final : StreamStatsSnapshot) (hc : final.completed = true) :
    savedStates (run env (recorder identityId log none true session mode)
      ((item :: items).map (fun p => .item (.ok p.1) p.2 true) ++ [.ended final])).state.effects =
      sessionSaves identityId session ((item :: items).map Prod.snd ++ [final]) := by
  obtain ⟨chunk, stats⟩ := item
  obtain ⟨s, hstart, hobserving, rfl⟩ := start_observing identityId hs log session mode stats chunk
  have hprepare : prepareStream env (recorder identityId log none true session mode)
      (.item (.ok chunk) s.stats true) = ⟨s.observeItem env (.ok chunk), true, true, false⟩ := by
    simp [prepareStream, hstart, isFailedItem]
  have hrun := run_observing env items final hc ⟨s.observeItem env (.ok chunk), true, true, false⟩ _ _ rfl rfl rfl
    (hobserving.observeItem env chunk)
  rw [← hprepare] at hrun
  exact hrun

end Prelay.Recording
