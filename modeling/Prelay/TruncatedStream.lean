import Prelay.BridgeStream
import Prelay.RecordingStatus
import Prelay.StreamPersistence

namespace Prelay.Bridge

open Json Recording

section pipeline

variable {σ ω : Type} (d : ByteStreamDecoder σ ω) (bytes : ω → Bytes)

def recordedItems (s : σ) (upstream : List (Except String Bytes)) :
    List (Except String Bytes × StreamStatsSnapshot) :=
  (mapResponseStream d s upstream).map (fun p => (p.1.map bytes, p.2))

theorem recordingInputs_eq (s : σ) (upstream : List (Except String Bytes)) :
    recordingInputs d bytes s upstream = listenedInputs (recordedItems d bytes s upstream) (finalStats d s upstream) := by
  simp [recordingInputs, listenedInputs, recordedItems, Function.comp_def]

theorem recordedItems_failed (s : σ) (upstream : List (Except String Bytes)) :
    (recordedItems d bytes s upstream).any (fun p => isFailedItem p.1) = upstream.any isFailedItem := by
  induction upstream generalizing s with
  | nil => simp [recordedItems, mapResponseStream, Function.comp_def, Except.map, isFailedItem]
  | cons item upstream ih =>
    cases item with
    | ok chunk =>
      rw [List.any_cons, ← ih (d.pushChunk s chunk).1]
      simp [recordedItems, mapResponseStream, Function.comp_def, Except.map, isFailedItem]
    | error error => simp [recordedItems, mapResponseStream, Except.map, isFailedItem]

theorem finalStats_invariant (P : σ → Prop) (hpush : ∀ s chunk, P s → P (d.pushChunk s chunk).1)
    (hfinish : ∀ s, P s → (d.stats (d.finish s).1).completed = true) (s : σ) (h : P s)
    (upstream : List (Except String Bytes)) : (finalStats d s upstream).completed = true := by
  induction upstream generalizing s with
  | nil => exact hfinish s h
  | cons item upstream ih =>
    cases item with
    | ok chunk => exact ih _ (hpush s chunk h)
    | error error => exact ih s h

end pipeline

namespace ChatToResponses

@[simp]
theorem processInternalEvents_completed (st : ChatToResponses) (events : List InternalStreamEvent) :
    (st.processInternalEvents events).1.completed = st.completed := by
  induction events generalizing st with
  | nil => rfl
  | cons event events ih => simp [processInternalEvents, ih]

def CompletionRecorded (st : ChatToResponses) : Prop := st.completed = true → st.stats.completed = true

variable (serde : SerdeJson)

theorem processEvent_completionRecorded (st : ChatToResponses) (data : String) (h : st.CompletionRecorded) :
    (st.processEvent serde data).1.CompletionRecorded := by
  unfold processEvent
  split_ifs with hcompleted hdone
  · exact h
  · exact fun _ => (finishResponse_spec _).2.1
  · intro hafter
    rw [processInternalEvents_completed] at hafter
    exact absurd hafter hcompleted

theorem finishResponse_ne_nil (st : ChatToResponses) : st.finishResponse.2 ≠ [] := by
  intro hnil
  have hone := (finishResponse_spec st).1
  rw [hnil] at hone
  exact nomatch hone

/-- Completion is never silent: the end marker sends the closing events. -/
theorem handleAll_silent (st : ChatToResponses) (datas : List String) (h : st.completed = false)
    (hsilent : (Sse.handleAll (processEvent serde) st datas).2 = []) :
    (Sse.handleAll (processEvent serde) st datas).1.completed = false := by
  induction datas generalizing st with
  | nil => exact h
  | cons data datas ih =>
    simp only [Sse.handleAll, List.append_eq_nil_iff] at hsilent ⊢
    refine ih _ ?_ hsilent.2
    have hfirst := hsilent.1
    unfold processEvent at hfirst ⊢
    simp only [h, Bool.false_eq_true, ↓reduceIte] at hfirst ⊢
    split_ifs at hfirst ⊢ with hdone
    · exact absurd hfirst (finishResponse_ne_nil _)
    · rw [processInternalEvents_completed, h]

end ChatToResponses

namespace ChatStats

def CompletionRecorded (st : ChatStats) : Prop := st.completed = true → st.stats.completed = true

theorem complete_recorded (st : ChatStats) (h : st.CompletionRecorded) : st.complete.stats.completed = true := by
  unfold complete
  split_ifs with hcompleted
  · exact h hcompleted
  · simp [StreamStatsSnapshot.recordEvents_completed, InternalStreamEvent.isFinished]

theorem processEvent_completionRecorded (serde : SerdeJson) (st : ChatStats) (data : String)
    (h : st.CompletionRecorded) : (st.processEvent serde data).CompletionRecorded := by
  unfold processEvent
  split_ifs with hdone
  · exact fun _ => st.complete_recorded h
  · generalize internalEventsOf serde data = events
    induction events generalizing st with
    | nil => exact h
    | cons event events ih =>
      refine ih _ (fun hcompleted => ?_)
      have hbefore : st.stats.completed = true := h (by cases event <;> exact hcompleted)
      cases event <;> simp [record, takeToolCallDelta, StreamStatsSnapshot.recordEvent_completed, hbefore]

end ChatStats

variable (serde : SerdeJson)

theorem handleAll_invariant {σ ω : Type} {handle : σ → String → σ × List ω} {P : σ → Prop}
    (h : ∀ s data, P s → P (handle s data).1) (s : σ) (hs : P s) (datas : List String) :
    P (Sse.handleAll handle s datas).1 := by
  induction datas generalizing s with
  | nil => exact hs
  | cons data datas ih => exact ih _ (h s data hs)

theorem flushEvent_invariant {σ ω : Type} {handle : σ → String → σ × List ω} {P : σ → Prop}
    (h : ∀ s data, P s → P (handle s data).1) (r : Sse.Reader σ) (hr : P r.inner) :
    P (r.flushEvent handle).1.inner := by
  unfold Sse.Reader.flushEvent
  split_ifs
  · exact hr
  · exact h r.inner _ hr

theorem bridged_completed (responseId : String) (upstream : List (Except String Bytes)) :
    (finalStats (chatToResponsesDecoder serde) (.new responseId) upstream).completed = true := by
  have hnew : (ChatToResponsesSseDecoder.new responseId).inner.CompletionRecorded :=
    fun hcompleted => absurd hcompleted (by simp [ChatToResponsesSseDecoder.new, ChatToResponses.new])
  refine finalStats_invariant (chatToResponsesDecoder serde) (fun dec => dec.inner.CompletionRecorded) ?_ ?_ _ hnew
    upstream
  · intro dec chunk h
    simp only [chatToResponsesDecoder, ChatToResponsesSseDecoder.pushChunk, Sse.Reader.pushChunk_eq]
    exact handleAll_invariant (ChatToResponses.processEvent_completionRecorded serde) _ h _
  · intro dec h
    have htail : (ChatToResponsesSseDecoder.flushTail serde dec).1.inner.CompletionRecorded := by
      have hflush := congrArg Prod.fst (ChatToResponsesSseDecoder.flushTail_eq serde dec)
      dsimp only at hflush
      rw [hflush]
      split_ifs
      · exact h
      · exact handleAll_invariant (ChatToResponses.processEvent_completionRecorded serde) _ h _
    simp only [chatToResponsesDecoder, ChatToResponsesSseDecoder.finish]
    split_ifs with hcompleted
    · exact htail hcompleted
    · exact (ChatToResponses.finishResponse_spec _).2.1

theorem chat_completed (upstream : List (Except String Bytes)) :
    (finalStats (chatStatsDecoder serde) { inner := {} } upstream).completed = true := by
  have hevent : ∀ st data, ChatStats.CompletionRecorded st →
      (ChatSseStatsDecoder.handle serde st data).1.CompletionRecorded := by
    intro st data h
    simp only [ChatSseStatsDecoder.handle]
    exact st.processEvent_completionRecorded serde data h
  refine finalStats_invariant (chatStatsDecoder serde) (fun dec => dec.inner.CompletionRecorded) ?_ ?_ _
    (fun hcompleted => absurd hcompleted (by simp)) upstream
  · intro dec chunk h
    simp only [chatStatsDecoder, ChatSseStatsDecoder.pushChunk, Sse.Reader.pushChunk_eq]
    exact handleAll_invariant hevent _ h _
  · intro dec h
    have htail : (ChatSseStatsDecoder.flushTail serde dec).inner.CompletionRecorded := by
      unfold ChatSseStatsDecoder.flushTail
      refine flushEvent_invariant hevent _ ?_
      split_ifs
      · exact h
      · rw [Sse.Reader.processLine_eq]
        exact handleAll_invariant hevent _ h _
    simp only [chatStatsDecoder, ChatSseStatsDecoder.finish]
    exact ChatStats.complete_recorded _ htail

theorem flushTail_ne_nil (dec : ChatToResponsesSseDecoder) (h : dec.inner.completed = false)
    (hcompleted : (dec.flushTail serde).1.inner.completed = true) : (dec.flushTail serde).2 ≠ [] := by
  intro hnil
  have htail := ChatToResponsesSseDecoder.flushTail_eq serde dec
  split_ifs at htail
  · simp only [Prod.mk.injEq] at htail
    rw [htail.1, h] at hcompleted
    exact nomatch hcompleted
  · have hopen := ChatToResponses.handleAll_silent serde dec.inner (dec.scanner.trailing Sse.stripSpace) h
    rw [← htail, hcompleted] at hopen
    exact nomatch hopen hnil

theorem bridged_items_ne_nil (dec : ChatToResponsesSseDecoder) (h : dec.inner.completed = false)
    (upstream : List (Except String Bytes)) : mapResponseStream (chatToResponsesDecoder serde) dec upstream ≠ [] := by
  induction upstream generalizing dec with
  | nil =>
    rw [mapResponseStream, ne_eq, List.map_eq_nil_iff]
    simp only [chatToResponsesDecoder, ChatToResponsesSseDecoder.finish]
    split_ifs with hcompleted
    · exact flushTail_ne_nil serde dec h hcompleted
    · simp [ChatToResponses.finishResponse_ne_nil]
  | cons item upstream ih =>
    cases item with
    | error error => exact List.cons_ne_nil _ _
    | ok chunk =>
      intro hnil
      simp only [mapResponseStream, List.append_eq_nil_iff, List.map_eq_nil_iff] at hnil
      refine ih _ ?_ hnil.2
      have hsilent := hnil.1
      simp only [chatToResponsesDecoder, ChatToResponsesSseDecoder.pushChunk, Sse.Reader.pushChunk_eq] at hsilent ⊢
      exact ChatToResponses.handleAll_silent serde _ _ h hsilent

theorem chat_items_eq_nil (dec : ChatSseStatsDecoder) (upstream : List (Except String Bytes)) :
    mapResponseStream (chatStatsDecoder serde) dec upstream = [] ↔ upstream = [] := by
  cases upstream with
  | nil => simp [mapResponseStream, chatStatsDecoder, ChatSseStatsDecoder.finish]
  | cons item upstream =>
    cases item <;> simp [mapResponseStream, chatStatsDecoder, ChatSseStatsDecoder.pushChunk]

/-- No event the upstream sends is an end marker or gives a finish reason. -/
def Truncated (upstream : List (Except String Bytes)) : Prop :=
  ∀ data ∈ Sse.events Sse.stripSpace (upstream.filterMap Except.toOption),
    isDone data = false ∧ (internalEventsOf serde data).any InternalStreamEvent.isFinished = false

def chatStatus (env : Env) (identityId : String) (log : ActivityInsert) (mode : RecordingMode)
    (upstream : List (Except String Bytes)) : Option ActivityStatus :=
  activityStatus (run env (recorder identityId log none true none mode)
    (recordingInputs (chatStatsDecoder env.serde) id { inner := {} } upstream)).state.effects

def bridgedStatus (env : Env) (identityId : String) (log : ActivityInsert) (session : Option StreamSession)
    (mode : RecordingMode) (responseId : String) (upstream : List (Except String Bytes)) : Option ActivityStatus :=
  activityStatus (run env (recorder identityId log none true session mode)
    (recordingInputs (chatToResponsesDecoder env.serde) (ResponsesChunk.bytes env.serde) (.new responseId)
      upstream)).state.effects

theorem recorded_success_iff {σ ω : Type} (env : Env) (hs : env.storage.Succeeds) (identityId : String)
    (log : ActivityInsert) (session : Option StreamSession) (mode : RecordingMode) (d : ByteStreamDecoder σ ω)
    (bytes : ω → Bytes) (s : σ) (upstream : List (Except String Bytes))
    (hcompleted : (finalStats d s upstream).completed = true) :
    activityStatus (run env (recorder identityId log none true session mode)
      (recordingInputs d bytes s upstream)).state.effects ≠ some .success ↔
      mapResponseStream d s upstream = [] ∨ ∃ error, .error error ∈ upstream := by
  have hfailed : upstream.any isFailedItem = true ↔ ∃ error, .error error ∈ upstream := by
    rw [List.any_eq_true]
    constructor
    · rintro ⟨item, hitem, hf⟩
      cases item with
      | ok chunk => exact nomatch hf
      | error error => exact ⟨error, hitem⟩
    · rintro ⟨error, hitem⟩
      exact ⟨_, hitem, rfl⟩
  rw [recordingInputs_eq, run_recorder_status hs, endStatus, recordedItems_failed, hcompleted, ← hfailed]
  clear hfailed
  have hnil : recordedItems d bytes s upstream = [] ↔ mapResponseStream d s upstream = [] := by
    simp [recordedItems]
  rw [← hnil]
  cases upstream.any isFailedItem <;> split_ifs <;> simp_all

/-- A truncated stream is kept from being recorded as a success by an upstream error, and on the path
that passes chunks on by the lack of any chunk; by nothing else. -/
theorem truncated_stream_failed_iff (env : Env) (hs : env.storage.Succeeds) (identityId : String)
    (log : ActivityInsert) (session : Option StreamSession) (mode : RecordingMode) (responseId : String)
    (upstream : List (Except String Bytes)) :
    ((Truncated env.serde upstream → chatStatus env identityId log mode upstream ≠ some .success) ↔
      (Truncated env.serde upstream → upstream = [] ∨ ∃ error, .error error ∈ upstream)) ∧
    ((Truncated env.serde upstream →
        bridgedStatus env identityId log session mode responseId upstream ≠ some .success) ↔
      (Truncated env.serde upstream → ∃ error, .error error ∈ upstream)) := by
  have hchat := recorded_success_iff env hs identityId log none mode (chatStatsDecoder env.serde) id { inner := {} }
    upstream (chat_completed env.serde upstream)
  have hbridged := recorded_success_iff env hs identityId log session mode (chatToResponsesDecoder env.serde)
    (ResponsesChunk.bytes env.serde) (.new responseId) upstream (bridged_completed env.serde responseId upstream)
  rw [chat_items_eq_nil] at hchat
  simp only [bridged_items_ne_nil env.serde (.new responseId) rfl upstream, false_or] at hbridged
  exact ⟨imp_congr_right (fun _ => hchat), imp_congr_right (fun _ => hbridged)⟩

theorem truncated_stream_failed_reset :
    chatStatus bridgeEnv "user" { status := .streaming, httpStatus := 200 } .required
      [.ok textChunk, .error "connection reset"] ≠ some .success ∧
    bridgedStatus bridgeEnv "user" { status := .streaming, httpStatus := 200 } (some bridgeSession) .required
      "resp_local" [.ok textChunk, .error "connection reset"] ≠ some .success := by
  have htruncated : Truncated Text.codec [.ok textChunk, .error "connection reset"] := by
    unfold Truncated
    decide +kernel
  have hfails : ∃ error, Except.error error ∈ [Except.ok textChunk, .error "connection reset"] :=
    ⟨"connection reset", by simp⟩
  have hiff := truncated_stream_failed_iff bridgeEnv ⟨rfl, rfl, fun _ => rfl, rfl⟩ "user"
    { status := .streaming, httpStatus := 200 } (some bridgeSession) .required "resp_local"
    [.ok textChunk, .error "connection reset"]
  exact ⟨hiff.1.mpr (fun _ => Or.inr hfails) htruncated, hiff.2.mpr (fun _ => hfails) htruncated⟩

/-- The upstream breaks off behind its first text delta: both paths record a success. -/
theorem truncated_stream_recorded_success :
    Truncated Text.codec [.ok textChunk] ∧
    chatStatus bridgeEnv "user" { status := .streaming, httpStatus := 200 } .required [.ok textChunk] =
      some .success ∧
    bridgedStatus bridgeEnv "user" { status := .streaming, httpStatus := 200 } (some bridgeSession) .required
      "resp_local" [.ok textChunk] = some .success := by
  refine ⟨?_, ?_, ?_⟩
  · unfold Truncated
    decide +kernel
  · decide +kernel
  · decide +kernel

end Prelay.Bridge
