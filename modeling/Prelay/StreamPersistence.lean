import Prelay.BridgeStream
import Prelay.NativeRead
import Prelay.RecordedStream

namespace Prelay.Bridge

open Json Recording ChatToResponses

/-- One state has been saved for the session, and it holds the output of the completed event that was
sent to the client. -/
def SavedAsSent (session : StreamSession) (saved : List ResponseStateInsert) (sent : List ResponsesChunk) : Prop :=
  ∃ insert output, saved = [insert] ∧ insert.responseId = session.responseId ∧
    sent.filterMap ResponsesChunk.completedOutput = [output] ∧ insert.responseItems = .array output

def sentChunks (serde : SerdeJson) (responseId : String) (chunks : List Bytes) : List ResponsesChunk :=
  (mapResponseStream (chatToResponsesDecoder serde) (.new responseId) (chunks.map .ok)).filterMap
    (fun p => p.1.toOption)

def recordBridge (env : Env) (identityId : String) (log : ActivityInsert) (session : StreamSession)
    (mode : RecordingMode) (chunks : List Bytes) : Forwarding :=
  run env (recorder identityId log none true (some session) mode)
    (recordingInputs (chatToResponsesDecoder env.serde) (ResponsesChunk.bytes env.serde)
      (.new session.responseId) (chunks.map .ok))

theorem find_completed (serde : SerdeJson) {opening : List (ResponsesChunk × StreamStatsSnapshot)}
    {before : List InternalStreamEvent}
    {groups : List (List String)} (h : OpeningItems serde before groups opening)
    (rest : List StreamStatsSnapshot) :
    (premature serde before groups = true → ∃ snapshot, (opening.map Prod.snd ++ rest).find?
      (fun snapshot => snapshot.completed) = some snapshot ∧ snapshot.responseOutputItems = []) ∧
    (premature serde before groups = false → (opening.map Prod.snd ++ rest).find?
      (fun snapshot => snapshot.completed) = rest.find? (fun snapshot => snapshot.completed)) := by
  rw [List.find?_append]
  constructor
  · intro hpremature
    obtain ⟨p, hp, hcompleted⟩ := h.early.mpr hpremature
    cases hfind : (opening.map Prod.snd).find? (fun snapshot => snapshot.completed) with
    | none =>
      rw [List.find?_eq_none] at hfind
      exact absurd hcompleted (hfind p.2 (List.mem_map_of_mem hp))
    | some snapshot =>
      obtain ⟨q, hq, rfl⟩ := List.mem_map.mp (List.mem_of_find?_eq_some hfind)
      exact ⟨q.2, rfl, (h.quiet q hq).1⟩
  · intro hpremature
    have hnone : (opening.map Prod.snd).find? (fun snapshot => snapshot.completed) = none := by
      rw [List.find?_eq_none]
      intro snapshot hsnapshot hcompleted
      obtain ⟨q, hq, rfl⟩ := List.mem_map.mp hsnapshot
      rw [h.early.mp ⟨q, hq, hcompleted⟩] at hpremature
      exact nomatch hpremature
    rw [hnone]
    rfl

section cut

variable {env : Env} {session : StreamSession} {chunks : List Bytes}
  {opening : List (ResponsesChunk × StreamStatsSnapshot)} {closing : List ResponsesChunk}

theorem CutAtDone.closing_ne_nil (h : CutAtDone env.serde session.responseId chunks opening closing) :
    closing ≠ [] := by
  rintro rfl
  exact nomatch h.closing

theorem CutAtDone.sent (h : CutAtDone env.serde session.responseId chunks opening closing) :
    (sentChunks env.serde session.responseId chunks).filterMap ResponsesChunk.completedOutput =
      [(after session.responseId (streamEvents env.serde chunks)).responseOutputItems] := by
  have hquiet : (opening.map Prod.fst).filterMap ResponsesChunk.completedOutput = [] := by
    rw [List.filterMap_eq_nil_iff]
    intro chunk hchunk
    obtain ⟨p, hp, rfl⟩ := List.mem_map.mp hchunk
    exact (h.opening.quiet p hp).2
  have hchunks : sentChunks env.serde session.responseId chunks = opening.map Prod.fst ++ closing := by
    simp [sentChunks, h.items, List.filterMap_map, Function.comp_def, Except.toOption, List.filterMap_append]
  rw [hchunks, List.filterMap_append, hquiet, h.closing, List.nil_append]

def closingStats (env : Env) (session : StreamSession) (chunks : List Bytes) : StreamStatsSnapshot :=
  (after session.responseId (streamEvents env.serde chunks)).close.1.stats

theorem closingStats_spec (env : Env) (session : StreamSession) (chunks : List Bytes) :
    (closingStats env session chunks).completed = true ∧
    (closingStats env session chunks).responseOutputItems =
      (after session.responseId (streamEvents env.serde chunks)).responseOutputItems := by
  obtain ⟨-, hcompleted, houtput, -⟩ :=
    finishResponse_spec { after session.responseId (streamEvents env.serde chunks) with completed := true }
  exact ⟨hcompleted, houtput⟩

theorem CutAtDone.saved (hs : env.storage.Succeeds) (identityId : String) (log : ActivityInsert)
    (mode : RecordingMode) (h : CutAtDone env.serde session.responseId chunks opening closing) :
    savedStates (recordBridge env identityId log session mode chunks).state.effects =
      sessionSaves identityId (some session) (opening.map Prod.snd ++
        (closing.map (fun _ => closingStats env session chunks) ++ [closingStats env session chunks])) := by
  have hinputs : recordingInputs (chatToResponsesDecoder env.serde) (ResponsesChunk.bytes env.serde)
      (.new session.responseId) (chunks.map .ok) =
      ((opening ++ closing.map (fun chunk => (chunk, closingStats env session chunks))).map
        (fun p => (p.1.bytes env.serde, p.2))).map (fun p => .item (.ok p.1) p.2 true) ++
        [.ended (closingStats env session chunks)] := by
    simp [recordingInputs, h.items, h.final, Function.comp_def, Except.map, closingStats]
  have hne : opening ++ closing.map (fun chunk => (chunk, closingStats env session chunks)) ≠ [] := by
    simp [h.closing_ne_nil]
  obtain ⟨item, items, hcons⟩ := List.exists_cons_of_ne_nil hne
  have hrun := run_savedStates identityId hs log (some session) mode (item.1.bytes env.serde, item.2)
    (items.map (fun p => (p.1.bytes env.serde, p.2))) (closingStats env session chunks)
    (closingStats_spec env session chunks).1
  have hsnd : item.2 :: items.map Prod.snd =
      opening.map Prod.snd ++ closing.map (fun _ => closingStats env session chunks) := by
    simpa [Function.comp_def] using (congrArg (List.map Prod.snd) hcons).symm
  rw [recordBridge, hinputs, hcons, List.map_cons, hrun, List.map_cons, List.map_map, ← List.append_assoc, ← hsnd]
  rfl

end cut

/-- The state of a bridged stream is saved as it was sent exactly when no item reaches the client
between the finish reason and the chunk with the end marker, and there is output before that marker. -/
theorem stream_state_saved_iff (env : Env) (hs : env.storage.Succeeds) (identityId : String)
    (log : ActivityInsert) (session : StreamSession) (hid : Str.trim session.responseId ≠ "")
    (mode : RecordingMode) (chunks : List Bytes) (h : EndsWithDone chunks) :
    SavedAsSent session (savedStates (recordBridge env identityId log session mode chunks).state.effects)
      (sentChunks env.serde session.responseId chunks) ↔
    premature env.serde [] (Sse.chunkEvents Sse.stripSpace chunks) = false ∧
      HasOutput (streamEvents env.serde chunks) := by
  obtain ⟨opening, closing, hcut⟩ := exists_cutAtDone env.serde session.responseId chunks h
  obtain ⟨hcompleted, houtput⟩ := closingStats_spec env session chunks
  have hfirst : (closing.map (fun _ => closingStats env session chunks) ++ [closingStats env session chunks]).find?
      (fun snapshot => snapshot.completed) = some (closingStats env session chunks) := by
    obtain ⟨chunk, rest, rfl⟩ := List.exists_cons_of_ne_nil hcut.closing_ne_nil
    exact List.find?_cons_of_pos hcompleted
  have hsessions := sessionSaves_some identityId session hid (opening.map Prod.snd ++
    (closing.map (fun _ => closingStats env session chunks) ++ [closingStats env session chunks]))
  obtain ⟨hearly, hlate⟩ := find_completed env.serde hcut.opening
    (closing.map (fun _ => closingStats env session chunks) ++ [closingStats env session chunks])
  rw [← hcut.saved hs identityId log mode] at hsessions
  cases hpremature : premature env.serde [] (Sse.chunkEvents Sse.stripSpace chunks) with
  | true =>
    obtain ⟨snapshot, hfind, hnil⟩ := hearly hpremature
    rw [hfind] at hsessions
    simp only [hnil, ↓reduceIte] at hsessions
    simp [SavedAsSent, hsessions]
  | false =>
    rw [hlate hpremature, hfirst] at hsessions
    rw [← responseOutputItems_ne_nil session.responseId]
    simp only [true_and]
    simp only [houtput] at hsessions
    split_ifs at hsessions with hnil
    · simp [SavedAsSent, hsessions, hnil]
    · obtain ⟨insert, hinsert, hinsertId, hinsertItems⟩ := hsessions
      exact ⟨fun _ => hnil, fun _ => ⟨insert, _, hinsert, hinsertId, hcut.sent, hinsertItems⟩⟩

def textChunk : Bytes :=
  Str.utf8 "data: \x7b\"choices\":[\x7b\"delta\":\x7b\"content\":\"hi\"\x7d\x7d]\x7d\n\n"

def finishChunk : Bytes :=
  Str.utf8 "data: \x7b\"choices\":[\x7b\"delta\":\x7b\"content\":\"hi\"\x7d,\"finish_reason\":\"stop\"\x7d]\x7d\n\n"

def toolChunk : Bytes :=
  Str.utf8 ("data: \x7b\"choices\":[\x7b\"delta\":\x7b\"tool_calls\":[\x7b\"index\":0,\"id\":\"call_1\"," ++
    "\"function\":\x7b\"name\":\"search\",\"arguments\":\"query\"\x7d\x7d]\x7d\x7d]\x7d\n\n")

def doneChunk : Bytes := Str.utf8 "data: [DONE]\n\n"

def toolChunkText : String :=
  "\x7b" ++ ("\"choices\":[\x7b\"delta\":\x7b\"tool_calls\":[\x7b\"index\":0,\"id\":\"call_1\"," ++
    "\"function\":\x7b\"name\":\"search\",\"arguments\":\"query\"\x7d\x7d]\x7d\x7d]\x7d")

def textChunkText : String := "\x7b" ++ "\"choices\":[\x7b\"delta\":\x7b\"content\":\"hi\"\x7d\x7d]\x7d"

theorem toolChunkText_open : isDone toolChunkText = false := by
  apply isDone_brace
  rw [toolChunkText, String.toList_append]
  rfl

theorem textChunkText_open : isDone textChunkText = false := by
  apply isDone_brace
  rw [textChunkText, String.toList_append]
  rfl

theorem chunks_spec :
    (internalEventsOf Text.codec toolChunkText =
        [.toolCallDelta 0 (some "call_1") (some "search") (some "query")] ∧
      internalEventsOf Text.codec textChunkText = [.textDelta "hi"]) ∧
    [toolChunk, textChunk, doneChunk] =
      [toolChunkText, textChunkText, "[DONE]"].map (fun data => Str.utf8 ("data: " ++ data ++ "\n\n")) ∧
    [toolChunkText, textChunkText, "[DONE]"].all (fun data => data.toList.all (fun c => 32 ≤ c.toNat)) = true := by
  decide +kernel

theorem chunkTexts_events : internalEventsOf Text.codec toolChunkText =
      [.toolCallDelta 0 (some "call_1") (some "search") (some "query")] ∧
    internalEventsOf Text.codec textChunkText = [.textDelta "hi"] := chunks_spec.1

theorem chunks_lines : [toolChunk, textChunk, doneChunk] =
    [toolChunkText, textChunkText, "[DONE]"].map (fun data => Str.utf8 ("data: " ++ data ++ "\n\n")) :=
  chunks_spec.2.1

theorem chunkTexts_plain : ∀ data ∈ [toolChunkText, textChunkText, "[DONE]"], Plain data := by
  intro data hdata c hc
  exact of_decide_eq_true (List.all_eq_true.mp (List.all_eq_true.mp chunks_spec.2.2 data hdata) c hc)

def bridgeEnv : Env where
  serde := Text.codec
  streamCapture := fun _ => []
  streamSnapshot := fun _ => []

def bridgeSession : StreamSession where
  conversationId := "conv"
  providerId := "provider"
  model := "model"
  responseId := "resp_local"

theorem stream_state_saved_text :
    SavedAsSent bridgeSession (savedStates (recordBridge bridgeEnv "user" { status := .streaming, httpStatus := 200 }
      bridgeSession .required [textChunk, doneChunk]).state.effects)
      (sentChunks Text.codec "resp_local" [textChunk, doneChunk]) := by
  have hgroups : Sse.chunkEvents Sse.stripSpace [textChunk, doneChunk] = [[textChunkText], ["[DONE]"]] ∧
      Sse.trailingEvents Sse.stripSpace [textChunk, doneChunk] = [] := by
    decide +kernel
  have hevents : Sse.events Sse.stripSpace [textChunk, doneChunk] = [textChunkText, "[DONE]"] := by
    rw [Sse.events, hgroups.1, hgroups.2]
    rfl
  have hdone : isDone "[DONE]" = true := by decide
  refine (stream_state_saved_iff bridgeEnv ⟨rfl, rfl, fun _ => rfl, rfl⟩ "user" _ bridgeSession (by decide) .required
    [textChunk, doneChunk] ?_).mpr ⟨?_, Or.inl ⟨.textDelta "hi", ?_, by decide⟩⟩
  · rw [EndsWithDone, hevents]
    exact hdone
  · rw [hgroups.1, show bridgeEnv.serde = Text.codec from rfl]
    simp [premature, textChunkText_open, hdone, eventsBeforeDone, chunkTexts_events, InternalStreamEvent.isFinished]
  · rw [streamEvents, hevents, show bridgeEnv.serde = Text.codec from rfl]
    simp [eventsBeforeDone, textChunkText_open, chunkTexts_events, hdone]

/-- The text and the finish reason come in one chunk, the end marker in the next: nothing is saved. -/
theorem stream_state_lost :
    EndsWithDone [finishChunk, doneChunk] ∧
    HasOutput (streamEvents Text.codec [finishChunk, doneChunk]) ∧
    ¬SavedAsSent bridgeSession (savedStates (recordBridge bridgeEnv "user" { status := .streaming, httpStatus := 200 }
      bridgeSession .required [finishChunk, doneChunk]).state.effects)
      (sentChunks Text.codec "resp_local" [finishChunk, doneChunk]) := by
  refine ⟨?_, Or.inl ⟨.textDelta "hi", by decide +kernel, by decide⟩, ?_⟩
  · unfold EndsWithDone
    decide +kernel
  · have hnone : savedStates (recordBridge bridgeEnv "user" { status := .streaming, httpStatus := 200 }
        bridgeSession .required [finishChunk, doneChunk]).state.effects = [] := by
      decide +kernel
    rintro ⟨insert, output, hsaved, -⟩
    rw [hnone] at hsaved
    exact nomatch hsaved

end Prelay.Bridge
