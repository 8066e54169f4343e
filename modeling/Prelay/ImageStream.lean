import Prelay.RecordingStatus

namespace Prelay.Recording

open Json Bridge Rollout StreamRecordState

def CompletesImage (serde : SerdeJson) (data : String) : Bool :=
  ((serde.fromStr data).bind (Value.get "type")).bind Value.asStr = some "image_generation.completed"

def imageCapture : RawStreamContentCapture := .new .imageGeneration

section capture

variable (serde : SerdeJson)

theorem processEvent_image {c : Captured} (hprotocol : c.protocol = .imageGeneration) (data : String) :
    (c.processEvent serde data).protocol = .imageGeneration ∧
      (c.processEvent serde data).completed = (c.completed || CompletesImage serde data) := by
  unfold Captured.processEvent CompletesImage
  rw [hprotocol]
  dsimp only
  split_ifs with hcompletes
  · simp [hcompletes]
  · simp [hprotocol, hcompletes]

theorem handleAll_image {c : Captured} (hprotocol : c.protocol = .imageGeneration) (datas : List String) :
    (Sse.handleAll (RawStreamContentCapture.handle serde) c datas).1.protocol = .imageGeneration ∧
      (Sse.handleAll (RawStreamContentCapture.handle serde) c datas).1.completed =
        (c.completed || datas.any (CompletesImage serde)) := by
  induction datas generalizing c with
  | nil => exact ⟨hprotocol, (Bool.or_false _).symm⟩
  | cons data datas ih =>
    obtain ⟨hkept, hcompleted⟩ := processEvent_image serde hprotocol data
    obtain ⟨hrest, hany⟩ := @ih (c.processEvent serde data) hkept
    refine ⟨hrest, ?_⟩
    rw [List.any_cons, ← Bool.or_assoc, ← hcompleted]
    exact hany

theorem observeChunks_completed {capture : RawStreamContentCapture} (hprotocol : capture.inner.protocol = .imageGeneration)
    (chunks : List Bytes) :
    (chunks.foldl (RawStreamContentCapture.observeChunk serde) capture).isCompleted =
      (capture.isCompleted ||
        ((Sse.Scanner.pushAll Str.trimStart capture.scanner chunks).2.flatten.any (CompletesImage serde))) := by
  induction chunks generalizing capture with
  | nil => exact (Bool.or_false _).symm
  | cons chunk chunks ih =>
    have hpush := Sse.Reader.pushChunk_eq (RawStreamContentCapture.handle serde) Str.trimStart capture chunk
    obtain ⟨hkept, hcompleted⟩ := handleAll_image serde hprotocol (capture.scanner.push Str.trimStart chunk).2
    have hrest := @ih (capture.observeChunk serde chunk) (by
      rw [RawStreamContentCapture.observeChunk, hpush]
      exact hkept)
    have hscanner : (capture.observeChunk serde chunk).scanner = (capture.scanner.push Str.trimStart chunk).1 := by
      rw [RawStreamContentCapture.observeChunk, hpush]
      rfl
    have hfirst : (capture.observeChunk serde chunk).isCompleted =
        (capture.isCompleted || (capture.scanner.push Str.trimStart chunk).2.any (CompletesImage serde)) := by
      rw [RawStreamContentCapture.observeChunk, hpush]
      exact hcompleted
    rw [List.foldl_cons, hrest, hfirst, hscanner, Sse.Scanner.pushAll, List.flatten_cons, List.any_append, Bool.or_assoc]

end capture

section record

variable {env : Env} {seen : List StreamStatsSnapshot}

def chunkItems (chunks : List (Bytes × StreamStatsSnapshot)) : List (Except String Bytes × StreamStatsSnapshot) :=
  chunks.map (fun p => (.ok p.1, p.2))

theorem run_capture_status (hs : env.storage.Succeeds) (chunks : List (Bytes × StreamStatsSnapshot))
    (final : StreamStatsSnapshot) (f : Forwarding) (hstarted : f.started = true) (hconnected : f.connected = true)
    (hfinished : f.finished = false) {capture : RawStreamContentCapture} (hcapture : f.state.contentCapture = some capture)
    (h : Live seen f.state) :
    (run env f (listenedInputs (chunkItems chunks) final)).finished = true ∧
      activityStatus (run env f (listenedInputs (chunkItems chunks) final)).state.effects =
        if ((chunks.map Prod.fst).foldl (RawStreamContentCapture.observeChunk env.serde) capture).isCompleted then
          some .success
        else some .failed := by
  induction chunks generalizing f seen capture with
  | nil =>
    have hend := (h.withStats final).recordStreamEnd_status hs
    have hcompleted : { f.state with stats := final }.streamCompleted = capture.isCompleted := by
      simp [streamCompleted, hcapture]
    rw [hcompleted] at hend
    have hrun : run env f (listenedInputs (chunkItems []) final) =
        { f with state := { f.state with stats := final }.recordStreamEnd env, finished := true } := by
      simp [run, listenedInputs, chunkItems, step, hfinished, hstarted, forwardStep, hconnected]
    rw [hrun]
    exact ⟨rfl, hend⟩
  | cons p chunks ih =>
    obtain ⟨chunk, stats⟩ := p
    have hstep : run env f (listenedInputs (chunkItems ((chunk, stats) :: chunks)) final) =
        run env (forwardStep env f (.item (.ok chunk) stats true)) (listenedInputs (chunkItems chunks) final) := by
      simp [run, listenedInputs, chunkItems, step, hfinished, hstarted]
    rw [hstep]
    exact ih (forwardStep env f (.item (.ok chunk) stats true)) hstarted (by simp [forwardStep, hconnected]) rfl
      ((observeItem_capture chunk).trans (congrArg (Option.map _) hcapture)) ((h.withStats stats).observeItem_ok chunk)

def imageRun (env : Env) (identityId : String) (log : ActivityInsert) (session : Option StreamSession)
    (mode : RecordingMode)
    (chunks : List (Bytes × StreamStatsSnapshot)) (final : StreamStatsSnapshot) : Forwarding :=
  run env (recorder identityId log (some imageCapture) true session mode) (listenedInputs (chunkItems chunks) final)

theorem imageRun_status (hs : env.storage.Succeeds) (identityId : String) (log : ActivityInsert)
    (session : Option StreamSession) (mode : RecordingMode) {chunks : List (Bytes × StreamStatsSnapshot)}
    (hne : chunks ≠ []) (final : StreamStatsSnapshot) :
    (imageRun env identityId log session mode chunks final).finished = true ∧
      activityStatus (imageRun env identityId log session mode chunks final).state.effects =
        if (Sse.chunkEvents Str.trimStart (chunks.map Prod.fst)).flatten.any (CompletesImage env.serde) then some .success
        else some .failed := by
  cases chunks with
  | nil => exact absurd rfl hne
  | cons p chunks =>
    obtain ⟨chunk, stats⟩ := p
    obtain ⟨f, hf, hstarted, hconnected, hfinished, hcapture, hlive⟩ :=
      prepareStream_live hs identityId log (some imageCapture) session mode chunk stats
    have hrun := run_capture_status hs chunks final f hstarted hconnected hfinished hcapture hlive
    have hcompleted := @observeChunks_completed env.serde imageCapture rfl (chunk :: chunks.map Prod.fst)
    rw [← hf, ← List.foldl_cons (l := chunks.map Prod.fst), hcompleted] at hrun
    exact hrun

end record

def EndsCompleted (serde : SerdeJson) (chunks : List Bytes) : Prop :=
  (Sse.events Str.trimStart chunks).getLast?.any (CompletesImage serde) = true

def RecordedCompleted (f : Forwarding) : Prop :=
  activityStatus f.state.effects = some .success ∧ f.state.effects.any (Effect.finishesAs .completed) = true

theorem image_recorded_iff {env : Env} (hs : env.storage.Succeeds) (identityId : String) (log : ActivityInsert)
    (session : Option StreamSession) (mode : RecordingMode) (chunks : List (Bytes × StreamStatsSnapshot))
    (final : StreamStatsSnapshot) (hlast : EndsCompleted env.serde (chunks.map Prod.fst)) :
    RecordedCompleted (imageRun env identityId log session mode chunks final) ↔
      Sse.trailingEvents Str.trimStart (chunks.map Prod.fst) = [] ∨
        ∃ data ∈ (Sse.chunkEvents Str.trimStart (chunks.map Prod.fst)).flatten, CompletesImage env.serde data = true := by
  have hne : chunks ≠ [] := by
    rintro rfl
    exact nomatch hlast
  obtain ⟨hfinished, hstatus⟩ := imageRun_status hs identityId log session mode hne final
  have hfresh : Recorded true [] (recorder identityId log (some imageCapture) true session mode) :=
    .fresh (recorder_fresh identityId log (some imageCapture) true session mode) rfl
  have hagree := (run_recorded hs hfresh (listenedInputs (chunkItems chunks) final)).status_iff hfinished
  have hrecorded : RecordedCompleted (imageRun env identityId log session mode chunks final) ↔
      (Sse.chunkEvents Str.trimStart (chunks.map Prod.fst)).flatten.any (CompletesImage env.serde) = true := by
    refine (and_iff_left_of_imp hagree.mp).trans ?_
    change activityStatus (imageRun env identityId log session mode chunks final).state.effects = _ ↔ _
    rw [hstatus]
    split_ifs with hany
    · exact iff_of_true rfl hany
    · exact iff_of_false (by decide) hany
  rw [hrecorded, List.any_eq_true]
  constructor
  · exact .inr
  · rintro (hblank | hsome)
    · rw [EndsCompleted, Sse.events, hblank, List.append_nil, Option.any_eq_true] at hlast
      obtain ⟨data, hdata, hcompletes⟩ := hlast
      exact ⟨data, List.mem_of_getLast? hdata, hcompletes⟩
    · exact hsome

def imageEnv : Env where
  serde := Text.codec
  streamCapture := fun _ => []
  streamSnapshot := fun _ => []

def completedImage : Bytes := Str.utf8 "data: \x7b\"type\":\"image_generation.completed\"\x7d\n"

theorem image_recorded_blank :
    RecordedCompleted (imageRun imageEnv "id_1" ⟨.streaming, 200, none, none⟩ none .required
      [(completedImage, {}), ([10], {})] {}) :=
  (@image_recorded_iff imageEnv ⟨rfl, rfl, fun _ => rfl, rfl⟩ "id_1" ⟨.streaming, 200, none, none⟩ none .required
    [(completedImage, {}), ([10], {})] {} (by unfold EndsCompleted; decide +kernel)).mpr (.inl (by decide +kernel))

/-- With one newline the event is still open when the recorder asks whether the stream is complete. -/
theorem image_not_recorded :
    imageEnv.storage.Succeeds ∧ EndsCompleted imageEnv.serde [completedImage] ∧
      ¬RecordedCompleted (imageRun imageEnv "id_1" ⟨.streaming, 200, none, none⟩ none .required [(completedImage, {})]
        {}) := by
  have hs : imageEnv.storage.Succeeds := ⟨rfl, rfl, fun _ => rfl, rfl⟩
  refine ⟨hs, by unfold EndsCompleted; decide +kernel, ?_⟩
  intro h
  have hrecorded := h.1
  rw [(imageRun_status hs "id_1" ⟨.streaming, 200, none, none⟩ none .required (List.cons_ne_nil _ _) {}).2] at hrecorded
  exact absurd hrecorded (by decide +kernel)

end Prelay.Recording
