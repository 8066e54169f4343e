import Prelay.SliceIntegrity

namespace Prelay.Rollout

open Json

section finish

variable {env : Env} {identityId threadId : String} {keeps : Bytes → Prop} {dedup : Prop}
  {drafts : Set ContentDraft} {t : Thread} {blocks : List Log}

theorem Good.finished_cache {new : Log} {w : RolloutWriter}
    (h : Good env threadId (threadRelative identityId threadId) keeps dedup drafts t blocks (some new))
    (hw : t.writer = some w) (hthread : isSafePathSegment threadId = true) (hserde : env.serde.Lawful)
    (hshallow : ∀ draft ∈ drafts, Shallow env draft) (turnEnd : TurnEndEvent) :
    ∃ t' log cached, t.finished env w turnEnd.status turnEnd.httpStatus turnEnd.errorCode = .ok t' ∧
      t'.store.cache = some cached ∧ Describes keeps dedup env (threadRelative identityId threadId) cached (some log) ∧
      cached = (endedWriter env w turnEnd).threadState (threadStamp env threadId log) ∧ WellFormed env drafts log ∧
      t'.store.disk = threadDisk env (threadRelative identityId threadId) (threadTexts env threadId (some log)) ∧
      readThreadEvents env (t'.store.disk (threadRelative identityId threadId)) = .ok (some
        (parsedThread env threadId (some log), ⟨threadBytes env threadId (some log), env.modified (log.length + 1)⟩)) := by
  obtain ⟨last, store, -, hwrites, hdisk, -, -, hfinished⟩ := h.ended hw turnEnd
  rw [closedLog_append] at hdisk
  have hpublish := hwrites.publishState (hdisk ▸ threadDisk_self env _ _)
  have hfile : (publishState (endedWriter env w turnEnd) store).disk (threadRelative identityId threadId) =
      some ⟨threadBytes env threadId (some ((closedLog blocks).getD [] ++ (new ++ [last]))),
        env.modified (((closedLog blocks).getD [] ++ (new ++ [last])).length + 1)⟩ := by
    rw [hpublish]
    simp only [persistThreadIndex, hdisk, threadDisk, ↓reduceIte, textsFile_thread]
  have hlog : ∀ event ∈ (some ((closedLog blocks).getD [] ++ (new ++ [last]))).getD [], Stored event :=
    hwrites.wellFormed.stored hshallow
  refine ⟨_, (closedLog blocks).getD [] ++ (new ++ [last]), _, hfinished, ?_,
    hwrites.state.restamp (threadStamp env threadId ((closedLog blocks).getD [] ++ (new ++ [last]))), rfl,
    hwrites.wellFormed, ?_, ?_⟩
  · rw [hpublish]
    rfl
  · rw [hpublish]
    exact hdisk
  · rw [hfile]
    exact readThreadEvents_thread hserde (safe_ne_empty hthread) hlog hwrites.wellFormed.numbered _

theorem candidateState_thread (env : Env) (threadId path : String) (log : Log) (stamp : FileStamp) :
    candidateState env path (parsedThread env threadId (some log)) stamp =
      ThreadState.fromEvents env path stamp .v1 (log.map (rereadEvent env)) (log.length + 1) log.length := rfl

theorem run_finish {ops : List ThreadOp} {t' : Thread} {w : RolloutWriter} {status : RolloutStatus}
    {httpStatus : Option ℕ} {errorCode : Option String} (hw : (Thread.run env identityId threadId ops).writer = some w)
    (hfinished : (Thread.run env identityId threadId ops).finished env w status httpStatus errorCode = .ok t') :
    Thread.run env identityId threadId (ops ++ [ThreadOp.finish status httpStatus errorCode]) = t' := by
  rw [Thread.run, List.foldl_concat]
  simp only [Thread.run] at hw hfinished
  simp only [Thread.step, hw, hfinished]
  rfl

/-- When the content of the turns is read back as it is, at the end of every turn the structure of the cached state is
that of the state read from the file. -/
theorem cached_structure_eq (hid : isSafePathSegment identityId = true) (hthread : isSafePathSegment threadId = true)
    (hserde : env.serde.Lawful) (ops : List ThreadOp) (hreads : ReadsBackOps env ops) {w : RolloutWriter}
    (hw : (Thread.run env identityId threadId ops).writer = some w) (status : RolloutStatus) (httpStatus : Option ℕ)
    (errorCode : Option String) :
    ∃ cached parsed file reread,
      (Thread.run env identityId threadId (ops ++ [ThreadOp.finish status httpStatus errorCode])).store.cache =
        some cached ∧
      readThreadEvents env ((Thread.run env identityId threadId
        (ops ++ [ThreadOp.finish status httpStatus errorCode])).store.disk (threadRelative identityId threadId)) =
          .ok (some (parsed, file)) ∧
      reread = candidateState env (threadRelative identityId threadId) parsed (FileStamp.fromMetadata file) ∧
      cached.lineCount = reread.lineCount ∧ cached.seq = reread.seq ∧ cached.window = reread.window ∧
      cached.eventRefs = reread.eventRefs ∧ cached.contentEventCount = reread.contentEventCount ∧
      cached.format = reread.format := by
  obtain ⟨blocks, current, h⟩ := run_good_reads hid hthread hserde ops hreads
  obtain ⟨new, rfl⟩ := h.writing hw
  obtain ⟨t', log, cached, hfinished, hcache, hcached, -, hwellFormed, -, hread⟩ :=
    h.finished_cache hw hthread hserde (fun _ hdraft => hdraft.shallow) ⟨status, httpStatus, errorCode⟩
  have hrun := run_finish hw hfinished
  have hreread : Describes (fun _ => True) False env (threadRelative identityId threadId) (ThreadState.fromEvents env
      (threadRelative identityId threadId) (threadStamp env threadId log) .v1 (log.map (rereadEvent env))
      (log.length + 1) log.length) (some log) :=
    Describes.fromEvents hserde _
      (fun _ hidentity => hwellFormed.kept (fun _ hdraft => ReadsBack.keepsDigests hdraft fun _ => True) hidentity) nofun
  have heventRefs := fun identity => (hcached.eventRefs identity (.inr trivial)).trans
    (hreread.eventRefs identity (.inr trivial)).symm
  rw [hrun]
  refine ⟨cached, _, _, _, hcache, hread, rfl, ?_⟩
  rw [candidateState_thread]
  exact ⟨hcached.lineCount.trans hreread.lineCount.symm, hcached.seq.trans hreread.seq.symm,
    hcached.window.trans hreread.window.symm, Std.ExtTreeMap.ext_getElem? heventRefs,
    hcached.contentEventCount.trans hreread.contentEventCount.symm, (hcached.format rfl).trans (hreread.format rfl).symm⟩

def windowOps : List ThreadOp :=
  [.beginTurn (sampleTurn "turn_1" [userMessage "hello"]), .finish .completed (some 200) none,
    .beginTurn { sampleTurn "turn_2" [userMessage "hello"] with generation := 1 },
    .appendContent (callWith "call_1" (.object [("x", .number (.float false 15 (-1)))])),
    .appendContent { body := .usage { inputTokens := some 3, outputTokens := some 5 } }]

theorem cached_structure_eq_window_change :
    (Thread.run limitedEnv "identity-1" "thread-1" windowOps).writer.isSome = true ∧
    ∃ cached parsed file reread,
      (Thread.run limitedEnv "identity-1" "thread-1"
        (windowOps ++ [ThreadOp.finish .completed (some 200) none])).store.cache =
        some cached ∧
      readThreadEvents limitedEnv ((Thread.run limitedEnv "identity-1" "thread-1"
        (windowOps ++ [ThreadOp.finish .completed (some 200) none])).store.disk (threadRelative "identity-1" "thread-1")) =
          .ok (some (parsed, file)) ∧
      reread = candidateState limitedEnv (threadRelative "identity-1" "thread-1") parsed (FileStamp.fromMetadata file) ∧
      cached.lineCount = reread.lineCount ∧ cached.seq = reread.seq ∧ cached.window = reread.window ∧
      cached.eventRefs = reread.eventRefs ∧ cached.contentEventCount = reread.contentEventCount ∧
      cached.format = reread.format := by
  have hwriter : (Thread.run limitedEnv "identity-1" "thread-1" windowOps).writer.isSome = true := by decide +kernel
  exact ⟨hwriter, cached_structure_eq (by decide) (by decide) limitedEnv_lawful windowOps (by decide +kernel)
    (Option.some_get hwriter).symm .completed (some 200) none⟩

/-- A call with a float that is read as a neighbour of it. -/
def floatCall : ContentDraft :=
  callWith "call_1" (.object [("x", .number (.float false 57295779513082316 (-15)))])

def floatOps : List ThreadOp := [.beginTurn (sampleTurn "turn_1" []), .appendContent floatCall]

theorem cached_structure_differs :
    ∃ cached parsed file reread,
      (Thread.run limitedEnv "identity-1" "thread-1" (floatOps ++ [ThreadOp.finish .completed none none])).store.cache =
        some cached ∧
      readThreadEvents limitedEnv ((Thread.run limitedEnv "identity-1" "thread-1"
        (floatOps ++ [ThreadOp.finish .completed none none])).store.disk (threadRelative "identity-1" "thread-1")) =
          .ok (some (parsed, file)) ∧
      reread = candidateState limitedEnv (threadRelative "identity-1" "thread-1") parsed (FileStamp.fromMetadata file) ∧
      cached.eventRefs ≠ reread.eventRefs := by
  have hwriter : (Thread.run limitedEnv "identity-1" "thread-1" floatOps).writer.map (fun w =>
      w.eventRefs.getD (eventIdentity limitedEnv "tool_call" (storedPayload limitedEnv floatCall.body.members)) []) =
        some [4] := by decide +kernel
  obtain ⟨w, hw, hrefs⟩ := Option.map_eq_some_iff.mp hwriter
  have hdigest : eventIdentity limitedEnv "tool_call" ((storedPayload limitedEnv floatCall.body.members).mapNumbers
      limitedEnv.serde.reread) ≠
        eventIdentity limitedEnv "tool_call" (storedPayload limitedEnv floatCall.body.members) := by
    decide +kernel
  have hshallow : ∀ draft ∈ ({floatCall} : Set ContentDraft), Shallow limitedEnv draft := by
    rintro draft rfl
    decide +kernel
  have hdrafts : ∀ op ∈ floatOps, ∀ draft ∈ op.drafts, draft ∈ ({floatCall} : Set ContentDraft) := by
    simp [floatOps, ThreadOp.drafts, sampleTurn]
  obtain ⟨blocks, current, h⟩ : ∃ blocks current, Good limitedEnv "thread-1" (threadRelative "identity-1" "thread-1")
      (fun _ => False) False {floatCall} (Thread.run limitedEnv "identity-1" "thread-1" floatOps) blocks current :=
    run_good (by decide) (by decide) limitedEnv_lawful
    (fun draft hdraft => (hshallow draft hdraft).readable) nofun floatOps
      hdrafts
  obtain ⟨new, rfl⟩ := h.writing hw
  obtain ⟨t', log, cached, hfinished, hcache, -, hstate, hwellFormed, -, hread⟩ :=
    h.finished_cache hw (by decide) limitedEnv_lawful hshallow ⟨.completed, none, none⟩
  have hended : cached.eventRefs = w.eventRefs := by
    rw [hstate, endedWriter, RolloutWriter.recordEvent_eq]
    rfl
  rw [run_finish hw hfinished]
  refine ⟨cached, _, _, _, hcache, hread, rfl, ?_⟩
  rw [candidateState_thread, hended]
  intro heq
  have hmem : 4 ∈ w.eventRefs.getD (eventIdentity limitedEnv "tool_call" (storedPayload limitedEnv
      floatCall.body.members)) [] := by
    rw [hrefs]
    exact List.mem_singleton_self 4
  -- the event found under the digest would be the call as it is read again
  rw [heq] at hmem
  obtain ⟨event, hevent, -, hcontent, hidentity⟩ := replay_eventRefs limitedEnv _ _ _ _ hmem
  obtain ⟨written, hwritten, rfl⟩ := List.mem_map.mp hevent
  obtain ⟨draft, rfl, htype, hpayload⟩ := hwellFormed.drafted hwritten hcontent
  rw [identityOf, rereadEvent, htype, hpayload] at hidentity
  exact hdigest hidentity

end finish

end Prelay.Rollout
