import Prelay.AppendedLines

namespace Prelay.Rollout

open Json

def fileBytes (disk : Disk) (path : String) : Bytes := ((disk path).map File.bytes).getD []

section flush

variable {env : Env} {threadId path : String} {store : Store} {disk : Disk} {state : ThreadState} {w : RolloutWriter}

theorem fileBytes_update (disk : Disk) (path : String) (file : File) :
    fileBytes (Function.update disk path (some file)) path = file.bytes := by
  rw [fileBytes, Function.update_self]
  rfl

theorem Reads.readable {lineCount seq : ℕ} (h : Reads env (fileBytes disk path) lineCount seq) :
    ¬Corrupt env disk path := by
  intro hcorrupt
  cases hfile : disk path with
  | none =>
    rw [Corrupt, hfile] at hcorrupt
    exact nomatch hcorrupt
  | some file =>
    rw [fileBytes, hfile] at h
    rw [Corrupt, hfile] at hcorrupt
    exact h.not_corrupt file.modified hcorrupt

theorem writePendingLines_eq (env : Env) (path : String) (lineCount : ℕ) (disk : Disk) (line : Bytes)
    (lines : List Bytes) :
    ∃ n, writePendingLines env path lineCount disk (line :: lines) =
      Function.update disk path (some ⟨fileBytes disk path ++ (line :: lines).flatten, env.modified n⟩) := by
  induction lines generalizing disk line with
  | nil => exact ⟨lineCount, by simp [writePendingLines, Disk.appendLine, fileBytes]⟩
  | cons next lines ih =>
    obtain ⟨n, hrest⟩ := ih (disk.appendLine path line (env.modified (lineCount - (next :: lines).length))) next
    refine ⟨n, ?_⟩
    rw [writePendingLines, hrest]
    simp [Disk.appendLine, fileBytes]

theorem Adds.flushed {threadPath : String} {added : Log} {written : List String}
    (h : Adds env threadId threadPath state added written w) (store : Store) :
    Adds env threadId threadPath state added (turnTexts env threadId state added) (flushWriter env w store).1 :=
  ⟨h.thread, h.threadPath, h.path, h.isOpen, h.lineCount, h.seq, h.hashed, h.byteSize, h.expectedLen, h.stored,
    h.numbered, [], rfl, List.append_nil _⟩

theorem flush_eq {threadPath : String} {added : Log} {written : List String} {before : Bytes}
    (hw : Adds env threadId threadPath state added written w)
    (hbytes : fileBytes store.disk w.relativePath = before ++ textBytes written) :
    (flushWriter env w store).2 = store ∧ fileBytes store.disk w.relativePath = before ++ w.hashed ∨
      ∃ n, (flushWriter env w store).2 = { store with
        disk := Function.update store.disk w.relativePath (some ⟨before ++ w.hashed, env.modified n⟩) } := by
  obtain ⟨rest, hpending, hrest⟩ := hw.pending
  have hhashed : w.hashed = textBytes written ++ textBytes rest := by
    rw [hw.hashed, ← hrest, textBytes_append]
  cases rest with
  | nil =>
    left
    constructor
    · rw [flushWriter, hpending]
      rfl
    · rw [hbytes, hhashed]
      simp [textBytes]
  | cons text rest =>
    right
    obtain ⟨n, hdisk⟩ := writePendingLines_eq env w.relativePath w.lineCount store.disk (textLine text)
      (rest.map textLine)
    have hlines : fileBytes store.disk w.relativePath ++ (textLine text :: rest.map textLine).flatten =
        before ++ w.hashed := by
      rw [hbytes, hhashed, List.append_assoc]
      rfl
    refine ⟨n, ?_⟩
    rw [flushWriter, hpending, List.map_cons, hdisk, hlines]

theorem publishState_disk (w : RolloutWriter) (store : Store) : (publishState w store).disk = store.disk := by
  unfold publishState
  split
  · rfl
  · split_ifs <;> rfl

end flush

section turn

variable {env : Env} {identityId threadId path : String} {store : Store} {state : ThreadState} {t : Thread}

theorem begun_adds (hid : isSafePathSegment identityId = true) (hthread : isSafePathSegment threadId = true)
    (hresolve : resolveThreadSource env t.store identityId threadId = .ok (state, store))
    (hmem : state.relativePath ∈ threadCandidatePaths identityId threadId) {request : TurnRequest}
    (hrequest : ∀ draft ∈ request.events, Shallow env draft) :
    ∃ added w, t.begun env identityId threadId request =
        .ok { t with store := (flushWriter env w store).2, writer := some (flushWriter env w store).1 } ∧
      Adds env threadId (threadRelative identityId threadId) state added [] w := by
  obtain ⟨added, w, hopen, hw⟩ := Adds.openTurn env state (threadRelative identityId threadId) request.turn
    request.turnId (rfl : (⟨threadId, request.windowId, request.generation⟩ : SessionContext).threadId = threadId)
    hrequest
  refine ⟨added, w, ?_, hw⟩
  simp only [Thread.begun, beginTurn, hid, hthread, Bool.not_true, Bool.false_eq_true, ↓reduceIte, hresolve, bind,
    Except.bind, checked_candidate hid hthread hmem, checked_threadRelative hid hthread,
    checked_indexRelative hid hthread, hopen]

theorem finished_adds {threadPath : String} {added : Log} {written : List String} {w : RolloutWriter}
    (hw : Adds env threadId threadPath state added written w) (t : Thread) (status : RolloutStatus)
    (httpStatus : Option ℕ) (errorCode : Option String) :
    ∃ more ended t', t.finished env w status httpStatus errorCode = .ok t' ∧
      t'.store = publishState (flushWriter env ended t.store).1 (flushWriter env ended t.store).2 ∧ t'.writer = none ∧
      Adds env threadId threadPath state (added ++ more) written ended := by
  obtain ⟨more, ended, hend, hended⟩ := hw.appendControl (.turnEnd ⟨status, httpStatus, errorCode⟩)
  have hfinished : ∃ t', t.finished env w status httpStatus errorCode = .ok t' ∧
      t'.store = publishState (flushWriter env ended t.store).1 (flushWriter env ended t.store).2 ∧
      t'.writer = none := by
    simp only [Thread.finished, finishWith, hw.isOpen, endTurn, hend, bind, Except.bind]
    exact ⟨_, rfl, rfl, rfl⟩
  obtain ⟨t', ht', hstore, hwriter⟩ := hfinished
  exact ⟨more, ended, t', ht', hstore, hwriter, hended⟩

theorem publishState_current {w : RolloutWriter} {file : File} (hfile : store.disk w.relativePath = some file)
    (hlen : file.bytes.length = w.expectedLen + w.byteSize) :
    ∃ state, (publishState w store).cache = some state ∧ state.relativePath = w.relativePath ∧
      state.stamp = FileStamp.fromMetadata file := by
  have hstamp : metadataStamp store.disk w.relativePath = some (FileStamp.fromMetadata file) := by
    rw [metadataStamp, hfile]
    rfl
  have hkept : ¬(FileStamp.fromMetadata file).len ≠ w.expectedLen + w.byteSize := not_not.mpr hlen
  refine ⟨w.threadState (FileStamp.fromMetadata file), ?_, rfl, rfl⟩
  unfold publishState
  rw [hstamp]
  dsimp only
  rw [if_neg hkept]
  rfl

theorem hashed_ne_nil {threadPath : String} {added : Log} {written : List String} {w : RolloutWriter}
    (h : Adds env threadId threadPath (ThreadState.empty path) added written w) : w.hashed ≠ [] := by
  rw [h.hashed]
  simp [turnTexts, ThreadState.empty, ThreadState.isEmpty, textBytes, textLine]

theorem first_turn (hid : isSafePathSegment identityId = true) (hthread : isSafePathSegment threadId = true)
    (hwriter : t.writer = none)
    (hresolve : resolveThreadSource env t.store identityId threadId = .ok (ThreadState.empty path, store))
    (hmem : path ∈ threadCandidatePaths identityId threadId) (hmissing : store.disk path = none)
    {request : TurnRequest} (hrequest : ∀ draft ∈ request.events, Shallow env draft) (status : RolloutStatus)
    (httpStatus : Option ℕ) (errorCode : Option String) :
    ∃ begun ended hashed more n m cached,
      t.step env identityId threadId (.beginTurn request) = begun ∧
      begun.step env identityId threadId (.finish status httpStatus errorCode) = ended ∧
      begun.store.disk = Function.update store.disk path (some ⟨hashed, env.modified n⟩) ∧
      ended.store.disk = Function.update store.disk path (some ⟨hashed ++ more, env.modified m⟩) ∧
      ended.store.cache = some cached ∧ cached.relativePath = path ∧
      cached.stamp = FileStamp.fromMetadata ⟨hashed ++ more, env.modified m⟩ ∧ begun.writer.isSome = true ∧
      ended.writer = none := by
  obtain ⟨added, w, hbegun, hw⟩ := begun_adds hid hthread hresolve hmem hrequest
  obtain rfl : w.relativePath = path := hw.path
  have hstart : fileBytes store.disk w.relativePath = [] ++ textBytes [] := by
    rw [fileBytes, hmissing]
    rfl
  rcases flush_eq hw hstart with ⟨-, hempty⟩ | ⟨n, hflush⟩
  · rw [fileBytes, hmissing] at hempty
    exact absurd hempty.symm (hashed_ne_nil hw)
  have hbegin : (flushWriter env w store).2.disk =
      Function.update store.disk w.relativePath (some ⟨w.hashed, env.modified n⟩) := by
    rw [hflush]
    rfl
  have hflushed := hw.flushed store
  obtain ⟨more, ended, t', hfinished, hpublished, hclosed, hended⟩ := finished_adds hflushed
    { t with store := (flushWriter env w store).2, writer := some (flushWriter env w store).1 } status httpStatus
    errorCode
  have hsame : ended.relativePath = w.relativePath := hended.path.trans hw.path.symm
  have hbytes : fileBytes (flushWriter env w store).2.disk ended.relativePath =
      [] ++ textBytes (turnTexts env threadId (ThreadState.empty w.relativePath) added) := by
    rw [hsame, hbegin, fileBytes_update, ← hw.hashed]
    rfl
  have hhashed : ended.hashed = w.hashed ++ textBytes (more.map (eventText env)) := by
    rw [hended.hashed, hw.hashed, ← textBytes_append, turnTexts, turnTexts, List.map_append, List.append_assoc]
  obtain ⟨m, hlast⟩ : ∃ m, (flushWriter env ended (flushWriter env w store).2).2.disk =
      Function.update store.disk w.relativePath (some ⟨ended.hashed, env.modified m⟩) := by
    rcases flush_eq hended hbytes with ⟨hkept, hread⟩ | ⟨m, hwritten⟩
    · refine ⟨n, ?_⟩
      rw [hsame, hbegin, fileBytes_update, List.nil_append] at hread
      rw [hkept, hbegin, ← show w.hashed = ended.hashed from hread]
    · refine ⟨m, ?_⟩
      rw [hwritten, hsame]
      dsimp only
      rw [hbegin, Function.update_idem]
      rfl
  have hfile : (flushWriter env ended (flushWriter env w store).2).2.disk ended.relativePath =
      some ⟨ended.hashed, env.modified m⟩ := by
    rw [hlast, hsame, Function.update_self]
  have hlen : ended.hashed.length = ended.expectedLen + ended.byteSize := by
    rw [hended.expectedLen, hended.byteSize]
    exact (Nat.zero_add _).symm
  obtain ⟨cached, hcached, hpath, hstamp⟩ := publishState_current
    (w := (flushWriter env ended (flushWriter env w store).2).1) hfile hlen
  refine ⟨{ t with store := (flushWriter env w store).2, writer := some (flushWriter env w store).1 }, t', w.hashed,
    textBytes (more.map (eventText env)), n, m, cached, ?_, ?_, hbegin, ?_, ?_, hpath.trans hsame, ?_, rfl, hclosed⟩
  · simp only [Thread.step, hwriter, hbegun]
    rfl
  · simp only [Thread.step, hfinished]
    rfl
  · rw [hpublished, publishState_disk, ← hhashed]
    exact hlast
  · rw [hpublished]
    exact hcached
  · rw [← hhashed]
    exact hstamp

end turn

end Prelay.Rollout
