import Prelay.CandidateScan
import Prelay.CrashRecovery
import Prelay.ThreadClients

namespace Prelay.Rollout

open Json

section segments

variable (env : Env) (identityId threadId : String) (keeps : Bytes → Prop) (drafts : Set ContentDraft)

def TurnBlock (turnId : String) (ended : Bool) (block : Log) : Prop :=
  if ended then EndedBlock env turnId block else OpenBlock env turnId block

/-- The events in one file of the thread; a turn stands there with the path of its file. -/
def segmentLog (path : String) (blocks : List (String × Log)) : Option Log :=
  closedLog ((blocks.filter (fun block => block.1 = path)).map Prod.snd)

/-- The files that turns are written to. Only a line that is nested too deep leads away from the first one. -/
def segmentPaths : Set String :=
  {path | path ∈ threadCandidatePaths identityId threadId ∧
    ((∀ draft ∈ drafts, Shallow env draft) → path = threadRelative identityId threadId)}

def SegmentDisk (blocks : List (String × Log)) (disk : Disk) : Prop :=
  ∀ path, disk path = textsFile env (threadTexts env threadId (segmentLog path blocks))

def SegmentWritten (blocks : List (String × Log)) (path : String) (written : List String) (disk : Disk) : Prop :=
  disk path = textsFile env (threadTexts env threadId (segmentLog path blocks) ++ written) ∧
    ∀ other, other ≠ path → disk other = textsFile env (threadTexts env threadId (segmentLog other blocks))

structure SegmentState (blocks : List (String × Log)) (state : ThreadState) : Prop where
  path : state.relativePath ∈ segmentPaths env identityId threadId drafts
  describes : Describes keeps False env state.relativePath state (segmentLog state.relativePath blocks)
  len : state.stamp.len = (threadBytes env threadId (segmentLog state.relativePath blocks)).length

structure SegmentSnapshot (blocks : List (String × Log)) (state : ThreadState) : Prop where
  path : state.relativePath ∈ segmentPaths env identityId threadId drafts
  snapshot : Snapshot env threadId state.relativePath keeps False (segmentLog state.relativePath blocks)
    state

structure SegmentMemory (blocks : List (String × Log)) (store : Store) : Prop where
  cache : ∀ state, store.cache = some state → SegmentSnapshot env identityId threadId keeps drafts blocks state
  index : ∀ index, store.index = some index →
    ∃ state, IndexOf state index ∧ SegmentSnapshot env identityId threadId keeps drafts blocks state

structure Segmented (closed : List ClosedTurn) (blocks : List (String × Log)) : Prop where
  count : blocks.length = closed.length
  closed : ∀ (i : ℕ) (turn : ClosedTurn) (block : String × Log), closed[i]? = some turn → blocks[i]? = some block →
    TurnBlock env turn.turnId turn.summary.isSome block.2
  paths : ∀ block ∈ blocks, block.1 ∈ segmentPaths env identityId threadId drafts
  wellFormed : ∀ path, WellFormed env drafts ((segmentLog path blocks).getD [])

structure SegmentWrites (disk : Disk) (blocks : List (String × Log)) (path : String) (new : Log) (written : List String)
    (w : RolloutWriter) (ended : Bool) : Prop where
  place : path ∈ segmentPaths env identityId threadId drafts
  block : TurnBlock env w.turnId ended new
  writes : Writes env threadId keeps False drafts path (segmentLog path blocks) new written w
  disk : SegmentWritten env threadId blocks path written disk

end segments

section logs

variable {env : Env} {identityId threadId path : String} {keeps : Bytes → Prop} {drafts : Set ContentDraft}
  {blocks : List (String × Log)} {new : Log} {disk : Disk} {state : ThreadState}

theorem segmentLog_append (path : String) (blocks : List (String × Log)) (new : Log) :
    segmentLog path (blocks ++ [(path, new)]) = some ((segmentLog path blocks).getD [] ++ new) := by
  have hfilter : ((blocks ++ [(path, new)]).filter (fun block => block.1 = path)).map Prod.snd =
      (blocks.filter (fun block => block.1 = path)).map Prod.snd ++ [new] := by
    simp
  rw [segmentLog, hfilter, closedLog_append, segmentLog]

theorem segmentLog_append_other {other : String} (hother : other ≠ path) (blocks : List (String × Log)) (new : Log) :
    segmentLog other (blocks ++ [(path, new)]) = segmentLog other blocks := by
  have hfilter : (blocks ++ [(path, new)]).filter (fun block => block.1 = other) =
      blocks.filter (fun block => block.1 = other) := by
    simp [Ne.symm hother]
  rw [segmentLog, hfilter, segmentLog]

theorem past_segmentLog (blocks : List (String × Log)) (block : String × Log) (path : String) :
    Past (segmentLog path blocks) (segmentLog path (blocks ++ [block])) := by
  obtain ⟨place, new⟩ := block
  by_cases hpath : path = place
  · subst hpath
    rw [segmentLog_append]
    exact past_append _ _
  · rw [segmentLog_append_other hpath]
    exact Past.refl _

theorem segmentLog_eq_none {base : String} (hblocks : ∀ block ∈ blocks, block.1 = base) (hpath : path ≠ base) :
    segmentLog path blocks = none := by
  have hfilter : blocks.filter (fun block => block.1 = path) = [] := by
    rw [List.filter_eq_nil_iff]
    intro block hblock
    rw [hblocks block hblock, decide_eq_true_eq]
    exact Ne.symm hpath
  rw [segmentLog, hfilter]
  rfl

theorem SegmentDisk.written (h : SegmentDisk env threadId blocks disk) (path : String) :
    SegmentWritten env threadId blocks path [] disk := by
  refine ⟨?_, fun other _ => h other⟩
  rw [List.append_nil]
  exact h path

theorem SegmentWritten.complete
    (h : SegmentWritten env threadId blocks path (segmentTexts env threadId (segmentLog path blocks) new) disk) :
    SegmentDisk env threadId (blocks ++ [(path, new)]) disk := by
  intro other
  by_cases hother : other = path
  · rw [hother, segmentLog_append, threadTexts_append]
    exact h.1
  · rw [segmentLog_append_other hother]
    exact h.2 other hother

theorem SegmentSnapshot.later (h : SegmentSnapshot env identityId threadId keeps drafts blocks state)
    (block : String × Log) : SegmentSnapshot env identityId threadId keeps drafts (blocks ++ [block]) state :=
  ⟨h.path, h.snapshot.later (past_segmentLog blocks block _)⟩

theorem SegmentMemory.later {store : Store} (h : SegmentMemory env identityId threadId keeps drafts blocks store)
    (block : String × Log) : SegmentMemory env identityId threadId keeps drafts (blocks ++ [block]) store where
  cache := fun state hstate => (h.cache state hstate).later block
  index := by
    intro index hindex
    obtain ⟨state, hstate, hsnapshot⟩ := h.index index hindex
    exact ⟨state, hstate, hsnapshot.later block⟩

theorem SegmentMemory.forgetCache {store : Store}
    (h : SegmentMemory env identityId threadId keeps drafts blocks store) :
    SegmentMemory env identityId threadId keeps drafts blocks { store with cache := none } where
  cache := by simp
  index := h.index

theorem SegmentMemory.loseIndex {store : Store} (h : SegmentMemory env identityId threadId keeps drafts blocks store) :
    SegmentMemory env identityId threadId keeps drafts blocks { store with index := none } where
  cache := h.cache
  index := by simp

theorem SegmentState.snapshot (h : SegmentState env identityId threadId keeps drafts blocks state) :
    SegmentSnapshot env identityId threadId keeps drafts blocks state :=
  ⟨h.path, _, Past.refl _, h.describes, h.len⟩

theorem SegmentMemory.persist {store : Store} (h : SegmentMemory env identityId threadId keeps drafts blocks store)
    (threadPath : String) (hstate : SegmentState env identityId threadId keeps drafts blocks state) :
    SegmentMemory env identityId threadId keeps drafts blocks
      (persistThreadIndex { store with cache := some state } threadPath state) where
  cache := by
    intro cached hcached
    obtain rfl := Option.some.inj hcached
    exact hstate.snapshot
  index := by
    intro index hindex
    rcases Option.or_eq_some_iff.mp hindex with hwritten | ⟨-, hkept⟩
    · exact ⟨state, writeThreadIndex_indexOf hwritten, hstate.snapshot⟩
    · exact h.index index hkept

theorem SegmentSnapshot.current (h : SegmentSnapshot env identityId threadId keeps drafts blocks state)
    (hdisk : SegmentDisk env threadId blocks disk)
    (hstamp : metadataStamp disk state.relativePath = some state.stamp) :
    SegmentState env identityId threadId keeps drafts blocks state := by
  obtain ⟨hdescribes, hlen⟩ := h.snapshot.current (hdisk state.relativePath) hstamp
  exact ⟨h.path, hdescribes, hlen⟩

theorem Segmented.append {closed : List ClosedTurn} (h : Segmented env identityId threadId drafts closed blocks)
    {turn : ClosedTurn} (hblock : TurnBlock env turn.turnId turn.summary.isSome new)
    (hpath : path ∈ segmentPaths env identityId threadId drafts)
    (hwellFormed : WellFormed env drafts ((segmentLog path blocks).getD [] ++ new)) :
    Segmented env identityId threadId drafts (closed ++ [turn]) (blocks ++ [(path, new)]) where
  count := by rw [List.length_append, List.length_append, h.count]; rfl
  closed := by
    intro i turn' block' hturn hblock'
    rcases Nat.lt_trichotomy i blocks.length with hlt | heq | hgt
    · rw [List.getElem?_append_left (h.count ▸ hlt)] at hturn
      rw [List.getElem?_append_left hlt] at hblock'
      exact h.closed i turn' block' hturn hblock'
    · rw [heq, h.count, List.getElem?_concat_length] at hturn
      rw [heq, List.getElem?_concat_length] at hblock'
      rw [← Option.some.inj hturn, ← Option.some.inj hblock']
      exact hblock
    · rw [List.getElem?_eq_none (by rw [List.length_append]; exact hgt)] at hblock'
      exact nomatch hblock'
  paths := by
    intro block hmem
    rcases List.mem_append.mp hmem with hmem | hmem
    · exact h.paths block hmem
    · rw [List.mem_singleton.mp hmem]
      exact hpath
  wellFormed := by
    intro other
    by_cases hother : other = path
    · rw [hother, segmentLog_append]
      exact hwellFormed
    · rw [segmentLog_append_other hother]
      exact h.wellFormed other

end logs

section resolve

variable {env : Env} {identityId threadId : String} {keeps : Bytes → Prop} {drafts : Set ContentDraft}
  {blocks : List (String × Log)} {closed : List ClosedTurn} {disk disk' : Disk} {state : ThreadState}
  {store store' : Store}
  (hid : isSafePathSegment identityId = true) (hthread : isSafePathSegment threadId = true)
  (hserde : env.serde.Lawful) (hblocks : Segmented env identityId threadId drafts closed blocks)

include hid hthread

include hserde hblocks

theorem loadThreadSource_first (hdisk : SegmentDisk env threadId blocks disk)
    (hload : loadThreadSource env disk identityId threadId = .ok (state, disk'))
    (hshallow : ∀ draft ∈ drafts, Shallow env draft) : state.relativePath = threadRelative identityId threadId := by
  have hfirst : disk = threadDisk env (threadRelative identityId threadId)
      (threadTexts env threadId (segmentLog (threadRelative identityId threadId) blocks)) := by
    funext path
    rw [hdisk path]
    by_cases hpath : path = threadRelative identityId threadId
    · rw [hpath, threadDisk_self]
    · have hnone : segmentLog path blocks = none :=
        segmentLog_eq_none (fun block hblock => (hblocks.paths block hblock).2 hshallow) hpath
      rw [hnone, threadDisk, if_neg hpath]
      rfl
  have hreadable : ∀ draft ∈ drafts, Readable (fun _ => False) env draft :=
    fun draft hdraft => (hshallow draft hdraft).readable
  obtain ⟨found, hfound, hdescribes, -⟩ := loadThreadSource_thread hid hthread hserde
    (hblocks.wellFormed (threadRelative identityId threadId)) hreadable False.elim
  rw [← hfirst, hload] at hfound
  rw [(Prod.mk.inj (Except.ok.inj hfound)).1]
  exact hdescribes.relativePath

theorem loadThreadSource_segments (hkept : ∀ draft ∈ drafts, KeepsDigests keeps env draft)
    (hdisk : SegmentDisk env threadId blocks disk)
    (hload : loadThreadSource env disk identityId threadId = .ok (state, disk')) :
    SegmentState env identityId threadId keeps drafts blocks state ∧ disk' = disk := by
  have hchosen := loadThreadSource_chosen hid hthread hload
  have hpath : state.relativePath ∈ segmentPaths env identityId threadId drafts :=
    ⟨hchosen.path, loadThreadSource_first hid hthread hserde hblocks hdisk hload⟩
  have hwellFormed := hblocks.wellFormed state.relativePath
  have hfile := hdisk state.relativePath
  rcases hchosen.outcome with ⟨parsed, file, hread, hstate, hdisk'⟩ | ⟨hmissing, hstate, hdisk'⟩
  · generalize state.relativePath = path at hwellFormed hfile hread hstate hdisk' hpath
    cases hlog : segmentLog path blocks with
    | none =>
      rw [hfile, hlog] at hread
      exact nomatch hread
    | some log =>
      rw [hlog] at hwellFormed
      rw [hlog, textsFile_thread] at hfile
      rw [hfile] at hread
      obtain ⟨rfl, rfl⟩ := eq_of_readThreadEvents_thread hserde (safe_ne_empty hthread)
        (fun event hevent => (hwellFormed.written event hevent).made) hwellFormed.numbered hread
      have hcandidate := candidateState_describes hserde threadId path
        (fun _ hidentity => hwellFormed.kept hkept hidentity)
        ⟨(threadBytes env threadId (some log)).length, env.modified (log.length + 1)⟩
      rw [hstate]
      refine ⟨⟨?_, ?_, ?_⟩, ?_⟩
      · rw [candidateState_path]
        exact hpath
      · rw [candidateState_path, hlog]
        exact hcandidate
      · rw [candidateState_path, hlog]
        rfl
      · rw [hdisk', ← hfile, Function.update_eq_self]
  · have hnone : segmentLog state.relativePath blocks = none := by
      cases hlog : segmentLog state.relativePath blocks with
      | none => rfl
      | some log =>
        rw [hfile, hlog, textsFile_thread] at hmissing
        exact nomatch hmissing
    refine ⟨⟨hpath, ?_, ?_⟩, hdisk'⟩
    · rw [hnone, hstate]
      exact Describes.empty _ _ env _
    · rw [hnone, hstate]
      rfl

theorem resolveThreadSource_segments (hkept : ∀ draft ∈ drafts, KeepsDigests keeps env draft)
    (hdisk : SegmentDisk env threadId blocks store.disk)
    (hmemory : SegmentMemory env identityId threadId keeps drafts blocks store)
    (hresolve : resolveThreadSource env store identityId threadId = .ok (state, store')) :
    SegmentState env identityId threadId keeps drafts blocks state ∧ store'.disk = store.disk ∧
      SegmentMemory env identityId threadId keeps drafts blocks store' := by
  have hchecked : ∀ cached, store.cache = some cached →
      checkedAbsolutePath cached.relativePath = .ok cached.relativePath :=
    fun cached hcache => checked_candidate hid hthread (hmemory.cache cached hcache).path.1
  rcases resolveThreadSource_ok hchecked hresolve with
    ⟨hcache, hstamp, rfl⟩ | ⟨index, hindex, hload, rfl⟩ | ⟨disk, hload, rfl⟩
  · exact ⟨(hmemory.cache state hcache).current hdisk hstamp, rfl, hmemory⟩
  · obtain ⟨written, hwritten, hsnapshot⟩ := hmemory.index index hindex
    obtain ⟨rfl, hstamp⟩ := loadPersistedThread_indexOf hwritten hload
    refine ⟨hsnapshot.current hdisk hstamp, rfl, ?_, hmemory.index⟩
    intro cached hcache
    obtain rfl := Option.some.inj hcache
    exact hsnapshot
  · obtain ⟨hstate, rfl⟩ := loadThreadSource_segments hid hthread hserde hblocks hkept hdisk hload
    exact ⟨hstate, rfl, hmemory.persist _ hstate⟩

end resolve

section writes

variable {env : Env} {identityId threadId path : String} {keeps : Bytes → Prop} {dedup : Prop}
  {drafts : Set ContentDraft} {base : Option Log} {new : Log} {written : List String} {w : RolloutWriter} {disk : Disk}

theorem Writes.writeLine (h : Writes env threadId keeps dedup drafts path base new written w)
    (hfile : disk path = textsFile env (threadTexts env threadId base ++ written)) :
    ∃ written', Writes env threadId keeps dedup drafts path base new written' (writePendingLine env w disk).1 ∧
      (writePendingLine env w disk).2 =
        Function.update disk path (textsFile env (threadTexts env threadId base ++ written')) := by
  obtain ⟨rest, hpending, hrest⟩ := h.segment.pending
  cases rest with
  | nil =>
    have hsame : writePendingLine env w disk = (w, disk) := by
      rw [writePendingLine, hpending]
      rfl
    rw [hsame]
    refine ⟨written, h, ?_⟩
    rw [← hfile, Function.update_eq_self]
  | cons text rest =>
    have hline : writePendingLine env w disk = ({ w with pending := rest.map textLine },
        disk.appendLine w.relativePath (textLine text) (env.modified (w.lineCount - (rest.map textLine).length))) := by
      rw [writePendingLine, hpending]
      rfl
    have hrelative : w.relativePath = path := h.state.relativePath
    have hcount : w.lineCount - (rest.map textLine).length =
        (threadTexts env threadId base ++ written).length + 1 := by
      have hlines := h.state.lineCount
      rw [← length_threadTexts env threadId, threadTexts_append, ← hrest] at hlines
      have hwriter : w.lineCount = (threadTexts env threadId base ++ (written ++ text :: rest)).length := hlines
      rw [hwriter]
      simp only [List.length_append, List.length_cons, List.length_map]
      omega
    have hmore : (written ++ [text]) ++ rest = segmentTexts env threadId base new := by
      rw [List.append_assoc]
      exact hrest
    rw [hline]
    refine ⟨written ++ [text], ?_, ?_⟩
    · obtain ⟨hthread, hopen, hstart, hend, hevents, hhashed, hbytes, hlen, -⟩ := h.segment
      exact ⟨⟨hthread, hopen, hstart, hend, hevents, hhashed, hbytes, hlen, rest, rfl, hmore⟩, h.state, h.wellFormed⟩
    · dsimp only
      rw [hcount, hrelative, appendLine_textsFile env hfile, List.append_assoc]

theorem Writes.complete (h : Writes env threadId keeps dedup drafts path base new written w) (hpending : w.pending = []) :
    written = segmentTexts env threadId base new := by
  obtain ⟨rest, hrest, hwritten⟩ := h.segment.pending
  rw [hpending] at hrest
  rw [List.map_eq_nil_iff.mp hrest.symm, List.append_nil] at hwritten
  exact hwritten

theorem SegmentWrites.writeLine {blocks : List (String × Log)} {ended : Bool}
    (h : SegmentWrites env identityId threadId keeps drafts disk blocks path new written w ended) :
    ∃ written', SegmentWrites env identityId threadId keeps drafts (writePendingLine env w disk).2 blocks path new written'
      (writePendingLine env w disk).1 ended := by
  obtain ⟨written', hwrites, hdisk⟩ := h.writes.writeLine h.disk.1
  have hturn : (writePendingLine env w disk).1.turnId = w.turnId := by
    unfold writePendingLine
    split <;> rfl
  refine ⟨written', h.place, ?_, hwrites, ?_, ?_⟩
  · rw [hturn]
    exact h.block
  · rw [hdisk, Function.update_self]
  · intro other hother
    rw [hdisk, Function.update_of_ne hother]
    exact h.disk.2 other hother

theorem SegmentWrites.content {blocks : List (String × Log)}
    (h : SegmentWrites env identityId threadId keeps drafts disk blocks path new written w false) {draft : ContentDraft}
    (hdraft : draft ∈ drafts) :
    ∃ new' w', w.appendContent env draft = .ok (w.seq + 1, w') ∧
      SegmentWrites env identityId threadId keeps drafts disk blocks path new' written w' false := by
  refine ⟨_, _, appendContent_eq h.writes.segment.isOpen draft, h.place, ?_, h.writes.content hdraft False.elim, h.disk⟩
  rw [keepItem_eq, RolloutWriter.recordEvent_eq]
  exact OpenBlock.append h.block (body_isContentType draft.body)

theorem SegmentWrites.ended {blocks : List (String × Log)}
    (h : SegmentWrites env identityId threadId keeps drafts disk blocks path new written w false)
    (turnEnd : TurnEndEvent) :
    ∃ new' w', endTurn env w turnEnd.status turnEnd.httpStatus turnEnd.errorCode = .ok w' ∧ w'.turnId = w.turnId ∧
      SegmentWrites env identityId threadId keeps drafts disk blocks path new' written w' true := by
  obtain ⟨happend, hended⟩ := h.writes.appendControl (.turnEnd turnEnd) rfl
  refine ⟨_, _, happend, ?_, h.place, ?_, hended, h.disk⟩
  · rw [RolloutWriter.recordEvent_eq]
  · rw [RolloutWriter.recordEvent_eq]
    exact ⟨new, _, rfl, h.block, rfl⟩

theorem flushWriter_writeLine (env : Env) (w : RolloutWriter) (store : Store) :
    flushWriter env (writePendingLine env w store.disk).1 { store with disk := (writePendingLine env w store.disk).2 } =
      flushWriter env w store := by
  obtain ⟨line, rest, hpending⟩ | hpending : (∃ line rest, w.pending = line :: rest) ∨ w.pending = [] := by
    cases w.pending with
    | nil => exact .inr rfl
    | cons line rest => exact .inl ⟨line, rest, rfl⟩
  · simp only [flushWriter, writePendingLine, hpending, writePendingLines]
  · simp only [flushWriter, writePendingLine, hpending]

theorem SegmentWrites.flush {blocks : List (String × Log)} {ended : Bool} {store : Store}
    (h : SegmentWrites env identityId threadId keeps drafts store.disk blocks path new written w ended) :
    SegmentWrites env identityId threadId keeps drafts (flushWriter env w store).2.disk blocks path new
      (segmentTexts env threadId (segmentLog path blocks) new) (flushWriter env w store).1 ended := by
  obtain ⟨n, hn⟩ : ∃ n, w.pending.length = n := ⟨_, rfl⟩
  induction n generalizing w written store with
  | zero =>
    have hpending : w.pending = [] := List.eq_nil_of_length_eq_zero hn
    obtain rfl := h.writes.complete hpending
    have hsame : flushWriter env w store = (w, store) := by
      rw [flushWriter, hpending, writePendingLines, ← hpending]
    rw [hsame]
    exact h
  | succ n ih =>
    obtain ⟨written', hnext⟩ := h.writeLine
    have hlength : (writePendingLine env w store.disk).1.pending.length = n := by
      obtain ⟨line, rest, hpending⟩ := List.exists_cons_of_length_eq_add_one hn
      rw [hpending, List.length_cons, Nat.add_right_cancel_iff] at hn
      rw [writePendingLine, hpending]
      exact hn
    have hstored : SegmentWrites env identityId threadId keeps drafts
        ({ store with disk := (writePendingLine env w store.disk).2 } : Store).disk blocks path new written'
        (writePendingLine env w store.disk).1 ended := hnext
    rw [← flushWriter_writeLine]
    exact ih hstored hlength

theorem SegmentWrites.complete {blocks : List (String × Log)} {ended : Bool}
    (h : SegmentWrites env identityId threadId keeps drafts disk blocks path new written w ended)
    (hpending : w.pending = []) :
    SegmentDisk env threadId (blocks ++ [(path, new)]) disk := by
  obtain rfl := h.writes.complete hpending
  exact h.disk.complete

theorem SegmentWrites.state {blocks : List (String × Log)} {ended : Bool}
    (h : SegmentWrites env identityId threadId keeps drafts disk blocks path new written w ended) (stamp : FileStamp)
    (hstamp : stamp.len = (threadBytes env threadId (segmentLog path (blocks ++ [(path, new)]))).length) :
    SegmentState env identityId threadId keeps drafts (blocks ++ [(path, new)]) (w.threadState stamp) := by
  have hrelative : (w.threadState stamp).relativePath = path := h.writes.state.relativePath
  refine ⟨?_, ?_, ?_⟩
  · rw [hrelative]
    exact h.place
  · rw [hrelative, segmentLog_append]
    exact h.writes.state.restamp stamp
  · rw [hrelative]
    exact hstamp

end writes

end Prelay.Rollout
