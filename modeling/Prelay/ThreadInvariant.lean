import Prelay.ThreadRun

namespace Prelay.Rollout

open Json

section writer

variable {env : Env} {threadId path : String} {keeps : Bytes → Prop} {dedup : Prop} {drafts : Set ContentDraft}
  {base : Option Log} {new : Log} {w : RolloutWriter}

theorem Describes.restamp {stamp : FileStamp} {log : Option Log}
    (h : Describes keeps dedup env path (w.threadState stamp) log) (stamp' : FileStamp) :
    Describes keeps dedup env path (w.threadState stamp') log :=
  ⟨h.relativePath, h.format, h.lineCount, h.seq, h.window, h.eventRefs, h.eventSeqs, h.contentEventCount,
    h.content, h.itemRefs, h.itemSeqs⟩

def threadStamp (env : Env) (threadId : String) (log : Log) : FileStamp :=
  ⟨(threadBytes env threadId (some log)).length, env.modified (log.length + 1)⟩

theorem metadataStamp_thread {disk : Disk} {log : Log}
    (hfile : disk path = textsFile env (threadTexts env threadId (some log))) :
    metadataStamp disk path = some (threadStamp env threadId log) := by
  rw [metadataStamp, hfile, textsFile_thread]
  rfl

theorem Writes.publishState {written : List String} (h : Writes env threadId keeps dedup drafts path base new written w)
    {store : Store}
    (hfile : store.disk path = textsFile env (threadTexts env threadId (some (base.getD [] ++ new)))) :
    publishState w store = persistThreadIndex
      { store with cache := some (w.threadState (threadStamp env threadId (base.getD [] ++ new))) } w.threadPath
      (w.threadState (threadStamp env threadId (base.getD [] ++ new))) := by
  have hrelative : w.relativePath = path := h.state.relativePath
  have hlen : (threadStamp env threadId (base.getD [] ++ new)).len = w.expectedLen + w.byteSize :=
    h.segment.expected_length.symm
  unfold Rollout.publishState
  rw [hrelative, metadataStamp_thread hfile]
  simp only [hlen, ne_eq, not_true_eq_false, ↓reduceIte]

theorem Writes.summaryOf {written : List String} (h : Writes env threadId keeps dedup drafts path base new written w)
    (status : RolloutStatus) : SummaryOf env threadId path base new (w.summaryWithStatus env status) where
  relativePath := h.state.relativePath
  startLine := h.segment.startLine
  endLine := h.segment.endLine.trans h.state.lineCount
  eventCount := h.segment.eventCount
  byteSize := by
    rw [← h.segment.hashed]
    exact h.segment.byteSize
  sha256 := by
    rw [← h.segment.hashed]
    rfl

theorem OpenBlock.append {turnId : String} (h : OpenBlock env turnId new) {event : ConversationEvent}
    (hevent : isContentType event.eventType = true) : OpenBlock env turnId (new ++ [event]) := by
  obtain ⟨window, turn, before, context, after, rfl, hwindow, hturn, hid, hbefore, hcontext, hafter⟩ := h
  refine ⟨window, turn, before, context, after ++ [event], by simp, hwindow, hturn, hid, hbefore, hcontext, ?_⟩
  intro e he
  rcases List.mem_append.mp he with he | he
  · exact hafter e he
  · rw [List.mem_singleton.mp he]
    exact hevent

end writer

section step

variable {env : Env} {identityId threadId : String} {keeps : Bytes → Prop} {dedup : Prop}
  {drafts : Set ContentDraft} {t : Thread} {blocks : List Log} {current : Option Log}

theorem Good.base {new : Log} {w : RolloutWriter}
    (h : Good env threadId (threadRelative identityId threadId) keeps dedup drafts t blocks (some new))
    (hw : t.writer = some w) :
    OpenBlock env w.turnId new ∧ Writes env threadId keeps dedup drafts (threadRelative identityId threadId)
      (closedLog blocks) new (segmentTexts env threadId (closedLog blocks) new) w := by
  simpa [hw] using h.writer

theorem Good.idle (h : Good env threadId (threadRelative identityId threadId) keeps dedup drafts t blocks current)
    (hw : t.writer = none) : current = none := by
  cases current with
  | none => rfl
  | some new => exact absurd h.writer (by simp [hw])

theorem Good.writing {w : RolloutWriter}
    (h : Good env threadId (threadRelative identityId threadId) keeps dedup drafts t blocks current)
    (hw : t.writer = some w) : ∃ new, current = some new := by
  cases current with
  | none => exact absurd h.writer (by simp [hw])
  | some new => exact ⟨new, rfl⟩

theorem Good.opened {new : Log}
    (h : Good env threadId (threadRelative identityId threadId) keeps dedup drafts t blocks (some new)) :
    ∃ w, t.writer = some w := by
  cases hw : t.writer with
  | none => exact absurd h.writer (by simp [hw])
  | some w => exact ⟨w, rfl⟩

theorem Good.mono {drafts' : Set ContentDraft}
    (h : Good env threadId (threadRelative identityId threadId) keeps dedup drafts t blocks current)
    (hdrafts : drafts ⊆ drafts') :
    Good env threadId (threadRelative identityId threadId) keeps dedup drafts' t blocks current where
  count := h.count
  closed := h.closed
  writer := by
    cases hw : t.writer with
    | none =>
      obtain rfl := h.idle hw
      trivial
    | some w =>
      obtain ⟨new, rfl⟩ := h.writing hw
      obtain ⟨hblock, hwrites⟩ := h.base hw
      exact ⟨hblock, hwrites.segment, hwrites.state, hwrites.wellFormed.mono hdrafts⟩
  disk := h.disk
  wellFormed := h.wellFormed.mono hdrafts
  remembers := h.remembers

theorem Good.initial :
    Good env threadId (threadRelative identityId threadId) keeps dedup drafts {} [] none where
  count := rfl
  closed := nofun
  writer := trivial
  disk := by
    funext p
    simp [threadDisk, textsFile, threadLog, closedLog, threadTexts]
  wellFormed := ⟨rfl, nofun⟩
  remembers := ⟨nofun, nofun⟩

theorem Good.extend {more : Log} {written : List String} {w : RolloutWriter} {store : Store}
    (h : Good env threadId (threadRelative identityId threadId) keeps dedup drafts t blocks current)
    (hpast : Past (threadLog blocks current) (threadLog blocks (some more)))
    (hw : Writes env threadId keeps dedup drafts (threadRelative identityId threadId) (closedLog blocks) more written w)
    (hblock : OpenBlock env w.turnId more)
    (hdisk : store.disk = threadDisk env (threadRelative identityId threadId)
      (threadTexts env threadId (closedLog blocks) ++ written))
    (hremembers : Remembers env threadId (threadRelative identityId threadId) keeps dedup
      (threadLog blocks current) store) :
    Good env threadId (threadRelative identityId threadId) keeps dedup drafts
      { t with store := (flushWriter env w store).2, writer := some (flushWriter env w store).1 } blocks
      (some more) := by
  obtain ⟨hflushed, hafter⟩ := hw.flush hdisk
  have hlater := hremembers.later hpast
  exact ⟨h.count, h.closed, ⟨hblock, hflushed⟩, hafter, hw.wellFormed, hlater.cache, hlater.index⟩

theorem Good.close {block : Log} {turn : ClosedTurn} {store : Store}
    (h : Good env threadId (threadRelative identityId threadId) keeps dedup drafts t blocks current)
    (hblock : ClosedBlock env threadId (threadRelative identityId threadId) (closedLog blocks) turn block)
    (hwellFormed : WellFormed env drafts ((closedLog (blocks ++ [block])).getD []))
    (hdisk : store.disk = threadDisk env (threadRelative identityId threadId)
      (threadTexts env threadId (closedLog (blocks ++ [block]))))
    (hremembers : Remembers env threadId (threadRelative identityId threadId) keeps dedup
      (closedLog (blocks ++ [block])) store) :
    Good env threadId (threadRelative identityId threadId) keeps dedup drafts
      { store := store, writer := none, closed := t.closed ++ [turn] } (blocks ++ [block]) none where
  count := by simp [h.count]
  closed := by
    intro i turn' block' hturn hblock'
    rcases Nat.lt_trichotomy i blocks.length with hlt | heq | hgt
    · rw [List.getElem?_append_left (h.count ▸ hlt)] at hturn
      rw [List.getElem?_append_left hlt] at hblock'
      rw [List.take_append_of_le_length hlt.le]
      exact h.closed i turn' block' hturn hblock'
    · subst heq
      simp only [← h.count, List.getElem?_concat_length, Option.some.injEq] at hturn
      simp only [List.getElem?_concat_length, Option.some.injEq] at hblock'
      subst hturn hblock'
      simpa using hblock
    · rw [List.getElem?_eq_none (by simp; omega)] at hblock'
      exact absurd hblock' (Option.some_ne_none block').symm
  writer := trivial
  disk := hdisk
  wellFormed := hwellFormed
  remembers := hremembers

theorem past_threadLog (blocks : List Log) (new : Log) (event : ConversationEvent) :
    Past (threadLog blocks (some new)) (threadLog blocks (some (new ++ [event]))) := by
  simpa [threadLog] using past_append (threadLog blocks (some new)) [event]

theorem beginTurn_writes (hid : isSafePathSegment identityId = true) (hthread : isSafePathSegment threadId = true)
    {store store' : Store} {state : ThreadState} {base : Option Log} (request : TurnRequest)
    (hresolve : resolveThreadSource env store identityId threadId = .ok (state, store'))
    (hstate : Describes keeps dedup env (threadRelative identityId threadId) state base)
    (hlen : state.stamp.len = (threadBytes env threadId base).length)
    (hwellFormed : WellFormed env drafts (base.getD [])) (hdedup : dedup → Deduplicable env drafts)
    (hdrafts : ∀ draft ∈ request.events, draft ∈ drafts) :
    ∃ new w, beginTurn env identityId ⟨threadId, request.windowId, request.generation⟩ request.turn request.turnId
        request.events store = .ok (w, store') ∧
      Writes env threadId keeps dedup drafts (threadRelative identityId threadId) base new [] w ∧
      w.turnId = request.turnId ∧ OpenBlock env request.turnId new := by
  obtain ⟨new, w, hopen, hw, hturn, hblock⟩ :=
    Writes.openTurn (threadRelative identityId threadId) ⟨threadId, request.windowId, request.generation⟩ request.turn
      request.turnId hstate hlen hwellFormed rfl hdedup hdrafts
  refine ⟨new, w, ?_, hw, hturn, hblock⟩
  simp only [beginTurn, hid, hthread, Bool.not_true, Bool.false_eq_true, ↓reduceIte, hresolve, bind, Except.bind,
    hstate.relativePath, checked_threadRelative hid hthread, checked_indexRelative hid hthread, hopen]

theorem Good.begun (h : Good env threadId (threadRelative identityId threadId) keeps dedup drafts t blocks none)
    (hid : isSafePathSegment identityId = true) (hthread : isSafePathSegment threadId = true)
    (hserde : env.serde.Lawful) (hreads : ∀ draft ∈ drafts, Readable keeps env draft)
    (hdedup : dedup → Deduplicable env drafts) {request : TurnRequest}
    (hdrafts : ∀ draft ∈ request.events, draft ∈ drafts) :
    ∃ t' new, t.begun env identityId threadId request = .ok t' ∧
      Good env threadId (threadRelative identityId threadId) keeps dedup drafts t' blocks (some new) := by
  obtain ⟨state, store, hresolve, hstate, hlen, hdisk, hremembers⟩ :=
    resolveThreadSource_thread hid hthread hserde h.disk h.wellFormed hreads (fun hd => (hdedup hd).readsBack)
      h.remembers
  obtain ⟨new, w, hbegin, hw, hturn, hblock⟩ :=
    beginTurn_writes hid hthread request hresolve hstate hlen h.wellFormed hdedup hdrafts
  have hbegun : t.begun env identityId threadId request =
      .ok { t with store := (flushWriter env w store).2, writer := some (flushWriter env w store).1 } := by
    simp only [Thread.begun, hbegin, bind, Except.bind]
  refine ⟨_, new, hbegun, ?_⟩
  apply h.extend (past_append _ _) hw (hturn ▸ hblock)
  · rw [hdisk, List.append_nil]
    exact h.disk
  · exact hremembers

theorem Good.appended {new : Log} {w : RolloutWriter}
    (h : Good env threadId (threadRelative identityId threadId) keeps dedup drafts t blocks (some new))
    (hw : t.writer = some w) (hdedup : dedup → Deduplicable env drafts) {draft : ContentDraft}
    (hdraft : draft ∈ drafts) :
    ∃ t', t.appended env w draft = .ok t' ∧
      Good env threadId (threadRelative identityId threadId) keeps dedup drafts t' blocks
        (some (new ++ [w.nextEvent env draft.body.eventType (storedPayload env draft.body.members)])) := by
  obtain ⟨hblock, hwrites⟩ := h.base hw
  have hnext := hwrites.content hdraft (fun hd => (hdedup hd).recoverable draft hdraft)
  have happended : t.appended env w draft = .ok { t with
      store := (flushWriter env ((w.recordEvent env draft.body.eventType (storedPayload env draft.body.members)
        true).keepItem (draftKey draft.body.eventType draft) (w.seq + 1)) t.store).2
      writer := some (flushWriter env ((w.recordEvent env draft.body.eventType (storedPayload env draft.body.members)
        true).keepItem (draftKey draft.body.eventType draft) (w.seq + 1)) t.store).1 } := by
    simp only [Thread.appended, appendContent_eq hwrites.segment.isOpen, bind, Except.bind]
  refine ⟨_, happended, h.extend ?_ hnext ?_ ?_ h.remembers⟩
  · exact past_threadLog blocks new _
  · rw [keepItem_eq, RolloutWriter.recordEvent_eq]
    exact hblock.append (body_isContentType draft.body)
  · rw [h.disk, threadLog, threadTexts_append]

def endedWriter (env : Env) (w : RolloutWriter) (turnEnd : TurnEndEvent) : RolloutWriter :=
  { w.recordEvent env "turn_end" (storedPayload env turnEnd.members) false with pending := [] }

theorem Good.ended {new : Log} {w : RolloutWriter}
    (h : Good env threadId (threadRelative identityId threadId) keeps dedup drafts t blocks (some new))
    (hw : t.writer = some w) (turnEnd : TurnEndEvent) :
    ∃ last store, last.eventType = "turn_end" ∧
      Writes env threadId keeps dedup drafts (threadRelative identityId threadId) (closedLog blocks) (new ++ [last])
        (segmentTexts env threadId (closedLog blocks) (new ++ [last])) (endedWriter env w turnEnd) ∧
      store.disk = threadDisk env (threadRelative identityId threadId)
        (threadTexts env threadId (closedLog (blocks ++ [new ++ [last]]))) ∧
      store.cache = t.store.cache ∧ store.index = t.store.index ∧
      t.finished env w turnEnd.status turnEnd.httpStatus turnEnd.errorCode = .ok {
        store := publishState (endedWriter env w turnEnd) store
        writer := none
        closed := t.closed ++ [⟨w.turnId, some ((endedWriter env w turnEnd).summaryWithStatus env turnEnd.status)⟩] } := by
  obtain ⟨hblock, hwrites⟩ := h.base hw
  obtain ⟨happend, hended⟩ := hwrites.appendControl (.turnEnd turnEnd) rfl
  have hdisk : t.store.disk = threadDisk env (threadRelative identityId threadId) (threadTexts env threadId
      (closedLog blocks) ++ segmentTexts env threadId (closedLog blocks) new) := by
    rw [h.disk, threadLog, threadTexts_append]
  obtain ⟨hflushed, hafter⟩ := hended.flush hdisk
  refine ⟨_, (flushWriter env (w.recordEvent env "turn_end" (storedPayload env turnEnd.members) false) t.store).2,
    rfl, hflushed, ?_, rfl, rfl, ?_⟩
  · rw [closedLog_append]
    exact hafter
  · simp only [Thread.finished, finishWith, hwrites.segment.isOpen, endTurn, bind, Except.bind]
    rw [happend]
    rfl

theorem Good.finished {new : Log} {w : RolloutWriter}
    (h : Good env threadId (threadRelative identityId threadId) keeps dedup drafts t blocks (some new))
    (hw : t.writer = some w) (turnEnd : TurnEndEvent) :
    ∃ t' last, t.finished env w turnEnd.status turnEnd.httpStatus turnEnd.errorCode = .ok t' ∧
      Good env threadId (threadRelative identityId threadId) keeps dedup drafts t' (blocks ++ [new ++ [last]]) none := by
  obtain ⟨hblock, -⟩ := h.base hw
  obtain ⟨last, store, hlast, hwrites, hdisk, hcache, hindex, hfinished⟩ := h.ended hw turnEnd
  have hlog := closedLog_append blocks (new ++ [last])
  have hpast : Past (threadLog blocks (some new)) (closedLog (blocks ++ [new ++ [last]])) := by
    rw [hlog]
    exact past_threadLog blocks new last
  have hlater := h.remembers.later hpast
  have hfile : store.disk (threadRelative identityId threadId) =
      textsFile env (threadTexts env threadId (some ((closedLog blocks).getD [] ++ (new ++ [last])))) := by
    rw [hdisk, hlog, threadDisk_self]
  refine ⟨_, last, hfinished, h.close ?_ ?_ ?_ ?_⟩
  · exact ⟨⟨new, last, rfl, hblock, hlast⟩, hwrites.summaryOf turnEnd.status⟩
  · rw [hlog]
    exact hwrites.wellFormed
  · rw [hwrites.publishState hfile]
    exact hdisk
  · rw [hwrites.publishState hfile]
    apply Remembers.persist ⟨hcache ▸ hlater.cache, hindex ▸ hlater.index⟩
    · rw [hlog]
      exact hwrites.state.restamp _
    · rw [hlog]
      rfl

/-- A step keeps the invariant, and the log only grows. -/
theorem Good.step (h : Good env threadId (threadRelative identityId threadId) keeps dedup drafts t blocks current)
    (hid : isSafePathSegment identityId = true) (hthread : isSafePathSegment threadId = true)
    (hserde : env.serde.Lawful) (hreads : ∀ draft ∈ drafts, Readable keeps env draft)
    (hdedup : dedup → Deduplicable env drafts) {op : ThreadOp}
    (hdrafts : ∀ draft ∈ op.drafts, draft ∈ drafts) :
    ∃ blocks' current', Good env threadId (threadRelative identityId threadId) keeps dedup drafts
        (t.step env identityId threadId op) blocks' current' ∧
      Past (threadLog blocks current) (threadLog blocks' current') := by
  cases op with
  | beginTurn request =>
    cases hw : t.writer with
    | none =>
      obtain rfl := h.idle hw
      obtain ⟨t', new, hbegun, hgood⟩ := h.begun hid hthread hserde hreads hdedup hdrafts
      refine ⟨blocks, some new, ?_, past_append _ _⟩
      simp only [Thread.step, hw, hbegun]
      exact hgood
    | some w => exact ⟨blocks, current, by simpa [Thread.step, hw] using h, Past.refl _⟩
  | appendContent draft =>
    cases hw : t.writer with
    | none => exact ⟨blocks, current, by simpa [Thread.step, hw] using h, Past.refl _⟩
    | some w =>
      obtain ⟨new, rfl⟩ := h.writing hw
      obtain ⟨t', happended, hgood⟩ := h.appended hw hdedup (hdrafts draft (List.mem_singleton.mpr rfl))
      refine ⟨blocks, _, ?_, past_threadLog blocks new
        (w.nextEvent env draft.body.eventType (storedPayload env draft.body.members))⟩
      simp only [Thread.step, hw, happended]
      exact hgood
  | finish status httpStatus errorCode =>
    cases hw : t.writer with
    | none => exact ⟨blocks, current, by simpa [Thread.step, hw] using h, Past.refl _⟩
    | some w =>
      obtain ⟨new, rfl⟩ := h.writing hw
      obtain ⟨t', last, hfinished, hgood⟩ := h.finished hw ⟨status, httpStatus, errorCode⟩
      refine ⟨blocks ++ [new ++ [last]], none, ?_, ?_⟩
      · simp only [Thread.step, hw, hfinished]
        exact hgood
      · rw [show threadLog (blocks ++ [new ++ [last]]) none = _ from closedLog_append blocks (new ++ [last])]
        exact past_threadLog blocks new last
  | drop =>
    cases hw : t.writer with
    | none => exact ⟨blocks, current, by simpa [Thread.step, hw] using h, Past.refl _⟩
    | some w =>
      obtain ⟨new, rfl⟩ := h.writing hw
      obtain ⟨hblock, hwrites⟩ := h.base hw
      have hlog : threadLog blocks (some new) = closedLog (blocks ++ [new]) := (closedLog_append blocks new).symm
      refine ⟨blocks ++ [new], none, ?_, hlog ▸ Past.refl _⟩
      simp only [Thread.step, hw]
      exact h.close hblock (hlog ▸ h.wellFormed) (hlog ▸ h.disk) (hlog ▸ h.remembers)
  | forgetCache =>
    exact ⟨blocks, current, ⟨h.count, h.closed, h.writer, h.disk, h.wellFormed, nofun, h.remembers.index⟩, Past.refl _⟩
  | loseIndex =>
    exact ⟨blocks, current, ⟨h.count, h.closed, h.writer, h.disk, h.wellFormed, h.remembers.cache, nofun⟩, Past.refl _⟩

theorem Good.steps (h : Good env threadId (threadRelative identityId threadId) keeps dedup drafts t blocks current)
    (hid : isSafePathSegment identityId = true) (hthread : isSafePathSegment threadId = true)
    (hserde : env.serde.Lawful) (hreads : ∀ draft ∈ drafts, Readable keeps env draft)
    (hdedup : dedup → Deduplicable env drafts) (ops : List ThreadOp)
    (hdrafts : ∀ op ∈ ops, ∀ draft ∈ op.drafts, draft ∈ drafts) :
    ∃ blocks' current', Good env threadId (threadRelative identityId threadId) keeps dedup drafts
        (ops.foldl (Thread.step env identityId threadId) t) blocks' current' ∧
      Past (threadLog blocks current) (threadLog blocks' current') := by
  induction ops generalizing t blocks current with
  | nil => exact ⟨blocks, current, h, Past.refl _⟩
  | cons op ops ih =>
    obtain ⟨blocks', current', hstep, hpast⟩ := h.step hid hthread hserde hreads hdedup (hdrafts op List.mem_cons_self)
    obtain ⟨blocks'', current'', hrest, hlater⟩ := ih hstep (fun o ho => hdrafts o (List.mem_cons_of_mem _ ho))
    exact ⟨blocks'', current'', hrest, hpast.trans hlater⟩

/-- In every run of turns the thread file holds the blocks of the turns in order. -/
theorem run_good (hid : isSafePathSegment identityId = true) (hthread : isSafePathSegment threadId = true)
    (hserde : env.serde.Lawful) (hreads : ∀ draft ∈ drafts, Readable keeps env draft)
    (hdedup : dedup → Deduplicable env drafts) (ops : List ThreadOp)
    (hdrafts : ∀ op ∈ ops, ∀ draft ∈ op.drafts, draft ∈ drafts) :
    ∃ blocks current, Good env threadId (threadRelative identityId threadId) keeps dedup drafts
      (Thread.run env identityId threadId ops) blocks current := by
  have hinitial : Good env threadId (threadRelative identityId threadId) keeps dedup drafts {} [] none := Good.initial
  obtain ⟨blocks, current, h, -⟩ := hinitial.steps hid hthread hserde hreads hdedup ops hdrafts
  exact ⟨blocks, current, h⟩

/-- The lines of all that is handed over are nested no deeper than the reader allows. -/
def ShallowOps (env : Env) (ops : List ThreadOp) : Prop := ∀ op ∈ ops, ∀ draft ∈ op.drafts, Shallow env draft

/-- The lines of all that is handed over give it back. -/
def ReadsBackOps (env : Env) (ops : List ThreadOp) : Prop := ∀ op ∈ ops, ∀ draft ∈ op.drafts, ReadsBack env draft

instance (env : Env) (ops : List ThreadOp) : Decidable (ShallowOps env ops) :=
  inferInstanceAs (Decidable (∀ op ∈ ops, ∀ draft ∈ op.drafts, Shallow env draft))

instance (env : Env) (ops : List ThreadOp) : Decidable (ReadsBackOps env ops) :=
  inferInstanceAs (Decidable (∀ op ∈ ops, ∀ draft ∈ op.drafts, ReadsBack env draft))

theorem ReadsBackOps.readsBack {ops : List ThreadOp} {request : TurnRequest}
    (h : ReadsBackOps env (ops ++ [ThreadOp.beginTurn request])) :
    ∀ draft ∈ {draft | (∃ op ∈ ops, draft ∈ op.drafts) ∨ draft ∈ request.events}, ReadsBack env draft := by
  rintro draft (⟨op, hop, hdraft⟩ | hdraft)
  · exact h op (List.mem_append_left _ hop) draft hdraft
  · exact h (.beginTurn request) (by simp) draft hdraft

theorem run_good_structure (hid : isSafePathSegment identityId = true) (hthread : isSafePathSegment threadId = true)
    (hserde : env.serde.Lawful) (ops : List ThreadOp) (hshallow : ShallowOps env ops) :
    ∃ blocks current, Good env threadId (threadRelative identityId threadId) (fun _ => False) False
      {draft | Shallow env draft} (Thread.run env identityId threadId ops) blocks current :=
  run_good hid hthread hserde (fun _ hdraft => Shallow.readable hdraft) nofun ops hshallow

theorem run_good_reads (hid : isSafePathSegment identityId = true) (hthread : isSafePathSegment threadId = true)
    (hserde : env.serde.Lawful) (ops : List ThreadOp) (hreads : ReadsBackOps env ops) :
    ∃ blocks current, Good env threadId (threadRelative identityId threadId) (fun _ => True) False
      (readBack env) (Thread.run env identityId threadId ops) blocks current :=
  run_good hid hthread hserde (fun _ hdraft => ReadsBack.readable hdraft _) nofun ops hreads

end step

end Prelay.Rollout
