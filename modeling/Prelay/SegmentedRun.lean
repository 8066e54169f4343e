import Prelay.ThreadSegments

namespace Prelay.Rollout

open Json

section spread

variable (env : Env) (identityId threadId : String) (keeps : Bytes → Prop) (drafts : Set ContentDraft)

/-- A thread whose files hold the given blocks, and behind them the lines of the open turn. -/
structure Spread (t : Thread) (blocks : List (String × Log)) : Prop where
  settled : Segmented env identityId threadId drafts t.closed blocks
  remembers : SegmentMemory env identityId threadId keeps drafts blocks t.store
  idle : t.writer = none → SegmentDisk env threadId blocks t.store.disk
  writing : ∀ w, t.writer = some w → ∃ path new, SegmentWrites env identityId threadId keeps drafts t.store.disk blocks
    path new (segmentTexts env threadId (segmentLog path blocks) new) w false

end spread

section step

variable {env : Env} {identityId threadId : String} {keeps : Bytes → Prop} {drafts : Set ContentDraft}
  {t t' : Thread} {blocks : List (String × Log)} {w : RolloutWriter}

theorem Spread.initial : Spread env identityId threadId keeps drafts {} [] where
  settled := ⟨rfl, nofun, fun _ hmem => absurd hmem List.not_mem_nil, fun _ => ⟨rfl, nofun⟩⟩
  remembers := ⟨nofun, nofun⟩
  idle := fun _ _ => rfl
  writing := nofun

theorem Spread.written (h : Spread env identityId threadId keeps drafts t blocks) {store : Store}
    (hremembers : SegmentMemory env identityId threadId keeps drafts blocks store) {path : String} {new : Log}
    {written : List String}
    (hw : SegmentWrites env identityId threadId keeps drafts store.disk blocks path new written w false) :
    Spread env identityId threadId keeps drafts
      { t with store := (flushWriter env w store).2, writer := some (flushWriter env w store).1 } blocks where
  settled := h.settled
  remembers := ⟨hremembers.cache, hremembers.index⟩
  idle := nofun
  writing := by
    intro w' hw'
    obtain rfl := Option.some.inj hw'
    exact ⟨path, new, hw.flush⟩

theorem Spread.closed (h : Spread env identityId threadId keeps drafts t blocks) {path : String} {new : Log}
    {written : List String} {ended : Bool} {disk : Disk} {turn : ClosedTurn} {store : Store}
    (hw : SegmentWrites env identityId threadId keeps drafts disk blocks path new written w ended)
    (hturn : turn.turnId = w.turnId) (hended : turn.summary.isSome = ended)
    (hdisk : SegmentDisk env threadId (blocks ++ [(path, new)]) store.disk)
    (hremembers : SegmentMemory env identityId threadId keeps drafts (blocks ++ [(path, new)]) store) :
    Spread env identityId threadId keeps drafts
      { store := store, writer := none, closed := t.closed ++ [turn] } (blocks ++ [(path, new)]) where
  settled := h.settled.append (by rw [hturn, hended]; exact hw.block) hw.place hw.writes.wellFormed
  remembers := hremembers
  idle := fun _ => hdisk
  writing := nofun

/-- A begin resolves a file of the thread and writes the lines of its turn behind those that are there. -/
theorem Spread.begun (h : Spread env identityId threadId keeps drafts t blocks)
    (hid : isSafePathSegment identityId = true) (hthread : isSafePathSegment threadId = true)
    (hserde : env.serde.Lawful) (hkept : ∀ draft ∈ drafts, KeepsDigests keeps env draft) (hidle : t.writer = none)
    {request : TurnRequest} (hbegun : t.begun env identityId threadId request = .ok t') :
    ∃ state store w, SegmentState env identityId threadId keeps drafts blocks state ∧ store.disk = t.store.disk ∧
      SegmentMemory env identityId threadId keeps drafts blocks store ∧
      (RolloutWriter.fromState state (threadRelative identityId threadId)
        ⟨threadId, request.windowId, request.generation⟩ request.turn request.turnId).openTurn env state
        ⟨threadId, request.windowId, request.generation⟩ request.turn request.events = .ok w ∧
      t' = { t with store := (flushWriter env w store).2, writer := some (flushWriter env w store).1 } := by
  obtain ⟨⟨w, store⟩, hbegin, ht'⟩ := bind_ok hbegun
  simp only [beginTurn, hid, hthread, Bool.not_true, Bool.false_eq_true, ↓reduceIte] at hbegin
  obtain ⟨⟨state, resolved⟩, hresolve, hrest⟩ := bind_ok hbegin
  obtain ⟨hstate, hdisk, hremembers⟩ :=
    resolveThreadSource_segments hid hthread hserde h.settled hkept (h.idle hidle) h.remembers hresolve
  simp only [checked_candidate hid hthread hstate.path.1, checked_threadRelative hid hthread,
    checked_indexRelative hid hthread, bind, Except.bind] at hrest
  obtain ⟨opened, hopen, hpair⟩ := bind_ok hrest
  obtain ⟨rfl, rfl⟩ := Prod.mk.inj (Except.ok.inj hpair)
  exact ⟨state, resolved, opened, hstate, hdisk, hremembers, hopen, (Except.ok.inj ht').symm⟩

theorem Spread.beginTurn (h : Spread env identityId threadId keeps drafts t blocks)
    (hid : isSafePathSegment identityId = true) (hthread : isSafePathSegment threadId = true)
    (hserde : env.serde.Lawful) (hkept : ∀ draft ∈ drafts, KeepsDigests keeps env draft) (hidle : t.writer = none)
    {request : TurnRequest} (hdrafts : ∀ draft ∈ request.events, draft ∈ drafts)
    (hbegun : t.begun env identityId threadId request = .ok t') :
    Spread env identityId threadId keeps drafts t' blocks := by
  obtain ⟨state, store, w, hstate, hdisk, hremembers, hopen, rfl⟩ := h.begun hid hthread hserde hkept hidle hbegun
  obtain ⟨new, w', hopen', hw, hturn, hblock⟩ :=
    Writes.openTurn (threadRelative identityId threadId) ⟨threadId, request.windowId, request.generation⟩
      request.turn request.turnId hstate.describes hstate.len (h.settled.wellFormed _) rfl False.elim hdrafts
  obtain rfl := Except.ok.inj (hopen.symm.trans hopen')
  refine h.written hremembers ⟨hstate.path, ?_, hw, ?_⟩
  · rw [hturn]
    exact hblock
  · rw [hdisk]
    exact (h.idle hidle).written _

theorem Spread.appended (h : Spread env identityId threadId keeps drafts t blocks) (hw : t.writer = some w)
    {draft : ContentDraft} (hdraft : draft ∈ drafts) (happended : t.appended env w draft = .ok t') :
    Spread env identityId threadId keeps drafts t' blocks := by
  obtain ⟨path, new, hwrites⟩ := h.writing w hw
  obtain ⟨new', w', happend, hwrites'⟩ := hwrites.content hdraft
  simp only [Thread.appended, happend, bind, Except.bind] at happended
  obtain rfl := Except.ok.inj happended
  exact h.written h.remembers hwrites'

theorem Spread.finished (h : Spread env identityId threadId keeps drafts t blocks) (hw : t.writer = some w)
    (turnEnd : TurnEndEvent)
    (hfinished : t.finished env w turnEnd.status turnEnd.httpStatus turnEnd.errorCode = .ok t') :
    ∃ blocks', Spread env identityId threadId keeps drafts t' blocks' := by
  obtain ⟨path, new, hwrites⟩ := h.writing w hw
  obtain ⟨new', w', hend, hturn, hended⟩ := hwrites.ended turnEnd
  simp only [Thread.finished, finishWith, hwrites.writes.segment.isOpen, Bool.false_eq_true, ↓reduceIte, hend, bind,
    Except.bind] at hfinished
  obtain rfl := Except.ok.inj hfinished
  have hflushed := hended.flush
  have hdisk := hflushed.complete rfl
  have hfile := hdisk path
  rw [segmentLog_append] at hfile
  have hstate := hflushed.state (threadStamp env threadId ((segmentLog path blocks).getD [] ++ new')) (by
    rw [segmentLog_append]
    rfl)
  have hlater := h.remembers.later (path, new')
  have hmemory : SegmentMemory env identityId threadId keeps drafts (blocks ++ [(path, new')])
      (flushWriter env w' t.store).2 := ⟨hlater.cache, hlater.index⟩
  refine ⟨_, h.closed hflushed hturn.symm rfl ?_ ?_⟩
  · rw [hflushed.writes.publishState hfile]
    exact hdisk
  · rw [hflushed.writes.publishState hfile]
    exact hmemory.persist _ hstate

theorem Spread.dropped (h : Spread env identityId threadId keeps drafts t blocks) (hw : t.writer = some w) :
    ∃ blocks', Spread env identityId threadId keeps drafts
      { t with writer := none, closed := t.closed ++ [⟨w.turnId, none⟩] } blocks' := by
  obtain ⟨path, new, hwrites⟩ := h.writing w hw
  exact ⟨_, h.closed hwrites rfl rfl hwrites.disk.complete (h.remembers.later _)⟩

theorem Spread.step (h : Spread env identityId threadId keeps drafts t blocks)
    (hid : isSafePathSegment identityId = true) (hthread : isSafePathSegment threadId = true)
    (hserde : env.serde.Lawful) (hkept : ∀ draft ∈ drafts, KeepsDigests keeps env draft) {op : ThreadOp}
    (hdrafts : ∀ draft ∈ op.drafts, draft ∈ drafts) :
    ∃ blocks', Spread env identityId threadId keeps drafts (t.step env identityId threadId op) blocks' := by
  cases op with
  | beginTurn request =>
    cases hw : t.writer with
    | some w => exact ⟨blocks, by simpa only [Thread.step, hw] using h⟩
    | none =>
      simp only [Thread.step, hw]
      cases hbegun : t.begun env identityId threadId request with
      | error error => exact ⟨blocks, h⟩
      | ok t' => exact ⟨blocks, h.beginTurn hid hthread hserde hkept hw hdrafts hbegun⟩
  | appendContent draft =>
    cases hw : t.writer with
    | none => exact ⟨blocks, by simpa only [Thread.step, hw] using h⟩
    | some w =>
      simp only [Thread.step, hw]
      cases happended : t.appended env w draft with
      | error error => exact ⟨blocks, h⟩
      | ok t' => exact ⟨blocks, h.appended hw (hdrafts draft (List.mem_singleton_self _)) happended⟩
  | finish status httpStatus errorCode =>
    cases hw : t.writer with
    | none => exact ⟨blocks, by simpa only [Thread.step, hw] using h⟩
    | some w =>
      simp only [Thread.step, hw]
      cases hfinished : t.finished env w status httpStatus errorCode with
      | error error => exact ⟨blocks, h⟩
      | ok t' => exact h.finished hw ⟨status, httpStatus, errorCode⟩ hfinished
  | drop =>
    cases hw : t.writer with
    | none => exact ⟨blocks, by simpa only [Thread.step, hw] using h⟩
    | some w =>
      simp only [Thread.step, hw]
      exact h.dropped hw
  | forgetCache => exact ⟨blocks, h.settled, h.remembers.forgetCache, h.idle, h.writing⟩
  | loseIndex => exact ⟨blocks, h.settled, h.remembers.loseIndex, h.idle, h.writing⟩

/-- Whatever content is recorded, the files of a thread hold one block for each of its turns. -/
theorem Spread.run (hid : isSafePathSegment identityId = true) (hthread : isSafePathSegment threadId = true)
    (hserde : env.serde.Lawful) (hkept : ∀ draft ∈ drafts, KeepsDigests keeps env draft) (ops : List ThreadOp)
    (hdrafts : ∀ op ∈ ops, ∀ draft ∈ op.drafts, draft ∈ drafts) :
    ∃ blocks, Spread env identityId threadId keeps drafts (Thread.run env identityId threadId ops) blocks := by
  have hall : ∀ (t : Thread) (blocks : List (String × Log)), Spread env identityId threadId keeps drafts t blocks →
      ∃ blocks', Spread env identityId threadId keeps drafts (ops.foldl (Thread.step env identityId threadId) t)
        blocks' := by
    induction ops with
    | nil => exact fun _ blocks h => ⟨blocks, h⟩
    | cons op ops ih =>
      intro t blocks h
      rw [List.forall_mem_cons] at hdrafts
      obtain ⟨blocks', hstep⟩ := h.step hid hthread hserde hkept hdrafts.1
      exact ih hdrafts.2 _ _ hstep
  exact hall _ _ .initial

end step

end Prelay.Rollout
