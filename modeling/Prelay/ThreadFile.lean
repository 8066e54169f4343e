import Prelay.ThreadSegments

namespace Prelay.Rollout

open Json Locks

section threadFile

variable (env : Env) (identityId threadId : String)

/-- The files of a thread: in each one a header and one block for each turn that is over or open and has its lines
there; the last lines of the open turn may be missing. -/
structure ThreadFile (c : Clients) (blocks : List (String × Log)) (current : Option (String × Log))
    (missing : List String) : Prop where
  count : blocks.length = c.closed.length
  closed : ∀ (i : ℕ) (turn : ClosedTurn) (block : String × Log), c.closed[i]? = some turn → blocks[i]? = some block →
    TurnBlock env turn.turnId turn.summary.isSome block.2
  opened : current.isSome = true ↔ ∃ lock w ending, Call.writing lock w ending ∈ c.calls
  writing : ∀ lock w ending, Call.writing lock w ending ∈ c.calls →
    (∃ new, current = some (w.relativePath, new) ∧ TurnBlock env w.turnId ending.isSome new) ∧
      w.pending = missing.map textLine
  complete : current = none → missing = []
  paths : ∀ block ∈ blocks ++ current.toList, block.1 ∈ threadCandidatePaths identityId threadId
  numbered : ∀ path, Numbered ((segmentLog path (blocks ++ current.toList)).getD [])
  events : ∀ path, ∀ event ∈ (segmentLog path (blocks ++ current.toList)).getD [], event.eventType ≠ "meta"
  file : ∀ path, ∃ written, c.store.disk path = textsFile env written ∧
    written ++ (if current.map Prod.fst = some path then missing else []) =
      threadTexts env threadId (segmentLog path (blocks ++ current.toList))

end threadFile

section tracks

variable (env : Env) (identityId threadId : String) (drafts : Set ContentDraft)

structure Tracks (c : Clients) (blocks : List (String × Log)) (current : Option (String × Log)) : Prop where
  guarded : Guarded c.locks c.places
  safe : c.calls ≠ [] → isSafePathSegment identityId = true ∧ isSafePathSegment threadId = true
  drafted : ∀ call ∈ c.calls, ∀ draft ∈ call.drafts, draft ∈ drafts
  settled : Segmented env identityId threadId drafts c.closed blocks
  remembers : SegmentMemory env identityId threadId (fun _ => False) drafts blocks c.store
  idle : current = none → SegmentDisk env threadId blocks c.store.disk
  busy : current ≠ none → ∃ lock w ending, Call.writing lock w ending ∈ c.calls
  resolved : ∀ lock request state, Call.resolved lock request state ∈ c.calls →
    SegmentState env identityId threadId (fun _ => False) drafts blocks state
  writing : ∀ lock w ending, Call.writing lock w ending ∈ c.calls →
    ∃ path new written, current = some (path, new) ∧
      SegmentWrites env identityId threadId (fun _ => False) drafts c.store.disk blocks path new written w ending.isSome

end tracks

def Call.isUnder : Call → Bool
  | .resolved _ _ _ | .writing _ _ _ => true
  | _ => false

section calls

variable {c : Clients} {i lock : ℕ} {old call : Call}

theorem places_setCall (c : Clients) (i : ℕ) (call : Call) : (c.setCall i call).places = c.places.set i call.place :=
  List.map_set

theorem place_of_call (hi : c.calls[i]? = some call) : c.places[i]? = some call.place := by
  rw [Clients.places, List.getElem?_map, hi]
  rfl

/-- Only one call is inside. -/
theorem eq_of_inside (h : Guarded c.locks c.places) (hi : c.calls[i]? = some old) (hold : old.place = .inside lock)
    {b : ℕ} (hmem : call ∈ c.calls) (hcall : call.place = .inside b) : call = old := by
  obtain ⟨j, hj⟩ := List.mem_iff_getElem?.mp hmem
  have hiPlace := place_of_call hi
  have hjPlace := place_of_call hj
  rw [hold] at hiPlace
  rw [hcall] at hjPlace
  obtain rfl := h.alone i j lock b hiPlace hjPlace
  exact Option.some.inj (hj.symm.trans hi)

theorem eq_of_inside_set (h : Guarded c.locks c.places) (hi : c.calls[i]? = some old) (hold : old.place = .inside lock)
    {new : Call} {b : ℕ} (hmem : call ∈ c.calls.set i new) (hcall : call.place = .inside b) : call = new := by
  obtain ⟨j, hj⟩ := List.mem_iff_getElem?.mp hmem
  by_cases hij : i = j
  · subst hij
    rw [List.getElem?_set_self (List.getElem?_eq_some_iff.mp hi).1] at hj
    exact (Option.some.inj hj).symm
  · rw [List.getElem?_set_ne hij] at hj
    have hjPlace := place_of_call hj
    have hiPlace := place_of_call hi
    rw [hold] at hiPlace
    rw [hcall] at hjPlace
    exact absurd (h.alone i j lock b hiPlace hjPlace) hij

theorem guarded_setCall (h : Guarded c.locks c.places) (hi : c.calls[i]? = some old) (hsame : call.place = old.place) :
    Guarded c.locks (c.setCall i call).places := by
  have hplaces : c.places.set i call.place = c.places := by
    apply List.ext_getElem?
    intro j
    by_cases hij : i = j
    · subst hij
      have hlt : i < c.places.length := (List.getElem?_eq_some_iff.mp (place_of_call hi)).1
      rw [List.getElem?_set_self hlt, place_of_call hi, hsame]
    · rw [List.getElem?_set_ne hij]
  rw [places_setCall, hplaces]
  exact h

end calls

section steps

variable {env : Env} {identityId threadId : String} {drafts : Set ContentDraft} {c : Clients}
  {blocks : List (String × Log)} {current : Option (String × Log)} {i lock : ℕ} {old : Call}

theorem Tracks.ids (h : Tracks env identityId threadId drafts c blocks current) (hi : c.calls[i]? = some old) :
    isSafePathSegment identityId = true ∧ isSafePathSegment threadId = true := by
  apply h.safe
  rintro hnil
  rw [hnil] at hi
  exact nomatch hi

theorem Tracks.none_open (h : Tracks env identityId threadId drafts c blocks current) (hi : c.calls[i]? = some old)
    (hold : old.place = .inside lock) (hwriter : ∀ lock w ending, Call.writing lock w ending ≠ old) :
    current = none := by
  by_contra hopen
  obtain ⟨lock', w, ending, hmem⟩ := h.busy hopen
  exact hwriter lock' w ending (eq_of_inside h.guarded hi hold hmem rfl)

theorem Tracks.drafted_at (h : Tracks env identityId threadId drafts c blocks current) (hi : c.calls[i]? = some old)
    {new : Call} (hsame : new.drafts = old.drafts) : ∀ draft ∈ new.drafts, draft ∈ drafts := by
  rw [hsame]
  exact h.drafted old (List.mem_of_getElem? hi)

theorem Tracks.drafted_set (h : Tracks env identityId threadId drafts c blocks current) (i : ℕ) {new : Call}
    (hnew : ∀ draft ∈ new.drafts, draft ∈ drafts) : ∀ call ∈ c.calls.set i new, ∀ draft ∈ call.drafts, draft ∈ drafts := by
  intro call hmem
  rcases List.mem_or_eq_of_mem_set hmem with hmem | rfl
  · exact h.drafted call hmem
  · exact hnew

theorem mem_set_iff {α : Type*} {l : List α} {i : ℕ} {old new x : α} (hi : l[i]? = some old) (hold : x ≠ old)
    (hnew : x ≠ new) : x ∈ l.set i new ↔ x ∈ l := by
  constructor
  · intro hmem
    exact (List.mem_or_eq_of_mem_set hmem).resolve_right hnew
  · intro hmem
    obtain ⟨j, hj⟩ := List.mem_iff_getElem?.mp hmem
    have hij : i ≠ j := by
      rintro rfl
      exact hold (Option.some.inj (hj.symm.trans hi))
    apply List.mem_iff_getElem?.mpr
    exact ⟨j, by rw [List.getElem?_set_ne hij, hj]⟩

theorem Tracks.outside (h : Tracks env identityId threadId drafts c blocks current) {c' : Clients}
    (hguarded : Guarded c'.locks c'.places)
    (hsafe : c'.calls ≠ [] → isSafePathSegment identityId = true ∧ isSafePathSegment threadId = true)
    (hdrafted : ∀ call ∈ c'.calls, ∀ draft ∈ call.drafts, draft ∈ drafts)
    (hclosed : c'.closed = c.closed) (hdisk : c'.store.disk = c.store.disk)
    (hremembers : SegmentMemory env identityId threadId (fun _ => False) drafts blocks c'.store)
    (hcalls : ∀ call, call.isUnder = true → (call ∈ c'.calls ↔ call ∈ c.calls)) :
    Tracks env identityId threadId drafts c' blocks current where
  guarded := hguarded
  safe := hsafe
  drafted := hdrafted
  settled := by
    rw [hclosed]
    exact h.settled
  remembers := hremembers
  idle := by
    rw [hdisk]
    exact h.idle
  busy := by
    intro hopen
    obtain ⟨lock, w, ending, hmem⟩ := h.busy hopen
    exact ⟨lock, w, ending, (hcalls _ rfl).mpr hmem⟩
  resolved := fun lock request state hmem => h.resolved lock request state ((hcalls _ rfl).mp hmem)
  writing := by
    rw [hdisk]
    exact fun lock w ending hmem => h.writing lock w ending ((hcalls _ rfl).mp hmem)

theorem Tracks.initial : Tracks env identityId threadId drafts {} [] none where
  guarded := .initial _
  safe := fun h => absurd rfl h
  drafted := fun _ hmem => absurd hmem List.not_mem_nil
  settled := ⟨rfl, nofun, fun _ hmem => absurd hmem List.not_mem_nil, fun _ => ⟨rfl, nofun⟩⟩
  remembers := ⟨nofun, nofun⟩
  idle := fun _ _ => rfl
  busy := fun h => absurd rfl h
  resolved := fun _ _ _ hmem => absurd hmem List.not_mem_nil
  writing := fun _ _ _ hmem => absurd hmem List.not_mem_nil

theorem Tracks.begun (h : Tracks env identityId threadId drafts c blocks current) {request : TurnRequest}
    (hdrafts : ∀ draft ∈ request.events, draft ∈ drafts) :
    Tracks env identityId threadId drafts (c.step env identityId threadId (.begin request)) blocks current := by
  simp only [Clients.step]
  split_ifs with hunsafe
  · exact h
  · rw [Bool.or_eq_true, not_or, Bool.not_eq_true, Bool.not_eq_true, Bool.not_eq_false', Bool.not_eq_false'] at hunsafe
    refine h.outside ?_ (fun _ => hunsafe) ?_ rfl rfl h.remembers ?_
    · have hplaces : (c.calls ++ [Call.waiting (c.locks.lockFor c.places).1 request]).map Call.place =
          c.places ++ [.waiting (c.locks.lockFor c.places).1] := List.map_append
      have hlocked := h.guarded.lockFor
      rw [← hplaces] at hlocked
      exact hlocked
    · intro call hmem
      rcases List.mem_append.mp hmem with hmem | hmem
      · exact h.drafted call hmem
      · rw [List.mem_singleton.mp hmem]
        exact hdrafts
    · intro call hunder
      rw [List.mem_append, List.mem_singleton]
      constructor
      · rintro (hmem | rfl)
        · exact hmem
        · exact nomatch hunder
      · exact .inl

theorem Tracks.quiet (h : Tracks env identityId threadId drafts c blocks current) (hi : c.calls[i]? = some old)
    {new : Call} (hold : old.isUnder = false) (hnew : new.isUnder = false)
    (hdrafts : ∀ draft ∈ new.drafts, draft ∈ drafts) (hguarded : Guarded c.locks (c.setCall i new).places) :
    Tracks env identityId threadId drafts (c.setCall i new) blocks current := by
  refine h.outside hguarded (fun _ => h.ids hi) (h.drafted_set i hdrafts) rfl rfl h.remembers ?_
  intro call hunder
  apply mem_set_iff hi
  · rintro rfl
    exact nomatch hold.symm.trans hunder
  · rintro rfl
    exact nomatch hnew.symm.trans hunder

theorem Tracks.acquired (h : Tracks env identityId threadId drafts c blocks current) (i : ℕ) :
    Tracks env identityId threadId drafts (c.step env identityId threadId (.acquire i)) blocks current := by
  simp only [Clients.step]
  split
  · next lock request hi =>
    split_ifs with hfree
    · have hdrafts : ∀ draft ∈ (Call.entered lock request).drafts, draft ∈ drafts := h.drafted_at hi rfl
      apply h.quiet hi rfl rfl hdrafts
      rw [places_setCall]
      exact h.guarded.enter (place_of_call hi) hfree
    · exact h
  · exact h

theorem Tracks.left (h : Tracks env identityId threadId drafts c blocks current) (hi : c.calls[i]? = some old)
    (hold : old.isUnder = false) : Tracks env identityId threadId drafts (c.setCall i .over) blocks current := by
  apply h.quiet hi hold rfl (fun _ hdraft => absurd hdraft List.not_mem_nil)
  rw [places_setCall]
  exact h.guarded.leave i

theorem Tracks.gaveUp (h : Tracks env identityId threadId drafts c blocks current) (i : ℕ) :
    Tracks env identityId threadId drafts (c.step env identityId threadId (.giveUp i)) blocks current := by
  simp only [Clients.step]
  split
  · next lock request hi => exact h.left hi rfl
  · exact h

theorem Tracks.resolvedCall (h : Tracks env identityId threadId drafts c blocks current) (hserde : env.serde.Lawful)
    (i : ℕ) : Tracks env identityId threadId drafts (c.step env identityId threadId (.resolve i)) blocks current := by
  simp only [Clients.step]
  split
  · next lock request hi =>
    obtain ⟨hid, hthread⟩ := h.ids hi
    obtain rfl := h.none_open hi rfl (fun _ _ _ heq => Call.noConfusion heq)
    split
    · next state store hresolve =>
      obtain ⟨hstate, hdisk, hremembers⟩ :=
        resolveThreadSource_segments hid hthread hserde h.settled (fun draft _ => keepsDigests_none env draft) (h.idle rfl)
          h.remembers hresolve
      have honly : ∀ call b, call ∈ c.calls.set i (.resolved lock request state) → call.place = .inside b →
          call = .resolved lock request state := fun call b hmem hcall => eq_of_inside_set h.guarded hi rfl hmem hcall
      constructor
      · exact guarded_setCall h.guarded hi rfl
      · exact fun _ => ⟨hid, hthread⟩
      · exact h.drafted_set i (h.drafted_at hi rfl)
      · exact h.settled
      · exact hremembers
      · intro _
        dsimp only
        rw [hdisk]
        exact h.idle rfl
      · exact fun hopen => absurd rfl hopen
      · intro lock' request' state' hmem
        obtain ⟨-, -, rfl⟩ := Call.resolved.inj (honly _ lock' hmem rfl)
        exact hstate
      · intro lock' w ending hmem
        exact nomatch honly _ lock' hmem rfl
    · exact h.left hi rfl
  · exact h

theorem Tracks.written (h : Tracks env identityId threadId drafts c blocks current) (hi : c.calls[i]? = some old)
    (hold : old.place = .inside lock) {path : String} {new : Log} {written : List String} {disk : Disk}
    {w : RolloutWriter} {ending : Option TurnEndEvent}
    (hwrites : SegmentWrites env identityId threadId (fun _ => False) drafts disk blocks path new written w
      ending.isSome) :
    Tracks env identityId threadId drafts
      { c.setCall i (.writing lock w ending) with store := { c.store with disk := disk } } blocks (some (path, new)) := by
  have honly : ∀ call b, call ∈ c.calls.set i (.writing lock w ending) → call.place = .inside b →
      call = .writing lock w ending := fun call b hmem hcall => eq_of_inside_set h.guarded hi hold hmem hcall
  constructor
  · exact guarded_setCall h.guarded hi hold.symm
  · exact fun _ => h.ids hi
  · exact h.drafted_set i (fun _ hdraft => absurd hdraft List.not_mem_nil)
  · exact h.settled
  · exact ⟨h.remembers.cache, h.remembers.index⟩
  · exact nofun
  · intro _
    refine ⟨lock, w, ending, ?_⟩
    exact List.mem_set (List.getElem?_eq_some_iff.mp hi).1 _
  · intro lock' request state hmem
    exact nomatch honly _ lock' hmem rfl
  · intro lock' w' ending' hmem
    obtain ⟨-, rfl, rfl⟩ := Call.writing.inj (honly _ lock' hmem rfl)
    exact ⟨path, new, written, rfl, hwrites⟩

theorem Tracks.openedWriter (h : Tracks env identityId threadId drafts c blocks current) (i : ℕ) :
    ∃ current', Tracks env identityId threadId drafts (c.step env identityId threadId (.openWriter i)) blocks
      current' := by
  simp only [Clients.step]
  split
  · next lock request state hi =>
    obtain ⟨hid, hthread⟩ := h.ids hi
    obtain rfl := h.none_open hi rfl (fun _ _ _ heq => Call.noConfusion heq)
    have hstate := h.resolved lock request state (List.mem_of_getElem? hi)
    have hdrafts : ∀ draft ∈ request.events, draft ∈ drafts := h.drafted _ (List.mem_of_getElem? hi)
    obtain ⟨new, w, hopen, hw, hturn, hblock⟩ :=
      Writes.openTurn (threadRelative identityId threadId) ⟨threadId, request.windowId, request.generation⟩
        request.turn request.turnId hstate.describes hstate.len (h.settled.wellFormed _) rfl False.elim hdrafts
    have hopened : openWriter env identityId threadId state request = .ok w := by
      simp only [openWriter, checked_candidate hid hthread hstate.path.1, checked_threadRelative hid hthread,
        checked_indexRelative hid hthread, hopen, bind, Except.bind]
    rw [hopened]
    refine ⟨some (state.relativePath, new), h.written hi rfl ⟨hstate.path, ?_, hw, (h.idle rfl).written _⟩⟩
    rw [hturn]
    exact hblock
  · exact ⟨current, h⟩

theorem Tracks.wroteLine (h : Tracks env identityId threadId drafts c blocks current) (i : ℕ) :
    Tracks env identityId threadId drafts (c.step env identityId threadId (.writeLine i)) blocks current := by
  simp only [Clients.step]
  split
  · next lock w ending hi =>
    obtain ⟨path, new, written, rfl, hw⟩ := h.writing lock w ending (List.mem_of_getElem? hi)
    obtain ⟨written', hw'⟩ := hw.writeLine
    exact h.written hi rfl hw'
  · exact h

theorem Tracks.appended (h : Tracks env identityId threadId drafts c blocks current) (i : ℕ) {draft : ContentDraft}
    (hdraft : draft ∈ drafts) :
    ∃ current', Tracks env identityId threadId drafts (c.step env identityId threadId (.appendContent i draft)) blocks
      current' := by
  simp only [Clients.step]
  split
  · next lock w hi =>
    obtain ⟨path, new, written, rfl, hw⟩ := h.writing lock w none (List.mem_of_getElem? hi)
    obtain ⟨new', w', happend, hcontent⟩ := hw.content hdraft
    rw [happend]
    cases hpending : w.pending with
    | cons line rest => exact ⟨_, h⟩
    | nil => exact ⟨_, h.written hi rfl hcontent⟩
  · exact ⟨current, h⟩

theorem Tracks.ended (h : Tracks env identityId threadId drafts c blocks current) (i : ℕ) (turnEnd : TurnEndEvent) :
    ∃ current', Tracks env identityId threadId drafts (c.step env identityId threadId (.finish i turnEnd)) blocks
      current' := by
  simp only [Clients.step]
  split
  · next lock w hi =>
    obtain ⟨path, new, written, rfl, hw⟩ := h.writing lock w none (List.mem_of_getElem? hi)
    obtain ⟨new', w', hend, -, hended⟩ := hw.ended turnEnd
    rw [hend]
    cases hpending : w.pending with
    | cons line rest => exact ⟨_, h⟩
    | nil => exact ⟨_, h.written hi rfl hended⟩
  · exact ⟨current, h⟩

theorem Tracks.closed (h : Tracks env identityId threadId drafts c blocks current) (hi : c.calls[i]? = some old)
    (hold : old.place = .inside lock) {path : String} {new : Log} {turn : ClosedTurn} {store : Store}
    (hsettled : Segmented env identityId threadId drafts (c.closed ++ [turn]) (blocks ++ [(path, new)]))
    (hdisk : SegmentDisk env threadId (blocks ++ [(path, new)]) store.disk)
    (hremembers : SegmentMemory env identityId threadId (fun _ => False) drafts (blocks ++ [(path, new)]) store) :
    Tracks env identityId threadId drafts { c.closeCall i turn with store := store } (blocks ++ [(path, new)]) none := by
  have hnone : ∀ call b, call ∈ c.calls.set i .over → call.place ≠ .inside b := by
    intro call b hmem hcall
    obtain rfl := eq_of_inside_set h.guarded hi hold hmem hcall
    exact nomatch hcall
  constructor
  · have hplaces : (c.calls.set i .over).map Call.place = c.places.set i .away := List.map_set
    have hleft := h.guarded.leave i
    rw [← hplaces] at hleft
    exact hleft
  · exact fun _ => h.ids hi
  · exact h.drafted_set i (fun _ hdraft => absurd hdraft List.not_mem_nil)
  · exact hsettled
  · exact hremembers
  · exact fun _ => hdisk
  · exact fun hopen => absurd rfl hopen
  · exact fun lock' request state hmem => absurd rfl (hnone _ lock' hmem)
  · exact fun lock' w ending hmem => absurd rfl (hnone _ lock' hmem)

theorem Tracks.published (h : Tracks env identityId threadId drafts c blocks current) (i : ℕ) :
    ∃ blocks' current', Tracks env identityId threadId drafts (c.step env identityId threadId (.publish i)) blocks'
      current' := by
  simp only [Clients.step]
  split
  · next lock w turnEnd hi =>
    obtain ⟨path, new, written, rfl, hw⟩ := h.writing lock w (some turnEnd) (List.mem_of_getElem? hi)
    cases hpending : w.pending with
    | cons line rest => exact ⟨blocks, _, h⟩
    | nil =>
      have hdisk := hw.complete hpending
      have hfile : c.store.disk path =
          textsFile env (threadTexts env threadId (some ((segmentLog path blocks).getD [] ++ new))) := by
        rw [hdisk path, segmentLog_append]
      have hpublished := hw.writes.publishState hfile
      have hstate := hw.state (threadStamp env threadId ((segmentLog path blocks).getD [] ++ new)) (by
        rw [segmentLog_append]
        rfl)
      refine ⟨blocks ++ [(path, new)], none, h.closed hi rfl ?_ ?_ ?_⟩
      · exact h.settled.append hw.block hw.place hw.writes.wellFormed
      · rw [hpublished]
        exact hdisk
      · rw [hpublished]
        have hlater := h.remembers.later (path, new)
        have hrelative : (w.threadState
            (threadStamp env threadId ((segmentLog path blocks).getD [] ++ new))).relativePath = path :=
          hw.writes.state.relativePath
        exact hlater.persist _ hstate
  · exact ⟨blocks, current, h⟩

theorem Tracks.dropped (h : Tracks env identityId threadId drafts c blocks current) (i : ℕ) :
    ∃ blocks' current', Tracks env identityId threadId drafts (c.step env identityId threadId (.drop i)) blocks'
      current' := by
  simp only [Clients.step]
  split
  · next lock w hi =>
    obtain ⟨path, new, written, rfl, hw⟩ := h.writing lock w none (List.mem_of_getElem? hi)
    cases hpending : w.pending with
    | cons line rest => exact ⟨blocks, _, h⟩
    | nil =>
      refine ⟨blocks ++ [(path, new)], none, h.closed hi rfl ?_ (hw.complete hpending) (h.remembers.later _)⟩
      exact h.settled.append hw.block hw.place hw.writes.wellFormed
  · exact ⟨blocks, current, h⟩

theorem Tracks.step (h : Tracks env identityId threadId drafts c blocks current) (hserde : env.serde.Lawful)
    {op : CallOp} (hdrafts : ∀ draft ∈ op.drafts, draft ∈ drafts) :
    ∃ blocks' current', Tracks env identityId threadId drafts (c.step env identityId threadId op) blocks'
      current' := by
  cases op with
  | begin request => exact ⟨blocks, current, h.begun hdrafts⟩
  | lockOther =>
    exact ⟨blocks, current, h.outside h.guarded.retain h.safe h.drafted rfl rfl h.remembers (fun _ _ => Iff.rfl)⟩
  | acquire i => exact ⟨blocks, current, h.acquired i⟩
  | giveUp i => exact ⟨blocks, current, h.gaveUp i⟩
  | resolve i => exact ⟨blocks, current, h.resolvedCall hserde i⟩
  | openWriter i => exact ⟨blocks, h.openedWriter i⟩
  | writeLine i => exact ⟨blocks, current, h.wroteLine i⟩
  | appendContent i draft => exact ⟨blocks, h.appended i (hdrafts draft List.mem_cons_self)⟩
  | finish i turnEnd => exact ⟨blocks, h.ended i turnEnd⟩
  | publish i => exact h.published i
  | drop i => exact h.dropped i
  | forgetCache =>
    exact ⟨blocks, current, h.outside h.guarded h.safe h.drafted rfl rfl h.remembers.forgetCache
      (fun _ _ => Iff.rfl)⟩
  | loseIndex =>
    exact ⟨blocks, current, h.outside h.guarded h.safe h.drafted rfl rfl h.remembers.loseIndex
      (fun _ _ => Iff.rfl)⟩

theorem Tracks.run (h : Tracks env identityId threadId drafts c blocks current) (hserde : env.serde.Lawful)
    (ops : List CallOp) (hdrafts : ∀ op ∈ ops, ∀ draft ∈ op.drafts, draft ∈ drafts) :
    ∃ blocks' current', Tracks env identityId threadId drafts (ops.foldl (Clients.step env identityId threadId) c)
      blocks' current' := by
  induction ops generalizing c blocks current with
  | nil => exact ⟨blocks, current, h⟩
  | cons op ops ih =>
    rw [List.forall_mem_cons] at hdrafts
    obtain ⟨blocks', current', hstep⟩ := h.step hserde hdrafts.1
    exact ih hstep hdrafts.2

end steps

section file

variable {env : Env} {identityId threadId : String} {drafts : Set ContentDraft} {c : Clients}
  {blocks : List (String × Log)} {current : Option (String × Log)}

theorem made_not_meta {event : ConversationEvent} (h : Made event) : event.eventType ≠ "meta" := by
  intro heq
  apply h.2
  rw [heq]
  decide

theorem SegmentWrites.file {disk : Disk} {path : String} {new : Log} {written missing : List String} {w : RolloutWriter}
    {ended : Bool} (h : SegmentWrites env identityId threadId (fun _ => False) drafts disk blocks path new written w ended)
    (hmissing : written ++ missing = segmentTexts env threadId (segmentLog path blocks) new) (other : String) :
    ∃ texts, disk other = textsFile env texts ∧
      texts ++ (if path = other then missing else []) =
        threadTexts env threadId (segmentLog other (blocks ++ [(path, new)])) := by
  by_cases hother : path = other
  · subst hother
    refine ⟨_, h.disk.1, ?_⟩
    rw [if_pos rfl, List.append_assoc, hmissing, segmentLog_append, threadTexts_append]
  · refine ⟨_, h.disk.2 other (Ne.symm hother), ?_⟩
    rw [if_neg hother, List.append_nil, segmentLog_append_other (Ne.symm hother)]

theorem SegmentWrites.wellFormed {disk : Disk} {path : String} {new : Log} {written : List String} {w : RolloutWriter}
    {ended : Bool} (h : SegmentWrites env identityId threadId (fun _ => False) drafts disk blocks path new written w ended)
    (hblocks : ∀ path, WellFormed env drafts ((segmentLog path blocks).getD [])) (other : String) :
    WellFormed env drafts ((segmentLog other (blocks ++ [(path, new)])).getD []) := by
  by_cases hother : other = path
  · rw [hother, segmentLog_append]
    exact h.writes.wellFormed
  · rw [segmentLog_append_other hother]
    exact hblocks other

theorem Tracks.file (h : Tracks env identityId threadId drafts c blocks current) :
    ∃ missing, ThreadFile env identityId threadId c blocks current missing ∧
      ∀ block ∈ blocks ++ current.toList, block.1 ∈ segmentPaths env identityId threadId drafts := by
  cases current with
  | none =>
    have hwriting : ∀ lock w ending, Call.writing lock w ending ∉ c.calls := by
      intro lock w ending hmem
      obtain ⟨path, new, written, hcurrent, -⟩ := h.writing lock w ending hmem
      exact nomatch hcurrent
    have hpaths : ∀ block ∈ blocks ++ (none : Option (String × Log)).toList,
        block.1 ∈ segmentPaths env identityId threadId drafts := by
      rw [Option.toList_none, List.append_nil]
      exact h.settled.paths
    refine ⟨[], ⟨h.settled.count, h.settled.closed, ?_, ?_, fun _ => rfl, fun block hmem => (hpaths block hmem).1, ?_,
      ?_, ?_⟩, hpaths⟩
    · constructor
      · exact nofun
      · rintro ⟨lock, w, ending, hmem⟩
        exact absurd hmem (hwriting lock w ending)
    · exact fun lock w ending hmem => absurd hmem (hwriting lock w ending)
    all_goals rw [Option.toList_none, List.append_nil]
    · exact fun path => (h.settled.wellFormed path).numbered
    · exact fun path event hevent => made_not_meta ((h.settled.wellFormed path).written event hevent).made
    · exact fun path => ⟨_, h.idle rfl path, List.append_nil _⟩
  | some block =>
    obtain ⟨lock, w, ending, hmem⟩ := h.busy (Option.some_ne_none block)
    obtain ⟨path, new, written, hcurrent, hw⟩ := h.writing lock w ending hmem
    obtain rfl := Option.some.inj hcurrent
    obtain ⟨i, hi⟩ := List.mem_iff_getElem?.mp hmem
    obtain ⟨missing, hpending, hrest⟩ := hw.writes.segment.pending
    have hwellFormed := hw.wellFormed h.settled.wellFormed
    have hpaths : ∀ block ∈ blocks ++ [(path, new)], block.1 ∈ segmentPaths env identityId threadId drafts := by
      intro block hblock
      rcases List.mem_append.mp hblock with hblock | hblock
      · exact h.settled.paths block hblock
      · rw [List.mem_singleton.mp hblock]
        exact hw.place
    refine ⟨missing, ⟨h.settled.count, h.settled.closed, ?_, ?_, nofun, fun block hblock => (hpaths block hblock).1,
      fun path => (hwellFormed path).numbered, ?_, ?_⟩, hpaths⟩
    · exact ⟨fun _ => ⟨lock, w, ending, hmem⟩, fun _ => rfl⟩
    · intro lock' w' ending' hmem'
      obtain ⟨-, rfl, rfl⟩ := Call.writing.inj (eq_of_inside h.guarded hi rfl hmem' rfl)
      have hrelative : w'.relativePath = path := hw.writes.state.relativePath
      rw [hrelative]
      exact ⟨⟨new, rfl, hw.block⟩, hpending⟩
    · exact fun path event hevent => made_not_meta ((hwellFormed path).written event hevent).made
    · intro other
      simp only [Option.map_some, Option.some.injEq]
      exact hw.file hrest other

end file

end Prelay.Rollout
