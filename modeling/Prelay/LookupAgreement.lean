import Prelay.StoreCoherence

namespace Prelay.Rollout

open Json

section coherence

variable (env : Env) (identityId threadId : String)

/-- A change from outside after which the candidates in front of the segment that is remembered, in the cache or in the
index, and of the one that is written are still passed over; the one that is written keeps its content. -/
structure Harmless (t : Thread) (path : String) (file : Option File) : Prop where
  cache : ∀ state, t.store.cache = some state →
    metadataStamp (Function.update t.store.disk path file) state.relativePath = some state.stamp →
    PassedBefore env identityId threadId (Function.update t.store.disk path file) state.relativePath
  index : ∀ index, t.store.index = some index →
    IndexCurrent identityId threadId (Function.update t.store.disk path file) index →
    PassedBefore env identityId threadId (Function.update t.store.disk path file) index.relativePath
  writer : ∀ w, t.writer = some w →
    fileBytes (Function.update t.store.disk path file) w.relativePath = fileBytes t.store.disk w.relativePath ∧
      PassedBefore env identityId threadId (Function.update t.store.disk path file) w.relativePath

structure Coherent (contents : String → FileStamp → Bytes) (t : Thread) : Prop where
  store : StoreCoherent env identityId threadId contents t.store
  writer : ∀ w, t.writer = some w → Writing env identityId threadId t.store.disk w ∧
    ∀ state, t.store.cache = some state → state.relativePath = w.relativePath

end coherence

section coherent

variable {env : Env} {identityId threadId : String} {contents : String → FileStamp → Bytes} {t t' : Thread}
  {w : RolloutWriter} (hid : isSafePathSegment identityId = true) (hthread : isSafePathSegment threadId = true)
  (hserde : env.serde.Lawful)

include hid hthread hserde

theorem Coherent.begun (h : Coherent env identityId threadId contents t) {request : TurnRequest}
    (hrequest : ∀ draft ∈ request.events, Shallow env draft)
    (hbegun : t.begun env identityId threadId request = .ok t')
    (hresolved : Filed contents (t.resolvedDisk env identityId threadId)) (hfiled : Filed contents t'.store.disk) :
    Coherent env identityId threadId contents t' := by
  obtain ⟨⟨w, store⟩, hbegin, -⟩ := bind_ok hbegun
  simp only [beginTurn, hid, hthread, Bool.not_true, Bool.false_eq_true, ↓reduceIte] at hbegin
  obtain ⟨⟨state, resolved⟩, hresolve, -⟩ := bind_ok hbegin
  have hfiles : Filed contents resolved.disk := by
    rw [Thread.resolvedDisk, hresolve] at hresolved
    exact hresolved
  obtain ⟨hstore, hcached, hstate, hpassed, hreads⟩ := h.store.resolve hid hthread hresolve hfiles
  obtain ⟨added, w, hopened, hadds⟩ := begun_adds hid hthread hresolve hstate.path hrequest
  rw [hopened] at hbegun
  obtain rfl := Except.ok.inj hbegun
  have hcachePath : ∀ cached, resolved.cache = some cached → cached.relativePath = w.relativePath := by
    intro cached hcache
    rw [hcached] at hcache
    obtain rfl := Option.some.inj hcache
    exact hadds.path.symm
  rw [← hadds.path] at hpassed hreads
  obtain ⟨hflushed, hwriting⟩ := hstore.flush hserde (safe_ne_empty hthread) hcachePath hadds hstate.path hreads
    (List.append_nil _).symm hreads.readable hpassed hfiled
  refine ⟨hflushed, ?_⟩
  intro w' hw'
  obtain rfl := Option.some.inj hw'
  exact ⟨hwriting, hcachePath⟩

omit hid in
theorem Coherent.flush (h : Coherent env identityId threadId contents t) (hw : t.writer = some w) :
    ∃ state added, Adds env threadId (threadRelative identityId threadId) state added
        (turnTexts env threadId state added) w ∧
      ∀ added' w', Adds env threadId (threadRelative identityId threadId) state added'
          (turnTexts env threadId state added) w' →
        Filed contents (flushWriter env w' t.store).2.disk →
          StoreCoherent env identityId threadId contents (flushWriter env w' t.store).2 ∧
            Writing env identityId threadId (flushWriter env w' t.store).2.disk (flushWriter env w' t.store).1 ∧
              ∀ cached, t.store.cache = some cached → cached.relativePath = w'.relativePath := by
  obtain ⟨⟨hpassed, state, added, before, hmem, hadds, hbefore, hbytes⟩, hcache⟩ := h.writer w hw
  refine ⟨state, added, hadds, ?_⟩
  intro added' w' hw' hfiled
  have hpath := hw'.path.trans hadds.path.symm
  have hreads := hbefore.appended hserde (safe_ne_empty hthread) hadds
  rw [← hbytes] at hreads
  have hcachePath : ∀ cached, t.store.cache = some cached → cached.relativePath = w'.relativePath :=
    fun cached hcached => (hcache cached hcached).trans hpath.symm
  obtain ⟨hflushed, hwriting⟩ := h.store.flush hserde (safe_ne_empty hthread) hcachePath hw' hmem hbefore
    (by rw [hpath, hbytes, hadds.hashed]) (by rw [hpath]; exact hreads.readable) (by rw [hpath]; exact hpassed) hfiled
  exact ⟨hflushed, hwriting, hcachePath⟩

omit hid in
theorem Coherent.appended (h : Coherent env identityId threadId contents t) (hw : t.writer = some w)
    {draft : ContentDraft} (hdraft : Shallow env draft) (happended : t.appended env w draft = .ok t')
    (hfiled : Filed contents t'.store.disk) :
    Coherent env identityId threadId contents t' := by
  obtain ⟨state, added, hadds, hflush⟩ := h.flush hthread hserde hw
  simp only [Thread.appended, appendContent_eq hadds.isOpen, bind, Except.bind] at happended
  obtain rfl := Except.ok.inj happended
  obtain ⟨hflushed, hwriting⟩ := hflush _ _ (hadds.content hdraft) hfiled
  refine ⟨hflushed, ?_⟩
  intro w' hw'
  obtain rfl := Option.some.inj hw'
  exact hwriting

omit hid in
theorem Coherent.finished (h : Coherent env identityId threadId contents t) (hw : t.writer = some w)
    {status : RolloutStatus} {httpStatus : Option ℕ} {errorCode : Option String}
    (hfinished : t.finished env w status httpStatus errorCode = .ok t') (hfiled : Filed contents t'.store.disk) :
    Coherent env identityId threadId contents t' := by
  obtain ⟨state, added, hadds, hflush⟩ := h.flush hthread hserde hw
  obtain ⟨more, ended, t'', hended, hstore, hclosed, hmore⟩ := finished_adds hadds t status httpStatus errorCode
  rw [hended] at hfinished
  obtain rfl := Except.ok.inj hfinished
  rw [hstore, publishState_disk] at hfiled
  obtain ⟨hflushed, hwriting, -⟩ := hflush _ _ hmore hfiled
  constructor
  · rw [hstore]
    exact hflushed.publish hserde (safe_ne_empty hthread) hwriting
  · intro w' hw'
    exact nomatch hclosed.symm.trans hw'

theorem Coherent.step (h : Coherent env identityId threadId contents t) (op : FileOp)
    (hshallow : ∀ draft ∈ op.drafts, Shallow env draft)
    (hfiled : ∀ disk ∈ t.disksOf env identityId threadId op, Filed contents disk)
    (hharmless : ∀ path file, op = .edit path file → Harmless env identityId threadId t path file) :
    Coherent env identityId threadId contents (t.fileStep env identityId threadId op) := by
  cases op with
  | edit path file =>
    have hfiles := hfiled _ List.mem_cons_self
    obtain ⟨hcache, hindex, hwriter⟩ := hharmless path file rfl
    refine ⟨⟨hfiles, ?_, ?_⟩, ?_⟩
    · exact fun state hstate => ⟨(h.store.cache state hstate).1, hcache state hstate⟩
    · intro index hi
      obtain ⟨hstate, hbase, -⟩ := h.store.index index hi
      exact ⟨hstate, hbase, hindex index hi⟩
    · intro w hw
      obtain ⟨hkept, hpassed⟩ := hwriter w hw
      obtain ⟨⟨-, state, added, before, hmem, hadds, hbefore, hbytes⟩, hpath⟩ := h.writer w hw
      exact ⟨⟨hpassed, state, added, before, hmem, hadds, hbefore, hkept.trans hbytes⟩, hpath⟩
  | thread op =>
    have hlast : Filed contents (t.step env identityId threadId op).store.disk := by
      apply hfiled
      unfold Thread.disksOf
      split
      · exact List.mem_cons_of_mem _ List.mem_cons_self
      · exact List.mem_cons_self
    change Coherent env identityId threadId contents (t.step env identityId threadId op)
    cases op with
    | beginTurn request =>
      cases hw : t.writer with
      | some w =>
        have hstep : t.step env identityId threadId (.beginTurn request) = t := by simp only [Thread.step, hw]
        rw [hstep]
        exact h
      | none =>
        have hstep : t.step env identityId threadId (.beginTurn request) =
            (t.begun env identityId threadId request).toOption.getD t := by simp only [Thread.step, hw]
        have hresolved : Filed contents (t.resolvedDisk env identityId threadId) := by
          apply hfiled
          simp only [Thread.disksOf, hw]
          exact List.mem_cons_self
        rw [hstep] at hlast ⊢
        cases hbegun : t.begun env identityId threadId request with
        | error error => exact h
        | ok t' =>
          rw [hbegun] at hlast
          exact h.begun hid hthread hserde hshallow hbegun hresolved hlast
    | appendContent draft =>
      cases hw : t.writer with
      | none =>
        have hstep : t.step env identityId threadId (.appendContent draft) = t := by simp only [Thread.step, hw]
        rw [hstep]
        exact h
      | some w =>
        have hstep : t.step env identityId threadId (.appendContent draft) =
            (t.appended env w draft).toOption.getD t := by simp only [Thread.step, hw]
        rw [hstep] at hlast ⊢
        cases happended : t.appended env w draft with
        | error error => exact h
        | ok t' =>
          rw [happended] at hlast
          exact h.appended hthread hserde hw (hshallow draft (List.mem_singleton.mpr rfl)) happended hlast
    | finish status httpStatus errorCode =>
      cases hw : t.writer with
      | none =>
        have hstep : t.step env identityId threadId (.finish status httpStatus errorCode) = t := by
          simp only [Thread.step, hw]
        rw [hstep]
        exact h
      | some w =>
        have hstep : t.step env identityId threadId (.finish status httpStatus errorCode) =
            (t.finished env w status httpStatus errorCode).toOption.getD t := by simp only [Thread.step, hw]
        rw [hstep] at hlast ⊢
        cases hfinished : t.finished env w status httpStatus errorCode with
        | error error => exact h
        | ok t' =>
          rw [hfinished] at hlast
          exact h.finished hthread hserde hw hfinished hlast
    | drop =>
      cases hw : t.writer with
      | none =>
        have hstep : t.step env identityId threadId .drop = t := by simp only [Thread.step, hw]
        rw [hstep]
        exact h
      | some w =>
        have hstep : t.step env identityId threadId .drop =
            { t with writer := none, closed := t.closed ++ [⟨w.turnId, none⟩] } := by simp only [Thread.step, hw]
        rw [hstep]
        exact ⟨h.store, by simp⟩
    | forgetCache => exact ⟨h.store.forget, fun w hw => ⟨(h.writer w hw).1, by rintro _ ⟨⟩⟩⟩
    | loseIndex => exact ⟨⟨h.store.files, h.store.cache, by rintro _ ⟨⟩⟩, h.writer⟩

theorem Coherent.run (h : Coherent env identityId threadId contents t) (ops : List FileOp)
    (hshallow : ∀ op ∈ ops, ∀ draft ∈ op.drafts, Shallow env draft)
    (hfiled : ∀ disk ∈ t.fileDisks env identityId threadId ops, Filed contents disk)
    (hharmless : ∀ before path file after, ops = before ++ .edit path file :: after →
      Harmless env identityId threadId (before.foldl (Thread.fileStep env identityId threadId) t) path file) :
    Coherent env identityId threadId contents (ops.foldl (Thread.fileStep env identityId threadId) t) := by
  induction ops generalizing t with
  | nil => exact h
  | cons op ops ih =>
    rw [Thread.fileDisks, List.forall_mem_cons, List.forall_mem_append] at hfiled
    rw [List.forall_mem_cons] at hshallow
    obtain ⟨-, hnext, hrest⟩ := hfiled
    have hstep := h.step hid hthread hserde op hshallow.1 hnext (by
      rintro path file rfl
      exact hharmless [] path file ops rfl)
    apply ih hstep hshallow.2 hrest
    intro before path file after hops
    exact hharmless (op :: before) path file after (by rw [hops]; rfl)

end coherent

section agreement

variable {env : Env} {identityId threadId : String}

section recovered

variable {store : Store} {state : ThreadState} (hid : isSafePathSegment identityId = true)
  (hthread : isSafePathSegment threadId = true)

include hid hthread

theorem resolveThreadSource_cached (hcache : store.cache = some state)
    (hmem : state.relativePath ∈ threadCandidatePaths identityId threadId)
    (hstamp : metadataStamp store.disk state.relativePath = some state.stamp) :
    resolveThreadSource env store identityId threadId = .ok (state, store) := by
  simp only [resolveThreadSource, cachedThread, hcache, checked_candidate hid hthread hmem, hstamp, bind, Except.bind,
    ↓reduceIte]

theorem not_agrees_of_readable_base (hcache : store.cache = some state)
    (hmem : state.relativePath ∈ threadCandidatePaths identityId threadId)
    (hstamp : metadataStamp store.disk state.relativePath = some state.stamp)
    (hpath : state.relativePath ≠ threadRelative identityId threadId) {parsed : ParsedConversation} {file : File}
    (hread : readThreadEvents env (store.disk (threadRelative identityId threadId)) = .ok (some (parsed, file))) :
    ¬Agrees env identityId threadId store := by
  intro h
  obtain ⟨read, disk, hload, hselected, -⟩ := h state store (resolveThreadSource_cached hid hthread hcache hmem hstamp)
  rw [loadThreadSource_of_passed hid hthread List.mem_cons_self (.inl rfl) hread] at hload
  obtain ⟨rfl, -⟩ := Prod.mk.inj (Except.ok.inj hload)
  rw [candidateState_path] at hselected
  exact hpath hselected

theorem resolveThreadSource_corrupt (hcache : store.cache = none) (hindex : store.index = none)
    (hcorrupt : Corrupt env store.disk (threadRelative identityId threadId))
    (hmissing : store.disk (recoveredThreadPath identityId threadId 1) = none) :
    ∃ store', resolveThreadSource env store identityId threadId =
        .ok (ThreadState.empty (recoveredThreadPath identityId threadId 1), store') ∧ store'.disk = store.disk := by
  have hfirst : (List.range maxRecoveredSegments).map (· + 1) = 1 :: [2, 3, 4, 5, 6, 7, 8, 9, 10] := rfl
  have hchecked : checkedAbsolutePath (recoveredThreadPath identityId threadId 1) =
      .ok (recoveredThreadPath identityId threadId 1) := checked_indexes hid hthread 1 (by decide)
  have hload : loadThreadSource env store.disk identityId threadId =
      .ok (ThreadState.empty (recoveredThreadPath identityId threadId 1), store.disk) := by
    simp only [loadThreadSource, readThreadCandidate_corrupt (checked_threadRelative hid hthread) hcorrupt, hfirst,
      loadRecovered, readThreadCandidate_missing hchecked hmissing,
      bind, Except.bind, Bool.false_and, Bool.false_eq_true, ↓reduceIte]
  refine ⟨persistThreadIndex
    { store with cache := some (ThreadState.empty (recoveredThreadPath identityId threadId 1)) }
    (threadRelative identityId threadId) (ThreadState.empty (recoveredThreadPath identityId threadId 1)), ?_, rfl⟩
  simp only [resolveThreadSource, cachedThread, hcache, hindex, loadPersistedThread, hload,
    checked_indexRelative hid hthread, bind, Except.bind, Option.bind]

end recovered

def corruptTurn : List FileOp :=
  [.edit (threadRelative "identity-1" "thread-1") (some ⟨Str.utf8 "x\n", some 1⟩),
    .thread (.beginTurn (sampleTurn "turn-1" [])), .thread (.finish .completed (some 200) none)]

theorem corruptTurn_run : ∃ (contents : String → FileStamp → Bytes) (t : Thread) (cached : ThreadState),
    Thread.fileRun limitedEnv "identity-1" "thread-1" corruptTurn = t ∧ t.writer = none ∧ t.store.cache = some cached ∧
      cached.relativePath = recoveredThreadPath "identity-1" "thread-1" 1 ∧
      metadataStamp t.store.disk cached.relativePath = some cached.stamp ∧
      (∀ disk ∈ Thread.fileDisks limitedEnv "identity-1" "thread-1" {} corruptTurn, Filed contents disk) ∧
      ∀ stamp, stamp.len = 0 → contents (threadRelative "identity-1" "thread-1") stamp = [] := by
  have hid : isSafePathSegment "identity-1" = true := by decide
  have hthread : isSafePathSegment "thread-1" = true := by decide
  have hne : recoveredThreadPath "identity-1" "thread-1" 1 ≠ threadRelative "identity-1" "thread-1" := by decide
  let broken : Disk := Function.update (fun _ => none) (threadRelative "identity-1" "thread-1")
    (some ⟨Str.utf8 "x\n", some 1⟩)
  have hmissing : broken (recoveredThreadPath "identity-1" "thread-1" 1) = none := Function.update_of_ne hne _ _
  have hcorrupt : Corrupt limitedEnv broken (threadRelative "identity-1" "thread-1") := by
    rw [Corrupt, show broken (threadRelative "identity-1" "thread-1") = some ⟨Str.utf8 "x\n", some 1⟩ from
      Function.update_self _ _ _]
    rfl
  obtain ⟨store, hresolve, hstore⟩ := @resolveThreadSource_corrupt limitedEnv "identity-1" "thread-1"
    { disk := broken } hid hthread rfl rfl hcorrupt hmissing
  have hrequest : ∀ draft ∈ (sampleTurn "turn-1" []).events, Shallow limitedEnv draft := List.forall_mem_nil _
  obtain ⟨begun, ended, hashed, more, n, m, cached, hbegun, hended, hbegunDisk, hendedDisk, hcached, hpath, hstamp,
    hopen, hclosed⟩ := first_turn (t := { store := { disk := broken } }) hid hthread rfl hresolve (by decide)
      (by rw [hstore]; exact hmissing) hrequest .completed (some 200) none
  have hstart : Thread.fileStep limitedEnv "identity-1" "thread-1" {}
      (.edit (threadRelative "identity-1" "thread-1") (some ⟨Str.utf8 "x\n", some 1⟩)) =
        { store := { disk := broken } } := rfl
  have hfirst : Thread.fileStep limitedEnv "identity-1" "thread-1" { store := { disk := broken } }
      (.thread (.beginTurn (sampleTurn "turn-1" []))) = begun := hbegun
  have hsecond : Thread.fileStep limitedEnv "identity-1" "thread-1" begun
      (.thread (.finish .completed (some 200) none)) = ended := hended
  have hrun : Thread.fileRun limitedEnv "identity-1" "thread-1" corruptTurn = ended := by
    simp only [Thread.fileRun, corruptTurn, List.foldl_cons, List.foldl_nil, hstart, hfirst, hsecond]
  let contents : String → FileStamp → Bytes := fun path stamp =>
    if path = recoveredThreadPath "identity-1" "thread-1" 1 then (hashed ++ more).take stamp.len
    else if stamp.len = 2 then Str.utf8 "x\n" else []
  have hnone : Filed contents (fun _ => none) := fun path file hfile => by cases hfile
  have hbroken : Filed contents broken := by
    apply hnone.update
    intro written hwritten
    obtain rfl := Option.some.inj hwritten
    exact ⟨rfl, Option.some_ne_none _⟩
  have hbegunFiled : Filed contents begun.store.disk := by
    rw [hbegunDisk, hstore]
    apply hbroken.update
    intro written hwritten
    obtain rfl := Option.some.inj hwritten
    exact ⟨((if_pos rfl).trans List.take_left).symm, Option.some_ne_none _⟩
  have hendedFiled : Filed contents ended.store.disk := by
    rw [hendedDisk, hstore]
    apply hbroken.update
    intro written hwritten
    obtain rfl := Option.some.inj hwritten
    exact ⟨((if_pos rfl).trans List.take_length).symm, Option.some_ne_none _⟩
  refine ⟨contents, ended, cached, hrun, hclosed, hcached, hpath, ?_, ?_, ?_⟩
  · rw [hpath, metadataStamp, hendedDisk, Function.update_self, hstamp]
    rfl
  · intro disk hdisk
    have hresolved : Thread.resolvedDisk limitedEnv "identity-1" "thread-1" { store := { disk := broken } } =
        broken := by
      rw [Thread.resolvedDisk, hresolve]
      exact hstore
    simp only [corruptTurn, Thread.fileDisks, Thread.disksOf, hstart, hfirst, hsecond, hresolved, List.mem_cons,
      List.mem_append, List.not_mem_nil, or_false] at hdisk
    rcases hdisk with rfl | rfl | rfl | (rfl | rfl) | rfl | rfl | rfl
    · exact hnone
    · exact hbroken
    · exact hbroken
    · exact hbroken
    · exact hbegunFiled
    · exact hbegunFiled
    · exact hendedFiled
    · exact hendedFiled
  · intro stamp hlen
    simp only [contents, if_neg hne.symm, hlen]
    rfl

/-- In a run whose lines are not nested too deep and whose changes from outside are harmless, every lookup selects what
reading the files selects. -/
theorem lookups_agree (hid : isSafePathSegment identityId = true) (hthread : isSafePathSegment threadId = true)
    (hserde : env.serde.Lawful) (ops : List FileOp) (hshallow : ∀ op ∈ ops, ∀ draft ∈ op.drafts, Shallow env draft)
    (hdated : Dated (Thread.fileDisks env identityId threadId {} ops))
    (hharmless : ∀ before path file after, ops = before ++ .edit path file :: after →
      Harmless env identityId threadId (Thread.fileRun env identityId threadId before) path file) :
    ∀ before after, ops = before ++ after →
      Agrees env identityId threadId (Thread.fileRun env identityId threadId before).store := by
  rintro before after rfl
  have hinitial : Coherent env identityId threadId
      (contentAt (Thread.fileDisks env identityId threadId {} (before ++ after))) {} := ⟨⟨nofun, nofun, nofun⟩, nofun⟩
  have hfiled : ∀ disk ∈ Thread.fileDisks env identityId threadId {} before,
      Filed (contentAt (Thread.fileDisks env identityId threadId {} (before ++ after))) disk :=
    fun disk hdisk => hdated.filed disk ((mem_fileDisks_append _ _ _ _ _ _ _).mpr (.inl hdisk))
  have hrun := hinitial.run hid hthread hserde before (fun op hop => hshallow op (List.mem_append_left _ hop)) hfiled (by
      intro earlier path file later hbefore
      apply hharmless earlier path file (later ++ after)
      rw [hbefore, List.append_assoc]
      rfl)
  exact hrun.store.agrees hid hthread

/-- The base file is deleted after a turn was written to a recovered segment. -/
theorem lookups_agree_deleted : ∃ state store,
    resolveThreadSource limitedEnv (Thread.fileRun limitedEnv "identity-1" "thread-1"
      (corruptTurn ++ [.thread .loseIndex, .edit (threadRelative "identity-1" "thread-1") none])).store "identity-1"
      "thread-1" = .ok (state, store) ∧ state.relativePath = recoveredThreadPath "identity-1" "thread-1" 1 ∧
    Agrees limitedEnv "identity-1" "thread-1" (Thread.fileRun limitedEnv "identity-1" "thread-1"
      (corruptTurn ++ [.thread .loseIndex, .edit (threadRelative "identity-1" "thread-1") none])).store := by
  obtain ⟨contents, t, cached, hrun, hwriter, hcache, hpath, hstamp, hfiled, -⟩ := corruptTurn_run
  have hne : cached.relativePath ≠ threadRelative "identity-1" "thread-1" := by
    rw [hpath]
    decide
  have hlast : Filed contents t.store.disk := by
    rw [← hrun]
    exact hfiled _ (fileDisks_end limitedEnv "identity-1" "thread-1" {} corruptTurn)
  have hdeleted : Filed contents (Function.update t.store.disk (threadRelative "identity-1" "thread-1") none) :=
    hlast.update (by simp)
  have hdated : Dated (Thread.fileDisks limitedEnv "identity-1" "thread-1" {}
      (corruptTurn ++ [.thread .loseIndex, .edit (threadRelative "identity-1" "thread-1") none])) := by
    refine @dated_of_filed contents _ (fun disk hdisk => ?_)
    rcases (mem_fileDisks_append _ _ _ _ _ _ _).mp hdisk with hdisk | hdisk
    · exact hfiled disk hdisk
    · rw [← Thread.fileRun, hrun] at hdisk
      simp only [Thread.fileDisks, Thread.disksOf, List.mem_cons, List.mem_append, List.not_mem_nil, or_false] at hdisk
      rcases hdisk with rfl | rfl | rfl | rfl | rfl
      · exact hlast
      · exact hlast
      · exact hlast
      · exact hdeleted
      · exact hdeleted
  have hshallow : ∀ op ∈ corruptTurn ++ [FileOp.thread .loseIndex, .edit (threadRelative "identity-1" "thread-1") none],
      ∀ draft ∈ op.drafts, Shallow limitedEnv draft := by
    simp [corruptTurn, FileOp.drafts, ThreadOp.drafts, sampleTurn]
  have hharmless : ∀ before path file after, corruptTurn ++ [FileOp.thread .loseIndex,
        .edit (threadRelative "identity-1" "thread-1") none] = before ++ .edit path file :: after →
      Harmless limitedEnv "identity-1" "thread-1" (Thread.fileRun limitedEnv "identity-1" "thread-1" before) path
        file := by
    intro before path file after hops
    -- the changes from outside are the first step and the last one
    rcases before with _ | ⟨first, before⟩
    · constructor <;> rintro _ ⟨⟩
    rcases before with _ | ⟨second, before⟩
    · simp [corruptTurn] at hops
    rcases before with _ | ⟨third, before⟩
    · simp [corruptTurn] at hops
    rcases before with _ | ⟨fourth, before⟩
    · simp [corruptTurn] at hops
    rcases before with _ | ⟨fifth, before⟩
    · rw [List.append_cons] at hops
      obtain ⟨hbefore, hedit⟩ := List.append_inj hops rfl
      obtain ⟨rfl, rfl⟩ := FileOp.edit.inj (List.cons.inj hedit).1
      rw [← hbefore, Thread.fileRun, List.foldl_append, ← Thread.fileRun, hrun]
      refine ⟨?_, by rintro _ ⟨⟩, by rintro _ hw; cases hwriter.symm.trans hw⟩
      intro state hstate _
      obtain rfl := Option.some.inj (hcache.symm.trans hstate)
      rw [hpath]
      refine .inr ⟨.inl (Function.update_self _ _ _), fun q hq => ?_⟩
      rw [recoveredPaths, show maxRecoveredSegments = 9 + 1 from rfl, List.range_succ_eq_map, List.map_cons,
        List.takeWhile_cons_of_neg (by simp)] at hq
      cases hq
    · simp [corruptTurn] at hops
  have hafter : Thread.fileRun limitedEnv "identity-1" "thread-1"
      (corruptTurn ++ [.thread .loseIndex, .edit (threadRelative "identity-1" "thread-1") none]) =
      (t.step limitedEnv "identity-1" "thread-1" .loseIndex).edited (threadRelative "identity-1" "thread-1") none := by
    rw [← hrun, Thread.fileRun, Thread.fileRun, List.foldl_append, List.foldl_cons, List.foldl_cons, List.foldl_nil,
      Thread.fileStep, Thread.fileStep]
  refine ⟨cached, ((t.step limitedEnv "identity-1" "thread-1" .loseIndex).edited
    (threadRelative "identity-1" "thread-1") none).store, ?_, hpath, ?_⟩
  · rw [hafter]
    have hkept : ((t.step limitedEnv "identity-1" "thread-1" .loseIndex).edited (threadRelative "identity-1" "thread-1")
        none).store.cache = some cached := hcache
    apply resolveThreadSource_cached (by decide) (by decide) hkept (by rw [hpath]; decide)
    dsimp only [Thread.edited, Thread.step]
    rw [metadataStamp_update hne]
    exact hstamp
  · exact @lookups_agree limitedEnv _ _ (by decide) (by decide) limitedEnv_lawful _ hshallow hdated hharmless _ []
      (List.append_nil _).symm

/-- The base file is repaired after a turn was written to a recovered segment, and the cache does not notice. -/
theorem repaired_base_unnoticed :
    Dated (Thread.fileDisks limitedEnv "identity-1" "thread-1" {}
      (corruptTurn ++ [.edit (threadRelative "identity-1" "thread-1") (some ⟨[], some 2⟩)])) ∧
    ¬Agrees limitedEnv "identity-1" "thread-1" (Thread.fileRun limitedEnv "identity-1" "thread-1"
      (corruptTurn ++ [.edit (threadRelative "identity-1" "thread-1") (some ⟨[], some 2⟩)])).store := by
  obtain ⟨contents, t, cached, hrun, -, hcache, hpath, hstamp, hfiled, hempty⟩ := corruptTurn_run
  have hne : cached.relativePath ≠ threadRelative "identity-1" "thread-1" := by
    rw [hpath]
    decide
  have hlast : Filed contents t.store.disk := by
    rw [← hrun]
    exact hfiled _ (fileDisks_end limitedEnv "identity-1" "thread-1" {} corruptTurn)
  have hrepaired : Filed contents (Function.update t.store.disk (threadRelative "identity-1" "thread-1")
      (some ⟨[], some 2⟩)) := by
    apply hlast.update
    intro written hwritten
    obtain rfl := Option.some.inj hwritten
    exact ⟨(hempty _ rfl).symm, Option.some_ne_none _⟩
  have hafter : Thread.fileRun limitedEnv "identity-1" "thread-1"
      (corruptTurn ++ [.edit (threadRelative "identity-1" "thread-1") (some ⟨[], some 2⟩)]) =
      t.edited (threadRelative "identity-1" "thread-1") (some ⟨[], some 2⟩) := by
    rw [← hrun, Thread.fileRun, Thread.fileRun, List.foldl_append, List.foldl_cons, List.foldl_nil, Thread.fileStep]
  rw [hafter]
  constructor
  · refine @dated_of_filed contents _ (fun disk hdisk => ?_)
    rcases (mem_fileDisks_append _ _ _ _ _ _ _).mp hdisk with hdisk | hdisk
    · exact hfiled disk hdisk
    · rw [← Thread.fileRun, hrun] at hdisk
      simp only [Thread.fileDisks, Thread.disksOf, List.mem_cons, List.mem_append, List.not_mem_nil, or_false] at hdisk
      rcases hdisk with rfl | rfl | rfl
      · exact hlast
      · exact hrepaired
      · exact hrepaired
  · have hread : ∃ parsed, readThreadEvents limitedEnv (some ⟨[], some 2⟩) = .ok (some (parsed, ⟨[], some 2⟩)) := by
      obtain ⟨parsed, hread, -⟩ := @Reads.read limitedEnv 0 0 ⟨[], some 2⟩ (Reads.nil limitedEnv)
      exact ⟨parsed, hread⟩
    obtain ⟨parsed, hread⟩ := hread
    have hkept : (t.edited (threadRelative "identity-1" "thread-1") (some ⟨[], some 2⟩)).store.cache =
        some cached := hcache
    apply not_agrees_of_readable_base (by decide) (by decide) hkept (by rw [hpath]; decide) _ hne
    · dsimp only [Thread.edited]
      rw [Function.update_self]
      exact hread
    · dsimp only [Thread.edited]
      rw [metadataStamp_update hne]
      exact hstamp

end agreement

end Prelay.Rollout
