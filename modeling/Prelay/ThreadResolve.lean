import Prelay.ThreadDisk

namespace Prelay.Rollout

open Json

theorem safe_char {value : String} (h : isSafePathSegment value = true) :
    ∀ c ∈ value.toList, c ≠ '/' ∧ c ≠ '\\' ∧ c ≠ ':' ∧ c ≠ '.' := by
  intro c hc
  simp only [isSafePathSegment, Bool.and_eq_true, List.all_eq_true] at h
  have hsafe := h.2 c hc
  refine ⟨?_, ?_, ?_, ?_⟩ <;>
    · rintro rfl
      exact absurd hsafe (by decide)

theorem checkedAbsolutePath_safe {a b : String} (ha : isSafePathSegment a = true) (hb : isSafePathSegment b = true)
    (suffix : String) (hsuffix : ∀ c ∈ suffix.toList, c ≠ '/' ∧ c ≠ '\\' ∧ c ≠ ':') :
    checkedAbsolutePath (a ++ "/" ++ b ++ suffix) = .ok (a ++ "/" ++ b ++ suffix) := by
  have hane : a.toList ≠ [] := fun h => safe_ne_empty ha (String.toList_eq_nil_iff.mp h)
  have hbne : b.toList ≠ [] := fun h => safe_ne_empty hb (String.toList_eq_nil_iff.mp h)
  obtain ⟨c, cs, hacs⟩ := List.exists_cons_of_ne_nil hane
  obtain ⟨d, ds, hbds⟩ := List.exists_cons_of_ne_nil hbne
  have hac := safe_char ha
  have hbc := safe_char hb
  rw [hacs] at hac
  rw [hbds] at hbc
  have hchars : (a ++ "/" ++ b ++ suffix).toList = (c :: cs) ++ '/' :: ((d :: ds) ++ suffix.toList) := by
    simp [hacs, hbds]
  have hsplit : (a ++ "/" ++ b ++ suffix).toList.splitOn '/' = [c :: cs, (d :: ds) ++ suffix.toList] := by
    have hfirst : '/' ∉ c :: cs := fun h => (hac _ h).1 rfl
    have hsecond : '/' ∉ (d :: ds) ++ suffix.toList := by
      intro h
      rcases List.mem_append.mp h with h | h
      · exact (hbc _ h).1 rfl
      · exact (hsuffix _ h).1 rfl
    rw [hchars, List.splitOn_append_cons_self_of_not_mem hfirst, List.splitOn_eq_singleton hsecond]
  have hfree : ∀ x ∈ (a ++ "/" ++ b ++ suffix).toList, x ≠ '\\' ∧ x ≠ ':' := by
    intro x hx
    rw [hchars] at hx
    rcases List.mem_append.mp hx with hx | hx
    · exact ⟨(hac x hx).2.1, (hac x hx).2.2.1⟩
    rcases List.mem_cons.mp hx with rfl | hx
    · decide
    rcases List.mem_append.mp hx with hx | hx
    · exact ⟨(hbc x hx).2.1, (hbc x hx).2.2.1⟩
    · exact ⟨(hsuffix x hx).2.1, (hsuffix x hx).2.2⟩
  have hslash : '\\' ∉ (a ++ "/" ++ b ++ suffix).toList := fun h => (hfree _ h).1 rfl
  have hcolon : ':' ∉ (a ++ "/" ++ b ++ suffix).toList := fun h => (hfree _ h).2 rfl
  have hhead : (a ++ "/" ++ b ++ suffix).toList.head? = some c := by rw [hchars]; rfl
  have hnonempty : a ++ "/" ++ b ++ suffix ≠ "" := by
    intro h
    rw [h] at hhead
    exact nomatch hhead
  obtain ⟨hc1, hc2, -, hc3⟩ := hac c List.mem_cons_self
  obtain ⟨-, -, -, hd3⟩ := hbc d List.mem_cons_self
  unfold checkedAbsolutePath
  rw [if_neg]
  simp only [hsplit, hhead, hslash, hcolon, hnonempty]
  simp [hc1, hc2, hc3, hd3]

section resolve

variable {env : Env} {identityId threadId : String} (hid : isSafePathSegment identityId = true)
  (hthread : isSafePathSegment threadId = true) {keeps : Bytes → Prop} {dedup : Prop} {drafts : Set ContentDraft}

include hid hthread

theorem checked_threadRelative :
    checkedAbsolutePath (threadRelative identityId threadId) = .ok (threadRelative identityId threadId) :=
  checkedAbsolutePath_safe hid hthread ".jsonl" (by simp)

theorem checked_indexRelative :
    checkedAbsolutePath (indexRelative (threadRelative identityId threadId)) =
      .ok (indexRelative (threadRelative identityId threadId)) := by
  have happend : indexRelative (threadRelative identityId threadId) =
      identityId ++ "/" ++ threadId ++ (".jsonl" ++ ".index") := by
    simp [indexRelative, threadRelative, String.append_assoc]
  rw [happend]
  exact checkedAbsolutePath_safe hid hthread _ (by simp)

theorem checked_recovered :
    checkedAbsolutePath (recoveredThreadPath identityId threadId 1) = .ok (recoveredThreadPath identityId threadId 1) :=
  checkedAbsolutePath_safe hid hthread ".recovered.jsonl" (by simp)

theorem loadThreadSource_log (hserde : env.serde.Lawful) {log : Log}
    (hstored : ∀ event ∈ log, Stored event) (hnumbered : Numbered log) :
    loadThreadSource env (threadDisk env (threadRelative identityId threadId) (threadTexts env threadId (some log)))
        identityId threadId =
      .ok (ThreadState.fromEvents env (threadRelative identityId threadId)
          ⟨(threadBytes env threadId (some log)).length, env.modified (log.length + 1)⟩ .v1
          (log.map (rereadEvent env)) (log.length + 1) log.length,
        threadDisk env (threadRelative identityId threadId) (threadTexts env threadId (some log))) := by
  have hfile : threadDisk env (threadRelative identityId threadId) (threadTexts env threadId (some log))
      (threadRelative identityId threadId) =
        some ⟨threadBytes env threadId (some log), env.modified (log.length + 1)⟩ := by
    simp only [threadDisk, ↓reduceIte, textsFile_thread]
  have hlog : ∀ event ∈ (some log).getD [], Stored event := hstored
  have hread := readThreadEvents_thread hserde (safe_ne_empty hthread) hlog hnumbered (env.modified (log.length + 1))
  simp only [loadThreadSource, readThreadCandidate, checked_threadRelative hid hthread, hfile, hread, bind,
    Except.bind]
  rw [← hfile, Function.update_eq_self]
  rfl

theorem loadThreadSource_thread (hserde : env.serde.Lawful) {log : Option Log}
    (hlog : WellFormed env drafts (log.getD [])) (hreads : ∀ draft ∈ drafts, Readable keeps env draft)
    (hback : dedup → ∀ draft ∈ drafts, ReadsBack env draft) :
    ∃ state, loadThreadSource env
          (threadDisk env (threadRelative identityId threadId) (threadTexts env threadId log)) identityId threadId =
        .ok (state, threadDisk env (threadRelative identityId threadId) (threadTexts env threadId log)) ∧
      Describes keeps dedup env (threadRelative identityId threadId) state log ∧
      state.stamp.len = (threadBytes env threadId log).length := by
  cases log with
  | none =>
    have hnone : ∀ p, threadDisk env (threadRelative identityId threadId) (threadTexts env threadId none) p = none := by
      intro p
      simp [threadDisk, textsFile, threadTexts]
    have hindexes : (List.range maxRecoveredSegments).map (· + 1) = [1, 2, 3, 4, 5, 6, 7, 8, 9, 10] := rfl
    refine ⟨ThreadState.empty (threadRelative identityId threadId), ?_, Describes.empty keeps dedup env _, rfl⟩
    simp only [loadThreadSource, readThreadCandidate, checked_threadRelative hid hthread, hnone, readThreadEvents, bind,
      Except.bind, hindexes, loadRecovered, checked_recovered hid hthread, Bool.true_and, decide_true, ↓reduceIte]
  | some log =>
    have hstored := hlog.stored (fun draft hdraft => (hreads draft hdraft).shallow)
    exact ⟨_, loadThreadSource_log hid hthread hserde hstored hlog.numbered,
      Describes.fromEvents hserde _
        (fun _ hidentity => hlog.kept (fun draft hdraft => (hreads draft hdraft).kept) hidentity)
        (fun hdedup => hlog.reread_eq hserde (hback hdedup)), rfl⟩

theorem cachedThread_thread {log : Option Log} {store : Store}
    (hdisk : store.disk = threadDisk env (threadRelative identityId threadId) (threadTexts env threadId log))
    (hremembers : Remembers env threadId (threadRelative identityId threadId) keeps dedup log store) :
    ∃ found, cachedThread store = .ok found ∧ ∀ state ∈ found,
      Describes keeps dedup env (threadRelative identityId threadId) state log ∧
      state.stamp.len = (threadBytes env threadId log).length := by
  unfold cachedThread
  cases hcache : store.cache with
  | none => exact ⟨none, rfl, nofun⟩
  | some state =>
    have hsnapshot := hremembers.cache state hcache
    have hpath : state.relativePath = threadRelative identityId threadId := by
      obtain ⟨past, -, hstate, -⟩ := hsnapshot
      exact hstate.relativePath
    simp only [hpath, checked_threadRelative hid hthread, bind, Except.bind, hdisk]
    refine ⟨_, rfl, ?_⟩
    intro found hfound
    split_ifs at hfound with hstamp
    · obtain rfl := Option.some.inj hfound
      exact hsnapshot.current (threadDisk_self env _ _) hstamp
    · exact nomatch hfound

omit hid hthread in
theorem Remembers.persist {path : String} {log : Option Log} {store : Store} {state : ThreadState}
    (h : Remembers env threadId path keeps dedup log store) (threadPath : String)
    (hstate : Describes keeps dedup env path state log) (hlen : state.stamp.len = (threadBytes env threadId log).length) :
    Remembers env threadId path keeps dedup log
      (persistThreadIndex { store with cache := some state } threadPath state) where
  cache := by
    intro cached hcached
    obtain rfl := Option.some.inj hcached
    exact ⟨log, Past.refl log, hstate, hlen⟩
  index := by
    intro index hindex
    rcases Option.or_eq_some_iff.mp hindex with hwritten | ⟨-, hkept⟩
    · exact ⟨state, writeThreadIndex_indexOf hwritten, log, Past.refl log, hstate, hlen⟩
    · exact h.index index hkept

/-- A begin finds the state of the log, whether it comes from the cache, the index or the file. -/
theorem resolveThreadSource_thread (hserde : env.serde.Lawful) {log : Option Log} {store : Store}
    (hdisk : store.disk = threadDisk env (threadRelative identityId threadId) (threadTexts env threadId log))
    (hlog : WellFormed env drafts (log.getD [])) (hreads : ∀ draft ∈ drafts, Readable keeps env draft)
    (hback : dedup → ∀ draft ∈ drafts, ReadsBack env draft)
    (hremembers : Remembers env threadId (threadRelative identityId threadId) keeps dedup log store) :
    ∃ state store', resolveThreadSource env store identityId threadId = .ok (state, store') ∧
      Describes keeps dedup env (threadRelative identityId threadId) state log ∧
      state.stamp.len = (threadBytes env threadId log).length ∧ store'.disk = store.disk ∧
      Remembers env threadId (threadRelative identityId threadId) keeps dedup log store' := by
  obtain ⟨found, hcached, hfound⟩ := cachedThread_thread hid hthread hdisk hremembers
  unfold resolveThreadSource
  rw [hcached]
  cases found with
  | some state => exact ⟨state, store, rfl, (hfound state rfl).1, (hfound state rfl).2, rfl, hremembers⟩
  | none =>
    simp only [checked_indexRelative hid hthread, bind, Except.bind]
    cases hload : loadPersistedThread store.disk store.index identityId threadId with
    | some state =>
      obtain ⟨index, hindex⟩ : ∃ index, store.index = some index := by
        cases hindex : store.index with
        | none => simp [hindex, loadPersistedThread] at hload
        | some index => exact ⟨index, rfl⟩
      obtain ⟨written, hwritten, hsnapshot⟩ := hremembers.index index hindex
      rw [hindex] at hload
      obtain ⟨rfl, hstamp⟩ := loadPersistedThread_indexOf hwritten hload
      have hpath : state.relativePath = threadRelative identityId threadId := by
        obtain ⟨past, -, hstate, -⟩ := hsnapshot
        exact hstate.relativePath
      rw [hpath, hdisk] at hstamp
      obtain ⟨hstate, hlen⟩ := hsnapshot.current (threadDisk_self env _ _) hstamp
      refine ⟨state, _, rfl, hstate, hlen, rfl, ?_, hremembers.index⟩
      intro cached hcache
      obtain rfl := Option.some.inj hcache
      exact hsnapshot
    | none =>
      obtain ⟨state, hsource, hstate, hlen⟩ :=
        loadThreadSource_thread hid hthread hserde hlog hreads hback
      simp only [hdisk, hsource]
      refine ⟨state, _, rfl, hstate, hlen, rfl, ?_⟩
      have hpersist := hremembers.persist (threadRelative identityId threadId) hstate hlen
      rw [← hdisk]
      exact hpersist

end resolve

end Prelay.Rollout
