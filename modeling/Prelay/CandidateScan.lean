import Prelay.ConversationGrammar
import Prelay.PathIsolation

namespace Prelay.Rollout

section scan

variable (env : Env) (identityId threadId : String) (disk : Disk)

def recoveredPaths : List String :=
  (List.range maxRecoveredSegments).map (fun i => recoveredThreadPath identityId threadId (i + 1))

def Corrupt (path : String) : Prop := readThreadEvents env (disk path) = .error .serialize

/-- All candidates in front of a path are passed over: a base file that is missing or corrupt, recovered segments
that are corrupt. -/
def PassedBefore (path : String) : Prop :=
  path = threadRelative identityId threadId ∨
    (disk (threadRelative identityId threadId) = none ∨ Corrupt env disk (threadRelative identityId threadId)) ∧
      ∀ q ∈ (recoveredPaths identityId threadId).takeWhile (fun q => q ≠ path), Corrupt env disk q

structure Chosen (state : ThreadState) (disk' : Disk) : Prop where
  path : state.relativePath ∈ threadCandidatePaths identityId threadId
  passed : PassedBefore env identityId threadId disk state.relativePath
  outcome : (∃ parsed file, readThreadEvents env (disk state.relativePath) = .ok (some (parsed, file)) ∧
      state = candidateState env state.relativePath parsed (FileStamp.fromMetadata file) ∧
      disk' = Function.update disk state.relativePath (some file)) ∨
    disk state.relativePath = none ∧ state = ThreadState.empty state.relativePath ∧ disk' = disk

end scan

section read

variable {env : Env}

theorem candidateState_path (env : Env) (path : String) (parsed : ParsedConversation) (stamp : FileStamp) :
    (candidateState env path parsed stamp).relativePath = path := replay_path env path parsed.events

theorem readThreadEvents_none {file : Option File} (h : readThreadEvents env file = .ok none) : file = none := by
  cases file with
  | none => rfl
  | some file =>
    simp only [readThreadEvents, bind, Except.bind] at h
    split at h
    · cases h
    · split_ifs at h <;>
        · split at h
          · cases h
          · cases h

theorem completedContents_completeLines (contents : String) : completedContents (completeLines contents) = true := by
  have hjoined : completeLines contents =
      joinedText ((Lines.split '\n' contents.toList).1.map String.ofList) := by
    rw [completeLines, joinedText, List.map_map]
    congr 2
    exact (Json.map_eq_self_iff.mpr (fun line _ => String.toList_ofList)).symm
  rw [hjoined]
  exact completedContents_joinedText _

theorem readToString_utf8 (contents : String) (modified : Option ℕ) :
    readToString ⟨Str.utf8 contents, modified⟩ = .ok contents := by
  simp [readToString, Str.fromUtf8_utf8]

theorem readToString_ok {file : File} {contents : String} (h : readToString file = .ok contents) :
    file.bytes = Str.utf8 contents := by
  unfold readToString at h
  split at h
  · next text htext =>
    obtain rfl := Except.ok.inj h
    exact (Str.fromUtf8_eq_some.mp htext).symm
  · cases h

theorem readThreadEvents_some {file file' : File} {parsed : ParsedConversation}
    (h : readThreadEvents env (some file) = .ok (some (parsed, file'))) :
    ∃ contents, file'.bytes = Str.utf8 contents ∧ completedContents contents = true ∧
      parseConversationContents env.serde contents = .ok parsed := by
  simp only [readThreadEvents, bind, Except.bind] at h
  split at h
  · cases h
  · next contents hcontents =>
    split_ifs at h with hcomplete
    · split at h
      · cases h
      · next parsed' hparsed =>
        obtain ⟨rfl, rfl⟩ := Prod.mk.inj (Option.some.inj (Except.ok.inj h))
        exact ⟨contents, readToString_ok hcontents, hcomplete, hparsed⟩
    · split at h
      · cases h
      · next parsed' hparsed =>
        obtain ⟨rfl, rfl⟩ := Prod.mk.inj (Option.some.inj (Except.ok.inj h))
        exact ⟨completeLines contents, rfl, completedContents_completeLines contents, hparsed⟩

theorem readThreadEvents_complete {contents : String} {parsed : ParsedConversation}
    (hcomplete : completedContents contents = true)
    (hparsed : parseConversationContents env.serde contents = .ok parsed) (modified : Option ℕ) :
    readThreadEvents env (some ⟨Str.utf8 contents, modified⟩) =
      .ok (some (parsed, ⟨Str.utf8 contents, modified⟩)) := by
  simp only [readThreadEvents, readToString_utf8, bind, Except.bind, hcomplete, ↓reduceIte, hparsed]

end read

section choice

variable {env : Env} {identityId threadId path : String} {disk disk' : Disk} {state : ThreadState}
  {parsed : ParsedConversation} {file : File}

theorem readThreadCandidate_some (hchecked : checkedAbsolutePath path = .ok path)
    (hread : readThreadEvents env (disk path) = .ok (some (parsed, file))) :
    readThreadCandidate env disk path =
      .ok (.events parsed (FileStamp.fromMetadata file), Function.update disk path (some file)) := by
  simp only [readThreadCandidate, hchecked, bind, Except.bind, hread]

theorem readThreadCandidate_corrupt (hchecked : checkedAbsolutePath path = .ok path)
    (hcorrupt : Corrupt env disk path) : readThreadCandidate env disk path = .ok (.corrupt, disk) := by
  simp only [readThreadCandidate, hchecked, bind, Except.bind]
  rw [hcorrupt]

theorem readThreadCandidate_missing (hchecked : checkedAbsolutePath path = .ok path) (hmissing : disk path = none) :
    readThreadCandidate env disk path = .ok (.missing, disk) := by
  simp only [readThreadCandidate, hchecked, bind, Except.bind, hmissing, readThreadEvents]

theorem readThreadCandidate_ok {candidate : ThreadCandidate} (hchecked : checkedAbsolutePath path = .ok path)
    (h : readThreadCandidate env disk path = .ok (candidate, disk')) :
    (∃ parsed file, candidate = .events parsed (FileStamp.fromMetadata file) ∧
      readThreadEvents env (disk path) = .ok (some (parsed, file)) ∧ disk' = Function.update disk path (some file)) ∨
    candidate = .missing ∧ disk path = none ∧ disk' = disk ∨
    candidate = .corrupt ∧ Corrupt env disk path ∧ disk' = disk := by
  simp only [readThreadCandidate, hchecked, bind, Except.bind] at h
  split at h
  · next parsed file hread =>
    obtain ⟨rfl, rfl⟩ := Prod.mk.inj (Except.ok.inj h)
    exact .inl ⟨parsed, file, rfl, hread, rfl⟩
  · next hread =>
    obtain ⟨rfl, rfl⟩ := Prod.mk.inj (Except.ok.inj h)
    exact .inr (.inl ⟨rfl, readThreadEvents_none hread, rfl⟩)
  · next hread =>
    obtain ⟨rfl, rfl⟩ := Prod.mk.inj (Except.ok.inj h)
    exact .inr (.inr ⟨rfl, hread, rfl⟩)
  · cases h

theorem loadRecovered_of_passed {baseMissing : Bool} {indexes : List ℕ}
    (hchecked : ∀ i ∈ indexes, checkedAbsolutePath (recoveredThreadPath identityId threadId i) =
      .ok (recoveredThreadPath identityId threadId i))
    (hmem : path ∈ indexes.map (recoveredThreadPath identityId threadId))
    (hpassed : ∀ q ∈ (indexes.map (recoveredThreadPath identityId threadId)).takeWhile (fun q => q ≠ path),
      Corrupt env disk q)
    (hread : readThreadEvents env (disk path) = .ok (some (parsed, file))) :
    loadRecovered env identityId threadId baseMissing disk indexes =
      .ok (candidateState env path parsed (FileStamp.fromMetadata file), Function.update disk path (some file)) := by
  induction indexes with
  | nil => exact nomatch hmem
  | cons index indexes ih =>
    rw [List.forall_mem_cons] at hchecked
    by_cases hpath : recoveredThreadPath identityId threadId index = path
    · subst hpath
      simp only [loadRecovered, readThreadCandidate_some hchecked.1 hread, bind, Except.bind]
    · rw [List.map_cons, List.takeWhile_cons_of_pos (by simpa using hpath), List.forall_mem_cons] at hpassed
      have hmem' : path ∈ indexes.map (recoveredThreadPath identityId threadId) :=
        (List.mem_cons.mp hmem).resolve_left (fun heq => hpath heq.symm)
      simp only [loadRecovered, readThreadCandidate_corrupt hchecked.1 hpassed.1, bind, Except.bind]
      exact ih hchecked.2 hmem' hpassed.2

theorem loadRecovered_ok {baseMissing : Bool} {indexes : List ℕ}
    (hchecked : ∀ i ∈ indexes, checkedAbsolutePath (recoveredThreadPath identityId threadId i) =
      .ok (recoveredThreadPath identityId threadId i))
    (h : loadRecovered env identityId threadId baseMissing disk indexes = .ok (state, disk')) :
    (state.relativePath ∈ indexes.map (recoveredThreadPath identityId threadId) ∧
      (∀ q ∈ (indexes.map (recoveredThreadPath identityId threadId)).takeWhile (fun q => q ≠ state.relativePath),
        Corrupt env disk q) ∧
      ((∃ parsed file, readThreadEvents env (disk state.relativePath) = .ok (some (parsed, file)) ∧
        state = candidateState env state.relativePath parsed (FileStamp.fromMetadata file) ∧
        disk' = Function.update disk state.relativePath (some file)) ∨
      disk state.relativePath = none ∧ state = ThreadState.empty state.relativePath ∧ disk' = disk)) ∨
    baseMissing = true ∧ state = ThreadState.empty (threadRelative identityId threadId) ∧ disk' = disk := by
  induction indexes with
  | nil => cases h
  | cons index indexes ih =>
    rw [List.forall_mem_cons] at hchecked
    obtain ⟨⟨candidate, disk₁⟩, hcandidate, hrest⟩ := bind_ok h
    have hstop : ∀ rest : List String, (recoveredThreadPath identityId threadId index :: rest).takeWhile
        (fun q => q ≠ recoveredThreadPath identityId threadId index) = [] :=
      fun rest => List.takeWhile_cons_of_neg (by simp)
    rcases readThreadCandidate_ok hchecked.1 hcandidate with
      ⟨parsed, file, rfl, hread, rfl⟩ | ⟨rfl, hmissing, rfl⟩ | ⟨rfl, hcorrupt, rfl⟩
    · obtain ⟨rfl, rfl⟩ := Prod.mk.inj (Except.ok.inj hrest)
      left
      rw [candidateState_path, List.map_cons, hstop]
      exact ⟨List.mem_cons_self, by simp, .inl ⟨parsed, file, hread, rfl, rfl⟩⟩
    · obtain ⟨rfl, rfl⟩ := Prod.mk.inj (Except.ok.inj hrest)
      split_ifs with hbase
      · right
        rw [Bool.and_eq_true] at hbase
        exact ⟨hbase.1, rfl, rfl⟩
      · left
        rw [List.map_cons]
        refine ⟨List.mem_cons_self, ?_, .inr ⟨hmissing, rfl, rfl⟩⟩
        intro q hq
        rw [ThreadState.empty, hstop] at hq
        cases hq
    · rcases ih hchecked.2 hrest with ⟨hmem, hpassed, houtcome⟩ | hbase
      · left
        refine ⟨List.mem_cons_of_mem _ hmem, ?_, houtcome⟩
        intro q hq
        rw [List.map_cons, List.takeWhile_cons] at hq
        split_ifs at hq with hne
        · rcases List.mem_cons.mp hq with rfl | hq
          · exact hcorrupt
          · exact hpassed q hq
        · cases hq
      · exact .inr hbase

section candidates

variable (hid : isSafePathSegment identityId = true) (hthread : isSafePathSegment threadId = true)

include hid hthread

theorem checked_candidate {path : String} (h : path ∈ threadCandidatePaths identityId threadId) :
    checkedAbsolutePath path = .ok path := checked_threadPaths hid hthread (List.mem_cons_of_mem _ h)

theorem checked_indexes : ∀ i ∈ (List.range maxRecoveredSegments).map (· + 1),
    checkedAbsolutePath (recoveredThreadPath identityId threadId i) =
      .ok (recoveredThreadPath identityId threadId i) := by
  intro i hi
  obtain ⟨k, hk, rfl⟩ := List.mem_map.mp hi
  exact checked_candidate hid hthread (List.mem_cons_of_mem _ (List.mem_map.mpr ⟨k, hk, rfl⟩))

theorem loadThreadSource_of_passed (hmem : path ∈ threadCandidatePaths identityId threadId)
    (hpassed : PassedBefore env identityId threadId disk path)
    (hread : readThreadEvents env (disk path) = .ok (some (parsed, file))) :
    loadThreadSource env disk identityId threadId =
      .ok (candidateState env path parsed (FileStamp.fromMetadata file), Function.update disk path (some file)) := by
  have hbase := checked_threadRelative hid hthread
  have hpaths : recoveredPaths identityId threadId =
      ((List.range maxRecoveredSegments).map (· + 1)).map (recoveredThreadPath identityId threadId) := by
    rw [recoveredPaths, List.map_map]
    rfl
  unfold loadThreadSource
  by_cases hpath : path = threadRelative identityId threadId
  · subst hpath
    simp only [readThreadCandidate_some hbase hread, bind, Except.bind]
  · obtain ⟨hskipped, hcorrupt⟩ := hpassed.resolve_left hpath
    have hrecovered : path ∈ recoveredPaths identityId threadId := (List.mem_cons.mp hmem).resolve_left hpath
    rw [hpaths] at hrecovered hcorrupt
    rcases hskipped with hmissing | hbroken
    · simp only [readThreadCandidate_missing hbase hmissing, bind, Except.bind]
      exact loadRecovered_of_passed (checked_indexes hid hthread) hrecovered hcorrupt hread
    · simp only [readThreadCandidate_corrupt hbase hbroken, bind, Except.bind]
      exact loadRecovered_of_passed (checked_indexes hid hthread) hrecovered hcorrupt hread

theorem loadThreadSource_chosen (h : loadThreadSource env disk identityId threadId = .ok (state, disk')) :
    Chosen env identityId threadId disk state disk' := by
  have hbase := checked_threadRelative hid hthread
  have hpaths : recoveredPaths identityId threadId =
      ((List.range maxRecoveredSegments).map (· + 1)).map (recoveredThreadPath identityId threadId) := by
    rw [recoveredPaths, List.map_map]
    rfl
  obtain ⟨⟨candidate, disk₁⟩, hcandidate, hrest⟩ := bind_ok h
  rcases readThreadCandidate_ok hbase hcandidate with
    ⟨parsed, file, rfl, hread, rfl⟩ | ⟨rfl, hmissing, rfl⟩ | ⟨rfl, hcorrupt, rfl⟩
  · obtain ⟨rfl, rfl⟩ := Prod.mk.inj (Except.ok.inj hrest)
    have hpath := candidateState_path env (threadRelative identityId threadId) parsed (FileStamp.fromMetadata file)
    refine ⟨?_, .inl hpath, .inl ?_⟩
    · rw [hpath]
      exact List.mem_cons_self
    · rw [hpath]
      exact ⟨parsed, file, hread, rfl, rfl⟩
  · rcases loadRecovered_ok (checked_indexes hid hthread) hrest with ⟨hmem, hpassed, houtcome⟩ | ⟨-, rfl, rfl⟩
    · rw [← hpaths] at hmem hpassed
      exact ⟨List.mem_cons_of_mem _ hmem, .inr ⟨.inl hmissing, hpassed⟩, houtcome⟩
    · exact ⟨List.mem_cons_self, .inl rfl, .inr ⟨hmissing, rfl, rfl⟩⟩
  · rcases loadRecovered_ok (checked_indexes hid hthread) hrest with ⟨hmem, hpassed, houtcome⟩ | ⟨hfalse, -, -⟩
    · rw [← hpaths] at hmem hpassed
      exact ⟨List.mem_cons_of_mem _ hmem, .inr ⟨.inr hcorrupt, hpassed⟩, houtcome⟩
    · exact nomatch hfalse

end candidates

end choice

section lookup

variable {env : Env} {identityId threadId : String} {store store' : Store} {state : ThreadState}

theorem cachedThread_ok {found : Option ThreadState}
    (hchecked : ∀ state, store.cache = some state → checkedAbsolutePath state.relativePath = .ok state.relativePath)
    (h : cachedThread store = .ok found) (state : ThreadState) (hfound : found = some state) :
    store.cache = some state ∧ metadataStamp store.disk state.relativePath = some state.stamp := by
  subst hfound
  unfold cachedThread at h
  split at h
  · exact nomatch Except.ok.inj h
  · next cached hcached =>
    simp only [hchecked cached hcached, bind, Except.bind] at h
    have hsome := Except.ok.inj h
    split_ifs at hsome with hstamp
    obtain rfl := Option.some.inj hsome
    exact ⟨hcached, hstamp⟩

theorem resolveThreadSource_ok
    (hchecked : ∀ state, store.cache = some state → checkedAbsolutePath state.relativePath = .ok state.relativePath)
    (h : resolveThreadSource env store identityId threadId = .ok (state, store')) :
    (store.cache = some state ∧ metadataStamp store.disk state.relativePath = some state.stamp ∧ store' = store) ∨
    (∃ index, store.index = some index ∧ loadPersistedThread store.disk (some index) identityId threadId = some state ∧
      store' = { store with cache := some state }) ∨
    ∃ disk, loadThreadSource env store.disk identityId threadId = .ok (state, disk) ∧
      store' = persistThreadIndex { store with disk := disk, cache := some state } (threadRelative identityId threadId)
        state := by
  obtain ⟨found, hfound, h⟩ := bind_ok h
  cases found with
  | some cached =>
    obtain ⟨rfl, rfl⟩ := Prod.mk.inj (Except.ok.inj h)
    exact .inl (and_assoc.mp ⟨cachedThread_ok hchecked hfound _ rfl, rfl⟩)
  | none =>
    obtain ⟨_, -, h⟩ := bind_ok h
    split at h
    · next loaded hloaded =>
      obtain ⟨rfl, rfl⟩ := Prod.mk.inj (Except.ok.inj h)
      cases hindex : store.index with
      | none => simp [hindex, loadPersistedThread] at hloaded
      | some index =>
        rw [hindex] at hloaded
        exact .inr (.inl ⟨index, rfl, hloaded, rfl⟩)
    · obtain ⟨⟨read, disk⟩, hread, h⟩ := bind_ok h
      obtain ⟨rfl, rfl⟩ := Prod.mk.inj (Except.ok.inj h)
      exact .inr (.inr ⟨disk, hread, rfl⟩)

end lookup

end Prelay.Rollout
