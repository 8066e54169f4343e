import Prelay.FileEdits

namespace Prelay.Rollout

open Json

section agreement

variable (env : Env) (identityId threadId : String)

/-- A lookup selects what reading the files selects. -/
def Agrees (store : Store) : Prop :=
  ∀ state store', resolveThreadSource env store identityId threadId = .ok (state, store') →
    ∃ read disk, loadThreadSource env store.disk identityId threadId = .ok (read, disk) ∧
      state.relativePath = read.relativePath ∧ state.lineCount = read.lineCount ∧ state.seq = read.seq

def IndexCurrent (disk : Disk) (index : PersistedThreadIndex) : Prop :=
  metadataStamp disk index.relativePath = some index.sourceStamp.intoFileStamp ∧
    metadataStamp disk (threadRelative identityId threadId) = index.baseStamp.map PersistedStamp.intoFileStamp

end agreement

section coherent

variable (env : Env) (identityId threadId : String) (contents : String → FileStamp → Bytes)

structure Remembered (state : ThreadState) : Prop where
  path : state.relativePath ∈ threadCandidatePaths identityId threadId
  reads : state.stamp.modified = none ∨
    Reads env (contents state.relativePath state.stamp) state.lineCount state.seq

def BaseSkipped (index : PersistedThreadIndex) : Prop :=
  index.relativePath = threadRelative identityId threadId ∨ index.baseStamp = none ∨
    ∃ stamp, index.baseStamp = some (.fromFileStamp stamp) ∧
      ∀ modified, readThreadEvents env (some ⟨contents (threadRelative identityId threadId) stamp, modified⟩) =
        .error .serialize

structure StoreCoherent (store : Store) : Prop where
  files : ∀ path file, store.disk path = some file →
    file.bytes = contents path (FileStamp.fromMetadata file) ∧ file.modified ≠ none
  cache : ∀ state, store.cache = some state → Remembered env identityId threadId contents state ∧
    (metadataStamp store.disk state.relativePath = some state.stamp →
      PassedBefore env identityId threadId store.disk state.relativePath)
  index : ∀ index, store.index = some index →
    (∃ state, IndexOf state index ∧ Remembered env identityId threadId contents state) ∧
    BaseSkipped env identityId threadId contents index ∧
    (IndexCurrent identityId threadId store.disk index →
      PassedBefore env identityId threadId store.disk index.relativePath)

structure Writing (disk : Disk) (w : RolloutWriter) : Prop where
  passed : PassedBefore env identityId threadId disk w.relativePath
  lines : ∃ state added before, state.relativePath ∈ threadCandidatePaths identityId threadId ∧
    Adds env threadId (threadRelative identityId threadId) state added (turnTexts env threadId state added) w ∧
    Reads env before state.lineCount state.seq ∧ fileBytes disk w.relativePath = before ++ w.hashed

end coherent

section lookup

variable {env : Env} {identityId threadId : String} {contents : String → FileStamp → Bytes} {store store' : Store}
  {state : ThreadState}

theorem metadataStamp_some {disk : Disk} {path : String} {stamp : FileStamp}
    (h : metadataStamp disk path = some stamp) : ∃ file, disk path = some file ∧ FileStamp.fromMetadata file = stamp :=
  Option.map_eq_some_iff.mp h

theorem StoreCoherent.current (h : StoreCoherent env identityId threadId contents store)
    (hstate : Remembered env identityId threadId contents state)
    (hstamp : metadataStamp store.disk state.relativePath = some state.stamp) :
    ∃ file, store.disk state.relativePath = some file ∧ Reads env file.bytes state.lineCount state.seq := by
  obtain ⟨file, hfile, hmetadata⟩ := metadataStamp_some hstamp
  obtain ⟨hbytes, htime⟩ := h.files _ file hfile
  refine ⟨file, hfile, ?_⟩
  rw [hbytes, hmetadata]
  apply hstate.reads.resolve_left
  rw [← hmetadata]
  exact htime

theorem loadPersistedThread_current {disk : Disk} {index : PersistedThreadIndex}
    (h : loadPersistedThread disk (some index) identityId threadId = some state) :
    IndexCurrent identityId threadId disk index := by
  simp only [loadPersistedThread, Option.bind_eq_bind, Option.bind_eq_some_iff, Option.guard_eq_some',
    Option.some.injEq] at h
  obtain ⟨_, rfl, -, -, -, -, source, hsource, -, hstamp, -, hbase, -⟩ := h
  exact ⟨hsource.trans (congrArg some hstamp), hbase⟩

section safe

variable (hid : isSafePathSegment identityId = true) (hthread : isSafePathSegment threadId = true)

include hid hthread

theorem StoreCoherent.checked (h : StoreCoherent env identityId threadId contents store) :
    ∀ state, store.cache = some state → checkedAbsolutePath state.relativePath = .ok state.relativePath :=
  fun state hstate => checked_candidate hid hthread (h.cache state hstate).1.path

theorem StoreCoherent.selected (h : StoreCoherent env identityId threadId contents store)
    (hstate : Remembered env identityId threadId contents state)
    (hstamp : metadataStamp store.disk state.relativePath = some state.stamp)
    (hpassed : PassedBefore env identityId threadId store.disk state.relativePath) :
    ∃ read disk, loadThreadSource env store.disk identityId threadId = .ok (read, disk) ∧
      state.relativePath = read.relativePath ∧ state.lineCount = read.lineCount ∧ state.seq = read.seq := by
  obtain ⟨file, hfile, hreads⟩ := h.current hstate hstamp
  obtain ⟨parsed, hread, hline, hseq⟩ := hreads.read
  rw [← hfile] at hread
  refine ⟨_, _, loadThreadSource_of_passed hid hthread hstate.path hpassed hread, ?_, hline.symm, hseq.symm⟩
  exact (candidateState_path env state.relativePath parsed _).symm

theorem StoreCoherent.agrees (h : StoreCoherent env identityId threadId contents store) :
    Agrees env identityId threadId store := by
  intro state store' hresolve
  rcases resolveThreadSource_ok (h.checked hid hthread) hresolve with
    ⟨hcache, hstamp, -⟩ | ⟨index, hindex, hload, -⟩ | ⟨disk, hread, -⟩
  · obtain ⟨hstate, hpassed⟩ := h.cache state hcache
    exact h.selected hid hthread hstate hstamp (hpassed hstamp)
  · obtain ⟨⟨written, hwritten, hstate⟩, -, hpassed⟩ := h.index index hindex
    obtain ⟨rfl, hstamp⟩ := loadPersistedThread_indexOf hwritten hload
    apply h.selected hid hthread hstate hstamp
    rw [← hwritten.path]
    exact hpassed (loadPersistedThread_current hload)
  · exact ⟨state, disk, hread, rfl, rfl, rfl⟩

end safe

end lookup

section write

variable {env : Env} {identityId threadId path : String} {contents : String → FileStamp → Bytes} {store : Store}
  {disk : Disk} {file : File}

theorem corrupt_update {q : String} (h : q ≠ path) (file : Option File) :
    Corrupt env (Function.update disk path file) q ↔ Corrupt env disk q := by
  rw [Corrupt, Corrupt, Function.update_of_ne h]

theorem ne_of_mem_takeWhile {q : String} (h : q ∈ (recoveredPaths identityId threadId).takeWhile (fun q => q ≠ path)) :
    q ≠ path := by
  have hne := List.mem_takeWhile_imp h
  exact of_decide_eq_true hne

theorem PassedBefore.write (h : PassedBefore env identityId threadId disk path) (file : Option File) :
    PassedBefore env identityId threadId (Function.update disk path file) path := by
  by_cases hpath : path = threadRelative identityId threadId
  · exact .inl hpath
  · obtain ⟨hbase, hcorrupt⟩ := h.resolve_left hpath
    refine .inr ⟨?_, fun q hq => ?_⟩
    · rw [Function.update_of_ne (Ne.symm hpath), corrupt_update (Ne.symm hpath)]
      exact hbase
    · rw [corrupt_update (ne_of_mem_takeWhile hq)]
      exact hcorrupt q hq

theorem PassedBefore.write_other {q : String} (h : PassedBefore env identityId threadId disk q)
    (hpath : path ≠ threadRelative identityId threadId) (hcorrupt : ¬Corrupt env disk path) (file : Option File) :
    PassedBefore env identityId threadId (Function.update disk path file) q := by
  rcases h with hq | ⟨hbase, hbefore⟩
  · exact .inl hq
  · refine .inr ⟨?_, fun q' hq' => ?_⟩
    · rw [Function.update_of_ne (Ne.symm hpath), corrupt_update (Ne.symm hpath)]
      exact hbase
    · have hne : q' ≠ path := by
        rintro rfl
        exact hcorrupt (hbefore q' hq')
      rw [corrupt_update hne]
      exact hbefore q' hq'

theorem corrupt_bytes (h : readThreadEvents env (some file) = .error .serialize) (modified : Option ℕ) :
    readThreadEvents env (some ⟨file.bytes, modified⟩) = .error .serialize := by
  obtain ⟨bytes, time⟩ := file
  simp only [readThreadEvents, readToString, bind, Except.bind] at h ⊢
  cases hutf8 : Str.fromUtf8 bytes with
  | none =>
    rw [hutf8] at h
    cases h
  | some text =>
    rw [hutf8] at h
    dsimp only at h ⊢
    split_ifs at h ⊢
    · cases hparsed : parseConversationContents env.serde text with
      | error error =>
        rw [hparsed] at h
        exact h
      | ok parsed =>
        rw [hparsed] at h
        cases h
    · cases hparsed : parseConversationContents env.serde (completeLines text) with
      | error error =>
        rw [hparsed] at h
        exact h
      | ok parsed =>
        rw [hparsed] at h
        cases h

theorem metadataStamp_update {q : String} (h : q ≠ path) (file : Option File) :
    metadataStamp (Function.update disk path file) q = metadataStamp disk q := by
  rw [metadataStamp, metadataStamp, Function.update_of_ne h]

theorem fromFileStamp_current {stamp stamp' : FileStamp}
    (h : (PersistedStamp.fromFileStamp stamp).intoFileStamp = stamp') (htime : stamp'.modified ≠ none) :
    stamp = stamp' := by
  subst h
  obtain ⟨len, modified⟩ := stamp
  cases modified with
  | none => exact absurd rfl htime
  | some time =>
    rw [intoFileStamp_fromFileStamp]
    exact Option.isSome_iff_ne_none.mpr htime

theorem index_write {index : PersistedThreadIndex} (hcorrupt : ¬Corrupt env disk path) {lineCount seq : ℕ}
    (hreads : Reads env file.bytes lineCount seq)
    (hfile : file.bytes = contents path (FileStamp.fromMetadata file) ∧ file.modified ≠ none)
    (hpassed : PassedBefore env identityId threadId disk path)
    (hbase : BaseSkipped env identityId threadId contents index)
    (hindex : IndexCurrent identityId threadId disk index →
      PassedBefore env identityId threadId disk index.relativePath)
    (hcurrent : IndexCurrent identityId threadId (Function.update disk path (some file)) index) :
    PassedBefore env identityId threadId (Function.update disk path (some file)) index.relativePath := by
  obtain ⟨hsource, hstamp⟩ := hcurrent
  by_cases hsame : index.relativePath = path
  · rw [hsame]
    exact hpassed.write (some file)
  by_cases hpath : path = threadRelative identityId threadId
  · -- the index has recorded a base file that was passed over, and this one is read
    subst hpath
    rcases hbase with hbase | hnone | ⟨stamp, hrecorded, hskipped⟩
    · exact absurd hbase hsame
    · rw [hnone, metadataStamp, Function.update_self] at hstamp
      cases hstamp
    · rw [hrecorded, metadataStamp, Function.update_self] at hstamp
      have heq := fromFileStamp_current (Option.some.inj hstamp).symm hfile.2
      have hbroken := hskipped none
      rw [heq, ← hfile.1] at hbroken
      exact absurd hbroken (hreads.not_corrupt none)
  · rw [metadataStamp_update hsame] at hsource
    rw [metadataStamp_update (Ne.symm hpath)] at hstamp
    exact (hindex ⟨hsource, hstamp⟩).write_other hpath hcorrupt (some file)

theorem StoreCoherent.write (h : StoreCoherent env identityId threadId contents store)
    (hcache : ∀ state, store.cache = some state → state.relativePath = path) (hcorrupt : ¬Corrupt env store.disk path)
    {lineCount seq : ℕ} (hreads : Reads env file.bytes lineCount seq)
    (hfile : file.bytes = contents path (FileStamp.fromMetadata file) ∧ file.modified ≠ none)
    (hpassed : PassedBefore env identityId threadId store.disk path) :
    StoreCoherent env identityId threadId contents
      { store with disk := Function.update store.disk path (some file) } where
  files := by
    intro q file' hfile'
    dsimp only at hfile'
    by_cases hq : q = path
    · subst hq
      rw [Function.update_self] at hfile'
      obtain rfl := Option.some.inj hfile'
      exact hfile
    · rw [Function.update_of_ne hq] at hfile'
      exact h.files q file' hfile'
  cache := by
    intro state hstate
    refine ⟨(h.cache state hstate).1, fun _ => ?_⟩
    rw [hcache state hstate]
    exact hpassed.write (some file)
  index := by
    intro index hindex
    obtain ⟨hstate, hbase, hcurrent⟩ := h.index index hindex
    exact ⟨hstate, hbase, index_write hcorrupt hreads hfile hpassed hbase hcurrent⟩

theorem StoreCoherent.persist (h : StoreCoherent env identityId threadId contents store) {state : ThreadState}
    (hstate : Remembered env identityId threadId contents state)
    (hpassed : PassedBefore env identityId threadId store.disk state.relativePath) :
    StoreCoherent env identityId threadId contents
      (persistThreadIndex { store with cache := some state } (threadRelative identityId threadId) state) where
  files := h.files
  cache := by
    intro cached hcached
    obtain rfl := Option.some.inj hcached
    exact ⟨hstate, fun _ => hpassed⟩
  index := by
    intro index hindex
    rcases Option.or_eq_some_iff.mp hindex with hwritten | ⟨-, hkept⟩
    · have hindexOf := writeThreadIndex_indexOf hwritten
      refine ⟨⟨state, hindexOf, hstate⟩, ?_, fun _ => ?_⟩
      · rw [BaseSkipped, hindexOf.path, writeThreadIndex_baseStamp hwritten]
        rcases hpassed with hpath | ⟨hmissing | hbroken, -⟩
        · exact .inl hpath
        · right
          left
          simp only [metadataStamp, hmissing, Option.map_none]
        · right
          right
          cases hfile : store.disk (threadRelative identityId threadId) with
          | none =>
            rw [Corrupt, hfile] at hbroken
            cases hbroken
          | some file =>
            rw [Corrupt, hfile] at hbroken
            refine ⟨FileStamp.fromMetadata file, ?_, fun modified => ?_⟩
            · simp only [metadataStamp, hfile, Option.map_some]
            · rw [← (h.files _ file hfile).1]
              exact corrupt_bytes hbroken modified
      · rw [hindexOf.path]
        exact hpassed
    · exact h.index index hkept

end write

section steps

variable {env : Env} {identityId threadId path : String} {contents : String → FileStamp → Bytes} {store store' : Store}
  {disk : Disk} {state : ThreadState} {w : RolloutWriter}

theorem StoreCoherent.forget (h : StoreCoherent env identityId threadId contents store) :
    StoreCoherent env identityId threadId contents { store with cache := none } :=
  ⟨h.files, nofun, h.index⟩

theorem StoreCoherent.resolve (hid : isSafePathSegment identityId = true) (hthread : isSafePathSegment threadId = true)
    (h : StoreCoherent env identityId threadId contents store)
    (hresolve : resolveThreadSource env store identityId threadId = .ok (state, store'))
    (hfiled : Filed contents store'.disk) :
    StoreCoherent env identityId threadId contents store' ∧ store'.cache = some state ∧
      Remembered env identityId threadId contents state ∧
      PassedBefore env identityId threadId store'.disk state.relativePath ∧
      Reads env (fileBytes store'.disk state.relativePath) state.lineCount state.seq := by
  have hcurrent : ∀ state, Remembered env identityId threadId contents state →
      metadataStamp store.disk state.relativePath = some state.stamp →
      Reads env (fileBytes store.disk state.relativePath) state.lineCount state.seq := by
    intro state hstate hstamp
    obtain ⟨file, hfile, hreads⟩ := h.current hstate hstamp
    rw [fileBytes, hfile]
    exact hreads
  rcases resolveThreadSource_ok (h.checked hid hthread) hresolve with
    ⟨hcache, hstamp, rfl⟩ | ⟨index, hindex, hload, rfl⟩ | ⟨disk, hread, rfl⟩
  · obtain ⟨hstate, hpassed⟩ := h.cache state hcache
    exact ⟨h, hcache, hstate, hpassed hstamp, hcurrent state hstate hstamp⟩
  · obtain ⟨⟨written, hwritten, hstate⟩, -, hpassed⟩ := h.index index hindex
    obtain ⟨rfl, hstamp⟩ := loadPersistedThread_indexOf hwritten hload
    have hbefore : PassedBefore env identityId threadId store.disk state.relativePath := by
      rw [← hwritten.path]
      exact hpassed (loadPersistedThread_current hload)
    refine ⟨⟨h.files, ?_, h.index⟩, rfl, hstate, hbefore, hcurrent state hstate hstamp⟩
    intro cached hcached
    obtain rfl := Option.some.inj hcached
    exact ⟨hstate, fun _ => hbefore⟩
  · obtain ⟨hmem, hpassed, ⟨parsed, file, hparsed, hstate, rfl⟩ | ⟨hmissing, hempty, rfl⟩⟩ :=
      loadThreadSource_chosen hid hthread hread
    · have hcorrupt : ¬Corrupt env store.disk state.relativePath := by
        rw [Corrupt, hparsed]
        rintro ⟨⟩
      have hreads : Reads env file.bytes state.lineCount state.seq := by
        rw [hstate]
        cases hbefore : store.disk state.relativePath with
        | none =>
          rw [hbefore] at hparsed
          cases hparsed
        | some before =>
          rw [hbefore] at hparsed
          exact Reads.of_read hparsed
      have hfile := hfiled state.relativePath file (Function.update_self _ _ _)
      have hremembered : Remembered env identityId threadId contents state := by
        refine ⟨hmem, .inr ?_⟩
        have hstamp : state.stamp = FileStamp.fromMetadata file := by
          rw [hstate]
          rfl
        rw [hstamp, ← hfile.1]
        exact hreads
      have hwritten := h.forget.write (by simp) hcorrupt hreads hfile hpassed
      refine ⟨hwritten.persist hremembered (hpassed.write _), rfl, hremembered, hpassed.write _, ?_⟩
      dsimp only [persistThreadIndex]
      rw [fileBytes_update]
      exact hreads
    · have hremembered : Remembered env identityId threadId contents state := by
        refine ⟨hmem, .inl ?_⟩
        rw [hempty]
        rfl
      refine ⟨h.persist hremembered hpassed, rfl, hremembered, hpassed, ?_⟩
      rw [fileBytes, persistThreadIndex, hmissing, hempty]
      exact Reads.nil env

theorem StoreCoherent.flush {added : Log} {written : List String} {before : Bytes}
    (h : StoreCoherent env identityId threadId contents store) (hserde : env.serde.Lawful) (hthread : threadId ≠ "")
    (hcache : ∀ state, store.cache = some state → state.relativePath = w.relativePath)
    (hw : Adds env threadId (threadRelative identityId threadId) state added written w)
    (hmem : state.relativePath ∈ threadCandidatePaths identityId threadId)
    (hbefore : Reads env before state.lineCount state.seq)
    (hbytes : fileBytes store.disk w.relativePath = before ++ textBytes written)
    (hcorrupt : ¬Corrupt env store.disk w.relativePath)
    (hpassed : PassedBefore env identityId threadId store.disk w.relativePath)
    (hfiled : Filed contents (flushWriter env w store).2.disk) :
    StoreCoherent env identityId threadId contents (flushWriter env w store).2 ∧
      Writing env identityId threadId (flushWriter env w store).2.disk (flushWriter env w store).1 := by
  have hadds := hw.flushed store
  rcases flush_eq hw hbytes with ⟨hsame, hwritten⟩ | ⟨n, hflushed⟩
  · rw [hsame]
    exact ⟨h, hpassed, state, added, before, hmem, hadds, hbefore, hwritten⟩
  · have hreads := hbefore.appended hserde hthread hw
    rw [hflushed] at hfiled ⊢
    refine ⟨h.write hcache hcorrupt hreads (hfiled _ _ (Function.update_self _ _ _)) hpassed, hpassed.write _, state,
      added, before, hmem, hadds, hbefore, ?_⟩
    exact fileBytes_update _ _ _

theorem StoreCoherent.publish (h : StoreCoherent env identityId threadId contents store) (hserde : env.serde.Lawful)
    (hthread : threadId ≠ "") (hwriting : Writing env identityId threadId store.disk w) :
    StoreCoherent env identityId threadId contents (publishState w store) := by
  obtain ⟨hpassed, state, added, before, hmem, hadds, hbefore, hbytes⟩ := hwriting
  unfold publishState
  split
  · exact h
  · next stamp hstamp =>
    split_ifs with hlen
    · exact h
    · obtain ⟨file, hfile, hmetadata⟩ := metadataStamp_some hstamp
      have hreads := hbefore.appended hserde hthread hadds
      rw [← hbytes, fileBytes, hfile] at hreads
      rw [hadds.threadPath]
      apply h.persist _ hpassed
      refine ⟨?_, .inr ?_⟩
      · change w.relativePath ∈ threadCandidatePaths identityId threadId
        rw [hadds.path]
        exact hmem
      · change Reads env (contents w.relativePath stamp) w.lineCount w.seq
        rw [← hmetadata, ← (h.files _ file hfile).1]
        exact hreads

end steps

end Prelay.Rollout
