import Mathlib.Data.FinEnum
import Mathlib.Data.Option.Basic
import Prelay.ThreadState

namespace Prelay.Rollout

def threadIndexVersion : ℕ := 3

structure PersistedStamp where
  len : ℕ
  modifiedNanos : Option ℕ
  deriving DecidableEq

def systemTimeNanos (time : ℕ) : Option ℕ := if time < 2 ^ 64 then some time else none

namespace PersistedStamp

def fromFileStamp (stamp : FileStamp) : PersistedStamp := ⟨stamp.len, stamp.modified.bind systemTimeNanos⟩

def intoFileStamp (stamp : PersistedStamp) : FileStamp := ⟨stamp.len, stamp.modifiedNanos⟩

end PersistedStamp

/-- The index file of a thread; its maps are lists of their members. -/
structure PersistedThreadIndex where
  version : ℕ
  threadPath : String
  relativePath : String
  format : ConversationFormat
  sourceStamp : PersistedStamp
  baseStamp : Option PersistedStamp
  lineCount : ℕ
  seq : ℕ
  windowId : Option String
  generation : Option ℕ
  contentCount : ℕ
  contentSha256 : String
  contentEventCount : ℕ
  eventRefs : List (String × List ℕ)
  itemRefs : List (String × ℕ)
  deriving DecidableEq

def hexDigit (c : Char) : Option ℕ :=
  if '0' ≤ c ∧ c ≤ '9' then some (c.toNat - '0'.toNat)
  else if 'a' ≤ c ∧ c ≤ 'f' then some (c.toNat - 'a'.toNat + 10)
  else if 'A' ≤ c ∧ c ≤ 'F' then some (c.toNat - 'A'.toNat + 10)
  else none

/-- A byte written in base 16; a plus sign may stand before the digits. -/
def hexByte (a b : Char) : Option UInt8 :=
  if a = '+' then (hexDigit b).map UInt8.ofNat
  else do
    let high ← hexDigit a
    let low ← hexDigit b
    some (UInt8.ofNat (16 * high + low))

def decodeBytes : List Char → Option Bytes
  | [] => some []
  | [_] => none
  | a :: b :: cs => do some ((← hexByte a b) :: (← decodeBytes cs))

def decodeDigest (value : String) : Option Bytes :=
  if (Str.utf8 value).length = 64 then decodeBytes value.toList else none

def decodeEventRefs (seq : ℕ) : List (String × List ℕ) → Option (List (Bytes × List ℕ))
  | [] => some []
  | (identity, refs) :: rest => do
    let identity ← decodeDigest identity
    guard (refs ≠ [] ∧ ∀ ref ∈ refs, ref ≠ 0 ∧ ref ≤ seq)
    let rest ← decodeEventRefs seq rest
    some ((identity, refs) :: rest)

def windowOf : Option String → Option ℕ → Option (Option WindowState)
  | windowId, some generation => some (some ⟨windowId, generation⟩)
  | none, none => some none
  | some _, none => none

def metadataStamp (disk : Disk) (path : String) : Option FileStamp := (disk path).map FileStamp.fromMetadata

def hasCompleteTail (file : File) : Bool := file.bytes = [] || file.bytes.getLast? = some 10

def writeThreadIndex (disk : Disk) (threadPath sourcePath : String) (state : ThreadState) :
    Option PersistedThreadIndex := do
  guard (!state.isEmpty)
  let source ← disk sourcePath
  let stamp := FileStamp.fromMetadata source
  guard (stamp = state.stamp ∧ hasCompleteTail source ∧ (stamp.modified.bind systemTimeNanos).isSome)
  let baseStamp := if sourcePath = threadPath then some stamp else metadataStamp disk threadPath
  some {
    version := threadIndexVersion
    threadPath := threadPath
    relativePath := state.relativePath
    format := state.format
    sourceStamp := .fromFileStamp stamp
    baseStamp := baseStamp.map PersistedStamp.fromFileStamp
    lineCount := state.lineCount
    seq := state.seq
    windowId := state.window.bind WindowState.windowId
    generation := state.window.map WindowState.generation
    contentCount := state.content.count
    contentSha256 := hexDigest state.content.digest
    contentEventCount := state.contentEventCount
    eventRefs := state.eventRefs.toList.map (fun p => (hexDigest p.1, p.2))
    itemRefs := state.itemRefs.toList }

def loadPersistedThread (disk : Disk) (index : Option PersistedThreadIndex) (identityId threadId : String) :
    Option ThreadState := do
  let index ← index
  let base := threadRelative identityId threadId
  guard (index.version = threadIndexVersion ∧ index.threadPath = base)
  guard (index.relativePath ∈ threadCandidatePaths identityId threadId)
  let source ← metadataStamp disk index.relativePath
  guard (source = index.sourceStamp.intoFileStamp)
  guard (metadataStamp disk base = index.baseStamp.map PersistedStamp.intoFileStamp)
  let digest ← decodeDigest index.contentSha256
  let eventRefs ← decodeEventRefs index.seq index.eventRefs
  guard (∀ p ∈ index.itemRefs, p.2 ≠ 0 ∧ p.2 ≤ index.seq)
  let window ← windowOf index.windowId index.generation
  some {
    relativePath := index.relativePath
    format := index.format
    stamp := source
    lineCount := index.lineCount
    seq := index.seq
    window := window
    content := ⟨index.contentCount, digest⟩
    eventRefs := .ofList eventRefs
    itemRefs := .ofList index.itemRefs
    contentEventCount := index.contentEventCount }

theorem hexByte_hexChar (b : UInt8) :
    hexByte (Json.Text.hexChar (b.toNat / 16)) (Json.Text.hexChar (b.toNat % 16)) = some b := by
  revert b
  decide +kernel

theorem decodeBytes_hexDigest (digest : Bytes) : decodeBytes (hexDigest digest).toList = some digest := by
  induction digest with
  | nil => rfl
  | cons b digest ih =>
    have hcons : (hexDigest (b :: digest)).toList =
        Json.Text.hexChar (b.toNat / 16) :: Json.Text.hexChar (b.toNat % 16) :: (hexDigest digest).toList := by
      simp [hexDigest]
    rw [hcons, decodeBytes, hexByte_hexChar, ih]
    rfl

theorem decodeDigest_hexDigest {digest decoded : Bytes} (h : decodeDigest (hexDigest digest) = some decoded) :
    decoded = digest := by
  unfold decodeDigest at h
  split_ifs at h
  rw [decodeBytes_hexDigest] at h
  exact (Option.some.inj h).symm

theorem decodeEventRefs_written (seq : ℕ) (refs : List (Bytes × List ℕ)) (decoded : List (Bytes × List ℕ))
    (h : decodeEventRefs seq (refs.map (fun p => (hexDigest p.1, p.2))) = some decoded) : decoded = refs := by
  induction refs generalizing decoded with
  | nil => exact (Option.some.inj h).symm
  | cons p refs ih =>
    simp only [List.map_cons, decodeEventRefs, Option.bind_eq_bind, Option.bind_eq_some_iff] at h
    obtain ⟨identity, hidentity, -, -, rest, hrest, h⟩ := h
    obtain rfl := Option.some.inj h
    rw [decodeDigest_hexDigest hidentity, ih rest hrest]

theorem ofList_perm {κ ν : Type} [Ord κ] [Std.TransOrd κ] [Std.LawfulEqOrd κ] [DecidableEq κ]
    {m : Std.ExtTreeMap κ ν} {entries : List (κ × ν)} (h : entries.Perm m.toList) :
    Std.ExtTreeMap.ofList entries compare = m := by
  have hdistinct : entries.Pairwise (fun a b => ¬compare a.1 b.1 = .eq) :=
    (h.pairwise_iff (fun hab hba => hab (Std.OrientedCmp.eq_symm hba))).mpr Std.ExtTreeMap.distinct_keys_toList
  apply Std.ExtTreeMap.ext_getElem?
  intro k
  cases hk : m[k]? with
  | some v =>
    apply Std.ExtTreeMap.getElem?_ofList_of_mem Std.ReflCmp.compare_self hdistinct
    exact h.mem_iff.mpr (Std.ExtTreeMap.mem_toList_iff_getElem?_eq_some.mpr hk)
  | none =>
    apply Std.ExtTreeMap.getElem?_ofList_of_contains_eq_false
    rw [List.contains_eq_mem, decide_eq_false_iff_not]
    intro hmem
    obtain ⟨p, hp, rfl⟩ := List.mem_map.mp hmem
    rw [Std.ExtTreeMap.mem_toList_iff_getElem?_eq_some.mp (h.mem_iff.mp hp)] at hk
    exact nomatch hk

theorem ofList_toList {κ ν : Type} [Ord κ] [Std.TransOrd κ] [Std.LawfulEqOrd κ] [DecidableEq κ]
    (m : Std.ExtTreeMap κ ν) : Std.ExtTreeMap.ofList m.toList compare = m := ofList_perm (List.Perm.refl _)

theorem windowOf_written {window : Option WindowState} {found : Option WindowState}
    (h : windowOf (window.bind WindowState.windowId) (window.map WindowState.generation) = some found) :
    found = window := by
  cases window with
  | none => exact (Option.some.inj h).symm
  | some window => exact (Option.some.inj h).symm

theorem intoFileStamp_fromFileStamp {stamp : FileStamp}
    (h : (stamp.modified.bind systemTimeNanos).isSome = true) :
    (PersistedStamp.fromFileStamp stamp).intoFileStamp = stamp := by
  obtain ⟨len, modified⟩ := stamp
  cases modified with
  | none => exact nomatch h
  | some time =>
    rw [Option.bind_some] at h
    have hnanos : systemTimeNanos time = some time := by
      unfold systemTimeNanos at h ⊢
      split_ifs at h ⊢
      · rfl
      · exact nomatch h
    simp [PersistedStamp.fromFileStamp, PersistedStamp.intoFileStamp, hnanos]

structure IndexOf (state : ThreadState) (index : PersistedThreadIndex) : Prop where
  path : index.relativePath = state.relativePath
  format : index.format = state.format
  stamp : index.sourceStamp.intoFileStamp = state.stamp
  lineCount : index.lineCount = state.lineCount
  seq : index.seq = state.seq
  windowId : index.windowId = state.window.bind WindowState.windowId
  generation : index.generation = state.window.map WindowState.generation
  contentCount : index.contentCount = state.content.count
  contentSha256 : index.contentSha256 = hexDigest state.content.digest
  contentEventCount : index.contentEventCount = state.contentEventCount
  eventRefs : index.eventRefs = state.eventRefs.toList.map (fun p => (hexDigest p.1, p.2))
  itemRefs : index.itemRefs = state.itemRefs.toList

theorem writeThreadIndex_indexOf {disk : Disk} {threadPath sourcePath : String} {state : ThreadState}
    {index : PersistedThreadIndex} (h : writeThreadIndex disk threadPath sourcePath state = some index) :
    IndexOf state index := by
  simp only [writeThreadIndex, Option.bind_eq_bind, Option.bind_eq_some_iff, Option.guard_eq_some'] at h
  obtain ⟨-, -, source, -, -, ⟨hstamp, -, hnanos⟩, h⟩ := h
  obtain rfl := Option.some.inj h
  refine ⟨rfl, rfl, ?_, rfl, rfl, rfl, rfl, rfl, rfl, rfl, rfl, rfl⟩
  rw [← hstamp]
  exact intoFileStamp_fromFileStamp hnanos

theorem writeThreadIndex_baseStamp {disk : Disk} {threadPath sourcePath : String} {state : ThreadState}
    {index : PersistedThreadIndex} (h : writeThreadIndex disk threadPath sourcePath state = some index) :
    index.baseStamp = (metadataStamp disk threadPath).map PersistedStamp.fromFileStamp := by
  simp only [writeThreadIndex, Option.bind_eq_bind, Option.bind_eq_some_iff, Option.guard_eq_some'] at h
  obtain ⟨-, -, source, hsource, -, -, h⟩ := h
  obtain rfl := Option.some.inj h
  dsimp only
  split_ifs with hpath
  · rw [← hpath, metadataStamp, hsource]
    rfl
  · rfl

theorem loadPersistedThread_indexOf {disk : Disk} {identityId threadId : String} {state loaded : ThreadState}
    {index : PersistedThreadIndex} (hindex : IndexOf state index)
    (h : loadPersistedThread disk (some index) identityId threadId = some loaded) :
    loaded = state ∧ metadataStamp disk state.relativePath = some state.stamp := by
  simp only [loadPersistedThread, Option.bind_eq_bind, Option.bind_eq_some_iff, Option.guard_eq_some',
    Option.some.injEq] at h
  obtain ⟨_, rfl, -, -, -, -, source, hsource, -, hstamp, -, -, digest, hdigest, eventRefs, heventRefs, -, -, window,
    hwindow, rfl⟩ := h
  rw [hindex.contentSha256] at hdigest
  rw [hindex.eventRefs] at heventRefs
  rw [hindex.windowId, hindex.generation] at hwindow
  rw [hindex.stamp] at hstamp
  rw [hindex.path] at hsource
  have hrefs := decodeEventRefs_written _ _ _ heventRefs
  refine ⟨?_, by rw [hsource, hstamp]⟩
  obtain ⟨path, format, stamp, lineCount, seq, win, ⟨count, hash⟩, refs, items, contentEvents⟩ := state
  simp only [ThreadState.mk.injEq, ContentHash.mk.injEq]
  refine ⟨hindex.path, hindex.format, hstamp, hindex.lineCount, hindex.seq, windowOf_written hwindow,
    ⟨hindex.contentCount, decodeDigest_hexDigest hdigest⟩, ?_, ?_, hindex.contentEventCount⟩
  · rw [hrefs]
    exact ofList_toList refs
  · rw [hindex.itemRefs]
    exact ofList_toList items

end Prelay.Rollout
