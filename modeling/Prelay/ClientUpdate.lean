import Mathlib.Data.Prod.Lex
import Mathlib.Logic.Function.Basic
import Prelay.Str

namespace Prelay.ClientUpdate

structure ClientUpdateTarget where
  platform : String
  architecture : String
  deriving DecidableEq

structure CachedClientUpdate where
  version : String
  fileName : String
  deriving DecidableEq

def isPathCharacter (c : Char) : Bool := c.isAlphanum || c = '-' || c = '_'

def isSafePathComponent (value : String) : Bool := value ≠ "" && value.toList.all isPathCharacter

-- Of the texts without a separator, `Path::file_name` gives back all but these three.
def isSafeFileName (value : String) : Bool :=
  value ≠ "" && value ≠ "." && value ≠ ".." && value.toList.all (fun c => isPathCharacter c || c = '.')

def setupSuffix : List Char := ['-', 's', 'e', 't', 'u', 'p', '.', 'e', 'x', 'e']

def isWindowsNsisAsset (name : String) : Bool :=
  isSafeFileName name && setupSuffix.isSuffixOf (name.toList.map Char.toLower)

def afterLast (separator : Char) (cs : List Char) : Option (List Char) :=
  if separator ∈ cs then some (cs.reverse.takeWhile (· ≠ separator)).reverse else none

def windowsNsisTarget (name : String) : Option ClientUpdateTarget :=
  if !isWindowsNsisAsset name then none
  else if !setupSuffix.isSuffixOf name.toList then none
  else (afterLast '_' (name.toList.take (name.toList.length - setupSuffix.length))).bind (fun architecture =>
    if isSafePathComponent (String.ofList architecture) then some ⟨"windows", String.ofList architecture⟩ else none)

def parseU64 (cs : List Char) : Option ℕ :=
  let digits := if cs.head? = some '+' then cs.tail else cs
  if digits = [] ∨ digits.any (fun c => !c.isDigit) then none
  else if Nat.ofDigitChars 10 digits 0 < 2 ^ 64 then some (Nat.ofDigitChars 10 digits 0) else none

def parseVersion (value : String) : Option (ℕ ×ₗ ℕ ×ₗ ℕ) :=
  match value.toList.splitOn '.' with
  | [major, minor, patch] => do
    let major ← parseU64 major
    let minor ← parseU64 minor
    let patch ← parseU64 patch
    some (toLex (major, toLex (minor, patch)))
  | _ => none

def isNewerVersion (candidate current : String) : Bool :=
  match parseVersion candidate, parseVersion current with
  | some candidate, some current => current < candidate
  | _, _ => false

def selectNewerUpdate : Option CachedClientUpdate → Option CachedClientUpdate → Option CachedClientUpdate
  | some first, some second => if isNewerVersion second.version first.version then some second else some first
  | some first, none => some first
  | none, second => second

inductive FileType where
  | file
  | dir
  | symlink
  deriving DecidableEq

structure DirEntry where
  fileName : String
  fileType : FileType

def findInstaller : Option String → List DirEntry → Option String
  | fileName, [] => fileName
  | fileName, entry :: entries =>
    if entry.fileType ≠ .file then findInstaller fileName entries
    else if !isSafeFileName entry.fileName then findInstaller fileName entries
    else if fileName.isSome then none
    else findInstaller (some entry.fileName) entries

def findInstallerInVersionDirectory (version : String) (entries : List DirEntry) : Option CachedClientUpdate :=
  (findInstaller none entries).map (fun fileName => ⟨version, fileName⟩)

/-- The loop over the entries of a target's directory; with each directory comes what is read in it. -/
def findLatest : Option CachedClientUpdate → List (DirEntry × List DirEntry) → Option CachedClientUpdate
  | latest, [] => latest
  | latest, (entry, contents) :: entries =>
    if entry.fileType ≠ .dir then findLatest latest entries
    else if (parseVersion entry.fileName).isNone then findLatest latest entries
    else match findInstallerInVersionDirectory entry.fileName contents with
      | none => findLatest latest entries
      | some update => findLatest (selectNewerUpdate latest (some update)) entries

def isSafeTarget (target : ClientUpdateTarget) : Bool :=
  isSafePathComponent target.platform && isSafePathComponent target.architecture

def findInstallerInCacheDirectory (target : ClientUpdateTarget) (entries : List (DirEntry × List DirEntry)) :
    Option CachedClientUpdate :=
  if isSafeTarget target then findLatest none entries else none

section names

def temporaryName (fileName uuid : String) : String := "." ++ fileName ++ "." ++ uuid ++ ".tmp"

def isUuidCharacter (c : Char) : Bool := c.isDigit || ('a' ≤ c && c ≤ 'f') || c = '-'

def isUuid (uuid : String) : Bool := uuid.toList.all isUuidCharacter

def isTemporary (name : String) : Bool := name.toList.head? = some '.' && ['.', 't', 'm', 'p'].isSuffixOf name.toList

theorem temporaryName_toList (fileName uuid : String) :
    (temporaryName fileName uuid).toList = '.' :: (fileName.toList ++ '.' :: (uuid.toList ++ ['.', 't', 'm', 'p'])) := by
  simp [temporaryName]

theorem temporaryName_isTemporary (fileName uuid : String) : isTemporary (temporaryName fileName uuid) = true := by
  have hsuffix : ['.', 't', 'm', 'p'] <:+ (temporaryName fileName uuid).toList := by
    rw [temporaryName_toList]
    exact ⟨'.' :: (fileName.toList ++ '.' :: uuid.toList), by simp⟩
  rw [isTemporary, List.isSuffixOf_iff_suffix.mpr hsuffix, temporaryName_toList]
  rfl

theorem isPathCharacter_of_uuid {c : Char} (h : isUuidCharacter c = true) : isPathCharacter c = true := by
  simp only [isUuidCharacter, Bool.or_eq_true, Bool.and_eq_true, decide_eq_true_eq] at h
  rcases h with (hdigit | ⟨hlow, hhigh⟩) | rfl
  · rw [isPathCharacter]
    delta Char.isAlphanum
    simp [hdigit]
  · have hlower : c.isLower = true := by
      delta Char.isLower
      simp only [ge_iff_le, Bool.and_eq_true, decide_eq_true_eq]
      exact ⟨hlow, hhigh.trans (by decide)⟩
    rw [isPathCharacter]
    delta Char.isAlphanum Char.isAlpha
    simp [hlower]
  · decide

theorem dot_notMem_uuid {uuid : String} (h : isUuid uuid = true) : '.' ∉ uuid.toList := by
  intro hdot
  have hchar := isPathCharacter_of_uuid (List.all_eq_true.mp h '.' hdot)
  exact absurd hchar (by decide)

theorem temporaryName_safe {fileName uuid : String} (hfile : isSafeFileName fileName = true) (huuid : isUuid uuid = true) :
    isSafeFileName (temporaryName fileName uuid) = true := by
  have hlist := temporaryName_toList fileName uuid
  have hlength (value : String) (hvalue : value.toList.length < 6) : temporaryName fileName uuid ≠ value := by
    rintro rfl
    rw [hlist] at hvalue
    simp at hvalue
    omega
  simp only [isSafeFileName, Bool.and_eq_true, decide_eq_true_eq, List.all_eq_true] at hfile ⊢
  refine ⟨⟨⟨hlength _ (by decide), hlength _ (by decide)⟩, hlength _ (by decide)⟩, ?_⟩
  rw [hlist]
  intro c hc
  simp only [List.mem_cons, List.mem_append, List.not_mem_nil, or_false] at hc
  rcases hc with rfl | hc | rfl | hc | rfl | rfl | rfl | rfl
  · decide
  · exact hfile.2 c hc
  · decide
  · rw [isPathCharacter_of_uuid (List.all_eq_true.mp huuid c hc), Bool.true_or]
  all_goals decide

theorem temporaryName_uuid {fileName fileName' uuid uuid' : String} (huuid : isUuid uuid = true)
    (huuid' : isUuid uuid' = true) (h : temporaryName fileName uuid = temporaryName fileName' uuid') : uuid = uuid' := by
  have hlist := congrArg String.toList h
  rw [temporaryName_toList, temporaryName_toList, List.cons.injEq] at hlist
  have hreverse := congrArg List.reverse hlist.2
  simp only [List.reverse_append, List.reverse_cons, List.append_assoc, List.reverse_nil, List.nil_append,
    List.cons_append, List.cons.injEq, true_and] at hreverse
  have htake (cs rest : List Char) (hcs : '.' ∉ cs) : (cs.reverse ++ '.' :: rest).takeWhile (· ≠ '.') = cs.reverse := by
    rw [List.takeWhile_append_of_pos]
    · simp
    · intro c hc
      have hne : c ≠ '.' := fun heq => hcs (heq ▸ List.mem_reverse.mp hc)
      simpa using hne
  have huuids := congrArg (List.takeWhile (· ≠ '.')) hreverse
  rw [htake _ _ (dot_notMem_uuid huuid), htake _ _ (dot_notMem_uuid huuid'), List.reverse_inj] at huuids
  exact String.toList_inj.mp huuids

theorem installer_name {name : String} {target : ClientUpdateTarget} (h : windowsNsisTarget name = some target) :
    isSafeFileName name = true ∧ isTemporary name = false := by
  unfold windowsNsisTarget at h
  split_ifs at h with hasset hsuffix
  simp only [isWindowsNsisAsset, Bool.not_eq_true, Bool.not_eq_false', Bool.and_eq_true] at hasset hsuffix
  refine ⟨hasset.1, ?_⟩
  by_contra htemporary
  simp only [isTemporary, Bool.not_eq_false, Bool.and_eq_true] at htemporary
  obtain ⟨before, hbefore⟩ := List.isSuffixOf_iff_suffix.mp hsuffix
  obtain ⟨before', hbefore'⟩ := List.isSuffixOf_iff_suffix.mp htemporary.2
  have hlast := congrArg List.getLast? (hbefore.trans hbefore'.symm)
  simp [setupSuffix] at hlast

end names

section lookup

def fileEntries (names : List String) : List DirEntry := names.map (fun name => ⟨name, .file⟩)

theorem findInstaller_files {names : List String} (h : ∀ name ∈ names, isSafeFileName name = true) (name : String) :
    findInstaller none (fileEntries names) = some name ↔ names = [name] := by
  cases names with
  | nil => simp [fileEntries, findInstaller]
  | cons first names =>
    rw [List.forall_mem_cons] at h
    cases names with
    | nil => simp [fileEntries, findInstaller, h.1]
    | cons second names =>
      rw [List.forall_mem_cons] at h
      simp [fileEntries, findInstaller, h.1, h.2.1]

theorem selectNewerUpdate_cases {latest : Option CachedClientUpdate} {update selected : CachedClientUpdate}
    (h : selectNewerUpdate latest (some update) = some selected) : latest = some selected ∨ update = selected := by
  cases latest with
  | none => exact .inr (Option.some.inj h)
  | some first =>
    rw [selectNewerUpdate] at h
    split_ifs at h
    · exact .inr (Option.some.inj h)
    · exact .inl h

theorem findLatest_found {latest : Option CachedClientUpdate} {entries : List (DirEntry × List DirEntry)}
    {update : CachedClientUpdate} (h : findLatest latest entries = some update) :
    latest = some update ∨
      ∃ entry ∈ entries, entry.1.fileName = update.version ∧ findInstaller none entry.2 = some update.fileName := by
  induction entries generalizing latest with
  | nil => exact .inl h
  | cons entry entries ih =>
    obtain ⟨entry, contents⟩ := entry
    have hrest {latest : Option CachedClientUpdate} (h : findLatest latest entries = some update) :
        latest = some update ∨ ∃ e ∈ (entry, contents) :: entries, e.1.fileName = update.version ∧
          findInstaller none e.2 = some update.fileName := by
      rcases ih h with hlatest | ⟨e, he, hfound⟩
      · exact .inl hlatest
      · exact .inr ⟨e, List.mem_cons_of_mem _ he, hfound⟩
    rw [findLatest] at h
    split_ifs at h
    · exact hrest h
    · exact hrest h
    · cases hfound : findInstaller none contents with
      | none =>
        simp only [findInstallerInVersionDirectory, hfound, Option.map_none] at h
        exact hrest h
      | some fileName =>
        simp only [findInstallerInVersionDirectory, hfound, Option.map_some] at h
        rcases hrest h with hselected | hexists
        · rcases selectNewerUpdate_cases hselected with hlatest | rfl
          · exact .inl hlatest
          · exact .inr ⟨_, List.mem_cons_self, rfl, hfound⟩
        · exact .inr hexists

theorem findLatest_congr {α : Type} {entries : List α} (version : α → String) {f g : α → List DirEntry}
    (h : ∀ entry ∈ entries, findInstaller none (f entry) = findInstaller none (g entry))
    (latest : Option CachedClientUpdate) :
    findLatest latest (entries.map (fun entry => (⟨version entry, .dir⟩, f entry))) =
      findLatest latest (entries.map (fun entry => (⟨version entry, .dir⟩, g entry))) := by
  induction entries generalizing latest with
  | nil => rfl
  | cons entry entries ih =>
    rw [List.forall_mem_cons] at h
    simp only [List.map_cons, findLatest, findInstallerInVersionDirectory, h.1, ih h.2]

end lookup

end Prelay.ClientUpdate
