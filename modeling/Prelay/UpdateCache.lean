import Prelay.ClientUpdate
import Prelay.Runs

namespace Prelay.ClientUpdate

/-- A file of the cache; nested deeper than a version directory there are none. -/
structure CachePath where
  target : ClientUpdateTarget
  version : String
  fileName : String
  deriving DecidableEq

/-- A file's bytes, and all the bytes of the asset that it is a download of. -/
structure StoredFile where
  written : Bytes
  asset : Bytes
  deriving DecidableEq

inductive Stage where
  | started
  | writing
  | replacing
  | renaming
  deriving DecidableEq

structure Task where
  installer : CachePath
  uuid : String
  rest : List Bytes
  stage : Stage

def Task.temporary (t : Task) : CachePath := { t.installer with fileName := temporaryName t.installer.fileName t.uuid }

structure Cache where
  files : CachePath → Option StoredFile
  tasks : ℕ → Option Task
  uuids : List String

-- `stop` is a crash, or an error that leaves the temporary file where it is.
inductive Action where
  | start (task : ℕ) (asset version uuid : String) (chunks : List Bytes)
  | create (task : ℕ)
  | write (task : ℕ)
  | fail (task : ℕ)
  | flush (task : ℕ)
  | remove (task : ℕ)
  | rename (task : ℕ)
  | stop (task : ℕ)

namespace Cache

def setFile (s : Cache) (path : CachePath) (file : Option StoredFile) : Cache :=
  { s with files := Function.update s.files path file }

theorem setFile_files (s : Cache) (path : CachePath) (file : Option StoredFile) :
    (s.setFile path file).files = Function.update s.files path file := rfl

def setTask (s : Cache) (i : ℕ) (task : Option Task) : Cache := { s with tasks := Function.update s.tasks i task }

/-- A refresh comes as far as the request when the installer is not there yet; the uuids are all different. -/
def start (s : Cache) (i : ℕ) (asset version uuid : String) (chunks : List Bytes) : Option Cache :=
  (windowsNsisTarget asset).bind (fun target =>
    if s.tasks i = none ∧ isSafeTarget target = true ∧ (parseVersion version).isSome = true ∧ isUuid uuid = true ∧
        uuid ∉ s.uuids ∧ s.files ⟨target, version, asset⟩ = none then
      some { s.setTask i (some ⟨⟨target, version, asset⟩, uuid, chunks, .started⟩) with uuids := uuid :: s.uuids }
    else none)

def advance (s : Cache) (i : ℕ) (t : Task) : Action → Option Cache
  | .create _ =>
    if t.stage = .started then
      some ((s.setFile t.temporary (some ⟨[], t.rest.flatten⟩)).setTask i (some { t with stage := .writing }))
    else none
  | .write _ =>
    match t.rest with
    | chunk :: rest =>
      if t.stage = .writing then
        some ((s.setFile t.temporary ((s.files t.temporary).map (fun file =>
          { file with written := file.written ++ chunk }))).setTask i (some { t with rest := rest }))
      else none
    | [] => none
  | .fail _ => if t.stage = .writing then some ((s.setFile t.temporary none).setTask i none) else none
  | .flush _ =>
    if t.stage = .writing ∧ t.rest = [] then
      some (s.setTask i (some { t with stage := if (s.files t.installer).isSome then .replacing else .renaming }))
    else none
  | .remove _ =>
    if t.stage = .replacing then
      if (s.files t.installer).isSome then
        some ((s.setFile t.installer none).setTask i (some { t with stage := .renaming }))
      else some (s.setTask i none)
    else none
  | .rename _ =>
    if t.stage = .renaming then
      some (((s.setFile t.installer (s.files t.temporary)).setFile t.temporary none).setTask i none)
    else none
  | .stop _ => some (s.setTask i none)
  | .start _ _ _ _ _ => none

def task : Action → ℕ
  | .start i _ _ _ _ | .create i | .write i | .fail i | .flush i | .remove i | .rename i | .stop i => i

def next (s : Cache) : Action → Option Cache
  | .start i asset version uuid chunks => s.start i asset version uuid chunks
  | a => (s.tasks (task a)).bind (fun t => s.advance (task a) t a)

def empty : Cache := ⟨fun _ => none, fun _ => none, []⟩

/-- The states of the cache under any interleaving of refreshes, each of which may stop after any step. -/
def Reachable (s : Cache) : Prop := Runs.Reaches (fun s a s' => next s a = some s') (fun _ _ => True) empty s

end Cache

open Cache

def IsInstaller (path : CachePath) (file : StoredFile) : Prop :=
  (∃ target, windowsNsisTarget path.fileName = some target) ∧ file.written = file.asset

def IsTemporary (path : CachePath) : Prop :=
  ∃ fileName uuid, isSafeFileName fileName = true ∧ isUuid uuid = true ∧ path.fileName = temporaryName fileName uuid

structure TaskOk (files : CachePath → Option StoredFile) (t : Task) : Prop where
  uuid : isUuid t.uuid = true
  installer : ∃ target, windowsNsisTarget t.installer.fileName = some target
  written : t.stage ≠ .started → ∃ file, files t.temporary = some file ∧ file.written ++ t.rest.flatten = file.asset
  complete : t.stage = .replacing ∨ t.stage = .renaming → t.rest = []

structure CacheInvariant (s : Cache) : Prop where
  stored : ∀ path file, s.files path = some file → IsTemporary path ∨ IsInstaller path file
  tasks : ∀ i t, s.tasks i = some t → TaskOk s.files t ∧ t.uuid ∈ s.uuids
  apart : ∀ i j t u, s.tasks i = some t → s.tasks j = some u → i ≠ j → t.uuid ≠ u.uuid

section invariant

variable {s : Cache}

theorem temporary_isTemporary {files : CachePath → Option StoredFile} {t : Task} (h : TaskOk files t) :
    IsTemporary t.temporary := by
  obtain ⟨target, htarget⟩ := h.installer
  exact ⟨t.installer.fileName, t.uuid, (installer_name htarget).1, h.uuid, rfl⟩

theorem temporary_ne_installer {files : CachePath → Option StoredFile} {t : Task} (ht : TaskOk files t) (u : Task) :
    u.temporary ≠ t.installer := by
  intro heq
  obtain ⟨target, htarget⟩ := ht.installer
  have htemporary := temporaryName_isTemporary u.installer.fileName u.uuid
  rw [show temporaryName u.installer.fileName u.uuid = t.installer.fileName from congrArg CachePath.fileName heq,
    (installer_name htarget).2] at htemporary
  exact nomatch htemporary

theorem temporary_ne {files files' : CachePath → Option StoredFile} {t u : Task} (ht : TaskOk files t)
    (hu : TaskOk files' u) (hne : t.uuid ≠ u.uuid) : u.temporary ≠ t.temporary := by
  intro heq
  exact hne (temporaryName_uuid ht.uuid hu.uuid (congrArg CachePath.fileName heq.symm))

/-- A step of one task touches its temporary file and its installer only. -/
theorem CacheInvariant.advance (h : CacheInvariant s) {i : ℕ} {t : Task} (ht : s.tasks i = some t)
    {files : CachePath → Option StoredFile} {task : Option Task}
    (hother : ∀ path, path ≠ t.temporary → path ≠ t.installer → files path = s.files path)
    (hinstaller : ∀ file, files t.installer = some file → file.written = file.asset)
    (htask : ∀ u, task = some u → TaskOk files u ∧ u.uuid = t.uuid) :
    CacheInvariant ⟨files, Function.update s.tasks i task, s.uuids⟩ := by
  have hok := (h.tasks i t ht).1
  have htasks : ∀ j u, Function.update s.tasks i task j = some u → j = i ∧ task = some u ∨ j ≠ i ∧ s.tasks j = some u := by
    intro j u hu
    by_cases hj : j = i
    · subst hj
      rw [Function.update_self] at hu
      exact .inl ⟨rfl, hu⟩
    · rw [Function.update_of_ne hj] at hu
      exact .inr ⟨hj, hu⟩
  constructor
  · intro path file hfile
    change files path = some file at hfile
    by_cases htemporary : path = t.temporary
    · exact .inl (htemporary ▸ temporary_isTemporary hok)
    · by_cases hpath : path = t.installer
      · subst hpath
        exact .inr ⟨hok.installer, hinstaller file hfile⟩
      · rw [hother path htemporary hpath] at hfile
        exact h.stored path file hfile
  · intro j u hu
    rcases htasks j u hu with ⟨-, htask'⟩ | ⟨hj, hu'⟩
    · obtain ⟨hok', huuid⟩ := htask u htask'
      exact ⟨hok', huuid ▸ (h.tasks i t ht).2⟩
    · obtain ⟨hok', hmem⟩ := h.tasks j u hu'
      have hsame : files u.temporary = s.files u.temporary :=
        hother _ (temporary_ne hok hok' (h.apart i j t u ht hu' (Ne.symm hj))) (temporary_ne_installer hok u)
      refine ⟨⟨hok'.uuid, hok'.installer, fun hstage => ?_, hok'.complete⟩, hmem⟩
      change ∃ file, files u.temporary = some file ∧ _
      rw [hsame]
      exact hok'.written hstage
  · intro j k u v hu hv hjk
    rcases htasks j u hu with ⟨rfl, htask'⟩ | ⟨hj, hu'⟩
    · rcases htasks k v hv with ⟨rfl, -⟩ | ⟨-, hv'⟩
      · exact absurd rfl hjk
      · rw [(htask u htask').2]
        exact h.apart j k t v ht hv' hjk
    · rcases htasks k v hv with ⟨rfl, htask'⟩ | ⟨-, hv'⟩
      · rw [(htask v htask').2]
        exact h.apart j k u t hu' ht hjk
      · exact h.apart j k u v hu' hv' hjk

theorem CacheInvariant.installed (h : CacheInvariant s) {t : Task} (hok : TaskOk s.files t) {file : StoredFile}
    (hfile : s.files t.installer = some file) : file.written = file.asset := by
  rcases h.stored t.installer file hfile with ⟨fileName, uuid, -, -, hname⟩ | ⟨-, hcomplete⟩
  · obtain ⟨target, htarget⟩ := hok.installer
    have htemporary := temporaryName_isTemporary fileName uuid
    rw [← hname, (installer_name htarget).2] at htemporary
    exact nomatch htemporary
  · exact hcomplete

theorem CacheInvariant.empty : CacheInvariant Cache.empty := by
  constructor
  · exact fun path file h => nomatch h
  · exact fun i t h => nomatch h
  · exact fun i j t u h => nomatch h

theorem CacheInvariant.start (h : CacheInvariant s) {i : ℕ} {asset version uuid : String} {chunks : List Bytes}
    {s' : Cache}
    (hstep : s.start i asset version uuid chunks = some s') : CacheInvariant s' := by
  obtain ⟨target, htarget, hstep⟩ := Option.bind_eq_some_iff.mp hstep
  split_ifs at hstep with hguard
  obtain rfl := Option.some.inj hstep
  obtain ⟨-, -, -, huuid, hfresh, -⟩ := hguard
  have htasks : ∀ j u, Function.update s.tasks i
      (some ⟨⟨target, version, asset⟩, uuid, chunks, .started⟩) j = some u →
      j = i ∧ u = ⟨⟨target, version, asset⟩, uuid, chunks, .started⟩ ∨ j ≠ i ∧ s.tasks j = some u := by
    intro j u hu
    by_cases hj : j = i
    · subst hj
      rw [Function.update_self] at hu
      exact .inl ⟨rfl, (Option.some.inj hu).symm⟩
    · rw [Function.update_of_ne hj] at hu
      exact .inr ⟨hj, hu⟩
  constructor
  · exact h.stored
  · intro j u hu
    rcases htasks j u hu with ⟨-, rfl⟩ | ⟨-, hu'⟩
    · refine ⟨⟨huuid, ⟨target, htarget⟩, fun hstage => absurd rfl hstage, ?_⟩, List.mem_cons_self⟩
      rintro (hstage | hstage)
      · exact nomatch hstage
      · exact nomatch hstage
    · exact ⟨(h.tasks j u hu').1, List.mem_cons_of_mem _ (h.tasks j u hu').2⟩
  · intro j k u v hu hv hjk
    rcases htasks j u hu with ⟨rfl, rfl⟩ | ⟨hj, hu'⟩
    · rcases htasks k v hv with ⟨rfl, -⟩ | ⟨-, hv'⟩
      · exact absurd rfl hjk
      · rintro rfl
        exact hfresh (h.tasks k v hv').2
    · rcases htasks k v hv with ⟨rfl, rfl⟩ | ⟨-, hv'⟩
      · intro heq
        have hmem := (h.tasks j u hu').2
        rw [heq] at hmem
        exact hfresh hmem
      · exact h.apart j k u v hu' hv' hjk

theorem CacheInvariant.stopped (h : CacheInvariant s) {i : ℕ} {t : Task} (ht : s.tasks i = some t) :
    CacheInvariant (s.setTask i none) := by
  have hok := (h.tasks i t ht).1
  refine h.advance ht (fun _ _ _ => rfl) (fun file hfile => ?_) (fun u hu => nomatch hu)
  exact h.installed hok hfile

theorem CacheInvariant.advanced (h : CacheInvariant s) {i : ℕ} {t : Task} (ht : s.tasks i = some t) {a : Action}
    {s' : Cache} (hstep : s.advance i t a = some s') : CacheInvariant s' := by
  have hok := (h.tasks i t ht).1
  have hne : t.installer ≠ t.temporary := (temporary_ne_installer hok t).symm
  cases a with
  | start j asset version uuid chunks => exact nomatch hstep
  | create j =>
    rw [Cache.advance] at hstep
    split_ifs at hstep with hstage
    obtain rfl := Option.some.inj hstep
    refine h.advance ht ?_ ?_ ?_
    · exact fun path htemporary _ => Function.update_of_ne htemporary ..
    · intro file hfile
      rw [Cache.setFile_files, Function.update_of_ne hne] at hfile
      exact h.installed hok hfile
    · intro u hu
      obtain rfl := Option.some.inj hu
      refine ⟨⟨hok.uuid, hok.installer, fun _ => ⟨_, Function.update_self .., rfl⟩, ?_⟩, rfl⟩
      rintro (hstage | hstage)
      · exact nomatch hstage
      · exact nomatch hstage
  | write j =>
    rw [Cache.advance] at hstep
    cases hrest : t.rest with
    | nil =>
      rw [hrest] at hstep
      exact nomatch hstep
    | cons chunk rest =>
      rw [hrest] at hstep
      dsimp only at hstep
      split_ifs at hstep with hstage
      obtain rfl := Option.some.inj hstep
      obtain ⟨file, hfile, hwritten⟩ := hok.written (by rw [hstage]; exact nofun)
      rw [hrest, List.flatten_cons, ← List.append_assoc] at hwritten
      refine h.advance ht ?_ ?_ ?_
      · exact fun path htemporary _ => Function.update_of_ne htemporary ..
      · intro file hfile
        rw [Cache.setFile_files, Function.update_of_ne hne] at hfile
        exact h.installed hok hfile
      · intro u hu
        obtain rfl := Option.some.inj hu
        refine ⟨⟨hok.uuid, hok.installer, fun _ => ⟨{ file with written := file.written ++ chunk }, ?_, hwritten⟩, ?_⟩,
          rfl⟩
        · change Function.update s.files t.temporary _ t.temporary = _
          rw [Function.update_self, hfile]
          rfl
        · rintro (hreplacing | hrenaming)
          · exact nomatch hstage.symm.trans hreplacing
          · exact nomatch hstage.symm.trans hrenaming
  | fail j =>
    rw [Cache.advance] at hstep
    split_ifs at hstep with hstage
    obtain rfl := Option.some.inj hstep
    refine h.advance ht ?_ ?_ (fun u hu => nomatch hu)
    · exact fun path htemporary _ => Function.update_of_ne htemporary ..
    · intro file hfile
      rw [Cache.setFile_files, Function.update_of_ne hne] at hfile
      exact h.installed hok hfile
  | flush j =>
    rw [Cache.advance] at hstep
    obtain ⟨hstage, hstep⟩ := Option.ite_none_right_eq_some.mp hstep
    obtain rfl := Option.some.inj hstep
    refine h.advance ht (fun _ _ _ => rfl) (fun file hfile => h.installed hok hfile) ?_
    intro u hu
    obtain rfl := Option.some.inj hu
    exact ⟨⟨hok.uuid, hok.installer, fun _ => hok.written (by rw [hstage.1]; exact nofun), fun _ => hstage.2⟩, rfl⟩
  | remove j =>
    rw [Cache.advance] at hstep
    split_ifs at hstep with hstage hexists
    · obtain rfl := Option.some.inj hstep
      refine h.advance ht ?_ ?_ ?_
      · exact fun path _ hpath => Function.update_of_ne hpath ..
      · intro file hfile
        rw [Cache.setFile_files, Function.update_self] at hfile
        exact nomatch hfile
      · intro u hu
        obtain rfl := Option.some.inj hu
        refine ⟨⟨hok.uuid, hok.installer, fun _ => ?_, fun _ => hok.complete (.inl hstage)⟩, rfl⟩
        change ∃ file, Function.update s.files t.installer none t.temporary = _ ∧ _
        rw [Function.update_of_ne hne.symm]
        exact hok.written (by rw [hstage]; exact nofun)
    · obtain rfl := Option.some.inj hstep
      exact h.stopped ht
  | rename j =>
    rw [Cache.advance] at hstep
    split_ifs at hstep with hstage
    obtain rfl := Option.some.inj hstep
    obtain ⟨file, hfile, hwritten⟩ := hok.written (by rw [hstage]; exact nofun)
    rw [hok.complete (.inr hstage), List.flatten_nil, List.append_nil] at hwritten
    refine h.advance ht ?_ ?_ (fun u hu => nomatch hu)
    · intro path htemporary hpath
      exact (Function.update_of_ne htemporary ..).trans (Function.update_of_ne hpath ..)
    · intro file' hfile'
      have hrenamed : s.files t.temporary = some file' := by
        rw [Cache.setFile_files, Cache.setFile_files, Function.update_of_ne hne, Function.update_self] at hfile'
        exact hfile'
      obtain rfl := Option.some.inj (hfile.symm.trans hrenamed)
      exact hwritten
  | stop j =>
    obtain rfl := Option.some.inj hstep
    exact h.stopped ht

theorem CacheInvariant.next (h : CacheInvariant s) {a : Action} {s' : Cache} (hstep : s.next a = some s') :
    CacheInvariant s' := by
  cases a with
  | start i asset version uuid chunks => exact h.start hstep
  | _ =>
    obtain ⟨t, ht, hstep⟩ := Option.bind_eq_some_iff.mp hstep
    exact h.advanced ht hstep

theorem Cache.Reachable.invariant (h : Reachable s) : CacheInvariant s :=
  Runs.Reaches.invariant h CacheInvariant.empty (fun _ _ _ hI _ hstep => hI.next hstep)

end invariant

section lookup

variable {s : Cache}

def Listed (s : Cache) (target : ClientUpdateTarget) (version : String) (names : List String) : Prop :=
  names.Nodup ∧ ∀ name, name ∈ names ↔ (s.files ⟨target, version, name⟩).isSome = true

def Published (s : Cache) (path : CachePath) : Prop :=
  isTemporary path.fileName = false ∧ ∃ file, s.files path = some file ∧ file.written = file.asset

structure ScanRight (s : Cache) (target : ClientUpdateTarget) (version : String) (names : List String) : Prop where
  published : ∀ name, findInstaller none (fileEntries names) = some name → Published s ⟨target, version, name⟩
  found : ∀ name, findInstaller none (fileEntries (names.filter (fun n => !isTemporary n))) = some name →
    findInstaller none (fileEntries names) = some name

/-- No temporary file stands in the directory, or other files make the directory useless anyway. -/
def Undisturbed (names : List String) : Prop :=
  (∀ name ∈ names, isTemporary name = false) ∨
    2 ≤ names.length ∧ (names.filter (fun n => !isTemporary n)).length ≠ 1

theorem Listed.safe (h : Reachable s) {target : ClientUpdateTarget} {version : String} {names : List String}
    (hnames : Listed s target version names) : ∀ name ∈ names, isSafeFileName name = true ∧
      (isTemporary name = false → Published s ⟨target, version, name⟩) := by
  intro name hname
  obtain ⟨file, hfile⟩ := Option.isSome_iff_exists.mp ((hnames.2 name).mp hname)
  rcases h.invariant.stored _ file hfile with ⟨fileName, uuid, hsafe, huuid, htemporary⟩ | ⟨⟨target', htarget⟩, hcomplete⟩
  · dsimp only at htemporary
    subst htemporary
    refine ⟨temporaryName_safe hsafe huuid, fun hnot => ?_⟩
    rw [temporaryName_isTemporary] at hnot
    exact nomatch hnot
  · exact ⟨(installer_name htarget).1, fun hnot => ⟨hnot, file, hfile, hcomplete⟩⟩

theorem scanRight_iff (h : Reachable s) {target : ClientUpdateTarget} {version : String} {names : List String}
    (hnames : Listed s target version names) : ScanRight s target version names ↔ Undisturbed names := by
  have hsafe := hnames.safe h
  have hall (name : String) := findInstaller_files (fun n hn => (hsafe n hn).1) name
  have hkept (name : String) := @findInstaller_files (names.filter (fun n => !isTemporary n))
    (fun n hn => (hsafe n (List.mem_of_mem_filter hn)).1) name
  constructor
  · intro hright
    by_contra hdisturbed
    rw [Undisturbed, not_or] at hdisturbed
    obtain ⟨hsome, huseless⟩ := hdisturbed
    push Not at hsome
    obtain ⟨temporary, hmem, htemporary⟩ := hsome
    by_cases hone : (names.filter (fun n => !isTemporary n)).length = 1
    · obtain ⟨name, hname⟩ := List.length_eq_one_iff.mp hone
      have hnotTemporary : isTemporary name = false := by
        have hmem' : name ∈ names.filter (fun n => !isTemporary n) := hname ▸ List.mem_singleton_self name
        simpa using List.of_mem_filter hmem'
      rw [(hall name).mp (hright.found name ((hkept name).mpr hname)), List.mem_singleton] at hmem
      rw [hmem, hnotTemporary] at htemporary
      exact htemporary rfl
    · have hlength : names.length = 1 := by
        have hpos := List.length_pos_of_mem hmem
        have hlt : ¬2 ≤ names.length := fun hle => huseless ⟨hle, hone⟩
        omega
      obtain ⟨name, rfl⟩ := List.length_eq_one_iff.mp hlength
      obtain rfl := List.mem_singleton.mp hmem
      exact htemporary (hright.published temporary ((hall temporary).mpr rfl)).1
  · rintro (hnone | ⟨hmany, hnotOne⟩)
    · have hfilter : names.filter (fun n => !isTemporary n) = names := by
        rw [List.filter_eq_self]
        intro name hname
        rw [hnone name hname]
        rfl
      constructor
      · intro name hfound
        have hmem : name ∈ names := (hall name).mp hfound ▸ List.mem_singleton_self name
        exact (hsafe name hmem).2 (hnone name hmem)
      · intro name hfound
        rwa [hfilter] at hfound
    · constructor
      · intro name hfound
        rw [(hall name).mp hfound, List.length_singleton] at hmany
        omega
      · intro name hfound
        exact absurd (congrArg List.length ((hkept name).mp hfound)) hnotOne

theorem findInstaller_undisturbed (h : Reachable s) {target : ClientUpdateTarget} {version : String} {names : List String}
    (hnames : Listed s target version names) (hclear : Undisturbed names) :
    findInstaller none (fileEntries names) =
      findInstaller none (fileEntries (names.filter (fun n => !isTemporary n))) := by
  have hsafe := hnames.safe h
  apply Option.ext
  intro name
  constructor
  · intro hfound
    have hpublished := ((scanRight_iff h hnames).mpr hclear).published name hfound
    rw [findInstaller_files (fun n hn => (hsafe n hn).1)] at hfound
    rw [findInstaller_files (fun n hn => (hsafe n (List.mem_of_mem_filter hn)).1), hfound]
    exact List.filter_cons_of_pos (by rw [hpublished.1]; rfl)
  · exact ((scanRight_iff h hnames).mpr hclear).found name

/-- The version directories of a target as a lookup reads them, each at a time of its own. -/
def Read (target : ClientUpdateTarget) (entries : List (String × List String)) : Prop :=
  ∀ e ∈ entries, ∃ s, Reachable s ∧ Listed s target e.1 e.2

def latest (target : ClientUpdateTarget) (entries : List (String × List String)) : Option CachedClientUpdate :=
  findInstallerInCacheDirectory target (entries.map (fun e => (⟨e.1, .dir⟩, fileEntries e.2)))

structure LookupRight (target : ClientUpdateTarget) (entries : List (String × List String)) : Prop where
  published : ∀ update, latest target entries = some update → ∃ s names, (update.version, names) ∈ entries ∧
    Reachable s ∧ Listed s target update.version names ∧ Published s ⟨target, update.version, update.fileName⟩
  undisturbed : latest target entries = latest target (entries.map (fun e => (e.1, e.2.filter (fun n => !isTemporary n))))

theorem lookup_published {target : ClientUpdateTarget} {entries : List (String × List String)}
    (hread : Read target entries) :
    ((∀ e ∈ entries, ∀ s, Reachable s → Listed s target e.1 e.2 → ScanRight s target e.1 e.2) ↔
        ∀ e ∈ entries, Undisturbed e.2) ∧
      ((∀ e ∈ entries, Undisturbed e.2) → LookupRight target entries) := by
  have hscan : (∀ e ∈ entries, ∀ s, Reachable s → Listed s target e.1 e.2 → ScanRight s target e.1 e.2) ↔
      ∀ e ∈ entries, Undisturbed e.2 := by
    constructor
    · intro hright e he
      obtain ⟨s, hs, hnames⟩ := hread e he
      exact (scanRight_iff hs hnames).mp (hright e he s hs hnames)
    · exact fun hclear e he s hs hnames => (scanRight_iff hs hnames).mpr (hclear e he)
  refine ⟨hscan, fun hclear => ?_⟩
  have hright := hscan.mpr hclear
  constructor
  · intro update hupdate
    unfold latest findInstallerInCacheDirectory at hupdate
    split_ifs at hupdate
    rcases findLatest_found hupdate with hnone | ⟨entry, hentry, hversion, hfound⟩
    · exact nomatch hnone
    · obtain ⟨⟨version, names⟩, hmem, rfl⟩ := List.mem_map.mp hentry
      obtain ⟨s, hs, hnames⟩ := hread _ hmem
      dsimp only at hversion hfound hnames
      subst hversion
      exact ⟨s, names, hmem, hs, hnames, (hright _ hmem s hs hnames).published _ hfound⟩
  · unfold latest findInstallerInCacheDirectory
    rw [List.map_map]
    split_ifs
    · apply findLatest_congr
      intro e he
      obtain ⟨s, hs, hnames⟩ := hread e he
      exact findInstaller_undisturbed hs hnames (hclear e he)
    · rfl

end lookup

section sample

def installerBytes : Bytes := [77, 90]

def sampleTask (rest : List Bytes) (stage : Stage) : Task :=
  ⟨⟨⟨"windows", "x64"⟩, "0.2.0", "Prelay_0.2.0_x64-setup.exe"⟩, "0a", rest, stage⟩

def sampleInstaller : CachePath := (sampleTask [] .started).installer

def sampleTemporary : CachePath := (sampleTask [] .started).temporary

def startedCache : Cache := { empty.setTask 0 (some (sampleTask [installerBytes] .started)) with uuids := ["0a"] }

def writingCache : Cache :=
  (startedCache.setFile sampleTemporary (some ⟨[], installerBytes⟩)).setTask 0
    (some (sampleTask [installerBytes] .writing))

def writtenCache : Cache :=
  (writingCache.setFile sampleTemporary (some ⟨installerBytes, installerBytes⟩)).setTask 0
    (some (sampleTask [] .writing))

def renamingCache : Cache := writtenCache.setTask 0 (some (sampleTask [] .renaming))

def publishedCache : Cache :=
  ((renamingCache.setFile sampleInstaller (some ⟨installerBytes, installerBytes⟩)).setFile sampleTemporary none).setTask 0
    none

theorem writingCache_reachable : Reachable writingCache := by
  have htarget : windowsNsisTarget "Prelay_0.2.0_x64-setup.exe" = some ⟨"windows", "x64"⟩ := by decide +kernel
  have hstart : next empty (.start 0 "Prelay_0.2.0_x64-setup.exe" "0.2.0" "0a" [installerBytes]) = some startedCache := by
    rw [next, Cache.start, htarget, Option.bind_some,
      if_pos ⟨rfl, by decide, by decide +kernel, by decide, List.not_mem_nil, rfl⟩]
    rfl
  have hcreate : next startedCache (.create 0) = some writingCache := rfl
  exact .step (.step .start trivial hstart) trivial hcreate

theorem writingCache_files (path : CachePath) :
    writingCache.files path = if path = sampleTemporary then some ⟨[], installerBytes⟩ else none :=
  Function.update_apply ..

theorem writtenCache_files (path : CachePath) :
    writtenCache.files path = if path = sampleTemporary then some ⟨installerBytes, installerBytes⟩ else none := by
  change Function.update writingCache.files sampleTemporary _ path = _
  rw [Function.update_apply, writingCache_files]
  split_ifs <;> rfl

theorem installer_ne_temporary : sampleInstaller ≠ sampleTemporary := by
  decide +kernel

theorem publishedCache_files (path : CachePath) :
    publishedCache.files path = if path = sampleInstaller then some ⟨installerBytes, installerBytes⟩ else none := by
  change Function.update (Function.update writtenCache.files sampleInstaller _) sampleTemporary none path = _
  rw [Function.update_apply, Function.update_apply, writtenCache_files]
  by_cases htemporary : path = sampleTemporary
  · rw [if_pos htemporary, if_neg (htemporary ▸ installer_ne_temporary.symm)]
  · rw [if_neg htemporary, if_neg htemporary]

theorem publishedCache_reachable : Reachable publishedCache := by
  have hwrite : next writingCache (.write 0) = some writtenCache := by
    have hfile : writingCache.files sampleTemporary = some ⟨[], installerBytes⟩ :=
      (writingCache_files _).trans (if_pos rfl)
    have hstage : (sampleTask [installerBytes] .writing).stage = .writing := rfl
    change (if (sampleTask [installerBytes] .writing).stage = .writing then
      some ((writingCache.setFile sampleTemporary ((writingCache.files sampleTemporary).map _)).setTask 0 _) else none) = _
    rw [if_pos hstage, hfile]
    rfl
  have hflush : next writtenCache (.flush 0) = some renamingCache := by
    have hnone : writtenCache.files (sampleTask [] .writing).installer = none :=
      (writtenCache_files _).trans (if_neg installer_ne_temporary)
    change writtenCache.advance 0 (sampleTask [] .writing) (.flush 0) = _
    rw [Cache.advance, if_pos ⟨rfl, rfl⟩, hnone]
    rfl
  have hrename : next renamingCache (.rename 0) = some publishedCache := by
    have hfile : renamingCache.files (sampleTask [] .renaming).temporary = some ⟨installerBytes, installerBytes⟩ :=
      (writtenCache_files _).trans (if_pos rfl)
    have hstage : (sampleTask [] .renaming).stage = .renaming := rfl
    change renamingCache.advance 0 (sampleTask [] .renaming) (.rename 0) = _
    rw [Cache.advance, if_pos hstage, hfile]
    rfl
  exact .step (.step (.step writingCache_reachable trivial hwrite) trivial hflush) trivial hrename

theorem lookup_published_installer : LookupRight ⟨"windows", "x64"⟩ [("0.2.0", ["Prelay_0.2.0_x64-setup.exe"])] := by
  have hread : Read ⟨"windows", "x64"⟩ [("0.2.0", ["Prelay_0.2.0_x64-setup.exe"])] := by
    intro e he
    obtain rfl := List.mem_singleton.mp he
    refine ⟨publishedCache, publishedCache_reachable, by simp, fun name => ?_⟩
    rw [publishedCache_files, List.mem_singleton]
    split_ifs with hpath
    · exact iff_of_true (congrArg CachePath.fileName hpath) rfl
    · exact iff_of_false (fun hname => hpath (by subst hname; rfl)) nofun
  refine (lookup_published hread).2 (fun e he => .inl ?_)
  obtain rfl := List.mem_singleton.mp he
  decide +kernel

/-- The temporary file of a first download is taken for an installer. -/
theorem lookup_not_published :
    Read ⟨"windows", "x64"⟩ [("0.2.0", [".Prelay_0.2.0_x64-setup.exe.0a.tmp"])] ∧
      ¬LookupRight ⟨"windows", "x64"⟩ [("0.2.0", [".Prelay_0.2.0_x64-setup.exe.0a.tmp"])] := by
  constructor
  · intro e he
    obtain rfl := List.mem_singleton.mp he
    refine ⟨writingCache, writingCache_reachable, by simp, fun name => ?_⟩
    rw [writingCache_files, List.mem_singleton]
    split_ifs with hpath
    · exact iff_of_true (congrArg CachePath.fileName hpath) rfl
    · exact iff_of_false (fun hname => hpath (by subst hname; rfl)) nofun
  · intro hright
    have hlatest : latest ⟨"windows", "x64"⟩ [("0.2.0", [".Prelay_0.2.0_x64-setup.exe.0a.tmp"])] =
        some ⟨"0.2.0", ".Prelay_0.2.0_x64-setup.exe.0a.tmp"⟩ := by decide +kernel
    obtain ⟨s, names, -, -, -, hname, -⟩ := hright.published _ hlatest
    exact absurd hname (by decide +kernel)

end sample

end Prelay.ClientUpdate
