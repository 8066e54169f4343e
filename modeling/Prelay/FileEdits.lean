import Prelay.TurnFiles

namespace Prelay.Rollout

inductive FileOp where
  | thread (op : ThreadOp)
  | edit (path : String) (file : Option File)

def FileOp.drafts : FileOp → List ContentDraft
  | .thread op => op.drafts
  | .edit _ _ => []

namespace Thread

variable (env : Env) (identityId threadId : String)

def edited (t : Thread) (path : String) (file : Option File) : Thread :=
  { t with store := { t.store with disk := Function.update t.store.disk path file } }

def fileStep (t : Thread) : FileOp → Thread
  | .thread op => t.step env identityId threadId op
  | .edit path file => t.edited path file

def fileRun (ops : List FileOp) : Thread := ops.foldl (fileStep env identityId threadId) {}

/-- The files after a lookup, which cuts off the incomplete tail of the file it reads. -/
def resolvedDisk (t : Thread) : Disk :=
  match resolveThreadSource env t.store identityId threadId with
  | .ok (_, store) => store.disk
  | .error _ => t.store.disk

def disksOf (t : Thread) (op : FileOp) : List Disk :=
  match op, t.writer with
  | .thread (.beginTurn _), none =>
    [t.resolvedDisk env identityId threadId, (t.fileStep env identityId threadId op).store.disk]
  | _, _ => [(t.fileStep env identityId threadId op).store.disk]

def fileDisks (t : Thread) : List FileOp → List Disk
  | [] => [t.store.disk]
  | op :: ops => t.store.disk :: (t.disksOf env identityId threadId op ++
      (t.fileStep env identityId threadId op).fileDisks ops)

end Thread

/-- Files have times, and one that keeps its length and its time keeps its content. -/
structure Dated (disks : List Disk) : Prop where
  time : ∀ disk ∈ disks, ∀ path file, disk path = some file → file.modified ≠ none
  content : ∀ disk ∈ disks, ∀ disk' ∈ disks, ∀ path file file', disk path = some file → disk' path = some file' →
    FileStamp.fromMetadata file = FileStamp.fromMetadata file' → file.bytes = file'.bytes

def Filed (contents : String → FileStamp → Bytes) (disk : Disk) : Prop :=
  ∀ path file, disk path = some file → file.bytes = contents path (FileStamp.fromMetadata file) ∧ file.modified ≠ none

section disks

theorem fileDisks_start (env : Env) (identityId threadId : String) (t : Thread) (ops : List FileOp) :
    t.store.disk ∈ t.fileDisks env identityId threadId ops := by
  cases ops with
  | nil => exact List.mem_cons_self
  | cons op ops => exact List.mem_cons_self

theorem mem_fileDisks_append (env : Env) (identityId threadId : String) (t : Thread) (ops more : List FileOp)
    (disk : Disk) : disk ∈ t.fileDisks env identityId threadId (ops ++ more) ↔
      disk ∈ t.fileDisks env identityId threadId ops ∨
      disk ∈ (ops.foldl (Thread.fileStep env identityId threadId) t).fileDisks env identityId threadId more := by
  induction ops generalizing t with
  | nil =>
    have hstart := fileDisks_start env identityId threadId t more
    constructor
    · exact .inr
    · rintro (hdisk | hdisk)
      · obtain rfl := List.mem_singleton.mp hdisk
        exact hstart
      · exact hdisk
  | cons op ops ih =>
    rw [List.cons_append, Thread.fileDisks, Thread.fileDisks, List.mem_cons, List.mem_cons, List.mem_append,
      List.mem_append, ih, List.foldl_cons]
    tauto

theorem fileDisks_end (env : Env) (identityId threadId : String) (t : Thread) (ops : List FileOp) :
    (ops.foldl (Thread.fileStep env identityId threadId) t).store.disk ∈ t.fileDisks env identityId threadId ops := by
  induction ops generalizing t with
  | nil => exact List.mem_cons_self
  | cons op ops ih => exact List.mem_cons_of_mem _ (List.mem_append_right _ (ih _))

open Classical in
noncomputable def contentAt (disks : List Disk) (path : String) (stamp : FileStamp) : Bytes :=
  if h : ∃ disk ∈ disks, ∃ file, disk path = some file ∧ FileStamp.fromMetadata file = stamp then
    h.choose_spec.2.choose.bytes else []

theorem Dated.filed {disks : List Disk} (h : Dated disks) : ∀ disk ∈ disks, Filed (contentAt disks) disk := by
  intro disk hdisk path file hfile
  refine ⟨?_, h.time disk hdisk path file hfile⟩
  have hexists : ∃ disk ∈ disks, ∃ file', disk path = some file' ∧
      FileStamp.fromMetadata file' = FileStamp.fromMetadata file := ⟨disk, hdisk, file, hfile, rfl⟩
  rw [contentAt, dif_pos hexists]
  obtain ⟨hfound, hstamp⟩ := hexists.choose_spec.2.choose_spec
  exact h.content disk hdisk _ hexists.choose_spec.1 path file _ hfile hfound hstamp.symm

theorem dated_of_filed {contents : String → FileStamp → Bytes} {disks : List Disk}
    (h : ∀ disk ∈ disks, Filed contents disk) : Dated disks := by
  refine ⟨fun disk hdisk path file hfile => (h disk hdisk path file hfile).2, ?_⟩
  intro disk hdisk disk' hdisk' path file file' hfile hfile' hstamp
  rw [(h disk hdisk path file hfile).1, (h disk' hdisk' path file' hfile').1, hstamp]

theorem Filed.update {contents : String → FileStamp → Bytes} {disk : Disk} {path : String} {file : Option File}
    (h : Filed contents disk) (hfile : ∀ written, file = some written →
      written.bytes = contents path (FileStamp.fromMetadata written) ∧ written.modified ≠ none) :
    Filed contents (Function.update disk path file) := by
  intro q written hq
  by_cases hpath : q = path
  · subst hpath
    rw [Function.update_self] at hq
    exact hfile written hq
  · rw [Function.update_of_ne hpath] at hq
    exact h q written hq

end disks

end Prelay.Rollout
