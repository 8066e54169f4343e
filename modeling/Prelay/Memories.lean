import Mathlib.Data.Rat.Defs
import Prelay.RolloutSupport
import Prelay.Runs
import Prelay.Schema
import Prelay.Sha256
import Prelay.Transactions

namespace Prelay.Store.Memories

open Transactions Runs

section candidates

/-- A double; none stands for what is no finite number. -/
abbrev Double := Option ℚ

structure MemoryCandidate where
  kind : String
  content : String
  conflictKey : Option String
  confidence : Double
  evidence : String
  observedAt : String

structure NormalizedMemoryCandidate where
  kind : String
  content : String
  normalizedKey : String
  conflictKey : Option String
  confidence : Double
  evidence : String
  evidenceHash : String
  observedAt : String
  status : String
  deriving DecidableEq

def splitWhitespace (value : String) : List String :=
  ((value.toList.splitOnP Str.isWhitespace).filter (· ≠ [])).map String.ofList

def normalizeText (value : String) : String := Str.join " " (splitWhitespace value)

def hash (value : String) : String := Rollout.hexDigest (Sha256.digest (Str.utf8 value))

/-- The range contains no number that is not finite. -/
def inUnitRange (confidence : Double) : Bool := confidence.any (fun value => 0 ≤ value ∧ value ≤ 1)

def normalizeCandidate (candidate : MemoryCandidate) : Except String NormalizedMemoryCandidate :=
  let kind := normalizeText candidate.kind
  let content := normalizeText candidate.content
  let evidence := normalizeText candidate.evidence
  if kind = "" ∨ content = "" ∨ evidence = "" then .error "memory candidates require kind, content, and evidence"
  else if ¬inUnitRange candidate.confidence then .error "memory confidence must be between zero and one"
  else if Str.trim candidate.observedAt = "" then .error "memory candidates require an observed time"
  else .ok {
    normalizedKey := hash (kind ++ "\n" ++ content)
    evidenceHash := hash evidence
    kind := kind
    content := content
    conflictKey := (candidate.conflictKey.map normalizeText).filter (· ≠ "")
    confidence := candidate.confidence
    evidence := evidence
    observedAt := candidate.observedAt
    status := if candidate.confidence.any (· < 3 / 4) then "pending_review" else "active" }

end candidates

section system

structure Memory where
  id : String
  normalizedKey : String
  conflictKey : Option String
  kind : String
  status : String
  content : String
  confidence : Double
  createdAt : String
  updatedAt : String
  deriving DecidableEq

structure MemorySource where
  id : String
  memoryId : String
  identityId : String
  evidence : String
  evidenceHash : String
  observedAt : String
  createdAt : String
  deriving DecidableEq

structure MemoryCall where
  identityId : String
  candidate : MemoryCandidate
  memoryId : String
  sourceId : String
  now : String
  markedAt : String

/-- Where a call stands, named by what its next statement is about. The `UPDATE` keeps the rows of its snapshot that it
has not reached. -/
inductive MemoryStage where
  | waiting
  | inserting (candidate : NormalizedMemoryCandidate)
  | stored (candidate : NormalizedMemoryCandidate) (memoryId : String)
  | sourcing (candidate : NormalizedMemoryCandidate) (memoryId : String)
  | sourced (candidate : NormalizedMemoryCandidate)
  | ready
  | conflicting (key : String)
  | marking (key : String) (rest : List Memory)
  | committed
  | failed
  deriving DecidableEq

structure MemoryState (ι : Type) where
  memories : Table ι Memory
  sources : Table ι MemorySource
  stage : ι → MemoryStage

inductive MemoryAction (ι : Type) where
  | statement (call : ι)
  | rollback (call : ι)

def HasKey (key : String) (row : Memory) : Prop := row.conflictKey = some key

instance (key : String) : DecidablePred (HasKey key) :=
  fun row => inferInstanceAs (Decidable (row.conflictKey = some key))

def sourceKey (row : MemorySource) : String × String × String × String :=
  (row.memoryId, row.identityId, row.evidenceHash, row.observedAt)

namespace MemoryCall

variable (call : MemoryCall)

def newMemory (candidate : NormalizedMemoryCandidate) : Memory where
  id := call.memoryId
  normalizedKey := candidate.normalizedKey
  conflictKey := candidate.conflictKey
  kind := candidate.kind
  status := candidate.status
  content := candidate.content
  confidence := candidate.confidence
  createdAt := call.now
  updatedAt := call.now

def newSource (candidate : NormalizedMemoryCandidate) (memoryId : String) : MemorySource where
  id := call.sourceId
  memoryId := memoryId
  identityId := call.identityId
  evidence := candidate.evidence
  evidenceHash := candidate.evidenceHash
  observedAt := candidate.observedAt
  createdAt := call.now

def marked (row : Memory) : Memory := { row with status := "conflicted", updatedAt := call.markedAt }

end MemoryCall

namespace MemoryState

variable {ι : Type} [DecidableEq ι] (s : MemoryState ι)

def initial (memories : List Memory) (sources : List MemorySource) : MemoryState ι :=
  ⟨⟨memories, fun _ => {}⟩, ⟨sources, fun _ => {}⟩, fun _ => .waiting⟩

def enter (call : ι) (stage : MemoryStage) : MemoryState ι :=
  { s with stage := Function.update s.stage call stage }

def fail (call : ι) : MemoryState ι :=
  { s.enter call .failed with
    memories := s.memories.rollback call
    sources := s.sources.rollback call }

def commit (call : ι) : MemoryState ι :=
  { s.enter call .committed with
    memories := s.memories.commit call
    sources := s.sources.commit call }

variable [Fintype ι] (calls : ι → MemoryCall)

def insertMemory (call : ι) (candidate : NormalizedMemoryCandidate) : Option (MemoryState ι) :=
  let row := (calls call).newMemory candidate
  match s.memories.tryInsert call (fun other => other.id = row.id ∨ other.normalizedKey = row.normalizedKey) row with
  | none => none
  | some none => some (s.fail call)
  | some (some memories) => some { s.enter call (.stored candidate row.id) with memories := memories }

def insertSource (call : ι) (candidate : NormalizedMemoryCandidate) (memoryId : String) : Option (MemoryState ι) :=
  let row := (calls call).newSource candidate memoryId
  match s.sources.tryInsert call (fun other => other.id = row.id ∨ sourceKey other = sourceKey row) row with
  | none => none
  | some none => some (s.fail call)
  | some (some sources) =>
    if ¬∃ memory ∈ s.memories.view call, memory.id = row.memoryId then some (s.fail call)
    else some { s.enter call (.sourced candidate) with sources := sources }

/-- The `UPDATE` at a row of its snapshot: it waits while another transaction holds the row, and then looks at the
version that stands. -/
def markNext (call : ι) (key : String) (row : Memory) (rest : List Memory) : Option (MemoryState ι) :=
  if ∃ own ∈ (s.memories.writes call).inserted, own.id = row.id then
    let mark := fun own : Memory => if own.id = row.id then (calls call).marked own else own
    some { s.enter call (.marking key rest) with memories := s.memories.amend call mark }
  else match s.memories.rows.find? (fun current => current.id = row.id) with
    | none => some (s.enter call (.marking key rest))
    | some current =>
      if s.memories.Locked call current then none
      else if HasKey key current then
        let memories := (s.memories.delete call current).insert call ((calls call).marked current)
        some { s.enter call (.marking key rest) with memories := memories }
      else some (s.enter call (.marking key rest))

def nextStatement (call : ι) : Option (MemoryState ι) :=
  match s.stage call with
  | .waiting =>
    match normalizeCandidate (calls call).candidate with
    | .error _ => some (s.fail call)
    | .ok candidate =>
      match (s.memories.view call).find? (fun row => row.normalizedKey = candidate.normalizedKey) with
      | some memory => some (s.enter call (.stored candidate memory.id))
      | none => some (s.enter call (.inserting candidate))
  | .inserting candidate => s.insertMemory calls call candidate
  | .stored candidate memoryId =>
    let row := (calls call).newSource candidate memoryId
    if ∃ source ∈ s.sources.view call, sourceKey source = sourceKey row then some (s.enter call (.sourced candidate))
    else some (s.enter call (.sourcing candidate memoryId))
  | .sourcing candidate memoryId => s.insertSource calls call candidate memoryId
  | .sourced candidate =>
    match candidate.conflictKey with
    | none => some (s.enter call .ready)
    | some key =>
      if 1 < ((s.memories.view call).filter (fun row => HasKey key row)).length then
        some (s.enter call (.conflicting key))
      else some (s.enter call .ready)
  | .ready => some (s.commit call)
  | .conflicting key =>
    some (s.enter call (.marking key ((s.memories.view call).filter (fun row => HasKey key row))))
  | .marking key (row :: rest) => s.markNext calls call key row rest
  | .marking _ [] => some (s.commit call)
  | .committed => none
  | .failed => none

def next : MemoryAction ι → Option (MemoryState ι)
  | .statement call => s.nextStatement calls call
  | .rollback call => if s.stage call = .committed then none else some (s.fail call)

end MemoryState

def MemoryStep {ι : Type} [DecidableEq ι] [Fintype ι] (calls : ι → MemoryCall) (s : MemoryState ι)
    (action : MemoryAction ι) (s' : MemoryState ι) : Prop :=
  s.next calls action = some s'

end system

section property

variable {ι : Type}

/-- Any two memories with one conflict key stand conflicted. -/
def ConflictsMarked (rows : List Memory) : Prop :=
  ∀ first ∈ rows, ∀ second ∈ rows, first.id ≠ second.id → ∀ key, HasKey key first → HasKey key second →
    first.status = "conflicted" ∧ second.status = "conflicted"

def MemoryStage.Counted : MemoryStage → Prop
  | .ready | .conflicting _ | .marking _ _ => True
  | _ => False

def MemoryState.Holds (s : MemoryState ι) (key : String) (call : ι) : Prop :=
  ∃ row ∈ (s.memories.writes call).inserted, HasKey key row

def MemoryStage.counting : MemoryStage → Option String
  | .sourced candidate => candidate.conflictKey
  | _ => none

/-- A call does not count the memories of a key when it holds the key, no memory with it is committed, and another open
call that holds it has counted already. -/
def CountsInTime (s : MemoryState ι) : MemoryAction ι → Prop
  | .statement call => ∀ key ∈ (s.stage call).counting, s.Holds key call →
      (∀ row ∈ s.memories.rows, ¬HasKey key row) → ∀ other ≠ call, (s.stage other).Counted → ¬s.Holds key other
  | .rollback _ => True

instance (stage : MemoryStage) : Decidable stage.Counted :=
  match stage with
  | .ready | .conflicting _ | .marking _ _ => .isTrue trivial
  | .waiting | .inserting _ | .stored _ _ | .sourcing _ _ | .sourced _ | .committed | .failed => .isFalse id

instance (s : MemoryState ι) (key : String) (call : ι) : Decidable (s.Holds key call) :=
  inferInstanceAs (Decidable (∃ row ∈ (s.memories.writes call).inserted, HasKey key row))

instance [DecidableEq ι] [Fintype ι] (s : MemoryState ι) (action : MemoryAction ι) :
    Decidable (CountsInTime s action) :=
  match action with
  | .statement call => inferInstanceAs (Decidable (∀ key ∈ (s.stage call).counting, s.Holds key call →
      (∀ row ∈ s.memories.rows, ¬HasKey key row) → ∀ other ≠ call, (s.stage other).Counted → ¬s.Holds key other))
  | .rollback _ => .isTrue trivial

end property

end Prelay.Store.Memories
