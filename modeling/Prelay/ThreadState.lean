import Mathlib.Logic.Function.Basic
import Prelay.RolloutRead

namespace Prelay.Rollout

open Json

structure FileStamp where
  len : ℕ := 0
  modified : Option ℕ := none
  deriving DecidableEq

def FileStamp.fromMetadata (file : File) : FileStamp := ⟨file.bytes.length, file.modified⟩

structure WindowState where
  windowId : Option String
  generation : ℕ
  deriving DecidableEq

structure ThreadState where
  relativePath : String
  format : ConversationFormat := .v1
  stamp : FileStamp := {}
  lineCount : ℕ := 0
  seq : ℕ := 0
  window : Option WindowState := none
  content : ContentHash := {}
  eventRefs : Std.ExtTreeMap Bytes (List ℕ) := ∅
  itemRefs : Std.ExtTreeMap String ℕ := ∅
  contentEventCount : ℕ := 0
  deriving DecidableEq

def optionalString : Option Value → Option (Option String)
  | none | some .null => some none
  | some (.string s) => some (some s)
  | some _ => none

def windowEventOf (payload : Value) : Option WindowEvent :=
  match payload with
  | .object _ => do
    some ⟨← optionalString (payload.get "window_id"), ← (payload.get "generation").bind Value.asU64⟩
  | .array [windowId, generation] => do some ⟨← optionalString (some windowId), ← generation.asU64⟩
  | _ => none

def windowStateOf (payload : Value) : Option WindowState :=
  (windowEventOf payload).map (fun window => ⟨window.windowId, window.generation⟩)

def eventPhaseOf : Value → Option EventPhase
  | .string "request" | .object [("request", .null)] => some .request
  | .string "response" | .object [("response", .null)] => some .response
  | _ => none

def toolCallOf (payload : Value) : Option ConversationToolCall :=
  match payload with
  | .object _ => do
    some ⟨← (payload.get "phase").bind eventPhaseOf, ← (payload.get "tool_call_id").bind Value.asStr,
      ← (payload.get "name").bind Value.asStr, ← payload.get "arguments"⟩
  | .array [phase, id, name, arguments] => do some ⟨← eventPhaseOf phase, ← id.asStr, ← name.asStr, arguments⟩
  | _ => none

def toolResultOf (payload : Value) : Option ConversationToolResult :=
  match payload with
  | .object _ => do
    some ⟨← (payload.get "phase").bind eventPhaseOf, ← (payload.get "tool_call_id").bind Value.asStr,
      ← payload.get "content"⟩
  | .array [phase, id, content] => do some ⟨← eventPhaseOf phase, ← id.asStr, content⟩
  | _ => none

-- the other content events are read back too, but have no item id
def storedItemId (eventType : String) (payload : Value) : Option String :=
  if eventType = "tool_call" then (toolCallOf payload).bind (fun toolCall => itemId (.toolCall toolCall))
  else if eventType = "tool_result" then (toolResultOf payload).bind (fun toolResult => itemId (.toolResult toolResult))
  else none

def pushRef (refs : Std.ExtTreeMap Bytes (List ℕ)) (identity : Bytes) (seq : ℕ) : Std.ExtTreeMap Bytes (List ℕ) :=
  refs.insert identity (refs.getD identity [] ++ [seq])

namespace ThreadState

def empty (relativePath : String) : ThreadState := { relativePath := relativePath }

def isEmpty (state : ThreadState) : Bool := state.lineCount = 0

def windowChanged (state : ThreadState) (session : SessionContext) : Bool :=
  match state.window with
  | some window => window.generation ≠ session.generation || window.windowId ≠ session.windowId
  | none => !state.isEmpty && (0 < session.generation || session.windowId.isSome)

variable (env : Env)

def observe (state : ThreadState) (event : ConversationEvent) : ThreadState :=
  if event.eventType = "window" then { state with window := windowStateOf event.payload, eventRefs := ∅ }
  else if isContentEvent event.eventType then
    { state with
      eventRefs := pushRef state.eventRefs (eventIdentity env event.eventType event.payload) event.seq
      contentEventCount := state.contentEventCount + 1
      itemRefs := match storedItemId event.eventType event.payload with
        | some id => state.itemRefs.insert (itemRefKey event.eventType id) event.seq
        | none => state.itemRefs }
  else state

def fromEvents (relativePath : String) (stamp : FileStamp) (format : ConversationFormat)
    (events : List ConversationEvent) (lineCount seq : ℕ) : ThreadState :=
  { events.foldl (observe env) (empty relativePath) with
    format := format
    stamp := stamp
    lineCount := lineCount
    seq := seq
    content := ContentHash.fromEvents env events }

end ThreadState

abbrev Disk := String → Option File

def checkedAbsolutePath (relative : String) : Except RolloutError String :=
  let cs := relative.toList
  if relative = "" || cs.head? = some '/' || cs.head? = some '\\' || '\\' ∈ cs || ':' ∈ cs ||
      (cs.splitOn '/').any (fun segment => segment = [] || segment = ['.'] || segment = ['.', '.']) then
    .error (.invalidPath relative)
  else .ok relative

def threadRelative (identityId threadId : String) : String := identityId ++ "/" ++ threadId ++ ".jsonl"

def recoveredThreadPath (identityId threadId : String) (index : ℕ) : String :=
  if index = 1 then identityId ++ "/" ++ threadId ++ ".recovered.jsonl"
  else identityId ++ "/" ++ threadId ++ ".recovered-" ++ toString index ++ ".jsonl"

def maxRecoveredSegments : ℕ := 10

def threadCandidatePaths (identityId threadId : String) : List String :=
  threadRelative identityId threadId ::
    (List.range maxRecoveredSegments).map (fun i => recoveredThreadPath identityId threadId (i + 1))

inductive ThreadCandidate where
  | missing
  | corrupt
  | events (parsed : ParsedConversation) (stamp : FileStamp)

section load

variable (env : Env)

def readThreadCandidate (disk : Disk) (relative : String) : Except RolloutError (ThreadCandidate × Disk) := do
  let path ← checkedAbsolutePath relative
  match readThreadEvents env (disk path) with
  | .ok (some (parsed, file)) =>
    .ok (.events parsed (FileStamp.fromMetadata file), Function.update disk path (some file))
  | .ok none => .ok (.missing, disk)
  | .error .serialize => .ok (.corrupt, disk)
  | .error error => .error error

def candidateState (relative : String) (parsed : ParsedConversation) (stamp : FileStamp) : ThreadState :=
  ThreadState.fromEvents env relative stamp parsed.format parsed.events parsed.lineCount parsed.lastSeq

/-- The recovered segments from an index on; a missing first segment of a missing thread leaves the base path. -/
def loadRecovered (identityId threadId : String) (baseMissing : Bool) (disk : Disk) :
    List ℕ → Except RolloutError (ThreadState × Disk)
  | [] => .error (.invalidPath ("thread " ++ threadId ++
      if baseMissing then " has too many corrupt recovered segments" else " has too many corrupt segments"))
  | index :: indexes => do
    let candidate := recoveredThreadPath identityId threadId index
    let (result, disk) ← readThreadCandidate env disk candidate
    match result with
    | .events parsed stamp => .ok (candidateState env candidate parsed stamp, disk)
    | .corrupt => loadRecovered identityId threadId baseMissing disk indexes
    | .missing => .ok (ThreadState.empty
        (if baseMissing && index = 1 then threadRelative identityId threadId else candidate), disk)

def loadThreadSource (disk : Disk) (identityId threadId : String) : Except RolloutError (ThreadState × Disk) := do
  let base := threadRelative identityId threadId
  let (result, disk) ← readThreadCandidate env disk base
  let indexes := (List.range maxRecoveredSegments).map (· + 1)
  match result with
  | .events parsed stamp => .ok (candidateState env base parsed stamp, disk)
  | .missing => loadRecovered env identityId threadId true disk indexes
  | .corrupt => loadRecovered env identityId threadId false disk indexes

end load

end Prelay.Rollout
