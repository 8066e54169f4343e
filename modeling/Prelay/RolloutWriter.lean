import Prelay.PersistedIndex

namespace Prelay.Rollout

open Json

structure Store where
  disk : Disk
  index : Option PersistedThreadIndex := none
  cache : Option ThreadState := none

def indexRelative (threadRelative : String) : String := threadRelative ++ ".index"

def cachedThread (store : Store) : Except RolloutError (Option ThreadState) :=
  match store.cache with
  | none => .ok none
  | some state => do
    let path ← checkedAbsolutePath state.relativePath
    .ok (if metadataStamp store.disk path = some state.stamp then some state else none)

def persistThreadIndex (store : Store) (threadPath : String) (state : ThreadState) : Store :=
  { store with index := (writeThreadIndex store.disk threadPath state.relativePath state).or store.index }

def resolveThreadSource (env : Env) (store : Store) (identityId threadId : String) :
    Except RolloutError (ThreadState × Store) := do
  match ← cachedThread store with
  | some state => .ok (state, store)
  | none =>
    let _ ← checkedAbsolutePath (indexRelative (threadRelative identityId threadId))
    match loadPersistedThread store.disk store.index identityId threadId with
    | some state => .ok (state, { store with cache := some state })
    | none =>
      let (state, disk) ← loadThreadSource env store.disk identityId threadId
      .ok (state, persistThreadIndex { store with disk := disk, cache := some state }
        (threadRelative identityId threadId) state)

/-- A writer; `pending` are the lines it has made and not yet written. -/
structure RolloutWriter where
  activityId : String
  threadId : String
  windowId : Option String
  generation : ℕ
  format : ConversationFormat
  turnId : String
  relativePath : String
  threadPath : String
  hashed : Bytes := []
  seq : ℕ
  lineCount : ℕ
  startLine : ℕ
  endLine : ℕ
  byteSize : ℕ := 0
  expectedLen : ℕ
  eventCount : ℕ := 0
  content : ContentHash
  eventRefs : Std.ExtTreeMap Bytes (List ℕ)
  itemRefs : Std.ExtTreeMap String ℕ
  contentEventCount : ℕ
  windowState : Option WindowState
  status : RolloutStatus := .writing
  finished : Bool := false
  pending : List Bytes := []

def eventValue (event : ConversationEvent) : Value :=
  .object [("seq", .nat event.seq), ("time", .string event.time), ("type", .string event.eventType),
    ("payload", event.payload)]

def metaValue (header : ConversationMeta) : Value :=
  .object [("v", .nat header.v), ("type", .string header.kind), ("thread_id", .string header.threadId),
    ("created_at", .string header.createdAt)]

def jsonLine (serde : SerdeJson) (value : Value) : Bytes := Str.utf8 (serde.toStr value) ++ [10]

namespace RolloutWriter

variable (env : Env)

def writeLine (w : RolloutWriter) (line : Bytes) : RolloutWriter :=
  { w with
    pending := w.pending ++ [line]
    hashed := w.hashed ++ line
    byteSize := w.byteSize + line.length
    lineCount := w.lineCount + 1
    endLine := w.lineCount + 1 }

def writeMeta (w : RolloutWriter) : RolloutWriter :=
  w.writeLine (jsonLine env.serde (metaValue { threadId := w.threadId, createdAt := env.time (w.lineCount + 1) }))

def nextEvent (w : RolloutWriter) (eventType : String) (payload : Value) : ConversationEvent :=
  ⟨w.seq + 1, env.time (w.lineCount + 1), eventType, payload⟩

def recordEvent (w : RolloutWriter) (eventType : String) (payload : Value) (content : Bool) : RolloutWriter :=
  let event := w.nextEvent env eventType payload
  let w := { w with
    content := if content then w.content.append env eventType payload else w.content
    seq := event.seq }
  let w := w.writeLine (jsonLine env.serde (eventValue event))
  let w := { w with eventCount := w.eventCount + 1 }
  if content && isContentEvent eventType then
    { w with
      eventRefs := pushRef w.eventRefs (eventIdentity env eventType payload) event.seq
      contentEventCount := w.contentEventCount + 1 }
  else w

def writeEvent (w : RolloutWriter) (eventType : String) (payload : Value) (content : Bool) :
    Except RolloutError (ℕ × RolloutWriter) :=
  if w.finished then .error (.invalidPath "rollout is already finished")
  else .ok (w.seq + 1, w.recordEvent env eventType payload content)

def keepItem (w : RolloutWriter) (key : Option String) (seq : ℕ) : RolloutWriter :=
  match key with
  | some key => { w with itemRefs := w.itemRefs.insert key seq }
  | none => w

def appendContent (w : RolloutWriter) (draft : ContentDraft) : Except RolloutError (ℕ × RolloutWriter) := do
  let (eventType, payload) ← draftEventParts env draft
  let (seq, w) ← w.writeEvent env eventType payload true
  .ok (seq, w.keepItem (draftKey eventType draft) seq)

def appendControl (w : RolloutWriter) (body : ControlEventBody) : Except RolloutError RolloutWriter := do
  let (eventType, payload) ← eventParts env body
  let w := if eventType = "window" then { w with windowState := windowStateOf payload, eventRefs := ∅ } else w
  let (_, w) ← w.writeEvent env eventType payload false
  .ok w

def existingRef (w : RolloutWriter) (key : Option String) (identity : Bytes) (occurrence : ℕ) : Option ℕ :=
  (key.bind (fun key => w.itemRefs[key]?)).or (w.eventRefs.getD identity [])[occurrence]?

def referDraft (w : RolloutWriter) (occurrences : Std.ExtTreeMap Bytes ℕ) (draft : ContentDraft) :
    Except RolloutError (ℕ × Std.ExtTreeMap Bytes ℕ × RolloutWriter) := do
  let (eventType, payload) ← draftEventParts env draft
  let identity := eventIdentity env eventType payload
  let occurrence := occurrences.getD identity 0
  let key := draftKey eventType draft
  let (seq, w) ← match w.existingRef key identity occurrence with
    | some seq => .ok (seq, w)
    | none => w.writeEvent env eventType payload true
  .ok (seq, occurrences.insert identity (occurrence + 1), w.keepItem key seq)

def referDrafts (w : RolloutWriter) (occurrences : Std.ExtTreeMap Bytes ℕ) :
    List ContentDraft → Except RolloutError (List ℕ × RolloutWriter)
  | [] => .ok ([], w)
  | draft :: drafts => do
    let (seq, occurrences, w) ← w.referDraft env occurrences draft
    let (refs, w) ← w.referDrafts occurrences drafts
    .ok (seq :: refs, w)

def appendRequestEvents (w : RolloutWriter) (drafts : List ContentDraft) : Except RolloutError RolloutWriter := do
  let (refs, w) ← w.referDrafts env ∅ drafts
  w.appendControl env (.context refs)

def summaryWithStatus (w : RolloutWriter) (status : RolloutStatus) : RolloutSummary where
  activityId := w.activityId
  threadId := w.threadId
  windowId := w.windowId
  generation := w.generation
  relativePath := w.relativePath
  status := status
  startLine := w.startLine
  endLine := w.endLine
  eventCount := w.eventCount
  byteSize := w.byteSize
  sha256 := hexDigest (env.sha256 w.hashed)

def fromState (state : ThreadState) (threadPath : String) (session : SessionContext) (turn : TurnContext)
    (turnId : String) : RolloutWriter where
  activityId := turn.activityId
  threadId := session.threadId
  windowId := session.windowId
  generation := session.generation
  format := if state.isEmpty then .v1 else state.format
  turnId := turnId
  relativePath := state.relativePath
  threadPath := threadPath
  seq := state.seq
  lineCount := state.lineCount
  startLine := state.lineCount + 1
  endLine := state.lineCount
  expectedLen := state.stamp.len
  content := state.content
  eventRefs := state.eventRefs
  itemRefs := state.itemRefs
  contentEventCount := state.contentEventCount
  windowState := state.window

def startTurn (w : RolloutWriter) (state : ThreadState) (session : SessionContext) (turn : TurnContext) :
    Except RolloutError RolloutWriter := do
  let w := if state.isEmpty then w.writeMeta env else w
  let w ← if state.isEmpty || state.window.isNone || state.windowChanged session then
      w.appendControl env (.window ⟨session.windowId, session.generation⟩)
    else .ok w
  w.appendControl env (.turn ⟨w.turnId, w.activityId, turn.modelRequested, turn.modelUpstream⟩)

def openTurn (w : RolloutWriter) (state : ThreadState) (session : SessionContext) (turn : TurnContext)
    (requestEvents : List ContentDraft) : Except RolloutError RolloutWriter := do
  let w ← w.startTurn env state session turn
  w.appendRequestEvents env requestEvents

def threadState (w : RolloutWriter) (stamp : FileStamp) : ThreadState where
  relativePath := w.relativePath
  format := w.format
  stamp := stamp
  lineCount := w.lineCount
  seq := w.seq
  window := w.windowState
  content := w.content
  eventRefs := w.eventRefs
  itemRefs := w.itemRefs
  contentEventCount := w.contentEventCount

end RolloutWriter

def Disk.appendLine (disk : Disk) (path : String) (line : Bytes) (modified : Option ℕ) : Disk :=
  Function.update disk path (some ⟨((disk path).map File.bytes).getD [] ++ line, modified⟩)

section store

variable (env : Env)

def beginTurn (identityId : String) (session : SessionContext) (turn : TurnContext) (turnId : String)
    (requestEvents : List ContentDraft) (store : Store) : Except RolloutError (RolloutWriter × Store) := do
  if !isSafePathSegment identityId then
    .error (.invalidPath ("identity id is not a safe path segment: " ++ identityId))
  else if !isSafePathSegment session.threadId then
    .error (.invalidPath ("thread id is not a safe path segment: " ++ session.threadId))
  else
    let (state, store) ← resolveThreadSource env store identityId session.threadId
    let _ ← checkedAbsolutePath state.relativePath
    let threadPath ← checkedAbsolutePath (threadRelative identityId session.threadId)
    let _ ← checkedAbsolutePath (indexRelative threadPath)
    let w ← (RolloutWriter.fromState state threadPath session turn turnId).openTurn env state session turn requestEvents
    .ok (w, store)

def writePendingLine (w : RolloutWriter) (disk : Disk) : RolloutWriter × Disk :=
  match w.pending with
  | [] => (w, disk)
  | line :: rest =>
    ({ w with pending := rest }, disk.appendLine w.relativePath line (env.modified (w.lineCount - rest.length)))

def writePendingLines (path : String) (lineCount : ℕ) (disk : Disk) : List Bytes → Disk
  | [] => disk
  | line :: rest =>
    writePendingLines path lineCount (disk.appendLine path line (env.modified (lineCount - rest.length))) rest

def flushWriter (w : RolloutWriter) (store : Store) : RolloutWriter × Store :=
  ({ w with pending := [] },
    { store with disk := writePendingLines env w.relativePath w.lineCount store.disk w.pending })

/-- The end of `finish_with`: the state is kept unless the file was changed behind the writer. -/
def publishState (w : RolloutWriter) (store : Store) : Store :=
  match metadataStamp store.disk w.relativePath with
  | none => store
  | some stamp =>
    if stamp.len ≠ w.expectedLen + w.byteSize then store
    else persistThreadIndex { store with cache := some (w.threadState stamp) } w.threadPath (w.threadState stamp)

def endTurn (w : RolloutWriter) (status : RolloutStatus) (httpStatus : Option ℕ) (errorCode : Option String) :
    Except RolloutError RolloutWriter :=
  w.appendControl env (.turnEnd ⟨status, httpStatus, errorCode⟩)

def closeWriter (w : RolloutWriter) (status : RolloutStatus) : RolloutWriter :=
  { w with status := status, finished := true }

def finishWith (w : RolloutWriter) (status : RolloutStatus) (httpStatus : Option ℕ) (errorCode : Option String)
    (store : Store) : Except RolloutError (RolloutSummary × RolloutWriter × Store) := do
  if w.finished then .ok (w.summaryWithStatus env w.status, w, store)
  else
    let w ← endTurn env w status httpStatus errorCode
    let (w, store) := flushWriter env w store
    let store := publishState w store
    let w := closeWriter w status
    .ok (w.summaryWithStatus env w.status, w, store)

end store

end Prelay.Rollout
