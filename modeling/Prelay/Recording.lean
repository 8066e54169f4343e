import Prelay.ContentCapture
import Prelay.StreamEvents
import Prelay.RolloutEvents
import Prelay.Internal

namespace Prelay.Recording

open Json Bridge Rollout

inductive RecordingMode where
  | required | bestEffort
  deriving DecidableEq

inductive ActivityStatus where
  | streaming | failed | success
  deriving DecidableEq

structure ActivityInsert where
  status : ActivityStatus
  httpStatus : ℕ
  errorCode : Option String := none
  errorMessage : Option String := none
  deriving DecidableEq

/-- No status stands for the empty text, which leaves the status of the row as it is. -/
structure StreamActivityUpdate where
  status : Option ActivityStatus
  httpStatus : ℕ
  errorCode : Option String := none
  errorMessage : Option String := none
  inputTokens : Option ℕ
  outputTokens : Option ℕ
  reasoningTokens : Option ℕ := none
  cacheReadTokens : Option ℕ
  cacheWriteTokens : Option ℕ
  toolCallCount : Option ℕ
  deriving DecidableEq

/-- A write that the recorder asks the database or the rollout writer for. -/
inductive Effect where
  | startStream (log : ActivityInsert)
  | insertStreamResult (log : ActivityInsert)
  | updateStream (update : StreamActivityUpdate)
  | saveResponseState (insert : ResponseStateInsert)
  | appendContent (draft : ContentDraft)
  | finishWith (status : RolloutStatus) (httpStatus : Option ℕ) (errorCode errorMessage : Option String)
  | completeStream
  deriving DecidableEq

structure Storage where
  startStream : Bool := true
  insertStreamResult : Bool := true
  appendContent : ContentDraft → Bool := fun _ => true
  finishWith : Bool := true

structure Env where
  serde : SerdeJson
  storage : Storage := {}
  streamCapture : RawStreamContentCapture → List ContentDraft
  streamSnapshot : StreamStatsSnapshot → List ContentDraft

structure StreamRecordState where
  identityId : String
  stats : StreamStatsSnapshot := {}
  log : Option ActivityInsert
  contentCapture : Option RawStreamContentCapture := none
  rollout : Bool
  session : Option StreamSession := none
  mode : RecordingMode
  inserted : Bool := false
  failed : Bool := false
  usageRecorded : Bool := false
  rolloutFinalized : Bool := false
  effects : List Effect := []

def completedToolCallItems (snapshot : StreamStatsSnapshot) : List InternalOutputItem :=
  (snapshot.completedToolCalls.filter (fun t => t.1 ≠ "" ∧ t.2.1 ≠ "")).map
    (fun t => .functionToolCall t.1 t.2.1 t.2.2 none)

def responseFromStreamSession (session : StreamSession) (snapshot : StreamStatsSnapshot) :
    Option InternalResponse :=
  if !snapshot.completed then none
  else if Str.trim session.responseId = "" then none
  else some {
    id := session.responseId
    model := session.model
    output := (if snapshot.outputText = "" then []
      else [.message "msg_0" .assistant [.text snapshot.outputText]]) ++ completedToolCallItems snapshot
    usage := some {
      inputTokens := snapshot.inputTokens.map Int.ofNat
      outputTokens := snapshot.outputTokens.map Int.ofNat
      reasoningTokens := none
      cacheReadTokens := snapshot.cacheReadTokens.map Int.ofNat
      cacheWriteTokens := snapshot.cacheWriteTokens.map Int.ofNat } }

def responseStateInsert (identityId : String) (session : StreamSession) (response : InternalResponse)
    (snapshot : StreamStatsSnapshot) : ResponseStateInsert where
  identityId := identityId
  responseId := session.responseId
  previousResponseId := session.previousResponseId
  conversationId := session.conversationId
  providerId := session.providerId
  model := session.model
  upstreamResponseId := snapshot.upstreamResponseId
  requestItems := .array session.requestItems
  responseItems := .array snapshot.responseOutputItems
  inputMessages := session.inputMessages
  response := response

def saveStreamStateIfReady (slot : Option StreamSession) (identityId : String) (snapshot : StreamStatsSnapshot) :
    Option StreamSession × List ResponseStateInsert :=
  match slot with
  | none => (none, [])
  | some session =>
    if !snapshot.completed then (some session, [])
    else if snapshot.responseOutputItems = [] then (none, [])
    else match responseFromStreamSession session snapshot with
      | none => (some session, [])
      | some response => (none, [responseStateInsert identityId session response snapshot])

def finalRolloutStatus (status : RolloutStatus) (appendFailed : Bool) : RolloutStatus :=
  if appendFailed ∧ status = .completed then .partly else status

namespace StreamRecordState

def emit (s : StreamRecordState) (effects : List Effect) : StreamRecordState :=
  { s with effects := s.effects ++ effects }

def update (s : StreamRecordState) (status : Option ActivityStatus) (httpStatus : ℕ)
    (errorCode errorMessage : Option String) : StreamRecordState :=
  s.emit [.updateStream {
    status := status
    httpStatus := httpStatus
    errorCode := errorCode
    errorMessage := errorMessage
    inputTokens := s.stats.inputTokens
    outputTokens := s.stats.outputTokens
    cacheReadTokens := s.stats.cacheReadTokens
    cacheWriteTokens := s.stats.cacheWriteTokens
    toolCallCount := some s.stats.toolCallCount }]

def streamCompleted (s : StreamRecordState) : Bool :=
  match s.contentCapture with
  | some capture => capture.isCompleted
  | none => s.stats.completed

def saveSessionIfReady (s : StreamRecordState) : StreamRecordState :=
  let saved := saveStreamStateIfReady s.session s.identityId s.stats
  { s with session := saved.1 }.emit (saved.2.map .saveResponseState)

def recordFinalUsage (s : StreamRecordState) : StreamRecordState :=
  if s.usageRecorded || !s.stats.finalUsageSeen then s
  else { s with usageRecorded := true }.update none 200 none none

def markRolloutIncomplete (s : StreamRecordState) : StreamRecordState :=
  s.update (some .failed) 502 (some "activity_rollout_incomplete")
    (some "activity rollout body could not be fully written")

variable (env : Env)

/-- The events that close a turn: what the stream held, then its error. -/
def closingEvents (s : StreamRecordState) (httpStatus : Option ℕ) (errorCode errorMessage : Option String) :
    List ContentDraft :=
  (match s.contentCapture with
    | some capture => env.streamCapture (capture.finish env.serde)
    | none => env.streamSnapshot s.stats) ++
  errorMessage.toList.map (fun message => { body := .error {
    code := errorCode
    message := message
    httpStatus := httpStatus } })

def finalizeRollout (s : StreamRecordState) (status : RolloutStatus) (httpStatus : Option ℕ)
    (errorCode errorMessage : Option String) : StreamRecordState :=
  if s.rolloutFinalized || !s.rollout then s
  else
    let events := s.closingEvents env httpStatus errorCode errorMessage
    let appendFailed := events.any (fun event => !env.storage.appendContent event)
    let status := finalRolloutStatus status appendFailed
    let s := emit { s with
        rollout := false
        contentCapture := s.contentCapture.map (RawStreamContentCapture.finish env.serde) }
      (events.map .appendContent ++ [.finishWith status httpStatus errorCode errorMessage])
    let s :=
      if env.storage.finishWith && s.inserted then
        (if appendFailed then s.markRolloutIncomplete else s).emit [.completeStream]
      else s
    { s with rolloutFinalized := true }

/-- The activity row of the first item; false when the caller gets the storage error. -/
def start (s : StreamRecordState) (item : Except String Bytes) : StreamRecordState × Bool :=
  match s.log with
  | none => (s, true)
  | some log =>
    let (s, log) := match item with
      | .ok _ => ({ s with log := none }, { log with status := .streaming })
      | .error error => ({ s with log := none, failed := true }, { log with
          status := .failed
          httpStatus := 502
          errorCode := some "stream_error"
          errorMessage := some error })
    if !s.rollout then (s, false)
    else
      let s := s.emit [.startStream log]
      if env.storage.startStream then ({ s with inserted := true }, true)
      else match s.mode with
        | .required => (s, false)
        | .bestEffort => ({ s with failed := true }, true)

def recordStreamError (s : StreamRecordState) (message : String) : StreamRecordState :=
  let s := { s with failed := true, session := none }.update (some .failed) 502 (some "stream_error") (some message)
  s.finalizeRollout env .failed (some 502) (some "stream_error") (some message)

def observeItem (s : StreamRecordState) (item : Except String Bytes) : StreamRecordState :=
  let s := match item with
    | .error error =>
      if !s.inserted then s
      else if s.failed then s.finalizeRollout env .failed (some 502) (some "stream_error") (some error)
      else s.recordStreamError env error
    | .ok _ => s
  let s := match item with
    | .ok chunk =>
      { s with contentCapture := s.contentCapture.map (fun capture => capture.observeChunk env.serde chunk) }
    | .error _ => s
  if s.inserted && !s.failed then s.recordFinalUsage.saveSessionIfReady else s

def recordStreamEnd (s : StreamRecordState) : StreamRecordState :=
  if !s.inserted then s
  else if s.failed then
    s.finalizeRollout env .failed (some 502) (some "stream_error") (some "upstream stream failed")
  else if !s.streamCompleted then
    s.recordStreamError env "upstream stream ended before a completion event"
  else
    let s := s.saveSessionIfReady.update (some .success) 200 none none
    s.finalizeRollout env .completed (some 200) none none

def recordDownstreamDisconnect (s : StreamRecordState) : StreamRecordState :=
  let s :=
    if s.failed then s
    else { s with failed := true, session := none }.update (some .failed) 499
      (some "downstream_disconnect") (some "downstream client disconnected")
  s.finalizeRollout env .failed (some 499) (some "downstream_disconnect")
    (some "downstream client disconnected")

def recordEmptyStream (s : StreamRecordState) : StreamRecordState × Bool :=
  match s.log with
  | none => (s, true)
  | some log =>
    let message := "upstream stream finished without chunks"
    let log := { log with
      status := .failed
      httpStatus := 502
      errorCode := some "empty_stream"
      errorMessage := some message }
    let s := { s with log := none }
    if !s.rollout then (s, s.mode = .bestEffort)
    else
      let s := { s with rollout := false }.emit [
        .appendContent { body := .error {
          code := some "empty_stream"
          message := message
          httpStatus := some 502 } },
        .finishWith .failed (some 502) (some "empty_stream") (some message)]
      if !env.storage.finishWith then (s, s.mode = .bestEffort)
      else
        let s := s.emit [.insertStreamResult log]
        if env.storage.insertStreamResult then
          ({ s with inserted := true, failed := true, rolloutFinalized := true }, true)
        else (s, s.mode = .bestEffort)

end StreamRecordState

/-- What happens to a stream that is being recorded. An item carries the statistics at the time it is
taken and says whether the client still receives it. -/
inductive Input where
  | item (item : Except String Bytes) (stats : StreamStatsSnapshot) (delivered : Bool)
  | ended (stats : StreamStatsSnapshot)
  | drainTimeout (stats : StreamStatsSnapshot)

def Input.stats : Input → StreamStatsSnapshot
  | .item _ stats _ => stats
  | .ended stats => stats
  | .drainTimeout stats => stats

/-- The recorder with the task that forwards its stream; `connected` holds while the client listens. -/
structure Forwarding where
  state : StreamRecordState
  started : Bool := false
  connected : Bool := true
  finished : Bool := false

def recorder (identityId : String) (log : ActivityInsert) (capture : Option RawStreamContentCapture)
    (rollout : Bool) (session : Option StreamSession) (mode : RecordingMode) : Forwarding :=
  { state := {
      identityId := identityId
      log := some log
      contentCapture := capture
      rollout := rollout
      session := session
      mode := mode } }

def isFailedItem : Except String Bytes → Bool
  | .ok _ => false
  | .error _ => true

/-- The first item, up to the point where the client has it. -/
def prepareStream (env : Env) (f : Forwarding) : Input → Forwarding
  | .item item stats delivered =>
    let (state, ok) := { f.state with stats := stats }.start env item
    if !ok then { f with state := state, started := true, finished := true }
    else { state := state.observeItem env item, started := true, connected := delivered,
           finished := isFailedItem item }
  | .ended stats =>
    { f with state := ({ f.state with stats := stats }.recordEmptyStream env).1, started := true, finished := true }
  | .drainTimeout _ => f

def forwardStep (env : Env) (f : Forwarding) : Input → Forwarding
  | .item item stats delivered =>
    { f with state := { f.state with stats := stats }.observeItem env item
             connected := f.connected && delivered
             finished := isFailedItem item }
  | .ended stats =>
    let state := { f.state with stats := stats }
    { f with state := if f.connected then state.recordStreamEnd env else state.recordDownstreamDisconnect env
             finished := true }
  | .drainTimeout stats =>
    if f.connected then f
    else { f with state := { f.state with stats := stats }.recordDownstreamDisconnect env, finished := true }

def step (env : Env) (f : Forwarding) (input : Input) : Forwarding :=
  if f.finished then f
  else if f.started then forwardStep env f input
  else prepareStream env f input

def run (env : Env) (f : Forwarding) (inputs : List Input) : Forwarding := inputs.foldl (step env) f

end Prelay.Recording
