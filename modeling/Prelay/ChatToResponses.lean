import Prelay.Sse
import Prelay.ChatEvent
import Prelay.ResponsesEncode

namespace Prelay.Bridge

open Json

/-- What `ChatToResponsesSseDecoder` keeps beside its line buffer. -/
structure ChatToResponses where
  toolCalls : Std.ExtTreeMap ℕ ChatToolCallState := ∅
  responseId : String
  completed : Bool := false
  usage : Option StreamUsage := none
  finishReason : Option InternalFinishReason := none
  stats : StreamStatsSnapshot := {}

namespace ChatToResponses

def new (responseId : String) : ChatToResponses := { responseId := responseId }

def toolCallDeltaToResponsesSse (st : ChatToResponses) (delta : ChatToolCallDelta) :
    ChatToResponses × List ResponsesChunk :=
  let state := st.toolCalls.getD delta.index {}
  let state := { state with id := delta.id.getD state.id, name := delta.name.getD state.name }
  let added := if state.added then [] else [responsesFunctionCallAddedSse delta.index state]
  let state := { state with added := true, arguments := state.arguments ++ delta.arguments.getD "" }
  let arguments := delta.arguments.toList.map (responsesFunctionCallArgumentsDeltaSse delta.index state)
  ({ st with toolCalls := st.toolCalls.insert delta.index state }, added ++ arguments)

def internalEventToResponsesSse (st : ChatToResponses) :
    InternalStreamEvent → ChatToResponses × List ResponsesChunk
  | .textDelta delta => (st, [responsesTextDeltaSse delta])
  | .toolCallDelta index id name arguments => st.toolCallDeltaToResponsesSse ⟨index, id, name, arguments⟩
  | .finished reason => ({ st with finishReason := some reason }, [])
  | .toolCallDone _ _ _ _ | .usage _ | .reasoningDelta _ => (st, [])

def recordInternalEvent (st : ChatToResponses) (event : InternalStreamEvent) : ChatToResponses :=
  { st with stats := st.stats.recordEvent event }

def takeUsage (st : ChatToResponses) : InternalStreamEvent → ChatToResponses
  | .usage usage => { st with usage := some usage }
  | _ => st

def processInternalEvent (st : ChatToResponses) (event : InternalStreamEvent) :
    ChatToResponses × List ResponsesChunk :=
  ((st.takeUsage event).recordInternalEvent event).internalEventToResponsesSse event

def processInternalEvents (st : ChatToResponses) :
    List InternalStreamEvent → ChatToResponses × List ResponsesChunk
  | [] => (st, [])
  | event :: events =>
    let (st, out) := st.processInternalEvent event
    let (st, rest) := st.processInternalEvents events
    (st, out ++ rest)

def messageItem (outputText : String) : Value :=
  .json [
    ("type", .string "message"),
    ("id", .string "msg_0"),
    ("status", .string "completed"),
    ("role", .string "assistant"),
    ("content", .array [.json [
      ("type", .string "output_text"),
      ("text", .string outputText),
      ("annotations", .array [])]])]

def functionCallItem (toolCall : ChatToolCallState) : Value :=
  .json [
    ("type", .string "function_call"),
    ("id", .string toolCall.id),
    ("call_id", .string toolCall.id),
    ("name", .string toolCall.name),
    ("arguments", .string toolCall.arguments),
    ("status", .string "completed")]

def responseOutputItems (st : ChatToResponses) : List Value :=
  (if st.stats.outputText = "" then [] else [messageItem st.stats.outputText]) ++
    (st.toolCalls.toList.filter (fun p => p.2.id ≠ "" ∧ p.2.name ≠ "")).map (fun p => functionCallItem p.2)

def recordResponseId (st : ChatToResponses) : ChatToResponses :=
  { st with stats := { st.stats with
    upstreamResponseId := none
    responseOutputItems := st.responseOutputItems } }

def toolCallDoneEvent (index : ℕ) (t : ChatToolCallState) : InternalStreamEvent :=
  .toolCallDone index t.id t.name t.arguments

def finishResponse (st : ChatToResponses) : ChatToResponses × List ResponsesChunk :=
  let unfinished := st.toolCalls.toList.filter (fun p => !p.2.done)
  let output := unfinished.flatMap (fun p => responsesToolCallDoneSse p.1 { p.2 with done := true })
  let eventsToRecord := unfinished.map (fun p => toolCallDoneEvent p.1 p.2)
  let usageEvent := InternalStreamEvent.usage (st.usage.getD {})
  let finishedEvent := InternalStreamEvent.finished (st.finishReason.getD .stop)
  let st := { st with
    toolCalls := st.toolCalls.map (fun _ (t : ChatToolCallState) => { t with done := true })
    stats := st.stats.recordEvents (eventsToRecord ++ [usageEvent, finishedEvent]) }
  let st := st.recordResponseId
  (st, output ++ [responsesCompletedSseWithUsage st.usage st.responseId st.responseOutputItems])

def processEvent (serde : SerdeJson) (st : ChatToResponses) (data : String) :
    ChatToResponses × List ResponsesChunk :=
  if st.completed then (st, [])
  else if isDone data then finishResponse { st with completed := true }
  else st.processInternalEvents (internalEventsOf serde data)

@[simp]
theorem processInternalEvent_completed (st : ChatToResponses) (event : InternalStreamEvent) :
    (st.processInternalEvent event).1.completed = st.completed := by
  cases event <;> rfl

@[simp]
theorem processInternalEvent_responseId (st : ChatToResponses) (event : InternalStreamEvent) :
    (st.processInternalEvent event).1.responseId = st.responseId := by
  cases event <;> rfl

theorem processInternalEvent_stats (st : ChatToResponses) (event : InternalStreamEvent) :
    (st.processInternalEvent event).1.stats = st.stats.recordEvent event := by
  cases event <;> rfl

theorem processInternalEvents_append (st : ChatToResponses) (es fs : List InternalStreamEvent) :
    st.processInternalEvents (es ++ fs) =
      (((st.processInternalEvents es).1.processInternalEvents fs).1,
        (st.processInternalEvents es).2 ++ ((st.processInternalEvents es).1.processInternalEvents fs).2) := by
  induction es generalizing st with
  | nil => simp [processInternalEvents]
  | cons event es ih => simp [processInternalEvents, ih]

theorem processInternalEvents_snoc (st : ChatToResponses) (events : List InternalStreamEvent)
    (event : InternalStreamEvent) :
    (st.processInternalEvents (events ++ [event])).1 =
      ((st.processInternalEvents events).1.processInternalEvent event).1 := by
  rw [processInternalEvents_append]
  rfl

end ChatToResponses

abbrev ChatToResponsesSseDecoder := Sse.Reader ChatToResponses

namespace ChatToResponsesSseDecoder

variable (serde : SerdeJson)

def new (responseId : String) : ChatToResponsesSseDecoder := { inner := .new responseId }

def pushChunk (dec : ChatToResponsesSseDecoder) (chunk : Bytes) :
    ChatToResponsesSseDecoder × List ResponsesChunk :=
  Sse.Reader.pushChunk (ChatToResponses.processEvent serde) Sse.stripSpace dec chunk

/-- An open event is read only when an unterminated line stands behind it. -/
def flushTail (dec : ChatToResponsesSseDecoder) : ChatToResponsesSseDecoder × List ResponsesChunk :=
  if dec.lineBuffer = [] then (dec, [])
  else
    let (dec, out) := Sse.Reader.processLine (ChatToResponses.processEvent serde) Sse.stripSpace
      { dec with lineBuffer := [] } dec.lineBuffer
    let (dec, rest) := dec.flushEvent (ChatToResponses.processEvent serde)
    (dec, out ++ rest)

def finish (dec : ChatToResponsesSseDecoder) : ChatToResponsesSseDecoder × List ResponsesChunk :=
  let (dec, out) := dec.flushTail serde
  if dec.inner.completed then (dec, out)
  else
    let (inner, rest) := ChatToResponses.finishResponse { dec.inner with completed := true }
    ({ dec with inner := inner }, out ++ rest)

end ChatToResponsesSseDecoder

end Prelay.Bridge
