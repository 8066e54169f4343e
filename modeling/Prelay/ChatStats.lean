import Prelay.Sse
import Prelay.ChatEvent

namespace Prelay.Bridge

open Json

/-- What `ChatSseStatsDecoder` keeps beside its line buffer. -/
structure ChatStats where
  toolCalls : Std.ExtTreeMap ℕ ChatToolCallState := ∅
  completed : Bool := false
  stats : StreamStatsSnapshot := {}

namespace ChatStats

def record (st : ChatStats) (event : InternalStreamEvent) : ChatStats :=
  { st with stats := st.stats.recordEvent event }

def takeToolCallDelta (st : ChatStats) : InternalStreamEvent → ChatStats
  | .toolCallDelta index id name arguments =>
    let state := st.toolCalls.getD index {}
    { st with toolCalls := st.toolCalls.insert index { state with
      id := id.getD state.id
      name := name.getD state.name
      arguments := state.arguments ++ arguments.getD "" } }
  | _ => st

def complete (st : ChatStats) : ChatStats :=
  if st.completed then st
  else
    let unfinished := st.toolCalls.toList.filter (fun p => !p.2.done)
    let doneEvents := unfinished.map (fun p =>
      InternalStreamEvent.toolCallDone p.1 p.2.id p.2.name p.2.arguments)
    { completed := true
      toolCalls := st.toolCalls.map (fun _ (t : ChatToolCallState) => { t with done := true })
      stats := st.stats.recordEvents (doneEvents ++ [.finished .stop]) }

def processEvent (serde : SerdeJson) (st : ChatStats) (data : String) : ChatStats :=
  if isDone data then st.complete
  else (internalEventsOf serde data).foldl (fun st event => (st.takeToolCallDelta event).record event) st

end ChatStats

abbrev ChatSseStatsDecoder := Sse.Reader ChatStats

namespace ChatSseStatsDecoder

variable (serde : SerdeJson)

def handle (st : ChatStats) (data : String) : ChatStats × List Bytes := (st.processEvent serde data, [])

def pushChunk (dec : ChatSseStatsDecoder) (chunk : Bytes) : ChatSseStatsDecoder × List Bytes :=
  ((Sse.Reader.pushChunk (handle serde) Sse.stripSpace dec chunk).1, [chunk])

def flushTail (dec : ChatSseStatsDecoder) : ChatSseStatsDecoder :=
  let dec :=
    if dec.lineBuffer = [] then dec
    else (Sse.Reader.processLine (handle serde) Sse.stripSpace { dec with lineBuffer := [] } dec.lineBuffer).1
  (dec.flushEvent (handle serde)).1

def finish (dec : ChatSseStatsDecoder) : ChatSseStatsDecoder × List Bytes :=
  let dec := dec.flushTail serde
  ({ dec with inner := dec.inner.complete }, [])

end ChatSseStatsDecoder

end Prelay.Bridge
