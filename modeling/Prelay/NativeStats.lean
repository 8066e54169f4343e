import Prelay.StreamPipeline

namespace Prelay.Bridge

open Json

def decodeResponsesTextDelta (serde : SerdeJson) (data : String) : Option String :=
  match serde.fromStr data with
  | none => some data
  | some value => ((value.get "delta").bind Value.asStr).or value.asStr

def decodeResponsesResponseId (serde : SerdeJson) (data : String) : Option String := do
  let value ← serde.fromStr data
  (((value.pointer ["response", "id"]).bind Value.asStr).or ((value.get "response_id").bind Value.asStr)).filter
    (fun id => Str.trim id ≠ "")

def decodeResponsesOutputItems (serde : SerdeJson) (data : String) : Option (List Value) := do
  let value ← serde.fromStr data
  (value.pointer ["response", "output"]).bind Value.asArray

def responsesOutputIndex (value : Value) : ℕ := ((value.get "output_index").bind Value.asU64).getD 0

def responsesToolCallId (primary fallback : Value) : Option String :=
  ((((primary.get "call_id").bind Value.asStr).or ((primary.get "id").bind Value.asStr)).or
    ((fallback.get "call_id").bind Value.asStr)).or ((fallback.get "item_id").bind Value.asStr)

def isFunctionCall (item : Value) : Bool := (item.get "type").bind Value.asStr = some "function_call"

def decodeResponsesFunctionCallAdded (serde : SerdeJson) (data : String) : Option InternalStreamEvent := do
  let value ← serde.fromStr data
  let item ← value.get "item"
  if isFunctionCall item then
    some (.toolCallDelta (responsesOutputIndex value) (responsesToolCallId item value)
      ((item.get "name").bind Value.asStr)
      (((item.get "arguments").bind Value.asStr).filter (fun arguments => arguments ≠ "")))
  else none

def decodeResponsesFunctionCallArgumentsDelta (serde : SerdeJson) (data : String) : Option InternalStreamEvent := do
  let value ← serde.fromStr data
  some (.toolCallDelta (responsesOutputIndex value) (responsesToolCallId value value) none
    ((value.get "delta").bind Value.asStr))

def responsesToolCallDone (value item : Value) : InternalStreamEvent :=
  .toolCallDone (responsesOutputIndex value) ((responsesToolCallId item value).getD "")
    (((item.get "name").bind Value.asStr).getD "") (((item.get "arguments").bind Value.asStr).getD "")

def decodeResponsesFunctionCallArgumentsDone (serde : SerdeJson) (data : String) : Option InternalStreamEvent := do
  let value ← serde.fromStr data
  some (responsesToolCallDone value value)

def decodeResponsesOutputItemDone (serde : SerdeJson) (data : String) : Option InternalStreamEvent := do
  let value ← serde.fromStr data
  let item ← value.get "item"
  if isFunctionCall item then some (responsesToolCallDone value item) else none

def responsesUsageOf (usage : Value) : StreamUsage :=
  let inputTokens := ((usage.get "input_tokens").or (usage.get "prompt_tokens")).bind Value.asU64
  let outputTokens := ((usage.get "output_tokens").or (usage.get "completion_tokens")).bind Value.asU64
  { inputTokens := inputTokens
    outputTokens := outputTokens
    totalTokens := ((usage.get "total_tokens").bind Value.asU64).or
      (inputTokens.bind (fun input => outputTokens.map (fun output => (input + output) % 2 ^ 64)))
    cacheReadTokens := (((usage.pointer ["input_tokens_details", "cached_tokens"]).or
      (usage.pointer ["prompt_tokens_details", "cached_tokens"])).or
      (usage.get "cache_read_input_tokens")).bind Value.asU64
    cacheWriteTokens := (((usage.pointer ["input_tokens_details", "cache_write_tokens"]).or
      (usage.pointer ["prompt_tokens_details", "cache_write_tokens"])).or
      (usage.get "cache_creation_input_tokens")).bind Value.asU64 }

def decodeResponsesUsage (serde : SerdeJson) (data : String) : Option StreamUsage := do
  let value ← serde.fromStr data
  let usage ← (value.pointer ["response", "usage"]).or (value.get "usage")
  some (responsesUsageOf usage)

def decodeResponsesSseEvent (serde : SerdeJson) (eventName : Option String) (data : String) :
    List InternalStreamEvent :=
  match eventName with
  | some "response.output_text.delta" => (decodeResponsesTextDelta serde data).toList.map .textDelta
  | some "response.reasoning_summary_text.delta" | some "response.reasoning_text.delta" =>
    (decodeResponsesTextDelta serde data).toList.map .reasoningDelta
  | some "response.output_item.added" => (decodeResponsesFunctionCallAdded serde data).toList
  | some "response.function_call_arguments.delta" => (decodeResponsesFunctionCallArgumentsDelta serde data).toList
  | some "response.function_call_arguments.done" => (decodeResponsesFunctionCallArgumentsDone serde data).toList
  | some "response.output_item.done" => (decodeResponsesOutputItemDone serde data).toList
  | some "response.completed" => (decodeResponsesUsage serde data).toList.map .usage ++ [.finished .stop]
  | _ => []

/-- What `NativeResponsesSseStatsDecoder` keeps beside its line buffer. -/
structure NativeResponses where
  eventName : Option String := none
  dataLines : List String := []
  stats : StreamStatsSnapshot := {}

namespace NativeResponses

variable (serde : SerdeJson)

def recordData (stats : StreamStatsSnapshot) (eventName : Option String) (data : String) : StreamStatsSnapshot :=
  let stats := match decodeResponsesResponseId serde data with
    | some responseId => { stats with upstreamResponseId := some responseId }
    | none => stats
  let stats := match decodeResponsesOutputItems serde data with
    | some outputItems => { stats with responseOutputItems := outputItems }
    | none => stats
  stats.recordEvents (decodeResponsesSseEvent serde eventName data)

/-- A blank line ends an event even when it has no data. -/
def recordEvent (st : NativeResponses) : NativeResponses :=
  { stats := recordData serde st.stats st.eventName (Str.join "\n" st.dataLines) }

def processLine (st : NativeResponses) (line : Bytes) : NativeResponses :=
  if line = [] then st.recordEvent serde
  else match Str.fromUtf8 line with
    | none => st
    | some line =>
      match Str.stripPrefix "event:" line with
      | some event => { st with eventName := some (Sse.stripSpace event) }
      | none =>
        match Str.stripPrefix "data:" line with
        | some data => { st with dataLines := st.dataLines ++ [Sse.stripSpace data] }
        | none => st

def processLines (st : NativeResponses) (lines : List Bytes) : NativeResponses := lines.foldl (processLine serde) st

end NativeResponses

structure NativeResponsesSseStatsDecoder where
  lineBuffer : Bytes := []
  inner : NativeResponses := {}

namespace NativeResponsesSseStatsDecoder

variable (serde : SerdeJson)

def pushChunk (dec : NativeResponsesSseStatsDecoder) (chunk : Bytes) : NativeResponsesSseStatsDecoder × List Bytes :=
  let (lines, lineBuffer) := Sse.drainLines (dec.lineBuffer ++ chunk)
  (⟨lineBuffer, dec.inner.processLines serde lines⟩, [chunk])

def finish (dec : NativeResponsesSseStatsDecoder) : NativeResponsesSseStatsDecoder × List Bytes :=
  let inner := if dec.lineBuffer = [] then dec.inner else dec.inner.processLine serde dec.lineBuffer
  (⟨[], inner.recordEvent serde⟩, [])

end NativeResponsesSseStatsDecoder

def nativeResponsesDecoder (serde : SerdeJson) : ByteStreamDecoder NativeResponsesSseStatsDecoder Bytes where
  pushChunk := NativeResponsesSseStatsDecoder.pushChunk serde
  finish := NativeResponsesSseStatsDecoder.finish serde
  stats dec := dec.inner.stats

end Prelay.Bridge
