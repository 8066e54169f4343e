import Mathlib.Algebra.Group.Nat.Defs
import Prelay.Json

namespace Prelay.Bridge

open Json

inductive InternalFinishReason where
  | stop | length | toolUse | contentFilter | error | unknown
  deriving DecidableEq, Repr

def internalFinishReasonFromStr : Option String → InternalFinishReason
  | some "stop" | some "end_turn" | some "stop_sequence" => .stop
  | some "length" | some "max_tokens" => .length
  | some "tool_calls" | some "tool_use" => .toolUse
  | some "content_filter" => .contentFilter
  | some "error" => .error
  | _ => .unknown

structure StreamUsage where
  inputTokens : Option ℕ := none
  outputTokens : Option ℕ := none
  totalTokens : Option ℕ := none
  cacheReadTokens : Option ℕ := none
  cacheWriteTokens : Option ℕ := none
  deriving DecidableEq, Repr

inductive InternalStreamEvent where
  | textDelta (delta : String)
  | reasoningDelta (delta : String)
  | toolCallDelta (index : ℕ) (id name arguments : Option String)
  | toolCallDone (index : ℕ) (id name arguments : String)
  | usage (usage : StreamUsage)
  | finished (reason : InternalFinishReason)
  deriving DecidableEq, Repr

def InternalStreamEvent.isFinished : InternalStreamEvent → Bool
  | .finished _ => true
  | _ => false

def InternalStreamEvent.text : InternalStreamEvent → String
  | .textDelta delta => delta
  | _ => ""

structure CapturedToolCall where
  id : String := ""
  name : String := ""
  arguments : String := ""
  done : Bool := false
  deriving DecidableEq, Repr

structure StreamStatsSnapshot where
  inputTokens : Option ℕ := none
  outputTokens : Option ℕ := none
  totalTokens : Option ℕ := none
  cacheReadTokens : Option ℕ := none
  cacheWriteTokens : Option ℕ := none
  upstreamResponseId : Option String := none
  responseOutputItems : List Value := []
  toolCallCount : ℕ := 0
  outputText : String := ""
  reasoningText : String := ""
  completed : Bool := false
  finalUsageSeen : Bool := false
  toolCalls : Std.ExtTreeMap ℕ CapturedToolCall := ∅

/-- A token count that does not fit in 63 bits is dropped. -/
def u64ToI64 (n : ℕ) : Option ℕ := if n < 2 ^ 63 then some n else none

namespace StreamStatsSnapshot

def entry (stats : StreamStatsSnapshot) (index : ℕ) : CapturedToolCall := stats.toolCalls.getD index {}

def recordToolCallDone (stats : StreamStatsSnapshot) (index : ℕ) (id name arguments : String) :
    StreamStatsSnapshot :=
  let toolCall := stats.entry index
  { stats with
    toolCallCount := if toolCall.done then stats.toolCallCount else stats.toolCallCount + 1
    toolCalls := stats.toolCalls.insert index {
      id := if id = "" then toolCall.id else id
      name := if name = "" then toolCall.name else name
      arguments := if arguments ≠ "" ∨ toolCall.arguments = "" then arguments else toolCall.arguments
      done := true } }

def recordUsage (stats : StreamStatsSnapshot) (usage : StreamUsage) : StreamStatsSnapshot :=
  { stats with
    inputTokens := usage.inputTokens.bind u64ToI64
    outputTokens := usage.outputTokens.bind u64ToI64
    totalTokens := usage.totalTokens.bind u64ToI64
    cacheReadTokens := usage.cacheReadTokens.bind u64ToI64
    cacheWriteTokens := usage.cacheWriteTokens.bind u64ToI64
    finalUsageSeen := usage.inputTokens.isSome || usage.outputTokens.isSome || usage.totalTokens.isSome ||
      usage.cacheReadTokens.isSome || usage.cacheWriteTokens.isSome }

def recordToolCallDelta (stats : StreamStatsSnapshot) (index : ℕ) (id name arguments : Option String) :
    StreamStatsSnapshot :=
  let toolCall := stats.entry index
  { stats with
    toolCalls := stats.toolCalls.insert index { toolCall with
      id := if id.getD "" = "" then toolCall.id else id.getD ""
      name := if name.getD "" = "" then toolCall.name else name.getD ""
      arguments := toolCall.arguments ++ arguments.getD "" } }

def recordEvent (stats : StreamStatsSnapshot) : InternalStreamEvent → StreamStatsSnapshot
  | .toolCallDone index id name arguments => stats.recordToolCallDone index id name arguments
  | .usage usage => stats.recordUsage usage
  | .textDelta delta => { stats with outputText := stats.outputText ++ delta }
  | .reasoningDelta delta => { stats with reasoningText := stats.reasoningText ++ delta }
  | .finished _ => { stats with completed := true }
  | .toolCallDelta index id name arguments => stats.recordToolCallDelta index id name arguments

def recordEvents (stats : StreamStatsSnapshot) (events : List InternalStreamEvent) : StreamStatsSnapshot :=
  events.foldl recordEvent stats

def capturedToolCalls (stats : StreamStatsSnapshot) : List (String × String × String) :=
  stats.toolCalls.toList.map (fun p => (p.2.id, p.2.name, p.2.arguments))

def completedToolCalls (stats : StreamStatsSnapshot) : List (String × String × String) :=
  (stats.toolCalls.toList.filter (·.2.done)).map (fun p => (p.2.id, p.2.name, p.2.arguments))

@[simp]
theorem recordEvent_responseOutputItems (stats : StreamStatsSnapshot) (event : InternalStreamEvent) :
    (stats.recordEvent event).responseOutputItems = stats.responseOutputItems := by
  cases event <;> rfl

theorem recordEvent_completed (stats : StreamStatsSnapshot) (event : InternalStreamEvent) :
    (stats.recordEvent event).completed = (stats.completed || event.isFinished) := by
  cases event <;> simp [recordEvent, recordToolCallDone, recordToolCallDelta, recordUsage,
    InternalStreamEvent.isFinished]

theorem recordEvent_outputText (stats : StreamStatsSnapshot) (event : InternalStreamEvent) :
    (stats.recordEvent event).outputText = stats.outputText ++ event.text := by
  cases event <;> simp [recordEvent, recordToolCallDone, recordToolCallDelta, recordUsage,
    InternalStreamEvent.text]

theorem recordEvents_completed (stats : StreamStatsSnapshot) (events : List InternalStreamEvent) :
    (stats.recordEvents events).completed = (stats.completed || events.any InternalStreamEvent.isFinished) := by
  induction events generalizing stats with
  | nil => simp [recordEvents]
  | cons event events ih =>
    rw [recordEvents, List.foldl_cons, ← recordEvents, ih, recordEvent_completed, List.any_cons, Bool.or_assoc]

theorem recordEvents_outputText (stats : StreamStatsSnapshot) (events : List InternalStreamEvent)
    (h : ∀ event ∈ events, event.text = "") : (stats.recordEvents events).outputText = stats.outputText := by
  induction events generalizing stats with
  | nil => rfl
  | cons event events ih =>
    rw [recordEvents, List.foldl_cons, ← recordEvents, ih _ (fun e he => h e (List.mem_cons_of_mem _ he)),
      recordEvent_outputText, h event List.mem_cons_self, String.append_empty]

end StreamStatsSnapshot

structure ChatToolCallState where
  id : String := ""
  name : String := ""
  arguments : String := ""
  added : Bool := false
  done : Bool := false
  deriving DecidableEq, Repr

structure ChatToolCallDelta where
  index : ℕ
  id : Option String
  name : Option String
  arguments : Option String
  deriving DecidableEq, Repr

structure ChatSseEvent where
  textDelta : Option String := none
  reasoningDelta : Option String := none
  toolCallDeltas : List ChatToolCallDelta := []
  finishReason : Option InternalFinishReason := none
  usage : Option StreamUsage := none
  deriving DecidableEq, Repr

def ChatSseEvent.toInternalEvents (event : ChatSseEvent) : List InternalStreamEvent :=
  event.textDelta.toList.map .textDelta ++
  event.reasoningDelta.toList.map .reasoningDelta ++
  event.toolCallDeltas.map (fun d => .toolCallDelta d.index d.id d.name d.arguments) ++
  event.usage.toList.map .usage ++
  event.finishReason.toList.map .finished

end Prelay.Bridge
