import Prelay.JsonText
import Prelay.Str
import Prelay.StreamEvents

namespace Prelay.Bridge

open Json

/-- A chunk sent to the client: one named event, or the completed event with the end marker behind it. -/
inductive ResponsesChunk where
  | event (name : String) (data : Value)
  | completed (data : Value)
  deriving DecidableEq

namespace ResponsesChunk

def text (serde : SerdeJson) : ResponsesChunk → String
  | .event name data => "event: " ++ name ++ "\ndata: " ++ serde.toStr data ++ "\n\n"
  | .completed data => "event: response.completed\ndata: " ++ serde.toStr data ++ "\n\ndata: [DONE]\n\n"

def bytes (serde : SerdeJson) (chunk : ResponsesChunk) : Bytes := Str.utf8 (chunk.text serde)

def completedOutput : ResponsesChunk → Option (List Value)
  | .event _ _ => none
  | .completed data => (data.pointer ["response", "output"]).bind Value.asArray

end ResponsesChunk

def responsesSseEvent (event : String) (data : Value) : ResponsesChunk := .event event data

def responsesTextDeltaSse (delta : String) : ResponsesChunk :=
  responsesSseEvent "response.output_text.delta" (.json [
    ("type", .string "response.output_text.delta"),
    ("delta", .string delta),
    ("output_index", .nat 0),
    ("content_index", .nat 0),
    ("item_id", .string "msg_0"),
    ("sequence_number", .nat 0)])

def responsesCompletedSseWithUsage (usage : Option StreamUsage) (responseId : String) (output : List Value) :
    ResponsesChunk :=
  .completed (.json [
    ("type", .string "response.completed"),
    ("response", .json [
      ("id", .string responseId),
      ("object", .string "response"),
      ("status", .string "completed"),
      ("output", .array output),
      ("usage", .ofOption (fun usage => .json [
        ("input_tokens", .ofOption .nat usage.inputTokens),
        ("output_tokens", .ofOption .nat usage.outputTokens),
        ("total_tokens", .ofOption .nat usage.totalTokens),
        ("input_tokens_details", .json [
          ("cached_tokens", .ofOption .nat usage.cacheReadTokens),
          ("cache_write_tokens", .ofOption .nat usage.cacheWriteTokens)])]) usage),
      ("sequence_number", .nat 0)])])

def responsesFunctionCallAddedSse (index : ℕ) (toolCall : ChatToolCallState) : ResponsesChunk :=
  responsesSseEvent "response.output_item.added" (.json [
    ("type", .string "response.output_item.added"),
    ("output_index", .nat index),
    ("item", .json [
      ("type", .string "function_call"),
      ("id", .string toolCall.id),
      ("call_id", .string toolCall.id),
      ("name", .string toolCall.name),
      ("arguments", .string "")]),
    ("sequence_number", .nat 0)])

def responsesFunctionCallArgumentsDeltaSse (index : ℕ) (toolCall : ChatToolCallState) (delta : String) :
    ResponsesChunk :=
  responsesSseEvent "response.function_call_arguments.delta" (.json [
    ("type", .string "response.function_call_arguments.delta"),
    ("item_id", .string toolCall.id),
    ("output_index", .nat index),
    ("call_id", .string toolCall.id),
    ("delta", .string delta),
    ("sequence_number", .nat 0)])

def responsesFunctionCallArgumentsDoneSse (index : ℕ) (toolCall : ChatToolCallState) : ResponsesChunk :=
  responsesSseEvent "response.function_call_arguments.done" (.json [
    ("type", .string "response.function_call_arguments.done"),
    ("item_id", .string toolCall.id),
    ("output_index", .nat index),
    ("call_id", .string toolCall.id),
    ("name", .string toolCall.name),
    ("arguments", .string toolCall.arguments),
    ("sequence_number", .nat 0)])

def responsesOutputItemDoneSse (index : ℕ) (toolCall : ChatToolCallState) : ResponsesChunk :=
  responsesSseEvent "response.output_item.done" (.json [
    ("type", .string "response.output_item.done"),
    ("output_index", .nat index),
    ("item", .json [
      ("type", .string "function_call"),
      ("id", .string toolCall.id),
      ("call_id", .string toolCall.id),
      ("name", .string toolCall.name),
      ("arguments", .string toolCall.arguments)]),
    ("sequence_number", .nat 0)])

def responsesToolCallDoneSse (index : ℕ) (toolCall : ChatToolCallState) : List ResponsesChunk :=
  [responsesFunctionCallArgumentsDoneSse index toolCall, responsesOutputItemDoneSse index toolCall]

@[simp]
theorem completedOutput_responsesCompletedSse (usage : Option StreamUsage) (responseId : String)
    (output : List Value) :
    (responsesCompletedSseWithUsage usage responseId output).completedOutput = some output := by
  simp [responsesCompletedSseWithUsage, ResponsesChunk.completedOutput, Value.pointer, Value.child_json,
    Value.get_json, Value.asArray]

end Prelay.Bridge
