import Prelay.NativeRead

namespace Prelay.Bridge

open Json

section encoders

variable {serde : SerdeJson} (hserde : serde.Lawful)

theorem asU64_nat (n : ℕ) : (Value.nat n).asU64 = some n := rfl

theorem asStr_string (s : String) : (Value.string s).asStr = some s := rfl

def ReadsAs (serde : SerdeJson) (chunk : ResponsesChunk) (events : List InternalStreamEvent) : Prop :=
  chunk.IsPlain ∧ ∀ stats, nativeRecord serde stats chunk = stats.recordEvents events

def completedUsage (usage : StreamUsage) : Value :=
  .json [
    ("input_tokens", .ofOption .nat usage.inputTokens),
    ("output_tokens", .ofOption .nat usage.outputTokens),
    ("total_tokens", .ofOption .nat usage.totalTokens),
    ("input_tokens_details", .json [
      ("cached_tokens", .ofOption .nat usage.cacheReadTokens),
      ("cache_write_tokens", .ofOption .nat usage.cacheWriteTokens)])]

theorem completedUsage_stable (usage : StreamUsage) : (completedUsage usage).Stable 2 := by
  apply Value.stable_json
  simp [Value.stable_json, Value.stable_ofOption, Value.stable_nat]

theorem responsesUsageOf_completed (usage : Option StreamUsage) :
    { responsesUsageOf (.ofOption completedUsage usage) with totalTokens := none } =
      { usage.getD {} with totalTokens := none } := by
  have hcount : ∀ n : Option ℕ, (Value.ofOption Value.nat n).asU64 = n := fun n => by cases n <;> rfl
  cases usage with
  | none => rfl
  | some usage =>
    rw [show Value.ofOption completedUsage (some usage) = completedUsage usage from rfl]
    simp [responsesUsageOf, completedUsage, Value.pointer, Value.child_json, Value.get_json, hcount]

include hserde

theorem event_reads {name : String} {members : List (String × Value)} {events : List InternalStreamEvent}
    (hname : Plain name) (hmembers : ∀ m ∈ members, m.2.Stable 8) (hresponse : (Value.json members).get "response" = none)
    (hid : (Value.json members).get "response_id" = none)
    (hevents : serde.fromStr (serde.toStr (.json members)) = some (.json members) →
      decodeResponsesSseEvent serde (some name) (serde.toStr (.json members)) = events) :
    ReadsAs serde (responsesSseEvent name (.json members)) events := by
  have hread := hserde.fromStr_stable (Value.stable_json hmembers) (by decide)
  refine ⟨hname, ?_⟩
  intro stats
  have hnone : decodeResponsesResponseId serde (serde.toStr (.json members)) = none := by
    simp [decodeResponsesResponseId, hread, Value.pointer, Value.child_json, hresponse, hid]
  have hitems : decodeResponsesOutputItems serde (serde.toStr (.json members)) = none := by
    simp [decodeResponsesOutputItems, hread, Value.pointer, Value.child_json, hresponse]
  simp only [responsesSseEvent, nativeRecord, NativeResponses.recordData, hnone, hitems, hevents hread]

theorem textDelta_reads (delta : String) : ReadsAs serde (responsesTextDeltaSse delta) [.textDelta delta] := by
  apply event_reads hserde
  · simp [Plain]
  · simp [Value.stable_string, Value.stable_nat]
  · simp [Value.get_json]
  · simp [Value.get_json]
  · intro hread
    simp [decodeResponsesSseEvent, decodeResponsesTextDelta, hread, Value.get_json, asStr_string]

theorem functionCallAdded_reads (index : ℕ) (toolCall : ChatToolCallState) :
    ReadsAs serde (responsesFunctionCallAddedSse index toolCall)
      [.toolCallDelta index (some toolCall.id) (some toolCall.name) none] := by
  apply event_reads hserde
  · simp [Plain]
  · simp [Value.stable_string, Value.stable_nat, Value.stable_json]
  · simp [Value.get_json]
  · simp [Value.get_json]
  · intro hread
    simp [decodeResponsesSseEvent, decodeResponsesFunctionCallAdded, hread, Value.get_json, asStr_string, asU64_nat,
      isFunctionCall, responsesOutputIndex, responsesToolCallId]

theorem functionCallArgumentsDelta_reads (index : ℕ) (toolCall : ChatToolCallState) (delta : String) :
    ReadsAs serde (responsesFunctionCallArgumentsDeltaSse index toolCall delta)
      [.toolCallDelta index (some toolCall.id) none (some delta)] := by
  apply event_reads hserde
  · simp [Plain]
  · simp [Value.stable_string, Value.stable_nat]
  · simp [Value.get_json]
  · simp [Value.get_json]
  · intro hread
    simp [decodeResponsesSseEvent, decodeResponsesFunctionCallArgumentsDelta, hread, Value.get_json, asStr_string,
      asU64_nat, responsesOutputIndex, responsesToolCallId]

theorem functionCallArgumentsDone_reads (index : ℕ) (toolCall : ChatToolCallState) :
    ReadsAs serde (responsesFunctionCallArgumentsDoneSse index toolCall)
      [.toolCallDone index toolCall.id toolCall.name toolCall.arguments] := by
  apply event_reads hserde
  · simp [Plain]
  · simp [Value.stable_string, Value.stable_nat]
  · simp [Value.get_json]
  · simp [Value.get_json]
  · intro hread
    simp [decodeResponsesSseEvent, decodeResponsesFunctionCallArgumentsDone, hread, Value.get_json, asStr_string,
      asU64_nat, responsesToolCallDone, responsesOutputIndex, responsesToolCallId]

theorem outputItemDone_reads (index : ℕ) (toolCall : ChatToolCallState) :
    ReadsAs serde (responsesOutputItemDoneSse index toolCall)
      [.toolCallDone index toolCall.id toolCall.name toolCall.arguments] := by
  apply event_reads hserde
  · simp [Plain]
  · simp [Value.stable_string, Value.stable_nat, Value.stable_json]
  · simp [Value.get_json]
  · simp [Value.get_json]
  · intro hread
    simp [decodeResponsesSseEvent, decodeResponsesOutputItemDone, hread, Value.get_json, asStr_string, asU64_nat,
      isFunctionCall, responsesToolCallDone, responsesOutputIndex, responsesToolCallId]

theorem completed_reads (hdone : serde.fromStr "[DONE]" = none) (usage : Option StreamUsage) (responseId : String)
    {output : List Value} (houtput : ∀ item ∈ output, item.Stable 4) (stats : StreamStatsSnapshot) :
    ∃ upstreamResponseId, nativeRecord serde stats (responsesCompletedSseWithUsage usage responseId output) =
      StreamStatsSnapshot.recordEvents { stats with
        upstreamResponseId := upstreamResponseId, responseOutputItems := output }
        [.usage (responsesUsageOf (.ofOption completedUsage usage)), .finished .stop] := by
  have hmarker : ∀ stats, NativeResponses.recordData serde stats none "[DONE]" = stats := by
    intro stats
    simp [NativeResponses.recordData, decodeResponsesResponseId, decodeResponsesOutputItems, hdone,
      decodeResponsesSseEvent, StreamStatsSnapshot.recordEvents]
  obtain ⟨data, hdata, hstable, hitems, husage⟩ : ∃ data,
      responsesCompletedSseWithUsage usage responseId output = .completed data ∧ data.Stable 8 ∧
      (data.pointer ["response", "output"]).bind Value.asArray = some output ∧
      data.pointer ["response", "usage"] = some (Value.ofOption completedUsage usage) := by
    refine ⟨_, rfl, ?_, ?_, ?_⟩
    · have hresponse := Value.stable_ofOption completedUsage_stable usage
      unfold completedUsage at hresponse
      apply Value.stable_json
      simp only [List.mem_cons, List.not_mem_nil, or_false, forall_eq_or_imp, forall_eq, Value.stable_string, true_and]
      apply Value.stable_json
      simp only [List.mem_cons, List.not_mem_nil, or_false, forall_eq_or_imp, forall_eq, Value.stable_string,
        Value.stable_nat,
        true_and, and_true]
      exact ⟨(Value.stable_array houtput).mono (by decide), hresponse.mono (by decide)⟩
    · simp [Value.pointer, Value.child_json, Value.get_json, Value.asArray]
    · simp [Value.pointer, Value.child_json, Value.get_json]
      rfl
  have hread := hserde.fromStr_stable hstable (by decide)
  have hdecoded : decodeResponsesOutputItems serde (serde.toStr data) = some output := by
    simp [decodeResponsesOutputItems, hread, hitems]
  have hsome : decodeResponsesUsage serde (serde.toStr data) =
      some (responsesUsageOf (.ofOption completedUsage usage)) := by
    simp [decodeResponsesUsage, hread, husage]
  refine ⟨(decodeResponsesResponseId serde (serde.toStr data)).or stats.upstreamResponseId, ?_⟩
  rw [hdata, nativeRecord, hmarker, NativeResponses.recordData, hdecoded]
  simp only [decodeResponsesSseEvent, hsome, Option.toList_some, List.map_cons, List.map_nil, List.singleton_append]
  cases decodeResponsesResponseId serde (serde.toStr data) <;> rfl

end encoders

end Prelay.Bridge
