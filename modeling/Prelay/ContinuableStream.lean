import Mathlib.Data.Finset.Sort
import Prelay.Continuable
import Prelay.RecordingRun

namespace Prelay.Bridge

open Json Recording ChatToResponses

def InternalStreamEvent.callIndex : InternalStreamEvent → Option ℕ
  | .toolCallDelta index _ _ _ => some index
  | _ => none

def callIndexes (events : List InternalStreamEvent) : List ℕ :=
  (events.filterMap InternalStreamEvent.callIndex).toFinset.sort

def streamedCalls (events : List InternalStreamEvent) : List ChatCall := (callIndexes events).map (streamedCall events)

def streamedText (events : List InternalStreamEvent) : String := String.join (events.map InternalStreamEvent.text)

theorem mem_callIndexes {events : List InternalStreamEvent} {index : ℕ} :
    index ∈ callIndexes events ↔ events.any (InternalStreamEvent.isToolCallDelta index) = true := by
  rw [callIndexes, Finset.mem_sort, List.mem_toFinset, List.mem_filterMap, List.any_eq_true]
  refine exists_congr (fun event => and_congr_right (fun _ => ?_))
  cases event <;> simp [InternalStreamEvent.callIndex, InternalStreamEvent.isToolCallDelta]

theorem after_calls (responseId : String) (events : List InternalStreamEvent) :
    (after responseId events).toolCalls.toList.map (fun p => callOf p.2) = streamedCalls events := by
  have hsorted : ((callIndexes events).map (fun index => (index, streamedCall events index))).Pairwise
      (fun a b => a.1 < b.1) := by
    rw [List.pairwise_map]
    exact (Finset.pairwise_sort _ _).imp₂ (fun _ _ hle hne => lt_of_le_of_ne hle hne) (Finset.sort_nodup _ _)
  have hlist := toList_of_sorted ((after responseId events).toolCalls.map (fun _ toolCall => callOf toolCall)) hsorted ?_
  · rw [Std.ExtTreeMap.toList_map] at hlist
    have hvalues := congrArg (List.map Prod.snd) hlist
    rw [List.map_map, List.map_map] at hvalues
    exact hvalues
  · intro index call
    rw [Std.ExtTreeMap.getElem?_map, after_call]
    simp only [List.mem_map, Prod.mk.injEq, mem_callIndexes]
    constructor
    · rintro ⟨index, hany, rfl, rfl⟩
      rw [if_pos hany]
    · intro hcall
      split_ifs at hcall with hany
      exact ⟨index, hany, rfl, Option.some.inj hcall⟩

theorem streamed_items (responseId : String) {events : List InternalStreamEvent}
    (h : ∀ call ∈ streamedCalls events, call.Named) :
    (after responseId events).responseOutputItems = answerItems (streamedText events) (streamedCalls events) := by
  have hcalls := after_calls responseId events
  have htrim : Str.trim "" = "" := by decide
  have hkept : (after responseId events).toolCalls.toList.filter (fun p => p.2.id ≠ "" ∧ p.2.name ≠ "") =
      (after responseId events).toolCalls.toList := by
    rw [List.filter_eq_self]
    intro p hp
    obtain ⟨hid, hname⟩ := h (callOf p.2) (hcalls ▸ List.mem_map_of_mem hp)
    simp only [decide_eq_true_eq]
    refine ⟨?_, ?_⟩
    · intro hempty
      rw [callOf, hempty] at hid
      exact hid htrim
    · intro hempty
      rw [callOf, hempty] at hname
      exact hname htrim
  rw [responseOutputItems, hkept, after_text, answerItems, streamedText, ← hcalls, List.map_map]
  rfl

section snapshots

variable (serde : SerdeJson)

def OpenOrDone (responseId : String) (dec : ChatToResponsesSseDecoder) : Prop :=
  (∃ events, dec.inner = after responseId events) ∨ dec.inner.completed = true

theorem OpenOrDone.pushChunk {responseId : String} {dec : ChatToResponsesSseDecoder} (h : OpenOrDone responseId dec)
    (chunk : Bytes) : OpenOrDone responseId (dec.pushChunk serde chunk).1 := by
  rw [ChatToResponsesSseDecoder.pushChunk, Sse.Reader.pushChunk_eq]
  unfold OpenOrDone
  dsimp only
  generalize (dec.scanner.push Sse.stripSpace chunk).2 = datas
  rcases h with ⟨events, hevents⟩ | hcompleted
  · rw [hevents]
    cases hdone : datas.any isDone with
    | true =>
      rw [handleAll_done serde events responseId datas hdone]
      exact Or.inr rfl
    | false =>
      rw [handleAll_open serde events responseId datas hdone]
      exact Or.inl ⟨_, rfl⟩
  · rw [handleAll_completed serde _ _ hcompleted]
    exact Or.inr hcompleted

theorem finalStats_completed {dec : ChatToResponsesSseDecoder} (h : dec.inner.completed = true) (chunks : List Bytes) :
    finalStats (chatToResponsesDecoder serde) dec (chunks.map .ok) = dec.inner.stats := by
  induction chunks generalizing dec with
  | nil =>
    have hfinish := ChatToResponsesSseDecoder.finish_completed serde dec h
    simp only [Prod.mk.injEq] at hfinish
    exact congrArg ChatToResponses.stats hfinish.1
  | cons chunk chunks ih =>
    have hpush : (dec.pushChunk serde chunk).1.inner = dec.inner := by
      rw [ChatToResponsesSseDecoder.pushChunk, Sse.Reader.pushChunk_eq]
      dsimp only
      rw [handleAll_completed serde _ _ h]
    rw [← hpush] at h ⊢
    exact ih h

theorem snapshots_items {responseId : String} {dec : ChatToResponsesSseDecoder} (h : OpenOrDone responseId dec)
    (chunks : List Bytes) :
    ∀ p ∈ mapResponseStream (chatToResponsesDecoder serde) dec (chunks.map .ok), p.2.responseOutputItems = [] ∨
      p.2 = finalStats (chatToResponsesDecoder serde) dec (chunks.map .ok) := by
  induction chunks generalizing dec with
  | nil =>
    intro p hp
    obtain ⟨out, -, rfl⟩ := List.mem_map.mp hp
    exact Or.inr rfl
  | cons chunk chunks ih =>
    intro p hp
    have hpush := h.pushChunk serde chunk
    rcases List.mem_append.mp hp with hp | hp
    · obtain ⟨out, -, rfl⟩ := List.mem_map.mp hp
      rcases hpush with ⟨events, hevents⟩ | hcompleted
      · left
        change (dec.pushChunk serde chunk).1.inner.stats.responseOutputItems = []
        rw [hevents]
        exact (after_open responseId events).2.2
      · exact Or.inr (finalStats_completed serde hcompleted chunks).symm
    · exact ih hpush p hp

theorem finalStats_eq_decode {σ ω : Type} (d : ByteStreamDecoder σ ω) (s : σ) (chunks : List Bytes) :
    finalStats d s (chunks.map .ok) = (d.decode (fun out => [out]) s chunks).2 := by
  induction chunks generalizing s with
  | nil => rfl
  | cons chunk chunks ih => exact ih (d.pushChunk s chunk).1

theorem finalStats_items (responseId : String) (chunks : List Bytes) :
    (finalStats (chatToResponsesDecoder serde) (.new responseId) (chunks.map .ok)).responseOutputItems =
      (after responseId (readEvents serde chunks.flatten)).responseOutputItems := by
  rw [finalStats_eq_decode, decode_bridge]
  exact (finishResponse_spec { after responseId (readEvents serde chunks.flatten) with completed := true }).2.2.1

theorem ended_mem {σ ω : Type} (d : ByteStreamDecoder σ ω) (bytes : ω → Bytes) (s : σ)
    (upstream : List (Except String Bytes)) : .ended (finalStats d s upstream) ∈ recordingInputs d bytes s upstream :=
  List.mem_append_right _ List.mem_cons_self

/-- Whatever the recorder saves of a bridged stream, it saves the items of the end of the response. -/
theorem saved_stream_items {responseId identityId : String} {chunks : List Bytes} {input : Input}
    (hinput : input ∈ recordingInputs (chatToResponsesDecoder serde) (ResponsesChunk.bytes serde) (.new responseId)
      (chunks.map .ok)) {slot : Option StreamSession} {insert : ResponseStateInsert}
    (hinsert : insert ∈ (saveStreamStateIfReady slot identityId input.stats).2) :
    insert.responseItems = .array (after responseId (readEvents serde chunks.flatten)).responseOutputItems := by
  have hstart : OpenOrDone responseId (ChatToResponsesSseDecoder.new responseId) := Or.inl ⟨[], rfl⟩
  have hstats : input.stats.responseOutputItems = [] ∨
      input.stats = finalStats (chatToResponsesDecoder serde) (.new responseId) (chunks.map .ok) := by
    rcases List.mem_append.mp hinput with hinput | hinput
    · obtain ⟨p, hp, rfl⟩ := List.mem_map.mp hinput
      exact snapshots_items serde hstart chunks p hp
    · obtain rfl := List.mem_singleton.mp hinput
      exact Or.inr rfl
  rcases saveStreamStateIfReady_cases slot identityId input.stats with ⟨hnone, -⟩ | ⟨saved, hsaved, -, -, hitems, heq⟩
  · rw [hnone] at hinsert
    exact nomatch hinsert
  · rw [hsaved] at hinsert
    obtain rfl := List.mem_singleton.mp hinsert
    rw [heq, hstats.resolve_left hitems, finalStats_items]

end snapshots

/-- What the bridge saves of an answer can be gone on from exactly when every tool call of the answer has an id and a
name that are not blank. -/
theorem continuable_iff (serde : SerdeJson) :
    (∀ value response now responseId, decodeChatResponse value = .ok response →
      (Continues (savedItems now responseId response) (answerText value) (answerCalls value) ↔
        ∀ call ∈ answerCalls value, call.Named)) ∧
    ∀ (responseId : String) (chunks : List Bytes) (input : Input) (slot : Option StreamSession) (identityId : String)
      (insert : ResponseStateInsert),
      input ∈ recordingInputs (chatToResponsesDecoder serde) (ResponsesChunk.bytes serde) (.new responseId)
        (chunks.map .ok) → insert ∈ (saveStreamStateIfReady slot identityId input.stats).2 →
      (Continues insert.responseItems (streamedText (readEvents serde chunks.flatten))
          (streamedCalls (readEvents serde chunks.flatten)) ↔
        ∀ call ∈ streamedCalls (readEvents serde chunks.flatten), call.Named) := by
  constructor
  · intro value response now responseId hdecode
    exact ⟨Continues.named, fun h => continues_whole hdecode h now responseId⟩
  · intro responseId chunks input slot identityId insert hinput hinsert
    rw [saved_stream_items serde hinput hinsert]
    refine ⟨Continues.named, ?_⟩
    intro h
    rw [streamed_items responseId h]
    exact continues_answerItems h

theorem continuable_tool_call :
    (∃ response, decodeChatResponse toolAnswer = .ok response ∧
      Continues (savedItems 0 "resp_local" response) "hi" [⟨"call_1", "search", "query"⟩]) ∧
    ∃ insert ∈ (saveStreamStateIfReady (some bridgeSession) "user" (finalStats (chatToResponsesDecoder Text.codec)
        (.new "resp_local") ([toolChunk, textChunk, doneChunk].map .ok))).2,
      Continues insert.responseItems "hi" [⟨"call_1", "search", "query"⟩] := by
  obtain ⟨hwhole, hstream⟩ := continuable_iff Text.codec
  constructor
  · have hanswer : answerText toolAnswer = "hi" ∧ answerCalls toolAnswer = [⟨"call_1", "search", "query"⟩] := by
      decide +kernel
    obtain ⟨response, hresponse⟩ : ∃ response, decodeChatResponse toolAnswer = .ok response := ⟨_, rfl⟩
    have hiff := hwhole toolAnswer response 0 "resp_local" hresponse
    rw [hanswer.1, hanswer.2] at hiff
    exact ⟨response, hresponse, hiff.mpr (by decide)⟩
  · have hevents : readEvents Text.codec [toolChunk, textChunk, doneChunk].flatten =
        [.toolCallDelta 0 (some "call_1") (some "search") (some "query"), .textDelta "hi"] := by
      rw [readEvents_of_done Text.codec toolAnswer_done, toolAnswer_events]
    have hsaved : (saveStreamStateIfReady (some bridgeSession) "user" (finalStats (chatToResponsesDecoder Text.codec)
        (.new "resp_local") ([toolChunk, textChunk, doneChunk].map .ok))).2 ≠ [] := by
      rw [finalStats_eq_decode, decode_bridge, hevents]
      decide +kernel
    have hended := ended_mem (chatToResponsesDecoder Text.codec) (ResponsesChunk.bytes Text.codec) (.new "resp_local")
      ([toolChunk, textChunk, doneChunk].map .ok)
    obtain ⟨stats, hstats⟩ : ∃ stats, stats = finalStats (chatToResponsesDecoder Text.codec) (.new "resp_local")
      ([toolChunk, textChunk, doneChunk].map .ok) := ⟨_, rfl⟩
    rw [← hstats] at hsaved hended ⊢
    obtain ⟨insert, hinsert⟩ := List.exists_mem_of_ne_nil _ hsaved
    have hiff := hstream "resp_local" [toolChunk, textChunk, doneChunk] (.ended stats) (some bridgeSession) "user" insert
      hended hinsert
    have hanswer : streamedText [.toolCallDelta 0 (some "call_1") (some "search") (some "query"), .textDelta "hi"] = "hi" ∧
        streamedCalls [.toolCallDelta 0 (some "call_1") (some "search") (some "query"), .textDelta "hi"] =
          [⟨"call_1", "search", "query"⟩] := by
      decide +kernel
    rw [hevents, hanswer.1, hanswer.2] at hiff
    exact ⟨insert, hinsert, hiff.mpr (by decide)⟩

def emptyIdAnswer : Value :=
  .json [("choices", .array [.json [("message", .json [
    ("content", .null),
    ("tool_calls", .array [.json [("id", .string ""), ("function", .json [
      ("name", .string "search"),
      ("arguments", .string "query")])]])])]])]

/-- The bridge accepts and saves the answer, and then refuses what it saved. -/
theorem empty_id_not_continuable :
    ∃ response, decodeChatResponse emptyIdAnswer = .ok response ∧
      decodeItemsForChatBridge ((savedItems 0 "resp_local" response).asArray.getD []) =
        .error (.openaiInvalid "input" "function_call item requires a non-empty call_id") ∧
      ¬Continues (savedItems 0 "resp_local" response) (answerText emptyIdAnswer) (answerCalls emptyIdAnswer) := by
  have herror : decodeItemsForChatBridge ((savedItems 0 "resp_local"
      ⟨"chatcmpl_unknown", "unknown", [.functionToolCall "" "search" "query" none], none⟩).asArray.getD []) =
        .error (.openaiInvalid "input" "function_call item requires a non-empty call_id") := by
    rw [savedItems_eq]
    rfl
  refine ⟨_, rfl, herror, ?_⟩
  rintro ⟨messages, hdecode, -⟩
  exact nomatch herror.symm.trans hdecode

end Prelay.Bridge
