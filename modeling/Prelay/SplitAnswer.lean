import Prelay.BridgeDecode
import Prelay.ChatAnswer
import Prelay.StreamPersistence

namespace Prelay.Bridge

open Json Recording ChatToResponses

structure ChatCall where
  id : String
  name : String
  arguments : String
  deriving DecidableEq

def IsToolCall (item : Value) (call : ChatCall) : Prop :=
  item.get "id" = some (.string call.id) ∧ ∃ function, item.get "function" = some function ∧
    function.get "name" = some (.string call.name) ∧ function.get "arguments" = some (.string call.arguments)

def IsAnswer (value : Value) (content : String) (calls : List ChatCall) : Prop :=
  ∃ choice choices message, value.get "choices" = some (.array (choice :: choices)) ∧
    choice.get "message" = some message ∧ message.get "content" = some (.string content) ∧
    ((∃ items, message.get "tool_calls" = some (.array items) ∧ List.Forall₂ IsToolCall items calls) ∨
      (message.get "tool_calls" = none ∧ message.get "function_call" = none ∧ calls = []))

namespace InternalStreamEvent

def deltaArguments (index : ℕ) : InternalStreamEvent → Option String
  | .toolCallDelta i _ _ arguments => if i = index then arguments else none
  | _ => none

end InternalStreamEvent

def joinedArguments (index : ℕ) (events : List InternalStreamEvent) : String :=
  String.join (events.filterMap (InternalStreamEvent.deltaArguments index))

structure SplitsCall (index : ℕ) (events : List InternalStreamEvent) (call : ChatCall) : Prop where
  first : ∃ arguments, events.find? (InternalStreamEvent.isToolCallDelta index) =
    some (.toolCallDelta index (some call.id) (some call.name) arguments)
  ids : ∀ id ∈ events.filterMap (InternalStreamEvent.deltaId index), id = call.id
  names : ∀ name ∈ events.filterMap (InternalStreamEvent.deltaName index), name = call.name
  arguments : joinedArguments index events = call.arguments

/-- Stream events that an answer is cut into: its text in pieces, and the pieces of its tool calls in any order, each
under the position of its call. -/
structure SplitsInto (events : List InternalStreamEvent) (content : String) (calls : List ChatCall) : Prop where
  text : String.join (events.map InternalStreamEvent.text) = content
  each : ∀ index call, calls[index]? = some call → SplitsCall index events call
  others : ∀ index, calls.length ≤ index → events.any (InternalStreamEvent.isToolCallDelta index) = false

section stream

variable (responseId : String)

theorem joinedArguments_snoc (index : ℕ) (events : List InternalStreamEvent) (event : InternalStreamEvent) :
    joinedArguments index (events ++ [event]) =
      joinedArguments index events ++ (event.deltaArguments index).getD "" := by
  unfold joinedArguments
  rw [List.filterMap_append]
  cases h : event.deltaArguments index <;> simp [h]

theorem after_text (events : List InternalStreamEvent) :
    (after responseId events).stats.outputText = String.join (events.map InternalStreamEvent.text) := by
  induction events using List.reverseRecOn with
  | nil => rfl
  | append_singleton events event ih =>
    rw [after_snoc, processInternalEvent_stats, StreamStatsSnapshot.recordEvent_outputText, ih]
    simp

theorem after_arguments (events : List InternalStreamEvent) (index : ℕ) :
    ((after responseId events).toolCalls.getD index {}).arguments = joinedArguments index events := by
  induction events using List.reverseRecOn with
  | nil => simp [after, processInternalEvents, new, joinedArguments]
  | append_singleton events event ih =>
    rw [after_snoc, joinedArguments_snoc, ← ih]
    cases event with
    | toolCallDelta i id name arguments =>
      rw [(processInternalEvent_toolCallDelta _ i id name arguments).2, Std.ExtTreeMap.getD_insert]
      by_cases hi : i = index
      · subst hi
        simp [InternalStreamEvent.deltaArguments]
      · rw [if_neg (fun heq => hi (Std.LawfulEqCmp.compare_eq_iff_eq.mp heq))]
        simp [InternalStreamEvent.deltaArguments, hi]
    | _ => exact (String.append_empty).symm

end stream

theorem toList_of_sorted {V : Type} (m : Std.ExtTreeMap ℕ V) {entries : List (ℕ × V)}
    (hsorted : entries.Pairwise (fun a b => a.1 < b.1)) (h : ∀ i value, (i, value) ∈ entries ↔ m[i]? = some value) :
    m.toList = entries := by
  have hkeys : m.toList.Pairwise (fun a b => a.1 < b.1) :=
    m.ordered_keys_toList.imp (fun hlt => Nat.compare_eq_lt.mp hlt)
  have hnodup : ∀ l : List (ℕ × V), l.Pairwise (fun a b => a.1 < b.1) → l.Nodup :=
    fun l hl => hl.imp (fun hlt heq => absurd (heq ▸ hlt) (Nat.lt_irrefl _))
  apply List.Perm.eq_of_pairwise (fun a b _ _ hab hba => absurd hba (Nat.lt_asymm hab)) hkeys hsorted
  rw [List.perm_ext_iff_of_nodup (hnodup _ hkeys) (hnodup _ hsorted)]
  rintro ⟨i, value⟩
  rw [Std.ExtTreeMap.mem_toList_iff_getElem?_eq_some, h]

theorem toList_of_positions {V : Type} (m : Std.ExtTreeMap ℕ V) (values : List V) (h : ∀ i : ℕ, m[i]? = values[i]?) :
    m.toList = values.zipIdx.map Prod.swap := by
  apply toList_of_sorted
  · rw [List.pairwise_map]
    have hrange : (values.zipIdx.map Prod.snd).Pairwise (· < ·) := by
      rw [List.zipIdx_map_snd]
      exact List.pairwise_lt_range'
    exact List.pairwise_map.mp hrange
  · intro i value
    rw [h]
    simp [List.mem_zipIdx_iff_getElem?]

def callOf (toolCall : ChatToolCallState) : ChatCall := ⟨toolCall.id, toolCall.name, toolCall.arguments⟩

def streamedCall (events : List InternalStreamEvent) (index : ℕ) : ChatCall :=
  ⟨lastId index events, lastName index events, joinedArguments index events⟩

theorem after_call (responseId : String) (events : List InternalStreamEvent) (index : ℕ) :
    (after responseId events).toolCalls[index]?.map callOf =
      if events.any (InternalStreamEvent.isToolCallDelta index) then some (streamedCall events index) else none := by
  have htool := after_toolCall responseId events index
  have harguments := after_arguments responseId events index
  rw [Std.ExtTreeMap.getD_eq_getD_getElem?] at harguments
  split_ifs at htool ⊢ with hany
  · obtain ⟨toolCall, hget, heq⟩ := Option.map_eq_some_iff.mp htool
    simp only [Prod.mk.injEq] at heq
    rw [hget, Option.getD_some] at harguments
    rw [hget, Option.map_some, callOf, heq.1, heq.2.1, harguments, streamedCall]
  · rw [Option.map_eq_none_iff.mp htool]
    rfl

section answer

variable {events : List InternalStreamEvent} {content : String} {calls : List ChatCall}

theorem last_of_all {texts : List String} {text : String} (h : ∀ t ∈ texts, t = text) (hmem : text ∈ texts) :
    texts.getLast?.getD "" = text := by
  have hlast := List.getLast?_eq_some_getLast (List.ne_nil_of_mem hmem)
  rw [hlast]
  exact h _ (List.mem_of_getLast? hlast)

theorem SplitsCall.last {index : ℕ} {call : ChatCall} (h : SplitsCall index events call) :
    events.any (InternalStreamEvent.isToolCallDelta index) = true ∧ lastId index events = call.id ∧
      lastName index events = call.name := by
  obtain ⟨arguments, hfirst⟩ := h.first
  have hmem := List.mem_of_find?_eq_some hfirst
  refine ⟨List.any_eq_true.mpr ⟨_, hmem, List.find?_some hfirst⟩, last_of_all h.ids ?_, last_of_all h.names ?_⟩
  · exact List.mem_filterMap.mpr ⟨_, hmem, by simp [InternalStreamEvent.deltaId]⟩
  · exact List.mem_filterMap.mpr ⟨_, hmem, by simp [InternalStreamEvent.deltaName]⟩

theorem SplitsInto.toolCalls (h : SplitsInto events content calls) (responseId : String) :
    (after responseId events).toolCalls.toList.map (fun p => callOf p.2) = calls := by
  have hcalls : ∀ i : ℕ, ((after responseId events).toolCalls.map (fun _ toolCall => callOf toolCall))[i]? =
      calls[i]? := by
    intro i
    rw [Std.ExtTreeMap.getElem?_map, after_call]
    cases hcall : calls[i]? with
    | some call =>
      have hsplit := h.each i call hcall
      obtain ⟨hany, hid, hname⟩ := hsplit.last
      rw [if_pos hany, streamedCall, hid, hname, hsplit.arguments]
    | none =>
      have hany := h.others i (List.getElem?_eq_none_iff.mp hcall)
      rw [if_neg (by simp [hany])]
  have hlist := toList_of_positions _ calls hcalls
  rw [Std.ExtTreeMap.toList_map] at hlist
  have hvalues := congrArg (List.map Prod.snd) hlist
  rw [List.map_map, List.map_map] at hvalues
  simpa [Function.comp_def] using hvalues

def answerItems (content : String) (calls : List ChatCall) : List Value :=
  (if content = "" then [] else [messageItem content]) ++
    calls.map (fun call => functionCallItem { id := call.id, name := call.name, arguments := call.arguments })

theorem SplitsInto.outputItems (h : SplitsInto events content calls)
    (hcalls : ∀ call ∈ calls, call.id ≠ "" ∧ call.name ≠ "")
    (responseId : String) : (after responseId events).responseOutputItems = answerItems content calls := by
  have htools := h.toolCalls responseId
  have hkept : (after responseId events).toolCalls.toList.filter (fun p => p.2.id ≠ "" ∧ p.2.name ≠ "") =
      (after responseId events).toolCalls.toList := by
    rw [List.filter_eq_self]
    intro p hp
    have hcall := hcalls (callOf p.2) (htools ▸ List.mem_map_of_mem hp)
    simpa [callOf] using hcall
  rw [responseOutputItems, hkept, after_text, h.text, answerItems]
  congr 1
  conv_rhs => rw [← htools, List.map_map]
  rfl

theorem IsToolCall.decode {item : Value} {call : ChatCall} (h : IsToolCall item call) (reasoning : Option String) :
    decodeToolCall reasoning item = some (.functionToolCall call.id call.name call.arguments reasoning) := by
  obtain ⟨hid, function, hfunction, hname, harguments⟩ := h
  simp [decodeToolCall, hid, hfunction, hname, harguments, Value.asStr]

theorem filterMap_decode {items : List Value} (h : List.Forall₂ IsToolCall items calls) (reasoning : Option String) :
    items.filterMap (decodeToolCall reasoning) =
      calls.map (fun call => .functionToolCall call.id call.name call.arguments reasoning) := by
  induction h with
  | nil => rfl
  | cons hitem _ ih => rw [List.filterMap_cons_some (hitem.decode reasoning), ih, List.map_cons]

theorem IsAnswer.output {value : Value} (h : IsAnswer value content calls) (hnonempty : calls ≠ [] ∨ content ≠ "") :
    ∃ response, decodeChatResponse value = .ok response ∧
      response.output.map encodeOutputItem = answerItems content calls := by
  obtain ⟨choice, choices, message, hchoices, hmessage, hcontent, htools⟩ := h
  have htext : messageText message = content := by simp [messageText, hcontent, Value.asStr]
  obtain ⟨reasoning, houtput⟩ : ∃ reasoning, messageOutput message =
      (if content = "" then [] else [InternalOutputItem.message "msg_0" .assistant [.text content]]) ++
        calls.map (fun call => .functionToolCall call.id call.name call.arguments reasoning) := by
    refine ⟨((message.get "reasoning_content").bind Value.asStr).filter (fun text => Str.trim text ≠ ""), ?_⟩
    have hne : ∀ reasoning, (if content = "" then []
        else [InternalOutputItem.message "msg_0" .assistant [.text content]]) ++
        calls.map (fun call => InternalOutputItem.functionToolCall call.id call.name call.arguments reasoning) ≠ [] := by
      intro reasoning hnil
      obtain ⟨htextNil, hcallsNil⟩ := List.append_eq_nil_iff.mp hnil
      rcases hnonempty with hne | hne
      · exact hne (List.map_eq_nil_iff.mp hcallsNil)
      · rw [if_neg hne] at htextNil
        exact nomatch htextNil
    rcases htools with ⟨items, hitems, hall⟩ | ⟨hnone, hlegacy, rfl⟩
    · simp only [messageOutput, htext, hitems, Option.bind_some, Value.asArray, filterMap_decode hall, hne, ↓reduceIte]
    · have hne' := hne none
      simp only [List.map_nil] at hne'
      simp only [messageOutput, htext, hnone, hlegacy, Option.bind_none, Option.toList_none, List.map_nil, hne',
        ↓reduceIte]
  have hdecode : decodeChatResponse value = .ok ⟨((value.get "id").bind Value.asStr).getD "chatcmpl_unknown",
      ((value.get "model").bind Value.asStr).getD "unknown", messageOutput message, decodeUsage (value.get "usage")⟩ := by
    simp only [decodeChatResponse, hchoices, Option.bind_some, Value.asArray, List.head?_cons, hmessage]
  refine ⟨_, hdecode, ?_⟩
  rw [houtput, List.map_append, List.map_map, answerItems]
  congr 1
  split_ifs <;> rfl

/-- An answer that is streamed in pieces ends with the output that it has as one message. -/
theorem streamed_output_eq (serde : SerdeJson) (responseId : String) {chunks : List Bytes} (hdone : EndsWithDone chunks)
    {value : Value} (hanswer : IsAnswer value content calls) (hcalls : ∀ call ∈ calls, call.id ≠ "" ∧ call.name ≠ "")
    (hnonempty : calls ≠ [] ∨ content ≠ "") (hsplit : SplitsInto (streamEvents serde chunks) content calls) (now : ℤ) :
    ∃ response output, decodeChatResponse value = .ok response ∧
      outputArray (encodeResponsesResponse now response) = some output ∧
      sentOutputs serde responseId chunks = [output] := by
  obtain ⟨response, hresponse, houtput⟩ := hanswer.output hnonempty
  refine ⟨response, answerItems content calls, hresponse, ?_, ?_⟩
  · rw [outputArray_encode, houtput]
  · rw [sentOutputs_eq, readEvents_of_done serde hdone, hsplit.outputItems hcalls]

end answer

def toolAnswer : Value :=
  .json [("choices", .array [.json [("message", .json [
    ("content", .string "hi"),
    ("tool_calls", .array [.json [("id", .string "call_1"), ("function", .json [
      ("name", .string "search"),
      ("arguments", .string "query")])]])])]])]

theorem chunks_events : Sse.events Sse.stripSpace [toolChunk, textChunk, doneChunk] =
    [toolChunkText, textChunkText, "[DONE]"] := by
  rw [chunks_lines]
  exact events_plain chunkTexts_plain

theorem toolAnswer_events : streamEvents Text.codec [toolChunk, textChunk, doneChunk] =
    [.toolCallDelta 0 (some "call_1") (some "search") (some "query"), .textDelta "hi"] := by
  have hdone : isDone "[DONE]" = true := by decide
  rw [streamEvents, chunks_events, eventsBeforeDone]
  simp only [List.takeWhile_cons, toolChunkText_open, textChunkText_open, chunkTexts_events, hdone, Bool.not_false,
    Bool.not_true,
    Bool.false_eq_true, ↓reduceIte, List.flatMap_cons, List.flatMap_nil]
  rfl

theorem toolAnswer_done : EndsWithDone [toolChunk, textChunk, doneChunk] := by
  rw [EndsWithDone, chunks_events]
  decide

theorem streamed_output_eq_tool_call :
    ∃ response output, decodeChatResponse toolAnswer = .ok response ∧
      outputArray (encodeResponsesResponse 0 response) = some output ∧
      sentOutputs Text.codec "resp_local" [toolChunk, textChunk, doneChunk] = [output] := by
  have hanswer : IsAnswer toolAnswer "hi" [⟨"call_1", "search", "query"⟩] := by
    refine ⟨_, [], _, by simp [toolAnswer, Value.get_json]; rfl, by simp [Value.get_json]; rfl, by simp [Value.get_json],
      .inl ⟨_, by simp [Value.get_json]; rfl, .cons ⟨by simp [Value.get_json], _, by simp [Value.get_json]; rfl, ?_⟩ .nil⟩⟩
    simp [Value.get_json]
  have hsplit : SplitsInto (streamEvents Text.codec [toolChunk, textChunk, doneChunk]) "hi"
      [⟨"call_1", "search", "query"⟩] := by
    rw [toolAnswer_events]
    refine ⟨rfl, ?_, ?_⟩
    · rintro index call hcall
      obtain ⟨rfl, rfl⟩ : index = 0 ∧ call = ⟨"call_1", "search", "query"⟩ := by
        cases index with
        | zero => exact ⟨rfl, (Option.some.inj hcall).symm⟩
        | succ index => exact nomatch hcall
      refine ⟨⟨some "query", rfl⟩, ?_, ?_, rfl⟩
      · simp [InternalStreamEvent.deltaId]
      · simp [InternalStreamEvent.deltaName]
    · intro index hindex
      have hne : index ≠ 0 := by
        intro hzero
        simp [hzero] at hindex
      simp [InternalStreamEvent.isToolCallDelta, hne.symm]
  exact streamed_output_eq Text.codec "resp_local" toolAnswer_done hanswer (by decide) (.inr (by decide)) hsplit 0

end Prelay.Bridge
