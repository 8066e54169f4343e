import Prelay.ChatRecording
import Prelay.JsonRoundTrip
import Prelay.SanitizedJson

namespace Prelay.Conversation

open Json Rollout Redaction Bridge

def kept (drafts : List ContentDraft) : List ContentDraft := drafts.filter (fun draft =>
  match draft.body with
  | .message _ | .reasoning _ | .toolCall _ => true
  | _ => false)

def atPhase (phase : EventPhase) (draft : ContentDraft) : ContentDraft :=
  { draft with body := match draft.body with
    | .message message => .message { message with phase := phase }
    | .reasoning reasoning => .reasoning { reasoning with phase := phase }
    | .toolCall toolCall => .toolCall { toolCall with phase := phase }
    | .toolResult toolResult => .toolResult { toolResult with phase := phase }
    | body => body }

structure IsAssistantMessage (value : Value) (message : AssistantMessage) : Prop where
  role : (value.get "role").bind Value.asStr = some "assistant"
  content : value.get "content" = some (.string message.content)
  refusal : (value.get "refusal").bind Value.asStr = none
  toolCallId : (value.get "tool_call_id").bind Value.asStr = none
  reasoning : (value.get "reasoning_content").bind Value.asStr = message.reasoning
  calls : (∃ items, value.get "tool_calls" = some (.array items) ∧ List.Forall₂ IsToolCall items message.calls) ∨
    ((value.get "tool_calls").bind Value.asArray = none ∧ message.calls = [])

section drafts

variable (env : ConversationEnv)

def textDrafts (phase : EventPhase) (content : String) : List ContentDraft :=
  if content = "" then [] else [{ body := .message ⟨phase, "assistant", none, .string (redact env content)⟩ }]

def reasoningDrafts (phase : EventPhase) (text : Option String) : List ContentDraft :=
  text.toList.map (fun text => { body := .reasoning ⟨phase, none, some text⟩ })

def callDraft (phase : EventPhase) (arguments : String → Value) (call : ChatCall) : ContentDraft :=
  { body := .toolCall ⟨phase, call.id, call.name, arguments call.arguments⟩ }

def messageDrafts (phase : EventPhase) (message : AssistantMessage) : List ContentDraft :=
  textDrafts env phase message.content ++ reasoningDrafts phase (message.reasoning.bind (readable env)) ++
    message.calls.map (callDraft phase (fun text => sanitizeJson env (.string text)))

def streamedDrafts (message : AssistantMessage) : List ContentDraft :=
  textDrafts env .response message.content ++
    reasoningDrafts .response ((message.reasoning.filter (fun text => text ≠ "")).map (redact env)) ++
    message.calls.map (callDraft .response .string)

variable {env}

theorem child_of_get {value child : Value} {key : String} (h : value.get key = some child) :
    value.child key = some child := by
  cases value with
  | object members => exact h
  | _ => exact nomatch h

theorem chatToolCall_eq {item : Value} {call : ChatCall} (h : IsToolCall item call) (phase : EventPhase) :
    chatToolCall env phase item = callDraft phase (fun text => sanitizeJson env (.string text)) call := by
  obtain ⟨hid, function, hfunction, hname, harguments⟩ := h
  have hpointer (key : String) : item.pointer ["function", key] = function.child key := by
    change ((some item).bind (Value.child "function")).bind (Value.child key) = _
    rw [Option.bind_some, child_of_get hfunction, Option.bind_some]
  unfold chatToolCall callDraft
  rw [hid, hpointer, hpointer, child_of_get hname, child_of_get harguments]
  rfl

theorem map_chatToolCall {items : List Value} {calls : List ChatCall} (h : List.Forall₂ IsToolCall items calls)
    (phase : EventPhase) : items.map (chatToolCall env phase) =
      calls.map (callDraft phase (fun text => sanitizeJson env (.string text))) := by
  induction h with
  | nil => rfl
  | cons hhead _ ih => rw [List.map_cons, List.map_cons, chatToolCall_eq hhead, ih]

theorem chatMessage_eq {value : Value} {message : AssistantMessage} (h : IsAssistantMessage value message)
    (phase : EventPhase) : chatMessage env phase value = messageDrafts env phase message := by
  have hcalls : (((value.get "tool_calls").bind Value.asArray).getD []).map (chatToolCall env phase) =
      message.calls.map (callDraft phase (fun text => sanitizeJson env (.string text))) := by
    obtain ⟨items, hitems, hall⟩ | ⟨hnone, hempty⟩ := h.calls
    · rw [hitems]
      exact map_chatToolCall hall phase
    · rw [hnone, hempty]
      rfl
  unfold chatMessage messageDrafts
  simp only [h.role, h.content, h.refusal, h.toolCallId, h.reasoning, hcalls, Option.bind_some, messageContent,
    Option.getD_some]
  congr 2
  unfold textDrafts
  split_ifs
  · rfl
  · rfl

theorem kept_append (drafts more : List ContentDraft) : kept (drafts ++ more) = kept drafts ++ kept more :=
  List.filter_append ..

theorem kept_textDrafts (phase : EventPhase) (content : String) :
    kept (textDrafts env phase content) = textDrafts env phase content := by
  unfold textDrafts
  split_ifs
  · rfl
  · rfl

theorem kept_reasoningDrafts (phase : EventPhase) (text : Option String) :
    kept (reasoningDrafts phase text) = reasoningDrafts phase text := by
  cases text with
  | none => rfl
  | some text => rfl

theorem kept_calls (phase : EventPhase) (arguments : String → Value) (calls : List ChatCall) :
    kept (calls.map (callDraft phase arguments)) = calls.map (callDraft phase arguments) := by
  apply List.filter_eq_self.mpr
  intro draft hdraft
  obtain ⟨call, -, rfl⟩ := List.mem_map.mp hdraft
  rfl

theorem kept_messageDrafts (phase : EventPhase) (message : AssistantMessage) :
    kept (messageDrafts env phase message) = messageDrafts env phase message := by
  rw [messageDrafts, kept_append, kept_append, kept_textDrafts, kept_reasoningDrafts, kept_calls]

theorem kept_usageEvent (usage : Option Value) : kept (usageEvent usage).toList = [] := by
  cases usage with
  | none => rfl
  | some usage =>
    unfold usageEvent
    dsimp only [Option.bind_eq_bind, Option.bind_some]
    split_ifs
    · rfl
    · rfl

theorem kept_chatResponse {body choice value : Value} {message : AssistantMessage} (h : IsAssistantMessage value message)
    (hchoices : body.get "choices" = some (.array [choice])) (hmessage : choice.get "message" = some value) :
    kept (chatResponse env body) = messageDrafts env .response message := by
  unfold chatResponse
  rw [kept_append, kept_usageEvent, List.append_nil, hchoices]
  change kept ([choice].flatMap _) = _
  rw [List.flatMap_singleton, hmessage, Option.map_some, Option.getD_some, chatMessage_eq h, kept_messageDrafts]

theorem chatRequest_eq {request value : Value} {before after : List Value} {message : AssistantMessage}
    (h : IsAssistantMessage value message)
    (hmessages : request.get "messages" = some (.array (before ++ value :: after))) :
    chatRequest env request = before.flatMap (chatMessage env .request) ++ messageDrafts env .request message ++
      after.flatMap (chatMessage env .request) := by
  unfold chatRequest
  rw [hmessages]
  change (before ++ value :: after).flatMap _ = _
  rw [List.flatMap_append, List.flatMap_cons, chatMessage_eq h, List.append_assoc]

theorem atPhase_messageDrafts (phase phase' : EventPhase) (message : AssistantMessage) :
    (messageDrafts env phase message).map (atPhase phase') = messageDrafts env phase' message := by
  have htext : (textDrafts env phase message.content).map (atPhase phase') = textDrafts env phase' message.content := by
    unfold textDrafts
    split_ifs
    · rfl
    · rfl
  have hreasoning (text : Option String) : (reasoningDrafts phase text).map (atPhase phase') =
      reasoningDrafts phase' text := by
    cases text with
    | none => rfl
    | some text => rfl
  unfold messageDrafts
  rw [List.map_append, List.map_append, htext, hreasoning, List.map_map]
  rfl

theorem newToolCalls_eq {calls : List ChatCall} {seen : List String} (hnodup : (calls.map ChatCall.id).Nodup)
    (hseen : ∀ call ∈ calls, call.id ∉ seen) :
    newToolCalls seen (calls.map triple) = calls.map (callDraft .response .string) := by
  induction calls generalizing seen with
  | nil => rfl
  | cons call calls ih =>
    rw [List.map_cons, List.nodup_cons] at hnodup
    rw [List.forall_mem_cons] at hseen
    rw [List.map_cons, List.map_cons, triple, newToolCalls, if_neg hseen.1, ih hnodup.2]
    · rfl
    · intro other hother
      rw [List.mem_cons, not_or]
      refine ⟨?_, hseen.2 other hother⟩
      intro heq
      exact hnodup.1 (List.mem_map.mpr ⟨other, hother, heq⟩)

theorem kept_streamedText (content : String) :
    kept (if content ≠ "" then [{ body := .message ⟨.response, "assistant", none, .string (redact env content)⟩ }]
      else []) =
      textDrafts env .response content := by
  unfold textDrafts
  by_cases hcontent : content = ""
  · rw [if_pos hcontent, if_neg (not_not.mpr hcontent)]
    rfl
  · rw [if_neg hcontent, if_pos hcontent]
    rfl

theorem kept_streamedReasoning (reasoning : Option String) :
    kept (if reasoning.getD "" ≠ "" then
        [{ body := .reasoning ⟨.response, none, some (redact env (reasoning.getD ""))⟩ }] else []) =
      reasoningDrafts .response ((reasoning.filter (fun text => text ≠ "")).map (redact env)) := by
  cases reasoning with
  | none => rfl
  | some text =>
    by_cases htext : text = ""
    · rw [htext]
      rfl
    · rw [Option.getD_some, if_pos htext, Option.filter_some, if_pos (decide_eq_true htext)]
      rfl

theorem kept_usage {condition : Prop} [Decidable condition] (usage : ConversationUsage) :
    kept (if condition then [{ body := .usage usage }] else []) = [] := by
  split_ifs
  · rfl
  · rfl

theorem kept_streamSnapshot {chunks : List Bytes} {message : AssistantMessage}
    (hsplit : SplitsMessage (chatStreamEvents env.serde chunks) message)
    (hcalls : ∀ call ∈ message.calls, call.id ≠ "" ∧ call.name ≠ "") (hnodup : (message.calls.map ChatCall.id).Nodup) :
    kept (streamSnapshot env ((chatStatsDecoder env.serde).decode id { inner := {} } chunks).2) =
      streamedDrafts env message := by
  obtain ⟨st, hst, hstats⟩ := chatStats_recorded env.serde chunks
  have hcaptured : st.stats.capturedToolCalls = message.calls.map triple :=
    capturedToolCalls_eq (fun index => (hst.shown.calls index).trans (hsplit.shown hcalls index))
  have htext : st.stats.outputText = message.content := hst.shown.text.trans hsplit.text
  have hreasoning : st.stats.reasoningText = message.reasoning.getD "" := hst.shown.reasoning.trans hsplit.reasoning
  rw [hstats]
  unfold streamSnapshot streamedDrafts
  simp only [hst.items, htext, hreasoning, hcaptured, List.flatMap_nil, List.any_nil, List.filterMap_nil, Bool.not_false,
    true_and, List.nil_append, newToolCalls_eq hnodup (fun _ _ => List.not_mem_nil), kept_append,
    kept_calls, kept_streamedText, kept_streamedReasoning, kept_usage, List.append_nil]

end drafts

section alike

variable (env : ConversationEnv)

structure Verbatim (text : String) : Prop where
  plain : looksLikeBinary text = false
  scalar : ∀ value, env.serde.fromStr text = some value → isComposite value = false
  redacted : redact env text = text

/-- A message without anything that a stream records otherwise: arguments that stand as they are, and reasoning that
blanks around it make no difference to. -/
structure PlainMessage (message : AssistantMessage) : Prop where
  calls : ∀ call ∈ message.calls, Verbatim env call.arguments
  reasoning : ∀ text ∈ message.reasoning, text = "" ∨ Str.trim text ≠ "" ∧ redact env text = redact env (Str.trim text)

variable {env}

theorem sanitizeJson_string_iff (text : String) :
    sanitizeJson env (.string text) = .string text ↔ Verbatim env text := by
  rw [sanitizeJson]
  constructor
  · intro h
    split_ifs at h with hbinary
    · cases h
    · split at h
      · next parsed hparsed =>
        split_ifs at h with hcomposite
        · exact absurd h (sanitizeJson_composite hcomposite text)
        · refine ⟨by simpa using hbinary, ?_, Value.string.inj h⟩
          intro value hvalue
          rw [hparsed] at hvalue
          rw [← Option.some.inj hvalue]
          simpa using hcomposite
      · next hnone =>
        refine ⟨by simpa using hbinary, ?_, Value.string.inj h⟩
        intro value hvalue
        rw [hnone] at hvalue
        cases hvalue
  · intro h
    rw [if_neg (by simp [h.plain])]
    split
    · next parsed hparsed => rw [h.scalar parsed hparsed, if_neg Bool.false_ne_true, h.redacted]
    · rw [h.redacted]

theorem reasoningDrafts_inj {phase : EventPhase} {text other : Option String} :
    reasoningDrafts phase text = reasoningDrafts phase other ↔ text = other := by
  cases text with
  | none => cases other <;> simp [reasoningDrafts]
  | some text => cases other <;> simp [reasoningDrafts]

theorem reasoning_iff (reasoning : Option String) :
    (reasoning.filter (fun text => text ≠ "")).map (redact env) = reasoning.bind (readable env) ↔
      ∀ text ∈ reasoning, text = "" ∨ Str.trim text ≠ "" ∧ redact env text = redact env (Str.trim text) := by
  cases reasoning with
  | none => simp
  | some text =>
    simp only [Option.bind_some, Option.mem_some_iff, forall_eq', Option.filter_some, readable]
    by_cases htext : text = ""
    · rw [htext]
      exact iff_of_true rfl (.inl rfl)
    · rw [if_pos (decide_eq_true htext), Option.map_some]
      by_cases hblank : Str.trim text = ""
      · simp [htext, hblank]
      · simp [htext, hblank]

theorem streamed_iff (message : AssistantMessage) :
    streamedDrafts env message = messageDrafts env .response message ↔ PlainMessage env message := by
  have hcalls : message.calls.map (callDraft .response .string) =
      message.calls.map (callDraft .response (fun text => sanitizeJson env (.string text))) ↔
        ∀ call ∈ message.calls, Verbatim env call.arguments := by
    rw [List.map_inj_left]
    refine forall₂_congr (fun call _ => ?_)
    rw [← sanitizeJson_string_iff]
    simp only [callDraft, ContentDraft.mk.injEq, ContentEventBody.toolCall.injEq, ConversationToolCall.mk.injEq, true_and]
    exact eq_comm
  unfold streamedDrafts messageDrafts
  constructor
  · intro h
    obtain ⟨hdrafts, htools⟩ := List.append_inj' h (by simp)
    have hreasoning := reasoningDrafts_inj.mp (List.append_cancel_left hdrafts)
    exact ⟨hcalls.mp htools, (reasoning_iff message.reasoning).mp hreasoning⟩
  · intro h
    rw [hcalls.mpr h.calls, (reasoning_iff message.reasoning).mpr h.reasoning]

/-- Streamed, answered and sent back, a message is recorded alike. -/
def RecordedAlike (env : ConversationEnv) (chunks : List Bytes) (body request : Value) (before after : List Value) :
    Prop :=
  kept (streamSnapshot env ((chatStatsDecoder env.serde).decode id { inner := {} } chunks).2) =
      kept (chatResponse env body) ∧
    chatRequest env request = before.flatMap (chatMessage env .request) ++
      (kept (chatResponse env body)).map (atPhase .request) ++ after.flatMap (chatMessage env .request)

theorem recordedAlike_iff (env : ConversationEnv) {message : AssistantMessage}
    (hcalls : ∀ call ∈ message.calls, call.id ≠ "" ∧ call.name ≠ "") (hnodup : (message.calls.map ChatCall.id).Nodup)
    {chunks : List Bytes} (hsplit : SplitsMessage (chatStreamEvents env.serde chunks) message)
    {body choice value : Value} (hvalue : IsAssistantMessage value message)
    (hchoices : body.get "choices" = some (.array [choice])) (hmessage : choice.get "message" = some value)
    {request : Value} {before after : List Value}
    (hmessages : request.get "messages" = some (.array (before ++ value :: after))) :
    RecordedAlike env chunks body request before after ↔ PlainMessage env message := by
  unfold RecordedAlike
  rw [kept_streamSnapshot hsplit hcalls hnodup, kept_chatResponse hvalue hchoices hmessage, streamed_iff,
    atPhase_messageDrafts, chatRequest_eq hvalue hmessages]
  exact and_iff_left rfl

def plainConversation : ConversationEnv := ⟨Text.codec, Text.codec_shrinks, {}⟩

def callFunction (arguments : String) : Value :=
  .json [("name", .string "search"), ("arguments", .string arguments)]

def callMessage (arguments : String) : Value :=
  .json [("role", .string "assistant"), ("content", .string "hi"), ("tool_calls", .array [
    .json [("id", .string "call_1"), ("function", callFunction arguments)]])]

def callBody (arguments : String) : Value :=
  .json [("choices", .array [.json [("message", callMessage arguments)]])]

def callRequest (arguments : String) : Value := .json [("messages", .array [callMessage arguments])]

def callStream (arguments : String) : List Bytes :=
  [Str.utf8 ("data: " ++ Text.codec.toStr (.json [("choices", .array [.json [("delta", .json [
    ("content", .string "hi"), ("tool_calls", .array [
      .json [("index", .nat 0), ("id", .string "call_1"), ("function", callFunction arguments)]])])]])]) ++ "\n\n"),
    doneChunk]

def calledMessage (arguments : String) : AssistantMessage := ⟨"hi", none, [⟨"call_1", "search", arguments⟩]⟩

theorem callMessage_is (arguments : String) : IsAssistantMessage (callMessage arguments) (calledMessage arguments) where
  role := by simp [callMessage, Value.get_json, Value.asStr]
  content := by simp [callMessage, Value.get_json, calledMessage]
  refusal := by simp [callMessage, Value.get_json]
  toolCallId := by simp [callMessage, Value.get_json]
  reasoning := by simp [callMessage, Value.get_json, calledMessage]
  calls := by
    refine .inl ⟨_, by simp [callMessage, Value.get_json]; rfl, .cons ?_ .nil⟩
    refine ⟨by simp [Value.get_json], callFunction arguments, by simp [Value.get_json], ?_⟩
    simp [callFunction, Value.get_json]

theorem callEvents_split (arguments : String) :
    SplitsMessage [.textDelta "hi", .toolCallDelta 0 (some "call_1") (some "search") (some arguments)]
      (calledMessage arguments) where
  text := by simp [InternalStreamEvent.text, calledMessage, String.join]
  reasoning := rfl
  each index call hcall := by
    obtain ⟨rfl, rfl⟩ : index = 0 ∧ call = ⟨"call_1", "search", arguments⟩ := by
      cases index with
      | zero => exact ⟨rfl, (Option.some.inj hcall).symm⟩
      | succ index => cases hcall
    constructor
    case arguments => exact String.empty_append
    all_goals simp [InternalStreamEvent.deltaId, InternalStreamEvent.deltaName]
  others index hindex := by
    have hne : index ≠ 0 := by
      intro hzero
      simp [calledMessage, hzero] at hindex
    simp [InternalStreamEvent.isToolCallDelta, hne.symm]

def callDelta (arguments : String) : Value :=
  .json [("choices", .array [.json [("delta", .json [
    ("content", .string "hi"), ("tool_calls", .array [
      .json [("index", .nat 0), ("id", .string "call_1"), ("function", callFunction arguments)]])])]])]

theorem callDelta_normal (arguments : String) : (callDelta arguments).Normal := by
  have hfunction : (callFunction arguments).Normal := by
    apply Value.json_normal
    simp [Value.Normal, Value.normalize]
  have hcall : (Value.json [("index", .nat 0), ("id", .string "call_1"),
      ("function", callFunction arguments)]).Normal := by
    apply Value.json_normal
    simp only [List.forall_mem_cons, hfunction, true_and]
    simp [Value.Normal, Value.normalize, Value.nat]
  have hdelta : (Value.json [("content", .string "hi"), ("tool_calls", .array [
      .json [("index", .nat 0), ("id", .string "call_1"), ("function", callFunction arguments)]])]).Normal := by
    apply Value.json_normal
    simp only [List.forall_mem_cons, Value.normal_array, hcall, true_and]
    simp [Value.Normal, Value.normalize]
  have hchoice : (Value.json [("delta", .json [("content", .string "hi"), ("tool_calls", .array [
      .json [("index", .nat 0), ("id", .string "call_1"), ("function", callFunction arguments)]])])]).Normal := by
    apply Value.json_normal
    simpa only [List.mem_singleton, forall_eq] using hdelta
  apply Value.json_normal
  simpa only [List.mem_singleton, forall_eq, Value.normal_array] using hchoice

theorem callStream_events (arguments : String) : chatStreamEvents Text.codec (callStream arguments) =
    [.textDelta "hi", .toolCallDelta 0 (some "call_1") (some "search") (some arguments)] := by
  have hstream : callStream arguments = [Text.codec.toStr (callDelta arguments), "[DONE]"].map
      (fun data => Str.utf8 ("data: " ++ data ++ "\n\n")) := rfl
  have hplain : ∀ data ∈ [Text.codec.toStr (callDelta arguments), "[DONE]"], Plain data := by
    intro data hdata
    rcases List.mem_pair.mp hdata with rfl | rfl
    · exact Text.codec_lawful.no_control _
    · simp [Plain]
  have hdone : payloadEvents Text.codec "[DONE]" = [] := by decide
  have hopen : isDone (Text.codec.toStr (callDelta arguments)) = false := by
    apply isDone_brace
    exact String.toList_ofList
  have hcall : decodeChatToolCallDelta (.json [("index", .nat 0), ("id", .string "call_1"),
      ("function", callFunction arguments)]) = some ⟨0, some "call_1", some "search", some arguments⟩ := by
    simp [decodeChatToolCallDelta, callFunction, Value.get_json, Value.asStr, Value.asU64, Value.nat]
  have hdelta : internalEventsOf Text.codec (Text.codec.toStr (callDelta arguments)) =
      [.textDelta "hi", .toolCallDelta 0 (some "call_1") (some "search") (some arguments)] := by
    rw [internalEventsOf, decodeChatSseEvent, Text.codec_exact.fromStr_toStr, (callDelta_normal arguments : _ = _)]
    simp [callDelta, hcall, Value.get_json, choiceEvent, Value.asArray, Value.asStr, finishReasonOf,
      ChatSseEvent.toInternalEvents]
  rw [chatStreamEvents, hstream, events_plain hplain, List.flatMap_cons, List.flatMap_cons, hdone, payloadEvents, hopen,
    if_neg Bool.false_ne_true, hdelta]
  rfl

def secretArguments : String := "\x7b\"password\":\"x\"\x7d"

theorem recordedAlike_query :
    RecordedAlike plainConversation (callStream "query") (callBody "query") (callRequest "query") [] [] := by
  have hsplit : SplitsMessage (chatStreamEvents plainConversation.serde (callStream "query")) (calledMessage "query") := by
    rw [show plainConversation.serde = Text.codec from rfl, callStream_events]
    exact callEvents_split "query"
  refine (recordedAlike_iff plainConversation (by decide) (by decide) hsplit (callMessage_is "query")
    (by simp [callBody, Value.get_json]; rfl) (by simp [Value.get_json]) (by simp [callRequest, Value.get_json])).mpr ?_
  constructor
  · intro call hcall
    rw [List.mem_singleton.mp hcall]
    refine ⟨by decide +kernel, ?_, by decide +kernel⟩
    intro value hvalue
    have hnone : Text.codec.fromStr "query" = none := by decide +kernel
    rw [show plainConversation.serde = Text.codec from rfl, hnone] at hvalue
    exact nomatch hvalue
  · intro text htext
    exact nomatch htext

/-- The arguments of a streamed tool call are recorded with their secrets. -/
theorem recordedAlike_not :
    SplitsMessage (chatStreamEvents plainConversation.serde (callStream secretArguments)) (calledMessage secretArguments) ∧
      IsAssistantMessage (callMessage secretArguments) (calledMessage secretArguments) ∧
      ¬RecordedAlike plainConversation (callStream secretArguments) (callBody secretArguments)
        (callRequest secretArguments) [] [] := by
  have hcalls : ∀ call ∈ (calledMessage secretArguments).calls, call.id ≠ "" ∧ call.name ≠ "" := by decide
  have hnodup : ((calledMessage secretArguments).calls.map ChatCall.id).Nodup := by decide
  have hsplit : SplitsMessage (chatStreamEvents plainConversation.serde (callStream secretArguments))
      (calledMessage secretArguments) := by
    rw [show plainConversation.serde = Text.codec from rfl, callStream_events]
    exact callEvents_split _
  have hvalue := callMessage_is secretArguments
  refine ⟨hsplit, hvalue, ?_⟩
  intro h
  have hchoices : (callBody secretArguments).get "choices" =
      some (.array [.json [("message", callMessage secretArguments)]]) := by
    simp [callBody, Value.get_json]
  have hmessage : (Value.json [("message", callMessage secretArguments)]).get "message" =
      some (callMessage secretArguments) := by
    simp [Value.get_json]
  have halike := h.1
  rw [kept_streamSnapshot hsplit hcalls hnodup, kept_chatResponse hvalue hchoices hmessage, streamed_iff] at halike
  have hverbatim := halike.calls _ (List.mem_singleton_self _)
  have hparsed : Text.codec.fromStr secretArguments = some (.object [("password", .string "x")]) := by
    decide +kernel
  exact absurd (hverbatim.scalar _ hparsed) (by decide)

end alike

end Prelay.Conversation
