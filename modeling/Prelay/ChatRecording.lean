import Prelay.Conversation
import Prelay.NativeAgreement
import Prelay.SplitAnswer

namespace Prelay.Bridge

open Json

namespace InternalStreamEvent

def reasoningText : InternalStreamEvent → String
  | .reasoningDelta delta => delta
  | _ => ""

end InternalStreamEvent

def lastNonempty (texts : List String) : String := (texts.filter (fun text => text ≠ "")).getLast?.getD ""

theorem lastNonempty_snoc (texts : List String) (text : String) :
    lastNonempty (texts ++ [text]) = if text = "" then lastNonempty texts else text := by
  unfold lastNonempty
  rw [List.filter_append]
  by_cases htext : text = ""
  · simp [htext]
  · simp [htext]

def shownCall (captured : CapturedToolCall) : String × String × String := (captured.id, captured.name, captured.arguments)

def shown (stats : StreamStatsSnapshot) (index : ℕ) : Option (String × String × String) :=
  stats.toolCalls[index]?.map shownCall

def shownDeltas (events : List InternalStreamEvent) (index : ℕ) : Option (String × String × String) :=
  if events.any (InternalStreamEvent.isToolCallDelta index) then some
    (lastNonempty (events.filterMap (InternalStreamEvent.deltaId index)),
      lastNonempty (events.filterMap (InternalStreamEvent.deltaName index)), joinedArguments index events)
  else none

def BringsNothing (toolCall : ChatToolCallState) (call : String × String × String) : Prop :=
  (toolCall.id = "" ∨ toolCall.id = call.1) ∧ (toolCall.name = "" ∨ toolCall.name = call.2.1) ∧
    toolCall.arguments = call.2.2

structure ShownEvents (events : List InternalStreamEvent) (stats : StreamStatsSnapshot) : Prop where
  text : stats.outputText = String.join (events.map InternalStreamEvent.text)
  reasoning : stats.reasoningText = String.join (events.map InternalStreamEvent.reasoningText)
  calls : ∀ index, shown stats index = shownDeltas events index

def CallsOf (events : List InternalStreamEvent) (toolCalls : Std.ExtTreeMap ℕ ChatToolCallState) : Prop :=
  ∀ index, toolCalls[index]?.map callOf =
    if events.any (InternalStreamEvent.isToolCallDelta index) then some (streamedCall events index) else none

structure RecordedEvents (events : List InternalStreamEvent) (st : ChatStats) : Prop where
  shown : ShownEvents events st.stats
  calls : CallsOf events st.toolCalls
  items : st.stats.responseOutputItems = []

section deltas

variable {events : List InternalStreamEvent} {st : ChatStats}

theorem shownDeltas_other {event : InternalStreamEvent} {index : ℕ} (h : event.isToolCallDelta index = false) :
    shownDeltas (events ++ [event]) index = shownDeltas events index := by
  have hid : event.deltaId index = none := by
    cases event <;> simp_all [InternalStreamEvent.isToolCallDelta, InternalStreamEvent.deltaId]
  have hname : event.deltaName index = none := by
    cases event <;> simp_all [InternalStreamEvent.isToolCallDelta, InternalStreamEvent.deltaName]
  have harguments : event.deltaArguments index = none := by
    cases event <;> simp_all [InternalStreamEvent.isToolCallDelta, InternalStreamEvent.deltaArguments]
  unfold shownDeltas
  rw [any_snoc_of_false h, joinedArguments_snoc, harguments]
  simp [hid, hname]

theorem shownDeltas_none {index : ℕ} (h : events.any (InternalStreamEvent.isToolCallDelta index) = false) :
    events.filterMap (InternalStreamEvent.deltaId index) = [] ∧
      events.filterMap (InternalStreamEvent.deltaName index) = [] ∧
      events.filterMap (InternalStreamEvent.deltaArguments index) = [] := by
  rw [List.any_eq_false] at h
  simp only [List.filterMap_eq_nil_iff]
  refine ⟨?_, ?_, ?_⟩
  all_goals
    intro event hevent
    have hother := h event hevent
    cases event <;> simp_all [InternalStreamEvent.isToolCallDelta, InternalStreamEvent.deltaId,
      InternalStreamEvent.deltaName, InternalStreamEvent.deltaArguments]

theorem shownDeltas_getD (index : ℕ) :
    (shownDeltas events index).getD ("", "", "") =
      (lastNonempty (events.filterMap (InternalStreamEvent.deltaId index)),
        lastNonempty (events.filterMap (InternalStreamEvent.deltaName index)), joinedArguments index events) := by
  unfold shownDeltas
  split_ifs with hany
  · rfl
  · obtain ⟨hid, hname, harguments⟩ := shownDeltas_none (by simpa using hany)
    rw [joinedArguments, hid, hname, harguments]
    rfl

theorem lastNonempty_option (texts : List String) (text : Option String) :
    lastNonempty (texts ++ text.toList) = if text.getD "" = "" then lastNonempty texts else text.getD "" := by
  cases text with
  | none => simp
  | some text => exact lastNonempty_snoc texts text

def addDelta (call : String × String × String) (id name arguments : Option String) : String × String × String :=
  (if id.getD "" = "" then call.1 else id.getD "", if name.getD "" = "" then call.2.1 else name.getD "",
    call.2.2 ++ arguments.getD "")

theorem shownDeltas_delta (index : ℕ) (id name arguments : Option String) :
    shownDeltas (events ++ [.toolCallDelta index id name arguments]) index =
      some (addDelta ((shownDeltas events index).getD ("", "", "")) id name arguments) := by
  rw [shownDeltas_getD, addDelta, ← lastNonempty_option, ← lastNonempty_option, shownDeltas, if_pos (by
    simp [InternalStreamEvent.isToolCallDelta]), joinedArguments_snoc]
  have hsnoc (f : InternalStreamEvent → Option String) (event : InternalStreamEvent) :
      (events ++ [event]).filterMap f = events.filterMap f ++ (f event).toList := by
    rw [List.filterMap_append]
    cases h : f event <;> simp [h]
  rw [hsnoc, hsnoc]
  simp [InternalStreamEvent.deltaId, InternalStreamEvent.deltaName, InternalStreamEvent.deltaArguments]

theorem shown_delta (stats : StreamStatsSnapshot) (index : ℕ) (id name arguments : Option String) (other : ℕ) :
    shown (stats.recordEvent (.toolCallDelta index id name arguments)) other =
      if index = other then some (addDelta ((shown stats other).getD ("", "", "")) id name arguments)
      else shown stats other := by
  unfold shown
  change (Std.ExtTreeMap.insert _ _ _)[other]?.map shownCall = _
  rw [Std.ExtTreeMap.getElem?_insert]
  by_cases hindex : index = other
  · subst hindex
    rw [if_pos (Std.LawfulEqCmp.compare_eq_iff_eq.mpr rfl), if_pos rfl, entry_eq]
    cases stats.toolCalls[index]? with
    | none => rfl
    | some captured => rfl
  · rw [if_neg (fun heq => hindex (Std.LawfulEqCmp.compare_eq_iff_eq.mp heq)), if_neg hindex]

theorem ShownEvents.other {stats : StreamStatsSnapshot} (h : ShownEvents events stats) {event : InternalStreamEvent}
    (hcalls : (stats.recordEvent event).toolCalls = stats.toolCalls)
    (hdelta : ∀ index, event.isToolCallDelta index = false)
    (hreasoning : (stats.recordEvent event).reasoningText = stats.reasoningText ++ event.reasoningText) :
    ShownEvents (events ++ [event]) (stats.recordEvent event) := by
  constructor
  · rw [StreamStatsSnapshot.recordEvent_outputText, h.text]
    simp
  · rw [hreasoning, h.reasoning]
    simp
  · intro index
    rw [shown, hcalls, shownDeltas_other (hdelta index)]
    exact h.calls index

theorem ShownEvents.record {stats : StreamStatsSnapshot} (h : ShownEvents events stats) {event : InternalStreamEvent}
    (hdone : ∀ index id name arguments, event ≠ .toolCallDone index id name arguments) :
    ShownEvents (events ++ [event]) (stats.recordEvent event) := by
  cases event with
  | toolCallDelta index id name arguments =>
    constructor
    · rw [StreamStatsSnapshot.recordEvent_outputText, h.text]
      simp
    · simpa [StreamStatsSnapshot.recordEvent, StreamStatsSnapshot.recordToolCallDelta,
        InternalStreamEvent.reasoningText] using h.reasoning
    · intro other
      rw [shown_delta]
      by_cases hindex : index = other
      · subst hindex
        rw [if_pos rfl, shownDeltas_delta, h.calls]
      · rw [if_neg hindex, h.calls, shownDeltas_other]
        simpa [InternalStreamEvent.isToolCallDelta] using hindex
  | toolCallDone index id name arguments => exact absurd rfl (hdone index id name arguments)
  | textDelta delta => exact h.other rfl (fun _ => rfl) (String.append_empty).symm
  | reasoningDelta delta => exact h.other rfl (fun _ => rfl) rfl
  | usage usage => exact h.other rfl (fun _ => rfl) (String.append_empty).symm
  | finished reason => exact h.other rfl (fun _ => rfl) (String.append_empty).symm

theorem shownEvents_start : ShownEvents [] {} where
  text := rfl
  reasoning := rfl
  calls index := by simp [shown, shownDeltas]

section calls

variable {toolCalls : Std.ExtTreeMap ℕ ChatToolCallState}

theorem callsOf_start : CallsOf [] ∅ := by
  intro index
  simp

theorem CallsOf.other (h : CallsOf events toolCalls) {event : InternalStreamEvent}
    (hdelta : ∀ index, event.isToolCallDelta index = false) : CallsOf (events ++ [event]) toolCalls := by
  intro index
  have hid : event.deltaId index = none := by
    have hother := hdelta index
    cases event <;> simp_all [InternalStreamEvent.isToolCallDelta, InternalStreamEvent.deltaId]
  have hname : event.deltaName index = none := by
    have hother := hdelta index
    cases event <;> simp_all [InternalStreamEvent.isToolCallDelta, InternalStreamEvent.deltaName]
  have harguments : event.deltaArguments index = none := by
    have hother := hdelta index
    cases event <;> simp_all [InternalStreamEvent.isToolCallDelta, InternalStreamEvent.deltaArguments]
  rw [any_snoc_of_false (hdelta index), h index, streamedCall, streamedCall, lastId_snoc, lastName_snoc,
    joinedArguments_snoc, hid, hname, harguments]
  simp

theorem streamedCall_none {index : ℕ} (h : events.any (InternalStreamEvent.isToolCallDelta index) = false) :
    streamedCall events index = ⟨"", "", ""⟩ := by
  obtain ⟨hid, hname⟩ := lastId_of_not_any index events h
  obtain ⟨-, -, harguments⟩ := shownDeltas_none h
  rw [streamedCall, hid, hname, joinedArguments, harguments]
  rfl

theorem CallsOf.getD (h : CallsOf events toolCalls) (index : ℕ) :
    callOf (toolCalls.getD index {}) = streamedCall events index := by
  have hcall := h index
  rw [Std.ExtTreeMap.getD_eq_getD_getElem?]
  split_ifs at hcall with hany
  · obtain ⟨toolCall, hget, heq⟩ := Option.map_eq_some_iff.mp hcall
    rw [hget]
    exact heq
  · rw [Option.map_eq_none_iff.mp hcall, streamedCall_none (by simpa using hany)]
    rfl

theorem CallsOf.delta (h : CallsOf events toolCalls) {index : ℕ} {id name arguments : Option String}
    {toolCall : ChatToolCallState}
    (hcall : callOf toolCall = ⟨id.getD (toolCalls.getD index {}).id, name.getD (toolCalls.getD index {}).name,
      (toolCalls.getD index {}).arguments ++ arguments.getD ""⟩) :
    CallsOf (events ++ [.toolCallDelta index id name arguments]) (toolCalls.insert index toolCall) := by
  intro other
  rw [Std.ExtTreeMap.getElem?_insert]
  by_cases hindex : index = other
  · subst hindex
    obtain ⟨hid, hname, harguments⟩ := ChatCall.mk.inj (h.getD index)
    rw [if_pos (Std.LawfulEqCmp.compare_eq_iff_eq.mpr rfl), if_pos (by simp [InternalStreamEvent.isToolCallDelta]),
      Option.map_some, hcall, streamedCall, lastId_snoc, lastName_snoc, joinedArguments_snoc, hid, hname, harguments]
    simp [InternalStreamEvent.deltaId, InternalStreamEvent.deltaName, InternalStreamEvent.deltaArguments]
  · have hother : InternalStreamEvent.isToolCallDelta other (.toolCallDelta index id name arguments) = false := by
      simpa [InternalStreamEvent.isToolCallDelta] using hindex
    rw [if_neg (fun heq => hindex (Std.LawfulEqCmp.compare_eq_iff_eq.mp heq)), h other, any_snoc_of_false hother,
      streamedCall, streamedCall, lastId_snoc, lastName_snoc, joinedArguments_snoc]
    simp [InternalStreamEvent.deltaId, InternalStreamEvent.deltaName, InternalStreamEvent.deltaArguments, hindex]

theorem last_brings (texts : List String) :
    texts.getLast?.getD "" = "" ∨ texts.getLast?.getD "" = lastNonempty texts := by
  induction texts using List.reverseRecOn with
  | nil => exact .inl rfl
  | append_singleton texts text _ =>
    rw [lastNonempty_snoc, List.getLast?_concat, Option.getD_some]
    by_cases htext : text = ""
    · exact .inl htext
    · exact .inr (if_neg htext).symm

theorem CallsOf.brings (h : CallsOf events toolCalls) {index : ℕ} {toolCall : ChatToolCallState}
    (hget : toolCalls[index]? = some toolCall) :
    ∃ call, shownDeltas events index = some call ∧ BringsNothing toolCall call := by
  have hcall := h index
  rw [hget, Option.map_some] at hcall
  split_ifs at hcall with hany
  obtain ⟨hid, hname, harguments⟩ := ChatCall.mk.inj (Option.some.inj hcall)
  refine ⟨_, if_pos hany, ?_, ?_, harguments⟩
  · rw [hid]
    exact last_brings _
  · rw [hname]
    exact last_brings _

end calls

theorem RecordedEvents.event (h : RecordedEvents events st) {event : InternalStreamEvent}
    (hdone : ∀ index id name arguments, event ≠ .toolCallDone index id name arguments) :
    RecordedEvents (events ++ [event]) ((st.takeToolCallDelta event).record event) := by
  have hrecord : ((st.takeToolCallDelta event).record event).stats = st.stats.recordEvent event := by
    cases event <;> rfl
  refine ⟨hrecord ▸ h.shown.record hdone, ?_, ?_⟩
  · cases event with
    | toolCallDelta index id name arguments => exact h.calls.delta rfl
    | toolCallDone index id name arguments => exact absurd rfl (hdone index id name arguments)
    | textDelta delta => exact h.calls.other (fun _ => rfl)
    | reasoningDelta delta => exact h.calls.other (fun _ => rfl)
    | usage usage => exact h.calls.other (fun _ => rfl)
    | finished reason => exact h.calls.other (fun _ => rfl)
  · rw [hrecord, StreamStatsSnapshot.recordEvent_responseOutputItems]
    exact h.items

theorem shown_done {stats : StreamStatsSnapshot} {index : ℕ} {toolCall : ChatToolCallState}
    (h : ∃ call, shown stats index = some call ∧ BringsNothing toolCall call) (other : ℕ) :
    shown (stats.recordToolCallDone index toolCall.id toolCall.name toolCall.arguments) other = shown stats other := by
  obtain ⟨call, hcall, hid, hname, harguments⟩ := h
  unfold shown at hcall ⊢
  change (Std.ExtTreeMap.insert _ _ _)[other]?.map shownCall = _
  rw [Std.ExtTreeMap.getElem?_insert]
  by_cases hindex : index = other
  · subst hindex
    rw [if_pos (Std.LawfulEqCmp.compare_eq_iff_eq.mpr rfl), hcall, entry_eq]
    obtain ⟨captured, hcaptured, rfl⟩ := Option.map_eq_some_iff.mp hcall
    rw [hcaptured, Option.map_some, Option.getD_some, Option.some.injEq]
    simp only [shownCall] at hid hname harguments ⊢
    refine Prod.ext ?_ (Prod.ext ?_ ?_)
    · dsimp only
      split_ifs with hempty
      · rfl
      · exact hid.resolve_left hempty
    · dsimp only
      split_ifs with hempty
      · rfl
      · exact hname.resolve_left hempty
    · dsimp only
      split_ifs with hgiven
      · exact harguments
      · rfl
  · rw [if_neg (fun heq => hindex (Std.LawfulEqCmp.compare_eq_iff_eq.mp heq))]

theorem recordDone_shown {stats : StreamStatsSnapshot} {toolCalls : List (ℕ × ChatToolCallState)}
    (h : ∀ entry ∈ toolCalls, ∃ call, shown stats entry.1 = some call ∧ BringsNothing entry.2 call) :
    let closed := stats.recordEvents (toolCalls.map (fun p => .toolCallDone p.1 p.2.id p.2.name p.2.arguments))
    (∀ index, shown closed index = shown stats index) ∧ closed.outputText = stats.outputText ∧
      closed.reasoningText = stats.reasoningText ∧ closed.responseOutputItems = stats.responseOutputItems := by
  induction toolCalls generalizing stats with
  | nil => exact ⟨fun _ => rfl, rfl, rfl, rfl⟩
  | cons entry toolCalls ih =>
    obtain ⟨index, toolCall⟩ := entry
    rw [List.forall_mem_cons] at h
    have hfirst := shown_done h.1
    have hrest := @ih (stats.recordToolCallDone index toolCall.id toolCall.name toolCall.arguments) (by
      intro entry hentry
      rw [hfirst]
      exact h.2 entry hentry)
    refine ⟨?_, hrest.2.1, hrest.2.2.1, hrest.2.2.2⟩
    intro other
    exact (hrest.1 other).trans (hfirst other)

theorem RecordedEvents.complete (h : RecordedEvents events st) : RecordedEvents events st.complete := by
  unfold ChatStats.complete
  split_ifs with hcompleted
  · exact h
  · have hbrings : ∀ entry ∈ st.toolCalls.toList.filter (fun p => !p.2.done),
        ∃ call, Bridge.shown st.stats entry.1 = some call ∧ BringsNothing entry.2 call := by
      intro entry hentry
      rw [h.shown.calls]
      exact h.calls.brings (Std.ExtTreeMap.mem_toList_iff_getElem?_eq_some.mp (List.mem_filter.mp hentry).1)
    obtain ⟨hshown, htext, hreasoning, hitems⟩ := recordDone_shown hbrings
    have hfinish (stats : StreamStatsSnapshot) (events : List InternalStreamEvent) :
        stats.recordEvents (events ++ [.finished .stop]) = { stats.recordEvents events with completed := true } := by
      rw [StreamStatsSnapshot.recordEvents, List.foldl_append]
      rfl
    dsimp only
    rw [hfinish]
    refine ⟨⟨?_, ?_, ?_⟩, ?_, ?_⟩
    · exact htext.trans h.shown.text
    · exact hreasoning.trans h.shown.reasoning
    · intro index
      exact (hshown index).trans (h.shown.calls index)
    · intro index
      rw [← h.calls index, Std.ExtTreeMap.getElem?_map, Option.map_map]
      rfl
    · exact hitems.trans h.items

end deltas

section payloads

variable (serde : SerdeJson)

def payloadEvents (data : String) : List InternalStreamEvent := if isDone data then [] else internalEventsOf serde data

def chatStreamEvents (chunks : List Bytes) : List InternalStreamEvent :=
  (Sse.events Sse.stripSpace chunks).flatMap (payloadEvents serde)

variable {events : List InternalStreamEvent} {st : ChatStats}

theorem RecordedEvents.incoming (h : RecordedEvents events st) {more : List InternalStreamEvent} (hmore : Incoming more) :
    RecordedEvents (events ++ more)
      (more.foldl (fun st event => (st.takeToolCallDelta event).record event) st) := by
  induction more generalizing events st with
  | nil => simpa using h
  | cons event more ih =>
    have hnext := ih (h.event (hmore event List.mem_cons_self)) (fun e he => hmore e (List.mem_cons_of_mem _ he))
    simpa using hnext

theorem RecordedEvents.payload (h : RecordedEvents events st) (data : String) :
    RecordedEvents (events ++ payloadEvents serde data) (st.processEvent serde data) := by
  unfold payloadEvents ChatStats.processEvent
  split_ifs
  · rw [List.append_nil]
    exact h.complete
  · exact h.incoming (internalEventsOf_incoming serde data)

theorem RecordedEvents.payloads (h : RecordedEvents events st) (datas : List String) :
    RecordedEvents (events ++ datas.flatMap (payloadEvents serde)) (datas.foldl (ChatStats.processEvent serde) st) := by
  induction datas generalizing events st with
  | nil => simpa using h
  | cons data datas ih =>
    rw [List.flatMap_cons, ← List.append_assoc, List.foldl_cons]
    exact ih (h.payload serde data)

theorem recordedEvents_start : RecordedEvents [] {} where
  shown := shownEvents_start
  calls := callsOf_start
  items := rfl

theorem handleAll_chatStats (st : ChatStats) (datas : List String) :
    (Sse.handleAll (ChatSseStatsDecoder.handle serde) st datas).1 = datas.foldl (ChatStats.processEvent serde) st := by
  induction datas generalizing st with
  | nil => rfl
  | cons data datas ih => simp only [Sse.handleAll, ChatSseStatsDecoder.handle, ih, List.foldl_cons]

theorem flushEvent_inner (dec : ChatSseStatsDecoder) :
    (dec.flushEvent (ChatSseStatsDecoder.handle serde)).1.inner =
      (if dec.dataLines = [] then [] else [Str.join "\n" dec.dataLines]).foldl
      (ChatStats.processEvent serde) dec.inner := by
  unfold Sse.Reader.flushEvent
  split_ifs
  · rw [List.foldl_nil]
  · simp only [ChatSseStatsDecoder.handle, List.foldl_cons, List.foldl_nil]

theorem flushTail_inner (dec : ChatSseStatsDecoder) :
    (ChatSseStatsDecoder.flushTail serde dec).inner =
      (dec.scanner.trailing Sse.stripSpace).foldl (ChatStats.processEvent serde) dec.inner := by
  unfold ChatSseStatsDecoder.flushTail
  dsimp only
  rw [flushEvent_inner, Sse.Scanner.trailing]
  by_cases hbuffer : dec.lineBuffer = []
  · rw [if_pos hbuffer, if_pos (show dec.scanner.lineBuffer = [] from hbuffer), List.append_nil]
    rfl
  · rw [if_neg hbuffer, if_neg (show dec.scanner.lineBuffer ≠ [] from hbuffer), Sse.Reader.processLine_eq, Sse.scanLine,
      if_neg hbuffer]
    rfl

theorem decode_chatStats (chunks : List Bytes) :
    ((chatStatsDecoder serde).decode id { inner := {} } chunks).2 =
      ((Sse.events Sse.stripSpace chunks).foldl (ChatStats.processEvent serde) {}).complete.stats := by
  have hopen : (10 : UInt8) ∉ ([] : Bytes) := List.not_mem_nil
  rw [(chatStats_chunked serde).decode hopen chunks, Sse.events_flatten]
  generalize chunks.flatten = bs
  have hpush := Sse.Reader.pushChunk_eq (ChatSseStatsDecoder.handle serde) Sse.stripSpace { inner := {} } bs
  simp only [ByteStreamDecoder.decode, ByteStreamDecoder.pushAll, chatStatsDecoder, ChatSseStatsDecoder.finish,
    ChatSseStatsDecoder.pushChunk, flushTail_inner, hpush, handleAll_chatStats, Sse.events, Sse.chunkEvents,
    Sse.trailingEvents, Sse.Scanner.pushAll, List.flatten_cons, List.flatten_nil, List.append_nil, List.foldl_append]
  rfl

theorem chatStats_recorded (chunks : List Bytes) :
    ∃ st, RecordedEvents (chatStreamEvents serde chunks) st ∧
      ((chatStatsDecoder serde).decode id { inner := {} } chunks).2 = st.stats :=
  ⟨_, (recordedEvents_start.payloads serde (Sse.events Sse.stripSpace chunks)).complete, decode_chatStats serde chunks⟩

end payloads

structure AssistantMessage where
  content : String
  reasoning : Option String
  calls : List ChatCall

/-- The deltas of one tool call: each gives its id and its name or leaves them out, and their arguments add up. -/
structure SplitsToolCall (index : ℕ) (events : List InternalStreamEvent) (call : ChatCall) : Prop where
  id : call.id ∈ events.filterMap (InternalStreamEvent.deltaId index)
  ids : ∀ id ∈ events.filterMap (InternalStreamEvent.deltaId index), id = "" ∨ id = call.id
  name : call.name ∈ events.filterMap (InternalStreamEvent.deltaName index)
  names : ∀ name ∈ events.filterMap (InternalStreamEvent.deltaName index), name = "" ∨ name = call.name
  arguments : joinedArguments index events = call.arguments

structure SplitsMessage (events : List InternalStreamEvent) (message : AssistantMessage) : Prop where
  text : String.join (events.map InternalStreamEvent.text) = message.content
  reasoning : String.join (events.map InternalStreamEvent.reasoningText) = message.reasoning.getD ""
  each : ∀ index call, message.calls[index]? = some call → SplitsToolCall index events call
  others : ∀ index, message.calls.length ≤ index → events.any (InternalStreamEvent.isToolCallDelta index) = false

section split

variable {events : List InternalStreamEvent} {message : AssistantMessage}

theorem lastNonempty_of_all {texts : List String} {text : String} (hne : text ≠ "") (hmem : text ∈ texts)
    (hall : ∀ t ∈ texts, t = "" ∨ t = text) : lastNonempty texts = text := by
  unfold lastNonempty
  apply last_of_all
  · intro t ht
    obtain ⟨htexts, htne⟩ := List.mem_filter.mp ht
    exact (hall t htexts).resolve_left (of_decide_eq_true htne)
  · exact List.mem_filter.mpr ⟨hmem, decide_eq_true hne⟩

def triple (call : ChatCall) : String × String × String := (call.id, call.name, call.arguments)

theorem SplitsToolCall.shown {index : ℕ} {call : ChatCall} (h : SplitsToolCall index events call) (hid : call.id ≠ "")
    (hname : call.name ≠ "") : shownDeltas events index = some (triple call) := by
  have hany : events.any (InternalStreamEvent.isToolCallDelta index) = true := by
    by_contra hnone
    obtain ⟨hids, -, -⟩ := shownDeltas_none (by simpa using hnone)
    have hmem := h.id
    rw [hids] at hmem
    exact nomatch hmem
  rw [shownDeltas, if_pos hany, lastNonempty_of_all hid h.id h.ids, lastNonempty_of_all hname h.name h.names, h.arguments]
  rfl

theorem SplitsMessage.shown (h : SplitsMessage events message)
    (hcalls : ∀ call ∈ message.calls, call.id ≠ "" ∧ call.name ≠ "") (index : ℕ) :
    shownDeltas events index = (message.calls.map triple)[index]? := by
  rw [List.getElem?_map]
  cases hcall : message.calls[index]? with
  | none => rw [shownDeltas, h.others index (List.getElem?_eq_none_iff.mp hcall), if_neg (by simp), Option.map_none]
  | some call =>
    obtain ⟨hid, hname⟩ := hcalls call (List.mem_of_getElem? hcall)
    exact (h.each index call hcall).shown hid hname

theorem capturedToolCalls_eq {stats : StreamStatsSnapshot} {calls : List (String × String × String)}
    (h : ∀ index, Bridge.shown stats index = calls[index]?) : stats.capturedToolCalls = calls := by
  have hlist : (stats.toolCalls.map (fun _ captured => shownCall captured)).toList = calls.zipIdx.map Prod.swap := by
    apply toList_of_positions
    intro index
    rw [Std.ExtTreeMap.getElem?_map]
    exact h index
  have hsnd := congrArg (List.map Prod.snd) hlist
  rw [Std.ExtTreeMap.toList_map, List.map_map, List.map_map] at hsnd
  rw [StreamStatsSnapshot.capturedToolCalls]
  refine Eq.trans ?_ (hsnd.trans ?_)
  · rfl
  · exact List.zipIdx_map_fst 0 calls

end split

end Prelay.Bridge
