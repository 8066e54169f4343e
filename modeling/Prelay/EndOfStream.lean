import Prelay.AnswerEnd
import Prelay.CarriageReturn

namespace Prelay.Bridge

open Json ChatToResponses

section payloads

variable {serde : SerdeJson} (hcr : ∀ text, serde.fromStr (text ++ "\r") = serde.fromStr text)

include hcr

theorem internalEventsOf_cr (data : String) : internalEventsOf serde (data ++ "\r") = internalEventsOf serde data := by
  unfold internalEventsOf decodeChatSseEvent
  rw [hcr]

theorem eventsBeforeDone_tail (datas : List String) (sc : Sse.Scanner) :
    eventsBeforeDone serde (datas ++ sc.trailing Sse.stripSpace) = eventsBeforeDone serde (datas ++ closedTail sc) := by
  rcases tail_alike sc with hsame | ⟨data, htrailing, hclosed⟩
  · rw [hsame]
  · rw [htrailing, hclosed]
    cases hdone : datas.any isDone with
    | true => rw [eventsBeforeDone_append_done serde _ _ hdone, eventsBeforeDone_append_done serde _ _ hdone]
    | false =>
      rw [eventsBeforeDone_append serde _ _ hdone, eventsBeforeDone_append serde _ _ hdone]
      simp only [eventsBeforeDone, List.takeWhile_cons, isDone_cr]
      split_ifs
      · simp only [List.takeWhile_nil, List.flatMap_cons, List.flatMap_nil, internalEventsOf_cr hcr]
      · rfl

theorem processEvent_tail (st : ChatStats) (sc : Sse.Scanner) :
    (sc.trailing Sse.stripSpace).foldl (ChatStats.processEvent serde) st =
      (closedTail sc).foldl (ChatStats.processEvent serde) st := by
  rcases tail_alike sc with hsame | ⟨data, htrailing, hclosed⟩
  · rw [hsame]
  · simp only [htrailing, hclosed, List.foldl_cons, List.foldl_nil, ChatStats.processEvent, isDone_cr,
      internalEventsOf_cr hcr]

theorem chat_newlines (bs : Bytes) :
    ((chatStatsDecoder serde).decode id { inner := {} } [bs]).2 =
      ((chatStatsDecoder serde).decode id { inner := {} } [bs ++ [10, 10]]).2 := by
  have hopen := Sse.Scanner.push_lineBuffer Sse.stripSpace {} bs
  rw [decode_chatStats, decode_chatStats]
  simp only [Sse.events, Sse.chunkEvents, Sse.trailingEvents, Sse.Scanner.pushAll, List.flatten_cons, List.flatten_nil,
    List.append_nil, Sse.Scanner.push_append, push_newlines hopen, List.foldl_append, processEvent_tail hcr]
  rfl

end payloads

section newlines

variable (serde : SerdeJson)

def pendingEvents (bs : Bytes) : List InternalStreamEvent :=
  let (sc, datas) := Sse.Scanner.push Sse.stripSpace {} bs
  if sc.lineBuffer = [] ∧ datas.any isDone = false then eventsBeforeDone serde (sc.trailing Sse.stripSpace) else []

variable {serde} (hcr : ∀ text, serde.fromStr (text ++ "\r") = serde.fromStr text)

include hcr in
theorem readEvents_newlines (bs : Bytes) :
    readEvents serde (bs ++ [10, 10]) = readEvents serde bs ++ pendingEvents serde bs := by
  have hopen := Sse.Scanner.push_lineBuffer Sse.stripSpace {} bs
  unfold readEvents readPayloads pendingEvents
  rw [Sse.Scanner.push_append, push_newlines hopen]
  generalize Sse.Scanner.push Sse.stripSpace {} bs = pushed
  obtain ⟨sc, datas⟩ := pushed
  dsimp only
  rw [if_pos rfl, List.append_nil, ← eventsBeforeDone_tail hcr]
  by_cases hbuffer : sc.lineBuffer = []
  · rw [if_pos hbuffer, List.append_nil]
    cases hdone : datas.any isDone with
    | true => rw [eventsBeforeDone_append_done serde _ _ hdone, if_neg (by simp), List.append_nil]
    | false => rw [eventsBeforeDone_append serde _ _ hdone, if_pos ⟨hbuffer, rfl⟩]
  · rw [if_neg hbuffer, if_neg (fun h => hbuffer h.1), List.append_nil]

theorem answerOf_encoded (responseId : String) (events : List InternalStreamEvent) :
    ∀ chunk ∈ (answerOf responseId events).1, chunk.Encoded := by
  intro chunk hchunk
  rcases List.mem_append.mp hchunk with hrun | hclose
  · exact processInternalEvents_encoded _ events chunk hrun
  · exact close_encoded _ chunk hclose

theorem decode_answer (responseId : String) (bs : Bytes) :
    (chatToResponsesDecoder serde).decode (ResponsesChunk.bytes serde) (.new responseId) [bs] =
      ((answerOf responseId (readEvents serde bs)).1.flatMap (ResponsesChunk.bytes serde),
        (answerOf responseId (readEvents serde bs)).2) := by
  rw [decode_bridge, List.flatten_singleton]
  rfl

include hcr in
theorem bridge_newlines_iff (hserde : serde.Lawful) (responseId : String) (bs : Bytes) :
    (chatToResponsesDecoder serde).decode (ResponsesChunk.bytes serde) (.new responseId) [bs ++ [10, 10]] =
        (chatToResponsesDecoder serde).decode (ResponsesChunk.bytes serde) (.new responseId) [bs] ↔
      AddsNothing (readEvents serde bs) (pendingEvents serde bs) := by
  have hincoming := readEvents_incoming serde (bs ++ [10, 10])
  rw [readEvents_newlines hcr] at hincoming
  rw [decode_answer, decode_answer, readEvents_newlines hcr, Prod.mk.injEq]
  constructor
  · rintro ⟨hbytes, hstats⟩
    apply addsNothing_of_answer responseId hincoming
    exact Prod.ext (bytes_injective hserde (answerOf_encoded _ _) (answerOf_encoded _ _) hbytes) hstats
  · intro h
    rw [h.answer responseId hincoming]
    exact ⟨rfl, rfl⟩

end newlines

section native

def InternalStreamEvent.Inert (stats : StreamStatsSnapshot) : InternalStreamEvent → Prop
  | .textDelta delta => delta = ""
  | .reasoningDelta delta => delta = ""
  | .toolCallDelta index id name arguments => ∃ call, stats.toolCalls[index]? = some call ∧
      (id.getD "" = "" ∨ id.getD "" = call.id) ∧ (name.getD "" = "" ∨ name.getD "" = call.name) ∧ arguments.getD "" = ""
  | .toolCallDone index id name arguments => ∃ call, stats.toolCalls[index]? = some call ∧ call.done = true ∧
      (id = "" ∨ id = call.id) ∧ (name = "" ∨ name = call.name) ∧ (arguments = "" ∨ arguments = call.arguments)
  | .usage given => stats.tokens = given.recorded ∧ stats.finalUsageSeen = given.counted
  | .finished _ => stats.completed = true

theorem append_eq_left_iff (s t : String) : s ++ t = s ↔ t = "" := by
  constructor
  · intro h
    have hlength := congrArg String.length h
    rw [String.length_append] at hlength
    exact String.length_eq_zero_iff.mp (by omega)
  · intro h
    rw [h, String.append_empty]

theorem insert_eq_self_iff {calls : Std.ExtTreeMap ℕ CapturedToolCall} {index : ℕ} {call : CapturedToolCall} :
    calls.insert index call = calls ↔ calls[index]? = some call := by
  constructor
  · intro h
    rw [← h, Std.ExtTreeMap.getElem?_insert_self]
  · intro h
    apply Std.ExtTreeMap.ext_getElem?
    intro other
    rw [Std.ExtTreeMap.getElem?_insert]
    split_ifs with heq
    · rw [← Std.LawfulEqCmp.compare_eq_iff_eq.mp heq, h]
    · rfl

theorem kept_iff {given kept : String} : (if given = "" then kept else given) = kept ↔ given = "" ∨ given = kept := by
  split_ifs with hgiven
  · simp [hgiven]
  · simp [hgiven]

theorem recordUsage_eq_iff (stats : StreamStatsSnapshot) (usage : StreamUsage) :
    stats.recordUsage usage = stats ↔ stats.tokens = usage.recorded ∧ stats.finalUsageSeen = usage.counted := by
  obtain ⟨input, output, total, cacheRead, cacheWrite, _, _, _, _, _, _, seen, _⟩ := stats
  simp only [StreamStatsSnapshot.recordUsage, StreamStatsSnapshot.tokens, StreamUsage.recorded, StreamUsage.counted,
    StreamStatsSnapshot.mk.injEq, StreamUsage.mk.injEq, and_true, true_and]
  constructor
  · rintro ⟨h1, h2, h3, h4, h5, h6⟩
    exact ⟨⟨h1.symm, h2.symm, h3.symm, h4.symm, h5.symm⟩, h6.symm⟩
  · rintro ⟨⟨h1, h2, h3, h4, h5⟩, h6⟩
    exact ⟨h1.symm, h2.symm, h3.symm, h4.symm, h5.symm, h6.symm⟩

theorem recordEvent_eq_iff (stats : StreamStatsSnapshot) (event : InternalStreamEvent) :
    stats.recordEvent event = stats ↔ event.Inert stats := by
  cases event with
  | textDelta delta =>
    rw [InternalStreamEvent.Inert, ← append_eq_left_iff stats.outputText]
    exact ⟨fun h => congrArg StreamStatsSnapshot.outputText h, fun h => by rw [StreamStatsSnapshot.recordEvent, h]⟩
  | reasoningDelta delta =>
    rw [InternalStreamEvent.Inert, ← append_eq_left_iff stats.reasoningText]
    exact ⟨fun h => congrArg StreamStatsSnapshot.reasoningText h, fun h => by rw [StreamStatsSnapshot.recordEvent, h]⟩
  | usage given => exact recordUsage_eq_iff stats given
  | finished reason =>
    exact ⟨fun h => (congrArg StreamStatsSnapshot.completed h).symm,
      fun h => by rw [StreamStatsSnapshot.recordEvent, ← (show stats.completed = true from h)]⟩
  | toolCallDelta index id name arguments =>
    have hinsert : stats.recordEvent (.toolCallDelta index id name arguments) = stats ↔
        (stats.recordEvent (.toolCallDelta index id name arguments)).toolCalls = stats.toolCalls :=
      ⟨fun h => congrArg StreamStatsSnapshot.toolCalls h, fun h => by
        change { stats with toolCalls := (stats.recordEvent (.toolCallDelta index id name arguments)).toolCalls } = _
        rw [h]⟩
    rw [hinsert]
    refine Iff.trans insert_eq_self_iff ?_
    rw [entry_eq, InternalStreamEvent.Inert]
    cases stats.toolCalls[index]? with
    | none => simp
    | some call =>
      obtain ⟨callId, callName, callArguments, done⟩ := call
      simp only [Option.getD_some, Option.some.injEq, exists_eq_left', CapturedToolCall.mk.injEq, and_true, ← kept_iff]
      constructor
      · rintro ⟨hid, hname, harguments⟩
        exact ⟨hid.symm, hname.symm, (append_eq_left_iff _ _).mp harguments.symm⟩
      · rintro ⟨hid, hname, harguments⟩
        exact ⟨hid.symm, hname.symm, ((append_eq_left_iff _ _).mpr harguments).symm⟩
  | toolCallDone index id name arguments =>
    have hreplaced {given kept : String} : (if given ≠ "" ∨ kept = "" then given else kept) = kept ↔
        given = "" ∨ given = kept := by
      by_cases hgiven : given = "" <;> by_cases hkept : kept = "" <;> simp [hgiven, hkept, eq_comm]
    rw [InternalStreamEvent.Inert]
    cases hget : stats.toolCalls[index]? with
    | none =>
      have hnot : ¬stats.recordEvent (.toolCallDone index id name arguments) = stats := by
        intro h
        have hcalls := insert_eq_self_iff.mp (congrArg StreamStatsSnapshot.toolCalls h)
        rw [hget] at hcalls
        cases hcalls
      simp [hnot]
    | some call =>
      have hentry : stats.entry index = call := by rw [entry_eq, hget, Option.getD_some]
      simp only [Option.some.injEq, exists_eq_left', ← @kept_iff id, ← @kept_iff name, ← @hreplaced arguments]
      constructor
      · intro h
        have hcalls := insert_eq_self_iff.mp (congrArg StreamStatsSnapshot.toolCalls h)
        rw [hget, hentry, Option.some.injEq] at hcalls
        refine ⟨?_, (congrArg CapturedToolCall.id hcalls).symm, (congrArg CapturedToolCall.name hcalls).symm,
          (congrArg CapturedToolCall.arguments hcalls).symm⟩
        rw [hcalls]
      · rintro ⟨hdone, hid, hname, harguments⟩
        obtain ⟨callId, callName, callArguments, done⟩ := call
        simp only at hdone hid hname harguments
        simp only [StreamStatsSnapshot.recordEvent, StreamStatsSnapshot.recordToolCallDone, hentry, hid, hname, harguments,
          hdone, ↓reduceIte]
        rw [hdone] at hget
        rw [insert_eq_self_iff.mpr hget]

theorem recordEvents_eq_iff {serde : SerdeJson} {name : Option String} {data : String} (stats : StreamStatsSnapshot) :
    stats.recordEvents (decodeResponsesSseEvent serde name data) = stats ↔
      ∀ event ∈ decodeResponsesSseEvent serde name data, event.Inert stats := by
  have hcases : ∀ events : List InternalStreamEvent, events = [] ∨ (∃ event, events = [event]) ∨
      (∃ usage reason, events = [.usage usage, .finished reason]) →
      (stats.recordEvents events = stats ↔ ∀ event ∈ events, event.Inert stats) := by
    rintro events (rfl | ⟨event, rfl⟩ | ⟨usage, reason, rfl⟩)
    · simp [StreamStatsSnapshot.recordEvents]
    · rw [List.forall_mem_singleton]
      exact recordEvent_eq_iff stats event
    · rw [List.forall_mem_cons, List.forall_mem_singleton]
      constructor
      · intro h
        refine ⟨⟨?_, ?_⟩, ?_⟩
        · exact (congrArg StreamStatsSnapshot.tokens h).symm
        · exact (congrArg StreamStatsSnapshot.finalUsageSeen h).symm
        · exact (congrArg StreamStatsSnapshot.completed h).symm
      · rintro ⟨husage, hfinished⟩
        change (stats.recordEvent (.usage usage)).recordEvent (.finished reason) = stats
        rw [(recordEvent_eq_iff stats (.usage usage)).mpr husage,
          (recordEvent_eq_iff stats (.finished reason)).mpr hfinished]
  have htoList {α : Type} (f : α → InternalStreamEvent) (a : Option α) : a.toList.map f = [] ∨
      ∃ event, a.toList.map f = [event] := by
    cases a with
    | none => exact .inl rfl
    | some a => exact .inr ⟨f a, rfl⟩
  have hself (event : Option InternalStreamEvent) : event.toList = [] ∨ ∃ e, event.toList = [e] := by
    simpa using htoList id event
  apply hcases
  unfold decodeResponsesSseEvent
  split
  · exact (htoList _ _).imp_right .inl
  · exact (htoList _ _).imp_right .inl
  · exact (htoList _ _).imp_right .inl
  · exact (hself _).imp_right .inl
  · exact (hself _).imp_right .inl
  · exact (hself _).imp_right .inl
  · exact (hself _).imp_right .inl
  · cases decodeResponsesUsage serde data with
    | none => exact .inr (.inl ⟨_, rfl⟩)
    | some usage => exact .inr (.inr ⟨_, _, rfl⟩)
  · exact .inl rfl

variable {serde : SerdeJson}

def recordResponse (serde : SerdeJson) (stats : StreamStatsSnapshot) (data : String) : StreamStatsSnapshot :=
  { stats with
    upstreamResponseId := (decodeResponsesResponseId serde data).or stats.upstreamResponseId
    responseOutputItems := (decodeResponsesOutputItems serde data).getD stats.responseOutputItems }

theorem recordData_eq (stats : StreamStatsSnapshot) (name : Option String) (data : String) :
    NativeResponses.recordData serde stats name data =
      (recordResponse serde stats data).recordEvents (decodeResponsesSseEvent serde name data) := by
  unfold NativeResponses.recordData recordResponse
  cases decodeResponsesResponseId serde data with
  | none => cases decodeResponsesOutputItems serde data <;> rfl
  | some responseId => cases decodeResponsesOutputItems serde data <;> rfl

theorem inert_recordResponse (stats : StreamStatsSnapshot) (data : String) (event : InternalStreamEvent) :
    event.Inert (recordResponse serde stats data) ↔ event.Inert stats := by
  cases event <;> exact Iff.rfl

theorem decode_unknown (name data : String) : decodeResponsesSseEvent serde (some (name ++ "\r")) data = [] := by
  have hlast : (name ++ "\r").toList.getLast? = some '\r' := by
    rw [String.toList_append]
    exact List.getLast?_concat
  unfold decodeResponsesSseEvent
  split
  all_goals first
    | rfl
    | (rename_i heq
       rw [Option.some.inj heq] at hlast
       exact absurd hlast (by decide))

/-- A carriage return behind the last line changes nothing: it would change the name of an event, or data that is taken as
it is. -/
def LineEndsAlike (serde : SerdeJson) (st : NativeResponses) (text : String) : Prop :=
  match Str.stripPrefix "event:" text with
  | some name => ∀ event ∈ decodeResponsesSseEvent serde (some (Sse.stripSpace name)) (Str.join "\n" st.dataLines),
      event.Inert st.stats
  | none => ∀ data, Str.stripPrefix "data:" text = some data →
      serde.fromStr (Str.join "\n" (st.dataLines ++ [Sse.stripSpace data])) = none →
      st.eventName ≠ some "response.output_text.delta" ∧ st.eventName ≠ some "response.reasoning_summary_text.delta" ∧
        st.eventName ≠ some "response.reasoning_text.delta"

def NativeEndsAlike (serde : SerdeJson) (dec : NativeResponsesSseStatsDecoder) : Prop :=
  ∀ line text, dec.lineBuffer = line ++ [13] → Str.fromUtf8 line = some text → LineEndsAlike serde dec.inner text

theorem recordData_empty (hempty : serde.fromStr "" = none) (stats : StreamStatsSnapshot) :
    NativeResponses.recordData serde stats none "" = stats := by
  simp [NativeResponses.recordData, decodeResponsesResponseId, decodeResponsesOutputItems, hempty,
    decodeResponsesSseEvent, StreamStatsSnapshot.recordEvents]

def endWith (serde : SerdeJson) (st : NativeResponses) (line : Bytes) : StreamStatsSnapshot :=
  ((st.processLine serde line).recordEvent serde).stats

theorem native_end (bs : Bytes) :
    ((nativeResponsesDecoder serde).decode id {} [bs]).2 =
      let dec := (NativeResponsesSseStatsDecoder.pushChunk serde {} bs).1
      if dec.lineBuffer = [] then (dec.inner.recordEvent serde).stats else endWith serde dec.inner dec.lineBuffer := by
  simp only [ByteStreamDecoder.decode, ByteStreamDecoder.pushAll, nativeResponsesDecoder,
    NativeResponsesSseStatsDecoder.finish, endWith]
  split_ifs <;> rfl

theorem native_end_newlines (hempty : serde.fromStr "" = none) (bs : Bytes) :
    ((nativeResponsesDecoder serde).decode id {} [bs ++ [10, 10]]).2 =
      let dec := (NativeResponsesSseStatsDecoder.pushChunk serde {} bs).1
      endWith serde dec.inner (Sse.stripCr dec.lineBuffer) := by
  have hopen : 10 ∉ (NativeResponsesSseStatsDecoder.pushChunk serde {} bs).1.lineBuffer :=
    (nativeResponses_chunked serde).quiet {} bs
  have hpush : (NativeResponsesSseStatsDecoder.pushChunk serde {} (bs ++ [10, 10])).1 =
      (NativeResponsesSseStatsDecoder.pushChunk serde (NativeResponsesSseStatsDecoder.pushChunk serde {} bs).1
        [10, 10]).1 :=
    ((nativeResponses_chunked serde).append {} bs [10, 10]).1
  have hagain (st : NativeResponses) : ((st.recordEvent serde).recordEvent serde).stats = (st.recordEvent serde).stats :=
    recordData_empty hempty _
  rw [native_end]
  dsimp only
  rw [hpush]
  generalize (NativeResponsesSseStatsDecoder.pushChunk serde {} bs).1 = dec at hopen
  simp only [NativeResponsesSseStatsDecoder.pushChunk, drainLines_newlines hopen, NativeResponses.processLines,
    List.foldl_cons, List.foldl_nil, ↓reduceIte]
  exact hagain _

theorem endWith_other (st : NativeResponses) {line : Bytes} (hne : line ≠ [])
    (hevent : (Str.fromUtf8 line).bind (Str.stripPrefix "event:") = none)
    (hdata : (Str.fromUtf8 line).bind (Str.stripPrefix "data:") = none) :
    endWith serde st line = (st.recordEvent serde).stats := by
  rw [endWith, NativeResponses.processLine, if_neg hne]
  cases htext : Str.fromUtf8 line with
  | none => rfl
  | some text =>
    rw [htext, Option.bind_some] at hevent hdata
    simp only [hevent, hdata]

theorem recordData_cr (hcr : ∀ text, serde.fromStr (text ++ "\r") = serde.fromStr text) (stats : StreamStatsSnapshot)
    (name : Option String) (data : String) :
    NativeResponses.recordData serde stats name data = NativeResponses.recordData serde stats name (data ++ "\r") ↔
      (serde.fromStr data = none → name ≠ some "response.output_text.delta" ∧
        name ≠ some "response.reasoning_summary_text.delta" ∧ name ≠ some "response.reasoning_text.delta") := by
  have hresponse : recordResponse serde stats (data ++ "\r") = recordResponse serde stats data := by
    simp only [recordResponse, decodeResponsesResponseId, decodeResponsesOutputItems, hcr]
  have happend (text : String) : text ++ data ≠ text ++ (data ++ "\r") := by
    intro h
    have hlength := congrArg String.length h
    simp only [String.length_append] at hlength
    have hone : "\r".length = 1 := by decide
    omega
  rw [recordData_eq, recordData_eq, hresponse]
  cases hdata : serde.fromStr data with
  | some value =>
    have hsame : decodeResponsesSseEvent serde name (data ++ "\r") = decodeResponsesSseEvent serde name data := by
      simp only [decodeResponsesSseEvent, decodeResponsesTextDelta, decodeResponsesFunctionCallAdded,
        decodeResponsesFunctionCallArgumentsDelta, decodeResponsesFunctionCallArgumentsDone, decodeResponsesOutputItemDone,
        decodeResponsesUsage, hcr, hdata]
    rw [hsame]
    simp
  | none =>
    have hnone : serde.fromStr (data ++ "\r") = none := (hcr data).trans hdata
    have htext : decodeResponsesTextDelta serde data = some data := by rw [decodeResponsesTextDelta, hdata]
    have htext' : decodeResponsesTextDelta serde (data ++ "\r") = some (data ++ "\r") := by
      rw [decodeResponsesTextDelta, hnone]
    constructor
    · intro h _
      refine ⟨?_, ?_, ?_⟩
      · rintro rfl
        rw [decodeResponsesSseEvent, decodeResponsesSseEvent, htext, htext'] at h
        exact happend _ (congrArg StreamStatsSnapshot.outputText h)
      · rintro rfl
        rw [decodeResponsesSseEvent, decodeResponsesSseEvent, htext, htext'] at h
        exact happend _ (congrArg StreamStatsSnapshot.reasoningText h)
      · rintro rfl
        rw [decodeResponsesSseEvent, decodeResponsesSseEvent, htext, htext'] at h
        exact happend _ (congrArg StreamStatsSnapshot.reasoningText h)
    · intro h
      obtain ⟨houtput, hsummary, hreasoning⟩ := h rfl
      have hsame : decodeResponsesSseEvent serde name (data ++ "\r") = decodeResponsesSseEvent serde name data := by
        unfold decodeResponsesSseEvent
        split
        · exact absurd rfl houtput
        · exact absurd rfl hsummary
        · exact absurd rfl hreasoning
        all_goals simp only [decodeResponsesFunctionCallAdded, decodeResponsesFunctionCallArgumentsDelta,
          decodeResponsesFunctionCallArgumentsDone, decodeResponsesOutputItemDone, decodeResponsesUsage, hcr]
      rw [hsame]

theorem endWith_cr_iff (hcr : ∀ text, serde.fromStr (text ++ "\r") = serde.fromStr text) (hempty : serde.fromStr "" = none)
    (dec : NativeResponsesSseStatsDecoder) {line : Bytes} (hline : dec.lineBuffer = line ++ [13]) :
    endWith serde dec.inner line = endWith serde dec.inner (line ++ [13]) ↔ NativeEndsAlike serde dec := by
  have hutf8 := fromUtf8_cr line
  have hlong : line ++ [13] ≠ [] := List.concat_ne_nil 13 line
  have halike : NativeEndsAlike serde dec ↔ ∀ text, Str.fromUtf8 line = some text →
      LineEndsAlike serde dec.inner text := by
    constructor
    · exact fun h text => h line text hline
    · intro h line' text hline'
      rw [hline, List.append_cancel_right_eq] at hline'
      exact hline' ▸ h text
  rw [halike]
  by_cases hnil : line = []
  · subst hnil
    have hcrline : endWith serde dec.inner [13] = (dec.inner.recordEvent serde).stats :=
      endWith_other dec.inner (List.cons_ne_nil _ _) (by decide +kernel) (by decide +kernel)
    have hblank : endWith serde dec.inner [] = (dec.inner.recordEvent serde).stats := recordData_empty hempty _
    refine iff_of_true (hblank.trans hcrline.symm) ?_
    intro text htext
    have hempty : text = "" := by
      have hbytes := Str.fromUtf8_eq_some.mp htext
      exact utf8_injective hbytes
    rw [hempty]
    rintro _ ⟨⟩
  · cases htext : Str.fromUtf8 line with
    | none =>
      rw [htext] at hutf8
      rw [endWith_other dec.inner hnil (by rw [htext]; rfl) (by rw [htext]; rfl),
        endWith_other dec.inner hlong (by rw [hutf8]; rfl) (by rw [hutf8]; rfl)]
      exact iff_of_true rfl (by simp)
    | some text =>
      rw [htext, Option.map_some] at hutf8
      have hevent' := @stripPrefix_cr "event:" (by decide) text
      have hdata' := @stripPrefix_cr "data:" (by decide) text
      have hgiven : (∀ text', some text = some text' → LineEndsAlike serde dec.inner text') ↔
          LineEndsAlike serde dec.inner text := ⟨fun h => h text rfl, fun h text' heq => Option.some.inj heq ▸ h⟩
      rw [hgiven, LineEndsAlike, endWith, endWith, NativeResponses.processLine, NativeResponses.processLine, if_neg hnil,
        if_neg hlong, htext, hutf8]
      cases hevent : Str.stripPrefix "event:" text with
      | some name =>
        rw [hevent, Option.map_some] at hevent'
        simp only [hevent', hevent, stripSpace_cr, NativeResponses.recordEvent, recordData_eq, decode_unknown]
        refine Iff.trans (recordEvents_eq_iff _) ?_
        simp only [inert_recordResponse]
      | none =>
        rw [hevent, Option.map_none] at hevent'
        cases hdata : Str.stripPrefix "data:" text with
        | none =>
          rw [hdata, Option.map_none] at hdata'
          simp only [hevent', hevent, hdata', hdata]
          exact iff_of_true trivial (by simp)
        | some data =>
          rw [hdata, Option.map_some] at hdata'
          simp only [hevent', hevent, hdata', hdata, stripSpace_cr, NativeResponses.recordEvent, join_cr]
          refine Iff.trans (recordData_cr hcr _ _ _) ?_
          exact ⟨fun h data' heq => Option.some.inj heq ▸ h, fun h => h data rfl⟩

theorem native_newlines_iff (hcr : ∀ text, serde.fromStr (text ++ "\r") = serde.fromStr text)
    (hempty : serde.fromStr "" = none) (bs : Bytes) :
    ((nativeResponsesDecoder serde).decode id {} [bs ++ [10, 10]]).2 =
      ((nativeResponsesDecoder serde).decode id {} [bs]).2 ↔
      NativeEndsAlike serde (NativeResponsesSseStatsDecoder.pushChunk serde {} bs).1 := by
  rw [native_end_newlines hempty, native_end]
  dsimp only
  generalize (NativeResponsesSseStatsDecoder.pushChunk serde {} bs).1 = dec
  rcases stripCr_cases dec.lineBuffer with hsame | hstripped
  · have hno : NativeEndsAlike serde dec := by
      intro line text hline
      have hshort : Sse.stripCr (line ++ [13]) = line := by
        rw [Sse.stripCr, if_pos List.getLast?_concat, List.dropLast_concat]
      rw [hline, hshort] at hsame
      have hlength := congrArg List.length hsame
      rw [List.length_append, List.length_singleton] at hlength
      omega
    rw [hsame]
    split_ifs with hbuffer
    · rw [hbuffer]
      exact iff_of_true (recordData_empty hempty _) hno
    · exact iff_of_true rfl hno
  · have hne : dec.lineBuffer ≠ [] := by
      rw [hstripped]
      exact List.concat_ne_nil 13 _
    rw [if_neg hne]
    nth_rewrite 2 [hstripped]
    exact endWith_cr_iff hcr hempty dec hstripped

end native

section ended

variable (serde : SerdeJson)

/-- Two newlines behind a stream change neither what the bridge sends nor what the three decoders count. -/
def NewlinesIgnored (responseId : String) (bs : Bytes) : Prop :=
  (chatToResponsesDecoder serde).decode (ResponsesChunk.bytes serde) (.new responseId) [bs ++ [10, 10]] =
    (chatToResponsesDecoder serde).decode (ResponsesChunk.bytes serde) (.new responseId) [bs] ∧
  ((chatStatsDecoder serde).decode id { inner := {} } [bs ++ [10, 10]]).2 =
    ((chatStatsDecoder serde).decode id { inner := {} } [bs]).2 ∧
  ((nativeResponsesDecoder serde).decode id {} [bs ++ [10, 10]]).2 = ((nativeResponsesDecoder serde).decode id {} [bs]).2

variable {serde}

theorem newlines_ignored_iff (hserde : serde.Lawful) (hcr : ∀ text, serde.fromStr (text ++ "\r") = serde.fromStr text)
    (hempty : serde.fromStr "" = none) (responseId : String) (bs : Bytes) :
    NewlinesIgnored serde responseId bs ↔
      AddsNothing (readEvents serde bs) (pendingEvents serde bs) ∧
        NativeEndsAlike serde (NativeResponsesSseStatsDecoder.pushChunk serde {} bs).1 := by
  unfold NewlinesIgnored
  rw [bridge_newlines_iff hcr hserde, native_newlines_iff hcr hempty, and_iff_right (chat_newlines hcr bs).symm]

def withoutCr (text : String) : String := String.ofList (text.toList.rdropWhile (fun c => c = '\r'))

def crCodec : SerdeJson := ⟨Text.toStr, fun text => Text.fromStr (withoutCr text)⟩

theorem withoutCr_plain {text : String} (h : ∀ c ∈ text.toList, 32 ≤ c.toNat) : withoutCr text = text := by
  have hsame : text.toList.rdropWhile (fun c => c = '\r') = text.toList := by
    rw [List.rdropWhile_eq_self_iff]
    intro hne heq
    have hlast := h _ (List.getLast_mem hne)
    rw [of_decide_eq_true heq] at hlast
    exact absurd hlast (by decide)
  rw [withoutCr, hsame, String.ofList_toList]

theorem crCodec_exact : crCodec.Exact where
  fromStr_toStr v := by
    have hplain := withoutCr_plain (Text.codec_lawful.no_control v)
    have hread := Text.codec_exact.fromStr_toStr v
    simp only [crCodec, Text.codec] at hplain hread ⊢
    rw [hplain, hread]
  no_control := Text.codec_lawful.no_control

theorem crCodec_cr (text : String) : crCodec.fromStr (text ++ "\r") = crCodec.fromStr text := by
  have hsame : withoutCr (text ++ "\r") = withoutCr text := by
    unfold withoutCr
    rw [String.toList_append, show "\r".toList = ['\r'] from rfl, List.rdropWhile_concat_pos _ _ _ (by decide)]
  simp only [crCodec, hsame]

def openStream : Bytes := Str.utf8 "data: \x7b\"choices\":[\x7b\"delta\":\x7b\"content\":\"hel\"\x7d\x7d]\x7d"

theorem newlines_ignored_open : NewlinesIgnored crCodec "resp_1" openStream := by
  refine (newlines_ignored_iff crCodec_exact.lawful crCodec_cr (by decide +kernel) "resp_1" openStream).mpr ⟨?_, ?_⟩
  · have hpending : pendingEvents crCodec openStream = [] := by decide +kernel
    rw [hpending]
    constructor <;> simp [emitsAny]
  · have hbuffer : (NativeResponsesSseStatsDecoder.pushChunk crCodec {} openStream).1.lineBuffer = openStream := by
      decide +kernel
    have hlast : openStream.getLast? = some 125 := by decide +kernel
    intro line text hline
    rw [hbuffer] at hline
    rw [hline, List.getLast?_concat] at hlast
    exact absurd hlast (by decide)

/-- The same event with one newline. -/
theorem newline_pending : ¬NewlinesIgnored Text.codec "resp_1" (openStream ++ [10]) := by
  intro h
  have hread : readEvents Text.codec (openStream ++ [10]) = [] := by decide +kernel
  have hread' : readEvents Text.codec (openStream ++ [10] ++ [10, 10]) = [.textDelta "hel"] := by decide +kernel
  have hbridge := h.1
  rw [@decode_answer Text.codec "resp_1" (openStream ++ [10]), hread,
    @decode_answer Text.codec "resp_1" (openStream ++ [10] ++ [10, 10]), hread'] at hbridge
  exact absurd (congrArg StreamStatsSnapshot.outputText (Prod.mk.inj hbridge).2) (by decide +kernel)

end ended

end Prelay.Bridge
