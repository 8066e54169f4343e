import Mathlib.Data.List.Infix
import Prelay.BridgeStream
import Prelay.Chunking

namespace Prelay.Bridge

open Json ChatToResponses

variable (serde : SerdeJson)

def deltaState (st : ChatToResponses) (index : ℕ) (id name : Option String) : ChatToolCallState :=
  { st.toolCalls.getD index {} with
    id := id.getD (st.toolCalls.getD index {}).id
    name := name.getD (st.toolCalls.getD index {}).name }

theorem processInternalEvent_toolCallDelta (st : ChatToResponses) (index : ℕ) (id name arguments : Option String) :
    (st.processInternalEvent (.toolCallDelta index id name arguments)).2 =
        (if (st.toolCalls.getD index {}).added then []
          else [responsesFunctionCallAddedSse index (deltaState st index id name)]) ++
          arguments.toList.map (responsesFunctionCallArgumentsDeltaSse index { deltaState st index id name with
            added := true, arguments := (st.toolCalls.getD index {}).arguments ++ arguments.getD "" }) ∧
      (st.processInternalEvent (.toolCallDelta index id name arguments)).1.toolCalls =
        st.toolCalls.insert index { deltaState st index id name with
          added := true, arguments := (st.toolCalls.getD index {}).arguments ++ arguments.getD "" } :=
  ⟨rfl, rfl⟩

theorem after_names (responseId : String) (events : List InternalStreamEvent) (index : ℕ) :
    ((after responseId events).toolCalls.getD index {}).id = lastId index events ∧
      ((after responseId events).toolCalls.getD index {}).name = lastName index events := by
  have htool := after_toolCall responseId events index
  rw [Std.ExtTreeMap.getD_eq_getD_getElem?]
  by_cases hany : events.any (InternalStreamEvent.isToolCallDelta index) = true
  · rw [if_pos hany] at htool
    obtain ⟨toolCall, hcall, heq⟩ := Option.map_eq_some_iff.mp htool
    simp only [Prod.mk.injEq] at heq
    rw [hcall]
    exact ⟨heq.1, heq.2.1⟩
  · rw [if_neg hany, Option.map_eq_none_iff] at htool
    obtain ⟨hid, hname⟩ := lastId_of_not_any index events (by simpa using hany)
    rw [htool, hid, hname]
    exact ⟨rfl, rfl⟩

/-- The payloads the bridge reads: an open event counts only with an open line behind it. -/
def readPayloads (bs : Bytes) : List String :=
  (Sse.Scanner.push Sse.stripSpace {} bs).2 ++
    if (Sse.Scanner.push Sse.stripSpace {} bs).1.lineBuffer = [] then []
    else (Sse.Scanner.push Sse.stripSpace {} bs).1.trailing Sse.stripSpace

def readEvents (bs : Bytes) : List InternalStreamEvent := eventsBeforeDone serde (readPayloads bs)

theorem eventsBeforeDone_prefix {datas datas' : List String} (h : datas <+: datas') :
    eventsBeforeDone serde datas <+: eventsBeforeDone serde datas' := by
  obtain ⟨rest, rfl⟩ := h
  cases hdone : datas.any isDone with
  | true => rw [eventsBeforeDone_append_done serde datas rest hdone]
  | false =>
    rw [eventsBeforeDone_append serde datas rest hdone]
    exact List.prefix_append _ _

theorem readEvents_leads (chunks : List Bytes) : readEvents serde chunks.flatten <+: streamEvents serde chunks := by
  apply eventsBeforeDone_prefix
  rw [Sse.events_flatten]
  simp only [readPayloads, Sse.events, Sse.chunkEvents, Sse.trailingEvents, Sse.Scanner.pushAll, List.flatten_cons,
    List.flatten_nil, List.append_nil]
  split_ifs with hbuffer
  · rw [List.append_nil]
    exact List.prefix_append _ _
  · exact List.prefix_refl _

theorem finish_read (responseId : String) (dec : ChatToResponsesSseDecoder) (datas tail : List String)
    (out : List ResponsesChunk) (hdec : Sse.handleAll (processEvent serde) (after responseId []) datas = (dec.inner, out))
    (htail : tail = if dec.lineBuffer = [] then [] else dec.scanner.trailing Sse.stripSpace) :
    ((dec.finish serde).1.inner, out ++ (dec.finish serde).2) =
      ((after responseId (eventsBeforeDone serde (datas ++ tail))).close.1,
        ((new responseId).processInternalEvents (eventsBeforeDone serde (datas ++ tail))).2 ++
          (after responseId (eventsBeforeDone serde (datas ++ tail))).close.2) := by
  have hflush : ((dec.flushTail serde).1.inner, (dec.flushTail serde).2) =
      Sse.handleAll (processEvent serde) dec.inner tail := by
    rw [ChatToResponsesSseDecoder.flushTail_eq, htail]
    split_ifs <;> rfl
  have hall : Sse.handleAll (processEvent serde) (after responseId []) (datas ++ tail) =
      ((dec.flushTail serde).1.inner, out ++ (dec.flushTail serde).2) := by
    rw [Sse.handleAll_append, hdec, ← hflush]
  have hfinish := ChatToResponsesSseDecoder.finish_eq serde dec
  cases hdone : (datas ++ tail).any isDone with
  | true =>
    rw [handleAll_done serde [] responseId _ hdone, List.nil_append, Prod.mk.injEq] at hall
    rw [if_pos (by rw [← hall.1]; rfl), Prod.mk.injEq] at hfinish
    rw [hfinish.1, hfinish.2, ← hall.1, ← hall.2]
    rfl
  | false =>
    rw [handleAll_open serde [] responseId _ hdone, List.nil_append, Prod.mk.injEq] at hall
    rw [if_neg (by rw [← hall.1]; simp [after_open]), Prod.mk.injEq] at hfinish
    rw [hfinish.1, hfinish.2, ← hall.1, ← List.append_assoc, ← hall.2]
    rfl

theorem decode_bridge {β : Type} (bytes : ResponsesChunk → List β) (responseId : String) (chunks : List Bytes) :
    (chatToResponsesDecoder serde).decode bytes (.new responseId) chunks =
      ((((new responseId).processInternalEvents (readEvents serde chunks.flatten)).2 ++
          (after responseId (readEvents serde chunks.flatten)).close.2).flatMap bytes,
        (after responseId (readEvents serde chunks.flatten)).close.1.stats) := by
  have hopen : (10 : UInt8) ∉ ([] : Bytes) := List.not_mem_nil
  rw [(chatToResponses_chunked serde bytes).decode hopen chunks]
  generalize chunks.flatten = bs
  have hpush := Sse.Reader.pushChunk_eq (processEvent serde) Sse.stripSpace (ChatToResponsesSseDecoder.new responseId) bs
  have hread := finish_read serde responseId ((ChatToResponsesSseDecoder.new responseId).pushChunk serde bs).1
    (Sse.Scanner.push Sse.stripSpace {} bs).2 _ ((ChatToResponsesSseDecoder.new responseId).pushChunk serde bs).2
    (by rw [ChatToResponsesSseDecoder.pushChunk, hpush]; rfl) rfl
  rw [Prod.mk.injEq] at hread
  have htail : (if ((ChatToResponsesSseDecoder.new responseId).pushChunk serde bs).1.lineBuffer = [] then []
      else ((ChatToResponsesSseDecoder.new responseId).pushChunk serde bs).1.scanner.trailing Sse.stripSpace) =
      if (Sse.Scanner.push Sse.stripSpace {} bs).1.lineBuffer = [] then []
      else (Sse.Scanner.push Sse.stripSpace {} bs).1.trailing Sse.stripSpace := by
    rw [ChatToResponsesSseDecoder.pushChunk, hpush]
    rfl
  rw [htail] at hread
  simp only [ByteStreamDecoder.decode, ByteStreamDecoder.pushAll, List.append_nil, chatToResponsesDecoder, readEvents,
    readPayloads, ← hread.1, ← hread.2]

theorem readEvents_of_done {chunks : List Bytes} (h : EndsWithDone chunks) :
    readEvents serde chunks.flatten = streamEvents serde chunks := by
  rw [EndsWithDone, Sse.events_flatten] at h
  rw [readEvents, streamEvents, Sse.events_flatten]
  simp only [readPayloads, Sse.events, Sse.chunkEvents, Sse.trailingEvents, Sse.Scanner.pushAll, List.flatten_cons,
    List.flatten_nil, List.append_nil] at h ⊢
  split_ifs with hbuffer
  · rcases Sse.Scanner.trailing_cases Sse.stripSpace (Sse.Scanner.push Sse.stripSpace {} chunks.flatten).1 with
      htail | ⟨data, htail⟩
    · rw [htail]
    · rw [htail, List.getLast?_concat] at h
      rw [htail, List.append_nil]
      cases hdone : (Sse.Scanner.push Sse.stripSpace {} chunks.flatten).2.any isDone with
      | true => rw [eventsBeforeDone_append_done serde _ _ hdone]
      | false =>
        rw [eventsBeforeDone_append serde _ _ hdone]
        rw [Option.any_some] at h
        simp [eventsBeforeDone, h]
  · rfl

def sentOutputs (responseId : String) (chunks : List Bytes) : List (List Value) :=
  ((chatToResponsesDecoder serde).decode (fun chunk => [chunk]) (.new responseId) chunks).1.filterMap
    ResponsesChunk.completedOutput

theorem sentOutputs_eq (responseId : String) (chunks : List Bytes) :
    sentOutputs serde responseId chunks = [(after responseId (readEvents serde chunks.flatten)).responseOutputItems] := by
  rw [sentOutputs, decode_bridge, List.flatMap_singleton', List.filterMap_append, processInternalEvents_not_completed,
    close_completedOutput, List.nil_append]

end Prelay.Bridge
