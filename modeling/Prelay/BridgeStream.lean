import Prelay.BridgeEvents
import Prelay.StreamPipeline

namespace Prelay.Bridge

open Json

namespace ChatToResponses

theorem responseOutputItems_finish (st : ChatToResponses) :
    st.finishResponse.1.responseOutputItems = st.responseOutputItems := by
  have htext : (st.finishResponse.1).stats.outputText = st.stats.outputText := by
    simp only [finishResponse, recordResponseId]
    apply StreamStatsSnapshot.recordEvents_outputText
    intro event hevent
    simp only [List.mem_append, List.mem_map, List.mem_cons, List.not_mem_nil, or_false] at hevent
    rcases hevent with ⟨p, -, rfl⟩ | rfl | rfl <;> rfl
  have htools : st.finishResponse.1.toolCalls.toList =
      st.toolCalls.toList.map (fun p => (p.1, { p.2 with done := true })) := by
    simp only [finishResponse, recordResponseId, Std.ExtTreeMap.toList_map]
  rw [responseOutputItems, htext, htools, responseOutputItems, List.filter_map, List.map_map]
  rfl

theorem finishResponse_spec (st : ChatToResponses) :
    st.finishResponse.2.filterMap ResponsesChunk.completedOutput = [st.responseOutputItems] ∧
    st.finishResponse.1.stats.completed = true ∧
    st.finishResponse.1.stats.responseOutputItems = st.responseOutputItems ∧
    st.finishResponse.1.completed = st.completed := by
  have hitems := responseOutputItems_finish st
  refine ⟨?_, ?_, ?_, rfl⟩
  · have hopen : ∀ l : List (ℕ × ChatToolCallState),
        (l.flatMap (fun p => responsesToolCallDoneSse p.1 { p.2 with done := true })).filterMap
          ResponsesChunk.completedOutput = [] := by
      intro l
      rw [List.filterMap_eq_nil_iff]
      intro chunk hchunk
      obtain ⟨p, -, hp⟩ := List.mem_flatMap.mp hchunk
      simp only [responsesToolCallDoneSse, List.mem_cons, List.not_mem_nil, or_false] at hp
      rcases hp with rfl | rfl <;> rfl
    rw [← hitems]
    simp only [finishResponse, List.filterMap_append, hopen, List.nil_append, List.filterMap_cons,
      completedOutput_responsesCompletedSse, List.filterMap_nil]
  · simp only [finishResponse, recordResponseId, StreamStatsSnapshot.recordEvents_completed]
    simp [InternalStreamEvent.isFinished]
  · rw [← hitems]
    rfl

theorem processInternalEvent_not_completed (st : ChatToResponses) (event : InternalStreamEvent) :
    (st.processInternalEvent event).2.filterMap ResponsesChunk.completedOutput = [] := by
  cases event with
  | toolCallDelta i id name arguments =>
    rw [List.filterMap_eq_nil_iff]
    intro chunk hchunk
    rcases List.mem_append.mp hchunk with hchunk | hchunk
    · split_ifs at hchunk
      · exact nomatch hchunk
      · rw [List.mem_singleton.mp hchunk]
        rfl
    · obtain ⟨delta, -, rfl⟩ := List.mem_map.mp hchunk
      rfl
  | textDelta delta => rfl
  | reasoningDelta delta => rfl
  | toolCallDone i id name arguments => rfl
  | usage usage => rfl
  | finished reason => rfl

theorem processInternalEvents_not_completed (st : ChatToResponses) (events : List InternalStreamEvent) :
    (st.processInternalEvents events).2.filterMap ResponsesChunk.completedOutput = [] := by
  induction events generalizing st with
  | nil => rfl
  | cons event events ih =>
    simp [processInternalEvents, List.filterMap_append, processInternalEvent_not_completed, ih]

end ChatToResponses

variable (serde : SerdeJson)

def eventsBeforeDone (datas : List String) : List InternalStreamEvent :=
  (datas.takeWhile (fun data => !isDone data)).flatMap (internalEventsOf serde)

/-- Some chunk before the one with the end marker gives the client an item when a finish reason has
been read, in that chunk or before; `before` are the events of the earlier chunks. -/
def premature (before : List InternalStreamEvent) : List (List String) → Bool
  | [] => false
  | group :: groups =>
    if group.any isDone then false
    else
      let new := eventsBeforeDone serde group
      ((before ++ new).any InternalStreamEvent.isFinished && emitsAny before new) ||
        premature (before ++ new) groups

def EndsWithDone (chunks : List Bytes) : Prop :=
  (Sse.events Sse.stripSpace chunks).getLast?.any isDone = true

theorem eventsBeforeDone_of_not_done {group : List String} (h : group.any isDone = false) :
    eventsBeforeDone serde group = group.flatMap (internalEventsOf serde) := by
  rw [List.any_eq_false] at h
  rw [eventsBeforeDone, List.takeWhile_eq_self_iff.mpr (fun data hdata => by simpa using h data hdata)]

theorem eventsBeforeDone_append (group : List String) (datas : List String) (h : group.any isDone = false) :
    eventsBeforeDone serde (group ++ datas) = eventsBeforeDone serde group ++ eventsBeforeDone serde datas := by
  rw [eventsBeforeDone_of_not_done serde h]
  rw [List.any_eq_false] at h
  rw [eventsBeforeDone, List.takeWhile_append_of_pos (fun data hdata => by simpa using h data hdata),
    List.flatMap_append]
  rfl

namespace ChatToResponses

theorem handleAll_completed (st : ChatToResponses) (datas : List String) (h : st.completed = true) :
    Sse.handleAll (processEvent serde) st datas = (st, []) := by
  induction datas with
  | nil => rfl
  | cons data datas ih => simp [Sse.handleAll, processEvent, h, ih]

theorem handleAll_open (before : List InternalStreamEvent) (responseId : String) (datas : List String)
    (h : datas.any isDone = false) :
    Sse.handleAll (processEvent serde) (after responseId before) datas =
      (after responseId (before ++ eventsBeforeDone serde datas),
        ((after responseId before).processInternalEvents (eventsBeforeDone serde datas)).2) := by
  induction datas generalizing before with
  | nil => simp [Sse.handleAll, eventsBeforeDone, processInternalEvents]
  | cons data datas ih =>
    rw [List.any_cons, Bool.or_eq_false_iff] at h
    have hevent : processEvent serde (after responseId before) data =
        (after responseId before).processInternalEvents (internalEventsOf serde data) := by
      simp [processEvent, after_open, h.1]
    have hcons : eventsBeforeDone serde (data :: datas) =
        internalEventsOf serde data ++ eventsBeforeDone serde datas := by
      simp [eventsBeforeDone, h.1]
    simp only [Sse.handleAll, hevent, ← after_append, ih _ h.2, hcons, processInternalEvents_append,
      List.append_assoc]

def close (st : ChatToResponses) : ChatToResponses × List ResponsesChunk :=
  finishResponse { st with completed := true }

theorem handleAll_done (before : List InternalStreamEvent) (responseId : String) (datas : List String)
    (h : datas.any isDone = true) :
    Sse.handleAll (processEvent serde) (after responseId before) datas =
      ((after responseId (before ++ eventsBeforeDone serde datas)).close.1,
        ((after responseId before).processInternalEvents (eventsBeforeDone serde datas)).2 ++
          (after responseId (before ++ eventsBeforeDone serde datas)).close.2) := by
  induction datas generalizing before with
  | nil => exact nomatch h
  | cons data datas ih =>
    cases hdone : isDone data with
    | true =>
      have hevent : processEvent serde (after responseId before) data = (after responseId before).close := by
        simp [processEvent, after_open, hdone, close]
      have hcons : eventsBeforeDone serde (data :: datas) = [] := by
        simp [eventsBeforeDone, hdone]
      have hrest := handleAll_completed serde (after responseId before).close.1 datas rfl
      simp only [Sse.handleAll, hevent, hcons, hrest, List.append_nil, processInternalEvents, List.nil_append]
    | false =>
      have hevent : processEvent serde (after responseId before) data =
          (after responseId before).processInternalEvents (internalEventsOf serde data) := by
        simp [processEvent, after_open, hdone]
      have hcons : eventsBeforeDone serde (data :: datas) =
          internalEventsOf serde data ++ eventsBeforeDone serde datas := by
        simp [eventsBeforeDone, hdone]
      rw [List.any_cons, hdone, Bool.false_or] at h
      simp only [Sse.handleAll, hevent, ← after_append, ih _ h, hcons, processInternalEvents_append,
        List.append_assoc]

def groupItems (st : ChatToResponses) :
    List (List String) → List (ResponsesChunk × StreamStatsSnapshot) × ChatToResponses
  | [] => ([], st)
  | group :: groups =>
    let r := Sse.handleAll (processEvent serde) st group
    let rest := groupItems r.1 groups
    (r.2.map (fun chunk => (chunk, r.1.stats)) ++ rest.1, rest.2)

theorem groupItems_completed (st : ChatToResponses) (groups : List (List String)) (h : st.completed = true) :
    groupItems serde st groups = ([], st) := by
  induction groups with
  | nil => rfl
  | cons group groups ih => simp [groupItems, handleAll_completed serde st group h, ih]

end ChatToResponses

open ChatToResponses

structure OpeningItems (before : List InternalStreamEvent) (groups : List (List String))
    (items : List (ResponsesChunk × StreamStatsSnapshot)) : Prop where
  quiet : ∀ p ∈ items, p.2.responseOutputItems = [] ∧ p.1.completedOutput = none
  early : (∃ p ∈ items, p.2.completed = true) ↔ premature serde before groups = true

def openItems (responseId : String) (before new : List InternalStreamEvent) :
    List (ResponsesChunk × StreamStatsSnapshot) :=
  ((after responseId before).processInternalEvents new).2.map
    (fun chunk => (chunk, (after responseId (before ++ new)).stats))

theorem openItems_spec (responseId : String) (before new : List InternalStreamEvent) :
    (∀ p ∈ openItems responseId before new, p.2.responseOutputItems = [] ∧ p.1.completedOutput = none) ∧
    ((∃ p ∈ openItems responseId before new, p.2.completed = true) ↔
      ((before ++ new).any InternalStreamEvent.isFinished && emitsAny before new) = true) := by
  have hnone := processInternalEvents_not_completed (after responseId before) new
  rw [List.filterMap_eq_nil_iff] at hnone
  constructor
  · intro p hp
    obtain ⟨chunk, hchunk, rfl⟩ := List.mem_map.mp hp
    exact ⟨(after_open responseId (before ++ new)).2.2, hnone chunk hchunk⟩
  · rw [Bool.and_eq_true, ← processInternalEvents_emits responseId before new, ← after_finished responseId]
    constructor
    · rintro ⟨p, hp, hcompleted⟩
      obtain ⟨chunk, hchunk, rfl⟩ := List.mem_map.mp hp
      exact ⟨hcompleted, List.ne_nil_of_mem hchunk⟩
    · rintro ⟨hcompleted, hne⟩
      obtain ⟨chunk, hchunk⟩ := List.exists_mem_of_ne_nil _ hne
      exact ⟨_, List.mem_map_of_mem hchunk, hcompleted⟩

theorem groupItems_open (responseId : String) (before : List InternalStreamEvent) (groups : List (List String))
    (h : groups.flatten.any isDone = false) :
    OpeningItems serde before groups (groupItems serde (after responseId before) groups).1 ∧
    (groupItems serde (after responseId before) groups).2 =
      after responseId (before ++ eventsBeforeDone serde groups.flatten) := by
  induction groups generalizing before with
  | nil => exact ⟨⟨by simp [groupItems], by simp [groupItems, premature]⟩, by simp [groupItems, eventsBeforeDone]⟩
  | cons group groups ih =>
    rw [List.flatten_cons, List.any_append, Bool.or_eq_false_iff] at h
    obtain ⟨hitems, hend⟩ := ih (before ++ eventsBeforeDone serde group) h.2
    obtain ⟨hquiet, hearly⟩ := openItems_spec responseId before (eventsBeforeDone serde group)
    simp only [groupItems, handleAll_open serde before responseId group h.1]
    refine ⟨⟨?_, ?_⟩, ?_⟩
    · intro p hp
      rcases List.mem_append.mp hp with hp | hp
      · exact hquiet p hp
      · exact hitems.quiet p hp
    · rw [premature, if_neg (by simp [h.1]), Bool.or_eq_true, ← hearly, ← hitems.early]
      simp only [List.mem_append, or_and_right, exists_or]
      exact Iff.rfl
    · rw [hend, List.flatten_cons, eventsBeforeDone_append serde group _ h.1, List.append_assoc]

theorem eventsBeforeDone_append_done (group datas : List String) (h : group.any isDone = true) :
    eventsBeforeDone serde (group ++ datas) = eventsBeforeDone serde group := by
  induction group with
  | nil => exact nomatch h
  | cons data group ih =>
    cases hdone : isDone data with
    | true => simp [eventsBeforeDone, hdone]
    | false =>
      rw [List.any_cons, hdone, Bool.false_or] at h
      have hrest := ih h
      simp only [eventsBeforeDone] at hrest
      simp [eventsBeforeDone, hdone, hrest]

theorem close_completedOutput (st : ChatToResponses) :
    st.close.2.filterMap ResponsesChunk.completedOutput = [st.responseOutputItems] :=
  (finishResponse_spec { st with completed := true }).1

theorem groupItems_done (responseId : String) (before : List InternalStreamEvent) (groups : List (List String))
    (h : groups.flatten.any isDone = true) :
    ∃ (opening : List (ResponsesChunk × StreamStatsSnapshot)) (closing : List ResponsesChunk),
      groupItems serde (after responseId before) groups =
        (opening ++ closing.map (fun chunk => (chunk,
          (after responseId (before ++ eventsBeforeDone serde groups.flatten)).close.1.stats)),
          (after responseId (before ++ eventsBeforeDone serde groups.flatten)).close.1) ∧
      OpeningItems serde before groups opening ∧
      closing.filterMap ResponsesChunk.completedOutput =
        [(after responseId (before ++ eventsBeforeDone serde groups.flatten)).responseOutputItems] := by
  induction groups generalizing before with
  | nil => exact nomatch h
  | cons group groups ih =>
    cases hgroup : group.any isDone with
    | true =>
      rw [List.flatten_cons, eventsBeforeDone_append_done serde group _ hgroup]
      refine ⟨[], (Sse.handleAll (processEvent serde) (after responseId before) group).2, ?_, ⟨by simp, ?_⟩, ?_⟩
      · simp only [groupItems, handleAll_done serde before responseId group hgroup, List.nil_append]
        rw [groupItems_completed serde _ groups rfl, List.append_nil]
      · simp [premature, hgroup]
      · rw [handleAll_done serde before responseId group hgroup, List.filterMap_append,
          processInternalEvents_not_completed, close_completedOutput, List.nil_append]
    | false =>
      rw [List.flatten_cons, List.any_append, hgroup, Bool.false_or] at h
      obtain ⟨opening, closing, hitems, hopening, hclosing⟩ := ih (before ++ eventsBeforeDone serde group) h
      obtain ⟨hquiet, hearly⟩ := openItems_spec responseId before (eventsBeforeDone serde group)
      rw [List.flatten_cons, eventsBeforeDone_append serde group _ hgroup, ← List.append_assoc]
      refine ⟨openItems responseId before (eventsBeforeDone serde group) ++ opening, closing, ?_, ⟨?_, ?_⟩, hclosing⟩
      · simp only [groupItems, handleAll_open serde before responseId group hgroup, hitems, List.append_assoc]
        rfl
      · intro p hp
        rcases List.mem_append.mp hp with hp | hp
        · exact hquiet p hp
        · exact hopening.quiet p hp
      · rw [premature, if_neg (by simp [hgroup]), Bool.or_eq_true, ← hearly, ← hopening.early]
        simp only [List.mem_append, or_and_right, exists_or]

namespace ChatToResponsesSseDecoder

theorem flushTail_eq (dec : ChatToResponsesSseDecoder) :
    ((dec.flushTail serde).1.inner, (dec.flushTail serde).2) =
      if dec.lineBuffer = [] then (dec.inner, [])
      else Sse.handleAll (processEvent serde) dec.inner (dec.scanner.trailing Sse.stripSpace) := by
  unfold flushTail
  split_ifs with hbuffer
  · rfl
  · simp only [Sse.Reader.processLine_eq, Sse.scanLine, hbuffer, ↓reduceIte, Sse.Reader.flushEvent,
      Sse.Reader.scanner, Sse.Scanner.trailing]
    split_ifs with hdata <;> simp [Sse.handleAll]

theorem finish_eq (dec : ChatToResponsesSseDecoder) :
    ((dec.finish serde).1.inner, (dec.finish serde).2) =
      if (dec.flushTail serde).1.inner.completed then ((dec.flushTail serde).1.inner, (dec.flushTail serde).2)
      else ((dec.flushTail serde).1.inner.close.1,
        (dec.flushTail serde).2 ++ (dec.flushTail serde).1.inner.close.2) := by
  simp only [finish]
  split_ifs <;> rfl

theorem finish_completed (dec : ChatToResponsesSseDecoder) (h : dec.inner.completed = true) :
    ((dec.finish serde).1.inner, (dec.finish serde).2) = (dec.inner, []) := by
  have htail : ((dec.flushTail serde).1.inner, (dec.flushTail serde).2) = (dec.inner, []) := by
    rw [flushTail_eq]
    split_ifs
    · rfl
    · exact handleAll_completed serde dec.inner _ h
  simp only [Prod.mk.injEq] at htail
  rw [finish_eq, htail.1, htail.2, if_pos h]

theorem finish_trailing_done (dec : ChatToResponsesSseDecoder) (responseId : String)
    (before : List InternalStreamEvent) (data : String) (hdec : dec.inner = after responseId before)
    (htrailing : dec.scanner.trailing Sse.stripSpace = [data]) (hdone : isDone data = true) :
    ((dec.finish serde).1.inner, (dec.finish serde).2) = (after responseId before).close := by
  have htail := flushTail_eq serde dec
  rw [htrailing, hdec] at htail
  rw [finish_eq]
  split_ifs at htail with hbuffer
  · simp only [Prod.mk.injEq] at htail
    rw [htail.1, htail.2, if_neg (by simp [after_open])]
    rfl
  · rw [handleAll_done serde before responseId [data] (by simp [hdone])] at htail
    have hnone : eventsBeforeDone serde [data] = [] := by simp [eventsBeforeDone, hdone]
    simp only [hnone, List.append_nil, processInternalEvents, List.nil_append, Prod.mk.injEq] at htail
    have hclosed : (after responseId before).close.1.completed = true := rfl
    rw [htail.1, htail.2, if_pos hclosed]

end ChatToResponsesSseDecoder

theorem mapResponseStream_chunks (dec : ChatToResponsesSseDecoder) (chunks : List Bytes) :
    ∃ last : ChatToResponsesSseDecoder,
      last.scanner = (dec.scanner.pushAll Sse.stripSpace chunks).1 ∧
      last.inner = (groupItems serde dec.inner (dec.scanner.pushAll Sse.stripSpace chunks).2).2 ∧
      finalStats (chatToResponsesDecoder serde) dec (chunks.map .ok) = (last.finish serde).1.inner.stats ∧
      mapResponseStream (chatToResponsesDecoder serde) dec (chunks.map .ok) =
        ((groupItems serde dec.inner (dec.scanner.pushAll Sse.stripSpace chunks).2).1 ++
          (last.finish serde).2.map (fun chunk => (chunk, (last.finish serde).1.inner.stats))).map
          (fun p => (.ok p.1, p.2)) := by
  induction chunks generalizing dec with
  | nil =>
    refine ⟨dec, rfl, rfl, rfl, ?_⟩
    simp [mapResponseStream, groupItems, Sse.Scanner.pushAll, chatToResponsesDecoder]
  | cons chunk chunks ih =>
    have hpush := Sse.Reader.pushChunk_eq (processEvent serde) Sse.stripSpace dec chunk
    obtain ⟨last, hscanner, hinner, hfinal, hitems⟩ := ih (dec.pushChunk serde chunk).1
    simp only [ChatToResponsesSseDecoder.pushChunk, hpush, Sse.Reader.scanner] at hscanner hinner hfinal hitems
    refine ⟨last, hscanner, hinner, ?_, ?_⟩
    · simpa only [List.map_cons, finalStats, chatToResponsesDecoder, ChatToResponsesSseDecoder.pushChunk, hpush,
        Sse.Reader.scanner] using hfinal
    · simp only [List.map_cons, mapResponseStream, chatToResponsesDecoder, ChatToResponsesSseDecoder.pushChunk,
        hpush, Sse.Scanner.pushAll, groupItems, Sse.Reader.scanner] at hitems ⊢
      rw [hitems]
      simp

def streamEvents (chunks : List Bytes) : List InternalStreamEvent :=
  eventsBeforeDone serde (Sse.events Sse.stripSpace chunks)

structure CutAtDone (responseId : String) (chunks : List Bytes)
    (opening : List (ResponsesChunk × StreamStatsSnapshot)) (closing : List ResponsesChunk) : Prop where
  items : mapResponseStream (chatToResponsesDecoder serde) (.new responseId) (chunks.map .ok) =
    (opening ++ closing.map (fun chunk => (chunk,
      (after responseId (streamEvents serde chunks)).close.1.stats))).map (fun p => (.ok p.1, p.2))
  final : finalStats (chatToResponsesDecoder serde) (.new responseId) (chunks.map .ok) =
    (after responseId (streamEvents serde chunks)).close.1.stats
  opening : OpeningItems serde [] (Sse.chunkEvents Sse.stripSpace chunks) opening
  closing : closing.filterMap ResponsesChunk.completedOutput =
    [(after responseId (streamEvents serde chunks)).responseOutputItems]

theorem exists_cutAtDone (responseId : String) (chunks : List Bytes) (h : EndsWithDone chunks) :
    ∃ opening closing, CutAtDone serde responseId chunks opening closing := by
  obtain ⟨last, hscanner, hinner, hfinal, hitems⟩ :=
    mapResponseStream_chunks serde (ChatToResponsesSseDecoder.new responseId) chunks
  change last.inner = (groupItems serde (after responseId []) (Sse.chunkEvents Sse.stripSpace chunks)).2 at hinner
  change _ = ((groupItems serde (after responseId []) (Sse.chunkEvents Sse.stripSpace chunks)).1 ++ _).map _ at hitems
  cases hdone : (Sse.chunkEvents Sse.stripSpace chunks).flatten.any isDone with
  | true =>
    obtain ⟨opening, closing, hgroups, hopening, hclosing⟩ := groupItems_done serde responseId [] _ hdone
    have hevents : streamEvents serde chunks =
        eventsBeforeDone serde (Sse.chunkEvents Sse.stripSpace chunks).flatten :=
      eventsBeforeDone_append_done serde _ _ hdone
    rw [List.nil_append, ← hevents] at hgroups hclosing
    have hfinish := ChatToResponsesSseDecoder.finish_completed serde last (by rw [hinner, hgroups]; rfl)
    simp only [Prod.mk.injEq] at hfinish
    refine ⟨opening, closing, ?_, ?_, hopening, hclosing⟩
    · rw [hitems, hgroups, hfinish.2, List.map_nil, List.append_nil]
    · rw [hfinal, hfinish.1, hinner, hgroups]
  | false =>
    obtain ⟨hopening, hgroups⟩ := groupItems_open serde responseId [] _ hdone
    have htrailing : ∃ data, Sse.trailingEvents Sse.stripSpace chunks = [data] ∧ isDone data = true := by
      have hlast : (Sse.events Sse.stripSpace chunks).getLast?.any isDone = true := h
      rw [Sse.events] at hlast
      rcases Sse.Scanner.trailing_cases Sse.stripSpace (Sse.Scanner.pushAll Sse.stripSpace {} chunks).1 with
        htail | ⟨data, htail⟩
      · rw [Sse.trailingEvents, htail, List.append_nil] at hlast
        obtain ⟨data, hdata, hdata'⟩ := (Option.any_eq_true _ _).mp hlast
        rw [List.any_eq_false] at hdone
        exact absurd hdata' (hdone data (List.mem_of_getLast? hdata))
      · refine ⟨data, htail, ?_⟩
        rw [Sse.trailingEvents, htail] at hlast
        simpa using hlast
    obtain ⟨data, hdata, hdataDone⟩ := htrailing
    have hevents : streamEvents serde chunks =
        eventsBeforeDone serde (Sse.chunkEvents Sse.stripSpace chunks).flatten := by
      rw [streamEvents, Sse.events, hdata, eventsBeforeDone_append serde _ _ hdone]
      simp [eventsBeforeDone, hdataDone]
    rw [List.nil_append, ← hevents] at hgroups
    have hfinish := ChatToResponsesSseDecoder.finish_trailing_done serde last responseId
      (streamEvents serde chunks) data (by rw [hinner, hgroups]) (by rw [hscanner]; exact hdata) hdataDone
    refine ⟨_, (after responseId (streamEvents serde chunks)).close.2, ?_, ?_, hopening, close_completedOutput _⟩
    · rw [hitems, ← hfinish]
    · rw [hfinal, ← hfinish]

end Prelay.Bridge
