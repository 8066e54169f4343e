import Prelay.ClosedChat

namespace Prelay.Bridge

open Json ChatToResponses

inductive OutputItem where
  | message
  | call (index : ℕ)
  deriving DecidableEq

namespace OutputItem

def index : OutputItem → ℕ
  | .message => 0
  | .call index => index

def value (st : ChatToResponses) : OutputItem → Value
  | .message => messageItem st.stats.outputText
  | .call index => functionCallItem (st.toolCalls.getD index {})

end OutputItem

def InternalStreamEvent.outputItem : InternalStreamEvent → Option OutputItem
  | .textDelta _ => some .message
  | .toolCallDelta index _ _ _ => some (.call index)
  | _ => none

def ResponsesChunk.outputIndex : ResponsesChunk → Option ℕ
  | .event _ data => (data.get "output_index").bind Value.asU64
  | .completed _ => none

section sent

variable (responseId : String)

def itemsOf (st : ChatToResponses) : List InternalStreamEvent → List (OutputItem × ResponsesChunk)
  | [] => []
  | event :: events =>
    event.outputItem.toList.flatMap (fun item => (st.processInternalEvent event).2.map (fun chunk => (item, chunk))) ++
      itemsOf (st.processInternalEvent event).1 events

def closingItems (st : ChatToResponses) : List (OutputItem × ResponsesChunk) :=
  (st.toolCalls.toList.filter (fun p => !p.2.done)).flatMap (fun p =>
    (responsesToolCallDoneSse p.1 { p.2 with done := true }).map (fun chunk => (.call p.1, chunk)))

def sentItems (events : List InternalStreamEvent) : List (OutputItem × ResponsesChunk) :=
  itemsOf (new responseId) events ++ closingItems (after responseId events)

def outputItems (st : ChatToResponses) : List OutputItem :=
  (if st.stats.outputText = "" then [] else [.message]) ++
    (st.toolCalls.toList.filter (fun p => p.2.id ≠ "" ∧ p.2.name ≠ "")).map (fun p => .call p.1)

theorem itemsOf_chunks (st : ChatToResponses) (events : List InternalStreamEvent) :
    (itemsOf st events).map Prod.snd = (st.processInternalEvents events).2 := by
  induction events generalizing st with
  | nil => rfl
  | cons event events ih =>
    rw [itemsOf, List.map_append, ih]
    cases event <;> simp [processInternalEvents, InternalStreamEvent.outputItem, processInternalEvent,
      internalEventToResponsesSse, takeUsage, recordInternalEvent, Function.comp_def]

theorem sentItems_chunks (serde : SerdeJson) (chunks : List Bytes) :
    ((chatToResponsesDecoder serde).decode (fun chunk => [chunk]) (.new responseId) chunks).1 =
      (sentItems responseId (readEvents serde chunks.flatten)).map Prod.snd ++
        [responsesCompletedSseWithUsage (after responseId (readEvents serde chunks.flatten)).usage responseId
          (after responseId (readEvents serde chunks.flatten)).responseOutputItems] := by
  have hclose (st : ChatToResponses) : st.close.2 = (closingItems st).map Prod.snd ++
      [responsesCompletedSseWithUsage st.usage st.responseId st.responseOutputItems] := by
    have hchunks : (closingItems st).map Prod.snd =
        (st.toolCalls.toList.filter (fun p => !p.2.done)).flatMap
          (fun p => responsesToolCallDoneSse p.1 { p.2 with done := true }) := by
      simp [closingItems, List.map_flatMap, Function.comp_def]
    rw [hchunks, close_chunks]
  rw [decode_bridge, List.flatMap_singleton', hclose, sentItems, List.map_append, itemsOf_chunks, List.append_assoc,
    (after_open responseId _).2.1]

theorem outputItems_value (st : ChatToResponses) :
    st.responseOutputItems = (outputItems st).map (OutputItem.value st) := by
  rw [responseOutputItems, outputItems, List.map_append, List.map_map]
  congr 1
  · split_ifs <;> rfl
  · apply List.map_congr_left
    rintro ⟨index, toolCall⟩ hentry
    have hget := Std.ExtTreeMap.mem_toList_iff_getElem?_eq_some.mp (List.mem_filter.mp hentry).1
    simp only [Function.comp_apply, OutputItem.value, Std.ExtTreeMap.getD_eq_getD_getElem?, hget, Option.getD_some]

end sent

section indices

variable {responseId : String} {events : List InternalStreamEvent}

theorem itemsOf_index {st : ChatToResponses} {sent : OutputItem × ResponsesChunk} (h : sent ∈ itemsOf st events) :
    sent.2.outputIndex = some sent.1.index := by
  induction events generalizing st with
  | nil => cases h
  | cons event events ih =>
    rcases List.mem_append.mp h with hfirst | hrest
    · cases event with
      | textDelta delta =>
        obtain ⟨item, hitem, hsent⟩ := List.mem_flatMap.mp hfirst
        obtain ⟨chunk, hchunk, rfl⟩ := List.mem_map.mp hsent
        rw [List.mem_singleton.mp hitem, List.mem_singleton.mp hchunk]
        simp [ResponsesChunk.outputIndex, responsesTextDeltaSse, responsesSseEvent, Value.get_json, OutputItem.index]
        rfl
      | toolCallDelta index id name arguments =>
        obtain ⟨item, hitem, hsent⟩ := List.mem_flatMap.mp hfirst
        obtain ⟨chunk, hchunk, rfl⟩ := List.mem_map.mp hsent
        rw [List.mem_singleton.mp hitem]
        rw [(processInternalEvent_toolCallDelta st index id name arguments).1] at hchunk
        rcases List.mem_append.mp hchunk with hadded | harguments
        · split_ifs at hadded
          · cases hadded
          · rw [List.mem_singleton.mp hadded]
            simp [ResponsesChunk.outputIndex, responsesFunctionCallAddedSse, responsesSseEvent, Value.get_json,
              OutputItem.index]
            rfl
        · obtain ⟨delta, -, rfl⟩ := List.mem_map.mp harguments
          simp [ResponsesChunk.outputIndex, responsesFunctionCallArgumentsDeltaSse, responsesSseEvent, Value.get_json,
            OutputItem.index]
          rfl
      | reasoningDelta delta => cases hfirst
      | toolCallDone index id name arguments => cases hfirst
      | usage usage => cases hfirst
      | finished reason => cases hfirst
    · exact ih hrest

theorem sentItems_index {sent : OutputItem × ResponsesChunk} (h : sent ∈ sentItems responseId events) :
    sent.2.outputIndex = some sent.1.index := by
  rcases List.mem_append.mp h with hrun | hclosing
  · exact itemsOf_index hrun
  · obtain ⟨p, -, hsent⟩ := List.mem_flatMap.mp hclosing
    obtain ⟨chunk, hchunk, rfl⟩ := List.mem_map.mp hsent
    simp only [responsesToolCallDoneSse, List.mem_cons, List.not_mem_nil, or_false] at hchunk
    rcases hchunk with rfl | rfl
    · simp [ResponsesChunk.outputIndex, responsesFunctionCallArgumentsDoneSse, responsesSseEvent, Value.get_json,
        OutputItem.index]
      rfl
    · simp [ResponsesChunk.outputIndex, responsesOutputItemDoneSse, responsesSseEvent, Value.get_json, OutputItem.index]
      rfl

def HasText (events : List InternalStreamEvent) : Prop := ∃ delta, InternalStreamEvent.textDelta delta ∈ events

theorem itemsOf_origin {st : ChatToResponses} {sent : OutputItem × ResponsesChunk} (h : sent ∈ itemsOf st events) :
    ∃ event ∈ events, event.outputItem = some sent.1 := by
  induction events generalizing st with
  | nil => exact nomatch h
  | cons event events ih =>
    rcases List.mem_append.mp h with hfirst | hrest
    · obtain ⟨item, hitem, hsent⟩ := List.mem_flatMap.mp hfirst
      obtain ⟨chunk, -, rfl⟩ := List.mem_map.mp hsent
      exact ⟨event, List.mem_cons_self, Option.mem_toList.mp hitem⟩
    · obtain ⟨origin, horigin, hitem⟩ := ih hrest
      exact ⟨origin, List.mem_cons_of_mem _ horigin, hitem⟩

theorem itemsOf_text (st : ChatToResponses) {delta : String} (h : InternalStreamEvent.textDelta delta ∈ events) :
    (.message, responsesTextDeltaSse delta) ∈ itemsOf st events := by
  induction events generalizing st with
  | nil => exact nomatch h
  | cons event events ih =>
    rcases List.mem_cons.mp h with rfl | hrest
    · exact List.mem_append_left _ (List.mem_flatMap.mpr ⟨.message, List.mem_singleton_self _, List.mem_singleton_self _⟩)
    · exact List.mem_append_right _ (ih _ hrest)

def Streamed (events : List InternalStreamEvent) : OutputItem → Prop
  | .message => HasText events
  | .call index => events.any (InternalStreamEvent.isToolCallDelta index) = true

theorem mem_sentItems (item : OutputItem) : item ∈ (sentItems responseId events).map Prod.fst ↔ Streamed events item := by
  have horigin {sent : OutputItem × ResponsesChunk} (hsent : sent ∈ itemsOf (new responseId) events) :
      Streamed events sent.1 := by
    obtain ⟨event, hevent, hitem⟩ := itemsOf_origin hsent
    cases event with
    | textDelta delta =>
      rw [← Option.some.inj hitem]
      exact ⟨delta, hevent⟩
    | toolCallDelta index id name arguments =>
      rw [← Option.some.inj hitem]
      exact List.any_eq_true.mpr ⟨_, hevent, decide_eq_true rfl⟩
    | _ => exact nomatch hitem
  have hcalls := after_call responseId events
  rw [sentItems, List.map_append, List.mem_append]
  constructor
  · rintro (hrun | hclosing)
    · obtain ⟨sent, hsent, rfl⟩ := List.mem_map.mp hrun
      exact horigin hsent
    · obtain ⟨sent, hsent, rfl⟩ := List.mem_map.mp hclosing
      obtain ⟨p, hp, hmem⟩ := List.mem_flatMap.mp hsent
      obtain ⟨chunk, -, rfl⟩ := List.mem_map.mp hmem
      have hget := Std.ExtTreeMap.mem_toList_iff_getElem?_eq_some.mp (List.mem_filter.mp hp).1
      have hcall := hcalls p.1
      rw [hget, Option.map_some] at hcall
      split_ifs at hcall with hany
      exact hany
  · cases item with
    | message =>
      rintro ⟨delta, hdelta⟩
      exact .inl (List.mem_map_of_mem (itemsOf_text (new responseId) hdelta))
    | call index =>
      intro hany
      have hcall := hcalls index
      rw [if_pos (show events.any (InternalStreamEvent.isToolCallDelta index) = true from hany)] at hcall
      obtain ⟨toolCall, hget, -⟩ := Option.map_eq_some_iff.mp hcall
      refine .inr (List.mem_map.mpr ⟨(.call index, responsesFunctionCallArgumentsDoneSse index
        { toolCall with done := true }), List.mem_flatMap.mpr ⟨(index, toolCall), ?_, ?_⟩, rfl⟩)
      · rw [List.mem_filter, Std.ExtTreeMap.mem_toList_iff_getElem?_eq_some]
        exact ⟨hget, by rw [after_noneDone responseId events index toolCall hget]; rfl⟩
      · exact List.mem_cons_self

theorem positions_iff {indices : List ℕ} (hsorted : indices.Pairwise (· < ·)) (first : ℕ) :
    (∀ position index, indices[position]? = some index → index = first + position) ↔
      ∀ index ∈ indices, first ≤ index ∧ ∀ other, first ≤ other → other < index → other ∈ indices := by
  induction indices generalizing first with
  | nil => simp
  | cons head indices ih =>
    rw [List.pairwise_cons] at hsorted
    obtain ⟨hhead, hsorted⟩ := hsorted
    constructor
    · intro h
      have hfirst : head = first := h 0 head rfl
      have hrest := (ih hsorted (first + 1)).mp (by
        intro position index hindex
        have hat := h (position + 1) index hindex
        omega)
      rw [List.forall_mem_cons]
      refine ⟨⟨by omega, fun other hle hlt => by omega⟩, ?_⟩
      intro index hindex
      obtain ⟨hle, hothers⟩ := hrest index hindex
      refine ⟨by omega, ?_⟩
      intro other hle' hlt
      by_cases hother : other = first
      · rw [hother, ← hfirst]
        exact List.mem_cons_self
      · exact List.mem_cons_of_mem _ (hothers other (by omega) hlt)
    · intro h
      have hfirst : head = first := by
        obtain ⟨hle, hothers⟩ := h head List.mem_cons_self
        by_contra hne
        rcases List.mem_cons.mp (hothers first (by omega) (by omega)) with heq | hmem
        · omega
        · have hlt := hhead first hmem
          omega
      have hrest := (ih hsorted (first + 1)).mpr (by
        intro index hindex
        have hlt := hhead index hindex
        refine ⟨by omega, ?_⟩
        intro other hle hlt'
        have hmem := (h index (List.mem_cons_of_mem _ hindex)).2 other (by omega) hlt'
        rcases List.mem_cons.mp hmem with heq | hmem
        · omega
        · exact hmem)
      intro position index hindex
      cases position with
      | zero =>
        have hzero := Option.some.inj hindex
        omega
      | succ position =>
        have hat := hrest position index hindex
        omega

end indices

/-- An index stands for one item, and it is the place of that item in the `output` array. The events with their items
are those of `sentItems_chunks`, the array that of `outputItems_value`. -/
def IndicesIdentify (serde : SerdeJson) (responseId : String) (chunks : List Bytes) : Prop :=
  let events := readEvents serde chunks.flatten
  (∀ sent ∈ sentItems responseId events, ∀ other ∈ sentItems responseId events,
    sent.1 ≠ other.1 → sent.2.outputIndex ≠ other.2.outputIndex) ∧
  ∀ sent ∈ sentItems responseId events, ∀ position,
    (outputItems (after responseId events))[position]? = some sent.1 → sent.2.outputIndex = some position

def CompleteCall (events : List InternalStreamEvent) (index : ℕ) : Prop :=
  lastId index events ≠ "" ∧ lastName index events ≠ ""

def firstCall (events : List InternalStreamEvent) : ℕ := if events.all (fun event => event.text = "") then 0 else 1

def CallsNumbered (events : List InternalStreamEvent) : Prop :=
  ∀ index, CompleteCall events index →
    firstCall events ≤ index ∧ ∀ other, firstCall events ≤ other → other < index → CompleteCall events other

section identify

variable (responseId : String) {events : List InternalStreamEvent}

def completeIndices (st : ChatToResponses) : List ℕ :=
  (st.toolCalls.toList.filter (fun p => p.2.id ≠ "" ∧ p.2.name ≠ "")).map Prod.fst

theorem completeIndices_sorted (st : ChatToResponses) : (completeIndices st).Pairwise (· < ·) := by
  have hsorted : st.toolCalls.toList.Pairwise (fun a b => a.1 < b.1) :=
    st.toolCalls.ordered_keys_toList.imp (fun hlt => Nat.compare_eq_lt.mp hlt)
  exact List.pairwise_map.mpr (hsorted.sublist List.filter_sublist)

theorem mem_completeIndices (index : ℕ) :
    index ∈ completeIndices (after responseId events) ↔ CompleteCall events index := by
  obtain ⟨hid, hname⟩ := after_names responseId events index
  rw [Std.ExtTreeMap.getD_eq_getD_getElem?] at hid hname
  unfold completeIndices CompleteCall
  rw [← hid, ← hname, List.mem_map]
  constructor
  · rintro ⟨p, hp, rfl⟩
    obtain ⟨hmem, hcomplete⟩ := List.mem_filter.mp hp
    rw [Std.ExtTreeMap.mem_toList_iff_getElem?_eq_some.mp hmem, Option.getD_some]
    exact of_decide_eq_true hcomplete
  · intro hcomplete
    cases hget : (after responseId events).toolCalls[index]? with
    | none =>
      rw [hget] at hcomplete
      exact absurd rfl hcomplete.1
    | some toolCall =>
      rw [hget, Option.getD_some] at hcomplete
      exact ⟨(index, toolCall), List.mem_filter.mpr
        ⟨Std.ExtTreeMap.mem_toList_iff_getElem?_eq_some.mpr hget, decide_eq_true hcomplete⟩, rfl⟩

theorem outputItems_eq : outputItems (after responseId events) =
    (if firstCall events = 0 then [] else [.message]) ++ (completeIndices (after responseId events)).map .call := by
  have htext := after_outputText responseId events
  rw [outputItems, completeIndices, List.map_map]
  congr 1
  unfold firstCall
  by_cases hempty : ∀ event ∈ events, event.text = ""
  · rw [if_pos (htext.mpr hempty), if_pos (List.all_eq_true.mpr
      (fun event hevent => decide_eq_true (hempty event hevent)))]
    rfl
  · have hall : ¬events.all (fun event => event.text = "") = true := by
      intro hall
      exact hempty (fun event hevent => of_decide_eq_true (List.all_eq_true.mp hall event hevent))
    rw [if_neg (fun h => hempty (htext.mp h)), if_neg hall]
    rfl

theorem outputItems_positions :
    (∀ (position : ℕ) (item : OutputItem), (outputItems (after responseId events))[position]? = some item →
    item.index = position) ↔ CallsNumbered events := by
  have hpositions := positions_iff (completeIndices_sorted (after responseId events)) (firstCall events)
  simp only [mem_completeIndices] at hpositions
  rw [CallsNumbered, ← hpositions, outputItems_eq]
  have hfirst : firstCall events = 0 ∨ firstCall events = 1 := by
    unfold firstCall
    split_ifs
    · exact .inl rfl
    · exact .inr rfl
  rcases hfirst with hzero | hone
  · rw [hzero, if_pos rfl, List.nil_append]
    constructor
    · intro h position index hindex
      have hat := h position (.call index) (by rw [List.getElem?_map, hindex]; rfl)
      simpa [OutputItem.index] using hat
    · intro h position item hitem
      rw [List.getElem?_map] at hitem
      obtain ⟨index, hindex, rfl⟩ := Option.map_eq_some_iff.mp hitem
      simpa [OutputItem.index] using h position index hindex
  · rw [hone, if_neg Nat.one_ne_zero, List.singleton_append]
    constructor
    · intro h position index hindex
      have hat := h (position + 1) (.call index) (by rw [List.getElem?_cons_succ, List.getElem?_map, hindex]; rfl)
      simp only [OutputItem.index] at hat
      omega
    · intro h position item hitem
      cases position with
      | zero =>
        rw [← Option.some.inj hitem]
        rfl
      | succ position =>
        rw [List.getElem?_cons_succ, List.getElem?_map] at hitem
        obtain ⟨index, hindex, rfl⟩ := Option.map_eq_some_iff.mp hitem
        have hat := h position index hindex
        simp only [OutputItem.index]
        omega

theorem outputItems_sent {item : OutputItem} (h : item ∈ outputItems (after responseId events)) :
    item ∈ (sentItems responseId events).map Prod.fst := by
  rw [mem_sentItems]
  rw [outputItems_eq, List.mem_append] at h
  rcases h with hmessage | hcall
  · split_ifs at hmessage with hfirst
    · exact nomatch hmessage
    · rw [List.mem_singleton.mp hmessage]
      have hsome : ¬events.all (fun event => event.text = "") = true := by
        intro hall
        exact hfirst (if_pos hall)
      rw [List.all_eq_true] at hsome
      push Not at hsome
      obtain ⟨event, hevent, htext⟩ := hsome
      cases event with
      | textDelta delta => exact ⟨delta, hevent⟩
      | _ => exact absurd (decide_eq_true rfl) htext
  · obtain ⟨index, hindex, rfl⟩ := List.mem_map.mp hcall
    by_contra hnone
    have hcomplete := (mem_completeIndices responseId index).mp hindex
    exact hcomplete.1 (lastId_of_not_any index events (by simpa [Streamed] using hnone)).1

theorem output_indices_iff (serde : SerdeJson) (responseId : String) (chunks : List Bytes) :
    IndicesIdentify serde responseId chunks ↔
      ¬(HasText (readEvents serde chunks.flatten) ∧
        (readEvents serde chunks.flatten).any (InternalStreamEvent.isToolCallDelta 0) = true) ∧
      CallsNumbered (readEvents serde chunks.flatten) := by
  unfold IndicesIdentify
  generalize readEvents serde chunks.flatten = events
  dsimp only
  rw [← outputItems_positions responseId]
  have hindex {sent : OutputItem × ResponsesChunk} (hsent : sent ∈ sentItems responseId events) :=
    sentItems_index hsent
  apply and_congr
  · constructor
    · rintro hdistinct ⟨htext, hcall⟩
      obtain ⟨sent, hsent, hmessage⟩ := List.mem_map.mp ((@mem_sentItems responseId events .message).mpr htext)
      obtain ⟨other, hother, hzero⟩ := List.mem_map.mp ((@mem_sentItems responseId events (.call 0)).mpr hcall)
      refine hdistinct sent hsent other hother (by rw [hmessage, hzero]; exact nofun) ?_
      rw [hindex hsent, hindex hother, hmessage, hzero]
      rfl
    · intro hapart sent hsent other hother hne heq
      rw [hindex hsent, hindex hother, Option.some.injEq] at heq
      have hmem := (mem_sentItems sent.1).mp (List.mem_map_of_mem hsent)
      have hmem' := (mem_sentItems other.1).mp (List.mem_map_of_mem hother)
      obtain ⟨item, chunk⟩ := sent
      obtain ⟨item', chunk'⟩ := other
      cases item with
      | message =>
        cases item' with
        | message => exact hne rfl
        | call index =>
          rw [← show 0 = index from heq] at hmem'
          exact hapart ⟨hmem, hmem'⟩
      | call index =>
        cases item' with
        | message =>
          rw [show index = 0 from heq] at hmem
          exact hapart ⟨hmem', hmem⟩
        | call index' => exact hne (congrArg OutputItem.call heq)
  · constructor
    · intro hplaces position item hitem
      obtain ⟨sent, hsent, rfl⟩ := List.mem_map.mp (outputItems_sent responseId (List.mem_of_getElem? hitem))
      have hplace := hplaces sent hsent position hitem
      rw [hindex hsent] at hplace
      exact Option.some.inj hplace
    · intro hplaces sent hsent position hitem
      rw [hindex hsent, hplaces position sent.1 hitem]

end identify

def textAndCallStream : List Bytes :=
  [Str.utf8 ("data: \x7b\"choices\":[\x7b\"delta\":\x7b\"content\":\"hi\",\"tool_calls\":[\x7b\"index\":0,\"id\":\"a\"," ++
    "\"function\":\x7b\"name\":\"f\"\x7d\x7d]\x7d\x7d]\x7d\n\ndata: [DONE]\n\n")]

theorem output_indices_collide : ¬IndicesIdentify Text.codec "resp_1" textAndCallStream := by
  intro h
  have hdistinct := h.1
  have hevents : readEvents Text.codec textAndCallStream.flatten =
      [.textDelta "hi", .toolCallDelta 0 (some "a") (some "f") none] := by
    decide +kernel
  rw [hevents] at hdistinct
  refine hdistinct (.message, responsesTextDeltaSse "hi") (by decide +kernel)
    (.call 0, responsesFunctionCallAddedSse 0 { id := "a", name := "f" }) (by decide +kernel) (by decide)
    (by decide +kernel)

end Prelay.Bridge
