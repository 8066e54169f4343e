import Prelay.ReportedUsage
import Prelay.SentBytes

namespace Prelay.Bridge

open Json ChatToResponses

section bridge

structure AddsNothing (before new : List InternalStreamEvent) : Prop where
  silent : emitsAny before new = false
  reasoning : ∀ event ∈ new, event.reasoningText = ""
  usage : lastUsage (before ++ new) = lastUsage before
  ids : ∀ index, lastId index (before ++ new) = lastId index before
  names : ∀ index, lastName index (before ++ new) = lastName index before
  calls : ∀ index, shownDeltas (before ++ new) index = shownDeltas before index

variable (responseId : String)

def answerOf (events : List InternalStreamEvent) : List ResponsesChunk × StreamStatsSnapshot :=
  (((new responseId).processInternalEvents events).2 ++ (after responseId events).close.2,
    (after responseId events).close.1.stats)

theorem after_toolCalls_get (events : List InternalStreamEvent) (index : ℕ) :
    (after responseId events).toolCalls[index]? =
      if events.any (InternalStreamEvent.isToolCallDelta index) then some
        { id := lastId index events, name := lastName index events, arguments := joinedArguments index events,
          added := true, done := false }
      else none := by
  have htool := after_toolCall responseId events index
  have hcall := after_call responseId events index
  split_ifs at htool hcall ⊢ with hany
  · obtain ⟨toolCall, hget, heq⟩ := Option.map_eq_some_iff.mp htool
    have hopen := after_noneDone responseId events index toolCall hget
    rw [hget, Option.map_some, Option.some.injEq] at hcall
    obtain ⟨id, name, arguments, added, done⟩ := toolCall
    simp only [callOf, streamedCall, Prod.mk.injEq, ChatCall.mk.injEq] at heq hcall hopen
    obtain ⟨rfl, rfl, rfl⟩ := hcall
    rw [hget, heq.2.2, hopen]
  · exact Option.map_eq_none_iff.mp htool

theorem silent_text {before new : List InternalStreamEvent} (h : emitsAny before new = false) :
    ∀ event ∈ new, event.text = "" := by
  induction new generalizing before with
  | nil => simp
  | cons event new ih =>
    rw [emitsAny, Bool.or_eq_false_iff] at h
    rw [List.forall_mem_cons]
    refine ⟨?_, ih h.2⟩
    cases event with
    | textDelta delta => cases h.1
    | _ => rfl

theorem join_empty {texts : List String} (h : ∀ text ∈ texts, text = "") : String.join texts = "" := by
  induction texts with
  | nil => rfl
  | cons text texts ih =>
    rw [List.forall_mem_cons] at h
    rw [String.join_cons, h.1, ih h.2]
    rfl

theorem join_append_empty_iff (texts more : List String) :
    String.join (texts ++ more) = String.join texts ↔ ∀ text ∈ more, text = "" := by
  rw [String.join_append]
  constructor
  · intro h
    have hmore : String.join more = "" := by
      have hlength := congrArg String.length h
      rw [String.length_append] at hlength
      exact String.length_eq_zero_iff.mp (by omega)
    clear h
    induction more with
    | nil => exact nofun
    | cons text more ih =>
      rw [String.join_cons, String.append_eq_empty_iff] at hmore
      rw [List.forall_mem_cons]
      exact ⟨hmore.1, ih hmore.2⟩
  · intro h
    rw [join_empty h, String.append_empty]

variable {before new : List InternalStreamEvent}

theorem AddsNothing.statsOf (h : AddsNothing before new) {stats : StreamStatsSnapshot}
    (hstats : ChatStatsOf true (before ++ new) stats) : ChatStatsOf true before stats := by
  obtain ⟨⟨htext, hreasoning, hcalls⟩, hdone, hcount, htokens, husage, hcompleted⟩ := hstats
  refine ⟨⟨?_, ?_, fun index => (hcalls index).trans (h.calls index)⟩, hdone, hcount, ?_, ?_, hcompleted⟩
  · rw [htext, List.map_append]
    refine (join_append_empty_iff _ _).mpr ?_
    intro text htext
    obtain ⟨event, hevent, rfl⟩ := List.mem_map.mp htext
    exact silent_text h.silent event hevent
  · rw [hreasoning, List.map_append]
    refine (join_append_empty_iff _ _).mpr ?_
    intro text htext
    obtain ⟨event, hevent, rfl⟩ := List.mem_map.mp htext
    exact h.reasoning event hevent
  · rw [htokens, h.usage]
  · rw [husage, h.usage]

theorem AddsNothing.toolCalls (h : AddsNothing before new) :
    (after responseId (before ++ new)).toolCalls = (after responseId before).toolCalls := by
  apply Std.ExtTreeMap.ext_getElem?
  intro index
  have hcalls := h.calls index
  rw [after_toolCalls_get, after_toolCalls_get, h.ids, h.names]
  unfold shownDeltas at hcalls
  split_ifs at hcalls ⊢ with hany hany'
  · rw [(Prod.mk.inj (Prod.mk.inj (Option.some.inj hcalls)).2).2]
  · rfl

theorem stats_eq {a b : StreamStatsSnapshot} (h : SameStatistics a b) (hid : a.upstreamResponseId = b.upstreamResponseId)
    (hitems : a.responseOutputItems = b.responseOutputItems) : a = b := by
  obtain ⟨htext, hreasoning, hcalls, hcount, htokens, hseen, hcompleted⟩ := h
  cases a
  cases b
  simp only [StreamStatsSnapshot.tokens, StreamUsage.mk.injEq] at *
  obtain ⟨hinput, houtput, htotal, hread, hwrite⟩ := htokens
  subst htext hreasoning hcalls hcount hinput houtput htotal hread hwrite hseen hcompleted hid hitems
  rfl

theorem AddsNothing.answer (h : AddsNothing before new) (hincoming : Incoming (before ++ new)) :
    answerOf responseId (before ++ new) = answerOf responseId before := by
  have htools := h.toolCalls responseId
  have hbefore : Incoming before := fun event hevent => hincoming event (List.mem_append_left _ hevent)
  have hclosed := h.statsOf (bridge_closed responseId hincoming)
  have hsame := hclosed.same (bridge_closed responseId hbefore)
  have hsilent : ((after responseId before).processInternalEvents new).2 = [] := by
    by_contra hne
    have hemits := (processInternalEvents_emits responseId before new).mp hne
    rw [h.silent] at hemits
    exact nomatch hemits
  have htext : (after responseId (before ++ new)).stats.outputText = (after responseId before).stats.outputText := by
    rw [after_text, after_text, List.map_append]
    refine (join_append_empty_iff _ _).mpr ?_
    intro text hmem
    obtain ⟨event, hevent, rfl⟩ := List.mem_map.mp hmem
    exact silent_text h.silent event hevent
  have hitems : (after responseId (before ++ new)).responseOutputItems =
      (after responseId before).responseOutputItems := by
    rw [responseOutputItems, responseOutputItems, htools, htext]
  refine Prod.ext ?_ (stats_eq hsame rfl ?_)
  · change ((ChatToResponses.new responseId).processInternalEvents (before ++ new)).2 ++ _ = _
    rw [processInternalEvents_append, close_chunks, htools, after_usage, h.usage, hitems, (after_open responseId _).2.1]
    change _ ++ ((after responseId before).processInternalEvents new).2 ++ _ = _
    rw [hsilent, List.append_nil, answerOf, close_chunks, after_usage, (after_open responseId before).2.1]
  · exact (finishResponse_spec _).2.2.1.trans (hitems.trans (finishResponse_spec _).2.2.1.symm)

def ResponsesChunk.isClosing : ResponsesChunk → Bool
  | .event name _ => name = "response.function_call_arguments.done" || name = "response.output_item.done"
  | .completed _ => true

theorem close_closing (st : ChatToResponses) : ∀ chunk ∈ st.close.2, chunk.isClosing = true := by
  intro chunk hchunk
  rw [close_chunks] at hchunk
  rcases List.mem_append.mp hchunk with hdone | hcompleted
  · obtain ⟨p, -, hp⟩ := List.mem_flatMap.mp hdone
    simp only [responsesToolCallDoneSse, List.mem_cons, List.not_mem_nil, or_false] at hp
    rcases hp with rfl | rfl <;> rfl
  · rw [List.mem_singleton.mp hcompleted]
    rfl

theorem processInternalEvents_open (st : ChatToResponses) (events : List InternalStreamEvent) :
    ∀ chunk ∈ (st.processInternalEvents events).2, chunk.isClosing = false := by
  induction events generalizing st with
  | nil => exact nofun
  | cons event events ih =>
    intro chunk hchunk
    have hsent : chunk ∈ (st.processInternalEvent event).2 ∨
        chunk ∈ ((st.processInternalEvent event).1.processInternalEvents events).2 := List.mem_append.mp hchunk
    rcases hsent with hfirst | hrest
    · cases event with
      | textDelta delta =>
        rw [List.mem_singleton.mp hfirst]
        rfl
      | toolCallDelta index id name arguments =>
        rw [(processInternalEvent_toolCallDelta st index id name arguments).1] at hfirst
        rcases List.mem_append.mp hfirst with hadded | harguments
        · split_ifs at hadded
          · exact nomatch hadded
          · rw [List.mem_singleton.mp hadded]
            rfl
        · obtain ⟨delta, -, rfl⟩ := List.mem_map.mp harguments
          rfl
      | reasoningDelta delta => exact nomatch hfirst
      | toolCallDone index id name arguments => exact nomatch hfirst
      | usage usage => exact nomatch hfirst
      | finished reason => exact nomatch hfirst
    · exact ih _ chunk hrest

def ResponsesChunk.doneCall : ResponsesChunk → Option (Option ℕ × Option Value × Option Value)
  | .event name data =>
    if name = "response.output_item.done" then
      some ((data.get "output_index").bind Value.asU64, data.pointer ["item", "id"], data.pointer ["item", "name"])
    else none
  | .completed _ => none

def callNames (toolCall : ChatToolCallState) : String × String := (toolCall.id, toolCall.name)

def doneEntry (p : ℕ × String × String) : Option ℕ × Option Value × Option Value :=
  (some p.1, some (.string p.2.1), some (.string p.2.2))

theorem close_doneCalls (events : List InternalStreamEvent) :
    (after responseId events).close.2.filterMap ResponsesChunk.doneCall =
    ((after responseId events).toolCalls.map (fun _ t => callNames t)).toList.map doneEntry := by
  have hopen : (after responseId events).toolCalls.toList.filter (fun p => !p.2.done) =
      (after responseId events).toolCalls.toList := by
    rw [List.filter_eq_self]
    intro p hp
    have hget := after_toolCalls_get responseId events p.1
    rw [Std.ExtTreeMap.mem_toList_iff_getElem?_eq_some.mp hp] at hget
    split_ifs at hget
    rw [Option.some.inj hget]
    rfl
  rw [close_chunks, hopen, Std.ExtTreeMap.toList_map, List.map_map, List.filterMap_append]
  generalize (after responseId events).toolCalls.toList = calls
  have hcompleted : [responsesCompletedSseWithUsage (after responseId events).usage (after responseId events).responseId
      (after responseId events).responseOutputItems].filterMap ResponsesChunk.doneCall = [] := rfl
  rw [hcompleted, List.append_nil]
  induction calls with
  | nil => rfl
  | cons p calls ih =>
    rw [List.flatMap_cons, List.filterMap_append, ih, List.map_cons, ← List.singleton_append]
    congr 1
    simp [responsesToolCallDoneSse, responsesFunctionCallArgumentsDoneSse, responsesOutputItemDoneSse, responsesSseEvent,
      ResponsesChunk.doneCall, doneEntry, callNames, Value.get_json, Value.pointer, Value.child_json]
    rfl

theorem doneEntry_injective : Function.Injective doneEntry := by
  rintro ⟨index, id, name⟩ ⟨index', id', name'⟩ h
  simp only [doneEntry, Prod.mk.injEq, Option.some.injEq, Value.string.injEq] at h
  obtain ⟨rfl, rfl, rfl⟩ := h
  rfl

theorem addsNothing_of_answer (hincoming : Incoming (before ++ new))
    (h : answerOf responseId (before ++ new) = answerOf responseId before) : AddsNothing before new := by
  obtain ⟨hchunks, hstats⟩ := Prod.mk.inj h
  have hbefore : Incoming before := fun event hevent => hincoming event (List.mem_append_left _ hevent)
  have hlong := bridge_closed responseId hincoming
  have hshort := bridge_closed responseId hbefore
  rw [processInternalEvents_append, List.append_assoc, List.append_cancel_left_eq] at hchunks
  have hsilent : ((after responseId before).processInternalEvents new).2 = [] := by
    rw [List.eq_nil_iff_forall_not_mem]
    intro chunk hchunk
    have hopen := processInternalEvents_open _ new chunk hchunk
    have hclosing := close_closing (after responseId before) chunk (hchunks ▸ List.mem_append_left _ hchunk)
    rw [hopen] at hclosing
    exact nomatch hclosing
  have hclose : (after responseId (before ++ new)).close.2 = (after responseId before).close.2 := by
    have heq : ((after responseId before).processInternalEvents new).2 ++ (after responseId (before ++ new)).close.2 =
        (after responseId before).close.2 := hchunks
    rwa [hsilent, List.nil_append] at heq
  have hentries (index : ℕ) : ((after responseId (before ++ new)).toolCalls[index]?).map callNames =
      ((after responseId before).toolCalls[index]?).map callNames := by
    have hlists := congrArg (List.filterMap ResponsesChunk.doneCall) hclose
    rw [close_doneCalls, close_doneCalls] at hlists
    have hmaps := Std.ExtTreeMap.toList_inj.mp (List.map_injective_iff.mpr doneEntry_injective hlists)
    have hget := congrArg (fun calls : Std.ExtTreeMap ℕ (String × String) => calls[index]?) hmaps
    simpa only [Std.ExtTreeMap.getElem?_map] using hget
  have hnames (index : ℕ) : lastId index (before ++ new) = lastId index before ∧
      lastName index (before ++ new) = lastName index before := by
    have hentry := congrArg (fun entry : Option (String × String) => entry.getD ("", "")) (hentries index)
    obtain ⟨hid, hname⟩ := after_names responseId (before ++ new) index
    obtain ⟨hid', hname'⟩ := after_names responseId before index
    rw [Std.ExtTreeMap.getD_eq_getD_getElem?] at hid hname hid' hname'
    rw [← hid, ← hname, ← hid', ← hname']
    have hgetD (toolCall : Option ChatToolCallState) :
        (toolCall.map callNames).getD ("", "") = ((toolCall.getD {}).id, (toolCall.getD {}).name) := by
      cases toolCall <;> rfl
    rw [hgetD, hgetD] at hentry
    exact Prod.mk.inj hentry
  constructor
  · by_contra hemits
    exact (processInternalEvents_emits responseId before new).mpr (by simpa using hemits) hsilent
  · intro event hevent
    have hreasoning := congrArg StreamStatsSnapshot.reasoningText hstats
    rw [hlong.shown.reasoning, hshort.shown.reasoning, List.map_append] at hreasoning
    exact (join_append_empty_iff _ _).mp hreasoning _ (List.mem_map_of_mem hevent)
  · have husage := congrArg (List.filterMap ResponsesChunk.reportedUsage) hclose
    rw [close_usage, close_usage, after_usage, after_usage, List.singleton_inj] at husage
    cases hlast : lastUsage (before ++ new) with
    | none =>
      cases hlast' : lastUsage before with
      | none => rfl
      | some usage =>
        rw [hlast, hlast'] at husage
        exact nomatch husage
    | some usage =>
      cases hlast' : lastUsage before with
      | none =>
        rw [hlast, hlast'] at husage
        exact nomatch husage
      | some usage' =>
        rw [hlast, hlast'] at husage
        exact congrArg some (completedUsage_injective husage)
  · exact fun index => (hnames index).1
  · exact fun index => (hnames index).2
  · intro index
    have hcalls := congrArg (fun stats : StreamStatsSnapshot => stats.toolCalls[index]?) hstats
    simp only [hlong.calls, hshort.calls] at hcalls
    apply Option.map_injective _ hcalls
    rintro ⟨id, name, arguments⟩ ⟨id', name', arguments'⟩ heq
    simp only [captured, CapturedToolCall.mk.injEq] at heq
    obtain ⟨rfl, rfl, rfl, -⟩ := heq
    rfl

end bridge

end Prelay.Bridge
