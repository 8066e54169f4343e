import Prelay.ChatRecording

namespace Prelay.Bridge

open Json ChatToResponses

def StreamStatsSnapshot.tokens (stats : StreamStatsSnapshot) : StreamUsage :=
  ⟨stats.inputTokens, stats.outputTokens, stats.totalTokens, stats.cacheReadTokens, stats.cacheWriteTokens⟩

namespace StreamUsage

def recorded (usage : StreamUsage) : StreamUsage :=
  ⟨usage.inputTokens.bind u64ToI64, usage.outputTokens.bind u64ToI64, usage.totalTokens.bind u64ToI64,
    usage.cacheReadTokens.bind u64ToI64, usage.cacheWriteTokens.bind u64ToI64⟩

def counted (usage : StreamUsage) : Bool :=
  usage.inputTokens.isSome || usage.outputTokens.isSome || usage.totalTokens.isSome ||
    usage.cacheReadTokens.isSome || usage.cacheWriteTokens.isSome

end StreamUsage

def InternalStreamEvent.usage? : InternalStreamEvent → Option StreamUsage
  | .usage reported => some reported
  | _ => none

def lastUsage (events : List InternalStreamEvent) : Option StreamUsage :=
  (events.filterMap InternalStreamEvent.usage?).getLast?

theorem lastUsage_snoc (events : List InternalStreamEvent) (event : InternalStreamEvent) :
    lastUsage (events ++ [event]) = event.usage?.or (lastUsage events) := by
  unfold lastUsage
  rw [List.filterMap_append]
  cases h : event.usage? <;> simp [h]

def captured (done : Bool) (call : String × String × String) : CapturedToolCall := ⟨call.1, call.2.1, call.2.2, done⟩

def NoneDone (toolCalls : Std.ExtTreeMap ℕ ChatToolCallState) : Prop :=
  ∀ (index : ℕ) (toolCall : ChatToolCallState), toolCalls[index]? = some toolCall → toolCall.done = false

structure CountedEvents (closed : Bool) (events : List InternalStreamEvent) (stats : StreamStatsSnapshot) : Prop where
  done : ∀ (index : ℕ) (call : CapturedToolCall), stats.toolCalls[index]? = some call → call.done = closed
  count : stats.toolCallCount = if closed then stats.toolCalls.size else 0
  tokens : stats.tokens = ((lastUsage events).getD {}).recorded
  usageSeen : stats.finalUsageSeen = ((lastUsage events).getD {}).counted
  completed : closed = true → stats.completed = true

structure ChatStatsOf (closed : Bool) (events : List InternalStreamEvent) (stats : StreamStatsSnapshot) : Prop where
  shown : ShownEvents events stats
  counted : CountedEvents closed events stats

variable {events : List InternalStreamEvent} {stats : StreamStatsSnapshot}
  {toolCalls : Std.ExtTreeMap ℕ ChatToolCallState}

section reading

theorem countedEvents_start : CountedEvents false [] {} where
  done index call hcall := by simp at hcall
  count := rfl
  tokens := rfl
  usageSeen := rfl
  completed h := nomatch h

theorem CountedEvents.other (h : CountedEvents false events stats) {event : InternalStreamEvent}
    (hcalls : (stats.recordEvent event).toolCalls = stats.toolCalls)
    (hcount : (stats.recordEvent event).toolCallCount = stats.toolCallCount)
    (htokens : (stats.recordEvent event).tokens = (event.usage?.map StreamUsage.recorded).getD stats.tokens)
    (hseen : (stats.recordEvent event).finalUsageSeen = (event.usage?.map StreamUsage.counted).getD stats.finalUsageSeen) :
    CountedEvents false (events ++ [event]) (stats.recordEvent event) where
  done := by
    rw [hcalls]
    exact h.done
  count := hcount.trans h.count
  tokens := by
    rw [htokens, h.tokens, lastUsage_snoc]
    cases event.usage? <;> rfl
  usageSeen := by
    rw [hseen, h.usageSeen, lastUsage_snoc]
    cases event.usage? <;> rfl
  completed hclosed := nomatch hclosed

theorem CountedEvents.entry (h : CountedEvents false events stats) (index : ℕ) :
    (stats.entry index).done = false := by
  rw [entry_eq]
  cases hget : stats.toolCalls[index]? with
  | none => rfl
  | some call => exact h.done index call hget

theorem CountedEvents.record (h : CountedEvents false events stats) {event : InternalStreamEvent}
    (hincoming : ∀ index id name arguments, event ≠ .toolCallDone index id name arguments) :
    CountedEvents false (events ++ [event]) (stats.recordEvent event) := by
  cases event with
  | toolCallDelta index id name arguments =>
    refine ⟨?_, h.count, ?_, ?_, nofun⟩
    · intro other call hcall
      change (Std.ExtTreeMap.insert _ _ _)[other]? = _ at hcall
      rw [Std.ExtTreeMap.getElem?_insert] at hcall
      by_cases hindex : index = other
      · subst hindex
        rw [if_pos (Std.LawfulEqCmp.compare_eq_iff_eq.mpr rfl)] at hcall
        rw [← Option.some.inj hcall]
        exact h.entry index
      · rw [if_neg (fun heq => hindex (Std.LawfulEqCmp.compare_eq_iff_eq.mp heq))] at hcall
        exact h.done other call hcall
    · rw [lastUsage_snoc]
      exact h.tokens
    · rw [lastUsage_snoc]
      exact h.usageSeen
  | toolCallDone index id name arguments => exact absurd rfl (hincoming index id name arguments)
  | textDelta delta => exact h.other rfl rfl rfl rfl
  | reasoningDelta delta => exact h.other rfl rfl rfl rfl
  | usage usage => exact h.other rfl rfl rfl rfl
  | finished reason => exact h.other rfl rfl rfl rfl

theorem chatStatsOf_start : ChatStatsOf false [] {} := ⟨shownEvents_start, countedEvents_start⟩

theorem ChatStatsOf.recordEvents (h : ChatStatsOf false events stats) {more : List InternalStreamEvent}
    (hmore : Incoming more) : ChatStatsOf false (events ++ more) (stats.recordEvents more) := by
  induction more generalizing events stats with
  | nil => simpa [StreamStatsSnapshot.recordEvents] using h
  | cons event more ih =>
    have hfirst := hmore event List.mem_cons_self
    have hrecord : ChatStatsOf false (events ++ [event]) (stats.recordEvent event) :=
      ⟨h.shown.record hfirst, h.counted.record hfirst⟩
    have hnext := ih hrecord (fun e he => hmore e (List.mem_cons_of_mem _ he))
    rwa [List.append_assoc, List.singleton_append] at hnext

theorem ChatStatsOf.calls {closed : Bool} (h : ChatStatsOf closed events stats) (index : ℕ) :
    stats.toolCalls[index]? = (shownDeltas events index).map (captured closed) := by
  have hshown := h.shown.calls index
  have hdone := h.counted.done index
  rw [← hshown, Bridge.shown]
  generalize stats.toolCalls[index]? = call at hdone
  cases call with
  | none => rfl
  | some call =>
    obtain ⟨id, name, arguments, done⟩ := call
    obtain rfl : done = closed := hdone _ rfl
    rfl

theorem chatStatsOf_of_calls {closed : Bool} (htext : stats.outputText = String.join (events.map InternalStreamEvent.text))
    (hreasoning : stats.reasoningText = String.join (events.map InternalStreamEvent.reasoningText))
    (hcalls : ∀ index, stats.toolCalls[index]? = (shownDeltas events index).map (captured closed))
    (hcount : stats.toolCallCount = if closed then stats.toolCalls.size else 0)
    (htokens : stats.tokens = ((lastUsage events).getD {}).recorded)
    (husage : stats.finalUsageSeen = ((lastUsage events).getD {}).counted)
    (hcompleted : closed = true → stats.completed = true) : ChatStatsOf closed events stats := by
  refine ⟨⟨htext, hreasoning, ?_⟩, ?_, hcount, htokens, husage, hcompleted⟩
  · intro index
    rw [shown, hcalls, Option.map_map]
    exact congrFun Option.map_id _
  · intro index call hcall
    rw [hcalls] at hcall
    obtain ⟨given, -, rfl⟩ := Option.map_eq_some_iff.mp hcall
    rfl

theorem noneDone_start : NoneDone ∅ := by
  intro index toolCall hget
  simp at hget

theorem NoneDone.insert (h : NoneDone toolCalls) {index : ℕ} {toolCall : ChatToolCallState}
    (hdone : toolCall.done = (toolCalls.getD index {}).done) : NoneDone (toolCalls.insert index toolCall) := by
  intro other found hget
  rw [Std.ExtTreeMap.getElem?_insert] at hget
  by_cases hindex : index = other
  · rw [if_pos (Std.LawfulEqCmp.compare_eq_iff_eq.mpr hindex)] at hget
    rw [← Option.some.inj hget, hdone, Std.ExtTreeMap.getD_eq_getD_getElem?]
    cases hold : toolCalls[index]? with
    | none => rfl
    | some old => exact h index old hold
  · rw [if_neg (fun heq => hindex (Std.LawfulEqCmp.compare_eq_iff_eq.mp heq))] at hget
    exact h other found hget

end reading

section closing

theorem recordToolCallDone_eq {index : ℕ} {call : String × String × String} {toolCall : ChatToolCallState}
    (hget : stats.toolCalls[index]? = some (captured false call)) (hcall : BringsNothing toolCall call) :
    stats.recordToolCallDone index toolCall.id toolCall.name toolCall.arguments =
      { stats with
        toolCallCount := stats.toolCallCount + 1
        toolCalls := stats.toolCalls.insert index (captured true call) } := by
  obtain ⟨hid, hname, harguments⟩ := hcall
  have hentry : stats.entry index = captured false call := by rw [entry_eq, hget, Option.getD_some]
  have hempty {given other : String} (h : given = "" ∨ given = other) : (if given = "" then other else given) = other := by
    split_ifs with hgiven
    · rfl
    · exact h.resolve_left hgiven
  have hreplaced : (if toolCall.arguments ≠ "" ∨ (captured false call).arguments = "" then toolCall.arguments
      else (captured false call).arguments) = call.2.2 := by
    split_ifs
    · exact harguments
    · rfl
  simp only [StreamStatsSnapshot.recordToolCallDone, hentry, hreplaced]
  simp only [captured, hempty hid, hempty hname, Bool.false_eq_true, ↓reduceIte]

theorem recordDones {entries : List (ℕ × ChatToolCallState)} (hnodup : (entries.map Prod.fst).Nodup)
    (h : ∀ entry ∈ entries, ∃ call, stats.toolCalls[entry.1]? = some (captured false call) ∧ BringsNothing entry.2 call) :
    ∃ closed : Std.ExtTreeMap ℕ CapturedToolCall,
      stats.recordEvents (entries.map (fun p => toolCallDoneEvent p.1 p.2)) =
        { stats with toolCallCount := stats.toolCallCount + entries.length, toolCalls := closed } ∧
      ∀ index, closed[index]? =
        if index ∈ entries.map Prod.fst then stats.toolCalls[index]?.map (fun c => { c with done := true })
        else stats.toolCalls[index]? := by
  induction entries generalizing stats with
  | nil => exact ⟨stats.toolCalls, rfl, fun index => by simp⟩
  | cons entry entries ih =>
    rw [List.map_cons, List.nodup_cons] at hnodup
    rw [List.forall_mem_cons] at h
    obtain ⟨⟨call, hget, hcall⟩, hentries⟩ := h
    have hstep := recordToolCallDone_eq hget hcall
    have hinsert (index : ℕ) : (stats.toolCalls.insert entry.1 (captured true call))[index]? =
        if entry.1 = index then some (captured true call) else stats.toolCalls[index]? := by
      rw [Std.ExtTreeMap.getElem?_insert]
      simp only [Std.LawfulEqCmp.compare_eq_iff_eq]
    obtain ⟨closed, heq, hclosed⟩ := @ih
      { stats with toolCallCount := stats.toolCallCount + 1,
                   toolCalls := stats.toolCalls.insert entry.1 (captured true call) } hnodup.2 (by
        intro other hother
        obtain ⟨otherCall, hotherGet, hbrings⟩ := hentries other hother
        have hne : entry.1 ≠ other.1 := fun heq => hnodup.1 (heq ▸ List.mem_map_of_mem hother)
        exact ⟨otherCall, by rw [hinsert, if_neg hne, hotherGet], hbrings⟩)
    refine ⟨closed, ?_, ?_⟩
    · rw [List.map_cons, StreamStatsSnapshot.recordEvents, List.foldl_cons, ← StreamStatsSnapshot.recordEvents]
      change (stats.recordToolCallDone entry.1 entry.2.id entry.2.name entry.2.arguments).recordEvents _ = _
      rw [hstep, heq, List.length_cons, Nat.add_assoc, Nat.add_comm 1]
    · intro index
      rw [hclosed, hinsert]
      by_cases hindex : entry.1 = index
      · subst hindex
        rw [if_neg hnodup.1, if_pos rfl, List.map_cons, if_pos List.mem_cons_self, hget]
        rfl
      · have hmem : index ∈ entry.1 :: entries.map Prod.fst ↔ index ∈ entries.map Prod.fst := by
          rw [List.mem_cons]
          exact or_iff_right (fun heq => hindex heq.symm)
        simp only [if_neg hindex, List.map_cons, hmem]

theorem ChatStatsOf.recordUsage {closed : Bool} (h : ChatStatsOf closed events stats) :
    ChatStatsOf closed events (stats.recordUsage ((lastUsage events).getD {})) :=
  ⟨⟨h.shown.text, h.shown.reasoning, h.shown.calls⟩, h.counted.done, h.counted.count, rfl, rfl, h.counted.completed⟩

theorem ChatStatsOf.close (h : ChatStatsOf false events stats) (hcalls : CallsOf events toolCalls)
    (hopen : NoneDone toolCalls) :
    ChatStatsOf true events { stats.recordEvents ((toolCalls.toList.filter (fun p => !p.2.done)).map
      (fun p => toolCallDoneEvent p.1 p.2)) with completed := true } := by
  have hall : toolCalls.toList.filter (fun p => !p.2.done) = toolCalls.toList := by
    rw [List.filter_eq_self]
    intro entry hentry
    rw [hopen entry.1 entry.2 (Std.ExtTreeMap.mem_toList_iff_getElem?_eq_some.mp hentry)]
    rfl
  have hkeys : (toolCalls.toList.map Prod.fst).Nodup := by
    have hsorted : (toolCalls.toList.map Prod.fst).Pairwise (· < ·) :=
      List.pairwise_map.mpr (toolCalls.ordered_keys_toList.imp (fun hlt => Nat.compare_eq_lt.mp hlt))
    exact hsorted.imp (fun hlt => Nat.ne_of_lt hlt)
  obtain ⟨closed, heq, hclosed⟩ := @recordDones stats _ hkeys (by
    intro entry hentry
    have hget := Std.ExtTreeMap.mem_toList_iff_getElem?_eq_some.mp hentry
    obtain ⟨call, hshown, hbrings⟩ := hcalls.brings hget
    exact ⟨call, by rw [h.calls, hshown, Option.map_some], hbrings⟩)
  have hmem (index : ℕ) : index ∈ toolCalls.toList.map Prod.fst ↔ (shownDeltas events index).isSome := by
    have hcall := hcalls index
    constructor
    · rintro hindex
      obtain ⟨entry, hentry, rfl⟩ := List.mem_map.mp hindex
      obtain ⟨call, hshown, -⟩ := hcalls.brings (Std.ExtTreeMap.mem_toList_iff_getElem?_eq_some.mp hentry)
      rw [hshown]
      rfl
    · intro hsome
      unfold shownDeltas at hsome
      split_ifs at hcall hsome with hany
      · obtain ⟨toolCall, hget, -⟩ := Option.map_eq_some_iff.mp hcall
        exact List.mem_map_of_mem (Std.ExtTreeMap.mem_toList_iff_getElem?_eq_some.mpr hget)
      · exact nomatch hsome
  have hdone (index : ℕ) : closed[index]? = (shownDeltas events index).map (captured true) := by
    rw [hclosed, h.calls]
    split_ifs with hindex
    · rw [Option.map_map]
      rfl
    · rw [hmem, Option.not_isSome_iff_eq_none] at hindex
      rw [hindex]
      rfl
  rw [hall, heq]
  refine chatStatsOf_of_calls h.shown.text h.shown.reasoning hdone ?_ h.counted.tokens h.counted.usageSeen (fun _ => rfl)
  have hsame : closed.map (fun _ _ => ()) = toolCalls.map (fun _ _ => ()) := by
    apply Std.ExtTreeMap.ext_getElem?
    intro index
    have hcall := congrArg (Option.map (fun _ => ())) (hcalls index)
    rw [Std.ExtTreeMap.getElem?_map, Std.ExtTreeMap.getElem?_map, hdone]
    rw [Option.map_map] at hcall ⊢
    refine Eq.trans ?_ hcall.symm
    unfold shownDeltas
    split_ifs <;> rfl
  have hsize := congrArg Std.ExtTreeMap.size hsame
  rw [Std.ExtTreeMap.size_map, Std.ExtTreeMap.size_map] at hsize
  have hcount : stats.toolCallCount = 0 := h.counted.count
  simp only [hcount, Nat.zero_add, Std.ExtTreeMap.length_toList, hsize, ↓reduceIte]

end closing

section bridge

variable (responseId : String)

theorem after_usage (events : List InternalStreamEvent) : (after responseId events).usage = lastUsage events := by
  induction events using List.reverseRecOn with
  | nil => rfl
  | append_singleton events event ih =>
    rw [after_snoc, lastUsage_snoc, ← ih]
    cases event <;> rfl

theorem after_noneDone (events : List InternalStreamEvent) : NoneDone (after responseId events).toolCalls := by
  induction events using List.reverseRecOn with
  | nil => exact noneDone_start
  | append_singleton events event ih =>
    rw [after_snoc]
    cases event with
    | toolCallDelta index id name arguments =>
      rw [(processInternalEvent_toolCallDelta _ index id name arguments).2]
      exact ih.insert rfl
    | textDelta delta => exact ih
    | reasoningDelta delta => exact ih
    | toolCallDone index id name arguments => exact ih
    | usage usage => exact ih
    | finished reason => exact ih

theorem after_stats (events : List InternalStreamEvent) :
    (after responseId events).stats = ({} : StreamStatsSnapshot).recordEvents events := by
  induction events using List.reverseRecOn with
  | nil => rfl
  | append_singleton events event ih =>
    rw [after_snoc, processInternalEvent_stats, ih, StreamStatsSnapshot.recordEvents, StreamStatsSnapshot.recordEvents,
      List.foldl_append]
    rfl

theorem close_chunks (st : ChatToResponses) : st.close.2 =
    (st.toolCalls.toList.filter (fun p => !p.2.done)).flatMap
        (fun p => responsesToolCallDoneSse p.1 { p.2 with done := true }) ++
      [responsesCompletedSseWithUsage st.usage st.responseId st.responseOutputItems] :=
  congrArg (fun items => _ ++ [responsesCompletedSseWithUsage st.usage st.responseId items])
    (responseOutputItems_finish { st with completed := true })

theorem bridge_closed {events : List InternalStreamEvent} (h : Incoming events) :
    ChatStatsOf true events (after responseId events).close.1.stats := by
  have hopen : ChatStatsOf false events (after responseId events).stats := by
    rw [after_stats]
    exact chatStatsOf_start.recordEvents h
  have hclosed := (hopen.close (after_call responseId events) (after_noneDone responseId events)).recordUsage
  rw [← after_usage responseId] at hclosed
  have hevents (dones : List InternalStreamEvent) (usage : StreamUsage) (reason : InternalFinishReason)
      (stats : StreamStatsSnapshot) : stats.recordEvents (dones ++ [.usage usage, .finished reason]) =
        { stats.recordEvents dones with completed := true }.recordUsage usage := by
    rw [StreamStatsSnapshot.recordEvents, List.foldl_append]
    rfl
  simp only [ChatToResponses.close, finishResponse, recordResponseId, hevents]
  exact ⟨⟨hclosed.shown.text, hclosed.shown.reasoning, hclosed.shown.calls⟩, hclosed.counted.done, hclosed.counted.count,
    hclosed.counted.tokens, hclosed.counted.usageSeen, hclosed.counted.completed⟩

end bridge

section chat

variable (serde : SerdeJson)

structure ReadsChat (events : List InternalStreamEvent) (st : ChatStats) : Prop where
  recorded : RecordedEvents events st
  counted : CountedEvents false events st.stats
  opened : NoneDone st.toolCalls
  completed : st.completed = false

variable {st : ChatStats}

theorem ReadsChat.event (h : ReadsChat events st) {event : InternalStreamEvent}
    (hincoming : ∀ index id name arguments, event ≠ .toolCallDone index id name arguments) :
    ReadsChat (events ++ [event]) ((st.takeToolCallDelta event).record event) := by
  have hrecord : ((st.takeToolCallDelta event).record event).stats = st.stats.recordEvent event := by
    cases event <;> rfl
  have hcompleted : ((st.takeToolCallDelta event).record event).completed = st.completed := by
    cases event <;> rfl
  refine ⟨h.recorded.event hincoming, hrecord ▸ h.counted.record hincoming, ?_, hcompleted.trans h.completed⟩
  cases event with
  | toolCallDelta index id name arguments => exact h.opened.insert rfl
  | toolCallDone index id name arguments => exact absurd rfl (hincoming index id name arguments)
  | textDelta delta => exact h.opened
  | reasoningDelta delta => exact h.opened
  | usage usage => exact h.opened
  | finished reason => exact h.opened

theorem ReadsChat.incoming (h : ReadsChat events st) {more : List InternalStreamEvent} (hmore : Incoming more) :
    ReadsChat (events ++ more) (more.foldl (fun st event => (st.takeToolCallDelta event).record event) st) := by
  induction more generalizing events st with
  | nil => simpa using h
  | cons event more ih =>
    have hnext := ih (h.event (hmore event List.mem_cons_self)) (fun e he => hmore e (List.mem_cons_of_mem _ he))
    rwa [List.append_assoc, List.singleton_append] at hnext

theorem ReadsChat.payloads (h : ReadsChat events st) {datas : List String} (hopen : ∀ data ∈ datas, isDone data = false) :
    ReadsChat (events ++ datas.flatMap (internalEventsOf serde)) (datas.foldl (ChatStats.processEvent serde) st) := by
  induction datas generalizing events st with
  | nil => simpa using h
  | cons data datas ih =>
    rw [List.forall_mem_cons] at hopen
    rw [List.flatMap_cons, ← List.append_assoc, List.foldl_cons]
    apply ih _ hopen.2
    rw [ChatStats.processEvent, hopen.1]
    exact h.incoming (internalEventsOf_incoming serde data)

theorem ReadsChat.complete (h : ReadsChat events st) :
    ChatStatsOf true events st.complete.stats ∧ st.complete.completed = true := by
  have hread : ChatStatsOf false events st.stats := ⟨h.recorded.shown, h.counted⟩
  have hclosed := hread.close h.recorded.calls h.opened
  have hevents (dones : List InternalStreamEvent) (stats : StreamStatsSnapshot) :
      stats.recordEvents (dones ++ [.finished .stop]) = { stats.recordEvents dones with completed := true } := by
    rw [StreamStatsSnapshot.recordEvents, List.foldl_append]
    rfl
  unfold ChatStats.complete
  rw [h.completed]
  simp only [Bool.false_eq_true, ↓reduceIte, hevents]
  exact ⟨hclosed, trivial⟩

theorem readsChat_start : ReadsChat [] {} where
  recorded := recordedEvents_start
  counted := countedEvents_start
  opened := noneDone_start
  completed := rfl

theorem chat_closed {datas : List String} (h : (datas.dropWhile (fun data => !isDone data)).tail = []) :
    ChatStatsOf true (eventsBeforeDone serde datas) (datas.foldl (ChatStats.processEvent serde) {}).complete.stats := by
  have hopen : ∀ data ∈ datas.takeWhile (fun data => !isDone data), isDone data = false := by
    intro data hdata
    simpa using List.mem_takeWhile_imp hdata
  have hread := readsChat_start.payloads serde hopen
  rw [List.nil_append] at hread
  have hclosed := hread.complete
  rw [eventsBeforeDone]
  nth_rewrite 2 [← List.takeWhile_append_dropWhile (p := fun data => !isDone data) (l := datas)]
  rw [List.foldl_append]
  generalize (datas.takeWhile (fun data => !isDone data)).foldl (ChatStats.processEvent serde) {} = before at hclosed
  cases hrest : datas.dropWhile (fun data => !isDone data) with
  | nil => exact hclosed.1
  | cons marker rest =>
    have hdone : isDone marker = true := by
      have hfirst := List.head_dropWhile_not (fun data => !isDone data) (l := datas) (by rw [hrest]; simp)
      simpa [hrest] using hfirst
    rw [hrest, List.tail_cons] at h
    rw [h, List.foldl_cons, List.foldl_nil, ChatStats.processEvent, if_pos hdone, ChatStats.complete, if_pos hclosed.2]
    exact hclosed.1

/-- What two decoders of one stream have in common. -/
structure SameStatistics (a b : StreamStatsSnapshot) : Prop where
  outputText : a.outputText = b.outputText
  reasoningText : a.reasoningText = b.reasoningText
  toolCalls : a.toolCalls = b.toolCalls
  toolCallCount : a.toolCallCount = b.toolCallCount
  tokens : a.tokens = b.tokens
  finalUsageSeen : a.finalUsageSeen = b.finalUsageSeen
  completed : a.completed = b.completed

theorem ChatStatsOf.same {stats' : StreamStatsSnapshot} (h : ChatStatsOf true events stats)
    (h' : ChatStatsOf true events stats') : SameStatistics stats stats' := by
  have hcalls : stats.toolCalls = stats'.toolCalls := by
    apply Std.ExtTreeMap.ext_getElem?
    intro index
    rw [h.calls, h'.calls]
  refine ⟨h.shown.text.trans h'.shown.text.symm, h.shown.reasoning.trans h'.shown.reasoning.symm, hcalls, ?_,
    h.counted.tokens.trans h'.counted.tokens.symm, h.counted.usageSeen.trans h'.counted.usageSeen.symm, ?_⟩
  · rw [h.counted.count, h'.counted.count, hcalls]
  · rw [h.counted.completed rfl, h'.counted.completed rfl]

theorem readEvents_of_ended {chunks : List Bytes} (h : Sse.trailingEvents Sse.stripSpace chunks = []) :
    readEvents serde chunks.flatten = eventsBeforeDone serde (Sse.events Sse.stripSpace chunks) := by
  have hflat := Sse.Scanner.pushAll_flatten Sse.stripSpace {} chunks List.not_mem_nil
  rw [readEvents, readPayloads, Sse.events, h, List.append_nil, Sse.chunkEvents]
  rw [Sse.trailingEvents] at h
  rw [← hflat]
  dsimp only
  rw [h, ite_self, List.append_nil]

theorem chat_decoders_agree {β : Type} (bytes : ResponsesChunk → List β) (responseId : String) (chunks : List Bytes)
    (hended : Sse.trailingEvents Sse.stripSpace chunks = [])
    (hlast : ((Sse.events Sse.stripSpace chunks).dropWhile (fun data => !isDone data)).tail = []) :
    SameStatistics ((chatStatsDecoder serde).decode id { inner := {} } chunks).2
      ((chatToResponsesDecoder serde).decode bytes (.new responseId) chunks).2 := by
  rw [decode_chatStats, decode_bridge, readEvents_of_ended serde hended]
  apply (chat_closed serde hlast).same
  rw [← readEvents_of_ended serde hended]
  exact bridge_closed responseId (readEvents_incoming serde chunks.flatten)

def countedStream : List Bytes :=
  [Str.utf8 "data: \x7b\"choices\":[\x7b\"delta\":\x7b\"content\":\"hi\",\"tool_calls\":[\x7b\"index\":1,\"id\":\"a\"",
    Str.utf8 "\x7d]\x7d\x7d]\x7d\n\ndata: \x7b\"usage\":\x7b\"prompt_tokens\":3\x7d\x7d\n\ndata: [DONE]\n\n"]

theorem chat_decoders_agree_counted :
    SameStatistics ((chatStatsDecoder Text.codec).decode id { inner := {} } countedStream).2
      ((chatToResponsesDecoder Text.codec).decode (fun chunk => [chunk]) (.new "resp_1") countedStream).2 :=
  chat_decoders_agree Text.codec (fun chunk => [chunk]) "resp_1" countedStream (by decide +kernel) (by decide +kernel)

end chat

end Prelay.Bridge
