import Prelay.BridgeDecode
import Prelay.NativeEvents
import Prelay.JsonRoundTrip
import Prelay.StreamPersistence

namespace Prelay.Bridge

open Json ChatToResponses

structure Follows (toolCall : ChatToolCallState) (captured : CapturedToolCall) : Prop where
  running : toolCall.done = false ∧ captured.done = false
  arguments : captured.arguments = toolCall.arguments
  id : toolCall.id = "" → captured.id = ""
  name : toolCall.name = "" → captured.name = ""

structure Tracks (toolCalls : Std.ExtTreeMap ℕ ChatToolCallState) (text : String) (stats : StreamStatsSnapshot) :
    Prop where
  outputText : stats.outputText = text
  toolCallCount : stats.toolCallCount = 0
  toolCalls : ∀ index : ℕ, Option.Rel (fun toolCall captured => toolCall.added = true ∧ Follows toolCall captured)
    toolCalls[index]? stats.toolCalls[index]?

/-- The deltas of a tool call do not take an id or a name back. -/
def KeepsIds (events : List InternalStreamEvent) : Prop :=
  ∀ index, (events.filterMap (InternalStreamEvent.deltaId index)).Pairwise (fun a b => a ≠ "" → b ≠ "") ∧
    (events.filterMap (InternalStreamEvent.deltaName index)).Pairwise (fun a b => a ≠ "" → b ≠ "")

def echo (st : ChatToResponses) : InternalStreamEvent → List InternalStreamEvent
  | .textDelta delta => [.textDelta delta]
  | .toolCallDelta index id name arguments =>
    let toolCall := st.toolCalls.getD index {}
    (if toolCall.added then [] else
      [.toolCallDelta index (some (id.getD toolCall.id)) (some (name.getD toolCall.name)) none]) ++
      arguments.toList.map (fun delta => .toolCallDelta index (some (id.getD toolCall.id)) none (some delta))
  | _ => []

def ReadsAll (serde : SerdeJson) (chunks : List ResponsesChunk) (events : List InternalStreamEvent) : Prop :=
  (∀ chunk ∈ chunks, chunk.IsPlain) ∧
    ∀ stats, chunks.foldl (nativeRecord serde) stats = stats.recordEvents events

section echo

variable {serde : SerdeJson}

theorem ReadsAll.nil : ReadsAll serde [] [] := ⟨nofun, fun _ => rfl⟩

theorem ReadsAs.all {chunk : ResponsesChunk} {events : List InternalStreamEvent} (h : ReadsAs serde chunk events) :
    ReadsAll serde [chunk] events := by
  refine ⟨?_, h.2⟩
  intro c hc
  rw [List.mem_singleton.mp hc]
  exact h.1

theorem ReadsAll.append {chunks chunks' : List ResponsesChunk} {events events' : List InternalStreamEvent}
    (h : ReadsAll serde chunks events) (h' : ReadsAll serde chunks' events') :
    ReadsAll serde (chunks ++ chunks') (events ++ events') := by
  constructor
  · intro chunk hchunk
    rcases List.mem_append.mp hchunk with hchunk | hchunk
    · exact h.1 chunk hchunk
    · exact h'.1 chunk hchunk
  · intro stats
    rw [List.foldl_append, h.2, h'.2]
    simp [StreamStatsSnapshot.recordEvents]

variable (hserde : serde.Lawful)

include hserde

theorem processInternalEvent_echo (st : ChatToResponses) (event : InternalStreamEvent) :
    ReadsAll serde (st.processInternalEvent event).2 (echo st event) := by
  cases event with
  | textDelta delta => exact (textDelta_reads hserde delta).all
  | toolCallDelta index id name arguments =>
    rw [(processInternalEvent_toolCallDelta st index id name arguments).1]
    apply ReadsAll.append
    · by_cases hadded : (st.toolCalls.getD index {}).added = true
      · rw [if_pos hadded, if_pos hadded]
        exact ReadsAll.nil
      · rw [if_neg hadded, if_neg hadded]
        exact (functionCallAdded_reads hserde index _).all
    · cases arguments with
      | none => exact ReadsAll.nil
      | some delta => exact (functionCallArgumentsDelta_reads hserde index _ delta).all
  | reasoningDelta delta => exact ReadsAll.nil
  | toolCallDone index id name arguments => exact ReadsAll.nil
  | usage usage => exact ReadsAll.nil
  | finished reason => exact ReadsAll.nil

end echo

section track

variable {m : Std.ExtTreeMap ℕ ChatToolCallState} {text : String} {stats : StreamStatsSnapshot}

theorem entry_eq (stats : StreamStatsSnapshot) (index : ℕ) : stats.entry index = stats.toolCalls[index]?.getD {} :=
  Std.ExtTreeMap.getD_eq_getD_getElem?

theorem Tracks.entry (h : Tracks m text stats) (index : ℕ) : Follows (m.getD index {}) (stats.entry index) := by
  rw [entry_eq, Std.ExtTreeMap.getD_eq_getD_getElem?]
  have hrel := h.toolCalls index
  generalize m[index]? = toolCall at hrel
  generalize stats.toolCalls[index]? = captured at hrel
  cases hrel with
  | none => exact ⟨⟨rfl, rfl⟩, rfl, fun _ => rfl, fun _ => rfl⟩
  | some hcall => exact hcall.2

theorem Follows.rename {toolCall : ChatToolCallState} {captured : CapturedToolCall} (h : Follows toolCall captured)
    {id name : Option String} (hid : id = some "" → toolCall.id = "") (hname : name = some "" → toolCall.name = "") :
    Follows { toolCall with id := id.getD toolCall.id, name := name.getD toolCall.name, added := true } captured where
  running := h.running
  arguments := h.arguments
  id := by
    intro hempty
    apply h.id
    cases id with
    | none => exact hempty
    | some id => exact hid (congrArg some hempty)
  name := by
    intro hempty
    apply h.name
    cases name with
    | none => exact hempty
    | some name => exact hname (congrArg some hempty)

theorem Tracks.insert {stats' : StreamStatsSnapshot} (h : Tracks m text stats) {index : ℕ}
    {toolCall : ChatToolCallState} {captured : CapturedToolCall} (hadded : toolCall.added = true)
    (hcall : Follows toolCall captured) (htext : stats'.outputText = stats.outputText)
    (hcount : stats'.toolCallCount = stats.toolCallCount)
    (hcalls : ∀ i : ℕ, stats'.toolCalls[i]? = if index = i then some captured else stats.toolCalls[i]?) :
    Tracks (m.insert index toolCall) text stats' where
  outputText := htext.trans h.outputText
  toolCallCount := hcount.trans h.toolCallCount
  toolCalls := by
    intro i
    rw [hcalls, Std.ExtTreeMap.getElem?_insert]
    by_cases hi : index = i
    · rw [if_pos (Std.LawfulEqCmp.compare_eq_iff_eq.mpr hi), if_pos hi]
      exact .some ⟨hadded, hcall⟩
    · rw [if_neg (fun heq => hi (Std.LawfulEqCmp.compare_eq_iff_eq.mp heq)), if_neg hi]
      exact h.toolCalls i

theorem Tracks.delta (h : Tracks m text stats) {index : ℕ} {toolCall : ChatToolCallState}
    (hadded : toolCall.added = true) (hcall : Follows toolCall (stats.entry index)) {id name : Option String}
    (arguments : Option String) (hid : toolCall.id = "" → id.getD "" = "")
    (hname : toolCall.name = "" → name.getD "" = "") :
    Tracks (m.insert index { toolCall with arguments := toolCall.arguments ++ arguments.getD "" }) text
      (stats.recordEvent (.toolCallDelta index id name arguments)) := by
  have hrecorded : Follows { toolCall with arguments := toolCall.arguments ++ arguments.getD "" } { stats.entry index with
      id := if id.getD "" = "" then (stats.entry index).id else id.getD ""
      name := if name.getD "" = "" then (stats.entry index).name else name.getD ""
      arguments := (stats.entry index).arguments ++ arguments.getD "" } := by
    refine ⟨hcall.running, ?_, ?_, ?_⟩
    · rw [hcall.arguments]
    · intro hempty
      rw [if_pos (hid hempty)]
      exact hcall.id hempty
    · intro hempty
      rw [if_pos (hname hempty)]
      exact hcall.name hempty
  refine h.insert ?_ hrecorded ?_ ?_ ?_
  · exact hadded
  · rfl
  · rfl
  · intro i
    simp only [StreamStatsSnapshot.recordEvent, StreamStatsSnapshot.recordToolCallDelta,
      Std.ExtTreeMap.getElem?_insert, Std.LawfulEqCmp.compare_eq_iff_eq]

theorem Tracks.text_append (h : Tracks m text stats) (delta : String) :
    Tracks m (text ++ delta) (stats.recordEvent (.textDelta delta)) :=
  ⟨congrArg (· ++ delta) h.outputText, h.toolCallCount, h.toolCalls⟩

theorem Tracks.congr {m' : Std.ExtTreeMap ℕ ChatToolCallState} (h : Tracks m text stats)
    (heq : ∀ i : ℕ, m[i]? = m'[i]?) : Tracks m' text stats :=
  ⟨h.outputText, h.toolCallCount, fun i => heq i ▸ h.toolCalls i⟩

def Keeps (st : ChatToResponses) : InternalStreamEvent → Prop
  | .toolCallDelta index id name _ =>
    (id = some "" → (st.toolCalls.getD index {}).id = "") ∧ (name = some "" → (st.toolCalls.getD index {}).name = "")
  | _ => True

theorem Tracks.record {st : ChatToResponses} (h : Tracks st.toolCalls text stats) {event : InternalStreamEvent}
    (hkeeps : Keeps st event) (hdone : ∀ index id name arguments, event ≠ .toolCallDone index id name arguments) :
    Tracks (st.processInternalEvent event).1.toolCalls (text ++ event.text) (stats.recordEvent event) := by
  cases event with
  | textDelta delta => exact h.text_append delta
  | toolCallDelta index id name arguments =>
    rw [(processInternalEvent_toolCallDelta st index id name arguments).2,
      show InternalStreamEvent.text (.toolCallDelta index id name arguments) = "" from rfl, String.append_empty]
    refine h.delta rfl ((h.entry index).rename hkeeps.1 hkeeps.2) arguments ?_ ?_
    · cases id <;> simp
    · cases name <;> simp
  | toolCallDone index id name arguments => exact absurd rfl (hdone index id name arguments)
  | reasoningDelta delta =>
    exact ⟨h.outputText.trans (String.append_empty).symm, h.toolCallCount, h.toolCalls⟩
  | usage usage => exact ⟨h.outputText.trans (String.append_empty).symm, h.toolCallCount, h.toolCalls⟩
  | finished reason => exact ⟨h.outputText.trans (String.append_empty).symm, h.toolCallCount, h.toolCalls⟩

theorem Tracks.echo_added {st : ChatToResponses} (h : Tracks st.toolCalls text stats) {index : ℕ}
    {id name : Option String}
    (hfollows : Follows { deltaState st index id name with added := true } (stats.entry index))
    (arguments : Option String) :
    ∃ stats', Tracks (st.toolCalls.insert index { deltaState st index id name with added := true }) text stats' ∧
      stats.recordEvents (Bridge.echo st (.toolCallDelta index id name arguments)) =
        stats'.recordEvents (arguments.toList.map (fun delta =>
          .toolCallDelta index (some (deltaState st index id name).id) none (some delta))) := by
  by_cases hadded : (st.toolCalls.getD index {}).added = true
  · refine ⟨stats, ?_, by simp only [Bridge.echo, hadded, ↓reduceIte, List.nil_append]; rfl⟩
    refine h.insert rfl hfollows rfl rfl ?_
    intro i
    have hrel := h.toolCalls index
    rw [entry_eq]
    rw [Std.ExtTreeMap.getD_eq_getD_getElem?] at hadded
    generalize st.toolCalls[index]? = toolCall at hrel hadded
    split_ifs with hi
    · subst hi
      generalize stats.toolCalls[index]? = captured at hrel
      cases hrel with
      | none => exact nomatch hadded
      | some _ => rfl
    · rfl
  · refine ⟨stats.recordEvent (.toolCallDelta index (some (deltaState st index id name).id)
      (some (deltaState st index id name).name) none), ?_, ?_⟩
    · have hopened : Tracks _ text (stats.recordEvent (.toolCallDelta index (some (deltaState st index id name).id)
          (some (deltaState st index id name).name) none)) :=
        h.delta rfl hfollows none (fun hempty => hempty) (fun hempty => hempty)
      simpa only [Option.getD_none, String.append_empty] using hopened
    · simp only [Bridge.echo, hadded, Bool.false_eq_true, ↓reduceIte, List.singleton_append]
      rfl

theorem Tracks.echo {st : ChatToResponses} (h : Tracks st.toolCalls text stats) {event : InternalStreamEvent}
    (hkeeps : Keeps st event) :
    Tracks (st.processInternalEvent event).1.toolCalls (text ++ event.text) (stats.recordEvents (echo st event)) := by
  cases event with
  | textDelta delta => exact h.text_append delta
  | toolCallDelta index id name arguments =>
    rw [(processInternalEvent_toolCallDelta st index id name arguments).2,
      show InternalStreamEvent.text (.toolCallDelta index id name arguments) = "" from rfl, String.append_empty]
    have hfollows := (h.entry index).rename hkeeps.1 hkeeps.2
    obtain ⟨stats', hopened, hecho⟩ := h.echo_added hfollows arguments
    rw [hecho]
    cases arguments with
    | none => simpa [StreamStatsSnapshot.recordEvents, deltaState] using hopened
    | some delta =>
      have hentry := hopened.entry index
      rw [Std.ExtTreeMap.getD_insert_self] at hentry
      have hdelta : Tracks _ text (stats'.recordEvent
          (.toolCallDelta index (some (deltaState st index id name).id) none (some delta))) :=
        hopened.delta rfl hentry (some delta) (fun hempty => hempty) (fun _ => rfl)
      apply hdelta.congr
      intro i
      simp only [Std.ExtTreeMap.getElem?_insert]
      split_ifs <;> rfl
  | reasoningDelta delta =>
    exact ⟨h.outputText.trans (String.append_empty).symm, h.toolCallCount, h.toolCalls⟩
  | toolCallDone index id name arguments =>
    exact ⟨h.outputText.trans (String.append_empty).symm, h.toolCallCount, h.toolCalls⟩
  | usage usage => exact ⟨h.outputText.trans (String.append_empty).symm, h.toolCallCount, h.toolCalls⟩
  | finished reason => exact ⟨h.outputText.trans (String.append_empty).symm, h.toolCallCount, h.toolCalls⟩

end track

section run

variable {responseId : String} {events : List InternalStreamEvent}

theorem last_empty {texts : List String} (h : (texts ++ [""]).Pairwise (fun a b => a ≠ "" → b ≠ "")) :
    texts.getLast?.getD "" = "" := by
  cases hlast : texts.getLast? with
  | none => rfl
  | some text =>
    by_contra hne
    exact (List.pairwise_append.mp h).2.2 text (List.mem_of_getLast? hlast) "" (List.mem_singleton.mpr rfl) hne rfl

theorem KeepsIds.snoc {event : InternalStreamEvent} (h : KeepsIds (events ++ [event])) (responseId : String) :
    KeepsIds events ∧ Keeps (after responseId events) event := by
  constructor
  · intro index
    obtain ⟨hids, hnames⟩ := h index
    rw [List.filterMap_append] at hids hnames
    exact ⟨(List.pairwise_append.mp hids).1, (List.pairwise_append.mp hnames).1⟩
  · cases event with
    | toolCallDelta index id name arguments =>
      obtain ⟨hids, hnames⟩ := h index
      obtain ⟨hid, hname⟩ := after_names responseId events index
      rw [List.filterMap_append] at hids hnames
      constructor
      · rintro rfl
        rw [hid]
        apply last_empty
        simpa [InternalStreamEvent.deltaId] using hids
      · rintro rfl
        rw [hname]
        apply last_empty
        simpa [InternalStreamEvent.deltaName] using hnames
    | _ => trivial

/-- Events as they come from upstream: no tool call is done there. -/
def Incoming (events : List InternalStreamEvent) : Prop :=
  ∀ event ∈ events, ∀ index id name arguments, event ≠ .toolCallDone index id name arguments

theorem internalEventsOf_incoming (serde : SerdeJson) (data : String) : Incoming (internalEventsOf serde data) := by
  unfold internalEventsOf
  cases decodeChatSseEvent serde data with
  | none => exact nofun
  | some chat =>
    intro event hevent index id name arguments heq
    subst heq
    simp [ChatSseEvent.toInternalEvents] at hevent

theorem run_tracks {serde : SerdeJson} (hserde : serde.Lawful) (hkeeps : KeepsIds events) (hincoming : Incoming events) :
    Tracks (after responseId events).toolCalls (after responseId events).stats.outputText
        (after responseId events).stats ∧
      ∃ echoes, ReadsAll serde ((new responseId).processInternalEvents events).2 echoes ∧
        Tracks (after responseId events).toolCalls (after responseId events).stats.outputText
          (StreamStatsSnapshot.recordEvents {} echoes) := by
  induction events using List.reverseRecOn with
  | nil =>
    have hempty : Tracks (after responseId []).toolCalls (after responseId []).stats.outputText {} := by
      refine ⟨rfl, rfl, ?_⟩
      intro index
      simp [after, processInternalEvents, new]
    exact ⟨hempty, [], ReadsAll.nil, hempty⟩
  | append_singleton events event ih =>
    obtain ⟨hbefore, hevent⟩ := hkeeps.snoc responseId
    obtain ⟨hbridge, echoes, hreads, hnative⟩ := ih hbefore (fun e he => hincoming e (List.mem_append_left _ he))
    have hrecord := hbridge.record hevent (hincoming event (by simp))
    have hecho := hnative.echo hevent
    rw [after_snoc, processInternalEvent_stats, StreamStatsSnapshot.recordEvent_outputText]
    refine ⟨hrecord, echoes ++ echo (after responseId events) event, ?_, ?_⟩
    · rw [processInternalEvents_append]
      simp only [processInternalEvents, List.append_nil]
      exact hreads.append (processInternalEvent_echo hserde _ event)
    · simpa [StreamStatsSnapshot.recordEvents] using hecho

end run

section finish

variable {m : Std.ExtTreeMap ℕ ChatToolCallState} {text : String} {stats : StreamStatsSnapshot}

def capturedState (toolCall : ChatToolCallState) : CapturedToolCall :=
  ⟨toolCall.id, toolCall.name, toolCall.arguments, true⟩

theorem recordToolCallDone_twice (stats : StreamStatsSnapshot) (index : ℕ) (id name arguments : String) :
    (stats.recordToolCallDone index id name arguments).recordToolCallDone index id name arguments =
      stats.recordToolCallDone index id name arguments := by
  have hentry : (stats.recordToolCallDone index id name arguments).entry index = {
      id := if id = "" then (stats.entry index).id else id
      name := if name = "" then (stats.entry index).name else name
      arguments := if arguments ≠ "" ∨ (stats.entry index).arguments = "" then arguments
        else (stats.entry index).arguments
      done := true } := by
    rw [entry_eq]
    simp [StreamStatsSnapshot.recordToolCallDone]
  conv_lhs => rw [StreamStatsSnapshot.recordToolCallDone, hentry]
  simp only [StreamStatsSnapshot.recordToolCallDone, ↓reduceIte, StreamStatsSnapshot.mk.injEq, true_and]
  apply Std.ExtTreeMap.ext_getElem?
  intro i
  simp only [Std.ExtTreeMap.getElem?_insert]
  split_ifs <;> simp_all

theorem recordDone_twice (stats : StreamStatsSnapshot) (calls : List (ℕ × ChatToolCallState)) :
    stats.recordEvents (calls.flatMap (fun p => [toolCallDoneEvent p.1 p.2, toolCallDoneEvent p.1 p.2])) =
      stats.recordEvents (calls.map (fun p => toolCallDoneEvent p.1 p.2)) := by
  induction calls generalizing stats with
  | nil => rfl
  | cons p calls ih =>
    have htwice : (stats.recordEvent (toolCallDoneEvent p.1 p.2)).recordEvent (toolCallDoneEvent p.1 p.2) =
        stats.recordEvent (toolCallDoneEvent p.1 p.2) := recordToolCallDone_twice stats _ _ _ _
    simp only [StreamStatsSnapshot.recordEvents, List.flatMap_cons, List.cons_append, List.nil_append, List.map_cons,
      List.foldl_cons, htwice] at ih ⊢
    exact ih _

theorem Follows.done {toolCall : ChatToolCallState} {index : ℕ} (h : Follows toolCall (stats.entry index)) :
    (stats.recordEvent (toolCallDoneEvent index toolCall)).toolCalls =
        stats.toolCalls.insert index (capturedState toolCall) ∧
      (stats.recordEvent (toolCallDoneEvent index toolCall)).toolCallCount = stats.toolCallCount + 1 := by
  constructor
  · simp only [toolCallDoneEvent, StreamStatsSnapshot.recordEvent, StreamStatsSnapshot.recordToolCallDone, capturedState]
    congr 2
    · split_ifs with hempty
      · rw [hempty, h.id hempty]
      · rfl
    · split_ifs with hempty
      · rw [hempty, h.name hempty]
      · rfl
    · rw [h.arguments, ite_self]
  · simp only [toolCallDoneEvent, StreamStatsSnapshot.recordEvent, StreamStatsSnapshot.recordToolCallDone,
      h.running.2, Bool.false_eq_true, ↓reduceIte]

theorem recordDone_toolCalls (calls : List (ℕ × ChatToolCallState)) (hkeys : (calls.map Prod.fst).Nodup)
    (h : ∀ p ∈ calls, Follows p.2 (stats.entry p.1)) :
    (∀ p ∈ calls, (stats.recordEvents (calls.map (fun p => toolCallDoneEvent p.1 p.2))).toolCalls[p.1]? =
        some (capturedState p.2)) ∧
      (∀ i : ℕ, i ∉ calls.map Prod.fst →
        (stats.recordEvents (calls.map (fun p => toolCallDoneEvent p.1 p.2))).toolCalls[i]? = stats.toolCalls[i]?) ∧
      (stats.recordEvents (calls.map (fun p => toolCallDoneEvent p.1 p.2))).toolCallCount =
        stats.toolCallCount + calls.length := by
  induction calls generalizing stats with
  | nil => exact ⟨nofun, fun _ _ => rfl, rfl⟩
  | cons p calls ih =>
    obtain ⟨hnew, hrest⟩ := List.nodup_cons.mp hkeys
    obtain ⟨hcalls, hcount⟩ := (h p List.mem_cons_self).done
    have hother : ∀ i : ℕ, i ≠ p.1 →
        (stats.recordEvent (toolCallDoneEvent p.1 p.2)).toolCalls[i]? = stats.toolCalls[i]? := by
      intro i hi
      rw [hcalls, Std.ExtTreeMap.getElem?_insert,
        if_neg (fun heq => hi (Std.LawfulEqCmp.compare_eq_iff_eq.mp heq).symm)]
    have hfollows : ∀ q ∈ calls, Follows q.2 ((stats.recordEvent (toolCallDoneEvent p.1 p.2)).entry q.1) := by
      intro q hq
      have hne : q.1 ≠ p.1 := fun heq => hnew (heq ▸ List.mem_map_of_mem hq)
      rw [entry_eq, hother q.1 hne, ← entry_eq]
      exact h q (List.mem_cons_of_mem _ hq)
    obtain ⟨hdone, hkept, htotal⟩ := ih hrest hfollows
    simp only [List.map_cons, StreamStatsSnapshot.recordEvents, List.foldl_cons] at hdone hkept htotal ⊢
    refine ⟨?_, ?_, ?_⟩
    · intro q hq
      rcases List.mem_cons.mp hq with rfl | hq
      · rw [hkept q.1 hnew, hcalls, Std.ExtTreeMap.getElem?_insert_self]
      · exact hdone q hq
    · intro i hi
      obtain ⟨hne, hi⟩ := not_or.mp (fun hmem => hi (List.mem_cons.mpr hmem))
      rw [hkept i hi, hother i hne]
    · rw [htotal, hcount, List.length_cons]
      omega

theorem Tracks.done (h : Tracks m text stats) :
    (∀ i : ℕ, (stats.recordEvents (m.toList.map (fun p => toolCallDoneEvent p.1 p.2))).toolCalls[i]? =
        m[i]?.map capturedState) ∧
      (stats.recordEvents (m.toList.map (fun p => toolCallDoneEvent p.1 p.2))).toolCallCount = m.toList.length ∧
      (stats.recordEvents (m.toList.map (fun p => toolCallDoneEvent p.1 p.2))).outputText = text := by
  have hkeys : (m.toList.map Prod.fst).Nodup := by
    rw [List.nodup_iff_pairwise_ne, List.pairwise_map]
    exact Std.ExtTreeMap.distinct_keys_toList.imp (fun hne heq => hne (Std.LawfulEqCmp.compare_eq_iff_eq.mpr heq))
  have hfollows : ∀ p ∈ m.toList, Follows p.2 (stats.entry p.1) := by
    intro p hp
    rw [Std.ExtTreeMap.mem_toList_iff_getElem?_eq_some] at hp
    have hentry := h.entry p.1
    rwa [Std.ExtTreeMap.getD_eq_getD_getElem?, hp] at hentry
  obtain ⟨hdone, hkept, htotal⟩ := recordDone_toolCalls m.toList hkeys hfollows
  refine ⟨?_, ?_, ?_⟩
  · intro i
    cases hcall : m[i]? with
    | some toolCall => exact hdone (i, toolCall) (Std.ExtTreeMap.mem_toList_iff_getElem?_eq_some.mpr hcall)
    | none =>
      have hnone := h.toolCalls i
      rw [hcall] at hnone
      rw [hkept i]
      · generalize stats.toolCalls[i]? = captured at hnone
        cases hnone
        rfl
      · intro hmem
        obtain ⟨p, hp, rfl⟩ := List.mem_map.mp hmem
        rw [Std.ExtTreeMap.mem_toList_iff_getElem?_eq_some, hcall] at hp
        exact nomatch hp
  · rw [htotal, h.toolCallCount, Nat.zero_add]
  · rw [StreamStatsSnapshot.recordEvents_outputText, h.outputText]
    intro event hevent
    obtain ⟨p, -, rfl⟩ := List.mem_map.mp hevent
    rfl

end finish

/-- Statistics that agree on the answer and its token counts. -/
structure SameCounts (a b : StreamStatsSnapshot) : Prop where
  outputText : a.outputText = b.outputText
  completedToolCalls : a.completedToolCalls = b.completedToolCalls
  toolCallCount : a.toolCallCount = b.toolCallCount
  responseOutputItems : a.responseOutputItems = b.responseOutputItems
  inputTokens : a.inputTokens = b.inputTokens
  outputTokens : a.outputTokens = b.outputTokens
  cacheReadTokens : a.cacheReadTokens = b.cacheReadTokens
  cacheWriteTokens : a.cacheWriteTokens = b.cacheWriteTokens
  completed : a.completed = b.completed

section agreement

variable {serde : SerdeJson}

theorem toolCallDone_reads (hserde : serde.Lawful) (calls : List (ℕ × ChatToolCallState)) :
    ReadsAll serde (calls.flatMap (fun p => responsesToolCallDoneSse p.1 { p.2 with done := true }))
      (calls.flatMap (fun p => [toolCallDoneEvent p.1 p.2, toolCallDoneEvent p.1 p.2])) := by
  induction calls with
  | nil => exact ReadsAll.nil
  | cons p calls ih =>
    have hdone := (functionCallArgumentsDone_reads hserde p.1 { p.2 with done := true }).all.append
      (outputItemDone_reads hserde p.1 { p.2 with done := true }).all
    exact hdone.append ih

theorem responseOutputItems_stable (st : ChatToResponses) : ∀ item ∈ st.responseOutputItems, item.Stable 4 := by
  intro item hitem
  rcases List.mem_append.mp hitem with hitem | hitem
  · split_ifs at hitem
    · exact nomatch hitem
    · rw [List.mem_singleton.mp hitem]
      apply Value.stable_json (n := 3)
      have hpart : (Value.json [("type", .string "output_text"), ("text", .string st.stats.outputText),
          ("annotations", .array [])]).Stable 2 := by
        apply Value.stable_json
        simp only [List.forall_mem_cons, Value.stable_string, true_and]
        exact ⟨Value.stable_array nofun, nofun⟩
      simp only [List.forall_mem_cons, Value.stable_string, true_and]
      exact ⟨Value.stable_array (List.forall_mem_singleton.mpr hpart), nofun⟩
  · obtain ⟨p, -, rfl⟩ := List.mem_map.mp hitem
    apply Value.stable_json
    simp [Value.stable_string]

theorem filter_running {st : ChatToResponses} {text : String} {stats : StreamStatsSnapshot}
    (h : Tracks st.toolCalls text stats) : st.toolCalls.toList.filter (fun p => !p.2.done) = st.toolCalls.toList := by
  rw [List.filter_eq_self]
  intro p hp
  rw [Std.ExtTreeMap.mem_toList_iff_getElem?_eq_some] at hp
  have hentry := (h.entry p.1).running.1
  rw [Std.ExtTreeMap.getD_eq_getD_getElem?, hp] at hentry
  simpa using hentry

theorem Tracks.sameToolCalls {m : Std.ExtTreeMap ℕ ChatToolCallState} {text : String} {a b : StreamStatsSnapshot}
    (ha : Tracks m text a) (hb : Tracks m text b) :
    (a.recordEvents (m.toList.map (fun p => toolCallDoneEvent p.1 p.2))).toolCalls =
      (b.recordEvents (m.toList.map (fun p => toolCallDoneEvent p.1 p.2))).toolCalls := by
  apply Std.ExtTreeMap.ext_getElem?
  intro i
  rw [ha.done.1, hb.done.1]

theorem close_agrees (hserde : serde.Lawful) (hdone : serde.fromStr "[DONE]" = none) {st : ChatToResponses}
    {native : StreamStatsSnapshot} (hbridge : Tracks st.toolCalls st.stats.outputText st.stats)
    (hnative : Tracks st.toolCalls st.stats.outputText native) :
    (∀ chunk ∈ st.close.2, chunk.IsPlain) ∧
      SameCounts (st.close.2.foldl (nativeRecord serde) native) st.close.1.stats := by
  have hcalls := toolCallDone_reads hserde st.toolCalls.toList
  have houtput : st.close.1.responseOutputItems = st.responseOutputItems :=
    responseOutputItems_finish { st with completed := true }
  have hitems : st.close.1.stats.responseOutputItems = st.responseOutputItems :=
    (finishResponse_spec { st with completed := true }).2.2.1
  have hclose : st.close.2 = st.toolCalls.toList.flatMap (fun p => responsesToolCallDoneSse p.1 { p.2 with done := true })
      ++ [responsesCompletedSseWithUsage st.usage st.responseId st.close.1.responseOutputItems] := by
    conv_rhs => rw [← filter_running hbridge]
    rfl
  have hstats : st.close.1.stats = { st.stats.recordEvents (st.toolCalls.toList.map (fun p => toolCallDoneEvent p.1 p.2) ++
      [.usage (st.usage.getD {}), .finished (st.finishReason.getD .stop)]) with
        upstreamResponseId := none, responseOutputItems := st.close.1.stats.responseOutputItems } := by
    conv_rhs => rw [← filter_running hbridge]
    rfl
  have husage := responsesUsageOf_completed st.usage
  simp only [StreamUsage.mk.injEq, true_and] at husage
  rw [houtput] at hclose
  constructor
  · rw [hclose]
    intro chunk hchunk
    rcases List.mem_append.mp hchunk with hchunk | hchunk
    · exact hcalls.1 chunk hchunk
    · rw [List.mem_singleton.mp hchunk]
      trivial
  · obtain ⟨upstreamResponseId, hcompleted⟩ := completed_reads hserde hdone st.usage st.responseId
      (responseOutputItems_stable st) (native.recordEvents (st.toolCalls.toList.map (fun p => toolCallDoneEvent p.1 p.2)))
    have hsame := hnative.sameToolCalls hbridge
    obtain ⟨-, hcount, htext⟩ := hnative.done
    obtain ⟨-, hcount', htext'⟩ := hbridge.done
    rw [hclose, List.foldl_append, hcalls.2, recordDone_twice, List.foldl_cons, List.foldl_nil, hcompleted, hstats, hitems]
    simp only [StreamStatsSnapshot.recordEvents, List.foldl_append, List.foldl_cons, List.foldl_nil,
      StreamStatsSnapshot.recordEvent, StreamStatsSnapshot.recordUsage] at hsame hcount hcount' htext htext' ⊢
    refine ⟨?_, ?_, ?_, rfl, ?_, ?_, ?_, ?_, rfl⟩
    · exact htext.trans htext'.symm
    · simp only [StreamStatsSnapshot.completedToolCalls, hsame]
    · exact hcount.trans hcount'.symm
    · rw [husage.1]
    · rw [husage.2.1]
    · rw [husage.2.2.1]
    · rw [husage.2.2.2]

theorem readEvents_incoming (serde : SerdeJson) (bs : Bytes) : Incoming (readEvents serde bs) := by
  intro event hevent
  obtain ⟨data, -, hdata⟩ := List.mem_flatMap.mp hevent
  exact internalEventsOf_incoming serde data event hdata

/-- A native decoder that reads the stream of the bridge, in whatever pieces, counts what the bridge counts. -/
theorem native_agrees (hserde : serde.Lawful) (hempty : serde.fromStr "" = none) (hdone : serde.fromStr "[DONE]" = none)
    (responseId : String) (chunks : List Bytes) (hkeeps : KeepsIds (streamEvents serde chunks)) (pieces : List Bytes)
    (hpieces : pieces.flatten =
      ((chatToResponsesDecoder serde).decode (ResponsesChunk.bytes serde) (.new responseId) chunks).1) :
    SameCounts ((nativeResponsesDecoder serde).decode id {} pieces).2
      ((chatToResponsesDecoder serde).decode (ResponsesChunk.bytes serde) (.new responseId) chunks).2 := by
  have hread : KeepsIds (readEvents serde chunks.flatten) := by
    intro index
    have hpre := (readEvents_leads serde chunks).sublist
    exact ⟨(hkeeps index).1.sublist (hpre.filterMap _), (hkeeps index).2.sublist (hpre.filterMap _)⟩
  obtain ⟨hbridge, echoes, hreads, hnative⟩ := run_tracks hserde hread (readEvents_incoming serde chunks.flatten)
  obtain ⟨hplain, hsame⟩ := close_agrees hserde hdone hbridge hnative
  have hlast : ∀ stats, NativeResponses.recordData serde stats none "" = stats := by
    intro stats
    simp [NativeResponses.recordData, decodeResponsesResponseId, decodeResponsesOutputItems, hempty,
      decodeResponsesSseEvent, StreamStatsSnapshot.recordEvents]
  rw [decode_bridge] at hpieces ⊢
  rw [decode_native serde hserde _ hpieces, hlast, List.foldl_append, hreads.2]
  · exact hsame
  · intro chunk hchunk
    rcases List.mem_append.mp hchunk with hchunk | hchunk
    · exact hreads.1 chunk hchunk
    · exact hplain chunk hchunk

end agreement

theorem native_agrees_tool_call :
    SameCounts ((nativeResponsesDecoder Text.codec).decode id {}
        [((chatToResponsesDecoder Text.codec).decode (ResponsesChunk.bytes Text.codec) (.new "resp_local")
          [toolChunk, doneChunk]).1]).2
      ((chatToResponsesDecoder Text.codec).decode (ResponsesChunk.bytes Text.codec) (.new "resp_local")
        [toolChunk, doneChunk]).2 := by
  have hevents : streamEvents Text.codec [toolChunk, doneChunk] =
      [.toolCallDelta 0 (some "call_1") (some "search") (some "query")] := by
    have hdatas : Sse.events Sse.stripSpace [toolChunk, doneChunk] = [toolChunkText, "[DONE]"] := by
      obtain ⟨htool, -, hdone, -⟩ : toolChunk = _ ∧ textChunk = _ ∧ doneChunk = _ ∧ _ := by
        simpa only [List.map_cons, List.cons.injEq] using chunks_lines
      have hplain : ∀ data ∈ [toolChunkText, "[DONE]"], Plain data := by
        intro data hdata
        apply chunkTexts_plain data
        rcases List.mem_pair.mp hdata with rfl | rfl
        · exact List.mem_cons_self
        · exact List.mem_cons_of_mem _ (List.mem_cons_of_mem _ (List.mem_singleton_self _))
      have hevents := events_plain hplain
      rwa [List.map_cons, List.map_cons, List.map_nil, ← htool, ← hdone] at hevents
    have hdone : isDone "[DONE]" = true := by decide
    rw [streamEvents, hdatas, eventsBeforeDone]
    simp only [List.takeWhile_cons, toolChunkText_open, chunkTexts_events, hdone, Bool.not_false, Bool.not_true,
      Bool.false_eq_true, ↓reduceIte, List.flatMap_cons, List.flatMap_nil]
    rfl
  refine native_agrees Text.codec_lawful (by decide) (by decide) "resp_local" [toolChunk, doneChunk] ?_ _ (by simp)
  rw [hevents]
  intro index
  by_cases hindex : 0 = index
  · simp [hindex, InternalStreamEvent.deltaId, InternalStreamEvent.deltaName]
  · simp [hindex, InternalStreamEvent.deltaId, InternalStreamEvent.deltaName]

end Prelay.Bridge
