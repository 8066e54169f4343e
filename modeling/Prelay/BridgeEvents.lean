import Prelay.ChatToResponses

namespace Prelay.Bridge

open Json

namespace InternalStreamEvent

def isToolCallDelta (index : ℕ) : InternalStreamEvent → Bool
  | .toolCallDelta i _ _ _ => i = index
  | _ => false

def deltaId (index : ℕ) : InternalStreamEvent → Option String
  | .toolCallDelta i id _ _ => if i = index then id else none
  | _ => none

def deltaName (index : ℕ) : InternalStreamEvent → Option String
  | .toolCallDelta i _ name _ => if i = index then name else none
  | _ => none

end InternalStreamEvent

def lastId (index : ℕ) (events : List InternalStreamEvent) : String :=
  (events.filterMap (InternalStreamEvent.deltaId index)).getLast?.getD ""

def lastName (index : ℕ) (events : List InternalStreamEvent) : String :=
  (events.filterMap (InternalStreamEvent.deltaName index)).getLast?.getD ""

theorem any_snoc_of_false {α : Type} {p : α → Bool} {as : List α} {a : α} (h : p a = false) :
    (as ++ [a]).any p = as.any p := by
  simp [h]

theorem lastId_snoc (index : ℕ) (events : List InternalStreamEvent) (event : InternalStreamEvent) :
    lastId index (events ++ [event]) = (event.deltaId index).getD (lastId index events) := by
  unfold lastId
  rw [List.filterMap_append]
  cases h : event.deltaId index <;> simp [h]

theorem lastName_snoc (index : ℕ) (events : List InternalStreamEvent) (event : InternalStreamEvent) :
    lastName index (events ++ [event]) = (event.deltaName index).getD (lastName index events) := by
  unfold lastName
  rw [List.filterMap_append]
  cases h : event.deltaName index <;> simp [h]

theorem lastId_of_not_any (index : ℕ) (events : List InternalStreamEvent)
    (h : events.any (InternalStreamEvent.isToolCallDelta index) = false) :
    lastId index events = "" ∧ lastName index events = "" := by
  induction events using List.reverseRecOn with
  | nil => exact ⟨rfl, rfl⟩
  | append_singleton events event ih =>
    rw [List.any_append, Bool.or_eq_false_iff] at h
    obtain ⟨hid, hname⟩ := ih h.1
    rw [lastId_snoc, lastName_snoc, hid, hname]
    cases event <;> simp_all [InternalStreamEvent.isToolCallDelta, InternalStreamEvent.deltaId,
      InternalStreamEvent.deltaName]

/-- A non-empty text, or a tool call whose id and name, as given last, are not empty. -/
def HasOutput (events : List InternalStreamEvent) : Prop :=
  (∃ event ∈ events, event.text ≠ "") ∨ ∃ index, lastId index events ≠ "" ∧ lastName index events ≠ ""

def emits (before : List InternalStreamEvent) : InternalStreamEvent → Bool
  | .textDelta _ => true
  | .toolCallDelta index _ _ arguments =>
    arguments.isSome || !before.any (InternalStreamEvent.isToolCallDelta index)
  | _ => false

def emitsAny (before : List InternalStreamEvent) : List InternalStreamEvent → Bool
  | [] => false
  | event :: events => emits before event || emitsAny (before ++ [event]) events

namespace ChatToResponses

variable (responseId : String)

def after (events : List InternalStreamEvent) : ChatToResponses :=
  ((new responseId).processInternalEvents events).1

theorem after_append (es fs : List InternalStreamEvent) :
    after responseId (es ++ fs) = ((after responseId es).processInternalEvents fs).1 := by
  rw [after, processInternalEvents_append]
  rfl

theorem after_snoc (events : List InternalStreamEvent) (event : InternalStreamEvent) :
    after responseId (events ++ [event]) = ((after responseId events).processInternalEvent event).1 :=
  processInternalEvents_snoc _ _ _

theorem after_open (events : List InternalStreamEvent) :
    (after responseId events).completed = false ∧ (after responseId events).responseId = responseId ∧
      (after responseId events).stats.responseOutputItems = [] := by
  induction events using List.reverseRecOn with
  | nil => exact ⟨rfl, rfl, rfl⟩
  | append_singleton events event ih => simpa [after_snoc, processInternalEvent_stats] using ih

theorem after_finished (events : List InternalStreamEvent) :
    (after responseId events).stats.completed = events.any InternalStreamEvent.isFinished := by
  induction events using List.reverseRecOn with
  | nil => rfl
  | append_singleton events event ih =>
    rw [after_snoc, processInternalEvent_stats, StreamStatsSnapshot.recordEvent_completed, ih]
    simp

theorem after_outputText (events : List InternalStreamEvent) :
    (after responseId events).stats.outputText = "" ↔ ∀ event ∈ events, event.text = "" := by
  induction events using List.reverseRecOn with
  | nil => simp [after, processInternalEvents, new]
  | append_singleton events event ih =>
    rw [after_snoc, processInternalEvent_stats, StreamStatsSnapshot.recordEvent_outputText,
      String.append_eq_empty_iff, ih]
    simp [or_imp, forall_and]

theorem after_toolCall (events : List InternalStreamEvent) (index : ℕ) :
    (after responseId events).toolCalls[index]?.map (fun t => (t.id, t.name, t.added)) =
      if events.any (InternalStreamEvent.isToolCallDelta index) then
        some (lastId index events, lastName index events, true)
      else none := by
  induction events using List.reverseRecOn with
  | nil => simp [after, processInternalEvents, new]
  | append_singleton events event ih =>
    have hfirst := lastId_of_not_any index events
    rw [after_snoc, lastId_snoc, lastName_snoc]
    generalize after responseId events = st at ih
    cases event with
    | toolCallDelta i id name arguments =>
      have hgetD : st.toolCalls.getD i {} = st.toolCalls[i]?.getD {} :=
        Std.ExtTreeMap.getD_eq_getD_getElem?
      simp only [processInternalEvent, takeUsage, recordInternalEvent, internalEventToResponsesSse,
        toolCallDeltaToResponsesSse, Std.ExtTreeMap.getElem?_insert, compare_eq_iff_eq, List.any_append,
        List.any_cons, List.any_nil, Bool.or_false, InternalStreamEvent.isToolCallDelta,
        InternalStreamEvent.deltaId, InternalStreamEvent.deltaName, hgetD]
      by_cases hi : i = index
      · subst hi
        cases hold : st.toolCalls[i]? with
        | none =>
          have hnot : events.any (InternalStreamEvent.isToolCallDelta i) = false := by
            by_contra hany
            rw [hold, if_pos (by simpa using hany)] at ih
            cases ih
          simp [hfirst hnot]
        | some t =>
          have hany : events.any (InternalStreamEvent.isToolCallDelta i) = true := by
            by_contra hany
            rw [hold, if_neg hany] at ih
            cases ih
          simp only [hold, Option.map_some, hany, ↓reduceIte, Option.some.injEq, Prod.mk.injEq] at ih
          simp [ih]
      · simpa [hi] using ih
    | textDelta delta =>
      rw [any_snoc_of_false rfl]
      exact ih
    | reasoningDelta delta =>
      rw [any_snoc_of_false rfl]
      exact ih
    | toolCallDone i id name arguments =>
      rw [any_snoc_of_false rfl]
      exact ih
    | usage usage =>
      rw [any_snoc_of_false rfl]
      exact ih
    | finished reason =>
      rw [any_snoc_of_false rfl]
      exact ih

theorem processInternalEvent_emits (events : List InternalStreamEvent) (event : InternalStreamEvent) :
    ((after responseId events).processInternalEvent event).2 ≠ [] ↔ emits events event = true := by
  cases event with
  | toolCallDelta i id name arguments =>
    have htool := after_toolCall responseId events i
    generalize after responseId events = st at htool
    have hgetD : st.toolCalls.getD i {} = st.toolCalls[i]?.getD {} :=
      Std.ExtTreeMap.getD_eq_getD_getElem?
    have hadded : (st.toolCalls.getD i {}).added = events.any (InternalStreamEvent.isToolCallDelta i) := by
      rw [hgetD]
      cases hold : st.toolCalls[i]? with
      | none =>
        rw [hold] at htool
        by_cases hany : events.any (InternalStreamEvent.isToolCallDelta i) = true
        · rw [if_pos hany] at htool
          exact nomatch htool
        · simpa using hany
      | some t =>
        rw [hold] at htool
        by_cases hany : events.any (InternalStreamEvent.isToolCallDelta i) = true
        · simp only [Option.map_some, hany, ↓reduceIte, Option.some.injEq, Prod.mk.injEq] at htool
          rw [hany]
          exact htool.2.2
        · rw [if_neg hany] at htool
          exact nomatch htool
    simp only [processInternalEvent, takeUsage, recordInternalEvent, internalEventToResponsesSse,
      toolCallDeltaToResponsesSse, emits, hadded]
    cases arguments <;> cases events.any (InternalStreamEvent.isToolCallDelta i) <;> simp
  | textDelta delta => simp [processInternalEvent, internalEventToResponsesSse, emits]
  | reasoningDelta delta => simp [processInternalEvent, internalEventToResponsesSse, emits]
  | toolCallDone i id name arguments => simp [processInternalEvent, internalEventToResponsesSse, emits]
  | usage usage => simp [processInternalEvent, internalEventToResponsesSse, emits]
  | finished reason => simp [processInternalEvent, internalEventToResponsesSse, emits]

theorem processInternalEvents_emits (before events : List InternalStreamEvent) :
    ((after responseId before).processInternalEvents events).2 ≠ [] ↔ emitsAny before events = true := by
  induction events generalizing before with
  | nil => simp [processInternalEvents, emitsAny]
  | cons event events ih =>
    have hrest := ih (before ++ [event])
    rw [after_snoc] at hrest
    have hevent := processInternalEvent_emits responseId before event
    rw [emitsAny, Bool.or_eq_true, ← hevent, ← hrest]
    simp [processInternalEvents, or_iff_not_imp_left]

theorem mem_toolCalls_iff (events : List InternalStreamEvent) :
    (∃ p ∈ (after responseId events).toolCalls.toList, p.2.id ≠ "" ∧ p.2.name ≠ "") ↔
      ∃ index, lastId index events ≠ "" ∧ lastName index events ≠ "" := by
  constructor
  · rintro ⟨⟨index, t⟩, hmem, hid, hname⟩
    rw [Std.ExtTreeMap.mem_toList_iff_getElem?_eq_some] at hmem
    have htool := after_toolCall responseId events index
    rw [hmem] at htool
    refine ⟨index, ?_⟩
    by_cases hany : events.any (InternalStreamEvent.isToolCallDelta index) = true
    · simp only [Option.map_some, hany, ↓reduceIte, Option.some.injEq, Prod.mk.injEq] at htool
      exact ⟨htool.1 ▸ hid, htool.2.1 ▸ hname⟩
    · simp [hany] at htool
  · rintro ⟨index, hid, hname⟩
    have htool := after_toolCall responseId events index
    by_cases hany : events.any (InternalStreamEvent.isToolCallDelta index) = true
    · rw [if_pos hany] at htool
      obtain ⟨t, hget, ht⟩ := Option.map_eq_some_iff.mp htool
      simp only [Prod.mk.injEq] at ht
      refine ⟨(index, t), Std.ExtTreeMap.mem_toList_iff_getElem?_eq_some.mpr hget, ?_⟩
      exact ⟨ht.1 ▸ hid, ht.2.1 ▸ hname⟩
    · exact absurd (lastId_of_not_any index events (by simpa using hany)).1 hid

theorem responseOutputItems_ne_nil (events : List InternalStreamEvent) :
    (after responseId events).responseOutputItems ≠ [] ↔ HasOutput events := by
  rw [HasOutput, ← mem_toolCalls_iff responseId events]
  have htext := after_outputText responseId events
  by_cases hempty : (after responseId events).stats.outputText = ""
  · have hall := htext.mp hempty
    have hnone : ¬∃ event ∈ events, event.text ≠ "" := by
      rintro ⟨event, hmem, hne⟩
      exact hne (hall event hmem)
    simp [responseOutputItems, hempty, hnone]
  · have hsome : ∃ event ∈ events, event.text ≠ "" := by
      by_contra hnone
      push Not at hnone
      exact hempty (htext.mpr hnone)
    simp [responseOutputItems, hempty, hsome]

end ChatToResponses

end Prelay.Bridge
