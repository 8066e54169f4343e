import Prelay.ClosedChat

namespace Prelay.Bridge

open Json Recording ChatToResponses

def ShownAsRecorded (serde : SerdeJson) (responseId : String) (chunks : List Bytes) : Prop :=
  (sentOutputs serde responseId chunks).map (fun output => output.filter isFunctionCall) =
    [(completedToolCallItems
      ((chatToResponsesDecoder serde).decode (ResponsesChunk.bytes serde) (.new responseId) chunks).2).map
        encodeOutputItem]

/-- A tool call that gets an id and a name at some point still has them at the end: neither is given once more as an
empty text. -/
def KeepsNames (events : List InternalStreamEvent) : Prop :=
  ∀ index, (∃ id ∈ events.filterMap (InternalStreamEvent.deltaId index), id ≠ "") →
    (∃ name ∈ events.filterMap (InternalStreamEvent.deltaName index), name ≠ "") →
    lastId index events ≠ "" ∧ lastName index events ≠ ""

theorem filter_map_eq_iff {α β : Type} {p q : α → Bool} {f g : α → β} {l : List α}
    (h : ∀ a ∈ l, p a → q a ∧ f a = g a) : (l.filter p).map f = (l.filter q).map g ↔ ∀ a ∈ l, q a → p a := by
  have hboth : (l.filter q).filter p = l.filter p := by
    rw [List.filter_filter]
    apply List.filter_congr
    intro a ha
    cases hp : p a with
    | false => rfl
    | true => rw [(h a ha hp).1, Bool.true_and]
  constructor
  · intro heq a ha hq
    have hlength := congrArg List.length heq
    rw [List.length_map, List.length_map, ← hboth] at hlength
    exact List.length_filter_eq_length_iff.mp hlength a (List.mem_filter.mpr ⟨ha, hq⟩)
  · intro hall
    have hsame : l.filter p = l.filter q := by
      apply List.filter_congr
      intro a ha
      rw [Bool.eq_iff_iff]
      exact ⟨fun hp => (h a ha hp).1, hall a ha⟩
    rw [← hsame]
    apply List.map_congr_left
    intro a ha
    exact (h a (List.mem_filter.mp ha).1 (List.mem_filter.mp ha).2).2

theorem lastNonempty_ne_empty (texts : List String) : lastNonempty texts ≠ "" ↔ ∃ text ∈ texts, text ≠ "" := by
  induction texts using List.reverseRecOn with
  | nil => simp [lastNonempty]
  | append_singleton texts text ih =>
    rw [lastNonempty_snoc]
    split_ifs with htext
    · rw [ih]
      simp [htext]
    · simp [htext]

theorem lastNonempty_of_last {texts : List String} (h : texts.getLast?.getD "" ≠ "") :
    lastNonempty texts = texts.getLast?.getD "" :=
  ((last_brings texts).resolve_left h).symm

variable (serde : SerdeJson) (responseId : String)

def recordedCall (events : List InternalStreamEvent) (index : ℕ) : String × String × String :=
  (lastNonempty (events.filterMap (InternalStreamEvent.deltaId index)),
    lastNonempty (events.filterMap (InternalStreamEvent.deltaName index)), joinedArguments index events)

theorem completedToolCalls_eq {events : List InternalStreamEvent} (h : Incoming events) :
    (after responseId events).close.1.stats.completedToolCalls =
      (after responseId events).toolCalls.toList.map (fun p => recordedCall events p.1) := by
  have hclosed := bridge_closed responseId h
  have hmap : (after responseId events).close.1.stats.toolCalls =
      (after responseId events).toolCalls.map (fun index _ => captured true (recordedCall events index)) := by
    apply Std.ExtTreeMap.ext_getElem?
    intro index
    have hcall := congrArg (Option.map (fun _ => captured true (recordedCall events index)))
      (after_call responseId events index)
    rw [hclosed.calls, Std.ExtTreeMap.getElem?_map]
    rw [Option.map_map] at hcall
    refine Eq.trans ?_ hcall.symm
    unfold shownDeltas
    split_ifs <;> rfl
  rw [StreamStatsSnapshot.completedToolCalls, hmap, Std.ExtTreeMap.toList_map, List.filter_eq_self.mpr]
  · rw [List.map_map]
    rfl
  · intro entry hentry
    obtain ⟨p, -, rfl⟩ := List.mem_map.mp hentry
    rfl

theorem shownItems_eq (events : List InternalStreamEvent) :
    (after responseId events).responseOutputItems.filter isFunctionCall =
      ((after responseId events).toolCalls.toList.filter (fun p => p.2.id ≠ "" ∧ p.2.name ≠ "")).map
        (fun p => functionCallItem p.2) := by
  have hmessage (text : String) : isFunctionCall (messageItem text) = false := by
    simp [isFunctionCall, messageItem, Value.get_json, Value.asStr]
  have hcall (toolCall : ChatToolCallState) : isFunctionCall (functionCallItem toolCall) = true := by
    simp [isFunctionCall, functionCallItem, Value.get_json, Value.asStr]
  rw [responseOutputItems, List.filter_append]
  have htext : (if (after responseId events).stats.outputText = "" then []
      else [messageItem (after responseId events).stats.outputText]).filter isFunctionCall = [] := by
    split_ifs
    · rfl
    · rw [List.filter_cons_of_neg (by simp [hmessage]), List.filter_nil]
  rw [htext, List.nil_append, List.filter_eq_self]
  intro item hitem
  obtain ⟨p, -, rfl⟩ := List.mem_map.mp hitem
  exact hcall p.2

theorem shown_as_recorded_iff (chunks : List Bytes) :
    ShownAsRecorded serde responseId chunks ↔ KeepsNames (readEvents serde chunks.flatten) := by
  have hincoming := readEvents_incoming serde chunks.flatten
  rw [ShownAsRecorded, sentOutputs_eq, decode_bridge, List.map_singleton, shownItems_eq, completedToolCallItems,
    completedToolCalls_eq responseId hincoming]
  generalize readEvents serde chunks.flatten = events
  have hentry (p : ℕ × ChatToolCallState) (hp : p ∈ (after responseId events).toolCalls.toList) :
      callOf p.2 = streamedCall events p.1 := by
    have hget := Std.ExtTreeMap.mem_toList_iff_getElem?_eq_some.mp hp
    have hcall := after_call responseId events p.1
    rw [hget, Option.map_some] at hcall
    split_ifs at hcall
    exact Option.some.inj hcall
  rw [List.filter_map, List.map_map, List.map_map, List.singleton_inj, filter_map_eq_iff]
  · constructor
    · intro hall index hid hname
      rw [← lastNonempty_ne_empty] at hid hname
      have hany : events.any (InternalStreamEvent.isToolCallDelta index) = true := by
        by_contra hnone
        rw [(shownDeltas_none (by simpa using hnone)).1] at hid
        exact hid rfl
      have hcall := after_call responseId events index
      rw [if_pos hany] at hcall
      obtain ⟨toolCall, hget, heq⟩ := Option.map_eq_some_iff.mp hcall
      have hkept := hall (index, toolCall) (Std.ExtTreeMap.mem_toList_iff_getElem?_eq_some.mpr hget)
        (decide_eq_true ⟨hid, hname⟩)
      obtain ⟨hid', hname', -⟩ := ChatCall.mk.inj heq
      rw [← hid', ← hname']
      exact of_decide_eq_true hkept
    · intro hkeeps p hp hrecorded
      obtain ⟨hid, hname⟩ := of_decide_eq_true hrecorded
      obtain ⟨hid', hname', -⟩ := ChatCall.mk.inj (hentry p hp)
      have hlast := hkeeps p.1 ((lastNonempty_ne_empty _).mp hid) ((lastNonempty_ne_empty _).mp hname)
      rw [← hid', ← hname'] at hlast
      exact decide_eq_true hlast
  · intro p hp hshown
    obtain ⟨hid, hname⟩ := of_decide_eq_true hshown
    obtain ⟨hid', hname', harguments⟩ := ChatCall.mk.inj (hentry p hp)
    rw [hid'] at hid
    rw [hname'] at hname
    have hrecorded : recordedCall events p.1 = (p.2.id, p.2.name, p.2.arguments) := by
      rw [recordedCall, lastNonempty_of_last hid, lastNonempty_of_last hname, harguments, hid', hname']
      rfl
    simp only [Function.comp_apply, hrecorded]
    exact ⟨hshown, rfl⟩

def renamedStream : List Bytes :=
  [Str.utf8 ("data: \x7b\"choices\":[\x7b\"delta\":\x7b\"tool_calls\":[\x7b\"index\":0,\"id\":\"a\"," ++
    "\"function\":\x7b\"name\":\"f\"\x7d\x7d,\x7b\"index\":0,\"id\":\"\"\x7d]\x7d\x7d]\x7d\n\n"),
    Str.utf8 "data: [DONE]\n\n"]

theorem renamed_not_shown : ¬ShownAsRecorded Text.codec "resp_1" renamedStream := by
  intro hshown
  have hevents : readEvents Text.codec renamedStream.flatten =
      [.toolCallDelta 0 (some "a") (some "f") none, .toolCallDelta 0 (some "") none none] := by
    decide +kernel
  rw [ShownAsRecorded, sentOutputs_eq, decode_bridge, hevents] at hshown
  exact absurd hshown (by decide +kernel)

end Prelay.Bridge
