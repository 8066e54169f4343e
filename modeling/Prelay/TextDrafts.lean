import Prelay.Conversation
import Prelay.RereadEvents

namespace Prelay.Rollout

open Json

def textTypes : List String := ["message", "reasoning"]

/-- A draft whose message is a text or parts that hold texts, as in every draft that the recording makes. -/
def HoldsTexts (draft : ContentDraft) : Prop := ∀ message, draft.body = .message message → message.content.Flat 2

theorem holdsTexts_of_type {draft : ContentDraft} (h : draft.body.eventType ≠ "message") : HoldsTexts draft := by
  intro message hmessage
  rw [hmessage] at h
  exact absurd rfl h

theorem HoldsTexts.flat {draft : ContentDraft} (h : HoldsTexts draft) (htype : draft.body.eventType ∈ textTypes) :
    (Value.object draft.body.members).Flat 3 := by
  obtain ⟨id, body⟩ := draft
  apply Value.flat_object
  cases body with
  | message message =>
    have hcontent : message.content.Flat 2 := h message rfl
    simp only [ContentEventBody.members, ConversationMessage.members, List.forall_mem_append, List.forall_mem_cons]
    exact ⟨⟨⟨Value.flat_string _, Value.flat_string _, by simp⟩, flat_optionalMember Value.flat_string _ _⟩, hcontent,
      by simp⟩
  | reasoning reasoning =>
    simp only [ContentEventBody.members, ConversationReasoning.members, List.forall_mem_append,
      List.forall_mem_singleton]
    exact ⟨⟨Value.flat_string _, flat_optionalMember Value.flat_string _ _⟩, flat_optionalMember Value.flat_string _ _⟩
  | toolCall toolCall => simp [textTypes, ContentEventBody.eventType] at htype
  | toolResult toolResult => simp [textTypes, ContentEventBody.eventType] at htype
  | usage usage => simp [textTypes, ContentEventBody.eventType] at htype
  | error error => simp [textTypes, ContentEventBody.eventType] at htype

theorem HoldsTexts.readsBack {env : Env} (hserde : env.serde.Lawful) {draft : ContentDraft} (h : HoldsTexts draft)
    (htype : draft.body.eventType ∈ textTypes) : ReadsBack env draft := by
  have hflat : (storedPayload env draft.body.members).Flat 3 := storedPayload_flat (h.flat htype)
  constructor
  · exact (Nat.add_le_add_right hflat.depth_le 1).trans_lt (by decide)
  · exact hflat.kept _ hserde.keepsIntegers

end Prelay.Rollout

namespace Prelay.Conversation

open Json Rollout

section texts

variable {env : ConversationEnv} {draft : ContentDraft}

theorem textPart_flat (partType text : String) :
    (Value.json [("type", .string partType), ("text", .string text)]).Flat 1 := by
  apply Value.Stable.toFlat
  apply Value.stable_json
  simp [Value.stable_string]

theorem omittedMedia_flat (partType : String) : (omittedMedia partType).Flat 1 := by
  apply Value.Stable.toFlat
  apply Value.stable_json
  simp [Value.stable_string, Value.stable_bool]

theorem contentPart_flat {part shown : Value} (h : contentPart env part = some shown) : shown.Flat 1 := by
  simp only [contentPart] at h
  split_ifs at h
  · obtain rfl := Option.some.inj h
    exact omittedMedia_flat _
  · obtain ⟨text, -, rfl⟩ := Option.map_eq_some_iff.mp h
    exact textPart_flat _ _
  · obtain ⟨text, -, rfl⟩ := Option.map_eq_some_iff.mp h
    exact textPart_flat _ _

theorem messageContent_flat {value content : Value} (h : messageContent env value = some content) : content.Flat 2 := by
  cases value with
  | string text =>
    simp only [messageContent] at h
    split_ifs at h
    obtain rfl := Option.some.inj h
    exact Value.flat_string _
  | array parts =>
    simp only [messageContent] at h
    split_ifs at h
    split at h
    · obtain rfl := Option.some.inj h
      exact Value.flat_string _
    · obtain rfl := Option.some.inj h
      apply Value.flat_array
      intro part hpart
      obtain ⟨shown, -, hshown⟩ := List.mem_filterMap.mp hpart
      exact contentPart_flat hshown
  | null => simp [messageContent] at h
  | bool b => simp [messageContent] at h
  | number n => simp [messageContent] at h
  | object members => simp [messageContent] at h

theorem withRefusal_flat {content : Option Value} (h : ∀ value, content = some value → value.Flat 2) (refusal : String) :
    (withRefusal env content refusal).Flat 2 := by
  have hrefusal := textPart_flat "refusal" (redact env refusal)
  unfold withRefusal
  split
  · next parts =>
    have hparts : ∀ part ∈ parts, part.Flat 1 := by
      intro part hpart
      have harray := h _ rfl
      refine ⟨Value.depth_array_le.mp harray.depth_le part hpart, fun f hf => ?_⟩
      have hkept := harray.kept f hf
      rw [Value.mapNumbers, Value.mapNumbersItems_eq, Value.array.injEq] at hkept
      exact map_eq_self_iff.mp hkept part hpart
    apply Value.flat_array
    intro part hpart
    rcases List.mem_append.mp hpart with hpart | hpart
    · exact hparts part hpart
    · rw [List.mem_singleton.mp hpart]
      exact hrefusal
  · next text =>
    apply Value.flat_array
    simp only [List.forall_mem_cons, List.not_mem_nil, false_implies, implies_true, and_true]
    exact ⟨textPart_flat _ _, hrefusal⟩
  · exact h _ rfl
  · apply Value.flat_array
    exact List.forall_mem_singleton.mpr hrefusal

theorem withItemId_body (draft : ContentDraft) (item : Value) : (withItemId draft item).body = draft.body := by
  unfold withItemId
  split <;> rfl

theorem messageEvent_texts {item : Value} {phase : EventPhase} (h : messageEvent env item phase = some draft) :
    HoldsTexts draft := by
  simp only [messageEvent, Option.bind_eq_bind, Option.bind_eq_some_iff, Option.some.injEq] at h
  obtain ⟨role, -, content, ⟨value, -, hcontent⟩, rfl⟩ := h
  intro message hmessage
  rw [withItemId_body] at hmessage
  obtain rfl := ContentEventBody.message.inj hmessage
  exact messageContent_flat hcontent

theorem responseItem_texts {item : Value} {phase : EventPhase} (h : draft ∈ responseItem env item phase) :
    HoldsTexts draft := by
  simp only [responseItem] at h
  split_ifs at h
  · exact messageEvent_texts (Option.mem_toList.mp h)
  · have hevent : reasoningEvent env item phase = some draft := Option.mem_toList.mp h
    simp only [reasoningEvent] at hevent
    split_ifs at hevent
    obtain rfl := Option.some.inj hevent
    apply holdsTexts_of_type
    simp [withItemId_body, ContentEventBody.eventType]
  · exact absurd h List.not_mem_nil
  · have hevent : toolResultEvent env item phase = some draft := Option.mem_toList.mp h
    obtain rfl := Option.some.inj hevent
    apply holdsTexts_of_type
    simp [withItemId_body, ContentEventBody.eventType]
  · have hevent : toolCallEvent env item phase = some draft := Option.mem_toList.mp h
    simp only [toolCallEvent, Option.bind_eq_bind, Option.bind_eq_some_iff, Option.some.injEq] at hevent
    obtain ⟨itemType, -, rfl⟩ := hevent
    apply holdsTexts_of_type
    simp [withItemId_body, ContentEventBody.eventType]
  · exact absurd h List.not_mem_nil

theorem chatMessage_texts {phase : EventPhase} {message : Value} (h : draft ∈ chatMessage env phase message) :
    HoldsTexts draft := by
  simp only [chatMessage, List.mem_append, List.mem_map, Option.mem_toList] at h
  rcases h with (⟨body, hbody, rfl⟩ | ⟨text, -, rfl⟩) | ⟨call, -, rfl⟩
  · obtain ⟨content, hcontent, rfl⟩ := Option.map_eq_some_iff.mp hbody
    have hflat : content.Flat 2 := by
      split at hcontent
      · obtain rfl := Option.some.inj hcontent
        apply withRefusal_flat
        intro value hvalue
        obtain ⟨source, -, hsource⟩ := Option.bind_eq_some_iff.mp hvalue
        exact messageContent_flat hsource
      · obtain ⟨source, -, hsource⟩ := Option.bind_eq_some_iff.mp hcontent
        exact messageContent_flat hsource
    intro message hmessage
    split at hmessage
    · cases hmessage
    · obtain rfl := ContentEventBody.message.inj hmessage
      exact hflat
  · exact holdsTexts_of_type (by simp [ContentEventBody.eventType])
  · exact holdsTexts_of_type (by simp [chatToolCall, ContentEventBody.eventType])

theorem newToolCalls_texts {seen : List String} {calls : List (String × String × String)}
    (h : draft ∈ newToolCalls seen calls) : HoldsTexts draft := by
  induction calls generalizing seen with
  | nil => exact absurd h List.not_mem_nil
  | cons call calls ih =>
    rw [newToolCalls] at h
    split_ifs at h
    · exact ih h
    · rcases List.mem_cons.mp h with rfl | h
      · exact holdsTexts_of_type (by simp [ContentEventBody.eventType])
      · exact ih h

theorem usageEvent_texts {usage : Option Value} (h : usageEvent usage = some draft) : HoldsTexts draft := by
  obtain ⟨value, -, hevent⟩ := Option.bind_eq_some_iff.mp h
  dsimp only at hevent
  split_ifs at hevent
  obtain rfl := Option.some.inj hevent
  exact holdsTexts_of_type (by simp [ContentEventBody.eventType])

theorem chatRequest_texts {payload : Value} (h : draft ∈ chatRequest env payload) : HoldsTexts draft := by
  obtain ⟨message, -, hmessage⟩ := List.mem_flatMap.mp h
  exact chatMessage_texts hmessage

theorem chatResponse_texts {payload : Value} (h : draft ∈ chatResponse env payload) : HoldsTexts draft := by
  rcases List.mem_append.mp h with h | h
  · obtain ⟨choice, -, hchoice⟩ := List.mem_flatMap.mp h
    cases hmessage : choice.get "message" with
    | none =>
      rw [hmessage] at hchoice
      exact absurd hchoice List.not_mem_nil
    | some message =>
      rw [hmessage] at hchoice
      exact chatMessage_texts hchoice
  · exact usageEvent_texts (Option.mem_toList.mp h)

theorem streamSnapshot_texts {snapshot : Bridge.StreamStatsSnapshot} (h : draft ∈ streamSnapshot env snapshot) :
    HoldsTexts draft := by
  simp only [streamSnapshot, List.mem_append] at h
  rcases h with (((h | h) | h) | h) | h
  · obtain ⟨item, -, hitem⟩ := List.mem_flatMap.mp h
    exact responseItem_texts hitem
  · split_ifs at h
    · obtain rfl := List.mem_singleton.mp h
      intro message hmessage
      obtain rfl := ContentEventBody.message.inj hmessage
      exact Value.flat_string _
    · exact absurd h List.not_mem_nil
  · split_ifs at h
    · obtain rfl := List.mem_singleton.mp h
      exact holdsTexts_of_type (by simp [ContentEventBody.eventType])
    · exact absurd h List.not_mem_nil
  · exact newToolCalls_texts h
  · split_ifs at h
    · obtain rfl := List.mem_singleton.mp h
      exact holdsTexts_of_type (by simp [ContentEventBody.eventType])
    · exact absurd h List.not_mem_nil

end texts

end Prelay.Conversation
