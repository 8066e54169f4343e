import Prelay.ThreadLog

namespace Prelay.Rollout

open Json

section numbers

variable {f : Number → Number} (hf : KeepsIntegers f)

theorem eventPhaseOf_mapNumbers (f : Number → Number) (value : Value) :
    eventPhaseOf (value.mapNumbers f) = eventPhaseOf value := by
  cases value with
  | object members =>
    rcases members with _ | ⟨⟨key, v⟩, _ | ⟨m, members⟩⟩
    · rfl
    · cases v <;> simp [Value.mapNumbers, Value.mapNumbersMembers, eventPhaseOf]
    · obtain ⟨k, w⟩ := m
      simp [Value.mapNumbers, Value.mapNumbersMembers, eventPhaseOf]
  | _ => rfl

theorem optionalString_mapNumbers (f : Number → Number) (value : Option Value) :
    optionalString (value.map (Value.mapNumbers f)) = optionalString value := by
  cases value with
  | none => rfl
  | some v => cases v <;> rfl

theorem toolCallOf_mapNumbers (f : Number → Number) (payload : Value) :
    toolCallOf (payload.mapNumbers f) =
      (toolCallOf payload).map (fun t => { t with arguments := t.arguments.mapNumbers f }) := by
  cases payload with
  | object members =>
    have hget := fun key => Value.get_mapNumbers (f := f) key (.object members)
    obtain ⟨ms, hms⟩ : ∃ ms, (Value.object members).mapNumbers f = .object ms := ⟨_, rfl⟩
    rw [hms] at hget ⊢
    simp only [toolCallOf, hget, Option.bind_map, Function.comp_def, eventPhaseOf_mapNumbers, Value.asStr_mapNumbers]
    cases ((Value.object members).get "phase").bind eventPhaseOf <;>
      cases ((Value.object members).get "tool_call_id").bind Value.asStr <;>
      cases ((Value.object members).get "name").bind Value.asStr <;>
      cases (Value.object members).get "arguments" <;> rfl
  | array items =>
    rcases items with _ | ⟨a, _ | ⟨b, _ | ⟨c, _ | ⟨d, _ | ⟨e, items⟩⟩⟩⟩⟩
    case cons.cons.cons.cons.nil =>
      simp only [toolCallOf, Value.mapNumbers, Value.mapNumbersItems, eventPhaseOf_mapNumbers, Value.asStr_mapNumbers]
      cases eventPhaseOf a <;> cases b.asStr <;> cases c.asStr <;> rfl
    all_goals rfl
  | _ => rfl

theorem toolResultOf_mapNumbers (f : Number → Number) (payload : Value) :
    toolResultOf (payload.mapNumbers f) =
      (toolResultOf payload).map (fun t => { t with content := t.content.mapNumbers f }) := by
  cases payload with
  | object members =>
    have hget := fun key => Value.get_mapNumbers (f := f) key (.object members)
    obtain ⟨ms, hms⟩ : ∃ ms, (Value.object members).mapNumbers f = .object ms := ⟨_, rfl⟩
    rw [hms] at hget ⊢
    simp only [toolResultOf, hget, Option.bind_map, Function.comp_def, eventPhaseOf_mapNumbers, Value.asStr_mapNumbers]
    cases ((Value.object members).get "phase").bind eventPhaseOf <;>
      cases ((Value.object members).get "tool_call_id").bind Value.asStr <;>
      cases (Value.object members).get "content" <;> rfl
  | array items =>
    rcases items with _ | ⟨a, _ | ⟨b, _ | ⟨c, _ | ⟨d, items⟩⟩⟩⟩
    case cons.cons.cons.nil =>
      simp only [toolResultOf, Value.mapNumbers, Value.mapNumbersItems, eventPhaseOf_mapNumbers, Value.asStr_mapNumbers]
      cases eventPhaseOf a <;> cases b.asStr <;> rfl
    all_goals rfl
  | _ => rfl

theorem storedItemId_mapNumbers (f : Number → Number) (eventType : String) (payload : Value) :
    storedItemId eventType (payload.mapNumbers f) = storedItemId eventType payload := by
  unfold storedItemId
  rw [toolCallOf_mapNumbers, toolResultOf_mapNumbers]
  cases toolCallOf payload <;> cases toolResultOf payload <;> rfl

include hf

theorem windowStateOf_mapNumbers (payload : Value) : windowStateOf (payload.mapNumbers f) = windowStateOf payload := by
  have hevent : windowEventOf (payload.mapNumbers f) = windowEventOf payload := by
    cases payload with
    | object members =>
      have hget := fun key => Value.get_mapNumbers (f := f) key (.object members)
      obtain ⟨ms, hms⟩ : ∃ ms, (Value.object members).mapNumbers f = .object ms := ⟨_, rfl⟩
      rw [hms] at hget ⊢
      simp only [windowEventOf, hget, optionalString_mapNumbers, Option.bind_map, Function.comp_def,
        Value.asU64_mapNumbers hf]
    | array items =>
      rcases items with _ | ⟨a, _ | ⟨b, _ | ⟨c, items⟩⟩⟩
      case cons.cons.nil =>
        have ha := optionalString_mapNumbers f (some a)
        rw [Option.map_some] at ha
        simp only [windowEventOf, Value.mapNumbers, Value.mapNumbersItems, ha, Value.asU64_mapNumbers hf]
      all_goals rfl
    | _ => rfl
  rw [windowStateOf, hevent, windowStateOf]

end numbers

section stored

variable {env : Env}

theorem storedPayload_flat {members : List (String × Value)} {n : ℕ} (h : (Value.object members).Flat n) :
    (storedPayload env members).Flat n :=
  h.normalize.mapStrings _

theorem flat_optionalMember {α : Type} {encode : α → Value} {n : ℕ} (h : ∀ a, (encode a).Flat n) (key : String)
    (a : Option α) : ∀ m ∈ optionalMember key encode a, m.2.Flat n := by
  intro m hm
  obtain ⟨b, -, rfl⟩ := List.mem_map.mp hm
  exact h b

theorem control_flat (env : Env) (body : ControlEventBody) : (storedPayload env body.members).Flat 2 := by
  apply storedPayload_flat
  apply Value.flat_object
  cases body with
  | window window =>
    simp only [ControlEventBody.members, WindowEvent.members, List.forall_mem_append, List.forall_mem_singleton]
    exact ⟨flat_optionalMember Value.flat_string _ _, Value.flat_nat _⟩
  | turn turn => simp [ControlEventBody.members, TurnEvent.members, Value.flat_string]
  | context refs =>
    simp only [ControlEventBody.members, List.forall_mem_singleton]
    apply Value.flat_array
    intro v hv
    obtain ⟨ref, -, rfl⟩ := List.mem_map.mp hv
    exact Value.flat_nat ref
  | turnEnd turnEnd =>
    simp only [ControlEventBody.members, TurnEndEvent.members, List.forall_mem_append, List.forall_mem_singleton]
    exact ⟨⟨Value.flat_string _, flat_optionalMember Value.flat_nat _ _⟩, flat_optionalMember Value.flat_string _ _⟩

/-- A draft whose line is nested no deeper than the reader allows. -/
def Shallow (env : Env) (draft : ContentDraft) : Prop :=
  (storedPayload env draft.body.members).depth + 1 < recursionLimit

/-- A draft whose line gives back the payload that is written. -/
structure ReadsBack (env : Env) (draft : ContentDraft) : Prop where
  shallow : Shallow env draft
  kept : (storedPayload env draft.body.members).mapNumbers env.serde.reread = storedPayload env draft.body.members

def readBack (env : Env) : Set ContentDraft := {draft | ReadsBack env draft}

instance (env : Env) (draft : ContentDraft) : Decidable (Shallow env draft) := inferInstanceAs (Decidable (_ < _))

instance (env : Env) (draft : ContentDraft) : Decidable (ReadsBack env draft) :=
  decidable_of_iff (Shallow env draft ∧
    (storedPayload env draft.body.members).mapNumbers env.serde.reread = storedPayload env draft.body.members)
    ⟨fun h => ⟨h.1, h.2⟩, fun h => ⟨h.shallow, h.kept⟩⟩

end stored

end Prelay.Rollout
