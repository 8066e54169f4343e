import Prelay.CachedState

namespace Prelay.Rollout

open Json Redaction

theorem utf8_injective {s t : String} (h : Str.utf8 s = Str.utf8 t) : s = t := by
  have hs := Str.fromUtf8_utf8 s
  rw [h, Str.fromUtf8_utf8] at hs
  exact (Option.some.inj hs).symm

theorem comparisonPayload_get {key : String} (hkey : key ≠ "phase") (payload : Value) :
    (comparisonPayload payload).get key = payload.get key := by
  cases payload with
  | object members =>
    simp only [comparisonPayload, Value.get, removeMember, List.find?_filter]
    congr 1
    apply congrFun
    congr 1
    funext m
    by_cases hm : m.1 = key
    · simp [hm, hkey]
    · simp [hm]
  | _ => rfl

theorem comparisonPayload_normal {payload : Value} (h : payload.Normal) : (comparisonPayload payload).Normal := by
  cases payload with
  | object members =>
    obtain ⟨hsorted, hmembers⟩ := Value.normal_object_iff.mp h
    apply Value.normal_object_iff.mpr
    refine ⟨?_, fun m hm => hmembers m (List.mem_of_mem_filter hm)⟩
    exact hsorted.sublist (List.filter_sublist.map _)
  | _ => exact h

theorem comparisonPayload_depth_le (payload : Value) : (comparisonPayload payload).depth ≤ payload.depth := by
  cases payload with
  | object members =>
    apply Value.depth_object_le.mpr
    exact fun m hm => Value.depth_object_le.mp le_rfl m (List.mem_of_mem_filter hm)
  | _ => exact le_rfl

theorem comparisonPayload_mapNumbers (f : Number → Number) (payload : Value) :
    comparisonPayload (payload.mapNumbers f) = (comparisonPayload payload).mapNumbers f := by
  cases payload with
  | object members =>
    simp only [Value.mapNumbers, Value.mapNumbersMembers_eq, comparisonPayload, removeMember, List.filter_map,
      Function.comp_def]
  | _ => rfl

section identity

variable {env : Env}

theorem canonical_depth_le (eventType : String) (payload : Value) :
    (Value.array [.string eventType, comparisonPayload payload]).depth ≤ payload.depth + 1 := by
  apply Value.depth_array_le.mpr
  simp only [List.forall_mem_cons, Value.depth, Nat.zero_le, true_and, List.not_mem_nil, false_implies, implies_true,
    and_true]
  exact comparisonPayload_depth_le payload

/-- A canonical form holds the type of an event and its payload without the phase, the floats rounded once more. -/
theorem canonicalEvent_inj (hserde : env.serde.Lawful) {eventType eventType' : String} {payload payload' : Value}
    (hnormal : payload.Normal) (hnormal' : payload'.Normal) (hdepth : payload.depth + 1 < recursionLimit)
    (h : canonicalEvent env eventType payload = canonicalEvent env eventType' payload') :
    eventType = eventType' ∧ comparisonPayload (payload.mapNumbers env.serde.reread) =
      comparisonPayload (payload'.mapNumbers env.serde.reread) := by
  have hread := hserde.toStr_inj ((canonical_depth_le eventType payload).trans_lt hdepth) (utf8_injective h)
  simp only [Value.normalize, Value.normalizeItems, Value.mapNumbers, Value.mapNumbersItems, Value.array.injEq,
    List.cons.injEq, Value.string.injEq, and_true] at hread
  rwa [comparisonPayload_normal hnormal, comparisonPayload_normal hnormal', ← comparisonPayload_mapNumbers,
    ← comparisonPayload_mapNumbers] at hread

def draftCanonical (env : Env) (draft : ContentDraft) : Bytes :=
  canonicalEvent env draft.body.eventType (storedPayload env draft.body.members)

/-- No two drafts with different canonical forms have one digest. -/
def NoCollision (env : Env) (drafts : Set ContentDraft) : Prop :=
  ∀ a ∈ drafts, ∀ b ∈ drafts, env.sha256 (draftCanonical env a) = env.sha256 (draftCanonical env b) →
    draftCanonical env a = draftCanonical env b

theorem same_content {drafts : Set ContentDraft} (hserde : env.serde.Lawful)
    (hback : ∀ draft ∈ drafts, ReadsBack env draft) (hdrafts : NoCollision env drafts) {a b : ContentDraft}
    (ha : a ∈ drafts) (hb : b ∈ drafts)
    (h : eventIdentity env a.body.eventType (storedPayload env a.body.members) =
      eventIdentity env b.body.eventType (storedPayload env b.body.members)) :
    a.body.eventType = b.body.eventType ∧
      comparisonPayload (storedPayload env a.body.members) = comparisonPayload (storedPayload env b.body.members) := by
  have hsame := canonicalEvent_inj hserde (storedPayload_normal env _) (storedPayload_normal env _) (hback a ha).shallow
    (hdrafts a ha b hb h)
  rwa [(hback a ha).kept, (hback b hb).kept] at hsame

/-- The canonical forms of drafts as they are written and as they are read again. -/
def canonicalForms (env : Env) (drafts : Set ContentDraft) : Set Bytes :=
  {form | ∃ draft ∈ drafts, form = draftCanonical env draft ∨
    form = canonicalEvent env draft.body.eventType ((storedPayload env draft.body.members).mapNumbers env.serde.reread)}

theorem identity_ne {drafts : Set ContentDraft} (hserde : env.serde.Lawful)
    (hcollision : Set.InjOn env.sha256 (canonicalForms env drafts)) {a b : ContentDraft} (ha : a ∈ drafts)
    (hb : b ∈ drafts) (hshallow : Shallow env b) (htype : b.body.eventType ≠ a.body.eventType) :
    eventIdentity env a.body.eventType (storedPayload env a.body.members) ≠
        eventIdentity env b.body.eventType (storedPayload env b.body.members) ∧
      eventIdentity env a.body.eventType ((storedPayload env a.body.members).mapNumbers env.serde.reread) ≠
        eventIdentity env b.body.eventType (storedPayload env b.body.members) := by
  have hdiffer : ∀ payload : Value, payload.Normal →
      canonicalEvent env a.body.eventType payload ∈ canonicalForms env drafts →
      eventIdentity env a.body.eventType payload ≠
        eventIdentity env b.body.eventType (storedPayload env b.body.members) := by
    intro payload hnormal hmem heq
    have hforms := hcollision hmem ⟨b, hb, .inl rfl⟩ heq
    exact htype (canonicalEvent_inj hserde (storedPayload_normal env _) hnormal hshallow hforms.symm).1
  constructor
  · exact hdiffer _ (storedPayload_normal env _) ⟨a, ha, .inl rfl⟩
  · exact hdiffer _ (Value.mapNumbers_normal (storedPayload_normal env _)) ⟨a, ha, .inr rfl⟩

end identity

end Prelay.Rollout
