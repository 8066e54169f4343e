import Prelay.ImageBudget

namespace Prelay.ImageBudget

open Json Value

/-- The payload with further items behind those of its input. -/
def withFurtherItems (payload : Value) (more : List Value) : Value :=
  match payload with
  | .object members => .object (mapMember "input" (fun input =>
      match input with
      | .array items => .array (items ++ more)
      | v => v) members)
  | v => v

theorem collectImagesInItems_append (path : List PathSegment) (index : ℕ) (items more : List Value) :
    collectImagesInItems path index (items ++ more) =
      collectImagesInItems path index items ++ collectImagesInItems path (index + items.length) more := by
  induction items generalizing index with
  | nil => rfl
  | cons item items ih =>
    rw [List.cons_append, collectImagesInItems, collectImagesInItems, ih, List.append_assoc, List.length_cons]
    congr 3
    omega

theorem collectImages_further {payload : Value} {items : List Value} (hinput : payload.get "input" = some (.array items))
    (more : List Value) : collectImages payload <+: collectImages (withFurtherItems payload more) := by
  cases payload with
  | object members =>
    rw [withFurtherItems, collectImages, collectImages, hinput, get_mapMember, hinput]
    exact ⟨_, (collectImagesInItems_append [] 0 items more).symm⟩
  | _ => exact nomatch hinput

theorem partsItems_append (items more : List Value) :
    partsItems isInputImage (items ++ more) = partsItems isInputImage items ++ partsItems isInputImage more := by
  induction items with
  | nil => rfl
  | cons item items ih => rw [List.cons_append, partsItems, partsItems, ih, List.append_assoc]

theorem inputImages_further {payload : Value} {items : List Value} (hinput : payload.get "input" = some (.array items))
    (more : List Value) : inputImages payload <+: inputImages (withFurtherItems payload more) := by
  cases payload with
  | object members =>
    rw [withFurtherItems, inputImages, inputImages, hinput, get_mapMember, hinput]
    exact ⟨partsItems isInputImage more, (partsItems_append items more).symm⟩
  | _ => cases hinput

theorem withFurtherItems_normal {payload : Value} (hpayload : payload.Normal) {more : List Value}
    (hmore : ∀ v ∈ more, v.Normal) : (withFurtherItems payload more).Normal := by
  cases payload with
  | object members =>
    apply mapMember_normal hpayload
    intro v hv
    cases v with
    | array items =>
      rw [normal_array] at hv ⊢
      intro w hw
      rcases List.mem_append.mp hw with hw | hw
      · exact hv w hw
      · exact hmore w hw
    | _ => exact hv
  | _ => exact hpayload

theorem keptBytes_le {payload payload' : Value} (h : inputImages payload <+: inputImages payload') (k : ℕ) :
    keptBytes payload k ≤ keptBytes payload' k := by
  obtain ⟨rest, hrest⟩ := h
  rw [keptBytes, keptBytes, ← hrest, List.drop_append, totalBytes, totalBytes, List.map_append, List.sum_append]
  exact Nat.le_add_right _ _

theorem valueAt_withoutImages {payload : Value} (hpayload : payload.Normal) (keepLast : ℕ) {i k : ℕ} (hik : i < k)
    (hk : k ≤ (inputImages payload).length) {slot : ImageSlot} (hslot : (collectImages payload)[i]? = some slot) :
    valueAt (.key "input" :: slot.path) (withoutImages payload keepLast k) = some (placeholder keepLast) := by
  have hlength : (List.replicate k (placeholder keepLast) ++ (inputImages payload).drop k).length =
      (inputImages payload).length := by
    rw [List.length_append, List.length_replicate, List.length_drop]
    omega
  apply valueAt_of_assign
  have hreplace := replaceWithPlaceholder_images hpayload hlength hslot keepLast
  rw [List.set_append_left _ _ (by rwa [List.length_replicate]), List.set_replicate_self] at hreplace
  exact hreplace

/-- What a trimmed request and its continuation have in common: `k` images of the shorter payload are dropped in both. -/
structure StaysDropped (payload new new' : Value) (keepLast k : ℕ) : Prop where
  images : k ≤ (collectImages payload).length
  before : ∀ slot ∈ (collectImages payload).take k,
    valueAt (.key "input" :: slot.path) new = some (placeholder keepLast)
  after : ∀ slot ∈ (collectImages payload).take k,
    valueAt (.key "input" :: slot.path) new' = some (placeholder keepLast)

theorem trimmed_over {payload new : Value} {policy : ImageBudgetPolicy} {report : ImageBudgetReport}
    (h : apply payload policy = .trimmed new report) :
    policy.enabled = true ∧ policy.maxBytes < totalBytes (inputImages payload) := by
  have henabled : policy.enabled = true := by
    by_contra hdisabled
    have hoff : policy.enabled = false := Bool.eq_false_iff.mpr hdisabled
    rw [apply, hoff] at h
    cases h
  refine ⟨henabled, ?_⟩
  by_contra hwithin
  rw [apply_within henabled payload (not_lt.mp hwithin)] at h
  cases h

theorem trimmed_trims {payload new : Value} (hpayload : payload.Normal) {policy : ImageBudgetPolicy}
    {report : ImageBudgetReport} (h : apply payload policy = .trimmed new report) : Trims policy payload new report := by
  obtain ⟨henabled, hover⟩ := trimmed_over h
  rcases apply_over henabled hpayload hover with ⟨-, report', hcannot⟩ | ⟨-, new', report', htrimmed, htrims⟩
  · exact nomatch h.symm.trans hcannot
  · injection h.symm.trans htrimmed with hnew hreport
    rw [hnew, hreport]
    exact htrims

/-- The images that are dropped from a request are dropped from every continuation of it that is sent. -/
theorem images_stay_dropped {payload new : Value} (hpayload : payload.Normal) {items more : List Value}
    (hinput : payload.get "input" = some (.array items)) (hmore : ∀ v ∈ more, v.Normal) {policy : ImageBudgetPolicy}
    {report : ImageBudgetReport} (happly : apply payload policy = .trimmed new report) :
    (∃ report', apply (withFurtherItems payload more) policy = .cannotMeetBudget report') ∨
      ∃ new' report', apply (withFurtherItems payload more) policy = .trimmed new' report' ∧
        report.droppedImages ≤ report'.droppedImages ∧
        StaysDropped payload new new' policy.keepLast report.droppedImages := by
  obtain ⟨henabled, hover⟩ := trimmed_over happly
  have htrims := trimmed_trims hpayload happly
  have hfurther := withFurtherItems_normal hpayload hmore
  have himages := inputImages_further hinput more
  have hover' : policy.maxBytes < totalBytes (inputImages (withFurtherItems payload more)) :=
    hover.trans_le (keptBytes_le himages 0)
  rcases apply_over henabled hfurther hover' with ⟨-, report', hcannot⟩ | ⟨-, new', report', htrimmed, htrims'⟩
  · exact .inl ⟨report', hcannot⟩
  · have hdropped : report.droppedImages ≤ report'.droppedImages := by
      apply htrims.dropped.2
      exact (keptBytes_le himages _).trans htrims'.dropped.1
    have hcount : report.droppedImages ≤ (inputImages payload).length := by
      have hretained := htrims.retained
      omega
    have hcount' : report'.droppedImages ≤ (inputImages (withFurtherItems payload more)).length := by
      have hretained := htrims'.retained
      omega
    refine .inr ⟨new', report', htrimmed, hdropped, by rwa [length_collectImages], ?_, ?_⟩
    · intro slot hslot
      obtain ⟨i, hi, hget⟩ := List.mem_take_iff_getElem.mp hslot
      rw [htrims.replaced]
      apply valueAt_withoutImages hpayload policy.keepLast (i := i) (by omega) hcount
      rw [← hget, List.getElem?_eq_getElem]
    · intro slot hslot
      obtain ⟨i, hi, hget⟩ := List.mem_take_iff_getElem.mp hslot
      obtain ⟨rest, hrest⟩ := collectImages_further hinput more
      rw [htrims'.replaced]
      apply valueAt_withoutImages hfurther policy.keepLast (i := i) (by omega) hcount'
      rw [← hrest, List.getElem?_append_left (by omega), ← hget, List.getElem?_eq_getElem]

def newestImage : Value :=
  .object [("image_url", .string "two"), ("type", .string "input_image")]

/-- The first image does not fit beside the second, and once there is a third one the second is dropped as well. -/
theorem images_stay_dropped_two : ∃ new report new' report', apply twoImages ⟨true, 1, 4⟩ = .trimmed new report ∧
    apply (withFurtherItems twoImages [.string "more", newestImage]) ⟨true, 1, 4⟩ = .trimmed new' report' ∧
    report.droppedImages < report'.droppedImages ∧ StaysDropped twoImages new new' 1 report.droppedImages := by
  have hpayload : twoImages.Normal := by
    rw [Value.Normal]
    rfl
  have hmore : ∀ v ∈ [Value.string "more", newestImage], v.Normal := by
    intro v hv
    rcases List.mem_pair.mp hv with rfl | rfl
    · rw [Value.Normal]
      rfl
    · rw [Value.Normal]
      rfl
  have hfurther := withFurtherItems_normal hpayload hmore
  rcases @apply_over twoImages ⟨true, 1, 4⟩ rfl hpayload (by decide) with ⟨hover, -⟩ | ⟨-, new, report, happly, htrims⟩
  · exact absurd hover (by decide)
  rcases @apply_over _ ⟨true, 1, 4⟩ rfl hfurther (by decide) with ⟨hover, -⟩ | ⟨-, new', report', happly', htrims'⟩
  · exact absurd hover (by decide)
  obtain ⟨report'', hcannot⟩ | ⟨_, _, htrimmed, -, hstays⟩ := images_stay_dropped hpayload rfl hmore happly
  · injection happly'.symm.trans hcannot
  · injection happly'.symm.trans htrimmed with hnew hreport
    subst hnew
    refine ⟨new, report, new', report', happly, happly', ?_, hstays⟩
    have hone : report.droppedImages ≤ 1 := htrims.dropped.2 (show keptBytes twoImages 1 ≤ 4 by decide)
    have htwo : 1 < report'.droppedImages := by
      by_contra hle
      have hkept := htrims'.dropped.1
      have hbefore := keptBytes_antitone (withFurtherItems twoImages [.string "more", newestImage]) (not_lt.mp hle)
      exact absurd (hbefore.trans hkept) (by decide)
    omega

end Prelay.ImageBudget
