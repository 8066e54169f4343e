import Mathlib.Algebra.GroupWithZero.Nat
import Mathlib.Order.Bounds.Basic
import Prelay.JsonParts

namespace Prelay.ImageBudget

open Json Value

structure ImageBudgetPolicy where
  enabled : Bool
  keepLast : ℕ
  maxBytes : ℕ

structure ImageBudgetReport where
  totalBytes : ℕ
  remainingBytes : ℕ
  droppedImages : ℕ
  deriving DecidableEq

inductive ImageBudgetOutcome where
  | disabled
  | withinBudget (report : ImageBudgetReport)
  | trimmed (payload : Value) (report : ImageBudgetReport)
  | cannotMeetBudget (report : ImageBudgetReport)
  deriving DecidableEq

structure ImageSlot where
  path : List PathSegment
  bytes : ℕ

def isInputImage (members : List (String × Value)) : Bool :=
  ((Value.object members).get "type").bind asStr = some "input_image"

def imageBodyBytes (part : Value) : ℕ :=
  match part.get "image_url" with
  | some (.string url) => url.utf8ByteSize
  | some (.object members) => (((Value.object members).get "url").bind asStr).elim 0 String.utf8ByteSize
  | _ => 0

mutual

def collectImagesInValue (path : List PathSegment) : Value → List ImageSlot
  | .object members =>
    if isInputImage members then [⟨path, imageBodyBytes (.object members)⟩] else collectImagesInMembers path members
  | .array items => collectImagesInItems path 0 items
  | _ => []

def collectImagesInMembers (path : List PathSegment) : List (String × Value) → List ImageSlot
  | [] => []
  | (key, child) :: members => collectImagesInValue (path ++ [.key key]) child ++ collectImagesInMembers path members

def collectImagesInItems (path : List PathSegment) (index : ℕ) : List Value → List ImageSlot
  | [] => []
  | child :: items => collectImagesInValue (path ++ [.index index]) child ++ collectImagesInItems path (index + 1) items

end

def collectImages (payload : Value) : List ImageSlot :=
  match payload.get "input" with
  | some input => collectImagesInValue [] input
  | none => []

def placeholderText (keepLast : ℕ) : String :=
  "历史图片已被服务端图片预算省略（仅保留最近 " ++ toString keepLast ++ " 张图片）"

def placeholder (keepLast : ℕ) : Value :=
  .json [("type", .string "input_text"), ("text", .string (placeholderText keepLast))]

/-- `none` where a step of the path is missing; the payload is then as it was. -/
def replaceWithPlaceholder (payload : Value) (slot : ImageSlot) (keepLast : ℕ) : Option Value :=
  assign (placeholder keepLast) (.key "input" :: slot.path) payload

structure Trimming where
  pruned : Value
  remainingBytes : ℕ
  dropped : ℕ

def dropImages (policy : ImageBudgetPolicy) : List ImageSlot → Trimming → Trimming
  | [], t => t
  | image :: images, t =>
    if t.remainingBytes ≤ policy.maxBytes then t
    else match replaceWithPlaceholder t.pruned image policy.keepLast with
      | none => dropImages policy images t
      | some pruned => dropImages policy images ⟨pruned, t.remainingBytes - image.bytes, t.dropped + 1⟩

def apply (payload : Value) (policy : ImageBudgetPolicy) : ImageBudgetOutcome :=
  if !policy.enabled then .disabled
  else
    let images := collectImages payload
    let totalBytes := (images.map ImageSlot.bytes).sum
    let report := ImageBudgetReport.mk totalBytes
    if totalBytes ≤ policy.maxBytes then .withinBudget (report totalBytes 0)
    else
      let droppable := images.length - policy.keepLast
      if droppable = 0 then .cannotMeetBudget (report totalBytes 0)
      else
        let t := dropImages policy (images.take droppable) ⟨payload, totalBytes, 0⟩
        if t.dropped = 0 ∨ policy.maxBytes < t.remainingBytes then
          .cannotMeetBudget (report t.remainingBytes t.dropped)
        else .trimmed t.pruned (report t.remainingBytes t.dropped)

def inputImages (payload : Value) : List Value := ((payload.get "input").map (parts isInputImage)).getD []

def withImages (payload : Value) (images : List Value) : Value :=
  match payload with
  | .object members => .object (mapMember "input" (fun input => fill isInputImage input images) members)
  | v => v

def totalBytes (images : List Value) : ℕ := (images.map imageBodyBytes).sum

section collect

mutual

theorem collectImagesInValue_eq (path : List PathSegment) (v : Value) : collectImagesInValue path v =
    List.zipWith (fun rest part => ⟨path ++ rest, imageBodyBytes part⟩) (paths isInputImage v) (parts isInputImage v) := by
  cases v with
  | object members =>
    rw [collectImagesInValue, paths, parts]
    split_ifs
    · simp
    · exact collectImagesInMembers_eq path members
  | array items => exact collectImagesInItems_eq path 0 items
  | _ => rfl

theorem collectImagesInMembers_eq (path : List PathSegment) (members : List (String × Value)) :
    collectImagesInMembers path members = List.zipWith (fun rest part => ⟨path ++ rest, imageBodyBytes part⟩)
      (pathsMembers isInputImage members) (partsMembers isInputImage members) := by
  cases members with
  | nil => rfl
  | cons m ms =>
    obtain ⟨k, v⟩ := m
    rw [collectImagesInMembers, pathsMembers, partsMembers, collectImagesInValue_eq, collectImagesInMembers_eq,
      List.zipWith_append (by rw [List.length_map, length_paths]), List.zipWith_map_left]
    simp

theorem collectImagesInItems_eq (path : List PathSegment) (index : ℕ) (items : List Value) :
    collectImagesInItems path index items = List.zipWith (fun rest part => ⟨path ++ rest, imageBodyBytes part⟩)
      (pathsItems isInputImage index items) (partsItems isInputImage items) := by
  cases items with
  | nil => rfl
  | cons v vs =>
    rw [collectImagesInItems, pathsItems, partsItems, collectImagesInValue_eq, collectImagesInItems_eq,
      List.zipWith_append (by rw [List.length_map, length_paths]), List.zipWith_map_left]
    simp

end

theorem collectImages_map (payload : Value) :
    (collectImages payload).map ImageSlot.bytes = (inputImages payload).map imageBodyBytes := by
  unfold collectImages inputImages
  cases payload.get "input" with
  | none => rfl
  | some input =>
    dsimp only
    rw [collectImagesInValue_eq, List.map_zipWith, Option.map_some, Option.getD_some]
    apply List.ext_getElem
    · simp [length_paths]
    · intro i hi hi'
      simp

theorem length_collectImages (payload : Value) : (collectImages payload).length = (inputImages payload).length := by
  have hlength := congrArg List.length (collectImages_map payload)
  rwa [List.length_map, List.length_map] at hlength

theorem replaceWithPlaceholder_images {payload : Value} (hpayload : payload.Normal) {images : List Value}
    (himages : images.length = (inputImages payload).length) {j : ℕ} {slot : ImageSlot}
    (hslot : (collectImages payload)[j]? = some slot) (keepLast : ℕ) :
    replaceWithPlaceholder (withImages payload images) slot keepLast =
      some (withImages payload (images.set j (placeholder keepLast))) := by
  cases payload with
  | object members =>
    unfold collectImages at hslot
    unfold inputImages at himages
    cases hinput : (Value.object members).get "input" with
    | none =>
      rw [hinput] at hslot
      exact nomatch hslot
    | some input =>
      rw [hinput] at hslot himages
      dsimp only at hslot
      rw [collectImagesInValue_eq, List.getElem?_zipWith] at hslot
      cases hpath : (paths isInputImage input)[j]? with
      | none =>
        rw [hpath] at hslot
        exact nomatch hslot
      | some path =>
        have hrest : slot.path = path := by
          rw [hpath] at hslot
          cases hpart : (parts isInputImage input)[j]? with
          | none =>
            rw [hpart] at hslot
            exact nomatch hslot
          | some part =>
            rw [hpart] at hslot
            obtain rfl := Option.some.inj hslot
            rfl
        have hfill := assign_fill (placeholder keepLast) input (normal_of_get hpayload hinput) himages hpath
        have hmember := @assignMember_mapMember _ _ (normal_object hpayload).1 _ hinput _
          (fun input => fill isInputImage input images)
          (fun input => fill isInputImage input (images.set j (placeholder keepLast))) hfill
        rw [replaceWithPlaceholder, hrest, withImages, withImages, assign, hmember]
        rfl
  | _ => exact nomatch hslot

theorem withImages_inputImages {payload : Value} (hpayload : payload.Normal) :
    withImages payload (inputImages payload) = payload := by
  cases payload with
  | object members =>
    rw [withImages, mapMember_eq_self (normal_object hpayload).1]
    intro input hinput
    rw [inputImages, hinput]
    exact fill_parts input
  | _ => rfl

theorem isInputImage_readsAtoms : ReadsAtoms isInputImage := by
  intro ms ms' h
  unfold isInputImage
  rw [asStr_of_shape h]

theorem inputImages_withImages {payload : Value} {images : List Value}
    (himages : images.length = (inputImages payload).length) (hcomposite : ∀ w ∈ images, w.isComposite = true) :
    inputImages (withImages payload images) = images.flatMap (parts isInputImage) := by
  unfold inputImages at himages ⊢
  cases payload with
  | object members =>
    rw [withImages, get_mapMember]
    cases hinput : (Value.object members).get "input" with
    | none =>
      rw [hinput] at himages
      obtain rfl := List.length_eq_zero_iff.mp himages
      rfl
    | some input =>
      rw [hinput] at himages
      exact parts_fill isInputImage_readsAtoms input himages hcomposite
  | _ =>
    obtain rfl := List.length_eq_zero_iff.mp himages
    rfl

theorem mem_inputImages {payload w : Value} (h : w ∈ inputImages payload) :
    parts isInputImage w = [w] ∧ w.isComposite = true := by
  unfold inputImages at h
  cases hinput : payload.get "input" with
  | none =>
    rw [hinput] at h
    exact nomatch h
  | some input =>
    rw [hinput] at h
    exact ⟨parts_of_mem h, isComposite_of_mem h⟩

theorem parts_placeholder (keepLast : ℕ) :
    parts isInputImage (placeholder keepLast) = [] ∧ (placeholder keepLast).isComposite = true := by
  have horder : "text" < "type" := by decide
  have hmembers : placeholder keepLast =
      .object [("text", .string (placeholderText keepLast)), ("type", .string "input_text")] := by
    simp [placeholder, json, collectMembers, insertMember, horder]
  have hpart : isInputImage [("text", .string (placeholderText keepLast)), ("type", .string "input_text")] = false := by
    simp [isInputImage, Value.get, asStr]
  rw [hmembers, parts, if_neg (by simp [hpart])]
  exact ⟨rfl, rfl⟩

end collect

section trim

variable {payload : Value} {policy : ImageBudgetPolicy}

def keptBytes (payload : Value) (k : ℕ) : ℕ := totalBytes ((inputImages payload).drop k)

def withoutImages (payload : Value) (keepLast k : ℕ) : Value :=
  withImages payload (List.replicate k (placeholder keepLast) ++ (inputImages payload).drop k)

theorem set_placeholder {images : List Value} {k : ℕ} (h : k < images.length) (new : Value) :
    (List.replicate k new ++ images.drop k).set k new = List.replicate (k + 1) new ++ images.drop (k + 1) := by
  rw [List.set_append_right _ _ (by rw [List.length_replicate]), List.length_replicate, Nat.sub_self,
    List.drop_eq_getElem_cons h, List.set_cons_zero, List.replicate_succ', List.append_assoc]
  rfl

theorem replaceWithPlaceholder_first (hpayload : payload.Normal) {k : ℕ} {slot : ImageSlot}
    (hslot : (collectImages payload)[k]? = some slot) (keepLast : ℕ) :
    replaceWithPlaceholder (withoutImages payload keepLast k) slot keepLast =
      some (withoutImages payload keepLast (k + 1)) := by
  have hlt : k < (inputImages payload).length := by
    rw [← length_collectImages]
    exact (List.getElem?_eq_some_iff.mp hslot).1
  have hlength : (List.replicate k (placeholder keepLast) ++ (inputImages payload).drop k).length =
      (inputImages payload).length := by
    rw [List.length_append, List.length_replicate, List.length_drop]
    omega
  rw [withoutImages, replaceWithPlaceholder_images hpayload hlength hslot, set_placeholder hlt]
  rfl

theorem keptBytes_succ {k : ℕ} {slot : ImageSlot} (hslot : (collectImages payload)[k]? = some slot) :
    keptBytes payload k = slot.bytes + keptBytes payload (k + 1) := by
  have hbytes : ((inputImages payload).map imageBodyBytes)[k]? = some slot.bytes := by
    rw [← collectImages_map, List.getElem?_map, hslot]
    rfl
  obtain ⟨hlt, hget⟩ := List.getElem?_eq_some_iff.mp hbytes
  unfold keptBytes totalBytes
  rw [List.map_drop, List.map_drop, List.drop_eq_getElem_cons hlt, List.sum_cons, hget]

theorem dropImages_spec (hpayload : payload.Normal) (n : ℕ) (hn : n ≤ (collectImages payload).length) (k : ℕ)
    (hk : k ≤ n) :
    ∃ m, k ≤ m ∧ m ≤ n ∧ (∀ i, k ≤ i → i < m → policy.maxBytes < keptBytes payload i) ∧
      (m < n → keptBytes payload m ≤ policy.maxBytes) ∧
      dropImages policy (((collectImages payload).take n).drop k)
        ⟨withoutImages payload policy.keepLast k, keptBytes payload k, k⟩ =
        ⟨withoutImages payload policy.keepLast m, keptBytes payload m, m⟩ := by
  induction hrest : n - k generalizing k with
  | zero =>
    obtain rfl : k = n := by omega
    refine ⟨k, le_rfl, le_rfl, fun i hi hik => by omega, fun h => by omega, ?_⟩
    rw [List.drop_eq_nil_of_le (by rw [List.length_take]; omega)]
    rfl
  | succ rest ih =>
    have hlt : k < ((collectImages payload).take n).length := by
      rw [List.length_take]
      omega
    rw [List.drop_eq_getElem_cons hlt, dropImages]
    by_cases henough : keptBytes payload k ≤ policy.maxBytes
    · exact ⟨k, le_rfl, hk, fun i hi hik => by omega, fun _ => henough, if_pos henough⟩
    · have hslot : (collectImages payload)[k]? = some ((collectImages payload).take n)[k] := by
        rw [List.getElem_take, List.getElem?_eq_getElem]
      obtain ⟨m, hkm, hmn, hbefore, hafter, hloop⟩ := ih (k + 1) (by omega) (by omega)
      refine ⟨m, by omega, hmn, ?_, hafter, ?_⟩
      · intro i hi him
        by_cases hik : i = k
        · rw [hik]
          omega
        · exact hbefore i (by omega) him
      · have hbytes := keptBytes_succ hslot
        rw [if_neg henough, replaceWithPlaceholder_first hpayload hslot, hbytes, Nat.add_sub_cancel_left]
        exact hloop

theorem keptBytes_antitone (payload : Value) : Antitone (keptBytes payload) := by
  apply antitone_nat_of_succ_le
  intro k
  cases hslot : (collectImages payload)[k]? with
  | none =>
    have hlength : (inputImages payload).length ≤ k := by
      rw [← length_collectImages]
      exact List.getElem?_eq_none_iff.mp hslot
    rw [keptBytes, keptBytes, List.drop_eq_nil_of_le hlength, List.drop_eq_nil_of_le (by omega)]
  | some slot =>
    rw [keptBytes_succ hslot]
    omega

theorem inputImages_withoutImages (payload : Value) (keepLast k : ℕ) (hk : k ≤ (inputImages payload).length) :
    inputImages (withoutImages payload keepLast k) = (inputImages payload).drop k := by
  have hlength : (List.replicate k (placeholder keepLast) ++ (inputImages payload).drop k).length =
      (inputImages payload).length := by
    rw [List.length_append, List.length_replicate, List.length_drop]
    omega
  have hcomposite : ∀ w ∈ List.replicate k (placeholder keepLast) ++ (inputImages payload).drop k,
      w.isComposite = true := by
    intro w hw
    rcases List.mem_append.mp hw with hw | hw
    · rw [List.eq_of_mem_replicate hw]
      exact (parts_placeholder keepLast).2
    · exact (mem_inputImages (List.mem_of_mem_drop hw)).2
  have hdropped : (List.replicate k (placeholder keepLast)).flatMap (parts isInputImage) = [] := by
    rw [List.flatMap_eq_nil_iff]
    intro w hw
    rw [List.eq_of_mem_replicate hw, (parts_placeholder keepLast).1]
  have hkept : ((inputImages payload).drop k).flatMap (parts isInputImage) = (inputImages payload).drop k := by
    rw [List.flatMap_congr (fun w hw => (mem_inputImages (List.mem_of_mem_drop hw)).1), List.flatMap_singleton']
  rw [withoutImages, inputImages_withImages hlength hcomposite, List.flatMap_append, hdropped, hkept, List.nil_append]

theorem withoutImages_zero (hpayload : payload.Normal) (keepLast : ℕ) : withoutImages payload keepLast 0 = payload :=
  withImages_inputImages hpayload

structure Trims (policy : ImageBudgetPolicy) (payload new : Value) (report : ImageBudgetReport) : Prop where
  dropped : IsLeast {k | keptBytes payload k ≤ policy.maxBytes} report.droppedImages
  retained : report.droppedImages ≤ (inputImages payload).length - policy.keepLast
  replaced : new = withoutImages payload policy.keepLast report.droppedImages
  kept : inputImages new = (inputImages payload).drop report.droppedImages
  remaining : ((collectImages new).map ImageSlot.bytes).sum = report.remainingBytes
  withinMax : report.remainingBytes ≤ policy.maxBytes
  again : ∃ report', apply new policy = .withinBudget report'

theorem apply_within (henabled : policy.enabled = true) (payload : Value)
    (h : totalBytes (inputImages payload) ≤ policy.maxBytes) :
    apply payload policy =
      .withinBudget ⟨totalBytes (inputImages payload), totalBytes (inputImages payload), 0⟩ := by
  have htotal : ((collectImages payload).map ImageSlot.bytes).sum = totalBytes (inputImages payload) := by
    rw [collectImages_map]
    rfl
  simp only [apply, henabled, htotal, h, Bool.not_true, Bool.false_eq_true, ↓reduceIte]

theorem withoutImages_trims (henabled : policy.enabled = true) (payload : Value) {k : ℕ}
    (hretained : k ≤ (inputImages payload).length - policy.keepLast)
    (hbefore : ∀ i < k, policy.maxBytes < keptBytes payload i) (hk : keptBytes payload k ≤ policy.maxBytes) (total : ℕ) :
    Trims policy payload (withoutImages payload policy.keepLast k) ⟨total, keptBytes payload k, k⟩ := by
  have himages := inputImages_withoutImages payload policy.keepLast k (by omega)
  constructor
  · refine ⟨hk, fun i hi => ?_⟩
    by_contra hlt
    exact absurd (hbefore i (not_le.mp hlt)) (not_lt_of_ge hi)
  · exact hretained
  · rfl
  · exact himages
  · rw [collectImages_map, himages]
    rfl
  · exact hk
  · refine ⟨_, apply_within henabled _ ?_⟩
    rw [himages]
    exact hk

theorem apply_over (henabled : policy.enabled = true) (hpayload : payload.Normal)
    (h : policy.maxBytes < totalBytes (inputImages payload)) :
    (policy.maxBytes < keptBytes payload ((inputImages payload).length - policy.keepLast) ∧
        ∃ report, apply payload policy = .cannotMeetBudget report) ∨
      (keptBytes payload ((inputImages payload).length - policy.keepLast) ≤ policy.maxBytes ∧
        ∃ new report, apply payload policy = .trimmed new report ∧ Trims policy payload new report) := by
  have htotal : ((collectImages payload).map ImageSlot.bytes).sum = totalBytes (inputImages payload) := by
    rw [collectImages_map]
    rfl
  obtain ⟨m, -, hretained, hbefore, hafter, hloop⟩ := @dropImages_spec payload policy hpayload
    ((inputImages payload).length - policy.keepLast) (by rw [length_collectImages]; omega) 0 (Nat.zero_le _)
  rw [withoutImages_zero hpayload, List.drop_zero] at hloop
  change dropImages policy _ ⟨payload, totalBytes (inputImages payload), 0⟩ = _ at hloop
  simp only [apply, henabled, htotal, not_le_of_gt h, length_collectImages, hloop, Bool.not_true, Bool.false_eq_true,
    ↓reduceIte]
  by_cases hnone : (inputImages payload).length - policy.keepLast = 0
  · rw [hnone]
    exact .inl ⟨h, _, if_pos rfl⟩
  · by_cases hm : policy.maxBytes < keptBytes payload m
    · have hend : m = (inputImages payload).length - policy.keepLast := by
        by_contra hne
        exact absurd (hafter (by omega)) (not_le_of_gt hm)
      refine .inl ⟨hend ▸ hm, ⟨totalBytes (inputImages payload), keptBytes payload m, m⟩, ?_⟩
      rw [if_neg hnone, if_pos (.inr hm)]
    · have hpos : m ≠ 0 := by
        rintro rfl
        exact hm h
      have hkept := (keptBytes_antitone payload hretained).trans (not_lt.mp hm)
      have htrims := withoutImages_trims henabled payload hretained (fun i hi => hbefore i (Nat.zero_le i) hi)
        (not_lt.mp hm) (totalBytes (inputImages payload))
      refine .inr ⟨hkept, _, _, ?_, htrims⟩
      rw [if_neg hnone, if_neg (by rintro (hzero | hover); exacts [hpos hzero, hm hover])]

theorem image_budget_applied (henabled : policy.enabled = true) (hpayload : payload.Normal) :
    ((∃ report, apply payload policy = .withinBudget report) ↔ totalBytes (inputImages payload) ≤ policy.maxBytes) ∧
      ((∃ report, apply payload policy = .cannotMeetBudget report) ↔
        policy.maxBytes < keptBytes payload ((inputImages payload).length - policy.keepLast)) ∧
      (policy.maxBytes < totalBytes (inputImages payload) →
        keptBytes payload ((inputImages payload).length - policy.keepLast) ≤ policy.maxBytes →
        ∃ new report, apply payload policy = .trimmed new report ∧ Trims policy payload new report) := by
  by_cases htotal : totalBytes (inputImages payload) ≤ policy.maxBytes
  · have hwithin := apply_within henabled payload htotal
    have hkept : keptBytes payload ((inputImages payload).length - policy.keepLast) ≤ policy.maxBytes :=
      (keptBytes_antitone payload (Nat.zero_le _)).trans htotal
    refine ⟨iff_of_true ⟨_, hwithin⟩ htotal, iff_of_false ?_ (not_lt_of_ge hkept), ?_⟩
    · rintro ⟨report, hreport⟩
      rw [hwithin] at hreport
      exact nomatch hreport
    · exact fun hover => absurd htotal (not_le_of_gt hover)
  · rcases apply_over henabled hpayload (not_le.mp htotal) with ⟨hover, report, happly⟩ | ⟨hkept, new, report, happly,
      htrims⟩
    · refine ⟨iff_of_false ?_ htotal, iff_of_true ⟨report, happly⟩ hover, ?_⟩
      · rintro ⟨report', hreport⟩
        rw [happly] at hreport
        exact nomatch hreport
      · exact fun _ hkept => absurd hover (not_lt_of_ge hkept)
    · refine ⟨iff_of_false ?_ htotal, iff_of_false ?_ (not_lt_of_ge hkept), fun _ _ => ⟨new, report, happly, htrims⟩⟩
      · rintro ⟨report', hreport⟩
        rw [happly] at hreport
        exact nomatch hreport
      · rintro ⟨report', hreport⟩
        rw [happly] at hreport
        exact nomatch hreport

end trim

def twoImages : Value :=
  .object [("input", .array [.string "hi",
    .object [("image_url", .string "old "), ("type", .string "input_image")],
    .object [("image_url", .object [("url", .string "new")]), ("type", .string "input_image")]])]

theorem image_budget_two : ∃ new report, apply twoImages ⟨true, 1, 4⟩ = .trimmed new report ∧
    Trims ⟨true, 1, 4⟩ twoImages new report := by
  have hpayload : twoImages.Normal := by
    rw [Value.Normal]
    rfl
  exact (image_budget_applied rfl hpayload).2.2 (by decide) (by decide)

end Prelay.ImageBudget
