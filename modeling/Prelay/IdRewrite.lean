import Prelay.EventLines
import Prelay.JsonMembers
import Prelay.Keepalive
import Prelay.NativeEvents

namespace Prelay.StreamRewrite

open Json Bridge

def setString (text : String) : List String → Value → Value
  | [], .string _ => .string text
  | key :: path, .object members =>
    .object (members.map (fun m => if m.1 = key then (m.1, setString text path m.2) else m))
  | _, value => value

/-- What the rewriting of an event is for: the local id in the two places of a response id. -/
def withLocalId (localId : String) (value : Value) : Value :=
  setString localId ["response_id"] (setString localId ["response", "id"] value)

section setString

variable (text : String)

theorem get_setString_same (key : String) (path : List String) (value : Value) :
    (setString text (key :: path) value).get key = (value.get key).map (setString text path) := by
  cases value with
  | object members =>
    simp only [setString, Value.get, List.find?_map]
    have hkey : ((fun m : String × Value => decide (m.1 = key)) ∘
        fun m => if m.1 = key then (m.1, setString text path m.2) else m) = fun m => decide (m.1 = key) := by
      funext m
      by_cases hm : m.1 = key <;> simp [hm]
    rw [hkey, Option.map_map, Option.map_map]
    apply Option.map_congr
    intro m hm
    have hfound : m.1 = key := by simpa using List.find?_some hm
    simp [hfound]
  | _ => rfl

theorem get_setString_ne {key other : String} (path : List String) (value : Value) (h : key ≠ other) :
    (setString text (key :: path) value).get other = value.get other := by
  cases value with
  | object members =>
    simp only [setString, Value.get, List.find?_map]
    have hkey : ((fun m : String × Value => decide (m.1 = other)) ∘
        fun m => if m.1 = key then (m.1, setString text path m.2) else m) = fun m => decide (m.1 = other) := by
      funext m
      by_cases hm : m.1 = key <;> simp [hm]
    rw [hkey, Option.map_map]
    apply Option.map_congr
    intro m hm
    have hfound : m.1 = other := by simpa using List.find?_some hm
    have hm' : m.1 ≠ key := fun he => h (he.symm.trans hfound)
    simp [hm']
  | _ => rfl

theorem setString_normal (path : List String) (value : Value) (h : value.Normal) : (setString text path value).Normal := by
  induction path generalizing value with
  | nil =>
    cases value with
    | string s => rfl
    | _ => exact h
  | cons key path ih =>
    cases value with
    | object members =>
      obtain ⟨hsorted, hmembers⟩ := Value.normal_object h
      apply Value.normal_object_of
      · have hkeys : (members.map (fun m => if m.1 = key then (m.1, setString text path m.2) else m)).map Prod.fst =
            members.map Prod.fst := by
          rw [List.map_map]
          apply List.map_congr_left
          intro m _
          by_cases hm : m.1 = key <;> simp [hm]
        unfold KeysSorted
        rw [hkeys]
        exact hsorted
      · intro m' hm'
        obtain ⟨m, hm, rfl⟩ := List.mem_map.mp hm'
        split_ifs
        · exact ih m.2 (hmembers m hm)
        · exact hmembers m hm
    | _ => exact h

theorem insertMember_eq_map {key : String} {value : Value} {members : List (String × Value)} (hs : KeysSorted members)
    (hmem : key ∈ members.map Prod.fst) :
    insertMember key value members = members.map (fun m => if m.1 = key then (m.1, value) else m) := by
  induction members with
  | nil => exact nomatch hmem
  | cons head members ih =>
    obtain ⟨k, v⟩ := head
    obtain ⟨hhead, htail⟩ := List.pairwise_cons.mp hs
    rw [insertMember, List.map_cons]
    by_cases heq : key = k
    · subst heq
      have hothers : members.map (fun m => if m.1 = key then (m.1, value) else m) = members := by
        apply map_eq_self_iff.mpr
        intro m hm
        exact if_neg (hhead m.1 (List.mem_map_of_mem hm)).ne'
      rw [if_neg (lt_irrefl key), if_pos rfl, if_pos rfl, hothers]
    · rcases List.mem_cons.mp hmem with he | hmem
      · exact absurd he heq
      · rw [if_neg (not_lt_of_gt (hhead key hmem)), if_neg heq, if_neg (Ne.symm heq), ih htail hmem]

theorem setString_eq_insertMember {key : String} {path : List String} {value : Value} {members : List (String × Value)}
    (hs : KeysSorted members) (h : (Value.object members).get key = some value) :
    setString text (key :: path) (.object members) = .object (insertMember key (setString text path value) members) := by
  rw [setString, insertMember_eq_map hs (List.mem_map_of_mem (mem_of_get h))]
  congr 1
  apply List.map_congr_left
  intro m hm
  split_ifs with hkey
  · have hget := get_of_mem hs hm
    rw [hkey, h] at hget
    rw [Option.some.inj hget]
  · rfl

theorem setString_eq_self {key : String} {path : List String} {members : List (String × Value)} (hs : KeysSorted members)
    (h : ∀ value, (Value.object members).get key = some value → setString text path value = value) :
    setString text (key :: path) (.object members) = .object members := by
  rw [setString]
  congr 1
  apply map_eq_self_iff.mpr
  intro m hm
  split_ifs with hkey
  · rw [h m.2 (hkey ▸ get_of_mem hs hm)]
  · rfl

theorem setString_not_string {value : Value} (h : value.isString = false) : setString text [] value = value := by
  cases value with
  | string s => exact nomatch h
  | _ => rfl

end setString

theorem replaced_eq (localId key : String) {members : List (String × Value)} (hs : KeysSorted members) :
    (if ((Value.object members).get key).any Value.isString then .object (insertMember key (.string localId) members)
      else .object members) = setString localId [key] (.object members) := by
  cases hget : (Value.object members).get key with
  | none =>
    rw [setString_eq_self localId hs (fun value hv => by rw [hget] at hv; exact nomatch hv)]
    rfl
  | some value =>
    rw [Option.any_some]
    split_ifs with hstring
    · rw [setString_eq_insertMember localId hs hget]
      cases value with
      | string s => rfl
      | _ => exact nomatch hstring
    · have hself : ∀ v, (Value.object members).get key = some v → setString localId [] v = v := by
        intro v hv
        obtain rfl : value = v := Option.some.inj (hget.symm.trans hv)
        exact setString_not_string localId (by simpa using hstring)
      rw [setString_eq_self localId hs hself]

theorem rewriteResponse_eq (localId : String) {response : Value} (h : response.Normal) :
    rewriteResponse localId response = setString localId ["id"] response := by
  cases response with
  | object members =>
    rw [rewriteResponse]
    exact replaced_eq localId "id" (Value.normal_object h).1
  | _ => rfl

theorem rewriteResponseMember_eq (localId : String) {value : Value} (h : value.Normal) :
    rewriteResponseMember localId value = setString localId ["response", "id"] value := by
  unfold rewriteResponseMember
  cases value with
  | object members =>
    obtain ⟨hs, hmembers⟩ := Value.normal_object h
    cases hget : (Value.object members).get "response" with
    | none => rw [setString_eq_self localId hs (fun value hv => by rw [hget] at hv; exact nomatch hv)]
    | some response =>
      have hnormal : response.Normal := hmembers _ (mem_of_get hget)
      rw [setString_eq_insertMember localId hs hget, ← rewriteResponse_eq localId hnormal]
  | _ => rfl

theorem rewriteValue_eq (localId : String) {value : Value} (h : value.Normal) :
    rewriteValue localId value = withLocalId localId value := by
  have hnormal := setString_normal localId ["response", "id"] value h
  unfold rewriteValue withLocalId
  rw [rewriteResponseMember_eq localId h]
  generalize setString localId ["response", "id"] value = middle at hnormal
  cases middle with
  | object members => exact replaced_eq localId "response_id" (Value.normal_object hnormal).1
  | _ => rfl

def payloads (event : Bytes) : List String := (splitLines event).filterMap dataPayload

def otherLines (event : Bytes) : List Bytes := (splitLines event).filter (fun line => (dataPayload line).isNone)

variable (serde : SerdeJson)

def eventValue (event : Bytes) : Option Value :=
  if payloads event = [] then none else serde.fromStr (Str.join "\n" (payloads event))

theorem dataLines_payloads (lines : List Bytes) : (dataLines lines).map Prod.snd = lines.filterMap dataPayload := by
  have hsnd : (fun p : Bytes × ℕ => ((dataPayload p.1).map (fun data => (p.2, data))).map Prod.snd) =
      dataPayload ∘ Prod.fst := by
    funext p
    simp [Option.map_map, Function.comp_def]
  rw [dataLines, List.map_filterMap, hsnd, ← List.filterMap_map, List.zipIdx_map_fst]

theorem rewriteEvent_none (localId : String) {event : Bytes} (h : eventValue serde event = none) :
    rewriteEvent serde localId event = event := by
  unfold rewriteEvent
  have hdata : dataLines (splitLines event) = [] ↔ payloads event = [] := by
    rw [payloads, ← dataLines_payloads, List.map_eq_nil_iff]
  simp only [hdata]
  split_ifs with hnil
  · rfl
  · rw [eventValue, if_neg hnil, payloads, ← dataLines_payloads] at h
    rw [h]

theorem rewriteEvent_some (localId : String) {event : Bytes} {value : Value} (h : eventValue serde event = some value) :
    rewriteEvent serde localId event = if rewriteValue localId value = value then event
      else (splitLines event).zipIdx.flatMap
        (rewriteLine (serde.toStr (rewriteValue localId value)) (dataLines (splitLines event))) := by
  unfold rewriteEvent
  have hdata : dataLines (splitLines event) = [] ↔ payloads event = [] := by
    rw [payloads, ← dataLines_payloads, List.map_eq_nil_iff]
  unfold eventValue at h
  split_ifs at h with hnil
  rw [payloads, ← dataLines_payloads] at h
  simp only [hdata, if_neg hnil, h]

def newLine (serialized : String) (line : Bytes) : Bytes := Str.utf8 ("data: " ++ serialized ++ lineEnding line)

theorem dataLines_first {before after : List Bytes} {first : Bytes} {data : String}
    (hbefore : ∀ line ∈ before, dataPayload line = none) (hfirst : dataPayload first = some data) :
    (dataLines (before ++ first :: after)).head?.map Prod.fst = some before.length := by
  have hnone : before.zipIdx.filterMap (fun p => (dataPayload p.1).map (fun data => (p.2, data))) = [] := by
    apply List.filterMap_eq_nil_iff.mpr
    intro p hp
    rw [hbefore p.1 (List.fst_mem_of_mem_zipIdx hp)]
    rfl
  rw [dataLines, List.zipIdx_append, List.filterMap_append, hnone, List.nil_append, List.zipIdx_cons,
    List.filterMap_cons_some (by rw [hfirst]; rfl)]
  simp

theorem mem_dataLines {lines : List Bytes} {p : Bytes × ℕ} (hp : p ∈ lines.zipIdx) :
    p.2 ∈ (dataLines lines).map Prod.fst ↔ dataPayload p.1 ≠ none := by
  have hline := List.mem_zipIdx_iff_getElem?.mp hp
  constructor
  · intro hmem
    obtain ⟨q, hq, heq⟩ := List.mem_map.mp hmem
    obtain ⟨line, hq', hdata⟩ := dataLines_index hq
    rw [heq, hline] at hq'
    rw [Option.some.inj hq']
    exact hdata
  · intro hdata
    obtain ⟨data, hdata⟩ := Option.ne_none_iff_exists'.mp hdata
    refine List.mem_map.mpr ⟨(p.2, data), ?_, rfl⟩
    exact List.mem_filterMap.mpr ⟨p, hp, by rw [hdata]; rfl⟩

theorem flatMap_zipIdx {lines : List Bytes} (n : ℕ) {piece : Bytes × ℕ → Bytes} {f : Bytes → Bytes}
    (h : ∀ p ∈ lines.zipIdx n, piece p = f p.1) : (lines.zipIdx n).flatMap piece = lines.flatMap f := by
  have hpieces : (lines.zipIdx n).map piece = ((lines.zipIdx n).map Prod.fst).map f := by
    rw [List.map_map]
    exact List.map_congr_left h
  rw [List.flatMap_def, hpieces, List.zipIdx_map_fst, ← List.flatMap_def]

theorem rewriteLines_eq (serialized : String) {before after : List Bytes} {first : Bytes} {data : String}
    (hbefore : ∀ line ∈ before, dataPayload line = none) (hfirst : dataPayload first = some data) :
    (before ++ first :: after).zipIdx.flatMap (rewriteLine serialized (dataLines (before ++ first :: after))) =
      (before ++ newLine serialized first :: after.filter (fun line => (dataPayload line).isNone)).flatten := by
  have hhead := @dataLines_first before after first data hbefore hfirst
  have hmem := fun p hp => @mem_dataLines (before ++ first :: after) p hp
  generalize dataLines (before ++ first :: after) = found at hhead hmem
  rw [List.zipIdx_append, List.zipIdx_cons] at hmem ⊢
  have hpart : ∀ p ∈ before.zipIdx, rewriteLine serialized found p = id p.1 := by
    intro p hp
    have hindex : p.2 < before.length := by
      have := List.snd_lt_of_mem_zipIdx hp
      simpa using this
    have hnone := hbefore p.1 (List.fst_mem_of_mem_zipIdx hp)
    have hnot : p.2 ∉ found.map Prod.fst := by
      rw [hmem p (List.mem_append_left _ hp)]
      exact fun h => h hnone
    rw [rewriteLine, if_neg hnot, if_neg]
    · rfl
    · rw [hhead, Option.some.injEq]
      omega
  have hrest : ∀ p ∈ after.zipIdx (before.length + 1), rewriteLine serialized found p =
      (fun line => if (dataPayload line).isNone then line else []) p.1 := by
    intro p hp
    have hindex : before.length + 1 ≤ p.2 := List.le_snd_of_mem_zipIdx hp
    have hiff := hmem p (List.mem_append_right _ (List.mem_cons_of_mem _ (by simpa using hp)))
    rw [rewriteLine, if_neg]
    · by_cases hdata : dataPayload p.1 = none
      · have hnot : p.2 ∉ found.map Prod.fst := fun h => hiff.mp h hdata
        rw [if_neg hnot]
        simp [hdata]
      · rw [if_pos (hiff.mpr hdata)]
        simp [hdata]
    · rw [hhead, Option.some.injEq]
      omega
  have hafter : (after.zipIdx (before.length + 1)).flatMap (rewriteLine serialized found) =
      after.flatMap (fun line => if (dataPayload line).isNone then line else []) :=
    @flatMap_zipIdx after (before.length + 1) _ (fun line => if (dataPayload line).isNone then line else []) hrest
  have hline : rewriteLine serialized found (first, 0 + before.length) = newLine serialized first := by
    rw [rewriteLine, if_pos (by rw [hhead, Nat.zero_add])]
    rfl
  rw [List.flatMap_append, List.flatMap_cons, hline, flatMap_zipIdx 0 hpart, Nat.zero_add, hafter,
    List.flatten_append, List.flatten_cons, List.flatMap_id]
  congr 2
  clear hafter hrest hpart hmem
  induction after with
  | nil => rfl
  | cons line after ih =>
    rw [List.flatMap_cons, List.filter_cons, ih]
    split_ifs <;> simp

end Prelay.StreamRewrite
