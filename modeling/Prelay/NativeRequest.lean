import Prelay.JsonMembers
import Prelay.JsonRoundTrip
import Prelay.Str

namespace Prelay.NativeRequest

open Json Value

structure MapWriter where
  entries : List (String × Value) := []
  replacedModel : Bool := false
  wroteStore : Bool := false
  wroteInput : Bool := false

section encode

variable (model : String) (inputItems : Option (List Value))

def serializeMember (map : MapWriter) (m : String × Value) : MapWriter :=
  match m.1 with
  | "model" => { map with entries := map.entries ++ [(m.1, .string model)], replacedModel := true }
  | "store" => { map with entries := map.entries ++ [(m.1, .bool false)], wroteStore := true }
  | "previous_response_id" | "conversation" => map
  | "input" => match inputItems with
    | some items => { map with entries := map.entries ++ [(m.1, .array items)], wroteInput := true }
    | none => { map with entries := map.entries ++ [m] }
  | _ => { map with entries := map.entries ++ [m] }

def serializeRest (map : MapWriter) : List (String × Value) :=
  let entries := if map.replacedModel then map.entries else map.entries ++ [("model", .string model)]
  let entries := if map.wroteStore then entries else entries ++ [("store", .bool false)]
  match inputItems with
  | some items => if map.wroteInput then entries else entries ++ [("input", .array items)]
  | none => entries

/-- The value that is written; its entries stand in the order in which they are serialized. -/
def payloadWithModel (payload : Value) : Value :=
  match payload with
  | .object members => .object (serializeRest model inputItems (members.foldl (serializeMember model inputItems) {}))
  | payload => payload

end encode

def encodeNativeResponsesRequestBody (serde : SerdeJson) (payload : Value) (model : String)
    (inputItems : Option (List Value)) : Bytes :=
  Str.utf8 (serde.toStr (payloadWithModel model inputItems payload))

def edited (members : List (String × Value)) (model : String) (items : List Value) : List (String × Value) :=
  insertMember "store" (.bool false) (insertMember "input" (.array items) (insertMember "model" (.string model)
    (removeMember "conversation" (removeMember "previous_response_id" members))))

def written (model : String) (items : List Value) (m : String × Value) : Option (String × Value) :=
  if m.1 = "model" then some (m.1, .string model)
  else if m.1 = "store" then some (m.1, .bool false)
  else if m.1 = "previous_response_id" ∨ m.1 = "conversation" then none
  else if m.1 = "input" then some (m.1, .array items)
  else some m

section entries

variable {model : String} {items : List Value} {members : List (String × Value)}

theorem serializeMember_eq (map : MapWriter) (m : String × Value) :
    serializeMember model (some items) map m = {
      entries := map.entries ++ (written model items m).toList
      replacedModel := map.replacedModel || m.1 = "model"
      wroteStore := map.wroteStore || m.1 = "store"
      wroteInput := map.wroteInput || m.1 = "input" } := by
  obtain ⟨key, value⟩ := m
  unfold serializeMember written
  dsimp only
  split
  · simp
  · simp
  · simp
  · simp
  · simp
  · next hmodel hstore hprevious hconversation hinput =>
    have hkept : ¬(key = "previous_response_id" ∨ key = "conversation") := not_or.mpr ⟨hprevious, hconversation⟩
    rw [if_neg hmodel, if_neg hstore, if_neg hkept, if_neg hinput, decide_eq_false hmodel, decide_eq_false hstore,
      decide_eq_false hinput]
    simp

theorem foldl_serializeMember (map : MapWriter) :
    members.foldl (serializeMember model (some items)) map = {
      entries := map.entries ++ members.filterMap (written model items)
      replacedModel := map.replacedModel || "model" ∈ members.map Prod.fst
      wroteStore := map.wroteStore || "store" ∈ members.map Prod.fst
      wroteInput := map.wroteInput || "input" ∈ members.map Prod.fst } := by
  induction members generalizing map with
  | nil => simp
  | cons m members ih =>
    rw [List.foldl_cons, ih, serializeMember_eq]
    simp only [MapWriter.mk.injEq, List.map_cons, List.mem_cons, Bool.decide_or, eq_comm (a := m.1), Bool.or_assoc,
      List.append_assoc, and_self, and_true]
    congr 1
    cases hm : written model items m with
    | none => rw [List.filterMap_cons_none hm]; rfl
    | some n => rw [List.filterMap_cons_some hm]; rfl

def missing (members : List (String × Value)) (entry : String × Value) : List (String × Value) :=
  if entry.1 ∈ members.map Prod.fst then [] else [entry]

def entries (model : String) (items : List Value) (members : List (String × Value)) : List (String × Value) :=
  members.filterMap (written model items) ++ (missing members ("model", .string model) ++
    (missing members ("store", .bool false) ++ missing members ("input", .array items)))

theorem payloadWithModel_eq :
    payloadWithModel model (some items) (.object members) = .object (entries model items members) := by
  rw [payloadWithModel, foldl_serializeMember]
  unfold serializeRest entries missing
  by_cases hmodel : "model" ∈ members.map Prod.fst <;> by_cases hstore : "store" ∈ members.map Prod.fst <;>
    by_cases hinput : "input" ∈ members.map Prod.fst <;> simp only [hmodel, hstore, hinput] <;> simp

theorem written_key {m n : String × Value} (h : written model items m = some n) : n.1 = m.1 := by
  unfold written at h
  split_ifs at h <;> exact (Option.some.inj h) ▸ rfl

theorem mem_missing {entry m : String × Value} :
    m ∈ missing members entry ↔ m = entry ∧ entry.1 ∉ members.map Prod.fst := by
  unfold missing
  split_ifs with h
  · simp [h]
  · simp [h]

theorem written_sublist :
    ((members.filterMap (written model items)).map Prod.fst).Sublist (members.map Prod.fst) := by
  induction members with
  | nil => exact List.Sublist.refl _
  | cons m members ih =>
    cases hm : written model items m with
    | none =>
      rw [List.filterMap_cons_none hm]
      exact ih.cons _
    | some n =>
      rw [List.filterMap_cons_some hm, List.map_cons, List.map_cons, written_key hm]
      exact List.cons_sublist_cons.mpr ih

theorem entries_keys (hkeys : (members.map Prod.fst).Nodup) : ((entries model items members).map Prod.fst).Nodup := by
  have hfirst : ∀ key ∈ (members.filterMap (written model items)).map Prod.fst, key ∈ members.map Prod.fst :=
    fun key hkey => written_sublist.subset hkey
  have hnew : ∀ entry, ((missing members entry).map Prod.fst).Nodup := by
    intro entry
    unfold missing
    split_ifs <;> simp
  have hmissing : ∀ entry, ∀ key ∈ (missing members entry).map Prod.fst, key = entry.1 ∧ key ∉ members.map Prod.fst := by
    intro entry key hkey
    obtain ⟨m, hm, rfl⟩ := List.mem_map.mp hkey
    obtain ⟨rfl, hout⟩ := mem_missing.mp hm
    exact ⟨rfl, hout⟩
  rw [entries, List.map_append, List.map_append, List.map_append]
  apply List.Nodup.append (written_sublist.nodup hkeys)
  · apply List.Nodup.append (hnew _)
    · apply List.Nodup.append (hnew _) (hnew _)
      intro key hstore hinput
      exact absurd ((hmissing _ key hstore).1.symm.trans (hmissing _ key hinput).1) (by decide : "store" ≠ "input")
    · intro key hmodel hrest
      rcases List.mem_append.mp hrest with hstore | hinput
      · exact absurd ((hmissing _ key hmodel).1.symm.trans (hmissing _ key hstore).1) (by decide : "model" ≠ "store")
      · exact absurd ((hmissing _ key hmodel).1.symm.trans (hmissing _ key hinput).1) (by decide : "model" ≠ "input")
  · intro key hkey hrest
    rcases List.mem_append.mp hrest with hmodel | hrest
    · exact (hmissing _ key hmodel).2 (hfirst key hkey)
    rcases List.mem_append.mp hrest with hstore | hinput
    · exact (hmissing _ key hstore).2 (hfirst key hkey)
    · exact (hmissing _ key hinput).2 (hfirst key hkey)

def Kept (key : String) : Prop :=
  key ≠ "model" ∧ key ≠ "store" ∧ key ≠ "previous_response_id" ∧ key ≠ "conversation" ∧ key ≠ "input"

theorem mem_written {m : String × Value} : m ∈ members.filterMap (written model items) ↔
    (m = ("model", .string model) ∧ "model" ∈ members.map Prod.fst) ∨
      (m = ("store", .bool false) ∧ "store" ∈ members.map Prod.fst) ∨
      (m = ("input", .array items) ∧ "input" ∈ members.map Prod.fst) ∨ m ∈ members ∧ Kept m.1 := by
  rw [List.mem_filterMap]
  constructor
  · rintro ⟨n, hn, hwritten⟩
    have hkey : n.1 ∈ members.map Prod.fst := List.mem_map_of_mem hn
    unfold written at hwritten
    split_ifs at hwritten with hmodel hstore hremoved hinput
    · rw [hmodel] at hwritten hkey
      exact .inl ⟨(Option.some.inj hwritten).symm, hkey⟩
    · rw [hstore] at hwritten hkey
      exact .inr (.inl ⟨(Option.some.inj hwritten).symm, hkey⟩)
    · rw [hinput] at hwritten hkey
      exact .inr (.inr (.inl ⟨(Option.some.inj hwritten).symm, hkey⟩))
    · obtain rfl := Option.some.inj hwritten
      exact .inr (.inr (.inr ⟨hn, hmodel, hstore, (not_or.mp hremoved).1, (not_or.mp hremoved).2, hinput⟩))
  · rintro (⟨rfl, hkey⟩ | ⟨rfl, hkey⟩ | ⟨rfl, hkey⟩ | ⟨hm, hmodel, hstore, hprevious, hconversation, hinput⟩)
    · obtain ⟨n, hn, hkey⟩ := List.mem_map.mp hkey
      exact ⟨n, hn, by simp [written, hkey]⟩
    · obtain ⟨n, hn, hkey⟩ := List.mem_map.mp hkey
      exact ⟨n, hn, by simp [written, hkey]⟩
    · obtain ⟨n, hn, hkey⟩ := List.mem_map.mp hkey
      exact ⟨n, hn, by simp [written, hkey]⟩
    · exact ⟨m, hm, by simp [written, hmodel, hstore, hprevious, hconversation, hinput]⟩

theorem mem_entries {m : String × Value} : m ∈ entries model items members ↔
    m = ("model", .string model) ∨ m = ("store", .bool false) ∨ m = ("input", .array items) ∨ m ∈ members ∧ Kept m.1 := by
  rw [entries, List.mem_append, List.mem_append, List.mem_append, mem_written, mem_missing, mem_missing, mem_missing]
  tauto

theorem mem_edited (hsorted : KeysSorted members) {m : String × Value} : m ∈ edited members model items ↔
    m = ("model", .string model) ∨ m = ("store", .bool false) ∨ m = ("input", .array items) ∨ m ∈ members ∧ Kept m.1 := by
  have hremoved := removeMember_sorted (removeMember_sorted hsorted "previous_response_id") "conversation"
  have hmodel := insertMember_sorted "model" (.string model) _ hremoved
  have hinput := insertMember_sorted "input" (.array items) _ hmodel
  rw [edited, mem_insertMember_iff hinput, mem_insertMember_iff hmodel, mem_insertMember_iff hremoved,
    mem_removeMember_iff, mem_removeMember_iff]
  have hmodelKey : m = ("model", Value.string model) → m.1 ≠ "input" ∧ m.1 ≠ "store" := by
    rintro rfl
    exact ⟨(by decide : "model" ≠ "input"), (by decide : "model" ≠ "store")⟩
  have hinputKey : m = ("input", Value.array items) → m.1 ≠ "store" := by
    rintro rfl
    exact (by decide : "input" ≠ "store")
  unfold Kept
  tauto

theorem edited_sorted (hsorted : KeysSorted members) : KeysSorted (edited members model items) := by
  apply insertMember_sorted
  apply insertMember_sorted
  apply insertMember_sorted
  apply removeMember_sorted
  exact removeMember_sorted hsorted _

end entries

/-- The body of a native request is a JSON object with distinct keys and reads as the edited payload. -/
theorem native_request_edited {serde : SerdeJson} (hserde : serde.Exact) {members : List (String × Value)}
    (hpayload : (Value.object members).Normal) (model : String) {items : List Value}
    (hitems : ∀ item ∈ items, item.Normal) :
    ∃ entries, encodeNativeResponsesRequestBody serde (.object members) model (some items) =
        Str.utf8 (serde.toStr (.object entries)) ∧ (entries.map Prod.fst).Nodup ∧
      (Str.fromUtf8 (encodeNativeResponsesRequestBody serde (.object members) model (some items))).bind serde.fromStr =
        some (.object (edited members model items)) := by
  obtain ⟨hsorted, hmembers⟩ := normal_object hpayload
  have hbody : encodeNativeResponsesRequestBody serde (.object members) model (some items) =
      Str.utf8 (serde.toStr (.object (entries model items members))) := by
    rw [encodeNativeResponsesRequestBody, payloadWithModel_eq]
  refine ⟨entries model items members, hbody, entries_keys hsorted.nodup, ?_⟩
  rw [hbody, Str.fromUtf8_utf8, Option.bind_some, hserde.fromStr_toStr]
  congr 1
  apply normalize_object_eq (entries_keys hsorted.nodup) _ (edited_sorted hsorted)
  · exact fun m => mem_entries.trans (mem_edited hsorted).symm
  · intro m hm
    rcases mem_entries.mp hm with rfl | rfl | rfl | ⟨hm, -⟩
    · rfl
    · rfl
    · exact normal_array.mpr hitems
    · exact hmembers m hm

theorem native_request_edited_stored :
    ∃ entries, encodeNativeResponsesRequestBody Text.codec (.object [("store", .bool true)]) "gpt-5"
      (some [.string "hi"]) =
        Str.utf8 (Text.codec.toStr (.object entries)) ∧ (entries.map Prod.fst).Nodup ∧
      (Str.fromUtf8 (encodeNativeResponsesRequestBody Text.codec (.object [("store", .bool true)]) "gpt-5"
          (some [.string "hi"]))).bind Text.codec.fromStr =
        some (.object (edited [("store", .bool true)] "gpt-5" [.string "hi"])) := by
  apply native_request_edited Text.codec_exact
  · rw [Value.Normal]
    rfl
  · intro item hitem
    rw [List.mem_singleton.mp hitem, Value.Normal]
    rfl

end Prelay.NativeRequest
