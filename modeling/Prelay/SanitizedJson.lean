import Prelay.Conversation
import Prelay.JsonMembers

namespace Prelay.Conversation

open Json Redaction

inductive Within (part : Value) : Value → Prop
  | refl : Within part part
  | item {items : List Value} {item : Value} : item ∈ items → Within part item → Within part (.array items)
  | member {members : List (String × Value)} {member : String × Value} :
    member ∈ members → Within part member.2 → Within part (.object members)

def Everywhere (P : Value → Prop) (value : Value) : Prop := ∀ part, Within part value → P part

section everywhere

variable {P : Value → Prop}

theorem everywhere_array {items : List Value} :
    Everywhere P (.array items) ↔ P (.array items) ∧ ∀ item ∈ items, Everywhere P item := by
  constructor
  · intro h
    exact ⟨h _ .refl, fun item hitem part hpart => h part (.item hitem hpart)⟩
  · rintro ⟨hself, hitems⟩ part hpart
    cases hpart with
    | refl => exact hself
    | item hitem hpart => exact hitems _ hitem part hpart

theorem everywhere_object {members : List (String × Value)} :
    Everywhere P (.object members) ↔ P (.object members) ∧ ∀ member ∈ members, Everywhere P member.2 := by
  constructor
  · intro h
    exact ⟨h _ .refl, fun member hmember part hpart => h part (.member hmember hpart)⟩
  · rintro ⟨hself, hmembers⟩ part hpart
    cases hpart with
    | refl => exact hself
    | member hmember hpart => exact hmembers _ hmember part hpart

theorem everywhere_scalar {value : Value} (hscalar : isComposite value = false) : Everywhere P value ↔ P value := by
  constructor
  · exact fun h => h _ .refl
  · intro h part hpart
    cases hpart with
    | refl => exact h
    | item => exact nomatch hscalar
    | member => exact nomatch hscalar

end everywhere

section sanitized

variable (env : ConversationEnv)

structure PlainText (text : String) : Prop where
  binary : looksLikeBinary text = false
  composite : ∀ parsed, env.serde.fromStr text = some parsed → isComposite parsed = false

/-- What a recorded value may be: one case for each kind of value. -/
def Sanitized : Value → Prop
  | .string text => PlainText env text
  | .object members =>
    (∀ member ∈ members, isSecretKey member.1 = false) ∧
    (∀ member ∈ members, isOmittedMediaKey member.1 = true → member.2 = omittedMedia "binary") ∧
    ∀ partType, ((Value.object members).get "type").bind Value.asStr = some partType → isMediaType partType = true →
      Value.object members = omittedMedia partType
  | _ => True

def markerTypes : List String := "binary" :: omittedMediaTypes

/-- What is assumed of the redaction of texts: it makes no payload, no document and no media type of a text that is
none of them, and it leaves the names of the markers alone. -/
structure RedactionStands : Prop where
  clean : ∀ text, PlainText env text → isMediaType text = false →
    PlainText env (redact env text) ∧ isMediaType (redact env text) = false
  markers : ∀ partType ∈ markerTypes, redact env partType = partType ∧ env.serde.fromStr partType = none

variable {env}

theorem isMediaType_iff {partType : String} : isMediaType partType = true ↔ partType ∈ omittedMediaTypes :=
  List.contains_iff_mem

theorem RedactionStands.media (h : RedactionStands env) {partType : String} (hmedia : isMediaType partType = true) :
    redact env partType = partType :=
  (h.markers partType (List.mem_cons_of_mem _ (isMediaType_iff.mp hmedia))).1

theorem RedactionStands.plain (h : RedactionStands env) {text : String} (htext : PlainText env text) :
    PlainText env (redact env text) := by
  cases hmedia : isMediaType text with
  | true => rwa [h.media hmedia]
  | false => exact (h.clean text htext hmedia).1

theorem RedactionStands.media_iff (h : RedactionStands env) {text : String} (htext : PlainText env text) :
    isMediaType (redact env text) = true ↔ isMediaType text = true := by
  constructor
  · intro hredacted
    by_contra hnot
    rw [(h.clean text htext (by simpa using hnot)).2] at hredacted
    exact nomatch hredacted
  · intro hmedia
    rwa [h.media hmedia]

theorem omittedMedia_eq (partType : String) :
    omittedMedia partType = .object [("omitted", .bool true), ("type", .string partType)] := by
  have hlt : "omitted" < "type" := by decide
  simp [omittedMedia, Value.json, collectMembers, insertMember, hlt]

theorem marker_plain (h : RedactionStands env) {partType : String} (hmarker : partType ∈ markerTypes) :
    PlainText env partType := by
  constructor
  · have hall : ∀ name ∈ markerTypes, looksLikeBinary name = false := by decide
    exact hall partType hmarker
  · intro parsed hparsed
    rw [(h.markers partType hmarker).2] at hparsed
    exact nomatch hparsed

theorem marker_keys : isSecretKey "omitted" = false ∧ isSecretKey "type" = false ∧ isOmittedMediaKey "omitted" = false ∧
    isOmittedMediaKey "type" = false := by
  decide +kernel

theorem marker_sanitized (h : RedactionStands env) {partType : String} (hmarker : partType ∈ markerTypes) :
    Everywhere (Sanitized env) (omittedMedia partType) := by
  rw [omittedMedia_eq, everywhere_object]
  constructor
  · refine ⟨?_, ?_, ?_⟩
    · simp [marker_keys]
    · simp [marker_keys]
    · intro name hname _
      obtain rfl : partType = name := by simpa [Value.get, Value.asStr] using hname
      exact (omittedMedia_eq partType).symm
  · intro member hmember
    rcases List.mem_cons.mp hmember with rfl | hrest
    · exact (everywhere_scalar rfl).mpr trivial
    · rw [List.mem_singleton.mp hrest]
      exact (everywhere_scalar rfl).mpr (marker_plain h hmarker)

theorem mapStrings_marker (h : RedactionStands env) {partType : String} (hmarker : partType ∈ markerTypes) :
    (omittedMedia partType).mapStrings (redact env) = omittedMedia partType := by
  simp only [omittedMedia_eq, Value.mapStrings, Value.mapStringsMembers, (h.markers partType hmarker).1]

theorem asStr_mapStrings (f : String → String) (value : Value) :
    (value.mapStrings f).asStr = value.asStr.map f := by
  cases value <;> rfl

theorem asStr_eq_some {value : Value} {text : String} (h : value.asStr = some text) : value = .string text := by
  cases value with
  | string other => exact congrArg Value.string (Option.some.inj h)
  | _ => exact nomatch h

theorem mapStrings_sanitized (h : RedactionStands env) (value : Value) (hvalue : Everywhere (Sanitized env) value) :
    Everywhere (Sanitized env) (value.mapStrings (redact env)) := by
  match value with
  | .null | .bool _ | .number _ => exact hvalue
  | .string text =>
    rw [Value.mapStrings, everywhere_scalar rfl]
    exact h.plain ((everywhere_scalar rfl).mp hvalue)
  | .array items =>
    obtain ⟨-, hitems⟩ := everywhere_array.mp hvalue
    rw [Value.mapStrings, Value.mapStringsItems_eq, everywhere_array]
    refine ⟨trivial, fun item hitem => ?_⟩
    obtain ⟨source, hsource, rfl⟩ := List.mem_map.mp hitem
    exact mapStrings_sanitized h source (hitems source hsource)
  | .object members =>
    obtain ⟨⟨hsecret, hkeys, hmedia⟩, hmembers⟩ := everywhere_object.mp hvalue
    have hobject : (Value.object members).mapStrings (redact env) =
        .object (members.map (fun member => (member.1, member.2.mapStrings (redact env)))) := by
      rw [Value.mapStrings, Value.mapStringsMembers_eq]
    rw [hobject, everywhere_object]
    refine ⟨⟨?_, ?_, ?_⟩, fun member hmember => ?_⟩
    · intro member hmember
      obtain ⟨source, hsource, rfl⟩ := List.mem_map.mp hmember
      exact hsecret source hsource
    · intro member hmember hkey
      obtain ⟨source, hsource, rfl⟩ := List.mem_map.mp hmember
      simp only [hkeys source hsource hkey]
      exact mapStrings_marker h List.mem_cons_self
    · intro partType htype hisMedia
      rw [← hobject, Value.get_mapStrings] at htype
      obtain ⟨mapped, hget, hmapped⟩ := Option.bind_eq_some_iff.mp htype
      obtain ⟨source, hsource, rfl⟩ := Option.map_eq_some_iff.mp hget
      rw [asStr_mapStrings] at hmapped
      obtain ⟨text, htext, rfl⟩ := Option.map_eq_some_iff.mp hmapped
      have hstring := asStr_eq_some htext
      have hplain : PlainText env text := (everywhere_scalar rfl).mp (hstring ▸ hmembers _ (mem_of_get hsource))
      have hname := (h.media_iff hplain).mp hisMedia
      have hmarker : text ∈ markerTypes := List.mem_cons_of_mem _ (isMediaType_iff.mp hname)
      have hself := hmedia text (by rw [hsource, Option.bind_some, htext]) hname
      rw [← hobject, hself, mapStrings_marker h hmarker, h.media hname]
    · obtain ⟨source, hsource, rfl⟩ := List.mem_map.mp hmember
      exact mapStrings_sanitized h source.2 (hmembers source hsource)
termination_by value.weight
decreasing_by
  · rw [Value.weight]
    exact Nat.lt_succ_of_le (Value.weight_le_items hsource)
  · rw [Value.weight]
    exact Nat.lt_succ_of_le (Value.weight_le_members hsource)

theorem sanitizeJson_composite {value : Value} (h : isComposite value = true) (text : String) :
    sanitizeJson env value ≠ .string text := by
  cases value with
  | array items =>
    rw [sanitizeJson]
    rintro ⟨⟩
  | object members =>
    rw [sanitizeJson]
    split
    · rintro ⟨⟩
    · rintro ⟨⟩
  | _ => cases h

theorem sanitizeJson_string {value : Value} {text : String} (h : sanitizeJson env value = .string text) :
    ∃ source, value = .string source ∧ PlainText env source ∧ text = redact env source := by
  cases value with
  | string source =>
    refine ⟨source, rfl, ?_⟩
    rw [sanitizeJson] at h
    split_ifs at h with hbinary
    · cases h
    · split at h
      · next parsed hparsed =>
        split_ifs at h with hcomposite
        · exact absurd h (sanitizeJson_composite hcomposite text)
        · refine ⟨⟨by simpa using hbinary, fun other hother => ?_⟩, (Value.string.inj h).symm⟩
          rw [hparsed] at hother
          rw [← Option.some.inj hother]
          simpa using hcomposite
      · next hnone =>
        refine ⟨⟨by simpa using hbinary, fun other hother => ?_⟩, (Value.string.inj h).symm⟩
        rw [hnone] at hother
        cases hother
  | array | object => exact absurd h (sanitizeJson_composite rfl text)
  | null | bool | number =>
    rw [sanitizeJson] at h
    · cases h
    all_goals rintro _ ⟨⟩

def sanitizedMember (env : ConversationEnv) (member : String × Value) : String × Value :=
  (member.1, if isOmittedMediaKey member.1 then omittedMedia "binary" else sanitizeJson env member.2)

def sanitizedMembers (env : ConversationEnv) (members : List (String × Value)) : List (String × Value) :=
  (members.filter (fun member => !isSecretKey member.1)).map (sanitizedMember env)

theorem sanitizeJson_object (members : List (String × Value)) :
    sanitizeJson env (.object members) =
      match (((Value.object members).get "type").bind Value.asStr).filter isMediaType with
      | some partType => omittedMedia partType
      | none => (Value.object (sanitizedMembers env members)).mapStrings (redact env) := by
  have hmembers : (members.attach.filter (fun member => !isSecretKey member.1.1)).map (fun member => (member.1.1,
      if isOmittedMediaKey member.1.1 then omittedMedia "binary" else sanitizeJson env member.1.2)) =
        sanitizedMembers env members := by
    conv_rhs => rw [sanitizedMembers, ← List.attach_map_subtype_val members, List.filter_map, List.map_map]
    rfl
  rw [sanitizeJson, hmembers]
  rfl

theorem type_sanitizedMembers (members : List (String × Value)) :
    (Value.object (sanitizedMembers env members)).get "type" =
      ((Value.object members).get "type").map (sanitizeJson env) := by
  obtain ⟨-, hsecret, -, hkey⟩ := marker_keys
  have hfind : (members.filter (fun member => !isSecretKey member.1)).find? (fun member => member.1 = "type") =
      members.find? (fun member => member.1 = "type") := by
    rw [List.find?_filter]
    congr 1
    funext member
    by_cases htype : member.1 = "type"
    · simp [htype, hsecret]
    · simp [htype]
  rw [Value.get, sanitizedMembers, List.find?_map]
  change (Option.map (sanitizedMember env) ((members.filter (fun member => !isSecretKey member.1)).find?
    (fun member => member.1 = "type"))).map Prod.snd = ((members.find? (fun member => member.1 = "type")).map
      Prod.snd).map (sanitizeJson env)
  rw [hfind]
  cases hfound : members.find? (fun member => member.1 = "type") with
  | none => rfl
  | some member =>
    have htype : member.1 = "type" := by simpa using List.find?_some hfound
    simp [sanitizedMember, htype, hkey]

/-- No secret, no payload and no encoded document is left at any depth. -/
theorem sanitized_everywhere (h : RedactionStands env) (value : Value) :
    Everywhere (Sanitized env) (sanitizeJson env value) := by
  cases value with
  | null | bool | number =>
    rw [sanitizeJson]
    · exact (everywhere_scalar rfl).mpr trivial
    all_goals rintro _ ⟨⟩
  | string text =>
    rw [sanitizeJson]
    split_ifs with hbinary
    · exact marker_sanitized h List.mem_cons_self
    · split
      · next parsed hparsed =>
        split_ifs with hcomposite
        · exact sanitized_everywhere h parsed
        · rw [everywhere_scalar rfl]
          apply h.plain ⟨by simpa using hbinary, fun other hother => ?_⟩
          rw [hparsed] at hother
          rw [← Option.some.inj hother]
          simpa using hcomposite
      · next hnone =>
        rw [everywhere_scalar rfl]
        apply h.plain ⟨by simpa using hbinary, fun other hother => ?_⟩
        rw [hnone] at hother
        cases hother
  | array items =>
    rw [sanitizeJson, everywhere_array]
    refine ⟨trivial, fun item hitem => ?_⟩
    obtain ⟨source, -, rfl⟩ := List.mem_map.mp hitem
    exact sanitized_everywhere h source.1
  | object members =>
    rw [sanitizeJson_object]
    split
    · next partType hmedia =>
      obtain ⟨-, hname⟩ := Option.filter_eq_some_iff.mp hmedia
      exact marker_sanitized h (List.mem_cons_of_mem _ (isMediaType_iff.mp hname))
    · next hplain =>
      apply mapStrings_sanitized h
      rw [everywhere_object]
      refine ⟨⟨?_, ?_, ?_⟩, fun member hmember => ?_⟩
      · intro member hmember
        obtain ⟨source, hsource, rfl⟩ := List.mem_map.mp hmember
        change isSecretKey source.1 = false
        simpa using (List.mem_filter.mp hsource).2
      · intro member hmember hkey
        obtain ⟨source, hsource, rfl⟩ := List.mem_map.mp hmember
        exact if_pos hkey
      · -- a type that is left is no media type, or the object had become a marker
        intro partType htype hisMedia
        rw [type_sanitizedMembers] at htype
        obtain ⟨kept, hkept, hstring⟩ := Option.bind_eq_some_iff.mp htype
        obtain ⟨source, hsource, rfl⟩ := Option.map_eq_some_iff.mp hkept
        obtain ⟨text, rfl, htext, rfl⟩ := sanitizeJson_string (asStr_eq_some hstring)
        have hname := (h.media_iff htext).mp hisMedia
        rw [hsource] at hplain
        simp [Value.asStr, hname] at hplain
      · obtain ⟨source, hsource, rfl⟩ := List.mem_map.mp hmember
        rw [sanitizedMember]
        split
        · exact marker_sanitized h List.mem_cons_self
        · exact sanitized_everywhere h source.2
termination_by value.weight
decreasing_by
  · rw [Value.weight]
    exact Nat.lt_succ_of_le (env.shrinks text _ ‹_›)
  · rw [Value.weight]
    exact Nat.lt_succ_of_le (Value.weight_le_items source.2)
  · rw [Value.weight]
    exact Nat.lt_succ_of_le (Value.weight_le_members (List.mem_filter.mp hsource).1)

end sanitized

section met

def metTexts : List String := "Cargo.toml" :: "note" :: markerTypes

def metPatterns : Patterns := { jsonWebToken := fun text => if text ∈ metTexts then text else "" }

def metEnv : ConversationEnv := ⟨Text.codec, Text.codec_shrinks, metPatterns⟩

theorem redact_met {text : String} (h : text ∈ metTexts) : redact metEnv text = text := by
  have hall : ∀ known ∈ metTexts, redactUrlSafeCredentials known = known := by decide
  have hredact : redact metEnv text = redactUrlSafeCredentials (if text ∈ metTexts then text else "") := rfl
  rw [hredact, if_pos h]
  exact hall text h

theorem metEnv_stands : RedactionStands metEnv := by
  have hempty : redactUrlSafeCredentials "" = "" := by decide
  constructor
  · intro text htext hmedia
    by_cases hmet : text ∈ metTexts
    · rw [redact_met hmet]
      exact ⟨htext, hmedia⟩
    · have hredact : redact metEnv text = redactUrlSafeCredentials (if text ∈ metTexts then text else "") := rfl
      rw [hredact, if_neg hmet, hempty]
      refine ⟨⟨by decide, fun parsed hparsed => ?_⟩, by decide⟩
      exact nomatch hparsed
  · intro partType hmarker
    refine ⟨redact_met (List.mem_cons_of_mem _ (List.mem_cons_of_mem _ hmarker)), ?_⟩
    have hall : ∀ name ∈ markerTypes, Text.codec.fromStr name = none := by decide
    exact hall partType hmarker

theorem sanitized_everywhere_arguments : Everywhere (Sanitized metEnv) (sanitizeJson metEnv (.object [
    ("authorization", .string "Bearer sk-live-secret"), ("data", .string "data:image/png;base64,c2VjcmV0"),
    ("image", .object [("type", .string "input_image"), ("file_data", .string "raw")]),
    ("input", .string "\x7b\"password\":\"x\"\x7d"), ("note", .string "note"), ("path", .string "Cargo.toml")])) :=
  sanitized_everywhere metEnv_stands _

end met

end Prelay.Conversation
