import Mathlib.Data.List.Perm.Basic
import Prelay.JsonMembers
import Prelay.JsonTorn
import Prelay.PersistedIndex
import Prelay.Utf8

namespace Prelay.Rollout

open Json

def ConversationFormat.asStr : ConversationFormat → String
  | .v1 => "v1"
  | .legacy => "legacy"

def formatOf : Value → Option ConversationFormat
  | .string "v1" | .object [("v1", .null)] => some .v1
  | .string "legacy" | .object [("legacy", .null)] => some .legacy
  | _ => none

def optionalU64 : Option Value → Option (Option ℕ)
  | none | some .null => some none
  | some value => value.asU64.map some

def PersistedStamp.toValue (stamp : PersistedStamp) : Value :=
  .object [("len", .nat stamp.len), ("modified_nanos", .ofOption .nat stamp.modifiedNanos)]

def persistedStampOf (value : Value) : Option PersistedStamp :=
  match value with
  | .object _ => do some ⟨← (value.get "len").bind Value.asU64, ← optionalU64 (value.get "modified_nanos")⟩
  | .array [len, modifiedNanos] => do some ⟨← len.asU64, ← optionalU64 (some modifiedNanos)⟩
  | _ => none

def optionalStamp : Option Value → Option (Option PersistedStamp)
  | none | some .null => some none
  | some value => (persistedStampOf value).map some

def refsOf (value : Value) : Option (List ℕ) := value.asArray.bind (fun items => items.mapM Value.asU64)

section maps

variable {α : Type} (encode : α → Value) (decode : Value → Option α)

def mapToValue (entries : List (String × α)) : Value := .object (entries.map (fun p => (p.1, encode p.2)))

def mapOf : Value → Option (List (String × α))
  | .object members => members.mapM (fun m => (decode m.2).map (fun a => (m.1, a)))
  | _ => none

end maps

namespace PersistedThreadIndex

def fieldNames : List String := ["version", "thread_path", "relative_path", "format", "source_stamp", "base_stamp",
  "line_count", "seq", "window_id", "generation", "content_count", "content_sha256", "content_event_count",
  "event_refs", "item_refs"]

def members (index : PersistedThreadIndex) : List (String × Value) := [
  ("version", .nat index.version),
  ("thread_path", .string index.threadPath),
  ("relative_path", .string index.relativePath),
  ("format", .string index.format.asStr),
  ("source_stamp", index.sourceStamp.toValue),
  ("base_stamp", .ofOption PersistedStamp.toValue index.baseStamp),
  ("line_count", .nat index.lineCount),
  ("seq", .nat index.seq),
  ("window_id", .ofOption .string index.windowId),
  ("generation", .ofOption .nat index.generation),
  ("content_count", .nat index.contentCount),
  ("content_sha256", .string index.contentSha256),
  ("content_event_count", .nat index.contentEventCount),
  ("event_refs", mapToValue (fun refs => .array (refs.map .nat)) index.eventRefs),
  ("item_refs", mapToValue .nat index.itemRefs)]

def toValue (index : PersistedThreadIndex) : Value := .object index.members

end PersistedThreadIndex

def indexOfFields (field : String → Option Value) : Option PersistedThreadIndex := do
  some {
    version := ← ((field "version").bind Value.asU64).filter (· < 256)
    threadPath := ← (field "thread_path").bind Value.asStr
    relativePath := ← (field "relative_path").bind Value.asStr
    format := ← (field "format").bind formatOf
    sourceStamp := ← (field "source_stamp").bind persistedStampOf
    baseStamp := ← optionalStamp (field "base_stamp")
    lineCount := ← (field "line_count").bind Value.asU64
    seq := ← (field "seq").bind Value.asU64
    windowId := ← optionalString (field "window_id")
    generation := ← optionalU64 (field "generation")
    contentCount := ← (field "content_count").bind Value.asU64
    contentSha256 := ← (field "content_sha256").bind Value.asStr
    contentEventCount := ← (field "content_event_count").bind Value.asU64
    eventRefs := ← (field "event_refs").bind (mapOf refsOf)
    itemRefs := ← (field "item_refs").bind (mapOf Value.asU64) }

-- a derived struct is read from an object and from an array alike
def persistedIndexOf (value : Value) : Option PersistedThreadIndex :=
  match value with
  | .object _ => indexOfFields (fun name => value.get name)
  | .array items =>
    if items.length = PersistedThreadIndex.fieldNames.length then
      indexOfFields (fun name => items[PersistedThreadIndex.fieldNames.idxOf name]?)
    else none
  | _ => none

def writeIndexFile (serde : SerdeJson) (index : PersistedThreadIndex) : Bytes :=
  Str.utf8 (serde.toStr index.toValue)

def readIndexFile (serde : SerdeJson) (bytes : Bytes) : Option PersistedThreadIndex :=
  ((Str.fromUtf8 bytes).bind serde.fromStr).bind persistedIndexOf

section fields

@[simp]
theorem formatOf_asStr (format : ConversationFormat) : formatOf (.string format.asStr) = some format := by
  cases format with
  | v1 => rfl
  | legacy => rfl

@[simp]
theorem optionalU64_ofOption (n : Option ℕ) : optionalU64 (some (.ofOption .nat n)) = some n := by
  cases n with
  | none => rfl
  | some n => rfl

@[simp]
theorem optionalString_ofOption (s : Option String) : optionalString (some (.ofOption .string s)) = some s := by
  cases s with
  | none => rfl
  | some s => rfl

theorem mapM_asU64 (refs : List ℕ) : (refs.map Value.nat).mapM Value.asU64 = some refs := by
  induction refs with
  | nil => rfl
  | cons ref refs ih =>
    rw [List.map_cons, List.mapM_cons, ih]
    rfl

theorem refsOf_array (refs : List ℕ) : refsOf (.array (refs.map .nat)) = some refs := mapM_asU64 refs

theorem normal_array_nat (refs : List ℕ) : (Value.array (refs.map .nat)).Normal := by
  apply Value.normal_array.mpr
  intro value hvalue
  obtain ⟨ref, -, rfl⟩ := List.mem_map.mp hvalue
  rfl

theorem persistedStampOf_toValue (stamp : PersistedStamp) :
    persistedStampOf stamp.toValue.normalize = some stamp := by
  have hobject : ∃ members, stamp.toValue.normalize = .object members := ⟨_, rfl⟩
  obtain ⟨members, hmembers⟩ := hobject
  have hlen : stamp.toValue.normalize.get "len" = some (.nat stamp.len) := by
    rw [PersistedStamp.toValue, get_normalize]
    rfl
  have hnanos : stamp.toValue.normalize.get "modified_nanos" = some (.ofOption .nat stamp.modifiedNanos) := by
    rw [PersistedStamp.toValue, get_normalize]
    cases stamp.modifiedNanos with
    | none => rfl
    | some time => rfl
  rw [hmembers] at hlen hnanos ⊢
  simp only [persistedStampOf, hlen, hnanos, optionalU64_ofOption]
  rfl

theorem optionalStamp_ofOption (stamp : Option PersistedStamp) :
    optionalStamp (some (Value.ofOption PersistedStamp.toValue stamp).normalize) = some stamp := by
  cases stamp with
  | none => rfl
  | some stamp =>
    have hobject : ∃ members, stamp.toValue.normalize = .object members := ⟨_, rfl⟩
    obtain ⟨members, hmembers⟩ := hobject
    have hstamp := persistedStampOf_toValue stamp
    rw [Value.ofOption, hmembers]
    rw [hmembers] at hstamp
    simp only [optionalStamp, hstamp]
    rfl

end fields

section maps

variable {α : Type} {encode : α → Value} {decode : Value → Option α}

theorem exists_of_perm_map {β : Type} {f : α → β} {bs : List β} {as : List α} (h : bs.Perm (as.map f)) :
    ∃ as' : List α, as'.Perm as ∧ bs = as'.map f := by
  have hcomp := congrFun (congrFun (List.eq_map_comp_perm f) bs) as
  obtain ⟨as', hbs, has⟩ := hcomp.mpr h
  exact ⟨as', has, hbs⟩

theorem mapM_written (hdecode : ∀ a, decode (encode a) = some a) (entries : List (String × α)) :
    (entries.map (fun p => (p.1, encode p.2))).mapM (fun m => (decode m.2).map (fun a => (m.1, a))) =
      some entries := by
  induction entries with
  | nil => rfl
  | cons p entries ih =>
    rw [List.map_cons, List.mapM_cons, ih, hdecode]
    rfl

theorem mapOf_normalize (hdecode : ∀ a, decode (encode a) = some a) (hnormal : ∀ a, (encode a).Normal)
    {entries : List (String × α)} (hkeys : (entries.map Prod.fst).Nodup) :
    ∃ entries', entries'.Perm entries ∧ mapOf decode (mapToValue encode entries).normalize = some entries' := by
  have hmembers : Value.normalizeMembers (entries.map (fun p => (p.1, encode p.2))) =
      entries.map (fun p => (p.1, encode p.2)) := by
    rw [Value.normalizeMembers_eq, List.map_map]
    apply List.map_congr_left
    intro p _
    exact Prod.ext rfl (hnormal p.2)
  have hnames : ((entries.map (fun p => (p.1, encode p.2))).map Prod.fst).Nodup := by
    rw [List.map_map]
    exact hkeys
  obtain ⟨entries', hperm, hcollected⟩ := exists_of_perm_map (collectMembers_perm hnames)
  refine ⟨entries', hperm, ?_⟩
  rw [mapToValue, Value.normalize, hmembers, hcollected]
  exact mapM_written hdecode entries'

end maps

theorem PersistedThreadIndex.get_normalize (index : PersistedThreadIndex) (name : String) (value : Value)
    (h : index.members.find? (fun m => m.1 = name) = some (name, value)) :
    index.toValue.normalize.get name = some value.normalize := by
  have hnames : (index.members.map Prod.fst).Nodup := by
    change PersistedThreadIndex.fieldNames.Nodup
    decide
  have hreverse : (index.members.reverse.map Prod.fst).Nodup := by
    rw [List.map_reverse]
    exact List.nodup_reverse.mpr hnames
  have hfind := find_of_mem hreverse (List.mem_reverse.mpr (List.mem_of_find?_eq_some h))
  rw [toValue, Rollout.get_normalize, hfind]
  rfl

theorem persistedIndexOf_toValue {index : PersistedThreadIndex} (hversion : index.version < 256)
    (hevents : (index.eventRefs.map Prod.fst).Nodup) (hitems : (index.itemRefs.map Prod.fst).Nodup) :
    ∃ eventRefs itemRefs, eventRefs.Perm index.eventRefs ∧ itemRefs.Perm index.itemRefs ∧
      persistedIndexOf index.toValue.normalize =
        some { index with eventRefs := eventRefs, itemRefs := itemRefs } := by
  obtain ⟨eventRefs, heventPerm, heventRefs⟩ := mapOf_normalize refsOf_array normal_array_nat hevents
  obtain ⟨itemRefs, hitemPerm, hitemRefs⟩ :=
    mapOf_normalize (fun n => (rfl : (Value.nat n).asU64 = some n)) (fun _ => rfl) hitems
  refine ⟨eventRefs, itemRefs, heventPerm, hitemPerm, ?_⟩
  have hobject : ∃ members, index.toValue.normalize = .object members := ⟨_, rfl⟩
  obtain ⟨members, hmembers⟩ := hobject
  have hgeneration : (Value.ofOption Value.nat index.generation).normalize = .ofOption .nat index.generation := by
    cases index.generation with
    | none => rfl
    | some generation => rfl
  have hwindow : (Value.ofOption Value.string index.windowId).normalize = .ofOption .string index.windowId := by
    cases index.windowId with
    | none => rfl
    | some windowId => rfl
  have hread : persistedIndexOf index.toValue.normalize =
      indexOfFields (fun name => index.toValue.normalize.get name) := by
    rw [hmembers]
    rfl
  rw [hread, indexOfFields]
  have hget := index.get_normalize
  rw [hget "version" _ rfl, hget "thread_path" _ rfl, hget "relative_path" _ rfl, hget "format" _ rfl,
    hget "source_stamp" _ rfl, hget "base_stamp" _ rfl, hget "line_count" _ rfl, hget "seq" _ rfl,
    hget "window_id" _ rfl, hget "generation" _ rfl, hget "content_count" _ rfl, hget "content_sha256" _ rfl,
    hget "content_event_count" _ rfl, hget "event_refs" _ rfl, hget "item_refs" _ rfl]
  simp only [Option.bind_eq_bind, Option.bind_some, heventRefs, hitemRefs, persistedStampOf_toValue,
    optionalStamp_ofOption, hgeneration, hwindow, optionalU64_ofOption, optionalString_ofOption]
  have hfilter : Option.filter (fun version => decide (version < 256)) (some index.version) = some index.version := by
    simp [Option.filter, hversion]
  simp [Value.nat, Value.normalize, Value.asU64, Value.asStr, hfilter]

theorem stamp_flat (stamp : PersistedStamp) : stamp.toValue.Flat 1 := by
  apply Value.flat_object
  simp [Value.flat_nat, Value.flat_ofOption]

theorem mapToValue_flat {α : Type} {encode : α → Value} {n : ℕ} (h : ∀ a, (encode a).Flat n)
    (entries : List (String × α)) : (mapToValue encode entries).Flat (n + 1) := by
  apply Value.flat_object
  intro m hm
  obtain ⟨p, -, rfl⟩ := List.mem_map.mp hm
  exact h p.2

theorem PersistedThreadIndex.toValue_flat (index : PersistedThreadIndex) : index.toValue.Flat 3 := by
  have hrefs : ∀ refs : List ℕ, (Value.array (refs.map .nat)).Flat 1 := by
    intro refs
    apply Value.flat_array
    intro v hv
    obtain ⟨ref, -, rfl⟩ := List.mem_map.mp hv
    exact Value.flat_nat ref
  apply Value.flat_object
  simp only [members, List.forall_mem_cons, Value.flat_nat, Value.flat_string, Value.flat_ofOption, true_and,
    implies_true]
  refine ⟨(stamp_flat _).mono (by decide), ?_, mapToValue_flat hrefs _,
    (mapToValue_flat (fun _ => Value.flat_nat _) _ : (mapToValue Value.nat index.itemRefs).Flat 1).mono (by decide),
    nofun⟩
  exact Value.flat_ofOption (fun stamp => (stamp_flat stamp).mono (by decide)) _

theorem readIndexFile_writeIndexFile {serde : SerdeJson} (hserde : serde.Lawful) {index : PersistedThreadIndex}
    (hversion : index.version < 256) (hevents : (index.eventRefs.map Prod.fst).Nodup)
    (hitems : (index.itemRefs.map Prod.fst).Nodup) :
    ∃ eventRefs itemRefs, eventRefs.Perm index.eventRefs ∧ itemRefs.Perm index.itemRefs ∧
      readIndexFile serde (writeIndexFile serde index) =
        some { index with eventRefs := eventRefs, itemRefs := itemRefs } := by
  obtain ⟨eventRefs, itemRefs, heventPerm, hitemPerm, hread⟩ := persistedIndexOf_toValue hversion hevents hitems
  refine ⟨eventRefs, itemRefs, heventPerm, hitemPerm, ?_⟩
  rw [readIndexFile, writeIndexFile, Str.fromUtf8_utf8, Option.bind_some,
    hserde.fromStr_flat index.toValue_flat (by decide),
    Option.bind_some]
  exact hread

theorem readIndexFile_torn {serde : SerdeJson} (htorn : serde.RejectsTorn) {index : PersistedThreadIndex}
    {bytes : Bytes} (hcut : bytes <+: writeIndexFile serde index) (hne : bytes ≠ writeIndexFile serde index) :
    readIndexFile serde bytes = none := by
  unfold readIndexFile
  cases hutf8 : Str.fromUtf8 bytes with
  | none => rfl
  | some text =>
    obtain rfl := Str.fromUtf8_eq_some.mp hutf8
    have htext : serde.fromStr text = none := by
      apply htorn index.members text (Str.utf8_prefix hcut)
      rintro rfl
      exact hne rfl
    rw [Option.bind_some, htext]
    rfl

end Prelay.Rollout
