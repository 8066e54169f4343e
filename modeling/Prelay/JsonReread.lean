import Prelay.JsonText

namespace Prelay.Json

namespace Value

mutual

def depth : Value → ℕ
  | .array items => depthItems items + 1
  | .object members => depthMembers members + 1
  | _ => 0

def depthItems : List Value → ℕ
  | [] => 0
  | v :: vs => max v.depth (depthItems vs)

def depthMembers : List (String × Value) → ℕ
  | [] => 0
  | (_, v) :: ms => max v.depth (depthMembers ms)

end

mutual

def mapNumbers (f : Number → Number) : Value → Value
  | .number n => .number (f n)
  | .array items => .array (mapNumbersItems f items)
  | .object members => .object (mapNumbersMembers f members)
  | v => v

def mapNumbersItems (f : Number → Number) : List Value → List Value
  | [] => []
  | v :: vs => v.mapNumbers f :: mapNumbersItems f vs

def mapNumbersMembers (f : Number → Number) : List (String × Value) → List (String × Value)
  | [] => []
  | (k, v) :: ms => (k, v.mapNumbers f) :: mapNumbersMembers f ms

end

theorem depthItems_le {items : List Value} {n : ℕ} : depthItems items ≤ n ↔ ∀ v ∈ items, v.depth ≤ n := by
  induction items with
  | nil => simp [depthItems]
  | cons v vs ih => simp [depthItems, ih]

theorem depthMembers_le {members : List (String × Value)} {n : ℕ} :
    depthMembers members ≤ n ↔ ∀ m ∈ members, m.2.depth ≤ n := by
  induction members with
  | nil => simp [depthMembers]
  | cons m ms ih => simp [depthMembers, ih]

theorem depth_array_le {items : List Value} {n : ℕ} :
    (Value.array items).depth ≤ n + 1 ↔ ∀ v ∈ items, v.depth ≤ n := by
  rw [depth, Nat.add_le_add_iff_right, depthItems_le]

theorem depth_object_le {members : List (String × Value)} {n : ℕ} :
    (Value.object members).depth ≤ n + 1 ↔ ∀ m ∈ members, m.2.depth ≤ n := by
  rw [depth, Nat.add_le_add_iff_right, depthMembers_le]

theorem depth_get_lt {v w : Value} {key : String} (h : v.get key = some w) : w.depth < v.depth := by
  cases v with
  | object members =>
    obtain ⟨m, hm, rfl⟩ := Option.map_eq_some_iff.mp h
    exact Nat.lt_succ_of_le (depthMembers_le.mp le_rfl m (List.mem_of_find?_eq_some hm))
  | _ => exact nomatch h

mutual

theorem depth_normalize_le : ∀ v : Value, v.normalize.depth ≤ v.depth
  | .null | .bool _ | .number _ | .string _ => le_rfl
  | .array items => depth_array_le.mpr (depth_normalizeItems_le items)
  | .object members =>
    depth_object_le.mpr (fun m hm => depth_normalizeMembers_le members m (mem_of_mem_collectMembers hm))

theorem depth_normalizeItems_le : ∀ items : List Value, ∀ v ∈ normalizeItems items, v.depth ≤ depthItems items
  | [], _, h => nomatch h
  | v :: vs, w, h => by
    rcases List.mem_cons.mp h with rfl | h
    · exact (depth_normalize_le v).trans (le_max_left _ _)
    · exact (depth_normalizeItems_le vs w h).trans (le_max_right _ _)

theorem depth_normalizeMembers_le :
    ∀ members : List (String × Value), ∀ m ∈ normalizeMembers members, m.2.depth ≤ depthMembers members
  | [], _, h => nomatch h
  | (k, v) :: ms, m, h => by
    rcases List.mem_cons.mp h with rfl | h
    · exact (depth_normalize_le v).trans (le_max_left _ _)
    · exact (depth_normalizeMembers_le ms m h).trans (le_max_right _ _)

end

mutual

theorem depth_mapStrings (f : String → String) : ∀ v : Value, (v.mapStrings f).depth = v.depth
  | .null | .bool _ | .number _ | .string _ => rfl
  | .array items => congrArg (· + 1) (depth_mapStringsItems f items)
  | .object members => congrArg (· + 1) (depth_mapStringsMembers f members)

theorem depth_mapStringsItems (f : String → String) :
    ∀ items : List Value, depthItems (mapStringsItems f items) = depthItems items
  | [] => rfl
  | v :: vs => congrArg₂ max (depth_mapStrings f v) (depth_mapStringsItems f vs)

theorem depth_mapStringsMembers (f : String → String) :
    ∀ members : List (String × Value), depthMembers (mapStringsMembers f members) = depthMembers members
  | [] => rfl
  | (_, v) :: ms => congrArg₂ max (depth_mapStrings f v) (depth_mapStringsMembers f ms)

end

section numbers

variable {f : Number → Number}

mutual

theorem depth_mapNumbers (f : Number → Number) : ∀ v : Value, (v.mapNumbers f).depth = v.depth
  | .null | .bool _ | .number _ | .string _ => rfl
  | .array items => congrArg (· + 1) (depth_mapNumbersItems f items)
  | .object members => congrArg (· + 1) (depth_mapNumbersMembers f members)

theorem depth_mapNumbersItems (f : Number → Number) :
    ∀ items : List Value, depthItems (mapNumbersItems f items) = depthItems items
  | [] => rfl
  | v :: items => congrArg₂ max (depth_mapNumbers f v) (depth_mapNumbersItems f items)

theorem depth_mapNumbersMembers (f : Number → Number) :
    ∀ members : List (String × Value), depthMembers (mapNumbersMembers f members) = depthMembers members
  | [] => rfl
  | (_, v) :: members => congrArg₂ max (depth_mapNumbers f v) (depth_mapNumbersMembers f members)

end

theorem mapNumbersItems_eq (f : Number → Number) (items : List Value) :
    mapNumbersItems f items = items.map (mapNumbers f) := by
  induction items with
  | nil => rfl
  | cons v vs ih => rw [mapNumbersItems, ih, List.map_cons]

theorem mapNumbersMembers_eq (f : Number → Number) (members : List (String × Value)) :
    mapNumbersMembers f members = members.map (fun m => (m.1, m.2.mapNumbers f)) := by
  induction members with
  | nil => rfl
  | cons m ms ih => rw [mapNumbersMembers, ih, List.map_cons]

theorem insertMember_mapNumbers (key : String) (value : Value) (members : List (String × Value)) :
    insertMember key (value.mapNumbers f) (members.map (fun m => (m.1, m.2.mapNumbers f))) =
      (insertMember key value members).map (fun m => (m.1, m.2.mapNumbers f)) := by
  induction members with
  | nil => rfl
  | cons m ms ih =>
    simp only [List.map_cons, insertMember, ih]
    split_ifs <;> rfl

theorem collectMembers_mapNumbers (members : List (String × Value)) :
    collectMembers (members.map (fun m => (m.1, m.2.mapNumbers f))) =
      (collectMembers members).map (fun m => (m.1, m.2.mapNumbers f)) := by
  have hfold : ∀ acc : List (String × Value),
      (members.map (fun m => (m.1, m.2.mapNumbers f))).foldl (fun acc m => insertMember m.1 m.2 acc)
          (acc.map (fun m => (m.1, m.2.mapNumbers f))) =
        (members.foldl (fun acc m => insertMember m.1 m.2 acc) acc).map (fun m => (m.1, m.2.mapNumbers f)) := by
    induction members with
    | nil => intro acc; rfl
    | cons m ms ih =>
      intro acc
      rw [List.map_cons, List.foldl_cons, List.foldl_cons, insertMember_mapNumbers]
      exact ih _
  exact hfold []

mutual

theorem normalize_mapNumbers (f : Number → Number) : ∀ v : Value, (v.mapNumbers f).normalize = v.normalize.mapNumbers f
  | .null | .bool _ | .number _ | .string _ => rfl
  | .array items => by
    simp only [mapNumbers, normalize, normalizeItems_mapNumbers f items]
  | .object members => by
    rw [mapNumbers, normalize, normalizeMembers_mapNumbers f members, normalize, mapNumbers, mapNumbersMembers_eq,
      mapNumbersMembers_eq, collectMembers_mapNumbers]

theorem normalizeItems_mapNumbers (f : Number → Number) :
    ∀ items : List Value, normalizeItems (mapNumbersItems f items) = mapNumbersItems f (normalizeItems items)
  | [] => rfl
  | v :: vs => congrArg₂ List.cons (normalize_mapNumbers f v) (normalizeItems_mapNumbers f vs)

theorem normalizeMembers_mapNumbers (f : Number → Number) :
    ∀ members : List (String × Value),
      normalizeMembers (mapNumbersMembers f members) = mapNumbersMembers f (normalizeMembers members)
  | [] => rfl
  | (k, v) :: ms =>
    congrArg₂ List.cons (congrArg (Prod.mk k) (normalize_mapNumbers f v)) (normalizeMembers_mapNumbers f ms)

end

mutual

theorem mapStrings_mapNumbers (f : Number → Number) (g : String → String) :
    ∀ v : Value, (v.mapNumbers f).mapStrings g = (v.mapStrings g).mapNumbers f
  | .null | .bool _ | .number _ | .string _ => rfl
  | .array items => congrArg Value.array (mapStringsItems_mapNumbers f g items)
  | .object members => congrArg Value.object (mapStringsMembers_mapNumbers f g members)

theorem mapStringsItems_mapNumbers (f : Number → Number) (g : String → String) :
    ∀ items : List Value, mapStringsItems g (mapNumbersItems f items) = mapNumbersItems f (mapStringsItems g items)
  | [] => rfl
  | v :: vs => congrArg₂ List.cons (mapStrings_mapNumbers f g v) (mapStringsItems_mapNumbers f g vs)

theorem mapStringsMembers_mapNumbers (f : Number → Number) (g : String → String) :
    ∀ members : List (String × Value),
      mapStringsMembers g (mapNumbersMembers f members) = mapNumbersMembers f (mapStringsMembers g members)
  | [] => rfl
  | (k, v) :: ms =>
    congrArg₂ List.cons (congrArg (Prod.mk k) (mapStrings_mapNumbers f g v)) (mapStringsMembers_mapNumbers f g ms)

end

theorem mapNumbers_normal {v : Value} (h : v.Normal) : (v.mapNumbers f).Normal := by
  rw [Normal, normalize_mapNumbers, h]

theorem get_mapNumbers (key : String) (v : Value) : (v.mapNumbers f).get key = (v.get key).map (mapNumbers f) := by
  cases v with
  | object members =>
    simp only [mapNumbers, get, mapNumbersMembers_eq, List.find?_map, Option.map_map]
    rfl
  | _ => rfl

@[simp]
theorem mapNumbers_string (s : String) : (Value.string s).mapNumbers f = .string s := rfl

@[simp]
theorem asStr_mapNumbers (v : Value) : (v.mapNumbers f).asStr = v.asStr := by
  cases v <;> rfl

end numbers

end Value

/-- Integers stay as they are, and a number with a fraction or an exponent stays one. -/
structure KeepsIntegers (f : Number → Number) : Prop where
  posInt : ∀ n, f (.posInt n) = .posInt n
  negInt : ∀ n, f (.negInt n) = .negInt n
  float : ∀ negative digits exponent, ∃ negative' digits' exponent',
    f (.float negative digits exponent) = .float negative' digits' exponent'

/-- From this depth on a text is refused. -/
def recursionLimit : ℕ := 128

structure Value.Built (v : Value) : Prop where
  normal : v.Normal
  shallow : v.depth < recursionLimit

theorem Value.built_array {items : List Value} :
    (Value.array items).Built ↔ ∀ v ∈ items, v.Normal ∧ v.depth + 1 < recursionLimit := by
  have hdepth : (Value.array items).depth < recursionLimit ↔ ∀ v ∈ items, v.depth + 1 < recursionLimit := by
    rw [show recursionLimit = 126 + 1 + 1 from rfl, Nat.lt_succ_iff, depth_array_le]
    exact forall₂_congr fun v _ => (Nat.lt_succ_iff.trans (Nat.add_le_add_iff_right)).symm
  constructor
  · rintro ⟨hnormal, hshallow⟩ v hv
    exact ⟨normal_array.mp hnormal v hv, hdepth.mp hshallow v hv⟩
  · intro h
    exact ⟨normal_array.mpr fun v hv => (h v hv).1, hdepth.mpr fun v hv => (h v hv).2⟩

theorem Value.Built.mapNumbers {v : Value} (h : v.Built) (f : Number → Number) : (v.mapNumbers f).Built :=
  ⟨mapNumbers_normal h.normal, (depth_mapNumbers f v).trans_lt h.shallow⟩

namespace SerdeJson

def reread (serde : SerdeJson) (n : Number) : Number :=
  match serde.fromStr (serde.toStr (.number n)) with
  | some (.number m) => m
  | _ => n

/-- A text that was printed is read up to the recursion limit, and gives back the value with its floats rounded once
more. -/
structure Lawful (serde : SerdeJson) : Prop where
  reads : ∀ v : Value, v.depth < recursionLimit → (serde.fromStr (serde.toStr v)).isSome = true
  read_eq : ∀ v w, serde.fromStr (serde.toStr v) = some w → w = v.normalize.mapNumbers serde.reread
  keepsIntegers : KeepsIntegers serde.reread
  no_control : ∀ v, ∀ c ∈ (serde.toStr v).toList, 32 ≤ c.toNat

/-- A text that was printed is refused from the recursion limit on. -/
def Refuses (serde : SerdeJson) : Prop :=
  ∀ v : Value, recursionLimit ≤ v.normalize.depth → serde.fromStr (serde.toStr v) = none

/-- Every text that was printed is read, and gives back the value. -/
structure Exact (serde : SerdeJson) : Prop where
  fromStr_toStr : ∀ v, serde.fromStr (serde.toStr v) = some v.normalize
  no_control : ∀ v, ∀ c ∈ (serde.toStr v).toList, 32 ≤ c.toNat

end SerdeJson

namespace Value

theorem asU64_mapNumbers {f : Number → Number} (hf : KeepsIntegers f) (v : Value) :
    (v.mapNumbers f).asU64 = v.asU64 := by
  cases v with
  | number n => cases n with
    | posInt n => simp [mapNumbers, asU64, hf.posInt]
    | negInt n => simp [mapNumbers, asU64, hf.negInt]
    | float negative digits exponent =>
      obtain ⟨negative', digits', exponent', heq⟩ := hf.float negative digits exponent
      simp [mapNumbers, asU64, heq]
  | _ => rfl

theorem mapNumbers_nat {f : Number → Number} (hf : KeepsIntegers f) (n : ℕ) : (nat n).mapNumbers f = nat n := by
  rw [nat, mapNumbers, hf.posInt]

theorem mapNumbers_int {f : Number → Number} (hf : KeepsIntegers f) (n : ℤ) : (int n).mapNumbers f = int n := by
  cases n with
  | ofNat n => rw [int, mapNumbers, hf.posInt]
  | negSucc n => rw [int, mapNumbers, hf.negInt]

mutual

theorem mapNumbers_eq_self {f : Number → Number} (hf : ∀ n, f n = n) : ∀ v : Value, v.mapNumbers f = v
  | .null | .bool _ | .string _ => rfl
  | .number n => congrArg Value.number (hf n)
  | .array items => congrArg Value.array (mapNumbersItems_eq_self hf items)
  | .object members => congrArg Value.object (mapNumbersMembers_eq_self hf members)

theorem mapNumbersItems_eq_self {f : Number → Number} (hf : ∀ n, f n = n) :
    ∀ items : List Value, mapNumbersItems f items = items
  | [] => rfl
  | v :: vs => congrArg₂ List.cons (mapNumbers_eq_self hf v) (mapNumbersItems_eq_self hf vs)

theorem mapNumbersMembers_eq_self {f : Number → Number} (hf : ∀ n, f n = n) :
    ∀ members : List (String × Value), mapNumbersMembers f members = members
  | [] => rfl
  | (k, v) :: ms =>
    congrArg₂ List.cons (congrArg (Prod.mk k) (mapNumbers_eq_self hf v)) (mapNumbersMembers_eq_self hf ms)

end

end Value

structure Value.Flat (n : ℕ) (v : Value) : Prop where
  depth_le : v.depth ≤ n
  kept : ∀ f, KeepsIntegers f → v.mapNumbers f = v

structure Value.Stable (n : ℕ) (v : Value) : Prop extends v.Flat n where
  normal : v.Normal

namespace Value

variable {n : ℕ}

theorem Flat.mono {v : Value} {m : ℕ} (h : v.Flat n) (hle : n ≤ m) : v.Flat m := ⟨h.depth_le.trans hle, h.kept⟩

theorem Flat.normalize {v : Value} (h : v.Flat n) : v.normalize.Flat n where
  depth_le := (depth_normalize_le v).trans h.depth_le
  kept f hf := by rw [← normalize_mapNumbers, h.kept f hf]

theorem Flat.mapStrings {v : Value} (h : v.Flat n) (g : String → String) : (v.mapStrings g).Flat n where
  depth_le := (depth_mapStrings g v).trans_le h.depth_le
  kept f hf := by rw [← mapStrings_mapNumbers, h.kept f hf]

theorem flat_string (s : String) : (Value.string s).Flat n := ⟨Nat.zero_le n, fun _ _ => rfl⟩

theorem flat_null : Value.null.Flat n := ⟨Nat.zero_le n, fun _ _ => rfl⟩

theorem flat_nat (k : ℕ) : (nat k).Flat n := ⟨Nat.zero_le n, fun _ hf => mapNumbers_nat hf k⟩

theorem flat_int (k : ℤ) : (int k).Flat n := by
  refine ⟨?_, fun _ hf => mapNumbers_int hf k⟩
  cases k <;> exact Nat.zero_le n

theorem flat_ofOption {α : Type} {f : α → Value} (h : ∀ a, (f a).Flat n) (a : Option α) : (ofOption f a).Flat n := by
  cases a with
  | none => exact flat_null
  | some a => exact h a

theorem flat_array {items : List Value} (h : ∀ v ∈ items, v.Flat n) : (Value.array items).Flat (n + 1) where
  depth_le := depth_array_le.mpr (fun v hv => (h v hv).depth_le)
  kept f hf := by
    rw [mapNumbers, mapNumbersItems_eq, map_eq_self_iff.mpr (fun v hv => (h v hv).kept f hf)]

theorem flat_object {members : List (String × Value)} (h : ∀ m ∈ members, m.2.Flat n) :
    (Value.object members).Flat (n + 1) where
  depth_le := depth_object_le.mpr (fun m hm => (h m hm).depth_le)
  kept f hf := by
    rw [mapNumbers, mapNumbersMembers_eq]
    congr 1
    apply map_eq_self_iff.mpr
    intro m hm
    rw [(h m hm).kept f hf]

theorem Stable.mono {v : Value} {m : ℕ} (h : v.Stable n) (hle : n ≤ m) : v.Stable m := ⟨h.toFlat.mono hle, h.normal⟩

theorem stable_string (s : String) : (Value.string s).Stable n := ⟨flat_string s, rfl⟩

theorem stable_nat (k : ℕ) : (nat k).Stable n := ⟨flat_nat k, rfl⟩

theorem stable_bool (b : Bool) : (Value.bool b).Stable n := ⟨⟨Nat.zero_le n, fun _ _ => rfl⟩, rfl⟩

theorem stable_int (k : ℤ) : (int k).Stable n := by
  refine ⟨flat_int k, ?_⟩
  cases k <;> rfl

theorem stable_ofOption {α : Type} {f : α → Value} (h : ∀ a, (f a).Stable n) (a : Option α) :
    (ofOption f a).Stable n := by
  cases a with
  | none => exact ⟨flat_null, rfl⟩
  | some a => exact h a

theorem stable_array {items : List Value} (h : ∀ v ∈ items, v.Stable n) : (Value.array items).Stable (n + 1) :=
  ⟨flat_array (fun v hv => (h v hv).toFlat), normal_array.mpr (fun v hv => (h v hv).normal)⟩

theorem stable_strings (texts : List String) : (Value.array (texts.map .string)).Stable 1 := by
  apply stable_array
  intro v hv
  obtain ⟨text, -, rfl⟩ := List.mem_map.mp hv
  exact stable_string text

theorem stable_json {members : List (String × Value)} (h : ∀ m ∈ members, m.2.Stable n) :
    (json members).Stable (n + 1) :=
  ⟨flat_object (fun m hm => (h m (mem_of_mem_collectMembers hm)).toFlat), json_normal (fun m hm => (h m hm).normal)⟩

end Value

namespace SerdeJson

variable {serde : SerdeJson}

theorem Lawful.fromStr_eq (h : serde.Lawful) {v : Value} (hdepth : v.depth < recursionLimit) :
    serde.fromStr (serde.toStr v) = some (v.normalize.mapNumbers serde.reread) := by
  obtain ⟨w, hw⟩ := Option.isSome_iff_exists.mp (h.reads v hdepth)
  rw [hw, h.read_eq v w hw]

theorem Lawful.fromStr_built (h : serde.Lawful) {v : Value} (hv : v.Built) :
    serde.fromStr (serde.toStr v) = some (v.mapNumbers serde.reread) := by
  rw [h.fromStr_eq hv.shallow, hv.normal]

theorem Lawful.fromStr_flat (h : serde.Lawful) {n : ℕ} {v : Value} (hv : v.Flat n) (hn : n < recursionLimit) :
    serde.fromStr (serde.toStr v) = some v.normalize := by
  rw [h.fromStr_eq (hv.depth_le.trans_lt hn), ← Value.normalize_mapNumbers, hv.kept _ h.keepsIntegers]

theorem Lawful.fromStr_stable (h : serde.Lawful) {n : ℕ} {v : Value} (hv : v.Stable n) (hn : n < recursionLimit) :
    serde.fromStr (serde.toStr v) = some v := by
  rw [h.fromStr_flat hv.toFlat hn, hv.normal]

theorem Lawful.toStr_inj (h : serde.Lawful) {v w : Value} (hv : v.depth < recursionLimit)
    (heq : serde.toStr v = serde.toStr w) :
    v.normalize.mapNumbers serde.reread = w.normalize.mapNumbers serde.reread := by
  apply h.read_eq
  rw [← heq]
  exact h.fromStr_eq hv

theorem Exact.reread_eq (h : serde.Exact) (n : Number) : serde.reread n = n := by
  rw [reread, h.fromStr_toStr]
  rfl

theorem Exact.lawful (h : serde.Exact) : serde.Lawful where
  reads v _ := by
    rw [h.fromStr_toStr]
    rfl
  read_eq v w hw := by
    rw [h.fromStr_toStr, Option.some.injEq] at hw
    rw [← hw, Value.mapNumbers_eq_self h.reread_eq]
  keepsIntegers := ⟨fun n => h.reread_eq _, fun n => h.reread_eq _, fun negative digits exponent =>
    ⟨negative, digits, exponent, h.reread_eq _⟩⟩
  no_control := h.no_control

end SerdeJson

end Prelay.Json
