import Mathlib.Data.String.Basic
import Mathlib.Data.List.Basic

namespace Prelay.Json

/-- An integer is kept exactly: `negInt n` is `-(n + 1)`. -/
inductive Number where
  | posInt (n : ℕ)
  | negInt (n : ℕ)
  | float (negative : Bool) (digits : ℕ) (exponent : ℤ)
  deriving DecidableEq, Repr

inductive Value where
  | null
  | bool (b : Bool)
  | number (n : Number)
  | string (s : String)
  | array (items : List Value)
  | object (members : List (String × Value))
  deriving Repr, Inhabited

namespace Value

mutual

def decEq : (v w : Value) → Decidable (v = w)
  | .null, .null => isTrue rfl
  | .bool a, .bool b => decidable_of_iff (a = b) (by simp)
  | .number a, .number b => decidable_of_iff (a = b) (by simp)
  | .string a, .string b => decidable_of_iff (a = b) (by simp)
  | .array a, .array b => match decEqItems a b with
    | isTrue h => isTrue (h ▸ rfl)
    | isFalse h => isFalse (fun he => h (Value.array.inj he))
  | .object a, .object b => match decEqMembers a b with
    | isTrue h => isTrue (h ▸ rfl)
    | isFalse h => isFalse (fun he => h (Value.object.inj he))
  | .null, .bool _ | .null, .number _ | .null, .string _ | .null, .array _ | .null, .object _
  | .bool _, .null | .bool _, .number _ | .bool _, .string _ | .bool _, .array _ | .bool _, .object _
  | .number _, .null | .number _, .bool _ | .number _, .string _ | .number _, .array _
  | .number _, .object _ | .string _, .null | .string _, .bool _ | .string _, .number _
  | .string _, .array _ | .string _, .object _ | .array _, .null | .array _, .bool _
  | .array _, .number _ | .array _, .string _ | .array _, .object _ | .object _, .null
  | .object _, .bool _ | .object _, .number _ | .object _, .string _ | .object _, .array _ =>
    isFalse (fun h => nomatch h)

def decEqItems : (vs ws : List Value) → Decidable (vs = ws)
  | [], [] => isTrue rfl
  | [], _ :: _ => isFalse (fun h => nomatch h)
  | _ :: _, [] => isFalse (fun h => nomatch h)
  | v :: vs, w :: ws => match decEq v w, decEqItems vs ws with
    | isTrue h, isTrue hs => isTrue (h ▸ hs ▸ rfl)
    | isFalse h, _ => isFalse (fun he => h (List.cons.inj he).1)
    | _, isFalse h => isFalse (fun he => h (List.cons.inj he).2)

def decEqMembers : (vs ws : List (String × Value)) → Decidable (vs = ws)
  | [], [] => isTrue rfl
  | [], _ :: _ => isFalse (fun h => nomatch h)
  | _ :: _, [] => isFalse (fun h => nomatch h)
  | (k, v) :: vs, (l, w) :: ws =>
    if hk : k = l then match decEq v w, decEqMembers vs ws with
      | isTrue h, isTrue hs => isTrue (hk ▸ h ▸ hs ▸ rfl)
      | isFalse h, _ => isFalse (fun he => h (Prod.mk.inj (List.cons.inj he).1).2)
      | _, isFalse h => isFalse (fun he => h (List.cons.inj he).2)
    else isFalse (fun he => hk (Prod.mk.inj (List.cons.inj he).1).1)

end

instance : DecidableEq Value := decEq

end Value

/-- Members are kept in key order; an insertion replaces an earlier member of the same key. -/
def insertMember (key : String) (value : Value) : List (String × Value) → List (String × Value)
  | [] => [(key, value)]
  | (k, v) :: members =>
    if key < k then (key, value) :: (k, v) :: members
    else if key = k then (key, value) :: members
    else (k, v) :: insertMember key value members

def collectMembers (members : List (String × Value)) : List (String × Value) :=
  members.foldl (fun acc m => insertMember m.1 m.2 acc) []

def removeMember (key : String) (members : List (String × Value)) : List (String × Value) :=
  members.filter (fun m => m.1 ≠ key)

namespace Value

def get (key : String) : Value → Option Value
  | .object members => (members.find? (fun m => m.1 = key)).map Prod.snd
  | _ => none

def parseIndex (key : String) : Option ℕ :=
  match key.toList with
  | [] | '0' :: _ :: _ => none
  | cs => if cs.all Char.isDigit then some (Nat.ofDigitChars 10 cs 0) else none

def child (key : String) : Value → Option Value
  | .array items => (parseIndex key).bind (fun i => items[i]?)
  | v => v.get key

def pointer (path : List String) (v : Value) : Option Value :=
  path.foldl (fun v key => v.bind (child key)) (some v)

def asStr : Value → Option String
  | .string s => some s
  | _ => none

def asArray : Value → Option (List Value)
  | .array items => some items
  | _ => none

def asU64 : Value → Option ℕ
  | .number (.posInt n) => some n
  | _ => none

def isNull : Value → Bool
  | .null => true
  | _ => false

def isString : Value → Bool
  | .string _ => true
  | _ => false

def ofOption (f : α → Value) : Option α → Value
  | none => .null
  | some a => f a

def nat (n : ℕ) : Value := .number (.posInt n)

def json (members : List (String × Value)) : Value := .object (collectMembers members)

def int : ℤ → Value
  | .ofNat n => .number (.posInt n)
  | .negSucc n => .number (.negInt n)

mutual

/-- The value a reader builds: members in key order, the last of equal keys kept. -/
def normalize : Value → Value
  | .array items => .array (normalizeItems items)
  | .object members => .object (collectMembers (normalizeMembers members))
  | v => v

def normalizeItems : List Value → List Value
  | [] => []
  | v :: vs => v.normalize :: normalizeItems vs

def normalizeMembers : List (String × Value) → List (String × Value)
  | [] => []
  | (k, v) :: ms => (k, v.normalize) :: normalizeMembers ms

end

mutual

def mapStrings (f : String → String) : Value → Value
  | .string s => .string (f s)
  | .array items => .array (mapStringsItems f items)
  | .object members => .object (mapStringsMembers f members)
  | v => v

def mapStringsItems (f : String → String) : List Value → List Value
  | [] => []
  | v :: vs => v.mapStrings f :: mapStringsItems f vs

def mapStringsMembers (f : String → String) : List (String × Value) → List (String × Value)
  | [] => []
  | (k, v) :: ms => (k, v.mapStrings f) :: mapStringsMembers f ms

end

end Value

theorem map_eq_self_iff {α : Type} {f : α → α} {as : List α} : as.map f = as ↔ ∀ a ∈ as, f a = a := by
  induction as with
  | nil => simp
  | cons a as ih => simp [ih]

def KeysSorted (members : List (String × Value)) : Prop :=
  (members.map Prod.fst).Pairwise (· < ·)

theorem mem_insertMember {key : String} {value : Value} {members : List (String × Value)}
    {m : String × Value} (h : m ∈ insertMember key value members) :
    m = (key, value) ∨ m ∈ members := by
  induction members with
  | nil => simpa [insertMember] using h
  | cons head members ih =>
    obtain ⟨k, v⟩ := head
    simp only [insertMember] at h
    split_ifs at h with hlt heq
    · simpa using h
    · rcases List.mem_cons.mp h with h | h
      · exact Or.inl h
      · exact Or.inr (List.mem_cons_of_mem _ h)
    · rcases List.mem_cons.mp h with h | h
      · exact Or.inr (h ▸ List.mem_cons_self)
      · rcases ih h with h | h
        · exact Or.inl h
        · exact Or.inr (List.mem_cons_of_mem _ h)

theorem insertMember_sorted (key : String) (value : Value) (members : List (String × Value))
    (h : KeysSorted members) : KeysSorted (insertMember key value members) := by
  induction members with
  | nil => simp [insertMember, KeysSorted]
  | cons head members ih =>
    obtain ⟨k, v⟩ := head
    obtain ⟨hhead, htail⟩ := List.pairwise_cons.mp h
    simp only [insertMember]
    split_ifs with hlt heq
    · refine List.pairwise_cons.mpr ⟨?_, h⟩
      intro l hl
      rcases List.mem_cons.mp hl with rfl | hl
      · exact hlt
      · exact hlt.trans (hhead l hl)
    · subst heq
      exact h
    · refine List.pairwise_cons.mpr ⟨?_, ih htail⟩
      intro l hl
      obtain ⟨m, hm, rfl⟩ := List.mem_map.mp hl
      rcases mem_insertMember hm with rfl | hm
      · exact lt_of_le_of_ne (not_lt.mp hlt) (fun he => heq he.symm)
      · exact hhead _ (List.mem_map_of_mem hm)

theorem insertMember_last (key : String) (value : Value) (members : List (String × Value))
    (h : ∀ m ∈ members, m.1 < key) : insertMember key value members = members ++ [(key, value)] := by
  induction members with
  | nil => rfl
  | cons head members ih =>
    obtain ⟨k, v⟩ := head
    have hk : k < key := h (k, v) List.mem_cons_self
    simp only [insertMember, if_neg hk.not_gt, if_neg hk.ne', List.cons_append]
    rw [ih (fun m hm => h m (List.mem_cons_of_mem _ hm))]

theorem find_insertMember (key k : String) (v : Value) (members : List (String × Value)) :
    (insertMember k v members).find? (fun m => m.1 = key) =
      if k = key then some (k, v) else members.find? (fun m => m.1 = key) := by
  induction members with
  | nil =>
    simp only [insertMember, List.find?_cons, List.find?_nil]
    split_ifs with h <;> simp [h]
  | cons head members ih =>
    obtain ⟨l, w⟩ := head
    by_cases hkey : k = key
    · subst hkey
      rw [if_pos rfl] at ih ⊢
      simp only [insertMember]
      split_ifs with hlt heq
      · simp
      · simp
      · have hl : ¬l = k := fun h => heq h.symm
        simp [hl, ih]
    · rw [if_neg hkey] at ih ⊢
      simp only [insertMember]
      split_ifs with hlt heq
      · simp [hkey]
      · simp [← heq, hkey]
      · simp [List.find?_cons, ih]

theorem find_collectMembers (key : String) (members : List (String × Value)) :
    (collectMembers members).find? (fun m => m.1 = key) = members.reverse.find? (fun m => m.1 = key) := by
  have hfold : ∀ acc : List (String × Value),
      (members.foldl (fun acc m => insertMember m.1 m.2 acc) acc).find? (fun m => m.1 = key) =
        (members.reverse ++ acc).find? (fun m => m.1 = key) := by
    induction members with
    | nil => simp
    | cons m members ih =>
      intro acc
      rw [List.foldl_cons, ih, List.reverse_cons, List.append_assoc, List.find?_append, List.find?_append,
        find_insertMember]
      congr 1
      obtain ⟨k, v⟩ := m
      by_cases hm : k = key <;> simp [hm]
  simpa [collectMembers] using hfold []

theorem foldl_insertMember_sorted (members acc : List (String × Value)) (h : KeysSorted acc) :
    KeysSorted (members.foldl (fun acc m => insertMember m.1 m.2 acc) acc) := by
  induction members generalizing acc with
  | nil => exact h
  | cons m members ih => exact ih _ (insertMember_sorted m.1 m.2 acc h)

theorem collectMembers_sorted (members : List (String × Value)) : KeysSorted (collectMembers members) :=
  foldl_insertMember_sorted members [] List.Pairwise.nil

theorem mem_foldl_insertMember (members acc : List (String × Value)) (m : String × Value)
    (h : m ∈ members.foldl (fun acc m => insertMember m.1 m.2 acc) acc) : m ∈ acc ∨ m ∈ members := by
  induction members generalizing acc with
  | nil => exact Or.inl h
  | cons n members ih =>
    rcases ih _ h with h | h
    · rcases mem_insertMember h with rfl | h
      · exact Or.inr List.mem_cons_self
      · exact Or.inl h
    · exact Or.inr (List.mem_cons_of_mem _ h)

theorem mem_of_mem_collectMembers {members : List (String × Value)} {m : String × Value}
    (h : m ∈ collectMembers members) : m ∈ members := by
  rcases mem_foldl_insertMember members [] m h with h | h
  · cases h
  · exact h

theorem collectMembers_of_sorted (members : List (String × Value)) (h : KeysSorted members) :
    collectMembers members = members := by
  have hfold : ∀ (acc ms : List (String × Value)), KeysSorted (acc ++ ms) →
      ms.foldl (fun acc m => insertMember m.1 m.2 acc) acc = acc ++ ms := by
    intro acc ms
    induction ms generalizing acc with
    | nil => simp
    | cons m ms ih =>
      intro hs
      have hlast : insertMember m.1 m.2 acc = acc ++ [m] := by
        apply insertMember_last
        intro n hn
        simp only [KeysSorted, List.map_append, List.map_cons] at hs
        exact (List.pairwise_append.mp hs).2.2 n.1 (List.mem_map_of_mem hn) m.1 List.mem_cons_self
      rw [List.foldl_cons, hlast, ih (acc ++ [m]) (by simpa using hs)]
      simp
  simpa [collectMembers] using hfold [] members h

namespace Value

theorem get_json (key : String) (members : List (String × Value)) :
    (json members).get key = (members.reverse.find? (fun m => m.1 = key)).map Prod.snd := by
  rw [json, get, find_collectMembers]

theorem child_json (key : String) (members : List (String × Value)) :
    (json members).child key = (json members).get key := rfl

def Normal (v : Value) : Prop := v.normalize = v

theorem normalizeItems_eq (items : List Value) : normalizeItems items = items.map normalize := by
  induction items with
  | nil => rfl
  | cons v vs ih => simp [normalizeItems, ih]

theorem normalizeMembers_eq (members : List (String × Value)) :
    normalizeMembers members = members.map (fun m => (m.1, m.2.normalize)) := by
  induction members with
  | nil => rfl
  | cons m ms ih => simp [normalizeMembers, ih]

theorem mapStringsItems_eq (f : String → String) (items : List Value) :
    mapStringsItems f items = items.map (mapStrings f) := by
  induction items with
  | nil => rfl
  | cons v vs ih => simp [mapStringsItems, ih]

theorem mapStringsMembers_eq (f : String → String) (members : List (String × Value)) :
    mapStringsMembers f members = members.map (fun m => (m.1, m.2.mapStrings f)) := by
  induction members with
  | nil => rfl
  | cons m ms ih => simp [mapStringsMembers, ih]

theorem get_mapStrings (f : String → String) (key : String) (v : Value) :
    (v.mapStrings f).get key = (v.get key).map (mapStrings f) := by
  cases v with
  | object members =>
    simp only [mapStrings, get, mapStringsMembers_eq, List.find?_map, Option.map_map]
    rfl
  | _ => rfl

theorem normal_array {items : List Value} : (Value.array items).Normal ↔ ∀ v ∈ items, v.Normal := by
  simp only [Normal, normalize, Value.array.injEq, normalizeItems_eq]
  exact map_eq_self_iff

theorem normal_object_of {members : List (String × Value)} (hs : KeysSorted members)
    (h : ∀ m ∈ members, m.2.Normal) : (Value.object members).Normal := by
  have hm : members.map (fun m => (m.1, m.2.normalize)) = members := by
    refine map_eq_self_iff.mpr (fun m hm => ?_)
    rw [h m hm]
  simp only [Normal, normalize, normalizeMembers_eq, hm]
  rw [collectMembers_of_sorted members hs]

theorem json_normal {members : List (String × Value)} (h : ∀ m ∈ members, m.2.Normal) : (json members).Normal :=
  normal_object_of (collectMembers_sorted members) (fun m hm => h m (mem_of_mem_collectMembers hm))

theorem normal_object {members : List (String × Value)} (h : (Value.object members).Normal) :
    KeysSorted members ∧ ∀ m ∈ members, m.2.Normal := by
  simp only [Normal, normalize, Value.object.injEq, normalizeMembers_eq] at h
  have hs : KeysSorted members := by rw [← h]; exact collectMembers_sorted _
  have hmap : KeysSorted (members.map (fun m => (m.1, m.2.normalize))) := by
    simpa [KeysSorted, Function.comp_def] using hs
  rw [collectMembers_of_sorted _ hmap] at h
  refine ⟨hs, fun m hm => ?_⟩
  exact congrArg Prod.snd (map_eq_self_iff.mp h m hm)

theorem normal_object_iff {members : List (String × Value)} :
    (Value.object members).Normal ↔ KeysSorted members ∧ ∀ m ∈ members, m.2.Normal :=
  ⟨normal_object, fun h => normal_object_of h.1 h.2⟩

mutual

theorem normalize_normal : ∀ v : Value, v.normalize.Normal
  | .null | .bool _ | .number _ | .string _ => rfl
  | .array items => normal_array.mpr (normalizeItems_normal items)
  | .object members => normal_object_of (collectMembers_sorted _)
      (fun m hm => normalizeMembers_normal members m (mem_of_mem_collectMembers hm))

theorem normalizeItems_normal : ∀ (items : List Value), ∀ v ∈ normalizeItems items, v.Normal
  | [], _, h => nomatch h
  | v :: vs, w, h => by
    rcases List.mem_cons.mp h with rfl | h
    · exact normalize_normal v
    · exact normalizeItems_normal vs w h

theorem normalizeMembers_normal :
    ∀ (members : List (String × Value)), ∀ m ∈ normalizeMembers members, m.2.Normal
  | [], _, h => nomatch h
  | (k, v) :: ms, m, h => by
    rcases List.mem_cons.mp h with rfl | h
    · exact normalize_normal v
    · exact normalizeMembers_normal ms m h

end

mutual

theorem mapStrings_normal (f : String → String) : ∀ v : Value, v.Normal → (v.mapStrings f).Normal
  | .null, _ | .bool _, _ | .number _, _ | .string _, _ => rfl
  | .array items, h => normal_array.mpr (mapStringsItems_normal f items (normal_array.mp h))
  | .object members, h => by
    obtain ⟨hs, hm⟩ := normal_object h
    refine normal_object_of ?_ (mapStringsMembers_normal f members hm)
    simpa [mapStringsMembers_eq, KeysSorted, Function.comp_def] using hs

theorem mapStringsItems_normal (f : String → String) : ∀ items : List Value,
    (∀ v ∈ items, v.Normal) → ∀ v ∈ mapStringsItems f items, v.Normal
  | [], _, _, h => nomatch h
  | v :: vs, hs, w, h => by
    rcases List.mem_cons.mp h with rfl | h
    · exact mapStrings_normal f v (hs v List.mem_cons_self)
    · exact mapStringsItems_normal f vs (fun u hu => hs u (List.mem_cons_of_mem _ hu)) w h

theorem mapStringsMembers_normal (f : String → String) : ∀ members : List (String × Value),
    (∀ m ∈ members, m.2.Normal) → ∀ m ∈ mapStringsMembers f members, m.2.Normal
  | [], _, _, h => nomatch h
  | (k, v) :: ms, hs, m, h => by
    rcases List.mem_cons.mp h with rfl | h
    · exact mapStrings_normal f v (hs (k, v) List.mem_cons_self)
    · exact mapStringsMembers_normal f ms (fun u hu => hs u (List.mem_cons_of_mem _ hu)) m h

end

end Value

end Prelay.Json
