import Prelay.Json

namespace Prelay.Json

inductive PathSegment where
  | key (key : String)
  | index (index : ℕ)
  deriving DecidableEq

namespace Value

def isComposite : Value → Bool
  | .array _ | .object _ => true
  | _ => false

section parts

-- Which objects are parts; nothing inside a part is one.
variable (p : List (String × Value) → Bool)

mutual

def parts : Value → List Value
  | .object members => if p members then [.object members] else partsMembers members
  | .array items => partsItems items
  | _ => []

def partsItems : List Value → List Value
  | [] => []
  | v :: vs => parts v ++ partsItems vs

def partsMembers : List (String × Value) → List Value
  | [] => []
  | (_, v) :: ms => parts v ++ partsMembers ms

end

mutual

def paths : Value → List (List PathSegment)
  | .object members => if p members then [[]] else pathsMembers members
  | .array items => pathsItems 0 items
  | _ => []

def pathsItems (index : ℕ) : List Value → List (List PathSegment)
  | [] => []
  | v :: vs => (paths v).map (.index index :: ·) ++ pathsItems (index + 1) vs

def pathsMembers : List (String × Value) → List (List PathSegment)
  | [] => []
  | (k, v) :: ms => (paths v).map (.key k :: ·) ++ pathsMembers ms

end

mutual

def fill : Value → List Value → Value
  | .object members, ws => if p members then ws.headD (.object members) else .object (fillMembers members ws)
  | .array items, ws => .array (fillItems items ws)
  | .null, _ => .null
  | .bool b, _ => .bool b
  | .number n, _ => .number n
  | .string s, _ => .string s

def fillItems : List Value → List Value → List Value
  | [], _ => []
  | v :: vs, ws => fill v (ws.take (parts p v).length) :: fillItems vs (ws.drop (parts p v).length)

def fillMembers : List (String × Value) → List Value → List (String × Value)
  | [], _ => []
  | (k, v) :: ms, ws => (k, fill v (ws.take (parts p v).length)) :: fillMembers ms (ws.drop (parts p v).length)

end

end parts

def assignItem (f : Value → Option Value) : ℕ → List Value → Option (List Value)
  | _, [] => none
  | 0, v :: vs => (f v).map (· :: vs)
  | index + 1, v :: vs => (assignItem f index vs).map (v :: ·)

def assignMember (f : Value → Option Value) (key : String) : List (String × Value) → Option (List (String × Value))
  | [] => none
  | (k, v) :: ms => if k = key then (f v).map (fun w => (k, w) :: ms) else (assignMember f key ms).map ((k, v) :: ·)

def assign (new : Value) : List PathSegment → Value → Option Value
  | [], _ => some new
  | .key key :: path, .object members => (assignMember (assign new path) key members).map .object
  | .index index :: path, .array items => (assignItem (assign new path) index items).map .array
  | _ :: _, _ => none

theorem normal_of_get {members : List (String × Value)} (hnormal : (Value.object members).Normal) {key : String}
    {v : Value} (hget : (Value.object members).get key = some v) : v.Normal := by
  obtain ⟨m, hm, rfl⟩ := Option.map_eq_some_iff.mp hget
  exact (normal_object hnormal).2 m (List.mem_of_find?_eq_some hm)

def mapMember (key : String) (f : Value → Value) (members : List (String × Value)) : List (String × Value) :=
  members.map (fun m => if m.1 = key then (m.1, f m.2) else m)

theorem get_mapMember (key : String) (f : Value → Value) (members : List (String × Value)) :
    (Value.object (mapMember key f members)).get key = ((Value.object members).get key).map f := by
  induction members with
  | nil => rfl
  | cons m ms ih =>
    obtain ⟨k, v⟩ := m
    simp only [get, mapMember, List.map_cons, List.find?_cons] at ih ⊢
    by_cases hkey : k = key
    · simp [hkey]
    · simpa [hkey] using ih

theorem mapMember_of_notMem {key : String} {members : List (String × Value)} (h : key ∉ members.map Prod.fst)
    (f : Value → Value) : mapMember key f members = members := by
  apply map_eq_self_iff.mpr
  intro m hm
  rw [if_neg]
  rintro rfl
  exact h (List.mem_map_of_mem hm)

theorem mapMember_eq_self {key : String} {members : List (String × Value)} (hsorted : KeysSorted members)
    {f : Value → Value} (h : ∀ v, (Value.object members).get key = some v → f v = v) :
    mapMember key f members = members := by
  induction members with
  | nil => rfl
  | cons m ms ih =>
    obtain ⟨k, v⟩ := m
    rw [KeysSorted, List.map_cons, List.pairwise_cons] at hsorted
    simp only [get, List.find?_cons] at h ih
    by_cases hkey : k = key
    · subst hkey
      have hrest := mapMember_of_notMem (fun hmem => (hsorted.1 k hmem).ne rfl) f
      have hvalue : f v = v := h v (by simp)
      unfold mapMember at hrest ⊢
      rw [List.map_cons, hrest, if_pos rfl, hvalue]
    · have hrest := ih hsorted.2 (by simpa only [hkey, decide_false] using h)
      unfold mapMember at hrest ⊢
      rw [List.map_cons, hrest, if_neg hkey]

theorem assignMember_mapMember {key : String} {members : List (String × Value)} (hsorted : KeysSorted members) {v : Value}
    (hget : (Value.object members).get key = some v) {f : Value → Option Value} {g g' : Value → Value}
    (h : f (g v) = some (g' v)) :
    assignMember f key (mapMember key g members) = some (mapMember key g' members) := by
  induction members with
  | nil => exact nomatch hget
  | cons m ms ih =>
    obtain ⟨k, w⟩ := m
    rw [KeysSorted, List.map_cons, List.pairwise_cons] at hsorted
    rw [get, List.find?_cons] at hget
    by_cases hkey : k = key
    · subst hkey
      have hnot : k ∉ ms.map Prod.fst := fun hmem => (hsorted.1 k hmem).ne rfl
      simp only [decide_true] at hget
      obtain rfl := Option.some.inj hget
      have hrest := fun f => mapMember_of_notMem hnot f
      unfold mapMember at hrest ⊢
      rw [List.map_cons, List.map_cons, hrest, hrest, if_pos rfl, if_pos rfl, assignMember, if_pos rfl, h]
      rfl
    · simp only [hkey, decide_false] at hget
      have hrest := ih hsorted.2 hget
      unfold mapMember at hrest ⊢
      rw [List.map_cons, List.map_cons, if_neg hkey, if_neg hkey, assignMember, if_neg hkey, hrest]
      rfl

section laws

variable {p : List (String × Value) → Bool}

mutual

theorem fill_parts (v : Value) : fill p v (parts p v) = v := by
  cases v with
  | object members =>
    rw [fill, parts]
    split_ifs
    · rfl
    · rw [fillMembers_parts]
  | array items => rw [fill, parts, fillItems_parts]
  | _ => rfl

theorem fillItems_parts (items : List Value) : fillItems p items (partsItems p items) = items := by
  cases items with
  | nil => rfl
  | cons v vs => rw [fillItems, partsItems, List.take_left, List.drop_left, fill_parts, fillItems_parts]

theorem fillMembers_parts (members : List (String × Value)) :
    fillMembers p members (partsMembers p members) = members := by
  cases members with
  | nil => rfl
  | cons m ms =>
    obtain ⟨k, v⟩ := m
    rw [fillMembers, partsMembers, List.take_left, List.drop_left, fill_parts, fillMembers_parts]

end

mutual

theorem length_paths (v : Value) : (paths p v).length = (parts p v).length := by
  cases v with
  | object members =>
    rw [paths, parts]
    split_ifs
    · rfl
    · exact length_pathsMembers members
  | array items => exact length_pathsItems 0 items
  | _ => rfl

theorem length_pathsItems (index : ℕ) (items : List Value) :
    (pathsItems p index items).length = (partsItems p items).length := by
  cases items with
  | nil => rfl
  | cons v vs => simp [pathsItems, partsItems, length_paths v, length_pathsItems (index + 1) vs]

theorem length_pathsMembers (members : List (String × Value)) :
    (pathsMembers p members).length = (partsMembers p members).length := by
  cases members with
  | nil => rfl
  | cons m ms =>
    obtain ⟨k, v⟩ := m
    simp [pathsMembers, partsMembers, length_paths v, length_pathsMembers ms]

end

theorem mem_pathsMembers {members : List (String × Value)} {path : List PathSegment}
    (h : path ∈ pathsMembers p members) : ∃ key ∈ members.map Prod.fst, ∃ rest, path = .key key :: rest := by
  induction members with
  | nil => exact nomatch h
  | cons m ms ih =>
    obtain ⟨k, v⟩ := m
    rw [pathsMembers, List.mem_append, List.mem_map] at h
    rcases h with ⟨rest, -, rfl⟩ | h
    · exact ⟨k, List.mem_cons_self, rest, rfl⟩
    · obtain ⟨key, hkey, hrest⟩ := ih h
      exact ⟨key, List.mem_cons_of_mem _ hkey, hrest⟩

theorem length_take_pieces {ws : List Value} {m n : ℕ} (h : ws.length = m + n) : (ws.take m).length = m := by
  rw [List.length_take]
  omega

theorem length_drop_pieces {ws : List Value} {m n : ℕ} (h : ws.length = m + n) : (ws.drop m).length = n := by
  rw [List.length_drop]
  omega

theorem set_pieces {ws : List Value} {j n : ℕ} (new : Value) :
    (j < n → (ws.set j new).take n = (ws.take n).set j new ∧ (ws.set j new).drop n = ws.drop n) ∧
      (n ≤ j → (ws.set j new).take n = ws.take n ∧ (ws.set j new).drop n = (ws.drop n).set (j - n) new) := by
  constructor
  · intro h
    exact ⟨List.take_set .., List.drop_set_of_lt h⟩
  · intro h
    exact ⟨List.take_set_of_le h, by rw [List.drop_set, if_neg (by omega)]⟩

mutual

theorem assign_fill (new : Value) (v : Value) (hv : v.Normal) {ws : List Value} (hws : ws.length = (parts p v).length)
    {j : ℕ} {path : List PathSegment} (hpath : (paths p v)[j]? = some path) :
    assign new path (fill p v ws) = some (fill p v (ws.set j new)) := by
  cases v with
  | object members =>
    rw [fill, fill]
    rw [parts] at hws
    rw [paths] at hpath
    split_ifs at hws hpath ⊢
    · obtain ⟨w, rfl⟩ := List.length_eq_one_iff.mp hws
      cases j with
      | zero =>
        obtain rfl := Option.some.inj hpath
        rfl
      | succ j => exact nomatch hpath
    · obtain ⟨hsorted, hnormal⟩ := normal_object hv
      obtain ⟨key, rest, rfl, hassign⟩ := assignMember_fill new members hsorted hnormal hws hpath
      rw [assign, hassign]
      rfl
  | array items =>
    obtain ⟨i, rest, rfl, hassign⟩ := assignItem_fill new items (normal_array.mp hv) hws hpath
    rw [fill, fill, assign, Nat.zero_add, hassign]
    rfl
  | _ => exact nomatch hpath

theorem assignItem_fill (new : Value) (items : List Value) (hitems : ∀ v ∈ items, v.Normal) {ws : List Value}
    (hws : ws.length = (partsItems p items).length) {index j : ℕ} {path : List PathSegment}
    (hpath : (pathsItems p index items)[j]? = some path) :
    ∃ i rest, path = .index (index + i) :: rest ∧
      assignItem (assign new rest) i (fillItems p items ws) = some (fillItems p items (ws.set j new)) := by
  cases items with
  | nil => exact nomatch hpath
  | cons v vs =>
    rw [List.forall_mem_cons] at hitems
    rw [partsItems, List.length_append] at hws
    rw [pathsItems, List.getElem?_append, List.length_map, length_paths] at hpath
    obtain ⟨hbefore, hafter⟩ := @set_pieces ws j (parts p v).length new
    split_ifs at hpath with hj
    · rw [List.getElem?_map, Option.map_eq_some_iff] at hpath
      obtain ⟨rest, hrest, rfl⟩ := hpath
      have hhead := assign_fill new v hitems.1 (length_take_pieces hws) hrest
      refine ⟨0, rest, rfl, ?_⟩
      rw [fillItems, fillItems, assignItem, hhead, (hbefore hj).1, (hbefore hj).2]
      rfl
    · obtain ⟨i, rest, rfl, hassign⟩ := assignItem_fill new vs hitems.2 (length_drop_pieces hws) hpath
      refine ⟨i + 1, rest, by rw [Nat.add_right_comm, Nat.add_assoc], ?_⟩
      rw [fillItems, fillItems, assignItem, hassign, (hafter (by omega)).1, (hafter (by omega)).2]
      rfl

theorem assignMember_fill (new : Value) (members : List (String × Value)) (hsorted : KeysSorted members)
    (hmembers : ∀ m ∈ members, m.2.Normal) {ws : List Value} (hws : ws.length = (partsMembers p members).length) {j : ℕ}
    {path : List PathSegment} (hpath : (pathsMembers p members)[j]? = some path) :
    ∃ key rest, path = .key key :: rest ∧
      assignMember (assign new rest) key (fillMembers p members ws) = some (fillMembers p members (ws.set j new)) := by
  cases members with
  | nil => exact nomatch hpath
  | cons m ms =>
    obtain ⟨k, v⟩ := m
    rw [List.forall_mem_cons] at hmembers
    rw [KeysSorted, List.map_cons, List.pairwise_cons] at hsorted
    rw [partsMembers, List.length_append] at hws
    rw [pathsMembers, List.getElem?_append, List.length_map, length_paths] at hpath
    obtain ⟨hbefore, hafter⟩ := @set_pieces ws j (parts p v).length new
    split_ifs at hpath with hj
    · rw [List.getElem?_map, Option.map_eq_some_iff] at hpath
      obtain ⟨rest, hrest, rfl⟩ := hpath
      have hhead := assign_fill new v hmembers.1 (length_take_pieces hws) hrest
      refine ⟨k, rest, rfl, ?_⟩
      rw [fillMembers, fillMembers, assignMember, if_pos rfl, hhead, (hbefore hj).1, (hbefore hj).2]
      rfl
    · obtain ⟨key, rest, rfl, hassign⟩ := assignMember_fill new ms hsorted.2 hmembers.2 (length_drop_pieces hws) hpath
      obtain ⟨key', hkey', rest', heq⟩ := mem_pathsMembers (List.mem_of_getElem? hpath)
      obtain ⟨hkey, rfl⟩ := List.cons.inj heq
      obtain rfl := PathSegment.key.inj hkey
      have hne : k ≠ key := (hsorted.1 key hkey').ne
      refine ⟨key, rest, rfl, ?_⟩
      rw [fillMembers, fillMembers, assignMember, if_neg hne, hassign, (hafter (by omega)).1, (hafter (by omega)).2]
      rfl

end

theorem asStr_of_isComposite {v : Value} (h : v.isComposite = true) : v.asStr = none := by
  cases v with
  | string s => exact nomatch h
  | _ => rfl

def SameShape (m m' : String × Value) : Prop :=
  m.1 = m'.1 ∧ (m.2 = m'.2 ∨ m.2.isComposite = true ∧ m'.2.isComposite = true)

/-- Whether an object is a part does not depend on what its composite members hold. -/
def ReadsAtoms (p : List (String × Value) → Bool) : Prop :=
  ∀ {ms ms' : List (String × Value)}, List.Forall₂ SameShape ms ms' → p ms = p ms'

theorem asStr_of_shape {ms ms' : List (String × Value)} (h : List.Forall₂ SameShape ms ms') (key : String) :
    ((Value.object ms).get key).bind asStr = ((Value.object ms').get key).bind asStr := by
  induction h with
  | nil => rfl
  | @cons m m' ms ms' hm hms ih =>
    obtain ⟨k, v⟩ := m
    obtain ⟨k', v'⟩ := m'
    obtain ⟨hkey, hvalue⟩ := hm
    dsimp only at hkey
    subst hkey
    simp only [get, List.find?_cons] at ih ⊢
    by_cases hk : k = key
    · simp only [hk, decide_true, Option.map_some, Option.bind_some]
      rcases hvalue with hvalue | ⟨hv, hv'⟩
      · exact congrArg asStr hvalue
      · rw [asStr_of_isComposite hv, asStr_of_isComposite hv']
    · simpa only [hk, decide_false] using ih

theorem fill_shape (v : Value) {ws : List Value} (hws : ∀ w ∈ ws, w.isComposite = true) :
    v = fill p v ws ∨ v.isComposite = true ∧ (fill p v ws).isComposite = true := by
  cases v with
  | object members =>
    refine .inr ⟨rfl, ?_⟩
    rw [fill]
    split_ifs
    · cases ws with
      | nil => rfl
      | cons w ws => exact hws w List.mem_cons_self
    · rfl
  | array items => exact .inr ⟨rfl, by rw [fill]; rfl⟩
  | _ => exact .inl rfl

theorem fillMembers_shape (members : List (String × Value)) {ws : List Value} (hws : ∀ w ∈ ws, w.isComposite = true) :
    List.Forall₂ SameShape members (fillMembers p members ws) := by
  induction members generalizing ws with
  | nil => exact .nil
  | cons m ms ih =>
    obtain ⟨k, v⟩ := m
    exact .cons ⟨rfl, fill_shape v (fun w hw => hws w (List.mem_of_mem_take hw))⟩
      (ih (fun w hw => hws w (List.mem_of_mem_drop hw)))

mutual

theorem parts_fill (hp : ReadsAtoms p) (v : Value) {ws : List Value} (hws : ws.length = (parts p v).length)
    (hcomposite : ∀ w ∈ ws, w.isComposite = true) : parts p (fill p v ws) = ws.flatMap (parts p) := by
  cases v with
  | object members =>
    rw [parts] at hws
    rw [fill]
    split_ifs at hws ⊢ with hpart
    · obtain ⟨w, rfl⟩ := List.length_eq_one_iff.mp hws
      rw [List.flatMap_singleton]
      rfl
    · have hsame : p (fillMembers p members ws) = p members := (hp (fillMembers_shape members hcomposite)).symm
      rw [parts, hsame, if_neg hpart]
      exact partsMembers_fill hp members hws hcomposite
  | array items =>
    rw [fill, parts]
    exact partsItems_fill hp items hws hcomposite
  | _ =>
    obtain rfl := List.length_eq_zero_iff.mp hws
    rfl

theorem partsItems_fill (hp : ReadsAtoms p) (items : List Value) {ws : List Value}
    (hws : ws.length = (partsItems p items).length) (hcomposite : ∀ w ∈ ws, w.isComposite = true) :
    partsItems p (fillItems p items ws) = ws.flatMap (parts p) := by
  cases items with
  | nil =>
    obtain rfl := List.length_eq_zero_iff.mp hws
    rfl
  | cons v vs =>
    rw [partsItems, List.length_append] at hws
    have hhead := parts_fill hp v (length_take_pieces hws) (fun w hw => hcomposite w (List.mem_of_mem_take hw))
    have hrest := partsItems_fill hp vs (length_drop_pieces hws) (fun w hw => hcomposite w (List.mem_of_mem_drop hw))
    rw [fillItems, partsItems, hhead, hrest, ← List.flatMap_append, List.take_append_drop]

theorem partsMembers_fill (hp : ReadsAtoms p) (members : List (String × Value)) {ws : List Value}
    (hws : ws.length = (partsMembers p members).length) (hcomposite : ∀ w ∈ ws, w.isComposite = true) :
    partsMembers p (fillMembers p members ws) = ws.flatMap (parts p) := by
  cases members with
  | nil =>
    obtain rfl := List.length_eq_zero_iff.mp hws
    rfl
  | cons m ms =>
    obtain ⟨k, v⟩ := m
    rw [partsMembers, List.length_append] at hws
    have hhead := parts_fill hp v (length_take_pieces hws) (fun w hw => hcomposite w (List.mem_of_mem_take hw))
    have hrest := partsMembers_fill hp ms (length_drop_pieces hws) (fun w hw => hcomposite w (List.mem_of_mem_drop hw))
    rw [fillMembers, partsMembers, hhead, hrest, ← List.flatMap_append, List.take_append_drop]

end

mutual

theorem mem_parts (v : Value) {w : Value} (h : w ∈ parts p v) : ∃ members, w = .object members ∧ p members = true := by
  cases v with
  | object members =>
    rw [parts] at h
    split_ifs at h with hpart
    · exact ⟨members, List.mem_singleton.mp h, hpart⟩
    · exact mem_partsMembers members h
  | array items => exact mem_partsItems items h
  | _ => exact nomatch h

theorem mem_partsItems (items : List Value) {w : Value} (h : w ∈ partsItems p items) :
    ∃ members, w = .object members ∧ p members = true := by
  cases items with
  | nil => exact nomatch h
  | cons v vs =>
    rcases List.mem_append.mp h with h | h
    · exact mem_parts v h
    · exact mem_partsItems vs h

theorem mem_partsMembers (members : List (String × Value)) {w : Value} (h : w ∈ partsMembers p members) :
    ∃ members, w = .object members ∧ p members = true := by
  cases members with
  | nil => exact nomatch h
  | cons m ms =>
    rcases List.mem_append.mp h with h | h
    · exact mem_parts m.2 h
    · exact mem_partsMembers ms h

end

theorem parts_of_mem {v w : Value} (h : w ∈ parts p v) : parts p w = [w] := by
  obtain ⟨members, rfl, hpart⟩ := mem_parts v h
  rw [parts, if_pos hpart]

theorem isComposite_of_mem {v w : Value} (h : w ∈ parts p v) : w.isComposite = true := by
  obtain ⟨members, rfl, -⟩ := mem_parts v h
  rfl

end laws

def valueAt : List PathSegment → Value → Option Value
  | [], v => some v
  | .key key :: path, .object members => ((Value.object members).get key).bind (valueAt path)
  | .index index :: path, .array items => items[index]?.bind (valueAt path)
  | _ :: _, _ => none

theorem assignMember_eq_self {f : Value → Option Value} {key : String} {members : List (String × Value)}
    (h : assignMember f key members = some members) :
    ∃ v, (Value.object members).get key = some v ∧ f v = some v := by
  induction members with
  | nil => exact nomatch h
  | cons m ms ih =>
    obtain ⟨k, v⟩ := m
    rw [assignMember] at h
    split_ifs at h with hkey
    · obtain ⟨w, hw, heq⟩ := Option.map_eq_some_iff.mp h
      obtain ⟨heq, -⟩ := List.cons.inj heq
      refine ⟨v, by simp [get, hkey], ?_⟩
      rw [hw, (Prod.mk.inj heq).2]
    · obtain ⟨rest, hrest, heq⟩ := Option.map_eq_some_iff.mp h
      obtain ⟨w, hw, hf⟩ := ih (hrest.trans (congrArg some (List.cons.inj heq).2))
      refine ⟨w, ?_, hf⟩
      simpa [get, List.find?_cons, hkey] using hw

theorem assignItem_eq_self {f : Value → Option Value} {index : ℕ} {items : List Value}
    (h : assignItem f index items = some items) : ∃ v, items[index]? = some v ∧ f v = some v := by
  induction items generalizing index with
  | nil =>
    rw [assignItem] at h
    exact nomatch h
  | cons v vs ih =>
    cases index with
    | zero =>
      obtain ⟨w, hw, heq⟩ := Option.map_eq_some_iff.mp h
      exact ⟨v, rfl, by rw [hw, (List.cons.inj heq).1]⟩
    | succ index =>
      obtain ⟨rest, hrest, heq⟩ := Option.map_eq_some_iff.mp h
      exact ih (hrest.trans (congrArg some (List.cons.inj heq).2))

theorem valueAt_of_assign {new : Value} {path : List PathSegment} {v : Value} (h : assign new path v = some v) :
    valueAt path v = some new := by
  induction path generalizing v with
  | nil => exact h.symm
  | cons segment path ih =>
    cases segment with
    | key key =>
      cases v with
      | object members =>
        obtain ⟨ms, hms, heq⟩ := Option.map_eq_some_iff.mp h
        obtain ⟨w, hget, hw⟩ := assignMember_eq_self (hms.trans (congrArg some (Value.object.inj heq)))
        rw [valueAt, hget]
        exact ih hw
      | _ => exact nomatch h
    | index index =>
      cases v with
      | array items =>
        obtain ⟨vs, hvs, heq⟩ := Option.map_eq_some_iff.mp h
        obtain ⟨w, hget, hw⟩ := assignItem_eq_self (hvs.trans (congrArg some (Value.array.inj heq)))
        rw [valueAt, hget]
        exact ih hw
      | _ => exact nomatch h

theorem mapMember_normal {key : String} {f : Value → Value} {members : List (String × Value)}
    (h : (Value.object members).Normal) (hf : ∀ v, v.Normal → (f v).Normal) :
    (Value.object (mapMember key f members)).Normal := by
  obtain ⟨hsorted, hmembers⟩ := normal_object h
  apply normal_object_of
  · have hkeys : (mapMember key f members).map Prod.fst = members.map Prod.fst := by
      rw [mapMember, List.map_map]
      apply List.map_congr_left
      intro m _
      simp only [Function.comp]
      split_ifs
      · rfl
      · rfl
    rw [KeysSorted, hkeys]
    exact hsorted
  · intro m hm
    obtain ⟨⟨k, v⟩, hmem, rfl⟩ := List.mem_map.mp hm
    have hv : v.Normal := hmembers _ hmem
    split_ifs
    · exact hf v hv
    · exact hv

end Value

end Prelay.Json
