import Mathlib.Data.List.Nodup
import Prelay.Json

namespace Prelay.Json

theorem mem_of_get {key : String} {value : Value} {members : List (String × Value)}
    (h : (Value.object members).get key = some value) : (key, value) ∈ members := by
  obtain ⟨m, hm, rfl⟩ := Option.map_eq_some_iff.mp h
  have hkey : m.1 = key := by simpa using List.find?_some hm
  rw [← hkey]
  exact List.mem_of_find?_eq_some hm

theorem KeysSorted.nodup {members : List (String × Value)} (h : KeysSorted members) : (members.map Prod.fst).Nodup :=
  List.Pairwise.imp (fun h => h.ne) h

theorem find_of_mem {members : List (String × Value)} (hkeys : (members.map Prod.fst).Nodup) {m : String × Value}
    (hm : m ∈ members) : members.find? (fun n => n.1 = m.1) = some m := by
  induction members with
  | nil => exact nomatch hm
  | cons head members ih =>
    obtain ⟨hhead, htail⟩ := List.nodup_cons.mp hkeys
    rw [List.find?_cons]
    rcases List.mem_cons.mp hm with rfl | hm
    · simp
    · have hne : head.1 ≠ m.1 := fun heq => hhead (heq ▸ List.mem_map_of_mem hm)
      simp only [hne, decide_false]
      exact ih htail hm

theorem get_of_mem {m : String × Value} {members : List (String × Value)} (hs : KeysSorted members) (hm : m ∈ members) :
    (Value.object members).get m.1 = some m.2 := by
  rw [Value.get, find_of_mem hs.nodup hm]
  rfl

theorem find_iff_mem {members : List (String × Value)} (hkeys : (members.map Prod.fst).Nodup) (key : String)
    (m : String × Value) : members.find? (fun n => n.1 = key) = some m ↔ m ∈ members ∧ m.1 = key := by
  constructor
  · intro hfind
    have hkey : m.1 = key := by simpa using List.find?_some hfind
    exact ⟨List.mem_of_find?_eq_some hfind, hkey⟩
  · rintro ⟨hm, rfl⟩
    exact find_of_mem hkeys hm

theorem mem_insertMember_iff {members : List (String × Value)} (hs : KeysSorted members) (key : String) (value : Value)
    (m : String × Value) :
    m ∈ insertMember key value members ↔ m = (key, value) ∨ m ∈ members ∧ m.1 ≠ key := by
  have hinsert := find_iff_mem (insertMember_sorted key value members hs).nodup m.1 m
  have hfind := find_iff_mem hs.nodup m.1 m
  rw [find_insertMember] at hinsert
  by_cases hkey : key = m.1
  · simp only [hkey, ↓reduceIte, and_true, Option.some.injEq, ne_eq, not_true_eq_false, and_false, or_false]
      at hinsert ⊢
    rw [← hinsert, eq_comm]
  · have hne : m ≠ (key, value) := by
      rintro rfl
      exact hkey rfl
    rw [if_neg hkey, hfind] at hinsert
    simpa [hne, Ne.symm hkey] using hinsert.symm

theorem removeMember_sorted {members : List (String × Value)} (hs : KeysSorted members) (key : String) :
    KeysSorted (removeMember key members) :=
  hs.sublist (List.filter_sublist.map Prod.fst)

theorem mem_removeMember_iff (members : List (String × Value)) (key : String) (m : String × Value) :
    m ∈ removeMember key members ↔ m ∈ members ∧ m.1 ≠ key := by
  rw [removeMember, List.mem_filter, decide_eq_true_iff]

theorem members_ext {members members' : List (String × Value)} (hs : KeysSorted members) (hs' : KeysSorted members')
    (h : ∀ m, m ∈ members ↔ m ∈ members') : members = members' := by
  have hperm : members.Perm members' :=
    (List.perm_ext_iff_of_nodup hs.nodup.of_map hs'.nodup.of_map).mpr h
  apply List.Perm.eq_of_pairwise _ (List.pairwise_map.mp hs) (List.pairwise_map.mp hs') hperm
  intro a b _ _ hab hba
  exact absurd hab (not_lt_of_gt hba)

theorem mem_collectMembers_iff {members : List (String × Value)} (hkeys : (members.map Prod.fst).Nodup)
    (m : String × Value) : m ∈ collectMembers members ↔ m ∈ members := by
  have hreverse : (members.reverse.map Prod.fst).Nodup := by
    rw [List.map_reverse]
    exact List.nodup_reverse.mpr hkeys
  have hcollected := find_iff_mem (collectMembers_sorted members).nodup m.1 m
  rw [find_collectMembers, find_iff_mem hreverse, List.mem_reverse] at hcollected
  simpa using hcollected.symm

theorem collectMembers_perm {members : List (String × Value)} (hkeys : (members.map Prod.fst).Nodup) :
    (collectMembers members).Perm members :=
  (List.perm_ext_iff_of_nodup (collectMembers_sorted members).nodup.of_map hkeys.of_map).mpr
    (mem_collectMembers_iff hkeys)

theorem normalize_object_eq {members sorted : List (String × Value)} (hkeys : (members.map Prod.fst).Nodup)
    (hmembers : ∀ m ∈ members, m.2.Normal) (hsorted : KeysSorted sorted) (h : ∀ m, m ∈ members ↔ m ∈ sorted) :
    (Value.object members).normalize = .object sorted := by
  have hnormal : Value.normalizeMembers members = members := by
    rw [Value.normalizeMembers_eq]
    exact map_eq_self_iff.mpr (fun m hm => Prod.ext rfl (hmembers m hm))
  rw [Value.normalize, hnormal]
  congr 1
  apply members_ext (collectMembers_sorted members) hsorted
  intro m
  rw [mem_collectMembers_iff hkeys, h m]

end Prelay.Json
