import Mathlib.Data.List.Basic
import Mathlib.Data.List.Nodup

namespace Prelay.Relational

structure ForeignKey (γ π κ : Type) where
  references : γ → κ
  key : π → κ

namespace ForeignKey

variable {γ π κ : Type} (fk : ForeignKey γ π κ)

def HasParent (parents : List π) (child : γ) : Prop := ∃ parent ∈ parents, fk.key parent = fk.references child

def Holds (children : List γ) (parents : List π) : Prop := ∀ child ∈ children, fk.HasParent parents child

instance [DecidableEq κ] (parents : List π) (child : γ) : Decidable (fk.HasParent parents child) :=
  inferInstanceAs (Decidable (∃ parent ∈ parents, fk.key parent = fk.references child))

instance [DecidableEq κ] (children : List γ) (parents : List π) : Decidable (fk.Holds children parents) :=
  inferInstanceAs (Decidable (∀ child ∈ children, fk.HasParent parents child))

def cascade [DecidableEq κ] (children : List γ) (parents : List π) : List γ :=
  children.filter (fun child => fk.HasParent parents child)

variable {fk} {children : List γ} {parents : List π}

theorem holds_cascade [DecidableEq κ] (children : List γ) (parents : List π) :
    fk.Holds (fk.cascade children parents) parents := by
  intro child hchild
  exact of_decide_eq_true (List.mem_filter.mp hchild).2

theorem hasParent_filter {child : γ} (hkey : (parents.map fk.key).Nodup) (hchild : fk.HasParent parents child)
    (p : π → Bool) :
    fk.HasParent (parents.filter p) child ↔ ∀ parent ∈ parents, fk.key parent = fk.references child → p parent = true := by
  constructor
  · rintro ⟨parent, hmem, hparent⟩ other hother hkeys
    obtain ⟨hmem, hp⟩ := List.mem_filter.mp hmem
    obtain rfl := List.inj_on_of_nodup_map hkey hmem hother (hparent.trans hkeys.symm)
    exact hp
  · intro h
    obtain ⟨parent, hmem, hparent⟩ := hchild
    exact ⟨parent, List.mem_filter.mpr ⟨hmem, h parent hmem hparent⟩, hparent⟩

theorem cascade_filter [DecidableEq κ] (hkey : (parents.map fk.key).Nodup) (h : fk.Holds children parents)
    (p : π → Bool) :
    fk.cascade children (parents.filter p) =
      children.filter (fun child => ∀ parent ∈ parents, fk.key parent = fk.references child → p parent = true) := by
  apply List.filter_congr
  intro child hchild
  exact decide_eq_decide.mpr (hasParent_filter hkey (h child hchild) p)

theorem holds_filter_iff (hkey : (parents.map fk.key).Nodup) (h : fk.Holds children parents) {q : γ → Bool}
    {p : π → Bool} :
    fk.Holds (children.filter q) (parents.filter p) ↔ ∀ child ∈ children, q child = true →
      ∀ parent ∈ parents, fk.key parent = fk.references child → p parent = true := by
  constructor
  · intro hfilter child hchild hq
    exact (hasParent_filter hkey (h child hchild) p).mp (hfilter child (List.mem_filter.mpr ⟨hchild, hq⟩))
  · intro hkept child hchild
    obtain ⟨hmem, hq⟩ := List.mem_filter.mp hchild
    exact (hasParent_filter hkey (h child hmem) p).mpr (hkept child hmem hq)

end ForeignKey

theorem nodup_map_filter {α κ : Type} {key : α → κ} {rows : List α} (h : (rows.map key).Nodup) (p : α → Bool) :
    ((rows.filter p).map key).Nodup := h.sublist (List.filter_sublist.map key)

section rows

variable {α κ : Type} [DecidableEq κ] {key : α → κ} {rows : List α}

theorem find?_key (h : (rows.map key).Nodup) {k : κ} {row : α} :
    rows.find? (fun other => key other = k) = some row ↔ row ∈ rows ∧ key row = k := by
  constructor
  · intro hfound
    exact ⟨List.mem_of_find?_eq_some hfound, by simpa using List.find?_some hfound⟩
  · rintro ⟨hmem, rfl⟩
    cases hfound : rows.find? (fun other => key other = key row) with
    | none => exact absurd (decide_eq_true rfl) (List.find?_eq_none.mp hfound row hmem)
    | some other =>
      have hkey : key other = key row := by simpa using List.find?_some hfound
      rw [List.inj_on_of_nodup_map h (List.mem_of_find?_eq_some hfound) hmem hkey]

theorem find?_map_key {f : α → α} (hf : ∀ row, key (f row) = key row) (k : κ) :
    (rows.map f).find? (fun row => key row = k) = (rows.find? (fun row => key row = k)).map f := by
  rw [List.find?_map]
  congr 2
  funext row
  rw [Function.comp_apply, hf]

omit [DecidableEq κ] in
theorem map_key {f : α → α} (hf : ∀ row, key (f row) = key row) : (rows.map f).map key = rows.map key := by
  rw [List.map_map]
  exact List.map_congr_left (fun row _ => hf row)

end rows

end Prelay.Relational
