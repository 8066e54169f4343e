import Mathlib.Data.List.Nodup

namespace Prelay.StableOrder

variable {α : Type}

def Earlier (l : List α) (a b : α) : Prop := [a, b].Sublist l

theorem earlier_or {l : List α} {a b : α} (ha : a ∈ l) (hb : b ∈ l) (hne : a ≠ b) : Earlier l a b ∨ Earlier l b a := by
  obtain ⟨front, back, rfl⟩ := List.append_of_mem ha
  rcases List.mem_append.mp hb with hfront | hback
  · apply Or.inr
    exact List.Sublist.append (List.singleton_sublist.mpr hfront) (List.singleton_sublist.mpr List.mem_cons_self)
  · apply Or.inl
    apply List.Sublist.trans _ (List.sublist_append_right front (a :: back))
    apply List.cons_sublist_cons.mpr
    apply List.singleton_sublist.mpr
    exact (List.mem_cons.mp hback).resolve_left (Ne.symm hne)

theorem Earlier.mem {l : List α} {a b : α} (h : Earlier l a b) : a ∈ l ∧ b ∈ l :=
  ⟨h.subset List.mem_cons_self, h.subset (List.mem_cons_of_mem _ List.mem_cons_self)⟩

theorem Earlier.asymm {l : List α} (hl : l.Nodup) {a b : α} (h : Earlier l a b) : ¬Earlier l b a := by
  induction l with
  | nil => exact nomatch h
  | cons c l ih =>
    obtain ⟨hc, hl⟩ := List.nodup_cons.mp hl
    intro h'
    unfold Earlier at h h'
    rcases List.sublist_cons_iff.mp h with h | ⟨_, ha, hb⟩
    · rcases List.sublist_cons_iff.mp h' with h' | ⟨_, hb, -⟩
      · exact ih hl h h'
      · injection hb with hb
        exact hc (hb ▸ (Earlier.mem h).2)
    · injection ha with ha hrest
      subst ha hrest
      rcases List.sublist_cons_iff.mp h' with h' | ⟨_, hb', -⟩
      · exact hc (Earlier.mem h').2
      · injection hb' with hb'
        exact hc (hb' ▸ List.singleton_sublist.mp hb)

theorem pairwise_mergeSort_earlier {le : α → α → Bool} (htrans : ∀ a b c, le a b = true → le b c = true → le a c = true)
    (htotal : ∀ a b, (le a b || le b a) = true) {l : List α} (hl : l.Nodup) :
    (l.mergeSort le).Pairwise (fun a b => le a b = true ∧ (le b a = true → Earlier l a b)) := by
  have hsorted := List.pairwise_mergeSort htrans htotal l
  rw [List.pairwise_iff_forall_sublist] at hsorted ⊢
  intro a b hab
  refine ⟨hsorted hab, fun hba => ?_⟩
  have hnodup : (l.mergeSort le).Nodup := (List.mergeSort_perm l le).nodup_iff.mpr hl
  obtain ⟨ha, hb⟩ := Earlier.mem hab
  have hne : a ≠ b := by
    rintro rfl
    exact List.nodup_iff_sublist.mp hnodup a hab
  rcases earlier_or (List.mem_mergeSort.mp ha) (List.mem_mergeSort.mp hb) hne with h | h
  · exact h
  · exact absurd (List.pair_sublist_mergeSort htrans htotal hba h) (Earlier.asymm hnodup hab)

open Classical in
theorem exists_pred_zipIdx {l : List α} (hl : l.Nodup) (p : α × ℕ → Bool) :
    ∃ q : α → Bool, ∀ x ∈ l.zipIdx, q x.1 = p x := by
  refine ⟨fun a => decide (∃ i, (a, i) ∈ l.zipIdx ∧ p (a, i) = true), ?_⟩
  rintro ⟨a, j⟩ hj
  rw [Bool.eq_iff_iff, decide_eq_true_iff]
  refine ⟨?_, fun hp => ⟨j, hj, hp⟩⟩
  rintro ⟨i, hi, hp⟩
  rw [List.mem_zipIdx_iff_getElem?] at hi hj
  obtain rfl : i = j := (List.getElem?_inj (List.getElem?_eq_some_iff.mp hi).1 hl).mp (hi.trans hj.symm)
  exact hp

theorem filter_zipIdx {l : List α} {p : α × ℕ → Bool} {q : α → Bool} (h : ∀ x ∈ l.zipIdx, q x.1 = p x) :
    (l.zipIdx.filter p).map Prod.fst = l.filter q := by
  conv_rhs => rw [← List.zipIdx_map_fst 0 l, List.filter_map]
  apply congrArg (List.map Prod.fst)
  apply List.filter_congr
  exact fun x hx => (h x hx).symm

end Prelay.StableOrder
