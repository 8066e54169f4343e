import Mathlib.Data.List.Basic

namespace Prelay.Lines

variable {α : Type}

def render (sep : α) (lines : List (List α)) : List α := lines.flatMap (fun line => line ++ [sep])

@[simp]
theorem render_nil (sep : α) : render sep [] = [] := rfl

@[simp]
theorem render_cons (sep : α) (line : List α) (lines : List (List α)) :
    render sep (line :: lines) = line ++ sep :: render sep lines := by
  simp [render]

theorem render_append (sep : α) (ls ms : List (List α)) :
    render sep (ls ++ ms) = render sep ls ++ render sep ms := by
  simp [render]

def consLine (a : α) : List (List α) × List α → List (List α) × List α
  | ([], rest) => ([], a :: rest)
  | (line :: lines, rest) => ((a :: line) :: lines, rest)

def prepend (lines : List (List α)) (p : List (List α) × List α) : List (List α) × List α :=
  (lines ++ p.1, p.2)

variable [DecidableEq α]

def split (sep : α) : List α → List (List α) × List α
  | [] => ([], [])
  | a :: as => if a = sep then ([] :: (split sep as).1, (split sep as).2) else consLine a (split sep as)

@[simp]
theorem split_sep (sep : α) (as : List α) :
    split sep (sep :: as) = prepend [[]] (split sep as) := by
  simp [split, prepend]

theorem split_line (sep : α) (line as : List α) (h : sep ∉ line) :
    split sep (line ++ sep :: as) = prepend [line] (split sep as) := by
  induction line with
  | nil => exact split_sep sep as
  | cons a line ih =>
    have ha : a ≠ sep := fun he => h (he ▸ List.mem_cons_self)
    rw [List.cons_append, split, if_neg ha, ih (fun hm => h (List.mem_cons_of_mem _ hm))]
    rfl

theorem split_open (sep : α) (as : List α) (h : sep ∉ as) : split sep as = ([], as) := by
  induction as with
  | nil => rfl
  | cons a as ih =>
    have ha : a ≠ sep := fun he => h (he ▸ List.mem_cons_self)
    rw [split, if_neg ha, ih (fun hm => h (List.mem_cons_of_mem _ hm))]
    rfl

theorem split_render (sep : α) (lines : List (List α)) (as : List α) (h : ∀ line ∈ lines, sep ∉ line) :
    split sep (render sep lines ++ as) = prepend lines (split sep as) := by
  induction lines with
  | nil => simp [prepend]
  | cons line lines ih =>
    rw [render_cons, List.append_assoc, List.cons_append, split_line sep line _ (h line List.mem_cons_self),
      ih (fun l hl => h l (List.mem_cons_of_mem _ hl))]
    simp [prepend]

theorem split_spec (sep : α) (as : List α) :
    render sep (split sep as).1 ++ (split sep as).2 = as ∧ sep ∉ (split sep as).2 ∧
      ∀ line ∈ (split sep as).1, sep ∉ line := by
  induction as with
  | nil => simp [split]
  | cons a as ih =>
    obtain ⟨hjoin, hrest, hlines⟩ := ih
    rw [split]
    split_ifs with ha
    · subst ha
      refine ⟨by simp [hjoin], hrest, ?_⟩
      intro line hline
      rcases List.mem_cons.mp hline with rfl | hline
      · exact List.not_mem_nil
      · exact hlines line hline
    · have hne : sep ≠ a := fun he => ha he.symm
      cases hs : split sep as with
      | mk lines rest =>
        rw [hs] at hjoin hrest hlines
        cases lines with
        | nil =>
          refine ⟨by simpa [consLine] using hjoin, ?_, by simp [consLine]⟩
          simpa [consLine, hne] using hrest
        | cons line lines =>
          refine ⟨by simpa [consLine] using hjoin, hrest, ?_⟩
          intro l hl
          rcases List.mem_cons.mp hl with rfl | hl
          · have := hlines line List.mem_cons_self
            simpa [hne] using this
          · exact hlines l (List.mem_cons_of_mem _ hl)

theorem split_join (sep : α) (as : List α) : render sep (split sep as).1 ++ (split sep as).2 = as :=
  (split_spec sep as).1

theorem split_append (sep : α) (as bs : List α) :
    split sep (as ++ bs) = prepend (split sep as).1 (split sep ((split sep as).2 ++ bs)) := by
  obtain ⟨hjoin, -, hlines⟩ := split_spec sep as
  conv_lhs => rw [← hjoin, List.append_assoc]
  exact split_render sep _ _ hlines

theorem split_append_fst (sep : α) (as bs : List α) :
    (split sep (as ++ bs)).1 = (split sep as).1 ++ (split sep ((split sep as).2 ++ bs)).1 := by
  rw [split_append]
  rfl

theorem split_append_snd (sep : α) (as bs : List α) :
    (split sep (as ++ bs)).2 = (split sep ((split sep as).2 ++ bs)).2 := by
  rw [split_append]
  rfl

theorem split_prefix (sep : α) {as : List α} {lines : List (List α)} (h : as <+: render sep lines)
    (hlines : ∀ line ∈ lines, sep ∉ line) : (split sep as).1 <+: lines := by
  obtain ⟨bs, hbs⟩ := h
  have hsplit := split_append_fst sep as bs
  have hrender := split_render sep lines [] hlines
  rw [List.append_nil, ← hbs] at hrender
  rw [hrender] at hsplit
  exact ⟨_, by simpa [prepend, split] using hsplit.symm⟩

end Prelay.Lines
