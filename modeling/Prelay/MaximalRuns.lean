import Mathlib.Data.List.Basic
import Mathlib.Data.List.Chain

namespace MaximalRuns

variable {α : Type*}

/-- A part of a list whose elements satisfy a predicate and that is not followed or preceded by such an element. -/
def IsRun (p : α → Bool) (l run : List α) : Prop :=
  run ≠ [] ∧ (∀ a ∈ run, p a = true) ∧
    ∃ pre post, l = pre ++ run ++ post ∧ (∀ a ∈ pre.getLast?, p a = false) ∧ ∀ a ∈ post.head?, p a = false

def Apart (p : α → Bool) (l m : List α) : Prop := ∀ a ∈ l.getLast?, ∀ b ∈ m.head?, p a = false ∨ p b = false

structure Cut (p : α → Bool) (l : List α) (pieces : List (List α)) : Prop where
  joined : pieces.flatten = l
  uniform : ∀ piece ∈ pieces, piece ≠ [] ∧ ((∀ a ∈ piece, p a = true) ∨ ∀ a ∈ piece, p a = false)
  changes : pieces.IsChain (fun piece next => ∀ a ∈ piece, ∀ b ∈ next.head?, p a ≠ p b)

section runs

variable {p : α → Bool} {l m run : List α}

theorem IsRun.append_right (h : IsRun p l run) (hapart : Apart p l m) : IsRun p (l ++ m) run := by
  obtain ⟨hne, hrun, pre, post, rfl, hpre, hpost⟩ := h
  refine ⟨hne, hrun, pre, post ++ m, by simp only [List.append_assoc], hpre, ?_⟩
  intro b hb
  cases post with
  | cons c post => exact hpost b hb
  | nil =>
    rw [List.append_nil] at hapart
    obtain ⟨c, hc⟩ := List.getLast?_isSome.mpr hne |> Option.isSome_iff_exists.mp
    have hlast : c ∈ (pre ++ run).getLast? := by
      rw [List.getLast?_append, hc]
      rfl
    apply (hapart c hlast b hb).resolve_left
    rw [hrun c (List.mem_of_getLast? hc)]
    decide

theorem IsRun.append_left (h : IsRun p m run) (hapart : Apart p l m) : IsRun p (l ++ m) run := by
  obtain ⟨hne, hrun, pre, post, rfl, hpre, hpost⟩ := h
  refine ⟨hne, hrun, l ++ pre, post, by simp only [List.append_assoc], ?_, hpost⟩
  intro a ha
  cases hlast : pre.getLast? with
  | some c =>
    rw [List.getLast?_append, hlast] at ha
    exact hpre a (hlast.trans ha)
  | none =>
    obtain rfl := List.getLast?_eq_none_iff.mp hlast
    rw [List.append_nil] at ha
    obtain ⟨b, rest, rfl⟩ := List.exists_cons_of_ne_nil hne
    apply (hapart a ha b rfl).resolve_right
    rw [hrun b List.mem_cons_self]
    decide

theorem isRun_append (hapart : Apart p l m) : IsRun p (l ++ m) run ↔ IsRun p l run ∨ IsRun p m run := by
  constructor
  · rintro ⟨hne, hrun, pre, post, hsplit, hpre, hpost⟩
    rcases List.append_eq_append_iff.mp hsplit with ⟨mid, hleft, hright⟩ | ⟨mid, hleft, hright⟩
    · rcases List.append_eq_append_iff.mp hleft with ⟨start, hpreEq, hmid⟩ | ⟨start, hpreEq, hmid⟩
      · cases start with
        | nil =>
          right
          rw [List.nil_append] at hmid
          exact ⟨hne, hrun, [], post, by rw [hmid, hright, List.nil_append], nofun, hpost⟩
        | cons c start =>
          cases mid with
          | nil =>
            left
            rw [List.append_nil] at hmid
            exact ⟨hne, hrun, pre, [], by rw [hpreEq, hmid, List.append_nil], hpre, nofun⟩
          | cons d mid =>
            -- the run would go across
            have hlast : (c :: start).getLast (List.cons_ne_nil c start) ∈ l.getLast? := by
              rw [hpreEq, List.getLast?_append, List.getLast?_eq_some_getLast (List.cons_ne_nil c start)]
              rfl
            have hstart := hrun _ (hmid ▸ List.mem_append_left _ (List.getLast_mem (List.cons_ne_nil c start)))
            have hnext := hrun d (hmid ▸ List.mem_append_right _ List.mem_cons_self)
            rcases hapart _ hlast d (by rw [hright]; rfl) with hfalse | hfalse
            · exact nomatch hfalse.symm.trans hstart
            · exact nomatch hfalse.symm.trans hnext
      · right
        refine ⟨hne, hrun, start, post, by rw [hright, hmid], ?_, hpost⟩
        intro a ha
        apply hpre
        rw [hpreEq, List.getLast?_append, ha]
        rfl
    · left
      refine ⟨hne, hrun, pre, mid, hleft, hpre, ?_⟩
      intro a ha
      apply hpost
      rw [hright, List.head?_append, ha]
      rfl
  · rintro (h | h)
    · exact h.append_right hapart
    · exact h.append_left hapart

theorem not_isRun (h : ∀ a ∈ l, p a = false) : ¬IsRun p l run := by
  rintro ⟨hne, hrun, pre, post, rfl, -, -⟩
  obtain ⟨a, rest, rfl⟩ := List.exists_cons_of_ne_nil hne
  have hfalse := h a (by simp)
  rw [hrun a List.mem_cons_self] at hfalse
  exact nomatch hfalse

theorem isRun_self (hne : l ≠ []) (h : ∀ a ∈ l, p a = true) : IsRun p l run ↔ run = l := by
  constructor
  · rintro ⟨-, -, pre, post, rfl, hpre, hpost⟩
    have hpreNil : pre = [] := by
      by_contra hpreNe
      have hlast := hpre _ (List.getLast?_eq_some_getLast hpreNe)
      rw [h _ (by simp [List.getLast_mem hpreNe])] at hlast
      exact nomatch hlast
    have hpostNil : post = [] := by
      by_contra hpostNe
      obtain ⟨b, rest, rfl⟩ := List.exists_cons_of_ne_nil hpostNe
      have hhead := hpost b rfl
      rw [h b (by simp)] at hhead
      exact nomatch hhead
    rw [hpreNil, hpostNil, List.nil_append, List.append_nil]
  · rintro rfl
    exact ⟨hne, h, [], [], by simp, nofun, nofun⟩

end runs

section cut

variable {p : α → Bool} {l piece run : List α} {pieces : List (List α)}

theorem Cut.nil (p : α → Bool) : Cut p [] [] := ⟨rfl, nofun, .nil⟩

theorem Cut.cons (h : Cut p l pieces) (hne : piece ≠ [])
    (huniform : (∀ a ∈ piece, p a = true) ∨ ∀ a ∈ piece, p a = false)
    (hchanges : ∀ a ∈ piece, ∀ b ∈ l.head?, p a ≠ p b) : Cut p (piece ++ l) (piece :: pieces) where
  joined := by rw [List.flatten_cons, h.joined]
  uniform := List.forall_mem_cons.mpr ⟨⟨hne, huniform⟩, h.uniform⟩
  changes := by
    apply List.IsChain.cons h.changes
    intro next hnext a ha b hb
    apply hchanges a ha b
    rw [← h.joined]
    cases pieces with
    | nil => exact nomatch hnext
    | cons first rest =>
      obtain rfl := Option.some.inj hnext
      rw [List.flatten_cons, List.head?_append, hb]
      rfl

theorem Cut.tail (h : Cut p l (piece :: pieces)) : Cut p pieces.flatten pieces :=
  ⟨rfl, fun q hq => h.uniform q (List.mem_cons_of_mem _ hq), (List.isChain_cons.mp h.changes).2⟩

theorem IsRun.length_le (h : IsRun p l run) : run.length ≤ l.length := by
  obtain ⟨-, -, pre, post, rfl, -, -⟩ := h
  simp only [List.length_append]
  omega

theorem Cut.isRun_iff (h : Cut p l pieces) : IsRun p l run ↔ run ∈ pieces ∧ ∀ a ∈ run, p a = true := by
  obtain ⟨rfl, huniform, hchanges⟩ := h
  induction pieces with
  | nil =>
    constructor
    · exact fun h => absurd h (not_isRun nofun)
    · exact fun h => absurd h.1 List.not_mem_nil
  | cons piece pieces ih =>
    rw [List.forall_mem_cons] at huniform
    obtain ⟨⟨hne, hpiece⟩, hrest⟩ := huniform
    have hapart : Apart p piece pieces.flatten := by
      intro a ha b hb
      have hb' : ∃ next ∈ pieces.head?, b ∈ next.head? := by
        cases pieces with
        | nil => exact nomatch hb
        | cons next rest =>
          obtain ⟨c, tail, hcons⟩ := List.exists_cons_of_ne_nil (hrest next List.mem_cons_self).1
          refine ⟨next, rfl, ?_⟩
          rw [hcons, List.flatten_cons, List.cons_append] at hb
          rw [hcons]
          exact hb
      obtain ⟨next, hnext, hb'⟩ := hb'
      have hdiffers := (List.isChain_cons.mp hchanges).1 next hnext a (List.mem_of_getLast? ha) b hb'
      cases hpa : p a with
      | false => exact .inl rfl
      | true =>
        right
        rw [hpa] at hdiffers
        exact Bool.eq_false_iff.mpr (Ne.symm hdiffers)
    rw [List.flatten_cons, isRun_append hapart, ih hrest (List.isChain_cons.mp hchanges).2, List.mem_cons]
    rcases hpiece with hpiece | hpiece
    · rw [isRun_self hne hpiece]
      constructor
      · rintro (rfl | hmem)
        · exact ⟨.inl rfl, hpiece⟩
        · exact ⟨.inr hmem.1, hmem.2⟩
      · rintro ⟨rfl | hmem, hall⟩
        · exact .inl rfl
        · exact .inr ⟨hmem, hall⟩
    · constructor
      · rintro (hrun | hmem)
        · exact absurd hrun (not_isRun hpiece)
        · exact ⟨.inr hmem.1, hmem.2⟩
      · rintro ⟨rfl | hmem, hall⟩
        · obtain ⟨a, rest, rfl⟩ := List.exists_cons_of_ne_nil hne
          have hfalse := hpiece a List.mem_cons_self
          rw [hall a List.mem_cons_self] at hfalse
          exact nomatch hfalse
        · exact .inr ⟨hmem, hall⟩

end cut

end MaximalRuns
