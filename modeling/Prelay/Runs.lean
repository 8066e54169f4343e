import Mathlib.Data.List.Basic

namespace Prelay.Runs

variable {σ α : Type} (step : σ → α → σ → Prop)

/-- The runs of a transition system: the actions from a state on, each with the state it leads to. -/
inductive Run : σ → List (α × σ) → Prop
  | nil (s : σ) : Run s []
  | cons {s s' : σ} {a : α} {rest : List (α × σ)} (hstep : step s a s') (hrest : Run s' rest) : Run s ((a, s') :: rest)

/-- Every action of a run meets a condition in the state before it. -/
def Along (condition : σ → α → Prop) : σ → List (α × σ) → Prop
  | _, [] => True
  | s, (a, s') :: rest => condition s a ∧ Along condition s' rest

instance decidableAlong (condition : σ → α → Prop) [∀ s a, Decidable (condition s a)] :
    (s : σ) → (run : List (α × σ)) → Decidable (Along condition s run)
  | _, [] => .isTrue trivial
  | s, (a, s') :: rest =>
    have := decidableAlong condition s' rest
    inferInstanceAs (Decidable (condition s a ∧ Along condition s' rest))

inductive Reaches (allowed : σ → α → Prop) (start : σ) : σ → Prop
  | start : Reaches allowed start start
  | step {s s' : σ} {a : α} (hreached : Reaches allowed start s) (hallowed : allowed s a) (hstep : step s a s') :
      Reaches allowed start s'

variable {step}

theorem Reaches.invariant {allowed : σ → α → Prop} {start s : σ} {I : σ → Prop} (h : Reaches step allowed start s)
    (hstart : I start) (hkeep : ∀ s a s', I s → allowed s a → step s a s' → I s') : I s := by
  induction h with
  | start => exact hstart
  | step _ hallowed hstep ih => exact hkeep _ _ _ ih hallowed hstep

theorem Run.forall_of_along {I : σ → Prop} {condition : σ → α → Prop} {s : σ} {run : List (α × σ)} (h : Run step s run)
    (hI : I s) (hcondition : Along condition s run)
    (hkeep : ∀ s a s', I s → condition s a → step s a s' → I s') : ∀ entry ∈ run, I entry.2 := by
  induction h with
  | nil s => simp
  | cons hfirst _ ih =>
    rw [List.forall_mem_cons]
    have hnext := hkeep _ _ _ hI hcondition.1 hfirst
    exact ⟨hnext, ih hnext hcondition.2⟩

theorem Run.forall_of_keeps {I : σ → Prop} {s : σ} {run : List (α × σ)} (h : Run step s run) (hI : I s)
    (hkeep : ∀ s a s', I s → step s a s' → I s') : ∀ entry ∈ run, I entry.2 := by
  induction h with
  | nil s => simp
  | cons hfirst _ ih =>
    rw [List.forall_mem_cons]
    have hnext := hkeep _ _ _ hI hfirst
    exact ⟨hnext, ih hnext⟩

/-- A property that a step keeps exactly when it meets a condition holds along a run exactly when all its steps do. -/
theorem Run.forall_iff {I P : σ → Prop} {condition : σ → α → Prop} {s : σ} {run : List (α × σ)} (h : Run step s run)
    (hI : I s) (hP : P s) (hkeep : ∀ s a s', I s → step s a s' → I s')
    (hstep : ∀ s a s', I s → P s → step s a s' → (P s' ↔ condition s a)) :
    (∀ entry ∈ run, P entry.2) ↔ Along condition s run := by
  induction h with
  | nil s => simp [Along]
  | cons hfirst _ ih =>
    rw [List.forall_mem_cons, Along, hstep _ _ _ hI hP hfirst]
    refine and_congr_right (fun hcondition => ?_)
    exact ih (hkeep _ _ _ hI hfirst) ((hstep _ _ _ hI hP hfirst).mpr hcondition)

section follow

variable (next : σ → α → Option σ)

def follow : σ → List α → Option (List (α × σ))
  | _, [] => some []
  | s, a :: actions => (next s a).bind (fun s' => (follow s' actions).map ((a, s') :: ·))

variable {next}

theorem follow_run {s : σ} {actions : List α} {run : List (α × σ)} (h : follow next s actions = some run) :
    Run (fun s a s' => next s a = some s') s run := by
  induction actions generalizing s run with
  | nil =>
    obtain rfl := Option.some.inj h
    exact .nil s
  | cons a actions ih =>
    obtain ⟨s', hstep, h⟩ := Option.bind_eq_some_iff.mp h
    obtain ⟨rest, hrest, rfl⟩ := Option.map_eq_some_iff.mp h
    exact .cons hstep (ih hrest)

end follow

end Prelay.Runs
