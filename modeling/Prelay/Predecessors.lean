import Mathlib.Data.List.Basic

namespace Predecessors

variable {τ κ : Type*} (key : τ → κ) (previous : τ → Option κ)

/-- The nodes that a reference leads back to, the oldest first. -/
inductive Leads (nodes : τ → Prop) : Option κ → List τ → Prop
  | start : Leads nodes none []
  | further {node : τ} {older : List τ} (hnode : nodes node) (holder : Leads nodes (previous node) older) :
      Leads nodes (some (key node)) (older ++ [node])

variable {key previous} {nodes nodes' : τ → Prop}

theorem Leads.mono (h : ∀ node, nodes node → nodes' node) {reference : Option κ} {chain : List τ}
    (hchain : Leads key previous nodes reference chain) : Leads key previous nodes' reference chain := by
  induction hchain with
  | start => exact .start
  | further hnode _ ih => exact .further (h _ hnode) ih

theorem Leads.of_mem {reference : Option κ} {chain : List τ} (h : Leads key previous nodes reference chain) :
    ∀ node ∈ chain, nodes node := by
  induction h with
  | start => exact nofun
  | further hnode _ ih =>
    intro node hmem
    rcases List.mem_append.mp hmem with hmem | hmem
    · exact ih node hmem
    · rw [List.mem_singleton.mp hmem]
      exact hnode

theorem Leads.unique (hkey : ∀ a b, nodes a → nodes b → key a = key b → a = b) {reference : Option κ}
    {chain chain' : List τ} (h : Leads key previous nodes reference chain)
    (h' : Leads key previous nodes reference chain') : chain = chain' := by
  induction h generalizing chain' with
  | start =>
    cases h'
    rfl
  | @further node older hnode _ ih =>
    obtain ⟨reference, hreference⟩ : ∃ reference, reference = some (key node) := ⟨_, rfl⟩
    rw [← hreference] at h'
    cases h' with
    | start => cases hreference
    | further hother holder =>
      obtain rfl := hkey _ _ hother hnode (Option.some.inj hreference)
      rw [ih holder]

end Predecessors
