import Mathlib.Data.Fintype.Basic
import Mathlib.Data.List.Nodup
import Mathlib.Logic.Function.Basic

namespace Prelay.Transactions

variable {ι ρ κ : Type}

/-- The uncommitted changes of a transaction to a table. An update removes one version of a row and adds another. -/
structure Writes (ρ : Type) where
  deleted : List ρ := []
  inserted : List ρ := []

/-- A table under read committed isolation: its committed rows and the changes of the open transactions. -/
structure Table (ι ρ : Type) where
  rows : List ρ
  writes : ι → Writes ρ := fun _ => {}

namespace Table

def Locked (t : Table ι ρ) (call : ι) (row : ρ) : Prop := ∃ other, other ≠ call ∧ row ∈ (t.writes other).deleted

def Contested (t : Table ι ρ) (call : ι) (clash : ρ → Prop) : Prop :=
  ∃ other, other ≠ call ∧ ∃ row ∈ (t.writes other).inserted ++ (t.writes other).deleted, clash row

def Covers (t : Table ι ρ) (call : ι) (kind : ρ → Prop) (rest : List ρ) : Prop :=
  ∀ row ∈ t.rows, kind row → row ∈ (t.writes call).deleted ∨ row ∈ rest

def set [DecidableEq ι] (t : Table ι ρ) (call : ι) (writes : Writes ρ) : Table ι ρ :=
  { t with writes := Function.update t.writes call writes }

section set

variable [DecidableEq ι] (t : Table ι ρ) {call other : ι} (writes : Writes ρ)

@[simp]
theorem set_rows : (t.set call writes).rows = t.rows := rfl

@[simp]
theorem set_self : (t.set call writes).writes call = writes := Function.update_self _ _ _

theorem set_of_ne (h : other ≠ call) : (t.set call writes).writes other = t.writes other :=
  Function.update_of_ne h _ _

variable {t writes} {kind : ρ → Prop} {rest : List ρ}

theorem Covers.of_set {writes : Writes ρ} (h : t.Covers call kind rest)
    (hdeleted : ∀ row ∈ (t.writes call).deleted, row ∈ writes.deleted) :
    (t.set call writes).Covers call kind rest := by
  intro row hrow hkind
  rw [set_self]
  exact (h row hrow hkind).imp_left (hdeleted row)

theorem Covers.set_of_ne {writes : Writes ρ} (h : t.Covers call kind rest) (hne : call ≠ other) :
    (t.set other writes).Covers call kind rest := by
  intro row hrow hkind
  rw [Table.set_of_ne t writes hne]
  exact h row hrow hkind

end set

variable [DecidableEq ρ]

def view (t : Table ι ρ) (call : ι) : List ρ :=
  t.rows.filter (fun row => row ∉ (t.writes call).deleted) ++ (t.writes call).inserted

section view

variable {t : Table ι ρ} {call : ι} {row : ρ} {kind : ρ → Prop}

theorem mem_view : row ∈ t.view call ↔
    row ∈ t.rows ∧ row ∉ (t.writes call).deleted ∨ row ∈ (t.writes call).inserted := by
  simp [view]

theorem view_of_clean (h : t.writes call = {}) : t.view call = t.rows := by
  simp [view, h]

theorem covers_view [DecidablePred kind] (call : ι) (t : Table ι ρ) :
    t.Covers call kind ((t.view call).filter (fun row => kind row)) := by
  intro row hrow hkind
  by_cases hdeleted : row ∈ (t.writes call).deleted
  · exact .inl hdeleted
  · exact .inr (List.mem_filter.mpr ⟨mem_view.mpr (.inl ⟨hrow, hdeleted⟩), decide_eq_true hkind⟩)

theorem Covers.view_filter [DecidablePred kind] (h : t.Covers call kind []) :
    (t.view call).filter (fun row => kind row) = (t.writes call).inserted.filter (fun row => kind row) := by
  have hnone : (t.rows.filter (fun row => row ∉ (t.writes call).deleted)).filter (fun row => kind row) = [] := by
    rw [List.filter_eq_nil_iff]
    intro row hrow hkind
    obtain ⟨hrow, hkept⟩ := List.mem_filter.mp hrow
    cases h row hrow (of_decide_eq_true hkind) with
    | inl hdeleted => exact absurd hdeleted (of_decide_eq_true hkept)
    | inr hrest => exact nomatch hrest
  rw [view, List.filter_append, hnone, List.nil_append]

theorem view_filter_untouched [DecidablePred kind] (hdeleted : ∀ row ∈ (t.writes call).deleted, ¬kind row)
    (hinserted : ∀ row ∈ (t.writes call).inserted, ¬kind row) :
    (t.view call).filter (fun row => kind row) = t.rows.filter (fun row => kind row) := by
  have hnone : (t.writes call).inserted.filter (fun row => kind row) = [] := by
    rw [List.filter_eq_nil_iff]
    intro row hrow hkind
    exact hinserted row hrow (of_decide_eq_true hkind)
  rw [view, List.filter_append, hnone, List.append_nil, List.filter_filter]
  apply List.filter_congr
  intro row _
  by_cases hkind : kind row
  · have hkept : row ∉ (t.writes call).deleted := fun hrow => hdeleted row hrow hkind
    simp [hkind, hkept]
  · simp [hkind]

structure Exclusive (key : ρ → κ) (t : Table ι ρ) : Prop where
  deletedMem : ∀ call, ∀ row ∈ (t.writes call).deleted, row ∈ t.rows
  deletedOnce : ∀ call other row, row ∈ (t.writes call).deleted → row ∈ (t.writes other).deleted → call = other
  rowsKey : (t.rows.map key).Nodup
  viewKey : ∀ call, ((t.view call).map key).Nodup
  insertedKey : ∀ call other, call ≠ other → ∀ row ∈ (t.writes call).inserted,
    ∀ added ∈ (t.writes other).inserted, key row ≠ key added

theorem exclusive_start {key : ρ → κ} {rows : List ρ} (h : (rows.map key).Nodup) :
    @Exclusive ι ρ κ _ key ⟨rows, fun _ => {}⟩ where
  deletedMem := fun _ _ hrow => nomatch hrow
  deletedOnce := fun _ _ _ hrow => nomatch hrow
  rowsKey := h
  viewKey := fun _ => by rwa [view_of_clean rfl]
  insertedKey := fun _ _ _ _ hrow => nomatch hrow

end view

variable [DecidableEq ι]

instance [Fintype ι] (t : Table ι ρ) (call : ι) (row : ρ) : Decidable (t.Locked call row) :=
  inferInstanceAs (Decidable (∃ other, other ≠ call ∧ row ∈ (t.writes other).deleted))

instance [Fintype ι] (t : Table ι ρ) (call : ι) (clash : ρ → Prop) [DecidablePred clash] :
    Decidable (t.Contested call clash) :=
  inferInstanceAs (Decidable (∃ other, other ≠ call ∧
    ∃ row ∈ (t.writes other).inserted ++ (t.writes other).deleted, clash row))

def delete (t : Table ι ρ) (call : ι) (row : ρ) : Table ι ρ :=
  t.set call { t.writes call with deleted := row :: (t.writes call).deleted }

def insert (t : Table ι ρ) (call : ι) (row : ρ) : Table ι ρ :=
  t.set call { t.writes call with inserted := (t.writes call).inserted ++ [row] }

def amend (t : Table ι ρ) (call : ι) (f : ρ → ρ) : Table ι ρ :=
  t.set call { t.writes call with inserted := (t.writes call).inserted.map f }

def commit (t : Table ι ρ) (call : ι) : Table ι ρ := { t.set call {} with rows := t.view call }

def rollback (t : Table ι ρ) (call : ι) : Table ι ρ := t.set call {}

/-- A `DELETE` at a row of its snapshot: it waits while another transaction holds the row and passes over a row that is
gone. -/
def deleteNext [Fintype ι] (t : Table ι ρ) (call : ι) (row : ρ) : Option (Table ι ρ) :=
  if t.Locked call row then none
  else if row ∈ t.rows then some (t.delete call row)
  else some t

/-- An `INSERT` into a table with unique columns: it waits while the clash depends on another transaction, and the inner
option is absent when it meets a duplicate. -/
def tryInsert [Fintype ι] (t : Table ι ρ) (call : ι) (clash : ρ → Prop) [DecidablePred clash] (row : ρ) :
    Option (Option (Table ι ρ)) :=
  if ∃ other ∈ t.view call, clash other ∧ ¬t.Locked call other then some none
  else if t.Contested call clash then none
  else some (some (t.insert call row))

section statements

variable (t : Table ι ρ) {call other : ι} {row : ρ} {writes : Writes ρ}

@[simp]
theorem commit_rows : (t.commit call).rows = t.view call := rfl

@[simp]
theorem commit_self : (t.commit call).writes call = {} := Function.update_self _ _ _

theorem commit_of_ne (h : other ≠ call) : (t.commit call).writes other = t.writes other :=
  Function.update_of_ne h _ _

variable {t}

theorem view_set_of_ne (h : other ≠ call) : (t.set call writes).view other = t.view other := by
  simp [view, set_of_ne t writes h]

variable [Fintype ι]

theorem deleteNext_some {t' : Table ι ρ} (h : t.deleteNext call row = some t') :
    ¬t.Locked call row ∧ (row ∈ t.rows ∧ t' = t.delete call row ∨ row ∉ t.rows ∧ t' = t) := by
  unfold deleteNext at h
  split_ifs at h with hlocked hmem
  · exact ⟨hlocked, .inl ⟨hmem, (Option.some.inj h).symm⟩⟩
  · exact ⟨hlocked, .inr ⟨hmem, (Option.some.inj h).symm⟩⟩

theorem tryInsert_some {t' : Table ι ρ} {clash : ρ → Prop} [DecidablePred clash]
    (h : t.tryInsert call clash row = some (some t')) :
    t' = t.insert call row ∧ (∀ other ∈ t.view call, ¬clash other) ∧ ¬t.Contested call clash := by
  unfold tryInsert at h
  split_ifs at h with hduplicate hcontested
  · exact nomatch Option.some.inj h
  refine ⟨(Option.some.inj (Option.some.inj h)).symm, ?_, hcontested⟩
  intro other hother hclash
  apply hduplicate
  refine ⟨other, hother, hclash, ?_⟩
  rintro ⟨holder, hholder, hdeleted⟩
  exact hcontested ⟨holder, hholder, other, List.mem_append_right _ hdeleted, hclash⟩

end statements

section covers

variable {t t' : Table ι ρ} {call other : ι} {kind : ρ → Prop} {row : ρ} {rest : List ρ}

theorem Covers.deleteNext [Fintype ι] (h : t.Covers call kind (row :: rest)) (hnext : t.deleteNext call row = some t') :
    t'.Covers call kind rest := by
  obtain ⟨-, ⟨-, rfl⟩ | ⟨hgone, rfl⟩⟩ := deleteNext_some hnext
  · intro other hother hkind
    rw [Table.delete, set_self]
    cases h other hother hkind with
    | inl hdeleted => exact .inl (List.mem_cons_of_mem _ hdeleted)
    | inr hrest =>
      cases List.mem_cons.mp hrest with
      | inl heq => exact .inl (heq ▸ List.mem_cons_self)
      | inr hrest => exact .inr hrest
  · intro other hother hkind
    cases h other hother hkind with
    | inl hdeleted => exact .inl hdeleted
    | inr hrest =>
      cases List.mem_cons.mp hrest with
      | inl heq => exact absurd (heq ▸ hother) hgone
      | inr hrest => exact .inr hrest

theorem Covers.commit (h : t.Covers call kind rest) (hne : call ≠ other)
    (hinserted : ∀ row ∈ (t.writes other).inserted, ¬kind row) : (t.commit other).Covers call kind rest := by
  intro row hrow hkind
  rw [commit_of_ne t hne]
  cases mem_view.mp hrow with
  | inl hold => exact h row hold.1 hkind
  | inr hnew => exact absurd hkind (hinserted row hnew)

end covers

section exclusive

variable {key : ρ → κ} {t : Table ι ρ} {call : ι} {row : ρ}

theorem Exclusive.rollback (h : t.Exclusive key) (call : ι) : (t.rollback call).Exclusive key := by
  have hsub (other : ι) : (∀ row ∈ ((t.rollback call).writes other).deleted, row ∈ (t.writes other).deleted) ∧
      ∀ row ∈ ((t.rollback call).writes other).inserted, row ∈ (t.writes other).inserted := by
    by_cases hother : other = call
    · subst hother
      rw [Table.rollback, set_self]
      exact ⟨fun _ hrow => absurd hrow List.not_mem_nil, fun _ hrow => absurd hrow List.not_mem_nil⟩
    · rw [Table.rollback, set_of_ne t _ hother]
      exact ⟨fun _ => id, fun _ => id⟩
  constructor
  · intro other row hrow
    exact h.deletedMem other row ((hsub other).1 row hrow)
  · intro first second row hfirst hsecond
    exact h.deletedOnce first second row ((hsub first).1 row hfirst) ((hsub second).1 row hsecond)
  · exact h.rowsKey
  · intro other
    by_cases hother : other = call
    · subst hother
      rw [Table.rollback, view_of_clean (set_self t _)]
      exact h.rowsKey
    · rw [Table.rollback, view_set_of_ne hother]
      exact h.viewKey other
  · intro first second hne row hrow added hadded
    exact h.insertedKey first second hne row ((hsub first).2 row hrow) added ((hsub second).2 added hadded)

theorem view_delete (t : Table ι ρ) (call : ι) (row : ρ) :
    ((t.delete call row).view call).Sublist (t.view call) := by
  unfold view Table.delete
  rw [set_self, set_rows]
  apply List.Sublist.append_right
  apply List.monotone_filter_right
  intro other hother
  simp only [List.mem_cons, not_or, decide_eq_true_eq] at hother ⊢
  exact hother.2

theorem Exclusive.delete (h : t.Exclusive key) (hrow : row ∈ t.rows) (hfree : ¬t.Locked call row) :
    (t.delete call row).Exclusive key := by
  have hdeleted (other : ι) (old : ρ) (hold : old ∈ ((t.delete call row).writes other).deleted) :
      old ∈ (t.writes other).deleted ∨ other = call ∧ old = row := by
    by_cases hother : other = call
    · subst hother
      rw [Table.delete, set_self] at hold
      exact (List.mem_cons.mp hold).symm.imp_right (fun heq => ⟨rfl, heq⟩)
    · rw [Table.delete, set_of_ne t _ hother] at hold
      exact .inl hold
  have hinserted (other : ι) : ((t.delete call row).writes other).inserted = (t.writes other).inserted := by
    by_cases hother : other = call
    · subst hother
      rw [Table.delete, set_self]
    · rw [Table.delete, set_of_ne t _ hother]
  constructor
  · intro other old hold
    obtain hold | ⟨-, rfl⟩ := hdeleted other old hold
    · exact h.deletedMem other old hold
    · exact hrow
  · intro first second old hfirst hsecond
    have hlocked {other : ι} (hold : row ∈ (t.writes other).deleted) : other = call :=
      by_contra fun hne => hfree ⟨other, hne, hold⟩
    obtain hfirst' | ⟨rfl, rfl⟩ := hdeleted first old hfirst
    · obtain hsecond' | ⟨rfl, rfl⟩ := hdeleted second old hsecond
      · exact h.deletedOnce first second old hfirst' hsecond'
      · exact hlocked hfirst'
    · obtain hsecond' | ⟨rfl, -⟩ := hdeleted second old hsecond
      · exact (hlocked hsecond').symm
      · rfl
  · exact h.rowsKey
  · intro other
    by_cases hother : other = call
    · subst hother
      exact (h.viewKey other).sublist ((view_delete t other row).map key)
    · rw [Table.delete, view_set_of_ne hother]
      exact h.viewKey other
  · intro first second hne old hold added hadded
    rw [hinserted] at hold hadded
    exact h.insertedKey first second hne old hold added hadded

theorem Exclusive.insert (h : t.Exclusive key) (hview : ∀ other ∈ t.view call, key other ≠ key row)
    (hadded : ∀ other ≠ call, ∀ added ∈ (t.writes other).inserted, key added ≠ key row) :
    (t.insert call row).Exclusive key := by
  have hdeleted (other : ι) : ((t.insert call row).writes other).deleted = (t.writes other).deleted := by
    by_cases hother : other = call
    · subst hother
      rw [Table.insert, set_self]
    · rw [Table.insert, set_of_ne t _ hother]
  have hinserted (other : ι) (added : ρ) (hmem : added ∈ ((t.insert call row).writes other).inserted) :
      added ∈ (t.writes other).inserted ∨ other = call ∧ added = row := by
    by_cases hother : other = call
    · subst hother
      rw [Table.insert, set_self] at hmem
      exact (List.mem_append.mp hmem).imp_right (fun heq => ⟨rfl, List.mem_singleton.mp heq⟩)
    · rw [Table.insert, set_of_ne t _ hother] at hmem
      exact .inl hmem
  constructor
  · intro other old hold
    rw [hdeleted] at hold
    exact h.deletedMem other old hold
  · intro first second old hfirst hsecond
    rw [hdeleted] at hfirst hsecond
    exact h.deletedOnce first second old hfirst hsecond
  · exact h.rowsKey
  · intro other
    by_cases hother : other = call
    · subst hother
      have heq : (t.insert other row).view other = t.view other ++ [row] := by
        simp [view, Table.insert, List.append_assoc]
      rw [heq, List.map_append]
      apply (h.viewKey other).append (List.nodup_singleton _)
      intro k hk hrow
      obtain ⟨old, hold, rfl⟩ := List.mem_map.mp hk
      exact hview old hold (List.mem_singleton.mp hrow)
    · rw [Table.insert, view_set_of_ne hother]
      exact h.viewKey other
  · intro first second hne old hold new hnew
    obtain hold' | ⟨rfl, rfl⟩ := hinserted first old hold
    · obtain hnew' | ⟨rfl, rfl⟩ := hinserted second new hnew
      · exact h.insertedKey first second hne old hold' new hnew'
      · exact hadded first hne old hold'
    · obtain hnew' | ⟨rfl, rfl⟩ := hinserted second new hnew
      · exact (hadded second hne.symm new hnew').symm
      · exact absurd rfl hne

theorem Exclusive.update (h : t.Exclusive key) {version : ρ} (hrow : row ∈ t.rows) (hfree : ¬t.Locked call row)
    (hkey : key version = key row) (hown : ∀ own ∈ (t.writes call).inserted, key own ≠ key row) :
    ((t.delete call row).insert call version).Exclusive key := by
  have hdelete := h.delete hrow hfree
  apply hdelete.insert
  · intro other hother heq
    rw [mem_view, Table.delete, set_self, set_rows] at hother
    obtain ⟨hmem, hkept⟩ | hadded := hother
    · have hsame := List.inj_on_of_nodup_map h.rowsKey hmem hrow (heq.trans hkey)
      exact hkept (hsame ▸ List.mem_cons_self)
    · exact hown other hadded (heq.trans hkey)
  · intro other hother added hadded heq
    rw [Table.delete, set_of_ne t _ hother] at hadded
    -- The other transaction sees the row beside the one it adds.
    have hseen : row ∈ t.rows.filter (fun row => row ∉ (t.writes other).deleted) :=
      List.mem_filter.mpr ⟨hrow, decide_eq_true fun hlocked => hfree ⟨other, hother, hlocked⟩⟩
    have hview := h.viewKey other
    rw [view, List.map_append] at hview
    exact List.disjoint_of_nodup_append hview (List.mem_map_of_mem hseen)
      (List.mem_map.mpr ⟨added, hadded, heq.trans hkey⟩)

theorem Exclusive.amend (h : t.Exclusive key) {f : ρ → ρ} (hkey : ∀ row, key (f row) = key row) :
    (t.amend call f).Exclusive key := by
  have hdeleted (other : ι) : ((t.amend call f).writes other).deleted = (t.writes other).deleted := by
    by_cases hother : other = call
    · subst hother
      rw [Table.amend, set_self]
    · rw [Table.amend, set_of_ne t _ hother]
  have hinserted (other : ι) :
      ((t.amend call f).writes other).inserted.map key = (t.writes other).inserted.map key := by
    by_cases hother : other = call
    · subst hother
      rw [Table.amend, set_self, List.map_map, show key ∘ f = key from funext hkey]
    · rw [Table.amend, set_of_ne t _ hother]
  constructor
  · intro other row hrow
    rw [hdeleted] at hrow
    exact h.deletedMem other row hrow
  · intro first second row hfirst hsecond
    rw [hdeleted] at hfirst hsecond
    exact h.deletedOnce first second row hfirst hsecond
  · exact h.rowsKey
  · intro other
    have hview := h.viewKey other
    rw [view, List.map_append] at hview ⊢
    rw [hinserted, hdeleted]
    exact hview
  · intro first second hne row hrow added hadded heq
    have hfirst := List.mem_map_of_mem (f := key) hrow
    have hsecond := List.mem_map_of_mem (f := key) hadded
    rw [hinserted] at hfirst hsecond
    obtain ⟨old, hold, hrowKey⟩ := List.mem_map.mp hfirst
    obtain ⟨new, hnew, haddedKey⟩ := List.mem_map.mp hsecond
    exact h.insertedKey first second hne old hold new hnew (hrowKey.trans (heq.trans haddedKey.symm))

theorem Exclusive.commit (h : t.Exclusive key) (call : ι) : (t.commit call).Exclusive key := by
  have hsub (other : ι) : (∀ row ∈ ((t.commit call).writes other).deleted, row ∈ (t.writes other).deleted ∧ other ≠ call) ∧
      ∀ row ∈ ((t.commit call).writes other).inserted, row ∈ (t.writes other).inserted := by
    by_cases hother : other = call
    · subst hother
      rw [commit_self]
      exact ⟨fun _ hrow => absurd hrow List.not_mem_nil, fun _ hrow => absurd hrow List.not_mem_nil⟩
    · rw [commit_of_ne t hother]
      exact ⟨fun _ hrow => ⟨hrow, hother⟩, fun _ => id⟩
  constructor
  · intro other row hrow
    obtain ⟨hrow, hother⟩ := (hsub other).1 row hrow
    refine mem_view.mpr (.inl ⟨h.deletedMem other row hrow, fun hown => ?_⟩)
    exact hother (h.deletedOnce other call row hrow hown)
  · intro first second row hfirst hsecond
    exact h.deletedOnce first second row ((hsub first).1 row hfirst).1 ((hsub second).1 row hsecond).1
  · exact h.viewKey call
  · intro other
    by_cases hother : other = call
    · subst hother
      rw [view_of_clean (commit_self t)]
      exact h.viewKey other
    · rw [view, commit_of_ne t hother, commit_rows, List.map_append]
      apply List.Nodup.append
      · exact (h.viewKey call).sublist (List.filter_sublist.map key)
      · have hview := h.viewKey other
        rw [view, List.map_append] at hview
        exact hview.of_append_right
      · intro k hold hnew
        obtain ⟨row, hrow, rfl⟩ := List.mem_map.mp hold
        obtain ⟨added, hadded, heq⟩ := List.mem_map.mp hnew
        obtain ⟨hrow, hkept⟩ := List.mem_filter.mp hrow
        cases mem_view.mp hrow with
        | inl hcommitted =>
          have hview := h.viewKey other
          rw [view, List.map_append] at hview
          exact List.disjoint_of_nodup_append hview
            (List.mem_map_of_mem (List.mem_filter.mpr ⟨hcommitted.1, hkept⟩)) (heq ▸ List.mem_map_of_mem hadded)
        | inr hown => exact h.insertedKey call other (Ne.symm hother) row hown added hadded heq.symm
  · intro first second hne row hrow added hadded
    exact h.insertedKey first second hne row ((hsub first).2 row hrow) added ((hsub second).2 added hadded)

end exclusive

end Table

end Prelay.Transactions
