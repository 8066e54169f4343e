import Mathlib.Algebra.BigOperators.Group.List.Basic
import Mathlib.Algebra.Order.Group.Int
import Mathlib.Data.List.Dedup
import Mathlib.Data.Int.Interval

namespace Tiling

section cells

variable {ρ γ M : Type*} [AddCommMonoid M] (f : ρ → M) (inCell : γ → ρ → Bool)

def Covers (cells : List γ) (items : List ρ) : Prop :=
  ∀ item ∈ items, ∃ cell, cells.filter (fun cell => inCell cell item) = [cell]

def cellSum (items : List ρ) (cell : γ) : M := ((items.filter (inCell cell)).map f).sum

theorem cellSum_cons (item : ρ) (items : List ρ) (cell : γ) :
    cellSum f inCell (item :: items) cell = (if inCell cell item then f item else 0) + cellSum f inCell items cell := by
  unfold cellSum
  rw [List.filter_cons]
  split_ifs
  · rw [List.map_cons, List.sum_cons]
  · rw [zero_add]

theorem cellSum_eq (items : List ρ) (cell : γ) :
    cellSum f inCell items cell = (items.map (fun item => if inCell cell item then f item else 0)).sum := by
  induction items with
  | nil => rfl
  | cons item items ih => rw [cellSum_cons, ih, List.map_cons, List.sum_cons]

theorem cellSum_perm {items items' : List ρ} (h : items.Perm items') (cell : γ) :
    cellSum f inCell items cell = cellSum f inCell items' cell := by
  rw [cellSum_eq, cellSum_eq]
  exact (h.map _).sum_eq

theorem sum_indicator (cells : List γ) (item : ρ) :
    (cells.map (fun cell => if inCell cell item then f item else 0)).sum =
      ((cells.filter (fun cell => inCell cell item)).map (fun _ => f item)).sum := by
  induction cells with
  | nil => rfl
  | cons cell cells ih =>
    rw [List.map_cons, List.sum_cons, ih, List.filter_cons]
    split_ifs
    · rw [List.map_cons, List.sum_cons]
    · rw [zero_add]

theorem sum_cellSum {cells : List γ} {items : List ρ} (h : Covers inCell cells items) :
    (cells.map (cellSum f inCell items)).sum = (items.map f).sum := by
  induction items with
  | nil =>
    apply List.sum_eq_zero
    intro x hx
    obtain ⟨cell, -, rfl⟩ := List.mem_map.mp hx
    rfl
  | cons item items ih =>
    obtain ⟨cell, hcell⟩ := h item List.mem_cons_self
    have hsplit : cells.map (cellSum f inCell (item :: items)) =
        cells.map (fun cell => (if inCell cell item then f item else 0) + cellSum f inCell items cell) := by
      apply List.map_congr_left
      intro cell _
      exact cellSum_cons f inCell item items cell
    rw [hsplit, List.sum_map_add, sum_indicator, hcell, ih (fun item hitem => h item (List.mem_cons_of_mem _ hitem))]
    simp

end cells

section groups

variable {ρ κ : Type*} [DecidableEq κ] (key : ρ → κ)

def groupBy (rows : List ρ) : List (κ × List ρ) :=
  (rows.map key).dedup.map (fun k => (k, rows.filter (fun row => key row = k)))

theorem covers_keys (rows : List ρ) : Covers (fun k row => decide (key row = k)) (rows.map key).dedup rows := by
  intro row hrow
  have hmem : key row ∈ (rows.map key).dedup := List.mem_dedup.mpr (List.mem_map_of_mem hrow)
  refine ⟨key row, ?_⟩
  have hcount := List.count_eq_one_of_mem (List.nodup_dedup _) hmem
  have hfilter := List.filter_beq (l := (rows.map key).dedup) (key row)
  rw [hcount, List.replicate_one] at hfilter
  rw [← hfilter]
  apply List.filter_congr
  intro k _
  exact decide_eq_decide.mpr eq_comm

variable {M : Type*} [AddCommMonoid M] (f : ρ → M)

theorem sum_groupBy (rows : List ρ) :
    ((groupBy key rows).map (fun group => (group.2.map f).sum)).sum = (rows.map f).sum := by
  rw [← sum_cellSum f _ (covers_keys key rows), groupBy, List.map_map]
  rfl

theorem groupBy_rows {rows : List ρ} {group : κ × List ρ} (h : group ∈ groupBy key rows) :
    group.2 = rows.filter (fun row => key row = group.1) ∧ group.2 ≠ [] := by
  obtain ⟨k, hk, rfl⟩ := List.mem_map.mp h
  refine ⟨rfl, ?_⟩
  obtain ⟨row, hrow, rfl⟩ := List.mem_map.mp (List.mem_dedup.mp hk)
  exact List.ne_nil_of_mem (List.mem_filter.mpr ⟨hrow, decide_eq_true rfl⟩)

theorem mem_groupBy {rows : List ρ} {row : ρ} (h : row ∈ rows) :
    (key row, rows.filter (fun other => key other = key row)) ∈ groupBy key rows :=
  List.mem_map.mpr ⟨key row, List.mem_dedup.mpr (List.mem_map_of_mem h), rfl⟩

end groups

section intervals

variable {α : Type*} [LinearOrder α]

inductive Tiles : α → α → List (α × α) → Prop
  | nil (stop : α) : Tiles stop stop []
  | cons {start next stop : α} {tiles : List (α × α)} (hlt : start < next) (rest : Tiles next stop tiles) :
      Tiles start stop ((start, next) :: tiles)

variable {start stop : α} {tiles : List (α × α)}

theorem Tiles.le (h : Tiles start stop tiles) : start ≤ stop := by
  induction h with
  | nil => exact le_refl _
  | cons hlt _ ih => exact hlt.le.trans ih

theorem Tiles.bounds (h : Tiles start stop tiles) {tile : α × α} (htile : tile ∈ tiles) :
    start ≤ tile.1 ∧ tile.1 < tile.2 ∧ tile.2 ≤ stop := by
  induction h with
  | nil => cases htile
  | cons hlt rest ih =>
    rcases List.mem_cons.mp htile with rfl | htile
    · exact ⟨le_refl _, hlt, rest.le⟩
    · obtain ⟨hstart, hne, hstop⟩ := ih htile
      exact ⟨hlt.le.trans hstart, hne, hstop⟩

theorem Tiles.find (h : Tiles start stop tiles) {x : α} (hstart : start ≤ x) (hstop : x < stop) :
    ∃ before tile after, tiles = before ++ tile :: after ∧
      tiles.takeWhile (fun tile => tile.1 ≤ x) = before ++ [tile] ∧ tile.1 ≤ x ∧ x < tile.2 ∧
      (∀ other ∈ before, other.2 ≤ x) ∧ ∀ other ∈ after, x < other.1 := by
  induction h with
  | nil => exact absurd hstart (not_le.mpr hstop)
  | @cons start next stop tiles hlt rest ih =>
    rcases lt_or_ge x next with hx | hx
    · refine ⟨[], (start, next), tiles, rfl, ?_, hstart, hx, by simp, ?_⟩
      · rw [List.takeWhile_cons, if_pos (decide_eq_true hstart)]
        cases rest with
        | nil => rfl
        | cons =>
          rw [List.takeWhile_cons, if_neg (by simpa using hx)]
          rfl
      · intro other hother
        exact hx.trans_le (rest.bounds hother).1
    · obtain ⟨before, tile, after, rfl, hprefix, hfirst, hlast, hbefore, hafter⟩ := ih hx hstop
      refine ⟨(start, next) :: before, tile, after, rfl, ?_, hfirst, hlast, ?_, hafter⟩
      · rw [List.takeWhile_cons, if_pos (decide_eq_true hstart), hprefix, List.cons_append]
      · intro other hother
        rcases List.mem_cons.mp hother with rfl | hother
        · exact hx
        · exact hbefore other hother

theorem Tiles.length_mul {start stop : ℤ} {tiles : List (ℤ × ℤ)} (h : Tiles start stop tiles) {length : ℤ}
    (hlength : ∀ tile ∈ tiles, tile.2 = tile.1 + length) : start + length * tiles.length = stop := by
  induction h with
  | nil => rw [List.length_nil, Nat.cast_zero, mul_zero, add_zero]
  | cons hlt rest ih =>
    have hnext := hlength _ List.mem_cons_self
    have hrest := ih (fun tile htile => hlength tile (List.mem_cons_of_mem _ htile))
    dsimp only at hnext
    rw [← hrest, hnext, List.length_cons, Nat.cast_succ, mul_add, mul_one]
    omega

variable {ρ : Type*} (time : ρ → α)

def inTile (tile : α × α) (item : ρ) : Bool := tile.1 ≤ time item ∧ time item < tile.2

theorem Tiles.covers (h : Tiles start stop tiles) {items : List ρ}
    (hitems : ∀ item ∈ items, start ≤ time item ∧ time item < stop) : Covers (inTile time) tiles items := by
  intro item hitem
  obtain ⟨before, tile, after, rfl, -, hfirst, hlast, hbefore, hafter⟩ :=
    h.find (hitems item hitem).1 (hitems item hitem).2
  have hnone : before.filter (fun tile => inTile time tile item) = [] := by
    apply List.filter_eq_nil_iff.mpr
    intro other hother hin
    exact absurd (of_decide_eq_true hin).2 (not_lt.mpr (hbefore other hother))
  have hnone' : after.filter (fun tile => inTile time tile item) = [] := by
    apply List.filter_eq_nil_iff.mpr
    intro other hother hin
    exact absurd (of_decide_eq_true hin).1 (not_le.mpr (hafter other hother))
  refine ⟨tile, ?_⟩
  rw [List.filter_append, hnone, List.nil_append, List.filter_cons, hnone', if_pos]
  exact decide_eq_true ⟨hfirst, hlast⟩

end intervals

section steps

/-- From a point of the grid, `next` goes to the first point of the grid after it. -/
structure Steps (next : ℤ → ℤ) (grid : Set ℤ) : Prop where
  lt : ∀ x, x < next x
  mem : ∀ x ∈ grid, next x ∈ grid
  first : ∀ x ∈ grid, ∀ y ∈ grid, x < y → next x ≤ y

theorem steps_add {step : ℤ} (hstep : 0 < step) (origin : ℤ) : Steps (· + step) {x | step ∣ x - origin} where
  lt x := by omega
  mem x hx := by
    have hsum := Int.dvd_add hx (Int.dvd_refl step)
    rwa [sub_add_eq_add_sub] at hsum
  first x hx y hy hlt := by
    have hdiff := Int.dvd_sub hy hx
    rw [sub_sub_sub_cancel_right] at hdiff
    have hle := Int.le_of_dvd (sub_pos.mpr hlt) hdiff
    omega

end steps

end Tiling
