import Mathlib.Data.List.Nodup

namespace Sweep

section Loop

variable {S α ε : Type}

/-- A loop over rows that stops at the first failure; what the rows before it wrote stays. -/
def each (step : α → S → Except ε S) : List α → S → S × Except ε Unit
  | [], s => (s, .ok ())
  | row :: rows, s =>
    match step row s with
    | .ok s' => each step rows s'
    | .error error => (s, .error error)

variable {step : α → S → Except ε S}

theorem each_cons_ok {row : α} {rows : List α} {s s' : S} (h : step row s = .ok s') :
    each step (row :: rows) s = each step rows s' := by
  simp only [each, h]

theorem each_cons_error {row : α} {rows : List α} {s : S} {error : ε} (h : step row s = .error error) :
    each step (row :: rows) s = (s, .error error) := by
  simp only [each, h]

theorem each_passed (step : α → S → Except ε S) (P : List α → S → Prop) (rows : List α)
    (hstep : ∀ done row rest s s', done ++ row :: rest = rows → P done s → step row s = .ok s' → P (done ++ [row]) s')
    {s : S} (hs : P [] s) :
    ∃ done rest, done ++ rest = rows ∧ P done (each step rows s).1 ∧ ((each step rows s).2 = .ok () → rest = []) := by
  suffices h : ∀ rest done s, done ++ rest = rows → P done s → ∃ passed left, passed ++ left = rows ∧
      P passed (each step rest s).1 ∧ ((each step rest s).2 = .ok () → left = []) from h rows [] s rfl hs
  intro rest
  induction rest with
  | nil =>
    intro done s hrows hdone
    exact ⟨done, [], hrows, hdone, fun _ => rfl⟩
  | cons row rest ih =>
    intro done s hrows hdone
    cases hrow : step row s with
    | ok s' =>
      rw [each_cons_ok hrow]
      apply ih (done ++ [row]) s' (by simpa using hrows)
      exact hstep done row rest s s' hrows hdone hrow
    | error error =>
      rw [each_cons_error hrow]
      exact ⟨done, row :: rest, hrows, hdone, fun hok => nomatch hok⟩

theorem each_all (step : α → S → Except ε S) (P : List α → S → Prop) (rows : List α)
    (hstep : ∀ done row rest s, done ++ row :: rest = rows → P done s → ∃ s', step row s = .ok s' ∧ P (done ++ [row]) s')
    {s : S} (hs : P [] s) : P rows (each step rows s).1 ∧ (each step rows s).2 = .ok () := by
  suffices h : ∀ rest done s, done ++ rest = rows → P done s →
      P rows (each step rest s).1 ∧ (each step rest s).2 = .ok () from h rows [] s rfl hs
  intro rest
  induction rest with
  | nil =>
    intro done s hrows hdone
    rw [List.append_nil] at hrows
    exact ⟨hrows ▸ hdone, rfl⟩
  | cons row rest ih =>
    intro done s hrows hdone
    obtain ⟨s', hrow, hnext⟩ := hstep done row rest s hrows hdone
    rw [each_cons_ok hrow]
    exact ih (done ++ [row]) s' (by simpa using hrows) hnext

end Loop

section Rows

variable {α κ : Type} [DecidableEq κ] {key : α → κ} {settle : α → Option α} {rows : List α} {done : List κ} {row : α}

def settled (key : α → κ) (settle : α → Option α) (done : List κ) (rows : List α) : List α :=
  rows.filterMap (fun row => if key row ∈ done then settle row else some row)

def KeepsKey (key : α → κ) (settle : α → Option α) : Prop := ∀ row kept, settle row = some kept → key kept = key row

theorem settled_nil (key : α → κ) (settle : α → Option α) (rows : List α) : settled key settle [] rows = rows := by
  simp [settled]

theorem settled_all (h : ∀ row ∈ rows, key row ∈ done) : settled key settle done rows = rows.filterMap settle :=
  List.filterMap_congr (fun row hrow => if_pos (h row hrow))

theorem settled_delete (hnodup : (rows.map key).Nodup) (hkeeps : KeepsKey key settle) (hmem : row ∈ rows)
    (hnew : key row ∉ done) (hgone : settle row = none) :
    (settled key settle done rows).filter (fun other => !decide (key other = key row)) =
      settled key settle (done ++ [key row]) rows := by
  rw [settled, List.filter_filterMap]
  apply List.filterMap_congr
  intro other hother
  by_cases hkey : key other = key row
  · obtain rfl := List.inj_on_of_nodup_map hnodup hother hmem hkey
    simp [hnew, hgone]
  · cases hsettle : settle other with
    | none => by_cases hdone : key other ∈ done <;> simp [hdone, hkey]
    | some kept =>
      have hkept := hkeeps other kept hsettle
      by_cases hdone : key other ∈ done <;> simp [hdone, hkey, hkept]

theorem settled_update (hnodup : (rows.map key).Nodup) (hkeeps : KeepsKey key settle) (hmem : row ∈ rows)
    (hnew : key row ∉ done) (f : α → α) (hset : settle row = some (f row)) :
    (settled key settle done rows).map (fun other => if key other = key row then f other else other) =
      settled key settle (done ++ [key row]) rows := by
  rw [settled, List.map_filterMap]
  apply List.filterMap_congr
  intro other hother
  by_cases hkey : key other = key row
  · obtain rfl := List.inj_on_of_nodup_map hnodup hother hmem hkey
    simp [hnew, hset]
  · cases hsettle : settle other with
    | none => by_cases hdone : key other ∈ done <;> simp [hdone, hkey]
    | some kept =>
      have hkept := hkeeps other kept hsettle
      by_cases hdone : key other ∈ done <;> simp [hdone, hkey, hkept]

theorem settled_same (settle : α → Option α) (done : List κ) (hnodup : (rows.map key).Nodup) (hmem : row ∈ rows)
    (hsame : settle row = some row) :
    settled key settle done rows = settled key settle (done ++ [key row]) rows := by
  apply List.filterMap_congr
  intro other hother
  by_cases hkey : key other = key row
  · obtain rfl := List.inj_on_of_nodup_map hnodup hother hmem hkey
    simp [hsame]
  · simp [hkey]

theorem mem_settled (hmem : row ∈ rows) (hnew : key row ∉ done) :
    row ∈ settled key settle done rows :=
  List.mem_filterMap.mpr ⟨row, hmem, if_neg hnew⟩

theorem keys_settled_nodup (hnodup : (rows.map key).Nodup) (hkeeps : KeepsKey key settle) (done : List κ) :
    ((settled key settle done rows).map key).Nodup := by
  have hsub : ((settled key settle done rows).map key).Sublist (rows.map key) := by
    rw [settled, List.map_filterMap]
    induction rows with
    | nil => exact List.Sublist.slnil
    | cons first rest ih =>
      have hrest := ih (List.nodup_cons.mp hnodup).2
      cases hfirst : (if key first ∈ done then settle first else some first) with
      | none =>
        rw [List.filterMap_cons_none (by rw [hfirst]; rfl)]
        exact hrest.cons _
      | some kept =>
        have hkey : key kept = key first := by
          split at hfirst
          · exact hkeeps first kept hfirst
          · rw [Option.some.inj hfirst]
        rw [List.filterMap_cons_some (by rw [hfirst]; rfl), hkey]
        exact hrest.cons_cons _
  exact hnodup.sublist hsub

end Rows

end Sweep
