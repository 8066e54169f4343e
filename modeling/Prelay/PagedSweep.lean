import Mathlib.Data.List.Nodup
import Mathlib.Data.Nat.Init
import Prelay.TableSweep

namespace Sweep

section Pages

variable {S α ε : Type}

/-- A loop that asks for a page at an offset, goes through its rows and moves the offset by their number, until a
page is empty. -/
def paged (page : ℕ → S → Except ε (List α × S)) (step : α → S → Except ε S) : ℕ → ℕ → S → Option (S × Except ε Unit)
  | 0, _, _ => none
  | fuel + 1, offset, s =>
    match page offset s with
    | .error error => some (s, .error error)
    | .ok ([], s') => some (s', .ok ())
    | .ok (row :: rows, s') =>
      match each step (row :: rows) s' with
      | (s'', .ok ()) => paged page step fuel (offset + (row :: rows).length) s''
      | (s'', .error error) => some (s'', .error error)

variable {page : ℕ → S → Except ε (List α × S)} {step : α → S → Except ε S} {P : List α → S → Prop} {rows : List α}
  {size : ℕ}

/-- The pages show the rows in one order, whatever the steps between them wrote. -/
def Steady (page : ℕ → S → Except ε (List α × S)) (P : List α → S → Prop) (rows : List α) (size : ℕ) : Prop :=
  ∀ done rest s read s', done ++ rest = rows → P done s → page done.length s = .ok (read, s') →
    read = rest.take size ∧ P done s'

def Keeps (step : α → S → Except ε S) (P : List α → S → Prop) (rows : List α) : Prop :=
  ∀ done row rest s s', done ++ row :: rest = rows → P done s → step row s = .ok s' → P (done ++ [row]) s'

def Ended (page : ℕ → S → Except ε (List α × S)) (step : α → S → Except ε S) (done rest : List α)
    (final : S × Except ε Unit) : Prop :=
  (final.2 = .ok () → rest = []) ∧
  ∀ error, final.2 = .error error → page done.length final.1 = .error error ∨
    ∃ row, rest.head? = some row ∧ step row final.1 = .error error

theorem each_from (hstep : Keeps step P rows) : ∀ (read done rest : List α) (s : S), done ++ (read ++ rest) = rows →
    P done s → ∃ passed left, passed ++ left = read ∧ P (done ++ passed) (each step read s).1 ∧
      ((each step read s).2 = .ok () → left = []) ∧
      ∀ error, (each step read s).2 = .error error →
        ∃ row, left.head? = some row ∧ step row (each step read s).1 = .error error := by
  intro read
  induction read with
  | nil =>
    intro done rest s _ hdone
    exact ⟨[], [], rfl, (List.append_nil done).symm ▸ hdone, fun _ => rfl, fun _ h => nomatch h⟩
  | cons row read ih =>
    intro done rest s hrows hdone
    cases hrow : step row s with
    | ok s' =>
      have hnext := hstep done row (read ++ rest) s s' hrows hdone hrow
      obtain ⟨passed, left, hread, hpassed, hleft⟩ := ih (done ++ [row]) rest s' (by simpa using hrows) hnext
      rw [each_cons_ok hrow]
      refine ⟨row :: passed, left, congrArg (row :: ·) hread, ?_, hleft⟩
      rwa [List.append_assoc, List.singleton_append] at hpassed
    | error error =>
      rw [each_cons_error hrow]
      refine ⟨[], row :: read, rfl, (List.append_nil done).symm ▸ hdone, fun hok => (nomatch hok), ?_⟩
      rintro _ ⟨⟩
      exact ⟨row, rfl, hrow⟩

theorem paged_error {offset fuel : ℕ} {s : S} {error : ε} (hread : page offset s = .error error) (hfuel : 0 < fuel) :
    paged page step fuel offset s = some (s, .error error) := by
  obtain ⟨fuel, rfl⟩ := Nat.exists_eq_add_one.mpr hfuel
  simp only [paged, hread]

theorem paged_nil {offset fuel : ℕ} {s s' : S} (hread : page offset s = .ok ([], s')) (hfuel : 0 < fuel) :
    paged page step fuel offset s = some (s', .ok ()) := by
  obtain ⟨fuel, rfl⟩ := Nat.exists_eq_add_one.mpr hfuel
  simp only [paged, hread]

theorem paged_cons {offset fuel : ℕ} {s s' : S} {row : α} {read : List α}
    (hread : page offset s = .ok (row :: read, s')) (hfuel : 0 < fuel) :
    paged page step fuel offset s = match each step (row :: read) s' with
      | (s'', .ok ()) => paged page step (fuel - 1) (offset + (row :: read).length) s''
      | (s'', .error error) => some (s'', .error error) := by
  obtain ⟨fuel, rfl⟩ := Nat.exists_eq_add_one.mpr hfuel
  simp only [paged, hread, Nat.add_sub_cancel]

theorem paged_passed (hsize : 0 < size) (hpage : Steady page P rows size) (hstep : Keeps step P rows) {s : S}
    (hs : P [] s) : ∃ final, (∀ fuel, rows.length < fuel → paged page step fuel 0 s = some final) ∧
      ∃ done rest, done ++ rest = rows ∧ P done final.1 ∧ Ended page step done rest final := by
  suffices h : ∀ n done rest s, rest.length = n → done ++ rest = rows → P done s →
      ∃ final, (∀ fuel, n < fuel → paged page step fuel done.length s = some final) ∧
        ∃ passed left, passed ++ left = rows ∧ P passed final.1 ∧ Ended page step passed left final from
    h rows.length [] rows s rfl rfl hs
  intro n
  -- Each page that is not empty takes at least one row off what is left.
  induction n using Nat.strong_induction_on with
  | h n ih =>
    rintro done rest s rfl hrows hdone
    cases hread : page done.length s with
    | error error =>
      refine ⟨(s, .error error), fun fuel hfuel => ?_, done, rest, hrows, hdone, fun hok => (nomatch hok), ?_⟩
      · exact paged_error hread (by omega)
      · rintro _ ⟨⟩
        exact .inl hread
    | ok result =>
      obtain ⟨read, s'⟩ := result
      obtain ⟨htake, hkept⟩ := hpage done rest s read s' hrows hdone hread
      have hsplit : read ++ rest.drop size = rest := by rw [htake, List.take_append_drop]
      have hlength : read.length + (rest.drop size).length = rest.length := by rw [← List.length_append, hsplit]
      obtain ⟨passed, left, hpassed, hinv, hleft, hfailed⟩ :=
        each_from hstep read done (rest.drop size) s' (by rw [hsplit, hrows]) hkept
      cases read with
      | nil =>
        have hnil : rest = [] := by
          apply List.length_eq_zero_iff.mp
          rw [List.length_nil, List.length_drop] at hlength
          omega
        refine ⟨(s', .ok ()), fun fuel hfuel => ?_, done, rest, hrows, hkept, fun _ => hnil, fun _ h => nomatch h⟩
        exact paged_nil hread (by omega)
      | cons row read =>
        cases hloop : each step (row :: read) s' with
        | mk s'' result =>
          rw [hloop] at hinv hleft hfailed
          cases result with
          | error error =>
            refine ⟨(s'', .error error), fun fuel hfuel => ?_, done ++ passed, left ++ rest.drop size, ?_, hinv,
              fun hok => (nomatch hok), ?_⟩
            · rw [paged_cons hread (by omega), hloop]
            · rw [List.append_assoc, ← List.append_assoc passed, hpassed, hsplit, hrows]
            · rintro _ ⟨⟩
              obtain ⟨failed, hhead, herror⟩ := hfailed error rfl
              apply Or.inr
              exact ⟨failed, by rw [List.head?_append, hhead, Option.some_or], herror⟩
          | ok _ =>
            have hall : passed = row :: read := by rw [← hpassed, hleft rfl, List.append_nil]
            rw [List.length_cons] at hlength
            obtain ⟨final, hrun, hfinal⟩ := ih (rest.drop size).length (by omega) (done ++ row :: read)
              (rest.drop size) s'' rfl (by rw [List.append_assoc, hsplit, hrows]) (hall ▸ hinv)
            refine ⟨final, fun fuel hfuel => ?_, hfinal⟩
            have hnext := hrun (fuel - 1) (by omega)
            rw [List.length_append] at hnext
            rw [paged_cons hread (by omega), hloop]
            exact hnext

end Pages

section Order

variable {α κ : Type} {key : α → κ} {le : κ → κ → Prop}

theorem listing_unique (hantisymm : ∀ a b, le a b → le b a → a = b) {rows first second : List α}
    (hnodup : (rows.map key).Nodup) (hfirst : first.Perm rows) (hsecond : second.Perm rows)
    (hfirstOrder : first.Pairwise (fun a b => le (key a) (key b)))
    (hsecondOrder : second.Pairwise (fun a b => le (key a) (key b))) : first = second := by
  apply (hfirst.trans hsecond.symm).eq_of_pairwise _ hfirstOrder hsecondOrder
  intro a b ha hb hab hba
  exact List.inj_on_of_nodup_map hnodup (hfirst.subset ha) (hsecond.subset hb) (hantisymm _ _ hab hba)

theorem listing_map (hantisymm : ∀ a b, le a b → le b a → a = b) {rows first second : List α} {f : α → α}
    (hkey : ∀ row, key (f row) = key row) (hnodup : (rows.map key).Nodup) (hfirst : first.Perm rows)
    (hsecond : second.Perm (rows.map f)) (hfirstOrder : first.Pairwise (fun a b => le (key a) (key b)))
    (hsecondOrder : second.Pairwise (fun a b => le (key a) (key b))) : second = first.map f := by
  refine listing_unique hantisymm ?_ hsecond (hfirst.map f) hsecondOrder ?_
  · rwa [List.map_map, show key ∘ f = key from funext hkey]
  · rw [List.pairwise_map]
    simpa only [hkey] using hfirstOrder

end Order

end Sweep
