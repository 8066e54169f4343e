import Mathlib.Algebra.Order.Ring.Nat
import Mathlib.Data.Char
import Mathlib.Data.List.Lex

namespace DigitOrder

def padded : ℕ → ℕ → List Char
  | 0, _ => []
  | width + 1, n => padded width (n / 10) ++ [(n % 10).digitChar]

@[simp]
theorem length_padded (width n : ℕ) : (padded width n).length = width := by
  induction width generalizing n with
  | zero => rfl
  | succ width ih => rw [padded, List.length_append, ih, List.length_singleton]

theorem padded_zero (width : ℕ) : padded width 0 = List.replicate width '0' := by
  induction width with
  | zero => rfl
  | succ width ih =>
    rw [padded, Nat.zero_div, ih, List.replicate_succ']
    rfl

theorem leftpad_toDigits {width n : ℕ} (h : n < 10 ^ width) (hwidth : 0 < width) :
    (Nat.toDigits 10 n).leftpad width '0' = padded width n := by
  induction width generalizing n with
  | zero => exact absurd hwidth (lt_irrefl 0)
  | succ width ih =>
    by_cases hdigit : n < 10
    · rw [Nat.toDigits_of_lt_base hdigit, padded, Nat.div_eq_of_lt hdigit, padded_zero, Nat.mod_eq_of_lt hdigit]
      rfl
    · have hquotient : n / 10 < 10 ^ width := by
        rw [pow_succ] at h
        omega
      have hpos : 0 < width := by
        rcases Nat.eq_zero_or_pos width with rfl | hpos
        · rw [pow_zero] at hquotient
          omega
        · exact hpos
      rw [Nat.toDigits_of_base_le (by decide) (not_lt.mp hdigit), padded, ← ih hquotient hpos]
      simp [List.leftpad, Nat.add_sub_add_right]

theorem padded_add (width more n : ℕ) :
    padded (width + more) n = padded width (n / 10 ^ more) ++ padded more (n % 10 ^ more) := by
  induction more generalizing n with
  | zero => rw [pow_zero, Nat.div_one, padded, List.append_nil, Nat.add_zero]
  | succ more ih =>
    have hdiv : n / 10 / 10 ^ more = n / 10 ^ (more + 1) := by rw [Nat.div_div_eq_div_mul, pow_succ, mul_comm]
    have hmod : n / 10 % 10 ^ more = n % 10 ^ (more + 1) / 10 := by
      rw [pow_succ, mul_comm, Nat.mod_mul_right_div_self]
    have hlast : n % 10 = n % 10 ^ (more + 1) % 10 := by
      rw [Nat.mod_mod_of_dvd]
      exact dvd_pow_self 10 (Nat.succ_ne_zero more)
    rw [← Nat.add_assoc, padded, padded, ih, hdiv, hmod, hlast, List.append_assoc]

theorem zero_le_digitChar {n : ℕ} (h : n < 10) : '0' ≤ n.digitChar := by
  have hall : ∀ n < 10, '0' ≤ n.digitChar := by decide
  exact hall n h

theorem zero_le_padded (width n : ℕ) : ∀ c ∈ padded width n, '0' ≤ c := by
  induction width generalizing n with
  | zero => exact nofun
  | succ width ih =>
    intro c hc
    rcases List.mem_append.mp hc with hc | hc
    · exact ih _ c hc
    · rw [List.mem_singleton.mp hc]
      exact zero_le_digitChar (Nat.mod_lt n (by decide))

section order

variable {α : Type*} [LinearOrder α]

theorem append_lt_append {a b x y : List α} (hlength : a.length = b.length) (h : a < b ∨ a = b ∧ x < y) :
    a ++ x < b ++ y := by
  induction a generalizing b with
  | nil =>
    obtain rfl := List.length_eq_zero_iff.mp hlength.symm
    exact (h.resolve_left (lt_irrefl _)).2
  | cons c a ih =>
    cases b with
    | nil => exact nomatch hlength
    | cons d b =>
      rw [List.cons_append, List.cons_append, List.cons_lt_cons_iff]
      rcases h with h | ⟨h, hxy⟩
      · rcases List.cons_lt_cons_iff.mp h with hlt | ⟨rfl, hlt⟩
        · exact .inl hlt
        · exact .inr ⟨rfl, ih (Nat.succ.inj hlength) (.inl hlt)⟩
      · obtain ⟨rfl, rfl⟩ := List.cons.inj h
        exact .inr ⟨rfl, ih rfl (.inr ⟨rfl, hxy⟩)⟩

theorem not_lt_replicate {least : α} {a : List α} {n : ℕ} (h : ∀ c ∈ a, least ≤ c) (hlength : a.length = n) :
    ¬a < List.replicate n least := by
  induction a generalizing n with
  | nil =>
    obtain rfl := hlength.symm
    exact lt_irrefl _
  | cons c a ih =>
    obtain rfl := hlength
    rw [List.length_cons, List.replicate_succ, List.cons_lt_cons_iff]
    rintro (hlt | ⟨-, hlt⟩)
    · exact absurd (h c List.mem_cons_self) (not_le.mpr hlt)
    · exact ih (fun d hd => h d (List.mem_cons_of_mem _ hd)) rfl hlt

theorem trimmed_lt {least stop : α} (hstop : stop < least) {a b t : List α} {i j : ℕ}
    (ha : ∀ c ∈ a, least ≤ c) (hb : ∀ c ∈ b, least ≤ c) (hlength : a.length + i = b.length + j)
    (h : a ++ List.replicate i least < b ++ List.replicate j least) : a ++ stop :: t < b ++ stop :: t := by
  induction a generalizing b with
  | nil =>
    cases b with
    | nil =>
      obtain rfl : i = j := by simpa using hlength
      exact absurd h (lt_irrefl _)
    | cons d b => exact List.cons_lt_cons_iff.mpr (.inl (hstop.trans_le (hb d List.mem_cons_self)))
  | cons c a ih =>
    cases b with
    | nil =>
      have hall : ∀ d ∈ c :: a ++ List.replicate i least, least ≤ d := by
        intro d hd
        rcases List.mem_append.mp hd with hd | hd
        · exact ha d hd
        · exact (List.eq_of_mem_replicate hd).ge
      have hall_length : (c :: a ++ List.replicate i least).length = j := by
        rw [List.length_append, List.length_replicate, hlength, List.length_nil, Nat.zero_add]
      exact absurd h (not_lt_replicate hall hall_length)
    | cons d b =>
      rw [List.cons_append, List.cons_append, List.cons_lt_cons_iff] at h ⊢
      rcases h with hlt | ⟨rfl, hlt⟩
      · exact .inl hlt
      · refine .inr ⟨rfl, ih (fun e he => ha e (List.mem_cons_of_mem _ he))
          (fun e he => hb e (List.mem_cons_of_mem _ he)) ?_ hlt⟩
        rw [List.length_cons, List.length_cons] at hlength
        omega

end order

theorem digitChar_lt {m n : ℕ} (h : m < n) (hn : n < 10) : m.digitChar < n.digitChar := by
  have hall : ∀ n < 10, ∀ m < n, m.digitChar < n.digitChar := by decide
  exact hall n hn m h

theorem padded_lt {width m n : ℕ} (h : m < n) (hn : n < 10 ^ width) : padded width m < padded width n := by
  induction width generalizing m n with
  | zero =>
    rw [pow_zero] at hn
    omega
  | succ width ih =>
    have hquotient : n / 10 < 10 ^ width := by
      rw [pow_succ] at hn
      omega
    apply append_lt_append (α := Char) (by rw [length_padded, length_padded])
    rcases Nat.lt_or_ge (m / 10) (n / 10) with hlt | hge
    · exact .inl (ih hlt hquotient)
    · refine .inr ⟨congrArg _ (by omega), ?_⟩
      apply List.cons_lt_cons_iff.mpr
      exact .inl (digitChar_lt (by omega) (Nat.mod_lt n (by decide)))

theorem field_lt {width m n : ℕ} {x y : List Char} (hn : n < 10 ^ width) (h : m < n ∨ m = n ∧ x < y) :
    padded width m ++ x < padded width n ++ y := by
  apply append_lt_append (α := Char) (by rw [length_padded, length_padded])
  rcases h with h | ⟨rfl, h⟩
  · exact .inl (padded_lt h hn)
  · exact .inr ⟨rfl, h⟩

end DigitOrder
