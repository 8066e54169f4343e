import Mathlib.Data.String.Basic
import Prelay.DigitOrder
import Prelay.Timeline

namespace Prelay.Stats

open Calendar DigitOrder

def utcDate (instant : ℤ) : Date := Date.ofDays (instant / days 1)

/-- The part of a second, in as few groups of three digits as it needs. -/
def autoSi (nano : ℕ) : String :=
  if nano = 0 then ""
  else if nano % 1000000 = 0 then "." ++ digits 3 (nano / 1000000)
  else if nano % 1000 = 0 then "." ++ digits 6 (nano / 1000)
  else "." ++ digits 9 nano

/-- An instant as `to_rfc3339` of `chrono` writes it in UTC. -/
def toRfc3339 (instant : ℤ) : String :=
  let second := (instant % days 1 / 1000000000).toNat
  formatDate (utcDate instant) ++ "T" ++ digits 2 (second / 3600) ++ ":" ++ digits 2 (second / 60 % 60) ++ ":" ++
    digits 2 (second % 60) ++ autoSi (instant % 1000000000).toNat ++ "+00:00"

def FourDigits (instant : ℤ) : Prop := 0 ≤ (utcDate instant).year ∧ (utcDate instant).year < 10000

theorem toList_digits {width n : ℕ} (h : n < 10 ^ width) (hwidth : 0 < width) :
    (digits width n).toList = padded width n := by
  rw [digits, String.toList_ofList, leftpad_toDigits h hwidth]

section fraction

theorem autoSi_trimmed {nano : ℕ} (hpos : nano ≠ 0) (hlt : nano < 10 ^ 9) :
    ∃ (written : List Char) (zeros : ℕ), (autoSi nano).toList = '.' :: written ∧
      written ++ List.replicate zeros '0' = padded 9 nano ∧ ∀ c ∈ written, '0' ≤ c := by
  unfold autoSi
  rw [if_neg hpos]
  split_ifs with hmillis hmicros
  · refine ⟨padded 3 (nano / 1000000), 6, ?_, ?_, zero_le_padded _ _⟩
    · rw [String.toList_append, toList_digits (by omega) (by decide)]
      rfl
    · rw [padded_add 3 6, ← padded_zero, show nano % 10 ^ 6 = 0 from hmillis]
      rfl
  · refine ⟨padded 6 (nano / 1000), 3, ?_, ?_, zero_le_padded _ _⟩
    · rw [String.toList_append, toList_digits (by omega) (by decide)]
      rfl
    · rw [padded_add 6 3, ← padded_zero, show nano % 10 ^ 3 = 0 from hmicros]
      rfl
  · refine ⟨padded 9 nano, 0, ?_, List.append_nil _, zero_le_padded _ _⟩
    rw [String.toList_append, toList_digits hlt (by decide)]
    rfl

theorem autoSi_lt {m n : ℕ} (h : m < n) (hn : n < 10 ^ 9) (offset : List Char) :
    (autoSi m).toList ++ '+' :: offset < (autoSi n).toList ++ '+' :: offset := by
  obtain ⟨b, j, hb, hbdigits, hbleast⟩ := autoSi_trimmed (Nat.ne_zero_of_lt h) hn
  by_cases hm : m = 0
  · subst hm
    rw [hb]
    exact List.cons_lt_cons_iff.mpr (.inl (by decide))
  · obtain ⟨a, i, ha, hadigits, haleast⟩ := autoSi_trimmed hm (h.trans hn)
    rw [ha, hb]
    refine List.cons_lt_cons_iff.mpr (.inr ⟨rfl, ?_⟩)
    apply trimmed_lt (α := Char) (by decide) haleast hbleast
    · have halength := congrArg List.length hadigits
      have hblength := congrArg List.length hbdigits
      rw [List.length_append, List.length_replicate, length_padded] at halength hblength
      rw [halength, hblength]
    · rw [hadigits, hbdigits]
      exact padded_lt h hn

end fraction

section order

theorem date_fields_lt {a b : Date} (h : a.toDays < b.toDays) :
    a.year < b.year ∨ a.year = b.year ∧ (a.month < b.month ∨ a.month = b.month ∧ a.day < b.day) := by
  obtain ⟨hastart, haend⟩ := a.toDays_year
  obtain ⟨hbstart, hbend⟩ := b.toDays_year
  have hyear : a.year < b.year + 1 := yearStart_strictMono.lt_iff_lt.mp (hastart.trans_lt (h.trans hbend))
  rcases (Int.lt_add_one_iff.mp hyear).lt_or_eq with hlt | heq
  · exact .inl hlt
  · refine .inr ⟨heq, ?_⟩
    obtain ⟨hamonth, -⟩ := a.toDays_month
    obtain ⟨-, hbmonth⟩ := b.toDays_month
    rw [← heq] at hbmonth
    rcases Nat.lt_trichotomy a.month b.month with hlt | hsame | hgt
    · exact .inl hlt
    · refine .inr ⟨hsame, ?_⟩
      unfold Date.toDays at h
      rw [heq, hsame] at h
      omega
    · exfalso
      have hmono := monthOffset_mono (leapDay_cases a.year) (Nat.le_add_left 1 b.month) (Nat.succ_le_of_lt hgt)
        (a.month_range.2.trans (by decide))
      omega

theorem second_fields_lt {a b : ℕ} (h : a < b) : a / 3600 < b / 3600 ∨ a / 3600 = b / 3600 ∧
    (a / 60 % 60 < b / 60 % 60 ∨ a / 60 % 60 = b / 60 % 60 ∧ a % 60 < b % 60) := by
  omega

theorem toList_formatDate {date : Date} (hfirst : 0 ≤ date.year) (hlast : date.year < 10000) :
    (formatDate date).toList = padded 4 date.year.toNat ++ '-' :: (padded 2 date.month ++ '-' ::
      padded 2 date.day.toNat) := by
  have hmonth := date.month_range
  have hday := date.day_range
  have hlength := monthLength_bounds (leapDay_cases date.year) hmonth.1 hmonth.2
  rw [formatDate, formatYear, if_pos ⟨hfirst, hlast⟩]
  simp only [String.toList_append]
  rw [toList_digits (by omega) (by decide), toList_digits (by omega) (by decide), toList_digits (by omega) (by decide)]
  simp

theorem toList_toRfc3339 {instant : ℤ} (h : FourDigits instant) :
    (toRfc3339 instant).toList =
      padded 4 (utcDate instant).year.toNat ++ '-' :: (padded 2 (utcDate instant).month ++ '-' ::
        (padded 2 (utcDate instant).day.toNat ++ 'T' ::
          (padded 2 ((instant % days 1 / 1000000000).toNat / 3600) ++ ':' ::
            (padded 2 ((instant % days 1 / 1000000000).toNat / 60 % 60) ++ ':' ::
              (padded 2 ((instant % days 1 / 1000000000).toNat % 60) ++
                ((autoSi (instant % 1000000000).toNat).toList ++ '+' :: "00:00".toList)))))) := by
  have hsecond : (instant % days 1 / 1000000000).toNat < 86400 := by
    unfold days
    omega
  unfold toRfc3339
  generalize (instant % days 1 / 1000000000).toNat = second at hsecond ⊢
  simp only [String.toList_append]
  rw [toList_formatDate h.1 h.2, toList_digits (by omega) (by decide), toList_digits (by omega) (by decide),
    toList_digits (by omega) (by decide)]
  simp

theorem separated_lt {width m n : ℕ} {separator : Char} {x y : List Char} (hn : n < 10 ^ width)
    (h : m < n ∨ m = n ∧ x < y) : padded width m ++ separator :: x < padded width n ++ separator :: y := by
  apply field_lt hn
  rcases h with h | ⟨h, hxy⟩
  · exact .inl h
  · exact .inr ⟨h, List.cons_lt_cons_iff.mpr (.inr ⟨rfl, hxy⟩)⟩

theorem time_lt {s t m n : ℕ} (ht : t < 86400) (hn : n < 10 ^ 9) (h : s < t ∨ s = t ∧ m < n) (offset : List Char) :
    padded 2 (s / 3600) ++ ':' :: (padded 2 (s / 60 % 60) ++ ':' :: (padded 2 (s % 60) ++
        ((autoSi m).toList ++ '+' :: offset))) <
      padded 2 (t / 3600) ++ ':' :: (padded 2 (t / 60 % 60) ++ ':' :: (padded 2 (t % 60) ++
        ((autoSi n).toList ++ '+' :: offset))) := by
  rcases h with h | ⟨rfl, h⟩
  · rcases second_fields_lt h with hhour | ⟨hhour, hminute | ⟨hminute, hsecond⟩⟩
    · exact separated_lt (by omega) (.inl hhour)
    · exact separated_lt (by omega) (.inr ⟨hhour, separated_lt (by omega) (.inl hminute)⟩)
    · exact separated_lt (by omega) (.inr ⟨hhour, separated_lt (by omega)
        (.inr ⟨hminute, field_lt (by omega) (.inl hsecond)⟩)⟩)
  · exact separated_lt (by omega) (.inr ⟨rfl, separated_lt (by omega)
      (.inr ⟨rfl, field_lt (by omega) (.inr ⟨rfl, autoSi_lt h hn offset⟩)⟩)⟩)

theorem date_lt {a b : Date} (ha : 0 ≤ a.year) (hb : b.year < 10000) {x y : List Char}
    (h : a.toDays < b.toDays ∨ a = b ∧ x < y) :
    padded 4 a.year.toNat ++ '-' :: (padded 2 a.month ++ '-' :: (padded 2 a.day.toNat ++ 'T' :: x)) <
      padded 4 b.year.toNat ++ '-' :: (padded 2 b.month ++ '-' :: (padded 2 b.day.toNat ++ 'T' :: y)) := by
  have hmonth := b.month_range
  have hfirst := a.day_range
  have hday := b.day_range
  have hlength := monthLength_bounds (leapDay_cases b.year) hmonth.1 hmonth.2
  rcases h with h | ⟨rfl, h⟩
  · rcases date_fields_lt h with hyear | ⟨hyear, hmonths | ⟨hmonths, hdays⟩⟩
    · exact separated_lt (by omega) (.inl (by omega))
    · exact separated_lt (by omega) (.inr ⟨congrArg Int.toNat hyear, separated_lt (by omega) (.inl hmonths)⟩)
    · exact separated_lt (by omega) (.inr ⟨congrArg Int.toNat hyear, separated_lt (by omega)
        (.inr ⟨hmonths, separated_lt (by omega) (.inl (by omega))⟩)⟩)
  · exact separated_lt (by omega) (.inr ⟨rfl, separated_lt (by omega) (.inr ⟨rfl, separated_lt (by omega)
      (.inr ⟨rfl, h⟩)⟩)⟩)

theorem toRfc3339_lt {a b : ℤ} (ha : FourDigits a) (hb : FourDigits b) (h : a < b) : toRfc3339 a < toRfc3339 b := by
  rw [String.lt_iff_toList_lt, toList_toRfc3339 ha, toList_toRfc3339 hb]
  apply date_lt ha.1 hb.2
  have hdays : (utcDate a).toDays = a / days 1 ∧ (utcDate b).toDays = b / days 1 :=
    ⟨Date.toDays_ofDays _, Date.toDays_ofDays _⟩
  rw [hdays.1, hdays.2]
  by_cases hday : a / days 1 < b / days 1
  · exact .inl hday
  · have hsame : a / days 1 = b / days 1 := by
      unfold days at hday ⊢
      omega
    refine .inr ⟨congrArg Date.ofDays hsame, ?_⟩
    unfold days at hsame ⊢
    apply time_lt
    · omega
    · omega
    · omega

theorem toRfc3339_le {a b : ℤ} (ha : FourDigits a) (hb : FourDigits b) : toRfc3339 a ≤ toRfc3339 b ↔ a ≤ b := by
  constructor
  · intro h
    by_contra hlt
    exact absurd (toRfc3339_lt hb ha (not_le.mp hlt)) (not_lt.mpr h)
  · intro h
    rcases h.lt_or_eq with hlt | rfl
    · exact (toRfc3339_lt ha hb hlt).le
    · exact le_refl _

theorem fourDigits_of_bounds {instant : ℤ} (hfirst : days (-719528) ≤ instant) (hlast : instant < days 2932897) :
    FourDigits instant := by
  obtain ⟨hlow, hhigh⟩ := yearOf_spec (instant / days 1)
  have hzero : yearStart 0 = -719528 := by decide
  have hten : yearStart 10000 = 2932897 := by decide
  have hdayFirst : yearStart 0 ≤ instant / days 1 := by
    rw [hzero]
    unfold days at hfirst ⊢
    omega
  have hdayLast : instant / days 1 < yearStart 10000 := by
    rw [hten]
    unfold days at hlast ⊢
    omega
  have hyearFirst := yearStart_strictMono.lt_iff_lt.mp (hdayFirst.trans_lt hhigh)
  have hyearLast := yearStart_strictMono.lt_iff_lt.mp (hlow.trans_lt hdayLast)
  exact ⟨Int.lt_add_one_iff.mp hyearFirst, hyearLast⟩

example : toRfc3339 1767232800500000000 = "2026-01-01T02:00:00.500+00:00" := by decide +kernel

end order

end Prelay.Stats
