import Prelay.JsonReread
import Mathlib.Data.List.TakeDrop

namespace Prelay.Json.Text

theorem toDigits_head (n : ℕ) (h : 0 < n) : (Nat.toDigits 10 n).head? ≠ some '0' := by
  induction n using Nat.strong_induction_on with
  | _ n ih =>
    rw [Nat.toDigits_eq_if (by decide)]
    split_ifs with hlt
    · simpa using h.ne'
    · have hdiv : 0 < n / 10 := Nat.div_pos (by omega) (by decide)
      have hne : Nat.toDigits 10 (n / 10) ≠ [] := Nat.toDigits_ne_nil
      rw [List.head?_append_of_ne_nil _ hne]
      exact ih (n / 10) (by omega) hdiv

theorem toDigits_not_padded (n : ℕ) (c : Char) (cs : List Char) : Nat.toDigits 10 n ≠ '0' :: c :: cs := by
  intro h
  rcases Nat.eq_zero_or_pos n with rfl | hn
  · simp at h
  · exact toDigits_head n hn (by rw [h]; rfl)

theorem span_append_of_all {p : Char → Bool} {ds rest : List Char} (hds : ∀ c ∈ ds, p c = true)
    (hrest : ∀ c ∈ rest.head?, p c = false) : (ds ++ rest).span p = (ds, rest) := by
  rw [List.span_eq_takeWhile_dropWhile, List.takeWhile_append_of_pos hds, List.dropWhile_append_of_pos hds]
  cases rest with
  | nil => simp
  | cons c cs =>
    have hc : p c = false := hrest c rfl
    simp [hc]

def Closed (rest : List Char) : Prop := ∀ c ∈ rest.head?, c = ',' ∨ c = ']' ∨ c = '}'

theorem span_toDigits (n : ℕ) (rest : List Char) (h : ∀ c ∈ rest.head?, c.isDigit = false) :
    (Nat.toDigits 10 n ++ rest).span Char.isDigit = (Nat.toDigits 10 n, rest) :=
  span_append_of_all (fun _ hc => Nat.isDigit_of_mem_toDigits (by decide) (by decide) hc) h

theorem Closed.head_not_digit {rest : List Char} (h : Closed rest) : ∀ c ∈ rest.head?, c.isDigit = false := by
  intro c hc
  rcases h c hc with rfl | rfl | rfl <;> rfl

theorem parseUnsigned_toDigits (negative : Bool) (n : ℕ) (rest : List Char) (h : Closed rest) :
    parseUnsigned negative (Nat.toDigits 10 n ++ rest) =
      some (if negative then (if n = 0 then .float true 0 0 else .negInt (n - 1)) else .posInt n, rest) := by
  have hspan := span_toDigits n rest h.head_not_digit
  have hfraction : parseFraction rest = some ([], rest) := by
    cases rest with
    | nil => rfl
    | cons c cs => rcases h c rfl with rfl | rfl | rfl <;> rfl
  have hexponent : parseExponent rest = some (none, rest) := by
    cases rest with
    | nil => rfl
    | cons c cs => rcases h c rfl with rfl | rfl | rfl <;> rfl
  simp only [parseUnsigned, hspan]
  split
  · rename_i heq
    simp only [Prod.mk.injEq] at heq
    exact absurd heq.1 Nat.toDigits_ne_nil
  · rename_i heq
    simp only [Prod.mk.injEq] at heq
    exact absurd heq.1 (toDigits_not_padded n _ _)
  · rename_i heq
    simp only [Prod.mk.injEq] at heq
    obtain ⟨rfl, rfl⟩ := heq
    simp [hfraction, hexponent, Nat.ofDigitChars_ten_toDigits]
    split_ifs <;> rfl

theorem parseDigits_toDigits (n : ℕ) (rest : List Char) (h : Closed rest) :
    parseDigits (Nat.toDigits 10 n ++ rest) = some (n, rest) := by
  simp only [parseDigits, span_toDigits n rest h.head_not_digit]
  split
  · rename_i heq
    exact absurd (congrArg Prod.fst heq) Nat.toDigits_ne_nil
  · rename_i heq
    simp only [Prod.mk.injEq] at heq
    obtain ⟨rfl, rfl⟩ := heq
    simp

theorem toDigits_cons (n : ℕ) : ∃ c cs, Nat.toDigits 10 n = c :: cs ∧ c.isDigit = true := by
  cases h : Nat.toDigits 10 n with
  | nil => exact absurd h Nat.toDigits_ne_nil
  | cons c cs =>
    refine ⟨c, cs, rfl, ?_⟩
    exact Nat.isDigit_of_mem_toDigits (by decide) (by decide) (h ▸ List.mem_cons_self)

theorem parseExponent_printInt (e : ℤ) (rest : List Char) (h : Closed rest) :
    parseExponent ('e' :: (printInt e ++ rest)) = some (some e, rest) := by
  cases e with
  | ofNat n =>
    have hdigits := parseDigits_toDigits n rest h
    obtain ⟨c, cs, hcons, hdigit⟩ := toDigits_cons n
    rw [hcons, List.cons_append] at hdigits
    simp only [parseExponent, printInt, hcons, List.cons_append]
    rw [if_pos (Or.inl trivial)]
    split
    · rename_i heq
      rw [(List.cons.inj heq).1] at hdigit
      exact absurd hdigit (by decide)
    · rename_i heq
      rw [(List.cons.inj heq).1] at hdigit
      exact absurd hdigit (by decide)
    · rw [hdigits]
      rfl
  | negSucc n =>
    simp [parseExponent, printInt, parseDigits_toDigits _ rest h, Int.negSucc_eq]

theorem parseUnsigned_exponent (negative : Bool) (digits : ℕ) (e : ℤ) (rest : List Char) (h : Closed rest) :
    parseUnsigned negative (Nat.toDigits 10 digits ++ 'e' :: (printInt e ++ rest)) =
      some (.float negative digits e, rest) := by
  have hspan := span_toDigits digits ('e' :: (printInt e ++ rest)) (by simp)
  simp only [parseUnsigned, hspan]
  split
  · rename_i heq
    exact absurd (congrArg Prod.fst heq) Nat.toDigits_ne_nil
  · rename_i heq
    exact absurd (congrArg Prod.fst heq) (toDigits_not_padded digits _ _)
  · rename_i heq
    simp only [Prod.mk.injEq] at heq
    obtain ⟨rfl, rfl⟩ := heq
    simp [parseFraction, parseExponent_printInt e rest h]

theorem parseUnsigned_point (negative : Bool) {digits : ℕ} {whole fraction : List Char}
    (hdigits : whole ++ fraction = Nat.toDigits 10 digits) (hwhole : whole ≠ []) (hfraction : fraction ≠ [])
    (rest : List Char) (h : Closed rest) :
    parseUnsigned negative (whole ++ '.' :: (fraction ++ rest)) =
      some (.float negative digits (-(fraction.length : ℤ)), rest) := by
  have hall : ∀ c ∈ whole ++ fraction, c.isDigit = true := by
    rw [hdigits]
    exact fun c hc => Nat.isDigit_of_mem_toDigits (by decide) (by decide) hc
  have hspan : (whole ++ '.' :: (fraction ++ rest)).span Char.isDigit = (whole, '.' :: (fraction ++ rest)) :=
    span_append_of_all (fun c hc => hall c (List.mem_append_left _ hc)) (by simp)
  have hspanFraction : (fraction ++ rest).span Char.isDigit = (fraction, rest) :=
    span_append_of_all (fun c hc => hall c (List.mem_append_right _ hc)) h.head_not_digit
  have hparsed : parseFraction ('.' :: (fraction ++ rest)) = some (fraction, rest) := by
    obtain ⟨c, cs, rfl⟩ := List.exists_cons_of_ne_nil hfraction
    simp only [parseFraction, hspanFraction]
  have hexponent : parseExponent rest = some (none, rest) := by
    cases rest with
    | nil => rfl
    | cons c cs => rcases h c rfl with rfl | rfl | rfl <;> rfl
  have hvalue : Nat.ofDigitChars 10 (whole ++ fraction) 0 = digits := by
    rw [hdigits]
    exact Nat.ofDigitChars_ten_toDigits
  simp only [parseUnsigned, hspan]
  split
  · rename_i heq
    exact absurd (congrArg Prod.fst heq) hwhole
  · rename_i c cs _ heq
    -- the whole part begins with the first digit of the number
    obtain rfl : whole = '0' :: c :: cs := congrArg Prod.fst heq
    exact absurd hdigits.symm (toDigits_not_padded digits c (cs ++ fraction))
  · rename_i heq
    simp only [Prod.mk.injEq] at heq
    obtain ⟨rfl, rfl⟩ := heq
    simp [hparsed, hexponent, hvalue, hfraction]

theorem parseUnsigned_float (negative : Bool) (digits : ℕ) (e : ℤ) (rest : List Char) (h : Closed rest) :
    parseUnsigned negative (printDecimal digits e ++ rest) = some (.float negative digits e, rest) := by
  unfold printDecimal
  dsimp only
  split_ifs with hpoint
  · obtain ⟨hneg, hlt⟩ := hpoint
    have hlength : ((Nat.toDigits 10 digits).drop ((Nat.toDigits 10 digits).length - e.natAbs)).length = e.natAbs := by
      rw [List.length_drop]
      omega
    have hwhole : (Nat.toDigits 10 digits).take ((Nat.toDigits 10 digits).length - e.natAbs) ≠ [] := by
      apply List.ne_nil_of_length_pos
      rw [List.length_take]
      omega
    have hfraction : (Nat.toDigits 10 digits).drop ((Nat.toDigits 10 digits).length - e.natAbs) ≠ [] := by
      apply List.ne_nil_of_length_pos
      omega
    rw [List.append_assoc, List.cons_append,
      parseUnsigned_point negative (List.take_append_drop _ _) hwhole hfraction rest h, hlength]
    congr 3
    omega
  · rw [List.append_assoc, List.cons_append, parseUnsigned_exponent negative digits e rest h]

theorem printDecimal_cons (digits : ℕ) (e : ℤ) :
    ∃ c cs, printDecimal digits e = c :: cs ∧ c.isDigit = true := by
  obtain ⟨c, cs, hcons, hdigit⟩ := toDigits_cons digits
  unfold printDecimal
  dsimp only
  split_ifs with hpoint
  · obtain ⟨n, hn⟩ : ∃ n, (Nat.toDigits 10 digits).length - e.natAbs = n + 1 :=
      ⟨(Nat.toDigits 10 digits).length - e.natAbs - 1, by omega⟩
    rw [hn, hcons]
    exact ⟨c, _, rfl, hdigit⟩
  · rw [hcons]
    exact ⟨c, _, rfl, hdigit⟩

theorem parseNumber_digit {c : Char} (cs : List Char) (h : c.isDigit = true) :
    parseNumber (c :: cs) = parseUnsigned false (c :: cs) := by
  unfold parseNumber
  split
  · rename_i heq
    rw [(List.cons.inj heq).1] at h
    exact absurd h (by decide)
  · rfl

theorem parseNumber_printNumber (n : Number) (rest : List Char) (h : Closed rest) :
    parseNumber (printNumber n ++ rest) = some (n, rest) := by
  cases n with
  | posInt n =>
    have hparse := parseUnsigned_toDigits false n rest h
    obtain ⟨c, cs, hcons, hdigit⟩ := toDigits_cons n
    rw [hcons] at hparse
    simpa [printNumber, hcons, parseNumber_digit _ hdigit] using hparse
  | negInt n =>
    simpa [printNumber, parseNumber] using parseUnsigned_toDigits true (n + 1) rest h
  | float negative digits e =>
    have hparse := parseUnsigned_float negative digits e rest h
    cases negative with
    | true => simpa [printNumber, parseNumber] using hparse
    | false =>
      obtain ⟨c, cs, hcons, hdigit⟩ := printDecimal_cons digits e
      rw [hcons] at hparse
      simpa [printNumber, hcons, parseNumber_digit _ hdigit] using hparse

theorem hexQuad_hexChar : ∀ n < 32,
    hexQuad ['0', '0', hexChar (n / 16), hexChar (n % 16)] = some (n, []) := by
  decide

theorem hexQuad_append {a b c d : Char} {n : ℕ} (h : hexQuad [a, b, c, d] = some (n, [])) (cs : List Char) :
    hexQuad (a :: b :: c :: d :: cs) = some (n, cs) := by
  simp only [hexQuad, Option.bind_eq_bind, Option.bind_eq_some_iff] at h ⊢
  obtain ⟨w, hw, x, hx, y, hy, z, hz, heq⟩ := h
  refine ⟨w, hw, x, hx, y, hy, z, hz, ?_⟩
  simp only [Option.some.injEq, Prod.mk.injEq, and_true] at heq ⊢
  exact heq

theorem ofNat_toNat_eq {c : Char} {n : ℕ} (h : c.toNat = n) : Char.ofNat n = c := by
  rw [← h, Char.ofNat_toNat]

theorem parseChars_escapeChar (c : Char) (fuel : ℕ) (cs : List Char) :
    parseChars (fuel + 1) (escapeChar c ++ cs) =
      (parseChars fuel cs).map (fun p => (c :: p.1, p.2)) := by
  have hmap : ∀ d : Char, (parseChars fuel cs).bind (fun p => some (d :: p.1, p.2)) =
      (parseChars fuel cs).map (fun p => (d :: p.1, p.2)) := by
    intro d
    cases parseChars fuel cs <;> rfl
  unfold escapeChar
  split_ifs with h1 h2 h3 h4 h5 h6 h7 h8
  · subst h1
    exact hmap '"'
  · subst h2
    exact hmap '\\'
  · subst h3
    exact hmap '\n'
  · subst h4
    exact hmap '\r'
  · subst h5
    exact hmap '\t'
  · rw [← ofNat_toNat_eq h6]
    exact hmap (Char.ofNat 8)
  · rw [← ofNat_toNat_eq h7]
    exact hmap (Char.ofNat 12)
  · have hquad := hexQuad_append (hexQuad_hexChar c.toNat h8) cs
    have hlt : c.toNat < 0xD800 := by omega
    have hunicode : parseUnicode ('0' :: '0' :: hexChar (c.toNat / 16) :: hexChar (c.toNat % 16) :: cs) =
        some (c, cs) := by
      simp [parseUnicode, hquad, hlt, Char.ofNat_toNat]
    simp only [List.cons_append, List.nil_append, parseChars, parseEscape, hunicode]
    exact hmap c
  · simp only [List.cons_append, List.nil_append, parseChars, if_neg h1, if_neg h2, if_neg h8]
    exact hmap c

theorem escapeChar_length (c : Char) : 0 < (escapeChar c).length := by
  unfold escapeChar
  split_ifs <;> simp

theorem parseChars_printed (text rest : List Char) (fuel : ℕ)
    (h : (text.flatMap escapeChar).length < fuel) :
    parseChars fuel (text.flatMap escapeChar ++ '"' :: rest) = some (text, rest) := by
  induction text generalizing fuel with
  | nil =>
    obtain ⟨fuel, rfl⟩ := Nat.exists_eq_add_of_lt h
    simp [parseChars]
  | cons c text ih =>
    have hpos := escapeChar_length c
    simp only [List.flatMap_cons, List.length_append] at h
    obtain ⟨fuel, rfl⟩ : ∃ k, fuel = k + 1 := ⟨fuel - 1, by omega⟩
    rw [List.flatMap_cons, List.append_assoc, parseChars_escapeChar, ih fuel (by omega)]
    rfl

theorem parseString_printed (s : String) (rest : List Char) :
    parseString (s.toList.flatMap escapeChar ++ '"' :: rest) = some (s, rest) := by
  rw [parseString, parseChars_printed s.toList rest _ (by simp)]
  simp

theorem isSpace_digit {c : Char} (h : c.isDigit = true) : isSpace c = false ∧ c ≠ ']' := by
  constructor
  · cases hspace : isSpace c with
    | false => rfl
    | true =>
      simp only [isSpace, Bool.or_eq_true, decide_eq_true_eq] at hspace
      rcases hspace with ((rfl | rfl) | rfl) | rfl <;> exact absurd h (by decide)
  · rintro rfl
    exact absurd h (by decide)

theorem printNumber_head (n : Number) : ∃ c cs, printNumber n = c :: cs ∧ (c = '-' ∨ c.isDigit = true) := by
  cases n with
  | posInt n =>
    obtain ⟨c, cs, hcons, hdigit⟩ := toDigits_cons n
    exact ⟨c, cs, hcons, Or.inr hdigit⟩
  | negInt n => exact ⟨_, _, rfl, Or.inl rfl⟩
  | float negative digits e => cases negative with
    | true => exact ⟨_, _, rfl, Or.inl rfl⟩
    | false =>
      obtain ⟨c, cs, hcons, hdigit⟩ := printDecimal_cons digits e
      exact ⟨c, cs, hcons, Or.inr hdigit⟩

theorem print_cons (v : Value) : ∃ c cs, print v = c :: cs ∧ isSpace c = false ∧ c ≠ ']' := by
  cases v with
  | null => exact ⟨_, _, rfl, rfl, by decide⟩
  | bool b => cases b <;> exact ⟨_, _, rfl, rfl, by decide⟩
  | number n =>
    obtain ⟨c, cs, hcons, rfl | hdigit⟩ := printNumber_head n
    · exact ⟨_, _, hcons, rfl, by decide⟩
    · exact ⟨_, _, hcons, isSpace_digit hdigit⟩
  | string s => exact ⟨_, _, rfl, rfl, by decide⟩
  | array items => cases items <;> exact ⟨_, _, rfl, rfl, by decide⟩
  | object members => cases members <;> exact ⟨_, _, rfl, rfl, by decide⟩

theorem skipSpace_cons {c : Char} (cs : List Char) (h : isSpace c = false) :
    skipSpace (c :: cs) = c :: cs := by
  simp [skipSpace, h]

theorem skipSpace_print (v : Value) (rest : List Char) : skipSpace (print v ++ rest) = print v ++ rest := by
  obtain ⟨c, cs, hcons, hspace, -⟩ := print_cons v
  rw [hcons, List.cons_append, skipSpace_cons _ hspace]

theorem skipSpace_closed {rest : List Char} (h : Closed rest) : skipSpace rest = rest := by
  cases rest with
  | nil => rfl
  | cons c cs => rcases h c rfl with rfl | rfl | rfl <;> rfl

theorem closed_printItems (vs : List Value) (rest : List Char) : Closed (printItems vs ++ rest) := by
  intro c hc
  cases vs with
  | nil => exact Or.inr (Or.inl (Option.some.inj hc).symm)
  | cons v vs => exact Or.inl (Option.some.inj hc).symm

theorem closed_printMembers (ms : List (String × Value)) (rest : List Char) :
    Closed (printMembers ms ++ rest) := by
  intro c hc
  cases ms with
  | nil => exact Or.inr (Or.inr (Option.some.inj hc).symm)
  | cons m ms => exact Or.inl (Option.some.inj hc).symm

theorem parseValue_printNumber (n : Number) (fuel : ℕ) (rest : List Char) (h : Closed rest) :
    parseValue (fuel + 1) (printNumber n ++ rest) = some (.number n, rest) := by
  have hparse := parseNumber_printNumber n rest h
  have hskip : skipSpace (printNumber n ++ rest) = printNumber n ++ rest := skipSpace_print (.number n) rest
  obtain ⟨c, cs, hcons, hhead⟩ := printNumber_head n
  have hne : ∀ d : Char, d.isDigit = false → d ≠ '-' → c ≠ d := by
    rintro d hd hminus rfl
    rcases hhead with h | h
    · exact hminus h
    · exact absurd h (by simp [hd])
  rw [hcons, List.cons_append] at hparse hskip ⊢
  simp only [parseValue, hskip]
  split
  · rename_i heq
    exact absurd (List.cons.inj heq).1 (hne _ rfl (by decide))
  · rename_i heq
    exact absurd (List.cons.inj heq).1 (hne _ rfl (by decide))
  · rename_i heq
    exact absurd (List.cons.inj heq).1 (hne _ rfl (by decide))
  · rename_i heq
    exact absurd (List.cons.inj heq).1 (hne _ rfl (by decide))
  · rename_i heq
    exact absurd (List.cons.inj heq).1 (hne _ rfl (by decide))
  · rename_i heq
    exact absurd (List.cons.inj heq).1 (hne _ rfl (by decide))
  · simp [hparse]

def Parses (v : Value) : Prop :=
  ∀ fuel rest, (print v).length < fuel → Closed rest → parseValue fuel (print v ++ rest) = some (v.normalize, rest)

theorem parseString_cons (s : String) (rest : List Char) :
    printString s ++ rest = '"' :: (s.toList.flatMap escapeChar ++ '"' :: rest) := by
  simp [printString]

theorem parseItems_cons {v : Value} (hv : Parses v) (vs : List Value) (fuel : ℕ) (rest : List Char)
    (h : (print v ++ printItems vs).length ≤ fuel) :
    parseItems (fuel + 1) (print v ++ (printItems vs ++ rest)) = match vs with
      | [] => some ([v.normalize], rest)
      | w :: ws => (parseItems fuel (print w ++ (printItems ws ++ rest))).map
          (fun p => (v.normalize :: p.1, p.2)) := by
  have hlen : 0 < (printItems vs).length := by cases vs <;> simp [printItems]
  rw [List.length_append] at h
  have hparse := hv fuel (printItems vs ++ rest) (by omega) (closed_printItems vs rest)
  simp only [parseItems, hparse, Option.bind_eq_bind, Option.bind_some,
    skipSpace_closed (closed_printItems vs rest)]
  cases vs with
  | nil => rfl
  | cons w ws =>
    simp only [printItems, List.cons_append, List.append_assoc]
    cases parseItems fuel (print w ++ (printItems ws ++ rest)) <;> rfl

theorem parseMembers_cons {v : Value} (hv : Parses v) (k : String) (ms : List (String × Value)) (fuel : ℕ)
    (rest : List Char) (h : (printString k ++ ':' :: (print v ++ printMembers ms)).length ≤ fuel) :
    parseMembers (fuel + 1) (printString k ++ ':' :: (print v ++ (printMembers ms ++ rest))) = match ms with
      | [] => some ([(k, v.normalize)], rest)
      | (l, w) :: ns => (parseMembers fuel (printString l ++ ':' :: (print w ++ (printMembers ns ++ rest)))).map
          (fun p => ((k, v.normalize) :: p.1, p.2)) := by
  have hlen : 0 < (printMembers ms).length := by cases ms <;> simp [printMembers]
  simp only [List.length_append, List.length_cons] at h
  have hparse := hv fuel (printMembers ms ++ rest) (by omega) (closed_printMembers ms rest)
  have hquote : ∀ cs, skipSpace ('"' :: cs) = '"' :: cs := fun cs => skipSpace_cons cs rfl
  have hcolon : ∀ cs, skipSpace (':' :: cs) = ':' :: cs := fun cs => skipSpace_cons cs rfl
  simp only [parseMembers, parseString_cons, hquote, parseString_printed, Option.bind_eq_bind, Option.bind_some,
    hcolon, hparse, skipSpace_closed (closed_printMembers ms rest)]
  cases ms with
  | nil => rfl
  | cons m ns =>
    obtain ⟨l, w⟩ := m
    simp only [printMembers, List.cons_append, List.append_assoc, parseString_cons]
    cases parseMembers fuel ('"' :: (l.toList.flatMap escapeChar ++ '"' :: ':' ::
      (print w ++ (printMembers ns ++ rest)))) <;> rfl

mutual

theorem parses : ∀ v : Value, Parses v
  | .null, fuel + 1, rest, _, _ => by simp [parseValue, print, skipSpace, isSpace, Value.normalize]
  | .bool true, fuel + 1, rest, _, _ => by simp [parseValue, print, skipSpace, isSpace, Value.normalize]
  | .bool false, fuel + 1, rest, _, _ => by simp [parseValue, print, skipSpace, isSpace, Value.normalize]
  | .number n, fuel + 1, rest, _, h => parseValue_printNumber n fuel rest h
  | .string s, fuel + 1, rest, _, _ => by
    have hquote : ∀ cs, skipSpace ('"' :: cs) = '"' :: cs := fun cs => skipSpace_cons cs rfl
    simp only [print, parseString_cons, parseValue, hquote, parseString_printed, Option.map_some,
      Value.normalize]
  | .array [], fuel + 1, rest, _, _ => by
    simp [parseValue, print, skipSpace, isSpace, Value.normalize, Value.normalizeItems]
  | .array (v :: vs), fuel + 1, rest, hlen, _ => by
    have hbracket : ∀ cs, skipSpace ('[' :: cs) = '[' :: cs := fun cs => skipSpace_cons cs rfl
    have hitems := parsesItems vs v (parses v) fuel rest (by simp only [print, List.length_cons] at hlen; omega)
    obtain ⟨c, cs, hcons, hspace, hclose⟩ := print_cons v
    simp only [print, List.cons_append, List.append_assoc, parseValue, hbracket]
    rw [skipSpace_print v]
    rw [hcons, List.cons_append] at hitems ⊢
    split
    · rename_i heq
      exact absurd (List.cons.inj heq).1 hclose
    · rw [hitems]
      rfl
  | .object [], fuel + 1, rest, _, _ => by
    simp [parseValue, print, skipSpace, isSpace, Value.normalize, Value.normalizeMembers, collectMembers]
  | .object ((k, v) :: ms), fuel + 1, rest, hlen, _ => by
    have hbrace : ∀ cs, skipSpace ('{' :: cs) = '{' :: cs := fun cs => skipSpace_cons cs rfl
    have hquote : ∀ cs, skipSpace ('"' :: cs) = '"' :: cs := fun cs => skipSpace_cons cs rfl
    have hmembers := parsesMembers ms k v (parses v) fuel rest
      (by simp only [print, List.length_cons] at hlen; omega)
    simp only [print, List.cons_append, List.append_assoc, parseValue, hbrace]
    rw [parseString_cons] at hmembers ⊢
    rw [hquote]
    split
    · rename_i heq
      exact absurd (List.cons.inj heq).1 (by decide)
    · rw [hmembers]
      rfl

theorem parsesItems : ∀ (vs : List Value) (v : Value), Parses v → ∀ fuel rest,
    (print v ++ printItems vs).length < fuel →
    parseItems fuel (print v ++ (printItems vs ++ rest)) = some (v.normalize :: Value.normalizeItems vs, rest)
  | [], v, hv, fuel + 1, rest, h => parseItems_cons hv [] fuel rest (by omega)
  | w :: ws, v, hv, fuel + 1, rest, h => by
    rw [parseItems_cons hv (w :: ws) fuel rest (by omega)]
    simp only [printItems, List.length_append, List.length_cons] at h
    have hws := parsesItems ws w (parses w) fuel rest (by rw [List.length_append]; omega)
    simp only [hws, Option.map_some, Value.normalizeItems]

theorem parsesMembers : ∀ (ms : List (String × Value)) (k : String) (v : Value), Parses v → ∀ fuel rest,
    (printString k ++ ':' :: (print v ++ printMembers ms)).length < fuel →
    parseMembers fuel (printString k ++ ':' :: (print v ++ (printMembers ms ++ rest))) =
      some ((k, v.normalize) :: Value.normalizeMembers ms, rest)
  | [], k, v, hv, fuel + 1, rest, h => parseMembers_cons hv k [] fuel rest (by omega)
  | (l, w) :: ns, k, v, hv, fuel + 1, rest, h => by
    rw [parseMembers_cons hv k ((l, w) :: ns) fuel rest (by omega)]
    simp only [printMembers, List.length_append, List.length_cons] at h
    have hns := parsesMembers ns l w (parses w) fuel rest
      (by simp only [List.length_append, List.length_cons]; omega)
    simp only [hns, Option.map_some, Value.normalizeMembers]

end

theorem fromStr_toStr (v : Value) : fromStr (toStr v) = some v.normalize := by
  have hparse := parses v ((print v).length + 1) [] (by omega) (by simp [Closed])
  rw [List.append_nil] at hparse
  simp [fromStr, toStr, hparse, skipSpace]

theorem toDigits_printable (n : ℕ) : ∀ c ∈ Nat.toDigits 10 n, 32 ≤ c.toNat := by
  intro c hc
  have h := Nat.isDigit_of_mem_toDigits (by decide) (by decide) hc
  rw [Char.isDigit_iff_toNat] at h
  exact le_trans (by decide) h.1

theorem hexChar_printable : ∀ n < 16, 32 ≤ (hexChar n).toNat := by
  decide

theorem escapeChar_printable (c : Char) : ∀ d ∈ escapeChar c, 32 ≤ d.toNat := by
  intro d hd
  unfold escapeChar at hd
  split_ifs at hd with h1 h2 h3 h4 h5 h6 h7 h8
  all_goals simp only [List.mem_cons, List.not_mem_nil, or_false] at hd
  · rcases hd with rfl | rfl <;> decide
  · rcases hd with rfl | rfl <;> decide
  · rcases hd with rfl | rfl <;> decide
  · rcases hd with rfl | rfl <;> decide
  · rcases hd with rfl | rfl <;> decide
  · rcases hd with rfl | rfl <;> decide
  · rcases hd with rfl | rfl <;> decide
  · rcases hd with rfl | rfl | rfl | rfl | rfl | rfl
    · decide
    · decide
    · decide
    · decide
    · exact hexChar_printable _ (by omega)
    · exact hexChar_printable _ (by omega)
  · subst hd
    omega

theorem printString_printable (s : String) : ∀ c ∈ printString s, 32 ≤ c.toNat := by
  intro c hc
  simp only [printString, List.mem_cons, List.mem_append, List.mem_flatMap, List.not_mem_nil, or_false] at hc
  rcases hc with rfl | ⟨d, -, hd⟩ | rfl
  · decide
  · exact escapeChar_printable d c hd
  · decide

theorem printInt_printable (e : ℤ) : ∀ c ∈ printInt e, 32 ≤ c.toNat := by
  intro c hc
  cases e with
  | ofNat n => exact toDigits_printable n c hc
  | negSucc n =>
    rcases List.mem_cons.mp hc with rfl | hc
    · decide
    · exact toDigits_printable (n + 1) c hc

theorem printDecimal_printable (digits : ℕ) (e : ℤ) : ∀ c ∈ printDecimal digits e, 32 ≤ c.toNat := by
  intro c hc
  unfold printDecimal at hc
  dsimp only at hc
  split_ifs at hc with hpoint
  · simp only [List.mem_append, List.mem_cons] at hc
    rcases hc with hc | rfl | hc
    · exact toDigits_printable digits c (List.mem_of_mem_take hc)
    · decide
    · exact toDigits_printable digits c (List.mem_of_mem_drop hc)
  · simp only [List.mem_append, List.mem_cons] at hc
    rcases hc with hc | rfl | hc
    · exact toDigits_printable digits c hc
    · decide
    · exact printInt_printable e c hc

theorem printNumber_printable (n : Number) : ∀ c ∈ printNumber n, 32 ≤ c.toNat := by
  intro c hc
  cases n with
  | posInt n => exact toDigits_printable n c hc
  | negInt n => exact printInt_printable (.negSucc n) c hc
  | float negative digits e =>
    rcases List.mem_append.mp hc with hc | hc
    · cases negative with
      | true =>
        rw [List.mem_singleton.mp hc]
        decide
      | false => exact nomatch hc
    · exact printDecimal_printable digits e c hc

def Printable (cs : List Char) : Prop := ∀ c ∈ cs, 32 ≤ c.toNat

theorem Printable.cons {c : Char} {cs : List Char} (hc : 32 ≤ c.toNat) (h : Printable cs) :
    Printable (c :: cs) := by
  simpa [Printable] using ⟨hc, h⟩

theorem Printable.append {cs ds : List Char} (hc : Printable cs) (hd : Printable ds) :
    Printable (cs ++ ds) := by
  intro c h
  rcases List.mem_append.mp h with h | h
  · exact hc c h
  · exact hd c h

mutual

theorem print_printable : ∀ v : Value, Printable (print v)
  | .null => by simp [Printable, print]
  | .bool true => by simp [Printable, print]
  | .bool false => by simp [Printable, print]
  | .number n => printNumber_printable n
  | .string s => printString_printable s
  | .array [] => by simp [Printable, print]
  | .array (v :: vs) => .cons (by decide) (.append (print_printable v) (printItems_printable vs))
  | .object [] => by simp [Printable, print]
  | .object ((k, v) :: ms) => .cons (by decide) (.append (printString_printable k)
      (.cons (by decide) (.append (print_printable v) (printMembers_printable ms))))

theorem printItems_printable : ∀ vs : List Value, Printable (printItems vs)
  | [] => by simp [Printable, printItems]
  | v :: vs => .cons (by decide) (.append (print_printable v) (printItems_printable vs))

theorem printMembers_printable : ∀ ms : List (String × Value), Printable (printMembers ms)
  | [] => by simp [Printable, printMembers]
  | (k, v) :: ms => .cons (by decide) (.append (printString_printable k)
      (.cons (by decide) (.append (print_printable v) (printMembers_printable ms))))

end

theorem codec_exact : codec.Exact where
  fromStr_toStr := fromStr_toStr
  no_control v c hc := print_printable v c (by simpa [codec, toStr] using hc)

theorem codec_lawful : codec.Lawful := codec_exact.lawful

theorem codec_reads {s : String} {v : Value} (h : s = toStr v) : codec.fromStr s = some v.normalize := by
  rw [h]
  exact fromStr_toStr v

end Prelay.Json.Text
