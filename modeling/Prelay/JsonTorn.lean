import Mathlib.Data.List.DropRight
import Mathlib.Data.List.TakeWhile
import Prelay.JsonRoundTrip

namespace Prelay.Json

/-- No text of an object is read when its end is missing. -/
def SerdeJson.RejectsTorn (serde : SerdeJson) : Prop :=
  ∀ members text, text.toList <+: (serde.toStr (.object members)).toList → text ≠ serde.toStr (.object members) →
    serde.fromStr text = none

namespace Text

section tokens

theorem skipSpace_more {cs cs' : List Char} {c : Char} (h : skipSpace cs = c :: cs') (more : List Char) :
    skipSpace (cs ++ more) = c :: (cs' ++ more) := by
  unfold skipSpace at h ⊢
  rw [List.dropWhile_append, h]
  rfl

theorem hexQuad_more {cs rest : List Char} {n : ℕ} (h : hexQuad cs = some (n, rest)) (more : List Char) :
    hexQuad (cs ++ more) = some (n, rest ++ more) := by
  unfold hexQuad at h
  split at h
  · next a b c d cs =>
    simp only [Option.bind_eq_bind, Option.bind_eq_some_iff] at h
    obtain ⟨w, hw, x, hx, y, hy, z, hz, h⟩ := h
    obtain ⟨rfl, rfl⟩ := Prod.mk.inj (Option.some.inj h)
    simp [hexQuad, hw, hx, hy, hz]
  · cases h

theorem parseUnicode_more {cs rest : List Char} {c : Char} (h : parseUnicode cs = some (c, rest)) (more : List Char) :
    parseUnicode (cs ++ more) = some (c, rest ++ more) := by
  unfold parseUnicode at h
  obtain ⟨⟨n, cs'⟩, hquad, h⟩ := Option.bind_eq_some_iff.mp h
  rw [parseUnicode, hexQuad_more hquad more]
  dsimp only [Option.bind_eq_bind, Option.bind_some] at h ⊢
  split_ifs at h ⊢ with hplain hhigh
  · obtain ⟨rfl, rfl⟩ := Prod.mk.inj (Option.some.inj h)
    rfl
  · split at h
    · next cs'' =>
      obtain ⟨⟨m, ds⟩, hlow, h⟩ := Option.bind_eq_some_iff.mp h
      dsimp only at h
      split_ifs at h with hpair
      obtain ⟨rfl, rfl⟩ := Prod.mk.inj (Option.some.inj h)
      simp [hexQuad_more hlow more, hpair]
    · cases h

theorem parseEscape_more {cs rest : List Char} {c : Char} (h : parseEscape cs = some (c, rest)) (more : List Char) :
    parseEscape (cs ++ more) = some (c, rest ++ more) := by
  unfold parseEscape at h
  split at h
  case h_9 => exact parseUnicode_more h more
  case h_10 => exact nomatch h
  all_goals
    obtain ⟨rfl, rfl⟩ := Prod.mk.inj (Option.some.inj h)
    rfl

theorem parseChars_more {fuel fuel' : ℕ} {cs text rest : List Char} (h : parseChars fuel cs = some (text, rest))
    (hfuel : fuel ≤ fuel') (more : List Char) : parseChars fuel' (cs ++ more) = some (text, rest ++ more) := by
  induction fuel generalizing fuel' cs text with
  | zero => exact nomatch h
  | succ fuel ih =>
    obtain ⟨fuel', rfl⟩ : ∃ k, fuel' = k + 1 := ⟨fuel' - 1, by omega⟩
    have hle : fuel ≤ fuel' := by omega
    cases cs with
    | nil => exact nomatch h
    | cons c cs =>
      rw [parseChars] at h
      rw [List.cons_append, parseChars]
      split_ifs at h ⊢ with hquote hescape hcontrol
      · obtain ⟨rfl, rfl⟩ := Prod.mk.inj (Option.some.inj h)
        rfl
      · obtain ⟨⟨d, ds⟩, hd, h⟩ := Option.bind_eq_some_iff.mp h
        obtain ⟨⟨text', ds'⟩, htext, h⟩ := Option.bind_eq_some_iff.mp h
        obtain ⟨rfl, rfl⟩ := Prod.mk.inj (Option.some.inj h)
        simp [parseEscape_more hd more, ih htext hle]
      · obtain ⟨⟨text', ds'⟩, htext, h⟩ := Option.bind_eq_some_iff.mp h
        obtain ⟨rfl, rfl⟩ := Prod.mk.inj (Option.some.inj h)
        simp [ih htext hle]

theorem parseString_more {cs rest : List Char} {s : String} (h : parseString cs = some (s, rest)) (more : List Char) :
    parseString (cs ++ more) = some (s, rest ++ more) := by
  obtain ⟨⟨text, ds⟩, htext, h⟩ := Option.map_eq_some_iff.mp h
  obtain ⟨rfl, rfl⟩ := Prod.mk.inj h
  rw [parseString, parseChars_more htext (by simp) more]
  rfl

end tokens

section numbers

theorem span_more {p : Char → Bool} {cs taken rest : List Char} (h : cs.span p = (taken, rest)) (hrest : rest ≠ [])
    (more : List Char) : (cs ++ more).span p = (taken, rest ++ more) := by
  rw [List.span_eq_takeWhile_dropWhile] at h
  obtain ⟨htaken, hdropped⟩ := Prod.mk.inj h
  have hcs : cs = taken ++ rest := by rw [← htaken, ← hdropped, List.takeWhile_append_dropWhile]
  have hall : ∀ c ∈ taken, p c = true := by
    intro c hc
    rw [← htaken] at hc
    exact List.mem_takeWhile_imp hc
  rw [hcs, List.append_assoc]
  apply span_append_of_all hall
  cases rest with
  | nil => exact absurd rfl hrest
  | cons c cs' =>
    have hhead := List.head?_dropWhile_not p cs
    rw [hdropped] at hhead
    simpa using hhead

theorem parseDigits_more {cs rest : List Char} {n : ℕ} (h : parseDigits cs = some (n, rest)) (hrest : rest ≠ [])
    (more : List Char) : parseDigits (cs ++ more) = some (n, rest ++ more) := by
  unfold parseDigits at h
  split at h
  · exact nomatch h
  · next digits cs' hdigits hspan =>
    obtain ⟨rfl, rfl⟩ := Prod.mk.inj (Option.some.inj h)
    rw [parseDigits, span_more hspan hrest]
    split
    · next heq => exact absurd (Prod.mk.inj heq).1 hdigits
    · next heq =>
      obtain ⟨rfl, rfl⟩ := Prod.mk.inj heq
      rfl

theorem parseFraction_more {cs fraction rest : List Char} (h : parseFraction cs = some (fraction, rest))
    (hrest : rest ≠ []) (more : List Char) : parseFraction (cs ++ more) = some (fraction, rest ++ more) := by
  unfold parseFraction at h
  split at h
  · split at h
    · exact nomatch h
    · next digits cs' hdigits hspan =>
      obtain ⟨rfl, rfl⟩ := Prod.mk.inj (Option.some.inj h)
      rw [List.cons_append, parseFraction, span_more hspan hrest]
      split
      · next heq => exact absurd (Prod.mk.inj heq).1 hdigits
      · next heq =>
        obtain ⟨rfl, rfl⟩ := Prod.mk.inj heq
        rfl
  · next hpoint =>
    obtain ⟨rfl, rfl⟩ := Prod.mk.inj (Option.some.inj h)
    cases cs with
    | nil => exact absurd rfl hrest
    | cons c cs =>
      rw [List.cons_append, parseFraction]
      rintro ds heq
      exact hpoint cs (by rw [(List.cons.inj heq).1])

theorem parseExponent_more {cs rest : List Char} {e : Option ℤ} (h : parseExponent cs = some (e, rest))
    (hrest : rest ≠ []) (more : List Char) : parseExponent (cs ++ more) = some (e, rest ++ more) := by
  cases cs with
  | nil =>
    obtain ⟨-, rfl⟩ := Prod.mk.inj (Option.some.inj h)
    exact absurd rfl hrest
  | cons c cs =>
    rw [List.cons_append]
    unfold parseExponent at h ⊢
    dsimp only at h ⊢
    split_ifs at h ⊢ with he
    · cases cs with
      | nil => exact nomatch h
      | cons d cs =>
        have hdigits : ∀ (sign : ℕ → ℤ) (ds : List Char),
            (parseDigits ds).map (fun p => (some (sign p.1), p.2)) = some (e, rest) →
            (parseDigits (ds ++ more)).map (fun p => (some (sign p.1), p.2)) = some (e, rest ++ more) := by
          intro sign ds hds
          obtain ⟨⟨n, ds'⟩, hfound, hpair⟩ := Option.map_eq_some_iff.mp hds
          obtain ⟨rfl, rfl⟩ := Prod.mk.inj hpair
          rw [parseDigits_more hfound hrest]
          rfl
        by_cases hminus : d = '-'
        · subst hminus
          exact hdigits (fun n => -(n : ℤ)) cs h
        · by_cases hplus : d = '+'
          · subst hplus
            exact hdigits (fun n => (n : ℤ)) cs h
          · split at h
            · next heq => exact absurd (List.cons.inj heq).1 hminus
            · next heq => exact absurd (List.cons.inj heq).1 hplus
            · split
              · next heq => exact absurd (List.cons.inj heq).1 hminus
              · next heq => exact absurd (List.cons.inj heq).1 hplus
              · exact hdigits (fun n => (n : ℤ)) (d :: cs) h
    · obtain ⟨rfl, rfl⟩ := Prod.mk.inj (Option.some.inj h)
      rfl

theorem parseUnsigned_more {negative : Bool} {cs rest : List Char} {n : Number}
    (h : parseUnsigned negative cs = some (n, rest)) (hrest : rest ≠ []) (more : List Char) :
    parseUnsigned negative (cs ++ more) = some (n, rest ++ more) := by
  unfold parseUnsigned at h
  split at h
  · exact nomatch h
  · exact nomatch h
  · next whole cs' hwhole hzero hspan =>
    obtain ⟨⟨fraction, ds⟩, hfraction, h⟩ := Option.bind_eq_some_iff.mp h
    obtain ⟨⟨exponent, es⟩, hexponent, h⟩ := Option.bind_eq_some_iff.mp h
    have hes : es = rest := by
      dsimp only at h
      split_ifs at h
      all_goals exact (Prod.mk.inj (Option.some.inj h)).2
    subst hes
    have hds : ds ≠ [] := by
      rintro rfl
      obtain ⟨-, rfl⟩ := Prod.mk.inj (Option.some.inj hexponent)
      exact hrest rfl
    have hcs' : cs' ≠ [] := by
      rintro rfl
      obtain ⟨-, rfl⟩ := Prod.mk.inj (Option.some.inj hfraction)
      exact hds rfl
    rw [parseUnsigned, span_more hspan hcs']
    split
    · next heq => exact absurd (Prod.mk.inj heq).1 hwhole
    · next heq => exact absurd (Prod.mk.inj heq).1 (hzero _ _)
    · next heq =>
      obtain ⟨rfl, rfl⟩ := Prod.mk.inj heq
      simp only [parseFraction_more hfraction hds more, parseExponent_more hexponent hrest more, Option.bind_eq_bind,
        Option.bind_some]
      dsimp only at h
      split_ifs at h ⊢
      all_goals
        obtain ⟨rfl, -⟩ := Prod.mk.inj (Option.some.inj h)
        rfl

theorem parseNumber_more {cs rest : List Char} {n : Number} (h : parseNumber cs = some (n, rest)) (hrest : rest ≠ [])
    (more : List Char) : parseNumber (cs ++ more) = some (n, rest ++ more) := by
  unfold parseNumber at h
  split at h
  · exact parseUnsigned_more h hrest more
  · next hminus =>
    cases cs with
    | nil => exact nomatch h
    | cons c cs =>
      rw [parseNumber]
      · exact parseUnsigned_more h hrest more
      · intro ds heq
        exact hminus cs (by rw [(List.cons.inj heq).1])

theorem parseNumber_cons {cs rest : List Char} {n : Number} (h : parseNumber cs = some (n, rest)) :
    ∃ c cs', cs = c :: cs' ∧ (c = '-' ∨ c.isDigit = true) := by
  unfold parseNumber at h
  split at h
  · exact ⟨_, _, rfl, .inl rfl⟩
  · cases cs with
    | nil => cases h
    | cons c cs =>
      refine ⟨c, cs, rfl, .inr ?_⟩
      by_contra hdigit
      rw [Bool.not_eq_true] at hdigit
      have hspan : (c :: cs).span Char.isDigit = ([], c :: cs) := by
        rw [List.span_eq_takeWhile_dropWhile]
        simp [hdigit]
      rw [parseUnsigned, hspan] at h
      cases h

end numbers

section values

variable {fuel : ℕ} {cs ds : List Char}

theorem parseValue_quote (h : skipSpace cs = '"' :: ds) :
    parseValue (fuel + 1) cs = (parseString ds).map (fun p => (.string p.1, p.2)) := by
  simp only [parseValue, h]

theorem parseValue_array_nil {es : List Char} (h : skipSpace cs = '[' :: ds) (hds : skipSpace ds = ']' :: es) :
    parseValue (fuel + 1) cs = some (.array [], es) := by
  simp only [parseValue, h, hds]

theorem parseValue_array (h : skipSpace cs = '[' :: ds) (hds : ∀ es, skipSpace ds ≠ ']' :: es) :
    parseValue (fuel + 1) cs = (parseItems fuel (skipSpace ds)).map (fun p => (.array p.1, p.2)) := by
  simp only [parseValue, h]

theorem parseValue_object_nil {es : List Char} (h : skipSpace cs = '{' :: ds) (hds : skipSpace ds = '}' :: es) :
    parseValue (fuel + 1) cs = some (.object [], es) := by
  simp only [parseValue, h, hds]

theorem parseValue_object (h : skipSpace cs = '{' :: ds) (hds : ∀ es, skipSpace ds ≠ '}' :: es) :
    parseValue (fuel + 1) cs =
      (parseMembers fuel (skipSpace ds)).map (fun p => (.object (collectMembers p.1), p.2)) := by
  simp only [parseValue, h]

theorem parseValue_digit {c : Char} (h : skipSpace cs = c :: ds) (hc : c = '-' ∨ c.isDigit = true) :
    parseValue (fuel + 1) cs = (parseNumber (c :: ds)).map (fun p => (.number p.1, p.2)) := by
  have hne : ∀ d : Char, d.isDigit = false → d ≠ '-' → c ≠ d := by
    rintro d hd hminus rfl
    rcases hc with hc | hc
    · exact hminus hc
    · exact absurd hc (by simp [hd])
  rw [parseValue, h]
  split
  case h_7 => rfl
  all_goals
    next heq => exact absurd (List.cons.inj heq).1 (hne _ rfl (by decide))

def Closes (cs rest more : List Char) : Prop := rest ≠ [] ∨ more = [] ∨ ∃ cs', skipSpace cs = '{' :: cs'

theorem ne_nil_of_skipSpace {c : Char} (h : skipSpace cs = c :: ds) : cs ≠ [] := by
  rintro rfl
  exact nomatch h

structure KeepsMore (fuel fuel' : ℕ) : Prop where
  value : ∀ cs v rest more, parseValue fuel cs = some (v, rest) → Closes cs rest more →
    parseValue fuel' (cs ++ more) = some (v, rest ++ more)
  items : ∀ cs vs rest more, parseItems fuel cs = some (vs, rest) →
    parseItems fuel' (cs ++ more) = some (vs, rest ++ more)
  members : ∀ cs ms rest more, parseMembers fuel cs = some (ms, rest) →
    parseMembers fuel' (cs ++ more) = some (ms, rest ++ more)

theorem parseValue_nil (fuel : ℕ) : parseValue fuel [] = none := by
  cases fuel with
  | zero => rfl
  | succ fuel => rfl

theorem parseItems_nil (fuel : ℕ) : parseItems fuel [] = none := by
  cases fuel with
  | zero => rfl
  | succ fuel => rw [parseItems, parseValue_nil]; rfl

theorem parseMembers_nil (fuel : ℕ) : parseMembers fuel [] = none := by
  cases fuel with
  | zero => rfl
  | succ fuel => rfl

theorem inner_more {close : Char} {more : List Char} (hds : ∀ es, skipSpace ds ≠ close :: es)
    (hne : skipSpace ds ≠ []) :
    skipSpace (ds ++ more) = skipSpace ds ++ more ∧ ∀ es, skipSpace (ds ++ more) ≠ close :: es := by
  obtain ⟨c, es, hc⟩ := List.exists_cons_of_ne_nil hne
  rw [skipSpace_more hc more, hc]
  refine ⟨rfl, fun es' heq => ?_⟩
  rw [hc] at hds
  exact hds es (by rw [(List.cons.inj heq).1])

theorem KeepsMore.next_value {fuel' : ℕ} (h : KeepsMore fuel fuel') {v : Value} {rest more : List Char}
    (hparse : parseValue (fuel + 1) cs = some (v, rest)) (hended : Closes cs rest more) :
    parseValue (fuel' + 1) (cs ++ more) = some (v, rest ++ more) := by
  have hskipped := hparse
  rw [parseValue] at hskipped
  split at hskipped
  case h_1 heq =>
    obtain ⟨rfl, rfl⟩ := Prod.mk.inj (Option.some.inj hskipped)
    simp only [parseValue, skipSpace_more heq more, List.cons_append]
  case h_2 heq =>
    obtain ⟨rfl, rfl⟩ := Prod.mk.inj (Option.some.inj hskipped)
    simp only [parseValue, skipSpace_more heq more, List.cons_append]
  case h_3 heq =>
    obtain ⟨rfl, rfl⟩ := Prod.mk.inj (Option.some.inj hskipped)
    simp only [parseValue, skipSpace_more heq more, List.cons_append]
  case h_4 heq =>
    obtain ⟨⟨s, ds⟩, hs, hpair⟩ := Option.map_eq_some_iff.mp hskipped
    obtain ⟨rfl, rfl⟩ := Prod.mk.inj hpair
    rw [parseValue_quote (skipSpace_more heq more), parseString_more hs more]
    rfl
  case h_5 ds heq =>
    split at hskipped
    · next heq' =>
      obtain ⟨rfl, rfl⟩ := Prod.mk.inj (Option.some.inj hskipped)
      exact parseValue_array_nil (skipSpace_more heq more) (skipSpace_more heq' more)
    · next hclose =>
      obtain ⟨⟨vs, es⟩, hvs, hpair⟩ := Option.map_eq_some_iff.mp hskipped
      obtain ⟨rfl, rfl⟩ := Prod.mk.inj hpair
      have hne : skipSpace ds ≠ [] := by
        intro hnil
        rw [hnil, parseItems_nil] at hvs
        cases hvs
      obtain ⟨hmore, hclose'⟩ := inner_more hclose hne
      rw [parseValue_array (skipSpace_more heq more) hclose', hmore, h.items _ _ _ more hvs]
      rfl
  case h_6 ds heq =>
    split at hskipped
    · next heq' =>
      obtain ⟨rfl, rfl⟩ := Prod.mk.inj (Option.some.inj hskipped)
      exact parseValue_object_nil (skipSpace_more heq more) (skipSpace_more heq' more)
    · next hclose =>
      obtain ⟨⟨ms, es⟩, hms, hpair⟩ := Option.map_eq_some_iff.mp hskipped
      obtain ⟨rfl, rfl⟩ := Prod.mk.inj hpair
      have hne : skipSpace ds ≠ [] := by
        intro hnil
        rw [hnil, parseMembers_nil] at hms
        cases hms
      obtain ⟨hmore, hclose'⟩ := inner_more hclose hne
      rw [parseValue_object (skipSpace_more heq more) hclose', hmore, h.members _ _ _ more hms]
      rfl
  case h_7 hother =>
    obtain ⟨⟨n, es⟩, hn, hpair⟩ := Option.map_eq_some_iff.mp hskipped
    obtain ⟨rfl, rfl⟩ := Prod.mk.inj hpair
    obtain ⟨c, ds, hcs, hc⟩ := parseNumber_cons hn
    rw [parseValue_digit (skipSpace_more hcs more) hc, ← List.cons_append, ← hcs]
    have hmore : parseNumber (skipSpace cs ++ more) = some (n, es ++ more) := by
      rcases hended with hrest | rfl | ⟨ds', hbrace⟩
      · exact parseNumber_more hn hrest more
      · rw [List.append_nil, List.append_nil]
        exact hn
      · rw [hcs] at hbrace
        obtain ⟨rfl, -⟩ := List.cons.inj hbrace
        exact absurd hc (by decide)
    rw [hmore]
    rfl

theorem KeepsMore.next_items {fuel' : ℕ} (h : KeepsMore fuel fuel') {vs : List Value} {rest : List Char}
    (more : List Char) (hparse : parseItems (fuel + 1) cs = some (vs, rest)) :
    parseItems (fuel' + 1) (cs ++ more) = some (vs, rest ++ more) := by
  rw [parseItems] at hparse
  obtain ⟨⟨v, ds⟩, hv, hparse⟩ := Option.bind_eq_some_iff.mp hparse
  dsimp only at hparse
  split at hparse
  · next heq =>
    obtain ⟨⟨ws, es⟩, hws, hparse⟩ := Option.bind_eq_some_iff.mp hparse
    obtain ⟨rfl, rfl⟩ := Prod.mk.inj (Option.some.inj hparse)
    have hvalue := h.value cs v ds more hv (.inl (ne_nil_of_skipSpace heq))
    simp only [parseItems, hvalue, Option.bind_eq_bind, Option.bind_some, skipSpace_more heq more,
      h.items _ _ _ more hws]
  · next heq =>
    obtain ⟨rfl, rfl⟩ := Prod.mk.inj (Option.some.inj hparse)
    have hvalue := h.value cs v ds more hv (.inl (ne_nil_of_skipSpace heq))
    simp only [parseItems, hvalue, Option.bind_eq_bind, Option.bind_some, skipSpace_more heq more]
  · cases hparse

theorem KeepsMore.next_members {fuel' : ℕ} (h : KeepsMore fuel fuel') {ms : List (String × Value)} {rest : List Char}
    (more : List Char) (hparse : parseMembers (fuel + 1) cs = some (ms, rest)) :
    parseMembers (fuel' + 1) (cs ++ more) = some (ms, rest ++ more) := by
  rw [parseMembers] at hparse
  split at hparse
  · next heq =>
    obtain ⟨⟨k, ks⟩, hk, hparse⟩ := Option.bind_eq_some_iff.mp hparse
    dsimp only at hparse
    split at hparse
    · next heq' =>
      obtain ⟨ds, hds, hparse⟩ := Option.bind_eq_some_iff.mp hparse
      obtain rfl := Option.some.inj hds
      obtain ⟨⟨v, es⟩, hv, hparse⟩ := Option.bind_eq_some_iff.mp hparse
      dsimp only at hparse
      split at hparse
      · next heq'' =>
        obtain ⟨⟨ns, fs⟩, hns, hparse⟩ := Option.bind_eq_some_iff.mp hparse
        obtain ⟨rfl, rfl⟩ := Prod.mk.inj (Option.some.inj hparse)
        have hvalue := h.value _ v es more hv (.inl (ne_nil_of_skipSpace heq''))
        simp only [parseMembers, skipSpace_more heq more, parseString_more hk more, Option.bind_eq_bind,
          Option.bind_some, skipSpace_more heq' more, hvalue, skipSpace_more heq'' more, h.members _ _ _ more hns]
      · next heq'' =>
        obtain ⟨rfl, rfl⟩ := Prod.mk.inj (Option.some.inj hparse)
        have hvalue := h.value _ v es more hv (.inl (ne_nil_of_skipSpace heq''))
        simp only [parseMembers, skipSpace_more heq more, parseString_more hk more, Option.bind_eq_bind,
          Option.bind_some, skipSpace_more heq' more, hvalue, skipSpace_more heq'' more]
      · cases hparse
    · cases hparse
  · cases hparse

theorem keepsMore (fuel fuel' : ℕ) (h : fuel ≤ fuel') : KeepsMore fuel fuel' := by
  induction fuel generalizing fuel' with
  | zero => exact ⟨fun _ _ _ _ h => (by cases h), fun _ _ _ _ h => (by cases h), fun _ _ _ _ h => (by cases h)⟩
  | succ fuel ih =>
    obtain ⟨fuel', rfl⟩ : ∃ k, fuel' = k + 1 := ⟨fuel' - 1, by omega⟩
    have hkeeps := ih fuel' (by omega)
    exact ⟨fun _ _ _ _ hparse hended => hkeeps.next_value hparse hended,
      fun _ _ _ more hparse => hkeeps.next_items more hparse, fun _ _ _ more hparse => hkeeps.next_members more hparse⟩

end values

theorem print_object (members : List (String × Value)) : ∃ cs, print (.object members) = '{' :: cs := by
  cases members with
  | nil => exact ⟨_, rfl⟩
  | cons m members => exact ⟨_, rfl⟩

theorem codec_rejectsTorn : codec.RejectsTorn := by
  intro members text hcut hne
  obtain ⟨more, hmore⟩ := hcut
  have hwhole : text.toList ++ more = print (.object members) := by
    rw [hmore]
    exact String.toList_ofList
  have hrest : more ≠ [] := by
    rintro rfl
    rw [List.append_nil] at hmore
    exact hne (String.toList_inj.mp hmore)
  obtain ⟨cs, hcs⟩ := print_object members
  change fromStr text = none
  unfold fromStr
  cases hparse : parseValue (text.toList.length + 1) text.toList with
  | none => rfl
  | some found =>
    obtain ⟨v, rest⟩ := found
    have hended : Closes text.toList rest more := by
      cases htext : text.toList with
      | nil =>
        rw [htext, parseValue_nil] at hparse
        exact nomatch hparse
      | cons c ds =>
        rw [htext, hcs, List.cons_append] at hwhole
        rw [(List.cons.inj hwhole).1]
        exact .inr (.inr ⟨ds, skipSpace_cons ds rfl⟩)
    have hfuel : text.toList.length + 1 ≤ (print (.object members)).length + 1 := by
      rw [← hwhole, List.length_append]
      omega
    have hlonger := (keepsMore _ _ hfuel).value _ _ _ _ hparse hended
    have hparsed := parses (.object members) ((print (.object members)).length + 1) [] (by omega) (by simp [Closed])
    rw [List.append_nil, ← hwhole] at hparsed
    rw [← hwhole] at hlonger
    rw [hlonger] at hparsed
    obtain ⟨-, hnil⟩ := Prod.mk.inj (Option.some.inj hparsed)
    exact absurd (List.append_eq_nil_iff.mp hnil).2 hrest

end Text

end Prelay.Json
