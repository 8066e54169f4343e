import Mathlib.Data.List.TakeDrop
import Prelay.JsonText

namespace Prelay.Json

namespace Value

mutual

def weight : Value → ℕ
  | .string text => text.toList.length + 1
  | .array items => weightItems items + 1
  | .object members => weightMembers members + 1
  | _ => 1

def weightItems : List Value → ℕ
  | [] => 0
  | v :: vs => v.weight + weightItems vs

def weightMembers : List (String × Value) → ℕ
  | [] => 0
  | (_, v) :: ms => v.weight + weightMembers ms

end

theorem weight_le_items {v : Value} {items : List Value} (h : v ∈ items) : v.weight ≤ weightItems items := by
  induction items with
  | nil => exact nomatch h
  | cons item items ih =>
    rw [weightItems]
    cases List.mem_cons.mp h with
    | inl heq =>
      rw [heq]
      omega
    | inr hrest =>
      have := ih hrest
      omega

theorem weight_le_members {member : String × Value} {members : List (String × Value)} (h : member ∈ members) :
    member.2.weight ≤ weightMembers members := by
  induction members with
  | nil => exact nomatch h
  | cons other members ih =>
    obtain ⟨key, value⟩ := other
    rw [weightMembers]
    cases List.mem_cons.mp h with
    | inl heq =>
      rw [heq]
      exact Nat.le_add_right _ _
    | inr hrest =>
      have := ih hrest
      omega

end Value

open Value

theorem weight_insertMember (key : String) (value : Value) (members : List (String × Value)) :
    weightMembers (insertMember key value members) ≤ value.weight + weightMembers members := by
  induction members with
  | nil => simp [insertMember, weightMembers]
  | cons member members ih =>
    obtain ⟨k, v⟩ := member
    unfold insertMember
    split_ifs
    · simp only [weightMembers]
      omega
    · simp only [weightMembers]
      omega
    · simp only [weightMembers]
      omega

theorem weight_collectMembers (members : List (String × Value)) :
    weightMembers (collectMembers members) ≤ weightMembers members := by
  have hfold : ∀ acc : List (String × Value), weightMembers (members.foldl (fun acc m => insertMember m.1 m.2 acc) acc) ≤
      weightMembers acc + weightMembers members := by
    induction members with
    | nil => simp [weightMembers]
    | cons member members ih =>
      intro acc
      have hrest := ih (insertMember member.1 member.2 acc)
      have hhead := weight_insertMember member.1 member.2 acc
      rw [List.foldl_cons, weightMembers]
      omega
  simpa [collectMembers, weightMembers] using hfold []

namespace Text

def Shrinks {α : Type} (weight : α → ℕ) (parser : List Char → Option (α × List Char)) : Prop :=
  ∀ cs a rest, parser cs = some (a, rest) → weight a + rest.length ≤ cs.length

theorem skipSpace_length (cs : List Char) : (skipSpace cs).length ≤ cs.length := (List.dropWhile_sublist _).length_le

theorem hexQuad_shrinks : Shrinks (fun _ => 1) hexQuad := by
  intro cs n rest h
  unfold hexQuad at h
  split at h
  · simp only [Option.bind_eq_bind, Option.bind_eq_some_iff, Option.some.injEq, Prod.mk.injEq] at h
    obtain ⟨_, _, _, _, _, _, _, _, _, rfl⟩ := h
    simp only [List.length_cons]
    omega
  · exact nomatch h

theorem parseUnicode_shrinks : Shrinks (fun _ => 1) parseUnicode := by
  intro cs c rest h
  unfold parseUnicode at h
  obtain ⟨⟨n, cs'⟩, hquad, h⟩ := Option.bind_eq_some_iff.mp h
  have hlength := hexQuad_shrinks _ _ _ hquad
  dsimp only at h
  split_ifs at h
  · obtain ⟨rfl, rfl⟩ := Prod.mk.inj (Option.some.inj h)
    exact hlength
  · split at h
    · obtain ⟨⟨m, cs''⟩, hlow, h⟩ := Option.bind_eq_some_iff.mp h
      have hlowLength := hexQuad_shrinks _ _ _ hlow
      dsimp only at h
      split_ifs at h
      obtain ⟨rfl, rfl⟩ := Prod.mk.inj (Option.some.inj h)
      simp only [List.length_cons] at hlength hlowLength ⊢
      omega
    · exact nomatch h

theorem parseEscape_shrinks : Shrinks (fun _ => 1) parseEscape := by
  intro cs c rest h
  unfold parseEscape at h
  split at h
  all_goals
    first
      | (obtain ⟨rfl, rfl⟩ := Prod.mk.inj (Option.some.inj h)
         simp only [List.length_cons]
         omega)
      | (have hlength := parseUnicode_shrinks _ _ _ h
         simp only [List.length_cons]
         omega)
      | exact nomatch h

theorem parseChars_shrinks (fuel : ℕ) : Shrinks (fun text => text.length + 1) (parseChars fuel) := by
  induction fuel with
  | zero =>
    intro cs text rest h
    exact nomatch h
  | succ fuel ih =>
    intro cs text rest h
    cases cs with
    | nil => exact nomatch h
    | cons c cs =>
      unfold parseChars at h
      split_ifs at h
      · obtain ⟨rfl, rfl⟩ := Prod.mk.inj (Option.some.inj h)
        simp only [List.length_cons, List.length_nil]
        omega
      · obtain ⟨⟨c', cs'⟩, hescape, h⟩ := Option.bind_eq_some_iff.mp h
        obtain ⟨⟨text', cs''⟩, htext, h⟩ := Option.bind_eq_some_iff.mp h
        obtain ⟨rfl, rfl⟩ := Prod.mk.inj (Option.some.inj h)
        have hescapeLength := parseEscape_shrinks _ _ _ hescape
        have htextLength := ih _ _ _ htext
        simp only [List.length_cons] at *
        omega
      · obtain ⟨⟨text', cs'⟩, htext, h⟩ := Option.bind_eq_some_iff.mp h
        obtain ⟨rfl, rfl⟩ := Prod.mk.inj (Option.some.inj h)
        have htextLength := ih _ _ _ htext
        simp only [List.length_cons] at *
        omega

theorem parseString_shrinks : Shrinks (fun text => text.toList.length + 1) parseString := by
  intro cs text rest h
  obtain ⟨⟨chars, cs'⟩, hchars, h⟩ := Option.map_eq_some_iff.mp h
  obtain ⟨rfl, rfl⟩ := Prod.mk.inj h
  simpa using parseChars_shrinks _ _ _ _ hchars

theorem span_length (p : Char → Bool) (cs : List Char) : (cs.span p).1.length + (cs.span p).2.length = cs.length := by
  rw [List.span_eq_takeWhile_dropWhile, ← List.length_append, List.takeWhile_append_dropWhile]

theorem parseFraction_shrinks : Shrinks (fun _ => 0) parseFraction := by
  intro cs digits rest h
  unfold parseFraction at h
  split at h
  · next cs =>
    have hspan := span_length Char.isDigit cs
    split at h
    · exact nomatch h
    · next heq =>
      obtain ⟨rfl, rfl⟩ := Prod.mk.inj (Option.some.inj h)
      rw [heq] at hspan
      simp only [List.length_cons] at hspan ⊢
      omega
  · obtain ⟨rfl, rfl⟩ := Prod.mk.inj (Option.some.inj h)
    simp

theorem parseDigits_shrinks : Shrinks (fun _ => 0) parseDigits := by
  intro cs n rest h
  unfold parseDigits at h
  have hspan := span_length Char.isDigit cs
  split at h
  · exact nomatch h
  · next heq =>
    obtain ⟨rfl, rfl⟩ := Prod.mk.inj (Option.some.inj h)
    rw [heq] at hspan
    dsimp only at hspan ⊢
    omega

theorem parseExponent_shrinks : Shrinks (fun _ => 0) parseExponent := by
  intro cs exponent rest h
  unfold parseExponent at h
  split at h
  · split_ifs at h
    · split at h
      all_goals
        obtain ⟨⟨n, cs'⟩, hdigits, heq⟩ := Option.map_eq_some_iff.mp h
        obtain ⟨-, rfl⟩ := Prod.mk.inj heq
        have hlength := parseDigits_shrinks _ _ _ hdigits
        simp only [List.length_cons] at hlength ⊢
        omega
    · obtain ⟨rfl, rfl⟩ := Prod.mk.inj (Option.some.inj h)
      simp
  · obtain ⟨rfl, rfl⟩ := Prod.mk.inj (Option.some.inj h)
    simp

theorem parseUnsigned_shrinks (negative : Bool) : Shrinks (fun _ => 1) (parseUnsigned negative) := by
  intro cs n rest h
  unfold parseUnsigned at h
  have hspan := span_length Char.isDigit cs
  split at h
  · exact nomatch h
  · exact nomatch h
  · next whole cs' hne _ heq =>
    obtain ⟨⟨fraction, cs₁⟩, hfraction, h⟩ := Option.bind_eq_some_iff.mp h
    obtain ⟨⟨exponent, cs₂⟩, hexponent, h⟩ := Option.bind_eq_some_iff.mp h
    have hfractionLength := parseFraction_shrinks _ _ _ hfraction
    have hexponentLength := parseExponent_shrinks _ _ _ hexponent
    have hrest : rest = cs₂ := by
      dsimp only at h
      split_ifs at h
      all_goals exact (Prod.mk.inj (Option.some.inj h)).2.symm
    have hwhole : 0 < whole.length := by
      cases whole with
      | nil => exact (hne rfl).elim
      | cons c whole => simp
    rw [heq] at hspan
    dsimp only at hspan hfractionLength hexponentLength ⊢
    rw [hrest]
    omega

theorem parseNumber_shrinks : Shrinks (fun _ => 1) parseNumber := by
  intro cs n rest h
  unfold parseNumber at h
  split at h
  · have hlength := parseUnsigned_shrinks _ _ _ _ h
    simp only [List.length_cons] at hlength ⊢
    omega
  · exact parseUnsigned_shrinks _ _ _ _ h

theorem parseValue_shrinks {fuel : ℕ} (hitems : Shrinks weightItems (parseItems fuel))
    (hmembers : Shrinks weightMembers (parseMembers fuel)) : Shrinks Value.weight (parseValue (fuel + 1)) := by
  intro cs v rest h
  have hspace := skipSpace_length cs
  unfold parseValue at h
  split at h
  · next heq =>
    obtain ⟨rfl, rfl⟩ := Prod.mk.inj (Option.some.inj h)
    rw [heq] at hspace
    simp only [List.length_cons, Value.weight] at hspace ⊢
    omega
  · next heq =>
    obtain ⟨rfl, rfl⟩ := Prod.mk.inj (Option.some.inj h)
    rw [heq] at hspace
    simp only [List.length_cons, Value.weight] at hspace ⊢
    omega
  · next heq =>
    obtain ⟨rfl, rfl⟩ := Prod.mk.inj (Option.some.inj h)
    rw [heq] at hspace
    simp only [List.length_cons, Value.weight] at hspace ⊢
    omega
  · next heq =>
    obtain ⟨⟨text, cs'⟩, htext, heq'⟩ := Option.map_eq_some_iff.mp h
    obtain ⟨rfl, rfl⟩ := Prod.mk.inj heq'
    have hlength := parseString_shrinks _ _ _ htext
    rw [heq] at hspace
    simp only [List.length_cons, Value.weight] at hspace hlength ⊢
    omega
  · next cs' heq =>
    rw [heq] at hspace
    have hinner := skipSpace_length cs'
    split at h
    · next hclose =>
      obtain ⟨rfl, rfl⟩ := Prod.mk.inj (Option.some.inj h)
      rw [hclose] at hinner
      simp only [List.length_cons, Value.weight, weightItems] at hspace hinner ⊢
      omega
    · obtain ⟨⟨items, cs''⟩, hparsed, heq'⟩ := Option.map_eq_some_iff.mp h
      obtain ⟨rfl, rfl⟩ := Prod.mk.inj heq'
      have hlength := hitems _ _ _ hparsed
      simp only [List.length_cons, Value.weight] at hspace hlength ⊢
      omega
  · next cs' heq =>
    rw [heq] at hspace
    have hinner := skipSpace_length cs'
    split at h
    · next hclose =>
      obtain ⟨rfl, rfl⟩ := Prod.mk.inj (Option.some.inj h)
      rw [hclose] at hinner
      simp only [List.length_cons, Value.weight, weightMembers] at hspace hinner ⊢
      omega
    · obtain ⟨⟨members, cs''⟩, hparsed, heq'⟩ := Option.map_eq_some_iff.mp h
      obtain ⟨rfl, rfl⟩ := Prod.mk.inj heq'
      have hlength := hmembers _ _ _ hparsed
      have hcollect := weight_collectMembers members
      simp only [List.length_cons, Value.weight] at hspace hlength ⊢
      omega
  · obtain ⟨⟨n, cs'⟩, hnumber, heq'⟩ := Option.map_eq_some_iff.mp h
    obtain ⟨rfl, rfl⟩ := Prod.mk.inj heq'
    have hlength := parseNumber_shrinks _ _ _ hnumber
    simp only [Value.weight] at hlength ⊢
    omega

theorem parseItems_shrinks {fuel : ℕ} (hvalue : Shrinks Value.weight (parseValue fuel))
    (hitems : Shrinks weightItems (parseItems fuel)) : Shrinks weightItems (parseItems (fuel + 1)) := by
  intro cs items rest h
  unfold parseItems at h
  obtain ⟨⟨v, cs₁⟩, hv, h⟩ := Option.bind_eq_some_iff.mp h
  have hlength := hvalue _ _ _ hv
  have hspace := skipSpace_length cs₁
  dsimp only at h
  split at h
  · next heq =>
    obtain ⟨⟨vs, cs₂⟩, hvs, h⟩ := Option.bind_eq_some_iff.mp h
    obtain ⟨rfl, rfl⟩ := Prod.mk.inj (Option.some.inj h)
    have hrest := hitems _ _ _ hvs
    rw [heq] at hspace
    simp only [List.length_cons, weightItems] at hspace ⊢
    omega
  · next heq =>
    obtain ⟨rfl, rfl⟩ := Prod.mk.inj (Option.some.inj h)
    rw [heq] at hspace
    simp only [List.length_cons, weightItems] at hspace ⊢
    omega
  · cases h

theorem parseMembers_shrinks {fuel : ℕ} (hvalue : Shrinks Value.weight (parseValue fuel))
    (hmembers : Shrinks weightMembers (parseMembers fuel)) : Shrinks weightMembers (parseMembers (fuel + 1)) := by
  intro cs members rest h
  have hquote := skipSpace_length cs
  unfold parseMembers at h
  dsimp only at h
  split at h
  · next hopen =>
    obtain ⟨⟨k, cs₁⟩, hkey, h⟩ := Option.bind_eq_some_iff.mp h
    have hkeyLength := parseString_shrinks _ _ _ hkey
    have hcolon := skipSpace_length cs₁
    rw [hopen] at hquote
    dsimp only at h
    split at h
    · next hsep =>
      obtain ⟨cs₂, hcs, h⟩ := Option.bind_eq_some_iff.mp h
      obtain rfl := Option.some.inj hcs
      obtain ⟨⟨v, cs₃⟩, hv, h⟩ := Option.bind_eq_some_iff.mp h
      have hlength := hvalue _ _ _ hv
      have hspace := skipSpace_length cs₃
      rw [hsep] at hcolon
      dsimp only at h
      split at h
      · next heq =>
        obtain ⟨⟨ms, cs₄⟩, hms, h⟩ := Option.bind_eq_some_iff.mp h
        obtain ⟨rfl, rfl⟩ := Prod.mk.inj (Option.some.inj h)
        have hrest := hmembers _ _ _ hms
        rw [heq] at hspace
        simp only [List.length_cons, weightMembers] at hquote hcolon hkeyLength hspace ⊢
        omega
      · next heq =>
        obtain ⟨rfl, rfl⟩ := Prod.mk.inj (Option.some.inj h)
        rw [heq] at hspace
        simp only [List.length_cons, weightMembers] at hquote hcolon hkeyLength hspace ⊢
        omega
      · cases h
    · cases h
  · cases h

theorem parsers_shrink (fuel : ℕ) : Shrinks Value.weight (parseValue fuel) ∧ Shrinks weightItems (parseItems fuel) ∧
    Shrinks weightMembers (parseMembers fuel) := by
  induction fuel with
  | zero =>
    refine ⟨?_, ?_, ?_⟩
    all_goals
      intro cs a rest h
      cases h
  | succ fuel ih =>
    obtain ⟨hvalue, hitems, hmembers⟩ := ih
    exact ⟨parseValue_shrinks hitems hmembers, parseItems_shrinks hvalue hitems, parseMembers_shrinks hvalue hmembers⟩

theorem codec_shrinks (text : String) (value : Value) (h : codec.fromStr text = some value) :
    value.weight ≤ text.toList.length := by
  change fromStr text = some value at h
  unfold fromStr at h
  split at h
  · next v cs hparsed =>
    split_ifs at h
    obtain rfl := Option.some.inj h
    have hlength := (parsers_shrink _).1 _ _ _ hparsed
    omega
  · exact nomatch h

end Text

end Prelay.Json
