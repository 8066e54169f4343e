import Prelay.JsonRoundTrip

namespace Prelay.Json

/-- The reader and the printer agree on every value, and the values of the reader have each key once, in order. -/
structure SerdeJson.Faithful (serde : SerdeJson) : Prop extends serde.Exact where
  fromStr_normal : ∀ text v, serde.fromStr text = some v → v.Normal

namespace Text

mutual

theorem parseValue_normal : ∀ (fuel : ℕ) (cs : List Char) (v : Value) (rest : List Char),
    parseValue fuel cs = some (v, rest) → v.Normal
  | 0, _, _, _, h => nomatch h
  | fuel + 1, cs, v, rest, h => by
    rw [parseValue] at h
    split at h
    · obtain ⟨rfl, -⟩ := Prod.mk.inj (Option.some.inj h)
      rfl
    · obtain ⟨rfl, -⟩ := Prod.mk.inj (Option.some.inj h)
      rfl
    · obtain ⟨rfl, -⟩ := Prod.mk.inj (Option.some.inj h)
      rfl
    · obtain ⟨p, -, hp⟩ := Option.map_eq_some_iff.mp h
      obtain ⟨rfl, -⟩ := Prod.mk.inj hp
      rfl
    · split at h
      · obtain ⟨rfl, -⟩ := Prod.mk.inj (Option.some.inj h)
        rfl
      · obtain ⟨p, hitems, hp⟩ := Option.map_eq_some_iff.mp h
        obtain ⟨rfl, -⟩ := Prod.mk.inj hp
        exact Value.normal_array.mpr (parseItems_normal fuel _ p.1 p.2 hitems)
    · split at h
      · obtain ⟨rfl, -⟩ := Prod.mk.inj (Option.some.inj h)
        rfl
      · obtain ⟨p, hmembers, hp⟩ := Option.map_eq_some_iff.mp h
        obtain ⟨rfl, -⟩ := Prod.mk.inj hp
        exact Value.json_normal (parseMembers_normal fuel _ p.1 p.2 hmembers)
    · obtain ⟨p, -, hp⟩ := Option.map_eq_some_iff.mp h
      obtain ⟨rfl, -⟩ := Prod.mk.inj hp
      rfl

theorem parseItems_normal : ∀ (fuel : ℕ) (cs : List Char) (vs : List Value) (rest : List Char),
    parseItems fuel cs = some (vs, rest) → ∀ v ∈ vs, v.Normal
  | 0, _, _, _, h => nomatch h
  | fuel + 1, cs, vs, rest, h => by
    rw [parseItems] at h
    obtain ⟨⟨v, cs'⟩, hp, h⟩ := Option.bind_eq_some_iff.mp h
    have hv := parseValue_normal fuel cs v cs' hp
    dsimp only at h
    split at h
    · obtain ⟨⟨ws, ds⟩, hq, h⟩ := Option.bind_eq_some_iff.mp h
      obtain ⟨rfl, -⟩ := Prod.mk.inj (Option.some.inj h)
      exact List.forall_mem_cons.mpr ⟨hv, parseItems_normal fuel _ ws ds hq⟩
    · obtain ⟨rfl, -⟩ := Prod.mk.inj (Option.some.inj h)
      exact List.forall_mem_singleton.mpr hv
    · exact nomatch h

theorem parseMembers_normal : ∀ (fuel : ℕ) (cs : List Char) (ms : List (String × Value)) (rest : List Char),
    parseMembers fuel cs = some (ms, rest) → ∀ m ∈ ms, m.2.Normal
  | 0, _, _, _, h => nomatch h
  | fuel + 1, cs, ms, rest, h => by
    rw [parseMembers] at h
    split at h
    · obtain ⟨⟨k, ks⟩, -, h⟩ := Option.bind_eq_some_iff.mp h
      dsimp only at h
      split at h
      · obtain ⟨ds, -, h⟩ := Option.bind_eq_some_iff.mp h
        obtain ⟨⟨v, cs'⟩, hp, h⟩ := Option.bind_eq_some_iff.mp h
        have hv := parseValue_normal fuel ds v cs' hp
        dsimp only at h
        split at h
        · obtain ⟨⟨ns, es⟩, hq, h⟩ := Option.bind_eq_some_iff.mp h
          obtain ⟨rfl, -⟩ := Prod.mk.inj (Option.some.inj h)
          exact List.forall_mem_cons.mpr ⟨hv, parseMembers_normal fuel _ ns es hq⟩
        · obtain ⟨rfl, -⟩ := Prod.mk.inj (Option.some.inj h)
          exact List.forall_mem_singleton.mpr hv
        · exact nomatch h
      · exact nomatch h
    · exact nomatch h

end

theorem codec_faithful : codec.Faithful where
  toExact := codec_exact
  fromStr_normal text v h := by
    have h' : fromStr text = some v := h
    unfold fromStr at h'
    split at h'
    · rename_i w cs hparse
      split_ifs at h'
      obtain rfl := Option.some.inj h'
      exact parseValue_normal _ _ _ _ hparse
    · exact nomatch h'

end Text

end Prelay.Json
