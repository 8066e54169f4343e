import Prelay.Str

namespace Prelay.Str

theorem utf8_eq_flatMap (s : String) : utf8 s = s.toList.flatMap String.utf8EncodeChar := by
  obtain ⟨cs, rfl⟩ : ∃ cs, s = String.ofList cs := ⟨s.toList, by simp⟩
  simp [utf8, List.utf8Encode]

theorem ascii_mem_encode {c : Char} {b : UInt8} (hb : b < 128) (h : b ∈ String.utf8EncodeChar c) :
    c.toNat = b.toNat := by
  have hb' : b.toNat < 128 := hb
  have hbyte : ∀ n : ℕ, n < 256 → b = UInt8.ofNat n → b.toNat = n := by
    intro n hn heq
    rw [heq]
    simp [Nat.mod_eq_of_lt hn]
  unfold String.utf8EncodeChar at h
  simp only at h
  split_ifs at h with h1 h2 h3 <;> simp only [List.mem_cons, List.not_mem_nil, or_false] at h
  · exact (hbyte _ (by omega) h).symm
  · rcases h with h | h <;> have := hbyte _ (by omega) h <;> omega
  · rcases h with h | h | h <;> have := hbyte _ (by omega) h <;> omega
  · rcases h with h | h | h | h <;> have := hbyte _ (by omega) h <;> omega

theorem ascii_notMem_utf8 {s : String} {b : UInt8} (hb : b < 128) (h : ∀ c ∈ s.toList, c.toNat ≠ b.toNat) :
    b ∉ utf8 s := by
  rw [utf8_eq_flatMap, List.mem_flatMap]
  rintro ⟨c, hc, hmem⟩
  exact h c hc (ascii_mem_encode hb hmem)

theorem newline_notMem_utf8 {s : String} (h : '\n' ∉ s.toList) : 10 ∉ utf8 s := by
  apply ascii_notMem_utf8 (by decide)
  intro c hc hten
  apply h
  have hnewline : c = '\n' := by
    apply Char.ext
    apply UInt32.toNat_inj.mp
    exact hten
  exact hnewline ▸ hc

theorem utf8_prefix {s t : String} (h : utf8 s <+: utf8 t) : s.toList <+: t.toList := by
  obtain ⟨rest, hrest⟩ := h
  apply List.isPrefix_of_utf8Encode_append_eq_utf8Encode rest.toByteArray
  apply ByteArray.ext
  apply Array.toList_inj.mp
  simpa [List.utf8Encode, ByteArray.data_append, ← utf8_eq_flatMap] using hrest

end Prelay.Str
