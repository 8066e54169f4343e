import Mathlib.Data.List.Forall2

namespace Prelay

def okOr {ε α : Type} (value : Option α) (error : ε) : Except ε α := value.elim (.error error) .ok

section fallible

variable {ε ε' α β : Type} {x : Except ε α}

@[simp]
theorem okOr_some (a : α) (error : ε) : okOr (some a) error = .ok a := rfl

theorem okOr_ok {value : Option α} {error : ε} {a : α} (h : okOr value error = .ok a) : value = some a := by
  cases value with
  | none => exact nomatch h
  | some b => exact congrArg some (Except.ok.inj h)

theorem bind_ok {f : α → Except ε β} {b : β} (h : (x >>= f) = .ok b) : ∃ a, x = .ok a ∧ f a = .ok b := by
  cases x with
  | error e => exact nomatch h
  | ok a => exact ⟨a, rfl, h⟩

theorem bind_ok_iff {f : α → Except ε β} {b : β} : (x >>= f) = .ok b ↔ ∃ a, x = .ok a ∧ f a = .ok b := by
  constructor
  · exact bind_ok
  · rintro ⟨a, rfl, h⟩
    exact h

theorem map_ok {f : α → β} {b : β} (h : x.map f = .ok b) : ∃ a, x = .ok a ∧ f a = b := by
  cases x with
  | error e => exact nomatch h
  | ok a => exact ⟨a, rfl, Except.ok.inj h⟩

theorem mapError_ok {f : ε → ε'} {a : α} (h : x.mapError f = .ok a) : x = .ok a := by
  cases x with
  | error e => exact nomatch h
  | ok b => rw [Except.ok.inj h]

theorem toOption_map (f : α → β) (x : Except ε α) : (x.map f).toOption = x.toOption.map f := by
  cases x with
  | error e => rfl
  | ok a => rfl

theorem toOption_some {a : α} (h : a ∈ x.toOption.toList) : x = .ok a := by
  cases x with
  | error e => exact nomatch h
  | ok b => rw [List.mem_singleton.mp h]

theorem mapM_ok {f : α → Except ε β} {as : List α} {bs : List β} :
    as.mapM f = .ok bs ↔ List.Forall₂ (fun a b => f a = .ok b) as bs := by
  induction as generalizing bs with
  | nil =>
    rw [List.mapM_nil, List.forall₂_nil_left_iff]
    constructor
    · intro h
      exact (Except.ok.inj h).symm
    · rintro rfl
      rfl
  | cons a as ih =>
    rw [List.mapM_cons, List.forall₂_cons_left_iff]
    constructor
    · intro h
      obtain ⟨b, hb, h⟩ := bind_ok h
      obtain ⟨bs', hbs, h⟩ := bind_ok h
      exact ⟨b, bs', hb, ih.mp hbs, (Except.ok.inj h).symm⟩
    · rintro ⟨b, bs', hb, hbs, rfl⟩
      rw [hb, ih.mpr hbs]
      rfl

theorem mapM_eq_map {f : α → Except ε β} {g : α → β} {as : List α} (h : ∀ a ∈ as, f a = .ok (g a)) :
    as.mapM f = .ok (as.map g) := by
  induction as with
  | nil => rfl
  | cons a as ih =>
    rw [List.forall_mem_cons] at h
    rw [List.mapM_cons, h.1, ih h.2]
    rfl

theorem eq_map_of_mapM {f : α → Except ε β} {g : α → β} (hf : ∀ a b, f a = .ok b → b = g a) {as : List α} {bs : List β}
    (h : as.mapM f = .ok bs) : bs = as.map g := by
  have hall := mapM_ok.mp h
  clear h
  induction hall with
  | nil => rfl
  | cons hhead _ ih => rw [hf _ _ hhead, ih, List.map_cons]

theorem mapM_mem {f : α → Except ε β} {as : List α} {bs : List β} (h : as.mapM f = .ok bs) {b : β} (hb : b ∈ bs) :
    ∃ a ∈ as, f a = .ok b := by
  have hall := mapM_ok.mp h
  clear h
  induction hall with
  | nil => exact nomatch hb
  | cons hhead _ ih =>
    cases List.mem_cons.mp hb with
    | inl heq => exact ⟨_, List.mem_cons_self, heq ▸ hhead⟩
    | inr htail =>
      obtain ⟨a, ha, hab⟩ := ih htail
      exact ⟨a, List.mem_cons_of_mem _ ha, hab⟩

theorem foldlM_steps {step : β → α → Except ε β} {as : List α} {acc result : β}
    (h : as.foldlM step acc = .ok result) : ∀ a ∈ as, ∃ before after, step before a = .ok after := by
  induction as generalizing acc with
  | nil => exact fun a ha => absurd ha List.not_mem_nil
  | cons first as ih =>
    rw [List.foldlM_cons] at h
    obtain ⟨next, hnext, h⟩ := bind_ok h
    exact List.forall_mem_cons.mpr ⟨⟨acc, next, hnext⟩, ih h⟩

end fallible

end Prelay
