import Mathlib.Data.List.Basic
import Mathlib.Data.Option.Basic

namespace Locks

inductive Place where
  | away
  | waiting (lock : ℕ)
  | inside (lock : ℕ)
  deriving DecidableEq

def Place.lock : Place → Option ℕ
  | .away => none
  | .waiting lock | .inside lock => some lock

/-- The entry of the map; it does not keep its lock alive. -/
structure Registry where
  entry : Option ℕ := none
  created : ℕ := 0

def strong (places : List Place) (lock : ℕ) : Bool := places.any (fun place => place.lock = some lock)

def isFree (places : List Place) (lock : ℕ) : Bool := !places.contains (.inside lock)

namespace Registry

def retain (r : Registry) (places : List Place) : Registry := { r with entry := r.entry.filter (strong places) }

def lockFor (r : Registry) (places : List Place) : ℕ × Registry :=
  match (r.retain places).entry with
  | some lock => (lock, r.retain places)
  | none => (r.created, ⟨some r.created, r.created + 1⟩)

end Registry

/-- All parties that know a lock know the one of the entry, and at most one of them is inside. -/
structure Guarded (r : Registry) (places : List Place) : Prop where
  shared : ∀ place ∈ places, ∀ lock, place.lock = some lock → r.entry = some lock
  alone : ∀ i j a b : ℕ, places[i]? = some (Place.inside a) → places[j]? = some (Place.inside b) → i = j

section guarded

variable {r : Registry} {places : List Place} {i lock : ℕ}

theorem Guarded.initial (r : Registry) : Guarded r [] := ⟨nofun, nofun⟩

theorem strong_of_mem {place : Place} (hmem : place ∈ places) (hlock : place.lock = some lock) :
    strong places lock = true := List.any_eq_true.mpr ⟨place, hmem, decide_eq_true hlock⟩

theorem Guarded.retained (h : Guarded r places) {place : Place} (hmem : place ∈ places)
    (hlock : place.lock = some lock) : (r.retain places).entry = some lock := by
  have hentry := h.shared place hmem lock hlock
  rw [Registry.retain, hentry]
  exact Option.filter_some_pos (strong_of_mem hmem hlock)

theorem Guarded.retain (h : Guarded r places) : Guarded (r.retain places) places :=
  ⟨fun _ hmem _ hlock => h.retained hmem hlock, h.alone⟩

theorem Guarded.lockFor (h : Guarded r places) :
    Guarded (r.lockFor places).2 (places ++ [.waiting (r.lockFor places).1]) := by
  have hentry : (r.lockFor places).2.entry = some (r.lockFor places).1 := by
    unfold Registry.lockFor
    split
    · next lock hlock => exact hlock
    · rfl
  have hkept : ∀ place ∈ places, ∀ lock, place.lock = some lock → (r.lockFor places).1 = lock := by
    intro place hmem lock hlock
    have hretained := h.retained hmem hlock
    unfold Registry.lockFor
    rw [hretained]
  constructor
  · intro place hplace lock hlock
    rcases List.mem_append.mp hplace with hold | hnew
    · rw [hentry, hkept place hold lock hlock]
    · rw [List.mem_singleton.mp hnew] at hlock
      exact hentry.trans hlock
  · intro i j a b hi hj
    have hbefore : ∀ k c : ℕ, (places ++ [Place.waiting (r.lockFor places).1])[k]? = some (Place.inside c) →
        places[k]? = some (Place.inside c) := by
      intro k c hk
      by_cases hlt : k < places.length
      · rw [List.getElem?_append_left hlt] at hk
        exact hk
      · rw [List.getElem?_append_right (by omega), List.getElem?_singleton] at hk
        split_ifs at hk
        exact nomatch Option.some.inj hk
    exact h.alone i j a b (hbefore i a hi) (hbefore j b hj)

theorem Guarded.enter (h : Guarded r places) (hi : places[i]? = some (.waiting lock))
    (hfree : isFree places lock = true) : Guarded r (places.set i (.inside lock)) := by
  have hentry := h.shared _ (List.mem_of_getElem? hi) lock rfl
  have houtside : ∀ (j b : ℕ), places[j]? ≠ some (Place.inside b) := by
    intro j b hj
    have hsame := h.shared _ (List.mem_of_getElem? hj) b rfl
    obtain rfl := Option.some.inj (hentry.symm.trans hsame)
    rw [isFree, List.contains_iff_mem.mpr (List.mem_of_getElem? hj)] at hfree
    exact nomatch hfree
  constructor
  · intro place hplace lock' hlock
    rcases List.mem_or_eq_of_mem_set hplace with hold | rfl
    · exact h.shared place hold lock' hlock
    · exact hentry.trans hlock
  · have honly : ∀ j b : ℕ, (places.set i (.inside lock))[j]? = some (Place.inside b) → i = j := by
      intro j b hj
      by_contra hne
      rw [List.getElem?_set_ne hne] at hj
      exact houtside j b hj
    intro j k a b hj hk
    exact (honly j a hj).symm.trans (honly k b hk)

theorem Guarded.leave (h : Guarded r places) (i : ℕ) : Guarded r (places.set i .away) := by
  constructor
  · intro place hplace lock hlock
    rcases List.mem_or_eq_of_mem_set hplace with hold | rfl
    · exact h.shared place hold lock hlock
    · exact nomatch hlock
  · have hkept : ∀ j b : ℕ, (places.set i .away)[j]? = some (Place.inside b) → places[j]? = some (Place.inside b) := by
      intro j b hj
      rw [List.getElem?_set] at hj
      split_ifs at hj with heq hlt
      · exact nomatch Option.some.inj hj
      · exact hj
    intro j k a b hj hk
    exact h.alone j k a b (hkept j a hj) (hkept k b hk)

end guarded

end Locks
