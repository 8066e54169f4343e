import Mathlib.Data.List.Perm.Basic
import Std.Data.ExtTreeMap.Lemmas

namespace KeyedLoad

structure Container (κ β γ : Type) [DecidableEq κ] where
  contains : γ → κ → Bool
  insert : γ → κ → β → γ
  contains_insert : ∀ entries key value other,
    contains (insert entries key value) other = (decide (key = other) || contains entries other)

variable {κ ρ α β γ ε : Type} [DecidableEq κ]

section load

variable (container : Container κ β γ) (before : ρ → Except ε (κ × α)) (after : κ → α → Except ε β)
  (duplicate : κ → ε)

def insertEntry (entries : γ) (raw : ρ) : Except ε γ := do
  let (key, partly) ← before raw
  if container.contains entries key then .error (duplicate key)
  else
    let value ← after key partly
    .ok (container.insert entries key value)

def load (start : γ) (raws : List ρ) : Except ε γ :=
  raws.foldlM (insertEntry container before after duplicate) start

def insertAll (start : γ) (entries : List (κ × β)) : γ :=
  entries.foldl (fun found entry => container.insert found entry.1 entry.2) start

def Reads (raw : ρ) (entry : κ × β) : Prop :=
  ∃ partly, before raw = .ok (entry.1, partly) ∧ after entry.1 partly = .ok entry.2

variable {container before after duplicate}

theorem insertEntry_ok {start next : γ} {raw : ρ} :
    insertEntry container before after duplicate start raw = .ok next ↔
      ∃ entry, Reads before after raw entry ∧ container.contains start entry.1 = false ∧
        next = container.insert start entry.1 entry.2 := by
  unfold insertEntry Reads
  cases hbefore : before raw with
  | error e =>
    constructor
    · intro h
      cases h
    · rintro ⟨_, ⟨_, h, _⟩, _⟩
      cases h
  | ok found =>
    obtain ⟨key, partly⟩ := found
    change (if container.contains start key = true then _ else _) = _ ↔ _
    split_ifs with hkey
    · constructor
      · intro h
        cases h
      · rintro ⟨entry, ⟨_, h, _⟩, hnew, _⟩
        rw [(Prod.mk.inj (Except.ok.inj h)).1, hnew] at hkey
        cases hkey
    · cases hafter : after key partly with
      | error e =>
        constructor
        · intro h
          cases h
        · rintro ⟨entry, ⟨_, h, hvalue⟩, _⟩
          obtain ⟨rfl, rfl⟩ := Prod.mk.inj (Except.ok.inj h)
          rw [hafter] at hvalue
          cases hvalue
      | ok value =>
        constructor
        · intro h
          exact ⟨(key, value), ⟨partly, rfl, hafter⟩, Bool.eq_false_iff.mpr hkey, (Except.ok.inj h).symm⟩
        · rintro ⟨entry, ⟨_, h, hvalue⟩, _, rfl⟩
          obtain ⟨rfl, rfl⟩ := Prod.mk.inj (Except.ok.inj h)
          rw [hafter] at hvalue
          rw [Except.ok.inj hvalue]
          rfl

theorem load_ok {raws : List ρ} {start loaded : γ} :
    load container before after duplicate start raws = .ok loaded ↔
      ∃ entries, List.Forall₂ (Reads before after) raws entries ∧ (entries.map Prod.fst).Nodup ∧
        (∀ entry ∈ entries, container.contains start entry.1 = false) ∧ loaded = insertAll container start entries := by
  unfold load
  induction raws generalizing start with
  | nil =>
    constructor
    · intro h
      exact ⟨[], .nil, List.nodup_nil, by simp, (Except.ok.inj h).symm⟩
    · rintro ⟨entries, hreads, -, -, rfl⟩
      cases hreads
      rfl
  | cons raw raws ih =>
    rw [List.foldlM_cons]
    constructor
    · intro h
      cases hinsert : insertEntry container before after duplicate start raw with
      | error e =>
        rw [hinsert] at h
        cases h
      | ok next =>
        rw [hinsert] at h
        obtain ⟨entry, hentry, hnew, rfl⟩ := insertEntry_ok.mp hinsert
        obtain ⟨entries, hreads, hnodup, hfresh, rfl⟩ := ih.mp h
        refine ⟨entry :: entries, .cons hentry hreads, ?_, ?_, rfl⟩
        · rw [List.map_cons, List.nodup_cons]
          refine ⟨?_, hnodup⟩
          intro hmem
          obtain ⟨other, hother, hkey⟩ := List.mem_map.mp hmem
          have hcontains := hfresh other hother
          rw [container.contains_insert, hkey] at hcontains
          simp at hcontains
        · intro other hother
          rcases List.mem_cons.mp hother with rfl | hother
          · exact hnew
          · have hcontains := hfresh other hother
            rw [container.contains_insert, Bool.or_eq_false_iff] at hcontains
            exact hcontains.2
    · rintro ⟨entries, hreads, hnodup, hfresh, rfl⟩
      cases hreads with
      | @cons _ entry _ entries hentry hreads =>
        rw [List.map_cons, List.nodup_cons] at hnodup
        have hinsert : insertEntry container before after duplicate start raw =
            .ok (container.insert start entry.1 entry.2) :=
          insertEntry_ok.mpr ⟨entry, hentry, hfresh entry List.mem_cons_self, rfl⟩
        rw [hinsert]
        refine ih.mpr ⟨entries, hreads, hnodup.2, ?_, rfl⟩
        intro other hother
        rw [container.contains_insert, hfresh other (List.mem_cons_of_mem _ hother), Bool.or_false,
          decide_eq_false_iff_not]
        intro hkey
        exact hnodup.1 (List.mem_map.mpr ⟨other, hother, hkey.symm⟩)

end load

section list

def inOrder (κ β : Type) [DecidableEq κ] : Container κ β (List (κ × β)) where
  contains entries key := entries.any (fun entry => entry.1 = key)
  insert entries key value := entries ++ [(key, value)]
  contains_insert entries key value other := by
    rw [List.any_append, Bool.or_comm]
    simp

theorem insertAll_inOrder (start entries : List (κ × β)) :
    insertAll (inOrder κ β) start entries = start ++ entries := by
  unfold insertAll
  induction entries generalizing start with
  | nil => rw [List.foldl_nil, List.append_nil]
  | cons entry entries ih =>
    rw [List.foldl_cons, ih]
    simp [inOrder]

theorem load_inOrder {before : ρ → Except ε (κ × α)} {after : κ → α → Except ε β} {duplicate : κ → ε} {raws : List ρ}
    {entries : List (κ × β)} :
    load (inOrder κ β) before after duplicate [] raws = .ok entries ↔
      List.Forall₂ (Reads before after) raws entries ∧ (entries.map Prod.fst).Nodup := by
  rw [load_ok]
  constructor
  · rintro ⟨found, hreads, hnodup, -, rfl⟩
    rw [insertAll_inOrder]
    exact ⟨hreads, hnodup⟩
  · rintro ⟨hreads, hnodup⟩
    exact ⟨entries, hreads, hnodup, fun _ _ => rfl, (insertAll_inOrder [] entries).symm⟩

end list

section map

open Std

def byKey (β : Type) : Container String β (ExtTreeMap String β) where
  contains entries key := entries.contains key
  insert entries key value := entries.insert key value
  contains_insert entries key value other := by
    rw [ExtTreeMap.contains_insert]
    congr 1
    rw [Bool.eq_iff_iff, beq_iff_eq, decide_eq_true_iff]
    exact ⟨LawfulEqOrd.eq_of_compare, fun h => h ▸ ReflCmp.compare_self⟩

def Holds (entries : List (String × β)) (loaded : ExtTreeMap String β) : Prop :=
  ∀ key value, loaded[key]? = some value ↔ (key, value) ∈ entries

theorem getElem?_insertAll {entries : List (String × β)} {start : ExtTreeMap String β}
    (hnodup : (entries.map Prod.fst).Nodup) (hfresh : ∀ entry ∈ entries, entry.1 ∉ start) (key : String) (value : β) :
    (insertAll (byKey β) start entries)[key]? = some value ↔ start[key]? = some value ∨ (key, value) ∈ entries := by
  unfold insertAll byKey
  induction entries generalizing start with
  | nil => simp
  | cons entry entries ih =>
    rw [List.map_cons, List.nodup_cons] at hnodup
    rw [List.foldl_cons, ih hnodup.2, ExtTreeMap.getElem?_insert]
    · have hentry := hfresh entry List.mem_cons_self
      by_cases hkey : entry.1 = key
      · subst hkey
        have hnone : start[entry.1]? = none := ExtTreeMap.getElem?_eq_none hentry
        simp only [ReflCmp.compare_self, ↓reduceIte, hnone, Option.some.injEq, List.mem_cons, Prod.ext_iff, true_and,
          reduceCtorEq, false_or, eq_comm]
      · have hcompare : ¬compare entry.1 key = .eq := fun h => hkey (LawfulEqOrd.eq_of_compare h)
        rw [if_neg hcompare, List.mem_cons, Prod.ext_iff]
        simp [Ne.symm hkey]
    · intro other hother hmem
      rcases ExtTreeMap.mem_insert.mp hmem with hkey | hmem
      · exact hnodup.1 (List.mem_map.mpr ⟨other, hother, (LawfulEqOrd.eq_of_compare hkey).symm⟩)
      · exact hfresh other (List.mem_cons_of_mem _ hother) hmem

theorem holds_insertAll {entries : List (String × β)} (hnodup : (entries.map Prod.fst).Nodup) :
    Holds entries (insertAll (byKey β) ∅ entries) := by
  intro key value
  rw [getElem?_insertAll hnodup (fun _ _ => ExtTreeMap.not_mem_empty)]
  simp

theorem Holds.unique {entries : List (String × β)} {loaded other : ExtTreeMap String β} (h : Holds entries loaded)
    (h' : Holds entries other) : loaded = other := by
  apply ExtTreeMap.ext_getElem?
  intro key
  apply Option.ext
  intro value
  rw [h, h']

/-- A map is loaded with one entry for each of the raw ones, no two of them under one key. -/
def Loads (reads : ρ → String × β → Prop) (raws : List ρ) (loaded : ExtTreeMap String β) : Prop :=
  ∃ entries, List.Forall₂ reads raws entries ∧ (entries.map Prod.fst).Nodup ∧ Holds entries loaded

theorem load_byKey {before : ρ → Except ε (String × α)} {after : String → α → Except ε β} {duplicate : String → ε}
    {raws : List ρ} {loaded : ExtTreeMap String β} :
    load (byKey β) before after duplicate ∅ raws = .ok loaded ↔ Loads (Reads before after) raws loaded := by
  rw [load_ok]
  constructor
  · rintro ⟨entries, hreads, hnodup, -, rfl⟩
    exact ⟨entries, hreads, hnodup, holds_insertAll hnodup⟩
  · rintro ⟨entries, hreads, hnodup, hholds⟩
    refine ⟨entries, hreads, hnodup, ?_, hholds.unique (holds_insertAll hnodup)⟩
    intro entry _
    have hempty : entry.1 ∉ (∅ : ExtTreeMap String β) := ExtTreeMap.not_mem_empty
    exact Bool.eq_false_iff.mpr (fun h => hempty (ExtTreeMap.contains_iff_mem.mp h))

variable {reads : ρ → String × β → Prop} {raws raws' : List ρ} {loaded : ExtTreeMap String β}

theorem Loads.perm (h : Loads reads raws loaded) (hperm : raws.Perm raws') : Loads reads raws' loaded := by
  obtain ⟨entries, hreads, hnodup, hholds⟩ := h
  obtain ⟨entries', hreads', hperm'⟩ := List.perm_comp_forall₂ hperm.symm hreads
  refine ⟨entries', hreads', (hperm'.map _).nodup_iff.mpr hnodup, ?_⟩
  intro key value
  rw [hholds, hperm'.mem_iff]

theorem Loads.imp {reads' : ρ → String × β → Prop} (h : Loads reads raws loaded)
    (himp : ∀ raw entry, reads raw entry → reads' raw entry) : Loads reads' raws loaded := by
  obtain ⟨entries, hreads, hnodup, hholds⟩ := h
  exact ⟨entries, hreads.imp himp, hnodup, hholds⟩

theorem exists_of_forall₂ {δ σ : Type} {r : δ → σ → Prop} {ds : List δ} {ss : List σ} (h : List.Forall₂ r ds ss)
    {found : σ} (hmem : found ∈ ss) : ∃ d ∈ ds, r d found := by
  induction h with
  | nil => cases hmem
  | @cons d _ ds _ hd _ ih =>
    rcases List.mem_cons.mp hmem with rfl | hmem
    · exact ⟨d, List.mem_cons_self, hd⟩
    · obtain ⟨other, hother, hr⟩ := ih hmem
      exact ⟨other, List.mem_cons_of_mem _ hother, hr⟩

theorem Loads.entry (h : Loads reads raws loaded) {key : String} {value : β} (hget : loaded[key]? = some value) :
    ∃ raw ∈ raws, reads raw (key, value) := by
  obtain ⟨entries, hreads, -, hholds⟩ := h
  exact exists_of_forall₂ hreads ((hholds key value).mp hget)

section keys

variable {key : ρ → String}

theorem map_fst_of_reads (hkey : ∀ raw entry, reads raw entry → key raw = entry.1) {entries : List (String × β)}
    (h : List.Forall₂ reads raws entries) : raws.map key = entries.map Prod.fst := by
  have heq : List.Forall₂ (fun raw entry => key raw = entry.1) raws entries := h.imp hkey
  rw [← List.forall₂_map_left_iff (R := fun found entry => found = Prod.fst entry), ← List.forall₂_map_right_iff,
    List.forall₂_eq_eq_eq] at heq
  exact heq

theorem exists_loads (hkey : ∀ raw entry, reads raw entry → key raw = entry.1) :
    (∃ loaded, Loads reads raws loaded) ↔ (∀ raw ∈ raws, ∃ entry, reads raw entry) ∧ (raws.map key).Nodup := by
  constructor
  · rintro ⟨loaded, entries, hreads, hnodup, -⟩
    rw [map_fst_of_reads hkey hreads]
    refine ⟨?_, hnodup⟩
    intro raw hraw
    obtain ⟨entry, -, hread⟩ := exists_of_forall₂ hreads.flip hraw
    exact ⟨entry, hread⟩
  · rintro ⟨hreads, hnodup⟩
    have hentries : ∃ entries, List.Forall₂ reads raws entries := by
      clear hnodup
      induction raws with
      | nil => exact ⟨[], .nil⟩
      | cons raw raws ih =>
        obtain ⟨entry, hentry⟩ := hreads raw List.mem_cons_self
        obtain ⟨entries, hrest⟩ := ih (fun raw hraw => hreads raw (List.mem_cons_of_mem _ hraw))
        exact ⟨entry :: entries, .cons hentry hrest⟩
    obtain ⟨entries, hentries⟩ := hentries
    rw [map_fst_of_reads hkey hentries] at hnodup
    exact ⟨_, entries, hentries, hnodup, holds_insertAll hnodup⟩

theorem Loads.contains (h : Loads reads raws loaded) (hkey : ∀ raw entry, reads raw entry → key raw = entry.1)
    (id : String) : loaded.contains id = decide (id ∈ raws.map key) := by
  obtain ⟨entries, hreads, -, hholds⟩ := h
  rw [map_fst_of_reads hkey hreads, ExtTreeMap.contains_eq_isSome_getElem?, Bool.eq_iff_iff, decide_eq_true_iff,
    Option.isSome_iff_exists, List.mem_map]
  constructor
  · rintro ⟨value, hget⟩
    exact ⟨(id, value), (hholds id value).mp hget, rfl⟩
  · rintro ⟨⟨_, value⟩, hmem, rfl⟩
    exact ⟨value, (hholds _ value).mpr hmem⟩

end keys

end map

end KeyedLoad
