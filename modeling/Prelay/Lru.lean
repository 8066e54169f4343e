import Mathlib.Algebra.GroupWithZero.Nat
import Mathlib.Data.List.Find
import Mathlib.Data.List.Induction
import Mathlib.Data.List.Nodup

namespace Lru

section Tables

variable {K V W : Type} [DecidableEq K]

def keys (entries : List (K × V)) : List K := entries.map Prod.fst

def find (entries : List (K × V)) (key : K) : Option V :=
  (entries.find? (fun entry => entry.1 = key)).map Prod.snd

def drop (entries : List (K × V)) (key : K) : List (K × V) :=
  entries.filter (fun entry => entry.1 ≠ key)

def put (entries : List (K × V)) (key : K) (value : V) : List (K × V) :=
  drop entries key ++ [(key, value)]

@[simp] theorem mem_drop {entries : List (K × V)} {key : K} {entry : K × V} :
    entry ∈ drop entries key ↔ entry ∈ entries ∧ entry.1 ≠ key := by
  simp [drop]

theorem keys_drop (entries : List (K × V)) (key : K) :
    keys (drop entries key) = (keys entries).filter (· ≠ key) := by
  simp only [keys, drop, List.filter_map]
  rfl

theorem keys_put (entries : List (K × V)) (key : K) (value : V) :
    keys (put entries key value) = (keys entries).filter (· ≠ key) ++ [key] := by
  rw [put, keys, List.map_append, ← keys, keys_drop]
  rfl

theorem find_eq_none_iff {entries : List (K × V)} {key : K} :
    find entries key = none ↔ key ∉ keys entries := by
  simp only [find, keys, Option.map_eq_none_iff, List.find?_eq_none, decide_eq_true_eq, List.mem_map, not_exists,
    not_and]

theorem mem_of_find {entries : List (K × V)} {key : K} {value : V} (h : find entries key = some value) :
    (key, value) ∈ entries := by
  obtain ⟨entry, hfind, rfl⟩ := Option.map_eq_some_iff.mp h
  have hkey : entry.1 = key := by simpa using List.find?_some hfind
  exact hkey ▸ List.mem_of_find?_eq_some hfind

theorem find_eq_some_iff {entries : List (K × V)} (hnodup : (keys entries).Nodup) {key : K} {value : V} :
    find entries key = some value ↔ (key, value) ∈ entries := by
  refine ⟨mem_of_find, fun hmem => ?_⟩
  cases hfind : find entries key with
  | none => exact absurd (List.mem_map_of_mem hmem) (find_eq_none_iff.mp hfind)
  | some other =>
    have hsame := List.inj_on_of_nodup_map hnodup (mem_of_find hfind) hmem rfl
    exact congrArg some (Prod.mk.inj hsame).2

theorem find_map (f : V → W) (entries : List (K × V)) (key : K) :
    find (entries.map (fun entry => (entry.1, f entry.2))) key = (find entries key).map f := by
  induction entries with
  | nil => rfl
  | cons entry rest ih =>
    simp only [find, List.map_cons, List.find?_cons] at ih ⊢
    by_cases hkey : entry.1 = key
    · simp [hkey]
    · simpa [hkey] using ih

theorem drop_map (f : V → W) (entries : List (K × V)) (key : K) :
    drop (entries.map (fun entry => (entry.1, f entry.2))) key =
      (drop entries key).map (fun entry => (entry.1, f entry.2)) := by
  simp only [drop, List.filter_map]
  rfl

theorem put_map (f : V → W) (entries : List (K × V)) (key : K) (value : V) :
    put (entries.map (fun entry => (entry.1, f entry.2))) key (f value) =
      (put entries key value).map (fun entry => (entry.1, f entry.2)) := by
  rw [put, put, drop_map, List.map_append]
  rfl

theorem nodup_drop {entries : List (K × V)} (h : (keys entries).Nodup) (key : K) :
    (keys (drop entries key)).Nodup := by
  rw [keys_drop]
  exact h.filter _

theorem nodup_put {entries : List (K × V)} (h : (keys entries).Nodup) (key : K) (value : V) :
    (keys (put entries key value)).Nodup := by
  rw [keys_put]
  apply List.Nodup.append (h.filter _) (List.nodup_singleton key)
  simp

omit [DecidableEq K] in
theorem nodup_filter {entries : List (K × V)} (h : (keys entries).Nodup) (p : K × V → Bool) :
    (keys (entries.filter p)).Nodup :=
  h.sublist (List.filter_sublist.map Prod.fst)

theorem drop_eq_tail {first : K × V} {rest : List (K × V)} (h : (keys (first :: rest)).Nodup) :
    drop (first :: rest) first.1 = rest := by
  have hfirst : first.1 ∉ keys rest := (List.nodup_cons.mp h).1
  rw [drop, List.filter_cons_of_neg (by simp), List.filter_eq_self]
  intro entry hentry
  have hne : entry.1 ≠ first.1 := fun heq => hfirst (heq ▸ List.mem_map_of_mem hentry)
  simpa using hne

theorem find_drop (entries : List (K × V)) (key other : K) :
    find (drop entries key) other = if other = key then none else find entries other := by
  rw [find, drop, List.find?_filter, find]
  split
  · simp_all
  · next hne =>
    congr 2
    funext entry
    by_cases hkey : entry.1 = other <;> simp [hkey, hne]

theorem find_put (entries : List (K × V)) (key : K) (value : V) (other : K) :
    find (put entries key value) other = if other = key then some value else find entries other := by
  rw [put, find, List.find?_append, Option.map_or, ← find, find_drop]
  split
  · next heq => simp [heq]
  · next hne => simp [Ne.symm hne]

theorem length_drop_le (entries : List (K × V)) (key : K) : (drop entries key).length ≤ entries.length :=
  List.length_filter_le _ _

theorem length_drop_lt {entries : List (K × V)} {key : K} (h : key ∈ keys entries) :
    (drop entries key).length < entries.length := by
  obtain ⟨entry, hentry, rfl⟩ := List.mem_map.mp h
  exact List.length_filter_lt_length_iff_exists.mpr ⟨entry, hentry, by simp⟩

end Tables

structure Table (K V : Type) where
  entries : List (K × V)
  nodup : (keys entries).Nodup

namespace Table

variable {K V : Type} [DecidableEq K]

def empty : Table K V := ⟨[], List.nodup_nil⟩

def get (table : Table K V) (key : K) : Option V := find table.entries key

def insert (table : Table K V) (key : K) (value : V) : Table K V :=
  ⟨put table.entries key value, nodup_put table.nodup key value⟩

def remove (table : Table K V) (key : K) : Table K V := ⟨drop table.entries key, nodup_drop table.nodup key⟩

def retain (table : Table K V) (p : K × V → Bool) : Table K V :=
  ⟨table.entries.filter p, nodup_filter table.nodup p⟩

def len (table : Table K V) : ℕ := table.entries.length

end Table

inductive Op (K V : Type)
  | get (key : K)
  | insert (key : K) (value : V)
  | remove (gone : V → Bool)

section Steps

variable {K V : Type} [DecidableEq K]

def evict (capacity : ℕ) (entries : List (K × V)) (key : K) : List (K × V) :=
  if capacity ≤ entries.length ∧ key ∉ keys entries then entries.tail else entries

def step (capacity : ℕ) (entries : List (K × V)) : Op K V → List (K × V)
  | .get key =>
    match find entries key with
    | some value => put entries key value
    | none => entries
  | .insert key value => put (evict capacity entries key) key value
  | .remove gone => entries.filter (fun entry => !gone entry.2)

def answer (entries : List (K × V)) : Op K V → Option V
  | .get key => find entries key
  | .insert .. | .remove _ => none

theorem evict_sublist (capacity : ℕ) (entries : List (K × V)) (key : K) :
    (evict capacity entries key).Sublist entries := by
  unfold evict
  split
  · exact List.tail_sublist entries
  · exact List.Sublist.refl entries

theorem evict_map {W : Type} (f : V → W) (capacity : ℕ) (entries : List (K × V)) (key : K) :
    (evict capacity entries key).map (fun entry => (entry.1, f entry.2)) =
      evict capacity (entries.map (fun entry => (entry.1, f entry.2))) key := by
  have hkeys : keys (entries.map (fun entry => (entry.1, f entry.2))) = keys entries := by simp [keys]
  rw [evict, evict, hkeys, List.length_map, apply_ite (List.map _), List.map_tail]

theorem nodup_evict {entries : List (K × V)} (h : (keys entries).Nodup) (capacity : ℕ) (key : K) :
    (keys (evict capacity entries key)).Nodup :=
  h.sublist ((evict_sublist capacity entries key).map Prod.fst)

theorem nodup_step {entries : List (K × V)} (h : (keys entries).Nodup) (capacity : ℕ) (op : Op K V) :
    (keys (step capacity entries op)).Nodup := by
  cases op with
  | get key =>
    cases hfind : find entries key with
    | some value => simpa only [step, hfind] using nodup_put h key value
    | none => simpa only [step, hfind] using h
  | insert key value => exact nodup_put (nodup_evict h capacity key) key value
  | remove gone => exact nodup_filter h _

theorem length_put (entries : List (K × V)) (key : K) (value : V) :
    (put entries key value).length = (drop entries key).length + 1 := by
  rw [put, List.length_append, List.length_singleton]

theorem length_step {capacity : ℕ} (hroom : 0 < capacity) {entries : List (K × V)}
    (h : entries.length ≤ capacity) (op : Op K V) : (step capacity entries op).length ≤ capacity := by
  cases op with
  | get key =>
    cases hfind : find entries key with
    | some value =>
      have hkey : key ∈ keys entries := List.mem_map_of_mem (mem_of_find hfind)
      have hlt := length_drop_lt hkey
      simp only [step, hfind, length_put]
      omega
    | none => simpa only [step, hfind] using h
  | insert key value =>
    rw [step, length_put, evict]
    split
    · have hle := length_drop_le entries.tail key
      rw [List.length_tail] at hle
      omega
    · next hkept =>
      rcases not_and_or.mp hkept with hshort | hkey
      · have hle := length_drop_le entries key
        omega
      · have hlt := length_drop_lt (not_not.mp hkey)
        omega
  | remove gone => exact (List.length_filter_le _ _).trans h

end Steps

/-- A least-recently-used map: the key that was used longest ago comes first. -/
structure Cache (K V : Type) (capacity : ℕ) where
  entries : List (K × V)
  nodup : (keys entries).Nodup
  bounded : entries.length ≤ capacity

namespace Cache

variable {K V : Type} [DecidableEq K] {capacity : ℕ} [NeZero capacity]

def empty : Cache K V capacity := ⟨[], List.nodup_nil, Nat.zero_le capacity⟩

def step (cache : Cache K V capacity) (op : Op K V) : Cache K V capacity :=
  ⟨Lru.step capacity cache.entries op, nodup_step cache.nodup capacity op,
    length_step (Nat.pos_of_neZero capacity) cache.bounded op⟩

def run (cache : Cache K V capacity) (ops : List (Op K V)) : Cache K V capacity := ops.foldl step cache

def trace (cache : Cache K V capacity) : List (Op K V) → List (Op K V × Option V)
  | [] => []
  | op :: ops => (op, answer cache.entries op) :: (cache.step op).trace ops

theorem run_concat (cache : Cache K V capacity) (ops : List (Op K V)) (op : Op K V) :
    cache.run (ops ++ [op]) = (cache.run ops).step op := List.foldl_concat ..

theorem trace_concat (cache : Cache K V capacity) (ops : List (Op K V)) (op : Op K V) :
    cache.trace (ops ++ [op]) = cache.trace ops ++ [(op, answer (cache.run ops).entries op)] := by
  induction ops generalizing cache with
  | nil => rfl
  | cons first rest ih =>
    rw [List.cons_append, trace, ih (cache.step first)]
    rfl

end Cache

section History

variable {K V : Type} [DecidableEq K]

/-- The key that an answered call uses: a get that hits, or an insert. -/
def used : Op K V × Option V → Option K
  | (.get key, some _) => some key
  | (.get _, none) => none
  | (.insert key _, _) => some key
  | (.remove _, _) => none

def uses (trace : List (Op K V × Option V)) : List K := trace.filterMap used

omit [DecidableEq K] in
theorem uses_concat (trace : List (Op K V × Option V)) (call : Op K V × Option V) :
    uses (trace ++ [call]) = uses trace ++ (used call).toList := by
  rw [uses, List.filterMap_append, ← uses, List.filterMap_cons, List.filterMap_nil]
  cases used call <;> rfl

def Older (uses : List K) (key other : K) : Prop :=
  ∃ before since, uses = before ++ other :: since ∧ key ∉ since

def inserted (key : K) : Op K V → Option V
  | .insert other value => if other = key then some value else none
  | .get _ | .remove _ => none

def lastInserted (ops : List (Op K V)) (key : K) : Option V := ops.reverse.findSome? (inserted key)

theorem lastInserted_concat (ops : List (Op K V)) (op : Op K V) (key : K) :
    lastInserted (ops ++ [op]) key = (inserted key op).or (lastInserted ops key) := by
  rw [lastInserted, List.reverse_append, List.findSome?_append]
  simp [lastInserted]

omit [DecidableEq K] in
theorem Older.concat {uses : List K} {key other last : K} (h : Older uses key other) (hne : key ≠ last) :
    Older (uses ++ [last]) key other := by
  obtain ⟨before, since, rfl, hsince⟩ := h
  refine ⟨before, since ++ [last], by simp, ?_⟩
  simp [hsince, hne]

omit [DecidableEq K] in
theorem older_last (uses : List K) (key last : K) : Older (uses ++ [last]) key last :=
  ⟨uses, [], rfl, List.not_mem_nil⟩

structure Recent (uses : List K) (ops : List (Op K V)) (entries : List (K × V)) : Prop where
  ages : (keys entries).Pairwise (Older uses)
  values : ∀ entry ∈ entries, lastInserted ops entry.1 = some entry.2

theorem Recent.sublist {uses : List K} {ops : List (Op K V)} {entries kept : List (K × V)}
    (h : Recent uses ops entries) (hkept : kept.Sublist entries) : Recent uses ops kept :=
  ⟨h.ages.sublist (hkept.map Prod.fst), fun entry hentry => h.values entry (hkept.subset hentry)⟩

theorem Recent.unused {uses : List K} {ops : List (Op K V)} {entries : List (K × V)} (h : Recent uses ops entries)
    (op : Op K V) (hop : ∀ key, inserted key op = none) : Recent uses (ops ++ [op]) entries := by
  refine ⟨h.ages, fun entry hentry => ?_⟩
  rw [lastInserted_concat, hop, Option.none_or]
  exact h.values entry hentry

theorem Recent.put {uses : List K} {ops : List (Op K V)} {entries : List (K × V)} (h : Recent uses ops entries)
    (op : Op K V) (key : K) (value : V) (hop : ∀ other, other ≠ key → inserted other op = none)
    (hlast : lastInserted (ops ++ [op]) key = some value) :
    Recent (uses ++ [key]) (ops ++ [op]) (put entries key value) := by
  constructor
  · rw [keys_put, List.pairwise_append]
    refine ⟨?_, List.pairwise_singleton _ _, ?_⟩
    · apply (h.ages.filter _).imp_of_mem
      intro first second hfirst _ holder
      have hne : first ≠ key := by simpa using (List.mem_filter.mp hfirst).2
      exact holder.concat hne
    · intro first _ second hsecond
      rw [List.mem_singleton.mp hsecond]
      exact older_last uses first key
  · intro entry hentry
    rcases List.mem_append.mp hentry with hkept | hnew
    · obtain ⟨hmem, hne⟩ := mem_drop.mp hkept
      rw [lastInserted_concat, hop entry.1 hne, Option.none_or]
      exact h.values entry hmem
    · rw [List.mem_singleton.mp hnew]
      exact hlast

variable {capacity : ℕ} [NeZero capacity]

theorem Recent.step {uses : List K} {ops : List (Op K V)} {entries : List (K × V)} (h : Recent uses ops entries)
    (capacity : ℕ) (op : Op K V) :
    Recent (uses ++ (used (op, answer entries op)).toList) (ops ++ [op]) (step capacity entries op) := by
  cases op with
  | get key =>
    cases hfind : find entries key with
    | none =>
      simp only [answer, hfind, used, Option.toList_none, List.append_nil, Lru.step]
      exact h.unused _ (fun _ => rfl)
    | some value =>
      simp only [answer, hfind, used, Option.toList_some, Lru.step]
      apply h.put _ key value (fun _ _ => rfl)
      rw [lastInserted_concat]
      exact h.values (key, value) (mem_of_find hfind)
  | insert key value =>
    simp only [used, Option.toList_some, Lru.step]
    apply (h.sublist (evict_sublist capacity entries key)).put _ key value
    · intro other hne
      simp [inserted, Ne.symm hne]
    · rw [lastInserted_concat]
      simp [inserted]
  | remove gone =>
    simp only [used, Option.toList_none, List.append_nil, Lru.step]
    exact (h.sublist List.filter_sublist).unused _ (fun _ => rfl)

theorem recent_run (ops : List (Op K V)) :
    Recent (uses ((Cache.empty : Cache K V capacity).trace ops)) ops
      (Cache.empty.run ops : Cache K V capacity).entries := by
  induction ops using List.reverseRecOn with
  | nil => exact ⟨List.Pairwise.nil, fun _ hentry => absurd hentry List.not_mem_nil⟩
  | append_singleton ops op ih =>
    have hstep := ih.step capacity op
    rw [Cache.trace_concat, Cache.run_concat, uses_concat]
    exact hstep

end History

end Lru
