import Mathlib.Data.List.Induction
import Mathlib.Data.List.MinMax
import Prelay.ThreadState
import Prelay.Lru

namespace Prelay.Rollout

open Lru

structure ThreadEntry where
  state : ThreadState
  lastUsed : ℕ

structure ThreadIndex (K : Type) where
  entries : Table K ThreadEntry
  clock : ℕ
  maxEntries : ℕ

def wrappingAdd (a b : ℕ) : ℕ := (a + b) % 2 ^ 64

section Index

variable {K : Type}

/-- An order in which the hash map of an index may list its entries. -/
structure HashOrder (K : Type) where
  iter : ThreadIndex K → List (K × ThreadEntry)
  perm : ∀ index, (iter index).Perm index.entries.entries

variable [DecidableEq K]

namespace ThreadIndex

def withLimit (maxEntries : ℕ) : ThreadIndex K := ⟨.empty, 0, maxEntries⟩

def get (index : ThreadIndex K) (key : K) : Option ThreadState × ThreadIndex K :=
  let clock := wrappingAdd index.clock 1
  match index.entries.get key with
  | none => (none, { index with clock })
  | some entry =>
    (some entry.state, { index with clock, entries := index.entries.insert key { entry with lastUsed := clock } })

def insert (order : HashOrder K) (index : ThreadIndex K) (key : K) (state : ThreadState) : ThreadIndex K :=
  let clock := wrappingAdd index.clock 1
  let entries :=
    if index.maxEntries ≤ index.entries.len ∧ index.entries.get key = none then
      match (order.iter index).argmin (fun entry => entry.2.lastUsed) with
      | some evicted => index.entries.remove evicted.1
      | none => index.entries
    else index.entries
  { index with clock, entries := entries.insert key ⟨state, clock⟩ }

def removePaths (index : ThreadIndex K) (relativePaths : List String) : ThreadIndex K :=
  { index with entries := index.entries.retain (fun entry => !relativePaths.contains entry.2.state.relativePath) }

end ThreadIndex

inductive CacheCall (K : Type)
  | get (key : K)
  | insert (key : K) (state : ThreadState)
  | removePaths (relativePaths : List String)

def CacheCall.op : CacheCall K → Op K ThreadState
  | .get key => .get key
  | .insert key state => .insert key state
  | .removePaths relativePaths => .remove (fun state => relativePaths.contains state.relativePath)

namespace ThreadIndex

variable (order : HashOrder K)

def call (index : ThreadIndex K) : CacheCall K → Option ThreadState × ThreadIndex K
  | .get key => index.get key
  | .insert key state => (none, index.insert order key state)
  | .removePaths relativePaths => (none, index.removePaths relativePaths)

def run (index : ThreadIndex K) (calls : List (CacheCall K)) : ThreadIndex K :=
  calls.foldl (fun index call => (index.call order call).2) index

def trace (index : ThreadIndex K) : List (CacheCall K) → List (Op K ThreadState × Option ThreadState)
  | [] => []
  | call :: calls => (call.op, (index.call order call).1) :: (index.call order call).2.trace calls

def states (index : ThreadIndex K) : List (K × ThreadState) :=
  index.entries.entries.map (fun entry => (entry.1, entry.2.state))

end ThreadIndex

omit [DecidableEq K] in
theorem keys_states (index : ThreadIndex K) : keys index.states = keys index.entries.entries := by
  simp [keys, ThreadIndex.states]

theorem find_states (index : ThreadIndex K) (key : K) :
    find index.states key = (index.entries.get key).map ThreadEntry.state :=
  find_map ThreadEntry.state _ key

theorem wrappingAdd_of_lt {clock age : ℕ} (hclock : clock ≤ age) (hage : age + 1 < 2 ^ 64) :
    wrappingAdd clock 1 = clock + 1 := Nat.mod_eq_of_lt (by omega)

def Sorted (entries : List (K × ThreadEntry)) : Prop :=
  entries.Pairwise (fun first second => first.2.lastUsed < second.2.lastUsed)

/-- The stamps of an index give the order of last use, and none lies in the future. -/
structure Ages {capacity : ℕ} (index : ThreadIndex K) (cache : Cache K ThreadState capacity) (age : ℕ) : Prop where
  limit : index.maxEntries = capacity
  states : index.states = cache.entries
  sorted : Sorted index.entries.entries
  past : ∀ entry ∈ index.entries.entries, entry.2.lastUsed ≤ index.clock
  clock : index.clock ≤ age

omit [DecidableEq K] in
theorem argmin_sorted {entries listed : List (K × ThreadEntry)} (hlisted : listed.Perm entries)
    (hsorted : Sorted entries) : listed.argmin (fun entry => entry.2.lastUsed) = entries.head? := by
  cases entries with
  | nil => rw [hlisted.eq_nil, List.argmin_nil, List.head?_nil]
  | cons first rest =>
    have hleast := (List.pairwise_cons.mp hsorted).1
    cases hmin : listed.argmin (fun entry => entry.2.lastUsed) with
    | none => rw [List.argmin_eq_none.mp hmin] at hlisted; exact absurd hlisted.symm.eq_nil (List.cons_ne_nil _ _)
    | some evicted =>
      have hmem : evicted ∈ first :: rest := hlisted.subset (List.argmin_mem hmin)
      have hle := List.le_of_mem_argmin (hlisted.symm.subset (List.mem_cons_self ..)) hmin
      rcases List.mem_cons.mp hmem with rfl | hrest
      · rfl
      · have hlt := hleast evicted hrest
        omega

theorem sorted_put {entries : List (K × ThreadEntry)} (h : Sorted entries) (key : K) (entry : ThreadEntry)
    (hlast : ∀ other ∈ entries, other.2.lastUsed < entry.lastUsed) : Sorted (put entries key entry) := by
  apply List.pairwise_append.mpr
  refine ⟨h.sublist List.filter_sublist, List.pairwise_singleton _ _, ?_⟩
  intro other hother new hnew
  rw [List.mem_singleton.mp hnew]
  exact hlast other (mem_drop.mp hother).1

theorem past_put {entries : List (K × ThreadEntry)} {clock : ℕ} (h : ∀ entry ∈ entries, entry.2.lastUsed ≤ clock)
    (key : K) (entry : ThreadEntry) (hnew : entry.lastUsed = clock + 1) :
    ∀ other ∈ put entries key entry, other.2.lastUsed ≤ clock + 1 := by
  intro other hother
  rcases List.mem_append.mp hother with hkept | hlast
  · have hle := h other (mem_drop.mp hkept).1
    omega
  · rw [List.mem_singleton.mp hlast]
    exact hnew.le

theorem evicted_entries {index : ThreadIndex K} (order : HashOrder K) (hsorted : Sorted index.entries.entries)
    (key : K) :
    (if index.maxEntries ≤ index.entries.len ∧ index.entries.get key = none then
      match (order.iter index).argmin (fun entry => entry.2.lastUsed) with
      | some evicted => index.entries.remove evicted.1
      | none => index.entries
    else index.entries).entries = evict index.maxEntries index.entries.entries key := by
  rw [argmin_sorted (order.perm index) hsorted, evict]
  simp only [Table.get, Table.len, find_eq_none_iff]
  split
  · cases hentries : index.entries.entries with
    | nil => simp [hentries]
    | cons first rest =>
      have hnodup := index.entries.nodup
      rw [hentries] at hnodup
      simp only [List.head?_cons, Table.remove, hentries, List.tail_cons]
      exact drop_eq_tail hnodup
  · rfl

variable {capacity : ℕ} {index : ThreadIndex K} {cache : Cache K ThreadState capacity} {age : ℕ}

theorem Ages.answer (h : Ages index cache age) (order : HashOrder K) (call : CacheCall K) :
    (index.call order call).1 = Lru.answer cache.entries call.op := by
  cases call with
  | get key =>
    simp only [ThreadIndex.call, ThreadIndex.get, CacheCall.op, Lru.answer, ← h.states, find_states]
    cases index.entries.get key <;> rfl
  | insert key state => rfl
  | removePaths relativePaths => rfl

variable [NeZero capacity]

theorem Ages.step (h : Ages index cache age) (hage : age + 1 < 2 ^ 64) (order : HashOrder K) (call : CacheCall K) :
    Ages (index.call order call).2 (cache.step call.op) (age + 1) := by
  have hclock := wrappingAdd_of_lt h.clock hage
  have hyoung : index.clock ≤ age := h.clock
  cases call with
  | get key =>
    have hfind := find_states index key
    cases hget : index.entries.get key with
    | none =>
      rw [hget, h.states] at hfind
      simp only [ThreadIndex.call, ThreadIndex.get, hget, CacheCall.op, hclock]
      refine ⟨h.limit, ?_, h.sorted, fun entry hentry => ?_, Nat.succ_le_succ hyoung⟩
      · simp only [Cache.step, Lru.step, hfind, Option.map_none]
        exact h.states
      · have hle := h.past entry hentry
        simp only
        omega
    | some entry =>
      rw [hget, h.states] at hfind
      simp only [ThreadIndex.call, ThreadIndex.get, hget, CacheCall.op, hclock]
      refine ⟨h.limit, ?_, ?_, past_put h.past key _ rfl, Nat.succ_le_succ hyoung⟩
      · simp only [Cache.step, Lru.step, hfind, Option.map_some]
        rw [← h.states]
        exact (put_map ThreadEntry.state _ key _).symm
      · exact sorted_put h.sorted key _ (fun other hother => Nat.lt_succ_of_le (h.past other hother))
  | insert key state =>
    have hevict := evicted_entries order h.sorted key
    have hsub := evict_sublist index.maxEntries index.entries.entries key
    simp only [ThreadIndex.call, ThreadIndex.insert, CacheCall.op, hclock]
    refine ⟨h.limit, ?_, ?_, ?_, Nat.succ_le_succ hyoung⟩
    · simp only [ThreadIndex.states, Table.insert, hevict, Cache.step, Lru.step]
      rw [← put_map ThreadEntry.state, evict_map, ← h.states, h.limit]
      rfl
    · simp only [Table.insert, hevict]
      apply sorted_put (h.sorted.sublist hsub)
      exact fun other hother => Nat.lt_succ_of_le (h.past other (hsub.subset hother))
    · simp only [Table.insert, hevict]
      exact past_put (fun other hother => h.past other (hsub.subset hother)) key _ rfl
  | removePaths relativePaths =>
    simp only [ThreadIndex.call, ThreadIndex.removePaths, CacheCall.op]
    refine ⟨h.limit, ?_, h.sorted.sublist List.filter_sublist, ?_, Nat.le_succ_of_le hyoung⟩
    · simp only [Cache.step, Lru.step, ← h.states, ThreadIndex.states, Table.retain, List.filter_map]
      rfl
    · exact fun entry hentry => h.past entry (List.mem_filter.mp hentry).1

theorem trace_concat (order : HashOrder K) (index : ThreadIndex K) (calls : List (CacheCall K)) (call : CacheCall K) :
    index.trace order (calls ++ [call]) =
      index.trace order calls ++ [(call.op, ((index.run order calls).call order call).1)] := by
  induction calls generalizing index with
  | nil => rfl
  | cons first rest ih =>
    rw [List.cons_append, ThreadIndex.trace, ih]
    rfl

theorem run_concat (order : HashOrder K) (index : ThreadIndex K) (calls : List (CacheCall K)) (call : CacheCall K) :
    index.run order (calls ++ [call]) = ((index.run order calls).call order call).2 := List.foldl_concat ..

omit [DecidableEq K] [NeZero capacity] in
theorem ages_withLimit : Ages (.withLimit capacity) (.empty : Cache K ThreadState capacity) 0 :=
  ⟨rfl, rfl, List.Pairwise.nil, fun _ hentry => absurd hentry List.not_mem_nil, le_refl 0⟩

theorem ages_run (order : HashOrder K) (calls : List (CacheCall K)) (hcalls : calls.length < 2 ^ 64) :
    Ages ((ThreadIndex.withLimit capacity).run order calls)
        ((.empty : Cache K ThreadState capacity).run (calls.map CacheCall.op)) calls.length ∧
      (ThreadIndex.withLimit capacity).trace order calls =
        (.empty : Cache K ThreadState capacity).trace (calls.map CacheCall.op) := by
  induction calls using List.reverseRecOn with
  | nil => exact ⟨ages_withLimit, rfl⟩
  | append_singleton calls call ih =>
    rw [List.length_append, List.length_singleton] at hcalls
    obtain ⟨hages, htrace⟩ := ih (by omega)
    rw [List.map_append, List.map_singleton, run_concat, Cache.run_concat, trace_concat, Cache.trace_concat, htrace,
      hages.answer order call, List.length_append, List.length_singleton]
    exact ⟨hages.step hcalls order call, rfl⟩

/-- A new key costs a full index its entry at the head, and no other. -/
theorem get_insert_full (order : HashOrder K) (hsorted : Sorted index.entries.entries) {first : K × ThreadEntry}
    {rest : List (K × ThreadEntry)} (hentries : index.entries.entries = first :: rest)
    (hfull : index.maxEntries ≤ index.entries.len) {key : K} (hnew : index.entries.get key = none)
    (state : ThreadState) {other : K} (hother : other ≠ key) :
    (index.insert order key state).entries.get other =
      if other = first.1 then none else index.entries.get other := by
  have hnodup := index.entries.nodup
  rw [hentries] at hnodup
  have hkept : evict index.maxEntries index.entries.entries key = drop index.entries.entries first.1 := by
    rw [evict, if_pos ⟨hfull, find_eq_none_iff.mp hnew⟩, hentries, drop_eq_tail hnodup, List.tail_cons]
  rw [ThreadIndex.insert, Table.get, Table.insert, find_put, if_neg hother]
  simp only [evicted_entries order hsorted, hkept, find_drop]
  rfl

theorem get_insert_spare (order : HashOrder K) (key : K) (state : ThreadState)
    (hspare : index.entries.len < index.maxEntries ∨ index.entries.get key ≠ none) {other : K} (hother : other ≠ key) :
    (index.insert order key state).entries.get other = index.entries.get other := by
  have hkept : ¬ (index.maxEntries ≤ index.entries.len ∧ index.entries.get key = none) := by
    rintro ⟨hfull, hnew⟩
    rcases hspare with hlen | hkey
    · omega
    · exact hkey hnew
  rw [ThreadIndex.insert, Table.get, Table.insert, find_put, if_neg hother, if_neg hkept]
  rfl

theorem get_removePaths (index : ThreadIndex K) (relativePaths : List String) (key : K) :
    (index.removePaths relativePaths).entries.get key =
      (index.entries.get key).filter (fun entry => !relativePaths.contains entry.state.relativePath) := by
  apply Option.ext
  intro entry
  rw [Option.filter_eq_some_iff, Table.get, find_eq_some_iff (Table.nodup _), Table.get,
    find_eq_some_iff index.entries.nodup]
  exact List.mem_filter

theorem thread_index_is_lru (order : HashOrder K) (calls : List (CacheCall K)) (hcalls : calls.length < 2 ^ 64) :
    let index := (ThreadIndex.withLimit capacity).run order calls
    let cache := (Cache.empty : Cache K ThreadState capacity).run (calls.map CacheCall.op)
    let trace := (ThreadIndex.withLimit capacity).trace order calls
    trace = (Cache.empty : Cache K ThreadState capacity).trace (calls.map CacheCall.op) ∧
    (∀ key, (index.entries.get key).map ThreadEntry.state = find cache.entries key) ∧
    index.entries.len ≤ capacity ∧
    (∀ key entry, index.entries.get key = some entry →
      (index.get key).1 = some entry.state ∧ lastInserted (calls.map CacheCall.op) key = some entry.state) ∧
    (∀ key state, index.entries.get key = none → index.entries.len = capacity →
      ∃ victim, index.entries.get victim ≠ none ∧
        (∀ other, index.entries.get other ≠ none → other ≠ victim → Older (uses trace) victim other) ∧
        ∀ other, other ≠ key → (index.insert order key state).entries.get other =
          if other = victim then none else index.entries.get other) ∧
    (∀ key state, index.entries.len < capacity ∨ index.entries.get key ≠ none →
      ∀ other, other ≠ key → (index.insert order key state).entries.get other = index.entries.get other) ∧
    (∀ relativePaths key, (index.removePaths relativePaths).entries.get key =
      (index.entries.get key).filter (fun entry => !relativePaths.contains entry.state.relativePath)) := by
  intro index cache trace
  obtain ⟨hages, htrace⟩ := @ages_run K _ capacity _ order calls hcalls
  have hrecent := @recent_run K ThreadState _ capacity _ (calls.map CacheCall.op)
  have hlen : index.entries.len = cache.entries.length := by
    rw [← hages.states, ThreadIndex.states, List.length_map]
    rfl
  refine ⟨htrace, fun key => ?_, hlen ▸ cache.bounded, fun key entry hentry => ⟨?_, ?_⟩, ?_, ?_, ?_⟩
  · rw [← find_states, hages.states]
  · simp only [ThreadIndex.get, hentry]
  · apply hrecent.values (key, entry.state)
    apply mem_of_find
    rw [← hages.states, find_states, hentry, Option.map_some]
  · intro key state hnew hfull
    have hpos : 0 < capacity := Nat.pos_of_neZero capacity
    rw [← hfull] at hpos
    obtain ⟨first, rest, hentries⟩ := List.exists_cons_of_length_pos hpos
    have hkeys : keys cache.entries = first.1 :: keys rest := by
      rw [← hages.states, keys_states, hentries]
      rfl
    refine ⟨first.1, ?_, fun other hother hne => ?_, fun other hother => ?_⟩
    · intro hnone
      apply find_eq_none_iff.mp hnone
      rw [hentries]
      exact List.mem_cons_self
    · rw [show trace = _ from htrace]
      have hmem : other ∈ keys index.entries.entries := not_imp_comm.mp find_eq_none_iff.mpr hother
      rw [hentries] at hmem
      exact List.rel_of_pairwise_cons (hkeys ▸ hrecent.ages) ((List.mem_cons.mp hmem).resolve_left hne)
    · exact get_insert_full order hages.sorted hentries (hages.limit.trans hfull.symm).le hnew state hother
  · intro key state hspare other hother
    rw [← hages.limit] at hspare
    exact get_insert_spare order key state hspare hother
  · exact fun relativePaths key => get_removePaths index relativePaths key

end Index

def listOrder : HashOrder ℕ := ⟨fun index => index.entries.entries, fun _ => List.Perm.refl _⟩

theorem thread_index_evicts_second :
    ((ThreadIndex.withLimit 2).trace listOrder [.insert 0 { relativePath := "a" }, .insert 1 { relativePath := "b" },
      .get 0, .get 9, .insert 2 { relativePath := "c" }, .get 1, .get 0, .removePaths ["c"], .get 2]).map Prod.snd =
      [none, none, some { relativePath := "a" }, none, none, none, some { relativePath := "a" }, none, none] := by
  rw [(@thread_index_is_lru ℕ _ 2 _ listOrder _ (by decide)).1]
  rfl

end Prelay.Rollout
