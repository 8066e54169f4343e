import Prelay.Memories

namespace Prelay.Store.Memories

open Transactions Runs

section moves

variable {ι : Type} [DecidableEq ι] [Fintype ι] (calls : ι → MemoryCall)

inductive MemoryMove (s : MemoryState ι) (call : ι) : MemoryState ι → Prop
  | fail (hopen : s.stage call ≠ .committed) : MemoryMove s call (s.fail call)
  | found {candidate : NormalizedMemoryCandidate} {memoryId : String} (hstage : s.stage call = .waiting) :
      MemoryMove s call (s.enter call (.stored candidate memoryId))
  | missing {candidate : NormalizedMemoryCandidate} (hstage : s.stage call = .waiting) :
      MemoryMove s call (s.enter call (.inserting candidate))
  | insertMemory {candidate : NormalizedMemoryCandidate} {memoryId : String} (row : Memory)
      (hstage : s.stage call = .inserting candidate) (hkey : row.conflictKey = candidate.conflictKey)
      (hnew : ∀ other ∈ s.memories.view call, other.id ≠ row.id)
      (hfree : ¬s.memories.Contested call (fun other => other.id = row.id)) :
      MemoryMove s call
        { s.enter call (.stored candidate memoryId) with memories := s.memories.insert call row }
  | knownSource {candidate : NormalizedMemoryCandidate} {memoryId : String}
      (hstage : s.stage call = .stored candidate memoryId) : MemoryMove s call (s.enter call (.sourced candidate))
  | newSource {candidate : NormalizedMemoryCandidate} {memoryId : String}
      (hstage : s.stage call = .stored candidate memoryId) :
      MemoryMove s call (s.enter call (.sourcing candidate memoryId))
  | insertSource {candidate : NormalizedMemoryCandidate} {memoryId : String} (row : MemorySource)
      (hstage : s.stage call = .sourcing candidate memoryId)
      (hnew : ∀ other ∈ s.sources.view call, sourceKey other ≠ sourceKey row)
      (hfree : ¬s.sources.Contested call (fun other => sourceKey other = sourceKey row)) :
      MemoryMove s call { s.enter call (.sourced candidate) with sources := s.sources.insert call row }
  | noKey {candidate : NormalizedMemoryCandidate} (hstage : s.stage call = .sourced candidate)
      (hkey : candidate.conflictKey = none) : MemoryMove s call (s.enter call .ready)
  | countOne {candidate : NormalizedMemoryCandidate} {key : String} (hstage : s.stage call = .sourced candidate)
      (hkey : candidate.conflictKey = some key)
      (hcount : ((s.memories.view call).filter (fun row => HasKey key row)).length ≤ 1) :
      MemoryMove s call (s.enter call .ready)
  | countMore {candidate : NormalizedMemoryCandidate} {key : String} (hstage : s.stage call = .sourced candidate)
      (hkey : candidate.conflictKey = some key)
      (hcount : 1 < ((s.memories.view call).filter (fun row => HasKey key row)).length) :
      MemoryMove s call (s.enter call (.conflicting key))
  | select {key : String} (hstage : s.stage call = .conflicting key) :
      MemoryMove s call
        (s.enter call (.marking key ((s.memories.view call).filter (fun row => HasKey key row))))
  | markOwn {key : String} {row : Memory} {rest : List Memory} (hstage : s.stage call = .marking key (row :: rest))
      (hown : ∃ own ∈ (s.memories.writes call).inserted, own.id = row.id) :
      MemoryMove s call { s.enter call (.marking key rest) with
        memories := s.memories.amend call (fun own => if own.id = row.id then (calls call).marked own else own) }
  | markOther {key : String} {row current : Memory} {rest : List Memory}
      (hstage : s.stage call = .marking key (row :: rest))
      (hother : ∀ own ∈ (s.memories.writes call).inserted, own.id ≠ row.id) (hcurrent : current ∈ s.memories.rows)
      (hid : current.id = row.id) (hfree : ¬s.memories.Locked call current) (hkey : HasKey key current) :
      MemoryMove s call { s.enter call (.marking key rest) with
        memories := (s.memories.delete call current).insert call ((calls call).marked current) }
  | pass {key : String} {row : Memory} {rest : List Memory} (hstage : s.stage call = .marking key (row :: rest))
      (hother : ∀ own ∈ (s.memories.writes call).inserted, own.id ≠ row.id)
      (hnone : ∀ current, s.memories.rows.find? (fun current => current.id = row.id) = some current →
        ¬HasKey key current) :
      MemoryMove s call (s.enter call (.marking key rest))
  | commit (hstage : s.stage call = .ready ∨ ∃ key, s.stage call = .marking key []) :
      MemoryMove s call (s.commit call)

def MemoryAction.call : MemoryAction ι → ι
  | .statement call => call
  | .rollback call => call

variable {calls} {s s' : MemoryState ι} {call : ι}

theorem insertMemory_move {candidate : NormalizedMemoryCandidate} (hstage : s.stage call = .inserting candidate)
    (h : s.insertMemory calls call candidate = some s') : MemoryMove calls s call s' := by
  unfold MemoryState.insertMemory at h
  dsimp only at h
  split at h
  · exact nomatch h
  · obtain rfl := Option.some.inj h
    exact .fail (hstage ▸ nofun)
  · next memories hinsert =>
    obtain ⟨rfl, hnew, hfree⟩ := Table.tryInsert_some hinsert
    obtain rfl := Option.some.inj h
    refine .insertMemory _ hstage rfl ?_ ?_
    · intro other hother hid
      exact hnew other hother (.inl hid)
    · rintro ⟨other, hne, row, hrow, hid⟩
      exact hfree ⟨other, hne, row, hrow, .inl hid⟩

theorem insertSource_move {candidate : NormalizedMemoryCandidate} {memoryId : String}
    (hstage : s.stage call = .sourcing candidate memoryId)
    (h : s.insertSource calls call candidate memoryId = some s') : MemoryMove calls s call s' := by
  unfold MemoryState.insertSource at h
  dsimp only at h
  split at h
  · exact nomatch h
  · obtain rfl := Option.some.inj h
    exact .fail (hstage ▸ nofun)
  · next sources hinsert =>
    obtain ⟨rfl, hnew, hfree⟩ := Table.tryInsert_some hinsert
    split_ifs at h
    · obtain rfl := Option.some.inj h
      refine .insertSource _ hstage ?_ ?_
      · intro other hother hkey
        exact hnew other hother (.inr hkey)
      · rintro ⟨other, hne, row, hrow, hkey⟩
        exact hfree ⟨other, hne, row, hrow, .inr hkey⟩
    · obtain rfl := Option.some.inj h
      exact .fail (hstage ▸ nofun)

theorem markNext_move {key : String} {row : Memory} {rest : List Memory}
    (hstage : s.stage call = .marking key (row :: rest)) (h : s.markNext calls call key row rest = some s') :
    MemoryMove calls s call s' := by
  unfold MemoryState.markNext at h
  dsimp only at h
  split_ifs at h with hown
  · obtain rfl := Option.some.inj h
    exact .markOwn hstage hown
  · have hother : ∀ own ∈ (s.memories.writes call).inserted, own.id ≠ row.id :=
      fun own hmem hid => hown ⟨own, hmem, hid⟩
    split at h
    · next hfind =>
      obtain rfl := Option.some.inj h
      refine .pass hstage hother (fun current hcurrent => ?_)
      rw [hfind] at hcurrent
      exact nomatch hcurrent
    · next current hfind =>
      split_ifs at h with hlocked hkey
      · obtain rfl := Option.some.inj h
        have hid := List.find?_some hfind
        exact .markOther hstage hother (List.mem_of_find?_eq_some hfind) (of_decide_eq_true hid) hlocked hkey
      · obtain rfl := Option.some.inj h
        refine .pass hstage hother (fun other hcurrent => ?_)
        obtain rfl := Option.some.inj (hfind.symm.trans hcurrent)
        exact hkey

theorem statement_move (h : s.nextStatement calls call = some s') : MemoryMove calls s call s' := by
  unfold MemoryState.nextStatement at h
  split at h
  case _ hstage =>
    split at h
    · obtain rfl := Option.some.inj h
      exact .fail (hstage ▸ nofun)
    · split at h
      · obtain rfl := Option.some.inj h
        exact .found hstage
      · obtain rfl := Option.some.inj h
        exact .missing hstage
  case _ candidate hstage => exact insertMemory_move hstage h
  case _ candidate memoryId hstage =>
    dsimp only at h
    split_ifs at h
    · obtain rfl := Option.some.inj h
      exact .knownSource hstage
    · obtain rfl := Option.some.inj h
      exact .newSource hstage
  case _ candidate memoryId hstage => exact insertSource_move hstage h
  case _ candidate hstage =>
    split at h
    · next hkey =>
      obtain rfl := Option.some.inj h
      exact .noKey hstage hkey
    · next key hkey =>
      split_ifs at h with hcount
      · obtain rfl := Option.some.inj h
        exact .countMore hstage hkey hcount
      · obtain rfl := Option.some.inj h
        exact .countOne hstage hkey (Nat.le_of_not_lt hcount)
  case _ hstage =>
    obtain rfl := Option.some.inj h
    exact .commit (.inl hstage)
  case _ key hstage =>
    obtain rfl := Option.some.inj h
    exact .select hstage
  case _ key row rest hstage => exact markNext_move hstage h
  case _ key hstage =>
    obtain rfl := Option.some.inj h
    exact .commit (.inr ⟨key, hstage⟩)
  case _ => exact nomatch h
  case _ => exact nomatch h

theorem MemoryStep.move {action : MemoryAction ι} (h : MemoryStep calls s action s') :
    MemoryMove calls s action.call s' := by
  cases action with
  | statement call => exact statement_move h
  | rollback call =>
    unfold MemoryStep MemoryState.next at h
    dsimp only at h
    split_ifs at h with hcommitted
    obtain rfl := Option.some.inj h
    exact .fail hcommitted

end moves

section exclusive

theorem not_contested {ι ρ κ : Type} {call : ι} {t : Table ι ρ} {key : ρ → κ} {row : ρ}
    (hfree : ¬t.Contested call (fun other => key other = key row)) :
    ∀ other ≠ call, ∀ added ∈ (t.writes other).inserted, key added ≠ key row :=
  fun other hother added hadded hkey => hfree ⟨other, hother, added, List.mem_append_left _ hadded, hkey⟩

variable {ι : Type} [DecidableEq ι] [Fintype ι] {calls : ι → MemoryCall} {s s' : MemoryState ι} {call : ι}

structure MemoryState.Exclusive (s : MemoryState ι) : Prop where
  memories : s.memories.Exclusive Memory.id
  sources : s.sources.Exclusive sourceKey

omit [Fintype ι] in
theorem MemoryMove.exclusive (h : MemoryMove calls s call s') (hs : s.Exclusive) : s'.Exclusive := by
  cases h with
  | fail => exact ⟨hs.memories.rollback call, hs.sources.rollback call⟩
  | commit => exact ⟨hs.memories.commit call, hs.sources.commit call⟩
  | insertMemory row hstage hkey hnew hfree => exact ⟨hs.memories.insert hnew (not_contested hfree), hs.sources⟩
  | insertSource row hstage hnew hfree => exact ⟨hs.memories, hs.sources.insert hnew (not_contested hfree)⟩
  | markOwn hstage hown =>
    refine ⟨hs.memories.amend (fun own => ?_), hs.sources⟩
    split_ifs
    · rfl
    · rfl
  | markOther hstage hother hcurrent hid hfree hkey =>
    refine ⟨hs.memories.update hcurrent hfree rfl (fun own hown => ?_), hs.sources⟩
    rw [hid]
    exact hother own hown
  | found | missing | knownSource | newSource | noKey | countOne | countMore | select | pass =>
    exact ⟨hs.memories, hs.sources⟩

end exclusive

section invariant

variable {ι : Type}

structure Single (s : MemoryState ι) (call : ι) : Prop where
  deleted : (s.memories.writes call).deleted = []
  inserted : (s.memories.writes call).inserted.length ≤ 1

structure Marking (s : MemoryState ι) (call : ι) (key : String) (rest : List Memory) : Prop where
  inserted : ∀ row ∈ (s.memories.writes call).inserted,
    HasKey key row ∧ (row.status = "conflicted" ∨ ∃ left ∈ rest, left.id = row.id)
  deleted : ∀ row ∈ (s.memories.writes call).deleted, HasKey key row ∧ s.Holds key call
  known : ∃ row ∈ s.memories.rows, HasKey key row
  covered : ∀ row ∈ s.memories.rows, HasKey key row →
    row.status = "conflicted" ∨ row ∈ (s.memories.writes call).deleted ∨ ∃ left ∈ rest, left.id = row.id

/-- What holds of a call at each stage. A call that has found no second memory with its key has the key for itself: no
memory with it is committed, and no other call that has counted holds it. -/
def StageHolds (s : MemoryState ι) (call : ι) : MemoryStage → Prop
  | .waiting | .inserting _ | .committed | .failed => s.memories.writes call = {}
  | .stored candidate _ | .sourcing candidate _ | .sourced candidate =>
    Single s call ∧ ∀ row ∈ (s.memories.writes call).inserted, row.conflictKey = candidate.conflictKey
  | .ready => Single s call ∧ ∀ key, s.Holds key call → (∀ row ∈ s.memories.rows, ¬HasKey key row) ∧
      ∀ other ≠ call, (s.stage other).Counted → ¬s.Holds key other
  | .conflicting key => Single s call ∧ (∀ row ∈ (s.memories.writes call).inserted, HasKey key row) ∧
      ∃ row ∈ s.memories.rows, HasKey key row
  | .marking key rest => Marking s call key rest

structure MemoryInvariant [DecidableEq ι] (s : MemoryState ι) : Prop where
  exclusive : s.Exclusive
  conflicts : ConflictsMarked s.memories.rows
  calls : ∀ call, StageHolds s call (s.stage call)

variable {s s' : MemoryState ι} {call other : ι}

theorem holds_congr (h : s'.memories.writes other = s.memories.writes other) (key : String) :
    s'.Holds key other ↔ s.Holds key other := by
  unfold MemoryState.Holds
  rw [h]

theorem StageHolds.carry (h : StageHolds s other (s.stage other)) (hne : other ≠ call)
    (hwrites : ∀ third ≠ call, s'.memories.writes third = s.memories.writes third)
    (hstages : ∀ third ≠ call, s'.stage third = s.stage third)
    (hnone : s.stage other = .ready → ∀ key, s.Holds key other → ∀ row ∈ s'.memories.rows, HasKey key row →
      row ∈ s.memories.rows)
    (hquiet : (s'.stage call).Counted → ∀ key, s'.Holds key call → s.stage other = .ready → ¬s.Holds key other)
    (hknown : ∀ key, (∃ row ∈ s.memories.rows, HasKey key row) → ∃ row ∈ s'.memories.rows, HasKey key row)
    (hcovered : ∀ key, (∃ row ∈ s.memories.rows, HasKey key row) → ∀ row ∈ s'.memories.rows, HasKey key row →
      row ∈ s.memories.rows ∨ row.status = "conflicted") :
    StageHolds s' other (s'.stage other) := by
  have hwrite := hwrites other hne
  rw [hstages other hne]
  have hsingle (hs : Single s other) : Single s' other := ⟨hwrite ▸ hs.deleted, hwrite ▸ hs.inserted⟩
  cases hstage : s.stage other with
  | waiting | inserting | committed | failed =>
    rw [hstage] at h
    exact hwrite.trans h
  | stored | sourcing | sourced =>
    rw [hstage] at h
    refine ⟨hsingle h.1, fun row hrow => h.2 row ?_⟩
    rwa [hwrite] at hrow
  | ready =>
    rw [hstage] at h
    refine ⟨hsingle h.1, fun key hholds => ?_⟩
    rw [holds_congr hwrite] at hholds
    obtain ⟨hfree, hothers⟩ := h.2 key hholds
    refine ⟨fun row hrow hkey => hfree row (hnone hstage key hholds row hrow hkey) hkey, ?_⟩
    intro third hthird hcounted hheld
    by_cases heq : third = call
    · subst heq
      exact hquiet hcounted key hheld hstage hholds
    · rw [hstages third heq] at hcounted
      rw [holds_congr (hwrites third heq)] at hheld
      exact hothers third hthird hcounted hheld
  | conflicting key =>
    rw [hstage] at h
    obtain ⟨hs, hinserted, hrows⟩ := h
    exact ⟨hsingle hs, hwrite ▸ hinserted, hknown key hrows⟩
  | marking key rest =>
    rw [hstage] at h
    refine ⟨hwrite ▸ h.inserted, ?_, hknown key h.known, fun row hrow hkey => ?_⟩
    · rw [hwrite, holds_congr hwrite]
      exact h.deleted
    · rw [hwrite]
      rcases hcovered key h.known row hrow hkey with hold | hstatus
      · exact h.covered row hold hkey
      · exact .inl hstatus

theorem MemoryInvariant.advance [DecidableEq ι] (h : MemoryInvariant s) (call : ι) (hexclusive : s'.Exclusive)
    (hrows : s'.memories.rows = s.memories.rows)
    (hwrites : ∀ third ≠ call, s'.memories.writes third = s.memories.writes third)
    (hstages : ∀ third ≠ call, s'.stage third = s.stage third) (hown : StageHolds s' call (s'.stage call))
    (hquiet : (s'.stage call).Counted → ∀ key, s'.Holds key call → ∀ other ≠ call, s.stage other = .ready →
      ¬s.Holds key other) : MemoryInvariant s' := by
  refine ⟨hexclusive, hrows ▸ h.conflicts, fun other => ?_⟩
  by_cases heq : other = call
  · rw [heq]
    exact hown
  · apply (h.calls other).carry heq hwrites hstages
    · intro _ key _ row hrow _
      exact hrows ▸ hrow
    · exact fun hcounted key hholds => hquiet hcounted key hholds other heq
    · exact fun key hknown => hrows ▸ hknown
    · intro key _ row hrow _
      exact .inl (hrows ▸ hrow)

theorem MemoryInvariant.not_holds [DecidableEq ι] (h : MemoryInvariant s) {key : String}
    (hknown : ∃ row ∈ s.memories.rows, HasKey key row) (hstage : s.stage other = .ready) : ¬s.Holds key other := by
  intro hholds
  have hcall := h.calls other
  rw [hstage] at hcall
  obtain ⟨row, hrow, hkey⟩ := hknown
  exact (hcall.2 key hholds).1 row hrow hkey

theorem hasKey_unique {key key' : String} {row : Memory} (h : HasKey key row) (h' : HasKey key' row) : key = key' :=
  Option.some.inj (h.symm.trans h')

end invariant

section enter

variable {ι : Type} [DecidableEq ι] {s : MemoryState ι} {call other : ι} {stage : MemoryStage}

omit [DecidableEq ι] in
theorem Single.of_clean (h : s.memories.writes call = {}) : Single s call := by
  constructor
  · rw [h]
  · rw [h]
    exact Nat.zero_le 1

@[simp]
theorem enter_self : (s.enter call stage).stage call = stage := Function.update_self _ _ _

@[simp]
theorem enter_memories : (s.enter call stage).memories = s.memories := rfl

theorem enter_of_ne (h : other ≠ call) : (s.enter call stage).stage other = s.stage other :=
  Function.update_of_ne h _ _

theorem MemoryInvariant.enter (h : MemoryInvariant s) (hown : StageHolds (s.enter call stage) call stage)
    (hquiet : stage.Counted → ∀ key, s.Holds key call → ∀ other ≠ call, s.stage other = .ready →
      ¬s.Holds key other) : MemoryInvariant (s.enter call stage) := by
  refine h.advance call ⟨h.exclusive.memories, h.exclusive.sources⟩ rfl (fun _ _ => rfl) (fun third hthird => ?_) ?_ ?_
  · exact enter_of_ne hthird
  · rw [enter_self]
    exact hown
  · rw [enter_self]
    exact hquiet

theorem MemoryInvariant.fail (h : MemoryInvariant s) (call : ι) : MemoryInvariant (s.fail call) := by
  refine h.advance call ⟨h.exclusive.memories.rollback call, h.exclusive.sources.rollback call⟩ rfl
    (fun third hthird => Table.set_of_ne _ _ hthird) (fun third hthird => enter_of_ne hthird) ?_ ?_
  · rw [show (s.fail call).stage call = .failed from enter_self]
    exact Table.set_self _ _
  · rw [show (s.fail call).stage call = .failed from enter_self]
    exact fun hcounted => hcounted.elim

end enter

section steps

variable {ι : Type} [DecidableEq ι] {calls : ι → MemoryCall} {s s' : MemoryState ι} {call other : ι} {key : String}
  {candidate : NormalizedMemoryCandidate}

omit [DecidableEq ι] in
theorem Single.view_length (h : Single s call) (hnone : ∀ row ∈ s.memories.rows, ¬HasKey key row) :
    ((s.memories.view call).filter (fun row => HasKey key row)).length ≤ 1 := by
  have hrows : (s.memories.rows.filter (fun row => row ∉ (s.memories.writes call).deleted)).filter
      (fun row => HasKey key row) = [] := by
    rw [List.filter_eq_nil_iff]
    intro row hrow hkey
    exact hnone row (List.mem_of_mem_filter hrow) (of_decide_eq_true hkey)
  rw [Table.view, List.filter_append, hrows, List.nil_append]
  exact (List.length_filter_le _ _).trans h.inserted

omit [DecidableEq ι] in
theorem Single.alone (h : Single s call) (hholds : s.Holds key call)
    (hcount : ((s.memories.view call).filter (fun row => HasKey key row)).length ≤ 1) :
    ∀ row ∈ s.memories.rows, ¬HasKey key row := by
  intro row hrow hkey
  obtain ⟨own, hown, hownKey⟩ := hholds
  have hrows : row ∈ (s.memories.rows.filter (fun row => row ∉ (s.memories.writes call).deleted)).filter
      (fun row => HasKey key row) := by
    refine List.mem_filter.mpr ⟨List.mem_filter.mpr ⟨hrow, ?_⟩, decide_eq_true hkey⟩
    rw [h.deleted]
    exact decide_eq_true List.not_mem_nil
  have hadded : own ∈ (s.memories.writes call).inserted.filter (fun row => HasKey key row) :=
    List.mem_filter.mpr ⟨hown, decide_eq_true hownKey⟩
  rw [Table.view, List.filter_append, List.length_append] at hcount
  have hfirst := List.length_pos_of_mem hrows
  have hsecond := List.length_pos_of_mem hadded
  omega

theorem MemoryInvariant.placed (h : MemoryInvariant s) {stage : MemoryStage} (hstage : s.stage call = stage) :
    StageHolds s call stage :=
  hstage ▸ h.calls call

theorem MemoryInvariant.inserted (h : MemoryInvariant s) {memoryId : String} (row : Memory)
    (hstage : s.stage call = .inserting candidate) (hkey : row.conflictKey = candidate.conflictKey)
    (hexclusive : (s.memories.insert call row).Exclusive Memory.id) :
    MemoryInvariant { s.enter call (.stored candidate memoryId) with memories := s.memories.insert call row } := by
  have hclean : s.memories.writes call = {} := h.placed hstage
  have hwrites : (s.memories.insert call row).writes call = { deleted := [], inserted := [row] } := by
    rw [Table.insert, Table.set_self, hclean]
    rfl
  refine h.advance call ⟨hexclusive, h.exclusive.sources⟩ rfl (fun third hthird => Table.set_of_ne _ _ hthird)
    (fun third hthird => enter_of_ne hthird) ?_ ?_
  · rw [show MemoryState.stage _ call = .stored candidate memoryId from enter_self]
    refine ⟨⟨?_, ?_⟩, fun own hown => ?_⟩
    · rw [hwrites]
    · rw [hwrites]
      exact le_refl 1
    · rw [hwrites] at hown
      rw [List.mem_singleton.mp hown]
      exact hkey
  · rw [show MemoryState.stage _ call = .stored candidate memoryId from enter_self]
    exact fun hcounted => hcounted.elim

theorem MemoryInvariant.counted (h : MemoryInvariant s) (hstage : s.stage call = .sourced candidate)
    (hkey : candidate.conflictKey = some key) (hcond : CountsInTime s (.statement call)) :
    MemoryInvariant (s.enter call (if 1 < ((s.memories.view call).filter (fun row => HasKey key row)).length then
      .conflicting key else .ready)) := by
  obtain ⟨hsingle, hkeys⟩ : Single s call ∧ _ := h.placed hstage
  have hcounting : key ∈ (s.stage call).counting := by
    rw [hstage]
    exact hkey
  have hown {key' : String} (hholds : s.Holds key' call) : key' = key := by
    obtain ⟨row, hrow, hrowKey⟩ := hholds
    exact hasKey_unique hrowKey ((hkeys row hrow).trans hkey)
  -- A call that has the key for itself would be one that this call must not overlook.
  have hquiet (key' : String) (hholds : s.Holds key' call) (other : ι) (hother : other ≠ call)
      (hready : s.stage other = .ready) : ¬s.Holds key' other := by
    obtain rfl := hown hholds
    intro hheld
    have hcall : StageHolds s other .ready := h.placed hready
    exact hcond key' hcounting hholds (hcall.2 key' hheld).1 other hother (hready ▸ trivial) hheld
  split_ifs with hcount
  · refine h.enter ⟨⟨hsingle.deleted, hsingle.inserted⟩, fun row hrow => (hkeys row hrow).trans hkey, ?_⟩
      (fun _ => hquiet)
    by_contra hnone
    rw [not_exists] at hnone
    exact absurd hcount (Nat.not_lt.mpr (hsingle.view_length (fun row hrow hrowKey => hnone row ⟨hrow, hrowKey⟩)))
  · refine h.enter ⟨⟨hsingle.deleted, hsingle.inserted⟩, fun key' hholds => ?_⟩ (fun _ => hquiet)
    obtain rfl := hown hholds
    have halone := hsingle.alone hholds (Nat.le_of_not_lt hcount)
    refine ⟨halone, fun other hother hcounted => ?_⟩
    rw [enter_of_ne hother] at hcounted
    exact hcond key' hcounting hholds halone other hother hcounted

theorem MemoryInvariant.selected (h : MemoryInvariant s) (hstage : s.stage call = .conflicting key) :
    MemoryInvariant (s.enter call (.marking key ((s.memories.view call).filter (fun row => HasKey key row)))) := by
  obtain ⟨hsingle, hkeys, hknown⟩ : Single s call ∧ (∀ row ∈ (s.memories.writes call).inserted, HasKey key row) ∧
    ∃ row ∈ s.memories.rows, HasKey key row := h.placed hstage
  refine h.enter ⟨fun row hrow => ⟨hkeys row hrow, .inr ⟨row, ?_, rfl⟩⟩, ?_, hknown, fun row hrow hrowKey => ?_⟩
    (fun _ key' hholds other _ hready => ?_)
  · exact List.mem_filter.mpr ⟨Table.mem_view.mpr (.inr hrow), decide_eq_true (hkeys row hrow)⟩
  · intro row hrow
    rw [enter_memories, hsingle.deleted] at hrow
    exact nomatch hrow
  · refine .inr (.inr ⟨row, List.mem_filter.mpr ⟨Table.mem_view.mpr (.inl ⟨hrow, ?_⟩), decide_eq_true hrowKey⟩, rfl⟩)
    rw [hsingle.deleted]
    exact List.not_mem_nil
  · obtain ⟨row, hrow, hrowKey⟩ := hholds
    obtain rfl := hasKey_unique hrowKey (hkeys row hrow)
    exact h.not_holds hknown hready

theorem MemoryInvariant.marked (h : MemoryInvariant s) {rest rest' : List Memory} {memories : Table ι Memory}
    (hstage : s.stage call = .marking key rest) (hexclusive : memories.Exclusive Memory.id)
    (hrows : memories.rows = s.memories.rows)
    (hwrites : ∀ third ≠ call, memories.writes third = s.memories.writes third)
    (hmarking : Marking { s.enter call (.marking key rest') with memories := memories } call key rest') :
    MemoryInvariant { s.enter call (.marking key rest') with memories := memories } := by
  refine h.advance call ⟨hexclusive, h.exclusive.sources⟩ hrows hwrites (fun third hthird => enter_of_ne hthird) ?_ ?_
  · rw [show MemoryState.stage _ call = .marking key rest' from enter_self]
    exact hmarking
  · rintro - key' ⟨row, hrow, hrowKey⟩ other - hready
    obtain rfl := hasKey_unique hrowKey (hmarking.inserted row hrow).1
    have hcall : Marking s call key' rest := h.placed hstage
    exact h.not_holds hcall.known hready

theorem left_behind {row added : Memory} {rest : List Memory} (hne : added.id ≠ row.id)
    (h : ∃ left ∈ row :: rest, left.id = added.id) : ∃ left ∈ rest, left.id = added.id := by
  obtain ⟨left, hleft, hid⟩ := h
  rcases List.mem_cons.mp hleft with rfl | hleft
  · exact absurd hid.symm hne
  · exact ⟨left, hleft, hid⟩

theorem MemoryInvariant.markedOwn (h : MemoryInvariant s) {row : Memory} {rest : List Memory}
    (hstage : s.stage call = .marking key (row :: rest))
    (hown : ∃ own ∈ (s.memories.writes call).inserted, own.id = row.id) :
    MemoryInvariant { s.enter call (.marking key rest) with
      memories := s.memories.amend call (fun own => if own.id = row.id then (calls call).marked own else own) } := by
  have hcall : Marking s call key (row :: rest) := h.placed hstage
  have hmark (own : Memory) : (if own.id = row.id then (calls call).marked own else own).id = own.id ∧
      (if own.id = row.id then (calls call).marked own else own).conflictKey = own.conflictKey := by
    split_ifs
    · exact ⟨rfl, rfl⟩
    · exact ⟨rfl, rfl⟩
  refine h.marked hstage (h.exclusive.memories.amend (fun own => (hmark own).1)) rfl
    (fun third hthird => Table.set_of_ne _ _ hthird) ⟨fun added hadded => ?_, fun old hold => ?_, hcall.known,
      fun old hold hkey => ?_⟩
  · change added ∈ ((s.memories.amend call _).writes call).inserted at hadded
    rw [Table.amend, Table.set_self] at hadded
    obtain ⟨own, hmem, rfl⟩ := List.mem_map.mp hadded
    obtain ⟨hkey, hstatus⟩ := hcall.inserted own hmem
    refine ⟨(hmark own).2.trans hkey, ?_⟩
    split_ifs with hid
    · exact .inl rfl
    · exact hstatus.imp_right (left_behind hid)
  · change old ∈ ((s.memories.amend call _).writes call).deleted at hold
    rw [Table.amend, Table.set_self] at hold
    obtain ⟨hkey, added, hadded, haddedKey⟩ := hcall.deleted old hold
    refine ⟨hkey, _, ?_, (hmark added).2.trans haddedKey⟩
    change _ ∈ ((s.memories.amend call _).writes call).inserted
    rw [Table.amend, Table.set_self]
    exact List.mem_map_of_mem hadded
  · change _ ∨ old ∈ ((s.memories.amend call _).writes call).deleted ∨ _
    rw [Table.amend, Table.set_self]
    rcases hcall.covered old hold hkey with hstatus | hdeleted | ⟨left, hleft, hleftId⟩
    · exact .inl hstatus
    · exact .inr (.inl hdeleted)
    · rcases List.mem_cons.mp hleft with rfl | hleft
      · -- The row that the transaction has added is not in the table beside it.
        obtain ⟨own, hmem, hid⟩ := hown
        by_cases hdeleted : old ∈ (s.memories.writes call).deleted
        · exact .inr (.inl hdeleted)
        · have hview := h.exclusive.memories.viewKey call
          rw [Table.view, List.map_append] at hview
          have hold' : old ∈ s.memories.rows.filter (fun row => row ∉ (s.memories.writes call).deleted) :=
            List.mem_filter.mpr ⟨hold, decide_eq_true hdeleted⟩
          exact absurd (List.mem_map.mpr ⟨own, hmem, hid.trans hleftId⟩)
            (List.disjoint_of_nodup_append hview (List.mem_map_of_mem hold'))
      · exact .inr (.inr ⟨left, hleft, hleftId⟩)

theorem MemoryInvariant.markedOther (h : MemoryInvariant s) {row current : Memory} {rest : List Memory}
    (hstage : s.stage call = .marking key (row :: rest))
    (hother : ∀ own ∈ (s.memories.writes call).inserted, own.id ≠ row.id) (hcurrent : current ∈ s.memories.rows)
    (hid : current.id = row.id) (hfree : ¬s.memories.Locked call current) (hkey : HasKey key current) :
    MemoryInvariant { s.enter call (.marking key rest) with
      memories := (s.memories.delete call current).insert call ((calls call).marked current) } := by
  have hcall : Marking s call key (row :: rest) := h.placed hstage
  have hexclusive : ((s.memories.delete call current).insert call ((calls call).marked current)).Exclusive Memory.id :=
    h.exclusive.memories.update hcurrent hfree rfl (fun own hown => hid ▸ hother own hown)
  have hwrites : ((s.memories.delete call current).insert call ((calls call).marked current)).writes call =
      { deleted := current :: (s.memories.writes call).deleted,
        inserted := (s.memories.writes call).inserted ++ [(calls call).marked current] } := by
    rw [Table.insert, Table.set_self, Table.delete, Table.set_self]
  have hmarked : HasKey key ((calls call).marked current) := hkey
  refine h.marked hstage hexclusive rfl (fun third hthird => ?_) ⟨fun added hadded => ?_, fun old hold => ?_,
    hcall.known, fun old hold holdKey => ?_⟩
  · rw [Table.insert, Table.set_of_ne _ _ hthird, Table.delete, Table.set_of_ne _ _ hthird]
  · change added ∈ (Table.writes _ call).inserted at hadded
    rw [hwrites] at hadded
    rcases List.mem_append.mp hadded with hadded | hadded
    · obtain ⟨haddedKey, hstatus⟩ := hcall.inserted added hadded
      exact ⟨haddedKey, hstatus.imp_right (left_behind (hother added hadded))⟩
    · rw [List.mem_singleton.mp hadded]
      exact ⟨hmarked, .inl rfl⟩
  · change old ∈ (Table.writes _ call).deleted at hold
    rw [hwrites] at hold
    refine ⟨?_, (calls call).marked current, ?_, hmarked⟩
    · rcases List.mem_cons.mp hold with rfl | hold
      · exact hkey
      · exact (hcall.deleted old hold).1
    · rw [hwrites]
      exact List.mem_append_right _ (List.mem_singleton_self _)
  · rw [hwrites]
    rcases hcall.covered old hold holdKey with hstatus | hdeleted | ⟨left, hleft, hleftId⟩
    · exact .inl hstatus
    · exact .inr (.inl (List.mem_cons_of_mem _ hdeleted))
    · rcases List.mem_cons.mp hleft with rfl | hleft
      · obtain rfl := List.inj_on_of_nodup_map h.exclusive.memories.rowsKey hold hcurrent (hleftId.symm.trans hid.symm)
        exact .inr (.inl List.mem_cons_self)
      · exact .inr (.inr ⟨left, hleft, hleftId⟩)

theorem MemoryInvariant.passed (h : MemoryInvariant s) {row : Memory} {rest : List Memory}
    (hstage : s.stage call = .marking key (row :: rest))
    (hother : ∀ own ∈ (s.memories.writes call).inserted, own.id ≠ row.id)
    (hnone : ∀ current, s.memories.rows.find? (fun current => current.id = row.id) = some current →
      ¬HasKey key current) : MemoryInvariant (s.enter call (.marking key rest)) := by
  have hcall : Marking s call key (row :: rest) := h.placed hstage
  refine h.marked hstage h.exclusive.memories rfl (fun _ _ => rfl) ⟨fun added hadded => ?_, hcall.deleted, hcall.known,
    fun old hold holdKey => ?_⟩
  · obtain ⟨haddedKey, hstatus⟩ := hcall.inserted added hadded
    exact ⟨haddedKey, hstatus.imp_right (left_behind (hother added hadded))⟩
  · rcases hcall.covered old hold holdKey with hstatus | hdeleted | ⟨left, hleft, hleftId⟩
    · exact .inl hstatus
    · exact .inr (.inl hdeleted)
    · rcases List.mem_cons.mp hleft with rfl | hleft
      · cases hfind : s.memories.rows.find? (fun current => current.id = left.id) with
        | none => exact absurd (decide_eq_true hleftId.symm) (List.find?_eq_none.mp hfind old hold)
        | some current =>
          have hfound := List.find?_some hfind
          have hid := of_decide_eq_true hfound
          have hsame := List.inj_on_of_nodup_map h.exclusive.memories.rowsKey hold (List.mem_of_find?_eq_some hfind)
            (hleftId.symm.trans hid.symm)
          exact absurd (hsame ▸ holdKey) (hnone current hfind)
      · exact .inr (.inr ⟨left, hleft, hleftId⟩)

theorem MemoryInvariant.committing (h : MemoryInvariant s)
    (hstage : s.stage call = .ready ∨ ∃ key, s.stage call = .marking key []) {row : Memory}
    (hrow : row ∈ (s.memories.writes call).inserted) (hkey : HasKey key row) :
    row.status = "conflicted" ∧ (∀ old ∈ s.memories.rows, HasKey key old →
      old.status = "conflicted" ∨ old ∈ (s.memories.writes call).deleted) ∨
    (∀ old ∈ s.memories.rows, ¬HasKey key old) ∧ ∀ other ∈ (s.memories.writes call).inserted, other = row := by
  rcases hstage with hstage | ⟨key', hstage⟩
  · obtain ⟨hsingle, halone⟩ : Single s call ∧ _ := h.placed hstage
    refine .inr ⟨(halone key ⟨row, hrow, hkey⟩).1, fun other hother => ?_⟩
    obtain ⟨only, honly⟩ := List.length_eq_one_iff.mp (le_antisymm hsingle.inserted (List.length_pos_of_mem hrow))
    rw [honly, List.mem_singleton] at hrow hother
    rw [hrow, hother]
  · have hcall : Marking s call key' [] := h.placed hstage
    obtain ⟨hrowKey, hstatus⟩ := hcall.inserted row hrow
    obtain rfl := hasKey_unique hkey hrowKey
    have hnone {id : String} : ¬∃ left ∈ ([] : List Memory), left.id = id := by
      rintro ⟨left, hleft, -⟩
      exact nomatch hleft
    refine .inl ⟨hstatus.resolve_right hnone, fun old hold holdKey => ?_⟩
    exact (hcall.covered old hold holdKey).imp_right (fun hcovered => hcovered.resolve_right hnone)

theorem MemoryInvariant.commit_conflicts (h : MemoryInvariant s)
    (hstage : s.stage call = .ready ∨ ∃ key, s.stage call = .marking key []) :
    ConflictsMarked (s.memories.view call) := by
  have hmixed {old added : Memory} {key : String} (hold : old ∈ s.memories.rows)
      (hkept : old ∉ (s.memories.writes call).deleted) (hadded : added ∈ (s.memories.writes call).inserted)
      (holdKey : HasKey key old) (haddedKey : HasKey key added) :
      old.status = "conflicted" ∧ added.status = "conflicted" := by
    rcases h.committing hstage hadded haddedKey with ⟨hstatus, hcovered⟩ | ⟨hnone, -⟩
    · exact ⟨(hcovered old hold holdKey).resolve_right hkept, hstatus⟩
    · exact absurd holdKey (hnone old hold)
  intro first hfirst second hsecond hne key hfirstKey hsecondKey
  rcases Table.mem_view.mp hfirst with ⟨hfirst, hfirstKept⟩ | hfirst
  · rcases Table.mem_view.mp hsecond with ⟨hsecond, -⟩ | hsecond
    · exact h.conflicts first hfirst second hsecond hne key hfirstKey hsecondKey
    · exact hmixed hfirst hfirstKept hsecond hfirstKey hsecondKey
  · rcases Table.mem_view.mp hsecond with ⟨hsecond, hsecondKept⟩ | hsecond
    · exact (hmixed hsecond hsecondKept hfirst hsecondKey hfirstKey).symm
    · rcases h.committing hstage hfirst hfirstKey with ⟨hstatus, -⟩ | ⟨-, hone⟩
      · rcases h.committing hstage hsecond hsecondKey with ⟨hstatus', -⟩ | ⟨-, hone⟩
        · exact ⟨hstatus, hstatus'⟩
        · exact absurd (congrArg Memory.id (hone first hfirst)) hne
      · exact absurd (congrArg Memory.id (hone second hsecond)).symm hne

theorem commit_stage : (s.commit call).stage call = .committed := enter_self

theorem MemoryInvariant.commit (h : MemoryInvariant s)
    (hstage : s.stage call = .ready ∨ ∃ key, s.stage call = .marking key []) : MemoryInvariant (s.commit call) := by
  have hcounted : (s.stage call).Counted := by
    rcases hstage with hstage | ⟨key, hstage⟩
    · rw [hstage]
      trivial
    · rw [hstage]
      trivial
  have hknown {key : String} (hknown : ∃ row ∈ s.memories.rows, HasKey key row) :
      ∃ row ∈ s.memories.view call, HasKey key row := by
    obtain ⟨row, hrow, hkey⟩ := hknown
    by_cases hdeleted : row ∈ (s.memories.writes call).deleted
    · rcases hstage with hstage | ⟨key', hstage⟩
      · obtain ⟨hsingle, -⟩ : Single s call ∧ _ := h.placed hstage
        rw [hsingle.deleted] at hdeleted
        exact nomatch hdeleted
      · have hcall : Marking s call key' [] := h.placed hstage
        obtain ⟨hrowKey, added, hadded, haddedKey⟩ := hcall.deleted row hdeleted
        obtain rfl := hasKey_unique hkey hrowKey
        exact ⟨added, Table.mem_view.mpr (.inr hadded), haddedKey⟩
    · exact ⟨row, Table.mem_view.mpr (.inl ⟨hrow, hdeleted⟩), hkey⟩
  refine ⟨⟨h.exclusive.memories.commit call, h.exclusive.sources.commit call⟩, h.commit_conflicts hstage,
    fun other => ?_⟩
  by_cases hother : other = call
  · subst hother
    rw [commit_stage]
    exact Table.commit_self _
  have hwrites (third : ι) (hthird : third ≠ call) :
      (s.commit call).memories.writes third = s.memories.writes third := Table.commit_of_ne _ hthird
  have hstages (third : ι) (hthird : third ≠ call) : (s.commit call).stage third = s.stage third := enter_of_ne hthird
  apply (h.calls other).carry hother hwrites hstages
  · intro hready key hholds row hrow hkey
    have hplace : Single s other ∧ _ := h.placed hready
    rcases Table.mem_view.mp hrow with ⟨hrow, -⟩ | hrow
    · exact hrow
    · exact absurd ⟨row, hrow, hkey⟩ ((hplace.2 key hholds).2 call (Ne.symm hother) hcounted)
  · rw [commit_stage]
    exact fun hcounted => hcounted.elim
  · exact fun key => hknown
  · intro key ⟨old, hold, holdKey⟩ row hrow hkey
    rcases Table.mem_view.mp hrow with ⟨hrow, -⟩ | hrow
    · exact .inl hrow
    · rcases h.committing hstage hrow hkey with ⟨hstatus, -⟩ | ⟨hnone, -⟩
      · exact .inr hstatus
      · exact absurd holdKey (hnone old hold)

end steps

section runs

variable {ι : Type} [DecidableEq ι] [Fintype ι] {calls : ι → MemoryCall} {s s' : MemoryState ι}
  {memories : List Memory} {sources : List MemorySource}

omit [Fintype ι] in
theorem MemoryMove.keeps {call : ι} (h : MemoryInvariant s) (hcond : CountsInTime s (.statement call))
    (hmove : MemoryMove calls s call s') : MemoryInvariant s' := by
  have hexclusive := hmove.exclusive h.exclusive
  cases hmove with
  | fail => exact h.fail call
  | found hstage =>
    have hclean : s.memories.writes call = {} := h.placed hstage
    refine h.enter ⟨.of_clean hclean, fun row hrow => ?_⟩ (fun hcounted => hcounted.elim)
    rw [enter_memories, hclean] at hrow
    exact nomatch hrow
  | missing hstage =>
    have hclean : s.memories.writes call = {} := h.placed hstage
    exact h.enter hclean (fun hcounted => hcounted.elim)
  | insertMemory row hstage hkey => exact h.inserted row hstage hkey hexclusive.memories
  | knownSource hstage =>
    obtain ⟨hsingle, hkeys⟩ : Single s call ∧ _ := h.placed hstage
    exact h.enter ⟨⟨hsingle.deleted, hsingle.inserted⟩, hkeys⟩ (fun hcounted => hcounted.elim)
  | newSource hstage =>
    obtain ⟨hsingle, hkeys⟩ : Single s call ∧ _ := h.placed hstage
    exact h.enter ⟨⟨hsingle.deleted, hsingle.inserted⟩, hkeys⟩ (fun hcounted => hcounted.elim)
  | @insertSource candidate _ row hstage =>
    obtain ⟨hsingle, hkeys⟩ : Single s call ∧ _ := h.placed hstage
    refine h.advance call hexclusive rfl (fun _ _ => rfl) (fun third hthird => enter_of_ne hthird) ?_ ?_
    · rw [show MemoryState.stage _ call = .sourced candidate from enter_self]
      exact ⟨⟨hsingle.deleted, hsingle.inserted⟩, hkeys⟩
    · rw [show MemoryState.stage _ call = .sourced candidate from enter_self]
      exact fun hcounted => hcounted.elim
  | noKey hstage hkey =>
    obtain ⟨hsingle, hkeys⟩ : Single s call ∧ _ := h.placed hstage
    have hnone (key : String) : ¬s.Holds key call := by
      rintro ⟨row, hrow, hrowKey⟩
      have hboth := (hkeys row hrow).trans hkey
      rw [hrowKey] at hboth
      exact nomatch hboth
    refine h.enter ⟨⟨hsingle.deleted, hsingle.inserted⟩, fun key hholds => absurd hholds (hnone key)⟩ ?_
    exact fun _ key hholds => absurd hholds (hnone key)
  | countOne hstage hkey hcount =>
    have hcounted := h.counted hstage hkey hcond
    rwa [if_neg (Nat.not_lt.mpr hcount)] at hcounted
  | countMore hstage hkey hcount =>
    have hcounted := h.counted hstage hkey hcond
    rwa [if_pos hcount] at hcounted
  | select hstage => exact h.selected hstage
  | markOwn hstage hown => exact h.markedOwn hstage hown
  | markOther hstage hother hcurrent hid hfree hkey => exact h.markedOther hstage hother hcurrent hid hfree hkey
  | pass hstage hother hnone => exact h.passed hstage hother hnone
  | commit hstage => exact h.commit hstage

theorem MemoryInvariant.step {action : MemoryAction ι} (h : MemoryInvariant s) (hcond : CountsInTime s action)
    (hstep : MemoryStep calls s action s') : MemoryInvariant s' := by
  cases action with
  | statement call => exact (statement_move hstep).keeps h hcond
  | rollback call =>
    unfold MemoryStep MemoryState.next at hstep
    dsimp only at hstep
    split_ifs at hstep
    obtain rfl := Option.some.inj hstep
    exact h.fail call

omit [DecidableEq ι] [Fintype ι] in
theorem MemoryState.Exclusive.initial [DecidableEq ι] (hmemories : (memories.map Memory.id).Nodup)
    (hsources : (sources.map sourceKey).Nodup) : (@MemoryState.initial ι memories sources).Exclusive :=
  ⟨Table.exclusive_start hmemories, Table.exclusive_start hsources⟩

end runs

section facts

def fact (memoryId sourceId identityId content : String) : MemoryCall where
  identityId := identityId
  candidate :=
    { kind := "fact", content := content, conflictKey := some "deployment:default_database",
      confidence := some (9 / 10), evidence := content, observedAt := "2026-08-31T00:00:00Z" }
  memoryId := memoryId
  sourceId := sourceId
  now := "2026-08-31T00:00:01Z"
  markedAt := "2026-08-31T00:00:02Z"

def twoFacts : Bool → MemoryCall
  | false => fact "m0" "s0" "identity" "PostgreSQL 14"
  | true => fact "m1" "s1" "identity" "PostgreSQL 16"

def factRun (actions : List (MemoryAction Bool)) : List (MemoryAction Bool × MemoryState Bool) :=
  (follow (fun s => MemoryState.next s twoFacts) (MemoryState.initial [] []) actions).getD []

theorem factRun_run {actions : List (MemoryAction Bool)}
    (h : (follow (fun s => MemoryState.next s twoFacts) (MemoryState.initial [] []) actions).isSome) :
    Run (MemoryStep twoFacts) (MemoryState.initial [] []) (factRun actions) := by
  obtain ⟨run, hrun⟩ := Option.isSome_iff_exists.mp h
  rw [factRun, hrun]
  exact follow_run hrun

def serially : List (MemoryAction Bool) := List.replicate 6 (.statement false) ++ List.replicate 9 (.statement true)

def overlooking : List (MemoryAction Bool) :=
  List.replicate 5 (.statement false) ++ List.replicate 5 (.statement true) ++ [.statement false, .statement true]

end facts

section results

/-- In every run no two sources stand for one observation, and in every run whose counts come in time all memories with
one conflict key stand conflicted. -/
theorem conflicts_marked_of_counts {ι : Type} [DecidableEq ι] [Fintype ι] (calls : ι → MemoryCall)
    {memories : List Memory} {sources : List MemorySource} (hmemories : (memories.map Memory.id).Nodup)
    (hsources : (sources.map sourceKey).Nodup) (hmarked : ConflictsMarked memories)
    {run : List (MemoryAction ι × MemoryState ι)} (hrun : Run (MemoryStep calls) (.initial memories sources) run) :
    (∀ entry ∈ run, (entry.2.sources.rows.map sourceKey).Nodup) ∧
      (Along CountsInTime (.initial memories sources) run →
        ∀ entry ∈ run, ConflictsMarked entry.2.memories.rows) := by
  have hexclusive : (@MemoryState.initial ι memories sources).Exclusive := .initial hmemories hsources
  constructor
  · intro entry hentry
    have hkeep (s : MemoryState ι) (action : MemoryAction ι) (s' : MemoryState ι) (hs : s.Exclusive)
        (hstep : MemoryStep calls s action s') : s'.Exclusive := hstep.move.exclusive hs
    exact (hrun.forall_of_keeps hexclusive hkeep entry hentry).sources.rowsKey
  · intro halong entry hentry
    have hstart : MemoryInvariant (@MemoryState.initial ι memories sources) := ⟨hexclusive, hmarked, fun _ => rfl⟩
    exact (hrun.forall_of_along hstart halong (fun _ _ _ h hcond hstep => h.step hcond hstep) entry hentry).conflicts

theorem conflicts_marked_serially : Along CountsInTime (.initial [] []) (factRun serially) ∧
    ∀ entry ∈ factRun serially, ConflictsMarked entry.2.memories.rows := by
  have hcond : Along CountsInTime (.initial [] []) (factRun serially) := by decide +kernel
  refine ⟨hcond, ?_⟩
  exact (conflicts_marked_of_counts twoFacts (by decide) (by decide) (fun _ h => absurd h List.not_mem_nil)
    (factRun_run (by decide +kernel))).2 hcond

/-- Two calls that both count before either commits leave both memories active. -/
theorem conflicts_marked_not : Run (MemoryStep twoFacts) (.initial [] []) (factRun overlooking) ∧
    ∃ entry ∈ factRun overlooking, (∀ call, entry.2.stage call = .committed) ∧
      ¬ConflictsMarked entry.2.memories.rows := by
  refine ⟨factRun_run (by decide +kernel), ?_⟩
  have hfinal : (factRun overlooking).any (fun entry => decide (∀ call, entry.2.stage call = .committed) &&
      entry.2.memories.rows.any (fun first => entry.2.memories.rows.any (fun second =>
        decide (first.id ≠ second.id ∧ HasKey "deployment:default_database" first ∧
          HasKey "deployment:default_database" second ∧ first.status = "active")))) = true := by
    decide +kernel
  simp only [List.any_eq_true, Bool.and_eq_true, decide_eq_true_eq] at hfinal
  obtain ⟨entry, hentry, hcommitted, first, hfirst, second, hsecond, hne, hkey, hkey', hactive⟩ := hfinal
  refine ⟨entry, hentry, hcommitted, ?_⟩
  intro hmarked
  have hstatus := (hmarked first hfirst second hsecond hne _ hkey hkey').1
  rw [hactive] at hstatus
  exact absurd hstatus (by decide)

end results

end Prelay.Store.Memories
