import Mathlib.Tactic.NormNum
import Prelay.FailoverRun

namespace Prelay.Failover

inductive RegistryOp where
  | rest (providerId : String) (base : ℕ)
  | clear (providerId : String)
  | resting (providerId : String)

abbrev History := List (ℕ × RegistryOp)

namespace FailoverRegistry

def call (rests : FailoverRegistry) : ℕ × RegistryOp → FailoverRegistry
  | (now, .rest providerId base) => rests.rest now providerId base
  | (_, .clear providerId) => rests.clear providerId
  | (now, .resting providerId) => (rests.resting now providerId).2

def after (history : History) : FailoverRegistry := history.foldl call (fun _ => none)

def consecutiveAt (now : ℕ) (providerId : String) (rests : FailoverRegistry) : ℕ :=
  match rests providerId with
  | some entry => if now < entry.untilTime then min (entry.consecutive + 1) (2 ^ 32 - 1) else 1
  | none => 1

def restDuration (now : ℕ) (providerId : String) (base : ℕ) (rests : FailoverRegistry) : ℕ :=
  min (base * 2 ^ min (rests.consecutiveAt now providerId - 1) 10) maxRest

theorem rest_self (now : ℕ) (providerId : String) (base : ℕ) (rests : FailoverRegistry) :
    rests.rest now providerId base providerId =
      some ⟨now + rests.restDuration now providerId base, rests.consecutiveAt now providerId⟩ :=
  Function.update_self ..

theorem rest_of_ne {providerId other : String} (h : other ≠ providerId) (now base : ℕ) (rests : FailoverRegistry) :
    rests.rest now providerId base other = rests other :=
  Function.update_of_ne h ..

theorem after_concat (history : History) (op : ℕ × RegistryOp) :
    after (history ++ [op]) = (after history).call op := by
  simp [after]

end FailoverRegistry

open FailoverRegistry

def IsBase (base : ℕ) : Prop := ∃ error, restBase error = some base

theorem isBase_iff (base : ℕ) : IsBase base ↔ base = 60000 ∨ base = 300000 := by
  constructor
  · rintro ⟨error, hbase⟩
    unfold restBase at hbase
    split at hbase
    · exact .inl (Option.some.inj hbase).symm
    · split_ifs at hbase
      · exact .inr (Option.some.inj hbase).symm
      · exact .inl (Option.some.inj hbase).symm
    · exact .inl (Option.some.inj hbase).symm
    · exact nomatch hbase
  · rintro (rfl | rfl)
    · exact ⟨.upstream none "", rfl⟩
    · exact ⟨.upstream (some 401) "", rfl⟩

structure Ordered (history : History) : Prop where
  times : (history.map Prod.fst).Pairwise (· ≤ ·)
  bases : ∀ now providerId base, (now, RegistryOp.rest providerId base) ∈ history → IsBase base

def lastFailure (providerId : String) (history : History) : Option (ℕ × ℕ) :=
  history.reverse.findSome? (fun
    | (now, .rest id base) => if id = providerId then some (now, base) else none
    | _ => none)

/-- A failure of the shorter base comes soon after one of the longer base, early in its row. -/
def Undercuts (last : ℕ × ℕ) (consecutive now base : ℕ) : Prop :=
  base = 60000 ∧ last.2 = 300000 ∧
    (consecutive = 1 ∧ now < last.1 + 180000 ∨ consecutive = 2 ∧ now < last.1 + 360000 ∨
      consecutive = 3 ∧ now < last.1 + 120000)

structure Entered (last : ℕ × ℕ) (entry : RestEntry) : Prop where
  base : IsBase last.2
  consecutive : 1 ≤ entry.consecutive
  untilTime : entry.untilTime = last.1 + min (last.2 * 2 ^ min (entry.consecutive - 1) 10) maxRest

theorem consecutiveAt_resting {rests : FailoverRegistry} {providerId : String} {entry : RestEntry} {now : ℕ}
    (hentry : rests providerId = some entry) (hresting : now < entry.untilTime) :
    rests.consecutiveAt now providerId = min (entry.consecutive + 1) (2 ^ 32 - 1) := by
  simp only [consecutiveAt, hentry, hresting, ↓reduceIte]

theorem consecutiveAt_pos (rests : FailoverRegistry) (now : ℕ) (providerId : String) :
    1 ≤ rests.consecutiveAt now providerId := by
  unfold consecutiveAt
  split
  · split_ifs
    · exact le_min (Nat.le_add_left 1 _) (by norm_num)
    · exact le_rfl
  · exact le_rfl

theorem lastFailure_rest (providerId : String) (history : History) (now base : ℕ) :
    lastFailure providerId (history ++ [(now, .rest providerId base)]) = some (now, base) := by
  simp [lastFailure]

theorem lastFailure_other {providerId : String} {op : ℕ × RegistryOp}
    (h : ∀ now base, op ≠ (now, .rest providerId base)) (history : History) :
    lastFailure providerId (history ++ [op]) = lastFailure providerId history := by
  obtain ⟨now, op⟩ := op
  cases op with
  | rest id base =>
    have hne : id ≠ providerId := by
      rintro rfl
      exact h now base rfl
    simp [lastFailure, hne]
  | clear id => simp [lastFailure]
  | resting id => simp [lastFailure]

theorem Ordered.take {history before later : History} (h : Ordered history) (hsplit : history = before ++ later) :
    Ordered before where
  times := by
    have htimes := h.times
    rw [hsplit, List.map_append] at htimes
    exact (List.pairwise_append.mp htimes).1
  bases := fun now providerId base hmem => h.bases now providerId base (hsplit ▸ List.mem_append_left _ hmem)

theorem after_entered {history : History} (h : Ordered history) {providerId : String} {entry : RestEntry}
    (hentry : after history providerId = some entry) :
    ∃ last, lastFailure providerId history = some last ∧ Entered last entry := by
  induction history using List.reverseRecOn generalizing entry with
  | nil => exact nomatch hentry
  | append_singleton history op ih =>
    rw [after_concat] at hentry
    have hearlier : (∀ now base, op ≠ (now, .rest providerId base)) → after history providerId = some entry →
        ∃ last, lastFailure providerId (history ++ [op]) = some last ∧ Entered last entry := by
      intro hop hold
      rw [lastFailure_other hop]
      exact ih (h.take rfl) hold
    obtain ⟨now, op⟩ := op
    cases op with
    | rest id base =>
      by_cases hid : id = providerId
      · subst hid
        rw [call, rest_self] at hentry
        obtain rfl := Option.some.inj hentry
        refine ⟨(now, base), lastFailure_rest id history now base, ?_, consecutiveAt_pos _ now id, rfl⟩
        exact h.bases now id base (List.mem_append_right _ (List.mem_singleton.mpr rfl))
      · rw [call, rest_of_ne (Ne.symm hid)] at hentry
        apply hearlier _ hentry
        rintro now' base' heq
        exact hid (by injection heq with _ heq; injection heq)
    | clear id =>
      rw [call, clear] at hentry
      apply hearlier (fun _ _ => nofun)
      by_cases hid : providerId = id
      · subst hid
        rw [Function.update_self] at hentry
        exact nomatch hentry
      · rwa [Function.update_of_ne hid] at hentry
    | resting id =>
      apply hearlier (fun _ _ => nofun)
      rcases resting_snd (after history) now id providerId with hsame | ⟨hnone, -⟩
      · exact hsame ▸ hentry
      · exact nomatch hnone.symm.trans hentry

theorem shift_resting (consecutive : ℕ) :
    min (min (consecutive + 1) (2 ^ 32 - 1) - 1) 10 = min consecutive 10 := by
  have hmax : 11 ≤ 2 ^ 32 - 1 := by norm_num
  generalize 2 ^ 32 - 1 = saturated at hmax ⊢
  omega

theorem untilTime_le_iff {last : ℕ × ℕ} {entry : RestEntry} (h : Entered last entry) {now base : ℕ}
    (hbase : IsBase base) (hnow : last.1 ≤ now) :
    entry.untilTime ≤ now + min (base * 2 ^ min entry.consecutive 10) maxRest ↔
      ¬Undercuts last entry.consecutive now base := by
  obtain ⟨hlast, hpos, huntil⟩ := h
  rw [huntil]
  rw [isBase_iff] at hbase hlast
  unfold Undercuts
  by_cases hsmall : entry.consecutive ≤ 3
  · have hcases : entry.consecutive = 1 ∨ entry.consecutive = 2 ∨ entry.consecutive = 3 := by omega
    unfold maxRest
    rcases hcases with hc | hc | hc
    · have hrunning : 2 ^ min (entry.consecutive - 1) 10 = 1 := by rw [hc]; rfl
      have hfurther : 2 ^ min entry.consecutive 10 = 2 := by rw [hc]; rfl
      rw [hrunning, hfurther, hc]
      omega
    · have hrunning : 2 ^ min (entry.consecutive - 1) 10 = 2 := by rw [hc]; rfl
      have hfurther : 2 ^ min entry.consecutive 10 = 4 := by rw [hc]; rfl
      rw [hrunning, hfurther, hc]
      omega
    · have hrunning : 2 ^ min (entry.consecutive - 1) 10 = 4 := by rw [hc]; rfl
      have hfurther : 2 ^ min entry.consecutive 10 = 8 := by rw [hc]; rfl
      rw [hrunning, hfurther, hc]
      omega
  · -- from the fourth failure on the new duration is the longest one
    have hshift : 4 ≤ min entry.consecutive 10 := by omega
    have hpow : 2 ^ 4 ≤ 2 ^ min entry.consecutive 10 := Nat.pow_le_pow_right (by norm_num) hshift
    have hmul : 60000 * 2 ^ 4 ≤ base * 2 ^ min entry.consecutive 10 := Nat.mul_le_mul (by omega) hpow
    have hlong : maxRest ≤ base * 2 ^ min entry.consecutive 10 := hmul.trans' (by norm_num [maxRest])
    have hshort : min (last.2 * 2 ^ min (entry.consecutive - 1) 10) maxRest ≤ maxRest := min_le_right _ _
    rw [min_eq_right hlong]
    constructor
    · omega
    · omega

structure Fails (history before : History) (now : ℕ) (providerId : String) (base : ℕ) (entry : RestEntry) : Prop where
  call : ∃ later, history = before ++ (now, .rest providerId base) :: later
  entered : after before providerId = some entry
  resting : now < entry.untilTime

theorem Ordered.times_le {history before later : History} {now : ℕ} {op : RegistryOp} (h : Ordered history)
    (hsplit : history = before ++ (now, op) :: later) {earlier : ℕ × RegistryOp} (hmem : earlier ∈ before) :
    earlier.1 ≤ now := by
  have htimes := h.times
  rw [hsplit, List.map_append, List.pairwise_append] at htimes
  exact htimes.2.2 _ (List.mem_map_of_mem hmem) _ List.mem_cons_self

theorem lastFailure_mem {providerId : String} {history : History} {last : ℕ × ℕ}
    (h : lastFailure providerId history = some last) : (last.1, .rest providerId last.2) ∈ history := by
  obtain ⟨⟨now, op⟩, hmem, hop⟩ := List.exists_of_findSome?_eq_some h
  cases op with
  | rest id base =>
    dsimp only at hop
    split_ifs at hop with hid
    obtain rfl := Option.some.inj hop
    exact hid ▸ List.mem_reverse.mp hmem
  | clear id => exact nomatch hop
  | resting id => exact nomatch hop

/-- One more failure leaves the end of a cooldown where it is, or later, unless it undercuts the failure before. -/
theorem Fails.kept_iff {history before : History} {now base : ℕ} {providerId : String} {entry : RestEntry}
    (hordered : Ordered history) (h : Fails history before now providerId base entry) :
    entry.untilTime ≤ now + (after before).restDuration now providerId base ↔
      ∀ last ∈ lastFailure providerId before, ¬Undercuts last entry.consecutive now base := by
  obtain ⟨later, hsplit⟩ := h.call
  have hentry := h.entered
  have hresting := h.resting
  obtain ⟨last, hlast, hentered⟩ := after_entered (hordered.take hsplit) hentry
  have hnow : last.1 ≤ now := hordered.times_le hsplit (lastFailure_mem hlast)
  have hbase : IsBase base := by
    apply hordered.bases now providerId base
    rw [hsplit]
    exact List.mem_append_right _ List.mem_cons_self
  rw [restDuration, consecutiveAt_resting hentry hresting, shift_resting, untilTime_le_iff hentered hbase hnow, hlast]
  exact ⟨fun hkept _ hmem => Option.some.inj hmem ▸ hkept, fun hkept => hkept last rfl⟩

/-- The cooldowns of a history are never shortened when no failure in it undercuts the one before. -/
theorem cooldown_kept_iff {history : History} (hordered : Ordered history) :
    (∀ before now providerId base entry, Fails history before now providerId base entry →
      (∃ entry', (after before).rest now providerId base providerId = some entry' ∧
        entry.untilTime ≤ entry'.untilTime) ∧
      (after before).restDuration now providerId base ≤ maxRest) ↔
    ∀ before now providerId base entry, Fails history before now providerId base entry →
      ∀ last ∈ lastFailure providerId before, ¬Undercuts last entry.consecutive now base := by
  apply forall₅_congr
  intro before now providerId base entry
  apply imp_congr_right
  intro hfails
  rw [← hfails.kept_iff hordered, rest_self]
  constructor
  · rintro ⟨⟨entry', hentry', hle⟩, -⟩
    obtain rfl := Option.some.inj hentry'
    exact hle
  · exact fun hle => ⟨⟨_, rfl, hle⟩, min_le_right _ _⟩

def unreachable : History := [(0, .rest "p1" 60000), (1000, .rest "p1" 60000)]

theorem cooldown_kept_unreachable :
    Ordered unreachable ∧ ∀ before now providerId base entry, Fails unreachable before now providerId base entry →
      (∃ entry', (after before).rest now providerId base providerId = some entry' ∧
        entry.untilTime ≤ entry'.untilTime) ∧
      (after before).restDuration now providerId base ≤ maxRest := by
  have hbases : ∀ now providerId base, (now, RegistryOp.rest providerId base) ∈ unreachable → base = 60000 := by
    intro now providerId base hmem
    simp only [unreachable, List.mem_cons, Prod.mk.injEq, RegistryOp.rest.injEq, List.not_mem_nil, or_false] at hmem
    omega
  have hordered : Ordered unreachable := by
    refine ⟨by decide, fun now providerId base hmem => ?_⟩
    rw [hbases now providerId base hmem]
    exact ⟨.upstream none "", rfl⟩
  refine ⟨hordered, (cooldown_kept_iff hordered).mpr ?_⟩
  rintro before now providerId base entry ⟨⟨later, hsplit⟩, -, -⟩ last hlast ⟨-, hlong, -⟩
  have hmem := lastFailure_mem (Option.mem_def.mp hlast)
  have hshort := hbases last.1 providerId last.2 (hsplit ▸ List.mem_append_left _ hmem)
  omega

def rejected : History := [(0, .rest "p1" 300000), (1000, .rest "p1" 60000)]

theorem cooldown_shortened :
    Ordered rejected ∧ ∃ before now base entry, Fails rejected before now "p1" base entry ∧
      entry.untilTime = 300000 ∧
      ∃ entry', (after before).rest now "p1" base "p1" = some entry' ∧ entry'.untilTime = 121000 := by
  refine ⟨⟨by decide, ?_⟩, [(0, .rest "p1" 300000)], 1000, 60000, ⟨300000, 1⟩, ⟨⟨[], rfl⟩, rfl, by decide⟩, rfl,
    ⟨121000, 2⟩, rfl, rfl⟩
  intro now providerId base hmem
  have hcases : base = 300000 ∨ base = 60000 := by
    simp only [rejected, List.mem_cons, Prod.mk.injEq, RegistryOp.rest.injEq, List.not_mem_nil, or_false] at hmem
    omega
  rw [isBase_iff]
  exact hcases.symm

end Prelay.Failover
