import Prelay.Recording

namespace Prelay.Recording

open Json Bridge Rollout

def Storage.Succeeds (storage : Storage) : Prop :=
  storage.startStream = true ∧ storage.insertStreamResult = true ∧
    (∀ draft, storage.appendContent draft = true) ∧ storage.finishWith = true

namespace Effect

def activityStatus : Effect → Option ActivityStatus
  | .startStream log => some log.status
  | .insertStreamResult log => some log.status
  | .updateStream update => update.status
  | _ => none

def isFinish : Effect → Bool
  | .finishWith _ _ _ _ => true
  | _ => false

def isSave : Effect → Bool
  | .saveResponseState _ => true
  | _ => false

def finishesAs (status : RolloutStatus) : Effect → Bool
  | .finishWith s _ _ _ => s = status
  | _ => false

end Effect

def activityStatus (effects : List Effect) : Option ActivityStatus :=
  effects.foldl (fun status effect => effect.activityStatus.or status) none

theorem activityStatus_append_quiet (effects tail : List Effect) (h : ∀ e ∈ tail, e.activityStatus = none) :
    activityStatus (effects ++ tail) = activityStatus effects := by
  unfold activityStatus
  rw [List.foldl_append]
  generalize effects.foldl (fun status effect => effect.activityStatus.or status) none = status
  induction tail with
  | nil => rfl
  | cons e tail ih =>
    rw [List.foldl_cons, h e List.mem_cons_self, Option.none_or]
    exact ih (fun e he => h e (List.mem_cons_of_mem _ he))

theorem activityStatus_written (effects tail : List Effect) (e : Effect) (status : ActivityStatus)
    (he : e.activityStatus = some status) (h : ∀ e ∈ tail, e.activityStatus = none) :
    activityStatus (effects ++ e :: tail) = some status := by
  rw [List.append_cons, activityStatus_append_quiet _ _ h, activityStatus, List.foldl_append]
  simp [he]

def Closing (status : RolloutStatus) (tail : List Effect) : Prop :=
  ∃ (drafts : List ContentDraft) (httpStatus : Option ℕ) (code message : Option String),
    tail = drafts.map .appendContent ++ [.finishWith status httpStatus code message, .completeStream]

theorem Closing.quiet {status : RolloutStatus} {tail : List Effect} (h : Closing status tail) :
    ∀ e ∈ tail, e.activityStatus = none ∧ e.isSave = false := by
  obtain ⟨drafts, httpStatus, code, message, rfl⟩ := h
  intro e he
  simp only [List.mem_append, List.mem_map, List.mem_cons, List.not_mem_nil, or_false] at he
  rcases he with ⟨draft, -, rfl⟩ | rfl | rfl <;> exact ⟨rfl, rfl⟩

theorem Closing.finishes {status : RolloutStatus} {tail : List Effect} (h : Closing status tail) :
    tail.countP Effect.isFinish = 1 := by
  obtain ⟨drafts, httpStatus, code, message, rfl⟩ := h
  have hdrafts : (drafts.map Effect.appendContent).countP Effect.isFinish = 0 := by
    simp [List.countP_eq_zero, Effect.isFinish]
  rw [List.countP_append, hdrafts]
  rfl

theorem Closing.finishesAs {status other : RolloutStatus} {tail : List Effect} (h : Closing status tail) :
    tail.any (Effect.finishesAs other) = decide (status = other) := by
  obtain ⟨drafts, httpStatus, code, message, rfl⟩ := h
  have hdrafts : (drafts.map Effect.appendContent).any (Effect.finishesAs other) = false := by
    simp [Effect.finishesAs]
  rw [List.any_append, hdrafts]
  simp [Effect.finishesAs]

def Opened (effects : List Effect) : Prop :=
  ∃ log body, effects = .startStream log :: body ∧ log.status = .streaming ∧
    ∀ e ∈ body, e.activityStatus = none ∧ e.isFinish = false

theorem Opened.append {effects new : List Effect} (h : Opened effects)
    (hnew : ∀ e ∈ new, e.activityStatus = none ∧ e.isFinish = false) : Opened (effects ++ new) := by
  obtain ⟨log, body, rfl, hlog, hbody⟩ := h
  refine ⟨log, body ++ new, rfl, hlog, fun e he => ?_⟩
  rcases List.mem_append.mp he with he | he
  · exact hbody e he
  · exact hnew e he

theorem Opened.not_failed {effects : List Effect} (h : Opened effects) :
    ∀ e ∈ effects, e.activityStatus ≠ some .failed ∧ e.isFinish = false := by
  obtain ⟨log, body, rfl, hlog, hbody⟩ := h
  intro e he
  rcases List.mem_cons.mp he with rfl | he
  · exact ⟨by simp [Effect.activityStatus, hlog], rfl⟩
  · exact ⟨by simp [(hbody e he).1], (hbody e he).2⟩

inductive Ended : List Effect → Prop
  | refused : Ended []
  | empty (draft : ContentDraft) (httpStatus : Option ℕ) (code message : Option String) (log : ActivityInsert)
      (h : log.status = .failed) :
      Ended [.appendContent draft, .finishWith .failed httpStatus code message, .insertStreamResult log]
  | firstFailed (log : ActivityInsert) (tail : List Effect) (h : log.status = .failed)
      (ht : Closing .failed tail) : Ended (.startStream log :: tail)
  | succeeded (effects : List Effect) (update : StreamActivityUpdate) (tail : List Effect)
      (he : Opened effects) (h : update.status = some .success) (ht : Closing .completed tail) :
      Ended (effects ++ .updateStream update :: tail)
  | failed (effects : List Effect) (update : StreamActivityUpdate) (tail : List Effect)
      (he : Opened effects) (h : update.status = some .failed) (ht : Closing .failed tail) :
      Ended (effects ++ .updateStream update :: tail)

/-- No write of the second kind stands behind a write that records a failure. -/
def NoneAfterFailure (bad : Effect → Prop) (effects : List Effect) : Prop :=
  effects.Pairwise (fun a b => a.activityStatus = some .failed → ¬bad b)

theorem noneAfterFailure_closed {effects tail : List Effect} {e : Effect} {bad : Effect → Prop}
    (he : ∀ a ∈ effects, a.activityStatus ≠ some .failed) (ht : ∀ b ∈ tail, b.activityStatus = none ∧ ¬bad b) :
    NoneAfterFailure bad (effects ++ e :: tail) := by
  have htail : NoneAfterFailure bad tail :=
    List.pairwise_of_forall_mem_list (fun a ha b hb _ => (ht b hb).2)
  refine List.pairwise_append.mpr ⟨?_, List.pairwise_cons.mpr ⟨fun b hb _ => (ht b hb).2, htail⟩, ?_⟩
  · exact List.pairwise_of_forall_mem_list (fun a ha b hb hfail => absurd hfail (he a ha))
  · intro a ha b hb hfail
    exact absurd hfail (he a ha)

theorem Ended.noneAfterFailure {effects : List Effect} (h : Ended effects) :
    NoneAfterFailure (fun b => b.activityStatus = some .success ∨ b.isSave = true) effects := by
  have hquiet : ∀ {status : RolloutStatus} {tail : List Effect}, Closing status tail →
      ∀ b ∈ tail, b.activityStatus = none ∧ ¬(b.activityStatus = some .success ∨ b.isSave = true) := by
    intro status tail ht b hb
    obtain ⟨hstatus, hsave⟩ := ht.quiet b hb
    simp [hstatus, hsave]
  cases h with
  | refused => exact List.Pairwise.nil
  | empty draft httpStatus code message log h =>
    simp [NoneAfterFailure, Effect.activityStatus]
  | firstFailed log tail h ht =>
    have hnone : ∀ a ∈ ([] : List Effect), a.activityStatus ≠ some .failed := by simp
    exact noneAfterFailure_closed hnone (hquiet ht)
  | succeeded pre update tail he h ht =>
    exact noneAfterFailure_closed (fun a ha => (he.not_failed a ha).1) (hquiet ht)
  | failed pre update tail he h ht =>
    exact noneAfterFailure_closed (fun a ha => (he.not_failed a ha).1) (hquiet ht)

theorem Opened.countP_isFinish {effects : List Effect} (h : Opened effects) :
    effects.countP Effect.isFinish = 0 :=
  List.countP_eq_zero.mpr (fun e he => by simp [(h.not_failed e he).2])

theorem Opened.not_finishesAs {effects : List Effect} (h : Opened effects) (status : RolloutStatus) :
    effects.any (Effect.finishesAs status) = false := by
  rw [List.any_eq_false]
  intro e he
  have := (h.not_failed e he).2
  cases e <;> simp_all [Effect.isFinish, Effect.finishesAs]

theorem Ended.finished_once {effects : List Effect} (h : Ended effects) (hne : effects ≠ []) :
    effects.countP Effect.isFinish = 1 := by
  cases h with
  | refused => exact absurd rfl hne
  | empty => rfl
  | firstFailed log tail h ht => simp [Effect.isFinish, ht.finishes]
  | succeeded pre update tail he h ht =>
    rw [List.countP_append, he.countP_isFinish, List.countP_cons_of_neg (by simp [Effect.isFinish]), ht.finishes]
  | failed pre update tail he h ht =>
    rw [List.countP_append, he.countP_isFinish, List.countP_cons_of_neg (by simp [Effect.isFinish]), ht.finishes]

theorem Ended.status_iff {effects : List Effect} (h : Ended effects) :
    activityStatus effects = some .success ↔ effects.any (Effect.finishesAs .completed) = true := by
  cases h with
  | refused => simp [activityStatus]
  | empty draft httpStatus code message log h =>
    simp [activityStatus, Effect.activityStatus, Effect.finishesAs, h]
  | firstFailed log tail h ht =>
    have hstatus := activityStatus_written [] tail (.startStream log) .failed (by simp [Effect.activityStatus, h])
      (fun e he => (ht.quiet e he).1)
    rw [List.nil_append] at hstatus
    rw [hstatus, List.any_cons, ht.finishesAs]
    simp [Effect.finishesAs]
  | succeeded pre update tail he h ht =>
    rw [activityStatus_written pre tail (.updateStream update) .success h (fun e he => (ht.quiet e he).1),
      List.any_append, List.any_cons, ht.finishesAs]
    simp
  | failed pre update tail he h ht =>
    rw [activityStatus_written pre tail (.updateStream update) .failed h (fun e he => (ht.quiet e he).1),
      List.any_append, List.any_cons, ht.finishesAs, he.not_finishesAs]
    simp [Effect.finishesAs]

end Prelay.Recording
