import Prelay.Failover

namespace Prelay.Failover

section visits

variable {C T : Type}

/-- A candidate that is tried: the errors it is attempted again after, and the outcome of its last attempt. -/
structure Visit (C T : Type) where
  candidate : C
  retried : List AppError
  outcome : Except AppError T

namespace Visit

def calls (v : Visit C T) : Calls C T :=
  v.retried.map (fun error => (v.candidate, .error error)) ++ [(v.candidate, v.outcome)]

def Allowed (policy : UpstreamPolicy) (v : Visit C T) : Prop :=
  v.retried.length ≤ policy.maxRetries ∧ ∀ error ∈ v.retried, error.isRetryableUpstream = true

def Rests (v : Visit C T) : Prop := ∃ error, v.outcome = .error error ∧ (restBase error).isSome = true

def Wins (v : Visit C T) : Prop := ∃ response, v.outcome = .ok response

variable (providerId : C → String)

def settle (now : ℕ) (v : Visit C T) (failover : FailoverRegistry) : FailoverRegistry :=
  match v.outcome with
  | .ok _ => failover.clear (providerId v.candidate)
  | .error error =>
    match restBase error with
    | some base => failover.rest now (providerId v.candidate) base
    | none => failover

end Visit

def Attempted (attempt : Calls C T → C → Except AppError T) (start : ℕ) (calls : Calls C T) : Prop :=
  ∀ i candidate outcome, start ≤ i → calls[i]? = some (candidate, outcome) → outcome = attempt (calls.take i) candidate

theorem Attempted.nil {attempt : Calls C T → C → Except AppError T} {calls : Calls C T} :
    Attempted attempt calls.length calls := by
  intro i candidate outcome hi hcall
  rw [List.getElem?_eq_none hi] at hcall
  exact nomatch hcall

theorem Attempted.single {attempt : Calls C T → C → Except AppError T} {calls : Calls C T} {candidate : C}
    {outcome : Except AppError T} (h : attempt calls candidate = outcome) :
    Attempted attempt calls.length (calls ++ [(candidate, outcome)]) := by
  intro i candidate' outcome' hi hcall
  have hlength := (List.getElem?_eq_some_iff.mp hcall).1
  rw [List.length_append, List.length_singleton] at hlength
  obtain rfl : i = calls.length := by omega
  rw [List.getElem?_concat_length] at hcall
  obtain ⟨rfl, rfl⟩ := Prod.mk.inj (Option.some.inj hcall)
  rw [List.take_left, h]

theorem Attempted.append {attempt : Calls C T → C → Except AppError T} {start : ℕ} {calls more : Calls C T}
    (h : Attempted attempt start calls) (hmore : Attempted attempt calls.length (calls ++ more)) :
    Attempted attempt start (calls ++ more) := by
  intro i candidate outcome hi hcall
  by_cases hlt : i < calls.length
  · rw [List.getElem?_append_left hlt] at hcall
    rw [List.take_append_of_le_length hlt.le]
    exact h i candidate outcome hi hcall
  · exact hmore i candidate outcome (not_lt.mp hlt) hcall

theorem retryLoop_visit (attempt : Calls C T → C → Except AppError T) (candidate : C) (retries : ℕ) (calls : Calls C T) :
    ∃ v : Visit C T, v.candidate = candidate ∧ v.retried.length ≤ retries ∧
      (∀ error ∈ v.retried, error.isRetryableUpstream = true) ∧
      retryLoop attempt candidate retries calls = (v.outcome, calls ++ v.calls) ∧
      Attempted attempt calls.length (calls ++ v.calls) := by
  induction retries generalizing calls with
  | zero =>
    exact ⟨⟨candidate, [], attempt calls candidate⟩, rfl, le_rfl, fun _ h => (List.not_mem_nil h).elim, rfl,
      Attempted.single rfl⟩
  | succ retries ih =>
    rw [retryLoop]
    cases hfirst : attempt calls candidate with
    | ok response =>
      exact ⟨⟨candidate, [], .ok response⟩, rfl, Nat.zero_le _, fun _ h => (List.not_mem_nil h).elim, rfl,
        Attempted.single hfirst⟩
    | error error =>
      by_cases hretry : error.isRetryableUpstream = true
      · obtain ⟨v, rfl, hlength, hretried, hloop, hattempted⟩ := ih (calls ++ [(candidate, .error error)])
        have hcalls : calls ++ Visit.calls ⟨v.candidate, error :: v.retried, v.outcome⟩ =
            calls ++ [(v.candidate, .error error)] ++ v.calls := by
          rw [List.append_assoc]
          rfl
        refine ⟨⟨v.candidate, error :: v.retried, v.outcome⟩, rfl, Nat.succ_le_succ hlength, ?_, ?_, ?_⟩
        · rw [List.forall_mem_cons]
          exact ⟨hretry, hretried⟩
        · simp only [hretry, ↓reduceIte, hloop, hcalls]
        · rw [hcalls]
          exact (Attempted.single hfirst).append hattempted
      · refine ⟨⟨candidate, [], .error error⟩, rfl, Nat.zero_le _, fun _ h => (List.not_mem_nil h).elim, ?_,
          Attempted.single hfirst⟩
        simp only [hretry, Bool.false_eq_true, ↓reduceIte]
        rfl

theorem restBase_of_not_failoverable {error : AppError} (h : error.isFailoverableUpstream = false) :
    restBase error = none := by
  cases error with
  | upstream status message => exact nomatch h
  | upstreamInvalidResponse message => exact nomatch h
  | _ => rfl

variable (providerId : C → String) (clock : ℕ → ℕ)

def settleAll : ℕ → List (Visit C T) → FailoverRegistry → FailoverRegistry
  | _, [], failover => failover
  | tick, v :: visits, failover => settleAll (tick + 1) visits (v.settle providerId (clock tick) failover)

/-- How the loop ends when `visits` are all the candidates of `ordered` that are tried. -/
structure Ended (ordered : List C) (noCandidateError : AppError) (visits : List (Visit C T))
    (result : Except AppError (T × String)) : Prop where
  tried : visits.map Visit.candidate <+: ordered
  failedOver : ∀ v ∈ visits.dropLast, ∃ error, v.outcome = .error error ∧ error.isFailoverableUpstream = true
  success : ∀ v response, visits.getLast? = some v → v.outcome = .ok response →
    result = .ok (response, providerId v.candidate)
  failure : ∀ v error, visits.getLast? = some v → v.outcome = .error error → result = .error error
  early : visits.map Visit.candidate ≠ ordered → ∃ v, visits.getLast? = some v ∧
    (v.Wins ∨ ∃ error, v.outcome = .error error ∧ error.isFailoverableUpstream = false)
  untried : visits = [] → result = .error noCandidateError

variable {providerId}

theorem Ended.single {v : Visit C T} {ordered : List C} {noCandidateError : AppError}
    {result : Except AppError (T × String)}
    (hstop : v.Wins ∨ ∃ error, v.outcome = .error error ∧ error.isFailoverableUpstream = false)
    (hsuccess : ∀ response, v.outcome = .ok response → result = .ok (response, providerId v.candidate))
    (hfailure : ∀ error, v.outcome = .error error → result = .error error) :
    Ended providerId (v.candidate :: ordered) noCandidateError [v] result where
  tried := ⟨ordered, rfl⟩
  failedOver w hw := (List.not_mem_nil hw).elim
  success w response hw := by
    obtain rfl := Option.some.inj hw
    exact hsuccess response
  failure w error hw := by
    obtain rfl := Option.some.inj hw
    exact hfailure error
  early _ := ⟨v, rfl, hstop⟩
  untried h := nomatch h

theorem Ended.cons {v : Visit C T} {error : AppError} (hv : v.outcome = .error error)
    (hfailover : error.isFailoverableUpstream = true) {ordered : List C} {noCandidateError : AppError}
    {visits : List (Visit C T)} {result : Except AppError (T × String)}
    (h : Ended providerId ordered error visits result) :
    Ended providerId (v.candidate :: ordered) noCandidateError (v :: visits) result := by
  cases visits with
  | nil =>
    refine ⟨⟨ordered, rfl⟩, fun w hw => (List.not_mem_nil hw).elim, ?_, ?_, ?_, fun hnil => nomatch hnil⟩
    · intro w response hw hwin
      obtain rfl := Option.some.inj hw
      exact nomatch hv.symm.trans hwin
    · intro w error' hw hw'
      obtain rfl := Option.some.inj hw
      obtain rfl := Except.error.inj (hv.symm.trans hw')
      exact h.untried rfl
    · intro hne
      have hearly : ([] : List (Visit C T)).map Visit.candidate ≠ ordered := by
        rintro rfl
        exact hne rfl
      obtain ⟨w, hw, -⟩ := h.early hearly
      exact nomatch hw
  | cons w visits =>
    have hlast : (v :: w :: visits).getLast? = (w :: visits).getLast? := List.getLast?_cons_cons
    constructor
    · exact List.prefix_cons_inj _ |>.mpr h.tried
    · rw [List.dropLast_cons_cons, List.forall_mem_cons]
      exact ⟨⟨error, hv, hfailover⟩, h.failedOver⟩
    · rw [hlast]
      exact h.success
    · rw [hlast]
      exact h.failure
    · rw [hlast]
      intro hne
      apply h.early
      intro heq
      exact hne (congrArg (v.candidate :: ·) heq)
    · exact fun hnil => nomatch hnil

theorem runLoop_visits (attempt : Calls C T → C → Except AppError T) (policy : UpstreamPolicy)
    (noCandidateError : AppError)
    (tick : ℕ) (lastUpstreamError : Option AppError) (ordered : List C) (failover : FailoverRegistry) (calls : Calls C T) :
    ∃ visits : List (Visit C T),
      Ended providerId ordered (lastUpstreamError.getD noCandidateError) visits
        (runLoop attempt providerId clock policy noCandidateError tick lastUpstreamError ordered failover calls).result ∧
      (∀ v ∈ visits, v.Allowed policy) ∧
      (runLoop attempt providerId clock policy noCandidateError tick lastUpstreamError ordered failover calls).failover =
        settleAll providerId clock tick visits failover ∧
      (runLoop attempt providerId clock policy noCandidateError tick lastUpstreamError ordered failover calls).calls =
        calls ++ visits.flatMap Visit.calls ∧
      Attempted attempt calls.length (calls ++ visits.flatMap Visit.calls) := by
  induction ordered generalizing tick lastUpstreamError failover calls with
  | nil =>
    refine ⟨[], ⟨List.prefix_rfl, ?_, ?_, ?_, ?_, ?_⟩, ?_, rfl, ?_, ?_⟩
    · exact fun v hv => (List.not_mem_nil hv).elim
    · exact fun v response hv => nomatch hv
    · exact fun v error hv => nomatch hv
    · exact fun hne => absurd rfl hne
    · exact fun _ => rfl
    · exact fun v hv => (List.not_mem_nil hv).elim
    · exact (List.append_nil _).symm
    · rw [List.flatMap_nil, List.append_nil]
      exact Attempted.nil
  | cons resolved ordered ih =>
    obtain ⟨v, rfl, hlength, hretried, hloop, hattempted⟩ :=
      retryLoop_visit attempt resolved policy.maxRetries calls
    have hsingle : Attempted attempt calls.length (calls ++ [v].flatMap Visit.calls) := by
      rw [List.flatMap_singleton]
      exact hattempted
    cases hv : v.outcome with
    | ok response =>
      rw [runLoop, retryWithPolicy, hloop, hv]
      refine ⟨[v], Ended.single (.inl ⟨response, hv⟩) ?_ ?_, ?_, ?_, ?_, hsingle⟩
      · intro response' hresponse
        obtain rfl := Except.ok.inj (hv.symm.trans hresponse)
        rfl
      · exact fun error herror => nomatch hv.symm.trans herror
      · rintro w (_ | ⟨_, hw⟩)
        · exact ⟨hlength, hretried⟩
        · exact (List.not_mem_nil hw).elim
      · simp [settleAll, Visit.settle, hv]
      · simp
    | error error =>
      by_cases hfailover : error.isFailoverableUpstream = true
      · obtain ⟨visits, hended, hallowed, hregistry, hcalls, hlater⟩ := ih (tick + 1) (some error)
          (v.settle providerId (clock tick) failover) (calls ++ v.calls)
        have hstep : runLoop attempt providerId clock policy noCandidateError tick lastUpstreamError
            (v.candidate :: ordered) failover calls = runLoop attempt providerId clock policy noCandidateError (tick + 1)
              (some error) ordered (v.settle providerId (clock tick) failover) (calls ++ v.calls) := by
          rewrite [runLoop, retryWithPolicy, hloop, Visit.settle, hv]
          cases hbase : restBase error with
          | none => simp only [hfailover, ↓reduceIte, hbase]
          | some base => simp only [hfailover, ↓reduceIte, hbase]
        rw [hstep]
        refine ⟨v :: visits, hended.cons hv hfailover, ?_, hregistry, ?_, ?_⟩
        · rw [List.forall_mem_cons]
          exact ⟨⟨hlength, hretried⟩, hallowed⟩
        · rw [hcalls, List.flatMap_cons, List.append_assoc]
        · rw [List.flatMap_cons, ← List.append_assoc]
          exact hattempted.append hlater
      · have hstop : error.isFailoverableUpstream = false := by simpa using hfailover
        rw [runLoop, retryWithPolicy, hloop, hv]
        simp only [hstop, Bool.false_eq_true, ↓reduceIte]
        refine ⟨[v], Ended.single (.inr ⟨error, hv, hstop⟩) ?_ ?_, ?_, ?_, ?_, hsingle⟩
        · exact fun response hresponse => nomatch hv.symm.trans hresponse
        · intro error' herror
          obtain rfl := Except.error.inj (hv.symm.trans herror)
          rfl
        · rintro w (_ | ⟨_, hw⟩)
          · exact ⟨hlength, hretried⟩
          · exact (List.not_mem_nil hw).elim
        · simp [settleAll, Visit.settle, hv, restBase_of_not_failoverable hstop]
        · simp

end visits

section order

variable {C : Type} {providerId : C → String} {clock : ℕ → ℕ}

theorem resting_fst (failover : FailoverRegistry) (now : ℕ) (provider : String) :
    (failover.resting now provider).1 = (failover provider).any (fun entry => now < entry.untilTime) := by
  unfold FailoverRegistry.resting
  cases failover provider with
  | none => rfl
  | some entry =>
    rw [Option.any_some]
    dsimp only
    split_ifs with hresting
    · exact (decide_eq_true hresting).symm
    · exact (decide_eq_false hresting).symm

theorem resting_snd (failover : FailoverRegistry) (now : ℕ) (asked other : String) :
    (failover.resting now asked).2 other = failover other ∨
      (failover.resting now asked).2 other = none ∧ ∃ entry, failover other = some entry ∧ entry.untilTime ≤ now := by
  unfold FailoverRegistry.resting
  cases hasked : failover asked with
  | none => exact .inl rfl
  | some entry =>
    dsimp only
    split_ifs with hresting
    · exact .inl rfl
    · by_cases hother : other = asked
      · subst hother
        exact .inr ⟨Function.update_self .., entry, hasked, not_lt.mp hresting⟩
      · exact .inl (Function.update_of_ne hother ..)

theorem resting_after (failover : FailoverRegistry) {now later : ℕ} (h : now ≤ later) (asked other : String) :
    ((failover.resting now asked).2.resting later other).1 = (failover.resting later other).1 := by
  rw [resting_fst, resting_fst]
  rcases resting_snd failover now asked other with hsame | ⟨hnone, entry, hentry, hexpired⟩
  · rw [hsame]
  · rw [hnone, hentry]
    exact (decide_eq_false (not_lt.mpr (hexpired.trans h))).symm

def Checked (clock : ℕ → ℕ) (failover checked : FailoverRegistry) (provider : String) : Prop :=
  checked provider = failover provider ∨
    checked provider = none ∧ ∃ entry tick, failover provider = some entry ∧ entry.untilTime ≤ clock tick

theorem resting_checked (failover : FailoverRegistry) (tick : ℕ) (asked provider : String) :
    Checked clock failover (failover.resting (clock tick) asked).2 provider := by
  rcases resting_snd failover (clock tick) asked provider with hsame | ⟨hnone, entry, hentry, hexpired⟩
  · exact .inl hsame
  · exact .inr ⟨hnone, entry, tick, hentry, hexpired⟩

theorem Checked.trans {first second third : FailoverRegistry} {provider : String} (h : Checked clock first second provider)
    (h' : Checked clock second third provider) : Checked clock first third provider := by
  rcases h with h | ⟨h, hexpired⟩
  · rw [Checked, ← h]
    exact h'
  · rcases h' with h' | ⟨h', -⟩
    · exact .inr ⟨h'.trans h, hexpired⟩
    · exact .inr ⟨h', hexpired⟩

def restsAt (providerId : C → String) (clock : ℕ → ℕ) (failover : FailoverRegistry) (p : C × ℕ) : Bool :=
  (failover.resting (clock p.2) (providerId p.1)).1

def readyThenResting (providerId : C → String) (clock : ℕ → ℕ) (candidates : List C) (failover : FailoverRegistry) :
    List C :=
  ((candidates.zipIdx.filter (fun p => !restsAt providerId clock failover p)) ++
    (candidates.zipIdx.filter (restsAt providerId clock failover))).map Prod.fst

theorem partitionResting_spec (hclock : Monotone clock) (tick : ℕ) (candidates : List C) (failover : FailoverRegistry) :
    (partitionResting providerId clock tick candidates failover).1 =
        (((candidates.zipIdx tick).filter (restsAt providerId clock failover)).map Prod.fst,
          ((candidates.zipIdx tick).filter (fun p => !restsAt providerId clock failover p)).map Prod.fst) ∧
      ∀ provider, Checked clock failover (partitionResting providerId clock tick candidates failover).2 provider := by
  induction candidates generalizing tick failover with
  | nil => exact ⟨rfl, fun provider => .inl rfl⟩
  | cons candidate candidates ih =>
    obtain ⟨hlists, hchecked⟩ := ih (tick + 1) (failover.resting (clock tick) (providerId candidate)).2
    have hsame : ∀ p ∈ candidates.zipIdx (tick + 1),
        restsAt providerId clock (failover.resting (clock tick) (providerId candidate)).2 p =
          restsAt providerId clock failover p := by
      intro p hp
      apply resting_after
      apply hclock
      have := List.le_snd_of_mem_zipIdx hp
      omega
    rw [List.filter_congr hsame, List.filter_congr (fun p hp => congrArg not (hsame p hp))] at hlists
    have hfirst : restsAt providerId clock failover (candidate, tick) =
        (failover.resting (clock tick) (providerId candidate)).1 := rfl
    rw [partitionResting, List.zipIdx_cons, List.filter_cons, List.filter_cons, hfirst]
    simp only [hlists]
    constructor
    · cases (failover.resting (clock tick) (providerId candidate)).1 with
      | true => rfl
      | false => rfl
    · intro provider
      have hthrough := (resting_checked failover tick (providerId candidate) provider).trans (hchecked provider)
      split_ifs
      · exact hthrough
      · exact hthrough

theorem orderCandidates_spec (hclock : Monotone clock) (candidates : List C) (failover : FailoverRegistry) :
    (orderCandidates providerId clock candidates failover).1 = readyThenResting providerId clock candidates failover ∧
      ∀ provider, Checked clock failover (orderCandidates providerId clock candidates failover).2 provider := by
  obtain ⟨hlists, hchecked⟩ := @partitionResting_spec _ providerId _ hclock 0 candidates failover
  refine ⟨?_, hchecked⟩
  unfold orderCandidates
  simp only [hlists]
  rw [readyThenResting, List.map_append]

end order

section cooling

variable {C T : Type} {providerId : C → String} {clock : ℕ → ℕ}

theorem settle_untouched {v : Visit C T} {provider : String}
    (h : providerId v.candidate = provider → ¬v.Wins ∧ ¬v.Rests) (now : ℕ) (failover : FailoverRegistry) :
    v.settle providerId now failover provider = failover provider := by
  unfold Visit.settle
  cases hv : v.outcome with
  | ok response =>
    have hne : provider ≠ providerId v.candidate := fun heq => (h heq.symm).1 ⟨response, hv⟩
    exact Function.update_of_ne hne ..
  | error error =>
    dsimp only
    cases hbase : restBase error with
    | none => rfl
    | some base =>
      have hne : provider ≠ providerId v.candidate :=
        fun heq => (h heq.symm).2 ⟨error, hv, by rw [hbase]; rfl⟩
      exact Function.update_of_ne hne ..

theorem settleAll_untouched {visits : List (Visit C T)} {provider : String}
    (h : ∀ v ∈ visits, providerId v.candidate = provider → ¬v.Wins ∧ ¬v.Rests) (tick : ℕ) (failover : FailoverRegistry) :
    settleAll providerId clock tick visits failover provider = failover provider := by
  induction visits generalizing tick failover with
  | nil => rfl
  | cons v visits ih =>
    rw [List.forall_mem_cons] at h
    rw [settleAll, ih h.2, settle_untouched h.1]

theorem settleAll_concat (tick : ℕ) (visits : List (Visit C T)) (v : Visit C T) (failover : FailoverRegistry) :
    settleAll providerId clock tick (visits ++ [v]) failover =
      v.settle providerId (clock (tick + visits.length)) (settleAll providerId clock tick visits failover) := by
  induction visits generalizing tick failover with
  | nil => rfl
  | cons w visits ih =>
    rw [List.cons_append, settleAll, settleAll, ih, List.length_cons, Nat.add_right_comm, Nat.add_assoc]

theorem restBase_pos {error : AppError} {base : ℕ} (h : restBase error = some base) : 0 < base := by
  unfold restBase at h
  split at h
  · obtain rfl := Option.some.inj h
    decide
  · split_ifs at h
    · obtain rfl := Option.some.inj h
      decide
    · obtain rfl := Option.some.inj h
      decide
  · obtain rfl := Option.some.inj h
    decide
  · exact nomatch h

theorem settle_rests {v : Visit C T} (h : v.Rests) (now : ℕ) (failover : FailoverRegistry) :
    ∃ entry, v.settle providerId now failover (providerId v.candidate) = some entry ∧ now < entry.untilTime := by
  obtain ⟨error, hv, hrests⟩ := h
  obtain ⟨base, hbase⟩ := Option.isSome_iff_exists.mp hrests
  have hpos := restBase_pos hbase
  unfold Visit.settle
  rw [hv]
  dsimp only
  rw [hbase]
  refine ⟨_, Function.update_self .., ?_⟩
  have hduration (shift : ℕ) : 0 < min (base * 2 ^ shift) maxRest :=
    lt_min (Nat.mul_pos hpos (Nat.two_pow_pos shift)) (by decide)
  exact Nat.lt_add_of_pos_right (hduration _)

theorem settleAll_rests (hclock : Monotone clock) {visits : List (Visit C T)} {provider : String}
    (hwins : ∀ v ∈ visits, providerId v.candidate = provider → ¬v.Wins) {start tick : ℕ} (hstart : start ≤ tick)
    {failover : FailoverRegistry}
    (h : (∃ entry, failover provider = some entry ∧ clock start < entry.untilTime) ∨
      ∃ v ∈ visits, providerId v.candidate = provider ∧ v.Rests) :
    ∃ entry, settleAll providerId clock tick visits failover provider = some entry ∧ clock start < entry.untilTime := by
  induction visits generalizing tick failover with
  | nil =>
    rcases h with h | ⟨v, hv, -⟩
    · exact h
    · exact (List.not_mem_nil hv).elim
  | cons v visits ih =>
    rw [List.forall_mem_cons] at hwins
    rw [settleAll]
    apply ih hwins.2 (by omega)
    by_cases hrests : providerId v.candidate = provider ∧ v.Rests
    · obtain ⟨rfl, hrests⟩ := hrests
      obtain ⟨entry, hentry, hlt⟩ := @settle_rests _ _ providerId v hrests (clock tick) failover
      exact .inl ⟨entry, hentry, (hclock hstart).trans_lt hlt⟩
    · have hsame : v.settle providerId (clock tick) failover provider = failover provider :=
        settle_untouched (fun heq => ⟨hwins.1 heq, fun hv => hrests ⟨heq, hv⟩⟩) _ _
      rw [hsame]
      rcases h with h | ⟨w, hw, heq, hw'⟩
      · exact .inl h
      · rcases List.mem_cons.mp hw with rfl | hw
        · exact absurd ⟨heq, hw'⟩ hrests
        · exact .inr ⟨w, hw, heq, hw'⟩

theorem Ended.cleared {ordered : List C} {noCandidateError : AppError} {visits : List (Visit C T)}
    {result : Except AppError (T × String)} (h : Ended providerId ordered noCandidateError visits result) {v : Visit C T}
    (hv : v ∈ visits) (hwins : v.Wins) (tick : ℕ) (failover : FailoverRegistry) :
    settleAll providerId clock tick visits failover (providerId v.candidate) = none := by
  obtain ⟨response, hwins⟩ := hwins
  obtain ⟨init, last, rfl⟩ := List.eq_nil_or_concat' visits |>.resolve_left (List.ne_nil_of_mem hv)
  rcases List.mem_append.mp hv with hinit | hlast
  · obtain ⟨error, herror, -⟩ := h.failedOver v (by rwa [List.dropLast_concat])
    exact nomatch hwins.symm.trans herror
  · obtain rfl := List.mem_singleton.mp hlast
    rw [settleAll_concat, Visit.settle, hwins]
    exact Function.update_self ..

structure Cooled (providerId : C → String) (clock : ℕ → ℕ) (start : ℕ) (visits : List (Visit C T))
    (before after : FailoverRegistry) : Prop where
  untouched : ∀ provider, (∀ v ∈ visits, providerId v.candidate = provider → ¬v.Wins ∧ ¬v.Rests) →
    Checked clock before after provider
  cleared : ∀ v ∈ visits, v.Wins → after (providerId v.candidate) = none
  rested : ∀ v ∈ visits, v.Rests → (∀ w ∈ visits, providerId w.candidate = providerId v.candidate → ¬w.Wins) →
    ∃ entry, after (providerId v.candidate) = some entry ∧ clock start < entry.untilTime

theorem candidates_failed_over (hclock : Monotone clock) (attempt : Calls C T → C → Except AppError T)
    (policy : UpstreamPolicy) (noCandidateError : AppError) (candidates : List C) (failover : FailoverRegistry)
    (calls : Calls C T) :
    let finished := runEndpointModelCandidates attempt providerId clock policy noCandidateError candidates failover calls
    ∃ visits : List (Visit C T),
      Ended providerId
        ((readyThenResting providerId clock candidates failover).take (policy.maxCandidates.getD usizeMax))
        noCandidateError visits finished.result ∧
      (∀ v ∈ visits, v.Allowed policy) ∧
      finished.calls = calls ++ visits.flatMap Visit.calls ∧
      (∀ i candidate outcome, calls.length ≤ i → finished.calls[i]? = some (candidate, outcome) →
        outcome = attempt (finished.calls.take i) candidate) ∧
      Cooled providerId clock candidates.length visits failover finished.failover := by
  intro finished
  obtain ⟨horder, hchecked⟩ := @orderCandidates_spec _ providerId _ hclock candidates failover
  obtain ⟨visits, hended, hallowed, hregistry, hcalls, hattempted⟩ := @runLoop_visits _ _ providerId clock attempt policy
    noCandidateError candidates.length none
    ((orderCandidates providerId clock candidates failover).1.take (policy.maxCandidates.getD usizeMax))
    (orderCandidates providerId clock candidates failover).2 calls
  rw [horder] at hended hregistry hcalls
  have hfinished : finished = runLoop attempt providerId clock policy noCandidateError candidates.length none
      ((readyThenResting providerId clock candidates failover).take (policy.maxCandidates.getD usizeMax))
      (orderCandidates providerId clock candidates failover).2 calls := by
    rw [← horder]
    rfl
  rw [hfinished]
  refine ⟨visits, hended, hallowed, hcalls, ?_, ?_⟩
  · rw [hcalls]
    exact hattempted
  rw [hregistry]
  constructor
  · intro provider h
    refine (hchecked provider).trans (.inl ?_)
    exact settleAll_untouched h _ _
  · exact fun v hv hwins => hended.cleared hv hwins _ _
  · intro v hv hrests hwins
    exact settleAll_rests hclock hwins le_rfl (.inr ⟨v, hv, rfl, hrests⟩)

end cooling

def firstDown (_ : Calls String ℕ) (candidate : String) : Except AppError ℕ :=
  if candidate = "first" then .error (.upstream none "down") else .ok 7

theorem candidates_failed_over_second :
    let finished := runEndpointModelCandidates firstDown id id ⟨1, none⟩ .unauthorized ["first", "second"]
      (fun _ => none) []
    finished.result = .ok (7, "second") ∧
      finished.calls = [("first", .error (.upstream none "down")), ("first", .error (.upstream none "down")),
        ("second", .ok 7)] ∧
      ∃ visits : List (Visit String ℕ),
        Ended id ((readyThenResting id id ["first", "second"] (fun _ => none)).take usizeMax) .unauthorized visits
          finished.result ∧
        (∀ v ∈ visits, v.Allowed ⟨1, none⟩) ∧ finished.calls = [] ++ visits.flatMap Visit.calls ∧
        (∀ i candidate outcome, 0 ≤ i → finished.calls[i]? = some (candidate, outcome) →
          outcome = firstDown (finished.calls.take i) candidate) ∧
        Cooled id id 2 visits (fun _ => none) finished.failover := by
  intro finished
  exact ⟨by rfl, by rfl, candidates_failed_over monotone_id firstDown ⟨1, none⟩ .unauthorized ["first", "second"]
    (fun _ => none) []⟩

end Prelay.Failover
