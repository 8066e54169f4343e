import Mathlib.Logic.Function.Basic
import Mathlib.Order.Monotone.Defs
import Prelay.AppError

namespace Prelay.Failover

-- Times and durations are in milliseconds.
structure RestEntry where
  untilTime : ℕ
  consecutive : ℕ

abbrev FailoverRegistry := String → Option RestEntry

def maxRest : ℕ := 600000

def restBase : AppError → Option ℕ
  | .upstream none _ => some 60000
  | .upstream (some status) _ =>
    if 401 ≤ status ∧ status ≤ 403 then some 300000
    else if status = 408 ∨ status = 429 ∨ (500 ≤ status ∧ status ≤ 599) then some 60000
    else none
  | .upstreamInvalidResponse _ => some 60000
  | _ => none

namespace FailoverRegistry

def rest (now : ℕ) (providerId : String) (base : ℕ) (rests : FailoverRegistry) : FailoverRegistry :=
  let consecutive := match rests providerId with
    | some entry => if now < entry.untilTime then min (entry.consecutive + 1) (2 ^ 32 - 1) else 1
    | none => 1
  let shift := min (consecutive - 1) 10
  let duration := min (base * 2 ^ shift) maxRest
  Function.update rests providerId (some ⟨now + duration, consecutive⟩)

def clear (providerId : String) (rests : FailoverRegistry) : FailoverRegistry := Function.update rests providerId none

/-- An entry that has expired is dropped when it is asked for. -/
def resting (now : ℕ) (providerId : String) (rests : FailoverRegistry) : Bool × FailoverRegistry :=
  match rests providerId with
  | some entry => if now < entry.untilTime then (true, rests) else (false, Function.update rests providerId none)
  | none => (false, rests)

end FailoverRegistry

structure UpstreamPolicy where
  maxRetries : ℕ
  maxCandidates : Option ℕ

def usizeMax : ℕ := 2 ^ 64 - 1

section run

variable {C T : Type}

abbrev Calls (C T : Type) := List (C × Except AppError T)

-- Any outcome may depend on all the attempts before it.
variable (attempt : Calls C T → C → Except AppError T)

def retryLoop (candidate : C) : ℕ → Calls C T → Except AppError T × Calls C T
  | 0, calls => (attempt calls candidate, calls ++ [(candidate, attempt calls candidate)])
  | retries + 1, calls =>
    match attempt calls candidate with
    | .ok response => (.ok response, calls ++ [(candidate, .ok response)])
    | .error error =>
      if error.isRetryableUpstream then retryLoop candidate retries (calls ++ [(candidate, .error error)])
      else (.error error, calls ++ [(candidate, .error error)])

def retryWithPolicy (policy : UpstreamPolicy) (candidate : C) (calls : Calls C T) : Except AppError T × Calls C T :=
  retryLoop attempt candidate policy.maxRetries calls

-- The id of a candidate's provider, and the time at each access to the registry.
variable (providerId : C → String) (clock : ℕ → ℕ)

/-- The candidates that rest and those that are ready; each is asked for at its own time. -/
def partitionResting : ℕ → List C → FailoverRegistry → (List C × List C) × FailoverRegistry
  | _, [], failover => (([], []), failover)
  | tick, candidate :: candidates, failover =>
    let (isResting, failover) := failover.resting (clock tick) (providerId candidate)
    let ((resting, ready), failover) := partitionResting (tick + 1) candidates failover
    if isResting then ((candidate :: resting, ready), failover) else ((resting, candidate :: ready), failover)

def orderCandidates (candidates : List C) (failover : FailoverRegistry) : List C × FailoverRegistry :=
  let ((resting, ready), failover) := partitionResting providerId clock 0 candidates failover
  (ready ++ resting, failover)

structure Finished (C T : Type) where
  result : Except AppError (T × String)
  failover : FailoverRegistry
  calls : Calls C T

def runLoop (policy : UpstreamPolicy) (noCandidateError : AppError) :
    ℕ → Option AppError → List C → FailoverRegistry → Calls C T → Finished C T
  | _, lastUpstreamError, [], failover, calls => ⟨.error (lastUpstreamError.getD noCandidateError), failover, calls⟩
  | tick, _, resolved :: candidates, failover, calls =>
    match retryWithPolicy attempt policy resolved calls with
    | (.ok response, calls) =>
      ⟨.ok (response, providerId resolved), failover.clear (providerId resolved), calls⟩
    | (.error error, calls) =>
      if error.isFailoverableUpstream then
        let failover := match restBase error with
          | some base => failover.rest (clock tick) (providerId resolved) base
          | none => failover
        runLoop policy noCandidateError (tick + 1) (some error) candidates failover calls
      else ⟨.error error, failover, calls⟩

def runEndpointModelCandidates (policy : UpstreamPolicy) (noCandidateError : AppError) (candidates : List C)
    (failover : FailoverRegistry) (calls : Calls C T) : Finished C T :=
  let (ordered, failover) := orderCandidates providerId clock candidates failover
  runLoop attempt providerId clock policy noCandidateError candidates.length none
    (ordered.take (policy.maxCandidates.getD usizeMax)) failover calls

end run

end Prelay.Failover
