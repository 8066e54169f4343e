import Prelay.ThreadInvariant
import Prelay.WeakLocks

namespace Prelay.Rollout

open Json Locks

/-- A turn that a client has asked for. It waits for the lock of the thread, it has the lock, it knows the state of the
thread, or it has a writer, whose `turn_end` is made once the turn is finished. -/
inductive Call where
  | waiting (lock : ℕ) (request : TurnRequest)
  | entered (lock : ℕ) (request : TurnRequest)
  | resolved (lock : ℕ) (request : TurnRequest) (state : ThreadState)
  | writing (lock : ℕ) (w : RolloutWriter) (ending : Option TurnEndEvent)
  | over

def Call.place : Call → Place
  | .waiting lock _ => .waiting lock
  | .entered lock _ | .resolved lock _ _ | .writing lock _ _ => .inside lock
  | .over => .away

def Call.drafts : Call → List ContentDraft
  | .waiting _ request | .entered _ request | .resolved _ request _ => request.events
  | .writing _ _ _ | .over => []

structure Clients where
  store : Store := { disk := fun _ => none }
  locks : Registry := {}
  calls : List Call := []
  closed : List ClosedTurn := []

/-- A part of a call that no other client interrupts. `lockOther` is a call on another thread, which removes the entries
that are dead. -/
inductive CallOp where
  | begin (request : TurnRequest)
  | lockOther
  | acquire (i : ℕ)
  | giveUp (i : ℕ)
  | resolve (i : ℕ)
  | openWriter (i : ℕ)
  | writeLine (i : ℕ)
  | appendContent (i : ℕ) (draft : ContentDraft)
  | finish (i : ℕ) (turnEnd : TurnEndEvent)
  | publish (i : ℕ)
  | drop (i : ℕ)
  | forgetCache
  | loseIndex

def CallOp.drafts : CallOp → List ContentDraft
  | .begin request => request.events
  | .appendContent _ draft => [draft]
  | _ => []

section begin

variable (env : Env) (identityId threadId : String)

def openWriter (state : ThreadState) (request : TurnRequest) : Except RolloutError RolloutWriter := do
  let _ ← checkedAbsolutePath state.relativePath
  let threadPath ← checkedAbsolutePath (threadRelative identityId threadId)
  let _ ← checkedAbsolutePath (indexRelative threadPath)
  (RolloutWriter.fromState state threadPath ⟨threadId, request.windowId, request.generation⟩ request.turn
    request.turnId).openTurn env state ⟨threadId, request.windowId, request.generation⟩ request.turn request.events

end begin

namespace Clients

variable (env : Env) (identityId threadId : String)

def places (c : Clients) : List Place := c.calls.map Call.place

def setCall (c : Clients) (i : ℕ) (call : Call) : Clients := { c with calls := c.calls.set i call }

def closeCall (c : Clients) (i : ℕ) (turn : ClosedTurn) : Clients :=
  { c with calls := c.calls.set i .over, closed := c.closed ++ [turn] }

-- an operation that the call is not ready for does nothing
def step (c : Clients) : CallOp → Clients
  | .begin request =>
    if !isSafePathSegment identityId || !isSafePathSegment threadId then c
    else
      let (lock, locks) := c.locks.lockFor c.places
      { c with locks := locks, calls := c.calls ++ [.waiting lock request] }
  | .lockOther => { c with locks := c.locks.retain c.places }
  | .acquire i =>
    match c.calls[i]? with
    | some (.waiting lock request) => if isFree c.places lock then c.setCall i (.entered lock request) else c
    | _ => c
  | .giveUp i =>
    match c.calls[i]? with
    | some (.waiting _ _) => c.setCall i .over
    | _ => c
  | .resolve i =>
    match c.calls[i]? with
    | some (.entered lock request) =>
      match resolveThreadSource env c.store identityId threadId with
      | .ok (state, store) => { c.setCall i (.resolved lock request state) with store := store }
      | .error _ => c.setCall i .over
    | _ => c
  | .openWriter i =>
    match c.calls[i]? with
    | some (.resolved lock request state) =>
      match Rollout.openWriter env identityId threadId state request with
      | .ok w => c.setCall i (.writing lock w none)
      | .error _ => c.setCall i .over
    | _ => c
  | .writeLine i =>
    match c.calls[i]? with
    | some (.writing lock w ending) =>
      let (w, disk) := writePendingLine env w c.store.disk
      { c.setCall i (.writing lock w ending) with store := { c.store with disk := disk } }
    | _ => c
  | .appendContent i draft =>
    match c.calls[i]? with
    | some (.writing lock w none) =>
      match w.pending, w.appendContent env draft with
      | [], .ok (_, w) => c.setCall i (.writing lock w none)
      | _, _ => c
    | _ => c
  | .finish i turnEnd =>
    match c.calls[i]? with
    | some (.writing lock w none) =>
      match w.pending, endTurn env w turnEnd.status turnEnd.httpStatus turnEnd.errorCode with
      | [], .ok w => c.setCall i (.writing lock w (some turnEnd))
      | _, _ => c
    | _ => c
  | .publish i =>
    match c.calls[i]? with
    | some (.writing _ w (some turnEnd)) =>
      match w.pending with
      | [] =>
        { c.closeCall i ⟨w.turnId, some ((closeWriter w turnEnd.status).summaryWithStatus env turnEnd.status)⟩ with
          store := publishState w c.store }
      | _ => c
    | _ => c
  | .drop i =>
    match c.calls[i]? with
    | some (.writing _ w none) =>
      match w.pending with
      | [] => c.closeCall i ⟨w.turnId, none⟩
      | _ => c
    | _ => c
  | .forgetCache => { c with store := { c.store with cache := none } }
  | .loseIndex => { c with store := { c.store with index := none } }

def run (ops : List CallOp) : Clients := ops.foldl (step env identityId threadId) {}

end Clients

end Prelay.Rollout
