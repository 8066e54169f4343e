import Prelay.JsonLimits
import Prelay.Sha256
import Prelay.ThreadResolve

namespace Prelay.Rollout

open Json

structure TurnRequest where
  windowId : Option String := none
  generation : ℕ := 0
  turn : TurnContext
  turnId : String
  events : List ContentDraft := []

/-- A turn that is over; one whose writer was dropped has no summary. -/
structure ClosedTurn where
  turnId : String
  summary : Option RolloutSummary := none

structure Thread where
  store : Store := { disk := fun _ => none }
  writer : Option RolloutWriter := none
  closed : List ClosedTurn := []

inductive ThreadOp where
  | beginTurn (request : TurnRequest)
  | appendContent (draft : ContentDraft)
  | finish (status : RolloutStatus) (httpStatus : Option ℕ) (errorCode : Option String)
  | drop
  | forgetCache
  | loseIndex

def ThreadOp.drafts : ThreadOp → List ContentDraft
  | .beginTurn request => request.events
  | .appendContent draft => [draft]
  | _ => []

namespace Thread

section step

variable (env : Env) (identityId threadId : String)

def begun (t : Thread) (request : TurnRequest) : Except RolloutError Thread := do
  let (w, store) ← beginTurn env identityId ⟨threadId, request.windowId, request.generation⟩ request.turn
    request.turnId request.events t.store
  let (w, store) := flushWriter env w store
  .ok { t with store := store, writer := some w }

def appended (t : Thread) (w : RolloutWriter) (draft : ContentDraft) : Except RolloutError Thread := do
  let (_, w) ← w.appendContent env draft
  let (w, store) := flushWriter env w t.store
  .ok { t with store := store, writer := some w }

def finished (t : Thread) (w : RolloutWriter) (status : RolloutStatus) (httpStatus : Option ℕ)
    (errorCode : Option String) : Except RolloutError Thread := do
  let (summary, _, store) ← finishWith env w status httpStatus errorCode t.store
  .ok { store := store, writer := none, closed := t.closed ++ [⟨w.turnId, some summary⟩] }

-- a begin waits while another writer is open; a request that fails changes nothing
def step (t : Thread) (op : ThreadOp) : Thread :=
  match op, t.writer with
  | .beginTurn request, none => (t.begun env identityId threadId request).toOption.getD t
  | .appendContent draft, some w => (t.appended env w draft).toOption.getD t
  | .finish status httpStatus errorCode, some w => (t.finished env w status httpStatus errorCode).toOption.getD t
  | .drop, some w => { t with writer := none, closed := t.closed ++ [⟨w.turnId, none⟩] }
  | .forgetCache, _ => { t with store := { t.store with cache := none } }
  | .loseIndex, _ => { t with store := { t.store with index := none } }
  | _, _ => t

def run (ops : List ThreadOp) : Thread := ops.foldl (step env identityId threadId) {}

end step

end Thread

def sampleEnv : Env where
  serde := Text.codec
  sha256 := Sha256.digest
  time := fun _ => "2026-01-01T00:00:00.000+08:00"
  modified := some

def userMessage (text : String) : ContentDraft :=
  { body := .message { phase := .request, role := "user", content := .string text } }

def sampleTurn (turnId : String) (events : List ContentDraft) : TurnRequest :=
  { turn := ⟨"activity-1", "gpt-5", "gpt-5"⟩, turnId := turnId, events := events }

/-- A store whose reader refuses lines that are nested too deep, and does not read every float as it was. -/
def limitedEnv : Env := { sampleEnv with serde := Text.limited Text.rounded }

theorem limitedEnv_lawful : limitedEnv.serde.Lawful := Text.limited_lawful Text.rounded_keepsIntegers

def nestedArrays : ℕ → Value
  | 0 => .null
  | n + 1 => .array [nestedArrays n]

def callWith (toolCallId : String) (arguments : Value) : ContentDraft :=
  { body := .toolCall { phase := .response, toolCallId := toolCallId, name := "search", arguments := arguments } }

section blocks

variable (env : Env) (threadId path : String)

def EndedBlock (turnId : String) (block : Log) : Prop :=
  ∃ lines last, block = lines ++ [last] ∧ OpenBlock env turnId lines ∧ last.eventType = "turn_end"

structure SummaryOf (base : Option Log) (block : Log) (summary : RolloutSummary) : Prop where
  relativePath : summary.relativePath = path
  startLine : summary.startLine = logLines base + 1
  endLine : summary.endLine = logLines (some (base.getD [] ++ block))
  eventCount : summary.eventCount = block.length
  byteSize : summary.byteSize = (textBytes (segmentTexts env threadId base block)).length
  sha256 : summary.sha256 = hexDigest (env.sha256 (textBytes (segmentTexts env threadId base block)))

def ClosedBlock (base : Option Log) (turn : ClosedTurn) (block : Log) : Prop :=
  match turn.summary with
  | none => OpenBlock env turn.turnId block
  | some summary => EndedBlock env turn.turnId block ∧ SummaryOf env threadId path base block summary

def closedLog (blocks : List Log) : Option Log := if blocks = [] then none else some blocks.flatten

def threadLog (blocks : List Log) : Option Log → Option Log
  | none => closedLog blocks
  | some current => some ((closedLog blocks).getD [] ++ current)

/-- A thread whose file holds the given blocks and the lines of the open turn. -/
structure Good (keeps : Bytes → Prop) (dedup : Prop) (drafts : Set ContentDraft) (t : Thread) (blocks : List Log)
    (current : Option Log) : Prop where
  count : t.closed.length = blocks.length
  closed : ∀ i turn block, t.closed[i]? = some turn → blocks[i]? = some block →
    ClosedBlock env threadId path (closedLog (blocks.take i)) turn block
  writer : match t.writer, current with
    | none, none => True
    | some w, some new => OpenBlock env w.turnId new ∧ Writes env threadId keeps dedup drafts path (closedLog blocks)
        new (segmentTexts env threadId (closedLog blocks) new) w
    | _, _ => False
  disk : t.store.disk = threadDisk env path (threadTexts env threadId (threadLog blocks current))
  wellFormed : WellFormed env drafts ((threadLog blocks current).getD [])
  remembers : Remembers env threadId path keeps dedup (threadLog blocks current) t.store

end blocks

section step

variable {env : Env} {threadId path : String} {keeps : Bytes → Prop} {dedup : Prop} {drafts : Set ContentDraft}
  {base : Option Log} {new : Log} {written : List String} {w : RolloutWriter}

theorem closedLog_append (blocks : List Log) (block : Log) :
    closedLog (blocks ++ [block]) = some ((closedLog blocks).getD [] ++ block) := by
  by_cases hnil : blocks = []
  · simp [closedLog, hnil]
  · simp [closedLog, hnil]

theorem Writes.flush (h : Writes env threadId keeps dedup drafts path base new written w) {store : Store}
    (hdisk : store.disk = threadDisk env path (threadTexts env threadId base ++ written)) :
    Writes env threadId keeps dedup drafts path base new (segmentTexts env threadId base new) (flushWriter env w store).1 ∧
      (flushWriter env w store).2.disk =
        threadDisk env path (threadTexts env threadId (some (base.getD [] ++ new))) := by
  obtain ⟨rest, hpending, hrest⟩ := h.segment.pending
  have hcount : w.lineCount = (threadTexts env threadId base ++ written).length + rest.length := by
    have hline := h.state.lineCount
    rw [← length_threadTexts env threadId, threadTexts_append, ← hrest] at hline
    simpa [RolloutWriter.threadState, Nat.add_assoc] using hline
  constructor
  · obtain ⟨hthread, hopen, hstart, hend, hevents, hhashed, hbytes, hlen, -⟩ := h.segment
    exact ⟨⟨hthread, hopen, hstart, hend, hevents, hhashed, hbytes, hlen, [], rfl, List.append_nil _⟩, h.state,
      h.wellFormed⟩
  · have hrelative : w.relativePath = path := h.state.relativePath
    simp only [flushWriter, hdisk, hpending, hrelative]
    rw [writePendingLines_threadDisk env path _ rest _ hcount, List.append_assoc, hrest, threadTexts_append]

end step

end Prelay.Rollout
