import Mathlib.Data.List.Infix
import Prelay.Lines
import Prelay.RolloutSupport

namespace Prelay.Rollout

open Json

def stripCarriageReturn (line : List Char) : List Char :=
  if line.getLast? = some '\r' then line.dropLast else line

def textLines (contents : String) : List String :=
  (Lines.split '\n' contents.toList).1.map (fun line => String.ofList (stripCarriageReturn line)) ++
    if (Lines.split '\n' contents.toList).2 = [] then [] else [String.ofList (Lines.split '\n' contents.toList).2]

structure ParsedConversation where
  format : ConversationFormat
  header : Option ConversationMeta
  events : List ConversationEvent
  lineCount : ℕ
  lastSeq : ℕ
  deriving DecidableEq

structure StoredLine where
  seq : ℕ
  time : String
  eventType : String
  payload : Value

-- a derived struct is read from an object and from an array alike
def storedLineOf (value : Value) : Option StoredLine :=
  match value with
  | .object _ =>
    if (value.get "time").isSome && (value.get "timestamp").isSome then none
    else do
      let seq ← (value.get "seq").bind Value.asU64
      let time ← ((value.get "time").or (value.get "timestamp")).bind Value.asStr
      let eventType ← (value.get "type").bind Value.asStr
      let payload ← value.get "payload"
      some ⟨seq, time, eventType, payload⟩
  | .array [seq, time, eventType, payload] => do
    some ⟨← seq.asU64, ← time.asStr, ← eventType.asStr, payload⟩
  | _ => none

def conversationMetaOf (value : Value) : Option ConversationMeta := do
  let v ← ((value.get "v").bind Value.asU64).filter (· < 256)
  let kind ← (value.get "type").bind Value.asStr
  let threadId ← (value.get "thread_id").bind Value.asStr
  let createdAt ← (value.get "created_at").bind Value.asStr
  some ⟨v, kind, threadId, createdAt⟩

def normalizeEvent (line : StoredLine) : Except RolloutError (Option ConversationEvent) :=
  match line.eventType with
  | "session_meta" | "media" => .ok none
  | "window_start" => .ok (some ⟨line.seq, line.time, "window", .json [
      ("window_id", .ofOption id (line.payload.get "window_id")),
      ("generation", (line.payload.get "generation").getD (.nat 0))]⟩)
  | "session_end" => .ok (some ⟨line.seq, line.time, "turn_end", .json [
      ("status", (line.payload.get "status").getD .null),
      ("http_status", .ofOption id (line.payload.get "http_status")),
      ("error_code", .ofOption id (line.payload.get "error_code"))]⟩)
  | "meta" => .error (.invalidPath "conversation header must be the first line")
  | eventType => .ok (some ⟨line.seq, line.time, eventType, line.payload⟩)

section serde

variable (serde : SerdeJson)

def parseEventLine (line : String) : Except RolloutError (Option ConversationEvent) :=
  match serde.fromStr line with
  | none => .error .serialize
  | some value =>
    if (value.get "type").bind Value.asStr = some "meta" then .ok none
    else match storedLineOf value with
      | none => .error .serialize
      | some line => normalizeEvent line

def parseEventLines : List String → Except RolloutError (List ConversationEvent)
  | [] => .ok []
  | line :: lines => do
    let event ← parseEventLine serde line
    let events ← parseEventLines lines
    .ok (event.toList ++ events)

def parseHeader : List String → Except RolloutError (Option ConversationMeta)
  | [] => .ok none
  | first :: _ => match serde.fromStr first with
    | none => .error .serialize
    | some value =>
      if (value.get "type").bind Value.asStr ≠ some "meta" then .ok none
      else if (value.get "v").bind Value.asU64 ≠ some 1 then
        .error (.invalidPath "unsupported conversation file version")
      else match conversationMetaOf value with
        | none => .error .serialize
        | some header =>
          if header.kind ≠ "meta" || header.threadId = "" then
            .error (.invalidPath "invalid conversation file header")
          else .ok (some header)

def lastSeq (events : List ConversationEvent) : ℕ := events.foldl (fun last event => max last event.seq) 0

def parseConversationContents (contents : String) : Except RolloutError ParsedConversation := do
  let lines := textLines contents
  let header ← parseHeader serde lines
  let events ← parseEventLines serde (lines.drop (if header.isSome then 1 else 0))
  .ok {
    format := if header.isSome then .v1 else .legacy
    header := header
    events := events
    lineCount := lines.length
    lastSeq := lastSeq events }

def completedContents (contents : String) : Bool := contents.toList.getLast? = some '\n' || contents = ""

def validPrefixLines (contents : String) : ℕ :=
  ((textLines contents).takeWhile (fun line =>
    if "\"type\":\"meta\"".toList <:+: line.toList then (serde.fromStr line).isSome
    else ((serde.fromStr line).bind storedLineOf).isSome)).length

end serde

structure File where
  bytes : Bytes
  modified : Option ℕ
  deriving DecidableEq

def readToString (file : File) : Except RolloutError String :=
  match Str.fromUtf8 file.bytes with
  | some contents => .ok contents
  | none => .error .invalidData

structure RolloutSlice where
  events : List ConversationEvent
  eventCount : ℕ
  byteSize : ℕ
  sha256 : String
  deriving DecidableEq

section read

variable (env : Env)

def emptySlice : RolloutSlice := ⟨[], 0, 0, hexDigest (env.sha256 [])⟩

def sliceOf (selected : List String) : Except RolloutError RolloutSlice := do
  let bytes := selected.flatMap (fun line => Str.utf8 line ++ [10])
  let events ← parseEventLines env.serde selected
  .ok ⟨events, events.length, bytes.length, hexDigest (env.sha256 bytes)⟩

def rangeError (startLine endLine : ℕ) : RolloutError :=
  .invalidPath ("invalid rollout line range " ++ toString startLine ++ ".." ++ toString endLine)

def readSlice (path : String) (file : File) (startLine endLine : ℕ) : Except RolloutError RolloutSlice := do
  let contents ← readToString file
  if !completedContents contents then .error (.partialLine path (validPrefixLines env.serde contents))
  else
    let lines := textLines contents
    if startLine = 0 then
      if endLine = 0 then .ok (emptySlice env) else .error (rangeError startLine endLine)
    else if endLine < startLine then
      if startLine = endLine + 1 && startLine ≤ lines.length + 1 then .ok (emptySlice env)
      else .error (rangeError startLine endLine)
    else if lines.length < endLine || lines.length + 1 < startLine then
      .error (.invalidPath ("rollout line range " ++ toString startLine ++ ".." ++ toString endLine ++ " exceeds " ++
        toString lines.length ++ " lines"))
    else sliceOf env ((lines.take endLine).drop (startLine - 1))

def completeLines (contents : String) : String :=
  String.ofList (Lines.render '\n' (Lines.split '\n' contents.toList).1)

/-- What stands in a thread file and the file as it is left: an incomplete tail is cut off. -/
def readThreadEvents (file : Option File) : Except RolloutError (Option (ParsedConversation × File)) :=
  match file with
  | none => .ok none
  | some file => do
    let contents ← readToString file
    if completedContents contents then
      let parsed ← parseConversationContents env.serde contents
      .ok (some (parsed, file))
    else
      let parsed ← parseConversationContents env.serde (completeLines contents)
      .ok (some (parsed, ⟨Str.utf8 (completeLines contents), env.repaired⟩))

end read

end Prelay.Rollout
