import Prelay.JsonReread
import Prelay.Redaction
import Prelay.RolloutEvents

namespace Prelay.Rollout

open Json Redaction

inductive RolloutError where
  | notFound
  | invalidData
  | serialize
  | invalidPath (message : String)
  | partialLine (path : String) (validEvents : ℕ)
  deriving DecidableEq

/-- What the store takes from outside: the JSON codec, the digest, the patterns of the redaction, the time
at which a line of a thread file is written and the modification time of a file of so many lines. -/
structure Env where
  serde : SerdeJson
  sha256 : Bytes → Bytes
  patterns : Patterns := {}
  time : ℕ → String
  modified : ℕ → Option ℕ
  repaired : Option ℕ := none

def hexDigest (digest : Bytes) : String :=
  String.ofList (digest.flatMap (fun b => [Text.hexChar (b.toNat / 16), Text.hexChar (b.toNat % 16)]))

def isSafePathSegment (value : String) : Bool :=
  value ≠ "" && (Str.utf8 value).length ≤ 128 && value.toList.all (fun c => c.isAlphanum || c = '-' || c = '_')

def isContentEvent (eventType : String) : Bool :=
  eventType = "message" || eventType = "reasoning" || eventType = "tool_call" || eventType = "tool_result"

def comparisonPayload : Value → Value
  | .object members => .object (removeMember "phase" members)
  | payload => payload

def bodyParts (patterns : Patterns) (body : Value) : Except RolloutError (String × Value) :=
  match body with
  | .object _ => match (body.get "type").bind Value.asStr with
    | some eventType => .ok (eventType, redactJsonValue patterns ((body.get "payload").getD .null))
    | none => .error (.invalidPath "event type is missing")
  | _ => .error (.invalidPath "event body is not an object")

def itemId : ContentEventBody → Option String
  | .toolCall toolCall => some toolCall.toolCallId
  | .toolResult toolResult => some toolResult.toolCallId
  | _ => none

def itemRefKey (eventType id : String) : String := eventType ++ ":" ++ id

def draftKey (eventType : String) (draft : ContentDraft) : Option String :=
  ((itemId draft.body).or draft.itemId).map (itemRefKey eventType)

structure ContentHash where
  count : ℕ := 0
  digest : Bytes := List.replicate 32 0
  deriving DecidableEq

def lengthBytes (n : ℕ) : Bytes := (List.range 8).map (fun i => UInt8.ofNat (n / 256 ^ i))

section env

variable (env : Env)

def contentEventParts (body : ContentEventBody) : Except RolloutError (String × Value) :=
  bodyParts env.patterns body.toValue

def eventParts (body : ControlEventBody) : Except RolloutError (String × Value) :=
  bodyParts env.patterns body.toValue

def draftEventParts (draft : ContentDraft) : Except RolloutError (String × Value) :=
  contentEventParts env draft.body

def canonicalEvent (eventType : String) (payload : Value) : Bytes :=
  Str.utf8 (env.serde.toStr (.array [.string eventType, comparisonPayload payload]))

def eventIdentity (eventType : String) (payload : Value) : Bytes := env.sha256 (canonicalEvent env eventType payload)

def chainDigest (previous canonical : Bytes) : Bytes :=
  env.sha256 (previous ++ lengthBytes canonical.length ++ canonical)

def ContentHash.append (hash : ContentHash) (eventType : String) (payload : Value) : ContentHash where
  count := hash.count + 1
  digest := chainDigest env hash.digest (canonicalEvent env eventType payload)

def ContentHash.fromEvents (events : List ConversationEvent) : ContentHash :=
  (events.filter (fun event => isContentEvent event.eventType)).foldl
    (fun hash event => hash.append env event.eventType event.payload) {}

def storedPayload (members : List (String × Value)) : Value :=
  redactJsonValue env.patterns (Value.object members).normalize

theorem bodyParts_bodyValue (eventType : String) (members : List (String × Value)) :
    bodyParts env.patterns (bodyValue eventType members) = .ok (eventType, storedPayload env members) := by
  have hobject : ∃ ms, bodyValue eventType members = .object ms := ⟨_, rfl⟩
  obtain ⟨ms, hms⟩ := hobject
  have htype := bodyValue_type eventType members
  have hpayload := bodyValue_payload eventType members
  rw [hms] at htype hpayload ⊢
  simp [bodyParts, htype, hpayload, Value.asStr, storedPayload]

@[simp]
theorem draftEventParts_eq (draft : ContentDraft) :
    draftEventParts env draft = .ok (draft.body.eventType, storedPayload env draft.body.members) :=
  bodyParts_bodyValue env _ _

@[simp]
theorem eventParts_eq (body : ControlEventBody) :
    eventParts env body = .ok (body.eventType, storedPayload env body.members) :=
  bodyParts_bodyValue env _ _

theorem storedPayload_normal (members : List (String × Value)) : (storedPayload env members).Normal :=
  Value.mapStrings_normal _ _ (Value.normalize_normal _)

theorem storedPayload_get (members : List (String × Value)) (key : String) :
    (storedPayload env members).get key = (members.reverse.find? (fun m => m.1 = key)).map
      (fun m => redactJsonValue env.patterns m.2.normalize) := by
  rw [storedPayload, redactJsonValue, Value.get_mapStrings, get_normalize, Option.map_map]
  rfl

end env

theorem safe_ne_empty {value : String} (h : isSafePathSegment value = true) : value ≠ "" := by
  rintro rfl
  exact nomatch h

end Prelay.Rollout
