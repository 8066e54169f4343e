import Mathlib.Tactic.NormNum
import Prelay.ChatAnswer
import Prelay.JsonRoundTrip
import Prelay.NativeStats

namespace Prelay.Bridge

open Json Recording

section counts

structure TokenCounts where
  input : Option ℤ
  output : Option ℤ
  cacheRead : Option ℤ
  cacheWrite : Option ℤ
  deriving DecidableEq

def recordedCounts (stats : StreamStatsSnapshot) : TokenCounts :=
  ⟨stats.inputTokens.map Int.ofNat, stats.outputTokens.map Int.ofNat, stats.cacheReadTokens.map Int.ofNat,
    stats.cacheWriteTokens.map Int.ofNat⟩

def usageCounts (usage : InternalUsage) : TokenCounts :=
  ⟨usage.inputTokens, usage.outputTokens, usage.cacheReadTokens, usage.cacheWriteTokens⟩

def tokenCount (value : Value) : Option ℕ := value.asU64.bind u64ToI64

def IsNegative (value : Value) : Prop := ∃ n < 2 ^ 63, value = .number (.negInt n)

/-- The member that Chat looks at first and the one that Responses looks at first hold the same count when both are
there, and the one that is used for an answer is not negative. -/
def Alike (chat responses other : Option Value) : Prop :=
  (∀ value ∈ chat, ∀ value' ∈ responses, tokenCount value = tokenCount value') ∧
    ∀ value ∈ (responses.or chat).or other, ¬IsNegative value

structure UnambiguousUsage (usage : Value) : Prop where
  input : Alike (usage.get "prompt_tokens") (usage.get "input_tokens") none
  output : Alike (usage.get "completion_tokens") (usage.get "output_tokens") none
  cacheRead : Alike (usage.pointer ["prompt_tokens_details", "cached_tokens"])
    (usage.pointer ["input_tokens_details", "cached_tokens"]) (usage.get "cache_read_input_tokens")
  cacheWrite : Alike (usage.pointer ["prompt_tokens_details", "cache_write_tokens"])
    (usage.pointer ["input_tokens_details", "cache_write_tokens"]) (usage.get "cache_creation_input_tokens")

theorem asI64_posInt (n : ℕ) : asI64 (.number (.posInt n)) = (u64ToI64 n).map Int.ofNat := by
  by_cases hn : n < 2 ^ 63
  · simp only [asI64, u64ToI64, if_pos hn, Option.map_some]
    rfl
  · simp only [asI64, u64ToI64, if_neg hn, Option.map_none]

theorem asI64_negInt (n : ℕ) : asI64 (.number (.negInt n)) = none ↔ ¬n < 2 ^ 63 := by
  simp [asI64]

theorem asI64_eq_iff (value : Value) : (tokenCount value).map Int.ofNat = asI64 value ↔ ¬IsNegative value := by
  unfold tokenCount IsNegative
  cases value with
  | number n =>
    cases n with
    | posInt n => simp [asI64_posInt, Value.asU64]
    | negInt n =>
      have hnone : Value.asU64 (.number (.negInt n)) = none := rfl
      rw [hnone, Option.bind_none, Option.map_none, eq_comm, asI64_negInt]
      simp
    | float negative digits exponent => simp [asI64, Value.asU64]
  | null => simp [asI64, Value.asU64]
  | bool b => simp [asI64, Value.asU64]
  | string s => simp [asI64, Value.asU64]
  | array items => simp [asI64, Value.asU64]
  | object members => simp [asI64, Value.asU64]

theorem alike_iff (chat responses other : Option Value) :
    ((((chat.or responses).or other).bind tokenCount).map Int.ofNat =
        (((responses.or chat).or other).bind tokenCount).map Int.ofNat ∧
      (((responses.or chat).or other).bind tokenCount).map Int.ofNat = ((responses.or chat).or other).bind asI64) ↔
      Alike chat responses other := by
  have hread (value : Option Value) : (value.bind tokenCount).map Int.ofNat = value.bind asI64 ↔
      ∀ v ∈ value, ¬IsNegative v := by
    cases value with
    | none => simp
    | some v => simpa using asI64_eq_iff v
  have hcast {a b : Option ℕ} : a.map Int.ofNat = b.map Int.ofNat ↔ a = b :=
    (Option.map_injective (fun _ _ h => Int.ofNat.inj h)).eq_iff
  rw [hread, hcast, Alike]
  refine and_congr_left (fun _ => ?_)
  cases chat with
  | none => simp
  | some value =>
    cases responses with
    | none => simp
    | some value' => simp

end counts

section agreement

variable (serde : SerdeJson)

def InternalStreamEvent.isUsage : InternalStreamEvent → Bool
  | .usage _ => true
  | _ => false

theorem recordedCounts_event (stats : StreamStatsSnapshot) {event : InternalStreamEvent} (h : event.isUsage = false) :
    recordedCounts (stats.recordEvent event) = recordedCounts stats := by
  cases event with
  | usage usage => exact nomatch h
  | textDelta delta => rfl
  | reasoningDelta delta => rfl
  | toolCallDelta index id name arguments => rfl
  | toolCallDone index id name arguments => rfl
  | finished reason => rfl

theorem recordedCounts_events (stats : StreamStatsSnapshot) {events : List InternalStreamEvent}
    (h : ∀ event ∈ events, event.isUsage = false) :
    recordedCounts (stats.recordEvents events) = recordedCounts stats := by
  induction events generalizing stats with
  | nil => rfl
  | cons event events ih =>
    rw [StreamStatsSnapshot.recordEvents, List.foldl_cons, ← StreamStatsSnapshot.recordEvents,
      ih _ (fun e he => h e (List.mem_cons_of_mem _ he)), recordedCounts_event stats (h event List.mem_cons_self)]

theorem recordedCounts_last (stats : StreamStatsSnapshot) (before : List InternalStreamEvent) (usage : StreamUsage)
    {events : List InternalStreamEvent} (h : ∀ event ∈ events, event.isUsage = false) :
    recordedCounts (stats.recordEvents (before ++ .usage usage :: events)) =
      recordedCounts (({} : StreamStatsSnapshot).recordUsage usage) := by
  rw [StreamStatsSnapshot.recordEvents, List.foldl_append, List.foldl_cons, ← StreamStatsSnapshot.recordEvents,
    ← StreamStatsSnapshot.recordEvents, recordedCounts_events _ h]
  rfl

theorem chatCounts {data : String} {value usage : Value} (hdata : serde.fromStr data = some value)
    (husage : value.get "usage" = some usage) :
    recordedCounts (({} : StreamStatsSnapshot).recordEvents (internalEventsOf serde data)) =
      recordedCounts (({} : StreamStatsSnapshot).recordUsage (usageOf usage)) := by
  obtain ⟨event, hevent, hread⟩ : ∃ event : ChatSseEvent, internalEventsOf serde data = event.toInternalEvents ∧
      event.usage = some (usageOf usage) := by
    unfold internalEventsOf decodeChatSseEvent
    simp only [hdata, husage, Option.map_some, Option.bind_eq_bind, Option.bind_some]
    cases ((value.get "choices").bind Value.asArray).bind List.head? with
    | none => exact ⟨_, rfl, rfl⟩
    | some choice => exact ⟨_, rfl, rfl⟩
  rw [hevent, ChatSseEvent.toInternalEvents, hread, Option.toList_some, List.map_singleton, List.append_assoc,
    List.singleton_append]
  apply recordedCounts_last
  intro e he
  obtain ⟨reason, -, rfl⟩ := List.mem_map.mp he
  rfl

theorem nativeCounts {data : String} {value usage : Value} (hdata : serde.fromStr data = some value)
    (husage : (value.pointer ["response", "usage"]).or (value.get "usage") = some usage) :
    recordedCounts (({} : StreamStatsSnapshot).recordEvents
        (decodeResponsesSseEvent serde (some "response.completed") data)) =
      recordedCounts (({} : StreamStatsSnapshot).recordUsage (responsesUsageOf usage)) := by
  have hread : decodeResponsesUsage serde data = some (responsesUsageOf usage) := by
    simp [decodeResponsesUsage, hdata, husage]
  simp only [decodeResponsesSseEvent, hread, Option.toList_some, List.map_singleton, List.singleton_append]
  apply recordedCounts_last _ []
  intro event hevent
  rw [List.mem_singleton.mp hevent]
  rfl

theorem usage_decoders_agree_iff {chat native : String} {chatValue nativeValue usage : Value}
    (hchat : serde.fromStr chat = some chatValue) (hchatUsage : chatValue.get "usage" = some usage)
    (hnative : serde.fromStr native = some nativeValue)
    (hnativeUsage : (nativeValue.pointer ["response", "usage"]).or (nativeValue.get "usage") = some usage) :
    (recordedCounts (({} : StreamStatsSnapshot).recordEvents (internalEventsOf serde chat)) =
        recordedCounts (({} : StreamStatsSnapshot).recordEvents
          (decodeResponsesSseEvent serde (some "response.completed") native)) ∧
      some (recordedCounts (({} : StreamStatsSnapshot).recordEvents
          (decodeResponsesSseEvent serde (some "response.completed") native))) =
        (decodeUsage (some usage)).map usageCounts) ↔ UnambiguousUsage usage := by
  rw [chatCounts serde hchat hchatUsage, nativeCounts serde hnative hnativeUsage]
  have hinput := alike_iff (usage.get "prompt_tokens") (usage.get "input_tokens") none
  have houtput := alike_iff (usage.get "completion_tokens") (usage.get "output_tokens") none
  have hread := alike_iff (usage.pointer ["prompt_tokens_details", "cached_tokens"])
    (usage.pointer ["input_tokens_details", "cached_tokens"]) (usage.get "cache_read_input_tokens")
  have hwrite := alike_iff (usage.pointer ["prompt_tokens_details", "cache_write_tokens"])
    (usage.pointer ["input_tokens_details", "cache_write_tokens"]) (usage.get "cache_creation_input_tokens")
  have hbind (value : Option Value) : value.bind tokenCount = (value.bind Value.asU64).bind u64ToI64 :=
    (Option.bind_assoc value Value.asU64 u64ToI64).symm
  simp only [Option.or_none, hbind] at hinput houtput hread hwrite
  simp only [recordedCounts, StreamStatsSnapshot.recordUsage, usageOf, responsesUsageOf, decodeUsage, Option.map_some,
    usageCounts, Option.some.injEq, TokenCounts.mk.injEq]
  constructor
  · rintro ⟨⟨hi, ho, hr, hw⟩, hi', ho', hr', hw'⟩
    exact ⟨hinput.mp ⟨hi, hi'⟩, houtput.mp ⟨ho, ho'⟩, hread.mp ⟨hr, hr'⟩, hwrite.mp ⟨hw, hw'⟩⟩
  · rintro ⟨hi, ho, hr, hw⟩
    obtain ⟨hi, hi'⟩ := hinput.mpr hi
    obtain ⟨ho, ho'⟩ := houtput.mpr ho
    obtain ⟨hr, hr'⟩ := hread.mpr hr
    obtain ⟨hw, hw'⟩ := hwrite.mpr hw
    exact ⟨⟨hi, ho, hr, hw⟩, hi', ho', hr', hw'⟩

def chatPayload (usage : String) : String := "\x7b\"usage\":" ++ usage ++ "\x7d"

def completedPayload (usage : String) : String := "\x7b\"response\":\x7b\"usage\":" ++ usage ++ "\x7d\x7d"

def promptUsage : String := "\x7b\"prompt_tokens\":3\x7d"

def bothUsage : String := "\x7b\"prompt_tokens\":1,\"input_tokens\":2\x7d"

theorem chatPayload_prompt : Text.codec.fromStr (chatPayload promptUsage) =
    some (.object [("usage", .object [("prompt_tokens", .nat 3)])]) := by
  have htext : chatPayload promptUsage = Text.toStr (.object [("usage", .object [("prompt_tokens", .nat 3)])]) := rfl
  exact Text.codec_reads htext

theorem completedPayload_prompt : Text.codec.fromStr (completedPayload promptUsage) =
    some (.object [("response", .object [("usage", .object [("prompt_tokens", .nat 3)])])]) := by
  have htext : completedPayload promptUsage =
    Text.toStr (.object [("response", .object [("usage", .object [("prompt_tokens", .nat 3)])])]) := rfl
  exact Text.codec_reads htext

theorem usage_decoders_agree_prompt :
    recordedCounts (({} : StreamStatsSnapshot).recordEvents (internalEventsOf Text.codec (chatPayload promptUsage))) =
      ⟨some 3, none, none, none⟩ ∧
    UnambiguousUsage (.object [("prompt_tokens", .nat 3)]) := by
  have hchat := chatCounts Text.codec chatPayload_prompt rfl
  have hnative := nativeCounts Text.codec completedPayload_prompt rfl
  refine ⟨hchat, ?_⟩
  refine (usage_decoders_agree_iff Text.codec chatPayload_prompt rfl completedPayload_prompt rfl).mp ?_
  rw [hchat, hnative]
  exact ⟨rfl, rfl⟩

theorem chatPayload_both : Text.codec.fromStr (chatPayload bothUsage) =
    some (.object [("usage", .object [("input_tokens", .nat 2), ("prompt_tokens", .nat 1)])]) := by
  have htext : chatPayload bothUsage =
    Text.toStr (.object [("usage", .object [("prompt_tokens", .nat 1), ("input_tokens", .nat 2)])]) := rfl
  exact Text.codec_reads htext

theorem completedPayload_both : Text.codec.fromStr (completedPayload bothUsage) =
    some (.object [("response", .object [("usage", .object [("input_tokens", .nat 2), ("prompt_tokens", .nat 1)])])]) := by
  have htext : completedPayload bothUsage = Text.toStr
    (.object [("response", .object [("usage", .object [("prompt_tokens", .nat 1), ("input_tokens", .nat 2)])])]) := rfl
  exact Text.codec_reads htext

/-- With both names given, Chat takes the one and Responses the other. -/
theorem usage_decoders_disagree :
    Text.codec.fromStr (chatPayload bothUsage) =
      some (.object [("usage", .object [("input_tokens", .nat 2), ("prompt_tokens", .nat 1)])]) ∧
    Text.codec.fromStr (completedPayload bothUsage) = some (.object
      [("response", .object [("usage", .object [("input_tokens", .nat 2), ("prompt_tokens", .nat 1)])])]) ∧
    recordedCounts (({} : StreamStatsSnapshot).recordEvents (internalEventsOf Text.codec (chatPayload bothUsage))) ≠
      recordedCounts (({} : StreamStatsSnapshot).recordEvents
        (decodeResponsesSseEvent Text.codec (some "response.completed") (completedPayload bothUsage))) := by
  refine ⟨chatPayload_both, completedPayload_both, ?_⟩
  rw [chatCounts Text.codec chatPayload_both rfl, nativeCounts Text.codec completedPayload_both rfl]
  decide

end agreement

section totals

def AddsTokens (usage : Value) (input output : ℕ) : Prop :=
  (usage.get "total_tokens").bind Value.asU64 = none ∧
    ((usage.get "input_tokens").or (usage.get "prompt_tokens")).bind Value.asU64 = some input ∧
      ((usage.get "output_tokens").or (usage.get "completion_tokens")).bind Value.asU64 = some output

def answerTotal (usage : Value) : ℤ :=
  (((usage.get "input_tokens").or (usage.get "prompt_tokens")).bind asI64).getD 0 +
    (((usage.get "output_tokens").or (usage.get "completion_tokens")).bind asI64).getD 0

def ExactTotals (usage : Value) : Prop :=
  (∀ input output, AddsTokens usage input output → (responsesUsageOf usage).totalTokens = some (input + output)) ∧
    (decodeUsage (some usage)).bind (fun decoded => (encodeUsage decoded).get "total_tokens") =
      some (.int (answerTotal usage))

theorem bmod_eq_self_iff (n : ℤ) : n.bmod (2 ^ 64) = n ↔ -2 ^ 63 ≤ n ∧ n < 2 ^ 63 := by
  constructor
  · intro h
    have hle : -((2 ^ 64 : ℕ) / 2 : ℤ) ≤ n.bmod (2 ^ 64) := Int.le_bmod (by norm_num)
    have hlt : n.bmod (2 ^ 64) < ((2 ^ 64 : ℕ) + 1) / 2 := Int.bmod_lt (by norm_num)
    rw [h] at hle hlt
    constructor <;> omega
  · rintro ⟨hle, hlt⟩
    apply Int.bmod_eq_of_le <;> omega

theorem int_injective : Function.Injective Value.int := by
  intro a b h
  cases a with
  | ofNat a =>
    cases b with
    | ofNat b => exact congrArg Int.ofNat (Number.posInt.inj (Value.number.inj h))
    | negSucc b => exact nomatch Value.number.inj h
  | negSucc a =>
    cases b with
    | ofNat b => exact nomatch Value.number.inj h
    | negSucc b => exact congrArg Int.negSucc (Number.negInt.inj (Value.number.inj h))

theorem totals_exact_iff (usage : Value) :
    ExactTotals usage ↔ (∀ input output, AddsTokens usage input output → input + output < 2 ^ 64) ∧
      -2 ^ 63 ≤ answerTotal usage ∧ answerTotal usage < 2 ^ 63 := by
  unfold ExactTotals
  apply and_congr
  · refine forall_congr' (fun input => forall_congr' (fun output => imp_congr_right (fun hadds => ?_)))
    obtain ⟨htotal, hinput, houtput⟩ := hadds
    simp only [responsesUsageOf, htotal, hinput, houtput, Option.none_or, Option.bind_some, Option.map_some,
      Option.some.injEq]
    exact ⟨fun h => h ▸ Nat.mod_lt _ (by norm_num), Nat.mod_eq_of_lt⟩
  · rw [← bmod_eq_self_iff, answerTotal, decodeUsage, Option.map_some, Option.bind_some, encodeUsage, Value.get_json]
    simp [int_injective.eq_iff]

def hugeUsage : Value := .json [("input_tokens", .nat (2 ^ 64 - 1)), ("output_tokens", .nat 1)]

theorem totals_overflow : ¬ExactTotals hugeUsage := by
  intro h
  have hsum := h.1 (2 ^ 64 - 1) 1 ⟨rfl, rfl, rfl⟩
  exact absurd hsum (by decide +kernel)

end totals

end Prelay.Bridge
