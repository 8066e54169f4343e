import Mathlib.Data.List.ReduceOption
import Prelay.ClosedChat

namespace Prelay.Bridge

open Json ChatToResponses

def ResponsesChunk.reportedUsage : ResponsesChunk → Option Value
  | .event _ _ => none
  | .completed data => data.pointer ["response", "usage"]

def StreamUsage.Recordable (usage : StreamUsage) : Prop :=
  ∀ count ∈ [usage.inputTokens, usage.outputTokens, usage.totalTokens, usage.cacheReadTokens,
    usage.cacheWriteTokens].reduceOption, count < 2 ^ 63

section values

theorem ofOption_nat_injective : Function.Injective (Value.ofOption Value.nat) := by
  intro a b h
  cases a with
  | none =>
    cases b with
    | none => rfl
    | some b => exact nomatch h
  | some a =>
    cases b with
    | none => exact nomatch h
    | some b => exact congrArg some (Number.posInt.inj (Value.number.inj h))

theorem completedUsage_injective : Function.Injective completedUsage := by
  intro a b h
  have hget (key : String) : (completedUsage a).get key = (completedUsage b).get key := congrArg (Value.get key) h
  have hpointer (key : String) : (completedUsage a).pointer ["input_tokens_details", key] =
      (completedUsage b).pointer ["input_tokens_details", key] := congrArg (Value.pointer _) h
  have hinput := hget "input_tokens"
  have houtput := hget "output_tokens"
  have htotal := hget "total_tokens"
  have hread := hpointer "cached_tokens"
  have hwrite := hpointer "cache_write_tokens"
  simp [completedUsage, Value.get_json, Value.pointer, Value.child_json, ofOption_nat_injective.eq_iff] at *
  obtain ⟨input, output, total, cacheRead, cacheWrite⟩ := a
  simp_all

theorem u64ToI64_eq_iff (count : Option ℕ) : count.bind u64ToI64 = count ↔ ∀ n ∈ count, n < 2 ^ 63 := by
  cases count with
  | none => simp
  | some n => simp [u64ToI64]

theorem StreamUsage.recorded_eq_iff (usage : StreamUsage) : usage.recorded = usage ↔ usage.Recordable := by
  obtain ⟨input, output, total, cacheRead, cacheWrite⟩ := usage
  simp only [recorded, StreamUsage.mk.injEq, u64ToI64_eq_iff, Recordable, List.reduceOption_mem_iff, List.mem_cons,
    List.not_mem_nil, or_false]
  constructor
  · rintro ⟨hinput, houtput, htotal, hread, hwrite⟩ n (h | h | h | h | h)
    · exact hinput n h.symm
    · exact houtput n h.symm
    · exact htotal n h.symm
    · exact hread n h.symm
    · exact hwrite n h.symm
  · intro h
    refine ⟨fun n hn => h n (.inl hn.symm), fun n hn => h n (.inr (.inl hn.symm)), fun n hn => h n ?_,
      fun n hn => h n ?_, fun n hn => h n ?_⟩
    · exact .inr (.inr (.inl hn.symm))
    · exact .inr (.inr (.inr (.inl hn.symm)))
    · exact .inr (.inr (.inr (.inr hn.symm)))

theorem StreamUsage.counted_of_recorded {usage : StreamUsage} (h : usage.recorded.counted = true) :
    usage.counted = true := by
  have hsome {count : Option ℕ} (h : (count.bind u64ToI64).isSome = true) : count.isSome = true :=
    Option.isSome_of_isSome_bind h
  simp only [recorded, counted, Bool.or_eq_true] at h ⊢
  rcases h with (((h | h) | h) | h) | h
  · exact .inl (.inl (.inl (.inl (hsome h))))
  · exact .inl (.inl (.inl (.inr (hsome h))))
  · exact .inl (.inl (.inr (hsome h)))
  · exact .inl (.inr (hsome h))
  · exact .inr (hsome h)

end values

variable (serde : SerdeJson)

def lastCounted (chunks : List Bytes) : Option StreamUsage :=
  (((chatStreamEvents serde chunks).filterMap InternalStreamEvent.usage?).filter StreamUsage.counted).getLast?

def sentUsages (responseId : String) (chunks : List Bytes) : List Value :=
  ((chatToResponsesDecoder serde).decode (fun chunk => [chunk]) (.new responseId) chunks).1.filterMap
    ResponsesChunk.reportedUsage

/-- Once counts were given, they are what both decoders hold and what the client gets. -/
def UsageKept (responseId : String) (chunks : List Bytes) : Prop :=
  ∀ usage, lastCounted serde chunks = some usage →
    ((chatStatsDecoder serde).decode id { inner := {} } chunks).2.tokens = usage ∧
    ((chatToResponsesDecoder serde).decode (fun chunk => [chunk]) (.new responseId) chunks).2.tokens = usage ∧
    sentUsages serde responseId chunks = [completedUsage usage]

section chat

variable {serde}

theorem recordEvents_tokens (stats : StreamStatsSnapshot) {events : List InternalStreamEvent}
    (h : ∀ event ∈ events, event.usage? = none) : (stats.recordEvents events).tokens = stats.tokens := by
  induction events generalizing stats with
  | nil => rfl
  | cons event events ih =>
    rw [List.forall_mem_cons] at h
    rw [StreamStatsSnapshot.recordEvents, List.foldl_cons, ← StreamStatsSnapshot.recordEvents, ih _ h.2]
    cases event with
    | usage usage => cases h.1
    | _ => rfl

theorem complete_tokens (st : ChatStats) : st.complete.stats.tokens = st.stats.tokens := by
  unfold ChatStats.complete
  split_ifs
  · rfl
  · apply recordEvents_tokens
    intro event hevent
    rcases List.mem_append.mp hevent with hdone | hfinished
    · obtain ⟨p, -, rfl⟩ := List.mem_map.mp hdone
      rfl
    · rw [List.mem_singleton.mp hfinished]
      rfl

theorem takeEvent_tokens {events : List InternalStreamEvent} {st : ChatStats} (event : InternalStreamEvent)
    (h : st.stats.tokens = ((lastUsage events).getD {}).recorded) :
    ((st.takeToolCallDelta event).record event).stats.tokens = ((lastUsage (events ++ [event])).getD {}).recorded := by
  rw [lastUsage_snoc]
  cases event with
  | usage usage => rfl
  | _ => exact h

theorem takeEvents_tokens {events : List InternalStreamEvent} {st : ChatStats} (more : List InternalStreamEvent)
    (h : st.stats.tokens = ((lastUsage events).getD {}).recorded) :
    (more.foldl (fun st event => (st.takeToolCallDelta event).record event) st).stats.tokens =
      ((lastUsage (events ++ more)).getD {}).recorded := by
  induction more generalizing events st with
  | nil => simpa using h
  | cons event more ih =>
    have hnext := ih (takeEvent_tokens event h)
    rwa [List.append_assoc, List.singleton_append] at hnext

theorem payloads_tokens {events : List InternalStreamEvent} {st : ChatStats} (datas : List String)
    (h : st.stats.tokens = ((lastUsage events).getD {}).recorded) :
    (datas.foldl (ChatStats.processEvent serde) st).stats.tokens =
      ((lastUsage (events ++ datas.flatMap (payloadEvents serde))).getD {}).recorded := by
  induction datas generalizing events st with
  | nil => simpa using h
  | cons data datas ih =>
    rw [List.flatMap_cons, ← List.append_assoc, List.foldl_cons]
    apply ih
    unfold payloadEvents ChatStats.processEvent
    split_ifs
    · rw [List.append_nil, complete_tokens]
      exact h
    · exact takeEvents_tokens _ h

end chat

theorem chat_tokens (chunks : List Bytes) :
    ((chatStatsDecoder serde).decode id { inner := {} } chunks).2.tokens =
      ((lastUsage (chatStreamEvents serde chunks)).getD {}).recorded := by
  rw [decode_chatStats, complete_tokens]
  exact @payloads_tokens _ [] _ _ rfl

theorem processInternalEvents_usage (st : ChatToResponses) (events : List InternalStreamEvent) :
    (st.processInternalEvents events).2.filterMap ResponsesChunk.reportedUsage = [] := by
  induction events generalizing st with
  | nil => rfl
  | cons event events ih =>
    have hevent : (st.processInternalEvent event).2.filterMap ResponsesChunk.reportedUsage = [] := by
      rw [List.filterMap_eq_nil_iff]
      intro chunk hchunk
      cases event with
      | toolCallDelta index id name arguments =>
        rw [(processInternalEvent_toolCallDelta st index id name arguments).1] at hchunk
        rcases List.mem_append.mp hchunk with hadded | harguments
        · split_ifs at hadded
          · exact nomatch hadded
          · rw [List.mem_singleton.mp hadded]
            rfl
        · obtain ⟨delta, -, rfl⟩ := List.mem_map.mp harguments
          rfl
      | textDelta delta =>
        rw [List.mem_singleton.mp hchunk]
        rfl
      | _ => exact nomatch hchunk
    simp [processInternalEvents, List.filterMap_append, hevent, ih]

theorem close_usage (st : ChatToResponses) :
    st.close.2.filterMap ResponsesChunk.reportedUsage = [.ofOption completedUsage st.usage] := by
  have hopen : ∀ l : List (ℕ × ChatToolCallState),
      (l.flatMap (fun p => responsesToolCallDoneSse p.1 { p.2 with done := true })).filterMap
        ResponsesChunk.reportedUsage = [] := by
    intro l
    rw [List.filterMap_eq_nil_iff]
    intro chunk hchunk
    obtain ⟨p, -, hp⟩ := List.mem_flatMap.mp hchunk
    simp only [responsesToolCallDoneSse, List.mem_cons, List.not_mem_nil, or_false] at hp
    rcases hp with rfl | rfl <;> rfl
  rw [close_chunks, List.filterMap_append, hopen, List.nil_append, List.filterMap_cons, List.filterMap_nil]
  simp only [responsesCompletedSseWithUsage, ResponsesChunk.reportedUsage]
  simp [Value.pointer, Value.child_json, Value.get_json]
  rfl

theorem sentUsages_eq (responseId : String) (chunks : List Bytes) :
    sentUsages serde responseId chunks = [.ofOption completedUsage (lastUsage (readEvents serde chunks.flatten))] := by
  rw [sentUsages, decode_bridge, List.flatMap_singleton', List.filterMap_append, processInternalEvents_usage, close_usage,
    after_usage, List.nil_append]

theorem last_filter {α : Type} {p : α → Bool} {l : List α} {a : α} (hlast : l.getLast? = some a) (hp : p a = true) :
    (l.filter p).getLast? = some a := by
  obtain ⟨before, rfl⟩ := List.getLast?_eq_some_iff.mp hlast
  rw [List.filter_append, List.filter_cons_of_pos hp, List.filter_nil, List.getLast?_concat]

theorem usage_kept_iff (responseId : String) (chunks : List Bytes) :
    UsageKept serde responseId chunks ↔ ∀ usage, lastCounted serde chunks = some usage →
      lastUsage (chatStreamEvents serde chunks) = some usage ∧
        lastUsage (readEvents serde chunks.flatten) = some usage ∧ usage.Recordable := by
  unfold UsageKept
  refine forall_congr' (fun usage => imp_congr_right (fun hcounted => ?_))
  have hbridge := (bridge_closed responseId (readEvents_incoming serde chunks.flatten)).counted.tokens
  rw [chat_tokens, sentUsages_eq, decode_bridge, hbridge, List.singleton_inj]
  constructor
  · rintro ⟨hchat, hstats, hsent⟩
    have hlast : lastUsage (readEvents serde chunks.flatten) = some usage := by
      cases hread : lastUsage (readEvents serde chunks.flatten) with
      | none =>
        rw [hread] at hsent
        exact nomatch hsent
      | some sent =>
        rw [hread] at hsent
        rw [completedUsage_injective hsent]
    rw [hlast] at hstats
    refine ⟨?_, hlast, usage.recorded_eq_iff.mp hstats⟩
    have huse : usage.counted = true :=
      (List.mem_filter.mp (List.mem_of_getLast? hcounted)).2
    cases hread : lastUsage (chatStreamEvents serde chunks) with
    | none =>
      rw [hread] at hchat
      rw [← hchat] at huse
      exact nomatch huse
    | some given =>
      rw [hread, Option.getD_some] at hchat
      have hgiven := last_filter hread (StreamUsage.counted_of_recorded (hchat ▸ huse))
      rw [← hgiven]
      exact hcounted
  · rintro ⟨hchat, hread, hsmall⟩
    rw [hchat, hread, Option.getD_some, usage.recorded_eq_iff.mpr hsmall]
    exact ⟨rfl, rfl, rfl⟩

def erasedStream : List Bytes :=
  [Str.utf8 "data: \x7b\"usage\":\x7b\"prompt_tokens\":3\x7d\x7d\n\ndata: \x7b\"usage\":null\x7d\n\ndata: [DONE]\n\n"]

theorem usage_erased : ¬UsageKept Text.codec "resp_1" erasedStream := by
  intro h
  have hcounted : lastCounted Text.codec erasedStream = some { inputTokens := some 3 } := by decide +kernel
  have hchat := (h _ hcounted).1
  rw [chat_tokens] at hchat
  exact absurd hchat (by decide +kernel)

end Prelay.Bridge
