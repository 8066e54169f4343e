import Prelay.ClosedChat

namespace Prelay.Bridge

open Json ChatToResponses

def ResponsesChunk.Encoded : ResponsesChunk → Prop
  | .event name data => Plain name ∧ name ≠ "response.completed" ∧ data.Stable 8
  | .completed data => data.Stable 8

section bytes

variable {serde : SerdeJson} (hserde : serde.Lawful)

theorem utf8_injective : Function.Injective Str.utf8 := by
  intro s t h
  have hsome := congrArg Str.fromUtf8 h
  rw [Str.fromUtf8_utf8, Str.fromUtf8_utf8] at hsome
  exact Option.some.inj hsome

include hserde

theorem toStr_injective {v w : Value} (hv : v.Stable 8) (hw : w.Stable 8) (h : serde.toStr v = serde.toStr w) :
    v = w := by
  have hread := congrArg serde.fromStr h
  rwa [hserde.fromStr_stable hv (by decide), hserde.fromStr_stable hw (by decide), Option.some.injEq] at hread

theorem lines_injective {chunks chunks' : List ResponsesChunk} (h : ∀ chunk ∈ chunks, chunk.Encoded)
    (h' : ∀ chunk ∈ chunks', chunk.Encoded)
    (heq : chunks.flatMap (ResponsesChunk.lines serde) = chunks'.flatMap (ResponsesChunk.lines serde)) :
    chunks = chunks' := by
  induction chunks generalizing chunks' with
  | nil =>
    cases chunks' with
    | nil => rfl
    | cons chunk' chunks' => cases chunk' <;> exact nomatch heq
  | cons chunk chunks ih =>
    cases chunks' with
    | nil => cases chunk <;> exact nomatch heq
    | cons chunk' chunks' =>
      rw [List.forall_mem_cons] at h h'
      have hname (name name' : String) (hline : "event: " ++ name = "event: " ++ name') : name = name' :=
        String.append_right_inj _ |>.mp hline
      have hdata {data data' : Value} (hv : data.Stable 8) (hw : data'.Stable 8)
          (hline : "data: " ++ serde.toStr data = "data: " ++ serde.toStr data') : data = data' :=
        toStr_injective hserde hv hw (String.append_right_inj _ |>.mp hline)
      cases chunk with
      | event name data =>
        cases chunk' with
        | event name' data' =>
          simp only [List.flatMap_cons, ResponsesChunk.lines, List.cons_append, List.nil_append, List.cons.injEq] at heq
          obtain ⟨hfirst, hsecond, -, hrest⟩ := heq
          rw [hname _ _ hfirst, hdata h.1.2.2 h'.1.2.2 hsecond, ih h.2 h'.2 hrest]
        | completed data' =>
          simp only [List.flatMap_cons, ResponsesChunk.lines, List.cons_append, List.nil_append, List.cons.injEq] at heq
          exact absurd (hname _ "response.completed" heq.1) h.1.2.1
      | completed data =>
        cases chunk' with
        | event name' data' =>
          simp only [List.flatMap_cons, ResponsesChunk.lines, List.cons_append, List.nil_append, List.cons.injEq] at heq
          exact absurd (hname "response.completed" _ heq.1).symm h'.1.2.1
        | completed data' =>
          simp only [List.flatMap_cons, ResponsesChunk.lines, List.cons_append, List.nil_append, List.cons.injEq] at heq
          obtain ⟨-, hsecond, -, -, -, hrest⟩ := heq
          rw [hdata h.1 h'.1 hsecond, ih h.2 h'.2 hrest]

theorem bytes_injective {chunks chunks' : List ResponsesChunk} (h : ∀ chunk ∈ chunks, chunk.Encoded)
    (h' : ∀ chunk ∈ chunks', chunk.Encoded)
    (heq : chunks.flatMap (ResponsesChunk.bytes serde) = chunks'.flatMap (ResponsesChunk.bytes serde)) :
    chunks = chunks' := by
  have hplain {chunks : List ResponsesChunk} (h : ∀ chunk ∈ chunks, chunk.Encoded) :
      ∀ text ∈ chunks.flatMap (ResponsesChunk.lines serde), Plain text := by
    intro text htext
    obtain ⟨chunk, hchunk, hline⟩ := List.mem_flatMap.mp htext
    have hchunkPlain : chunk.IsPlain := by
      cases chunk with
      | event name data => exact (h _ hchunk).1
      | completed data => trivial
    exact ResponsesChunk.lines_plain hserde hchunkPlain text hline
  have hrender (chunks : List ResponsesChunk) : chunks.flatMap (ResponsesChunk.bytes serde) =
      Lines.render 10 ((chunks.flatMap (ResponsesChunk.lines serde)).map Str.utf8) := by
    induction chunks with
    | nil => rfl
    | cons chunk chunks ih =>
      rw [List.flatMap_cons, List.flatMap_cons, List.map_append, Lines.render_append, ← ih, ResponsesChunk.bytes_lines]
  have hlines := congrArg (fun bs => (Sse.drainLines bs).1) heq
  simp only [hrender, drainLines_plain (hplain h), drainLines_plain (hplain h')] at hlines
  exact lines_injective hserde h h' (List.map_injective_iff.mpr utf8_injective hlines)

end bytes

section encoded

theorem processInternalEvents_encoded (st : ChatToResponses) (events : List InternalStreamEvent) :
    ∀ chunk ∈ (st.processInternalEvents events).2, chunk.Encoded := by
  induction events generalizing st with
  | nil => rintro _ ⟨⟩
  | cons event events ih =>
    intro chunk hchunk
    have hsent : chunk ∈ (st.processInternalEvent event).2 ∨
        chunk ∈ ((st.processInternalEvent event).1.processInternalEvents events).2 := List.mem_append.mp hchunk
    rcases hsent with hfirst | hrest
    · cases event with
      | textDelta delta =>
        rw [List.mem_singleton.mp hfirst]
        refine ⟨by simp [Plain], by decide, Value.stable_json ?_⟩
        simp [Value.stable_string, Value.stable_nat]
      | toolCallDelta index id name arguments =>
        rw [(processInternalEvent_toolCallDelta st index id name arguments).1] at hfirst
        rcases List.mem_append.mp hfirst with hadded | harguments
        · split_ifs at hadded
          · cases hadded
          · rw [List.mem_singleton.mp hadded]
            refine ⟨by simp [Plain], by decide, Value.stable_json ?_⟩
            simp [Value.stable_string, Value.stable_nat, Value.stable_json]
        · obtain ⟨delta, -, rfl⟩ := List.mem_map.mp harguments
          refine ⟨by simp [Plain], by decide, Value.stable_json ?_⟩
          simp [Value.stable_string, Value.stable_nat]
      | reasoningDelta delta => cases hfirst
      | toolCallDone index id name arguments => cases hfirst
      | usage usage => cases hfirst
      | finished reason => cases hfirst
    · exact ih _ chunk hrest

theorem completed_encoded (usage : Option StreamUsage) (responseId : String) {output : List Value}
    (houtput : ∀ item ∈ output, item.Stable 4) : (responsesCompletedSseWithUsage usage responseId output).Encoded := by
  have hresponse := Value.stable_ofOption completedUsage_stable usage
  unfold completedUsage at hresponse
  apply Value.stable_json
  simp only [List.mem_cons, List.not_mem_nil, or_false, forall_eq_or_imp, forall_eq, Value.stable_string, true_and]
  apply Value.stable_json
  simp only [List.mem_cons, List.not_mem_nil, or_false, forall_eq_or_imp, forall_eq, Value.stable_string,
    Value.stable_nat, true_and,
    and_true]
  exact ⟨(Value.stable_array houtput).mono (by decide), hresponse.mono (by decide)⟩

theorem close_encoded (st : ChatToResponses) : ∀ chunk ∈ st.close.2, chunk.Encoded := by
  intro chunk hchunk
  rw [close_chunks] at hchunk
  rcases List.mem_append.mp hchunk with hdone | hcompleted
  · obtain ⟨p, -, hp⟩ := List.mem_flatMap.mp hdone
    simp only [responsesToolCallDoneSse, List.mem_cons, List.not_mem_nil, or_false] at hp
    rcases hp with rfl | rfl
    · refine ⟨by simp [Plain], by decide, Value.stable_json ?_⟩
      simp [Value.stable_string, Value.stable_nat]
    · refine ⟨by simp [Plain], by decide, Value.stable_json ?_⟩
      simp [Value.stable_string, Value.stable_nat, Value.stable_json]
  · rw [List.mem_singleton.mp hcompleted]
    exact completed_encoded _ _ (responseOutputItems_stable st)

end encoded

end Prelay.Bridge
