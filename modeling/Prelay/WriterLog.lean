import Prelay.ThreadReplay

namespace Prelay.Rollout

open Json

section segment

variable (env : Env) (threadId : String)

def segmentTexts (base : Option Log) (new : Log) : List String :=
  (if base.isNone then [headerText env threadId] else []) ++ new.map (eventText env)

theorem threadTexts_append (base : Option Log) (new : Log) :
    threadTexts env threadId (some (base.getD [] ++ new)) =
      threadTexts env threadId base ++ segmentTexts env threadId base new := by
  cases base with
  | none => rfl
  | some log => simp [threadTexts, segmentTexts]

theorem segmentTexts_append (base : Option Log) (new : Log) (event : ConversationEvent) :
    segmentTexts env threadId base (new ++ [event]) = segmentTexts env threadId base new ++ [eventText env event] := by
  simp [segmentTexts]

theorem length_threadTexts (log : Option Log) : (threadTexts env threadId log).length = logLines log := by
  cases log with
  | none => rfl
  | some log => simp [threadTexts, logLines]

theorem textBytes_append (texts more : List String) : textBytes (texts ++ more) = textBytes texts ++ textBytes more :=
  List.flatMap_append

structure Segment (base : Option Log) (new : Log) (written : List String) (w : RolloutWriter) : Prop where
  thread : w.threadId = threadId
  isOpen : w.finished = false
  startLine : w.startLine = logLines base + 1
  endLine : w.endLine = w.lineCount
  eventCount : w.eventCount = new.length
  hashed : w.hashed = textBytes (segmentTexts env threadId base new)
  byteSize : w.byteSize = w.hashed.length
  expectedLen : w.expectedLen = (threadBytes env threadId base).length
  pending : ∃ rest : List String, w.pending = rest.map textLine ∧ written ++ rest = segmentTexts env threadId base new

structure Writes (keeps : Bytes → Prop) (dedup : Prop) (drafts : Set ContentDraft) (path : String)
    (base : Option Log) (new : Log) (written : List String) (w : RolloutWriter) : Prop where
  segment : Segment env threadId base new written w
  state : Describes keeps dedup env path (w.threadState {}) (some (base.getD [] ++ new))
  wellFormed : WellFormed env drafts (base.getD [] ++ new)

end segment

section writer

variable {env : Env} {threadId path : String} {base : Option Log} {new : Log} {written : List String}
  {w : RolloutWriter} {keeps : Bytes → Prop} {dedup : Prop} {drafts : Set ContentDraft}

theorem RolloutWriter.recordEvent_eq (w : RolloutWriter) (eventType : String) (payload : Value) (content : Bool) :
    w.recordEvent env eventType payload content = { w with
      content := if content then w.content.append env eventType payload else w.content
      seq := w.seq + 1
      pending := w.pending ++ [textLine (eventText env (w.nextEvent env eventType payload))]
      hashed := w.hashed ++ textLine (eventText env (w.nextEvent env eventType payload))
      byteSize := w.byteSize + (textLine (eventText env (w.nextEvent env eventType payload))).length
      lineCount := w.lineCount + 1
      endLine := w.lineCount + 1
      eventCount := w.eventCount + 1
      eventRefs := if content && isContentEvent eventType
        then pushRef w.eventRefs (eventIdentity env eventType payload) (w.seq + 1) else w.eventRefs
      contentEventCount := if content && isContentEvent eventType then w.contentEventCount + 1
        else w.contentEventCount } := by
  unfold RolloutWriter.recordEvent
  by_cases h : (content && isContentEvent eventType) = true
  · simp only [h, ↓reduceIte]
    rfl
  · simp only [h]
    rfl

theorem Segment.recordEvent (h : Segment env threadId base new written w) (eventType : String) (payload : Value)
    (content : Bool) :
    Segment env threadId base (new ++ [w.nextEvent env eventType payload]) written
      (w.recordEvent env eventType payload content) := by
  rw [RolloutWriter.recordEvent_eq]
  obtain ⟨rest, hpending, hrest⟩ := h.pending
  refine ⟨h.thread, h.isOpen, h.startLine, rfl, ?_, ?_, ?_, h.expectedLen,
    rest ++ [eventText env (w.nextEvent env eventType payload)], ?_, ?_⟩
  · simp [h.eventCount]
  · simp [h.hashed, segmentTexts_append, textBytes]
  · simp [h.byteSize]
  · simp [hpending]
  · rw [← List.append_assoc, hrest, segmentTexts_append]

theorem Segment.congr {w' : RolloutWriter} (h : Segment env threadId base new written w)
    (itemRefs : Std.ExtTreeMap String ℕ) (eventRefs : Std.ExtTreeMap Bytes (List ℕ)) (window : Option WindowState)
    (heq : w' = { w with itemRefs := itemRefs, eventRefs := eventRefs, windowState := window }) :
    Segment env threadId base new written w' := by
  subst heq
  exact ⟨h.thread, h.isOpen, h.startLine, h.endLine, h.eventCount, h.hashed, h.byteSize, h.expectedLen,
    h.pending⟩

theorem Segment.expected_length (h : Segment env threadId base new written w) :
    w.expectedLen + w.byteSize = (threadBytes env threadId (some (base.getD [] ++ new))).length := by
  rw [h.expectedLen, h.byteSize, h.hashed]
  simp [threadBytes, threadTexts_append, textBytes_append]

def isControlType (eventType : String) : Bool := eventType = "turn" || eventType = "context" || eventType = "turn_end"

def isContentType (eventType : String) : Bool := isContentEvent eventType || eventType = "usage" || eventType = "error"

theorem Writes.control (h : Writes env threadId keeps dedup drafts path base new written w) (body : ControlEventBody)
    (htype : isControlType body.eventType = true) :
    Writes env threadId keeps dedup drafts path base
      (new ++ [w.nextEvent env body.eventType (storedPayload env body.members)]) written
      (w.recordEvent env body.eventType (storedPayload env body.members) false) := by
  have hwindow : body.eventType ≠ "window" := by
    intro heq
    rw [heq] at htype
    exact absurd htype (by decide)
  have hcontent := control_eventType body
  have hobserve : ∀ state : ThreadState,
      state.observe env (w.nextEvent env body.eventType (storedPayload env body.members)) = state := by
    intro state
    simp [ThreadState.observe, RolloutWriter.nextEvent, hwindow, hcontent]
  refine ⟨h.segment.recordEvent body.eventType _ false, ?_, ?_⟩
  · rw [← List.append_assoc]
    apply h.state.append <;> simp [RolloutWriter.recordEvent_eq, RolloutWriter.threadState, hobserve]
    · simp [RolloutWriter.nextEvent, hcontent]
    · exact fun key seq hseq => .inl hseq
  · rw [← List.append_assoc]
    apply h.wellFormed.append
    · simpa [RolloutWriter.nextEvent, RolloutWriter.threadState] using h.state.seq
    · exact .inl ⟨body, rfl, rfl⟩

theorem Writes.window (h : Writes env threadId keeps dedup drafts path base new written w) (window : WindowEvent) :
    Writes env threadId keeps dedup drafts path base
      (new ++ [w.nextEvent env "window" (storedPayload env window.members)]) written
      (RolloutWriter.recordEvent env
        { w with windowState := windowStateOf (storedPayload env window.members), eventRefs := ∅ }
        "window" (storedPayload env window.members) false) := by
  refine ⟨(h.segment.congr w.itemRefs ∅ (windowStateOf (storedPayload env window.members)) rfl).recordEvent "window" _
    false, ?_, ?_⟩
  · rw [← List.append_assoc]
    apply h.state.append <;>
      simp [RolloutWriter.recordEvent_eq, RolloutWriter.threadState, ThreadState.observe, RolloutWriter.nextEvent,
        isContentEvent]
    exact fun key seq hseq => .inl hseq
  · rw [← List.append_assoc]
    apply h.wellFormed.append
    · simpa [RolloutWriter.nextEvent, RolloutWriter.threadState] using h.state.seq
    · exact .inl ⟨.window window, rfl, rfl⟩

/-- A draft whose key is read back from the line that is written for it. -/
def Recoverable (env : Env) (draft : ContentDraft) : Prop :=
  isContentEvent draft.body.eventType = true ∧
    draftKey draft.body.eventType draft = (storedItemId draft.body.eventType (storedPayload env draft.body.members)).map
      (itemRefKey draft.body.eventType)

theorem body_isContentType (body : ContentEventBody) : isContentType body.eventType = true := by
  cases body <;> rfl

theorem body_ne_window (body : ContentEventBody) : body.eventType ≠ "window" := by
  cases body <;> exact of_decide_eq_true rfl

theorem keepItem_eq (w : RolloutWriter) (key : Option String) (seq : ℕ) :
    w.keepItem key seq = { w with itemRefs := key.elim w.itemRefs (fun key => w.itemRefs.insert key seq) } := by
  cases key <;> rfl

theorem keepItem_seqs (itemRefs : Std.ExtTreeMap String ℕ) (kept : Option String) (seq : ℕ) :
    ∀ (key : String) (found : ℕ), (kept.elim itemRefs (fun key => itemRefs.insert key seq))[key]? = some found →
      itemRefs[key]? = some found ∨ found = seq := by
  intro key found hfound
  cases kept with
  | none => exact .inl hfound
  | some k =>
    simp only [Option.elim_some, Std.ExtTreeMap.getElem?_insert] at hfound
    split_ifs at hfound with heq
    · exact .inr (Option.some.inj hfound).symm
    · exact .inl hfound

theorem Writes.content (h : Writes env threadId keeps dedup drafts path base new written w) {draft : ContentDraft}
    (hdraft : draft ∈ drafts) (hrecover : dedup → Recoverable env draft) :
    Writes env threadId keeps dedup drafts path base
      (new ++ [w.nextEvent env draft.body.eventType (storedPayload env draft.body.members)]) written
      ((w.recordEvent env draft.body.eventType (storedPayload env draft.body.members) true).keepItem
        (draftKey draft.body.eventType draft) (w.seq + 1)) := by
  have hwindow := body_ne_window draft.body
  refine ⟨?_, ?_, ?_⟩
  · rw [keepItem_eq]
    exact (h.segment.recordEvent _ _ true).congr _ _ _ rfl
  · rw [← List.append_assoc]
    by_cases hcontent : isContentEvent draft.body.eventType = true
    · apply h.state.append <;>
        simp only [keepItem_eq, RolloutWriter.recordEvent_eq, RolloutWriter.threadState, ThreadState.observe,
          RolloutWriter.nextEvent, hwindow, hcontent, ↓reduceIte, Bool.and_self, implies_true]
      · intro hdedup
        rw [(hrecover hdedup).2]
        cases storedItemId draft.body.eventType (storedPayload env draft.body.members) <;> rfl
      · exact keepItem_seqs w.itemRefs _ _
    · have hlost : ¬dedup := fun hdedup => hcontent (hrecover hdedup).1
      apply h.state.append <;>
        simp only [keepItem_eq, RolloutWriter.recordEvent_eq, RolloutWriter.threadState, ThreadState.observe,
          RolloutWriter.nextEvent, hwindow, hcontent, hlost, ↓reduceIte, Bool.and_false, Bool.false_eq_true,
          false_implies]
      exact keepItem_seqs w.itemRefs _ _
  · rw [← List.append_assoc]
    apply h.wellFormed.append
    · simpa [RolloutWriter.nextEvent, RolloutWriter.threadState] using h.state.seq
    · exact .inr ⟨draft, hdraft, rfl, rfl⟩

theorem Writes.keepItem (h : Writes env threadId keeps dedup drafts path base new written w) {key : Option String}
    {seq : ℕ}
    (hseq : ∃ event ∈ base.getD [] ++ new, event.seq = seq)
    (hknown : dedup → ∀ k, key = some k → w.itemRefs[k]? = some seq) :
    Writes env threadId keeps dedup drafts path base new written (w.keepItem key seq) := by
  rw [keepItem_eq]
  refine ⟨h.segment.congr _ _ _ rfl, ?_, h.wellFormed⟩
  obtain ⟨hpath, hformat, hline, hlast, hwindow, heventRefs, heventSeqs, hcount, hcontent, hitemRefs, hitemSeqs⟩ :=
    h.state
  refine ⟨hpath, hformat, hline, hlast, hwindow, heventRefs, heventSeqs, hcount, hcontent, ?_, ?_⟩
  · intro hdedup
    rw [← hitemRefs hdedup]
    cases key with
    | none => rfl
    | some key =>
      apply Std.ExtTreeMap.ext_getElem?
      intro k
      simp only [RolloutWriter.threadState, Option.elim_some, Std.ExtTreeMap.getElem?_insert]
      split_ifs with heq
      · rw [← Std.LawfulEqCmp.compare_eq_iff_eq.mp heq, hknown hdedup key rfl]
      · rfl
  · intro k found hfound
    rcases keepItem_seqs w.itemRefs key seq k found hfound with hold | rfl
    · exact hitemSeqs k found hold
    · exact hseq

end writer

end Prelay.Rollout
