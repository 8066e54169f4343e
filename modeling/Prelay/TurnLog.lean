import Prelay.WriterLog

namespace Prelay.Rollout

open Json Redaction

/-- Drafts whose lines give them back with their keys, and that have one key when they have one content. -/
structure Deduplicable (env : Env) (drafts : Set ContentDraft) : Prop where
  readsBack : ∀ draft ∈ drafts, ReadsBack env draft
  recoverable : ∀ draft ∈ drafts, Recoverable env draft
  same_key : ∀ a ∈ drafts, ∀ b ∈ drafts,
    eventIdentity env a.body.eventType (storedPayload env a.body.members) =
      eventIdentity env b.body.eventType (storedPayload env b.body.members) →
    draftKey a.body.eventType a = draftKey b.body.eventType b

def OpenBlock (env : Env) (turnId : String) (block : Log) : Prop :=
  ∃ window turn before context after, block = window ++ turn :: before ++ context :: after ∧
    window.map ConversationEvent.eventType ∈ [[], ["window"]] ∧ turn.eventType = "turn" ∧
    turn.payload.get "turn_id" = some (.string (redactSensitiveText env.patterns turnId)) ∧
    (∀ event ∈ before, isContentType event.eventType = true) ∧ context.eventType = "context" ∧
    ∀ event ∈ after, isContentType event.eventType = true

section turn

variable {env : Env} {threadId path : String} {base : Option Log} {new : Log} {written : List String}
  {w : RolloutWriter} {keeps : Bytes → Prop} {dedup : Prop} {drafts : Set ContentDraft}

theorem Writes.appendControl (h : Writes env threadId keeps dedup drafts path base new written w) (body : ControlEventBody)
    (htype : isControlType body.eventType = true) :
    w.appendControl env body = .ok (w.recordEvent env body.eventType (storedPayload env body.members) false) ∧
      Writes env threadId keeps dedup drafts path base
        (new ++ [w.nextEvent env body.eventType (storedPayload env body.members)]) written
        (w.recordEvent env body.eventType (storedPayload env body.members) false) := by
  refine ⟨?_, h.control body htype⟩
  have hwindow : body.eventType ≠ "window" := by
    intro heq
    rw [heq] at htype
    exact absurd htype (by decide)
  simp [RolloutWriter.appendControl, RolloutWriter.writeEvent, hwindow, h.segment.isOpen, bind, Except.bind]

theorem appendControl_window (hopen : w.finished = false) (window : WindowEvent) :
    w.appendControl env (.window window) = .ok (RolloutWriter.recordEvent env
      { w with windowState := windowStateOf (storedPayload env window.members), eventRefs := ∅ }
      "window" (storedPayload env window.members) false) := by
  simp [RolloutWriter.appendControl, RolloutWriter.writeEvent, hopen, bind, Except.bind, ControlEventBody.eventType,
    ControlEventBody.members]

theorem appendContent_eq (hopen : w.finished = false) (draft : ContentDraft) :
    w.appendContent env draft = .ok (w.seq + 1,
      (w.recordEvent env draft.body.eventType (storedPayload env draft.body.members) true).keepItem
        (draftKey draft.body.eventType draft) (w.seq + 1)) := by
  simp [RolloutWriter.appendContent, RolloutWriter.writeEvent, hopen, bind, Except.bind]

theorem referDraft_eq (hopen : w.finished = false) (occurrences : Std.ExtTreeMap Bytes ℕ) (draft : ContentDraft)
    {identity : Bytes} {key : Option String}
    (hidentity : identity = eventIdentity env draft.body.eventType (storedPayload env draft.body.members))
    (hkey : key = draftKey draft.body.eventType draft) :
    w.referDraft env occurrences draft =
      match w.existingRef key identity (occurrences.getD identity 0) with
      | some seq => .ok (seq, occurrences.insert identity (occurrences.getD identity 0 + 1), w.keepItem key seq)
      | none => .ok (w.seq + 1, occurrences.insert identity (occurrences.getD identity 0 + 1),
          (w.recordEvent env draft.body.eventType (storedPayload env draft.body.members) true).keepItem key
            (w.seq + 1)) := by
  subst hidentity hkey
  simp only [RolloutWriter.referDraft, draftEventParts_eq, bind, Except.bind, RolloutWriter.writeEvent, hopen]
  cases w.existingRef _ _ _ <;> rfl

theorem Writes.existingRef_known (h : Writes env threadId keeps dedup drafts path base new written w) (hdedup : dedup)
    (hdrafts : Deduplicable env drafts) {draft : ContentDraft} (hdraft : draft ∈ drafts) {key : String}
    (hkey : draftKey draft.body.eventType draft = some key) {occurrence seq : ℕ}
    (hexisting : w.existingRef (some key)
      (eventIdentity env draft.body.eventType (storedPayload env draft.body.members)) occurrence = some seq) :
    w.itemRefs[key]? = some seq := by
  unfold RolloutWriter.existingRef at hexisting
  cases hitem : w.itemRefs[key]? with
  | some found => simpa [hitem] using hexisting
  | none =>
    -- an event of the same content in the log has the same key, so the key is known
    exfalso
    have hrefs := h.state.eventRefs
      (eventIdentity env draft.body.eventType (storedPayload env draft.body.members)) (.inl hdedup)
    have hitems := h.state.itemRefs hdedup
    simp only [RolloutWriter.threadState, Option.getD_some] at hrefs hitems
    simp only [Option.bind_some, hitem, Option.none_or, Std.ExtTreeMap.getD_eq_getD_getElem?, hrefs] at hexisting
    rw [← Std.ExtTreeMap.getD_eq_getD_getElem?] at hexisting
    obtain ⟨event, hevent, -, hcontent, hidentity⟩ := replay_eventRefs env path _ _ _ (List.mem_of_getElem? hexisting)
    obtain ⟨other, hother, htype, hpayload⟩ := h.wellFormed.drafted hevent hcontent
    rw [identityOf, htype, hpayload] at hidentity
    have hsame := hdrafts.same_key other hother draft hdraft hidentity
    rw [hkey, (hdrafts.recoverable other hother).2, ← htype, ← hpayload] at hsame
    obtain ⟨id, hid, hidkey⟩ := Option.map_eq_some_iff.mp hsame
    have hknown := replay_itemRefs env path _ hevent hcontent hid
    rw [hidkey, ← hitems] at hknown
    exact hknown hitem

theorem Writes.existingRef_mem (h : Writes env threadId keeps dedup drafts path base new written w) {key : Option String}
    {identity : Bytes} {occurrence seq : ℕ} (hexisting : w.existingRef key identity occurrence = some seq) :
    ∃ event ∈ base.getD [] ++ new, event.seq = seq := by
  unfold RolloutWriter.existingRef at hexisting
  rcases Option.or_eq_some_iff.mp hexisting with hitem | ⟨-, hevent⟩
  · obtain ⟨k, -, hk⟩ := Option.bind_eq_some_iff.mp hitem
    exact h.state.itemSeqs k seq hk
  · exact h.state.eventSeqs identity seq (List.mem_of_getElem? hevent)

theorem Writes.referDraft (h : Writes env threadId keeps dedup drafts path base new written w)
    (hdedup : dedup → Deduplicable env drafts) {draft : ContentDraft} (hdraft : draft ∈ drafts)
    (occurrences : Std.ExtTreeMap Bytes ℕ) :
    ∃ seq occurrences' more w', w.referDraft env occurrences draft = .ok (seq, occurrences', w') ∧
      Writes env threadId keeps dedup drafts path base (new ++ more) written w' ∧ w'.turnId = w.turnId ∧
      ∀ event ∈ more, event.eventType = draft.body.eventType ∧ event.payload = storedPayload env draft.body.members := by
  rw [referDraft_eq h.segment.isOpen occurrences draft rfl rfl]
  split
  · rename_i seq hexisting
    refine ⟨_, _, [], _, rfl, ?_, ?_, nofun⟩
    · rw [List.append_nil]
      apply h.keepItem (h.existingRef_mem hexisting)
      intro hd key hkey
      rw [hkey] at hexisting
      exact h.existingRef_known hd (hdedup hd) hdraft hkey hexisting
    · rw [keepItem_eq]
  · refine ⟨_, _, [_], _, rfl, h.content hdraft (fun hd => (hdedup hd).recoverable draft hdraft), ?_, ?_⟩
    · rw [keepItem_eq, RolloutWriter.recordEvent_eq]
    · intro event hevent
      rw [List.mem_singleton.mp hevent]
      exact ⟨rfl, rfl⟩

theorem Writes.referDrafts (h : Writes env threadId keeps dedup drafts path base new written w)
    (hdedup : dedup → Deduplicable env drafts) {requestEvents : List ContentDraft}
    (hdrafts : ∀ draft ∈ requestEvents, draft ∈ drafts) (occurrences : Std.ExtTreeMap Bytes ℕ) :
    ∃ refs more w', w.referDrafts env occurrences requestEvents = .ok (refs, w') ∧
      Writes env threadId keeps dedup drafts path base (new ++ more) written w' ∧ w'.turnId = w.turnId ∧
      ∀ event ∈ more, ∃ draft ∈ requestEvents,
        event.eventType = draft.body.eventType ∧ event.payload = storedPayload env draft.body.members := by
  induction requestEvents generalizing w new occurrences with
  | nil => exact ⟨[], [], w, rfl, by rwa [List.append_nil], rfl, nofun⟩
  | cons draft requestEvents ih =>
    obtain ⟨seq, occurrences', more, w', hdraft, hw', hturn', hmore⟩ :=
      h.referDraft hdedup (hdrafts draft List.mem_cons_self) occurrences
    obtain ⟨refs, rest, w'', hrest, hw'', hturn'', hcontent⟩ :=
      ih hw' (fun d hd => hdrafts d (List.mem_cons_of_mem _ hd)) occurrences'
    refine ⟨seq :: refs, more ++ rest, w'', ?_, by rwa [← List.append_assoc], hturn''.trans hturn', ?_⟩
    · rw [RolloutWriter.referDrafts, hdraft, bind, Except.instMonad]
      simp only [Except.bind, hrest]
    · intro event hevent
      rcases List.mem_append.mp hevent with hevent | hevent
      · exact ⟨draft, List.mem_cons_self, hmore event hevent⟩
      · obtain ⟨d, hd, hstored⟩ := hcontent event hevent
        exact ⟨d, List.mem_cons_of_mem _ hd, hstored⟩

theorem contentType_of_drafted {requestEvents : List ContentDraft} {more : Log} (h : ∀ event ∈ more,
    ∃ draft ∈ requestEvents, event.eventType = draft.body.eventType ∧
      event.payload = storedPayload env draft.body.members) :
    ∀ event ∈ more, isContentType event.eventType = true := by
  intro event hevent
  obtain ⟨draft, -, htype, -⟩ := h event hevent
  rw [htype]
  exact body_isContentType draft.body

theorem Writes.start {state : ThreadState} {session : SessionContext} (threadPath : String) (turn : TurnContext)
    (turnId : String) (hstate : Describes keeps dedup env path state base)
    (hlen : state.stamp.len = (threadBytes env threadId base).length)
    (hwellFormed : WellFormed env drafts (base.getD [])) (hthread : session.threadId = threadId) :
    Writes env threadId keeps dedup drafts path base [] []
      (if state.isEmpty then (RolloutWriter.fromState state threadPath session turn turnId).writeMeta env
        else RolloutWriter.fromState state threadPath session turn turnId) := by
  obtain ⟨hpath, hformat, hline, hseq, hwindow, heventRefs, heventSeqs, hcount, hcontent, hitemRefs, hitemSeqs⟩ := hstate
  cases base with
  | none =>
    have hempty : state.isEmpty = true := by simpa [ThreadState.isEmpty, logLines] using hline
    have hline0 : state.lineCount = 0 := hline
    have hheader : jsonLine env.serde (metaValue { threadId := session.threadId, createdAt := env.time 1 }) =
        textLine (headerText env threadId) := by
      rw [hthread]
      rfl
    rw [if_pos hempty]
    refine ⟨⟨hthread, rfl, ?_, rfl, rfl, ?_, ?_, ?_, [headerText env threadId], ?_, rfl⟩, ?_, ?_⟩
    · exact congrArg (· + 1) hline
    · simp [RolloutWriter.writeMeta, RolloutWriter.writeLine, RolloutWriter.fromState, hline0, hheader, segmentTexts,
        textBytes]
    · simp [RolloutWriter.writeMeta, RolloutWriter.writeLine, RolloutWriter.fromState]
    · exact hlen
    · simp [RolloutWriter.writeMeta, RolloutWriter.writeLine, RolloutWriter.fromState, hline0, hheader]
    · refine ⟨hpath, fun _ => ?_, ?_, hseq, hwindow, heventRefs, heventSeqs, hcount, hcontent, hitemRefs, hitemSeqs⟩
      · simp [RolloutWriter.writeMeta, RolloutWriter.writeLine, RolloutWriter.fromState, RolloutWriter.threadState,
          hempty]
      · simp [RolloutWriter.writeMeta, RolloutWriter.writeLine, RolloutWriter.fromState, RolloutWriter.threadState,
          hline0, logLines]
    · exact hwellFormed
  | some log =>
    have hempty : state.isEmpty = false := by simp [ThreadState.isEmpty, hline, logLines]
    rw [if_neg (by simp [hempty])]
    refine ⟨⟨hthread, rfl, ?_, rfl, rfl, rfl, rfl, ?_, [], rfl, rfl⟩, ?_, ?_⟩
    · exact congrArg (· + 1) hline
    · exact hlen
    · rw [List.append_nil]
      refine ⟨hpath, fun hsome => ?_, hline, hseq, hwindow, heventRefs, heventSeqs, hcount, hcontent, hitemRefs, hitemSeqs⟩
      simp [RolloutWriter.fromState, RolloutWriter.threadState, hempty, hformat hsome]
    · rwa [List.append_nil]

theorem turnId_payload (turn : TurnEvent) :
    (storedPayload env turn.members).get "turn_id" =
      some (.string (redactSensitiveText env.patterns turn.turnId)) := by
  simp [storedPayload_get, TurnEvent.members, List.find?, Value.normalize, redactJsonValue, Value.mapStrings]

theorem Writes.startTurn {state : ThreadState} {session : SessionContext} (threadPath : String) (turn : TurnContext)
    (turnId : String) (hstate : Describes keeps dedup env path state base)
    (hlen : state.stamp.len = (threadBytes env threadId base).length)
    (hwellFormed : WellFormed env drafts (base.getD [])) (hthread : session.threadId = threadId) :
    ∃ window first w', (RolloutWriter.fromState state threadPath session turn turnId).startTurn env state session
        turn = .ok w' ∧ Writes env threadId keeps dedup drafts path base (window ++ [first]) [] w' ∧ w'.turnId = turnId ∧
      w'.itemRefs = state.itemRefs ∧ window.map ConversationEvent.eventType ∈ [[], ["window"]] ∧
      first.eventType = "turn" ∧
      first.payload.get "turn_id" = some (.string (redactSensitiveText env.patterns turnId)) := by
  have hstart := Writes.start threadPath turn turnId hstate hlen hwellFormed hthread
  have hturn : ∀ (new : Log) (w : RolloutWriter), Writes env threadId keeps dedup drafts path base new [] w →
      w.turnId = turnId → w.itemRefs = state.itemRefs →
      ∃ first w', w.appendControl env (.turn ⟨w.turnId, w.activityId, turn.modelRequested, turn.modelUpstream⟩) =
          .ok w' ∧ Writes env threadId keeps dedup drafts path base (new ++ [first]) [] w' ∧ w'.turnId = turnId ∧
        w'.itemRefs = state.itemRefs ∧ first.eventType = "turn" ∧
        first.payload.get "turn_id" = some (.string (redactSensitiveText env.patterns turnId)) := by
    intro new w hw hid hitems
    obtain ⟨happend, hw'⟩ :=
      hw.appendControl (.turn ⟨w.turnId, w.activityId, turn.modelRequested, turn.modelUpstream⟩) rfl
    refine ⟨_, _, happend, hw', ?_, ?_, rfl, ?_⟩
    · rw [RolloutWriter.recordEvent_eq]
      exact hid
    · rw [RolloutWriter.recordEvent_eq]
      exact hitems
    · rw [← hid]
      exact turnId_payload _
  have hid : (if state.isEmpty then (RolloutWriter.fromState state threadPath session turn turnId).writeMeta env
      else RolloutWriter.fromState state threadPath session turn turnId).turnId = turnId := by
    split_ifs <;> rfl
  have hitems : (if state.isEmpty then (RolloutWriter.fromState state threadPath session turn turnId).writeMeta env
      else RolloutWriter.fromState state threadPath session turn turnId).itemRefs = state.itemRefs := by
    split_ifs <;> rfl
  unfold RolloutWriter.startTurn
  generalize (if state.isEmpty then (RolloutWriter.fromState state threadPath session turn turnId).writeMeta env
    else RolloutWriter.fromState state threadPath session turn turnId) = w at hstart hid hitems
  by_cases hwindow : (state.isEmpty || state.window.isNone || state.windowChanged session) = true
  · obtain ⟨first, w', happend, hw', hid', hitems', htype, hpayload⟩ :=
      hturn _ _ (hstart.window ⟨session.windowId, session.generation⟩)
        (by rw [RolloutWriter.recordEvent_eq]; exact hid) (by rw [RolloutWriter.recordEvent_eq]; exact hitems)
    refine ⟨_, first, w', ?_, hw', hid', hitems', ?_, htype, hpayload⟩
    · rw [if_pos hwindow, appendControl_window hstart.segment.isOpen]
      exact happend
    · simp [RolloutWriter.nextEvent]
  · obtain ⟨first, w', happend, hw', hid', hitems', htype, hpayload⟩ := hturn _ _ hstart hid hitems
    refine ⟨[], first, w', ?_, hw', hid', hitems', ?_, htype, hpayload⟩
    · rw [if_neg hwindow]
      exact happend
    · simp

theorem openTurn_ok {w w₁ w₂ w₃ : RolloutWriter} {state : ThreadState} {session : SessionContext} {turn : TurnContext}
    {requestEvents : List ContentDraft} {refs : List ℕ} (hstart : w.startTurn env state session turn = .ok w₁)
    (hrefer : w₁.referDrafts env ∅ requestEvents = .ok (refs, w₂))
    (happend : w₂.appendControl env (.context refs) = .ok w₃) :
    w.openTurn env state session turn requestEvents = .ok w₃ := by
  simp only [RolloutWriter.openTurn, RolloutWriter.appendRequestEvents, hstart, hrefer, bind, Except.bind]
  exact happend

theorem OpenBlock.of_lines {turnId : String} {window more : Log} {first context : ConversationEvent}
    (hwindow : window.map ConversationEvent.eventType ∈ [[], ["window"]]) (hfirst : first.eventType = "turn")
    (hpayload : first.payload.get "turn_id" = some (.string (redactSensitiveText env.patterns turnId)))
    (hmore : ∀ event ∈ more, isContentType event.eventType = true) (hcontext : context.eventType = "context") :
    OpenBlock env turnId (window ++ [first] ++ more ++ [context]) :=
  ⟨window, first, more, context, [], by simp, hwindow, hfirst, hpayload, hmore, hcontext, by simp⟩

theorem Writes.openTurn {state : ThreadState} (threadPath : String) (session : SessionContext) (turn : TurnContext)
    (turnId : String) {requestEvents : List ContentDraft} (hstate : Describes keeps dedup env path state base)
    (hlen : state.stamp.len = (threadBytes env threadId base).length)
    (hwellFormed : WellFormed env drafts (base.getD [])) (hthread : session.threadId = threadId)
    (hdedup : dedup → Deduplicable env drafts) (hdrafts : ∀ draft ∈ requestEvents, draft ∈ drafts) :
    ∃ new w', (RolloutWriter.fromState state threadPath session turn turnId).openTurn env state session turn
        requestEvents = .ok w' ∧ Writes env threadId keeps dedup drafts path base new [] w' ∧ w'.turnId = turnId ∧
      OpenBlock env turnId new := by
  obtain ⟨window, first, w₁, hstart, hw₁, hid₁, -, hwindow, htype, hpayload⟩ :=
    Writes.startTurn threadPath turn turnId hstate hlen hwellFormed hthread
  obtain ⟨refs, more, w₂, hrefer, hw₂, hid₂, hdrafted⟩ := hw₁.referDrafts hdedup hdrafts ∅
  have hcontent := contentType_of_drafted hdrafted
  obtain ⟨happend, hw₃⟩ := hw₂.appendControl (.context refs) rfl
  refine ⟨_, _, openTurn_ok hstart hrefer happend, hw₃, ?_, .of_lines hwindow htype hpayload hcontent rfl⟩
  rw [RolloutWriter.recordEvent_eq]
  exact hid₂.trans hid₁

end turn

end Prelay.Rollout
