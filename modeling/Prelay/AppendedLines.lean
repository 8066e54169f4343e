import Prelay.CandidateScan
import Prelay.CrashRecovery

namespace Prelay.Rollout

open Json

section lines

theorem split_completed {contents : String} (h : completedContents contents = true) :
    (Lines.split '\n' contents.toList).2 = [] := by
  obtain ⟨hjoin, hrest, -⟩ := Lines.split_spec '\n' contents.toList
  have hcontents : contents = joinedText ((Lines.split '\n' contents.toList).1.map String.ofList) ++
      String.ofList (Lines.split '\n' contents.toList).2 := by
    have hlines : ((Lines.split '\n' contents.toList).1.map String.ofList).map String.toList =
        (Lines.split '\n' contents.toList).1 := by
      rw [List.map_map]
      exact map_eq_self_iff.mpr (fun line _ => String.toList_ofList)
    apply String.ext
    rw [String.toList_append, joinedText, hlines, String.toList_ofList, String.toList_ofList, hjoin]
  rw [hcontents] at h
  exact rest_eq_nil_of_completed hrest h

theorem textLines_append {contents : String} (h : completedContents contents = true) (more : String) :
    textLines (contents ++ more) = textLines contents ++ textLines more := by
  have hopen := split_completed h
  simp only [textLines, String.toList_append, Lines.split_append_fst, Lines.split_append_snd, hopen, List.nil_append,
    List.map_append, ↓reduceIte, List.append_nil, List.append_assoc]

theorem completedContents_append {contents more : String} (h : completedContents contents = true)
    (hmore : completedContents more = true) : completedContents (contents ++ more) = true := by
  simp only [completedContents, Bool.or_eq_true, decide_eq_true_eq] at h hmore ⊢
  rcases hmore with hmore | rfl
  · left
    rw [String.toList_append, List.getLast?_append, hmore]
    rfl
  · rw [String.append_empty]
    exact h

end lines

section events

variable {env : Env} {serde : SerdeJson}

theorem parseEventLines_append {lines more : List String} {events added : List ConversationEvent}
    (h : parseEventLines serde lines = .ok events) (hmore : parseEventLines serde more = .ok added) :
    parseEventLines serde (lines ++ more) = .ok (events ++ added) := by
  induction lines generalizing events with
  | nil =>
    obtain rfl := Except.ok.inj h
    exact hmore
  | cons line lines ih =>
    obtain ⟨event, hevent, h⟩ := bind_ok h
    obtain ⟨rest, hrest, h⟩ := bind_ok h
    obtain rfl := Except.ok.inj h
    rw [List.cons_append, parseEventLines, hevent, ih hrest]
    simp [bind, Except.bind]

def NumberedFrom (last : ℕ) (added : Log) : Prop :=
  added.map ConversationEvent.seq = List.range' (last + 1) added.length

theorem NumberedFrom.concat {last : ℕ} {added : Log} (h : NumberedFrom last added) {event : ConversationEvent}
    (hseq : event.seq = last + added.length + 1) : NumberedFrom last (added ++ [event]) := by
  unfold NumberedFrom at h ⊢
  rw [List.map_append, h, List.length_append, List.map_singleton, List.length_singleton, List.range'_concat, hseq]
  congr 2
  omega

theorem NumberedFrom.reread {last : ℕ} {added : Log} (h : NumberedFrom last added) :
    NumberedFrom last (added.map (rereadEvent env)) := by
  simpa [NumberedFrom, rereadEvent, Function.comp_def] using h

theorem lastSeq_append {events added : List ConversationEvent} (h : NumberedFrom (lastSeq events) added) :
    lastSeq (events ++ added) = lastSeq events + added.length := by
  induction added using List.reverseRecOn with
  | nil => rw [List.append_nil]; rfl
  | append_singleton added event ih =>
    unfold NumberedFrom at h
    rw [List.map_append, List.length_append, List.map_singleton, List.length_singleton, List.range'_concat] at h
    obtain ⟨hadded, hevent⟩ := List.append_inj' h rfl
    have hlast := ih hadded
    unfold lastSeq at hlast hevent ⊢
    rw [← List.append_assoc, List.foldl_concat, hlast, (List.cons.inj hevent).1, List.length_append,
      List.length_singleton]
    omega

theorem parse_appended (hserde : env.serde.Lawful) {contents : String} {parsed : ParsedConversation}
    (hcomplete : completedContents contents = true)
    (hparsed : parseConversationContents env.serde contents = .ok parsed) (hlines : parsed.lineCount ≠ 0) {added : Log}
    (hstored : ∀ event ∈ added, Stored event) (hnumbered : NumberedFrom parsed.lastSeq added) :
    parseConversationContents env.serde (contents ++ joinedText (added.map (eventText env))) =
      .ok { parsed with
        events := parsed.events ++ added.map (rereadEvent env)
        lineCount := parsed.lineCount + added.length
        lastSeq := parsed.lastSeq + added.length } := by
  obtain ⟨header, hheader, hparsed⟩ := bind_ok hparsed
  obtain ⟨events, hevents, hparsed⟩ := bind_ok hparsed
  obtain rfl := Except.ok.inj hparsed
  have htexts : ∀ text ∈ added.map (eventText env), SingleLine text := by
    intro text htext
    obtain ⟨event, -, rfl⟩ := List.mem_map.mp htext
    exact toStr_singleLine hserde _
  have hnew := parseEventLines_eventTexts hserde hstored
  have hne : textLines contents ≠ [] := fun h => hlines (by rw [h]; rfl)
  obtain ⟨first, rest, hfirst⟩ := List.exists_cons_of_ne_nil hne
  have hall := parseEventLines_append hevents hnew
  have hdrop : ∀ n, n ≤ 1 → (textLines contents).drop n ++ added.map (eventText env) =
      (textLines contents ++ added.map (eventText env)).drop n := by
    intro n hn
    rw [List.drop_append_of_le_length]
    rw [hfirst]
    simp
    omega
  unfold parseConversationContents
  rw [textLines_append hcomplete, textLines_joinedText htexts]
  have hhead : parseHeader env.serde (textLines contents ++ added.map (eventText env)) = .ok header := by
    rw [hfirst] at hheader ⊢
    exact hheader
  rw [hdrop _ (by split_ifs <;> omega)] at hall
  dsimp only
  rw [hhead]
  simp only [bind, Except.bind, hall, List.length_append, List.length_map]
  rw [lastSeq_append hnumbered.reread, List.length_map]

end events

section adds

variable (env : Env) (threadId : String)

def turnTexts (state : ThreadState) (added : Log) : List String :=
  (if state.isEmpty then [headerText env threadId] else []) ++ added.map (eventText env)

structure Adds (threadPath : String) (state : ThreadState) (added : Log) (written : List String) (w : RolloutWriter) :
    Prop where
  thread : w.threadId = threadId
  threadPath : w.threadPath = threadPath
  path : w.relativePath = state.relativePath
  isOpen : w.finished = false
  lineCount : w.lineCount = state.lineCount + (turnTexts env threadId state added).length
  seq : w.seq = state.seq + added.length
  hashed : w.hashed = textBytes (turnTexts env threadId state added)
  byteSize : w.byteSize = w.hashed.length
  expectedLen : w.expectedLen = state.stamp.len
  stored : ∀ event ∈ added, Stored event
  numbered : NumberedFrom state.seq added
  pending : ∃ rest : List String, w.pending = rest.map textLine ∧ written ++ rest = turnTexts env threadId state added

end adds

section writer

variable {env : Env} {threadId threadPath : String} {state : ThreadState} {added : Log} {written : List String}
  {w : RolloutWriter}

theorem turnTexts_append (state : ThreadState) (added : Log) (event : ConversationEvent) :
    turnTexts env threadId state (added ++ [event]) = turnTexts env threadId state added ++ [eventText env event] := by
  simp [turnTexts]

theorem Adds.recordEvent (h : Adds env threadId threadPath state added written w) {eventType : String}
    {payload : Value} (content : Bool) (hstored : Stored (w.nextEvent env eventType payload)) :
    Adds env threadId threadPath state (added ++ [w.nextEvent env eventType payload]) written
      (w.recordEvent env eventType payload content) := by
  rw [RolloutWriter.recordEvent_eq]
  obtain ⟨rest, hpending, hrest⟩ := h.pending
  refine ⟨h.thread, h.threadPath, h.path, h.isOpen, ?_, ?_, ?_, ?_, h.expectedLen, ?_, ?_,
    rest ++ [eventText env (w.nextEvent env eventType payload)], ?_, ?_⟩
  · simp [h.lineCount, turnTexts_append, Nat.add_assoc]
  · simp [h.seq, Nat.add_assoc]
  · simp [h.hashed, turnTexts_append, textBytes]
  · simp [h.byteSize]
  · intro event hevent
    rcases List.mem_append.mp hevent with hevent | hevent
    · exact h.stored event hevent
    · rw [List.mem_singleton.mp hevent]
      exact hstored
  · apply h.numbered.concat
    rw [RolloutWriter.nextEvent, h.seq]
  · simp [hpending]
  · rw [← List.append_assoc, hrest, turnTexts_append]

theorem Adds.congr (h : Adds env threadId threadPath state added written w) (itemRefs : Std.ExtTreeMap String ℕ)
    (eventRefs : Std.ExtTreeMap Bytes (List ℕ)) (window : Option WindowState) :
    Adds env threadId threadPath state added written
      { w with itemRefs := itemRefs, eventRefs := eventRefs, windowState := window } :=
  ⟨h.thread, h.threadPath, h.path, h.isOpen, h.lineCount, h.seq, h.hashed, h.byteSize, h.expectedLen, h.stored,
    h.numbered, h.pending⟩

theorem Adds.keepItem (h : Adds env threadId threadPath state added written w) (key : Option String) (seq : ℕ) :
    Adds env threadId threadPath state added written (w.keepItem key seq) := by
  rw [keepItem_eq]
  exact h.congr _ w.eventRefs w.windowState

theorem Adds.appendControl (h : Adds env threadId threadPath state added written w) (body : ControlEventBody) :
    ∃ more w', w.appendControl env body = .ok w' ∧ Adds env threadId threadPath state (added ++ more) written w' := by
  have hstored : ∀ w : RolloutWriter, Stored (w.nextEvent env body.eventType (storedPayload env body.members)) := by
    intro w
    have hwritten : Written env ∅ (w.nextEvent env body.eventType (storedPayload env body.members)) :=
      .inl ⟨body, rfl, rfl⟩
    exact hwritten.stored nofun
  by_cases hwindow : body.eventType = "window"
  · refine ⟨_, _, ?_, (h.congr w.itemRefs ∅ (windowStateOf (storedPayload env body.members))).recordEvent false
      (hstored _)⟩
    simp [RolloutWriter.appendControl, RolloutWriter.writeEvent, hwindow, h.isOpen, bind, Except.bind]
  · refine ⟨_, _, ?_, h.recordEvent false (hstored w)⟩
    simp [RolloutWriter.appendControl, RolloutWriter.writeEvent, hwindow, h.isOpen, bind, Except.bind]

theorem Adds.content (h : Adds env threadId threadPath state added written w) {draft : ContentDraft}
    (hdraft : Shallow env draft) :
    Adds env threadId threadPath state
      (added ++ [w.nextEvent env draft.body.eventType (storedPayload env draft.body.members)]) written
      ((w.recordEvent env draft.body.eventType (storedPayload env draft.body.members) true).keepItem
        (draftKey draft.body.eventType draft) (w.seq + 1)) := by
  have hwritten : Written env {draft | Shallow env draft}
      (w.nextEvent env draft.body.eventType (storedPayload env draft.body.members)) := .inr ⟨draft, hdraft, rfl, rfl⟩
  exact (h.recordEvent true (hwritten.stored fun _ hshallow => hshallow)).keepItem _ _

theorem Adds.referDraft (h : Adds env threadId threadPath state added written w)
    (occurrences : Std.ExtTreeMap Bytes ℕ) {draft : ContentDraft} (hdraft : Shallow env draft) :
    ∃ seq occurrences' more w', w.referDraft env occurrences draft = .ok (seq, occurrences', w') ∧
      Adds env threadId threadPath state (added ++ more) written w' := by
  rw [referDraft_eq h.isOpen occurrences draft rfl rfl]
  split
  · refine ⟨_, _, [], _, rfl, ?_⟩
    rw [List.append_nil]
    exact h.keepItem _ _
  · exact ⟨_, _, [_], _, rfl, h.content hdraft⟩

theorem Adds.referDrafts (h : Adds env threadId threadPath state added written w)
    (occurrences : Std.ExtTreeMap Bytes ℕ) {drafts : List ContentDraft} (hdrafts : ∀ draft ∈ drafts, Shallow env draft) :
    ∃ refs more w', w.referDrafts env occurrences drafts = .ok (refs, w') ∧
      Adds env threadId threadPath state (added ++ more) written w' := by
  induction drafts generalizing w added occurrences with
  | nil => exact ⟨[], [], w, rfl, by rwa [List.append_nil]⟩
  | cons draft drafts ih =>
    rw [List.forall_mem_cons] at hdrafts
    obtain ⟨seq, occurrences', more, w', hdraft, hw'⟩ := h.referDraft occurrences hdrafts.1
    obtain ⟨refs, rest, w'', hrest, hw''⟩ := ih hw' occurrences' hdrafts.2
    refine ⟨seq :: refs, more ++ rest, w'', ?_, by rwa [← List.append_assoc]⟩
    simp only [RolloutWriter.referDrafts, hdraft, hrest, bind, Except.bind]

theorem Adds.start (env : Env) (state : ThreadState) (threadPath : String) {session : SessionContext}
    (turn : TurnContext) (turnId : String) (hsession : session.threadId = threadId) :
    Adds env threadId threadPath state [] []
      (if state.isEmpty then (RolloutWriter.fromState state threadPath session turn turnId).writeMeta env
        else RolloutWriter.fromState state threadPath session turn turnId) := by
  by_cases hempty : state.isEmpty = true
  · have hline : state.lineCount = 0 := of_decide_eq_true hempty
    have hheader : jsonLine env.serde (metaValue { threadId := session.threadId, createdAt := env.time 1 }) =
        textLine (headerText env threadId) := by
      rw [hsession]
      rfl
    rw [if_pos hempty]
    refine ⟨hsession, rfl, rfl, rfl, ?_, rfl, ?_, ?_, rfl, nofun, rfl, [headerText env threadId], ?_, ?_⟩
    · simp [RolloutWriter.writeMeta, RolloutWriter.writeLine, RolloutWriter.fromState, turnTexts, hempty]
    · simp [RolloutWriter.writeMeta, RolloutWriter.writeLine, RolloutWriter.fromState, turnTexts, hempty, hline,
        hheader, textBytes]
    · simp [RolloutWriter.writeMeta, RolloutWriter.writeLine, RolloutWriter.fromState]
    · simp [RolloutWriter.writeMeta, RolloutWriter.writeLine, RolloutWriter.fromState, hline, hheader]
    · simp [turnTexts, hempty]
  · rw [if_neg hempty]
    have htexts : turnTexts env threadId state [] = [] := by simp [turnTexts, hempty]
    exact ⟨hsession, rfl, rfl, rfl, by rw [htexts]; rfl, rfl, by rw [htexts]; rfl, rfl, rfl, nofun, rfl, [], rfl,
      htexts.symm⟩

theorem Adds.openTurn (env : Env) (state : ThreadState) (threadPath : String) {session : SessionContext}
    (turn : TurnContext) (turnId : String) (hsession : session.threadId = threadId)
    {requestEvents : List ContentDraft} (hdrafts : ∀ draft ∈ requestEvents, Shallow env draft) :
    ∃ added w, (RolloutWriter.fromState state threadPath session turn turnId).openTurn env state session turn
        requestEvents = .ok w ∧ Adds env threadId threadPath state added [] w := by
  have hstart := Adds.start env state threadPath turn turnId hsession
  unfold RolloutWriter.openTurn RolloutWriter.startTurn
  generalize (if state.isEmpty then (RolloutWriter.fromState state threadPath session turn turnId).writeMeta env
    else RolloutWriter.fromState state threadPath session turn turnId) = header at hstart
  have hrest : ∀ (added : Log) (w : RolloutWriter), Adds env threadId threadPath state added [] w →
      ∃ added' w', (do
        let w ← w.appendControl env (.turn ⟨w.turnId, w.activityId, turn.modelRequested, turn.modelUpstream⟩)
        w.appendRequestEvents env requestEvents) = .ok w' ∧ Adds env threadId threadPath state added' [] w' := by
    intro added w hw
    obtain ⟨more, w₁, hturn, hw₁⟩ := hw.appendControl (.turn ⟨w.turnId, w.activityId, turn.modelRequested,
      turn.modelUpstream⟩)
    obtain ⟨refs, rest, w₂, hrefer, hw₂⟩ := hw₁.referDrafts ∅ hdrafts
    obtain ⟨last, w₃, hcontext, hw₃⟩ := hw₂.appendControl (.context refs)
    refine ⟨_, w₃, ?_, hw₃⟩
    simp only [hturn, RolloutWriter.appendRequestEvents, hrefer, hcontext, bind, Except.bind]
  by_cases hwindow : (state.isEmpty || state.window.isNone || state.windowChanged session) = true
  · obtain ⟨more, w₁, happend, hw₁⟩ := hstart.appendControl (.window ⟨session.windowId, session.generation⟩)
    obtain ⟨added', w', hdone, hw'⟩ := hrest _ w₁ hw₁
    refine ⟨added', w', ?_, hw'⟩
    rw [← hdone]
    simp only [hwindow, ↓reduceIte, happend, bind, Except.bind]
  · obtain ⟨added', w', hdone, hw'⟩ := hrest _ header hstart
    refine ⟨added', w', ?_, hw'⟩
    rw [← hdone]
    simp only [hwindow, Bool.false_eq_true, ↓reduceIte]
    rfl

end writer

section reads

variable {env : Env} {threadId threadPath : String} {state : ThreadState} {added : Log} {written : List String}
  {w : RolloutWriter} {bytes : Bytes} {lineCount seq : ℕ}

def Reads (env : Env) (bytes : Bytes) (lineCount seq : ℕ) : Prop :=
  ∃ contents parsed, bytes = Str.utf8 contents ∧ completedContents contents = true ∧
    parseConversationContents env.serde contents = .ok parsed ∧ parsed.lineCount = lineCount ∧ parsed.lastSeq = seq

theorem Reads.nil (env : Env) : Reads env [] 0 0 := ⟨"", _, rfl, rfl, parse_empty, rfl, rfl⟩

theorem Reads.read {file : File} (h : Reads env file.bytes lineCount seq) :
    ∃ parsed, readThreadEvents env (some file) = .ok (some (parsed, file)) ∧ parsed.lineCount = lineCount ∧
      parsed.lastSeq = seq := by
  obtain ⟨bytes, modified⟩ := file
  obtain ⟨contents, parsed, rfl, hcomplete, hparsed, hline, hseq⟩ := h
  exact ⟨parsed, readThreadEvents_complete hcomplete hparsed modified, hline, hseq⟩

theorem Reads.of_read {file file' : File} {parsed : ParsedConversation}
    (h : readThreadEvents env (some file) = .ok (some (parsed, file'))) :
    Reads env file'.bytes parsed.lineCount parsed.lastSeq := by
  obtain ⟨contents, hbytes, hcomplete, hparsed⟩ := readThreadEvents_some h
  exact ⟨contents, parsed, hbytes, hcomplete, hparsed, rfl, rfl⟩

theorem Reads.not_corrupt (h : Reads env bytes lineCount seq) (modified : Option ℕ) :
    readThreadEvents env (some ⟨bytes, modified⟩) ≠ .error .serialize := by
  obtain ⟨contents, parsed, rfl, hcomplete, hparsed, -, -⟩ := h
  rw [readThreadEvents_complete hcomplete hparsed modified]
  exact nofun

theorem Reads.appended (hserde : env.serde.Lawful) (hthread : threadId ≠ "")
    (h : Reads env bytes state.lineCount state.seq) (hw : Adds env threadId threadPath state added written w) :
    Reads env (bytes ++ w.hashed) w.lineCount w.seq := by
  obtain ⟨contents, parsed, rfl, hcomplete, hparsed, hline, hseq⟩ := h
  have hbytes : Str.utf8 contents ++ w.hashed =
      Str.utf8 (contents ++ joinedText (turnTexts env threadId state added)) := by
    rw [Str.utf8_append, utf8_joinedText, hw.hashed]
  by_cases hempty : state.isEmpty = true
  · -- the file is empty, so the turn writes the whole of it
    have hzero : state.lineCount = 0 := of_decide_eq_true hempty
    have hlines : (textLines contents).length = 0 := by
      obtain ⟨header, -, hparsed'⟩ := bind_ok hparsed
      obtain ⟨events, -, hparsed'⟩ := bind_ok hparsed'
      obtain rfl := Except.ok.inj hparsed'
      exact hline.trans hzero
    obtain rfl := textLines_eq_nil (List.eq_nil_of_length_eq_zero hlines)
    rw [parse_empty] at hparsed
    obtain rfl := Except.ok.inj hparsed
    have htexts : turnTexts env threadId state added = threadTexts env threadId (some added) := by
      rw [turnTexts, if_pos hempty]
      rfl
    have hnumbered : Numbered added := by
      have hfrom := hw.numbered
      rw [← hseq] at hfrom
      exact hfrom
    have hread : parseConversationContents env.serde ("" ++ joinedText (turnTexts env threadId state added)) =
        .ok (parsedThread env threadId (some added)) := by
      rw [String.empty_append, htexts]
      exact parseConversationContents_thread hserde hthread hw.stored hnumbered
    refine ⟨_, _, hbytes, completedContents_append hcomplete (completedContents_joinedText _), hread, ?_, ?_⟩
    · rw [hw.lineCount, hzero, htexts, length_threadTexts]
      simp [parsedThread, logLines]
    · rw [hw.seq, ← hseq]
      simp [parsedThread]
  · have hne : parsed.lineCount ≠ 0 := by
      rw [hline]
      exact fun h => hempty (decide_eq_true h)
    have htexts : turnTexts env threadId state added = added.map (eventText env) := by
      rw [turnTexts, if_neg hempty]
      rfl
    have hnumbered : NumberedFrom parsed.lastSeq added := hseq ▸ hw.numbered
    have hread := parse_appended hserde hcomplete hparsed hne hw.stored hnumbered
    rw [← htexts] at hread
    refine ⟨_, _, hbytes, completedContents_append hcomplete (completedContents_joinedText _), hread, ?_, ?_⟩
    · rw [hw.lineCount, htexts, ← hline, List.length_map]
    · rw [hw.seq, ← hseq]

end reads

end Prelay.Rollout
