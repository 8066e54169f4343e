import Prelay.ThreadInvariant

namespace Prelay.Rollout

open Json

section slice

variable {env : Env} {identityId threadId : String} {blocks : List Log}

theorem getD_closedLog (blocks : List Log) : (closedLog blocks).getD [] = blocks.flatten := by
  by_cases hnil : blocks = []
  · simp [closedLog, hnil]
  · simp [closedLog, hnil]

theorem threadLog_split {i : ℕ} {block : Log} (hblock : blocks[i]? = some block) (current : Option Log) :
    ∃ rest, threadLog blocks current = some ((closedLog (blocks.take i)).getD [] ++ block ++ rest) := by
  have hsplit : blocks = blocks.take i ++ block :: blocks.drop (i + 1) := by
    obtain ⟨hi, rfl⟩ := List.getElem?_eq_some_iff.mp hblock
    rw [List.cons_getElem_drop_succ, List.take_append_drop]
  have hnil : blocks ≠ [] := by
    intro h
    simp [h] at hblock
  have hflatten : blocks.flatten = (blocks.take i).flatten ++ block ++ (blocks.drop (i + 1)).flatten := by
    conv_lhs => rw [hsplit]
    simp
  rw [getD_closedLog]
  cases current with
  | none => exact ⟨(blocks.drop (i + 1)).flatten, by simp [threadLog, closedLog, hnil, hflatten]⟩
  | some new =>
    exact ⟨(blocks.drop (i + 1)).flatten ++ new, by simp [threadLog, getD_closedLog, hflatten]⟩

theorem parseEventLines_segmentTexts (hserde : env.serde.Lawful) (base : Option Log) {block : Log}
    (hstored : ∀ event ∈ block, Stored event) :
    parseEventLines env.serde (segmentTexts env threadId base block) = .ok (block.map (rereadEvent env)) := by
  have hevents := parseEventLines_eventTexts hserde hstored
  cases base with
  | none =>
    simp only [segmentTexts, Option.isNone_none, ↓reduceIte, List.singleton_append, parseEventLines,
      parseEventLine_headerText hserde, hevents, bind, Except.bind]
    rfl
  | some log => simpa [segmentTexts] using hevents

theorem OpenBlock.ne_nil {turnId : String} {block : Log} (h : OpenBlock env turnId block) : block ≠ [] := by
  obtain ⟨window, turn, before, context, after, rfl, -⟩ := h
  simp

theorem EndedBlock.ne_nil {turnId : String} {block : Log} (h : EndedBlock env turnId block) : block ≠ [] := by
  obtain ⟨lines, last, rfl, -⟩ := h
  simp

theorem eventText_refused (hrefuses : env.serde.Refuses) {event : ConversationEvent} (hnormal : event.payload.Normal)
    (hdeep : recursionLimit ≤ event.payload.depth + 1) : env.serde.fromStr (eventText env event) = none := by
  apply hrefuses
  have hpayload : (eventValue event).normalize.get "payload" = some event.payload := by
    rw [eventValue_get, if_pos rfl, hnormal]
  exact hdeep.trans (Value.depth_get_lt hpayload)

theorem parseEventLines_refused {line : String} {lines : List String} (hline : line ∈ lines)
    (hrefused : env.serde.fromStr line = none) (events : List ConversationEvent) :
    parseEventLines env.serde lines ≠ .ok events := by
  induction lines generalizing events with
  | nil => exact nomatch hline
  | cons first lines ih =>
    intro hevents
    rw [parseEventLines] at hevents
    rcases List.mem_cons.mp hline with rfl | hline
    · simp [parseEventLine, hrefused, bind, Except.bind] at hevents
    · cases hfirst : parseEventLine env.serde first with
      | error e => simp [hfirst, bind, Except.bind] at hevents
      | ok event =>
        cases hlines : parseEventLines env.serde lines with
        | error e => simp [hfirst, hlines, bind, Except.bind] at hevents
        | ok rest => exact ih hline rest hlines

theorem readSlice_selected (hserde : env.serde.Lawful) {base : Option Log} {block rest : Log} {summary : RolloutSummary}
    (hsummary : SummaryOf env threadId (threadRelative identityId threadId) base block summary) (hblock : block ≠ [])
    (path : String) (modified : Option ℕ) :
    readSlice env path ⟨threadBytes env threadId (some (base.getD [] ++ block ++ rest)), modified⟩ summary.startLine
      summary.endLine = sliceOf env (segmentTexts env threadId base block) := by
  have htexts : threadTexts env threadId (some (base.getD [] ++ block ++ rest)) =
      threadTexts env threadId base ++ segmentTexts env threadId base block ++ rest.map (eventText env) := by
    rw [← threadTexts_append]
    simp [threadTexts]
  have hpositive : 0 < (segmentTexts env threadId base block).length := by
    have := List.length_pos_iff.mpr hblock
    simp only [segmentTexts, List.length_append, List.length_map]
    omega
  have hend : summary.endLine = logLines base + (segmentTexts env threadId base block).length := by
    rw [hsummary.endLine, ← length_threadTexts env threadId, threadTexts_append, List.length_append,
      length_threadTexts]
  have hselected : ((threadTexts env threadId (some (base.getD [] ++ block ++ rest))).take summary.endLine).drop
      (summary.startLine - 1) = segmentTexts env threadId base block := by
    rw [htexts, hend, hsummary.startLine, ← length_threadTexts env threadId base, ← List.length_append,
      List.take_left]
    simp
  have hlength : (threadTexts env threadId (some (base.getD [] ++ block ++ rest))).length =
      logLines base + (segmentTexts env threadId base block).length + rest.length := by
    rw [htexts]
    simp [length_threadTexts, Nat.add_assoc]
  have hstart : summary.startLine = logLines base + 1 := hsummary.startLine
  simp only [readSlice, readToString_thread, bind, Except.bind, completedContents_joinedText, Bool.not_true,
    Bool.false_eq_true, ↓reduceIte, textLines_joinedText (threadTexts_singleLine hserde _)]
  have hrange : ¬(decide ((threadTexts env threadId (some (base.getD [] ++ block ++ rest))).length < summary.endLine) ||
      decide ((threadTexts env threadId (some (base.getD [] ++ block ++ rest))).length + 1 < summary.startLine)) =
        true := by
    rw [hlength, Bool.or_eq_true, decide_eq_true_eq, decide_eq_true_eq]
    omega
  rw [if_neg (by omega), if_neg (by omega), if_neg hrange, hselected]

theorem sliceOf_block (hserde : env.serde.Lawful) {base : Option Log} {block : Log} {summary : RolloutSummary}
    (hsummary : SummaryOf env threadId (threadRelative identityId threadId) base block summary)
    (hstored : ∀ event ∈ block, Stored event) :
    sliceOf env (segmentTexts env threadId base block) =
      .ok ⟨block.map (rereadEvent env), summary.eventCount, summary.byteSize, summary.sha256⟩ := by
  simp only [sliceOf, parseEventLines_segmentTexts hserde base hstored, bind, Except.bind, hsummary.eventCount,
    hsummary.byteSize, hsummary.sha256, List.length_map]
  rfl

theorem sliceOf_refused {base : Option Log} {block : Log} {event : ConversationEvent} (hevent : event ∈ block)
    (hrefused : env.serde.fromStr (eventText env event) = none) (slice : RolloutSlice) :
    sliceOf env (segmentTexts env threadId base block) ≠ .ok slice := by
  have hline : eventText env event ∈ segmentTexts env threadId base block :=
    List.mem_append_right _ (List.mem_map_of_mem hevent)
  intro hslice
  cases hevents : parseEventLines env.serde (segmentTexts env threadId base block) with
  | error e => simp [sliceOf, hevents, bind, Except.bind] at hslice
  | ok events => exact parseEventLines_refused hline hrefused events hevents

theorem step_closed (env : Env) (identityId threadId : String) (t : Thread) (op : ThreadOp) :
    t.closed <+: (t.step env identityId threadId op).closed := by
  unfold Thread.step
  split
  · rename_i request hw
    unfold Thread.begun
    cases beginTurn env identityId ⟨threadId, request.windowId, request.generation⟩ request.turn request.turnId
      request.events t.store <;> exact List.prefix_refl _
  · rename_i draft w hw
    unfold Thread.appended
    cases w.appendContent env draft <;> exact List.prefix_refl _
  · rename_i status httpStatus errorCode w hw
    unfold Thread.finished
    cases finishWith env w status httpStatus errorCode t.store
    · exact List.prefix_refl _
    · exact List.prefix_append _ _
  · exact List.prefix_append _ _
  all_goals exact List.prefix_refl _

theorem run_closed (env : Env) (identityId threadId : String) (ops later : List ThreadOp) :
    (Thread.run env identityId threadId ops).closed <+: (Thread.run env identityId threadId (ops ++ later)).closed := by
  induction later using List.reverseRecOn with
  | nil => rw [List.append_nil]
  | append_singleton later op ih =>
    rw [← List.append_assoc, Thread.run, Thread.run, List.foldl_concat]
    exact ih.trans (step_closed env identityId threadId _ op)

end slice

/-- The line ranges follow one another from a first line up to a last one. -/
def Tiles (first : ℕ) : List RolloutSummary → ℕ → Prop
  | [], last => last + 1 = first
  | summary :: rest, last =>
    summary.startLine = first ∧ summary.startLine ≤ summary.endLine ∧ Tiles (summary.endLine + 1) rest last

theorem tiles_blocks (env : Env) (threadId path : String) {summaries : List RolloutSummary} {blocks : List Log}
    (earlier : List Log) (hcount : summaries.length = blocks.length)
    (hsummaries : ∀ i summary block, summaries[i]? = some summary → blocks[i]? = some block → block ≠ [] ∧
      SummaryOf env threadId path (closedLog (earlier ++ blocks.take i)) block summary) :
    Tiles (logLines (closedLog earlier) + 1) summaries (logLines (closedLog (earlier ++ blocks))) := by
  induction summaries generalizing blocks earlier with
  | nil =>
    obtain rfl := List.length_eq_zero_iff.mp hcount.symm
    rw [List.append_nil]
    rfl
  | cons summary summaries ih =>
    obtain ⟨block, blocks, rfl⟩ := List.exists_cons_of_length_eq_add_one hcount.symm
    obtain ⟨hblock, hsummary⟩ := hsummaries 0 summary block rfl rfl
    rw [List.take_zero, List.append_nil] at hsummary
    have hend : summary.endLine = logLines (closedLog (earlier ++ [block])) := by
      rw [hsummary.endLine, closedLog_append]
    have hrest := ih (earlier ++ [block]) (Nat.succ.inj hcount) (by
      intro i summary' block' hsummary' hblock'
      have hnext := hsummaries (i + 1) summary' block' hsummary' hblock'
      rwa [List.take_succ_cons, List.append_cons] at hnext)
    rw [← hend, List.append_assoc, List.singleton_append] at hrest
    refine ⟨hsummary.startLine, ?_, hrest⟩
    have hpositive := List.length_pos_iff.mpr hblock
    have hlines : logLines (closedLog earlier) ≤ ((closedLog earlier).getD []).length + 1 := by
      cases closedLog earlier <;> simp [logLines]
    rw [hsummary.startLine, hsummary.endLine, logLines, List.length_append]
    omega

def readStoreSlice (env : Env) (disk : Disk) (relativePath : String) (startLine endLine : ℕ) :
    Except RolloutError RolloutSlice := do
  let path ← checkedAbsolutePath relativePath
  match disk path with
  | none => .error .notFound
  | some file => readSlice env path file startLine endLine

def fileLines (file : Option File) : ℕ :=
  match file.bind (fun file => Str.fromUtf8 file.bytes) with
  | some contents => (textLines contents).length
  | none => 0

theorem fileLines_threadDisk {env : Env} {threadId path : String} (hserde : env.serde.Lawful) (log : Option Log) :
    fileLines (threadDisk env path (threadTexts env threadId log) path) = logLines log := by
  cases log with
  | none => simp [fileLines, threadDisk, textsFile, threadTexts, logLines]
  | some log =>
    simp only [fileLines, threadDisk, ↓reduceIte, textsFile_thread, threadBytes, ← utf8_joinedText, Option.bind_some,
      Str.fromUtf8_utf8, textLines_joinedText (threadTexts_singleLine hserde _)]
    exact length_threadTexts env threadId (some log)

section run

variable {env : Env} {identityId threadId : String} {keeps : Bytes → Prop} {dedup : Prop}
  {drafts : Set ContentDraft} {t : Thread} {blocks : List Log} {current : Option Log}

theorem Good.closed_summary (h : Good env threadId (threadRelative identityId threadId) keeps dedup drafts t blocks
    current)
    {i : ℕ} {turn : ClosedTurn} {summary : RolloutSummary} (hturn : t.closed[i]? = some turn)
    (hsummary : turn.summary = some summary) :
    ∃ block, blocks[i]? = some block ∧ block ≠ [] ∧
      SummaryOf env threadId (threadRelative identityId threadId) (closedLog (blocks.take i)) block summary := by
  obtain ⟨hi, -⟩ := List.getElem?_eq_some_iff.mp hturn
  have hi' : i < blocks.length := h.count ▸ hi
  have hblock : blocks[i]? = some blocks[i] := List.getElem?_eq_getElem hi'
  have hclosed := h.closed i turn _ hturn hblock
  simp only [ClosedBlock, hsummary] at hclosed
  exact ⟨_, hblock, hclosed.1.ne_nil, hclosed.2⟩

theorem Good.readSlice (h : Good env threadId (threadRelative identityId threadId) keeps dedup drafts t blocks current)
    (hid : isSafePathSegment identityId = true) (hthread : isSafePathSegment threadId = true)
    (hserde : env.serde.Lawful) {i : ℕ} {turn : ClosedTurn} {summary : RolloutSummary}
    (hturn : t.closed[i]? = some turn) (hsummary : turn.summary = some summary) :
    ∃ block, blocks[i]? = some block ∧
      SummaryOf env threadId (threadRelative identityId threadId) (closedLog (blocks.take i)) block summary ∧
      readStoreSlice env t.store.disk summary.relativePath summary.startLine summary.endLine =
        sliceOf env (segmentTexts env threadId (closedLog (blocks.take i)) block) := by
  obtain ⟨block, hblock, hne, hof⟩ := h.closed_summary hturn hsummary
  obtain ⟨rest, hlog⟩ := threadLog_split hblock current
  refine ⟨block, hblock, hof, ?_⟩
  simp only [readStoreSlice, hof.relativePath, checked_threadRelative hid hthread, bind, Except.bind, h.disk, hlog,
    threadDisk, ↓reduceIte, textsFile_thread]
  exact readSlice_selected hserde hof hne _ _

theorem Good.readSlice_shallow
    (h : Good env threadId (threadRelative identityId threadId) keeps dedup drafts t blocks current)
    (hid : isSafePathSegment identityId = true) (hthread : isSafePathSegment threadId = true)
    (hserde : env.serde.Lawful) (hshallow : ∀ draft ∈ drafts, Shallow env draft) {turn : ClosedTurn}
    {summary : RolloutSummary} (hturn : turn ∈ t.closed) (hsummary : turn.summary = some summary) :
    ∃ events, readStoreSlice env t.store.disk summary.relativePath summary.startLine summary.endLine =
      .ok ⟨events, summary.eventCount, summary.byteSize, summary.sha256⟩ := by
  obtain ⟨i, hi⟩ := List.mem_iff_getElem?.mp hturn
  obtain ⟨block, hblock, hof, hslice⟩ := h.readSlice hid hthread hserde hi hsummary
  obtain ⟨rest, hlog⟩ := threadLog_split hblock current
  have hstored : ∀ event ∈ block, Stored event := by
    intro event hevent
    apply h.wellFormed.stored hshallow
    simp [hlog, hevent]
  exact ⟨_, hslice.trans (sliceOf_block hserde hof hstored)⟩

/-- A turn with a line that is nested too deep can be finished, but not be read back. -/
theorem deep_turn_refused (hid : isSafePathSegment identityId = true) (hthread : isSafePathSegment threadId = true)
    (hserde : env.serde.Lawful) (hrefuses : env.serde.Refuses) (ops : List ThreadOp) (hshallow : ShallowOps env ops)
    (hwriter : (Thread.run env identityId threadId ops).writer = none) (request : TurnRequest)
    (hrequest : ∀ draft ∈ request.events, Shallow env draft) {draft : ContentDraft} (hdeep : ¬Shallow env draft)
    (turnEnd : TurnEndEvent) {t : Thread}
    (ht : Thread.run env identityId threadId (ops ++ [ThreadOp.beginTurn request, ThreadOp.appendContent draft,
      ThreadOp.finish turnEnd.status turnEnd.httpStatus turnEnd.errorCode]) = t) :
    ∃ turn ∈ t.closed, ∃ summary, turn.summary = some summary ∧
      ∀ slice, readStoreSlice env t.store.disk summary.relativePath summary.startLine summary.endLine ≠ .ok slice := by
  obtain ⟨blocks, current, h⟩ := run_good_structure hid hthread hserde ops hshallow
  obtain rfl := h.idle hwriter
  obtain ⟨t₁, new, hbegun, h₁⟩ := h.begun hid hthread hserde (fun _ hd => Shallow.readable hd) nofun hrequest
  obtain ⟨w₁, hw₁⟩ := h₁.opened
  obtain ⟨t₂, happended, h₂⟩ := (h₁.mono (Set.subset_univ _)).appended hw₁ nofun (Set.mem_univ draft)
  obtain ⟨w₂, hw₂⟩ := h₂.opened
  obtain ⟨t₃, last, hfinished, h₃⟩ := h₂.finished hw₂ turnEnd
  have hrun : t₃ = t := by
    rw [← ht, Thread.run, List.foldl_append]
    change t₃ = Thread.step env identityId threadId (Thread.step env identityId threadId (Thread.step env identityId
      threadId (Thread.run env identityId threadId ops) (.beginTurn request)) (.appendContent draft))
      (.finish turnEnd.status turnEnd.httpStatus turnEnd.errorCode)
    simp only [Thread.step, hwriter, hbegun, hw₁, happended, hw₂, hfinished, Except.toOption, Option.getD_some]
  obtain ⟨-, store, -, -, -, -, -, hended⟩ := h₂.ended hw₂ turnEnd
  rw [hended, Except.ok.injEq] at hfinished
  have hturn : t₃.closed[blocks.length]? = some ⟨w₂.turnId, some ((endedWriter env w₂ turnEnd).summaryWithStatus env
      turnEnd.status)⟩ := by
    rw [← hfinished, ← h₂.count]
    exact List.getElem?_concat_length ..
  obtain ⟨block, hblock, -, hslice⟩ := h₃.readSlice hid hthread hserde hturn rfl
  rw [List.getElem?_concat_length, Option.some.injEq] at hblock
  subst hrun
  refine ⟨_, List.mem_of_getElem? hturn, _, rfl, ?_⟩
  rw [hslice, ← hblock]
  have hevent : w₁.nextEvent env draft.body.eventType (storedPayload env draft.body.members) ∈
      new ++ [w₁.nextEvent env draft.body.eventType (storedPayload env draft.body.members)] ++ [last] := by simp
  exact sliceOf_refused hevent (eventText_refused hrefuses (storedPayload_normal env _) (Nat.le_of_not_lt hdeep))

/-- When the content of the turns is nested no deeper than the reader allows, every finished turn can be read back at
any later time as its summary says, and when all turns are finished their lines are those of the file. -/
theorem slice_integrity (hid : isSafePathSegment identityId = true) (hthread : isSafePathSegment threadId = true)
    (hserde : env.serde.Lawful) (ops : List ThreadOp) :
    (∀ later, ShallowOps env (ops ++ later) →
      ∀ turn ∈ (Thread.run env identityId threadId ops).closed, ∀ summary, turn.summary = some summary →
      ∃ slice, readStoreSlice env (Thread.run env identityId threadId (ops ++ later)).store.disk summary.relativePath
          summary.startLine summary.endLine = .ok slice ∧
        slice.byteSize = summary.byteSize ∧ slice.sha256 = summary.sha256 ∧ slice.eventCount = summary.eventCount) ∧
    (∀ summaries, ShallowOps env ops → (Thread.run env identityId threadId ops).writer = none →
      (Thread.run env identityId threadId ops).closed.map ClosedTurn.summary = summaries.map some →
      Tiles 1 summaries (fileLines ((Thread.run env identityId threadId ops).store.disk
        (threadRelative identityId threadId)))) := by
  constructor
  · intro later hshallow turn hturn summary hsummary
    obtain ⟨blocks, current, h⟩ := run_good_structure hid hthread hserde (ops ++ later) hshallow
    have hlater := (run_closed env identityId threadId ops later).subset hturn
    obtain ⟨events, hslice⟩ := h.readSlice_shallow hid hthread hserde (fun _ hdraft => hdraft) hlater hsummary
    exact ⟨_, hslice, rfl, rfl, rfl⟩
  · intro summaries hshallow hwriter hsummaries
    obtain ⟨blocks, current, h⟩ := run_good_structure hid hthread hserde ops hshallow
    obtain rfl := h.idle hwriter
    have hcount : summaries.length = blocks.length := by
      rw [← h.count, ← List.length_map ClosedTurn.summary, hsummaries, List.length_map]
    rw [h.disk, fileLines_threadDisk hserde]
    apply tiles_blocks env threadId (threadRelative identityId threadId) [] hcount
    intro i summary block hi hblock
    have hmap : ((Thread.run env identityId threadId ops).closed.map ClosedTurn.summary)[i]? = some (some summary) := by
      rw [hsummaries, List.getElem?_map, hi]
      rfl
    rw [List.getElem?_map, Option.map_eq_some_iff] at hmap
    obtain ⟨turn, hturn, hsummary⟩ := hmap
    obtain ⟨block', hblock', hne, hof⟩ := h.closed_summary hturn hsummary
    obtain rfl := Option.some.inj (hblock.symm.trans hblock')
    exact ⟨hne, hof⟩

def sampleOps : List ThreadOp :=
  [.beginTurn (sampleTurn "turn_1" [userMessage "hello"]), .appendContent (callWith "call_1" (nestedArrays 3)),
    .finish .completed (some 200) none,
    .beginTurn (sampleTurn "turn_2" [userMessage "hello", userMessage "again"]), .finish .completed (some 200) none]

theorem slice_integrity_two_turns :
    ((Thread.run limitedEnv "identity-1" "thread-1" sampleOps).closed.map (fun turn =>
      turn.summary.map (fun summary => (summary.startLine, summary.endLine, summary.eventCount))) =
        [some (1, 7, 6), some (8, 11, 4)]) ∧
    ∀ turn ∈ (Thread.run limitedEnv "identity-1" "thread-1" sampleOps).closed, ∀ summary,
      turn.summary = some summary →
      ∃ slice, readStoreSlice limitedEnv (Thread.run limitedEnv "identity-1" "thread-1"
          (sampleOps ++ [ThreadOp.beginTurn (sampleTurn "turn_3" [])])).store.disk summary.relativePath summary.startLine
          summary.endLine = .ok slice ∧
        slice.byteSize = summary.byteSize ∧ slice.sha256 = summary.sha256 ∧ slice.eventCount = summary.eventCount :=
  ⟨by decide +kernel, (slice_integrity (by decide) (by decide) limitedEnv_lawful sampleOps).1 _
    (by decide +kernel)⟩

/-- A finished turn with a call whose arguments are 126 arrays in one another. -/
def deepOps : List ThreadOp :=
  [.beginTurn (sampleTurn "turn_1" []), .appendContent (callWith "call_1" (nestedArrays 126)),
    .finish .completed (some 200) none]

theorem deep_turn_unreadable :
    ∃ turn ∈ (Thread.run limitedEnv "identity-1" "thread-1" deepOps).closed, ∃ summary, turn.summary = some summary ∧
      ∀ slice, readStoreSlice limitedEnv (Thread.run limitedEnv "identity-1" "thread-1" deepOps).store.disk
        summary.relativePath summary.startLine summary.endLine ≠ .ok slice :=
  deep_turn_refused (by decide) (by decide) limitedEnv_lawful Text.limited_refuses [] nofun rfl (sampleTurn "turn_1" [])
    nofun (by decide +kernel) ⟨.completed, some 200, none⟩ rfl

end run

end Prelay.Rollout
