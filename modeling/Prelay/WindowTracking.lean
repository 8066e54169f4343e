import Prelay.PathIsolation
import Prelay.WindowDedup

namespace Prelay.Rollout

open Json Redaction

def maxSessionIdLength : ℕ := 128

def maxWindowIdLength : ℕ := 256

def isSafeSessionSegment (value : String) : Bool :=
  value ≠ "" && (Str.utf8 value).length ≤ maxSessionIdLength &&
    value.toList.all (fun c => c.isAlphanum || c = '-' || c = '_')

def parseU64 (text : List Char) : Option ℕ :=
  let digits := if text.head? = some '+' then text.tail else text
  if digits ≠ [] && digits.all Char.isDigit then (some (Nat.ofDigitChars 10 digits 0)).filter (· < 2 ^ 64) else none

def extractWindow (header : Option String) : Option (String × ℕ) := do
  let value ← (header.map Str.trim).filter (fun value => value ≠ "" && (Str.utf8 value).length ≤ maxWindowIdLength)
  let (threadId, generation) ← rsplitOnce [':'] value.toList
  if threadId = [] || !isSafeSessionSegment (String.ofList threadId) then none
  else (parseU64 generation).map (fun generation => (value, generation))

def FromHeader (turn : TurnRequest) : Prop :=
  ∃ header, turn.windowId = (extractWindow header).map Prod.fst ∧
    turn.generation = ((extractWindow header).map Prod.snd).getD 0

section header

theorem rsplitOnce_some {separator cs before after : List Char} (h : rsplitOnce separator cs = some (before, after)) :
    cs = before ++ separator ++ after := by
  induction cs generalizing before with
  | nil =>
    rw [rsplitOnce] at h
    split_ifs at h with hnil
    obtain ⟨rfl, rfl⟩ := Prod.mk.inj (Option.some.inj h)
    rw [hnil]
    rfl
  | cons c cs ih =>
    rw [rsplitOnce] at h
    split at h
    · next before' after' hfound =>
      obtain ⟨rfl, rfl⟩ := Prod.mk.inj (Option.some.inj h)
      rw [ih hfound]
      rfl
    · split_ifs at h with hprefix
      obtain ⟨rfl, rfl⟩ := Prod.mk.inj (Option.some.inj h)
      obtain ⟨rest, hrest⟩ := hprefix
      rw [← hrest, List.drop_left]
      rfl

theorem parseU64_no_bracket {text : List Char} {n : ℕ} (h : parseU64 text = some n) : '[' ∉ text := by
  unfold parseU64 at h
  dsimp only at h
  split_ifs at h with hplus hdigits hdigits
  · obtain ⟨-, hall⟩ := Bool.and_eq_true_iff.mp hdigits
    obtain ⟨rest, rfl⟩ := List.head?_eq_some_iff.mp hplus
    intro hmem
    rcases List.mem_cons.mp hmem with heq | hmem
    · exact absurd heq (by decide)
    · exact absurd (List.all_eq_true.mp hall '[' hmem) (by decide)
  · obtain ⟨-, hall⟩ := Bool.and_eq_true_iff.mp hdigits
    intro hmem
    exact absurd (List.all_eq_true.mp hall '[' hmem) (by decide)

theorem extractWindow_no_bracket {header : Option String} {value : String} {generation : ℕ}
    (h : extractWindow header = some (value, generation)) : '[' ∉ value.toList := by
  simp only [extractWindow, Option.bind_eq_bind] at h
  obtain ⟨text, -, h⟩ := Option.bind_eq_some_iff.mp h
  obtain ⟨⟨threadId, number⟩, hsplit, h⟩ := Option.bind_eq_some_iff.mp h
  dsimp only at h
  split_ifs at h with hrefused
  obtain ⟨n, hn, hpair⟩ := Option.map_eq_some_iff.mp h
  obtain ⟨rfl, rfl⟩ := Prod.mk.inj hpair
  rw [Bool.or_eq_true, not_or, Bool.not_eq_true, Bool.not_eq_true, Bool.not_eq_false'] at hrefused
  obtain ⟨-, hall⟩ := Bool.and_eq_true_iff.mp hrefused.2
  rw [String.toList_ofList] at hall
  rw [rsplitOnce_some hsplit]
  intro hmem
  rcases List.mem_append.mp hmem with hmem | hmem
  · rcases List.mem_append.mp hmem with hmem | hmem
    · exact absurd (List.all_eq_true.mp hall '[' hmem) (by decide)
    · exact absurd (List.mem_singleton.mp hmem) (by decide)
  · exact parseU64_no_bracket hn hmem

theorem FromHeader.no_bracket {turn : TurnRequest} (h : FromHeader turn) {windowId : String}
    (hid : turn.windowId = some windowId) : '[' ∉ windowId.toList := by
  obtain ⟨header, hwindow, -⟩ := h
  rw [hid] at hwindow
  obtain ⟨⟨value, generation⟩, hfound, rfl⟩ := Option.map_eq_some_iff.mp hwindow.symm
  exact extractWindow_no_bracket hfound

end header

section marks

def Marks (replace : String → String) : Prop := ∀ text, replace text = text ∨ '[' ∈ (replace text).toList

/-- Every pattern puts `[REDACTED]` in the place of what it finds. -/
structure MarksSecrets (patterns : Patterns) : Prop where
  privateKeyBlock : Marks patterns.privateKeyBlock
  pgpPrivateKeyBlock : Marks patterns.pgpPrivateKeyBlock
  bearerToken : Marks patterns.bearerToken
  basicAuthorization : Marks patterns.basicAuthorization
  cookieHeader : Marks patterns.cookieHeader
  secretAssignment : Marks patterns.secretAssignment
  knownApiKey : Marks patterns.knownApiKey
  jsonWebToken : Marks patterns.jsonWebToken

theorem Marks.comp {f g : String → String} (hg : Marks g) (hf : Marks f) : Marks (g ∘ f) := by
  intro text
  rcases hf text with heq | hmem
  · rw [Function.comp_apply, heq]
    exact hg text
  · rcases hg (f text) with heq | hmem'
    · rw [Function.comp_apply, heq]
      exact .inr hmem
    · exact .inr hmem'

theorem redactRuns_marks (fuel : ℕ) {value : List Char} (h : value.length ≤ fuel) :
    redactRuns fuel value = value ∨ '[' ∈ redactRuns fuel value := by
  induction fuel generalizing value with
  | zero => exact .inl rfl
  | succ fuel ih =>
    have hvalue := List.takeWhile_append_dropWhile (p := (!isCredentialChar ·)) (l := value)
    cases hrest : value.dropWhile (!isCredentialChar ·) with
    | nil =>
      rw [hrest, List.append_nil] at hvalue
      simp only [redactRuns, hrest]
      exact .inl hvalue
    | cons c cs =>
      have hc : isCredentialChar c = true := by
        have hhead := List.head?_dropWhile_not (!isCredentialChar ·) value
        rw [hrest] at hhead
        simpa using hhead
      have hrun := List.takeWhile_append_dropWhile (p := isCredentialChar) (l := c :: cs)
      have hlength : ((c :: cs).dropWhile isCredentialChar).length ≤ fuel := by
        have hle := (List.dropWhile_sublist isCredentialChar (l := cs)).length_le
        have hsum := congrArg List.length hvalue
        rw [List.length_append, hrest, List.length_cons] at hsum
        rw [List.dropWhile_cons_of_pos hc]
        omega
      rw [hrest] at hvalue
      simp only [redactRuns, hrest]
      rcases ih hlength with heq | hmem
      · rw [heq]
        by_cases hlong : ((c :: cs).takeWhile isCredentialChar).length = 43
        · right
          rw [if_pos hlong]
          simp
        · left
          rw [if_neg hlong, List.append_assoc, hrun, hvalue]
      · exact .inr (List.mem_append_right _ hmem)

theorem redactSensitiveText_marks {patterns : Patterns} (h : MarksSecrets patterns) :
    Marks (redactSensitiveText patterns) := by
  have hruns : Marks redactUrlSafeCredentials := by
    intro text
    rcases redactRuns_marks text.toList.length le_rfl with heq | hmem
    · exact .inl (String.toList_inj.mp (by rw [redactUrlSafeCredentials, heq, String.toList_ofList]))
    · exact .inr (by rwa [redactUrlSafeCredentials, String.toList_ofList])
  exact hruns.comp (h.jsonWebToken.comp (h.knownApiKey.comp (h.secretAssignment.comp (h.cookieHeader.comp
    (h.basicAuthorization.comp (h.bearerToken.comp (h.pgpPrivateKeyBlock.comp h.privateKeyBlock)))))))

theorem redacted_accepted {patterns : Patterns} (h : MarksSecrets patterns) {turn turn' : TurnRequest}
    (hturn' : FromHeader turn') (heq : turn.windowId.map (redactSensitiveText patterns) = turn'.windowId) :
    turn'.windowId = turn.windowId := by
  cases hid : turn.windowId with
  | none =>
    rw [hid] at heq
    exact heq.symm
  | some windowId =>
    rw [hid, Option.map_some] at heq
    rcases redactSensitiveText_marks h windowId with hsame | hmarked
    · rw [← heq, hsame]
    · exact absurd hmarked (hturn'.no_bracket heq.symm)

end marks

section lines

variable {env : Env}

theorem windowStateOf_storedPayload (window : WindowEvent) :
    windowStateOf (storedPayload env window.members) =
      some ⟨window.windowId.map (redactSensitiveText env.patterns), window.generation⟩ := by
  have hget := storedPayload_get env window.members
  obtain ⟨members, hmembers⟩ : ∃ members, storedPayload env window.members = .object members := ⟨_, rfl⟩
  rw [hmembers] at hget ⊢
  obtain ⟨windowId, generation⟩ := window
  cases windowId with
  | none =>
    simp [windowStateOf, windowEventOf, hget, WindowEvent.members, optionalMember, List.find?, Value.nat,
      Value.normalize, redactJsonValue, Value.mapStrings, Value.asU64, optionalString]
  | some windowId =>
    simp [windowStateOf, windowEventOf, hget, WindowEvent.members, optionalMember, List.find?, Value.nat,
      Value.normalize, redactJsonValue, Value.mapStrings, Value.asU64, optionalString]

theorem replay_window_append (path : String) (log : Log) {added : Log}
    (h : ∀ event ∈ added, event.eventType ≠ "window") :
    (replay env path (log ++ added)).window = (replay env path log).window := by
  induction added using List.reverseRecOn with
  | nil => rw [List.append_nil]
  | append_singleton added event ih =>
    have hevent : event.eventType ≠ "window" := h event (by simp)
    have hadded := ih (fun e he => h e (List.mem_append_left _ he))
    rw [← List.append_assoc, replay_append, ThreadState.observe, if_neg hevent, ← hadded]
    split_ifs with hcontent
    · rfl
    · rfl

def NeedsWindow (state : ThreadState) (session : SessionContext) : Prop :=
  (state.isEmpty || state.window.isNone || state.windowChanged session) = true

instance (state : ThreadState) (session : SessionContext) : Decidable (NeedsWindow state session) := by
  unfold NeedsWindow
  infer_instance

theorem startTurn_window {state : ThreadState} {path : String} {session : SessionContext} {turn : TurnContext}
    {turnId : String} {w : RolloutWriter}
    (h : (RolloutWriter.fromState state path session turn turnId).startTurn env state session turn = .ok w) :
    w.eventCount = (if NeedsWindow state session then 2 else 1) ∧
      w.windowState = if NeedsWindow state session
        then some ⟨session.windowId.map (redactSensitiveText env.patterns), session.generation⟩ else state.window := by
  have hturn : ∀ (w w' : RolloutWriter) (event : TurnEvent), w.finished = false →
      w.appendControl env (.turn event) = .ok w' →
      w'.eventCount = w.eventCount + 1 ∧ w'.windowState = w.windowState := by
    intro w w' event hopen happend
    have heq : w.appendControl env (.turn event) =
        .ok (w.recordEvent env "turn" (storedPayload env event.members) false) := by
      simp [RolloutWriter.appendControl, RolloutWriter.writeEvent, hopen, bind, Except.bind, ControlEventBody.eventType,
        ControlEventBody.members]
    obtain rfl := Except.ok.inj (heq.symm.trans happend)
    rw [RolloutWriter.recordEvent_eq]
    exact ⟨rfl, rfl⟩
  unfold RolloutWriter.startTurn at h
  have hstart : ∀ header : Bool, (if header then (RolloutWriter.fromState state path session turn turnId).writeMeta env
      else RolloutWriter.fromState state path session turn turnId).finished = false ∧
      (if header then (RolloutWriter.fromState state path session turn turnId).writeMeta env
        else RolloutWriter.fromState state path session turn turnId).eventCount = 0 ∧
      (if header then (RolloutWriter.fromState state path session turn turnId).writeMeta env
        else RolloutWriter.fromState state path session turn turnId).windowState = state.window := by
    intro header
    cases header with
    | true => exact ⟨rfl, rfl, rfl⟩
    | false => exact ⟨rfl, rfl, rfl⟩
  obtain ⟨hopen, hcount, hwindow⟩ := hstart state.isEmpty
  generalize (if state.isEmpty then (RolloutWriter.fromState state path session turn turnId).writeMeta env
    else RolloutWriter.fromState state path session turn turnId) = start at h hopen hcount hwindow
  by_cases hneeds : NeedsWindow state session
  · rw [if_pos hneeds, if_pos hneeds]
    rw [show (state.isEmpty || state.window.isNone || state.windowChanged session) = true from hneeds, if_pos rfl,
      appendControl_window hopen] at h
    simp only [bind, Except.bind] at h
    obtain ⟨hcount', hwindow'⟩ := hturn _ _ _ (by rw [RolloutWriter.recordEvent_eq]; exact hopen) h
    rw [hcount', hwindow', RolloutWriter.recordEvent_eq]
    exact ⟨congrArg (· + 2) hcount, windowStateOf_storedPayload _⟩
  · rw [if_neg hneeds, if_neg hneeds]
    rw [if_neg (show ¬(state.isEmpty || state.window.isNone || state.windowChanged session) = true from hneeds)] at h
    simp only [bind, Except.bind] at h
    obtain ⟨hcount', hwindow'⟩ := hturn _ _ _ hopen h
    rw [hcount', hwindow', hcount]
    exact ⟨rfl, hwindow⟩

theorem referDrafts_stored {w : RolloutWriter} (hopen : w.finished = false) {drafts : List ContentDraft}
    (occurrences : Std.ExtTreeMap Bytes ℕ)
    (hstored : ∀ identity, occurrences.getD identity 0 + draftCount env drafts identity ≤
      (w.eventRefs.getD identity []).length) :
    ∃ refs itemRefs, w.referDrafts env occurrences drafts = .ok (refs, { w with itemRefs := itemRefs }) := by
  induction drafts generalizing w occurrences with
  | nil => exact ⟨[], w.itemRefs, rfl⟩
  | cons draft drafts ih =>
    have hlt : occurrences.getD (draftIdentity env draft) 0 <
        (w.eventRefs.getD (draftIdentity env draft) []).length := by
      have hle := hstored (draftIdentity env draft)
      rw [draftCount, List.map_cons, List.count_cons_self] at hle
      omega
    obtain ⟨seq, hseq⟩ : ∃ seq, w.existingRef (draftKey draft.body.eventType draft) (draftIdentity env draft)
        (occurrences.getD (draftIdentity env draft) 0) = some seq := by
      rw [RolloutWriter.existingRef, List.getElem?_eq_getElem hlt]
      cases (draftKey draft.body.eventType draft).bind (fun key => w.itemRefs[key]?) with
      | none => exact ⟨_, rfl⟩
      | some seq => exact ⟨seq, rfl⟩
    obtain ⟨refs, itemRefs, hrest⟩ := ih (w := w.keepItem (draftKey draft.body.eventType draft) seq)
      (by rw [keepItem_eq]; exact hopen)
      (occurrences.insert (draftIdentity env draft) (occurrences.getD (draftIdentity env draft) 0 + 1)) (by
        intro identity
        have hle := hstored identity
        rw [draftCount, List.map_cons, List.count_cons] at hle
        rw [keepItem_eq, Std.ExtTreeMap.getD_insert]
        simp only [Std.LawfulEqCmp.compare_eq_iff_eq]
        split_ifs with heq
        · subst heq
          rw [beq_self_eq_true, if_pos rfl] at hle
          rw [draftCount]
          omega
        · rw [draftCount]
          omega)
    refine ⟨seq :: refs, itemRefs, ?_⟩
    rw [RolloutWriter.referDrafts, referDraft_eq hopen occurrences draft rfl rfl]
    rw [draftIdentity] at hseq hrest
    simp only [hseq, bind, Except.bind, hrest]
    rw [keepItem_eq]

theorem OpenBlock.tail {turnId : String} {block : Log} (h : OpenBlock env turnId block) :
    ∀ event ∈ block.tail, event.eventType ≠ "window" := by
  obtain ⟨window, turn, before, context, after, rfl, hwindow, hturn, -, hbefore, hcontext, hafter⟩ := h
  have hcontent : ∀ event : ConversationEvent, isContentType event.eventType = true → event.eventType ≠ "window" := by
    intro event hevent htype
    rw [htype] at hevent
    exact absurd hevent (by decide)
  have hrest : ∀ event ∈ before ++ context :: after, event.eventType ≠ "window" := by
    intro event hevent
    rcases List.mem_append.mp hevent with hevent | hevent
    · exact hcontent event (hbefore event hevent)
    · rcases List.mem_cons.mp hevent with rfl | hevent
      · rw [hcontext]
        decide
      · exact hcontent event (hafter event hevent)
  cases window with
  | nil => exact hrest
  | cons first rest =>
    obtain rfl : rest = [] := by
      cases rest with
      | nil => rfl
      | cons other rest => simp at hwindow
    intro event hevent
    rcases List.mem_cons.mp hevent with rfl | hevent
    · rw [hturn]
      decide
    · exact hrest event hevent

theorem ne_window_of_tail {block : Log} {last : ConversationEvent} (hblock : block ≠ [])
    (h : ∀ event ∈ (block ++ [last]).tail, event.eventType ≠ "window") : last.eventType ≠ "window" := by
  cases block with
  | nil => exact absurd rfl hblock
  | cons first rest => exact h last (by simp)

end lines

section step

variable {env : Env} {identityId threadId : String} {t : Thread} {blocks : List Log} {current : Option Log}

theorem Good.open_tail {new : Log}
    (h : Good env threadId (threadRelative identityId threadId) (fun _ => True) False (readBack env) t blocks (some new)) :
    ∀ event ∈ new.tail, event.eventType ≠ "window" := by
  cases hw : t.writer with
  | none => exact absurd h.writer (by simp [hw])
  | some w => exact (h.base hw).1.tail

theorem Good.closed_tail {block : Log}
    (h : Good env threadId (threadRelative identityId threadId) (fun _ => True) False (readBack env) t
      (blocks ++ [block]) none) :
    ∀ event ∈ block.tail, event.eventType ≠ "window" := by
  have hlt : blocks.length < t.closed.length := by
    rw [h.count]
    simp
  have hclosed := h.closed blocks.length _ block (List.getElem?_eq_getElem hlt) (by simp)
  unfold ClosedBlock at hclosed
  split at hclosed
  · exact hclosed.tail
  · obtain ⟨⟨lines, last, rfl, hopen, hlast⟩, -⟩ := hclosed
    intro event hevent
    rw [List.tail_append_of_ne_nil hopen.ne_nil] at hevent
    rcases List.mem_append.mp hevent with hevent | hevent
    · exact hopen.tail event hevent
    · rw [List.mem_singleton.mp hevent, hlast]
      decide

def begins (t : Thread) (op : ThreadOp) : List TurnRequest :=
  match op, t.writer with
  | .beginTurn request, none => [request]
  | _, _ => []

def runTurns (env : Env) (identityId threadId : String) : Thread → List ThreadOp → List TurnRequest
  | _, [] => []
  | t, op :: ops => begins t op ++ runTurns env identityId threadId (t.step env identityId threadId op) ops

theorem begins_cons {op : ThreadOp} {request : TurnRequest} {rest : List TurnRequest}
    (h : begins t op = request :: rest) : op = .beginTurn request ∧ t.writer = none ∧ rest = [] := by
  unfold begins at h
  split at h
  · next hw =>
    obtain ⟨rfl, rfl⟩ := List.cons.inj h
    exact ⟨rfl, hw, rfl⟩
  · exact nomatch h

theorem runTurns_concat (t : Thread) (ops : List ThreadOp) (op : ThreadOp) :
    runTurns env identityId threadId t (ops ++ [op]) = runTurns env identityId threadId t ops ++
      begins (ops.foldl (Thread.step env identityId threadId) t) op := by
  induction ops generalizing t with
  | nil => simp [runTurns]
  | cons first ops ih =>
    rw [List.cons_append, runTurns, ih, runTurns, List.foldl_cons, List.append_assoc]

theorem Good.step_quiet (h : Good env threadId (threadRelative identityId threadId) (fun _ => True) False
    (readBack env) t blocks current)
    {op : ThreadOp} (hdrafts : ∀ draft ∈ op.drafts, ReadsBack env draft) (hop : begins t op = []) :
    ∃ blocks' current', Good env threadId (threadRelative identityId threadId) (fun _ => True) False (readBack env)
        (t.step env identityId threadId op) blocks' current' ∧
      (threadLog blocks' current' = threadLog blocks current ∨
        ∃ log event, threadLog blocks current = some log ∧ threadLog blocks' current' = some (log ++ [event]) ∧
          event.eventType ≠ "window") := by
  cases op with
  | beginTurn request =>
    cases hw : t.writer with
    | none => simp [begins, hw] at hop
    | some w => exact ⟨blocks, current, by simpa [Thread.step, hw] using h, .inl rfl⟩
  | appendContent draft =>
    cases hw : t.writer with
    | none => exact ⟨blocks, current, by simpa [Thread.step, hw] using h, .inl rfl⟩
    | some w =>
      obtain ⟨new, rfl⟩ := h.writing hw
      obtain ⟨t', happended, hgood⟩ := h.appended hw (by simp) (hdrafts draft (List.mem_singleton.mpr rfl))
      generalize w.nextEvent env draft.body.eventType (storedPayload env draft.body.members) = event at hgood
      refine ⟨blocks, some (new ++ [event]), ?_, .inr ⟨_, event, rfl, ?_, ?_⟩⟩
      · simp only [Thread.step, hw, happended]
        exact hgood
      · exact congrArg some (List.append_assoc _ new [event]).symm
      · exact ne_window_of_tail (h.base hw).1.ne_nil hgood.open_tail
  | finish status httpStatus errorCode =>
    cases hw : t.writer with
    | none => exact ⟨blocks, current, by simpa [Thread.step, hw] using h, .inl rfl⟩
    | some w =>
      obtain ⟨new, rfl⟩ := h.writing hw
      obtain ⟨t', last, hfinished, hgood⟩ := h.finished hw ⟨status, httpStatus, errorCode⟩
      refine ⟨blocks ++ [new ++ [last]], none, ?_, .inr ⟨_, last, rfl, ?_, ?_⟩⟩
      · simp only [Thread.step, hw, hfinished]
        exact hgood
      · refine (closedLog_append blocks (new ++ [last])).trans ?_
        exact congrArg some (List.append_assoc _ new [last]).symm
      · exact ne_window_of_tail (h.base hw).1.ne_nil hgood.closed_tail
  | drop =>
    cases hw : t.writer with
    | none => exact ⟨blocks, current, by simpa [Thread.step, hw] using h, .inl rfl⟩
    | some w =>
      obtain ⟨new, rfl⟩ := h.writing hw
      obtain ⟨hblock, hwrites⟩ := h.base hw
      have hlog : threadLog blocks (some new) = closedLog (blocks ++ [new]) := (closedLog_append blocks new).symm
      refine ⟨blocks ++ [new], none, ?_, .inl hlog.symm⟩
      simp only [Thread.step, hw]
      exact h.close hblock (hlog ▸ h.wellFormed) (hlog ▸ h.disk) (hlog ▸ h.remembers)
  | forgetCache =>
    exact ⟨blocks, current, ⟨h.count, h.closed, h.writer, h.disk, h.wellFormed, by rintro _ ⟨⟩, h.remembers.index⟩,
      .inl rfl⟩
  | loseIndex =>
    exact ⟨blocks, current, ⟨h.count, h.closed, h.writer, h.disk, h.wellFormed, h.remembers.cache, by rintro _ ⟨⟩⟩,
      .inl rfl⟩

theorem Good.begun_window (h : Good env threadId (threadRelative identityId threadId) (fun _ => True) False
    (readBack env) t blocks none)
    (hid : isSafePathSegment identityId = true) (hthread : isSafePathSegment threadId = true)
    (hserde : env.serde.Lawful) (request : TurnRequest) (hback : ∀ draft ∈ request.events, ReadsBack env draft) :
    ∃ state store t' w new, resolveThreadSource env t.store identityId threadId = .ok (state, store) ∧
      Describes (fun _ => True) False env (threadRelative identityId threadId) state (threadLog blocks none) ∧
      t.begun env identityId threadId request = .ok t' ∧ t'.writer = some w ∧
      threadEvents env identityId threadId t' = threadEvents env identityId threadId t ++ new ∧
      Good env threadId (threadRelative identityId threadId) (fun _ => True) False (readBack env) t' blocks (some new) ∧
      ((∃ event ∈ new, event.eventType = "window") ↔
        NeedsWindow state ⟨threadId, request.windowId, request.generation⟩) ∧
      (replay env (threadRelative identityId threadId) ((threadLog blocks none).getD [] ++ new)).window =
        (if NeedsWindow state ⟨threadId, request.windowId, request.generation⟩
          then some ⟨request.windowId.map (redactSensitiveText env.patterns), request.generation⟩ else state.window) ∧
      (¬NeedsWindow state ⟨threadId, request.windowId, request.generation⟩ →
        (∀ identity, draftCount env request.events identity ≤
          storedCount env (threadEvents env identityId threadId t) identity) →
        ∀ event ∈ new, isContentEvent event.eventType = false) := by
  obtain ⟨state, store, hresolve, hstate, hlen, hbegin⟩ := h.begun_of_open hid hthread hserde
    (fun _ hdraft => hdraft) request
  obtain ⟨window, first, w₁, hstart, hw₁, hid₁, -, hwindow, hfirst, hpayload⟩ :=
    Writes.startTurn (threadRelative identityId threadId) request.turn request.turnId hstate hlen h.wellFormed
      (rfl : (⟨threadId, request.windowId, request.generation⟩ : SessionContext).threadId = threadId)
  obtain ⟨refs, more, w₂, hrefer, hw₂, hid₂, hdrafted⟩ :=
    hw₁.referDrafts (by simp) hback ∅
  have hmore := contentType_of_drafted hdrafted
  obtain ⟨happend, hw₃⟩ := hw₂.appendControl (.context refs) rfl
  obtain ⟨t', hbegun, hwriter, hevents, hgood⟩ := hbegin _ _ (openTurn_ok hstart hrefer happend) hw₃
  obtain ⟨context, hcontextEq, hcontext⟩ : ∃ context, context = w₂.nextEvent env
      (ControlEventBody.context refs).eventType (storedPayload env (ControlEventBody.context refs).members) ∧
      context.eventType = "context" := ⟨_, rfl, rfl⟩
  rw [← hcontextEq] at hevents hgood
  have hblock : OpenBlock env request.turnId (window ++ [first] ++ more ++ [context]) :=
    .of_lines hwindow hfirst hpayload hmore hcontext
  obtain ⟨hcount, hstateWindow⟩ := startTurn_window hstart
  have hlength := hw₁.segment.eventCount
  rw [hcount, List.length_append, List.length_singleton] at hlength
  have hopened : window ≠ [] ↔ NeedsWindow state ⟨threadId, request.windowId, request.generation⟩ := by
    rw [← List.length_pos_iff]
    split_ifs at hlength with hneeds
    · exact iff_of_true (by omega) hneeds
    · exact iff_of_false (by omega) hneeds
  refine ⟨state, store, t', _, _, hresolve, hstate, hbegun, hwriter, hevents, hgood ?_, ?_, ?_, ?_⟩
  · rw [RolloutWriter.recordEvent_eq]
    exact (hid₂.trans hid₁) ▸ hblock
  · exact (window_line_iff hwindow hfirst hmore hcontext).trans hopened
  · have hafter : ∀ event ∈ more ++ [context], event.eventType ≠ "window" := by
      intro event hevent htype
      rcases List.mem_append.mp hevent with hevent | hevent
      · have hcontent := hmore event hevent
        rw [htype] at hcontent
        exact absurd hcontent (by decide)
      · rw [List.mem_singleton.mp hevent, hcontext] at htype
        exact absurd htype (by decide)
    have hlast := @replay_window_append env (threadRelative identityId threadId)
      ((threadLog blocks none).getD [] ++ (window ++ [first])) _ hafter
    rw [show (threadLog blocks none).getD [] ++ (window ++ [first] ++ more ++ [context]) =
      (threadLog blocks none).getD [] ++ (window ++ [first]) ++ (more ++ [context]) by simp, hlast, ← hstateWindow]
    exact hw₁.state.window.symm
  · intro hneeds hstored event hevent
    have hnil : window = [] := not_not.mp (fun hne => hneeds (hopened.mp hne))
    rw [threadEvents_log hthread hserde h.disk h.wellFormed (fun _ hdraft => hdraft)] at hstored
    obtain ⟨refs', itemRefs, hfound⟩ := referDrafts_stored hw₁.segment.isOpen ∅ (by
      intro identity
      rw [windowRefs_threadState hw₁.state trivial, length_windowRefs, storedCount_start _ hwindow hfirst, if_pos hnil,
        Std.ExtTreeMap.getD_empty, Nat.zero_add]
      exact hstored identity)
    obtain ⟨-, rfl⟩ := Prod.mk.inj (Except.ok.inj (hrefer.symm.trans hfound))
    have hmoreLength := hw₂.segment.eventCount.symm.trans hw₁.segment.eventCount
    rw [List.length_append] at hmoreLength
    obtain rfl : more = [] := List.eq_nil_of_length_eq_zero (by omega)
    subst hnil
    rcases List.mem_cons.mp hevent with rfl | hevent
    · rw [hfirst]
      rfl
    · rw [List.mem_singleton.mp hevent, hcontext]
      rfl

structure WindowKept (env : Env) (path : String) (turns : List TurnRequest) (log : Option Log) : Prop where
  first : turns = [] → log = none
  window : ∀ turn, turns.getLast? = some turn → ∃ events, log = some events ∧ (replay env path events).window =
    some ⟨turn.windowId.map (redactSensitiveText env.patterns), turn.generation⟩

theorem needsWindow_iff (threadId : String) {path : String} {turns : List TurnRequest} {log : Option Log}
    {state : ThreadState}
    (h : WindowKept env path turns log) (hstate : Describes (fun _ => True) False env path state log)
    (request : TurnRequest) :
    NeedsWindow state ⟨threadId, request.windowId, request.generation⟩ ↔
      ∀ turn, turns.getLast? = some turn → (turn.windowId.map (redactSensitiveText env.patterns), turn.generation) ≠
        (request.windowId, request.generation) := by
  have hline := hstate.lineCount
  cases hlast : turns.getLast? with
  | none =>
    rw [h.first (List.getLast?_eq_none_iff.mp hlast)] at hline
    refine iff_of_true ?_ nofun
    simp [NeedsWindow, ThreadState.isEmpty, hline, logLines]
  | some turn =>
    obtain ⟨events, rfl, hwindow⟩ := h.window turn hlast
    have hstateWindow := hstate.window.trans hwindow
    have hempty : state.isEmpty = false := by simp [ThreadState.isEmpty, hline, logLines]
    simp only [NeedsWindow, hempty, hstateWindow, ThreadState.windowChanged, Option.isNone_some, Bool.or_self,
      Bool.false_or, Bool.or_eq_true, decide_eq_true_eq, Option.some.injEq, forall_eq', ne_eq, Prod.mk.injEq,
      not_and_or]
    exact or_comm

theorem WindowKept.step {path : String} {turns : List TurnRequest} {log log' : Option Log}
    (h : WindowKept env path turns log)
    (hlog : log' = log ∨ ∃ events event, log = some events ∧ log' = some (events ++ [event]) ∧
      event.eventType ≠ "window") : WindowKept env path turns log' := by
  rcases hlog with rfl | ⟨events, event, rfl, rfl, hevent⟩
  · exact h
  · refine ⟨fun hnil => (nomatch h.first hnil), fun turn hturn => ?_⟩
    obtain ⟨events', heq, hwindow⟩ := h.window turn hturn
    obtain rfl := Option.some.inj heq
    refine ⟨_, rfl, ?_⟩
    rw [replay_window_append path events (List.forall_mem_singleton.mpr hevent)]
    exact hwindow

theorem run_tracked (hid : isSafePathSegment identityId = true) (hthread : isSafePathSegment threadId = true)
    (hserde : env.serde.Lawful) (hmarks : MarksSecrets env.patterns) (ops : List ThreadOp)
    (haccepted : ∀ turn ∈ runTurns env identityId threadId {} ops, FromHeader turn) (hreads : ReadsBackOps env ops) :
    ∃ blocks current, Good env threadId (threadRelative identityId threadId) (fun _ => True) False (readBack env)
        (Thread.run env identityId threadId ops) blocks current ∧
      WindowKept env (threadRelative identityId threadId) (runTurns env identityId threadId {} ops)
        (threadLog blocks current) := by
  induction ops using List.reverseRecOn with
  | nil => exact ⟨[], none, Good.initial, fun _ => rfl, nofun⟩
  | append_singleton ops op ih =>
    rw [runTurns_concat] at haccepted ⊢
    rw [Thread.run, List.foldl_concat]
    obtain ⟨blocks, current, h, htracked⟩ := ih (fun turn hturn => haccepted turn (List.mem_append_left _ hturn))
      (fun o ho => hreads o (List.mem_append_left _ ho))
    have hdrafts := hreads op (by simp)
    rw [Thread.run] at h
    generalize ops.foldl (Thread.step env identityId threadId) {} = t at h haccepted ⊢
    cases hop : begins t op with
    | nil =>
      obtain ⟨blocks', current', hstep, hlog⟩ := h.step_quiet hdrafts hop
      rw [List.append_nil]
      exact ⟨blocks', current', hstep, htracked.step hlog⟩
    | cons request rest =>
      obtain ⟨rfl, hw, rfl⟩ := begins_cons hop
      obtain rfl := h.idle hw
      obtain ⟨state, store, t', w, new, -, hstate, hbegun, -, -, hgood, -, hwindow, -⟩ :=
        h.begun_window hid hthread hserde request hdrafts
      refine ⟨blocks, some new, ?_, fun hnil => by simp at hnil, fun turn hturn => ⟨_, rfl, ?_⟩⟩
      · simp only [Thread.step, hw, hbegun]
        exact hgood
      · obtain rfl : request = turn := by simpa using hturn
        refine hwindow.trans ?_
        split_ifs with hneeds
        · rfl
        · rw [needsWindow_iff threadId htracked hstate] at hneeds
          push Not at hneeds
          obtain ⟨turn, hlast, hsame⟩ := hneeds
          obtain ⟨hid', hgeneration⟩ := Prod.mk.inj hsame
          have hrequest : FromHeader request := haccepted request (by simp [hop])
          obtain ⟨events, hlog, hstored⟩ := htracked.window turn hlast
          have hstateWindow := hstate.window
          rw [hlog] at hstateWindow
          rw [hstateWindow, Option.getD_some, hstored, redacted_accepted hmarks hrequest hid', hgeneration]

end step

/-- The begin of a turn on a thread whose turn before it is known. -/
structure TracksWindow (env : Env) (before added : Log) (state : ThreadState) (previous : Option TurnRequest)
    (request : TurnRequest) : Prop where
  opens : (∃ event ∈ added, event.eventType = "window") ↔ ∀ turn, previous = some turn →
    (turn.windowId, turn.generation) ≠ (request.windowId, request.generation)
  known : ∀ identity, state.eventRefs.getD identity [] = windowRefs env before identity
  keeps : (∀ event ∈ added, event.eventType ≠ "window") → ∀ identity,
    windowRefs env before identity <+: windowRefs env (before ++ added) identity
  stored : (∀ event ∈ added, event.eventType ≠ "window") → ∀ kept, List.Sublist kept (windowContent before) →
    (request.events.map (draftIdentity env)).Perm (kept.map (identityOf env)) →
    ∀ event ∈ added, isContentEvent event.eventType = false

section run

variable {env : Env} {identityId threadId : String}

theorem windowRefs_prefix (before : Log) {added : Log} (h : ∀ event ∈ added, event.eventType ≠ "window")
    (identity : Bytes) : windowRefs env before identity <+: windowRefs env (before ++ added) identity := by
  rw [windowRefs, windowRefs, windowContent, windowContent, windowEvents_append before h, List.filter_append,
    List.filter_append, List.map_append]
  exact List.prefix_append _ _

theorem run_tracksWindow (hid : isSafePathSegment identityId = true) (hthread : isSafePathSegment threadId = true)
    (hserde : env.serde.Lawful) (hmarks : MarksSecrets env.patterns) (ops : List ThreadOp)
    (haccepted : ∀ turn ∈ runTurns env identityId threadId {} ops, FromHeader turn)
    (hw : (Thread.run env identityId threadId ops).writer = none) {request : TurnRequest}
    (hrequest : FromHeader request) (hreads : ReadsBackOps env (ops ++ [ThreadOp.beginTurn request])) :
    ∃ state store t added, resolveThreadSource env (Thread.run env identityId threadId ops).store identityId threadId =
        .ok (state, store) ∧
      (Thread.run env identityId threadId ops).begun env identityId threadId request = .ok t ∧
      threadEvents env identityId threadId t =
        threadEvents env identityId threadId (Thread.run env identityId threadId ops) ++ added ∧
      (TracksWindow env (threadEvents env identityId threadId (Thread.run env identityId threadId ops)) added state
          (runTurns env identityId threadId {} ops).getLast? request ↔
        ∀ turn, (runTurns env identityId threadId {} ops).getLast? = some turn →
          (turn.windowId, turn.generation) = (request.windowId, request.generation) →
          turn.windowId.map (redactSensitiveText env.patterns) = turn.windowId) := by
  have hread := hreads.readsBack
  have hback : ∀ draft ∈ request.events, ReadsBack env draft := fun draft hdraft => hread draft (.inr hdraft)
  obtain ⟨blocks, current, h, htracked⟩ := run_tracked hid hthread hserde hmarks ops haccepted
    (fun op hop draft hdraft => hread draft (.inl ⟨op, hop, hdraft⟩))
  obtain rfl := h.idle hw
  obtain ⟨state, store, t, w, added, hresolve, hstate, hbegun, -, hevents, -, hopened, -, hfound⟩ :=
    h.begun_window hid hthread hserde request hback
  have hneeds := needsWindow_iff threadId htracked hstate request
  refine ⟨state, store, t, added, hresolve, hbegun, hevents, ?_⟩
  constructor
  · intro htracks turn hlast hsame
    have hclosed : ¬∃ event ∈ added, event.eventType = "window" := fun hopen =>
      htracks.opens.mp hopen turn hlast hsame
    rw [hopened, hneeds] at hclosed
    push Not at hclosed
    obtain ⟨turn', hlast', hredacted⟩ := hclosed
    obtain rfl := Option.some.inj (hlast.symm.trans hlast')
    exact (Prod.mk.inj (hredacted.trans hsame.symm)).1
  · intro hunchanged
    have hopens : NeedsWindow state ⟨threadId, request.windowId, request.generation⟩ ↔
        ∀ turn, (runTurns env identityId threadId {} ops).getLast? = some turn →
          (turn.windowId, turn.generation) ≠ (request.windowId, request.generation) := by
      rw [hneeds]
      refine forall₂_congr fun turn hlast => not_congr ⟨fun hredacted => ?_, fun hsame => ?_⟩
      · obtain ⟨hredacted, hgeneration⟩ := Prod.mk.inj hredacted
        rw [redacted_accepted hmarks hrequest hredacted, hgeneration]
      · rw [hunchanged turn hlast hsame]
        exact hsame
    refine ⟨hopened.trans hopens, ?_, fun hnone => windowRefs_prefix _ hnone, ?_⟩
    · intro identity
      rw [threadEvents_log hthread hserde h.disk h.wellFormed (fun _ hdraft => hdraft),
        ← replay_windowRefs (threadRelative identityId threadId), Std.ExtTreeMap.getD_eq_getD_getElem?,
        Std.ExtTreeMap.getD_eq_getD_getElem?, hstate.eventRefs identity (.inr trivial)]
    · intro hnone kept hkept hperm
      apply hfound
      · rw [← hopened]
        rintro ⟨event, hevent, htype⟩
        exact hnone event hevent htype
      · intro identity
        rw [draftCount, hperm.count_eq]
        exact (hkept.map _).count_le _

end run

/-- In every run of turns whose window ids come from headers and whose content is read back as it is, a begin tracks
the window of the turn before it unless the window stays the same and has an id that the redaction changes. -/
theorem window_tracked_iff {env : Env} {identityId threadId : String} (hid : isSafePathSegment identityId = true)
    (hthread : isSafePathSegment threadId = true) (hserde : env.serde.Lawful) (hmarks : MarksSecrets env.patterns)
    (ops : List ThreadOp) (haccepted : ∀ turn ∈ runTurns env identityId threadId {} ops, FromHeader turn)
    (hw : (Thread.run env identityId threadId ops).writer = none) {request : TurnRequest}
    (hrequest : FromHeader request) (hreads : ReadsBackOps env (ops ++ [ThreadOp.beginTurn request])) :
    ∃ state store t added, resolveThreadSource env (Thread.run env identityId threadId ops).store identityId threadId =
        .ok (state, store) ∧
      (Thread.run env identityId threadId ops).begun env identityId threadId request = .ok t ∧
      threadEvents env identityId threadId t =
        threadEvents env identityId threadId (Thread.run env identityId threadId ops) ++ added ∧
      (TracksWindow env (threadEvents env identityId threadId (Thread.run env identityId threadId ops)) added state
          (runTurns env identityId threadId {} ops).getLast? request ↔
        ∀ turn, (runTurns env identityId threadId {} ops).getLast? = some turn →
          (turn.windowId, turn.generation) = (request.windowId, request.generation) →
          turn.windowId.map (redactSensitiveText env.patterns) = turn.windowId) :=
  run_tracksWindow hid hthread hserde hmarks ops haccepted hw hrequest hreads

def windowTurn (turnId header : String) : TurnRequest :=
  { sampleTurn turnId [userMessage "hello"] with
    windowId := (extractWindow (some header)).map Prod.fst
    generation := ((extractWindow (some header)).map Prod.snd).getD 0 }

theorem windowTurn_fromHeader (turnId header : String) : FromHeader (windowTurn turnId header) := by
  refine ⟨some header, ?_, ?_⟩
  · dsimp only [windowTurn]
  · dsimp only [windowTurn]

theorem limitedEnv_marks : MarksSecrets limitedEnv.patterns := by
  constructor <;> exact fun _ => .inl rfl

theorem windowTurn_accepted (header : String) : ∀ turn ∈ runTurns limitedEnv "identity-1" "thread-1" {}
    [.beginTurn (windowTurn "turn_1" header), .drop], FromHeader turn := by
  intro turn hturn
  rw [List.mem_singleton.mp hturn]
  exact windowTurn_fromHeader _ _

theorem window_tracked_thread :
    ∃ state store t added, resolveThreadSource limitedEnv (Thread.run limitedEnv "identity-1" "thread-1"
        [.beginTurn (windowTurn "turn_1" "thread-1:1"), .drop]).store "identity-1" "thread-1" = .ok (state, store) ∧
      (Thread.run limitedEnv "identity-1" "thread-1" [.beginTurn (windowTurn "turn_1" "thread-1:1"), .drop]).begun
        limitedEnv "identity-1" "thread-1" (windowTurn "turn_2" "thread-1:1") = .ok t ∧
      threadEvents limitedEnv "identity-1" "thread-1" t = threadEvents limitedEnv "identity-1" "thread-1"
        (Thread.run limitedEnv "identity-1" "thread-1" [.beginTurn (windowTurn "turn_1" "thread-1:1"), .drop]) ++ added ∧
      (TracksWindow limitedEnv (threadEvents limitedEnv "identity-1" "thread-1" (Thread.run limitedEnv "identity-1"
          "thread-1" [.beginTurn (windowTurn "turn_1" "thread-1:1"), .drop])) added state
          (runTurns limitedEnv "identity-1" "thread-1" {}
            [.beginTurn (windowTurn "turn_1" "thread-1:1"), .drop]).getLast? (windowTurn "turn_2" "thread-1:1") ↔
        ∀ turn, (runTurns limitedEnv "identity-1" "thread-1" {}
            [.beginTurn (windowTurn "turn_1" "thread-1:1"), .drop]).getLast? = some turn →
          (turn.windowId, turn.generation) =
            ((windowTurn "turn_2" "thread-1:1").windowId, (windowTurn "turn_2" "thread-1:1").generation) →
          turn.windowId.map (redactSensitiveText limitedEnv.patterns) = turn.windowId) :=
  window_tracked_iff (by decide) (by decide) limitedEnv_lawful limitedEnv_marks _ (windowTurn_accepted "thread-1:1")
    (run_drop_writer limitedEnv "identity-1" "thread-1" [.beginTurn (windowTurn "turn_1" "thread-1:1")])
    (windowTurn_fromHeader "turn_2" "thread-1:1") (by decide +kernel)

/-- A window id with 43 characters before the colon is taken for a credential. -/
def longHeader : String := "0123456789012345678901234567890123456789012:1"

theorem window_reopened :
    ∃ state store t added, resolveThreadSource limitedEnv (Thread.run limitedEnv "identity-1" "thread-1"
        [.beginTurn (windowTurn "turn_1" longHeader), .drop]).store "identity-1" "thread-1" = .ok (state, store) ∧
      (Thread.run limitedEnv "identity-1" "thread-1" [.beginTurn (windowTurn "turn_1" longHeader), .drop]).begun
        limitedEnv "identity-1" "thread-1" (windowTurn "turn_2" longHeader) = .ok t ∧
      threadEvents limitedEnv "identity-1" "thread-1" t = threadEvents limitedEnv "identity-1" "thread-1"
        (Thread.run limitedEnv "identity-1" "thread-1" [.beginTurn (windowTurn "turn_1" longHeader), .drop]) ++ added ∧
      ¬TracksWindow limitedEnv (threadEvents limitedEnv "identity-1" "thread-1" (Thread.run limitedEnv "identity-1"
        "thread-1" [.beginTurn (windowTurn "turn_1" longHeader), .drop])) added state
        (runTurns limitedEnv "identity-1" "thread-1" {}
          [.beginTurn (windowTurn "turn_1" longHeader), .drop]).getLast? (windowTurn "turn_2" longHeader) := by
  obtain ⟨state, store, t, added, hresolve, hbegun, hevents, hiff⟩ :=
    run_tracksWindow (by decide) (by decide) limitedEnv_lawful limitedEnv_marks _ (windowTurn_accepted longHeader)
      (run_drop_writer limitedEnv "identity-1" "thread-1" [.beginTurn (windowTurn "turn_1" longHeader)])
      (windowTurn_fromHeader "turn_2" longHeader) (by decide +kernel)
  refine ⟨state, store, t, added, hresolve, hbegun, hevents, fun htracks => ?_⟩
  have hredacted := hiff.mp htracks (windowTurn "turn_1" longHeader) rfl rfl
  exact absurd hredacted (by decide +kernel)

end Prelay.Rollout
