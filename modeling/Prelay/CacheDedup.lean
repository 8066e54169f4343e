import Prelay.DraftIdentity

namespace Prelay.Rollout

open Json Redaction

/-- A draft with an id that its line keeps, if it has one. -/
def KeepsId (env : Env) (draft : ContentDraft) : Prop :=
  match draft.body with
  | .message _ | .reasoning _ => draft.itemId = none
  | .toolCall toolCall => redactSensitiveText env.patterns toolCall.toolCallId = toolCall.toolCallId
  | .toolResult toolResult => redactSensitiveText env.patterns toolResult.toolCallId = toolResult.toolCallId
  | .usage _ | .error _ => False

def KeepsPhases (env : Env) : Prop := ∀ phase : EventPhase, redactSensitiveText env.patterns phase.asStr = phase.asStr

section drafts

variable {env : Env}

theorem eventPhaseOf_asStr (phase : EventPhase) : eventPhaseOf (.string phase.asStr) = some phase := by
  cases phase <;> rfl

theorem toolCallOf_storedPayload (hphases : KeepsPhases env) (toolCall : ConversationToolCall) :
    (toolCallOf (storedPayload env toolCall.members)).bind (fun t => itemId (.toolCall t)) =
      some (redactSensitiveText env.patterns toolCall.toolCallId) := by
  have hget := storedPayload_get env toolCall.members
  obtain ⟨ms, hms⟩ : ∃ ms, storedPayload env toolCall.members = .object ms := ⟨_, rfl⟩
  rw [hms] at hget ⊢
  simp [toolCallOf, hget, ConversationToolCall.members, List.find?, redactJsonValue, Value.normalize, Value.mapStrings,
    hphases toolCall.phase, eventPhaseOf_asStr, Value.asStr, itemId]

theorem toolResultOf_storedPayload (hphases : KeepsPhases env) (toolResult : ConversationToolResult) :
    (toolResultOf (storedPayload env toolResult.members)).bind (fun t => itemId (.toolResult t)) =
      some (redactSensitiveText env.patterns toolResult.toolCallId) := by
  have hget := storedPayload_get env toolResult.members
  obtain ⟨ms, hms⟩ : ∃ ms, storedPayload env toolResult.members = .object ms := ⟨_, rfl⟩
  rw [hms] at hget ⊢
  simp [toolResultOf, hget, ConversationToolResult.members, List.find?, redactJsonValue, Value.normalize,
    Value.mapStrings, hphases toolResult.phase, eventPhaseOf_asStr, Value.asStr, itemId]

theorem KeepsId.recoverable (hphases : KeepsPhases env) {draft : ContentDraft} (h : KeepsId env draft) :
    Recoverable env draft := by
  obtain ⟨id, body⟩ := draft
  cases body with
  | message message =>
    obtain rfl : id = none := h
    exact ⟨rfl, rfl⟩
  | reasoning reasoning =>
    obtain rfl : id = none := h
    exact ⟨rfl, rfl⟩
  | toolCall toolCall =>
    have hstored := toolCallOf_storedPayload hphases toolCall
    rw [show redactSensitiveText env.patterns toolCall.toolCallId = toolCall.toolCallId from h] at hstored
    refine ⟨rfl, ?_⟩
    simp only [ContentEventBody.eventType, ContentEventBody.members, storedItemId, ↓reduceIte, hstored]
    rfl
  | toolResult toolResult =>
    have hstored := toolResultOf_storedPayload hphases toolResult
    rw [show redactSensitiveText env.patterns toolResult.toolCallId = toolResult.toolCallId from h] at hstored
    refine ⟨rfl, ?_⟩
    simp only [ContentEventBody.eventType, ContentEventBody.members, storedItemId, hstored]
    rfl
  | usage usage => exact h.elim
  | error error => exact h.elim

theorem KeepsId.key {draft : ContentDraft} (h : KeepsId env draft) :
    draftKey draft.body.eventType draft =
      if draft.body.eventType = "tool_call" ∨ draft.body.eventType = "tool_result" then
        (((comparisonPayload (storedPayload env draft.body.members)).get "tool_call_id").bind Value.asStr).map
          (itemRefKey draft.body.eventType)
      else none := by
  rw [comparisonPayload_get (by decide), storedPayload_get]
  obtain ⟨id, body⟩ := draft
  cases body with
  | message message =>
    obtain rfl : id = none := h
    rfl
  | reasoning reasoning =>
    obtain rfl : id = none := h
    rfl
  | toolCall toolCall =>
    have hid : redactSensitiveText env.patterns toolCall.toolCallId = toolCall.toolCallId := h
    simp [draftKey, itemId, ContentEventBody.eventType, ContentEventBody.members, ConversationToolCall.members,
      List.find?, redactJsonValue, Value.normalize, Value.mapStrings, Value.asStr, hid]
  | toolResult toolResult =>
    have hid : redactSensitiveText env.patterns toolResult.toolCallId = toolResult.toolCallId := h
    simp [draftKey, itemId, ContentEventBody.eventType, ContentEventBody.members, ConversationToolResult.members,
      List.find?, redactJsonValue, Value.normalize, Value.mapStrings, Value.asStr, hid]
  | usage usage => exact h.elim
  | error error => exact h.elim

theorem deduplicable {drafts : Set ContentDraft} (hserde : env.serde.Lawful) (hphases : KeepsPhases env)
    (hback : ∀ draft ∈ drafts, ReadsBack env draft) (hids : ∀ draft ∈ drafts, KeepsId env draft)
    (hcollision : NoCollision env drafts) : Deduplicable env drafts where
  readsBack := hback
  recoverable := fun draft hdraft => (hids draft hdraft).recoverable hphases
  same_key := by
    intro a ha b hb hidentity
    obtain ⟨htype, hpayload⟩ := same_content hserde hback hcollision ha hb hidentity
    rw [(hids a ha).key, (hids b hb).key, htype, hpayload]

end drafts

section finish

variable {env : Env} {identityId threadId : String}

theorem begun_disk {t t' : Thread} {state : ThreadState} {store store' : Store} (request : TurnRequest)
    (h : resolveThreadSource env t.store identityId threadId = .ok (state, store))
    (h' : resolveThreadSource env t'.store identityId threadId = .ok (state, store'))
    (hdisk : t.store.disk = t'.store.disk) (hstore : store.disk = store'.disk) :
    ((t.begun env identityId threadId request).toOption.getD t).store.disk =
      ((t'.begun env identityId threadId request).toOption.getD t').store.disk := by
  unfold Thread.begun beginTurn
  split_ifs
  · exact hdisk
  · exact hdisk
  · simp only [h, h', bind, Except.bind]
    cases checkedAbsolutePath state.relativePath with
    | error e => exact hdisk
    | ok path =>
      cases checkedAbsolutePath (threadRelative identityId threadId) with
      | error e => exact hdisk
      | ok threadPath =>
        simp only
        cases checkedAbsolutePath (indexRelative threadPath) with
        | error e => exact hdisk
        | ok indexPath =>
          simp only
          cases (RolloutWriter.fromState state threadPath ⟨threadId, request.windowId, request.generation⟩ request.turn
              request.turnId).openTurn env state ⟨threadId, request.windowId, request.generation⟩ request.turn
              request.events with
          | error e => exact hdisk
          | ok w => simp only [flushWriter, hstore, Except.toOption, Option.getD_some]

theorem finished_writer {t t' : Thread} {w : RolloutWriter} {status : RolloutStatus} {httpStatus : Option ℕ}
    {errorCode : Option String} (h : t.finished env w status httpStatus errorCode = .ok t') : t'.writer = none := by
  unfold Thread.finished at h
  cases hfinish : finishWith env w status httpStatus errorCode t.store with
  | error e => simp [hfinish, bind, Except.bind] at h
  | ok result =>
    simp only [hfinish, bind, Except.bind, Except.ok.injEq] at h
    rw [← h]

theorem resolve_cached (hid : isSafePathSegment identityId = true) (hthread : isSafePathSegment threadId = true)
    {store : Store} {cached : ThreadState} (hcache : store.cache = some cached)
    (hpath : cached.relativePath = threadRelative identityId threadId)
    (hstamp : metadataStamp store.disk (threadRelative identityId threadId) = some cached.stamp) :
    resolveThreadSource env store identityId threadId = .ok (cached, store) := by
  simp only [resolveThreadSource, cachedThread, hcache, hpath, checked_threadRelative hid hthread, bind, Except.bind,
    hstamp, ↓reduceIte]

theorem resolve_lost (hid : isSafePathSegment identityId = true) (hthread : isSafePathSegment threadId = true)
    {disk : Disk} {state : ThreadState} (hload : loadThreadSource env disk identityId threadId = .ok (state, disk)) :
    ∃ store, resolveThreadSource env { disk := disk } identityId threadId = .ok (state, store) ∧ store.disk = disk := by
  simp only [resolveThreadSource, cachedThread, checked_indexRelative hid hthread, bind, Except.bind,
    loadPersistedThread, Option.bind_none, hload]
  exact ⟨_, rfl, rfl⟩

theorem lost_begun_disk (hid : isSafePathSegment identityId = true) (hthread : isSafePathSegment threadId = true)
    (hserde : env.serde.Lawful) {t : Thread} {log : Log} {cached : ThreadState} (hcache : t.store.cache = some cached)
    (hcached : ThreadState.fromEvents env (threadRelative identityId threadId) (threadStamp env threadId log) .v1
      (log.map (rereadEvent env)) (log.length + 1) log.length = cached)
    (hdisk : t.store.disk = threadDisk env (threadRelative identityId threadId) (threadTexts env threadId (some log)))
    (hstored : ∀ event ∈ log, Stored event) (hnumbered : Numbered log) (request : TurnRequest) :
    ((t.begun env identityId threadId request).toOption.getD t).store.disk =
      ((Thread.begun env identityId threadId { t with store := { t.store with cache := none, index := none } }
        request).toOption.getD { t with store := { t.store with cache := none, index := none } }).store.disk := by
  have hpath : cached.relativePath = threadRelative identityId threadId := by
    rw [← hcached]
    exact replay_path env _ _
  have hkept : resolveThreadSource env t.store identityId threadId = .ok (cached, t.store) := by
    apply resolve_cached hid hthread hcache hpath
    rw [hdisk, metadataStamp_thread (threadDisk_self env _ _), ← hcached]
    rfl
  have hload : loadThreadSource env t.store.disk identityId threadId = .ok (cached, t.store.disk) := by
    rw [hdisk, ← hcached]
    exact loadThreadSource_log hid hthread hserde hstored hnumbered
  obtain ⟨store, hlost, hlostDisk⟩ := resolve_lost hid hthread hload
  exact begun_disk request hkept hlost rfl hlostDisk.symm

theorem Describes.eq {path : String} {keeps : Bytes → Prop} {state state' : ThreadState} {log : Log}
    (h : Describes keeps True env path state (some log)) (h' : Describes keeps True env path state' (some log))
    (hstamp : state.stamp = state'.stamp) : state = state' := by
  obtain ⟨hpath, hformat, hline, hseq, hwindow, heventRefs, -, hcount, hcontent, hitemRefs, -⟩ := h
  obtain ⟨hpath', hformat', hline', hseq', hwindow', heventRefs', -, hcount', hcontent', hitemRefs', -⟩ := h'
  have hformats := (hformat rfl).trans (hformat' rfl).symm
  have hcontents := (hcontent trivial).trans (hcontent' trivial).symm
  have hitems := (hitemRefs trivial).trans (hitemRefs' trivial).symm
  have hevents : state.eventRefs = state'.eventRefs := Std.ExtTreeMap.ext_getElem? (fun identity =>
    (heventRefs identity (.inl trivial)).trans (heventRefs' identity (.inl trivial)).symm)
  cases state
  cases state'
  simp only [ThreadState.mk.injEq] at *
  exact ⟨hpath.trans hpath'.symm, hformats, hstamp, hline.trans hline'.symm, hseq.trans hseq'.symm,
    hwindow.trans hwindow'.symm, hcontents, hevents, hitems, hcount.trans hcount'.symm⟩

def rereadThread (env : Env) (identityId threadId : String) (t : Thread) : Option ThreadState :=
  match readThreadEvents env (t.store.disk (threadRelative identityId threadId)) with
  | .ok (some (parsed, file)) =>
    some (candidateState env (threadRelative identityId threadId) parsed (FileStamp.fromMetadata file))
  | _ => none

/-- In a run whose drafts are read back with their ids the data for deduplication is that of the file at the end of
every turn, and the next turn writes the same lines when the cache and the index are lost. -/
theorem cached_dedup_eq (hid : isSafePathSegment identityId = true) (hthread : isSafePathSegment threadId = true)
    (hserde : env.serde.Lawful) (hphases : KeepsPhases env) (ops : List ThreadOp)
    (hcollision : NoCollision env {draft | ∃ op ∈ ops, draft ∈ op.drafts}) (hreads : ReadsBackOps env ops)
    (hids : ∀ op ∈ ops, ∀ draft ∈ op.drafts, KeepsId env draft) {w : RolloutWriter}
    (hw : (Thread.run env identityId threadId ops).writer = some w) (status : RolloutStatus) (httpStatus : Option ℕ)
    (errorCode : Option String) :
    (∃ cached reread,
      (Thread.run env identityId threadId (ops ++ [ThreadOp.finish status httpStatus errorCode])).store.cache =
        some cached ∧
      rereadThread env identityId threadId
        (Thread.run env identityId threadId (ops ++ [ThreadOp.finish status httpStatus errorCode])) = some reread ∧
      cached.content = reread.content ∧ cached.itemRefs = reread.itemRefs) ∧
    ∀ request,
      (Thread.run env identityId threadId
        (ops ++ [ThreadOp.finish status httpStatus errorCode] ++ [ThreadOp.beginTurn request])).store.disk =
      (Thread.run env identityId threadId
        (ops ++ [ThreadOp.finish status httpStatus errorCode] ++
          [ThreadOp.forgetCache, .loseIndex, .beginTurn request])).store.disk := by
  have hback : ∀ draft ∈ {draft | ∃ op ∈ ops, draft ∈ op.drafts}, ReadsBack env draft := by
    rintro draft ⟨op, hop, hdraft⟩
    exact hreads op hop draft hdraft
  have hdedup : Deduplicable env {draft | ∃ op ∈ ops, draft ∈ op.drafts} := by
    apply deduplicable hserde hphases hback _ hcollision
    rintro draft ⟨op, hop, hdraft⟩
    exact hids op hop draft hdraft
  obtain ⟨blocks, current, h⟩ : ∃ blocks current, Good env threadId (threadRelative identityId threadId) (fun _ => True)
      True {draft | ∃ op ∈ ops, draft ∈ op.drafts} (Thread.run env identityId threadId ops) blocks current :=
    run_good hid hthread hserde (fun draft hdraft => (hback draft hdraft).readable _) (fun _ => hdedup) ops
      (fun op hop draft hdraft => ⟨op, hop, hdraft⟩)
  obtain ⟨new, rfl⟩ := h.writing hw
  have hshallow : ∀ draft ∈ {draft | ∃ op ∈ ops, draft ∈ op.drafts}, Shallow env draft :=
    fun draft hdraft => (hback draft hdraft).shallow
  obtain ⟨t', log, cached, hfinished, hcache, hcached, hstate, hwellFormed, hdisk, hread⟩ :=
    h.finished_cache hw hthread hserde hshallow ⟨status, httpStatus, errorCode⟩
  have hrun := run_finish hw hfinished
  have hreread : Describes (fun _ => True) True env (threadRelative identityId threadId) (ThreadState.fromEvents env
      (threadRelative identityId threadId) (threadStamp env threadId log) .v1 (log.map (rereadEvent env))
      (log.length + 1) log.length) (some log) :=
    Describes.fromEvents hserde _
      (fun _ hidentity => hwellFormed.kept (fun draft hdraft => (hback draft hdraft).keepsDigests fun _ => True) hidentity)
      (fun _ => hwellFormed.reread_eq hserde hback)
  have heq := hcached.eq hreread (hstate ▸ rfl)
  constructor
  · rw [hrun]
    refine ⟨cached, cached, hcache, ?_, rfl, rfl⟩
    simp only [rereadThread, hread, candidateState_thread]
    rw [heq]
    rfl
  · intro request
    have hwriter := finished_writer hfinished
    have hsame := lost_begun_disk hid hthread hserde hcache (heq ▸ rfl) hdisk (hwellFormed.stored hshallow)
      hwellFormed.numbered request
    have hleft : Thread.run env identityId threadId
        (ops ++ [ThreadOp.finish status httpStatus errorCode] ++ [ThreadOp.beginTurn request]) =
          (t'.begun env identityId threadId request).toOption.getD t' := by
      rw [Thread.run, List.foldl_append, ← Thread.run, hrun]
      simp only [List.foldl_cons, List.foldl_nil, Thread.step, hwriter]
    have hright : Thread.run env identityId threadId
        (ops ++ [ThreadOp.finish status httpStatus errorCode] ++ [ThreadOp.forgetCache, .loseIndex, .beginTurn request]) =
          (Thread.begun env identityId threadId { t' with store := { t'.store with cache := none, index := none } }
            request).toOption.getD { t' with store := { t'.store with cache := none, index := none } } := by
      rw [Thread.run, List.foldl_append, ← Thread.run, hrun]
      simp only [List.foldl_cons, List.foldl_nil, Thread.step, hwriter]
    rw [hleft, hright]
    exact hsame

end finish

def toolCall (id : String) : ContentDraft := callWith id (.string "query")

def toolOps : List ThreadOp :=
  [.beginTurn (sampleTurn "turn_1" [userMessage "hello"]), .appendContent (toolCall "call_1")]

theorem cached_dedup_eq_tool_call :
    (Thread.run limitedEnv "identity-1" "thread-1" toolOps).writer.isSome = true ∧
    (∃ cached reread,
      (Thread.run limitedEnv "identity-1" "thread-1"
        (toolOps ++ [ThreadOp.finish .completed (some 200) none])).store.cache =
        some cached ∧
      rereadThread limitedEnv "identity-1" "thread-1"
        (Thread.run limitedEnv "identity-1" "thread-1" (toolOps ++ [ThreadOp.finish .completed (some 200) none])) =
        some reread ∧
      cached.content = reread.content ∧ cached.itemRefs = reread.itemRefs) ∧
    ∀ request,
      (Thread.run limitedEnv "identity-1" "thread-1"
        (toolOps ++ [ThreadOp.finish .completed (some 200) none] ++ [ThreadOp.beginTurn request])).store.disk =
      (Thread.run limitedEnv "identity-1" "thread-1"
        (toolOps ++ [ThreadOp.finish .completed (some 200) none] ++
          [ThreadOp.forgetCache, .loseIndex, .beginTurn request])).store.disk := by
  have hwriter : (Thread.run limitedEnv "identity-1" "thread-1" toolOps).writer.isSome = true := by decide +kernel
  have hphases : KeepsPhases limitedEnv := by
    intro phase
    cases phase <;> decide +kernel
  have hdrafts : ∀ draft, (∃ op ∈ toolOps, draft ∈ op.drafts) → draft = userMessage "hello" ∨
      draft = toolCall "call_1" := by
    simp [toolOps, ThreadOp.drafts, sampleTurn]
  have hdistinct : limitedEnv.sha256 (draftCanonical limitedEnv (userMessage "hello")) ≠
      limitedEnv.sha256 (draftCanonical limitedEnv (toolCall "call_1")) := by decide +kernel
  have hcollision : NoCollision limitedEnv {draft | ∃ op ∈ toolOps, draft ∈ op.drafts} := by
    intro a ha b hb heq
    rcases hdrafts a ha with rfl | rfl <;> rcases hdrafts b hb with rfl | rfl
    · rfl
    · exact absurd heq hdistinct
    · exact absurd heq.symm hdistinct
    · rfl
  have hids : ∀ op ∈ toolOps, ∀ draft ∈ op.drafts, KeepsId limitedEnv draft := by
    intro op hop draft hdraft
    rcases hdrafts draft ⟨op, hop, hdraft⟩ with rfl | rfl
    · rfl
    · show redactSensitiveText limitedEnv.patterns "call_1" = "call_1"
      decide +kernel
  exact ⟨hwriter, cached_dedup_eq (by decide) (by decide) limitedEnv_lawful hphases toolOps hcollision
    (by decide +kernel) hids (Option.some_get hwriter).symm .completed (some 200) none⟩

def itemMessage (id text : String) : ContentDraft := { userMessage text with itemId := some id }

theorem contentHash_count (env : Env) (path : String) (log : Log) :
    (ContentHash.fromEvents env log).count = (replay env path log).contentEventCount := by
  induction log using List.reverseRecOn with
  | nil => rfl
  | append_singleton log event ih =>
    rw [contentHash_append, replay_append, ThreadState.observe]
    by_cases hcontent : isContentEvent event.eventType = true
    · have hwindow : event.eventType ≠ "window" := by
        intro heq
        rw [heq] at hcontent
        exact absurd hcontent (by decide)
      rw [if_pos hcontent, if_neg hwindow, if_pos hcontent]
      exact congrArg (· + 1) ih
    · rw [if_neg hcontent, if_neg hcontent]
      split_ifs <;> exact ih

theorem replay_itemRefs_key (env : Env) (path : String) (log : Log) {key : String}
    (h : (replay env path log).itemRefs[key]? ≠ none) :
    ∃ id, key = itemRefKey "tool_call" id ∨ key = itemRefKey "tool_result" id := by
  induction log using List.reverseRecOn with
  | nil => exact absurd rfl h
  | append_singleton log event ih =>
    rw [replay_append, ThreadState.observe] at h
    split_ifs at h with hwindow hcontent
    · exact ih h
    · cases hstored : storedItemId event.eventType event.payload with
      | none =>
        simp only [hstored] at h
        exact ih h
      | some id =>
        simp only [hstored, Std.ExtTreeMap.getElem?_insert] at h
        split_ifs at h with heq
        · rw [Std.LawfulEqCmp.compare_eq_iff_eq] at heq
          refine ⟨id, ?_⟩
          unfold storedItemId at hstored
          split_ifs at hstored with hcall hresult
          · exact .inl (hcall ▸ heq.symm)
          · exact .inr (hresult ▸ heq.symm)
        · exact ih h
    · exact ih h

def usageOps : List ThreadOp :=
  [.beginTurn (sampleTurn "turn_1" [itemMessage "msg_1" "hello"]),
    .appendContent { body := .usage { inputTokens := some 3 } }]

theorem cached_dedup_differs :
    ∃ cached reread,
      (Thread.run sampleEnv "identity-1" "thread-1" (usageOps ++ [ThreadOp.finish .completed none none])).store.cache =
        some cached ∧
      rereadThread sampleEnv "identity-1" "thread-1" (Thread.run sampleEnv "identity-1" "thread-1"
        (usageOps ++ [ThreadOp.finish .completed none none])) = some reread ∧
      cached.content.count = 2 ∧ reread.content.count = 1 ∧
      cached.itemRefs["message:msg_1"]? = some 3 ∧ reread.itemRefs["message:msg_1"]? = none := by
  have hwriter : (Thread.run sampleEnv "identity-1" "thread-1" usageOps).writer.map (fun w =>
      (w.content.count, w.contentEventCount, w.itemRefs["message:msg_1"]?)) = some (2, 1, some 3) := by decide +kernel
  obtain ⟨w, hw, hfields⟩ := Option.map_eq_some_iff.mp hwriter
  simp only [Prod.mk.injEq] at hfields
  obtain ⟨hcount, hevents, hitem⟩ := hfields
  have hreads : ReadsBackOps sampleEnv usageOps := by decide +kernel
  obtain ⟨blocks, current, h⟩ : ∃ blocks current, Good sampleEnv "thread-1" (threadRelative "identity-1" "thread-1")
      (fun _ => True) False (readBack sampleEnv) (Thread.run sampleEnv "identity-1" "thread-1" usageOps) blocks current :=
    run_good_reads (by decide) (by decide) Text.codec_lawful usageOps hreads
  obtain ⟨new, rfl⟩ := h.writing hw
  obtain ⟨t', log, cached, hfinished, hcache, hcached, hstate, hwellFormed, -, hread⟩ :=
    h.finished_cache hw (by decide) Text.codec_lawful (fun _ hdraft => hdraft.shallow) ⟨.completed, none, none⟩
  have hback := hwellFormed.reread_eq Text.codec_lawful (fun _ hdraft => hdraft)
  have hended : cached.content = w.content ∧ cached.contentEventCount = w.contentEventCount ∧
      cached.itemRefs = w.itemRefs := by
    rw [hstate, endedWriter, RolloutWriter.recordEvent_eq]
    exact ⟨rfl, rfl, rfl⟩
  rw [run_finish hw hfinished]
  refine ⟨cached, ThreadState.fromEvents sampleEnv (threadRelative "identity-1" "thread-1")
    (threadStamp sampleEnv "thread-1" log) .v1 log (log.length + 1) log.length, hcache, ?_, ?_, ?_, ?_, ?_⟩
  · simp only [rereadThread, hread, candidateState_thread, hback]
    rfl
  · rw [hended.1, hcount]
  · have hreread := hcached.contentEventCount
    rw [hended.2.1, hevents, Option.getD_some, ← contentHash_count] at hreread
    exact hreread.symm
  · rw [hended.2.2, hitem]
  · by_contra hknown
    obtain ⟨id, hkey⟩ := replay_itemRefs_key sampleEnv (threadRelative "identity-1" "thread-1") log hknown
    rcases hkey with hkey | hkey
    · have hhead := congrArg (fun s : String => s.toList.head?) hkey
      simp [itemRefKey] at hhead
    · have hhead := congrArg (fun s : String => s.toList.head?) hkey
      simp [itemRefKey] at hhead

end Prelay.Rollout
