import Prelay.CacheDedup
import Prelay.ContextRefs

namespace Prelay.Rollout

open Json

section refer

variable {env : Env} {threadId path : String} {base : Option Log} {new : Log} {written : List String}
  {w : RolloutWriter} {drafts : Set ContentDraft}

theorem keepItem_itemRefs (w : RolloutWriter) (key : Option String) (seq : ℕ) (k : String) :
    (w.keepItem key seq).itemRefs[k]? = if key = some k then some seq else w.itemRefs[k]? := by
  rw [keepItem_eq]
  cases key with
  | none => simp
  | some key =>
    simp only [Option.elim_some, Std.ExtTreeMap.getElem?_insert, Std.LawfulEqCmp.compare_eq_iff_eq, Option.some.injEq]

theorem Writes.eventRef_matches (h : Writes env threadId (fun _ => True) False drafts path base new written w)
    (hserde : env.serde.Lawful) (hback : ∀ draft ∈ drafts, ReadsBack env draft) (hcollision : NoCollision env drafts)
    {draft : ContentDraft} (hdraft : draft ∈ drafts)
    {occurrence ref : ℕ}
    (href : (w.eventRefs.getD (eventIdentity env draft.body.eventType (storedPayload env draft.body.members)) [])[
      occurrence]? = some ref) :
    Matches env (base.getD [] ++ new) draft ref := by
  have hrefs := h.state.eventRefs (eventIdentity env draft.body.eventType (storedPayload env draft.body.members))
    (.inr trivial)
  simp only [RolloutWriter.threadState, Option.getD_some] at hrefs
  rw [Std.ExtTreeMap.getD_eq_getD_getElem?, hrefs, ← Std.ExtTreeMap.getD_eq_getD_getElem?] at href
  obtain ⟨event, hevent, rfl, hcontent, hidentity⟩ := replay_eventRefs env path _ _ _ (List.mem_of_getElem? href)
  obtain ⟨other, hother, htype, hpayload⟩ := h.wellFormed.drafted hevent hcontent
  rw [identityOf, htype, hpayload] at hidentity
  obtain ⟨hsameType, hsamePayload⟩ := same_content hserde hback hcollision hother hdraft hidentity
  exact ⟨event, resolveRef_mem h.wellFormed.numbered hevent, htype.trans hsameType, hpayload ▸ hsamePayload⟩

theorem Writes.referDraft_ref (h : Writes env threadId (fun _ => True) False drafts path base new written w)
    (hserde : env.serde.Lawful) (hback : ∀ draft ∈ drafts, ReadsBack env draft)
    (hcollision : NoCollision env drafts) {draft : ContentDraft} (hdraft : draft ∈ drafts)
    (occurrences : Std.ExtTreeMap Bytes ℕ) :
    ∃ ref occurrences' more w', w.referDraft env occurrences draft = .ok (ref, occurrences', w') ∧
      Writes env threadId (fun _ => True) False drafts path base (new ++ more) written w' ∧
      (∃ event ∈ base.getD [] ++ new ++ more, event.seq = ref) ∧
      (∀ k : String, w'.itemRefs[k]? = if draftKey draft.body.eventType draft = some k then some ref
        else w.itemRefs[k]?) ∧
      ((∃ key, draftKey draft.body.eventType draft = some key ∧ w.itemRefs[key]? = some ref ∧ more = []) ∨
        (∀ key : String, draftKey draft.body.eventType draft = some key → w.itemRefs[key]? = none) ∧
          Matches env (base.getD [] ++ new ++ more) draft ref) := by
  rw [referDraft_eq h.segment.isOpen occurrences draft rfl rfl]
  cases hexisting : w.existingRef (draftKey draft.body.eventType draft)
      (eventIdentity env draft.body.eventType (storedPayload env draft.body.members))
      (occurrences.getD (eventIdentity env draft.body.eventType (storedPayload env draft.body.members)) 0) with
  | some ref =>
    have hmem := h.existingRef_mem hexisting
    refine ⟨ref, _, [], _, rfl, ?_, by simpa using hmem, keepItem_itemRefs w _ _, ?_⟩
    · rw [List.append_nil]
      exact h.keepItem hmem nofun
    · rw [List.append_nil]
      rcases Option.or_eq_some_iff.mp hexisting with hitem | ⟨hnone, hevent⟩
      · obtain ⟨key, hkey, hitem⟩ := Option.bind_eq_some_iff.mp hitem
        exact .inl ⟨key, hkey, hitem, rfl⟩
      · refine .inr ⟨?_, h.eventRef_matches hserde hback hcollision hdraft hevent⟩
        intro key hkey
        simpa [hkey] using hnone
  | none =>
    have hnone := (Option.or_eq_none_iff.mp hexisting).1
    have hnext := h.content hdraft nofun
    have hevent : w.nextEvent env draft.body.eventType (storedPayload env draft.body.members) ∈ base.getD [] ++ new ++
        [w.nextEvent env draft.body.eventType (storedPayload env draft.body.members)] := by simp
    refine ⟨w.seq + 1, _, [w.nextEvent env draft.body.eventType (storedPayload env draft.body.members)], _, rfl, hnext,
      ⟨_, hevent, rfl⟩, ?_, .inr ⟨?_, ?_⟩⟩
    · intro k
      rw [keepItem_itemRefs, RolloutWriter.recordEvent_eq]
    · intro key hkey
      simpa [hkey] using hnone
    · have hnumbered := hnext.wellFormed.numbered
      rw [← List.append_assoc] at hnumbered
      exact ⟨_, resolveRef_mem hnumbered hevent, rfl, rfl⟩

theorem Writes.referDrafts_refs (h : Writes env threadId (fun _ => True) False drafts path base new written w)
    (hserde : env.serde.Lawful) (hback : ∀ draft ∈ drafts, ReadsBack env draft)
    (hcollision : NoCollision env drafts) {requestEvents : List ContentDraft}
    (hdrafts : ∀ draft ∈ requestEvents, draft ∈ drafts) (occurrences : Std.ExtTreeMap Bytes ℕ) :
    ∃ refs more w', w.referDrafts env occurrences requestEvents = .ok (refs, w') ∧
      Writes env threadId (fun _ => True) False drafts path base (new ++ more) written w' ∧
      refs.length = requestEvents.length ∧
      (∀ ref ∈ refs, ∃ event ∈ base.getD [] ++ new ++ more, event.seq = ref) ∧
      (List.Forall₂ (Matches env (base.getD [] ++ new ++ more)) requestEvents refs ↔
        KeysMatch env w.itemRefs (base.getD [] ++ new) requestEvents) := by
  induction requestEvents generalizing w new occurrences with
  | nil =>
    refine ⟨[], [], w, rfl, by rwa [List.append_nil], rfl, nofun, ?_⟩
    exact ⟨fun _ => ⟨nofun, List.Pairwise.nil⟩, fun _ => List.Forall₂.nil⟩
  | cons draft requestEvents ih =>
    obtain ⟨ref, occurrences', more, w', hdraft, hw', href, hitems, hcase⟩ :=
      h.referDraft_ref hserde hback hcollision (hdrafts draft List.mem_cons_self) occurrences
    obtain ⟨refs, rest, w'', hrest, hw'', hlength, hrange, hiff⟩ :=
      ih hw' (fun d hd => hdrafts d (List.mem_cons_of_mem _ hd)) occurrences'
    rw [← List.append_assoc] at hrange hiff
    refine ⟨ref :: refs, more ++ rest, w'', ?_, by rwa [← List.append_assoc], congrArg (· + 1) hlength, ?_, ?_⟩
    · rw [RolloutWriter.referDrafts, hdraft, bind, Except.instMonad]
      simp only [Except.bind, hrest]
    · intro r hr
      rw [← List.append_assoc]
      rcases List.mem_cons.mp hr with rfl | hr
      · obtain ⟨event, hevent, hseq⟩ := href
        exact ⟨event, List.mem_append_left _ hevent, hseq⟩
      · exact hrange r hr
    · rw [← List.append_assoc, List.forall₂_cons, matches_append href rest, hiff]
      rcases hcase with ⟨key, hkey, hitem, rfl⟩ | ⟨hunknown, hmatch⟩
      · rw [List.append_nil]
        exact keysMatch_known hkey hitem hitems
      · rw [and_iff_right hmatch]
        exact keysMatch_unknown hunknown hmatch h.state.itemSeqs hitems

end refer

def threadEvents (env : Env) (identityId threadId : String) (t : Thread) : Log :=
  match readThreadEvents env (t.store.disk (threadRelative identityId threadId)) with
  | .ok (some (parsed, _)) => parsed.events
  | _ => []

def contextRefs (event : ConversationEvent) : Option (List ℕ) :=
  ((event.payload.get "refs").bind Value.asArray).map (List.filterMap Value.asU64)

/-- The last event is a context with one reference to the content of each draft, in order. -/
def FaithfulContext (env : Env) (events : Log) (drafts : List ContentDraft) : Prop :=
  ∃ context refs, events.getLast? = some context ∧ context.eventType = "context" ∧ contextRefs context = some refs ∧
    List.Forall₂ (Matches env events) drafts refs

section context

variable {env : Env} {identityId threadId : String} {drafts : Set ContentDraft}

theorem refs_payload (env : Env) (refs : List ℕ) :
    (((storedPayload env (ControlEventBody.context refs).members).get "refs").bind Value.asArray).map
      (List.filterMap Value.asU64) = some refs := by
  have hitems : ∀ refs : List ℕ, (Value.mapStringsItems (Redaction.redactSensitiveText env.patterns)
      (Value.normalizeItems (refs.map Value.nat))).filterMap Value.asU64 = refs := by
    intro refs
    induction refs with
    | nil => rfl
    | cons ref refs ih =>
      rw [List.map_cons, Value.normalizeItems, Value.mapStringsItems, List.filterMap_cons, ih]
      rfl
  rw [storedPayload_get]
  simp [ControlEventBody.members, Value.normalize, Redaction.redactJsonValue, Value.mapStrings,
    Value.asArray, hitems]

theorem threadEvents_log (hthread : isSafePathSegment threadId = true) (hserde : env.serde.Lawful) {t : Thread}
    {log : Option Log}
    (hdisk : t.store.disk = threadDisk env (threadRelative identityId threadId) (threadTexts env threadId log))
    (hwellFormed : WellFormed env drafts (log.getD [])) (hback : ∀ draft ∈ drafts, ReadsBack env draft) :
    threadEvents env identityId threadId t = log.getD [] := by
  unfold threadEvents
  cases log with
  | none => simp [hdisk, threadDisk, textsFile, threadTexts, readThreadEvents]
  | some log =>
    have hstored : ∀ event ∈ (some log).getD [], Stored event :=
      hwellFormed.stored (fun draft hdraft => (hback draft hdraft).shallow)
    have hread := readThreadEvents_thread hserde (safe_ne_empty hthread) hstored hwellFormed.numbered
      (env.modified (log.length + 1))
    simp only [hdisk, threadDisk, ↓reduceIte, textsFile_thread, hread]
    exact hwellFormed.reread_eq hserde hback

theorem keysMatch_append {itemRefs : Std.ExtTreeMap String ℕ} {log : Log} {requestEvents : List ContentDraft}
    (hrange : ∀ (key : String) (seq : ℕ), itemRefs[key]? = some seq → ∃ event ∈ log, event.seq = seq) (more : Log) :
    KeysMatch env itemRefs (log ++ more) requestEvents ↔ KeysMatch env itemRefs log requestEvents := by
  constructor
  · rintro ⟨hknown, hunknown⟩
    exact ⟨fun d hd key seq hkey hseq => (matches_append (hrange key seq hseq) more).mp (hknown d hd key seq hkey hseq),
      hunknown⟩
  · rintro ⟨hknown, hunknown⟩
    exact ⟨fun d hd key seq hkey hseq => (matches_append (hrange key seq hseq) more).mpr (hknown d hd key seq hkey hseq),
      hunknown⟩

theorem Writes.openTurn_context {path : String} {base : Option Log} {state : ThreadState} (session : SessionContext)
    (turn : TurnContext) (turnId : String) {requestEvents : List ContentDraft}
    (hstate : Describes (fun _ => True) False env path state base)
    (hlen : state.stamp.len = (threadBytes env threadId base).length)
    (hwellFormed : WellFormed env drafts (base.getD [])) (hsession : session.threadId = threadId)
    (hserde : env.serde.Lawful) (hback : ∀ draft ∈ drafts, ReadsBack env draft)
    (hcollision : NoCollision env drafts) (hdrafts : ∀ draft ∈ requestEvents, draft ∈ drafts) :
    ∃ new w', (RolloutWriter.fromState state path session turn turnId).openTurn env state session turn requestEvents =
        .ok w' ∧ Writes env threadId (fun _ => True) False drafts path base new [] w' ∧
      (FaithfulContext env (base.getD [] ++ new) requestEvents ↔
        KeysMatch env state.itemRefs (base.getD []) requestEvents) := by
  obtain ⟨window, first, w₁, hstart, hw₁, -, hitems, -, -, -⟩ :=
    Writes.startTurn path turn turnId hstate hlen hwellFormed hsession
  obtain ⟨refs, more, w₂, hrefer, hw₂, -, hrange, hiff⟩ := hw₁.referDrafts_refs hserde hback hcollision hdrafts ∅
  obtain ⟨happend, hw₃⟩ := hw₂.appendControl (.context refs) rfl
  refine ⟨_, _, openTurn_ok hstart hrefer happend, hw₃, ?_⟩
  rw [hitems, keysMatch_append hstate.itemSeqs] at hiff
  rw [← hiff]
  have hlast : (base.getD [] ++ (window ++ [first] ++ more ++ [w₂.nextEvent env "context"
      (storedPayload env (ControlEventBody.context refs).members)])).getLast? = some (w₂.nextEvent env "context"
        (storedPayload env (ControlEventBody.context refs).members)) := by
    rw [← List.append_assoc, List.getLast?_concat]
  have hmatches : List.Forall₂ (Matches env (base.getD [] ++ (window ++ [first] ++ more ++ [w₂.nextEvent env "context"
        (storedPayload env (ControlEventBody.context refs).members)]))) requestEvents refs ↔
      List.Forall₂ (Matches env (base.getD [] ++ (window ++ [first]) ++ more)) requestEvents refs := by
    simp only [List.forall₂_iff_zip]
    apply and_congr_right
    intro _
    constructor
    · intro h draft ref hmem
      have hfound := h hmem
      rw [← List.append_assoc, ← List.append_assoc] at hfound
      exact (matches_append (hrange ref (List.of_mem_zip hmem).2) _).mp hfound
    · intro h draft ref hmem
      rw [← List.append_assoc, ← List.append_assoc]
      exact (matches_append (hrange ref (List.of_mem_zip hmem).2) _).mpr (h hmem)
  rw [← hmatches]
  constructor
  · rintro ⟨context, refs', hcontext, -, hrefs', hfaithful⟩
    obtain rfl := Option.some.inj (hlast.symm.trans hcontext)
    obtain rfl := Option.some.inj ((refs_payload env refs).symm.trans hrefs')
    exact hfaithful
  · intro hfaithful
    exact ⟨_, refs, hlast, rfl, refs_payload env refs, hfaithful⟩

theorem Good.begun_of_open {t : Thread} {blocks : List Log}
    (h : Good env threadId (threadRelative identityId threadId) (fun _ => True) False drafts t blocks none)
    (hid : isSafePathSegment identityId = true) (hthread : isSafePathSegment threadId = true)
    (hserde : env.serde.Lawful) (hback : ∀ draft ∈ drafts, ReadsBack env draft) (request : TurnRequest) :
    ∃ state store, resolveThreadSource env t.store identityId threadId = .ok (state, store) ∧
      Describes (fun _ => True) False env (threadRelative identityId threadId) state (threadLog blocks none) ∧
      state.stamp.len = (threadBytes env threadId (threadLog blocks none)).length ∧
      ∀ new w, (RolloutWriter.fromState state (threadRelative identityId threadId)
          ⟨threadId, request.windowId, request.generation⟩ request.turn request.turnId).openTurn env state
          ⟨threadId, request.windowId, request.generation⟩ request.turn request.events = .ok w →
        Writes env threadId (fun _ => True) False drafts (threadRelative identityId threadId)
        (threadLog blocks none) new []
          w →
        ∃ t', t.begun env identityId threadId request = .ok t' ∧ t'.writer = some (flushWriter env w store).1 ∧
          threadEvents env identityId threadId t' = threadEvents env identityId threadId t ++ new ∧
          (OpenBlock env w.turnId new →
            Good env threadId (threadRelative identityId threadId) (fun _ => True) False drafts t' blocks (some new)) := by
  obtain ⟨state, store, hresolve, hstate, hlen, hdisk, hremembers⟩ :=
    resolveThreadSource_thread hid hthread hserde h.disk h.wellFormed
      (fun draft hdraft => (hback draft hdraft).readable _) nofun h.remembers
  refine ⟨state, store, hresolve, hstate, hlen, fun new w hopen hw => ?_⟩
  have hbegin : beginTurn env identityId ⟨threadId, request.windowId, request.generation⟩ request.turn request.turnId
      request.events t.store = .ok (w, store) := by
    simp only [beginTurn, hid, hthread, Bool.not_true, Bool.false_eq_true, ↓reduceIte, hresolve, bind, Except.bind,
      hstate.relativePath, checked_threadRelative hid hthread, checked_indexRelative hid hthread, hopen]
  have hbegun : t.begun env identityId threadId request =
      .ok { t with store := (flushWriter env w store).2, writer := some (flushWriter env w store).1 } := by
    simp only [Thread.begun, hbegin, bind, Except.bind]
  have hbefore : store.disk = threadDisk env (threadRelative identityId threadId)
      (threadTexts env threadId (closedLog blocks) ++ []) := by
    rw [hdisk, List.append_nil]
    exact h.disk
  obtain ⟨-, hafter⟩ := hw.flush hbefore
  have hnew : WellFormed env drafts ((some ((threadLog blocks none).getD [] ++ new)).getD []) := hw.wellFormed
  refine ⟨_, hbegun, rfl, ?_, fun hblock => h.extend (past_append _ _) hw hblock hbefore hremembers⟩
  rw [threadEvents_log hthread hserde h.disk h.wellFormed hback]
  exact threadEvents_log hthread hserde hafter hnew hback

theorem Good.begun_context {t : Thread} {blocks : List Log}
    (h : Good env threadId (threadRelative identityId threadId) (fun _ => True) False drafts t blocks none)
    (hid : isSafePathSegment identityId = true) (hthread : isSafePathSegment threadId = true)
    (hserde : env.serde.Lawful) (hback : ∀ draft ∈ drafts, ReadsBack env draft)
    (hcollision : NoCollision env drafts) {request : TurnRequest}
    (hdrafts : ∀ draft ∈ request.events, draft ∈ drafts) :
    ∃ state store t', resolveThreadSource env t.store identityId threadId = .ok (state, store) ∧
      t.begun env identityId threadId request = .ok t' ∧
      (FaithfulContext env (threadEvents env identityId threadId t') request.events ↔
        KeysMatch env state.itemRefs (threadEvents env identityId threadId t) request.events) := by
  obtain ⟨state, store, hresolve, hstate, hlen, hbegin⟩ := h.begun_of_open hid hthread hserde hback request
  obtain ⟨new, w, hopen, hw, hiff⟩ :=
    Writes.openTurn_context ⟨threadId, request.windowId, request.generation⟩ request.turn request.turnId hstate hlen
      h.wellFormed rfl hserde hback hcollision hdrafts
  obtain ⟨t', hbegun, -, hevents, -⟩ := hbegin new w hopen hw
  refine ⟨state, store, t', hresolve, hbegun, ?_⟩
  rw [hevents, threadEvents_log hthread hserde h.disk h.wellFormed hback]
  exact hiff

/-- When all content is read back as it is, a begin in a thread without an open turn writes a faithful context if and
only if the item ids of its drafts tell the truth. -/
theorem context_faithful_iff (hid : isSafePathSegment identityId = true) (hthread : isSafePathSegment threadId = true)
    (hserde : env.serde.Lawful) (ops : List ThreadOp) (request : TurnRequest)
    (hcollision : NoCollision env {draft | (∃ op ∈ ops, draft ∈ op.drafts) ∨ draft ∈ request.events})
    (hreads : ReadsBackOps env (ops ++ [ThreadOp.beginTurn request]))
    (hw : (Thread.run env identityId threadId ops).writer = none) :
    ∃ state store t, resolveThreadSource env (Thread.run env identityId threadId ops).store identityId threadId =
        .ok (state, store) ∧
      (Thread.run env identityId threadId ops).begun env identityId threadId request = .ok t ∧
      (FaithfulContext env (threadEvents env identityId threadId t) request.events ↔
        KeysMatch env state.itemRefs
          (threadEvents env identityId threadId (Thread.run env identityId threadId ops)) request.events) := by
  have hback := hreads.readsBack
  obtain ⟨blocks, current, h⟩ : ∃ blocks current, Good env threadId (threadRelative identityId threadId) (fun _ => True)
      False {draft | (∃ op ∈ ops, draft ∈ op.drafts) ∨ draft ∈ request.events} (Thread.run env identityId threadId ops)
      blocks current :=
    run_good hid hthread hserde (fun draft hdraft => (hback draft hdraft).readable _) nofun ops
      (fun op hop draft hdraft => .inl ⟨op, hop, hdraft⟩)
  obtain rfl := h.idle hw
  exact h.begun_context hid hthread hserde hback hcollision (fun draft hdraft => .inr hdraft)

end context

def itemOps (text : String) : List ThreadOp :=
  [.beginTurn (sampleTurn "turn_1" [itemMessage "msg_0" text]), .finish .completed (some 200) none]

theorem itemOps_drafts {text text' : String} {draft : ContentDraft}
    (h : (∃ op ∈ itemOps text, draft ∈ op.drafts) ∨ draft ∈ (sampleTurn "turn_2" [itemMessage "msg_0" text']).events) :
    draft = itemMessage "msg_0" text ∨ draft = itemMessage "msg_0" text' := by
  simpa [itemOps, ThreadOp.drafts, sampleTurn] using h

theorem itemOps_writer : (Thread.run limitedEnv "identity-1" "thread-1" (itemOps "a")).writer.isNone = true := by
  decide +kernel

theorem context_faithful_same_item :
    (Thread.run limitedEnv "identity-1" "thread-1" (itemOps "a")).writer.isNone = true ∧
    ∃ state store t, resolveThreadSource limitedEnv (Thread.run limitedEnv "identity-1" "thread-1" (itemOps "a")).store
        "identity-1" "thread-1" = .ok (state, store) ∧
      (Thread.run limitedEnv "identity-1" "thread-1" (itemOps "a")).begun limitedEnv "identity-1" "thread-1"
        (sampleTurn "turn_2" [itemMessage "msg_0" "a"]) = .ok t ∧
      (FaithfulContext limitedEnv (threadEvents limitedEnv "identity-1" "thread-1" t) [itemMessage "msg_0" "a"] ↔
        KeysMatch limitedEnv state.itemRefs (threadEvents limitedEnv "identity-1" "thread-1"
          (Thread.run limitedEnv "identity-1" "thread-1" (itemOps "a"))) [itemMessage "msg_0" "a"]) := by
  refine ⟨itemOps_writer, context_faithful_iff (by decide) (by decide) limitedEnv_lawful (itemOps "a")
    (sampleTurn "turn_2" [itemMessage "msg_0" "a"]) ?_ (by decide +kernel) (Option.isNone_iff_eq_none.mp itemOps_writer)⟩
  intro a ha b hb _
  rcases itemOps_drafts ha with rfl | rfl <;> rcases itemOps_drafts hb with rfl | rfl <;> rfl

/-- The second turn has another text under the id of the first one. -/
theorem context_refers_to_old_text :
    ∃ t, (Thread.run limitedEnv "identity-1" "thread-1" (itemOps "a")).begun limitedEnv "identity-1" "thread-1"
        (sampleTurn "turn_2" [itemMessage "msg_0" "b"]) = .ok t ∧
      ¬FaithfulContext limitedEnv (threadEvents limitedEnv "identity-1" "thread-1" t) [itemMessage "msg_0" "b"] := by
  have hidle := Option.isNone_iff_eq_none.mp itemOps_writer
  have hdistinct : limitedEnv.sha256 (draftCanonical limitedEnv (itemMessage "msg_0" "a")) ≠
      limitedEnv.sha256 (draftCanonical limitedEnv (itemMessage "msg_0" "b")) := by decide +kernel
  have hpayload : comparisonPayload (storedPayload limitedEnv (itemMessage "msg_0" "a").body.members) ≠
      comparisonPayload (storedPayload limitedEnv (itemMessage "msg_0" "b").body.members) := by decide +kernel
  have hknown : (resolveThreadSource limitedEnv (Thread.run limitedEnv "identity-1" "thread-1" (itemOps "a")).store
      "identity-1" "thread-1").toOption.bind (fun found => found.1.itemRefs["message:msg_0"]?) = some 3 := by
    decide +kernel
  have hback : ∀ draft ∈ ({itemMessage "msg_0" "a", itemMessage "msg_0" "b"} : Set ContentDraft),
      ReadsBack limitedEnv draft := by
    rintro draft (rfl | rfl) <;> decide +kernel
  have hold : ∀ draft ∈ ({itemMessage "msg_0" "a"} : Set ContentDraft), ReadsBack limitedEnv draft :=
    fun draft hdraft => hback draft (Or.inl hdraft)
  -- all content of the first turn has the old text
  obtain ⟨blocks, current, h₁⟩ : ∃ blocks current, Good limitedEnv "thread-1"
      (threadRelative "identity-1" "thread-1") (fun _ => True) False {itemMessage "msg_0" "a"}
      (Thread.run limitedEnv "identity-1" "thread-1" (itemOps "a")) blocks current :=
    run_good (by decide) (by decide) limitedEnv_lawful (fun draft hdraft => (hold draft hdraft).readable _) nofun
      (itemOps "a")
      (by simp [itemOps, ThreadOp.drafts, sampleTurn])
  obtain rfl := h₁.idle hidle
  have hevents : threadEvents limitedEnv "identity-1" "thread-1"
      (Thread.run limitedEnv "identity-1" "thread-1" (itemOps "a")) = _ :=
    threadEvents_log (by decide) limitedEnv_lawful h₁.disk h₁.wellFormed hold
  obtain ⟨blocks', current', h⟩ : ∃ blocks current, Good limitedEnv "thread-1"
      (threadRelative "identity-1" "thread-1") (fun _ => True) False {itemMessage "msg_0" "a", itemMessage "msg_0" "b"}
      (Thread.run limitedEnv "identity-1" "thread-1" (itemOps "a")) blocks current :=
    run_good (by decide) (by decide) limitedEnv_lawful (fun draft hdraft => (hback draft hdraft).readable _) nofun
      (itemOps "a")
      (by simp [itemOps, ThreadOp.drafts, sampleTurn])
  obtain rfl := h.idle hidle
  have hcollision : NoCollision limitedEnv {itemMessage "msg_0" "a", itemMessage "msg_0" "b"} := by
    rintro a (rfl | rfl) b (rfl | rfl) heq
    · rfl
    · exact absurd heq hdistinct
    · exact absurd heq.symm hdistinct
    · rfl
  have hnew : ∀ draft ∈ (sampleTurn "turn_2" [itemMessage "msg_0" "b"]).events,
      draft ∈ ({itemMessage "msg_0" "a", itemMessage "msg_0" "b"} : Set ContentDraft) := by
    intro draft hdraft
    exact .inr (List.mem_singleton.mp hdraft)
  obtain ⟨state, store, t, hresolve, hbegun, hiff⟩ :=
    h.begun_context (by decide) (by decide) limitedEnv_lawful hback hcollision hnew
  refine ⟨t, hbegun, ?_⟩
  intro hfaithful
  have hkeys := hiff.mp hfaithful
  rw [hresolve] at hknown
  obtain ⟨event, hevent, htype, hcontent⟩ := hkeys.known _ (List.mem_singleton.mpr rfl) "message:msg_0" 3 rfl hknown
  rw [hevents] at hevent
  obtain ⟨draft, hdraft, -, hstored⟩ :=
    h₁.wellFormed.drafted (List.mem_of_find?_eq_some hevent) (by rw [htype]; rfl)
  rw [Set.mem_singleton_iff.mp hdraft] at hstored
  rw [hstored] at hcontent
  exact hpayload hcontent

end Prelay.Rollout
