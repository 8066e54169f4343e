import Prelay.RereadEvents

namespace Prelay.Rollout

open Json

abbrev Log := List ConversationEvent

def logLines : Option Log → ℕ
  | none => 0
  | some log => log.length + 1

def identityOf (env : Env) (event : ConversationEvent) : Bytes := eventIdentity env event.eventType event.payload

section replay

variable (env : Env) (path : String)

def replay (log : Log) : ThreadState := log.foldl (ThreadState.observe env) (ThreadState.empty path)

theorem replay_append (log : Log) (event : ConversationEvent) :
    replay env path (log ++ [event]) = (replay env path log).observe env event := by
  simp [replay]

theorem replay_path (log : Log) : (replay env path log).relativePath = path := by
  induction log using List.reverseRecOn with
  | nil => rfl
  | append_singleton log event ih =>
    rw [replay_append, ThreadState.observe]
    split_ifs <;> exact ih

theorem contentHash_append (log : Log) (event : ConversationEvent) :
    ContentHash.fromEvents env (log ++ [event]) = if isContentEvent event.eventType
      then (ContentHash.fromEvents env log).append env event.eventType event.payload
      else ContentHash.fromEvents env log := by
  by_cases hcontent : isContentEvent event.eventType = true
  · simp [ContentHash.fromEvents, hcontent]
  · simp [ContentHash.fromEvents, hcontent]

theorem replay_eventRefs (log : Log) (identity : Bytes) (seq : ℕ)
    (h : seq ∈ (replay env path log).eventRefs.getD identity []) :
    ∃ event ∈ log, event.seq = seq ∧ isContentEvent event.eventType = true ∧
      identityOf env event = identity := by
  induction log using List.reverseRecOn with
  | nil => simp [replay, ThreadState.empty] at h
  | append_singleton log event ih =>
    have hearlier : seq ∈ (replay env path log).eventRefs.getD identity [] → ∃ e ∈ log ++ [event],
        e.seq = seq ∧ isContentEvent e.eventType = true ∧ identityOf env e = identity := by
      intro hseq
      obtain ⟨e, he, hrest⟩ := ih hseq
      exact ⟨e, List.mem_append_left _ he, hrest⟩
    rw [replay_append, ThreadState.observe] at h
    split_ifs at h with hwindow hcontent
    · simp at h
    · simp only [pushRef, Std.ExtTreeMap.getD_insert] at h
      split_ifs at h with heq
      · rw [Std.LawfulEqCmp.compare_eq_iff_eq] at heq
        rcases List.mem_append.mp h with h | h
        · exact hearlier (heq ▸ h)
        · exact ⟨event, by simp, (List.mem_singleton.mp h).symm, hcontent, heq⟩
      · exact hearlier h
    · exact hearlier h

theorem replay_itemRefs (log : Log) {event : ConversationEvent} {id : String} (hevent : event ∈ log)
    (hcontent : isContentEvent event.eventType = true)
    (hid : storedItemId event.eventType event.payload = some id) :
    (replay env path log).itemRefs[itemRefKey event.eventType id]? ≠ none := by
  induction log using List.reverseRecOn with
  | nil => exact nomatch hevent
  | append_singleton log last ih =>
    have hkeep : (replay env path log).itemRefs[itemRefKey event.eventType id]? ≠ none →
        (replay env path (log ++ [last])).itemRefs[itemRefKey event.eventType id]? ≠ none := by
      intro hknown
      rw [replay_append, ThreadState.observe]
      split_ifs with hwindow hlast
      · exact hknown
      · cases hstored : storedItemId last.eventType last.payload with
        | none => simpa only [hstored] using hknown
        | some other =>
          simp only [Std.ExtTreeMap.getElem?_insert]
          split_ifs with heq
          · exact nofun
          · exact hknown
      · exact hknown
    rcases List.mem_append.mp hevent with hmem | hmem
    · exact hkeep (ih hmem)
    · obtain rfl := List.mem_singleton.mp hmem
      have hwindow : event.eventType ≠ "window" := by
        intro heq
        rw [heq] at hcontent
        exact absurd hcontent (by decide)
      rw [replay_append, ThreadState.observe, if_neg hwindow, if_pos hcontent]
      simp [hid]

theorem replay_itemSeqs (log : Log) {key : String} {seq : ℕ} (h : (replay env path log).itemRefs[key]? = some seq) :
    ∃ event ∈ log, event.seq = seq := by
  induction log using List.reverseRecOn with
  | nil => simp [replay, ThreadState.empty] at h
  | append_singleton log event ih =>
    have hearlier : (replay env path log).itemRefs[key]? = some seq → ∃ e ∈ log ++ [event], e.seq = seq := by
      intro hseq
      obtain ⟨e, he, hrest⟩ := ih hseq
      exact ⟨e, List.mem_append_left _ he, hrest⟩
    rw [replay_append, ThreadState.observe] at h
    split_ifs at h with hwindow hcontent
    · exact hearlier h
    · cases hstored : storedItemId event.eventType event.payload with
      | none =>
        simp only [hstored] at h
        exact hearlier h
      | some id =>
        simp only [hstored, Std.ExtTreeMap.getElem?_insert] at h
        split_ifs at h with heq
        · exact ⟨event, by simp, Option.some.inj h⟩
        · exact hearlier h
    · exact hearlier h

theorem observe_reread (hserde : env.serde.Lawful) (state : ThreadState) (refs : Std.ExtTreeMap Bytes (List ℕ))
    (event : ConversationEvent) :
    ∃ refs', ThreadState.observe env { state with eventRefs := refs } (rereadEvent env event) =
      { state.observe env event with eventRefs := refs' } := by
  simp only [ThreadState.observe, rereadEvent, windowStateOf_mapNumbers hserde.keepsIntegers, storedItemId_mapNumbers]
  split_ifs
  · exact ⟨_, rfl⟩
  · exact ⟨_, rfl⟩
  · exact ⟨_, rfl⟩

/-- Reading a log again changes no more than under which digests its content is found. -/
theorem replay_reread (hserde : env.serde.Lawful) (log : Log) :
    ∃ refs, replay env path (log.map (rereadEvent env)) = { replay env path log with eventRefs := refs } := by
  induction log using List.reverseRecOn with
  | nil => exact ⟨_, rfl⟩
  | append_singleton log event ih =>
    obtain ⟨refs, hrefs⟩ := ih
    rw [List.map_append, List.map_singleton, replay_append, replay_append, hrefs]
    exact observe_reread env hserde _ refs event

theorem replay_eventRefs_reread (log : Log) {identity : Bytes}
    (h : ∀ event ∈ log, isContentEvent event.eventType = true →
      (identityOf env (rereadEvent env event) = identity ↔ identityOf env event = identity)) :
    (replay env path (log.map (rereadEvent env))).eventRefs[identity]? = (replay env path log).eventRefs[identity]? := by
  induction log using List.reverseRecOn with
  | nil => rfl
  | append_singleton log event ih =>
    have hlog := ih (fun e he => h e (List.mem_append_left _ he))
    rw [List.map_append, List.map_singleton, replay_append, replay_append, ThreadState.observe, ThreadState.observe]
    by_cases hwindow : event.eventType = "window"
    · rw [if_pos (show (rereadEvent env event).eventType = "window" from hwindow), if_pos hwindow]
    · rw [if_neg (show ¬(rereadEvent env event).eventType = "window" from hwindow), if_neg hwindow]
      by_cases hcontent : isContentEvent event.eventType = true
      · have hevent := h event (by simp) hcontent
        rw [if_pos (show isContentEvent (rereadEvent env event).eventType = true from hcontent), if_pos hcontent]
        simp only [identityOf, rereadEvent] at hevent
        simp only [rereadEvent, pushRef, Std.ExtTreeMap.getElem?_insert, Std.LawfulEqCmp.compare_eq_iff_eq,
          Std.ExtTreeMap.getD_eq_getD_getElem?, hevent]
        by_cases hidentity : eventIdentity env event.eventType event.payload = identity
        · rw [if_pos hidentity, if_pos hidentity, hevent.mpr hidentity, hidentity, hlog]
        · rw [if_neg hidentity, if_neg hidentity, hlog]
      · rw [if_neg (show ¬isContentEvent (rereadEvent env event).eventType = true from hcontent), if_neg hcontent]
        exact hlog

end replay

def Written (env : Env) (drafts : Set ContentDraft) (event : ConversationEvent) : Prop :=
  (∃ body : ControlEventBody, event.eventType = body.eventType ∧ event.payload = storedPayload env body.members) ∨
    ∃ draft ∈ drafts, event.eventType = draft.body.eventType ∧ event.payload = storedPayload env draft.body.members

structure WellFormed (env : Env) (drafts : Set ContentDraft) (log : Log) : Prop where
  numbered : Numbered log
  written : ∀ event ∈ log, Written env drafts event

/-- A draft that each of the digests that are kept finds after its line is read if and only if it does before. -/
def KeepsDigests (keeps : Bytes → Prop) (env : Env) (draft : ContentDraft) : Prop :=
  ∀ identity, keeps identity →
    (eventIdentity env draft.body.eventType ((storedPayload env draft.body.members).mapNumbers env.serde.reread) =
      identity ↔ eventIdentity env draft.body.eventType (storedPayload env draft.body.members) = identity)

structure Readable (keeps : Bytes → Prop) (env : Env) (draft : ContentDraft) : Prop where
  shallow : Shallow env draft
  kept : KeepsDigests keeps env draft

/-- A state of a thread whose log is given; with `dedup` also what only deduplication uses, and otherwise the places of
the digests that are kept. -/
structure Describes (keeps : Bytes → Prop) (dedup : Prop) (env : Env) (path : String) (state : ThreadState)
    (log : Option Log) : Prop where
  relativePath : state.relativePath = path
  format : log.isSome = true → state.format = .v1
  lineCount : state.lineCount = logLines log
  seq : state.seq = (log.getD []).length
  window : state.window = (replay env path (log.getD [])).window
  eventRefs : ∀ identity, dedup ∨ keeps identity →
    state.eventRefs[identity]? = (replay env path (log.getD [])).eventRefs[identity]?
  eventSeqs : ∀ (identity : Bytes) (seq : ℕ), seq ∈ state.eventRefs.getD identity [] →
    ∃ event ∈ log.getD [], event.seq = seq
  contentEventCount : state.contentEventCount = (replay env path (log.getD [])).contentEventCount
  content : dedup → state.content = ContentHash.fromEvents env (log.getD [])
  itemRefs : dedup → state.itemRefs = (replay env path (log.getD [])).itemRefs
  itemSeqs : ∀ (key : String) (seq : ℕ), state.itemRefs[key]? = some seq → ∃ event ∈ log.getD [], event.seq = seq

section written

variable {env : Env} {drafts : Set ContentDraft} {log : Log} {event : ConversationEvent}

theorem keepsDigests_none (env : Env) (draft : ContentDraft) : KeepsDigests (fun _ => False) env draft :=
  fun _ hkeeps => hkeeps.elim

theorem Shallow.readable {draft : ContentDraft} (h : Shallow env draft) : Readable (fun _ => False) env draft :=
  ⟨h, keepsDigests_none env draft⟩

theorem ReadsBack.keepsDigests {draft : ContentDraft} (h : ReadsBack env draft) (keeps : Bytes → Prop) :
    KeepsDigests keeps env draft :=
  fun identity _ => by rw [h.kept]

theorem ReadsBack.readable {draft : ContentDraft} (h : ReadsBack env draft) (keeps : Bytes → Prop) :
    Readable keeps env draft :=
  ⟨h.shallow, h.keepsDigests keeps⟩

theorem control_eventType (body : ControlEventBody) : isContentEvent body.eventType = false := by
  cases body <;> rfl

theorem Written.made (h : Written env drafts event) : Made event := by
  rcases h with ⟨body, htype, hpayload⟩ | ⟨draft, -, htype, hpayload⟩
  · refine ⟨hpayload ▸ storedPayload_normal env _, ?_⟩
    rw [htype]
    cases body <;> exact of_decide_eq_true rfl
  · refine ⟨hpayload ▸ storedPayload_normal env _, ?_⟩
    rw [htype]
    cases draft.body <;> exact of_decide_eq_true rfl

theorem Written.stored (h : Written env drafts event) (hdrafts : ∀ draft ∈ drafts, Shallow env draft) :
    Stored event := by
  refine ⟨h.made, ?_⟩
  rcases h with ⟨body, -, hpayload⟩ | ⟨draft, hdraft, -, hpayload⟩
  · rw [hpayload]
    exact (Nat.add_le_add_right (control_flat env body).depth_le 1).trans_lt (by decide)
  · rw [hpayload]
    exact hdrafts draft hdraft

theorem Written.drafted (h : Written env drafts event) (hcontent : isContentEvent event.eventType = true) :
    ∃ draft ∈ drafts, event.eventType = draft.body.eventType ∧ event.payload = storedPayload env draft.body.members := by
  rcases h with ⟨body, htype, -⟩ | hdraft
  · rw [htype, control_eventType] at hcontent
    exact absurd hcontent Bool.false_ne_true
  · exact hdraft

theorem Written.reread_eq (h : Written env drafts event) (hserde : env.serde.Lawful)
    (hdrafts : ∀ draft ∈ drafts, ReadsBack env draft) : rereadEvent env event = event := by
  have hpayload : event.payload.mapNumbers env.serde.reread = event.payload := by
    rcases h with ⟨body, -, hpayload⟩ | ⟨draft, hdraft, -, hpayload⟩
    · rw [hpayload, (control_flat env body).kept _ hserde.keepsIntegers]
    · rw [hpayload, (hdrafts draft hdraft).kept]
  rw [rereadEvent, hpayload]

theorem WellFormed.stored (h : WellFormed env drafts log) (hdrafts : ∀ draft ∈ drafts, Shallow env draft) :
    ∀ event ∈ log, Stored event :=
  fun event hevent => (h.written event hevent).stored hdrafts

theorem WellFormed.drafted (h : WellFormed env drafts log) {event : ConversationEvent} (hevent : event ∈ log)
    (hcontent : isContentEvent event.eventType = true) :
    ∃ draft ∈ drafts, event.eventType = draft.body.eventType ∧ event.payload = storedPayload env draft.body.members :=
  (h.written event hevent).drafted hcontent

theorem WellFormed.reread_eq (h : WellFormed env drafts log) (hserde : env.serde.Lawful)
    (hdrafts : ∀ draft ∈ drafts, ReadsBack env draft) : log.map (rereadEvent env) = log :=
  map_eq_self_iff.mpr (fun event hevent => (h.written event hevent).reread_eq hserde hdrafts)

theorem WellFormed.mono {drafts' : Set ContentDraft} (h : WellFormed env drafts log) (hdrafts : drafts ⊆ drafts') :
    WellFormed env drafts' log where
  numbered := h.numbered
  written := by
    intro event hevent
    rcases h.written event hevent with hcontrol | ⟨draft, hdraft, hrest⟩
    · exact .inl hcontrol
    · exact .inr ⟨draft, hdrafts hdraft, hrest⟩

theorem WellFormed.kept {keeps : Bytes → Prop} (h : WellFormed env drafts log)
    (hdrafts : ∀ draft ∈ drafts, KeepsDigests keeps env draft) {identity : Bytes} (hidentity : keeps identity) :
    ∀ event ∈ log, isContentEvent event.eventType = true →
      (identityOf env (rereadEvent env event) = identity ↔ identityOf env event = identity) := by
  intro event hevent hcontent
  obtain ⟨draft, hdraft, htype, hpayload⟩ := h.drafted hevent hcontent
  rw [identityOf, rereadEvent, identityOf, htype, hpayload]
  exact hdrafts draft hdraft identity hidentity

end written

section describes

variable {env : Env} {path : String} {keeps : Bytes → Prop} {dedup : Prop}

theorem WellFormed.append {drafts : Set ContentDraft} {log : Log} {event : ConversationEvent}
    (h : WellFormed env drafts log) (hseq : event.seq = log.length + 1) (hevent : Written env drafts event) :
    WellFormed env drafts (log ++ [event]) where
  numbered := by
    have hnumbered := h.numbered
    unfold Numbered at hnumbered ⊢
    rw [List.map_append, hnumbered, List.length_append, List.map_singleton, List.length_singleton,
      List.range'_concat, hseq]
    simp [Nat.add_comm]
  written := by
    intro e he
    rcases List.mem_append.mp he with he | he
    · exact h.written e he
    · rw [List.mem_singleton.mp he]
      exact hevent

theorem Describes.empty (keeps : Bytes → Prop) (dedup : Prop) (env : Env) (path : String) :
    Describes keeps dedup env path (ThreadState.empty path) none :=
  ⟨rfl, nofun, rfl, rfl, rfl, fun _ _ => rfl, by simp [ThreadState.empty], rfl, fun _ => rfl, fun _ => rfl,
    by simp [ThreadState.empty]⟩

theorem Describes.fromEvents (hserde : env.serde.Lawful) {log : Log} (stamp : FileStamp)
    (hkept : ∀ identity, keeps identity → ∀ event ∈ log, isContentEvent event.eventType = true →
      (identityOf env (rereadEvent env event) = identity ↔ identityOf env event = identity))
    (hback : dedup → log.map (rereadEvent env) = log) :
    Describes keeps dedup env path
      (ThreadState.fromEvents env path stamp .v1 (log.map (rereadEvent env)) (log.length + 1) log.length) (some log) := by
  obtain ⟨refs, hrefs⟩ := replay_reread env path hserde log
  have hwindow : (replay env path (log.map (rereadEvent env))).window = (replay env path log).window := by rw [hrefs]
  have hcount : (replay env path (log.map (rereadEvent env))).contentEventCount =
      (replay env path log).contentEventCount := by rw [hrefs]
  have hitemRefs : (replay env path (log.map (rereadEvent env))).itemRefs = (replay env path log).itemRefs := by
    rw [hrefs]
  have hseqs : ∀ seq, (∃ event ∈ log.map (rereadEvent env), event.seq = seq) → ∃ event ∈ log, event.seq = seq := by
    rintro seq ⟨event, hevent, rfl⟩
    obtain ⟨e, he, rfl⟩ := List.mem_map.mp hevent
    exact ⟨e, he, rfl⟩
  refine ⟨replay_path env path _, fun _ => rfl, rfl, rfl, ?_, ?_, ?_, ?_, ?_, ?_, ?_⟩
  · exact hwindow
  · rintro identity (hdedup | hidentity)
    · exact congrArg (fun log => (replay env path log).eventRefs[identity]?) (hback hdedup)
    · exact replay_eventRefs_reread env path log (hkept identity hidentity)
  · intro identity seq hseq
    obtain ⟨event, hevent, hfound, -⟩ := replay_eventRefs env path _ identity seq hseq
    exact hseqs seq ⟨event, hevent, hfound⟩
  · exact hcount
  · exact fun hdedup => congrArg (ContentHash.fromEvents env) (hback hdedup)
  · exact fun _ => hitemRefs
  · exact fun key seq hseq => hseqs seq (replay_itemSeqs env path _ hseq)

theorem observe_eventSeqs {state : ThreadState} {event : ConversationEvent} {identity : Bytes} {seq : ℕ}
    (h : seq ∈ (state.observe env event).eventRefs.getD identity []) :
    seq ∈ state.eventRefs.getD identity [] ∨ seq = event.seq := by
  unfold ThreadState.observe at h
  split_ifs at h with hwindow hcontent
  · simp at h
  · simp only [pushRef, Std.ExtTreeMap.getD_insert] at h
    split_ifs at h with heq
    · rw [Std.LawfulEqCmp.compare_eq_iff_eq] at heq
      rcases List.mem_append.mp h with h | h
      · exact .inl (heq ▸ h)
      · exact .inr (List.mem_singleton.mp h)
    · exact .inl h
  · exact .inl h

theorem observe_eventRefs {state state' : ThreadState} (event : ConversationEvent) {identity : Bytes}
    (h : state.eventRefs[identity]? = state'.eventRefs[identity]?) :
    (state.observe env event).eventRefs[identity]? = (state'.observe env event).eventRefs[identity]? := by
  unfold ThreadState.observe
  split_ifs with hwindow hcontent
  · rfl
  · simp only [pushRef, Std.ExtTreeMap.getElem?_insert, Std.LawfulEqCmp.compare_eq_iff_eq,
      Std.ExtTreeMap.getD_eq_getD_getElem?]
    split_ifs with hidentity
    · rw [hidentity, h]
    · exact h
  · exact h

theorem Describes.append {state state' : ThreadState} {log : Log} {event : ConversationEvent}
    (h : Describes keeps dedup env path state (some log)) (hpath : state'.relativePath = state.relativePath)
    (hformat : state'.format = state.format) (hline : state'.lineCount = state.lineCount + 1)
    (hseq : state'.seq = state.seq + 1) (hwindow : state'.window = (state.observe env event).window)
    (heventRefs : state'.eventRefs = (state.observe env event).eventRefs)
    (hcount : state'.contentEventCount = (state.observe env event).contentEventCount)
    (hcontent : dedup → state'.content = if isContentEvent event.eventType
      then state.content.append env event.eventType event.payload else state.content)
    (hitemRefs : dedup → state'.itemRefs = (state.observe env event).itemRefs)
    (hitemSeqs : ∀ (key : String) (seq : ℕ), state'.itemRefs[key]? = some seq → state.itemRefs[key]? = some seq ∨
      seq = event.seq) :
    Describes keeps dedup env path state' (some (log ++ [event])) where
  relativePath := hpath.trans h.relativePath
  format := fun hsome => hformat.trans (h.format hsome)
  lineCount := by
    rw [hline, h.lineCount]
    simp [logLines]
  seq := by
    rw [hseq, h.seq]
    simp
  window := by
    rw [hwindow, Option.getD_some, replay_append]
    have hold := h.window
    unfold ThreadState.observe
    split_ifs
    · rfl
    · exact hold
    · exact hold
  eventRefs := by
    intro identity hidentity
    rw [heventRefs, Option.getD_some, replay_append]
    exact observe_eventRefs event (h.eventRefs identity hidentity)
  eventSeqs := by
    intro identity seq hseq
    rw [heventRefs] at hseq
    rcases observe_eventSeqs hseq with hold | rfl
    · obtain ⟨e, he, hrest⟩ := h.eventSeqs identity seq hold
      exact ⟨e, List.mem_append_left _ he, hrest⟩
    · exact ⟨event, by simp, rfl⟩
  contentEventCount := by
    rw [hcount, Option.getD_some, replay_append]
    have hold := h.contentEventCount
    unfold ThreadState.observe
    split_ifs
    · exact hold
    · simp only [hold, Option.getD_some]
    · exact hold
  content := by
    intro hdedup
    rw [hcontent hdedup, h.content hdedup, Option.getD_some, Option.getD_some, contentHash_append]
  itemRefs := by
    intro hdedup
    rw [hitemRefs hdedup, Option.getD_some, replay_append]
    have hold := h.itemRefs hdedup
    unfold ThreadState.observe
    split_ifs
    · exact hold
    · simp only [hold, Option.getD_some]
    · exact hold
  itemSeqs := by
    intro key seq hseq
    rcases hitemSeqs key seq hseq with hold | rfl
    · obtain ⟨e, he, hrest⟩ := h.itemSeqs key seq hold
      exact ⟨e, List.mem_append_left _ he, hrest⟩
    · exact ⟨event, by simp, rfl⟩

end describes

end Prelay.Rollout
