import Mathlib.Data.List.DropRight
import Prelay.ContextFaithful
import Prelay.SegmentedRun
import Prelay.TextDrafts

namespace Prelay.Rollout

open Json

def windowEvents (log : Log) : Log := log.rtakeWhile (fun event => event.eventType ≠ "window")

def windowContent (log : Log) : Log := (windowEvents log).filter (fun event => isContentEvent event.eventType)

section identity

variable (env : Env)

def draftIdentity (draft : ContentDraft) : Bytes :=
  eventIdentity env draft.body.eventType (storedPayload env draft.body.members)

def windowRefs (log : Log) (identity : Bytes) : List ℕ :=
  ((windowContent log).filter (fun event => identityOf env event = identity)).map ConversationEvent.seq

def storedCount (log : Log) (identity : Bytes) : ℕ := ((windowContent log).map (identityOf env)).count identity

def draftCount (drafts : List ContentDraft) (identity : Bytes) : ℕ := (drafts.map (draftIdentity env)).count identity

end identity

def NoItemId (draft : ContentDraft) : Prop :=
  match draft.body with
  | .message _ | .reasoning _ => draft.itemId = none
  | _ => False

section log

variable {env : Env}

theorem windowEvents_append (log : Log) {added : Log} (h : ∀ event ∈ added, event.eventType ≠ "window") :
    windowEvents (log ++ added) = windowEvents log ++ added := by
  induction added using List.reverseRecOn with
  | nil => rw [List.append_nil, List.append_nil]
  | append_singleton added event ih =>
    have hevent : decide (event.eventType ≠ "window") = true := decide_eq_true (h event (by simp))
    have hadded := ih (fun e he => h e (List.mem_append_left _ he))
    rw [windowEvents] at hadded ⊢
    rw [← List.append_assoc, List.rtakeWhile_concat, if_pos hevent, hadded, List.append_assoc]

theorem windowEvents_window (log : Log) {event : ConversationEvent} (h : event.eventType = "window") :
    windowEvents (log ++ [event]) = [] := by
  rw [windowEvents, List.rtakeWhile_concat_neg]
  simp [h]

theorem storedCount_append {log added : Log} (h : ∀ event ∈ added, event.eventType ≠ "window") (identity : Bytes) :
    storedCount env (log ++ added) identity = storedCount env log identity +
      ((added.filter (fun event => isContentEvent event.eventType)).map (identityOf env)).count identity := by
  rw [storedCount, windowContent, windowEvents_append log h, List.filter_append, List.map_append, List.count_append]
  rfl

theorem length_windowRefs (log : Log) (identity : Bytes) :
    (windowRefs env log identity).length = storedCount env log identity := by
  rw [windowRefs, List.length_map, storedCount, List.count, List.countP_map, List.countP_eq_length_filter]
  apply congrArg List.length
  apply List.filter_congr
  intro event _
  rw [Function.comp_apply, Bool.beq_eq_decide_eq]

theorem replay_windowRefs (path : String) (log : Log) (identity : Bytes) :
    (replay env path log).eventRefs.getD identity [] = windowRefs env log identity := by
  induction log using List.reverseRecOn with
  | nil => simp [replay, ThreadState.empty, windowRefs, windowContent, windowEvents]
  | append_singleton log event ih =>
    rw [replay_append, ThreadState.observe]
    split_ifs with hwindow hcontent
    · rw [windowRefs, windowContent, windowEvents_window log hwindow]
      simp
    · have hevents := windowEvents_append log (List.forall_mem_singleton.mpr hwindow)
      rw [windowRefs, windowContent, hevents, List.filter_append, List.filter_append, List.map_append, ← windowContent,
        ← windowRefs, ← ih]
      simp only [pushRef, Std.ExtTreeMap.getD_insert, Std.LawfulEqCmp.compare_eq_iff_eq]
      by_cases hidentity : eventIdentity env event.eventType event.payload = identity
      · rw [if_pos hidentity, hidentity]
        simp [hcontent, identityOf, hidentity]
      · rw [if_neg hidentity]
        simp [hcontent, identityOf, hidentity]
    · have hevents := windowEvents_append log (List.forall_mem_singleton.mpr hwindow)
      rw [windowRefs, windowContent, hevents, List.filter_append, List.filter_append, List.map_append, ← windowContent,
        ← windowRefs, ← ih]
      simp [hcontent]

theorem windowRefs_nodup {log : Log} (h : Numbered log) (identity : Bytes) : (windowRefs env log identity).Nodup := by
  have hsublist : List.Sublist ((windowContent log).filter (fun event => identityOf env event = identity)) log :=
    (List.filter_sublist.trans List.filter_sublist).trans (List.rtakeWhile_suffix _ _).sublist
  exact h.nodup.sublist (hsublist.map _)

end log

section refer

variable {env : Env} {w : RolloutWriter}

theorem NoItemId.key {draft : ContentDraft} (h : NoItemId draft) : draftKey draft.body.eventType draft = none := by
  obtain ⟨id, body⟩ := draft
  cases body with
  | message message =>
    obtain rfl : id = none := h
    rfl
  | reasoning reasoning =>
    obtain rfl : id = none := h
    rfl
  | toolCall toolCall => exact h.elim
  | toolResult toolResult => exact h.elim
  | usage usage => exact h.elim
  | error error => exact h.elim

theorem NoItemId.textType {draft : ContentDraft} (h : NoItemId draft) : draft.body.eventType ∈ textTypes := by
  obtain ⟨id, body⟩ := draft
  cases body with
  | message message => exact List.mem_cons_self
  | reasoning reasoning => exact List.mem_cons_of_mem _ List.mem_cons_self
  | toolCall toolCall => exact h.elim
  | toolResult toolResult => exact h.elim
  | usage usage => exact h.elim
  | error error => exact h.elim

theorem NoItemId.content {draft : ContentDraft} (h : NoItemId draft) : isContentEvent draft.body.eventType = true := by
  rcases List.mem_pair.mp h.textType with htype | htype
  · rw [htype]
    rfl
  · rw [htype]
    rfl

theorem referDraft_occurrence (hopen : w.finished = false) {draft : ContentDraft} (hdraft : NoItemId draft)
    {occurrences : Std.ExtTreeMap Bytes ℕ} {identity : Bytes} (hidentity : identity = draftIdentity env draft)
    (hle : occurrences.getD identity 0 ≤ (w.eventRefs.getD identity []).length) :
    ∃ ref w', w.referDraft env occurrences draft =
        .ok (ref, occurrences.insert identity (occurrences.getD identity 0 + 1), w') ∧ w'.finished = false ∧
      (w'.eventRefs.getD identity [])[occurrences.getD identity 0]? = some ref ∧
      (∀ other, w.eventRefs.getD other [] <+: w'.eventRefs.getD other []) ∧
      ∀ other, (w'.eventRefs.getD other []).length = if other = identity
        then max (w.eventRefs.getD identity []).length (occurrences.getD identity 0 + 1)
        else (w.eventRefs.getD other []).length := by
  rw [referDraft_eq hopen occurrences draft hidentity hdraft.key.symm]
  have hexisting : w.existingRef none identity (occurrences.getD identity 0) =
      (w.eventRefs.getD identity [])[occurrences.getD identity 0]? := rfl
  rw [hexisting]
  cases hfound : (w.eventRefs.getD identity [])[occurrences.getD identity 0]? with
  | some ref =>
    have hlt := (List.getElem?_eq_some_iff.mp hfound).1
    refine ⟨ref, w, rfl, hopen, hfound, fun _ => List.prefix_refl _, ?_⟩
    intro other
    split_ifs with heq
    · rw [heq, max_eq_left hlt]
    · rfl
  | none =>
    have hlength : (w.eventRefs.getD identity []).length = occurrences.getD identity 0 :=
      le_antisymm (List.getElem?_eq_none_iff.mp hfound) hle
    have hrefs : ∀ other, (w.recordEvent env draft.body.eventType (storedPayload env draft.body.members)
        true).eventRefs.getD other [] = if other = identity then w.eventRefs.getD identity [] ++ [w.seq + 1]
          else w.eventRefs.getD other [] := by
      intro other
      simp only [RolloutWriter.recordEvent_eq, hdraft.content, Bool.and_self, ↓reduceIte, pushRef,
        Std.ExtTreeMap.getD_insert, Std.LawfulEqCmp.compare_eq_iff_eq, hidentity, draftIdentity, eq_comm (a := other)]
    refine ⟨w.seq + 1, w.recordEvent env draft.body.eventType (storedPayload env draft.body.members) true, rfl, ?_, ?_,
      ?_, ?_⟩
    · rw [RolloutWriter.recordEvent_eq]
      exact hopen
    · rw [hrefs, if_pos rfl, ← hlength, List.getElem?_concat_length]
    · intro other
      rw [hrefs]
      split_ifs with heq
      · rw [heq]
        exact List.prefix_append _ _
      · exact List.prefix_refl _
    · intro other
      rw [hrefs]
      split_ifs with heq
      · rw [List.length_append, List.length_singleton, hlength, max_eq_right (Nat.le_succ _)]
      · rfl

theorem referDrafts_occurrence (hopen : w.finished = false) {drafts : List ContentDraft}
    (hdrafts : ∀ draft ∈ drafts, NoItemId draft) (occurrences : Std.ExtTreeMap Bytes ℕ)
    (hle : ∀ identity, occurrences.getD identity 0 ≤ (w.eventRefs.getD identity []).length) :
    ∃ refs w', w.referDrafts env occurrences drafts = .ok (refs, w') ∧ refs.length = drafts.length ∧
      (∀ identity, w.eventRefs.getD identity [] <+: w'.eventRefs.getD identity []) ∧
      (∀ identity, (w'.eventRefs.getD identity []).length =
        max (w.eventRefs.getD identity []).length (occurrences.getD identity 0 + draftCount env drafts identity)) ∧
      ∀ i identity, (drafts.map (draftIdentity env))[i]? = some identity → ∃ ref, refs[i]? = some ref ∧
        (w'.eventRefs.getD identity [])[occurrences.getD identity 0 + draftCount env (drafts.take i) identity]? =
          some ref := by
  induction drafts generalizing w occurrences with
  | nil =>
    refine ⟨[], w, rfl, rfl, fun _ => List.prefix_refl _, ?_, fun i identity hi => nomatch hi⟩
    intro identity
    exact (max_eq_left (hle identity)).symm
  | cons draft drafts ih =>
    rw [List.forall_mem_cons] at hdrafts
    obtain ⟨ref, w', hdraft, hopen', hfound, hgrown, hlength⟩ :=
      referDraft_occurrence hopen hdrafts.1 rfl (hle (draftIdentity env draft))
    have hoccurrences : ∀ identity, (occurrences.insert (draftIdentity env draft)
        (occurrences.getD (draftIdentity env draft) 0 + 1)).getD identity 0 =
          if identity = draftIdentity env draft then occurrences.getD identity 0 + 1
          else occurrences.getD identity 0 := by
      intro identity
      simp only [Std.ExtTreeMap.getD_insert, Std.LawfulEqCmp.compare_eq_iff_eq, eq_comm (a := identity)]
      split_ifs with heq
      · rw [heq]
      · rfl
    have hcount : ∀ (rest : List ContentDraft) identity, draftCount env (draft :: rest) identity =
        draftCount env rest identity + if identity = draftIdentity env draft then 1 else 0 := by
      intro rest identity
      simp only [draftCount, List.map_cons, List.count_cons, beq_iff_eq, eq_comm (a := identity)]
    obtain ⟨refs, w'', hrest, hrefs, hlater, hlengths, hplaces⟩ := ih hopen' hdrafts.2 _ (by
      intro identity
      rw [hoccurrences, hlength]
      split_ifs with heq
      · rw [heq]
        exact le_max_right _ _
      · exact hle identity)
    refine ⟨ref :: refs, w'', ?_, congrArg (· + 1) hrefs,
      fun identity => (hgrown identity).trans (hlater identity), ?_, ?_⟩
    · rw [RolloutWriter.referDrafts, hdraft, bind, Except.instMonad]
      simp only [Except.bind, hrest]
    · intro identity
      have hbound := hle identity
      rw [hlengths, hoccurrences, hlength, hcount]
      split_ifs with heq
      · rw [heq] at hbound ⊢
        omega
      · omega
    · intro i identity hi
      cases i with
      | zero =>
        obtain rfl := Option.some.inj hi
        refine ⟨ref, rfl, ?_⟩
        obtain ⟨more, hmore⟩ := hlater (draftIdentity env draft)
        rw [← hmore]
        exact List.getElem?_append_left (List.getElem?_eq_some_iff.mp hfound).1 ▸ hfound
      | succ i =>
        obtain ⟨found, hfound, hplace⟩ := hplaces i identity hi
        refine ⟨found, hfound, ?_⟩
        rw [hoccurrences] at hplace
        rw [List.take_succ_cons, hcount]
        split_ifs at hplace ⊢ with heq
        · rw [← hplace]
          congr 1
          omega
        · exact hplace

end refer

section begin

variable {env : Env} {identityId threadId path : String} {base : Option Log} {drafts : Set ContentDraft}

structure Deduplicated (env : Env) (before added : Log) (requestEvents : List ContentDraft) (refs : List ℕ) : Prop where
  context : added.getLast?.bind contextRefs = some refs
  length : refs.length = requestEvents.length
  distinct : ∀ i j, i < j → j < requestEvents.length →
    (requestEvents.map (draftIdentity env))[i]? = (requestEvents.map (draftIdentity env))[j]? → refs[i]? ≠ refs[j]?
  opened : (∃ event ∈ added, event.eventType = "window") → ∀ identity,
    storedCount env (before ++ added) identity = draftCount env requestEvents identity
  kept : (∀ event ∈ added, event.eventType ≠ "window") → ∀ identity,
    storedCount env (before ++ added) identity =
      max (storedCount env before identity) (draftCount env requestEvents identity)

theorem draftCount_take_lt {requestEvents : List ContentDraft} {identity : Bytes} {i j : ℕ} (hlt : i < j)
    (hi : (requestEvents.map (draftIdentity env))[i]? = some identity) :
    draftCount env (requestEvents.take i) identity < draftCount env (requestEvents.take j) identity := by
  have hsucc : draftCount env (requestEvents.take (i + 1)) identity =
      draftCount env (requestEvents.take i) identity + 1 := by
    rw [draftCount, draftCount, List.map_take, List.map_take, List.take_add_one, hi, List.count_append]
    simp
  have hle : draftCount env (requestEvents.take (i + 1)) identity ≤ draftCount env (requestEvents.take j) identity := by
    have htake : List.Sublist (requestEvents.take (i + 1)) (requestEvents.take j) :=
      (List.take_prefix_take_left hlt).sublist
    exact (htake.map _).count_le _
  omega

theorem refs_distinct {requestEvents : List ContentDraft} {refs : List ℕ} {stored : Bytes → List ℕ}
    (hnodup : ∀ identity, (stored identity).Nodup)
    (hplaces : ∀ i identity, (requestEvents.map (draftIdentity env))[i]? = some identity → ∃ ref, refs[i]? = some ref ∧
      (stored identity)[draftCount env (requestEvents.take i) identity]? = some ref)
    {i j : ℕ} (hlt : i < j) (hj : j < requestEvents.length)
    (heq : (requestEvents.map (draftIdentity env))[i]? = (requestEvents.map (draftIdentity env))[j]?) :
    refs[i]? ≠ refs[j]? := by
  have hsome : (requestEvents.map (draftIdentity env))[j]? = some (draftIdentity env requestEvents[j]) := by
    rw [List.getElem?_map, List.getElem?_eq_getElem hj]
    rfl
  obtain ⟨ref, href, hplace⟩ := hplaces i _ (heq.trans hsome)
  obtain ⟨ref', href', hplace'⟩ := hplaces j _ hsome
  intro hrefs
  obtain rfl := Option.some.inj (href.symm.trans (hrefs.trans href'))
  have hindex := (List.getElem?_inj (List.getElem?_eq_some_iff.mp hplace).1 (hnodup _)).mp (hplace.trans hplace'.symm)
  have hcount := draftCount_take_lt hlt (heq.trans hsome)
  omega

theorem windowRefs_threadState {keeps : Bytes → Prop} {w : RolloutWriter} {log : Log}
    (h : Describes keeps False env path (w.threadState {}) (some log)) {identity : Bytes} (hidentity : keeps identity) :
    w.eventRefs.getD identity [] = windowRefs env log identity := by
  have hrefs : w.eventRefs[identity]? = (replay env path log).eventRefs[identity]? :=
    h.eventRefs identity (.inr hidentity)
  rw [Std.ExtTreeMap.getD_eq_getD_getElem?, hrefs, ← Std.ExtTreeMap.getD_eq_getD_getElem?, replay_windowRefs]

theorem storedCount_start (log : Log) {window : Log} {first : ConversationEvent}
    (hwindow : window.map ConversationEvent.eventType ∈ [[], ["window"]]) (hfirst : first.eventType = "turn")
    (identity : Bytes) :
    storedCount env (log ++ (window ++ [first])) identity =
      if window = [] then storedCount env log identity else 0 := by
  have hturn : ∀ event ∈ [first], event.eventType ≠ "window" := by simp [hfirst]
  have hcontrol : [first].filter (fun event => isContentEvent event.eventType) = [] := by
    simp [hfirst, isContentEvent]
  rw [← List.append_assoc, storedCount_append hturn, hcontrol]
  split_ifs with hnil
  · simp [hnil]
  · obtain ⟨event, rfl, hevent⟩ : ∃ event, window = [event] ∧ event.eventType = "window" := by
      cases window with
      | nil => exact absurd rfl hnil
      | cons event rest =>
        cases rest with
        | nil => exact ⟨event, rfl, by simpa using hwindow⟩
        | cons other rest => simp at hwindow
    rw [storedCount, windowContent, windowEvents_window log hevent]
    rfl

theorem window_line_iff {window more : Log} {first context : ConversationEvent}
    (hwindow : window.map ConversationEvent.eventType ∈ [[], ["window"]]) (hfirst : first.eventType = "turn")
    (hmore : ∀ event ∈ more, isContentType event.eventType = true) (hcontext : context.eventType = "context") :
    (∃ event ∈ window ++ [first] ++ more ++ [context], event.eventType = "window") ↔ window ≠ [] := by
  constructor
  · rintro ⟨event, hevent, htype⟩
    rcases List.mem_append.mp hevent with hevent | hevent
    · rcases List.mem_append.mp hevent with hevent | hevent
      · rcases List.mem_append.mp hevent with hevent | hevent
        · exact List.ne_nil_of_mem hevent
        · rw [List.mem_singleton.mp hevent, hfirst] at htype
          exact absurd htype (by decide)
      · have hcontent := hmore event hevent
        rw [htype] at hcontent
        exact absurd hcontent (by decide)
    · rw [List.mem_singleton.mp hevent, hcontext] at htype
      exact absurd htype (by decide)
  · intro hne
    cases window with
    | nil => exact absurd rfl hne
    | cons event rest =>
      cases rest with
      | nil => exact ⟨event, by simp, by simpa using hwindow⟩
      | cons other rest => simp at hwindow

theorem deduplicated_of_lines {before window more : Log} {first context : ConversationEvent}
    {requestEvents : List ContentDraft} {refs : List ℕ} {stored : Bytes → List ℕ}
    (hwindow : window.map ConversationEvent.eventType ∈ [[], ["window"]]) (hfirst : first.eventType = "turn")
    (hmore : ∀ event ∈ more, isContentType event.eventType = true) (hcontext : context.eventType = "context")
    (hrefs : contextRefs context = some refs) (hlength : refs.length = requestEvents.length)
    (hnodup : ∀ identity, (stored identity).Nodup)
    (hplaces : ∀ i identity, (requestEvents.map (draftIdentity env))[i]? = some identity → ∃ ref, refs[i]? = some ref ∧
      (stored identity)[draftCount env (requestEvents.take i) identity]? = some ref)
    (hcount : ∀ identity, storedCount env (before ++ (window ++ [first] ++ more)) identity =
      max (storedCount env (before ++ (window ++ [first])) identity) (draftCount env requestEvents identity)) :
    Deduplicated env before (window ++ [first] ++ more ++ [context]) requestEvents refs := by
  have hall : ∀ identity, storedCount env (before ++ (window ++ [first] ++ more ++ [context])) identity =
      max (if window = [] then storedCount env before identity else 0) (draftCount env requestEvents identity) := by
    intro identity
    rw [← storedCount_start before hwindow hfirst, ← hcount, ← List.append_assoc,
      storedCount_append (by simp [hcontext])]
    simp [hcontext, isContentEvent]
  refine ⟨?_, hlength, fun i j hlt hj heq => refs_distinct hnodup hplaces hlt hj heq, ?_, ?_⟩
  · rw [List.getLast?_concat]
    exact hrefs
  · intro hopened identity
    rw [hall, if_neg ((window_line_iff hwindow hfirst hmore hcontext).mp hopened), Nat.zero_max]
  · intro hnone identity
    have hnil : window = [] := by
      by_contra hne
      obtain ⟨event, hevent, htype⟩ := (window_line_iff hwindow hfirst hmore hcontext).mpr hne
      exact hnone event hevent htype
    rw [hall, if_pos hnil]

theorem storedCount_unrelated {log more : Log} {requestEvents : List ContentDraft} (h : ∀ event ∈ more,
      ∃ draft ∈ requestEvents, event.eventType = draft.body.eventType ∧
        event.payload = storedPayload env draft.body.members)
    {identity : Bytes} (hidentity : identity ∉ requestEvents.map (draftIdentity env)) :
    storedCount env (log ++ more) identity = storedCount env log identity := by
  have hwindow : ∀ event ∈ more, event.eventType ≠ "window" := by
    intro event hevent heq
    have hcontent := contentType_of_drafted h event hevent
    rw [heq] at hcontent
    exact absurd hcontent (by decide)
  rw [storedCount_append hwindow, Nat.add_eq_left, List.count_eq_zero]
  intro hmem
  obtain ⟨event, hevent, rfl⟩ := List.mem_map.mp hmem
  obtain ⟨draft, hdraft, htype, hpayload⟩ := h event (List.mem_of_mem_filter hevent)
  apply hidentity
  rw [identityOf, htype, hpayload]
  exact List.mem_map_of_mem hdraft

/-- Content of another type has other digests, and texts are read back as they are. -/
theorem requestDigests_kept (hserde : env.serde.Lawful)
    (hcollision : Set.InjOn env.sha256 (canonicalForms env drafts)) (htexts : ∀ draft ∈ drafts, HoldsTexts draft)
    {requestEvents : List ContentDraft} (hdrafts : ∀ draft ∈ requestEvents, draft ∈ drafts)
    (hplain : ∀ draft ∈ requestEvents, NoItemId draft) :
    ∀ draft ∈ drafts, KeepsDigests (· ∈ requestEvents.map (draftIdentity env)) env draft := by
  intro draft hdraft
  by_cases htext : draft.body.eventType ∈ textTypes
  · exact ((htexts draft hdraft).readsBack hserde htext).keepsDigests _
  · intro identity hidentity
    obtain ⟨request, hrequest, rfl⟩ := List.mem_map.mp hidentity
    have htype := (hplain request hrequest).textType
    have hshallow := ((htexts request (hdrafts request hrequest)).readsBack hserde htype).shallow
    obtain ⟨hwritten, hread⟩ := identity_ne hserde hcollision hdraft (hdrafts request hrequest) hshallow
      (fun heq => htext (heq ▸ htype))
    exact iff_of_false hread hwritten

theorem Writes.openTurn_deduplicated {state : ThreadState} (threadPath : String) (session : SessionContext)
    (turn : TurnContext) (turnId : String) {requestEvents : List ContentDraft}
    (hstate : Describes (· ∈ requestEvents.map (draftIdentity env)) False env path state base)
    (hlen : state.stamp.len = (threadBytes env threadId base).length)
    (hwellFormed : WellFormed env drafts (base.getD [])) (hsession : session.threadId = threadId)
    (hdrafts : ∀ draft ∈ requestEvents, draft ∈ drafts) (hplain : ∀ draft ∈ requestEvents, NoItemId draft) :
    ∃ new w' refs, (RolloutWriter.fromState state threadPath session turn turnId).openTurn env state session turn
        requestEvents = .ok w' ∧
      Writes env threadId (· ∈ requestEvents.map (draftIdentity env)) False drafts path base new [] w' ∧
      OpenBlock env w'.turnId new ∧ Deduplicated env (base.getD []) new requestEvents refs := by
  obtain ⟨window, first, w₁, hstart, hw₁, hid₁, -, hwindow, hfirst, hpayload⟩ :=
    Writes.startTurn threadPath turn turnId hstate hlen hwellFormed hsession
  obtain ⟨refs, more, w₂, hrefer, hw₂, hid₂, hdrafted⟩ := hw₁.referDrafts False.elim hdrafts ∅
  have hmore := contentType_of_drafted hdrafted
  obtain ⟨happend, hw₃⟩ := hw₂.appendControl (.context refs) rfl
  obtain ⟨refs', w₂', hrefer', hlength, -, hlengths, hplaces⟩ :=
    referDrafts_occurrence hw₁.segment.isOpen hplain ∅ (by simp)
  obtain ⟨rfl, rfl⟩ := Prod.mk.inj (Except.ok.inj (hrefer.symm.trans hrefer'))
  simp only [Std.ExtTreeMap.getD_empty, Nat.zero_add] at hlengths hplaces
  refine ⟨_, _, refs, openTurn_ok hstart hrefer happend, hw₃, ?_, ?_⟩
  · rw [RolloutWriter.recordEvent_eq]
    exact .of_lines hwindow hfirst ((hid₂.trans hid₁) ▸ hpayload) hmore rfl
  · have hnodup : ∀ identity, (windowRefs env (base.getD [] ++ (window ++ [first] ++ more)) identity).Nodup :=
      windowRefs_nodup hw₂.wellFormed.numbered
    refine deduplicated_of_lines hwindow hfirst hmore rfl (refs_payload env refs) hlength hnodup ?_ ?_
    · intro i identity hi
      have hidentity : identity ∈ requestEvents.map (draftIdentity env) := List.mem_of_getElem? hi
      obtain ⟨ref, href, hplace⟩ := hplaces i identity hi
      rw [windowRefs_threadState hw₂.state hidentity] at hplace
      exact ⟨ref, href, hplace⟩
    · intro identity
      by_cases hidentity : identity ∈ requestEvents.map (draftIdentity env)
      · have hcount := hlengths identity
        rwa [windowRefs_threadState hw₁.state hidentity, windowRefs_threadState hw₂.state hidentity, length_windowRefs,
          length_windowRefs] at hcount
      · have hzero : draftCount env requestEvents identity = 0 := List.count_eq_zero.mpr hidentity
        rw [← List.append_assoc, storedCount_unrelated hdrafted hidentity, hzero, Nat.max_zero]

/-- A begin in a window that is open writes no content when its drafts are events of that window in any order. -/
theorem Deduplicated.no_content {before added : Log} {requestEvents : List ContentDraft} {refs : List ℕ}
    (h : Deduplicated env before added requestEvents refs) (hwindow : ∀ event ∈ added, event.eventType ≠ "window")
    {kept : Log} (hkept : List.Sublist kept (windowContent before))
    (hperm : (requestEvents.map (draftIdentity env)).Perm (kept.map (identityOf env))) :
    ∀ event ∈ added, isContentEvent event.eventType = false := by
  intro event hevent
  by_contra hcontent
  rw [Bool.not_eq_false] at hcontent
  have hcount := h.kept hwindow (identityOf env event)
  have hle : draftCount env requestEvents (identityOf env event) ≤ storedCount env before (identityOf env event) := by
    rw [draftCount, hperm.count_eq]
    exact (hkept.map _).count_le _
  have hpos : 0 < ((added.filter (fun event => isContentEvent event.eventType)).map (identityOf env)).count
      (identityOf env event) := by
    apply List.count_pos_iff.mpr
    exact List.mem_map_of_mem (List.mem_filter.mpr ⟨hevent, hcontent⟩)
  rw [storedCount_append hwindow] at hcount
  omega

end begin

theorem run_drop_writer (env : Env) (identityId threadId : String) (ops : List ThreadOp) :
    (Thread.run env identityId threadId (ops ++ [.drop])).writer = none := by
  rw [Thread.run, List.foldl_concat, ← Thread.run]
  cases h : (Thread.run env identityId threadId ops).writer with
  | none => simp only [Thread.step, h]
  | some w => simp only [Thread.step, h]

/-- The files of a thread, and what a begin with the request writes behind one of them. -/
structure BeginsDeduplicated (env : Env) (identityId threadId : String) (drafts : Set ContentDraft) (t : Thread)
    (request : TurnRequest) (blocks : List (String × Log)) : Prop where
  settled : Segmented env identityId threadId drafts t.closed blocks
  disk : SegmentDisk env threadId blocks t.store.disk
  begun : ∀ t', t.begun env identityId threadId request = .ok t' → ∃ path added refs,
    path ∈ segmentPaths env identityId threadId drafts ∧
    SegmentDisk env threadId (blocks ++ [(path, added)]) t'.store.disk ∧
    Deduplicated env ((segmentLog path blocks).getD []) added request.events refs ∧
    ((∀ event ∈ added, event.eventType ≠ "window") → ∀ kept,
      List.Sublist kept (windowContent ((segmentLog path blocks).getD [])) →
      (request.events.map (draftIdentity env)).Perm (kept.map (identityOf env)) →
      ∀ event ∈ added, isContentEvent event.eventType = false)

section run

variable {env : Env} {identityId threadId : String}

theorem Spread.begun_deduplicated {drafts : Set ContentDraft} {t : Thread} {blocks : List (String × Log)}
    {request : TurnRequest}
    (h : Spread env identityId threadId (· ∈ request.events.map (draftIdentity env)) drafts t blocks)
    (hid : isSafePathSegment identityId = true) (hthread : isSafePathSegment threadId = true)
    (hserde : env.serde.Lawful)
    (hkept : ∀ draft ∈ drafts, KeepsDigests (· ∈ request.events.map (draftIdentity env)) env draft)
    (hidle : t.writer = none) (hdrafts : ∀ draft ∈ request.events, draft ∈ drafts)
    (hplain : ∀ draft ∈ request.events, NoItemId draft) :
    BeginsDeduplicated env identityId threadId drafts t request blocks where
  settled := h.settled
  disk := h.idle hidle
  begun := by
    intro t' hbegun
    obtain ⟨state, store, w, hstate, hdisk, -, hopen, rfl⟩ := h.begun hid hthread hserde hkept hidle hbegun
    obtain ⟨new, w', refs, hopen', hw, hblock, hdedup⟩ :=
      Writes.openTurn_deduplicated (threadRelative identityId threadId)
        ⟨threadId, request.windowId, request.generation⟩ request.turn request.turnId hstate.describes hstate.len
        (h.settled.wellFormed _) rfl hdrafts hplain
    obtain rfl := Except.ok.inj (hopen.symm.trans hopen')
    have hbefore : SegmentWritten env threadId blocks state.relativePath [] store.disk := by
      rw [hdisk]
      exact (h.idle hidle).written _
    have hwrites : SegmentWrites env identityId threadId (· ∈ request.events.map (draftIdentity env)) drafts store.disk
        blocks state.relativePath new [] w false := ⟨hstate.path, hblock, hw, hbefore⟩
    exact ⟨state.relativePath, new, refs, hstate.path, hwrites.flush.disk.complete, hdedup,
      fun hwindow kept hsublist hperm => hdedup.no_content hwindow hsublist hperm⟩

theorem run_begun (hid : isSafePathSegment identityId = true) (hthread : isSafePathSegment threadId = true)
    (hserde : env.serde.Lawful) {ops : List ThreadOp} {request : TurnRequest}
    (hshallow : ShallowOps env (ops ++ [ThreadOp.beginTurn request]))
    (hw : (Thread.run env identityId threadId ops).writer = none) :
    ∃ t, (Thread.run env identityId threadId ops).begun env identityId threadId request = .ok t := by
  obtain ⟨blocks, current, h⟩ :=
    run_good_structure hid hthread hserde ops (fun op hop => hshallow op (List.mem_append_left _ hop))
  obtain rfl := h.idle hw
  obtain ⟨t, -, hbegun, -⟩ := h.begun hid hthread hserde (fun draft hdraft => Shallow.readable hdraft) False.elim
    (fun draft hdraft => hshallow (.beginTurn request) (by simp) draft hdraft)
  exact ⟨t, hbegun⟩

end run

/-- In every run whose messages hold texts, a begin with messages and reasonings without item ids stores no more of
them than its window lacks. -/
theorem drafts_deduplicated {env : Env} {identityId threadId : String} (hid : isSafePathSegment identityId = true)
    (hthread : isSafePathSegment threadId = true) (hserde : env.serde.Lawful) (ops : List ThreadOp)
    (hw : (Thread.run env identityId threadId ops).writer = none) (request : TurnRequest)
    (hcollision : Set.InjOn env.sha256
      (canonicalForms env {draft | (∃ op ∈ ops, draft ∈ op.drafts) ∨ draft ∈ request.events}))
    (htexts : ∀ draft, (∃ op ∈ ops, draft ∈ op.drafts) ∨ draft ∈ request.events → HoldsTexts draft)
    (hplain : ∀ draft ∈ request.events, NoItemId draft) :
    (∃ blocks, BeginsDeduplicated env identityId threadId
      {draft | (∃ op ∈ ops, draft ∈ op.drafts) ∨ draft ∈ request.events} (Thread.run env identityId threadId ops)
      request blocks) ∧
    (ShallowOps env (ops ++ [ThreadOp.beginTurn request]) →
      ∃ t, (Thread.run env identityId threadId ops).begun env identityId threadId request = .ok t) := by
  have hdrafts : ∀ draft ∈ request.events,
      draft ∈ {draft | (∃ op ∈ ops, draft ∈ op.drafts) ∨ draft ∈ request.events} := fun draft hdraft => .inr hdraft
  have hkept := requestDigests_kept hserde hcollision htexts hdrafts hplain
  obtain ⟨blocks, h⟩ := Spread.run hid hthread hserde hkept ops (fun op hop draft hdraft => .inl ⟨op, hop, hdraft⟩)
  exact ⟨⟨blocks, h.begun_deduplicated hid hthread hserde hkept hw hdrafts hplain⟩,
    fun hshallow => run_begun hid hthread hserde hshallow hw⟩

/-- The call is read from its file with another float than it was written with. -/
def repeatedOps : List ThreadOp :=
  [.beginTurn (sampleTurn "turn_1" [userMessage "hello"]), .appendContent floatCall, .drop, .forgetCache]

def repeatedTurn : TurnRequest := sampleTurn "turn_2" [userMessage "hello", userMessage "hello"]

def repeatedForms : List Bytes :=
  [draftCanonical limitedEnv (userMessage "hello"), draftCanonical limitedEnv floatCall,
    canonicalEvent limitedEnv "tool_call"
      ((storedPayload limitedEnv floatCall.body.members).mapNumbers limitedEnv.serde.reread)]

theorem repeatedOps_writer : (Thread.run limitedEnv "identity-1" "thread-1" repeatedOps).writer = none := by
  have hsplit : repeatedOps =
      [.beginTurn (sampleTurn "turn_1" [userMessage "hello"]), .appendContent floatCall] ++ [.drop] ++
      [.forgetCache] := rfl
  rw [hsplit, Thread.run, List.foldl_concat, Thread.step]
  exact run_drop_writer limitedEnv "identity-1" "thread-1" [.beginTurn (sampleTurn "turn_1" [userMessage "hello"]),
    .appendContent floatCall]

theorem repeatedTurn_events {draft : ContentDraft} (h : draft ∈ repeatedTurn.events) : draft = userMessage "hello" := by
  simpa [repeatedTurn, sampleTurn] using h

theorem repeatedOps_drafts {draft : ContentDraft}
    (h : (∃ op ∈ repeatedOps, draft ∈ op.drafts) ∨ draft ∈ repeatedTurn.events) :
    draft = userMessage "hello" ∨ draft = floatCall := by
  rcases h with h | h
  · simpa [repeatedOps, ThreadOp.drafts, sampleTurn] using h
  · exact .inl (repeatedTurn_events h)

theorem repeatedOps_texts {draft : ContentDraft}
    (h : (∃ op ∈ repeatedOps, draft ∈ op.drafts) ∨ draft ∈ repeatedTurn.events) : HoldsTexts draft := by
  rcases repeatedOps_drafts h with rfl | rfl
  · intro message hmessage
    obtain rfl := ContentEventBody.message.inj hmessage
    exact Value.flat_string _
  · exact holdsTexts_of_type (by decide)

theorem repeatedOps_forms {form : Bytes} (h : form ∈ canonicalForms limitedEnv
      {draft | (∃ op ∈ repeatedOps, draft ∈ op.drafts) ∨ draft ∈ repeatedTurn.events}) :
    form ∈ repeatedForms := by
  obtain ⟨draft, hdraft, rfl | rfl⟩ := h
  · rcases repeatedOps_drafts hdraft with rfl | rfl <;> simp [repeatedForms]
  · rcases repeatedOps_drafts hdraft with rfl | rfl
    · have htype : (userMessage "hello").body.eventType ∈ textTypes := List.mem_cons_self
      have hback := (repeatedOps_texts hdraft).readsBack limitedEnv_lawful htype
      rw [hback.kept, ← draftCanonical, repeatedForms]
      exact List.mem_cons_self
    · simp [repeatedForms, floatCall, callWith, ContentEventBody.eventType]

theorem repeatedOps_collision : Set.InjOn limitedEnv.sha256
    (canonicalForms limitedEnv {draft | (∃ op ∈ repeatedOps, draft ∈ op.drafts) ∨ draft ∈ repeatedTurn.events}) := by
  have hnodup : (repeatedForms.map limitedEnv.sha256).Nodup := by decide +kernel
  exact fun a ha b hb h => List.inj_on_of_nodup_map hnodup (repeatedOps_forms ha) (repeatedOps_forms hb) h

/-- The same message twice, in a thread that has it once. -/
theorem drafts_deduplicated_repeated :
    (∃ blocks, BeginsDeduplicated limitedEnv "identity-1" "thread-1"
      {draft | (∃ op ∈ repeatedOps, draft ∈ op.drafts) ∨ draft ∈ repeatedTurn.events}
      (Thread.run limitedEnv "identity-1" "thread-1" repeatedOps) repeatedTurn blocks) ∧
    ∃ t, (Thread.run limitedEnv "identity-1" "thread-1" repeatedOps).begun limitedEnv "identity-1" "thread-1"
      repeatedTurn = .ok t := by
  have hplain : ∀ draft ∈ repeatedTurn.events, NoItemId draft := by
    intro draft hdraft
    rw [repeatedTurn_events hdraft]
    rfl
  obtain ⟨hblocks, hbegun⟩ := drafts_deduplicated (by decide) (by decide) limitedEnv_lawful repeatedOps
    repeatedOps_writer repeatedTurn repeatedOps_collision (fun _ hdraft => repeatedOps_texts hdraft) hplain
  exact ⟨hblocks, hbegun (by decide +kernel)⟩

end Prelay.Rollout
