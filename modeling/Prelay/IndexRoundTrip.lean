import Prelay.CrashRecovery
import Prelay.IndexFile

namespace Prelay.Rollout

open Json

section reached

variable (env : Env) (identityId threadId : String)

inductive Turn (state : ThreadState) : RolloutWriter → Prop where
  | opened (session : SessionContext) (turn : TurnContext) (turnId : String) (requestEvents : List ContentDraft)
      (w : RolloutWriter) (hsession : session.threadId = threadId)
      (h : (RolloutWriter.fromState state (threadRelative identityId threadId) session turn turnId).openTurn env state
        session turn requestEvents = .ok w) : Turn state w
  | appended (w w' : RolloutWriter) (draft : ContentDraft) (seq : ℕ) (hturn : Turn state w)
      (h : w.appendContent env draft = .ok (seq, w')) : Turn state w'

/-- The states a thread can have, with the bytes of its file: that of a finished turn, and that of a file that is read
again after the last turn, or the part of it that was written. -/
inductive Reached : ThreadState → Bytes → Prop where
  | missing (path : String) (hpath : path ∈ threadCandidatePaths identityId threadId) :
      Reached (ThreadState.empty path) []
  | finished (state : ThreadState) (bytes : Bytes) (w w' : RolloutWriter) (status : RolloutStatus)
      (httpStatus : Option ℕ) (errorCode : Option String) (stamp : FileStamp) (hstate : Reached state bytes)
      (hturn : Turn env identityId threadId state w) (hend : endTurn env w status httpStatus errorCode = .ok w')
      (hstamp : stamp.len = (bytes ++ w'.hashed).length) : Reached (w'.threadState stamp) (bytes ++ w'.hashed)
  | reread (state : ThreadState) (bytes cut : Bytes) (w w' : RolloutWriter) (status : RolloutStatus)
      (httpStatus : Option ℕ) (errorCode : Option String) (modified : Option ℕ) (parsed : ParsedConversation)
      (file : File) (hstate : Reached state bytes) (hturn : Turn env identityId threadId state w)
      (hend : endTurn env w status httpStatus errorCode = .ok w') (hcut : cut <+: w'.hashed)
      (hread : readThreadEvents env (some ⟨bytes ++ cut, modified⟩) = .ok (some (parsed, file))) :
      Reached (candidateState env state.relativePath parsed (FileStamp.fromMetadata file)) file.bytes

end reached

def loadIndexFile (serde : SerdeJson) (disk : Disk) (bytes : Bytes) (identityId threadId : String) :
    Option ThreadState :=
  loadPersistedThread disk (readIndexFile serde bytes) identityId threadId

section digest

structure Digested (content : ContentHash) (eventRefs : Std.ExtTreeMap Bytes (List ℕ)) : Prop where
  content : content.digest.length = 32
  identity : ∀ p ∈ eventRefs.toList, p.1.length = 32
  refs : ∀ p ∈ eventRefs.toList, p.2 ≠ []

variable {env : Env} (hsha : ∀ bytes, (env.sha256 bytes).length = 32) {w w' : RolloutWriter}

theorem Digested.cleared {content : ContentHash} {eventRefs : Std.ExtTreeMap Bytes (List ℕ)}
    (h : Digested content eventRefs) : Digested content ∅ :=
  ⟨h.content, by simp, by simp⟩

include hsha

theorem Digested.pushed {content : ContentHash} {eventRefs : Std.ExtTreeMap Bytes (List ℕ)}
    (h : Digested content eventRefs)
    (eventType : String) (payload : Value) (seq : ℕ) :
    Digested (content.append env eventType payload) (pushRef eventRefs (eventIdentity env eventType payload) seq) := by
  have hold : ∀ p ∈ (pushRef eventRefs (eventIdentity env eventType payload) seq).toList,
      p.1 = eventIdentity env eventType payload ∧ p.2 ≠ [] ∨ p ∈ eventRefs.toList := by
    rintro ⟨identity, refs⟩ hp
    rw [Std.ExtTreeMap.mem_toList_iff_getElem?_eq_some, pushRef, Std.ExtTreeMap.getElem?_insert] at hp
    split_ifs at hp with heq
    · left
      refine ⟨(Std.LawfulEqCmp.compare_eq_iff_eq.mp heq).symm, ?_⟩
      rw [← Option.some.inj hp]
      simp
    · right
      exact Std.ExtTreeMap.mem_toList_iff_getElem?_eq_some.mpr hp
  refine ⟨hsha _, ?_, ?_⟩
  · intro p hp
    rcases hold p hp with ⟨hidentity, -⟩ | hmem
    · rw [hidentity]
      exact hsha _
    · exact h.identity p hmem
  · intro p hp
    rcases hold p hp with ⟨-, hne⟩ | hmem
    · exact hne
    · exact h.refs p hmem

theorem Digested.appended {content : ContentHash} {eventRefs : Std.ExtTreeMap Bytes (List ℕ)}
    (h : Digested content eventRefs) (eventType : String) (payload : Value) :
    Digested (content.append env eventType payload) eventRefs :=
  ⟨hsha _, h.identity, h.refs⟩

theorem replay_digested (path : String) (events : Log) :
    Digested (ContentHash.fromEvents env events) (replay env path events).eventRefs := by
  induction events using List.reverseRecOn with
  | nil => exact ⟨rfl, by simp [replay, ThreadState.empty], by simp [replay, ThreadState.empty]⟩
  | append_singleton events event ih =>
    rw [contentHash_append, replay_append, ThreadState.observe]
    by_cases hwindow : event.eventType = "window"
    · have hcontent : isContentEvent event.eventType = false := by
        rw [hwindow]
        decide
      simp only [hwindow, ↓reduceIte]
      rw [hwindow] at hcontent
      simp only [hcontent]
      exact ih.cleared
    · by_cases hcontent : isContentEvent event.eventType = true
      · simp only [hwindow, hcontent, ↓reduceIte]
        exact ih.pushed hsha event.eventType event.payload event.seq
      · simp only [hwindow, hcontent, ↓reduceIte]
        exact ih

theorem recordEvent_digested (hw : Digested w.content w.eventRefs) (eventType : String) (payload : Value)
    (content : Bool) :
    Digested (w.recordEvent env eventType payload content).content
      (w.recordEvent env eventType payload content).eventRefs := by
  rw [RolloutWriter.recordEvent_eq]
  cases content with
  | false => exact hw
  | true =>
    by_cases hcontent : isContentEvent eventType = true
    · simp only [hcontent, Bool.and_self, ↓reduceIte]
      exact hw.pushed hsha eventType payload _
    · simp only [hcontent, Bool.and_false, Bool.false_eq_true, ↓reduceIte]
      exact hw.appended hsha eventType payload

theorem writeEvent_digested {eventType : String} {payload : Value} {content : Bool} {seq : ℕ}
    (h : w.writeEvent env eventType payload content = .ok (seq, w')) (hw : Digested w.content w.eventRefs) :
    Digested w'.content w'.eventRefs := by
  unfold RolloutWriter.writeEvent at h
  split_ifs at h
  obtain ⟨-, rfl⟩ := Prod.mk.inj (Except.ok.inj h)
  exact recordEvent_digested hsha hw eventType payload content

theorem appendControl_digested {body : ControlEventBody} (h : w.appendControl env body = .ok w')
    (hw : Digested w.content w.eventRefs) : Digested w'.content w'.eventRefs := by
  obtain ⟨parts, -, h⟩ := bind_ok h
  obtain ⟨⟨seq, written⟩, hwrite, h⟩ := bind_ok h
  obtain rfl := Except.ok.inj h
  apply writeEvent_digested hsha hwrite
  split_ifs
  · exact hw.cleared
  · exact hw

omit hsha in
theorem keepItem_digested (hw : Digested w.content w.eventRefs) (key : Option String) (seq : ℕ) :
    Digested (w.keepItem key seq).content (w.keepItem key seq).eventRefs := by
  rw [keepItem_eq]
  exact hw

theorem appendContent_digested {draft : ContentDraft} {seq : ℕ} (h : w.appendContent env draft = .ok (seq, w'))
    (hw : Digested w.content w.eventRefs) : Digested w'.content w'.eventRefs := by
  obtain ⟨parts, -, h⟩ := bind_ok h
  obtain ⟨⟨written, kept⟩, hwrite, h⟩ := bind_ok h
  obtain ⟨-, rfl⟩ := Prod.mk.inj (Except.ok.inj h)
  exact keepItem_digested (writeEvent_digested hsha hwrite hw) _ _

theorem referDraft_digested {occurrences occurrences' : Std.ExtTreeMap Bytes ℕ} {draft : ContentDraft} {seq : ℕ}
    (h : w.referDraft env occurrences draft = .ok (seq, occurrences', w')) (hw : Digested w.content w.eventRefs) :
    Digested w'.content w'.eventRefs := by
  obtain ⟨⟨eventType, payload⟩, -, h⟩ := bind_ok h
  dsimp only at h
  split at h
  · obtain ⟨-, hpair⟩ := Prod.mk.inj (Except.ok.inj h)
    obtain ⟨-, rfl⟩ := Prod.mk.inj hpair
    exact keepItem_digested hw _ _
  · obtain ⟨⟨written, kept⟩, hwrite, h⟩ := bind_ok h
    obtain ⟨-, hpair⟩ := Prod.mk.inj (Except.ok.inj h)
    obtain ⟨-, rfl⟩ := Prod.mk.inj hpair
    exact keepItem_digested (writeEvent_digested hsha hwrite hw) _ _

theorem referDrafts_digested {occurrences : Std.ExtTreeMap Bytes ℕ} {drafts : List ContentDraft} {refs : List ℕ}
    (h : w.referDrafts env occurrences drafts = .ok (refs, w')) (hw : Digested w.content w.eventRefs) :
    Digested w'.content w'.eventRefs := by
  induction drafts generalizing w occurrences refs with
  | nil =>
    obtain ⟨-, rfl⟩ := Prod.mk.inj (Except.ok.inj h)
    exact hw
  | cons draft drafts ih =>
    obtain ⟨⟨seq, occurrences', referred⟩, hdraft, h⟩ := bind_ok h
    obtain ⟨⟨rest, last⟩, hdrafts, h⟩ := bind_ok h
    obtain ⟨-, rfl⟩ := Prod.mk.inj (Except.ok.inj h)
    exact ih hdrafts (referDraft_digested hsha hdraft hw)

theorem openTurn_digested {state : ThreadState} {session : SessionContext} {turn : TurnContext}
    {requestEvents : List ContentDraft} (h : w.openTurn env state session turn requestEvents = .ok w')
    (hw : Digested w.content w.eventRefs) : Digested w'.content w'.eventRefs := by
  have hheader : Digested (if state.isEmpty then w.writeMeta env else w).content
      (if state.isEmpty then w.writeMeta env else w).eventRefs := by
    split_ifs
    · exact hw
    · exact hw
  obtain ⟨started, hstart, h⟩ := bind_ok h
  obtain ⟨⟨refs, referred⟩, hrefer, h⟩ := bind_ok h
  have hstarted : Digested started.content started.eventRefs := by
    unfold RolloutWriter.startTurn at hstart
    dsimp only at hstart
    split at hstart
    · obtain ⟨windowed, hwindow, hstart⟩ := bind_ok hstart
      exact appendControl_digested hsha hstart (appendControl_digested hsha hwindow hheader)
    · exact appendControl_digested hsha hstart hheader
  exact appendControl_digested hsha h (referDrafts_digested hsha hrefer hstarted)

end digest

section invariant

variable {env : Env} {identityId threadId path : String} {state : ThreadState} {log : Option Log} {w w' : RolloutWriter}

theorem Turn.writes (hstate : Describes (fun _ => False) False env path state log)
    (hlen : state.stamp.len = (threadBytes env threadId log).length)
    (hwellFormed : WellFormed env Set.univ (log.getD []))
    (hturn : Turn env identityId threadId state w) :
    ∃ new, Writes env threadId (fun _ => False) False Set.univ path log new [] w := by
  induction hturn with
  | opened session turn turnId requestEvents w hsession h =>
    obtain ⟨new, w₁, hopen, hw₁, -, -⟩ := Writes.openTurn (threadRelative identityId threadId) session turn turnId
      hstate hlen hwellFormed hsession nofun (fun draft (_ : draft ∈ requestEvents) => Set.mem_univ draft)
    obtain rfl := Except.ok.inj (hopen.symm.trans h)
    exact ⟨new, hw₁⟩
  | appended w w' draft seq _ h ih =>
    obtain ⟨new, hw⟩ := ih
    rw [appendContent_eq hw.segment.isOpen] at h
    obtain ⟨-, rfl⟩ := Prod.mk.inj (Except.ok.inj h)
    exact ⟨_, hw.content (Set.mem_univ draft) nofun⟩

theorem Turn.ended (hstate : Describes (fun _ => False) False env path state log)
    (hlen : state.stamp.len = (threadBytes env threadId log).length)
    (hwellFormed : WellFormed env Set.univ (log.getD []))
    (hturn : Turn env identityId threadId state w) {status : RolloutStatus} {httpStatus : Option ℕ}
    {errorCode : Option String} (hend : endTurn env w status httpStatus errorCode = .ok w') :
    ∃ new, WellFormed env Set.univ (log.getD [] ++ new) ∧
      Describes (fun _ => False) False env path (w'.threadState {}) (some (log.getD [] ++ new)) ∧
      threadBytes env threadId log ++ w'.hashed = threadBytes env threadId (some (log.getD [] ++ new)) := by
  obtain ⟨new, hw⟩ := hturn.writes hstate hlen hwellFormed
  obtain ⟨happend, hended⟩ := hw.appendControl (.turnEnd ⟨status, httpStatus, errorCode⟩) rfl
  rw [endTurn, happend] at hend
  obtain rfl := Except.ok.inj hend
  refine ⟨_, hended.wellFormed, hended.state, ?_⟩
  rw [threadBytes, threadBytes, threadTexts_append, textBytes_append]
  exact congrArg _ hended.segment.hashed

theorem Turn.digested (hsha : ∀ bytes, (env.sha256 bytes).length = 32) (hstate : Digested state.content state.eventRefs)
    (hturn : Turn env identityId threadId state w) : Digested w.content w.eventRefs := by
  induction hturn with
  | opened session turn turnId requestEvents w hsession h => exact openTurn_digested hsha h hstate
  | appended w w' draft seq _ h ih => exact appendContent_digested hsha h ih

structure Sound (env : Env) (identityId threadId : String) (state : ThreadState) (bytes : Bytes) : Prop where
  path : state.relativePath ∈ threadCandidatePaths identityId threadId
  log : ∃ log, Describes (fun _ => False) False env state.relativePath state log ∧ WellFormed env Set.univ (log.getD []) ∧
    bytes = threadBytes env threadId log
  len : state.stamp.len = bytes.length
  digested : Digested state.content state.eventRefs

theorem Sound.finished {bytes : Bytes} (hsha : ∀ bytes, (env.sha256 bytes).length = 32)
    (h : Sound env identityId threadId state bytes) (hturn : Turn env identityId threadId state w)
    {status : RolloutStatus} {httpStatus : Option ℕ} {errorCode : Option String}
    (hend : endTurn env w status httpStatus errorCode = .ok w') {stamp : FileStamp}
    (hstamp : stamp.len = (bytes ++ w'.hashed).length) :
    Sound env identityId threadId (w'.threadState stamp) (bytes ++ w'.hashed) := by
  obtain ⟨log, hstate, hwellFormed, rfl⟩ := h.log
  obtain ⟨new, hwellFormed', hstate', hbytes⟩ := hturn.ended hstate h.len hwellFormed hend
  have hrelative : (w'.threadState stamp).relativePath = state.relativePath := hstate'.relativePath
  refine ⟨hrelative ▸ h.path, ⟨some (log.getD [] ++ new), ?_, hwellFormed', hbytes⟩, hstamp, ?_⟩
  · rw [hrelative]
    exact hstate'.restamp stamp
  · exact appendControl_digested hsha hend (hturn.digested hsha h.digested)

theorem Sound.reread {bytes cut : Bytes} (hserde : env.serde.Lawful) (hthread : threadId ≠ "")
    (hsha : ∀ bytes, (env.sha256 bytes).length = 32) (h : Sound env identityId threadId state bytes)
    (hturn : Turn env identityId threadId state w) {status : RolloutStatus} {httpStatus : Option ℕ}
    {errorCode : Option String} (hend : endTurn env w status httpStatus errorCode = .ok w')
    (hcut : cut <+: w'.hashed) {modified : Option ℕ} {parsed : ParsedConversation} {file : File}
    (hread : readThreadEvents env (some ⟨bytes ++ cut, modified⟩) = .ok (some (parsed, file))) :
    Sound env identityId threadId (candidateState env state.relativePath parsed (FileStamp.fromMetadata file))
      file.bytes := by
  obtain ⟨log, hstate, hwellFormed, rfl⟩ := h.log
  obtain ⟨new, hwellFormed', -, hbytes⟩ := hturn.ended hstate h.len hwellFormed hend
  have hcut : threadBytes env threadId log ++ cut <+: threadBytes env threadId (some (log.getD [] ++ new)) := by
    rw [← hbytes]
    exact (List.prefix_append_right_inj _).mpr hcut
  have hmade : ∀ event ∈ log.getD [] ++ new, Made event :=
    fun event hevent => (hwellFormed'.written event hevent).made
  obtain ⟨rfl, hfile⟩ := eq_of_readThreadEvents_cut hserde hthread hmade hwellFormed'.numbered hcut hread
  have hcandidate : Describes (fun _ => False) False env state.relativePath _
      (cutLog (log.getD [] ++ new) (endedLines (threadBytes env threadId log ++ cut))) :=
    candidateState_describes hserde threadId state.relativePath (fun _ hkeeps => hkeeps.elim) (FileStamp.fromMetadata file)
  refine ⟨?_, ⟨_, ?_, ?_, hfile⟩, rfl, replay_digested hsha _ _⟩
  · rw [hcandidate.relativePath]
    exact h.path
  · rw [hcandidate.relativePath]
    exact hcandidate
  · rw [getD_cutLog]
    exact hwellFormed'.take _

theorem Reached.sound {bytes : Bytes} (hserde : env.serde.Lawful) (hthread : threadId ≠ "")
    (hsha : ∀ bytes, (env.sha256 bytes).length = 32) (h : Reached env identityId threadId state bytes) :
    Sound env identityId threadId state bytes := by
  induction h with
  | missing path hpath =>
    exact ⟨hpath, ⟨none, Describes.empty _ False env path, ⟨rfl, nofun⟩, rfl⟩, rfl, replay_digested hsha path []⟩
  | finished state bytes w w' status httpStatus errorCode stamp _ hturn hend hstamp ih =>
    exact ih.finished hsha hturn hend hstamp
  | reread state bytes cut w w' status httpStatus errorCode modified parsed file _ hturn hend hcut hread ih =>
    exact ih.reread hserde hthread hsha hturn hend hcut hread

end invariant

section persistable

variable {env : Env} {identityId threadId : String} {state : ThreadState} {bytes : Bytes}

theorem Numbered.seq_bounds {log : Log} (h : Numbered log) {event : ConversationEvent} (hevent : event ∈ log) :
    event.seq ≠ 0 ∧ event.seq ≤ log.length := by
  have hseq : event.seq ∈ log.map ConversationEvent.seq := List.mem_map_of_mem hevent
  rw [h, List.mem_range'_1] at hseq
  omega

structure Persistable (identityId threadId : String) (state : ThreadState) : Prop where
  path : state.relativePath ∈ threadCandidatePaths identityId threadId
  digest : state.content.digest.length = 32
  eventRefs : ∀ p ∈ state.eventRefs.toList, p.1.length = 32 ∧ p.2 ≠ [] ∧ ∀ ref ∈ p.2, ref ≠ 0 ∧ ref ≤ state.seq
  itemRefs : ∀ p ∈ state.itemRefs.toList, p.2 ≠ 0 ∧ p.2 ≤ state.seq

theorem Sound.persistable (h : Sound env identityId threadId state bytes) : Persistable identityId threadId state := by
  obtain ⟨log, hstate, hwellFormed, -⟩ := h.log
  refine ⟨h.path, h.digested.content, ?_, ?_⟩
  · rintro ⟨identity, refs⟩ hmem
    refine ⟨h.digested.identity _ hmem, h.digested.refs _ hmem, ?_⟩
    intro ref href
    have hfound : ref ∈ state.eventRefs.getD identity [] := by
      rw [Std.ExtTreeMap.getD_eq_getD_getElem?, Std.ExtTreeMap.mem_toList_iff_getElem?_eq_some.mp hmem]
      exact href
    obtain ⟨event, hevent, rfl⟩ := hstate.eventSeqs identity ref hfound
    rw [hstate.seq]
    exact hwellFormed.numbered.seq_bounds hevent
  · rintro ⟨key, seq⟩ hmem
    obtain ⟨event, hevent, rfl⟩ := hstate.itemSeqs key seq (Std.ExtTreeMap.mem_toList_iff_getElem?_eq_some.mp hmem)
    rw [hstate.seq]
    exact hwellFormed.numbered.seq_bounds hevent

theorem Sound.complete_tail (h : Sound env identityId threadId state bytes) (hnonempty : state.isEmpty = false) :
    bytes.getLast? = some 10 := by
  obtain ⟨log, hstate, -, rfl⟩ := h.log
  cases log with
  | none =>
    have hempty : state.isEmpty = true := decide_eq_true hstate.lineCount
    rw [hempty] at hnonempty
    exact nomatch hnonempty
  | some log =>
    obtain ⟨texts, text, htexts⟩ : ∃ texts text, threadTexts env threadId (some log) = texts ++ [text] := by
      refine ⟨_, _, (List.dropLast_append_getLast ?_).symm⟩
      exact List.cons_ne_nil _ _
    rw [threadBytes, htexts, textBytes_append]
    simp [textBytes, textLine]

end persistable

section digests

theorem hexChar_utf8 : ∀ n < 16, (String.utf8EncodeChar (Text.hexChar n)).length = 1 := by decide

theorem utf8_hexDigest_length (digest : Bytes) : (Str.utf8 (hexDigest digest)).length = 2 * digest.length := by
  rw [Str.utf8_eq_flatMap]
  induction digest with
  | nil => rfl
  | cons b digest ih =>
    have hcons : (hexDigest (b :: digest)).toList =
        Text.hexChar (b.toNat / 16) :: Text.hexChar (b.toNat % 16) :: (hexDigest digest).toList := by
      simp [hexDigest]
    have hb := b.toNat_lt
    rw [hcons, List.flatMap_cons, List.flatMap_cons, List.length_append, List.length_append, ih,
      hexChar_utf8 _ (by omega), hexChar_utf8 _ (by omega), List.length_cons]
    omega

theorem decodeDigest_of_length {digest : Bytes} (h : digest.length = 32) :
    decodeDigest (hexDigest digest) = some digest := by
  rw [decodeDigest, if_pos, decodeBytes_hexDigest]
  rw [utf8_hexDigest_length, h]

theorem hexDigest_injective : Function.Injective hexDigest := by
  intro a b h
  have hdecode := decodeBytes_hexDigest a
  rw [h, decodeBytes_hexDigest] at hdecode
  exact (Option.some.inj hdecode).symm

theorem decodeEventRefs_complete (seq : ℕ) {refs : List (Bytes × List ℕ)}
    (h : ∀ p ∈ refs, p.1.length = 32 ∧ p.2 ≠ [] ∧ ∀ ref ∈ p.2, ref ≠ 0 ∧ ref ≤ seq) :
    decodeEventRefs seq (refs.map (fun p => (hexDigest p.1, p.2))) = some refs := by
  induction refs with
  | nil => rfl
  | cons p refs ih =>
    obtain ⟨hlength, hrefs⟩ := h p List.mem_cons_self
    have hrest := ih (fun q hq => h q (List.mem_cons_of_mem _ hq))
    have hguard : (guard (p.2 ≠ [] ∧ ∀ ref ∈ p.2, ref ≠ 0 ∧ ref ≤ seq) : Option Unit) = some () := if_pos hrefs
    simp only [List.map_cons, decodeEventRefs, decodeDigest_of_length hlength, hrest, hguard, Option.bind_eq_bind,
      Option.bind_some]

theorem keys_nodup {κ ν : Type} [Ord κ] [Std.TransOrd κ] [Std.LawfulEqOrd κ] (m : Std.ExtTreeMap κ ν) :
    (m.toList.map Prod.fst).Nodup := by
  apply List.pairwise_map.mpr
  apply List.Pairwise.imp _ Std.ExtTreeMap.distinct_keys_toList
  intro a b hdistinct heq
  rw [heq] at hdistinct
  exact hdistinct Std.ReflCmp.compare_self

theorem windowOf_complete (window : Option WindowState) :
    windowOf (window.bind WindowState.windowId) (window.map WindowState.generation) = some window := by
  cases window with
  | none => rfl
  | some window => rfl

theorem guard_of {p : Prop} [Decidable p] (h : p) : (guard p : Option Unit) = some () := if_pos h

end digests

section load

variable {env : Env} {identityId threadId : String} {state : ThreadState} {disk : Disk}
  {written : PersistedThreadIndex}

theorem loadPersistedThread_complete (hstate : Persistable identityId threadId state) (hindex : IndexOf state written)
    (hversion : written.version = threadIndexVersion)
    (hthread : written.threadPath = threadRelative identityId threadId)
    {eventRefs : List (String × List ℕ)} {itemRefs : List (String × ℕ)} (hevents : eventRefs.Perm written.eventRefs)
    (hitems : itemRefs.Perm written.itemRefs) (hsource : metadataStamp disk state.relativePath = some state.stamp)
    (hbase : metadataStamp disk (threadRelative identityId threadId) =
      written.baseStamp.map PersistedStamp.intoFileStamp) :
    loadPersistedThread disk (some { written with eventRefs := eventRefs, itemRefs := itemRefs }) identityId threadId =
      some state := by
  rw [hindex.eventRefs] at hevents
  rw [hindex.itemRefs] at hitems
  obtain ⟨refs, hrefs, rfl⟩ := exists_of_perm_map hevents
  have hdecoded := decodeEventRefs_complete state.seq (fun p hp => hstate.eventRefs p (hrefs.mem_iff.mp hp))
  have hversions := guard_of (⟨hversion, hthread⟩ :
    written.version = threadIndexVersion ∧ written.threadPath = threadRelative identityId threadId)
  have hpath := guard_of hstate.path
  have hstamp := guard_of hindex.stamp.symm
  have hunchanged := guard_of hbase
  have hitemSeqs := guard_of (fun p (hp : p ∈ itemRefs) => hstate.itemRefs p (hitems.mem_iff.mp hp))
  simp only [loadPersistedThread, Option.bind_eq_bind, Option.bind_some, hversions, hindex.path, hpath, hsource,
    hstamp, hunchanged, hindex.contentSha256, decodeDigest_of_length hstate.digest, hindex.seq, hdecoded, hitemSeqs,
    hindex.windowId, hindex.generation, windowOf_complete, hindex.format, hindex.lineCount, hindex.contentCount,
    hindex.contentEventCount, ofList_perm hrefs, ofList_perm hitems]

/-- What makes an index useless: the source or the base file has another stamp than the recorded one, or the index
is of another version or of another thread. -/
def Stale (disk : Disk) (threadPath : String) (index : PersistedThreadIndex) : Prop :=
  metadataStamp disk index.relativePath ≠ some index.sourceStamp.intoFileStamp ∨
    metadataStamp disk threadPath ≠ index.baseStamp.map PersistedStamp.intoFileStamp ∨
    index.version ≠ threadIndexVersion ∨ index.threadPath ≠ threadPath

theorem loadPersistedThread_stale {index : PersistedThreadIndex}
    (h : Stale disk (threadRelative identityId threadId) index) :
    loadPersistedThread disk (some index) identityId threadId = none := by
  cases hload : loadPersistedThread disk (some index) identityId threadId with
  | none => rfl
  | some loaded =>
    exfalso
    simp only [loadPersistedThread, Option.bind_eq_bind, Option.bind_eq_some_iff, Option.guard_eq_some',
      Option.some.injEq] at hload
    obtain ⟨_, rfl, -, hversion, -, -, source, hsource, -, hstamp, -, hbase, -⟩ := hload
    rcases h with hne | hne | hne | hne
    · exact hne (hsource.trans (congrArg some hstamp))
    · exact hne hbase
    · exact hne hversion.1
    · exact hne hversion.2

def Representable (file : File) : Prop := ∃ time, file.modified = some time ∧ time < 2 ^ 64

theorem Representable.nanos {file : File} (h : Representable file) :
    ((FileStamp.fromMetadata file).modified.bind systemTimeNanos).isSome = true := by
  obtain ⟨time, htime, hrange⟩ := h
  rw [FileStamp.fromMetadata, htime, Option.bind_some, systemTimeNanos, if_pos hrange]
  rfl

theorem metadataStamp_persisted {path : String} (htimes : ∀ file, disk path = some file → Representable file) :
    (metadataStamp disk path).map (fun stamp => (PersistedStamp.fromFileStamp stamp).intoFileStamp) =
      metadataStamp disk path := by
  cases hfile : disk path with
  | none => simp [metadataStamp, hfile]
  | some file =>
    simp [metadataStamp, hfile, intoFileStamp_fromFileStamp (htimes file hfile).nanos]

theorem writeThreadIndex_complete (threadPath : String) {file : File} (hnonempty : state.isEmpty = false)
    (hfile : disk state.relativePath = some file) (hstamp : FileStamp.fromMetadata file = state.stamp)
    (htail : file.bytes.getLast? = some 10) (htime : Representable file) :
    ∃ index, writeThreadIndex disk threadPath state.relativePath state = some index ∧
      index.version = threadIndexVersion ∧ index.threadPath = threadPath := by
  have hwritten := guard_of (by rw [hnonempty]; rfl : (!state.isEmpty) = true)
  have hcurrent := guard_of (⟨hstamp, by simp [hasCompleteTail, htail], htime.nanos⟩ :
    FileStamp.fromMetadata file = state.stamp ∧ hasCompleteTail file = true ∧
      ((FileStamp.fromMetadata file).modified.bind systemTimeNanos).isSome = true)
  simp only [writeThreadIndex, Option.bind_eq_bind, hwritten, hfile, Option.bind_some, hcurrent]
  exact ⟨_, rfl, rfl, rfl⟩

end load

section roundTrip

variable {env : Env} {identityId threadId : String}

/-- The index of a thread is read back as the state it was written for; a stale or a torn one is not used. -/
theorem thread_index_round_trip (hserde : env.serde.Lawful) (htorn : env.serde.RejectsTorn)
    (hsha : ∀ bytes, (env.sha256 bytes).length = 32) (hthread : isSafePathSegment threadId = true)
    {state : ThreadState} {file : File} {disk : Disk} (hreached : Reached env identityId threadId state file.bytes)
    (hnonempty : state.isEmpty = false) (hfile : disk state.relativePath = some file)
    (hstamp : FileStamp.fromMetadata file = state.stamp)
    (htimes : ∀ path file, disk path = some file → Representable file) :
    ∃ index, writeThreadIndex disk (threadRelative identityId threadId) state.relativePath state = some index ∧
      (∀ disk', metadataStamp disk' state.relativePath = metadataStamp disk state.relativePath →
        metadataStamp disk' (threadRelative identityId threadId) =
          metadataStamp disk (threadRelative identityId threadId) →
        loadIndexFile env.serde disk' (writeIndexFile env.serde index) identityId threadId = some state) ∧
      (∀ disk', metadataStamp disk' state.relativePath ≠ metadataStamp disk state.relativePath ∨
        metadataStamp disk' (threadRelative identityId threadId) ≠
          metadataStamp disk (threadRelative identityId threadId) →
        loadIndexFile env.serde disk' (writeIndexFile env.serde index) identityId threadId = none) ∧
      (∀ disk' bytes other, readIndexFile env.serde bytes = some other →
        Stale disk' (threadRelative identityId threadId) other →
        loadIndexFile env.serde disk' bytes identityId threadId = none) ∧
      ∀ disk' bytes, bytes <+: writeIndexFile env.serde index → bytes ≠ writeIndexFile env.serde index →
        loadIndexFile env.serde disk' bytes identityId threadId = none := by
  have hsound := hreached.sound hserde (safe_ne_empty hthread) hsha
  have hpersistable := hsound.persistable
  obtain ⟨index, hwrite, hversion, hpath⟩ := writeThreadIndex_complete
    (threadRelative identityId threadId) hnonempty hfile hstamp (hsound.complete_tail hnonempty) (htimes _ file hfile)
  have hindex := writeThreadIndex_indexOf hwrite
  have hsource : metadataStamp disk state.relativePath = some state.stamp := by
    rw [metadataStamp, hfile, ← hstamp]
    rfl
  have hrecorded : metadataStamp disk (threadRelative identityId threadId) =
      index.baseStamp.map PersistedStamp.intoFileStamp := by
    rw [writeThreadIndex_baseStamp hwrite, Option.map_map]
    exact (metadataStamp_persisted (htimes _)).symm
  have hevents : (index.eventRefs.map Prod.fst).Nodup := by
    rw [hindex.eventRefs, List.map_map]
    change (state.eventRefs.toList.map (hexDigest ∘ Prod.fst)).Nodup
    rw [← List.map_map]
    exact (keys_nodup state.eventRefs).map hexDigest_injective
  have hitems : (index.itemRefs.map Prod.fst).Nodup := by
    rw [hindex.itemRefs]
    exact keys_nodup state.itemRefs
  obtain ⟨eventRefs, itemRefs, heventPerm, hitemPerm, hread⟩ :=
    readIndexFile_writeIndexFile hserde (by rw [hversion]; decide) hevents hitems
  refine ⟨index, hwrite, ?_, ?_, ?_, ?_⟩
  · intro disk' hsource' hbase'
    rw [loadIndexFile, hread]
    exact loadPersistedThread_complete hpersistable hindex hversion hpath heventPerm hitemPerm
      (hsource'.trans hsource) (hbase'.trans hrecorded)
  · intro disk' hchanged
    rw [loadIndexFile, hread]
    apply loadPersistedThread_stale
    rcases hchanged with hne | hne
    · left
      rw [hindex.path, hindex.stamp, ← hsource]
      exact hne
    · right
      left
      rw [← hrecorded]
      exact hne
  · intro disk' bytes other hother hstale
    rw [loadIndexFile, hother]
    exact loadPersistedThread_stale hstale
  · intro disk' bytes hcut hne
    rw [loadIndexFile, readIndexFile_torn htorn hcut hne]
    rfl

/-- The index of a thread with one turn. -/
theorem thread_index_round_trip_turn : ∃ (state : ThreadState) (disk : Disk) (index : PersistedThreadIndex),
    state.isEmpty = false ∧
      writeThreadIndex disk (threadRelative "user-1" "thread-1") state.relativePath state = some index ∧
      loadIndexFile Text.codec disk (writeIndexFile Text.codec index) "user-1" "thread-1" = some state := by
  have hopen : ∃ new w, (RolloutWriter.fromState (ThreadState.empty (threadRelative "user-1" "thread-1"))
      (threadRelative "user-1" "thread-1") ⟨"thread-1", some "window-1", 1⟩ ⟨"activity-1", "gpt-5", "gpt-5"⟩
      "turn-1").openTurn sampleEnv (ThreadState.empty (threadRelative "user-1" "thread-1"))
        ⟨"thread-1", some "window-1", 1⟩ ⟨"activity-1", "gpt-5", "gpt-5"⟩ [userMessage "hello"] = .ok w ∧
      Writes sampleEnv "thread-1" (fun _ => False) False Set.univ (threadRelative "user-1" "thread-1") none new [] w ∧
      w.turnId = "turn-1" ∧ OpenBlock sampleEnv "turn-1" new :=
    Writes.openTurn (threadRelative "user-1" "thread-1") _ _ _
    (Describes.empty _ False sampleEnv _) rfl ⟨rfl, nofun⟩ rfl nofun
      (fun draft (_ : draft ∈ [userMessage "hello"]) => Set.mem_univ draft)
  obtain ⟨new, w, hopen, hw, -, -⟩ := hopen
  obtain ⟨happend, hended⟩ := hw.appendControl (.turnEnd ⟨.completed, some 200, none⟩) rfl
  have hturn : Turn sampleEnv "user-1" "thread-1" (ThreadState.empty (threadRelative "user-1" "thread-1")) w :=
    .opened ⟨"thread-1", some "window-1", 1⟩ _ _ _ w rfl hopen
  generalize w.recordEvent sampleEnv (ControlEventBody.turnEnd ⟨.completed, some 200, none⟩).eventType
    (storedPayload sampleEnv (ControlEventBody.turnEnd ⟨.completed, some 200, none⟩).members) false = ended
    at happend hended
  have hreached := Reached.finished _ _ w ended .completed (some 200) none ⟨([] ++ ended.hashed).length, some 7⟩
    (.missing _ List.mem_cons_self) hturn happend rfl
  have hpath : ended.relativePath = threadRelative "user-1" "thread-1" := hended.state.relativePath
  have hline : ended.lineCount = logLines (some _) := hended.state.lineCount
  have hnonempty : (ended.threadState ⟨([] ++ ended.hashed).length, some 7⟩).isEmpty = false := by
    rw [ThreadState.isEmpty, RolloutWriter.threadState, hline]
    exact decide_eq_false (Nat.succ_ne_zero _)
  obtain ⟨index, hwrite, hloaded, -⟩ := @thread_index_round_trip sampleEnv "user-1" "thread-1" Text.codec_lawful
    Text.codec_rejectsTorn Sha256.digest_length (by decide) _ ⟨[] ++ ended.hashed, some 7⟩
    (fun path => if path = threadRelative "user-1" "thread-1" then some ⟨[] ++ ended.hashed, some 7⟩ else none)
    hreached hnonempty (if_pos hpath) rfl (by
      intro path file hfile
      split_ifs at hfile
      obtain rfl := Option.some.inj hfile
      exact ⟨7, rfl, by decide⟩)
  exact ⟨_, _, index, hnonempty, hwrite, hloaded _ rfl rfl⟩

end roundTrip

end Prelay.Rollout
