import Prelay.CacheDedup
import Prelay.Utf8

namespace Prelay.Rollout

open Json

def endedLines (bytes : Bytes) : ℕ := (Lines.split 10 bytes).1.length

def completePart (bytes : Bytes) : Bytes := Lines.render 10 (Lines.split 10 bytes).1

theorem textBytes_eq_render (texts : List String) : textBytes texts = Lines.render 10 (texts.map Str.utf8) := by
  simp only [textBytes, Lines.render, List.flatMap_map]
  rfl

theorem joinedText_append (texts : List String) (rest : List Char) :
    Str.utf8 (joinedText texts ++ String.ofList rest) = textBytes texts ++ Str.utf8 (String.ofList rest) := by
  rw [Str.utf8_append, utf8_joinedText]

section cut

variable {texts : List String} {cut : Bytes} {contents : String}

/-- A part of a file that can be read holds the first lines of the file and a piece of the next one. -/
theorem cut_contents (hsingle : ∀ text ∈ texts, SingleLine text) (hcut : cut <+: textBytes texts)
    (hcontents : Str.utf8 contents = cut) :
    ∃ rest, contents = joinedText (texts.take (endedLines cut)) ++ String.ofList rest ∧ '\n' ∉ rest ∧
      (Lines.split '\n' contents.toList).2 = rest ∧
      completeLines contents = joinedText (texts.take (endedLines cut)) ∧
      completePart cut = textBytes (texts.take (endedLines cut)) := by
  have hfree : ∀ line ∈ texts.map String.toList, '\n' ∉ line := by
    intro line hline hc
    obtain ⟨text, htext, rfl⟩ := List.mem_map.mp hline
    exact (hsingle text htext '\n' hc).1 rfl
  have hpre : contents.toList <+: Lines.render '\n' (texts.map String.toList) := by
    rw [← hcontents, ← utf8_joinedText] at hcut
    simpa [joinedText] using Str.utf8_prefix hcut
  obtain ⟨hjoin, hrest, -⟩ := Lines.split_spec '\n' contents.toList
  obtain ⟨k, hk⟩ : ∃ k, (Lines.split '\n' contents.toList).1 = (texts.take k).map String.toList := by
    refine ⟨(Lines.split '\n' contents.toList).1.length, ?_⟩
    rw [List.map_take]
    exact List.prefix_iff_eq_take.mp (Lines.split_prefix '\n' hpre hfree)
  have hsplit : contents = joinedText (texts.take k) ++ String.ofList (Lines.split '\n' contents.toList).2 := by
    apply String.ext
    simp only [String.toList_append, joinedText, String.toList_ofList]
    rw [← hk, hjoin]
  have hbytes : Lines.split 10 cut = ((texts.take k).map Str.utf8,
      Str.utf8 (String.ofList (Lines.split '\n' contents.toList).2)) := by
    have hline : ∀ line ∈ (texts.take k).map Str.utf8, 10 ∉ line := by
      intro line hline
      obtain ⟨text, htext, rfl⟩ := List.mem_map.mp hline
      apply Str.newline_notMem_utf8
      intro hc
      exact (hsingle text (List.mem_of_mem_take htext) '\n' hc).1 rfl
    have hopen : 10 ∉ Str.utf8 (String.ofList (Lines.split '\n' contents.toList).2) := by
      apply Str.newline_notMem_utf8
      simpa using hrest
    rw [← hcontents]
    conv_lhs => rw [hsplit]
    rw [joinedText_append, textBytes_eq_render, Lines.split_render 10 _ _ hline, Lines.split_open 10 _ hopen]
    simp [Lines.prepend]
  have htake : texts.take (endedLines cut) = texts.take k := by
    simp [endedLines, hbytes, List.length_take]
  refine ⟨(Lines.split '\n' contents.toList).2, ?_, hrest, rfl, ?_, ?_⟩
  · rw [htake]
    exact hsplit
  · rw [htake, completeLines, hk]
    rfl
  · rw [htake, completePart, hbytes, textBytes_eq_render]

end cut

section recovery

variable {env : Env} {identityId threadId : String} {log : Log} {cut : Bytes}

def cutLog (log : Log) (lines : ℕ) : Option Log := if lines = 0 then none else some (log.take (lines - 1))

theorem threadTexts_cutLog (env : Env) (threadId : String) (log : Log) (lines : ℕ) :
    threadTexts env threadId (cutLog log lines) = (threadTexts env threadId (some log)).take lines := by
  cases lines with
  | zero => rfl
  | succ n => simp [cutLog, threadTexts]

theorem getD_cutLog (log : Log) (lines : ℕ) : (cutLog log lines).getD [] = log.take (lines - 1) := by
  cases lines with
  | zero => simp [cutLog]
  | succ n => simp [cutLog]

theorem Numbered.take (h : Numbered log) (n : ℕ) : Numbered (log.take n) := by
  unfold Numbered at h ⊢
  rw [List.map_take, h, List.length_take]
  rcases Nat.le_total n log.length with hle | hle
  · rw [List.take_range'_of_length_ge hle, min_eq_left hle]
  · rw [List.take_range'_of_length_le hle, min_eq_right hle]

theorem WellFormed.take {drafts : Set ContentDraft} (h : WellFormed env drafts log) (n : ℕ) :
    WellFormed env drafts (log.take n) :=
  ⟨h.numbered.take n, fun event hevent => h.written event (List.mem_of_mem_take hevent)⟩

theorem rest_eq_nil_of_completed {texts : List String} {rest : List Char} (hrest : '\n' ∉ rest)
    (h : completedContents (joinedText texts ++ String.ofList rest) = true) : rest = [] := by
  rcases List.eq_nil_or_concat rest with rfl | ⟨init, c, rfl⟩
  · rfl
  · exfalso
    simp only [completedContents, Bool.or_eq_true, decide_eq_true_eq, String.toList_append, String.toList_ofList] at h
    rcases h with h | h
    · have hlast : c = '\n' := by simpa using h
      exact hrest (by simp [hlast])
    · have hempty := congrArg String.toList h
      simp at hempty

theorem completePart_cut (hserde : env.serde.Lawful) (hcut : cut <+: threadBytes env threadId (some log))
    {contents : String} (hcontents : Str.utf8 contents = cut) :
    completePart cut = threadBytes env threadId (cutLog log (endedLines cut)) := by
  obtain ⟨-, -, -, -, -, hpart⟩ := cut_contents (threadTexts_singleLine hserde (some log)) hcut hcontents
  rw [hpart, threadBytes, threadTexts_cutLog]

theorem readThreadEvents_cut_eq (hserde : env.serde.Lawful) (hcut : cut <+: threadBytes env threadId (some log))
    {contents : String} (hcontents : Str.utf8 contents = cut) (modified : Option ℕ) :
    ∃ modified', readThreadEvents env (some ⟨cut, modified⟩) =
      (parseConversationContents env.serde (joinedText (threadTexts env threadId (cutLog log (endedLines cut))))).map
        (fun parsed => some (parsed, ⟨completePart cut, modified'⟩)) := by
  obtain ⟨rest, hsplit, hrest, -, hcomplete, hpart⟩ :=
    cut_contents (threadTexts_singleLine hserde (some log)) hcut hcontents
  rw [threadTexts_cutLog]
  have hread : readToString ⟨cut, modified⟩ = .ok contents := by
    simp [readToString, Str.fromUtf8_eq_some.mpr hcontents]
  by_cases hcompleted : completedContents contents = true
  · have hnil : rest = [] := rest_eq_nil_of_completed hrest (hsplit ▸ hcompleted)
    have hwhole : contents = joinedText ((threadTexts env threadId (some log)).take (endedLines cut)) := by
      rw [hnil] at hsplit
      simpa using hsplit
    have hcutPart : completePart cut = cut := by
      rw [hpart, ← utf8_joinedText, ← hwhole, hcontents]
    refine ⟨modified, ?_⟩
    simp only [readThreadEvents, hread, bind, Except.bind, hcompleted, ↓reduceIte, hcutPart]
    rw [hwhole]
    rfl
  · refine ⟨env.repaired, ?_⟩
    simp only [readThreadEvents, hread, bind, Except.bind, hcompleted, hcomplete, utf8_joinedText, hpart]
    rfl

theorem readThreadEvents_cut (hserde : env.serde.Lawful) (hthread : threadId ≠ "") (hstored : ∀ event ∈ log, Stored event)
    (hnumbered : Numbered log) (hcut : cut <+: threadBytes env threadId (some log)) {contents : String}
    (hcontents : Str.utf8 contents = cut) (modified : Option ℕ) :
    ∃ modified', readThreadEvents env (some ⟨cut, modified⟩) =
      .ok (some (parsedThread env threadId (cutLog log (endedLines cut)), ⟨completePart cut, modified'⟩)) := by
  obtain ⟨modified', hread⟩ := readThreadEvents_cut_eq hserde hcut hcontents modified
  have hstored' : ∀ event ∈ (cutLog log (endedLines cut)).getD [], Stored event := by
    intro event hevent
    rw [getD_cutLog] at hevent
    exact hstored event (List.mem_of_mem_take hevent)
  have hnumbered' : Numbered ((cutLog log (endedLines cut)).getD []) := getD_cutLog log _ ▸ hnumbered.take _
  refine ⟨modified', ?_⟩
  rw [hread, parseConversationContents_thread hserde hthread hstored' hnumbered']
  rfl

theorem eq_of_readThreadEvents_cut (hserde : env.serde.Lawful) (hthread : threadId ≠ "")
    (hmade : ∀ event ∈ log, Made event)
    (hnumbered : Numbered log) (hcut : cut <+: threadBytes env threadId (some log)) {modified : Option ℕ}
    {parsed : ParsedConversation} {file : File}
    (hread : readThreadEvents env (some ⟨cut, modified⟩) = .ok (some (parsed, file))) :
    parsed = parsedThread env threadId (cutLog log (endedLines cut)) ∧
      file.bytes = threadBytes env threadId (cutLog log (endedLines cut)) := by
  obtain ⟨contents, hcontents⟩ : ∃ contents, Str.utf8 contents = cut := by
    obtain ⟨contents, hcontents, -⟩ := bind_ok hread
    unfold readToString at hcontents
    split at hcontents
    · next text htext => exact ⟨text, Str.fromUtf8_eq_some.mp htext⟩
    · cases hcontents
  obtain ⟨modified', hcutRead⟩ := readThreadEvents_cut_eq hserde hcut hcontents modified
  rw [hcutRead] at hread
  obtain ⟨found, hfound, hpair⟩ := map_ok hread
  obtain ⟨rfl, rfl⟩ := Prod.mk.inj (Option.some.inj hpair)
  refine ⟨?_, completePart_cut hserde hcut hcontents⟩
  apply eq_of_parseConversationContents hserde hthread _ _ hfound
  · intro event hevent
    rw [getD_cutLog] at hevent
    exact hmade event (List.mem_of_mem_take hevent)
  · rw [getD_cutLog]
    exact hnumbered.take _

theorem candidateState_describes (hserde : env.serde.Lawful) {keeps : Bytes → Prop} (threadId path : String)
    {log : Option Log} (hkept : ∀ identity, keeps identity → ∀ event ∈ log.getD [],
      isContentEvent event.eventType = true →
        (identityOf env (rereadEvent env event) = identity ↔ identityOf env event = identity)) (stamp : FileStamp) :
    Describes keeps False env path (candidateState env path (parsedThread env threadId log) stamp) log := by
  cases log with
  | none => exact ⟨rfl, nofun, rfl, rfl, rfl, fun _ _ => rfl, by simp [candidateState, parsedThread,
      ThreadState.fromEvents, ThreadState.empty], rfl, nofun, nofun, fun _ _ h => replay_itemSeqs env path [] h⟩
  | some log => exact Describes.fromEvents hserde _ hkept nofun

theorem writePendingLines_bytes (env : Env) (path : String) (lineCount : ℕ) {disk : Disk} {file : File}
    (hfile : disk path = some file) (lines : List Bytes) :
    ∃ modified, writePendingLines env path lineCount disk lines path =
      some ⟨file.bytes ++ lines.flatten, modified⟩ := by
  induction lines generalizing disk file with
  | nil => exact ⟨file.modified, by simp [writePendingLines, hfile]⟩
  | cons line lines ih =>
    have hnext : disk.appendLine path line (env.modified (lineCount - lines.length)) path =
        some ⟨file.bytes ++ line, env.modified (lineCount - lines.length)⟩ := by
      simp [Disk.appendLine, hfile]
    obtain ⟨modified, hrest⟩ := ih hnext
    exact ⟨modified, by rw [writePendingLines, hrest, List.flatten_cons, List.append_assoc]⟩

def crashedStore (path : String) (file : File) (index : Option PersistedThreadIndex) : Store where
  disk := fun p => if p = path then some file else none
  index := index

theorem endedLines_threadBytes (hserde : env.serde.Lawful) (log : Option Log) :
    endedLines (threadBytes env threadId log) = logLines log := by
  have hlines : ∀ line ∈ (threadTexts env threadId log).map Str.utf8, 10 ∉ line := by
    intro line hline
    obtain ⟨text, htext, rfl⟩ := List.mem_map.mp hline
    apply Str.newline_notMem_utf8
    intro hc
    exact (threadTexts_singleLine hserde log text htext '\n' hc).1 rfl
  have hsplit := Lines.split_render 10 _ [] hlines
  rw [List.append_nil, ← textBytes_eq_render] at hsplit
  simp [endedLines, threadBytes, hsplit, Lines.prepend, Lines.split, length_threadTexts]

theorem cutLog_past {past : Option Log} (h : Past past (some log)) : cutLog log (logLines past) = past := by
  cases past with
  | none => rfl
  | some earlier =>
    obtain ⟨later, hlater, hle⟩ := h earlier rfl
    obtain rfl := Option.some.inj hlater
    simp [cutLog, logLines, ← List.prefix_iff_eq_take.mp hle]

theorem resolve_crashed (hid : isSafePathSegment identityId = true) (hthread : isSafePathSegment threadId = true)
    (hserde : env.serde.Lawful) (hstored : ∀ event ∈ log, Stored event) (hnumbered : Numbered log)
    (hcut : cut <+: threadBytes env threadId (some log)) {contents : String} (hcontents : Str.utf8 contents = cut)
    (modified : Option ℕ) {index : Option PersistedThreadIndex}
    (hindex : ∀ i, index = some i → ∃ state, IndexOf state i ∧
      Snapshot env threadId (threadRelative identityId threadId) (fun _ => False) False (some log) state) :
    ∃ state store modified', resolveThreadSource env
        (crashedStore (threadRelative identityId threadId) ⟨cut, modified⟩ index) identityId threadId =
          .ok (state, store) ∧
      Describes (fun _ => False) False env (threadRelative identityId threadId) state (cutLog log (endedLines cut)) ∧
      state.stamp.len = (completePart cut).length ∧
      store.disk (threadRelative identityId threadId) = some ⟨completePart cut, modified'⟩ := by
  have hfile : (crashedStore (threadRelative identityId threadId) ⟨cut, modified⟩ index).disk
      (threadRelative identityId threadId) = some ⟨cut, modified⟩ := by
    simp [crashedStore]
  unfold resolveThreadSource
  simp only [crashedStore, cachedThread, checked_indexRelative hid hthread, bind, Except.bind]
  cases hload : loadPersistedThread (crashedStore (threadRelative identityId threadId) ⟨cut, modified⟩ index).disk index
      identityId threadId with
  | some state =>
    -- the file has the stamp of the index, so the cut is at the end of the log of the index
    obtain ⟨i, rfl⟩ : ∃ i, index = some i := by
      cases index with
      | none => simp [loadPersistedThread] at hload
      | some i => exact ⟨i, rfl⟩
    obtain ⟨written, hwritten, past, hpast, hdescribes, hlen⟩ := hindex i rfl
    obtain ⟨rfl, hstamp⟩ := loadPersistedThread_indexOf hwritten hload
    rw [hdescribes.relativePath, metadataStamp, hfile, Option.map_some, Option.some.injEq] at hstamp
    have hsize : cut.length = (threadBytes env threadId past).length := by
      rw [← hlen, ← hstamp]
      rfl
    have hbytes : threadBytes env threadId past <+: threadBytes env threadId (some log) := by
      obtain ⟨rest, hrest⟩ := hpast.threadTexts_prefix env threadId
      exact ⟨textBytes rest, by rw [threadBytes, ← textBytes_append, hrest]; rfl⟩
    have heq : cut = threadBytes env threadId past :=
      (List.prefix_of_prefix_length_le hcut hbytes hsize.le).eq_of_length hsize
    have hended : endedLines cut = logLines past := by rw [heq, endedLines_threadBytes hserde]
    have hpart : completePart cut = cut := by
      obtain ⟨-, -, -, -, -, hpart⟩ := cut_contents (threadTexts_singleLine hserde (some log)) hcut hcontents
      rw [hpart, ← threadTexts_cutLog, hended, cutLog_past hpast]
      exact heq.symm
    simp only [crashedStore] at hload
    simp only [hload]
    refine ⟨state, _, modified, rfl, ?_, ?_, ?_⟩
    · rw [hended, cutLog_past hpast]
      exact hdescribes
    · rw [hpart, hlen, heq]
    · simp [hpart]
  | none =>
    obtain ⟨modified', hread⟩ :=
      readThreadEvents_cut hserde (safe_ne_empty hthread) hstored hnumbered hcut hcontents modified
    simp only [crashedStore] at hload hfile
    simp only [hload, loadThreadSource, readThreadCandidate, checked_threadRelative hid hthread, bind, Except.bind,
      hfile, hread]
    refine ⟨_, _, modified', rfl, candidateState_describes hserde _ _ (fun _ hkeeps => hkeeps.elim) _, rfl, ?_⟩
    simp [persistThreadIndex]

theorem begun_after_crash {drafts : Set ContentDraft} (hid : isSafePathSegment identityId = true)
    (hthread : isSafePathSegment threadId = true)
    (hserde : env.serde.Lawful) (hwellFormed : WellFormed env drafts log)
    (hcut : cut <+: threadBytes env threadId (some log)) {contents : String} (hcontents : Str.utf8 contents = cut)
    {start store : Store} {state : ThreadState} {modified : Option ℕ}
    (hresolve : resolveThreadSource env start identityId threadId = .ok (state, store))
    (hstate : Describes (fun _ => False) False env (threadRelative identityId threadId) state
      (cutLog log (endedLines cut)))
    (hlen : state.stamp.len = (completePart cut).length)
    (hfile : store.disk (threadRelative identityId threadId) = some ⟨completePart cut, modified⟩)
    (request : TurnRequest) :
    ∃ t turn modified', Thread.begun env identityId threadId { store := start } request = .ok t ∧
      t.store.disk (threadRelative identityId threadId) = some ⟨completePart cut ++ textBytes turn, modified'⟩ ∧
      turn ≠ [] := by
  have hpart := completePart_cut hserde hcut hcontents
  have hbase : WellFormed env Set.univ ((cutLog log (endedLines cut)).getD []) := by
    rw [getD_cutLog]
    exact (hwellFormed.take _).mono (Set.subset_univ drafts)
  obtain ⟨new, w, hbegin, hw, -, hblock⟩ :=
    beginTurn_writes hid hthread request hresolve hstate (hpart ▸ hlen) hbase nofun (fun _ _ => Set.mem_univ _)
  obtain ⟨rest, hpending, hrest⟩ := hw.segment.pending
  obtain ⟨modified', hwritten⟩ := writePendingLines_bytes env (threadRelative identityId threadId) w.lineCount hfile
    (rest.map textLine)
  have hrelative : w.relativePath = threadRelative identityId threadId := hw.state.relativePath
  refine ⟨{ store := (flushWriter env w store).2, writer := some (flushWriter env w store).1 }, rest, modified', ?_, ?_,
    ?_⟩
  · simp only [Thread.begun, hbegin, bind, Except.bind]
  · simp only [flushWriter, hrelative, hpending, hwritten]
    rfl
  · rw [List.nil_append] at hrest
    rw [hrest]
    have hne := hblock.ne_nil
    simp [segmentTexts, hne]

/-- What a crash must leave of a thread: the events of the complete lines are read, the rest is cut off and the next
turn is appended. -/
def Recovers (env : Env) (identityId threadId : String) (whole : Option File) (cut : Bytes) (modified : Option ℕ)
    (index : Option PersistedThreadIndex) : Prop :=
  (∃ conversation file parsed modified', readThreadEvents env whole = .ok (some (conversation, file)) ∧
    readThreadEvents env (some ⟨cut, modified⟩) = .ok (some (parsed, ⟨completePart cut, modified'⟩)) ∧
    parsed.events = conversation.events.take (endedLines cut - 1)) ∧
  ∀ request, ∃ t turn modified', Thread.begun env identityId threadId
      { store := crashedStore (threadRelative identityId threadId) ⟨cut, modified⟩ index } request = .ok t ∧
    t.store.disk (threadRelative identityId threadId) = some ⟨completePart cut ++ textBytes turn, modified'⟩ ∧ turn ≠ []

/-- A thread whose lines are not nested too deep is recovered from a part of its file if and only if the part does not
end inside a character. -/
theorem crash_recovery_iff (hid : isSafePathSegment identityId = true) (hthread : isSafePathSegment threadId = true)
    (hserde : env.serde.Lawful) (ops later : List ThreadOp) (hshallow : ShallowOps env (ops ++ later)) {whole : File}
    (hwhole : (Thread.run env identityId threadId (ops ++ later)).store.disk (threadRelative identityId threadId) =
      some whole) (hcut : cut <+: whole.bytes) (modified : Option ℕ) :
    Recovers env identityId threadId (some whole) cut modified (Thread.run env identityId threadId ops).store.index ↔
      (Str.fromUtf8 cut).isSome = true := by
  constructor
  · rintro ⟨⟨conversation, file, parsed, modified', -, hread, -⟩, -⟩
    cases hutf8 : Str.fromUtf8 cut with
    | some contents => rfl
    | none =>
      simp only [readThreadEvents, readToString, hutf8, bind, Except.bind] at hread
      cases hread
  · intro hsome
    obtain ⟨contents, hcontents⟩ := Option.isSome_iff_exists.mp hsome
    rw [Str.fromUtf8_eq_some] at hcontents
    obtain ⟨blocks, current, hearlier⟩ := run_good_structure hid hthread hserde ops
      (fun op hop => hshallow op (List.mem_append_left _ hop))
    obtain ⟨blocks', current', h, hpast⟩ := hearlier.steps hid hthread hserde (fun _ hdraft => Shallow.readable hdraft)
      False.elim later (fun op hop => hshallow op (List.mem_append_right _ hop))
    rw [Thread.run, List.foldl_append] at hwhole
    rw [← Thread.run, h.disk] at hwhole
    obtain ⟨log, hlog⟩ : ∃ log, threadLog blocks' current' = some log := by
      cases hlog : threadLog blocks' current' with
      | none => simp [hlog, threadDisk, textsFile, threadTexts] at hwhole
      | some log => exact ⟨log, rfl⟩
    have hwellFormed := h.wellFormed
    rw [hlog, Option.getD_some] at hwellFormed
    have hstored := hwellFormed.stored (fun _ hdraft => hdraft)
    simp only [hlog, threadDisk, ↓reduceIte, textsFile_thread, Option.some.injEq] at hwhole
    subst hwhole
    have hindex := (hearlier.remembers.later hpast).index
    rw [hlog] at hindex
    constructor
    · obtain ⟨modified', hread⟩ := readThreadEvents_cut hserde (safe_ne_empty hthread) hstored
        hwellFormed.numbered hcut hcontents modified
      have hlogStored : ∀ event ∈ (some log).getD [], Stored event := hstored
      refine ⟨_, _, _, modified', readThreadEvents_thread hserde (safe_ne_empty hthread) hlogStored
        hwellFormed.numbered _, hread, ?_⟩
      cases hended : endedLines cut with
      | zero => rfl
      | succ n => exact List.map_take
    · intro request
      obtain ⟨state, store, modified', hresolve, hstate, hlen, hfile⟩ :=
        resolve_crashed hid hthread hserde hstored hwellFormed.numbered hcut hcontents modified hindex
      exact begun_after_crash hid hthread hserde hwellFormed hcut hcontents hresolve hstate hlen hfile request

end recovery

theorem encode_getLast {c : Char} {b : UInt8} (h : (String.utf8EncodeChar c).getLast? = some b) : b.toNat < 192 := by
  have hbyte : ∀ n : ℕ, n < 192 → UInt8.ofNat n = b → b.toNat < 192 := by
    rintro n hn rfl
    simpa [Nat.mod_eq_of_lt (show n < 256 by omega)] using hn
  unfold String.utf8EncodeChar at h
  dsimp only at h
  split_ifs at h
  all_goals
    apply hbyte _ _ (Option.some.inj h)
    omega

theorem fromUtf8_cut {bs : Bytes} {b : UInt8} (hlast : bs.getLast? = some b) (hb : 192 ≤ b.toNat) :
    Str.fromUtf8 bs = none := by
  cases h : Str.fromUtf8 bs with
  | none => rfl
  | some s =>
    rw [← Str.fromUtf8_eq_some.mp h, Str.utf8_eq_flatMap] at hlast
    rcases List.eq_nil_or_concat s.toList with hnil | ⟨cs, c, hcs⟩
    · rw [hnil] at hlast
      cases hlast
    · have hne : String.utf8EncodeChar c ≠ [] := by
        intro hnil
        have hlength := c.utf8Size_pos
        rw [← String.length_utf8EncodeChar, hnil] at hlength
        cases hlength
      rw [hcs, List.concat_eq_append, List.flatMap_append, List.flatMap_singleton,
        List.getLast?_append_of_ne_nil _ hne] at hlast
      have := encode_getLast hlast
      omega

def accentOps : List ThreadOp := [.beginTurn (sampleTurn "turn_1" [userMessage "é"])]

theorem accent_file : ((Thread.run limitedEnv "identity-1" "thread-1" accentOps).store.disk
    "identity-1/thread-1.jsonl").map (fun file => (file.bytes.take 432).getLast?) = some (some 195) := by
  decide +kernel

theorem crash_recovery_after_accent :
    ∃ whole, (Thread.run limitedEnv "identity-1" "thread-1" accentOps).store.disk "identity-1/thread-1.jsonl" =
        some whole ∧
      (Recovers limitedEnv "identity-1" "thread-1" (some whole) (whole.bytes.take 433) none none ↔
        (Str.fromUtf8 (whole.bytes.take 433)).isSome = true) := by
  obtain ⟨whole, hwhole, -⟩ := Option.map_eq_some_iff.mp accent_file
  exact ⟨whole, hwhole, crash_recovery_iff (by decide) (by decide) limitedEnv_lawful [] accentOps (by decide +kernel)
    hwhole (List.take_prefix _ _) none⟩

/-- The cut is between the two bytes of the character. -/
theorem crash_recovery_inside_character :
    ∃ whole, (Thread.run limitedEnv "identity-1" "thread-1" accentOps).store.disk "identity-1/thread-1.jsonl" =
        some whole ∧ readThreadEvents limitedEnv (some ⟨whole.bytes.take 432, none⟩) = .error .invalidData ∧
      ¬Recovers limitedEnv "identity-1" "thread-1" (some whole) (whole.bytes.take 432) none none := by
  obtain ⟨whole, hwhole, hlast⟩ := Option.map_eq_some_iff.mp accent_file
  have hnone := fromUtf8_cut hlast (by decide)
  have hread : ∀ modified, readThreadEvents limitedEnv (some ⟨whole.bytes.take 432, modified⟩) = .error .invalidData := by
    intro modified
    simp only [readThreadEvents, readToString, hnone, bind, Except.bind]
  refine ⟨whole, hwhole, hread none, ?_⟩
  rintro ⟨⟨conversation, file, parsed, modified, -, hparsed, -⟩, -⟩
  rw [hread] at hparsed
  cases hparsed

end Prelay.Rollout
