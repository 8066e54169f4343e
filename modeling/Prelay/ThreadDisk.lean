import Prelay.TurnLog

namespace Prelay.Rollout

open Json

section disk

variable (env : Env) (threadId path : String)

def textsFile (texts : List String) : Option File :=
  if texts = [] then none else some ⟨textBytes texts, env.modified texts.length⟩

def threadDisk (texts : List String) : Disk := fun p => if p = path then textsFile env texts else none

theorem threadDisk_self (texts : List String) : threadDisk env path texts path = textsFile env texts := if_pos rfl

theorem textsFile_thread (log : Log) :
    textsFile env (threadTexts env threadId (some log)) =
      some ⟨threadBytes env threadId (some log), env.modified (log.length + 1)⟩ := by
  simp [textsFile, threadTexts, threadBytes]

theorem appendLine_textsFile {disk : Disk} {path : String} {texts : List String}
    (hfile : disk path = textsFile env texts) (text : String) :
    disk.appendLine path (textLine text) (env.modified (texts.length + 1)) =
      Function.update disk path (textsFile env (texts ++ [text])) := by
  have hbytes : ((disk path).map File.bytes).getD [] = textBytes texts := by
    rw [hfile]
    by_cases hnil : texts = []
    · simp [textsFile, hnil, textBytes]
    · simp [textsFile, hnil]
  rw [Disk.appendLine, hbytes]
  simp [textsFile, textBytes]

theorem update_threadDisk (texts more : List String) :
    Function.update (threadDisk env path texts) path (textsFile env more) = threadDisk env path more := by
  funext p
  by_cases hp : p = path
  · subst hp
    simp only [Function.update_self, threadDisk, ↓reduceIte]
  · simp only [Function.update_of_ne hp, threadDisk, hp, ↓reduceIte]

theorem appendLine_threadDisk (texts : List String) (text : String) :
    (threadDisk env path texts).appendLine path (textLine text) (env.modified (texts.length + 1)) =
      threadDisk env path (texts ++ [text]) := by
  rw [appendLine_textsFile env (threadDisk_self env path texts), update_threadDisk]

theorem writePendingLines_threadDisk (texts rest : List String) (lineCount : ℕ)
    (hcount : lineCount = texts.length + rest.length) :
    writePendingLines env path lineCount (threadDisk env path texts) (rest.map textLine) =
      threadDisk env path (texts ++ rest) := by
  induction rest generalizing texts with
  | nil => simp [writePendingLines]
  | cons text rest ih =>
    have hnext : lineCount - (rest.map textLine).length = texts.length + 1 := by
      simp [hcount]
      omega
    rw [List.map_cons, writePendingLines, hnext, appendLine_threadDisk, ih, List.append_assoc, List.singleton_append]
    simp [hcount]
    omega

/-- Lines are not empty, so a file is no longer than a part of it only if it is that part. -/
theorem eq_of_textBytes_length {texts more : List String} (hpre : texts <+: more)
    (hlength : (textBytes texts).length = (textBytes more).length) : texts = more := by
  obtain ⟨rest, rfl⟩ := hpre
  cases rest with
  | nil => simp
  | cons text rest =>
    exfalso
    simp only [textBytes_append, List.length_append] at hlength
    simp [textBytes, textLine] at hlength

def Past (past log : Option Log) : Prop := ∀ earlier ∈ past, ∃ later ∈ log, earlier <+: later

theorem Past.refl (log : Option Log) : Past log log := fun earlier h => ⟨earlier, h, List.prefix_refl _⟩

theorem Past.trans {a b c : Option Log} (hab : Past a b) (hbc : Past b c) : Past a c := by
  intro earlier hearlier
  obtain ⟨later, hlater, hle⟩ := hab earlier hearlier
  obtain ⟨latest, hlatest, hle'⟩ := hbc later hlater
  exact ⟨latest, hlatest, hle.trans hle'⟩

theorem past_append (base : Option Log) (new : Log) : Past base (some (base.getD [] ++ new)) := by
  intro earlier hearlier
  obtain rfl := Option.mem_def.mp hearlier
  exact ⟨_, rfl, List.prefix_append _ _⟩

theorem Past.threadTexts_prefix {past : Option Log} {log : Log} (h : Past past (some log)) :
    threadTexts env threadId past <+: threadTexts env threadId (some log) := by
  cases past with
  | none => exact List.nil_prefix
  | some earlier =>
    obtain ⟨later, hlater, hle⟩ := h earlier rfl
    obtain rfl := Option.some.inj hlater
    exact List.prefix_cons_inj _ |>.mpr (hle.map _)

theorem Past.eq_of_length {past : Option Log} {log : Log} (h : Past past (some log))
    (hlength : (threadBytes env threadId past).length = (threadBytes env threadId (some log)).length) :
    past = some log := by
  have htexts : threadTexts env threadId past = threadTexts env threadId (some log) :=
    eq_of_textBytes_length (h.threadTexts_prefix env threadId) hlength
  have hlines : logLines past = logLines (some log) := by
    rw [← length_threadTexts env threadId, htexts, length_threadTexts]
  cases past with
  | none => simp [logLines] at hlines
  | some earlier =>
    obtain ⟨later, hlater, hle⟩ := h earlier rfl
    obtain rfl := Option.some.inj hlater
    rw [hle.eq_of_length (by simpa [logLines] using hlines)]

def Snapshot (keeps : Bytes → Prop) (dedup : Prop) (log : Option Log) (state : ThreadState) : Prop :=
  ∃ past, Past past log ∧ Describes keeps dedup env path state past ∧
    state.stamp.len = (threadBytes env threadId past).length

structure Remembers (keeps : Bytes → Prop) (dedup : Prop) (log : Option Log) (store : Store) : Prop where
  cache : ∀ state, store.cache = some state → Snapshot env threadId path keeps dedup log state
  index : ∀ index, store.index = some index →
    ∃ state, IndexOf state index ∧ Snapshot env threadId path keeps dedup log state

end disk

section remembers

variable {env : Env} {threadId path : String} {keeps : Bytes → Prop} {dedup : Prop} {log : Option Log} {store : Store}
  {state : ThreadState}

theorem Snapshot.later {log' : Option Log} (h : Snapshot env threadId path keeps dedup log state) (hpast : Past log log') :
    Snapshot env threadId path keeps dedup log' state := by
  obtain ⟨past, hlog, hstate⟩ := h
  exact ⟨past, hlog.trans hpast, hstate⟩

theorem Remembers.later {log' : Option Log} (h : Remembers env threadId path keeps dedup log store)
    (hpast : Past log log') :
    Remembers env threadId path keeps dedup log' store where
  cache := fun state hstate => (h.cache state hstate).later hpast
  index := by
    intro index hindex
    obtain ⟨state, hstate, hsnapshot⟩ := h.index index hindex
    exact ⟨state, hstate, hsnapshot.later hpast⟩

theorem Snapshot.current (h : Snapshot env threadId path keeps dedup log state) {disk : Disk}
    (hfile : disk path = textsFile env (threadTexts env threadId log))
    (hstamp : metadataStamp disk path = some state.stamp) :
    Describes keeps dedup env path state log ∧ state.stamp.len = (threadBytes env threadId log).length := by
  obtain ⟨past, hpast, hstate, hlen⟩ := h
  cases log with
  | none => simp [metadataStamp, hfile, textsFile, threadTexts] at hstamp
  | some log =>
    simp only [metadataStamp, hfile, textsFile_thread, Option.map_some, Option.some.injEq] at hstamp
    have hlog : past = some log := by
      apply hpast.eq_of_length env threadId
      rw [← hlen, ← hstamp]
      rfl
    subst hlog
    exact ⟨hstate, hlen⟩

end remembers

end Prelay.Rollout
