import Prelay.Fallible
import Prelay.RolloutWriter

namespace Prelay.Rollout

open Json

def textLine (text : String) : Bytes := Str.utf8 text ++ [10]

def textBytes (texts : List String) : Bytes := texts.flatMap textLine

def joinedText (texts : List String) : String := String.ofList (Lines.render '\n' (texts.map String.toList))

theorem utf8_joinedText (texts : List String) : Str.utf8 (joinedText texts) = textBytes texts := by
  induction texts with
  | nil => rfl
  | cons text texts ih =>
    have hcons : joinedText (text :: texts) = text ++ ("\n" ++ joinedText texts) := by
      apply String.ext
      simp [joinedText]
    have hbytes : textBytes (text :: texts) = Str.utf8 text ++ ([10] ++ textBytes texts) := by
      simp [textBytes, textLine]
    rw [hcons, Str.utf8_append, Str.utf8_append, ih, hbytes]
    rfl

def SingleLine (text : String) : Prop := ∀ c ∈ text.toList, c ≠ '\n' ∧ c ≠ '\r'

theorem textLines_joinedText {texts : List String} (h : ∀ text ∈ texts, SingleLine text) :
    textLines (joinedText texts) = texts := by
  have hsplit : Lines.split '\n' (joinedText texts).toList = (texts.map String.toList, []) := by
    have hrender := Lines.split_render '\n' (texts.map String.toList) [] (by
      intro line hline
      obtain ⟨text, htext, rfl⟩ := List.mem_map.mp hline
      exact fun hc => (h text htext '\n' hc).1 rfl)
    simpa [joinedText, Lines.prepend, Lines.split] using hrender
  simp only [textLines, hsplit, List.map_map, ↓reduceIte, List.append_nil]
  conv_rhs => rw [← List.map_id texts]
  apply List.map_congr_left
  intro text htext
  have hcr : stripCarriageReturn text.toList = text.toList := by
    unfold stripCarriageReturn
    rw [if_neg]
    intro hlast
    exact (h text htext '\r' (List.mem_of_getLast? hlast)).2 rfl
  simp [hcr]

theorem completedContents_joinedText (texts : List String) : completedContents (joinedText texts) = true := by
  rcases List.eq_nil_or_concat texts with rfl | ⟨init, text, rfl⟩
  · rfl
  · simp [completedContents, joinedText, Lines.render]

section log

variable (env : Env) (threadId : String)

def headerText : String := env.serde.toStr (metaValue { threadId := threadId, createdAt := env.time 1 })

def eventText (event : ConversationEvent) : String := env.serde.toStr (eventValue event)

def threadTexts : Option (List ConversationEvent) → List String
  | none => []
  | some log => headerText env threadId :: log.map (eventText env)

def threadBytes (log : Option (List ConversationEvent)) : Bytes := textBytes (threadTexts env threadId log)

def Made (event : ConversationEvent) : Prop :=
  event.payload.Normal ∧ event.eventType ∉ ["session_meta", "media", "window_start", "session_end", "meta"]

structure Stored (event : ConversationEvent) : Prop where
  made : Made event
  shallow : event.payload.depth + 1 < recursionLimit

def rereadEvent (event : ConversationEvent) : ConversationEvent :=
  { event with payload := event.payload.mapNumbers env.serde.reread }

def Numbered (log : List ConversationEvent) : Prop := log.map ConversationEvent.seq = List.range' 1 log.length

variable {env} {threadId}

theorem toStr_singleLine (hserde : env.serde.Lawful) (value : Value) : SingleLine (env.serde.toStr value) := by
  intro c hc
  have hcontrol := hserde.no_control value c hc
  constructor
  · rintro rfl
    exact absurd hcontrol (by decide)
  · rintro rfl
    exact absurd hcontrol (by decide)

theorem threadTexts_singleLine (hserde : env.serde.Lawful) (log : Option (List ConversationEvent)) :
    ∀ text ∈ threadTexts env threadId log, SingleLine text := by
  intro text htext
  cases log with
  | none => exact nomatch htext
  | some log =>
    rcases List.mem_cons.mp htext with rfl | htext
    · exact toStr_singleLine hserde _
    · obtain ⟨event, -, rfl⟩ := List.mem_map.mp htext
      exact toStr_singleLine hserde _

theorem eventValue_get (event : ConversationEvent) (key : String) :
    (eventValue event).normalize.get key = if key = "payload" then some event.payload.normalize
      else if key = "type" then some (.string event.eventType) else if key = "time" then some (.string event.time)
      else if key = "seq" then some (.nat event.seq) else none := by
  rw [eventValue, get_normalize]
  by_cases hpayload : key = "payload"
  · subst hpayload
    rfl
  by_cases htype : key = "type"
  · subst htype
    rfl
  by_cases htime : key = "time"
  · subst htime
    rfl
  by_cases hseq : key = "seq"
  · subst hseq
    rfl
  · simp [hpayload, htype, htime, hseq, List.find?, eq_comm (b := key)]

theorem normalizeEvent_made {event : ConversationEvent} (h : Made event) :
    normalizeEvent ⟨event.seq, event.time, event.eventType, event.payload⟩ = .ok (some event) := by
  have htype := h.2
  simp only [List.mem_cons, List.not_mem_nil, or_false, not_or] at htype
  unfold normalizeEvent
  split <;> simp_all

theorem Made.reread {event : ConversationEvent} (h : Made event) : Made (rereadEvent env event) :=
  ⟨Value.mapNumbers_normal h.1, h.2⟩

theorem eventValue_depth_le {event : ConversationEvent} {n : ℕ} (h : event.payload.depth ≤ n) :
    (eventValue event).depth ≤ n + 1 := by
  apply Value.depth_object_le.mpr
  simp [Value.depth, Value.nat, h]

theorem parseEventLine_of_fromStr (hserde : env.serde.Lawful) {event : ConversationEvent} (h : Made event)
    {value : Value} (hread : env.serde.fromStr (eventText env event) = some value) :
    parseEventLine env.serde (eventText env event) = .ok (some (rereadEvent env event)) := by
  have hvalue := hserde.read_eq _ _ hread
  have hmeta : event.eventType ≠ "meta" := fun he => h.2 (by simp [he])
  have hobject : ∃ members, (eventValue event).normalize.mapNumbers env.serde.reread = .object members := ⟨_, rfl⟩
  obtain ⟨members, hmembers⟩ := hobject
  have hget : ∀ key, (Value.object members).get key =
      ((eventValue event).normalize.get key).map (Value.mapNumbers env.serde.reread) := by
    intro key
    rw [← hmembers, Value.get_mapNumbers]
  have hline : storedLineOf (.object members) =
      some ⟨event.seq, event.time, event.eventType, event.payload.mapNumbers env.serde.reread⟩ := by
    have hpayload : event.payload.normalize = event.payload := h.1
    have hseq : (Value.nat event.seq).asU64 = some event.seq := rfl
    simp [storedLineOf, hget, eventValue_get, Value.mapNumbers_nat hserde.keepsIntegers, hseq, Value.asStr, hpayload]
  have htype : ((Value.object members).get "type").bind Value.asStr ≠ some "meta" := by
    simpa [hget, eventValue_get, Value.asStr] using hmeta
  rw [hmembers] at hvalue
  subst hvalue
  simp only [parseEventLine, hread, htype, ↓reduceIte, hline]
  exact normalizeEvent_made (Made.reread h)

theorem parseEventLine_eventText (hserde : env.serde.Lawful) {event : ConversationEvent} (h : Stored event) :
    parseEventLine env.serde (eventText env event) = .ok (some (rereadEvent env event)) := by
  have hdepth : (eventValue event).depth < recursionLimit := (eventValue_depth_le le_rfl).trans_lt h.shallow
  obtain ⟨value, hvalue⟩ := Option.isSome_iff_exists.mp (hserde.reads _ hdepth)
  exact parseEventLine_of_fromStr hserde h.made hvalue

theorem parseEventLines_eventTexts (hserde : env.serde.Lawful) {log : List ConversationEvent}
    (h : ∀ event ∈ log, Stored event) :
    parseEventLines env.serde (log.map (eventText env)) = .ok (log.map (rereadEvent env)) := by
  induction log with
  | nil => rfl
  | cons event log ih =>
    have hevent := parseEventLine_eventText hserde (h event List.mem_cons_self)
    have hlog := ih (fun e he => h e (List.mem_cons_of_mem _ he))
    rw [List.map_cons, parseEventLines, hevent, hlog]
    rfl

theorem eq_of_parseEventLines (hserde : env.serde.Lawful) {log events : List ConversationEvent}
    (h : ∀ event ∈ log, Made event) (hread : parseEventLines env.serde (log.map (eventText env)) = .ok events) :
    events = log.map (rereadEvent env) := by
  induction log generalizing events with
  | nil => exact (Except.ok.inj hread).symm
  | cons event log ih =>
    obtain ⟨first, hfirst, hread⟩ := bind_ok hread
    obtain ⟨rest, hrest, hread⟩ := bind_ok hread
    have hline : parseEventLine env.serde (eventText env event) = .ok (some (rereadEvent env event)) := by
      cases hvalue : env.serde.fromStr (eventText env event) with
      | none =>
        rw [parseEventLine, hvalue] at hfirst
        exact nomatch hfirst
      | some value => exact parseEventLine_of_fromStr hserde (h event List.mem_cons_self) hvalue
    rw [hline] at hfirst
    obtain rfl := Except.ok.inj hfirst
    obtain rfl := ih (fun e he => h e (List.mem_cons_of_mem _ he)) hrest
    exact (Except.ok.inj hread).symm

theorem metaValue_flat (env : Env) (threadId : String) :
    (metaValue { threadId := threadId, createdAt := env.time 1 }).Flat 1 := by
  apply Value.flat_object
  simp [Value.flat_nat, Value.flat_string]

theorem fromStr_headerText (hserde : env.serde.Lawful) :
    env.serde.fromStr (headerText env threadId) =
      some (metaValue { threadId := threadId, createdAt := env.time 1 }).normalize :=
  hserde.fromStr_flat (metaValue_flat env threadId) (by decide)

theorem metaValue_get (header : ConversationMeta) (key : String) :
    (metaValue header).normalize.get key = if key = "created_at" then some (.string header.createdAt)
      else if key = "thread_id" then some (.string header.threadId) else if key = "type" then some (.string header.kind)
      else if key = "v" then some (.nat header.v) else none := by
  rw [metaValue, get_normalize]
  by_cases hcreated : key = "created_at"
  · subst hcreated
    rfl
  by_cases hthread : key = "thread_id"
  · subst hthread
    rfl
  by_cases htype : key = "type"
  · subst htype
    rfl
  by_cases hv : key = "v"
  · subst hv
    rfl
  · simp [hcreated, hthread, htype, hv, List.find?, eq_comm (b := key)]

theorem parseEventLine_headerText (hserde : env.serde.Lawful) :
    parseEventLine env.serde (headerText env threadId) = .ok none := by
  simp [parseEventLine, fromStr_headerText hserde, metaValue_get, Value.asStr]

theorem parseHeader_headerText (hserde : env.serde.Lawful) (hthread : threadId ≠ "") (texts : List String) :
    parseHeader env.serde (headerText env threadId :: texts) =
      .ok (some { threadId := threadId, createdAt := env.time 1 }) := by
  simp [parseHeader, fromStr_headerText hserde, metaValue_get, Value.asStr, Value.asU64, Value.nat, conversationMetaOf,
    Option.filter, hthread]

theorem lastSeq_numbered {log : List ConversationEvent} (h : Numbered log) : lastSeq log = log.length := by
  have hfold : ∀ (events : List ConversationEvent) (start n : ℕ), start ≤ n →
      events.map ConversationEvent.seq = List.range' (n + 1) events.length →
      events.foldl (fun last event => max last event.seq) start = if events = [] then start else n + events.length := by
    intro events
    induction events with
    | nil => intros; rfl
    | cons event events ih =>
      intro start n hle hseq
      rw [List.length_cons, List.range'_succ, List.map_cons, List.cons.injEq] at hseq
      have hmax : max start event.seq = n + 1 := by
        rw [hseq.1]
        omega
      rw [List.foldl_cons, hmax, ih (n + 1) (n + 1) le_rfl hseq.2, if_neg (List.cons_ne_nil event events),
        List.length_cons]
      by_cases hnil : events = []
      · rw [if_pos hnil, hnil, List.length_nil]
      · rw [if_neg hnil]
        omega
  unfold lastSeq
  rw [hfold log 0 0 le_rfl (by simpa [Numbered] using h)]
  split_ifs with hnil
  · rw [hnil]
    rfl
  · omega

theorem Numbered.reread {log : List ConversationEvent} (h : Numbered log) : Numbered (log.map (rereadEvent env)) := by
  simpa [Numbered, rereadEvent, Function.comp_def] using h

def parsedThread (env : Env) (threadId : String) : Option (List ConversationEvent) → ParsedConversation
  | none => ⟨.legacy, none, [], 0, 0⟩
  | some log => ⟨.v1, some { threadId := threadId, createdAt := env.time 1 }, log.map (rereadEvent env),
      log.length + 1, log.length⟩

theorem parseConversationContents_thread (hserde : env.serde.Lawful) (hthread : threadId ≠ "")
    {log : Option (List ConversationEvent)} (hstored : ∀ event ∈ log.getD [], Stored event)
    (hnumbered : Numbered (log.getD [])) :
    parseConversationContents env.serde (joinedText (threadTexts env threadId log)) =
      .ok (parsedThread env threadId log) := by
  unfold parseConversationContents
  rw [textLines_joinedText (threadTexts_singleLine hserde log)]
  cases log with
  | none => rfl
  | some log =>
    rw [Option.getD_some] at hstored hnumbered
    have hevents := parseEventLines_eventTexts hserde hstored
    simp only [threadTexts, parseHeader_headerText hserde hthread, bind, Except.bind, Option.isSome_some, ↓reduceIte,
      List.drop_succ_cons, List.drop_zero] at hevents ⊢
    simp [hevents, parsedThread, lastSeq_numbered (Numbered.reread hnumbered)]

theorem eq_of_parseConversationContents (hserde : env.serde.Lawful) (hthread : threadId ≠ "")
    {log : Option (List ConversationEvent)} (hmade : ∀ event ∈ log.getD [], Made event)
    (hnumbered : Numbered (log.getD [])) {parsed : ParsedConversation}
    (hread : parseConversationContents env.serde (joinedText (threadTexts env threadId log)) = .ok parsed) :
    parsed = parsedThread env threadId log := by
  unfold parseConversationContents at hread
  rw [textLines_joinedText (threadTexts_singleLine hserde log)] at hread
  cases log with
  | none => exact (Except.ok.inj hread).symm
  | some log =>
    rw [Option.getD_some] at hmade hnumbered
    obtain ⟨header, hheader, hread⟩ := bind_ok hread
    rw [threadTexts, parseHeader_headerText hserde hthread] at hheader
    obtain rfl := Except.ok.inj hheader
    obtain ⟨events, hevents, hread⟩ := bind_ok hread
    obtain rfl := eq_of_parseEventLines hserde hmade hevents
    rw [← Except.ok.inj hread]
    simp [parsedThread, threadTexts, lastSeq_numbered (Numbered.reread hnumbered)]

theorem readToString_thread (log : Option (List ConversationEvent)) (modified : Option ℕ) :
    readToString ⟨threadBytes env threadId log, modified⟩ = .ok (joinedText (threadTexts env threadId log)) := by
  simp [readToString, threadBytes, ← utf8_joinedText, Str.fromUtf8_utf8]

theorem readThreadEvents_thread (hserde : env.serde.Lawful) (hthread : threadId ≠ "")
    {log : Option (List ConversationEvent)} (hstored : ∀ event ∈ log.getD [], Stored event)
    (hnumbered : Numbered (log.getD [])) (modified : Option ℕ) :
    readThreadEvents env (some ⟨threadBytes env threadId log, modified⟩) =
      .ok (some (parsedThread env threadId log, ⟨threadBytes env threadId log, modified⟩)) := by
  simp only [readThreadEvents, readToString_thread, completedContents_joinedText, bind, Except.bind, ↓reduceIte,
    parseConversationContents_thread hserde hthread hstored hnumbered]

theorem eq_of_readThreadEvents_thread (hserde : env.serde.Lawful) (hthread : threadId ≠ "")
    {log : Option (List ConversationEvent)} (hmade : ∀ event ∈ log.getD [], Made event)
    (hnumbered : Numbered (log.getD [])) {modified : Option ℕ} {parsed : ParsedConversation} {file : File}
    (hread : readThreadEvents env (some ⟨threadBytes env threadId log, modified⟩) = .ok (some (parsed, file))) :
    parsed = parsedThread env threadId log ∧ file = ⟨threadBytes env threadId log, modified⟩ := by
  simp only [readThreadEvents, readToString_thread, completedContents_joinedText, bind, Except.bind, ↓reduceIte] at hread
  split at hread
  · exact nomatch hread
  · next found hfound =>
    obtain ⟨rfl, rfl⟩ := Prod.mk.inj (Option.some.inj (Except.ok.inj hread))
    exact ⟨eq_of_parseConversationContents hserde hthread hmade hnumbered hfound, rfl⟩

end log

end Prelay.Rollout
