import Prelay.Fallible
import Prelay.JsonRoundTrip
import Prelay.RolloutRead

namespace Prelay.Rollout

open Json

/-- What a stored line is read as: legacy types are renamed or left out. -/
def renamed (line : StoredLine) : Option ConversationEvent :=
  if line.eventType = "meta" ∨ line.eventType = "session_meta" ∨ line.eventType = "media" then none
  else if line.eventType = "window_start" then some ⟨line.seq, line.time, "window", .json [
    ("window_id", .ofOption id (line.payload.get "window_id")),
    ("generation", (line.payload.get "generation").getD (.nat 0))]⟩
  else if line.eventType = "session_end" then some ⟨line.seq, line.time, "turn_end", .json [
    ("status", (line.payload.get "status").getD .null),
    ("http_status", .ofOption id (line.payload.get "http_status")),
    ("error_code", .ofOption id (line.payload.get "error_code"))]⟩
  else some ⟨line.seq, line.time, line.eventType, line.payload⟩

section grammar

variable (serde : SerdeJson)

def MetaLine (line : String) : Prop :=
  ∃ value, serde.fromStr line = some value ∧ (value.get "type").bind Value.asStr = some "meta"

def EventLine (line : String) : Prop :=
  ∃ value stored, serde.fromStr line = some value ∧ storedLineOf value = some stored ∧ stored.eventType ≠ "meta"

def HeaderLine (line : String) : Prop :=
  ∃ value header, serde.fromStr line = some value ∧ conversationMetaOf value = some header ∧ header.v = 1 ∧
    header.kind = "meta" ∧ header.threadId ≠ ""

/-- A conversation file: nothing, or lines that are events, of which the first may be a header instead. -/
def Conversation (contents : String) : Prop :=
  contents = "" ∨ ∃ first rest, textLines contents = first :: rest ∧
    (HeaderLine serde first ∨ EventLine serde first) ∧ ∀ line ∈ rest, EventLine serde line

def lineEvent (line : String) : Option ConversationEvent :=
  ((serde.fromStr line).bind storedLineOf).bind renamed

structure ParsedAs (contents : String) (parsed : ParsedConversation) : Prop where
  events : parsed.events = (textLines contents).filterMap (lineEvent serde)
  lineCount : parsed.lineCount = (textLines contents).length
  bound : ∀ event ∈ parsed.events, event.seq ≤ parsed.lastSeq
  attained : parsed.events ≠ [] → ∃ event ∈ parsed.events, event.seq = parsed.lastSeq
  empty : parsed.events = [] → parsed.lastSeq = 0

end grammar

section lines

variable {serde : SerdeJson} {line : String}

theorem normalizeEvent_eq (stored : StoredLine) :
    normalizeEvent stored = if stored.eventType = "meta"
      then .error (.invalidPath "conversation header must be the first line") else .ok (renamed stored) := by
  unfold normalizeEvent renamed
  split
  · next h => simp [h]
  · next h => simp [h]
  · next h => simp [h]
  · next h => simp [h]
  · next h => simp [h]
  · next hsession hmedia hwindow hend hmeta =>
    have hlegacy :
        ¬(stored.eventType = "meta" ∨ stored.eventType = "session_meta" ∨ stored.eventType = "media") := by
      rintro (h | h | h)
      · exact hmeta h
      · exact hsession h
      · exact hmedia h
    rw [if_neg hmeta, if_neg hlegacy, if_neg hwindow, if_neg hend]

theorem renamed_meta {stored : StoredLine} (h : stored.eventType = "meta") : renamed stored = none := by
  rw [renamed, if_pos (.inl h)]

theorem storedLineOf_type {value : Value} {stored : StoredLine} (h : storedLineOf value = some stored)
    {eventType : String} (htype : (value.get "type").bind Value.asStr = some eventType) :
    stored.eventType = eventType := by
  unfold storedLineOf at h
  split at h
  · split_ifs at h
    simp only [Option.bind_eq_bind, Option.bind_eq_some_iff] at h
    obtain ⟨seq, -, time, -, eventType', htype', payload, -, h⟩ := h
    obtain rfl := Option.some.inj h
    rw [Option.bind_eq_some_iff] at htype
    obtain ⟨v, hv, hstr⟩ := htype
    obtain ⟨v', hv', hstr'⟩ := htype'
    obtain rfl := Option.some.inj (hv.symm.trans hv')
    exact Option.some.inj (hstr'.symm.trans hstr)
  · exact nomatch htype
  · exact nomatch h

theorem EventLine.not_meta (h : EventLine serde line) : ¬MetaLine serde line := by
  rintro ⟨value, hvalue, htype⟩
  obtain ⟨value', stored, hvalue', hstored, hne⟩ := h
  obtain rfl := Option.some.inj (hvalue.symm.trans hvalue')
  exact hne (storedLineOf_type hstored htype)

theorem conversationMetaOf_some {value : Value} {header : ConversationMeta}
    (h : conversationMetaOf value = some header) :
    (value.get "v").bind Value.asU64 = some header.v ∧ (value.get "type").bind Value.asStr = some header.kind := by
  simp only [conversationMetaOf, Option.bind_eq_bind] at h
  obtain ⟨v, hv, h⟩ := Option.bind_eq_some_iff.mp h
  obtain ⟨kind, hkind, h⟩ := Option.bind_eq_some_iff.mp h
  obtain ⟨threadId, -, h⟩ := Option.bind_eq_some_iff.mp h
  obtain ⟨createdAt, -, h⟩ := Option.bind_eq_some_iff.mp h
  obtain rfl := Option.some.inj h
  exact ⟨(Option.filter_eq_some_iff.mp hv).1, hkind⟩

theorem HeaderLine.is_meta (h : HeaderLine serde line) : MetaLine serde line := by
  obtain ⟨value, header, hvalue, hheader, -, hkind, -⟩ := h
  exact ⟨value, hvalue, hkind ▸ (conversationMetaOf_some hheader).2⟩

theorem MetaLine.lineEvent (h : MetaLine serde line) : lineEvent serde line = none := by
  obtain ⟨value, hvalue, htype⟩ := h
  rw [Rollout.lineEvent, hvalue, Option.bind_some]
  cases hstored : storedLineOf value with
  | none => rfl
  | some stored => exact renamed_meta (storedLineOf_type hstored htype)

theorem parseEventLine_meta (h : MetaLine serde line) : parseEventLine serde line = .ok none := by
  obtain ⟨value, hvalue, htype⟩ := h
  simp only [parseEventLine, hvalue, htype, ↓reduceIte]

theorem parseEventLine_event (h : EventLine serde line) : parseEventLine serde line = .ok (lineEvent serde line) := by
  have hmeta := h.not_meta
  obtain ⟨value, stored, hvalue, hstored, hne⟩ := h
  have htype : (value.get "type").bind Value.asStr ≠ some "meta" := fun htype => hmeta ⟨value, hvalue, htype⟩
  rw [lineEvent, hvalue, Option.bind_some, hstored, Option.bind_some]
  simp only [parseEventLine, hvalue, htype, hstored, normalizeEvent_eq, hne, ↓reduceIte]

theorem parseEventLine_ok {event : Option ConversationEvent} (h : parseEventLine serde line = .ok event) :
    EventLine serde line ∨ MetaLine serde line := by
  unfold parseEventLine at h
  split at h
  · exact nomatch h
  · next value hvalue =>
    split_ifs at h with htype
    · exact .inr ⟨value, hvalue, htype⟩
    · split at h
      · exact nomatch h
      · next stored hstored =>
        rw [normalizeEvent_eq] at h
        split_ifs at h with hmeta
        exact .inl ⟨value, stored, hvalue, hstored, hmeta⟩

theorem parseEventLines_ok {lines : List String} {events : List ConversationEvent}
    (h : parseEventLines serde lines = .ok events) : ∀ line ∈ lines, EventLine serde line ∨ MetaLine serde line := by
  induction lines generalizing events with
  | nil => exact fun _ hline => nomatch hline
  | cons line lines ih =>
    rw [parseEventLines] at h
    cases hline : parseEventLine serde line with
    | error error =>
      rw [hline] at h
      exact nomatch h
    | ok event =>
      cases hlines : parseEventLines serde lines with
      | error error =>
        rw [hline, hlines] at h
        exact nomatch h
      | ok rest =>
        rw [List.forall_mem_cons]
        exact ⟨parseEventLine_ok hline, ih hlines⟩

theorem parseEventLines_eq {lines : List String} (h : ∀ line ∈ lines, EventLine serde line) :
    parseEventLines serde lines = .ok (lines.filterMap (lineEvent serde)) := by
  induction lines with
  | nil => rfl
  | cons line lines ih =>
    rw [List.forall_mem_cons] at h
    rw [parseEventLines, parseEventLine_event h.1, ih h.2, List.filterMap_cons]
    cases lineEvent serde line with
    | none => rfl
    | some event => rfl

theorem parseEventLines_skips {lines : List String}
    (h : ∀ line ∈ lines, EventLine serde line ∨ MetaLine serde line) :
    ∃ events, parseEventLines serde lines = .ok events := by
  induction lines with
  | nil => exact ⟨[], rfl⟩
  | cons line lines ih =>
    rw [List.forall_mem_cons] at h
    obtain ⟨events, hevents⟩ := ih h.2
    rcases h.1 with hevent | hmeta
    · rw [parseEventLines, parseEventLine_event hevent, hevents]
      exact ⟨_, rfl⟩
    · rw [parseEventLines, parseEventLine_meta hmeta, hevents]
      exact ⟨_, rfl⟩

end lines

section header

variable {serde : SerdeJson} {line : String}

theorem parseHeader_header (h : HeaderLine serde line) (rest : List String) :
    ∃ header, parseHeader serde (line :: rest) = .ok (some header) := by
  obtain ⟨value, header, hvalue, hheader, hv, hkind, hthread⟩ := h
  obtain ⟨hversion, htype⟩ := conversationMetaOf_some hheader
  rw [hv] at hversion
  rw [hkind] at htype
  refine ⟨header, ?_⟩
  simp [parseHeader, hvalue, htype, hversion, hheader, hkind, hthread]

theorem parseHeader_event (h : EventLine serde line) (rest : List String) :
    parseHeader serde (line :: rest) = .ok none := by
  have hmeta := h.not_meta
  obtain ⟨value, stored, hvalue, -, -⟩ := h
  have htype : (value.get "type").bind Value.asStr ≠ some "meta" := fun htype => hmeta ⟨value, hvalue, htype⟩
  simp [parseHeader, hvalue, htype]

theorem parseHeader_some {rest : List String} {header : ConversationMeta}
    (h : parseHeader serde (line :: rest) = .ok (some header)) : HeaderLine serde line := by
  unfold parseHeader at h
  dsimp only at h
  split at h
  · exact nomatch h
  · next value hvalue =>
    split_ifs at h with htype hversion
    · exact nomatch h
    split at h
    · exact nomatch h
    · next found hfound =>
      split_ifs at h with hrefused
      obtain rfl := Option.some.inj (Except.ok.inj h)
      obtain ⟨hv, -⟩ := conversationMetaOf_some hfound
      simp only [ne_eq, Bool.or_eq_true, decide_eq_true_eq, not_or, not_not] at hrefused hversion
      exact ⟨value, found, hvalue, hfound, Option.some.inj (hv.symm.trans hversion), hrefused⟩

theorem parseHeader_none {rest : List String} (h : parseHeader serde (line :: rest) = .ok none) :
    ¬MetaLine serde line := by
  rintro ⟨value, hvalue, htype⟩
  unfold parseHeader at h
  simp only [hvalue, htype, ne_eq, not_true_eq_false, ↓reduceIte] at h
  split_ifs at h
  split at h
  · exact nomatch h
  · split_ifs at h
    exact nomatch Except.ok.inj h

theorem textLines_eq_nil {contents : String} (h : textLines contents = []) : contents = "" := by
  unfold textLines at h
  obtain ⟨hlines, hrest⟩ := List.append_eq_nil_iff.mp h
  have hjoin := Lines.split_join '\n' contents.toList
  rw [List.map_eq_nil_iff.mp hlines] at hjoin
  split_ifs at hrest with hlast
  rw [hlast] at hjoin
  exact String.toList_eq_nil_iff.mp hjoin.symm

end header

section last

theorem foldl_max_le (events : List ConversationEvent) (start : ℕ) :
    start ≤ events.foldl (fun last event => max last event.seq) start ∧
      (∀ event ∈ events, event.seq ≤ events.foldl (fun last event => max last event.seq) start) ∧
      (events.foldl (fun last event => max last event.seq) start = start ∨
        ∃ event ∈ events, event.seq = events.foldl (fun last event => max last event.seq) start) := by
  induction events generalizing start with
  | nil => exact ⟨le_refl _, (fun _ hevent => nomatch hevent), .inl rfl⟩
  | cons event events ih =>
    obtain ⟨hstart, hbound, hlast⟩ := ih (max start event.seq)
    rw [List.foldl_cons]
    refine ⟨le_trans (le_max_left _ _) hstart, ?_, ?_⟩
    · rw [List.forall_mem_cons]
      exact ⟨le_trans (le_max_right _ _) hstart, hbound⟩
    · rcases hlast with hlast | ⟨found, hfound, hseq⟩
      · rcases max_choice start event.seq with hmax | hmax
        · exact .inl (hlast.trans hmax)
        · exact .inr ⟨event, List.mem_cons_self, (hlast.trans hmax).symm⟩
      · exact .inr ⟨found, List.mem_cons_of_mem _ hfound, hseq⟩

theorem le_lastSeq {events : List ConversationEvent} : ∀ event ∈ events, event.seq ≤ lastSeq events :=
  (foldl_max_le events 0).2.1

theorem lastSeq_attained {events : List ConversationEvent} (h : events ≠ []) :
    ∃ event ∈ events, event.seq = lastSeq events := by
  obtain ⟨-, hbound, hzero | hlast⟩ := foldl_max_le events 0
  · obtain ⟨event, hevent⟩ := List.exists_mem_of_ne_nil events h
    have hle := hbound event hevent
    refine ⟨event, hevent, ?_⟩
    rw [lastSeq]
    omega
  · exact hlast

end last

section contents

variable {serde : SerdeJson} {contents first : String} {rest : List String}

theorem parse_header (hlines : textLines contents = first :: rest) {header : ConversationMeta}
    (hheader : parseHeader serde (first :: rest) = .ok (some header)) :
    parseConversationContents serde contents = (parseEventLines serde rest).map (fun events =>
      ⟨.v1, some header, events, rest.length + 1, lastSeq events⟩) := by
  unfold parseConversationContents
  dsimp only
  rw [hlines, hheader]
  rfl

theorem parse_events (hlines : textLines contents = first :: rest)
    (hheader : parseHeader serde (first :: rest) = .ok none) :
    parseConversationContents serde contents = (parseEventLines serde (first :: rest)).map (fun events =>
      ⟨.legacy, none, events, rest.length + 1, lastSeq events⟩) := by
  unfold parseConversationContents
  dsimp only
  rw [hlines, hheader]
  rfl

theorem parse_error (hlines : textLines contents = first :: rest) {error : RolloutError}
    (hheader : parseHeader serde (first :: rest) = .error error) :
    parseConversationContents serde contents = .error error := by
  unfold parseConversationContents
  dsimp only
  rw [hlines, hheader]
  rfl

theorem parse_empty : parseConversationContents serde "" = .ok ⟨.legacy, none, [], 0, 0⟩ := rfl

theorem parse_ok_iff (hlines : textLines contents = first :: rest) :
    (∃ parsed, parseConversationContents serde contents = .ok parsed) ↔
      (HeaderLine serde first ∨ EventLine serde first) ∧ ∀ line ∈ rest, EventLine serde line ∨ MetaLine serde line := by
  constructor
  · rintro ⟨parsed, h⟩
    match hheader : parseHeader serde (first :: rest) with
    | .error error =>
      rw [parse_error hlines hheader] at h
      exact nomatch h
    | .ok (some header) =>
      rw [parse_header hlines hheader] at h
      obtain ⟨events, hevents, -⟩ := map_ok h
      exact ⟨.inl (parseHeader_some hheader), parseEventLines_ok hevents⟩
    | .ok none =>
      rw [parse_events hlines hheader] at h
      obtain ⟨events, hevents, -⟩ := map_ok h
      obtain ⟨hfirst, hrest⟩ := List.forall_mem_cons.mp (parseEventLines_ok hevents)
      exact ⟨.inr (hfirst.resolve_right (parseHeader_none hheader)), hrest⟩
  · rintro ⟨hheader | hevent, hrest⟩
    · obtain ⟨header, hheader⟩ := parseHeader_header hheader rest
      obtain ⟨events, hevents⟩ := parseEventLines_skips hrest
      rw [parse_header hlines hheader, hevents]
      exact ⟨_, rfl⟩
    · obtain ⟨events, hevents⟩ := parseEventLines_skips (List.forall_mem_cons.mpr ⟨.inl hevent, hrest⟩)
      rw [parse_events hlines (parseHeader_event hevent rest), hevents]
      exact ⟨_, rfl⟩

theorem parsedAs_of_lines {format : ConversationFormat} {header : Option ConversationMeta}
    {events : List ConversationEvent} {lineCount : ℕ} (hlines : (textLines contents).length = lineCount)
    (hevents : events = (textLines contents).filterMap (lineEvent serde)) :
    ParsedAs serde contents ⟨format, header, events, lineCount, lastSeq events⟩ where
  events := hevents
  lineCount := hlines.symm
  bound := le_lastSeq
  attained := lastSeq_attained
  empty h := by
    obtain rfl : events = [] := h
    rfl

theorem parse_parsedAs (hlines : textLines contents = first :: rest) (hrest : ∀ line ∈ rest, EventLine serde line)
    {parsed : ParsedConversation} (h : parseConversationContents serde contents = .ok parsed) :
    ParsedAs serde contents parsed := by
  have hlength : (textLines contents).length = rest.length + 1 := by rw [hlines, List.length_cons]
  match hheader : parseHeader serde (first :: rest) with
  | .error error =>
    rw [parse_error hlines hheader] at h
    exact nomatch h
  | .ok (some header) =>
    rw [parse_header hlines hheader, parseEventLines_eq hrest] at h
    obtain rfl := Except.ok.inj h
    apply parsedAs_of_lines hlength
    rw [hlines, List.filterMap_cons, (parseHeader_some hheader).is_meta.lineEvent]
  | .ok none =>
    have hfirst := ((parse_ok_iff hlines).mp ⟨parsed, h⟩).1
    have hevent : EventLine serde first := hfirst.resolve_left (fun hheads =>
      parseHeader_none hheader hheads.is_meta)
    rw [parse_events hlines hheader, parseEventLines_eq (List.forall_mem_cons.mpr ⟨hevent, hrest⟩)] at h
    obtain rfl := Except.ok.inj h
    apply parsedAs_of_lines hlength
    rw [hlines]

end contents

/-- A file is taken for a conversation when it is one, unless a line behind the first says that it is a header
and no other line makes the file unreadable. -/
theorem conversation_parsed_iff (serde : SerdeJson) (contents : String) :
    (((∃ parsed, parseConversationContents serde contents = .ok parsed) ↔ Conversation serde contents) ∧
      ∀ parsed, parseConversationContents serde contents = .ok parsed → ParsedAs serde contents parsed) ↔
      ∀ first rest, textLines contents = first :: rest → (∃ line ∈ rest, MetaLine serde line) →
        ¬(HeaderLine serde first ∨ EventLine serde first) ∨
          ∃ line ∈ rest, ¬EventLine serde line ∧ ¬MetaLine serde line := by
  constructor
  · rintro ⟨hok, -⟩ first rest hlines ⟨line, hline, hmeta⟩
    by_contra hnone
    obtain ⟨hfirst, hrest⟩ := not_or.mp hnone
    have hskipped : ∀ line ∈ rest, EventLine serde line ∨ MetaLine serde line := by
      intro line hline
      by_contra hneither
      exact hrest ⟨line, hline, not_or.mp hneither⟩
    have hparsed := (parse_ok_iff hlines).mpr ⟨not_not.mp hfirst, hskipped⟩
    rcases hok.mp hparsed with rfl | ⟨first', rest', hlines', -, hrest'⟩
    · exact nomatch hlines
    · obtain ⟨rfl, rfl⟩ := List.cons.inj (hlines.symm.trans hlines')
      exact (hrest' line hline).not_meta hmeta
  · intro h
    cases hlines : textLines contents with
    | nil =>
      obtain rfl := textLines_eq_nil hlines
      refine ⟨⟨fun _ => .inl rfl, fun _ => ⟨_, parse_empty⟩⟩, fun parsed hparsed => ?_⟩
      obtain rfl := Except.ok.inj (parse_empty.symm.trans hparsed)
      exact parsedAs_of_lines rfl rfl
    | cons first rest =>
      have hrest : (∃ parsed, parseConversationContents serde contents = .ok parsed) →
          ∀ line ∈ rest, EventLine serde line := by
        intro hparsed line hline
        obtain ⟨hfirst, hlater⟩ := (parse_ok_iff hlines).mp hparsed
        rcases hlater line hline with hevent | hmeta
        · exact hevent
        · rcases h first rest hlines ⟨line, hline, hmeta⟩ with hbad | ⟨bad, hbad, hevent, hnotmeta⟩
          · exact absurd hfirst hbad
          · exact absurd (hlater bad hbad) (not_or.mpr ⟨hevent, hnotmeta⟩)
      refine ⟨⟨fun hparsed => ?_, ?_⟩, fun parsed hparsed => ?_⟩
      · exact .inr ⟨first, rest, hlines, ((parse_ok_iff hlines).mp hparsed).1, hrest hparsed⟩
      · rintro (rfl | ⟨first', rest', hlines', hfirst, hevents⟩)
        · exact nomatch hlines
        · exact (parse_ok_iff hlines').mpr ⟨hfirst, fun line hline => .inl (hevents line hline)⟩
      · exact parse_parsedAs hlines (hrest ⟨parsed, hparsed⟩) hparsed

theorem later_header_skipped : ∃ contents,
    (∃ parsed, parseConversationContents Text.codec contents = .ok parsed) ∧ ¬Conversation Text.codec contents := by
  let first := "\x7b\"seq\":1,\"time\":\"\",\"type\":\"a\",\"payload\":0\x7d"
  let later := "\x7b\"type\":\"meta\"\x7d"
  have hlines : textLines (first ++ "\n" ++ later ++ "\n") = [first, later] := by decide +kernel
  have hread : Text.codec.fromStr first =
      some (.object [("payload", .nat 0), ("seq", .nat 1), ("time", .string ""), ("type", .string "a")]) := by
    decide +kernel
  have hfirst : EventLine Text.codec first := ⟨_, ⟨1, "", "a", .nat 0⟩, hread, rfl, by decide⟩
  have hlater : MetaLine Text.codec later := ⟨.object [("type", .string "meta")], by decide +kernel, rfl⟩
  refine ⟨_, (parse_ok_iff hlines).mpr ⟨.inr hfirst, List.forall_mem_singleton.mpr (.inr hlater)⟩, ?_⟩
  rintro (hempty | ⟨first', rest', hlines', -, hevents⟩)
  · rw [hempty] at hlines
    exact nomatch hlines
  · obtain ⟨-, rfl⟩ := List.cons.inj (hlines.symm.trans hlines')
    exact (hevents later List.mem_cons_self).not_meta hlater

end Prelay.Rollout
