import Prelay.IdRewrite
import Prelay.JsonNormal

namespace Prelay.StreamRewrite

open Json Bridge Keepalive

theorem blank_dataPayload {line : Bytes} (h : Blank line) : dataPayload line = none := by
  rcases h with rfl | rfl <;> decide +kernel

section newLine

variable {serialized : String} (hplain : Plain serialized)

include hplain

theorem plain_data : Plain ("data: " ++ serialized) := Plain.append (by simp [Plain]) hplain

omit hplain in
theorem newLine_cases (line : Bytes) :
    ∃ ending : Bytes, newLine serialized line = Str.utf8 ("data: " ++ serialized) ++ ending ∧
    (ending = [13, 10] ∨ ending = [10] ∨ (ending = [] ∧ line.getLast? ≠ some 10)) := by
  unfold newLine
  rw [Str.utf8_append]
  unfold lineEnding
  split_ifs with hcrlf hlf
  · exact ⟨_, rfl, Or.inl rfl⟩
  · exact ⟨_, rfl, Or.inr (Or.inl rfl)⟩
  · refine ⟨_, rfl, Or.inr (Or.inr ⟨by simp [Str.utf8], ?_⟩)⟩
    intro hlast
    exact hlf ⟨_, (eq_of_getLast hlast).symm⟩

theorem dataPayload_newLine (line : Bytes) : dataPayload (newLine serialized line) = some serialized := by
  have hcr := (plain_data hplain).stripCr
  have hlf : (Str.utf8 ("data: " ++ serialized)).getLast? ≠ some 10 := fun h =>
    (plain_data hplain).notMem (by decide) (List.mem_of_getLast? h)
  obtain ⟨ending, hline, rfl | rfl | ⟨rfl, -⟩⟩ := @newLine_cases serialized line
  · have hstrip : stripLf (newLine serialized line) = Str.utf8 ("data: " ++ serialized) ++ [13] := by
      rw [hline, stripLf, if_pos (by simp)]
      simp
    have hdrop : Sse.stripCr (Str.utf8 ("data: " ++ serialized) ++ [13]) = Str.utf8 ("data: " ++ serialized) := by
      rw [Sse.stripCr, if_pos (by simp), List.dropLast_concat]
    rw [dataPayload, hstrip, hdrop, linePayload_data]
  · have hstrip : stripLf (newLine serialized line) = Str.utf8 ("data: " ++ serialized) := by
      rw [hline, stripLf, if_pos (by simp), List.dropLast_concat]
    rw [dataPayload, hstrip, hcr, linePayload_data]
  · rw [List.append_nil] at hline
    rw [dataPayload, hline, stripLf, if_neg hlf, hcr, linePayload_data]

theorem newLine_line (line : Bytes) : newLine serialized line ≠ [] ∧ 10 ∉ (newLine serialized line).dropLast := by
  have hplain' : (10 : UInt8) ∉ Str.utf8 ("data: " ++ serialized) := (plain_data hplain).notMem (by decide)
  have hne : Str.utf8 ("data: " ++ serialized) ≠ [] := by
    rw [Str.utf8_append]
    exact fun h => nomatch (List.append_eq_nil_iff.mp h).1
  obtain ⟨ending, hline, hending⟩ := @newLine_cases serialized line
  rw [hline]
  refine ⟨fun h => hne (List.append_eq_nil_iff.mp h).1, ?_⟩
  rcases hending with rfl | rfl | ⟨rfl, -⟩
  · rw [List.dropLast_append_of_ne_nil (by simp)]
    simpa using hplain'
  · rw [List.dropLast_concat]
    exact hplain'
  · rw [List.append_nil]
    exact fun h => hplain' (List.mem_of_mem_dropLast h)

end newLine

theorem newLine_closed (serialized : String) {line : Bytes} (h : line.getLast? = some 10) :
    (newLine serialized line).getLast? = some 10 := by
  obtain ⟨ending, hline, rfl | rfl | ⟨-, hopen⟩⟩ := @newLine_cases serialized line
  · simp [hline]
  · simp [hline]
  · exact absurd h hopen

theorem Lined.replaced {before after : List Bytes} {first : Bytes} {serialized : String} (hplain : Plain serialized)
    (h : Lined (before ++ first :: after)) (keep : Bytes → Bool) :
    Lined (before ++ newLine serialized first :: after.filter keep) := by
  obtain ⟨hbefore, hrest, hcross⟩ := List.pairwise_append.mp h.closed
  obtain ⟨hfirst, hafter⟩ := List.pairwise_cons.mp hrest
  constructor
  · intro line hline
    rcases List.mem_append.mp hline with hline | hline
    · exact h.line line (List.mem_append_left _ hline)
    · rcases List.mem_cons.mp hline with rfl | hline
      · exact newLine_line hplain first
      · exact h.line line (List.mem_append_right _ (List.mem_cons_of_mem _ (List.mem_of_mem_filter hline)))
  · refine List.pairwise_append.mpr ⟨hbefore, List.pairwise_cons.mpr ⟨?_, hafter.filter keep⟩, ?_⟩
    · intro line hline
      exact newLine_closed serialized (hfirst line (List.mem_of_mem_filter hline))
    · intro line hline _ _
      exact hcross line hline first List.mem_cons_self

theorem exists_first_data {lines : List Bytes} (h : lines.filterMap dataPayload ≠ []) :
    ∃ before first after data, lines = before ++ first :: after ∧ (∀ line ∈ before, dataPayload line = none) ∧
      dataPayload first = some data := by
  induction lines with
  | nil => exact absurd rfl h
  | cons line lines ih =>
    cases hdata : dataPayload line with
    | some data => exact ⟨[], line, lines, data, rfl, by simp, hdata⟩
    | none =>
      rw [List.filterMap_cons_none hdata] at h
      obtain ⟨before, first, after, data, rfl, hbefore, hfirst⟩ := ih h
      exact ⟨line :: before, first, after, data, rfl, List.forall_mem_cons.mpr ⟨hdata, hbefore⟩, hfirst⟩

variable (serde : SerdeJson)

/-- What becomes of an event: its lines without data stay, its value gets the local id, and an event
that has nothing to replace stays as it is. -/
structure Rewritten (localId : String) (event out : Bytes) : Prop where
  lines : otherLines out = otherLines event
  value : eventValue serde out = (eventValue serde event).map (withLocalId localId)
  same : (eventValue serde event).map (withLocalId localId) = eventValue serde event → out = event
  closed : ClosedEvent event → ClosedEvent out
  opened : OpenEvent event → OpenEvent out

variable {serde}

theorem Rewritten.refl {localId : String} {event : Bytes}
    (h : (eventValue serde event).map (withLocalId localId) = eventValue serde event) :
    Rewritten serde localId event event := ⟨rfl, h.symm, fun _ => rfl, id, id⟩

theorem eventValue_normal (hserde : serde.Faithful) {event : Bytes} {value : Value}
    (h : eventValue serde event = some value) : value.Normal := by
  unfold eventValue at h
  split_ifs at h
  exact hserde.fromStr_normal _ value h

theorem Rewritten.of_lines (hserde : serde.Faithful) {localId : String} {event out : Bytes} {value : Value}
    (hvalue : eventValue serde event = some value) (hchanged : withLocalId localId value ≠ value)
    {before after : List Bytes} {first : Bytes} {data : String} (hlines : splitLines event = before ++ first :: after)
    (hbefore : ∀ line ∈ before, dataPayload line = none) (hfirst : dataPayload first = some data)
    (hout : splitLines out = before ++ newLine (serde.toStr (withLocalId localId value)) first ::
      after.filter (fun line => (dataPayload line).isNone)) : Rewritten serde localId event out := by
  have hplain : Plain (serde.toStr (withLocalId localId value)) := hserde.no_control _
  have hnew := dataPayload_newLine hplain first
  have hnormal : (withLocalId localId value).Normal :=
    setString_normal localId _ _ (setString_normal localId _ _ (eventValue_normal hserde hvalue))
  generalize newLine (serde.toStr (withLocalId localId value)) first = line at hout hnew
  have hnone : before.filterMap dataPayload = [] := List.filterMap_eq_nil_iff.mpr hbefore
  have hpayloads : payloads out = [serde.toStr (withLocalId localId value)] := by
    have hkept : (after.filter (fun line => (dataPayload line).isNone)).filterMap dataPayload = [] := by
      apply List.filterMap_eq_nil_iff.mpr
      intro line hline
      simpa using List.of_mem_filter hline
    rw [payloads, hout, List.filterMap_append, hnone, List.filterMap_cons_some hnew, hkept]
    rfl
  have hread : eventValue serde out = some (withLocalId localId value) := by
    rw [eventValue, hpayloads, if_neg (List.cons_ne_nil _ _), Str.join]
    exact (hserde.fromStr_toStr _).trans (congrArg some hnormal)
  have hline : ¬Blank line := fun h => by simp [blank_dataPayload h] at hnew
  constructor
  · simp [otherLines, hout, hlines, hnew, hfirst]
  · rw [hread, hvalue]
    rfl
  · intro hsame
    rw [hvalue, Option.map_some, Option.some.injEq] at hsame
    exact absurd hsame hchanged
  · rintro ⟨lines, blank, hsplit, hnot, hblank⟩
    obtain ⟨after, rfl⟩ : ∃ rest, after = rest ++ [blank] := by
      rw [hlines] at hsplit
      rcases List.eq_nil_or_concat after with rfl | ⟨rest, last, rfl⟩
      · have hlast := congrArg List.getLast? hsplit
        obtain rfl : first = blank := by simpa using hlast
        rw [blank_dataPayload hblank] at hfirst
        cases hfirst
      · have hends : (before ++ first :: rest) ++ [last] = lines ++ [blank] := by simpa using hsplit
        have hlast := congrArg List.getLast? hends
        rw [List.getLast?_concat, List.getLast?_concat, Option.some.injEq] at hlast
        exact ⟨rest, by rw [← hlast, List.concat_eq_append]⟩
    have hothers : before ++ first :: after = lines := by
      rw [hlines, List.append_cons, ← List.append_assoc] at hsplit
      simpa using List.append_cancel_right hsplit
    refine ⟨before ++ line :: after.filter (fun line => (dataPayload line).isNone), blank, ?_, ?_, hblank⟩
    · rw [hout, List.filter_append]
      simp [blank_dataPayload hblank]
    · intro l hl
      rcases List.mem_append.mp hl with hl | hl
      · exact hnot l (hothers ▸ List.mem_append_left _ hl)
      · rcases List.mem_cons.mp hl with rfl | hl
        · exact hline
        · exact hnot l (hothers ▸ List.mem_append_right _ (List.mem_cons_of_mem _ (List.mem_of_mem_filter hl)))
  · intro hopen l hl
    rw [OpenEvent, hlines] at hopen
    rw [hout] at hl
    rcases List.mem_append.mp hl with hl | hl
    · exact hopen l (List.mem_append_left _ hl)
    · rcases List.mem_cons.mp hl with rfl | hl
      · exact hline
      · exact hopen l (List.mem_append_right _ (List.mem_cons_of_mem _ (List.mem_of_mem_filter hl)))

theorem rewriteEvent_rewritten (hserde : serde.Faithful) (localId : String) (event : Bytes) :
    Rewritten serde localId event (rewriteEvent serde localId event) := by
  cases hvalue : eventValue serde event with
  | none =>
    rw [rewriteEvent_none serde localId hvalue]
    apply Rewritten.refl
    rw [hvalue]
    rfl
  | some value =>
    rw [rewriteEvent_some serde localId hvalue, rewriteValue_eq localId (eventValue_normal hserde hvalue)]
    split_ifs with hsame
    · apply Rewritten.refl
      rw [hvalue, Option.map_some, hsame]
    · have hdata : (splitLines event).filterMap dataPayload ≠ [] := by
        intro hnil
        rw [eventValue, payloads, if_pos hnil] at hvalue
        cases hvalue
      obtain ⟨before, first, after, data, hlines, hbefore, hfirst⟩ := exists_first_data hdata
      have hlined := (splitLines_lined event).1
      rw [hlines] at hlined
      rw [hlines, rewriteLines_eq _ hbefore hfirst]
      refine Rewritten.of_lines hserde hvalue hsame hlines hbefore hfirst ?_
      exact splitLines_flatten (hlined.replaced (hserde.no_control _) _)

structure EventsOf (bytes : Bytes) (events : List Bytes) : Prop where
  join : events.flatten = bytes
  cut : ∃ closed rest, events = closed ++ rest ∧ (∀ event ∈ closed, ClosedEvent event) ∧
    (rest = [] ∨ ∃ event, rest = [event] ∧ event ≠ [] ∧ OpenEvent event)

def openEvent (buffer : Bytes) : List Bytes := if buffer = [] then [] else [buffer]

def streamEvents (bytes : Bytes) : List Bytes :=
  (ResponseIdRewriter.drained bytes).1 ++ openEvent (ResponseIdRewriter.drained bytes).2

theorem streamEvents_cut (bytes : Bytes) : EventsOf bytes (streamEvents bytes) := by
  obtain ⟨hclosed, hopen, hjoin⟩ := ResponseIdRewriter.drained_spec bytes
  constructor
  · rw [streamEvents, openEvent, List.flatten_append]
    split_ifs with hnil
    · rw [hnil] at hjoin
      exact hjoin
    · rw [List.flatten_singleton]
      exact hjoin
  · refine ⟨_, _, rfl, hclosed, ?_⟩
    unfold openEvent
    split_ifs with hnil
    · exact Or.inl rfl
    · exact Or.inr ⟨_, rfl, hnil, hopen⟩

variable (serde)

/-- Whatever the chunks, the rewriter sends the rewritten events of the whole stream. -/
theorem rewriter_events (localId : String) (buffer : Bytes) (chunks : List Bytes) (hopen : eventEnd buffer = none) :
    (mapResponseStream (responseIdRewriter serde) ⟨buffer, localId⟩ (chunks.map .ok)).map Prod.fst =
      (streamEvents (buffer ++ chunks.flatten)).map (fun event => .ok (rewriteEvent serde localId event)) := by
  induction chunks generalizing buffer with
  | nil =>
    rw [List.flatten_nil, List.append_nil, streamEvents, ResponseIdRewriter.drained_none hopen, List.nil_append, openEvent]
    simp only [List.map_nil, mapResponseStream, responseIdRewriter, ResponseIdRewriter.finish]
    split_ifs <;> rfl
  | cons chunk chunks ih =>
    have hrest : eventEnd (ResponseIdRewriter.drained (buffer ++ chunk)).2 = none :=
      (ResponseIdRewriter.drainEvents_spec _ (buffer ++ chunk) le_rfl).2.1
    have hpush : (responseIdRewriter serde).pushChunk ⟨buffer, localId⟩ chunk =
        (⟨(ResponseIdRewriter.drained (buffer ++ chunk)).2, localId⟩,
          (ResponseIdRewriter.drained (buffer ++ chunk)).1.map (rewriteEvent serde localId)) := rfl
    rw [List.map_cons, mapResponseStream, hpush, List.map_append, ih _ hrest, List.flatten_cons, ← List.append_assoc,
      streamEvents, streamEvents, ResponseIdRewriter.drained_append (buffer ++ chunk) chunks.flatten, List.append_assoc,
      List.map_append]
    simp [Function.comp_def]

theorem rewriteResponseIds_eq (localId : String) (chunks : List Bytes) :
    rewriteResponseIds serde localId (chunks.map .ok) =
      ((streamEvents chunks.flatten).map (rewriteEvent serde localId)).map .ok := by
  rw [rewriteResponseIds, rewriter_events serde localId [] chunks rfl, List.map_map]
  rfl

variable {serde}

theorem rewritten_cut (hserde : serde.Faithful) (localId : String) {bytes : Bytes} {events : List Bytes}
    (h : EventsOf bytes events) :
    EventsOf (events.map (rewriteEvent serde localId)).flatten (events.map (rewriteEvent serde localId)) := by
  obtain ⟨-, closed, rest, rfl, hclosed, hrest⟩ := h
  refine ⟨rfl, closed.map (rewriteEvent serde localId), rest.map (rewriteEvent serde localId), List.map_append, ?_, ?_⟩
  · intro out hout
    obtain ⟨event, hevent, rfl⟩ := List.mem_map.mp hout
    exact (rewriteEvent_rewritten hserde localId event).closed (hclosed event hevent)
  · rcases hrest with rfl | ⟨event, rfl, hne, hopen⟩
    · exact Or.inl rfl
    · have hout := rewriteEvent_rewritten hserde localId event
      refine Or.inr ⟨_, rfl, ?_, hout.opened hopen⟩
      intro hnil
      have hempty : otherLines event = [] ∧ (eventValue serde event).map (withLocalId localId) = none := by
        rw [← hout.lines, ← hout.value, hnil]
        exact ⟨rfl, rfl⟩
      have hnone : eventValue serde event = none := Option.map_eq_none_iff.mp hempty.2
      rw [rewriteEvent_none serde localId hnone] at hnil
      exact hne hnil

theorem withLocalId_response {localId text : String} {value : Value}
    (h : (value.get "response").bind (Value.get "id") = some (.string text)) :
    ((withLocalId localId value).get "response").bind (Value.get "id") = some (.string localId) := by
  obtain ⟨response, hresponse, hid⟩ := Option.bind_eq_some_iff.mp h
  rw [withLocalId, get_setString_ne localId _ _ (by decide), get_setString_same, hresponse, Option.map_some,
    Option.bind_some, get_setString_same, hid]
  rfl

theorem withLocalId_responseId {localId text : String} {value : Value}
    (h : value.get "response_id" = some (.string text)) :
    (withLocalId localId value).get "response_id" = some (.string localId) := by
  rw [withLocalId, get_setString_same, get_setString_ne localId _ _ (by decide), h]
  rfl

/-- However a native stream is cut into chunks, the client gets its events in order, each with the local id
in the places of the response id and otherwise as it was. -/
theorem response_ids_rewritten (hserde : serde.Faithful) (localId : String) (chunks : List Bytes) :
    ∃ events outs : List Bytes, rewriteResponseIds serde localId (chunks.map .ok) = outs.map .ok ∧
      (∀ others : List Bytes, others.flatten = chunks.flatten →
        rewriteResponseIds serde localId (others.map .ok) = outs.map .ok) ∧
      EventsOf chunks.flatten events ∧ EventsOf outs.flatten outs ∧
      List.Forall₂ (Rewritten serde localId) events outs ∧
      ∀ value text, ((value.get "response").bind (Value.get "id") = some (.string text) →
          ((withLocalId localId value).get "response").bind (Value.get "id") = some (.string localId)) ∧
        (value.get "response_id" = some (.string text) →
          (withLocalId localId value).get "response_id" = some (.string localId)) := by
  have hcut := streamEvents_cut chunks.flatten
  refine ⟨streamEvents chunks.flatten, (streamEvents chunks.flatten).map (rewriteEvent serde localId),
    rewriteResponseIds_eq serde localId chunks, ?_, hcut, rewritten_cut hserde localId hcut, ?_, ?_⟩
  · intro others hothers
    rw [rewriteResponseIds_eq, hothers]
  · apply List.forall₂_map_right_iff.mpr
    apply List.forall₂_same.mpr
    intro event _
    exact rewriteEvent_rewritten hserde localId event
  · intro value text
    exact ⟨withLocalId_response, withLocalId_responseId⟩

theorem response_ids_rewritten_split_event :
    ∃ events outs : List Bytes,
      rewriteResponseIds Text.codec "b"
        ([Str.utf8 "id: 1\ndata: \x7b\"response_id\":", Str.utf8 "\"a\"\x7d\n\n"].map .ok) = outs.map .ok ∧
      List.Forall₂ (Rewritten Text.codec "b") events outs ∧
      outs = [Str.utf8 "id: 1\ndata: \x7b\"response_id\":\"b\"\x7d\n\n"] := by
  obtain ⟨events, outs, hsent, -, -, -, hevents, -⟩ := response_ids_rewritten Text.codec_faithful "b"
    [Str.utf8 "id: 1\ndata: \x7b\"response_id\":", Str.utf8 "\"a\"\x7d\n\n"]
  refine ⟨events, outs, hsent, hevents, ?_⟩
  have hbytes : rewriteResponseIds Text.codec "b"
      ([Str.utf8 "id: 1\ndata: \x7b\"response_id\":", Str.utf8 "\"a\"\x7d\n\n"].map .ok) =
        [Str.utf8 "id: 1\ndata: \x7b\"response_id\":\"b\"\x7d\n\n"].map .ok := by
    decide +kernel
  exact List.map_injective_iff.mpr (fun _ _ h => Except.ok.inj h) (hsent.symm.trans hbytes)

end Prelay.StreamRewrite
