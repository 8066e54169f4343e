import Prelay.Sse
import Prelay.JsonText
import Prelay.EventStream

namespace Prelay.StreamRewrite

open Json EventStream

def eventEndFrom (index : ℕ) (line : Bytes) : Bytes → Option ℕ
  | [] => none
  | byte :: buffer =>
    if byte = 10 then
      if Sse.stripCr line = [] then some (index + 1) else eventEndFrom (index + 1) [] buffer
    else eventEndFrom (index + 1) (line ++ [byte]) buffer

def eventEnd (buffer : Bytes) : Option ℕ := eventEndFrom 0 [] buffer

def splitLines (event : Bytes) : List Bytes :=
  (Lines.split 10 event).1.map (fun line => line ++ [10]) ++
    if (Lines.split 10 event).2 = [] then [] else [(Lines.split 10 event).2]

def stripLf (line : Bytes) : Bytes := if line.getLast? = some 10 then line.dropLast else line

def dataPayload (line : Bytes) : Option String := Sse.linePayload Sse.stripSpace (Sse.stripCr (stripLf line))

def dataLines (lines : List Bytes) : List (ℕ × String) :=
  lines.zipIdx.filterMap (fun p => (dataPayload p.1).map (fun data => (p.2, data)))

def lineEnding (line : Bytes) : String :=
  if [13, 10] <:+ line then "\r\n" else if [10] <:+ line then "\n" else ""

def rewriteResponse (localId : String) : Value → Value
  | .object members =>
    if ((Value.object members).get "id").any Value.isString then .object (insertMember "id" (.string localId) members)
    else .object members
  | response => response

def rewriteResponseMember (localId : String) (value : Value) : Value :=
  match value, value.get "response" with
  | .object members, some response => .object (insertMember "response" (rewriteResponse localId response) members)
  | value, _ => value

def rewriteValue (localId : String) (value : Value) : Value :=
  match rewriteResponseMember localId value with
  | .object members =>
    if ((Value.object members).get "response_id").any Value.isString then
      .object (insertMember "response_id" (.string localId) members)
    else .object members
  | value => value

structure ResponseIdRewriter where
  eventBuffer : Bytes := []
  localId : String

variable (serde : SerdeJson)

/-- What stands in the place of a line: the new payload for the first data line, nothing for the others. -/
def rewriteLine (serialized : String) (dataLines : List (ℕ × String)) (p : Bytes × ℕ) : Bytes :=
  if dataLines.head?.map Prod.fst = some p.2 then Str.utf8 ("data: " ++ serialized ++ lineEnding p.1)
  else if p.2 ∈ dataLines.map Prod.fst then []
  else p.1

def rewriteEvent (localId : String) (event : Bytes) : Bytes :=
  let lines := splitLines event
  let dataLines := dataLines lines
  if dataLines = [] then event
  else match serde.fromStr (Str.join "\n" (dataLines.map Prod.snd)) with
    | none => event
    | some value =>
      if rewriteValue localId value = value then event
      else lines.zipIdx.flatMap (rewriteLine (serde.toStr (rewriteValue localId value)) dataLines)

namespace ResponseIdRewriter

/-- The events at the front of the buffer; each takes a byte at least, so the length is enough fuel. -/
def drainEvents : ℕ → Bytes → List Bytes × Bytes
  | 0, buffer => ([], buffer)
  | fuel + 1, buffer => match eventEnd buffer with
    | some stop => (buffer.take stop :: (drainEvents fuel (buffer.drop stop)).1, (drainEvents fuel (buffer.drop stop)).2)
    | none => ([], buffer)

def pushChunk (rewriter : ResponseIdRewriter) (chunk : Bytes) : ResponseIdRewriter × List Bytes :=
  let buffer := rewriter.eventBuffer ++ chunk
  let (events, rest) := drainEvents buffer.length buffer
  ({ rewriter with eventBuffer := rest }, events.map (rewriteEvent serde rewriter.localId))

def finish (rewriter : ResponseIdRewriter) : ResponseIdRewriter × List Bytes :=
  if rewriter.eventBuffer = [] then (rewriter, [])
  else ({ rewriter with eventBuffer := [] }, [rewriteEvent serde rewriter.localId rewriter.eventBuffer])

end ResponseIdRewriter

theorem stripCr_eq_nil {line : Bytes} (h : Sse.stripCr line = []) : line = [] ∨ line = [13] := by
  unfold Sse.stripCr at h
  split_ifs at h with hlast
  · obtain ⟨init, rfl⟩ := List.getLast?_eq_some_iff.mp hlast
    rw [List.dropLast_concat] at h
    exact Or.inr (by rw [h]; rfl)
  · exact Or.inl h

theorem eventEndFrom_spec (before line buffer : Bytes) (hbefore : before = [] ∨ before.getLast? = some 10) (stop : ℕ)
    (h : eventEndFrom (before.length + line.length) line buffer = some stop) :
    EndsBlank ((before ++ line ++ buffer).take stop) ∧ 0 < stop ∧ stop ≤ (before ++ line ++ buffer).length := by
  induction buffer generalizing before line with
  | nil => exact nomatch h
  | cons byte buffer ih =>
    rw [eventEndFrom] at h
    split_ifs at h with hlf hblank
    · subst hlf
      obtain rfl : before.length + line.length + 1 = stop := by simpa using h
      have htake : (before ++ line ++ 10 :: buffer).take (before.length + line.length + 1) = before ++ (line ++ [10]) := by
        rw [← List.length_append, List.take_length_add_append]
        simp
      have hinside : before.length + line.length + 1 ≤ (before ++ line ++ 10 :: buffer).length := by
        rw [List.length_append, List.length_append, List.length_cons]
        omega
      refine ⟨⟨before, line ++ [10], htake, hbefore, ?_⟩, by omega, hinside⟩
      rcases stripCr_eq_nil hblank with rfl | rfl
      · exact Or.inl rfl
      · exact Or.inr rfl
    · subst hlf
      have hlines : before ++ line ++ 10 :: buffer = before ++ line ++ [10] ++ [] ++ buffer := by simp
      rw [hlines]
      apply ih (before ++ line ++ [10]) [] (Or.inr (by simp))
      simpa [Nat.add_assoc] using h
    · have hlines : before ++ line ++ byte :: buffer = before ++ (line ++ [byte]) ++ buffer := by simp
      rw [hlines]
      apply ih before (line ++ [byte]) hbefore
      simpa [Nat.add_assoc] using h

theorem eventEnd_spec {buffer : Bytes} {stop : ℕ} (h : eventEnd buffer = some stop) :
    EndsBlank (buffer.take stop) ∧ 0 < stop ∧ stop ≤ buffer.length := by
  simpa using eventEndFrom_spec [] [] buffer (Or.inl rfl) stop h

theorem ResponseIdRewriter.drainEvents_spec (fuel : ℕ) (buffer : Bytes) (hfuel : buffer.length ≤ fuel) :
    (∀ event ∈ (drainEvents fuel buffer).1, EndsBlank event) ∧ eventEnd (drainEvents fuel buffer).2 = none ∧
      (drainEvents fuel buffer).1.flatten ++ (drainEvents fuel buffer).2 = buffer := by
  induction fuel generalizing buffer with
  | zero =>
    obtain rfl : buffer = [] := List.length_eq_zero_iff.mp (Nat.le_zero.mp hfuel)
    simp [drainEvents, eventEnd, eventEndFrom]
  | succ fuel ih =>
    unfold drainEvents
    cases hend : eventEnd buffer with
    | none => exact ⟨by simp, hend, by simp⟩
    | some stop =>
      obtain ⟨hblank, hpos, hle⟩ := eventEnd_spec hend
      obtain ⟨hevents, hrest, hjoin⟩ := ih (buffer.drop stop) (by rw [List.length_drop]; omega)
      refine ⟨?_, hrest, ?_⟩
      · intro event hevent
        rcases List.mem_cons.mp hevent with rfl | hevent
        · exact hblank
        · exact hevents event hevent
      · rw [List.flatten_cons, List.append_assoc, hjoin, List.take_append_drop]

theorem split_line_feed (bs : Bytes) (h : bs = [] ∨ bs.getLast? = some 10) : (Lines.split 10 bs).2 = [] := by
  rcases h with rfl | h
  · rfl
  · obtain ⟨init, rfl⟩ := List.getLast?_eq_some_iff.mp h
    rw [Lines.split_append_snd, Lines.split_line 10 _ [] (Lines.split_spec 10 init).2.1]
    rfl

theorem splitLines_endsBlank {event : Bytes} (h : EndsBlank event) :
    ∃ (lines : List Bytes) (blank : Bytes), splitLines event = lines.map (fun line => line ++ [10]) ++ [blank] ∧
      dataPayload blank = none ∧
      (blank = [10] ∨ blank = [13, 10]) := by
  obtain ⟨before, blank, rfl, hbefore, hblank⟩ := h
  have hsplit : Lines.split 10 (before ++ blank) = Lines.prepend (Lines.split 10 before).1 (Lines.split 10 blank) := by
    rw [Lines.split_append, split_line_feed before hbefore, List.nil_append]
  refine ⟨(Lines.split 10 before).1, blank, ?_, ?_, hblank⟩
  · rcases hblank with rfl | rfl <;> simp [splitLines, hsplit, Lines.split, Lines.prepend, Lines.consLine]
  · rcases hblank with rfl | rfl <;> decide +kernel

theorem flatMap_line_feed {α : Type} (as : List α) (piece : α → Bytes)
    (h : ∀ a ∈ as, piece a = [] ∨ (piece a).getLast? = some 10) :
    as.flatMap piece = [] ∨ (as.flatMap piece).getLast? = some 10 := by
  induction as with
  | nil => exact Or.inl rfl
  | cons a as ih =>
    rw [List.flatMap_cons, List.getLast?_append, List.append_eq_nil_iff]
    have ha := h a List.mem_cons_self
    rcases ih (fun b hb => h b (List.mem_cons_of_mem _ hb)) with hnil | hlast
    · simpa [hnil] using ha
    · simp [hlast]

theorem utf8_lineEnding (text : String) (line : Bytes) :
    (Str.utf8 (text ++ lineEnding (line ++ [10]))).getLast? = some 10 := by
  rw [Str.utf8_append, List.getLast?_append]
  unfold lineEnding
  split_ifs with hcrlf hlf
  · rfl
  · rfl
  · exact absurd (List.suffix_append line [10]) hlf

theorem dataLines_index {lines : List Bytes} {p : ℕ × String} (hp : p ∈ dataLines lines) :
    ∃ line, lines[p.1]? = some line ∧ dataPayload line ≠ none := by
  obtain ⟨q, hq, hdata⟩ := List.mem_filterMap.mp hp
  obtain ⟨data, hpayload, rfl⟩ := Option.map_eq_some_iff.mp hdata
  exact ⟨q.1, List.mem_zipIdx_iff_getElem?.mp hq, by simp [hpayload]⟩

theorem rewriteLine_line_feed (serialized : String) (dataLines : List (ℕ × String)) (line : Bytes) (index : ℕ) :
    rewriteLine serialized dataLines (line ++ [10], index) = [] ∨
      (rewriteLine serialized dataLines (line ++ [10], index)).getLast? = some 10 := by
  unfold rewriteLine
  split_ifs
  · exact Or.inr (utf8_lineEnding _ line)
  · exact Or.inl rfl
  · exact Or.inr (by simp)

theorem rewriteLine_other (serialized : String) (dataLines : List (ℕ × String)) (line : Bytes) (index : ℕ)
    (h : ∀ p ∈ dataLines, p.1 ≠ index) : rewriteLine serialized dataLines (line, index) = line := by
  have hnot : index ∉ dataLines.map Prod.fst := by
    intro hmem
    obtain ⟨p, hp, heq⟩ := List.mem_map.mp hmem
    exact h p hp heq
  have hfirst : dataLines.head?.map Prod.fst ≠ some index := by
    intro hhead
    obtain ⟨p, hp, heq⟩ := Option.map_eq_some_iff.mp hhead
    exact h p (List.mem_of_mem_head? hp) heq
  rw [rewriteLine, if_neg hfirst, if_neg hnot]

theorem rewriteEvent_endsBlank (localId : String) {event : Bytes} (h : EndsBlank event) :
    EndsBlank (rewriteEvent serde localId event) := by
  obtain ⟨lines, blank, hlines, hpayload, hblank⟩ := splitLines_endsBlank h
  have hindex : ∀ p ∈ dataLines (splitLines event), p.1 ≠ lines.length := by
    intro p hp heq
    obtain ⟨line, hline, hdata⟩ := dataLines_index hp
    rw [hlines, heq, List.getElem?_append_right (by simp)] at hline
    obtain rfl : blank = line := by simpa using hline
    exact hdata hpayload
  unfold rewriteEvent
  dsimp only
  split
  · exact h
  · split
    · exact h
    · split_ifs
      · exact h
      · generalize dataLines (splitLines event) = found at hindex
        rw [hlines, List.zipIdx_append, List.flatMap_append]
        refine ⟨_, blank, congrArg _ ?_, flatMap_line_feed _ _ ?_, hblank⟩
        · simpa using rewriteLine_other _ found blank lines.length hindex
        · rintro ⟨line, index⟩ hp
          have hline := List.fst_mem_of_mem_zipIdx hp
          obtain ⟨line, -, rfl⟩ := List.mem_map.mp hline
          exact rewriteLine_line_feed _ found line index

end Prelay.StreamRewrite
