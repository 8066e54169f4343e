import Mathlib.Data.List.DropRight
import Mathlib.Data.List.Infix
import Mathlib.Data.UInt

namespace EventStream

structure Event where
  type : List UInt8
  data : List UInt8
  lastEventId : List UInt8
  deriving DecidableEq

structure State where
  line : List UInt8 := []
  afterCr : Bool := false
  data : List UInt8 := []
  type : List UInt8 := []
  id : List UInt8 := []
  deriving DecidableEq

namespace State

def dispatch (s : State) : State × List Event :=
  ({ s with data := [], type := [] }, if s.data = [] then [] else [⟨s.type, s.data.dropLast, s.id⟩])

def fieldName (line : List UInt8) : List UInt8 := line.takeWhile (· ≠ 58)

def fieldValue (line : List UInt8) : List UInt8 :=
  match (line.dropWhile (· ≠ 58)).drop 1 with
  | 32 :: value => value
  | value => value

-- the letters of `event`, `data` and `id`; a comment has the empty name
def eventField : List UInt8 := [101, 118, 101, 110, 116]

def dataField : List UInt8 := [100, 97, 116, 97]

def idField : List UInt8 := [105, 100]

def processField (s : State) (name value : List UInt8) : State :=
  if name = eventField then { s with type := value }
  else if name = dataField then { s with data := s.data ++ value ++ [10] }
  else if name = idField then if 0 ∈ value then s else { s with id := value }
  else s

def endLine (s : State) (cr : Bool) : State × List Event :=
  if s.line = [] then { s with afterCr := cr }.dispatch
  else ({ s.processField (fieldName s.line) (fieldValue s.line) with line := [], afterCr := cr }, [])

def step (s : State) (b : UInt8) : State × List Event :=
  if b = 10 then if s.afterCr then ({ s with afterCr := false }, []) else s.endLine false
  else if b = 13 then s.endLine true
  else ({ s with line := s.line ++ [b], afterCr := false }, [])

def run (s : State) : List UInt8 → State × List Event
  | [] => (s, [])
  | b :: bs => (((s.step b).1.run bs).1, (s.step b).2 ++ ((s.step b).1.run bs).2)

def Between (s : State) : Prop := s.line = [] ∧ s.data = [] ∧ s.type = []

instance (s : State) : Decidable s.Between := inferInstanceAs (Decidable (_ ∧ _ ∧ _))

theorem run_append (s : State) (as bs : List UInt8) :
    s.run (as ++ bs) = (((s.run as).1.run bs).1, (s.run as).2 ++ ((s.run as).1.run bs).2) := by
  induction as generalizing s with
  | nil => simp [run]
  | cons a as ih => simp [run, ih]

theorem run_text (s : State) (b : UInt8) (text : List UInt8) (h : ∀ c ∈ b :: text, c ≠ 10 ∧ c ≠ 13) :
    s.run (b :: text) = ({ s with line := s.line ++ b :: text, afterCr := false }, []) := by
  induction text generalizing s b with
  | nil =>
    have hb := h b List.mem_cons_self
    simp [run, step, hb]
  | cons c text ih =>
    have hb := h b List.mem_cons_self
    have hrest := ih ({ s with line := s.line ++ [b], afterCr := false }) c
      (fun d hd => h d (List.mem_cons_of_mem _ hd))
    rw [run]
    simp only [step, hb, ↓reduceIte, hrest]
    simp

/-- States that a reader of the rest cannot tell apart: between events it does not matter whether a
line feed would still belong to the last line. -/
def SameRest (s t : State) : Prop :=
  s.line = t.line ∧ s.data = t.data ∧ s.type = t.type ∧ s.id = t.id ∧ (s.afterCr = t.afterCr ∨ s.Between)

theorem SameRest.refl (s : State) : SameRest s s := ⟨rfl, rfl, rfl, rfl, Or.inl rfl⟩

theorem SameRest.step {s t : State} (h : SameRest s t) (b : UInt8) :
    SameRest (s.step b).1 (t.step b).1 ∧ (s.step b).2 = (t.step b).2 := by
  obtain ⟨line, cr, data, type, id⟩ := s
  obtain ⟨line', cr', data', type', id'⟩ := t
  obtain ⟨rfl, rfl, rfl, rfl, hcr⟩ := h
  by_cases hcr' : cr = cr'
  · subst hcr'
    exact ⟨SameRest.refl _, rfl⟩
  obtain ⟨rfl, rfl, rfl⟩ : line = [] ∧ data = [] ∧ type = [] := hcr.resolve_left hcr'
  unfold State.step
  by_cases hlf : b = 10
  · subst hlf
    cases cr <;> cases cr' <;> simp [endLine, dispatch, SameRest, Between]
  by_cases hcr13 : b = 13
  · subst hcr13
    simp [endLine, dispatch, SameRest]
  · simp [hlf, hcr13, SameRest]

theorem SameRest.run {s t : State} (h : SameRest s t) (bs : List UInt8) : (s.run bs).2 = (t.run bs).2 := by
  induction bs generalizing s t with
  | nil => rfl
  | cons b bs ih =>
    obtain ⟨hstate, hevents⟩ := h.step b
    rw [State.run, State.run, hevents, ih hstate]

def closed (s : State) (text : List UInt8) : State :=
  { s.processField (fieldName (s.line ++ text)) (fieldValue (s.line ++ text)) with line := [], afterCr := false }

theorem run_block (s : State) (text : List UInt8) (hne : text ≠ []) (h : ∀ c ∈ text, c ≠ 10 ∧ c ≠ 13) :
    s.run (text ++ [10, 10]) = (s.closed text).dispatch := by
  obtain ⟨b, text, rfl⟩ := List.exists_cons_of_ne_nil hne
  have hfield : ∀ name value, processField { s with line := s.line ++ b :: text, afterCr := false } name value =
      { s.processField name value with line := s.line ++ b :: text, afterCr := false } := by
    intro name value
    unfold processField
    split_ifs <;> rfl
  have hclosed : ({ s with line := s.line ++ b :: text, afterCr := false } : State).step 10 =
      (s.closed (b :: text), []) := by
    simp [step, endLine, hfield, closed]
  rw [run_append, run_text s b text h, run, hclosed, run]
  simp [run, step, endLine, closed]

theorem processField_data (s : State) (name value : List UInt8) :
    (s.processField name value).data = if name = dataField then s.data ++ value ++ [10] else s.data := by
  unfold processField
  by_cases he : name = eventField
  · subst he
    simp [eventField, dataField]
  · split_ifs <;> rfl

theorem closed_data (s : State) (text : List UInt8) :
    (s.closed text).data =
      if fieldName (s.line ++ text) = dataField then s.data ++ fieldValue (s.line ++ text) ++ [10] else s.data :=
  processField_data s _ _

theorem fieldName_append (line text : List UInt8) (h : 58 ∈ line) : fieldName (line ++ text) = fieldName line := by
  unfold fieldName
  rw [List.takeWhile_append, if_neg]
  intro hlength
  have hall := List.takeWhile_eq_self_iff.mp (List.takeWhile_prefix (· ≠ 58) |>.eq_of_length hlength) 58 h
  simp at hall

theorem fieldName_of_not_mem (line : List UInt8) (h : 58 ∉ line) : fieldName line = line := by
  rw [fieldName, List.takeWhile_eq_self_iff]
  intro c hc
  simpa using fun he : c = 58 => h (he ▸ hc)

theorem fieldName_colon (line text : List UInt8) (h : 58 ∉ line) : fieldName (line ++ 58 :: text) = line := by
  rw [fieldName, List.takeWhile_append_of_pos]
  · simp
  · intro c hc
    simpa using fun he : c = 58 => h (he ▸ hc)

end State

def comment (text : List UInt8) : List UInt8 := (58 :: text) ++ [10, 10]

def probe : List UInt8 := State.dataField ++ [10, 10]

open State

variable {text : List UInt8}

theorem comment_text (htext : ∀ c ∈ text, c ≠ 10 ∧ c ≠ 13) : ∀ c ∈ 58 :: text, c ≠ 10 ∧ c ≠ 13 := by
  intro c hc
  rcases List.mem_cons.mp hc with rfl | hc
  · decide
  · exact htext c hc

theorem run_comment_between (htext : ∀ c ∈ text, c ≠ 10 ∧ c ≠ 13) (s : State) (h : s.Between) :
    (s.run (comment text)).2 = [] ∧ SameRest (s.run (comment text)).1 s := by
  obtain ⟨hline, hdata, htype⟩ := h
  have hname : fieldName (58 :: text) = [] := fieldName_colon [] text (by simp)
  have hclosed : s.closed (58 :: text) = { s with afterCr := false } := by
    simp [closed, hline, hname, processField, eventField, dataField, idField]
  rw [comment, run_block s _ (by simp) (comment_text htext), hclosed]
  simp [dispatch, SameRest, Between, hline, hdata, htype]

theorem between_of_probe (htext : ∀ c ∈ text, c ≠ 10 ∧ c ≠ 13) (s : State)
    (h : (s.run (comment text ++ probe)).2 = (s.run probe).2) : s.Between := by
  have hprobe : ∀ t : State, t.run probe = (t.closed dataField).dispatch :=
    fun t => run_block t dataField (by decide) (by simp [dataField])
  rw [run_append, comment, run_block s _ (by simp) (comment_text htext), hprobe, hprobe] at h
  have hlast : (((s.closed (58 :: text)).dispatch.1.closed dataField).dispatch).2 =
      [⟨[], [], (s.closed (58 :: text)).id⟩] := by
    simp [dispatch, closed, fieldName, fieldValue, processField, dataField, eventField]
  rw [hlast] at h
  have hdata : (s.closed (58 :: text)).data = [] := by
    by_contra hne
    have hlength := congrArg List.length h
    by_cases hempty : (s.closed dataField).data = [] <;> simp [dispatch, hne, hempty] at hlength
  have hopen : (s.closed dataField).data ≠ [] := by
    intro hempty
    simp [dispatch, hdata, hempty] at h
  simp only [dispatch, hdata, hopen, ↓reduceIte, List.nil_append, List.cons.injEq, Event.mk.injEq, and_true] at h
  rw [closed_data] at hdata hopen
  have hname : fieldName (s.line ++ 58 :: text) ≠ dataField := by
    intro hname
    simp [hname] at hdata
  rw [if_neg hname] at hdata
  have hfield : fieldName (s.line ++ dataField) = dataField := by
    by_contra hne
    exact hopen (by rw [if_neg hne, hdata])
  have hline : s.line = [] := by
    by_cases hcolon : 58 ∈ s.line
    · rw [fieldName_append _ _ hcolon] at hname hfield
      exact absurd hfield hname
    · rw [fieldName_of_not_mem _ (by simp [hcolon, dataField])] at hfield
      simpa using hfield
  refine ⟨hline, hdata, ?_⟩
  have htype := h.1
  simp only [closed, hfield, processField] at htype
  exact htype.symm

theorem comment_invisible_iff (htext : ∀ c ∈ text, c ≠ 10 ∧ c ≠ 13) (s : State) :
    (∀ rest, (s.run (comment text ++ rest)).2 = (s.run rest).2) ↔ s.Between := by
  constructor
  · intro h
    exact between_of_probe htext s (h probe)
  · intro h rest
    obtain ⟨hevents, hsame⟩ := run_comment_between htext s h
    rw [run_append, hevents, List.nil_append]
    exact hsame.run rest

def bom : List UInt8 := [0xEF, 0xBB, 0xBF]

def stripBom (bs : List UInt8) : List UInt8 := if bom <+: bs then bs.drop 3 else bs

def stateAfter (bs : List UInt8) : State := (State.run {} (stripBom bs)).1

def events (bs : List UInt8) : List Event := (State.run {} (stripBom bs)).2

def Idle (sent : List UInt8) : Prop := sent ≠ [] ∧ (stateAfter sent).Between

theorem stripBom_append (sent rest : List UInt8) (h : bom <+: sent ++ rest → bom <+: sent) :
    stripBom (sent ++ rest) = stripBom sent ++ rest := by
  unfold stripBom
  by_cases hbom : bom <+: sent
  · rw [if_pos hbom, if_pos (hbom.trans (List.prefix_append sent rest)), List.drop_append_of_le_length]
    exact hbom.length_le
  · rw [if_neg hbom, if_neg (fun hlong => hbom (h hlong))]

theorem stripBom_append_cons (sent : List UInt8) (hne : sent ≠ []) (c : UInt8) (hbb : c ≠ 0xBB) (hbf : c ≠ 0xBF)
    (rest : List UInt8) : stripBom (sent ++ c :: rest) = stripBom sent ++ c :: rest := by
  apply stripBom_append
  match sent, hne with
  | [a], _ => simp [bom, hbb.symm]
  | [a, b], _ => simp [bom, hbf.symm]
  | a :: b :: d :: sent, _ => simp [bom]

theorem stripBom_append_idle (sent : List UInt8) (h : Idle sent) (rest : List UInt8) :
    stripBom (sent ++ rest) = stripBom sent ++ rest := by
  apply stripBom_append
  obtain ⟨hne, hline, -⟩ := h
  match sent, hne with
  | [a], _ =>
    intro hbom
    obtain ⟨rfl, -⟩ := List.cons_prefix_cons.mp hbom
    exact absurd hline (by decide)
  | [a, b], _ =>
    intro hbom
    obtain ⟨rfl, htail⟩ := List.cons_prefix_cons.mp hbom
    obtain ⟨rfl, -⟩ := List.cons_prefix_cons.mp htail
    exact absurd hline (by decide)
  | a :: b :: d :: sent, _ => simp [bom]

theorem events_append (sent rest : List UInt8) (h : stripBom (sent ++ rest) = stripBom sent ++ rest) :
    events (sent ++ rest) = events sent ++ ((stateAfter sent).run rest).2 := by
  rw [events, h, run_append]
  rfl

theorem comment_transparent_iff (htext : ∀ c ∈ text, c ≠ 10 ∧ c ≠ 13) (sent : List UInt8) :
    (∀ rest, events (sent ++ (comment text ++ rest)) = events (sent ++ rest)) ↔ Idle sent := by
  constructor
  · intro h
    have hne : sent ≠ [] := by
      rintro rfl
      have hbom := h (bom ++ probe)
      have hcomment := (comment_invisible_iff htext {}).mpr ⟨rfl, rfl, rfl⟩ (bom ++ probe)
      have hstrip : stripBom (comment text ++ (bom ++ probe)) = comment text ++ (bom ++ probe) := by
        simp [stripBom, bom, comment]
      rw [List.nil_append, events, hstrip, hcomment] at hbom
      revert hbom
      decide
    refine ⟨hne, between_of_probe htext _ ?_⟩
    have hcomment := events_append sent (comment text ++ probe)
      (stripBom_append_cons sent hne 58 (by decide) (by decide) _)
    have hprobe := events_append sent probe (stripBom_append_cons sent hne 100 (by decide) (by decide) _)
    have heq := h probe
    rw [hcomment, hprobe] at heq
    exact List.append_cancel_left heq
  · intro h rest
    rw [events_append _ _ (stripBom_append_idle sent h _), events_append _ _ (stripBom_append_idle sent h _),
      (comment_invisible_iff htext (stateAfter sent)).mpr h.2 rest]

/-- A line feed that belongs to the last line can only come on an empty line. -/
def State.Reached (s : State) : Prop := s.afterCr = true → s.line = []

theorem State.Reached.step {s : State} (b : UInt8) : (s.step b).1.Reached ∧ (b = 10 → s.Reached →
    (s.step b).1.line = [] ∧ (s.step b).1.afterCr = false) := by
  unfold State.step State.endLine State.dispatch State.Reached
  split_ifs <;> simp_all

theorem State.Reached.run {s : State} (h : s.Reached) (bs : List UInt8) : (s.run bs).1.Reached := by
  induction bs generalizing s with
  | nil => exact h
  | cons b bs ih => exact ih (State.Reached.step b).1

def EndsBlank (bs : List UInt8) : Prop :=
  ∃ before blank, bs = before ++ blank ∧ (before = [] ∨ before.getLast? = some 10) ∧ (blank = [10] ∨ blank = [13, 10])

def State.AtLine (s : State) : Prop := s.line = [] ∧ s.afterCr = false

theorem run_line_feed {s : State} (h : s.Reached) (bs : List UInt8) (hlast : bs.getLast? = some 10) :
    (s.run bs).1.AtLine := by
  obtain ⟨init, rfl⟩ := List.getLast?_eq_some_iff.mp hlast
  rw [run_append]
  exact (State.Reached.step 10).2 rfl (h.run init)

theorem run_endsBlank {s : State} (h : s.AtLine) {bs : List UInt8} (hblank : EndsBlank bs) :
    (s.run bs).1.Between ∧ (s.run bs).1.AtLine := by
  obtain ⟨before, blank, rfl, hbefore, hend⟩ := hblank
  have hreached : s.Reached := fun _ => h.1
  have hat : (s.run before).1.AtLine := by
    rcases hbefore with rfl | hlast
    · exact h
    · exact run_line_feed hreached before hlast
  rw [run_append]
  generalize (s.run before).1 = t at hat
  obtain ⟨hline, hcr⟩ := hat
  rcases hend with rfl | rfl <;>
    simp [State.run, State.step, State.endLine, State.dispatch, State.Between, State.AtLine, hline, hcr]

theorem EndsBlank.stripBom {bs : List UInt8} (h : EndsBlank bs) : EndsBlank (stripBom bs) := by
  obtain ⟨before, blank, rfl, hbefore, hend⟩ := h
  unfold EventStream.stripBom
  split_ifs with hbom
  · match before with
    | [] => rcases hend with rfl | rfl <;> simp [bom] at hbom
    | [a] => rcases hend with rfl | rfl <;> simp [bom] at hbom
    | [a, b] => rcases hend with rfl | rfl <;> simp [bom] at hbom
    | [a, b, c] =>
      have hlast : c = 10 := by simpa using hbefore
      subst hlast
      simp [bom] at hbom
    | a :: b :: c :: d :: before => exact ⟨d :: before, blank, rfl, Or.inr (by simpa using hbefore), hend⟩
  · exact ⟨before, blank, rfl, hbefore, hend⟩

def Rested (sent : List UInt8) : Prop := sent = [] ∨ (Idle sent ∧ (stateAfter sent).AtLine)

theorem EndsBlank.idle {sent chunk : List UInt8} (hsent : Rested sent) (h : EndsBlank chunk) :
    Idle (sent ++ chunk) ∧ (stateAfter (sent ++ chunk)).AtLine := by
  have hne : chunk ≠ [] := by
    obtain ⟨before, blank, rfl, -, rfl | rfl⟩ := h <;> simp
  rcases hsent with rfl | ⟨hidle, hat⟩
  · obtain ⟨hbetween, hat⟩ := run_endsBlank (s := {}) ⟨rfl, rfl⟩ h.stripBom
    exact ⟨⟨by simpa using hne, hbetween⟩, hat⟩
  · have hafter : stateAfter (sent ++ chunk) = ((stateAfter sent).run chunk).1 := by
      rw [stateAfter, stripBom_append_idle sent hidle, run_append]
      rfl
    obtain ⟨hbetween, hat⟩ := run_endsBlank hat h
    exact ⟨⟨by simp [hne], hafter ▸ hbetween⟩, hafter ▸ hat⟩

end EventStream
