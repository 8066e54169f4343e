import Prelay.StreamRewrite

namespace Prelay.StreamRewrite

structure Lined (lines : List Bytes) : Prop where
  line : ∀ line ∈ lines, line ≠ [] ∧ 10 ∉ line.dropLast
  closed : lines.Pairwise (fun line _ => line.getLast? = some 10)

theorem Lined.tail {line : Bytes} {lines : List Bytes} (h : Lined (line :: lines)) : Lined lines :=
  ⟨fun l hl => h.line l (List.mem_cons_of_mem _ hl), (List.pairwise_cons.mp h.closed).2⟩

theorem splitLines_cons (text rest : Bytes) (h : 10 ∉ text) :
    splitLines (text ++ 10 :: rest) = (text ++ [10]) :: splitLines rest := by
  simp [splitLines, Lines.split_line 10 text rest h, Lines.prepend]

theorem splitLines_open (text : Bytes) (h : 10 ∉ text) (hne : text ≠ []) : splitLines text = [text] := by
  simp [splitLines, Lines.split_open 10 text h, hne]

theorem eq_of_getLast {line : Bytes} (h : line.getLast? = some 10) : line = line.dropLast ++ [10] := by
  obtain ⟨init, rfl⟩ := List.getLast?_eq_some_iff.mp h
  rw [List.dropLast_concat]

theorem notMem_of_open {line : Bytes} (h : 10 ∉ line.dropLast) (hlast : line.getLast? ≠ some 10) : 10 ∉ line := by
  intro hmem
  rcases List.eq_nil_or_concat line with rfl | ⟨init, b, rfl⟩
  · exact nomatch hmem
  · rw [List.concat_eq_append] at hmem h hlast
    rw [List.dropLast_concat] at h
    rcases List.mem_append.mp hmem with hmem | hmem
    · exact h hmem
    · apply hlast
      rw [List.getLast?_concat, List.mem_singleton.mp hmem]

theorem splitLines_flatten {lines : List Bytes} (h : Lined lines) : splitLines lines.flatten = lines := by
  induction lines with
  | nil => rfl
  | cons line lines ih =>
    obtain ⟨hne, hline⟩ := h.line line List.mem_cons_self
    by_cases hlast : line.getLast? = some 10
    · rw [List.flatten_cons, eq_of_getLast hlast, List.append_assoc, List.singleton_append, splitLines_cons _ _ hline,
        ih h.tail]
    · obtain rfl : lines = [] := by
        cases lines with
        | nil => rfl
        | cons next lines => exact absurd ((List.pairwise_cons.mp h.closed).1 next List.mem_cons_self) hlast
      rw [List.flatten_singleton]
      exact splitLines_open line (notMem_of_open hline hlast) hne

theorem splitLines_lined (bytes : Bytes) : Lined (splitLines bytes) ∧ (splitLines bytes).flatten = bytes := by
  obtain ⟨hjoin, hrest, hlines⟩ := Lines.split_spec 10 bytes
  have hopen : 10 ∉ (Lines.split 10 bytes).2.dropLast := fun hmem => hrest (List.mem_of_mem_dropLast hmem)
  have hflat : ((Lines.split 10 bytes).1.map (fun line => line ++ [10])).flatten =
      Lines.render 10 (Lines.split 10 bytes).1 := by
    rw [Lines.render, List.flatMap_def]
  have hclosed : ((Lines.split 10 bytes).1.map (fun line => line ++ [10])).Pairwise
      (fun line _ => line.getLast? = some 10) := by
    apply List.pairwise_of_forall_mem_list
    intro line hline _ _
    obtain ⟨text, -, rfl⟩ := List.mem_map.mp hline
    exact List.getLast?_concat
  refine ⟨⟨?_, ?_⟩, ?_⟩
  · intro line hline
    rcases List.mem_append.mp hline with hline | hline
    · obtain ⟨text, htext, rfl⟩ := List.mem_map.mp hline
      exact ⟨by simp, by rw [List.dropLast_concat]; exact hlines text htext⟩
    · split_ifs at hline with hnil
      · cases hline
      · obtain rfl := List.mem_singleton.mp hline
        exact ⟨hnil, hopen⟩
  · refine List.pairwise_append.mpr ⟨hclosed, ?_, ?_⟩
    · split_ifs <;> simp
    · intro line hline _ _
      obtain ⟨text, -, rfl⟩ := List.mem_map.mp hline
      exact List.getLast?_concat
  · rw [splitLines, List.flatten_append, hflat]
    split_ifs with hnil
    · rw [hnil] at hjoin
      simpa using hjoin
    · simpa using hjoin

def Blank (line : Bytes) : Prop := line = [10] ∨ line = [13, 10]

theorem blank_iff {text : Bytes} : Blank (text ++ [10]) ↔ Sse.stripCr text = [] := by
  constructor
  · rintro (h | h)
    · obtain rfl : text = [] := by simpa using h
      rfl
    · obtain rfl : text = [13] := List.append_cancel_right (show text ++ [10] = [13] ++ [10] from h)
      rfl
  · intro h
    rcases stripCr_eq_nil h with rfl | rfl
    · exact Or.inl rfl
    · exact Or.inr rfl

theorem not_blank_open {text : Bytes} (h : 10 ∉ text) : ¬Blank text := by
  rintro (rfl | rfl) <;> simp at h

theorem eventEndFrom_lines (index : ℕ) (line buffer : Bytes) (hline : 10 ∉ line) :
    match eventEndFrom index line buffer with
    | none => ∀ l ∈ splitLines (line ++ buffer), ¬Blank l
    | some stop => ∃ lines blank rest, splitLines (line ++ buffer) = lines ++ blank :: rest ∧ (∀ l ∈ lines, ¬Blank l) ∧
        Blank blank ∧ stop + line.length = index + (lines ++ [blank]).flatten.length := by
  induction buffer generalizing index line with
  | nil =>
    intro l hl
    rw [List.append_nil] at hl
    by_cases hne : line = []
    · subst hne
      exact nomatch hl
    · rw [splitLines_open line hline hne] at hl
      obtain rfl := List.mem_singleton.mp hl
      exact not_blank_open hline
  | cons byte buffer ih =>
    rw [eventEndFrom]
    split_ifs with hlf hblank
    · subst hlf
      refine ⟨[], line ++ [10], splitLines buffer, splitLines_cons line buffer hline, by simp, blank_iff.mpr hblank, ?_⟩
      simp
      omega
    · subst hlf
      have hnot : ¬Blank (line ++ [10]) := fun h => hblank (blank_iff.mp h)
      have hrest := ih (index + 1) [] (by simp)
      rw [splitLines_cons line buffer hline]
      rw [List.nil_append] at hrest
      cases hend : eventEndFrom (index + 1) [] buffer with
      | none =>
        rw [hend] at hrest
        intro l hl
        rcases List.mem_cons.mp hl with rfl | hl
        · exact hnot
        · exact hrest l hl
      | some stop =>
        rw [hend] at hrest
        obtain ⟨lines, blank, rest, hsplit, hlines, hb, hstop⟩ := hrest
        refine ⟨(line ++ [10]) :: lines, blank, rest, by rw [hsplit]; rfl, ?_, hb, ?_⟩
        · intro l hl
          rcases List.mem_cons.mp hl with rfl | hl
          · exact hnot
          · exact hlines l hl
        · simp only [List.length_nil, List.cons_append, List.flatten_cons, List.length_append, List.length_singleton]
            at hstop ⊢
          omega
    · have hbyte : 10 ∉ line ++ [byte] := by
        intro hmem
        rcases List.mem_append.mp hmem with hmem | hmem
        · exact hline hmem
        · exact hlf (List.mem_singleton.mp hmem).symm
      have hrest := ih (index + 1) (line ++ [byte]) hbyte
      rw [List.append_assoc, List.singleton_append] at hrest
      cases hend : eventEndFrom (index + 1) (line ++ [byte]) buffer with
      | none =>
        rw [hend] at hrest
        exact hrest
      | some stop =>
        rw [hend] at hrest
        obtain ⟨lines, blank, rest, hsplit, hlines, hb, hstop⟩ := hrest
        refine ⟨lines, blank, rest, hsplit, hlines, hb, ?_⟩
        rw [List.length_append, List.length_singleton] at hstop
        omega

def ClosedEvent (event : Bytes) : Prop :=
  ∃ lines blank, splitLines event = lines ++ [blank] ∧ (∀ l ∈ lines, ¬Blank l) ∧ Blank blank

def OpenEvent (event : Bytes) : Prop := ∀ l ∈ splitLines event, ¬Blank l

theorem Lined.left {ls ms : List Bytes} (h : Lined (ls ++ ms)) : Lined ls :=
  ⟨fun l hl => h.line l (List.mem_append_left _ hl), (List.pairwise_append.mp h.closed).1⟩

theorem eventEnd_none {buffer : Bytes} (h : eventEnd buffer = none) : OpenEvent buffer := by
  have hlines := eventEndFrom_lines 0 [] buffer (by simp)
  rw [show eventEndFrom 0 [] buffer = none from h] at hlines
  exact hlines

theorem eventEnd_some {buffer : Bytes} {stop : ℕ} (h : eventEnd buffer = some stop) : ClosedEvent (buffer.take stop) := by
  have hlines := eventEndFrom_lines 0 [] buffer (by simp)
  rw [show eventEndFrom 0 [] buffer = some stop from h] at hlines
  obtain ⟨lines, blank, rest, hsplit, hlines, hblank, hstop⟩ := hlines
  obtain ⟨hlined, hjoin⟩ := splitLines_lined buffer
  rw [List.nil_append] at hsplit
  rw [hsplit, List.append_cons] at hlined hjoin
  obtain rfl : stop = (lines ++ [blank]).flatten.length := by simpa using hstop
  have hbuffer : (lines ++ [blank] ++ rest).flatten = (lines ++ [blank]).flatten ++ rest.flatten := List.flatten_append
  refine ⟨lines, blank, ?_, hlines, hblank⟩
  rw [← hjoin, hbuffer, List.take_left, splitLines_flatten hlined.left]

theorem eventEndFrom_append {index stop : ℕ} {line as : Bytes} (h : eventEndFrom index line as = some stop) (bs : Bytes) :
    eventEndFrom index line (as ++ bs) = some stop := by
  induction as generalizing index line with
  | nil => exact nomatch h
  | cons byte as ih =>
    rw [eventEndFrom] at h
    rw [List.cons_append, eventEndFrom]
    split_ifs at h ⊢
    · exact h
    · exact ih h
    · exact ih h

namespace ResponseIdRewriter

theorem drainEvents_fuel {buffer : Bytes} {fuel fuel' : ℕ} (h : buffer.length ≤ fuel) (h' : buffer.length ≤ fuel') :
    drainEvents fuel buffer = drainEvents fuel' buffer := by
  induction fuel generalizing buffer fuel' with
  | zero =>
    obtain rfl : buffer = [] := List.length_eq_zero_iff.mp (Nat.le_zero.mp h)
    cases fuel' <;> rfl
  | succ fuel ih =>
    cases fuel' with
    | zero =>
      obtain rfl : buffer = [] := List.length_eq_zero_iff.mp (Nat.le_zero.mp h')
      rfl
    | succ fuel' =>
      rw [drainEvents, drainEvents]
      cases hend : eventEnd buffer with
      | none => rfl
      | some stop =>
        have hspec := eventEnd_spec hend
        have hdrop : (buffer.drop stop).length = buffer.length - stop := List.length_drop
        have hrest := @ih (buffer.drop stop) fuel' (by omega) (by omega)
        simp only [hrest]

def drained (buffer : Bytes) : List Bytes × Bytes := drainEvents buffer.length buffer

theorem drained_none {buffer : Bytes} (h : eventEnd buffer = none) : drained buffer = ([], buffer) := by
  unfold drained
  cases buffer with
  | nil => rfl
  | cons byte buffer => rw [List.length_cons, drainEvents, h]

theorem drained_some {buffer : Bytes} {stop : ℕ} (h : eventEnd buffer = some stop) :
    drained buffer = (buffer.take stop :: (drained (buffer.drop stop)).1, (drained (buffer.drop stop)).2) := by
  have hspec := eventEnd_spec h
  have hdrop : (buffer.drop stop).length = buffer.length - stop := List.length_drop
  obtain ⟨n, hn⟩ : ∃ n, buffer.length = n + 1 := ⟨buffer.length - 1, by omega⟩
  have hfuel : drainEvents n (buffer.drop stop) = drained (buffer.drop stop) := drainEvents_fuel (by omega) le_rfl
  unfold drained
  rw [hn, drainEvents, h]
  simp only [hfuel, drained]

theorem drained_append (as bs : Bytes) :
    drained (as ++ bs) = ((drained as).1 ++ (drained ((drained as).2 ++ bs)).1, (drained ((drained as).2 ++ bs)).2) := by
  induction hn : as.length using Nat.strong_induction_on generalizing as with
  | h n ih =>
    cases hend : eventEnd as with
    | none => rw [drained_none hend, List.nil_append]
    | some stop =>
      have hspec := eventEnd_spec hend
      have hlength : (as.drop stop).length < n := by
        rw [List.length_drop]
        omega
      have hboth : eventEnd (as ++ bs) = some stop := eventEndFrom_append hend bs
      rw [drained_some hend, drained_some hboth, List.take_append_of_le_length hspec.2.2,
        List.drop_append_of_le_length hspec.2.2, ih _ hlength (as.drop stop) rfl]
      rfl

theorem drained_spec (buffer : Bytes) :
    (∀ event ∈ (drained buffer).1, ClosedEvent event) ∧ OpenEvent (drained buffer).2 ∧
      (drained buffer).1.flatten ++ (drained buffer).2 = buffer := by
  obtain ⟨-, hopen, hjoin⟩ := drainEvents_spec buffer.length buffer le_rfl
  refine ⟨?_, eventEnd_none hopen, hjoin⟩
  clear hopen hjoin
  induction hn : buffer.length using Nat.strong_induction_on generalizing buffer with
  | h n ih =>
    cases hend : eventEnd buffer with
    | none =>
      rw [drained_none hend]
      simp
    | some stop =>
      have hspec := eventEnd_spec hend
      have hlength : (buffer.drop stop).length < n := by
        rw [List.length_drop]
        omega
      rw [drained_some hend]
      intro event hevent
      rcases List.mem_cons.mp hevent with rfl | hevent
      · exact eventEnd_some hend
      · exact ih _ hlength (buffer.drop stop) rfl event hevent

end ResponseIdRewriter

end Prelay.StreamRewrite
