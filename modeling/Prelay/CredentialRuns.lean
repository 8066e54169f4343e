import Mathlib.Algebra.GroupWithZero.Nat
import Prelay.MaximalRuns
import Prelay.Redaction

namespace Prelay.Redaction

open MaximalRuns

section bytes

def byteLength (value : List Char) : ℕ := (value.map Char.utf8Size).sum

/-- `&value[cursor..]`, which panics when the cursor is not at the start of a character or is behind the end. -/
def sliceFrom : List Char → ℕ → Option (List Char)
  | value, 0 => some value
  | [], _ + 1 => none
  | c :: rest, cursor + 1 => if c.utf8Size ≤ cursor + 1 then sliceFrom rest (cursor + 1 - c.utf8Size) else none

def sliceTo : List Char → ℕ → Option (List Char)
  | _, 0 => some []
  | [], _ + 1 => none
  | c :: rest, stop + 1 =>
    if c.utf8Size ≤ stop + 1 then (sliceTo rest (stop + 1 - c.utf8Size)).map (c :: ·) else none

def slice (value : List Char) (start stop : ℕ) : Option (List Char) := do
  let rest ← sliceFrom value start
  if start ≤ stop then sliceTo rest (stop - start) else none

def findIndex (p : Char → Bool) : List Char → Option ℕ
  | [] => none
  | c :: rest => if p c then some 0 else (findIndex p rest).map (· + c.utf8Size)

-- a round that is not finished has no result, and neither has one with a wrong slice
def redactLoop (value : List Char) : ℕ → ℕ → List Char → Option (List Char)
  | 0, _, _ => none
  | fuel + 1, cursor, redacted =>
    if cursor < byteLength value then do
      let rest ← sliceFrom value cursor
      match findIndex isCredentialChar rest with
      | none => some (redacted ++ rest)
      | some offset =>
        let start := cursor + offset
        let before ← slice value cursor start
        let rest ← sliceFrom value start
        let stop :=
          match findIndex (!isCredentialChar ·) rest with
          | some offset => start + offset
          | none => byteLength value
        if stop - start = 43 then redactLoop value fuel stop (redacted ++ before ++ "[REDACTED]".toList)
        else do
          let run ← slice value start stop
          redactLoop value fuel stop (redacted ++ before ++ run)
    else some redacted

def redactBytes (value : String) : Option String :=
  (redactLoop value.toList (byteLength value.toList + 1) 0 []).map String.ofList

end bytes

section slices

theorem byteLength_append (value more : List Char) :
    byteLength (value ++ more) = byteLength value + byteLength more := by
  simp [byteLength]

theorem byteLength_cons (c : Char) (value : List Char) : byteLength (c :: value) = c.utf8Size + byteLength value := by
  simp [byteLength]

theorem sliceFrom_append (done rest : List Char) : sliceFrom (done ++ rest) (byteLength done) = some rest := by
  induction done with
  | nil => cases rest <;> rfl
  | cons c done ih =>
    obtain ⟨n, hn⟩ := Nat.exists_eq_add_of_lt c.utf8Size_pos
    have hlength : byteLength (c :: done) = (n + byteLength done) + 1 := by
      rw [byteLength_cons]
      omega
    rw [hlength, List.cons_append, sliceFrom, if_pos (by omega)]
    have hleft : n + byteLength done + 1 - c.utf8Size = byteLength done := by omega
    rw [hleft, ih]

theorem sliceTo_append (mid rest : List Char) : sliceTo (mid ++ rest) (byteLength mid) = some mid := by
  induction mid with
  | nil => cases rest <;> rfl
  | cons c mid ih =>
    obtain ⟨n, hn⟩ := Nat.exists_eq_add_of_lt c.utf8Size_pos
    have hlength : byteLength (c :: mid) = (n + byteLength mid) + 1 := by
      rw [byteLength_cons]
      omega
    rw [hlength, List.cons_append, sliceTo, if_pos (by omega)]
    have hleft : n + byteLength mid + 1 - c.utf8Size = byteLength mid := by omega
    rw [hleft, ih]
    rfl

theorem slice_append (done mid rest : List Char) :
    slice (done ++ (mid ++ rest)) (byteLength done) (byteLength done + byteLength mid) = some mid := by
  simp only [slice, sliceFrom_append, Option.bind_eq_bind, Option.bind_some, Nat.le_add_right, ↓reduceIte,
    Nat.add_sub_cancel_left, sliceTo_append]

theorem findIndex_eq (p : Char → Bool) (value : List Char) :
    findIndex p value =
      if value.dropWhile (!p ·) = [] then none else some (byteLength (value.takeWhile (!p ·))) := by
  induction value with
  | nil => rfl
  | cons c rest ih =>
    cases hc : p c with
    | true => simp [findIndex, hc, byteLength]
    | false =>
      simp only [findIndex, hc, Bool.false_eq_true, ↓reduceIte, ih, List.dropWhile_cons, Bool.not_false,
        List.takeWhile_cons, byteLength_cons]
      split_ifs
      · rfl
      · rw [Option.map_some, Nat.add_comm]

theorem utf8Size_credential {c : Char} (h : isCredentialChar c = true) : c.utf8Size = 1 := by
  rw [Char.utf8Size_eq_one_iff]
  rw [isCredentialChar] at h
  delta Char.isAlphanum Char.isAlpha Char.isUpper Char.isLower Char.isDigit at h
  simp only [Bool.or_eq_true, decide_eq_true_eq, Bool.and_eq_true, UInt32.le_iff_toNat_le, ge_iff_le] at h ⊢
  rcases h with ((((h | h) | h)) | rfl) | rfl
  · exact h.2.trans (by decide)
  · exact h.2.trans (by decide)
  · exact h.2.trans (by decide)
  · decide
  · decide

theorem byteLength_run {run : List Char} (h : ∀ c ∈ run, isCredentialChar c = true) : byteLength run = run.length := by
  induction run with
  | nil => rfl
  | cons c run ih =>
    rw [List.forall_mem_cons] at h
    rw [byteLength_cons, ih h.2, utf8Size_credential h.1, List.length_cons, Nat.add_comm]

end slices

section loop

theorem dropWhile_head {p : Char → Bool} {value : List Char} {c : Char} (h : c ∈ (value.dropWhile p).head?) :
    p c = false := by
  have hhead := List.head?_dropWhile_not p value
  rw [h] at hhead
  simpa using hhead

theorem byteLength_pos {value : List Char} (h : value ≠ []) : 0 < byteLength value := by
  obtain ⟨c, rest, rfl⟩ := List.exists_cons_of_ne_nil h
  have hsize := c.utf8Size_pos
  rw [byteLength_cons]
  omega

theorem redactRuns_nil (steps : ℕ) : redactRuns steps [] = [] := by
  cases steps with
  | zero => rfl
  | succ steps => rfl

theorem takeWhile_stop {p : Char → Bool} {l m : List Char} (hl : ∀ c ∈ l, p c = true)
    (hm : ∀ c ∈ m.head?, p c = false) : (l ++ m).takeWhile p = l ∧ (l ++ m).dropWhile p = m := by
  rw [List.takeWhile_append_of_pos hl, List.dropWhile_append_of_pos hl]
  cases m with
  | nil => exact ⟨List.append_nil l, rfl⟩
  | cons c m =>
    have hc : ¬p c = true := by
      rw [hm c rfl]
      decide
    rw [List.takeWhile_cons_of_neg hc, List.dropWhile_cons_of_neg hc, List.append_nil]
    exact ⟨rfl, rfl⟩

theorem redactLoop_round {done before run after : List Char} (redacted : List Char) (fuel : ℕ) (hne : run ≠ [])
    (hbefore : ∀ c ∈ before, isCredentialChar c = false) (hrun : ∀ c ∈ run, isCredentialChar c = true)
    (hafter : ∀ c ∈ after.head?, isCredentialChar c = false) :
    redactLoop (done ++ (before ++ (run ++ after))) (fuel + 1) (byteLength done) redacted =
      redactLoop (done ++ (before ++ (run ++ after))) fuel (byteLength (done ++ before ++ run))
        (redacted ++ before ++ if run.length = 43 then "[REDACTED]".toList else run) := by
  have hfirst : ∀ c ∈ (run ++ after).head?, (!isCredentialChar c) = false := by
    intro c hc
    obtain ⟨d, tail, rfl⟩ := List.exists_cons_of_ne_nil hne
    obtain rfl := Option.some.inj hc
    rw [hrun d List.mem_cons_self]
    rfl
  have hbefore' : ∀ c ∈ before, (!isCredentialChar c) = true := fun c hc => by rw [hbefore c hc]; rfl
  obtain ⟨htake, hdrop⟩ := takeWhile_stop hbefore' hfirst
  have hstart : findIndex isCredentialChar (before ++ (run ++ after)) = some (byteLength before) := by
    rw [findIndex_eq, htake, hdrop, if_neg (List.append_ne_nil_of_left_ne_nil hne after)]
  have hstop : (match findIndex (!isCredentialChar ·) (run ++ after) with
      | some offset => byteLength done + byteLength before + offset
      | none => byteLength (done ++ (before ++ (run ++ after)))) = byteLength (done ++ before ++ run) := by
    obtain ⟨htakeRun, hdropRun⟩ := takeWhile_stop hrun hafter
    simp only [findIndex_eq, Bool.not_not, htakeRun, hdropRun]
    by_cases hnil : after = []
    · rw [if_pos hnil, hnil, List.append_nil]
      simp only [List.append_assoc]
    · rw [if_neg hnil]
      simp only [byteLength_append]
  have hlt : byteLength done < byteLength (done ++ (before ++ (run ++ after))) := by
    have hpos := byteLength_pos hne
    simp only [byteLength_append]
    omega
  have hrest : sliceFrom (done ++ (before ++ (run ++ after))) (byteLength done + byteLength before) =
      some (run ++ after) := by
    rw [← byteLength_append, ← List.append_assoc]
    exact sliceFrom_append _ _
  have hslice : slice (done ++ (before ++ (run ++ after))) (byteLength done + byteLength before)
      (byteLength (done ++ before ++ run)) = some run := by
    rw [← byteLength_append, ← List.append_assoc, byteLength_append (done ++ before) run]
    exact slice_append _ _ _
  have hlength : byteLength (done ++ before ++ run) - (byteLength done + byteLength before) = run.length := by
    rw [byteLength_append, byteLength_append, byteLength_run hrun]
    omega
  simp only [redactLoop, hlt, ↓reduceIte, sliceFrom_append, Option.bind_eq_bind, Option.bind_some, hstart, slice_append,
    hrest, hstop, hlength, hslice]
  split_ifs
  · rfl
  · rfl

theorem redactRuns_cases (steps : ℕ) (rest : List Char) :
    (∀ c ∈ rest, isCredentialChar c = false) ∧ redactRuns (steps + 1) rest = rest ∨
      ∃ before run after, rest = before ++ (run ++ after) ∧ run ≠ [] ∧ (∀ c ∈ before, isCredentialChar c = false) ∧
        (∀ c ∈ run, isCredentialChar c = true) ∧ (∀ c ∈ after.head?, isCredentialChar c = false) ∧
        redactRuns (steps + 1) rest =
          before ++ (if run.length = 43 then "[REDACTED]".toList else run) ++ redactRuns steps after := by
  have hsplit : rest.takeWhile (!isCredentialChar ·) ++ rest.dropWhile (!isCredentialChar ·) = rest :=
    List.takeWhile_append_dropWhile
  have hbefore : ∀ c ∈ rest.takeWhile (!isCredentialChar ·), isCredentialChar c = false := by
    intro c hc
    simpa using List.mem_takeWhile_imp hc
  cases htail : rest.dropWhile (!isCredentialChar ·) with
  | nil =>
    left
    rw [htail, List.append_nil] at hsplit
    rw [hsplit] at hbefore
    simp only [redactRuns, htail, hsplit]
    exact ⟨hbefore, trivial⟩
  | cons c tail =>
    right
    have hc : isCredentialChar c = true := by
      have hmem : c ∈ (rest.dropWhile (!isCredentialChar ·)).head? := by
        rw [htail]
        rfl
      simpa using dropWhile_head hmem
    refine ⟨rest.takeWhile (!isCredentialChar ·), (c :: tail).takeWhile isCredentialChar,
      (c :: tail).dropWhile isCredentialChar, ?_, ?_, hbefore, fun c hc => List.mem_takeWhile_imp hc,
      fun c hc => dropWhile_head hc, ?_⟩
    · rw [List.takeWhile_append_dropWhile, ← htail, hsplit]
    · rw [List.takeWhile_cons_of_pos hc]
      exact List.cons_ne_nil _ _
    · simp only [redactRuns, htail]

/-- The loop moves over the text as it is cut in runs. -/
theorem redactLoop_eq (done rest redacted : List Char) {fuel steps : ℕ} (hfuel : byteLength rest < fuel)
    (hsteps : rest.length ≤ steps) :
    redactLoop (done ++ rest) fuel (byteLength done) redacted = some (redacted ++ redactRuns steps rest) := by
  induction fuel generalizing done rest redacted steps with
  | zero => exact absurd hfuel (Nat.not_lt_zero _)
  | succ fuel ih =>
    by_cases hnil : rest = []
    · subst hnil
      rw [redactLoop, List.append_nil, if_neg (lt_irrefl _), redactRuns_nil, List.append_nil]
    obtain ⟨k, rfl⟩ : ∃ k, steps = k + 1 := Nat.exists_eq_succ_of_ne_zero (by
      rintro rfl
      exact hnil (List.eq_nil_of_length_eq_zero (Nat.le_zero.mp hsteps)))
    rcases redactRuns_cases k rest with ⟨hnone, hsame⟩ | ⟨before, run, after, rfl, hne, hbefore, hrun, hafter, hruns⟩
    · have hlt : byteLength done < byteLength (done ++ rest) := by
        have hpos := byteLength_pos hnil
        rw [byteLength_append]
        omega
      have hdrop : rest.dropWhile (!isCredentialChar ·) = [] := by
        apply List.dropWhile_eq_nil_iff.mpr
        intro c hc
        rw [hnone c hc]
        rfl
      simp only [redactLoop, hlt, ↓reduceIte, sliceFrom_append, Option.bind_eq_bind, Option.bind_some, findIndex_eq,
        hdrop, hsame]
    · have hshorter : after.length ≤ k ∧ byteLength after < fuel := by
        have hrunLength := List.length_pos_iff.mpr hne
        have hrunBytes := byteLength_pos hne
        simp only [List.length_append, byteLength_append] at hsteps hfuel
        omega
      have hrest := ih (done ++ before ++ run) after
        (redacted ++ before ++ if run.length = 43 then "[REDACTED]".toList else run) hshorter.2 hshorter.1
      rw [redactLoop_round redacted fuel hne hbefore hrun hafter, hruns]
      simp only [List.append_assoc] at hrest ⊢
      exact hrest

theorem redactBytes_eq (value : String) : redactBytes value = some (redactUrlSafeCredentials value) := by
  have hloop := redactLoop_eq [] value.toList [] (Nat.lt_succ_self _) le_rfl
  rw [redactBytes, redactUrlSafeCredentials]
  simp only [List.nil_append] at hloop
  rw [show byteLength [] = 0 from rfl] at hloop
  rw [hloop]
  rfl

end loop

section pieces

def redactPiece (piece : List Char) : List Char :=
  if piece.all isCredentialChar && piece.length = 43 then "[REDACTED]".toList else piece

theorem redactPiece_run {piece : List Char} (h : ∀ c ∈ piece, isCredentialChar c = true) :
    redactPiece piece = if piece.length = 43 then "[REDACTED]".toList else piece := by
  simp only [redactPiece, List.all_eq_true.mpr h, Bool.true_and, decide_eq_true_eq]

theorem redactPiece_text {piece : List Char} (hne : piece ≠ []) (h : ∀ c ∈ piece, isCredentialChar c = false) :
    redactPiece piece = piece := by
  obtain ⟨c, rest, rfl⟩ := List.exists_cons_of_ne_nil hne
  simp only [redactPiece, List.all_cons, h c List.mem_cons_self, Bool.false_and, Bool.false_eq_true, ↓reduceIte]

theorem Cut.text {rest : List Char} {pieces : List (List Char)} (h : Cut isCredentialChar rest pieces)
    {before : List Char} (hbefore : ∀ c ∈ before, isCredentialChar c = false)
    (hrest : ∀ c ∈ rest.head?, isCredentialChar c = true) :
    ∃ pieces', Cut isCredentialChar (before ++ rest) pieces' ∧
      (pieces'.map redactPiece).flatten = before ++ (pieces.map redactPiece).flatten := by
  by_cases hnil : before = []
  · subst hnil
    exact ⟨pieces, h, rfl⟩
  · refine ⟨before :: pieces, h.cons hnil (.inr hbefore) ?_, ?_⟩
    · intro a ha b hb
      rw [hbefore a ha, hrest b hb]
      decide
    · rw [List.map_cons, List.flatten_cons, redactPiece_text hnil hbefore]

theorem redactRuns_pieces (steps : ℕ) (value : List Char) (hsteps : value.length ≤ steps) :
    ∃ pieces, Cut isCredentialChar value pieces ∧ redactRuns steps value = (pieces.map redactPiece).flatten := by
  induction steps generalizing value with
  | zero =>
    obtain rfl := List.eq_nil_of_length_eq_zero (Nat.le_zero.mp hsteps)
    exact ⟨[], Cut.nil _, rfl⟩
  | succ steps ih =>
    rcases redactRuns_cases steps value with
      ⟨hnone, hsame⟩ | ⟨before, run, after, rfl, hne, hbefore, hrun, hafter, hruns⟩
    · obtain ⟨pieces, hcut, hpieces⟩ := Cut.text (Cut.nil isCredentialChar) hnone nofun
      rw [List.append_nil] at hcut
      refine ⟨pieces, hcut, ?_⟩
      rw [hsame, hpieces]
      exact (List.append_nil value).symm
    · have hshorter : after.length ≤ steps := by
        have hrunLength := List.length_pos_iff.mpr hne
        simp only [List.length_append] at hsteps
        omega
      obtain ⟨pieces, hcut, hpieces⟩ := ih after hshorter
      have hnext : Cut isCredentialChar (run ++ after) (run :: pieces) := by
        apply hcut.cons hne (.inl hrun)
        intro a ha b hb
        rw [hrun a ha, hafter b hb]
        decide
      have hhead : ∀ c ∈ (run ++ after).head?, isCredentialChar c = true := by
        intro c hc
        obtain ⟨d, tail, rfl⟩ := List.exists_cons_of_ne_nil hne
        obtain rfl := Option.some.inj hc
        exact hrun d List.mem_cons_self
      obtain ⟨pieces', hcut', hpieces'⟩ := Cut.text hnext hbefore hhead
      refine ⟨pieces', hcut', ?_⟩
      rw [hruns, hpieces', List.map_cons, List.flatten_cons, redactPiece_run hrun, hpieces, List.append_assoc]

theorem redacted_head {rest : List Char} {piece : List Char} {pieces : List (List Char)}
    (h : Cut isCredentialChar rest (piece :: pieces)) (hrun : ∀ c ∈ piece, isCredentialChar c = true) :
    ∀ c ∈ (pieces.map redactPiece).flatten.head?, isCredentialChar c = false := by
  intro c hc
  cases pieces with
  | nil => exact nomatch hc
  | cons next pieces =>
    obtain ⟨hne, -⟩ := h.uniform piece List.mem_cons_self
    obtain ⟨hnextNe, huniform⟩ := h.uniform next (List.mem_cons_of_mem _ List.mem_cons_self)
    obtain ⟨a, tail, rfl⟩ := List.exists_cons_of_ne_nil hne
    obtain ⟨b, more, rfl⟩ := List.exists_cons_of_ne_nil hnextNe
    have hdiffers := (List.isChain_cons.mp h.changes).1 _ rfl a List.mem_cons_self b rfl
    rw [hrun a List.mem_cons_self] at hdiffers
    have hnext : ∀ c ∈ b :: more, isCredentialChar c = false := by
      rcases huniform with hall | hnone
      · exact absurd (hall b List.mem_cons_self).symm hdiffers
      · exact hnone
    rw [List.map_cons, List.flatten_cons, redactPiece_text hnextNe hnext] at hc
    obtain rfl := Option.some.inj hc
    exact hnext b List.mem_cons_self

theorem redacted_run_length {value : List Char} {pieces : List (List Char)} (h : Cut isCredentialChar value pieces)
    {run : List Char} (hrun : IsRun isCredentialChar (pieces.map redactPiece).flatten run) : run.length ≠ 43 := by
  induction pieces generalizing value with
  | nil => exact absurd hrun (not_isRun nofun)
  | cons piece pieces ih =>
    obtain ⟨hne, hpiece⟩ := h.uniform piece List.mem_cons_self
    rw [List.map_cons, List.flatten_cons] at hrun
    rcases hpiece with hpiece | hpiece
    · rw [redactPiece_run hpiece] at hrun
      split_ifs at hrun with hlength
      · have hapart : Apart isCredentialChar "[REDACTED]".toList (pieces.map redactPiece).flatten := by
          intro a ha b hb
          obtain rfl := Option.some.inj ha
          exact .inl rfl
        rcases (isRun_append hapart).mp hrun with hplaceholder | hrest
        · have hle := hplaceholder.length_le
          have hten : "[REDACTED]".toList.length = 10 := rfl
          omega
        · exact ih h.tail hrest
      · have hapart : Apart isCredentialChar piece (pieces.map redactPiece).flatten :=
          fun a ha b hb => .inr (redacted_head h hpiece b hb)
        rcases (isRun_append hapart).mp hrun with hsame | hrest
        · rw [(isRun_self hne hpiece).mp hsame]
          exact hlength
        · exact ih h.tail hrest
    · rw [redactPiece_text hne hpiece] at hrun
      have hapart : Apart isCredentialChar piece (pieces.map redactPiece).flatten :=
        fun a ha b hb => .inl (hpiece a (List.mem_of_getLast? ha))
      rcases (isRun_append hapart).mp hrun with hnone | hrest
      · exact absurd hnone (not_isRun hpiece)
      · exact ih h.tail hrest

theorem redactUrlSafeCredentials_pieces (value : String) : ∃ pieces,
    Cut isCredentialChar value.toList pieces ∧
      (redactUrlSafeCredentials value).toList = (pieces.map redactPiece).flatten := by
  obtain ⟨pieces, hcut, hpieces⟩ := redactRuns_pieces value.toList.length value.toList le_rfl
  refine ⟨pieces, hcut, ?_⟩
  rw [redactUrlSafeCredentials, String.toList_ofList, hpieces]

theorem redactUrlSafeCredentials_eq_self {value : String}
    (h : ∀ run, IsRun isCredentialChar value.toList run → run.length ≠ 43) :
    redactUrlSafeCredentials value = value := by
  obtain ⟨pieces, hcut, hpieces⟩ := redactUrlSafeCredentials_pieces value
  have hkept : pieces.map redactPiece = pieces := by
    apply Json.map_eq_self_iff.mpr
    intro piece hpiece
    obtain ⟨hne, hall | hnone⟩ := hcut.uniform piece hpiece
    · rw [redactPiece_run hall, if_neg (h piece (hcut.isRun_iff.mpr ⟨hpiece, hall⟩))]
    · exact redactPiece_text hne hnone
  apply String.ext
  rw [hpieces, hkept, hcut.joined]

/-- The runs of the length of a credential are replaced, and nothing else is. -/
theorem credential_runs_redacted (value : String) : ∃ result pieces,
    redactBytes value = some result ∧ Cut isCredentialChar value.toList pieces ∧
      (∀ run, IsRun isCredentialChar value.toList run ↔ run ∈ pieces ∧ ∀ c ∈ run, isCredentialChar c = true) ∧
      result.toList = (pieces.map redactPiece).flatten ∧
      (∀ run, IsRun isCredentialChar result.toList run → run.length ≠ 43) ∧ redactBytes result = some result := by
  obtain ⟨pieces, hcut, hpieces⟩ := redactUrlSafeCredentials_pieces value
  have hclean : ∀ run, IsRun isCredentialChar (redactUrlSafeCredentials value).toList run → run.length ≠ 43 := by
    intro run hrun
    rw [hpieces] at hrun
    exact redacted_run_length hcut hrun
  refine ⟨redactUrlSafeCredentials value, pieces, redactBytes_eq value, hcut, fun run => hcut.isRun_iff, hpieces,
    hclean, ?_⟩
  rw [redactBytes_eq, redactUrlSafeCredentials_eq_self hclean]

example :
    redactBytes "key=AAAAAAAAAAAAAAAAAAAAAAAAAAAAAAAAAAAAAAAAAAA, ä" = some "key=[REDACTED], ä" := by
  decide +kernel

end pieces

end Prelay.Redaction
