import Prelay.ThreadResolve

namespace Prelay.Rollout

def rsplitOnce (separator : List Char) : List Char → Option (List Char × List Char)
  | [] => if separator = [] then some ([], []) else none
  | c :: cs =>
    match rsplitOnce separator cs with
    | some (before, after) => some (c :: before, after)
    | none => if separator <+: c :: cs then some ([], (c :: cs).drop separator.length) else none

def stripSuffix (suffix cs : List Char) : Option (List Char) :=
  if suffix <:+ cs then some (cs.take (cs.length - suffix.length)) else none

def logicalThreadRelative (relativePath : String) : Option String := do
  let (directory, file) ← rsplitOnce ['/'] relativePath.toList
  let stem ← stripSuffix ".jsonl".toList file
  let thread ← match stripSuffix ".recovered".toList stem with
    | some thread => some thread
    | none => do
      let (thread, segment) ← rsplitOnce ".recovered-".toList stem
      if segment = [] || !segment.all Char.isDigit then none else some thread
  some (String.ofList directory ++ "/" ++ String.ofList thread ++ ".jsonl")

def isSeparator (c : Char) : Bool := c = '/' || c = '\\'

def enter (directory : List (List Char)) (segment : List Char) : List (List Char) :=
  if segment = [] ∨ segment = ['.'] then directory
  else if segment = ['.', '.'] then directory.dropLast
  else directory ++ [segment]

/-- Where a path leads from the root of the store; a path that begins at a root of its own leaves it. -/
def absolutePath (root : List (List Char)) (relative : String) : List (List Char) :=
  let segments := relative.toList.splitOnP isSeparator
  if relative.toList.head?.any isSeparator || ':' ∈ relative.toList then segments.foldl enter []
  else segments.foldl enter root

section root

theorem splitOnP_congr {α : Type} {p q : α → Bool} {l : List α} (h : ∀ a ∈ l, p a = q a) :
    l.splitOnP p = l.splitOnP q := by
  induction l with
  | nil => rfl
  | cons a l ih =>
    rw [List.splitOnP_cons_eq_if_modifyHead, List.splitOnP_cons_eq_if_modifyHead, h a List.mem_cons_self,
      ih (fun b hb => h b (List.mem_cons_of_mem _ hb))]

theorem prefix_foldl_enter {segments : List (List Char)}
    (h : ∀ segment ∈ segments, segment ≠ ['.', '.']) (directory : List (List Char)) :
    directory <+: segments.foldl enter directory := by
  induction segments generalizing directory with
  | nil => exact List.prefix_refl _
  | cons segment segments ih =>
    rw [List.foldl_cons]
    apply List.IsPrefix.trans _ (ih (fun s hs => h s (List.mem_cons_of_mem _ hs)) _)
    unfold enter
    rw [if_neg (h segment List.mem_cons_self)]
    split_ifs
    · exact List.prefix_refl _
    · exact List.prefix_append _ _

theorem checkedAbsolutePath_under {relative path : String} (h : checkedAbsolutePath relative = .ok path)
    (root : List (List Char)) : path = relative ∧ root <+: absolutePath root relative := by
  unfold checkedAbsolutePath at h
  dsimp only at h
  split_ifs at h with hrefused
  refine ⟨(Except.ok.inj h).symm, ?_⟩
  simp only [Bool.or_eq_true, decide_eq_true_eq, not_or, List.any_eq_true, not_exists, not_and] at hrefused
  obtain ⟨⟨⟨⟨⟨-, hslash⟩, hback⟩, hbackslash⟩, hcolon⟩, hsegments⟩ := hrefused
  have hhead : relative.toList.head?.any isSeparator = false := by
    cases hfirst : relative.toList.head? with
    | none => rfl
    | some c =>
      rw [hfirst] at hslash hback
      rw [Option.any_some, isSeparator]
      simp only [Option.some.injEq] at hslash hback
      simp [hslash, hback]
  have hsplit : relative.toList.splitOnP isSeparator = relative.toList.splitOn '/' := by
    apply splitOnP_congr
    intro c hc
    have hne : c ≠ '\\' := fun heq => hbackslash (heq ▸ hc)
    rw [isSeparator, decide_eq_false hne, Bool.or_false, beq_eq_decide]
  rw [absolutePath, hhead, decide_eq_false hcolon, hsplit]
  apply prefix_foldl_enter
  intro segment hsegment
  exact (hsegments segment hsegment).2

end root

def threadPaths (identityId threadId : String) : List String :=
  indexRelative (threadRelative identityId threadId) :: threadCandidatePaths identityId threadId

/-- What may stand behind the id of a thread in the name of one of its files. -/
def FileSuffix (suffix : String) : Prop :=
  suffix.toList.head? = some '.' ∧ ∀ c ∈ suffix.toList, c ≠ '/' ∧ c ≠ '\\' ∧ c ≠ ':'

section names

theorem toString_digits (n : ℕ) : ∀ c ∈ (toString n).toList, c.isDigit = true := by
  intro c hc
  rw [Nat.toString_eq_repr, Nat.toList_repr] at hc
  exact Nat.isDigit_of_mem_toDigits (by decide) (by decide) hc

theorem toString_ne_nil (n : ℕ) : (toString n).toList ≠ [] := by
  rw [Nat.toString_eq_repr, Nat.toList_repr]
  exact Nat.toDigits_ne_nil

theorem digit_ne {c : Char} (h : c.isDigit = true) : c ≠ '/' ∧ c ≠ '\\' ∧ c ≠ ':' ∧ c ≠ '.' := by
  refine ⟨?_, ?_, ?_, ?_⟩ <;>
    · rintro rfl
      exact absurd h (by decide)

theorem recovered_suffix (index : ℕ) : FileSuffix (".recovered-" ++ toString index ++ ".jsonl") := by
  constructor
  · simp
  · intro c hc
    have hword : ∀ c ∈ ".recovered-".toList, c ≠ '/' ∧ c ≠ '\\' ∧ c ≠ ':' := by simp
    have hending : ∀ c ∈ ".jsonl".toList, c ≠ '/' ∧ c ≠ '\\' ∧ c ≠ ':' := by simp
    rw [String.toList_append, String.toList_append] at hc
    rcases List.mem_append.mp hc with hc | hc
    · rcases List.mem_append.mp hc with hc | hc
      · exact hword c hc
      · obtain ⟨hslash, hback, hcolon, -⟩ := digit_ne (toString_digits index c hc)
        exact ⟨hslash, hback, hcolon⟩
    · exact hending c hc

theorem mem_threadPaths {identityId threadId path : String} (h : path ∈ threadPaths identityId threadId) :
    ∃ suffix, path = identityId ++ "/" ++ threadId ++ suffix ∧ FileSuffix suffix := by
  rcases List.mem_cons.mp h with rfl | h
  · refine ⟨".jsonl" ++ ".index", ?_, by simp, by simp⟩
    rw [indexRelative, threadRelative, String.append_assoc]
  rcases List.mem_cons.mp h with rfl | h
  · exact ⟨".jsonl", rfl, by simp, by simp⟩
  · obtain ⟨index, -, rfl⟩ := List.mem_map.mp h
    unfold recoveredThreadPath
    split_ifs
    · exact ⟨".recovered.jsonl", rfl, by simp, by simp⟩
    · refine ⟨_, ?_, recovered_suffix (index + 1)⟩
      simp only [String.append_assoc]

theorem takeWhile_append_stop {α : Type} {p : α → Bool} {l rest : List α} {a : α} (hl : ∀ b ∈ l, p b = true)
    (ha : p a = false) : (l ++ a :: rest).takeWhile p = l := by
  rw [List.takeWhile_append_of_pos hl, List.takeWhile_cons_of_neg (by simp [ha]), List.append_nil]

theorem path_injective {identityId threadId identityId' threadId' suffix suffix' : String}
    (hid : isSafePathSegment identityId = true) (hthread : isSafePathSegment threadId = true)
    (hid' : isSafePathSegment identityId' = true) (hthread' : isSafePathSegment threadId' = true)
    (hsuffix : FileSuffix suffix) (hsuffix' : FileSuffix suffix')
    (h : identityId ++ "/" ++ threadId ++ suffix = identityId' ++ "/" ++ threadId' ++ suffix') :
    identityId = identityId' ∧ threadId = threadId' := by
  have hchars : identityId.toList ++ '/' :: (threadId.toList ++ suffix.toList) =
      identityId'.toList ++ '/' :: (threadId'.toList ++ suffix'.toList) := by
    simpa using congrArg String.toList h
  have hslash : ∀ {value : String}, isSafePathSegment value = true → ∀ c ∈ value.toList, (decide (c ≠ '/')) = true :=
    fun hsafe c hc => decide_eq_true (safe_char hsafe c hc).1
  have hdot : ∀ {value : String}, isSafePathSegment value = true → ∀ c ∈ value.toList, (decide (c ≠ '.')) = true :=
    fun hsafe c hc => decide_eq_true (safe_char hsafe c hc).2.2.2
  have hidentity : identityId.toList = identityId'.toList := by
    have htake := congrArg (List.takeWhile (fun c => decide (c ≠ '/'))) hchars
    rwa [takeWhile_append_stop (hslash hid) (by decide), takeWhile_append_stop (hslash hid') (by decide)] at htake
  rw [hidentity] at hchars
  have hrest := (List.cons.inj (List.append_cancel_left hchars)).2
  obtain ⟨tail, htail⟩ := List.head?_eq_some_iff.mp hsuffix.1
  obtain ⟨tail', htail'⟩ := List.head?_eq_some_iff.mp hsuffix'.1
  rw [htail, htail'] at hrest
  have htake := congrArg (List.takeWhile (fun c => decide (c ≠ '.'))) hrest
  rw [takeWhile_append_stop (hdot hthread) (by decide), takeWhile_append_stop (hdot hthread') (by decide)] at htake
  exact ⟨String.toList_inj.mp hidentity, String.toList_inj.mp htake⟩

end names

section logical

theorem rsplitOnce_none {c : Char} {separator cs : List Char} (h : c ∉ cs) : rsplitOnce (c :: separator) cs = none := by
  induction cs with
  | nil => rfl
  | cons d cs ih =>
    obtain ⟨hne, hrest⟩ := not_or.mp (fun hmem => h (List.mem_cons.mpr hmem))
    rw [rsplitOnce, ih hrest, if_neg]
    rintro ⟨rest, hrest⟩
    exact hne (List.cons.inj hrest).1

theorem rsplitOnce_append {c : Char} {separator after : List Char} (h : c ∉ separator ++ after) (before : List Char) :
    rsplitOnce (c :: separator) (before ++ (c :: separator ++ after)) = some (before, after) := by
  induction before with
  | nil =>
    rw [List.nil_append, List.cons_append, rsplitOnce, rsplitOnce_none h, if_pos]
    · simp
    · exact ⟨after, rfl⟩
  | cons d before ih =>
    rw [List.cons_append, rsplitOnce, ih]

theorem stripSuffix_append (cs suffix : List Char) : stripSuffix suffix (cs ++ suffix) = some cs := by
  rw [stripSuffix, if_pos (List.suffix_append cs suffix)]
  simp

theorem logicalThreadRelative_recovered {identityId threadId : String} (hthread : isSafePathSegment threadId = true)
    (index : ℕ) :
    logicalThreadRelative (recoveredThreadPath identityId threadId index) = some (threadRelative identityId threadId) := by
  have hslash : '/' ∉ threadId.toList := fun hmem => (safe_char hthread _ hmem).1 rfl
  have hdot : '.' ∉ threadId.toList := fun hmem => (safe_char hthread _ hmem).2.2.2 rfl
  have hresult : threadRelative identityId threadId =
      String.ofList identityId.toList ++ "/" ++ String.ofList threadId.toList ++ ".jsonl" := by
    rw [String.ofList_toList, String.ofList_toList, threadRelative]
  unfold recoveredThreadPath
  split_ifs with hindex
  · have hchars : (identityId ++ "/" ++ threadId ++ ".recovered.jsonl").toList =
        identityId.toList ++ (['/'] ++ (threadId.toList ++ ".recovered".toList ++ ".jsonl".toList)) := by
      simp
    have hfile : '/' ∉ [] ++ (threadId.toList ++ ".recovered".toList ++ ".jsonl".toList) := by
      simp [hslash]
    rw [logicalThreadRelative, hchars, rsplitOnce_append hfile, hresult]
    simp only [Option.bind_eq_bind, Option.bind_some, stripSuffix_append]
  · have hchars : (identityId ++ "/" ++ threadId ++ ".recovered-" ++ toString index ++ ".jsonl").toList =
        identityId.toList ++ (['/'] ++ (threadId.toList ++ (".recovered-".toList ++ (toString index).toList) ++
          ".jsonl".toList)) := by
      simp
    have hdigits : ∀ c : Char, c.isDigit = false → c ∉ (toString index).toList :=
      fun c hc hmem => Bool.false_ne_true (hc.symm.trans (toString_digits index c hmem))
    have hnonempty := toString_ne_nil index
    have hfile : '/' ∉ [] ++ (threadId.toList ++ (".recovered-".toList ++ (toString index).toList) ++
        ".jsonl".toList) := by
      intro hmem
      rw [List.nil_append, List.mem_append, List.mem_append, List.mem_append] at hmem
      rcases hmem with (hmem | hmem | hmem) | hmem
      · exact hslash hmem
      · exact absurd hmem (by simp)
      · exact hdigits '/' rfl hmem
      · exact absurd hmem (by simp)
    have hstem : '.' ∉ "recovered-".toList ++ (toString index).toList := by
      intro hmem
      rcases List.mem_append.mp hmem with hmem | hmem
      · exact absurd hmem (by simp)
      · exact hdigits '.' rfl hmem
    have hplain : stripSuffix ".recovered".toList
        (threadId.toList ++ (".recovered-".toList ++ (toString index).toList)) = none := by
      rw [stripSuffix, if_neg]
      intro hsuffix
      obtain ⟨c, hc⟩ := Option.ne_none_iff_exists'.mp (fun h => hnonempty (List.getLast?_eq_none_iff.mp h))
      have hlast : (".recovered".toList).getLast? = some c := by
        obtain ⟨front, hfront⟩ := hsuffix
        have hsame := congrArg List.getLast? hfront
        rwa [List.getLast?_append_of_ne_nil _ (by simp), ← List.append_assoc,
          List.getLast?_append_of_ne_nil _ hnonempty, hc] at hsame
      have hd : c = 'd' := by simpa [eq_comm] using hlast
      exact hdigits 'd' rfl (hd ▸ List.mem_of_getLast? hc)
    have hsplit : rsplitOnce ".recovered-".toList
        (threadId.toList ++ (".recovered-".toList ++ (toString index).toList)) =
          some (threadId.toList, (toString index).toList) := by
      have hword : ".recovered-".toList = '.' :: "recovered-".toList := by simp
      rw [hword]
      exact rsplitOnce_append hstem threadId.toList
    have hall : (toString index).toList.all Char.isDigit = true := List.all_eq_true.mpr (toString_digits index)
    rw [logicalThreadRelative, hchars, rsplitOnce_append hfile, hresult]
    simp only [Option.bind_eq_bind, Option.bind_some, stripSuffix_append, hplain, hsplit, hnonempty, hall, decide_false,
      Bool.not_true, Bool.or_self, Bool.false_eq_true, ↓reduceIte]

end logical

section isolation

variable {identityId threadId : String} (hid : isSafePathSegment identityId = true)
  (hthread : isSafePathSegment threadId = true)

include hid hthread

theorem checked_threadPaths {path : String} (h : path ∈ threadPaths identityId threadId) :
    checkedAbsolutePath path = .ok path := by
  obtain ⟨suffix, rfl, -, hsuffix⟩ := mem_threadPaths h
  exact checkedAbsolutePath_safe hid hthread suffix hsuffix

/-- The files of a thread lie under the root of the store, belong to no other thread, and its recovered segments lead
back to it; no path that is accepted leaves the root. -/
theorem thread_paths_isolated :
    (∀ path ∈ threadPaths identityId threadId, checkedAbsolutePath path = .ok path ∧
      ∀ root, root <+: absolutePath root path) ∧
    (∀ identityId' threadId', isSafePathSegment identityId' = true → isSafePathSegment threadId' = true →
      (identityId, threadId) ≠ (identityId', threadId') →
      (threadPaths identityId threadId).Disjoint (threadPaths identityId' threadId')) ∧
    (∀ index, logicalThreadRelative (recoveredThreadPath identityId threadId index) =
      some (threadRelative identityId threadId)) ∧
    ∀ root relative path, checkedAbsolutePath relative = .ok path → root <+: absolutePath root relative := by
  refine ⟨?_, ?_, logicalThreadRelative_recovered hthread, ?_⟩
  · intro path hpath
    have hchecked := checked_threadPaths hid hthread hpath
    exact ⟨hchecked, fun root => (checkedAbsolutePath_under hchecked root).2⟩
  · intro identityId' threadId' hid' hthread' hne path hpath hpath'
    obtain ⟨suffix, heq, hsuffix⟩ := mem_threadPaths hpath
    obtain ⟨suffix', heq', hsuffix'⟩ := mem_threadPaths hpath'
    obtain ⟨rfl, rfl⟩ := path_injective hid hthread hid' hthread' hsuffix hsuffix' (heq.symm.trans heq')
    exact hne rfl
  · exact fun root relative path h => (checkedAbsolutePath_under h root).2

end isolation

theorem thread_paths_isolated_alice :
    (∀ path ∈ threadPaths "alice" "t-1", checkedAbsolutePath path = .ok path ∧
      ∀ root, root <+: absolutePath root path) ∧
    (threadPaths "alice" "t-1").Disjoint (threadPaths "alice" "t-2") ∧
    logicalThreadRelative "alice/t-1.recovered-10.jsonl" = some "alice/t-1.jsonl" := by
  obtain ⟨hchecked, hdisjoint, hlogical, -⟩ := @thread_paths_isolated "alice" "t-1" (by decide) (by decide)
  exact ⟨hchecked, hdisjoint "alice" "t-2" (by decide) (by decide) (by decide), hlogical 10⟩

end Prelay.Rollout
