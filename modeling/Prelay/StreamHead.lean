import Prelay.AppError

namespace Prelay.StreamHead

structure Response where
  contentType : Option String
  chunks : List (Except String Bytes)

def diagnosticLimit : ℕ := 200

def maxEmptyChunks : ℕ := 32

def isAsciiWhitespace (b : UInt8) : Bool := b = 32 || b = 9 || b = 10 || b = 12 || b = 13

def trimAsciiStart (bytes : Bytes) : Bytes := bytes.dropWhile isAsciiWhitespace

def toAsciiLowercase (s : String) : String := String.ofList (s.toList.map Char.toLower)

def findChars (pattern : List Char) : List Char → Option ℕ
  | [] => if pattern = [] then some 0 else none
  | c :: cs => if pattern.isPrefixOf (c :: cs) then some 0 else (findChars pattern cs).map (· + 1)

def pageTitle (excerpt : String) : Option String := do
  let chars := excerpt.toList
  let lower := chars.map Char.toLower
  let titleStart ← findChars "<title".toList lower
  let opened := (← findChars ['>'] (chars.drop titleStart)) + titleStart + 1
  let title ← findChars "</title>".toList (lower.drop opened)
  let title := Str.trim (String.ofList ((chars.drop opened).take title))
  if title = "" then none else some title

def htmlContentType (contentType : String) : Bool :=
  (Str.stripPrefix "text/html" contentType).isSome || (Str.stripPrefix "application/xhtml" contentType).isSome

section verify

-- `String::from_utf8_lossy` and the quoted form `{:?}` of a text.
variable (fromUtf8Lossy : Bytes → String) (debug : String → String)

def htmlBodyMessage (chunk : Bytes) : String :=
  let excerpt := fromUtf8Lossy (chunk.take diagnosticLimit)
  match pageTitle excerpt with
  | some title => "上游返回了网页而不是事件流（页面标题: " ++ title ++ "）"
  | none => "上游返回了网页而不是事件流（响应片段: " ++ debug (Str.trim excerpt) ++ "）"

def readHead (emptyChunks : ℕ) : List (Except String Bytes) → Except AppError Bytes × List (Except String Bytes)
  | [] => (.error (.upstreamInvalidResponse "上游返回了空响应"), [])
  | .error error :: rest => (.error (.upstream none ("上游连接失败: " ++ error)), rest)
  | .ok chunk :: rest =>
    if chunk = [] then
      if emptyChunks + 1 > maxEmptyChunks then
        (.error (.upstreamInvalidResponse "上游持续返回空数据而不是事件流"), rest)
      else readHead (emptyChunks + 1) rest
    else if (trimAsciiStart chunk).head? = some 60 then
      (.error (.upstreamInvalidResponse (htmlBodyMessage fromUtf8Lossy debug chunk)), rest)
    else (.ok chunk, rest)

def verifyUpstreamSseHead (response : Response) : Except AppError (Option Bytes) × Response :=
  match response.contentType.map (fun contentType => toAsciiLowercase (Str.trim contentType)) with
  | some contentType =>
    if htmlContentType contentType then
      (.error (.upstreamInvalidResponse ("上游返回了网页而不是事件流（Content-Type: " ++ contentType ++ "）")), response)
    else ((readHead fromUtf8Lossy debug 0 response.chunks).1.map some,
      { response with chunks := (readHead fromUtf8Lossy debug 0 response.chunks).2 })
  | none => ((readHead fromUtf8Lossy debug 0 response.chunks).1.map some,
      { response with chunks := (readHead fromUtf8Lossy debug 0 response.chunks).2 })

end verify

def upstreamBytesStream (response : Response) (head : Option Bytes) : List (Except String Bytes) :=
  match head with
  | some bytes => .ok bytes :: response.chunks
  | none => response.chunks

def firstVisible (body : Bytes) : Option UInt8 := (trimAsciiStart body).head?

def firstChunk (chunks : List Bytes) : Option Bytes := chunks.find? (fun chunk => !chunk.isEmpty)

def FewEmpty (chunks : List Bytes) : Prop :=
  ∀ head, firstChunk chunks = some head → (chunks.takeWhile List.isEmpty).length ≤ maxEmptyChunks

section head

variable {fromUtf8Lossy : Bytes → String} {debug : String → String}

theorem firstVisible_append (head rest : Bytes) :
    firstVisible (head ++ rest) = (firstVisible head).or (firstVisible rest) := by
  unfold firstVisible trimAsciiStart
  rw [List.dropWhile_append]
  cases head.dropWhile isAsciiWhitespace with
  | nil => rfl
  | cons b bs => rfl

theorem firstVisible_eq_none {body : Bytes} : firstVisible body = none ↔ ∀ b ∈ body, isAsciiWhitespace b = true := by
  rw [firstVisible, trimAsciiStart, List.head?_eq_none_iff, List.dropWhile_eq_nil_iff]

theorem firstVisible_flatten {chunks : List Bytes} {head : Bytes} (h : firstChunk chunks = some head) :
    ∃ rest, firstVisible chunks.flatten = (firstVisible head).or (firstVisible rest) := by
  induction chunks with
  | nil => exact nomatch h
  | cons chunk chunks ih =>
    rw [firstChunk, List.find?_cons] at h
    cases chunk with
    | nil => exact ih h
    | cons b bs =>
      obtain rfl := Option.some.inj h
      exact ⟨chunks.flatten, firstVisible_append _ _⟩

theorem firstChunk_eq_none {chunks : List Bytes} : firstChunk chunks = none ↔ chunks.flatten = [] := by
  simp [firstChunk]

theorem readHead_ok {emptyChunks : ℕ} {chunks rest : List (Except String Bytes)} {head : Bytes}
    (h : readHead fromUtf8Lossy debug emptyChunks chunks = (.ok head, rest)) :
    ∃ n, chunks = List.replicate n (.ok []) ++ .ok head :: rest := by
  induction chunks generalizing emptyChunks with
  | nil => exact nomatch h
  | cons item chunks ih =>
    cases item with
    | error error => exact nomatch h
    | ok chunk =>
      rw [readHead] at h
      split_ifs at h with hempty hmany hhtml
      · exact nomatch (Prod.mk.inj h).1
      · obtain ⟨n, rfl⟩ := ih h
        subst hempty
        exact ⟨n + 1, rfl⟩
      · exact nomatch (Prod.mk.inj h).1
      · obtain ⟨hhead, rfl⟩ := Prod.mk.inj h
        obtain rfl := Except.ok.inj hhead
        exact ⟨0, rfl⟩

theorem readHead_empty {chunks : List Bytes} (h : firstChunk chunks = none) (emptyChunks : ℕ) :
    ∃ message, (readHead fromUtf8Lossy debug emptyChunks (chunks.map .ok)).1 =
      .error (.upstreamInvalidResponse message) := by
  induction chunks generalizing emptyChunks with
  | nil => exact ⟨_, rfl⟩
  | cons chunk chunks ih =>
    cases chunk with
    | nil =>
      rw [List.map_cons, readHead, if_pos rfl]
      split_ifs
      · exact ⟨_, rfl⟩
      · exact ih h _
    | cons b bs => exact nomatch h

theorem readHead_first {chunks : List Bytes} {head : Bytes} (hfirst : firstChunk chunks = some head) {emptyChunks : ℕ}
    (h : emptyChunks + (chunks.takeWhile List.isEmpty).length ≤ maxEmptyChunks) :
    (readHead fromUtf8Lossy debug emptyChunks (chunks.map .ok)).1 =
      if firstVisible head = some 60 then .error (.upstreamInvalidResponse (htmlBodyMessage fromUtf8Lossy debug head))
      else .ok head := by
  induction chunks generalizing emptyChunks with
  | nil => exact nomatch hfirst
  | cons chunk chunks ih =>
    cases chunk with
    | nil =>
      rw [List.takeWhile_cons_of_pos rfl, List.length_cons] at h
      rw [List.map_cons, readHead, if_pos rfl, if_neg (by omega)]
      apply ih hfirst
      omega
    | cons b bs =>
      obtain rfl := Option.some.inj hfirst
      rw [List.map_cons, readHead, if_neg (List.cons_ne_nil _ _)]
      unfold firstVisible
      split_ifs
      · rfl
      · rfl

end head

section verified

variable (fromUtf8Lossy : Bytes → String) (debug : String → String)

def Rejects (response : Response) : Prop :=
  ∃ message, (verifyUpstreamSseHead fromUtf8Lossy debug response).1 = .error (.upstreamInvalidResponse message)

def NotHtml (contentType : Option String) : Prop :=
  ∀ value, contentType = some value → htmlContentType (toAsciiLowercase (Str.trim value)) = false

/-- The verdict is that on the whole body, and no byte is lost. -/
structure Verified (contentType : Option String) (chunks : List Bytes) : Prop where
  chunking : Rejects fromUtf8Lossy debug ⟨contentType, chunks.map .ok⟩ ↔
    Rejects fromUtf8Lossy debug ⟨contentType, [.ok chunks.flatten]⟩
  empty : chunks.flatten = [] → Rejects fromUtf8Lossy debug ⟨contentType, chunks.map .ok⟩
  html : firstVisible chunks.flatten = some 60 → Rejects fromUtf8Lossy debug ⟨contentType, chunks.map .ok⟩
  delivered : ∀ head response, verifyUpstreamSseHead fromUtf8Lossy debug ⟨contentType, chunks.map .ok⟩ =
      (.ok head, response) →
    ∃ pieces : List Bytes, upstreamBytesStream response head = pieces.map .ok ∧ pieces.flatten = chunks.flatten

variable {fromUtf8Lossy debug} {contentType : Option String}

theorem verify_notHtml (hhtml : NotHtml contentType) (chunks : List (Except String Bytes)) :
    verifyUpstreamSseHead fromUtf8Lossy debug ⟨contentType, chunks⟩ =
      ((readHead fromUtf8Lossy debug 0 chunks).1.map some, ⟨contentType, (readHead fromUtf8Lossy debug 0 chunks).2⟩) := by
  cases contentType with
  | none => rfl
  | some value =>
    have hvalue := hhtml value rfl
    simp [verifyUpstreamSseHead, hvalue]

theorem rejects_iff (hhtml : NotHtml contentType) {chunks : List Bytes} (hempty : FewEmpty chunks) :
    Rejects fromUtf8Lossy debug ⟨contentType, chunks.map .ok⟩ ↔
      chunks.flatten = [] ∨ ∃ head, firstChunk chunks = some head ∧ firstVisible head = some 60 := by
  rw [Rejects, verify_notHtml hhtml]
  cases hfirst : firstChunk chunks with
  | none =>
    obtain ⟨message, hmessage⟩ := @readHead_empty fromUtf8Lossy debug chunks hfirst 0
    refine iff_of_true ⟨message, ?_⟩ (.inl (firstChunk_eq_none.mp hfirst))
    simp only [hmessage]
    rfl
  | some head =>
    have hread := @readHead_first fromUtf8Lossy debug chunks head hfirst 0 (by
      rw [Nat.zero_add]
      exact hempty head hfirst)
    have hbody : chunks.flatten ≠ [] := by
      intro hbody
      rw [firstChunk_eq_none.mpr hbody] at hfirst
      exact nomatch hfirst
    simp only [hread, hbody, false_or, Option.some.injEq, exists_eq_left']
    split_ifs with hopen
    · exact iff_of_true ⟨_, rfl⟩ hopen
    · exact iff_of_false (fun ⟨message, heq⟩ => nomatch heq) hopen

theorem rejects_body_iff (hhtml : NotHtml contentType) (body : Bytes) :
    Rejects fromUtf8Lossy debug ⟨contentType, [.ok body]⟩ ↔ body = [] ∨ firstVisible body = some 60 := by
  have hlength : FewEmpty [body] :=
    fun _ _ => (List.takeWhile_sublist _).length_le.trans (by decide : 1 ≤ maxEmptyChunks)
  rw [show [Except.ok body] = [body].map (Except.ok (ε := String)) from rfl, rejects_iff hhtml hlength]
  cases body with
  | nil => simp
  | cons b bs => simp [firstChunk]

theorem verify_ok {response response' : Response} {head : Option Bytes}
    (h : verifyUpstreamSseHead fromUtf8Lossy debug response = (.ok head, response')) :
    ∃ bytes rest, head = some bytes ∧ readHead fromUtf8Lossy debug 0 response.chunks = (.ok bytes, rest) ∧
      response'.chunks = rest := by
  have hread : (readHead fromUtf8Lossy debug 0 response.chunks).1.map some = .ok head ∧
      response'.chunks = (readHead fromUtf8Lossy debug 0 response.chunks).2 := by
    unfold verifyUpstreamSseHead at h
    split at h
    · split_ifs at h
      · cases (Prod.mk.inj h).1
      · obtain ⟨hhead, rfl⟩ := Prod.mk.inj h
        exact ⟨hhead, rfl⟩
    · obtain ⟨hhead, rfl⟩ := Prod.mk.inj h
      exact ⟨hhead, rfl⟩
  obtain ⟨hhead, hrest⟩ := hread
  cases hresult : (readHead fromUtf8Lossy debug 0 response.chunks).1 with
  | error error =>
    rw [hresult] at hhead
    cases hhead
  | ok bytes =>
    rw [hresult] at hhead
    exact ⟨bytes, _, (Except.ok.inj hhead).symm, Prod.ext hresult rfl, hrest⟩

theorem verify_delivers {contentType : Option String} {chunks : List Bytes} {head : Option Bytes} {response : Response}
    (h : verifyUpstreamSseHead fromUtf8Lossy debug ⟨contentType, chunks.map .ok⟩ = (.ok head, response)) :
    ∃ pieces : List Bytes, upstreamBytesStream response head = pieces.map .ok ∧ pieces.flatten = chunks.flatten := by
  obtain ⟨bytes, rest, rfl, hread, hrest⟩ := verify_ok h
  obtain ⟨n, hchunks⟩ := readHead_ok hread
  obtain ⟨empties, pieces, rfl, hempties, hpieces⟩ := List.map_eq_append_iff.mp hchunks
  refine ⟨pieces, ?_, ?_⟩
  · rw [hpieces, ← hrest]
    rfl
  · have hnil : empties.flatten = [] := by
      rw [List.flatten_eq_nil_iff]
      intro chunk hchunk
      have hmem := List.mem_map_of_mem (f := Except.ok (ε := String)) hchunk
      rw [hempties] at hmem
      exact Except.ok.inj (List.eq_of_mem_replicate hmem)
    rw [List.flatten_append, hnil, List.nil_append]

theorem head_verified_iff (hhtml : NotHtml contentType) {chunks : List Bytes} (hempty : FewEmpty chunks) :
    Verified fromUtf8Lossy debug contentType chunks ↔
      firstVisible chunks.flatten ≠ some 60 ∨
        ∀ head, firstChunk chunks = some head → ∃ b ∈ head, isAsciiWhitespace b = false := by
  have hrejects := @rejects_iff fromUtf8Lossy debug contentType hhtml chunks hempty
  have hbody := @rejects_body_iff fromUtf8Lossy debug contentType hhtml chunks.flatten
  constructor
  · intro h
    rw [or_iff_not_imp_left, not_not]
    intro hopen head hhead
    rcases hrejects.mp (h.html hopen) with hnil | ⟨head', hhead', hopen'⟩
    · rw [hnil] at hopen
      exact nomatch hopen
    · obtain rfl := Option.some.inj (hhead.symm.trans hhead')
      by_contra hnone
      push Not at hnone
      rw [firstVisible_eq_none.mpr (fun b hb => by simpa using hnone b hb)] at hopen'
      exact nomatch hopen'
  · intro h
    have hsame : (∃ head, firstChunk chunks = some head ∧ firstVisible head = some 60) ↔
        firstVisible chunks.flatten = some 60 := by
      constructor
      · rintro ⟨head, hhead, hopen⟩
        obtain ⟨rest, hrest⟩ := firstVisible_flatten hhead
        rw [hrest, hopen]
        rfl
      · intro hopen
        cases hfirst : firstChunk chunks with
        | none =>
          rw [firstChunk_eq_none.mp hfirst] at hopen
          exact nomatch hopen
        | some head =>
          obtain ⟨b, hb, hvisible⟩ := h.resolve_left (not_not_intro hopen) head hfirst
          obtain ⟨rest, hrest⟩ := firstVisible_flatten hfirst
          cases hhead : firstVisible head with
          | none =>
            rw [firstVisible_eq_none.mp hhead b hb] at hvisible
            exact nomatch hvisible
          | some c =>
            rw [hrest, hhead] at hopen
            exact ⟨head, rfl, hhead.trans hopen⟩
    constructor
    · rw [hrejects, hbody, hsame]
    · exact fun hnil => hrejects.mpr (.inl hnil)
    · exact fun hopen => hrejects.mpr (.inr (hsame.mpr hopen))
    · exact fun head response => verify_delivers

theorem head_verified_page : Verified (fun _ => "") id (some "text/event-stream") [[], [32, 60]] := by
  have hhtml : NotHtml (some "text/event-stream") := by
    intro value hvalue
    obtain rfl := Option.some.inj hvalue
    decide +kernel
  refine (head_verified_iff hhtml (fun _ _ => by decide)).mpr (.inr ?_)
  intro head hhead
  obtain rfl := Option.some.inj hhead
  exact ⟨60, by decide, by decide⟩

theorem head_not_verified :
    NotHtml none ∧ FewEmpty [[32], [60]] ∧ ¬Verified (fun _ => "") id none [[32], [60]] := by
  refine ⟨(fun _ hvalue => nomatch hvalue), fun _ _ => by decide, ?_⟩
  intro h
  have hpage : Rejects (fun _ => "") id ⟨none, [.ok [32], .ok [60]]⟩ := h.html (by decide)
  obtain ⟨message, hmessage⟩ := hpage
  exact nomatch hmessage

end verified

end Prelay.StreamHead
