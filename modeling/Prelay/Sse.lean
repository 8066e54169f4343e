import Prelay.Lines
import Prelay.Str

namespace Prelay.Sse

def stripCr (line : Bytes) : Bytes := if line.getLast? = some 13 then line.dropLast else line

def drainLines (lineBuffer : Bytes) : List Bytes × Bytes :=
  ((Lines.split 10 lineBuffer).1.map stripCr, (Lines.split 10 lineBuffer).2)

theorem drainLines_append (as bs : Bytes) :
    drainLines (as ++ bs) = ((drainLines as).1 ++ (drainLines ((drainLines as).2 ++ bs)).1,
      (drainLines ((drainLines as).2 ++ bs)).2) := by
  simp only [drainLines]
  rw [Lines.split_append_fst 10 as bs, Lines.split_append_snd 10 as bs, List.map_append]

def stripSpace (data : String) : String := (Str.stripPrefix " " data).getD data

/-- The payload of a `data` line; any other line, and a line that is not UTF-8, has none. -/
def linePayload (strip : String → String) (line : Bytes) : Option String :=
  ((Str.fromUtf8 line).bind (Str.stripPrefix "data:")).map strip

/-- What a decoder keeps between two chunks: the open line and the payloads of the open event. -/
structure Scanner where
  lineBuffer : Bytes := []
  dataLines : List String := []
  deriving DecidableEq

section scan

variable (strip : String → String)

def scanLine (dataLines : List String) (line : Bytes) : List String × List String :=
  if line = [] then ([], if dataLines = [] then [] else [Str.join "\n" dataLines])
  else (dataLines ++ (linePayload strip line).toList, [])

def scanLines (dataLines : List String) : List Bytes → List String × List String
  | [] => (dataLines, [])
  | line :: lines =>
    let (dataLines, events) := scanLine strip dataLines line
    let (dataLines, rest) := scanLines dataLines lines
    (dataLines, events ++ rest)

def Scanner.push (sc : Scanner) (chunk : Bytes) : Scanner × List String :=
  let (lines, lineBuffer) := drainLines (sc.lineBuffer ++ chunk)
  let (dataLines, events) := scanLines strip sc.dataLines lines
  (⟨lineBuffer, dataLines⟩, events)

def Scanner.trailing (sc : Scanner) : List String :=
  let dataLines := sc.dataLines ++
    if sc.lineBuffer = [] then [] else (linePayload strip sc.lineBuffer).toList
  if dataLines = [] then [] else [Str.join "\n" dataLines]

def Scanner.pushAll (sc : Scanner) : List Bytes → Scanner × List (List String)
  | [] => (sc, [])
  | chunk :: chunks =>
    let (sc, events) := sc.push strip chunk
    let (sc, groups) := sc.pushAll chunks
    (sc, events :: groups)

def chunkEvents (chunks : List Bytes) : List (List String) := (Scanner.pushAll strip {} chunks).2

def trailingEvents (chunks : List Bytes) : List String := (Scanner.pushAll strip {} chunks).1.trailing strip

def events (chunks : List Bytes) : List String := (chunkEvents strip chunks).flatten ++ trailingEvents strip chunks

theorem scanLines_append (dataLines : List String) (ls ms : List Bytes) :
    scanLines strip dataLines (ls ++ ms) =
      ((scanLines strip (scanLines strip dataLines ls).1 ms).1,
        (scanLines strip dataLines ls).2 ++ (scanLines strip (scanLines strip dataLines ls).1 ms).2) := by
  induction ls generalizing dataLines with
  | nil => simp [scanLines]
  | cons line ls ih => simp [scanLines, ih]

theorem Scanner.trailing_cases (sc : Scanner) : sc.trailing strip = [] ∨ ∃ data, sc.trailing strip = [data] := by
  unfold Scanner.trailing
  dsimp only
  generalize sc.dataLines ++ _ = dataLines
  split_ifs
  · exact Or.inl rfl
  · exact Or.inr ⟨_, rfl⟩

theorem Scanner.push_append (sc : Scanner) (as bs : Bytes) :
    sc.push strip (as ++ bs) = (((sc.push strip as).1.push strip bs).1,
      (sc.push strip as).2 ++ ((sc.push strip as).1.push strip bs).2) := by
  simp only [Scanner.push, ← List.append_assoc, drainLines_append (sc.lineBuffer ++ as) bs, scanLines_append]

theorem Scanner.push_nil (sc : Scanner) (h : 10 ∉ sc.lineBuffer) : sc.push strip [] = (sc, []) := by
  simp [Scanner.push, drainLines, Lines.split_open 10 _ h, scanLines]

theorem Scanner.push_lineBuffer (sc : Scanner) (chunk : Bytes) : 10 ∉ (sc.push strip chunk).1.lineBuffer :=
  (Lines.split_spec 10 (sc.lineBuffer ++ chunk)).2.1

/-- How the stream is cut into chunks does not change its events. -/
theorem Scanner.pushAll_flatten (sc : Scanner) (chunks : List Bytes) (h : 10 ∉ sc.lineBuffer) :
    ((sc.pushAll strip chunks).1, (sc.pushAll strip chunks).2.flatten) = sc.push strip chunks.flatten := by
  induction chunks generalizing sc with
  | nil => simp [Scanner.pushAll, Scanner.push_nil strip sc h]
  | cons chunk chunks ih =>
    have hrest := ih (sc.push strip chunk).1 (sc.push_lineBuffer strip chunk)
    simp only [Scanner.pushAll, List.flatten_cons, Scanner.push_append, ← hrest]

theorem events_flatten (chunks : List Bytes) : events strip chunks = events strip [chunks.flatten] := by
  have h := Scanner.pushAll_flatten strip {} chunks (by simp)
  have hone := Scanner.pushAll_flatten strip {} [chunks.flatten] (by simp)
  rw [List.flatten_singleton, ← h] at hone
  simp only [Prod.mk.injEq] at hone
  simp only [events, chunkEvents, trailingEvents, hone.1, hone.2]

end scan

section reader

variable {σ ω : Type} (handle : σ → String → σ × List ω)

def handleAll (s : σ) : List String → σ × List ω
  | [] => (s, [])
  | data :: events =>
    let (s, out) := handle s data
    let (s, rest) := handleAll s events
    (s, out ++ rest)

theorem handleAll_append (s : σ) (ds es : List String) :
    handleAll handle s (ds ++ es) = ((handleAll handle (handleAll handle s ds).1 es).1,
      (handleAll handle s ds).2 ++ (handleAll handle (handleAll handle s ds).1 es).2) := by
  induction ds generalizing s with
  | nil => simp [handleAll]
  | cons d ds ih => simp [handleAll, ih]

/-- A decoder that reads `data` payloads line by line and hands over each event when it is complete. -/
structure Reader (σ : Type) where
  lineBuffer : Bytes := []
  dataLines : List String := []
  inner : σ

namespace Reader

def scanner (r : Reader σ) : Scanner := ⟨r.lineBuffer, r.dataLines⟩

def flushEvent (r : Reader σ) : Reader σ × List ω :=
  if r.dataLines = [] then (r, [])
  else
    let (inner, out) := handle r.inner (Str.join "\n" r.dataLines)
    ({ r with dataLines := [], inner := inner }, out)

variable (strip : String → String)

def processLine (r : Reader σ) (line : Bytes) : Reader σ × List ω :=
  if line = [] then r.flushEvent handle
  else match linePayload strip line with
    | some data => ({ r with dataLines := r.dataLines ++ [data] }, [])
    | none => (r, [])

def processLines (r : Reader σ) : List Bytes → Reader σ × List ω
  | [] => (r, [])
  | line :: lines =>
    let (r, out) := r.processLine handle strip line
    let (r, rest) := r.processLines lines
    (r, out ++ rest)

def pushChunk (r : Reader σ) (chunk : Bytes) : Reader σ × List ω :=
  let (lines, lineBuffer) := drainLines (r.lineBuffer ++ chunk)
  { r with lineBuffer := lineBuffer }.processLines handle strip lines

theorem processLine_eq (r : Reader σ) (line : Bytes) :
    r.processLine handle strip line =
      (⟨r.lineBuffer, (scanLine strip r.dataLines line).1,
        (handleAll handle r.inner (scanLine strip r.dataLines line).2).1⟩,
        (handleAll handle r.inner (scanLine strip r.dataLines line).2).2) := by
  obtain ⟨buffer, dataLines, inner⟩ := r
  unfold processLine flushEvent scanLine
  split_ifs with hline hdata
  · simp_all [handleAll]
  · simp_all [handleAll]
  · cases linePayload strip line <;> simp [handleAll]

theorem processLines_eq (r : Reader σ) (lines : List Bytes) :
    r.processLines handle strip lines =
      (⟨r.lineBuffer, (scanLines strip r.dataLines lines).1,
        (handleAll handle r.inner (scanLines strip r.dataLines lines).2).1⟩,
        (handleAll handle r.inner (scanLines strip r.dataLines lines).2).2) := by
  induction lines generalizing r with
  | nil => simp [processLines, scanLines, handleAll]
  | cons line lines ih =>
    simp only [processLines, processLine_eq, ih, scanLines, handleAll_append]

theorem pushChunk_eq (r : Reader σ) (chunk : Bytes) :
    r.pushChunk handle strip chunk =
      (⟨(r.scanner.push strip chunk).1.lineBuffer, (r.scanner.push strip chunk).1.dataLines,
        (handleAll handle r.inner (r.scanner.push strip chunk).2).1⟩,
        (handleAll handle r.inner (r.scanner.push strip chunk).2).2) := by
  simp only [pushChunk, processLines_eq, scanner, Scanner.push]

end Reader

end reader

end Prelay.Sse
