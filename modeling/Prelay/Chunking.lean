import Prelay.NativeStats

namespace Prelay.Bridge

open Json

namespace ByteStreamDecoder

variable {σ ω β : Type} (d : ByteStreamDecoder σ ω) (bytes : ω → List β)

def pushAll (s : σ) : List Bytes → σ × List ω
  | [] => (s, [])
  | chunk :: chunks =>
    let (s, out) := d.pushChunk s chunk
    let (s, rest) := pushAll s chunks
    (s, out ++ rest)

def decode (s : σ) (chunks : List Bytes) : List β × StreamStatsSnapshot :=
  let (s, out) := d.pushAll s chunks
  let (s, rest) := d.finish s
  ((out ++ rest).flatMap bytes, d.stats s)

/-- A decoder that carries its state across the cut between two chunks. -/
structure Chunked (Quiet : σ → Prop) : Prop where
  quiet : ∀ s chunk, Quiet (d.pushChunk s chunk).1
  nil : ∀ s, Quiet s → (d.pushChunk s []).1 = s ∧ (d.pushChunk s []).2.flatMap bytes = []
  append : ∀ s as bs, (d.pushChunk s (as ++ bs)).1 = (d.pushChunk (d.pushChunk s as).1 bs).1 ∧
    (d.pushChunk s (as ++ bs)).2.flatMap bytes =
      (d.pushChunk s as).2.flatMap bytes ++ (d.pushChunk (d.pushChunk s as).1 bs).2.flatMap bytes

variable {d bytes} {Quiet : σ → Prop}

theorem Chunked.pushAll (h : d.Chunked bytes Quiet) {s : σ} (hs : Quiet s) (chunks : List Bytes) :
    (d.pushAll s chunks).1 = (d.pushChunk s chunks.flatten).1 ∧
      (d.pushAll s chunks).2.flatMap bytes = (d.pushChunk s chunks.flatten).2.flatMap bytes := by
  induction chunks generalizing s with
  | nil => exact ⟨(h.nil s hs).1.symm, (h.nil s hs).2.symm⟩
  | cons chunk chunks ih =>
    obtain ⟨hstate, hbytes⟩ := h.append s chunk chunks.flatten
    obtain ⟨hstate', hbytes'⟩ := ih (h.quiet s chunk)
    simp only [ByteStreamDecoder.pushAll, List.flatten_cons, List.flatMap_append, hstate, hbytes, hstate', hbytes',
      and_self]

theorem Chunked.decode (h : d.Chunked bytes Quiet) {s : σ} (hs : Quiet s) (chunks : List Bytes) :
    d.decode bytes s chunks = d.decode bytes s [chunks.flatten] := by
  obtain ⟨hstate, hbytes⟩ := h.pushAll hs chunks
  simp only [ByteStreamDecoder.decode, ByteStreamDecoder.pushAll, List.append_nil, List.flatMap_append, hstate, hbytes]

end ByteStreamDecoder

section decoders

variable (serde : SerdeJson)

theorem reader_pushChunk_append {σ ω : Type} (handle : σ → String → σ × List ω) (strip : String → String)
    (r : Sse.Reader σ) (as bs : Bytes) :
    r.pushChunk handle strip (as ++ bs) =
      (((r.pushChunk handle strip as).1.pushChunk handle strip bs).1,
        (r.pushChunk handle strip as).2 ++ ((r.pushChunk handle strip as).1.pushChunk handle strip bs).2) := by
  simp only [Sse.Reader.pushChunk_eq, Sse.Reader.scanner, Sse.Scanner.push_append, Sse.handleAll_append]

theorem reader_pushChunk_nil {σ ω : Type} (handle : σ → String → σ × List ω) (strip : String → String)
    (r : Sse.Reader σ) (h : 10 ∉ r.lineBuffer) : r.pushChunk handle strip [] = (r, []) := by
  have hscanner : 10 ∉ r.scanner.lineBuffer := h
  rw [Sse.Reader.pushChunk_eq, Sse.Scanner.push_nil strip r.scanner hscanner]
  rfl

theorem reader_pushChunk_quiet {σ ω : Type} (handle : σ → String → σ × List ω) (strip : String → String)
    (r : Sse.Reader σ) (chunk : Bytes) : 10 ∉ (r.pushChunk handle strip chunk).1.lineBuffer := by
  rw [Sse.Reader.pushChunk_eq]
  exact Sse.Scanner.push_lineBuffer strip r.scanner chunk

theorem chatToResponses_chunked {β : Type} (bytes : ResponsesChunk → List β) :
    (chatToResponsesDecoder serde).Chunked bytes (fun dec => 10 ∉ dec.lineBuffer) where
  quiet dec chunk := reader_pushChunk_quiet _ _ dec chunk
  nil dec hdec := by
    have hnil := reader_pushChunk_nil (ChatToResponses.processEvent serde) Sse.stripSpace dec hdec
    simp [chatToResponsesDecoder, ChatToResponsesSseDecoder.pushChunk, hnil]
  append dec as bs := by
    have happend := reader_pushChunk_append (ChatToResponses.processEvent serde) Sse.stripSpace dec as bs
    simp [chatToResponsesDecoder, ChatToResponsesSseDecoder.pushChunk, happend]

theorem chatStats_chunked : (chatStatsDecoder serde).Chunked id (fun dec => 10 ∉ dec.lineBuffer) where
  quiet dec chunk := reader_pushChunk_quiet (ChatSseStatsDecoder.handle serde) Sse.stripSpace dec chunk
  nil dec hdec := by
    have hnil := reader_pushChunk_nil (ChatSseStatsDecoder.handle serde) Sse.stripSpace dec hdec
    simp [chatStatsDecoder, ChatSseStatsDecoder.pushChunk, hnil]
  append dec as bs := by
    have happend := reader_pushChunk_append (ChatSseStatsDecoder.handle serde) Sse.stripSpace dec as bs
    simp [chatStatsDecoder, ChatSseStatsDecoder.pushChunk, happend]

theorem nativeResponses_chunked :
    (nativeResponsesDecoder serde).Chunked id (fun dec => 10 ∉ dec.lineBuffer) where
  quiet dec chunk := (Lines.split_spec 10 (dec.lineBuffer ++ chunk)).2.1
  nil dec hdec := by
    have hnil : Sse.drainLines dec.lineBuffer = ([], dec.lineBuffer) := by
      simp [Sse.drainLines, Lines.split_open 10 _ hdec]
    simp [nativeResponsesDecoder, NativeResponsesSseStatsDecoder.pushChunk, hnil, NativeResponses.processLines]
  append dec as bs := by
    have happend := Sse.drainLines_append (dec.lineBuffer ++ as) bs
    simp only [List.append_assoc] at happend
    simp [nativeResponsesDecoder, NativeResponsesSseStatsDecoder.pushChunk, happend, NativeResponses.processLines]

/-- No cut of a stream into chunks changes what its decoders send and count. -/
theorem chunking_invariant (responseId : String) (chunks : List Bytes) :
    (chatToResponsesDecoder serde).decode (ResponsesChunk.bytes serde) (.new responseId) chunks =
        (chatToResponsesDecoder serde).decode (ResponsesChunk.bytes serde) (.new responseId) [chunks.flatten] ∧
      (chatStatsDecoder serde).decode id { inner := {} } chunks =
        (chatStatsDecoder serde).decode id { inner := {} } [chunks.flatten] ∧
      (nativeResponsesDecoder serde).decode id {} chunks =
        (nativeResponsesDecoder serde).decode id {} [chunks.flatten] := by
  have hopen : (10 : UInt8) ∉ ([] : Bytes) := List.not_mem_nil
  refine ⟨?_, ?_, ?_⟩
  · exact (chatToResponses_chunked serde _).decode hopen chunks
  · exact (chatStats_chunked serde).decode hopen chunks
  · exact (nativeResponses_chunked serde).decode hopen chunks

end decoders

end Prelay.Bridge
