import Prelay.Chunking
import Prelay.JsonReread
import Prelay.Utf8

namespace Prelay.Bridge

open Json

theorem stripPrefixChars_append (pre rest : List Char) : Str.stripPrefixChars pre (pre ++ rest) = some rest := by
  induction pre with
  | nil => rfl
  | cons p pre ih => simp [Str.stripPrefixChars, ih]

theorem stripPrefix_append (pre rest : String) : Str.stripPrefix pre (pre ++ rest) = some rest := by
  simp [Str.stripPrefix, stripPrefixChars_append]

def Plain (text : String) : Prop := ∀ c ∈ text.toList, 32 ≤ c.toNat

theorem Plain.append {s t : String} (hs : Plain s) (ht : Plain t) : Plain (s ++ t) := by
  intro c hc
  rw [String.toList_append] at hc
  rcases List.mem_append.mp hc with hc | hc
  · exact hs c hc
  · exact ht c hc

theorem Plain.notMem {text : String} (h : Plain text) {b : UInt8} (hb : b < 32) : b ∉ Str.utf8 text := by
  have hb' : b.toNat < 32 := hb
  apply Str.ascii_notMem_utf8
  · exact UInt8.lt_iff_toNat_lt.mpr (show b.toNat < 128 by omega)
  · intro c hc heq
    have := h c hc
    omega

theorem Plain.stripCr {text : String} (h : Plain text) : Sse.stripCr (Str.utf8 text) = Str.utf8 text := by
  apply if_neg
  intro hlast
  exact h.notMem (by decide) (List.mem_of_getLast? hlast)

theorem utf8_newline (s : String) : Str.utf8 (s ++ "\n") = Str.utf8 s ++ [10] := by
  rw [Str.utf8_append]
  rfl

theorem render_utf8 (texts : List String) :
    Lines.render 10 (texts.map Str.utf8) = Str.utf8 (texts.foldr (fun text rest => text ++ "\n" ++ rest) "") := by
  induction texts with
  | nil => simp [Str.utf8]
  | cons text texts ih =>
    rw [List.map_cons, Lines.render_cons, ih, List.foldr_cons, Str.utf8_append, utf8_newline]
    simp

theorem drainLines_plain {texts : List String} (h : ∀ text ∈ texts, Plain text) :
    Sse.drainLines (Lines.render 10 (texts.map Str.utf8)) = (texts.map Str.utf8, []) := by
  have hlines : ∀ line ∈ texts.map Str.utf8, 10 ∉ line := by
    intro line hline
    obtain ⟨text, htext, rfl⟩ := List.mem_map.mp hline
    exact (h text htext).notMem (by decide)
  have hsplit := Lines.split_render 10 (texts.map Str.utf8) [] hlines
  rw [List.append_nil] at hsplit
  have hstrip : (texts.map Str.utf8).map Sse.stripCr = texts.map Str.utf8 := by
    rw [List.map_map]
    apply List.map_congr_left
    intro text htext
    exact (h text htext).stripCr
  simp only [Sse.drainLines, hsplit, Lines.prepend, Lines.split, List.append_nil, hstrip]

section events

theorem linePayload_data (data : String) :
    Sse.linePayload Sse.stripSpace (Str.utf8 ("data: " ++ data)) = some data := by
  have hdata : "data: " ++ data = "data:" ++ (" " ++ data) := by simp [← String.toList_inj]
  rw [Sse.linePayload, Str.fromUtf8_utf8, Option.bind_some, hdata, stripPrefix_append, Option.map_some, Sse.stripSpace,
    stripPrefix_append, Option.getD_some]

theorem events_plain {datas : List String} (h : ∀ data ∈ datas, Plain data) :
    Sse.events Sse.stripSpace (datas.map (fun data => Str.utf8 ("data: " ++ data ++ "\n\n"))) = datas := by
  have hlines : ∀ text ∈ datas.flatMap (fun data => ["data: " ++ data, ""]), Plain text := by
    intro text htext
    obtain ⟨data, hdata, htext⟩ := List.mem_flatMap.mp htext
    rw [List.mem_pair] at htext
    rcases htext with rfl | rfl
    · exact Plain.append (by simp [Plain]) (h data hdata)
    · simp [Plain]
  have hflat : (datas.map (fun data => Str.utf8 ("data: " ++ data ++ "\n\n"))).flatten =
      Lines.render 10 ((datas.flatMap (fun data => ["data: " ++ data, ""])).map Str.utf8) := by
    rw [render_utf8]
    induction datas with
    | nil => simp [Str.utf8]
    | cons data datas ih =>
      rw [List.map_cons, List.flatten_cons, ih (fun other hother => h other (List.mem_cons_of_mem _ hother))
        (fun text htext => hlines text (by rw [List.flatMap_cons]; exact List.mem_append_right _ htext)),
        List.flatMap_cons,
        List.foldr_append, ← Str.utf8_append]
      congr 1
      simp [← String.toList_inj]
  have hscan : ∀ datas : List String, Sse.scanLines Sse.stripSpace []
      ((datas.flatMap (fun data => ["data: " ++ data, ""])).map Str.utf8) = ([], datas) := by
    intro datas
    induction datas with
    | nil => rfl
    | cons data datas ih =>
      have hne : Str.utf8 ("data: " ++ data) ≠ [] := by
        rw [Str.utf8_append]
        intro hnil
        exact absurd (List.append_eq_nil_iff.mp hnil).1 (by decide)
      have hone : Sse.scanLines Sse.stripSpace [] (["data: " ++ data, ""].map Str.utf8) = ([], [data]) := by
        simp only [List.map_cons, List.map_nil, Sse.scanLines, Sse.scanLine, hne, ↓reduceIte, linePayload_data,
          Option.toList_some, List.nil_append, show Str.utf8 "" = [] from rfl]
        simp [Str.join]
      rw [List.flatMap_cons, List.map_append, Sse.scanLines_append, hone, ih, List.singleton_append]
  rw [Sse.events_flatten, hflat]
  simp only [Sse.events, Sse.chunkEvents, Sse.trailingEvents, Sse.Scanner.pushAll, Sse.Scanner.push, List.nil_append,
    drainLines_plain hlines, hscan]
  simp [Sse.Scanner.trailing]

theorem isDone_brace {data : String} {rest : List Char} (h : data.toList = '\x7b' :: rest) : isDone data = false := by
  rw [isDone, decide_eq_false_iff_not]
  intro hdone
  have hlist : ("[DONE]" : String).toList <+: data.toList.dropWhile Str.isWhitespace := by
    rw [← hdone, Str.trim, Str.trimEnd, String.toList_ofList, Str.trimStart, String.toList_ofList]
    exact List.rdropWhile_prefix _ _
  have hopen : data.toList.dropWhile Str.isWhitespace = '\x7b' :: rest := by
    rw [h]
    rfl
  rw [hopen] at hlist
  exact absurd (List.cons_prefix_cons.mp hlist).1 (by decide)

end events

namespace ResponsesChunk

def IsPlain : ResponsesChunk → Prop
  | .event name _ => Plain name
  | .completed _ => True

def lines (serde : SerdeJson) : ResponsesChunk → List String
  | .event name data => ["event: " ++ name, "data: " ++ serde.toStr data, ""]
  | .completed data => ["event: response.completed", "data: " ++ serde.toStr data, "", "data: [DONE]", ""]

theorem text_lines (serde : SerdeJson) (chunk : ResponsesChunk) :
    chunk.text serde = (chunk.lines serde).foldr (fun text rest => text ++ "\n" ++ rest) "" := by
  apply String.toList_inj.mp
  cases chunk with
  | event name data =>
    rw [show text serde (.event name data) = "event: " ++ name ++ "\ndata: " ++ serde.toStr data ++ "\n\n" from rfl,
      show lines serde (.event name data) = ["event: " ++ name, "data: " ++ serde.toStr data, ""] from rfl]
    simp
  | completed data =>
    rw [show text serde (.completed data) =
        "event: response.completed\ndata: " ++ serde.toStr data ++ "\n\ndata: [DONE]\n\n" from rfl,
      show lines serde (.completed data) =
        ["event: response.completed", "data: " ++ serde.toStr data, "", "data: [DONE]", ""] from rfl]
    simp

theorem bytes_lines (serde : SerdeJson) (chunk : ResponsesChunk) :
    chunk.bytes serde = Lines.render 10 ((chunk.lines serde).map Str.utf8) := by
  rw [render_utf8, bytes, text_lines]

theorem lines_plain {serde : SerdeJson} (hserde : serde.Lawful) {chunk : ResponsesChunk} (h : chunk.IsPlain) :
    ∀ text ∈ chunk.lines serde, Plain text := by
  have hdata : ∀ data, Plain ("data: " ++ serde.toStr data) :=
    fun data => Plain.append (by simp [Plain]) (hserde.no_control data)
  have hblank : Plain "" := by simp [Plain]
  cases chunk with
  | event name data =>
    have hname : Plain ("event: " ++ name) := Plain.append (by simp [Plain]) h
    simp only [lines, List.mem_cons, List.not_mem_nil, or_false]
    rintro text (rfl | rfl | rfl)
    · exact hname
    · exact hdata data
    · exact hblank
  | completed data =>
    simp only [lines, List.mem_cons, List.not_mem_nil, or_false]
    rintro text (rfl | rfl | rfl | rfl | rfl)
    · simp [Plain]
    · exact hdata data
    · exact hblank
    · simp [Plain]
    · exact hblank

end ResponsesChunk

section read

variable (serde : SerdeJson)

def nativeRecord (stats : StreamStatsSnapshot) : ResponsesChunk → StreamStatsSnapshot
  | .event name data => NativeResponses.recordData serde stats (some name) (serde.toStr data)
  | .completed data => NativeResponses.recordData serde
      (NativeResponses.recordData serde stats (some "response.completed") (serde.toStr data)) none "[DONE]"

theorem processLine_event (st : NativeResponses) (name : String) :
    st.processLine serde (Str.utf8 ("event: " ++ name)) = { st with eventName := some name } := by
  have hne : Str.utf8 ("event: " ++ name) ≠ [] := by
    rw [Str.utf8_append]
    intro h
    exact absurd (List.append_eq_nil_iff.mp h).1 (by decide)
  have hevent : Str.stripPrefix "event:" ("event: " ++ name) = some (" " ++ name) := by
    rw [show "event: " ++ name = "event:" ++ (" " ++ name) from by simp [← String.toList_inj], stripPrefix_append]
  simp only [NativeResponses.processLine, hne, ↓reduceIte, Str.fromUtf8_utf8, hevent, Sse.stripSpace,
    stripPrefix_append, Option.getD_some]

theorem processLine_data (st : NativeResponses) (data : String) :
    st.processLine serde (Str.utf8 ("data: " ++ data)) = { st with dataLines := st.dataLines ++ [data] } := by
  have hne : Str.utf8 ("data: " ++ data) ≠ [] := by
    rw [Str.utf8_append]
    intro h
    exact absurd (List.append_eq_nil_iff.mp h).1 (by decide)
  have hevent : Str.stripPrefix "event:" ("data: " ++ data) = none := by
    simp [Str.stripPrefix, Str.stripPrefixChars]
  have hdata : Str.stripPrefix "data:" ("data: " ++ data) = some (" " ++ data) := by
    rw [show "data: " ++ data = "data:" ++ (" " ++ data) from by simp [← String.toList_inj], stripPrefix_append]
  simp only [NativeResponses.processLine, hne, ↓reduceIte, Str.fromUtf8_utf8, hevent, hdata, Sse.stripSpace,
    stripPrefix_append, Option.getD_some]

theorem processLine_blank (st : NativeResponses) : st.processLine serde (Str.utf8 "") = st.recordEvent serde := rfl

theorem processLines_chunk (stats : StreamStatsSnapshot) (chunk : ResponsesChunk) :
    NativeResponses.processLines serde { stats := stats } ((chunk.lines serde).map Str.utf8) =
      { stats := nativeRecord serde stats chunk } := by
  cases chunk with
  | event name data =>
    simp only [NativeResponses.processLines, ResponsesChunk.lines, List.map_cons, List.map_nil, List.foldl_cons,
      List.foldl_nil, processLine_event, processLine_data, processLine_blank]
    rfl
  | completed data =>
    have hname := processLine_event serde { stats := stats } "response.completed"
    have hdone : ∀ st : NativeResponses, st.processLine serde (Str.utf8 "data: [DONE]") =
        { st with dataLines := st.dataLines ++ ["[DONE]"] } := fun st => processLine_data serde st "[DONE]"
    simp only [NativeResponses.processLines, ResponsesChunk.lines, List.map_cons, List.map_nil, List.foldl_cons,
      List.foldl_nil, processLine_data, processLine_blank]
    rw [show Str.utf8 "event: response.completed" = Str.utf8 ("event: " ++ "response.completed") from rfl, hname]
    simp only [hdone, NativeResponses.recordEvent]
    rfl

theorem decode_native (hserde : serde.Lawful) {chunks : List ResponsesChunk} (hplain : ∀ chunk ∈ chunks, chunk.IsPlain)
    {pieces : List Bytes} (hpieces : pieces.flatten = chunks.flatMap (ResponsesChunk.bytes serde)) :
    ((nativeResponsesDecoder serde).decode id {} pieces).2 =
      NativeResponses.recordData serde (chunks.foldl (nativeRecord serde) {}) none "" := by
  have hopen : (10 : UInt8) ∉ ([] : Bytes) := List.not_mem_nil
  have hchunks : (chunks.map (ResponsesChunk.bytes serde)).flatten = pieces.flatten := by
    rw [hpieces, List.flatMap_def]
  have hpush : ∀ (chunks : List ResponsesChunk) (stats : StreamStatsSnapshot), (∀ chunk ∈ chunks, chunk.IsPlain) →
      ((nativeResponsesDecoder serde).pushAll ⟨[], { stats := stats }⟩ (chunks.map (ResponsesChunk.bytes serde))).1 =
        ⟨[], { stats := chunks.foldl (nativeRecord serde) stats }⟩ := by
    intro chunks
    induction chunks with
    | nil => intro stats _; rfl
    | cons chunk chunks ih =>
      intro stats h
      have hlines := drainLines_plain (ResponsesChunk.lines_plain hserde (h chunk List.mem_cons_self))
      have hrest := ih (nativeRecord serde stats chunk) (fun c hc => h c (List.mem_cons_of_mem _ hc))
      simp only [List.map_cons, ByteStreamDecoder.pushAll, nativeResponsesDecoder,
        NativeResponsesSseStatsDecoder.pushChunk, List.nil_append, ResponsesChunk.bytes_lines serde chunk, hlines,
        processLines_chunk, List.foldl_cons] at hrest ⊢
      exact hrest
  rw [(nativeResponses_chunked serde).decode hopen pieces, ← hchunks,
    ← (nativeResponses_chunked serde).decode hopen (chunks.map (ResponsesChunk.bytes serde))]
  simp only [ByteStreamDecoder.decode]
  rw [show ({} : NativeResponsesSseStatsDecoder) = ⟨[], { stats := {} }⟩ from rfl, hpush chunks {} hplain]
  rfl

end read

end Prelay.Bridge
