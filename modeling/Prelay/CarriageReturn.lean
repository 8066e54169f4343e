import Prelay.ClosedChat
import Prelay.Utf8

namespace Prelay.Bridge

open Json ChatToResponses

section carriageReturn

theorem fromUtf8_cr (line : Bytes) : Str.fromUtf8 (line ++ [13]) = (Str.fromUtf8 line).map (· ++ "\r") := by
  have hcr : Str.utf8 "\r" = [13] := by decide +kernel
  cases hline : Str.fromUtf8 line with
  | some text =>
    rw [Option.map_some, Str.fromUtf8_eq_some, Str.utf8_append, hcr, Str.fromUtf8_eq_some.mp hline]
  | none =>
    rw [Option.map_none]
    by_contra hsome
    obtain ⟨text, htext⟩ := Option.ne_none_iff_exists'.mp hsome
    have hbytes := Str.fromUtf8_eq_some.mp htext
    rw [Str.utf8_eq_flatMap] at hbytes
    rcases List.eq_nil_or_concat text.toList with hnil | ⟨cs, c, hcs⟩
    · rw [hnil] at hbytes
      exact List.append_ne_nil_of_right_ne_nil line (List.cons_ne_nil 13 []) hbytes.symm
    · rw [List.concat_eq_append] at hcs
      rw [hcs, List.flatMap_append, List.flatMap_singleton] at hbytes
      have hlast : (13 : UInt8) ∈ String.utf8EncodeChar c := by
        have hne : String.utf8EncodeChar c ≠ [] := by
          intro hempty
          have hlength := congrArg List.length hempty
          have hsize := c.utf8Size_pos
          rw [String.length_utf8EncodeChar, List.length_nil] at hlength
          omega
        have hget := congrArg List.getLast? hbytes
        rw [List.getLast?_concat, List.getLast?_append_of_ne_nil _ hne] at hget
        exact List.mem_of_getLast? hget
      have hc : c = '\r' := by
        apply Char.ext
        apply UInt32.toNat_inj.mp
        exact Str.ascii_mem_encode (by decide) hlast
      rw [hc, show String.utf8EncodeChar '\r' = [13] from by decide +kernel] at hbytes
      have hpre : Str.fromUtf8 line = some (String.ofList cs) := by
        rw [Str.fromUtf8_eq_some, Str.utf8_eq_flatMap, String.toList_ofList]
        exact List.append_cancel_right hbytes
      rw [hline] at hpre
      exact nomatch hpre

theorem stripPrefixChars_cr {pre : List Char} (h : '\r' ∉ pre) (cs : List Char) :
    Str.stripPrefixChars pre (cs ++ ['\r']) = (Str.stripPrefixChars pre cs).map (· ++ ['\r']) := by
  induction pre generalizing cs with
  | nil => rfl
  | cons p pre ih =>
    rw [List.mem_cons, not_or] at h
    cases cs with
    | nil =>
      have hp : p ≠ '\r' := fun heq => h.1 heq.symm
      simp [Str.stripPrefixChars, hp]
    | cons c cs =>
      rw [List.cons_append, Str.stripPrefixChars, Str.stripPrefixChars]
      split_ifs
      · exact ih h.2 cs
      · rfl

theorem stripPrefix_cr {pre : String} (h : '\r' ∉ pre.toList) (text : String) :
    Str.stripPrefix pre (text ++ "\r") = (Str.stripPrefix pre text).map (· ++ "\r") := by
  rw [Str.stripPrefix, Str.stripPrefix, String.toList_append, show "\r".toList = ['\r'] from rfl, stripPrefixChars_cr h,
    Option.map_map, Option.map_map]
  congr 1
  funext cs
  simp

theorem stripSpace_cr (data : String) : Sse.stripSpace (data ++ "\r") = Sse.stripSpace data ++ "\r" := by
  rw [Sse.stripSpace, Sse.stripSpace, stripPrefix_cr (by decide)]
  cases Str.stripPrefix " " data <;> rfl

theorem linePayload_cr (line : Bytes) :
    Sse.linePayload Sse.stripSpace (line ++ [13]) = (Sse.linePayload Sse.stripSpace line).map (· ++ "\r") := by
  rw [Sse.linePayload, Sse.linePayload, fromUtf8_cr]
  cases Str.fromUtf8 line with
  | none => rfl
  | some text =>
    rw [Option.map_some, Option.bind_some, Option.bind_some, stripPrefix_cr (by decide), Option.map_map, Option.map_map]
    congr 1
    funext data
    exact stripSpace_cr data

theorem trim_cr (text : String) : Str.trim (text ++ "\r") = Str.trim text := by
  have hcr : Str.isWhitespace '\r' = true := by decide
  unfold Str.trim Str.trimStart Str.trimEnd
  rw [String.toList_append, show "\r".toList = ['\r'] from rfl, String.toList_ofList, String.toList_ofList,
    List.dropWhile_append]
  split_ifs with hempty
  · rw [List.isEmpty_iff.mp hempty, List.dropWhile_cons_of_pos hcr, List.dropWhile_nil]
  · rw [List.rdropWhile_concat_pos _ _ _ hcr]

theorem isDone_cr (data : String) : isDone (data ++ "\r") = isDone data := by rw [isDone, isDone, trim_cr]

theorem stripCr_cases (line : Bytes) : Sse.stripCr line = line ∨ line = Sse.stripCr line ++ [13] := by
  unfold Sse.stripCr
  split_ifs with hlast
  · obtain ⟨before, rfl⟩ := List.getLast?_eq_some_iff.mp hlast
    rw [List.dropLast_concat]
    exact .inr rfl
  · exact .inl rfl

theorem join_cr (texts : List String) (text : String) :
    Str.join "\n" (texts ++ [text ++ "\r"]) = Str.join "\n" (texts ++ [text]) ++ "\r" := by
  induction texts with
  | nil => rfl
  | cons head texts ih =>
    have hcons (last : String) : Str.join "\n" (head :: texts ++ [last]) =
        head ++ "\n" ++ Str.join "\n" (texts ++ [last]) := by
      cases texts <;> rfl
    rw [hcons, hcons, ih]
    simp [← String.toList_inj]

end carriageReturn

section tail

def closedTail (sc : Sse.Scanner) : List String :=
  let dataLines := sc.dataLines ++ (Sse.linePayload Sse.stripSpace (Sse.stripCr sc.lineBuffer)).toList
  if dataLines = [] then [] else [Str.join "\n" dataLines]

theorem linePayload_nil : Sse.linePayload Sse.stripSpace [] = none := by decide +kernel

theorem drainLines_newlines {line : Bytes} (h : 10 ∉ line) :
    Sse.drainLines (line ++ [10, 10]) = ([Sse.stripCr line, []], []) := by
  have hsplit := Lines.split_line 10 line [10] h
  rw [Sse.drainLines, hsplit]
  rfl

theorem push_newlines {sc : Sse.Scanner} (h : 10 ∉ sc.lineBuffer) :
    sc.push Sse.stripSpace [10, 10] = ({}, closedTail sc) := by
  have hscan : Sse.scanLines Sse.stripSpace sc.dataLines [Sse.stripCr sc.lineBuffer, []] = ([], closedTail sc) := by
    unfold closedTail
    by_cases hline : Sse.stripCr sc.lineBuffer = []
    · simp only [hline, linePayload_nil, Option.toList_none, List.append_nil, Sse.scanLines, Sse.scanLine, ↓reduceIte]
    · simp only [Sse.scanLines, Sse.scanLine, hline, ↓reduceIte, List.nil_append, List.append_nil]
  rw [Sse.Scanner.push, drainLines_newlines h]
  simp only [hscan]

theorem tail_alike (sc : Sse.Scanner) : closedTail sc = sc.trailing Sse.stripSpace ∨
    ∃ data, sc.trailing Sse.stripSpace = [data ++ "\r"] ∧ closedTail sc = [data] := by
  unfold closedTail Sse.Scanner.trailing
  rcases stripCr_cases sc.lineBuffer with hsame | hcr
  · refine .inl ?_
    rw [hsame]
    by_cases hbuffer : sc.lineBuffer = []
    · rw [hbuffer, linePayload_nil, if_pos rfl]
      rfl
    · rw [if_neg hbuffer]
  · have hne : sc.lineBuffer ≠ [] := by
      rw [hcr]
      exact List.concat_ne_nil 13 _
    have hpayload := linePayload_cr (Sse.stripCr sc.lineBuffer)
    rw [← hcr] at hpayload
    rw [if_neg hne, hpayload]
    cases Sse.linePayload Sse.stripSpace (Sse.stripCr sc.lineBuffer) with
    | none => exact .inl rfl
    | some data =>
      refine .inr ⟨Str.join "\n" (sc.dataLines ++ [data]), ?_, ?_⟩
      · dsimp only [Option.map_some, Option.toList_some]
        rw [if_neg (List.concat_ne_nil _ _), join_cr]
      · dsimp only [Option.toList_some]
        rw [if_neg (List.concat_ne_nil _ _)]

end tail

end Prelay.Bridge
