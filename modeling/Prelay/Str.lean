import Mathlib.Data.String.Basic
import Mathlib.Data.List.DropRight

namespace Prelay

abbrev Bytes := List UInt8

namespace Str

def utf8 (s : String) : Bytes := s.toUTF8.data.toList

theorem utf8_append (s t : String) : utf8 (s ++ t) = utf8 s ++ utf8 t := by
  simp [utf8, String.toByteArray_append, ByteArray.data_append]

def fromUtf8 (bs : Bytes) : Option String := String.fromUTF8? ⟨bs.toArray⟩

theorem fromUtf8_eq_some {bs : Bytes} {s : String} : fromUtf8 bs = some s ↔ utf8 s = bs := by
  unfold fromUtf8 String.fromUTF8? utf8
  constructor
  · intro h
    split_ifs at h with hvalid
    obtain rfl := Option.some.inj h
    rfl
  · rintro rfl
    have hvalid : ByteArray.IsValidUTF8 ⟨s.toUTF8.data.toList.toArray⟩ := s.isValidUTF8
    rw [dif_pos hvalid]
    rfl

theorem fromUtf8_utf8 (s : String) : fromUtf8 (utf8 s) = some s := fromUtf8_eq_some.mpr rfl

def isWhitespace (c : Char) : Bool :=
  let n := c.toNat
  (9 ≤ n && n ≤ 13) || n = 32 || n = 0x85 || n = 0xA0 || n = 0x1680 || (0x2000 ≤ n && n ≤ 0x200A) ||
    n = 0x2028 || n = 0x2029 || n = 0x202F || n = 0x205F || n = 0x3000

def trimStart (s : String) : String := String.ofList (s.toList.dropWhile isWhitespace)

def trimEnd (s : String) : String := String.ofList (s.toList.rdropWhile isWhitespace)

def trim (s : String) : String := trimEnd (trimStart s)

theorem dropWhile_trimmed (l : List Char) :
    ((l.dropWhile isWhitespace).rdropWhile isWhitespace).dropWhile isWhitespace =
      (l.dropWhile isWhitespace).rdropWhile isWhitespace := by
  obtain ⟨rest, hrest⟩ := List.rdropWhile_prefix isWhitespace (l := l.dropWhile isWhitespace)
  cases htrimmed : (l.dropWhile isWhitespace).rdropWhile isWhitespace with
  | nil => rfl
  | cons c cs =>
    rw [htrimmed] at hrest
    have hhead := List.head?_dropWhile_not isWhitespace l
    rw [← hrest] at hhead
    rw [List.dropWhile_cons_of_neg]
    simpa using hhead

theorem trim_trim (s : String) : trim (trim s) = trim s := by
  unfold trim trimStart trimEnd
  rw [String.toList_ofList, String.toList_ofList, String.toList_ofList, dropWhile_trimmed, List.rdropWhile_idempotent]

def stripPrefixChars : List Char → List Char → Option (List Char)
  | [], cs => some cs
  | _ :: _, [] => none
  | p :: ps, c :: cs => if p = c then stripPrefixChars ps cs else none

def stripPrefix (pre s : String) : Option String :=
  (stripPrefixChars pre.toList s.toList).map String.ofList

def join (sep : String) : List String → String
  | [] => ""
  | [s] => s
  | s :: ss => s ++ sep ++ join sep ss

end Str

end Prelay
