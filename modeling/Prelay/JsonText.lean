import Prelay.Json

namespace Prelay.Json

/-- A JSON library: how a value is printed in one line and how a text is read. -/
structure SerdeJson where
  toStr : Value → String
  fromStr : String → Option Value

namespace Text

def hexChar (n : ℕ) : Char := (Nat.toDigits 16 n).headD '0'

def escapeChar (c : Char) : List Char :=
  if c = '"' then ['\\', '"']
  else if c = '\\' then ['\\', '\\']
  else if c = '\n' then ['\\', 'n']
  else if c = '\r' then ['\\', 'r']
  else if c = '\t' then ['\\', 't']
  else if c.toNat = 8 then ['\\', 'b']
  else if c.toNat = 12 then ['\\', 'f']
  else if c.toNat < 32 then ['\\', 'u', '0', '0', hexChar (c.toNat / 16), hexChar (c.toNat % 16)]
  else [c]

def printString (s : String) : List Char := '"' :: (s.toList.flatMap escapeChar ++ ['"'])

def printInt : ℤ → List Char
  | .ofNat n => Nat.toDigits 10 n
  | .negSucc n => '-' :: Nat.toDigits 10 (n + 1)

-- a point when digits stand on both sides of it, otherwise an exponent
def printDecimal (digits : ℕ) (exponent : ℤ) : List Char :=
  let ds := Nat.toDigits 10 digits
  if exponent < 0 ∧ exponent.natAbs < ds.length then
    ds.take (ds.length - exponent.natAbs) ++ '.' :: ds.drop (ds.length - exponent.natAbs)
  else ds ++ 'e' :: printInt exponent

def printNumber : Number → List Char
  | .posInt n => Nat.toDigits 10 n
  | .negInt n => '-' :: Nat.toDigits 10 (n + 1)
  | .float negative digits exponent => (if negative then ['-'] else []) ++ printDecimal digits exponent

mutual

def print : Value → List Char
  | .null => ['n', 'u', 'l', 'l']
  | .bool true => ['t', 'r', 'u', 'e']
  | .bool false => ['f', 'a', 'l', 's', 'e']
  | .number n => printNumber n
  | .string s => printString s
  | .array [] => ['[', ']']
  | .array (v :: vs) => '[' :: (print v ++ printItems vs)
  | .object [] => ['{', '}']
  | .object ((k, v) :: ms) => '{' :: (printString k ++ ':' :: (print v ++ printMembers ms))

def printItems : List Value → List Char
  | [] => [']']
  | v :: vs => ',' :: (print v ++ printItems vs)

def printMembers : List (String × Value) → List Char
  | [] => ['}']
  | (k, v) :: ms => ',' :: (printString k ++ ':' :: (print v ++ printMembers ms))

end

def isSpace (c : Char) : Bool := c = ' ' || c = '\n' || c = '\r' || c = '\t'

def skipSpace (cs : List Char) : List Char := cs.dropWhile isSpace

def hexDigit? (c : Char) : Option ℕ :=
  if '0' ≤ c ∧ c ≤ '9' then some (c.toNat - 48)
  else if 'a' ≤ c ∧ c ≤ 'f' then some (c.toNat - 87)
  else if 'A' ≤ c ∧ c ≤ 'F' then some (c.toNat - 55)
  else none

def hexQuad : List Char → Option (ℕ × List Char)
  | a :: b :: c :: d :: cs => do
    let a ← hexDigit? a
    let b ← hexDigit? b
    let c ← hexDigit? c
    let d ← hexDigit? d
    some (((a * 16 + b) * 16 + c) * 16 + d, cs)
  | _ => none

/-- The character of a `\u` escape; a high surrogate needs the low one behind it. -/
def parseUnicode (cs : List Char) : Option (Char × List Char) := do
  let (n, cs) ← hexQuad cs
  if n < 0xD800 ∨ 0xE000 ≤ n then some (Char.ofNat n, cs)
  else if n < 0xDC00 then
    match cs with
    | '\\' :: 'u' :: cs => do
      let (m, cs) ← hexQuad cs
      if 0xDC00 ≤ m ∧ m < 0xE000 then
        some (Char.ofNat (0x10000 + (n - 0xD800) * 0x400 + (m - 0xDC00)), cs)
      else none
    | _ => none
  else none

def parseEscape : List Char → Option (Char × List Char)
  | '"' :: cs => some ('"', cs)
  | '\\' :: cs => some ('\\', cs)
  | '/' :: cs => some ('/', cs)
  | 'b' :: cs => some (Char.ofNat 8, cs)
  | 'f' :: cs => some (Char.ofNat 12, cs)
  | 'n' :: cs => some ('\n', cs)
  | 'r' :: cs => some ('\r', cs)
  | 't' :: cs => some ('\t', cs)
  | 'u' :: cs => parseUnicode cs
  | _ => none

def parseChars : ℕ → List Char → Option (List Char × List Char)
  | 0, _ => none
  | _, [] => none
  | fuel + 1, c :: cs =>
    if c = '"' then some ([], cs)
    else if c = '\\' then do
      let (c, cs) ← parseEscape cs
      let (text, cs) ← parseChars fuel cs
      some (c :: text, cs)
    else if c.toNat < 32 then none
    else do
      let (text, cs) ← parseChars fuel cs
      some (c :: text, cs)

def parseString (cs : List Char) : Option (String × List Char) :=
  (parseChars cs.length cs).map (fun p => (String.ofList p.1, p.2))

def parseFraction : List Char → Option (List Char × List Char)
  | '.' :: cs => match cs.span Char.isDigit with
    | ([], _) => none
    | (digits, cs) => some (digits, cs)
  | cs => some ([], cs)

def parseDigits (cs : List Char) : Option (ℕ × List Char) :=
  match cs.span Char.isDigit with
  | ([], _) => none
  | (digits, cs) => some (Nat.ofDigitChars 10 digits 0, cs)

def parseExponent : List Char → Option (Option ℤ × List Char)
  | c :: cs =>
    if c = 'e' ∨ c = 'E' then
      match cs with
      | '-' :: cs => (parseDigits cs).map (fun p => (some (-(p.1 : ℤ)), p.2))
      | '+' :: cs => (parseDigits cs).map (fun p => (some (p.1 : ℤ), p.2))
      | cs => (parseDigits cs).map (fun p => (some (p.1 : ℤ), p.2))
    else some (none, c :: cs)
  | [] => some (none, [])

def parseUnsigned (negative : Bool) (cs : List Char) : Option (Number × List Char) :=
  match cs.span Char.isDigit with
  | ([], _) => none
  | ('0' :: _ :: _, _) => none
  | (whole, cs) => do
    let (fraction, cs) ← parseFraction cs
    let (exponent, cs) ← parseExponent cs
    let digits := Nat.ofDigitChars 10 (whole ++ fraction) 0
    if fraction = [] ∧ exponent = none then
      if negative then
        some (if digits = 0 then .float true 0 0 else .negInt (digits - 1), cs)
      else some (.posInt digits, cs)
    else some (.float negative digits (exponent.getD 0 - fraction.length), cs)

def parseNumber : List Char → Option (Number × List Char)
  | '-' :: cs => parseUnsigned true cs
  | cs => parseUnsigned false cs

mutual

def parseValue : ℕ → List Char → Option (Value × List Char)
  | 0, _ => none
  | fuel + 1, cs => match skipSpace cs with
    | 'n' :: 'u' :: 'l' :: 'l' :: cs => some (.null, cs)
    | 't' :: 'r' :: 'u' :: 'e' :: cs => some (.bool true, cs)
    | 'f' :: 'a' :: 'l' :: 's' :: 'e' :: cs => some (.bool false, cs)
    | '"' :: cs => (parseString cs).map (fun p => (.string p.1, p.2))
    | '[' :: cs => match skipSpace cs with
      | ']' :: cs => some (.array [], cs)
      | cs => (parseItems fuel cs).map (fun p => (.array p.1, p.2))
    | '{' :: cs => match skipSpace cs with
      | '}' :: cs => some (.object [], cs)
      | cs => (parseMembers fuel cs).map (fun p => (.object (collectMembers p.1), p.2))
    | cs => (parseNumber cs).map (fun p => (.number p.1, p.2))

def parseItems : ℕ → List Char → Option (List Value × List Char)
  | 0, _ => none
  | fuel + 1, cs => do
    let (v, cs) ← parseValue fuel cs
    match skipSpace cs with
    | ',' :: cs => do
      let (vs, cs) ← parseItems fuel cs
      some (v :: vs, cs)
    | ']' :: cs => some ([v], cs)
    | _ => none

def parseMembers : ℕ → List Char → Option (List (String × Value) × List Char)
  | 0, _ => none
  | fuel + 1, cs => do
    let (k, cs) ← match skipSpace cs with
      | '"' :: cs => parseString cs
      | _ => none
    let cs ← match skipSpace cs with
      | ':' :: cs => some cs
      | _ => none
    let (v, cs) ← parseValue fuel cs
    match skipSpace cs with
    | ',' :: cs => do
      let (ms, cs) ← parseMembers fuel cs
      some ((k, v) :: ms, cs)
    | '}' :: cs => some ([(k, v)], cs)
    | _ => none

end

def toStr (v : Value) : String := String.ofList (print v)

def fromStr (s : String) : Option Value :=
  match parseValue (s.toList.length + 1) s.toList with
  | some (v, cs) => if skipSpace cs = [] then some v else none
  | none => none

def codec : SerdeJson := ⟨toStr, fromStr⟩

end Text

end Prelay.Json
