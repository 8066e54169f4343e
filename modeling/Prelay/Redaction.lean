import Prelay.Json
import Prelay.Str

namespace Prelay.Redaction

open Json

def isCredentialChar (c : Char) : Bool := c.isAlphanum || c = '-' || c = '_'

/-- Each round takes the text up to a run and the run; no round is empty before the end. -/
def redactRuns : ℕ → List Char → List Char
  | 0, value => value
  | fuel + 1, value =>
    let before := value.takeWhile (!isCredentialChar ·)
    match value.dropWhile (!isCredentialChar ·) with
    | [] => before
    | rest =>
      let run := rest.takeWhile isCredentialChar
      before ++ (if run.length = 43 then "[REDACTED]".toList else run) ++
        redactRuns fuel (rest.dropWhile isCredentialChar)

def redactUrlSafeCredentials (value : String) : String :=
  String.ofList (redactRuns value.toList.length value.toList)

/-- What `replace_all` does for each of the patterns. -/
structure Patterns where
  privateKeyBlock : String → String := id
  pgpPrivateKeyBlock : String → String := id
  bearerToken : String → String := id
  basicAuthorization : String → String := id
  cookieHeader : String → String := id
  secretAssignment : String → String := id
  knownApiKey : String → String := id
  jsonWebToken : String → String := id

def redactSensitiveText (patterns : Patterns) (value : String) : String :=
  let value := patterns.privateKeyBlock value
  let value := patterns.pgpPrivateKeyBlock value
  let value := patterns.bearerToken value
  let value := patterns.basicAuthorization value
  let value := patterns.cookieHeader value
  let value := patterns.secretAssignment value
  let value := patterns.knownApiKey value
  let value := patterns.jsonWebToken value
  redactUrlSafeCredentials value

def redactJsonValue (patterns : Patterns) (value : Value) : Value := value.mapStrings (redactSensitiveText patterns)

end Prelay.Redaction
