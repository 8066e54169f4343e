import Prelay.Str

namespace Prelay

/-- The errors of a request; `protocol` carries the name of its code, `openAi` its type, code and parameter. -/
inductive AppError where
  | notFound (message : String)
  | unauthorized
  | badRequest (message : String)
  | payloadTooLarge (message : String)
  | upstream (status : Option ℕ) (message : String)
  | upstreamInvalidResponse (message : String)
  | protocol (code message : String)
  | openAi (status : ℕ) (errorType code : String) (param : Option String) (message : String)
  | internal (message : String)
  deriving DecidableEq

namespace AppError

def openaiInvalid (param message : String) : AppError :=
  .openAi 400 "invalid_request_error" "invalid_request_error" (some param) message

def openaiUnsupported (param message : String) : AppError :=
  .openAi 400 "invalid_request_error" "unsupported_parameter" (some param) message

def openaiPreviousResponseNotFound : AppError :=
  .openAi 400 "invalid_request_error" "previous_response_not_found" (some "previous_response_id")
    "Previous response not found"

def isRetryableUpstream : AppError → Bool
  | .upstream none _ => true
  | .upstream (some status) _ => status = 408 || status = 429 || (500 ≤ status && status ≤ 599)
  | _ => false

def isFailoverableUpstream : AppError → Bool
  | .upstream _ _ | .upstreamInvalidResponse _ => true
  | _ => false

end AppError

end Prelay
