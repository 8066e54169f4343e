import Prelay.Json

namespace Prelay.Recording

open Json

inductive InternalRole where
  | user | assistant | system | tool
  deriving DecidableEq

structure InternalImagePart where
  imageUrl : Option Value := none
  fileId : Option String := none
  detail : Option String := none
  deriving DecidableEq

inductive InternalContentPart where
  | text (text : String)
  | image (image : InternalImagePart)
  deriving DecidableEq

structure InternalToolCall where
  id : String
  name : String
  arguments : String
  deriving DecidableEq

structure InternalMessage where
  role : InternalRole
  content : List InternalContentPart
  toolCallId : Option String := none
  toolCalls : List InternalToolCall := []
  reasoningContent : Option String := none
  deriving DecidableEq

inductive InternalOutputItem where
  | message (id : String) (role : InternalRole) (content : List InternalContentPart)
  | functionToolCall (id name arguments : String) (reasoningContent : Option String)
  deriving DecidableEq

structure InternalUsage where
  inputTokens : Option ℤ
  outputTokens : Option ℤ
  reasoningTokens : Option ℤ
  cacheReadTokens : Option ℤ
  cacheWriteTokens : Option ℤ
  deriving DecidableEq

structure InternalResponse where
  id : String
  model : String
  output : List InternalOutputItem
  usage : Option InternalUsage
  deriving DecidableEq

/-- What is needed to store the response of a stream; `responseId` is the id the client sees. -/
structure StreamSession where
  previousResponseId : Option String := none
  conversationId : String
  providerId : String
  model : String
  inputMessages : List InternalMessage := []
  requestItems : List Value := []
  responseId : String
  deriving DecidableEq

structure ResponseStateInsert where
  identityId : String
  responseId : String
  previousResponseId : Option String
  conversationId : String
  providerId : String
  model : String
  upstreamResponseId : Option String
  requestItems : Value
  responseItems : Value
  inputMessages : List InternalMessage
  response : InternalResponse
  deriving DecidableEq

end Prelay.Recording
