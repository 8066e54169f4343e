import Prelay.Sse
import Prelay.JsonText

namespace Prelay.Recording

open Json

inductive RawStreamProtocol where
  | chatCompletions | imageGeneration
  deriving DecidableEq, Repr

structure RawToolCall where
  id : String := ""
  name : String := ""
  arguments : String := ""
  deriving DecidableEq, Repr

/-- What `RawStreamContentCapture` keeps beside its line buffer. -/
structure Captured where
  protocol : RawStreamProtocol
  outputText : String := ""
  reasoningText : String := ""
  toolCalls : Std.ExtTreeMap ℕ RawToolCall := ∅
  completed : Bool := false

namespace Captured

def observeChatToolCall (c : Captured) (value : Value) : Captured :=
  let index := ((value.get "index").bind Value.asU64).getD 0
  let toolCall := c.toolCalls.getD index {}
  let id := (value.get "id").bind Value.asStr
  let name := (value.pointer ["function", "name"]).bind Value.asStr
  let arguments := (value.pointer ["function", "arguments"]).bind Value.asStr
  { c with toolCalls := c.toolCalls.insert index {
      id := id.getD toolCall.id
      name := name.getD toolCall.name
      arguments := toolCall.arguments ++ arguments.getD "" } }

def processEvent (serde : SerdeJson) (c : Captured) (data : String) : Captured :=
  let value := serde.fromStr data
  match c.protocol with
  | .chatCompletions =>
    if Str.trim data = "[DONE]" then { c with completed := true }
    else
      let text := (value.bind (Value.pointer ["choices", "0", "delta", "content"])).bind Value.asStr
      let reasoning := (value.bind (Value.pointer ["choices", "0", "delta", "reasoning_content"])).bind Value.asStr
      let toolCalls := (value.bind (Value.pointer ["choices", "0", "delta", "tool_calls"])).bind Value.asArray
      (toolCalls.getD []).foldl observeChatToolCall { c with
        outputText := c.outputText ++ text.getD ""
        reasoningText := c.reasoningText ++ reasoning.getD "" }
  | .imageGeneration =>
    if (value.bind (Value.get "type")).bind Value.asStr = some "image_generation.completed" then
      { c with completed := true }
    else c

end Captured

abbrev RawStreamContentCapture := Sse.Reader Captured

namespace RawStreamContentCapture

variable (serde : SerdeJson)

def new (protocol : RawStreamProtocol) : RawStreamContentCapture := { inner := { protocol := protocol } }

def handle (c : Captured) (data : String) : Captured × List Bytes := (c.processEvent serde data, [])

def observeChunk (capture : RawStreamContentCapture) (chunk : Bytes) : RawStreamContentCapture :=
  (Sse.Reader.pushChunk (handle serde) Str.trimStart capture chunk).1

def finish (capture : RawStreamContentCapture) : RawStreamContentCapture :=
  let capture :=
    if capture.lineBuffer = [] then capture
    else (Sse.Reader.processLine (handle serde) Str.trimStart { capture with lineBuffer := [] }
      capture.lineBuffer).1
  (capture.flushEvent (handle serde)).1

def isCompleted (capture : RawStreamContentCapture) : Bool := capture.inner.completed

end RawStreamContentCapture

end Prelay.Recording
