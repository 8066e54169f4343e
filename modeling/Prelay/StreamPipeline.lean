import Prelay.ChatToResponses
import Prelay.ChatStats

namespace Prelay.Bridge

open Json

structure ByteStreamDecoder (σ ω : Type) where
  pushChunk : σ → Bytes → σ × List ω
  finish : σ → σ × List ω
  stats : σ → StreamStatsSnapshot

def chatToResponsesDecoder (serde : SerdeJson) : ByteStreamDecoder ChatToResponsesSseDecoder ResponsesChunk where
  pushChunk := ChatToResponsesSseDecoder.pushChunk serde
  finish := ChatToResponsesSseDecoder.finish serde
  stats dec := dec.inner.stats

def chatStatsDecoder (serde : SerdeJson) : ByteStreamDecoder ChatSseStatsDecoder Bytes where
  pushChunk := ChatSseStatsDecoder.pushChunk serde
  finish := ChatSseStatsDecoder.finish serde
  stats dec := dec.inner.stats

variable {σ ω : Type} (d : ByteStreamDecoder σ ω)

/-- The items of the mapped stream, each with the statistics at the time it is taken: all the items
of a chunk are queued before the first of them is. -/
def mapResponseStream (s : σ) :
    List (Except String Bytes) → List (Except String ω × StreamStatsSnapshot)
  | [] => (d.finish s).2.map (fun out => (.ok out, d.stats (d.finish s).1))
  | .ok chunk :: upstream =>
    (d.pushChunk s chunk).2.map (fun out => (.ok out, d.stats (d.pushChunk s chunk).1)) ++
      mapResponseStream (d.pushChunk s chunk).1 upstream
  | .error error :: upstream => (.error error, d.stats s) :: mapResponseStream s upstream

def finalStats (s : σ) : List (Except String Bytes) → StreamStatsSnapshot
  | [] => d.stats (d.finish s).1
  | .ok chunk :: upstream => finalStats (d.pushChunk s chunk).1 upstream
  | .error _ :: upstream => finalStats s upstream

end Prelay.Bridge
