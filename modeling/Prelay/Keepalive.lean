import Prelay.StreamRewrite
import Prelay.StreamPipeline

namespace Prelay.Keepalive

open Json Bridge EventStream StreamRewrite

def sseKeepalive : Bytes := Str.utf8 ": keep-alive\n\n"

/-- How a wait for the next item ends: the inner stream answers, or the interval is over. -/
inductive Poll where
  | ready
  | elapsed
  deriving DecidableEq

def withSseKeepalive : List Poll → List (Except String Bytes) → List (Except String Bytes)
  | [], _ => []
  | .elapsed :: polls, items => .ok sseKeepalive :: withSseKeepalive polls items
  | .ready :: _, [] => []
  | .ready :: polls, item :: items => item :: withSseKeepalive polls items

/-- The same stream read without keepalive. -/
def withoutKeepalive : List Poll → List (Except String Bytes) → List (Except String Bytes)
  | [], _ => []
  | .elapsed :: polls, items => withoutKeepalive polls items
  | .ready :: _, [] => []
  | .ready :: polls, item :: items => item :: withoutKeepalive polls items

/-- The bytes that reach the client; a failed item breaks the body off. -/
def body : List (Except String Bytes) → Bytes
  | [] => []
  | .ok chunk :: items => chunk ++ body items
  | .error _ :: _ => []

/-- The timer only goes off between two events; `sent` are the bytes the client has. -/
def FiresIdle (sent : Bytes) : List Poll → List (Except String Bytes) → Prop
  | [], _ => True
  | .elapsed :: polls, items => Idle sent ∧ FiresIdle sent polls items
  | .ready :: polls, .ok chunk :: items => FiresIdle (sent ++ chunk) polls items
  | .ready :: _, [] | .ready :: _, .error _ :: _ => True

/-- At no point of the stream do the comments so far show, whatever the client is sent next. -/
def Transparent (polls : List Poll) (items : List (Except String Bytes)) : Prop :=
  ∀ seen, seen <+: polls → ∀ rest,
    events (body (withSseKeepalive seen items) ++ rest) = events (body (withoutKeepalive seen items) ++ rest)

theorem keepalive_comment : ∃ text, sseKeepalive = comment text ∧ ∀ c ∈ text, c ≠ 10 ∧ c ≠ 13 :=
  ⟨Str.utf8 " keep-alive", by decide +kernel, by decide +kernel⟩

theorem keepalive_transparent (sent : Bytes) :
    (∀ rest, events (sent ++ (sseKeepalive ++ rest)) = events (sent ++ rest)) ↔ Idle sent := by
  obtain ⟨text, hcomment, htext⟩ := keepalive_comment
  rw [hcomment]
  exact comment_transparent_iff htext sent

section run

def SameEvents (sent plain : Bytes) : Prop := ∀ rest, events (sent ++ rest) = events (plain ++ rest)

theorem SameEvents.append {sent plain : Bytes} (h : SameEvents sent plain) (chunk : Bytes) :
    SameEvents (sent ++ chunk) (plain ++ chunk) := by
  intro rest
  rw [List.append_assoc, List.append_assoc]
  exact h (chunk ++ rest)

theorem SameEvents.keepalive_iff {sent plain : Bytes} (h : SameEvents sent plain) :
    SameEvents (sent ++ sseKeepalive) plain ↔ Idle plain := by
  rw [← keepalive_transparent plain]
  refine forall_congr' (fun rest => ?_)
  rw [List.append_assoc, h (sseKeepalive ++ rest)]

theorem firesIdle_iff (polls : List Poll) (items : List (Except String Bytes)) (sent plain : Bytes)
    (h : SameEvents sent plain) :
    (∀ seen, seen <+: polls →
      SameEvents (sent ++ body (withSseKeepalive seen items)) (plain ++ body (withoutKeepalive seen items))) ↔
    FiresIdle plain polls items := by
  induction polls generalizing items sent plain with
  | nil =>
    simp only [List.prefix_nil, forall_eq, withSseKeepalive, withoutKeepalive, body, List.append_nil, FiresIdle, iff_true]
    exact h
  | cons poll polls ih =>
    have hcons : ∀ P : List Poll → Prop, P [] → ((∀ seen, seen <+: poll :: polls → P seen) ↔
        ∀ seen, seen <+: polls → P (poll :: seen)) := by
      intro P hnil
      constructor
      · intro hall seen hseen
        exact hall _ (List.cons_prefix_cons.mpr ⟨rfl, hseen⟩)
      · intro hall seen hseen
        cases seen with
        | nil => exact hnil
        | cons p seen =>
          obtain ⟨rfl, htail⟩ := List.cons_prefix_cons.mp hseen
          exact hall seen htail
    rw [hcons _ (by simpa [withSseKeepalive, withoutKeepalive, body] using h)]
    cases poll with
    | elapsed =>
      simp only [withSseKeepalive, withoutKeepalive, body, FiresIdle, ← List.append_assoc]
      constructor
      · intro hall
        have hidle : Idle plain := by
          apply h.keepalive_iff.mp
          simpa [withSseKeepalive, withoutKeepalive, body] using hall [] List.nil_prefix
        exact ⟨hidle, (ih items _ plain (h.keepalive_iff.mpr hidle)).mp hall⟩
      · rintro ⟨hidle, hfires⟩
        exact (ih items _ plain (h.keepalive_iff.mpr hidle)).mpr hfires
    | ready =>
      cases items with
      | nil => simpa [withSseKeepalive, withoutKeepalive, body, FiresIdle] using fun _ _ => h
      | cons item items =>
        cases item with
        | error error => simpa [withSseKeepalive, withoutKeepalive, body, FiresIdle] using fun _ _ => h
        | ok chunk =>
          simp only [withSseKeepalive, withoutKeepalive, body, FiresIdle, ← List.append_assoc]
          exact ih items _ _ (h.append chunk)

theorem transparent_iff (polls : List Poll) (items : List (Except String Bytes)) :
    Transparent polls items ↔ FiresIdle [] polls items :=
  firesIdle_iff polls items [] [] (fun _ => rfl)

end run

/-- The streaming paths: Chat and image streams pass chunks on, Responses streams send whole events,
made from Chat chunks or with the response id replaced. -/
inductive StreamPath where
  | chat
  | images
  | bridgedResponses (responseId : String)
  | nativeResponses (responseId : String)

variable (serde : SerdeJson)

def responseIdRewriter : ByteStreamDecoder ResponseIdRewriter Bytes where
  pushChunk := ResponseIdRewriter.pushChunk serde
  finish := ResponseIdRewriter.finish serde
  stats _ := {}

def rewriteResponseIds (localId : String) (upstream : List (Except String Bytes)) : List (Except String Bytes) :=
  (mapResponseStream (responseIdRewriter serde) { localId := localId } upstream).map Prod.fst

def outputItems (upstream : List (Except String Bytes)) : StreamPath → List (Except String Bytes)
  | .chat => (mapResponseStream (chatStatsDecoder serde) { inner := {} } upstream).map Prod.fst
  | .images => upstream
  | .bridgedResponses responseId =>
    (mapResponseStream (chatToResponsesDecoder serde) (.new responseId) upstream).map
      (fun p => p.1.map (ResponsesChunk.bytes serde))
  | .nativeResponses responseId => rewriteResponseIds serde responseId upstream

theorem responsesChunk_endsBlank (chunk : ResponsesChunk) : EndsBlank (chunk.bytes serde) := by
  have hend : Str.utf8 "\n\n" = [10] ++ [10] := by decide +kernel
  have hblank : ∀ text : String, EndsBlank (Str.utf8 (text ++ "\n\n")) := by
    intro text
    refine ⟨Str.utf8 text ++ [10], [10], ?_, Or.inr (by simp), Or.inl rfl⟩
    rw [Str.utf8_append, hend, List.append_assoc]
  cases chunk with
  | event name data =>
    have htext : ResponsesChunk.text serde (.event name data) =
        "event: " ++ name ++ "\ndata: " ++ serde.toStr data ++ "\n\n" := rfl
    rw [ResponsesChunk.bytes, htext]
    exact hblank _
  | completed data =>
    have htext : ResponsesChunk.text serde (.completed data) =
        "event: response.completed\ndata: " ++ serde.toStr data ++ ("\n\ndata: [DONE]" ++ "\n\n") := rfl
    rw [ResponsesChunk.bytes, htext, ← String.append_assoc]
    exact hblank _

theorem firesIdle_of_endsBlank (polls : List Poll) (items : List (Except String Bytes)) (sent : Bytes)
    (hsent : Idle sent ∧ (stateAfter sent).AtLine) (h : ∀ chunk, .ok chunk ∈ items → EndsBlank chunk) :
    FiresIdle sent polls items := by
  induction polls generalizing items sent with
  | nil => trivial
  | cons poll polls ih =>
    cases poll with
    | elapsed => exact ⟨hsent.1, ih items sent hsent h⟩
    | ready =>
      cases items with
      | nil => trivial
      | cons item items =>
        cases item with
        | error error => trivial
        | ok chunk =>
          refine ih items _ ?_ (fun chunk hchunk => h chunk (List.mem_cons_of_mem _ hchunk))
          exact (h chunk List.mem_cons_self).idle (Or.inr hsent)

theorem firesIdle_first (polls : List Poll) (items : List (Except String Bytes))
    (h : ∀ chunk, .ok chunk ∈ items → EndsBlank chunk) : FiresIdle [] (.ready :: polls) items := by
  cases items with
  | nil => trivial
  | cons item items =>
    cases item with
    | error error => trivial
    | ok chunk =>
      refine firesIdle_of_endsBlank polls items _ ?_ (fun chunk hchunk => h chunk (List.mem_cons_of_mem _ hchunk))
      exact (h chunk List.mem_cons_self).idle (Or.inl rfl)

theorem bridgedResponses_endsBlank (responseId : String) (upstream : List (Except String Bytes)) (chunk : Bytes)
    (h : .ok chunk ∈ outputItems serde upstream (.bridgedResponses responseId)) : EndsBlank chunk := by
  obtain ⟨p, -, hp⟩ := List.mem_map.mp h
  cases hitem : p.1 with
  | error error =>
    rw [hitem] at hp
    exact nomatch hp
  | ok out =>
    rw [hitem] at hp
    obtain rfl := Except.ok.inj hp
    exact responsesChunk_endsBlank serde out

def unfinishedEvent (rewriter : ResponseIdRewriter) : List (Except String Bytes) → Bytes
  | [] => rewriter.eventBuffer
  | .ok chunk :: upstream => unfinishedEvent (rewriter.pushChunk serde chunk).1 upstream
  | .error _ :: upstream => unfinishedEvent rewriter upstream

theorem rewriter_endsBlank (rewriter : ResponseIdRewriter) (upstream : List (Except String Bytes))
    (hclosed : unfinishedEvent serde rewriter upstream = []) (chunk : Bytes) (stats : StreamStatsSnapshot)
    (h : (.ok chunk, stats) ∈ mapResponseStream (responseIdRewriter serde) rewriter upstream) : EndsBlank chunk := by
  induction upstream generalizing rewriter with
  | nil =>
    have hfinish : (rewriter.finish serde).2 = [] := by
      simp only [unfinishedEvent] at hclosed
      rw [ResponseIdRewriter.finish, if_pos hclosed]
    simp [mapResponseStream, responseIdRewriter, hfinish] at h
  | cons item upstream ih =>
    cases item with
    | error error =>
      rcases List.mem_cons.mp h with h | h
      · exact nomatch h
      · exact ih rewriter hclosed h
    | ok bytes =>
      rcases List.mem_append.mp h with h | h
      · obtain ⟨out, hout, heq⟩ := List.mem_map.mp h
        obtain rfl : out = chunk := by simpa using (congrArg Prod.fst heq)
        obtain ⟨event, hevent, rfl⟩ := List.mem_map.mp hout
        have hspec := ResponseIdRewriter.drainEvents_spec _ (rewriter.eventBuffer ++ bytes) le_rfl
        exact rewriteEvent_endsBlank serde rewriter.localId (hspec.1 event hevent)
      · exact ih (rewriter.pushChunk serde bytes).1 hclosed h

theorem nativeResponses_endsBlank (responseId : String) (upstream : List (Except String Bytes))
    (hclosed : unfinishedEvent serde { localId := responseId } upstream = []) (chunk : Bytes)
    (h : .ok chunk ∈ outputItems serde upstream (.nativeResponses responseId)) : EndsBlank chunk := by
  obtain ⟨⟨item, stats⟩, hp, rfl⟩ := List.mem_map.mp h
  exact rewriter_endsBlank serde _ upstream hclosed chunk stats hp

/-- Where the timer only goes off between two events, the client reads the same events on every path, and
nowhere else can it be sure to. Bridged streams are always so, native Responses streams unless the upstream
breaks off inside an event; Chat and image chunks may end anywhere. -/
theorem keepalive_transparent_iff (upstream : List (Except String Bytes)) (polls : List Poll) :
    (∀ path, FiresIdle [] polls (outputItems serde upstream path) →
      events (body (withSseKeepalive polls (outputItems serde upstream path))) =
        events (body (withoutKeepalive polls (outputItems serde upstream path)))) ∧
    (∀ path, Transparent polls (outputItems serde upstream path) ↔ FiresIdle [] polls (outputItems serde upstream path)) ∧
    (∀ responseId, Transparent (.ready :: polls) (outputItems serde upstream (.bridgedResponses responseId))) ∧
    (∀ responseId, unfinishedEvent serde { localId := responseId } upstream = [] →
      Transparent (.ready :: polls) (outputItems serde upstream (.nativeResponses responseId))) := by
  refine ⟨?_, fun path => transparent_iff polls _, ?_, ?_⟩
  · intro path hfires
    simpa using (transparent_iff polls _).mpr hfires polls List.prefix_rfl []
  · intro responseId
    exact (transparent_iff _ _).mpr (firesIdle_first polls _ (bridgedResponses_endsBlank serde responseId upstream))
  · intro responseId hclosed
    exact (transparent_iff _ _).mpr (firesIdle_first polls _
      (nativeResponses_endsBlank serde responseId upstream hclosed))

/-- The timer goes off between the two halves of a data line. -/
theorem keepalive_splits_event :
    events (body (withSseKeepalive [.ready, .elapsed, .ready]
      (outputItems Text.codec [.ok (Str.utf8 "data: \x7b\"a\":"), .ok (Str.utf8 "1\x7d\n\n")] .chat))) ≠
    events (body (withoutKeepalive [.ready, .elapsed, .ready]
      (outputItems Text.codec [.ok (Str.utf8 "data: \x7b\"a\":"), .ok (Str.utf8 "1\x7d\n\n")] .chat))) := by
  decide +kernel

end Prelay.Keepalive
