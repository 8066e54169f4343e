import Mathlib.Logic.Relation
import Prelay.JsonLimits
import Prelay.LegacySessions
import Prelay.Predecessors
import Prelay.SavedResponses

namespace Prelay.Responses

open Json Bridge Recording Store ResponseStates ImageBudget Predecessors

structure Attempt where
  request : ResponseCandidateRequest
  items : List Value

structure Turn where
  request : ResponseCandidateRequest
  items : List Value
  output : List Value
  savedAt : ℤ

namespace Turn

def responseId (turn : Turn) : String := turn.request.responseId
def previousResponseId (turn : Turn) : Option String := turn.request.previousResponseId
def identityId (turn : Turn) : String := turn.request.identityId

end Turn

def ownItems (c : ResponseCandidateRequest) : List Value := (currentInputItems c.payload).toOption.getD []

def Turn.exchange (turn : Turn) : List Value := ownItems turn.request ++ turn.output

def transcript (turns : List Turn) : List Value := turns.flatMap Turn.exchange

/-- The transcript as it is sent: a turn is read back once when it is continued, and once more with every later turn. -/
def resent (env : StateEnv) : List Turn → List Value
  | [] => []
  | turn :: later => turn.exchange.map (Value.mapNumbers env.serde.reread)^[later.length + 1] ++ resent env later

def KeptThrough (env : StateEnv) : List Turn → Prop
  | [] => True
  | turn :: later =>
    (∀ item ∈ turn.exchange, (Value.mapNumbers env.serde.reread)^[later.length + 1] item = item) ∧ KeptThrough env later

structure World where
  db : Database
  opened : List ResponseCandidateRequest := []
  drawn : List String := []
  attempts : List Attempt := []
  saved : List Turn := []

def ContinuedFrom (saved : List Turn) (identityId : String) : Option String → List Turn → Prop :=
  Leads Turn.responseId Turn.previousResponseId (fun turn => turn ∈ saved ∧ turn.identityId = identityId)

section steps

variable (env : StateEnv) (policy : ImageBudgetPolicy)

/-- The steps of the requests in any order: one is accepted, sent to a candidate, saved or given up. Rows go when they
have expired, or with their identity. -/
inductive Step : World → World → Prop
  | accept {w : World} {now : ℤ} {identityId responseId conversationId : String}
      {payload : { payload : Value // payload.Built }} {c : ResponseCandidateRequest}
      (hdrawn : responseId ∉ w.drawn)
      (h : createResponse env w.db now identityId responseId conversationId payload = .ok c) :
      Step w { w with opened := c :: w.opened, drawn := responseId :: w.drawn }
  | send {w : World} {c : ResponseCandidateRequest} {upstreamProtocol : UpstreamProtocol} {modelUpstream : String}
      {items : List Value} (hopened : c ∈ w.opened)
      (h : candidateItems policy c upstreamProtocol modelUpstream = .ok items) :
      Step w { w with attempts := w.attempts ++ [⟨c, items⟩] }
  -- what fails after the save moves on to no other candidate, so the request is over
  | save {w : World} {attempt : Attempt} {answer : Answer} {insert : ResponseStateInsert} {nonces : StateNonces}
      {now : ℤ} {db : Database} {output : List Value} (hattempt : attempt ∈ w.attempts)
      (hopened : attempt.request ∈ w.opened)
      (hinsert : insert ∈ answerInserts attempt.request attempt.items answer)
      (houtput : insert.responseItems = .array output) (h : saveResponseState env nonces now insert w.db = .ok db) :
      Step w { w with
        db := db
        opened := w.opened.filter (fun c => c.responseId ≠ attempt.request.responseId)
        saved := ⟨attempt.request, attempt.items, output, now⟩ :: w.saved }
  | giveUp {w : World} (responseId : String) :
      Step w { w with opened := w.opened.filter (fun c => c.responseId ≠ responseId) }
  | expire {w : World} (now : ℤ) : Step w { w with db := (deleteExpiredResponseStates now w.db).1 }
  | remove {w : World} (kept : ResponseSession → Bool) :
      Step w { w with db := { w.db with sessions := w.db.sessions.filter kept } }

end steps

section invariant

variable {env : StateEnv} {policy : ImageBudgetPolicy}

def ReadBack (env : StateEnv) (turn : Turn) : Prop := ∀ item ∈ turn.exchange, item.mapNumbers env.serde.reread = item

structure Continued (env : StateEnv) (saved : List Turn) (c : ResponseCandidateRequest) (items : List Value) : Prop where
  built : (Value.array items).Built
  items : ∃ turns, ContinuedFrom saved c.identityId c.previousResponseId turns ∧ items = resent env turns ++ ownItems c

structure Recorded (env : StateEnv) (w : World) : Prop where
  rows : ∀ row ∈ w.db.sessions, ∃ turn ∈ w.saved,
    RowOf env turn.responseId turn.identityId (.array turn.items) (.array turn.output) turn.savedAt row
  opened : ∀ c ∈ w.opened, ∀ items, inputItems c.payload c.parentState = .ok items → Continued env w.saved c items
  attempts : ∀ attempt ∈ w.attempts, Continued env w.saved attempt.request attempt.items
  saved : ∀ turn ∈ w.saved, Continued env w.saved turn.request turn.items ∧ (Value.array turn.output).Built
  openedDrawn : ∀ c ∈ w.opened, c.responseId ∈ w.drawn
  savedDrawn : ∀ turn ∈ w.saved, turn.responseId ∈ w.drawn
  unsaved : ∀ c ∈ w.opened, ∀ turn ∈ w.saved, c.responseId ≠ turn.responseId
  distinct : (w.saved.map Turn.responseId).Nodup

structure Continuable (w : World) (now : ℤ) (identityId responseId : String) (turn : Turn) : Prop where
  saved : turn ∈ w.saved
  named : turn.responseId = responseId
  owned : turn.identityId = identityId
  unexpired : now < seconds (turn.savedAt + thirtyDays) * perSecond
  stored : ∃ row ∈ w.db.sessions, hasKey responseId identityId row = true

theorem ContinuedFrom.mono {saved saved' : List Turn} (h : ∀ turn ∈ saved, turn ∈ saved') {identityId : String}
    {reference : Option String} {turns : List Turn} (hturns : ContinuedFrom saved identityId reference turns) :
    ContinuedFrom saved' identityId reference turns :=
  Leads.mono (fun turn hturn => ⟨h turn hturn.1, hturn.2⟩) hturns

theorem Continued.mono {saved saved' : List Turn} (h : ∀ turn ∈ saved, turn ∈ saved') {c : ResponseCandidateRequest}
    {items : List Value} (hc : Continued env saved c items) : Continued env saved' c items := by
  obtain ⟨turns, hturns, hitems⟩ := hc.items
  exact ⟨hc.built, turns, hturns.mono h, hitems⟩

theorem currentInputItems_built {payload : Value} (hpayload : payload.Built) {items : List Value}
    (h : currentInputItems payload = .ok items) : (Value.array items).Built := by
  unfold currentInputItems at h
  split at h
  · obtain rfl := Except.ok.inj h
    exact ⟨rfl, by decide⟩
  · obtain rfl := Except.ok.inj h
    exact ⟨rfl, by decide⟩
  next text hget =>
    obtain rfl := Except.ok.inj h
    have hstable : (Value.array [Value.json [("role", .string "user"), ("content", .string text)]]).Stable 2 := by
      apply Value.stable_array
      rw [List.forall_mem_singleton]
      refine Value.stable_json ?_
      simp only [List.forall_mem_cons]
      exact ⟨Value.stable_string _, Value.stable_string _, by simp⟩
    exact ⟨hstable.normal, hstable.depth_le.trans_lt (by decide)⟩
  next others hget =>
    obtain rfl := Except.ok.inj h
    refine ⟨?_, (Value.depth_get_lt hget).trans hpayload.shallow⟩
    cases payload with
    | object members => exact Value.normal_of_get hpayload.normal hget
    | _ => cases hget
  · cases h

theorem resent_concat (turns : List Turn) (turn : Turn) :
    resent env (turns ++ [turn]) = (resent env turns ++ turn.exchange).map (Value.mapNumbers env.serde.reread) := by
  induction turns with
  | nil =>
    change _ ++ [] = _
    rw [List.append_nil]
    rfl
  | cons first later ih =>
    rw [List.cons_append, resent, ih, resent, List.length_append, List.length_singleton, List.map_append,
      List.map_append, List.map_append, List.map_map, ← Function.iterate_succ', List.append_assoc]

theorem resent_eq_transcript_iff (turns : List Turn) : resent env turns = transcript turns ↔ KeptThrough env turns := by
  induction turns with
  | nil => exact iff_of_true rfl trivial
  | cons turn later ih =>
    unfold resent transcript KeptThrough
    rw [List.flatMap_cons, ← ih, ← map_eq_self_iff]
    constructor
    · exact fun heq => List.append_inj heq (List.length_map _)
    · rintro ⟨hturn, hlater⟩
      rw [hturn, hlater]
      rfl

theorem KeptThrough.of_readBack {turns : List Turn} (h : ∀ turn ∈ turns, ReadBack env turn) : KeptThrough env turns := by
  induction turns with
  | nil => trivial
  | cons turn later ih =>
    rw [List.forall_mem_cons] at h
    exact ⟨fun item hitem => Function.iterate_fixed (h.1 item hitem) _, ih h.2⟩

theorem Recorded.eq_of_responseId {w : World} (h : Recorded env w) {turn turn' : Turn} (hturn : turn ∈ w.saved)
    (hturn' : turn' ∈ w.saved) (heq : turn.responseId = turn'.responseId) : turn = turn' :=
  List.inj_on_of_nodup_map h.distinct hturn hturn' heq

theorem Recorded.load {w : World} (henv : env.Lawful) (h : Recorded env w) (now : ℤ)
    (identityId responseId : String) :
    ((¬∃ turn, Continuable w now identityId responseId turn) ∧
      loadResponseState env w.db now identityId responseId = .ok none) ∨
    ∃ turn state, Continuable w now identityId responseId turn ∧
      loadResponseState env w.db now identityId responseId = .ok (some state) ∧
      state.requestItems = .array (turn.items.map (Value.mapNumbers env.serde.reread)) ∧
      state.responseItems = .array (turn.output.map (Value.mapNumbers env.serde.reread)) := by
  cases hfind : w.db.sessions.find? (hasKey responseId identityId) with
  | none =>
    refine .inl ⟨?_, ?_⟩
    · rintro ⟨turn, hturn⟩
      obtain ⟨row, hrow, hkey⟩ := hturn.stored
      exact List.find?_eq_none.mp hfind row hrow hkey
    · unfold loadResponseState
      rw [hfind]
  | some row =>
    have hmem := List.mem_of_find?_eq_some hfind
    have hkey := List.find?_some hfind
    obtain ⟨turn, hturn, hrow⟩ := h.rows row hmem
    obtain ⟨hid, hidentity⟩ := hasKey_iff.mp hkey
    obtain ⟨hcontinued, houtput⟩ := h.saved turn hturn
    rw [hrow.responseId] at hid
    rw [hrow.identityId] at hidentity
    rw [hid, hidentity] at hrow
    rcases loadResponseState_found henv hfind hrow hcontinued.built houtput now with
      ⟨hexpired, hnone⟩ | ⟨hlive, state, hstate, hrequest, hresponse⟩
    · refine .inl ⟨?_, hnone⟩
      rintro ⟨turn', hturn'⟩
      have hlive := hturn'.unexpired
      rw [h.eq_of_responseId hturn'.saved hturn (hturn'.named.trans hid.symm)] at hlive
      exact absurd hlive hexpired.not_gt
    · refine .inr ⟨turn, state, ⟨hturn, hid, hidentity, hlive, row, hmem, hkey⟩, hstate, ?_, ?_⟩
      · rw [hrequest, Value.mapNumbers, Value.mapNumbersItems_eq]
      · rw [hresponse, Value.mapNumbers, Value.mapNumbersItems_eq]

theorem createResponse_continued {w : World} (henv : env.Lawful) (h : Recorded env w) {now : ℤ}
    {identityId responseId conversationId : String} {payload : { payload : Value // payload.Built }}
    {c : ResponseCandidateRequest}
    (hc : createResponse env w.db now identityId responseId conversationId payload = .ok c) {items : List Value}
    (hitems : inputItems c.payload c.parentState = .ok items) : Continued env w.saved c items := by
  obtain ⟨request, hrequest, hc⟩ := bind_ok hc
  obtain ⟨parentState, hparent, hc⟩ := bind_ok hc
  split_ifs at hc with hmissing
  obtain rfl := Except.ok.inj hc
  obtain ⟨current, hcurrent, hitems⟩ := bind_ok hitems
  obtain rfl := Except.ok.inj hitems
  have hbuilt := currentInputItems_built payload.2 hcurrent
  have hown : ownItems (candidateRequest identityId responseId conversationId payload request parentState) =
      current := by
    rw [ownItems, hcurrent]
    rfl
  cases hprevious : request.previousResponseId with
  | none =>
    rw [hprevious] at hparent
    obtain rfl := Except.ok.inj hparent
    refine ⟨hbuilt, [], ?_, ?_⟩
    · change ContinuedFrom w.saved identityId request.previousResponseId []
      rw [hprevious]
      exact .start
    · rw [hown]
      rfl
  | some previous =>
    rw [hprevious] at hparent hmissing
    change (loadResponseState env w.db now identityId previous).mapError env.storageError = .ok parentState at hparent
    rcases h.load henv now identityId previous with ⟨-, hnone⟩ | ⟨turn, state, hturn, hstate, hrequest, hresponse⟩
    · rw [hnone] at hparent
      obtain rfl := Except.ok.inj hparent
      exact absurd ⟨rfl, rfl⟩ hmissing
    · rw [hstate] at hparent
      obtain rfl := Except.ok.inj hparent
      obtain ⟨hcontinued, houtput⟩ := h.saved turn hturn.saved
      have hsent : continuationItems state current = turn.items.map (Value.mapNumbers env.serde.reread) ++
          turn.output.map (Value.mapNumbers env.serde.reread) ++ current := by
        unfold continuationItems
        rw [hrequest, hresponse]
        rfl
      change Continued env w.saved _ (continuationItems state current)
      rw [hsent]
      have hitemsBuilt := hcontinued.built.mapNumbers env.serde.reread
      have houtputBuilt := houtput.mapNumbers env.serde.reread
      rw [Value.mapNumbers, Value.mapNumbersItems_eq, Value.built_array] at hitemsBuilt houtputBuilt
      constructor
      · rw [Value.built_array, List.forall_mem_append, List.forall_mem_append]
        exact ⟨⟨hitemsBuilt, houtputBuilt⟩, Value.built_array.mp hbuilt⟩
      obtain ⟨turns, hturns, hturnItems⟩ := hcontinued.items
      refine ⟨turns ++ [turn], ?_, ?_⟩
      · change ContinuedFrom w.saved identityId request.previousResponseId (turns ++ [turn])
        change ContinuedFrom w.saved turn.identityId turn.previousResponseId turns at hturns
        rw [hturn.owned] at hturns
        rw [hprevious, ← hturn.named]
        exact .further ⟨hturn.saved, hturn.owned⟩ hturns
      · rw [hown, resent_concat, hturnItems, ← List.map_append, Turn.exchange, List.append_assoc]

theorem createResponse_responseId {db : Database} {now : ℤ} {identityId responseId conversationId : String}
    {payload : { payload : Value // payload.Built }} {c : ResponseCandidateRequest}
    (hc : createResponse env db now identityId responseId conversationId payload = .ok c) :
    c.responseId = responseId := by
  obtain ⟨request, -, hc⟩ := bind_ok hc
  obtain ⟨parentState, -, hc⟩ := bind_ok hc
  split_ifs at hc
  obtain rfl := Except.ok.inj hc
  rfl

theorem Recorded.start {db : Database} (hdb : db.sessions = []) : Recorded env { db := db } where
  rows := by
    intro row hrow
    rw [hdb] at hrow
    cases hrow
  opened := fun c hc => by cases hc
  attempts := fun attempt hattempt => by cases hattempt
  saved := fun turn hturn => by cases hturn
  openedDrawn := fun c hc => by cases hc
  savedDrawn := fun turn hturn => by cases hturn
  unsaved := fun c hc => by cases hc
  distinct := List.nodup_nil

theorem Recorded.drop {w : World} (h : Recorded env w) {db : Database} {opened : List ResponseCandidateRequest}
    (hsessions : ∀ row ∈ db.sessions, row ∈ w.db.sessions) (hopened : ∀ c ∈ opened, c ∈ w.opened) :
    Recorded env { w with db := db, opened := opened } where
  rows := fun row hrow => h.rows row (hsessions row hrow)
  opened := fun c hc => h.opened c (hopened c hc)
  attempts := h.attempts
  saved := h.saved
  openedDrawn := fun c hc => h.openedDrawn c (hopened c hc)
  savedDrawn := h.savedDrawn
  unsaved := fun c hc => h.unsaved c (hopened c hc)
  distinct := h.distinct

theorem Recorded.accepted {w : World} (henv : env.Lawful) (h : Recorded env w) {now : ℤ}
    {identityId responseId conversationId : String} {payload : { payload : Value // payload.Built }}
    {c : ResponseCandidateRequest} (hdrawn : responseId ∉ w.drawn)
    (hc : createResponse env w.db now identityId responseId conversationId payload = .ok c) :
    Recorded env { w with opened := c :: w.opened, drawn := responseId :: w.drawn } where
  rows := h.rows
  opened := by
    rw [List.forall_mem_cons]
    exact ⟨fun items hitems => createResponse_continued henv h hc hitems, h.opened⟩
  attempts := h.attempts
  saved := h.saved
  openedDrawn := by
    rw [List.forall_mem_cons, createResponse_responseId hc]
    exact ⟨List.mem_cons_self, fun other hother => List.mem_cons_of_mem _ (h.openedDrawn other hother)⟩
  savedDrawn := fun turn hturn => List.mem_cons_of_mem _ (h.savedDrawn turn hturn)
  unsaved := by
    rw [List.forall_mem_cons, createResponse_responseId hc]
    refine ⟨fun turn hturn heq => ?_, h.unsaved⟩
    rw [heq] at hdrawn
    exact hdrawn (h.savedDrawn turn hturn)
  distinct := h.distinct

theorem Recorded.sent {w : World} (hpolicy : policy.enabled = false) (h : Recorded env w)
    {c : ResponseCandidateRequest} {upstreamProtocol : UpstreamProtocol} {modelUpstream : String} {items : List Value}
    (hopened : c ∈ w.opened) (hitems : candidateItems policy c upstreamProtocol modelUpstream = .ok items) :
    Recorded env { w with attempts := w.attempts ++ [⟨c, items⟩] } where
  rows := h.rows
  opened := h.opened
  attempts := by
    intro attempt hattempt
    rcases List.mem_append.mp hattempt with hattempt | hattempt
    · exact h.attempts attempt hattempt
    · rw [List.mem_singleton.mp hattempt]
      exact h.opened c hopened items (candidateItems_ok hpolicy hitems)
  saved := h.saved
  openedDrawn := h.openedDrawn
  savedDrawn := h.savedDrawn
  unsaved := h.unsaved
  distinct := h.distinct

theorem Recorded.savedTurn {w : World} (henv : env.Lawful) (h : Recorded env w) {attempt : Attempt} {answer : Answer}
    {insert : ResponseStateInsert} {nonces : StateNonces} {now : ℤ} {db : Database} {output : List Value}
    (hattempt : attempt ∈ w.attempts) (hopened : attempt.request ∈ w.opened)
    (hinsert : insert ∈ answerInserts attempt.request attempt.items answer)
    (houtput : insert.responseItems = .array output) (hsave : saveResponseState env nonces now insert w.db = .ok db) :
    Recorded env { w with
      db := db
      opened := w.opened.filter (fun c => c.responseId ≠ attempt.request.responseId)
      saved := ⟨attempt.request, attempt.items, output, now⟩ :: w.saved } := by
  have hstands := answerInserts_standsFor hinsert
  have hbuilt : (Value.array output).Built := by
    obtain ⟨output', houtput', hbuilt⟩ := hstands.responseItems
    rwa [← houtput, houtput']
  have hnew : ∀ row ∈ w.db.sessions, row.responseId ≠ insert.responseId := by
    intro row hrow
    obtain ⟨turn, hturn, hrowOf⟩ := h.rows row hrow
    rw [hrowOf.responseId, hstands.responseId]
    exact (h.unsaved _ hopened turn hturn).symm
  obtain ⟨row, hrow, hsessions⟩ := saveResponseState_new henv hsave hnew
  rw [hstands.responseId, hstands.identityId, hstands.requestItems, houtput] at hrow
  have hmono : ∀ turn ∈ w.saved, turn ∈ (⟨attempt.request, attempt.items, output, now⟩ :: w.saved : List Turn) :=
    fun turn hturn => List.mem_cons_of_mem _ hturn
  constructor
  · intro other hother
    rw [hsessions] at hother
    rcases List.mem_append.mp hother with hother | hother
    · obtain ⟨turn, hturn, hrowOf⟩ := h.rows other hother
      exact ⟨turn, hmono turn hturn, hrowOf⟩
    · rw [List.mem_singleton.mp hother]
      exact ⟨_, List.mem_cons_self, hrow⟩
  · exact fun c hc items hitems => (h.opened c (List.mem_filter.mp hc).1 items hitems).mono hmono
  · exact fun other hother => (h.attempts other hother).mono hmono
  · rw [List.forall_mem_cons]
    exact ⟨⟨(h.attempts attempt hattempt).mono hmono, hbuilt⟩,
      fun turn hturn => ⟨(h.saved turn hturn).1.mono hmono, (h.saved turn hturn).2⟩⟩
  · exact fun c hc => h.openedDrawn c (List.mem_filter.mp hc).1
  · rw [List.forall_mem_cons]
    exact ⟨h.openedDrawn _ hopened, h.savedDrawn⟩
  · intro c hc
    obtain ⟨hc, hne⟩ := List.mem_filter.mp hc
    rw [List.forall_mem_cons]
    exact ⟨of_decide_eq_true hne, h.unsaved c hc⟩
  · rw [List.map_cons, List.nodup_cons]
    refine ⟨fun hmem => ?_, h.distinct⟩
    obtain ⟨turn, hturn, heq⟩ := List.mem_map.mp hmem
    exact h.unsaved _ hopened turn hturn heq.symm

theorem Recorded.step (henv : env.Lawful) (hpolicy : policy.enabled = false) {w w' : World} (h : Recorded env w)
    (hstep : Step env policy w w') : Recorded env w' := by
  cases hstep with
  | accept hdrawn hc => exact h.accepted henv hdrawn hc
  | send hopened hitems => exact h.sent hpolicy hopened hitems
  | save hattempt hopened hinsert houtput hsave => exact h.savedTurn henv hattempt hopened hinsert houtput hsave
  | giveUp responseId => exact h.drop (fun _ hrow => hrow) (fun _ hc => (List.mem_filter.mp hc).1)
  | expire now => exact h.drop (fun _ hrow => mem_deleteExpired hrow) (fun _ hc => hc)
  | remove kept => exact h.drop (fun _ hrow => (List.mem_filter.mp hrow).1) (fun _ hc => hc)

theorem Recorded.run (henv : env.Lawful) (hpolicy : policy.enabled = false) {db : Database} (hdb : db.sessions = [])
    {w : World} (h : Relation.ReflTransGen (Step env policy) { db := db } w) : Recorded env w := by
  induction h with
  | refl => exact .start hdb
  | tail _ hstep ih => exact ih.step henv hpolicy hstep

theorem Recorded.unique {w : World} (h : Recorded env w) {identityId : String} {reference : Option String}
    {turns turns' : List Turn} (hturns : ContinuedFrom w.saved identityId reference turns)
    (hturns' : ContinuedFrom w.saved identityId reference turns') : turns = turns' := by
  refine Leads.unique ?_ hturns hturns'
  rintro a b ⟨ha, -⟩ ⟨hb, -⟩ heq
  exact h.eq_of_responseId ha hb heq

theorem createResponse_eq {db : Database} {now : ℤ} {identityId : String}
    {payload : { payload : Value // payload.Built }} {request : InternalRequest} {parentState : Option ResponseState}
    (hrequest : decodeResponsesRequest env.serde payload.1 = .ok request)
    (hparent : loadParentState env db now identityId request.previousResponseId = .ok parentState)
    (responseId conversationId : String) :
    createResponse env db now identityId responseId conversationId payload =
      if request.previousResponseId.isSome ∧ parentState.isNone then .error .openaiPreviousResponseNotFound
      else .ok (candidateRequest identityId responseId conversationId payload request parentState) := by
  unfold createResponse
  rw [hrequest]
  change (loadParentState env db now identityId request.previousResponseId >>= _) = _
  rw [hparent]
  rfl

theorem createResponse_own (env : StateEnv) (db : Database) (now : ℤ) (identityId responseId conversationId : String)
    (payload : { payload : Value // payload.Built }) :
    createResponse env { db with sessions := db.sessions.filter (fun row => row.identityId = identityId) } now
        identityId responseId conversationId payload =
      createResponse env db now identityId responseId conversationId payload := by
  have hload (reference : Option String) :
      loadParentState env { db with sessions := db.sessions.filter (fun row => row.identityId = identityId) } now
          identityId reference =
        loadParentState env db now identityId reference := by
    cases reference with
    | none => rfl
    | some previous =>
      have hkey : (fun row : ResponseSession => decide (decide (row.identityId = identityId) = true ∧
          hasKey previous identityId row = true)) = hasKey previous identityId := by
        funext row
        exact Bool.eq_iff_iff.mpr (by simp [hasKey])
      unfold loadParentState loadResponseState
      dsimp only
      rw [List.find?_filter, hkey]
  unfold createResponse
  simp only [hload]

/-- A request that names a previous response is accepted exactly if its identity can continue that response. -/
theorem createResponse_previous {w : World} (henv : env.Lawful) (h : Recorded env w) (now : ℤ)
    (identityId responseId conversationId : String) {payload : { payload : Value // payload.Built }}
    {request : InternalRequest} (hrequest : decodeResponsesRequest env.serde payload.1 = .ok request)
    {previous : String} (hprevious : request.previousResponseId = some previous) :
    ((¬∃ turn, Continuable w now identityId previous turn) ∧
      createResponse env w.db now identityId responseId conversationId payload =
        .error .openaiPreviousResponseNotFound) ∨
    ∃ turn state, Continuable w now identityId previous turn ∧
      createResponse env w.db now identityId responseId conversationId payload =
        .ok (candidateRequest identityId responseId conversationId payload request (some state)) ∧
      inputItems payload.1 (some state) =
        (currentInputItems payload.1).map (fun current => turn.items.map (Value.mapNumbers env.serde.reread) ++
          turn.output.map (Value.mapNumbers env.serde.reread) ++ current) := by
  have hsome : request.previousResponseId.isSome = true := by rw [hprevious, Option.isSome_some]
  rcases h.load henv now identityId previous with ⟨hnot, hnone⟩ | ⟨turn, state, hturn, hstate, hitems, houtput⟩
  · have hparent : loadParentState env w.db now identityId request.previousResponseId = .ok none := by
      rw [hprevious, loadParentState, hnone]
      rfl
    refine .inl ⟨hnot, ?_⟩
    rw [createResponse_eq hrequest hparent, if_pos ⟨hsome, rfl⟩]
  · have hparent : loadParentState env w.db now identityId request.previousResponseId = .ok (some state) := by
      rw [hprevious, loadParentState, hstate]
      rfl
    refine .inr ⟨turn, state, hturn, ?_, ?_⟩
    · rw [createResponse_eq hrequest hparent, if_neg (by simp)]
    · unfold inputItems continuationItems
      dsimp only
      rw [hitems, houtput]
      cases currentInputItems payload.1 <;> rfl

end invariant

section sample

def sampleEnv : StateEnv where
  serde := Text.limited Text.rounded
  cipher := LegacySessions.markingCipher
  jsonError := fun _ => "expected value at line 1 column 1"
  storageError := fun _ => .protocol "storage_unavailable" "storage is unavailable"

theorem sampleEnv_lawful : sampleEnv.Lawful :=
  ⟨Text.limited_lawful Text.rounded_keepsIntegers, LegacySessions.markingCipher_lawful⟩

def sampleDb : Database where
  identities := [⟨"identity-1", "machine-1", "S-1-5-21", "hash", "One", 0, 0⟩]

def unbudgeted : ImageBudgetPolicy := ⟨false, 0, 0⟩

def userItem (text : String) : Value := .json [("role", .string "user"), ("content", .string text)]

def sampleBody (text : String) (previous : Value) : Value :=
  .json [("model", .string "m"), ("input", .string text), ("previous_response_id", previous)]

theorem sampleBody_built (text : String) {previous : Value} (h : previous.Stable 0) :
    (sampleBody text previous).Built := by
  have hstable : (sampleBody text previous).Stable 1 := by
    refine Value.stable_json ?_
    simp only [List.forall_mem_cons]
    exact ⟨Value.stable_string _, Value.stable_string _, h, by simp⟩
  exact ⟨hstable.normal, hstable.depth_le.trans_lt (by decide)⟩

def answerItem : Value :=
  .json [("type", .string "function_call"), ("call_id", .string "call_1"), ("name", .string "run")]

def answerMembers (item : Value) : List (String × Value) :=
  [("id", .string "resp_up"), ("model", .string "m"), ("output", .array [item])]

theorem candidateItems_responses {policy : ImageBudgetPolicy} (hpolicy : policy.enabled = false)
    {c : ResponseCandidateRequest} {items : List Value} (h : inputItems c.payload c.parentState = .ok items)
    (modelUpstream : String) : candidateItems policy c .responses modelUpstream = .ok items := by
  unfold candidateItems
  rw [h]
  exact budgetInputItems_disabled hpolicy items

theorem unexpired_start : (0 : ℤ) < seconds (0 + thirtyDays) * perSecond := by decide

theorem first_turn_saved {item : Value} (hbuilt : (Value.object (answerMembers item)).Built) :
    ∃ (w : World) (turn : Turn), Relation.ReflTransGen (Step sampleEnv unbudgeted) { db := sampleDb } w ∧
      w.saved = [turn] ∧ Continuable w 0 "identity-1" "resp_1" turn ∧ w.drawn = ["resp_1"] ∧
      turn.previousResponseId = none ∧ turn.items = [userItem "hi"] ∧ turn.output = [item] ∧
      turn.exchange = [userItem "hi", item] := by
  have hbody : (sampleBody "hi" .null).Built := sampleBody_built "hi" ⟨Value.flat_null, rfl⟩
  obtain ⟨request, hrequest, hprevious, hstore⟩ : ∃ request,
      decodeResponsesRequest sampleEnv.serde (sampleBody "hi" .null) = .ok request ∧
        request.previousResponseId = none ∧ request.store = true := ⟨_, rfl, rfl, rfl⟩
  obtain ⟨c, hc⟩ : ∃ c, c = candidateRequest "identity-1" "resp_1" "conv_1" ⟨_, hbody⟩ request none := ⟨_, rfl⟩
  have hcreate : createResponse sampleEnv sampleDb 0 "identity-1" "resp_1" "conv_1" ⟨_, hbody⟩ = .ok c := by
    have hparent : loadParentState sampleEnv sampleDb 0 "identity-1" request.previousResponseId = .ok none := by
      rw [hprevious]
      rfl
    rw [createResponse_eq hrequest hparent, hprevious, hc]
    rfl
  have hitems : inputItems c.payload c.parentState = .ok [userItem "hi"] := by
    rw [hc]
    rfl
  obtain ⟨insert, hinsert⟩ : ∃ insert, nativeInsert c [userItem "hi"] "provider-1" (answerMembers item) = .ok insert :=
    ⟨_, rfl⟩
  have hmem : insert ∈ answerInserts c [userItem "hi"] (.native "provider-1" (answerMembers item) hbuilt) := by
    have hcstore : c.request.store = true := by
      rw [hc]
      exact hstore
    unfold answerInserts
    rw [hcstore]
    dsimp only
    rw [hinsert]
    exact List.mem_singleton.mpr rfl
  have hstands := nativeInsert_standsFor hbuilt hinsert
  have houtput : insert.responseItems = .array [item] := by
    obtain ⟨decoded, -, h⟩ := bind_ok hinsert
    rw [← Except.ok.inj h]
    rfl
  have hkeys : c.responseId = "resp_1" ∧ c.identityId = "identity-1" := by
    rw [hc]
    exact ⟨rfl, rfl⟩
  obtain ⟨row, hrow, hidentity⟩ : ∃ row, newSession sampleEnv ⟨0, 1, 2, 3⟩ 0 insert = .ok row ∧
      row.identityId = insert.identityId := ⟨_, rfl, rfl⟩
  have hparent : sessionIdentity.HasParent sampleDb.identities row := by
    refine ⟨_, List.mem_singleton_self _, ?_⟩
    exact (hidentity.trans (hstands.identityId.trans hkeys.2)).symm
  have hsave : saveResponseState sampleEnv ⟨0, 1, 2, 3⟩ 0 insert sampleDb =
      .ok { sampleDb with sessions := [row] } := by
    unfold saveResponseState
    rw [hrow]
    change upsertSession row sampleDb = _
    unfold upsertSession
    rw [if_neg (by simp [sampleDb]), if_neg (not_not.mpr hparent)]
    rfl
  have hrowOf := newSession_ok sampleEnv_lawful hrow
  have haccept : Step sampleEnv unbudgeted { db := sampleDb } { db := sampleDb, opened := [c], drawn := ["resp_1"] } :=
    .accept List.not_mem_nil hcreate
  have hsend : Step sampleEnv unbudgeted { db := sampleDb, opened := [c], drawn := ["resp_1"] }
      { db := sampleDb, opened := [c], drawn := ["resp_1"], attempts := [⟨c, [userItem "hi"]⟩] } :=
    .send List.mem_cons_self (candidateItems_responses rfl hitems "m")
  have hsaved : Step sampleEnv unbudgeted
      { db := sampleDb, opened := [c], drawn := ["resp_1"], attempts := [⟨c, [userItem "hi"]⟩] } _ :=
    .save (List.mem_singleton_self (Attempt.mk c [userItem "hi"])) List.mem_cons_self hmem houtput hsave
  refine ⟨_, ⟨c, [userItem "hi"], [item], 0⟩, ((Relation.ReflTransGen.refl.tail haccept).tail hsend).tail hsaved, rfl,
    ?_, rfl, ?_, rfl, rfl, ?_⟩
  · refine ⟨List.mem_singleton.mpr rfl, hkeys.1, hkeys.2, unexpired_start, row, List.mem_singleton.mpr rfl, ?_⟩
    rw [hasKey_iff, hrowOf.responseId, hrowOf.identityId, hstands.responseId, hstands.identityId]
    exact hkeys
  · rw [Turn.previousResponseId, hc]
    exact hprevious
  · rw [hc]
    rfl

def moreBody : { payload : Value // payload.Built } :=
  ⟨sampleBody "more" (.string "resp_1"), sampleBody_built "more" (Value.stable_string _)⟩

theorem moreBody_decodes : ∃ request, decodeResponsesRequest sampleEnv.serde moreBody.1 = .ok request ∧
    request.previousResponseId = some "resp_1" := ⟨_, rfl, rfl⟩

theorem second_turn_sent {item : Value} (hbuilt : (Value.object (answerMembers item)).Built) :
    ∃ (w : World) (turn : Turn) (attempt : Attempt),
      Relation.ReflTransGen (Step sampleEnv unbudgeted) { db := sampleDb } w ∧ w.saved = [turn] ∧
      turn.exchange = [userItem "hi", item] ∧ attempt ∈ w.attempts ∧
      ContinuedFrom w.saved attempt.request.identityId attempt.request.previousResponseId [turn] ∧
      attempt.items = [userItem "hi", item.mapNumbers sampleEnv.serde.reread, userItem "more"] ∧
      ownItems attempt.request = [userItem "more"] := by
  obtain ⟨w, turn, hreach, hsaved, hturn, hdrawn, hfirst, hitems, houtput, hexchange⟩ := first_turn_saved hbuilt
  obtain ⟨request, hrequest, hprevious⟩ := moreBody_decodes
  have hrecorded : Recorded sampleEnv w := Recorded.run sampleEnv_lawful rfl rfl hreach
  rcases createResponse_previous sampleEnv_lawful hrecorded 0 "identity-1" "resp_2" "conv_2" hrequest hprevious with
    ⟨hnot, -⟩ | ⟨turn', state, hturn', hcreate, hinput⟩
  · exact absurd ⟨turn, hturn⟩ hnot
  · obtain rfl := hrecorded.eq_of_responseId hturn.saved hturn'.saved (hturn.named.trans hturn'.named.symm)
    obtain ⟨c, hc⟩ : ∃ c, c = candidateRequest "identity-1" "resp_2" "conv_2" moreBody request (some state) := ⟨_, rfl⟩
    rw [← hc] at hcreate
    have hsent : inputItems c.payload c.parentState =
        .ok [userItem "hi", item.mapNumbers sampleEnv.serde.reread, userItem "more"] := by
      rw [hc]
      change inputItems moreBody.1 (some state) = _
      rw [hinput, hitems, houtput]
      rfl
    have haccept : Step sampleEnv unbudgeted w { w with opened := c :: w.opened, drawn := "resp_2" :: w.drawn } :=
      .accept (by rw [hdrawn]; decide) hcreate
    have hsend : Step sampleEnv unbudgeted { w with opened := c :: w.opened, drawn := "resp_2" :: w.drawn }
        { w with
          opened := c :: w.opened
          drawn := "resp_2" :: w.drawn
          attempts :=
            w.attempts ++ [⟨c, [userItem "hi", item.mapNumbers sampleEnv.serde.reread, userItem "more"]⟩] } :=
      .send List.mem_cons_self (candidateItems_responses rfl hsent "m")
    refine ⟨_, turn, _, (hreach.tail haccept).tail hsend, hsaved, hexchange,
      List.mem_append_right _ (List.mem_singleton_self _), ?_, rfl, ?_⟩
    · change ContinuedFrom w.saved c.identityId c.previousResponseId ([] ++ [turn])
      rw [hc]
      change ContinuedFrom w.saved "identity-1" request.previousResponseId ([] ++ [turn])
      rw [hprevious, ← hturn.named]
      refine .further ⟨hturn.saved, hturn.owned⟩ ?_
      rw [hfirst]
      exact .start
    · rw [hc]
      rfl

theorem answerItem_built : (Value.object (answerMembers answerItem)).Built := ⟨rfl, by decide⟩

/-- A search result whose score `serde_json` reads back as 57.29577951308232. -/
def scoredItem : Value :=
  .json [("type", .string "file_search_call"),
    ("results", .array [.json [("score", .number (.float false 57295779513082316 (-15)))]])]

theorem scoredItem_built : (Value.object (answerMembers scoredItem)).Built := ⟨rfl, by decide⟩

end sample

/-- In every run, what a candidate is sent is the conversation that the previous response id leads back to, with each
turn as it is after it was read back for every turn that continues it: so it is the transcript exactly if all items of
these turns survive that. No response state of another identity has a part in it, whatever the table holds. -/
theorem chain_sent_iff {env : StateEnv} (henv : env.Lawful) {policy : ImageBudgetPolicy}
    (hpolicy : policy.enabled = false) {db : Database} (hdb : db.sessions = []) {w : World}
    (h : Relation.ReflTransGen (Step env policy) { db := db } w) {attempt : Attempt} (hattempt : attempt ∈ w.attempts) :
    (∃! turns, ContinuedFrom w.saved attempt.request.identityId attempt.request.previousResponseId turns) ∧
    (∀ turns, ContinuedFrom w.saved attempt.request.identityId attempt.request.previousResponseId turns →
      (attempt.items = transcript turns ++ ownItems attempt.request ↔ KeptThrough env turns)) ∧
    ∀ (db : Database) (now : ℤ) (identityId responseId conversationId : String)
      (payload : { payload : Value // payload.Built }),
      createResponse env { db with sessions := db.sessions.filter (fun row => row.identityId = identityId) } now
          identityId responseId conversationId payload =
        createResponse env db now identityId responseId conversationId payload := by
  have hrecorded : Recorded env w := Recorded.run henv hpolicy hdb h
  obtain ⟨turns, hturns, hitems⟩ := (hrecorded.attempts attempt hattempt).items
  refine ⟨⟨turns, hturns, fun turns' hturns' => hrecorded.unique hturns' hturns⟩, ?_, ?_⟩
  · intro turns' hturns'
    rw [hrecorded.unique hturns' hturns, hitems, List.append_cancel_right_eq]
    exact resent_eq_transcript_iff turns
  · exact createResponse_own env

/-- The first answer holds a score that is not read back as it was written. -/
theorem chain_sent_rounded : ∃ (w : World) (attempt : Attempt),
    Relation.ReflTransGen (Step sampleEnv unbudgeted) { db := sampleDb } w ∧ attempt ∈ w.attempts ∧
      ∀ turns, ContinuedFrom w.saved attempt.request.identityId attempt.request.previousResponseId turns →
        attempt.items ≠ transcript turns ++ ownItems attempt.request := by
  obtain ⟨w, turn, attempt, hreach, hsaved, hexchange, hattempt, hturns, hitems, hown⟩ :=
    second_turn_sent scoredItem_built
  have hrecorded : Recorded sampleEnv w := Recorded.run sampleEnv_lawful rfl rfl hreach
  refine ⟨w, attempt, hreach, hattempt, ?_⟩
  intro turns hturns' heq
  rw [hrecorded.unique hturns' hturns, hitems, hown, transcript, List.flatMap_singleton, hexchange] at heq
  have hscore : scoredItem.mapNumbers sampleEnv.serde.reread = scoredItem := (List.cons.inj (List.cons.inj heq).2).1
  exact absurd hscore (by decide +kernel)

/-- The items of the first answer are read back as they were. -/
theorem chain_sent_two : ∃ (w : World) (attempt : Attempt),
    Relation.ReflTransGen (Step sampleEnv unbudgeted) { db := sampleDb } w ∧ attempt ∈ w.attempts ∧
      attempt.items = [userItem "hi", answerItem, userItem "more"] ∧
      (∃! turns, ContinuedFrom w.saved attempt.request.identityId attempt.request.previousResponseId turns) ∧
      ∀ turns, ContinuedFrom w.saved attempt.request.identityId attempt.request.previousResponseId turns →
        (attempt.items = transcript turns ++ ownItems attempt.request ↔ KeptThrough sampleEnv turns) := by
  obtain ⟨w, turn, attempt, hreach, -, -, hattempt, -, hitems, -⟩ := second_turn_sent answerItem_built
  obtain ⟨hunique, hsent, -⟩ := chain_sent_iff sampleEnv_lawful rfl rfl hreach hattempt
  exact ⟨w, attempt, hreach, hattempt, hitems, hunique, hsent⟩

/-- In every run whose saved items are read back as they were, what a candidate is sent is the whole conversation that
the previous response id of the request leads back to, turn by turn and with nothing of another identity, and after it
the items of the request itself. -/
theorem continuation_exact {env : StateEnv} (henv : env.Lawful) {policy : ImageBudgetPolicy}
    (hpolicy : policy.enabled = false) {db : Database} (hdb : db.sessions = []) {w : World}
    (h : Relation.ReflTransGen (Step env policy) { db := db } w) (hback : ∀ turn ∈ w.saved, ReadBack env turn)
    {attempt : Attempt} (hattempt : attempt ∈ w.attempts) :
    ∃! turns, ContinuedFrom w.saved attempt.request.identityId attempt.request.previousResponseId turns ∧
      attempt.items = transcript turns ++ ownItems attempt.request := by
  have hrecorded : Recorded env w := Recorded.run henv hpolicy hdb h
  obtain ⟨turns, hturns, hitems⟩ := (hrecorded.attempts attempt hattempt).items
  refine ⟨turns, ⟨hturns, ?_⟩, ?_⟩
  · have hkept := KeptThrough.of_readBack (fun turn hturn => hback turn (hturns.of_mem turn hturn).1)
    rw [hitems, (resent_eq_transcript_iff turns).mpr hkept]
  · rintro turns' ⟨hturns', -⟩
    exact hrecorded.unique hturns' hturns

theorem continuation_exact_two : ∃ (w : World) (attempt : Attempt),
    Relation.ReflTransGen (Step sampleEnv unbudgeted) { db := sampleDb } w ∧ attempt ∈ w.attempts ∧
      attempt.items = [userItem "hi", answerItem, userItem "more"] ∧
      ∃! turns, ContinuedFrom w.saved attempt.request.identityId attempt.request.previousResponseId turns ∧
        attempt.items = transcript turns ++ ownItems attempt.request := by
  obtain ⟨w, turn, attempt, hreach, hsaved, hexchange, hattempt, -, hitems, -⟩ := second_turn_sent answerItem_built
  refine ⟨w, attempt, hreach, hattempt, hitems, continuation_exact sampleEnv_lawful rfl rfl hreach ?_ hattempt⟩
  rw [hsaved, List.forall_mem_singleton, ReadBack, hexchange]
  simp only [List.forall_mem_cons]
  exact ⟨rfl, rfl, nofun⟩

/-- In every run, a request that names a previous response is accepted exactly if its identity was given that response,
the state is still there and has not expired; to any other identity the response does not exist. -/
theorem continuation_accepted {env : StateEnv} (henv : env.Lawful) {policy : ImageBudgetPolicy}
    (hpolicy : policy.enabled = false) {db : Database} (hdb : db.sessions = []) {w : World}
    (h : Relation.ReflTransGen (Step env policy) { db := db } w) (now : ℤ)
    (identityId responseId conversationId : String) {payload : { payload : Value // payload.Built }}
    {request : InternalRequest} (hrequest : decodeResponsesRequest env.serde payload.1 = .ok request)
    {previous : String} (hprevious : request.previousResponseId = some previous) :
    ((∃ c, createResponse env w.db now identityId responseId conversationId payload = .ok c) ↔
      ∃ turn, Continuable w now identityId previous turn) ∧
    ∀ error, createResponse env w.db now identityId responseId conversationId payload = .error error →
      error = .openaiPreviousResponseNotFound := by
  have hrecorded : Recorded env w := Recorded.run henv hpolicy hdb h
  rcases createResponse_previous henv hrecorded now identityId responseId conversationId hrequest hprevious with
    ⟨hnot, herror⟩ | ⟨turn, state, hturn, hok, -⟩
  · rw [herror]
    refine ⟨⟨?_, fun hturn => absurd hturn hnot⟩, ?_⟩
    · rintro ⟨c, hc⟩
      cases hc
    · intro error heq
      exact (Except.error.inj heq).symm
  · rw [hok]
    refine ⟨⟨fun _ => ⟨turn, hturn⟩, fun _ => ⟨_, rfl⟩⟩, ?_⟩
    intro error heq
    cases heq

theorem continuation_accepted_two : ∃ w, Relation.ReflTransGen (Step sampleEnv unbudgeted) { db := sampleDb } w ∧
    (∃ c, createResponse sampleEnv w.db 0 "identity-1" "resp_2" "conv_2" moreBody = .ok c) ∧
    createResponse sampleEnv w.db 0 "identity-2" "resp_2" "conv_2" moreBody =
      .error .openaiPreviousResponseNotFound := by
  obtain ⟨w, turn, hreach, hsaved, hturn, -⟩ := first_turn_saved answerItem_built
  obtain ⟨request, hrequest, hprevious⟩ := moreBody_decodes
  have haccepted := fun identityId =>
    continuation_accepted sampleEnv_lawful rfl rfl hreach 0 identityId "resp_2" "conv_2" hrequest hprevious
  refine ⟨w, hreach, (haccepted "identity-1").1.mpr ⟨turn, hturn⟩, ?_⟩
  cases hother : createResponse sampleEnv w.db 0 "identity-2" "resp_2" "conv_2" moreBody with
  | error error => rw [(haccepted "identity-2").2 error hother]
  | ok c =>
    obtain ⟨turn', hturn'⟩ := (haccepted "identity-2").1.mp ⟨c, hother⟩
    have hmem := hturn'.saved
    rw [hsaved, List.mem_singleton] at hmem
    have howned := hturn'.owned
    rw [hmem, hturn.owned] at howned
    exact absurd howned (by decide)

end Prelay.Responses
