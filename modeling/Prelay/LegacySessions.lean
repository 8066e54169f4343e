import Mathlib.Data.List.Forall2
import Mathlib.Data.Prod.Lex
import Mathlib.Data.String.Basic
import Prelay.PagedSweep
import Prelay.ResponseSessions

namespace Prelay.Store.LegacySessions

open Bridge Sweep

def legacyResponseBatch : ℕ := 100

def encryptLegacyValue (cipher : KeyCipher) (nonce : ℕ) (value : String) : Except StorageError (Option String) :=
  if isEncryptedSessionValue value then .ok none else (encryptSessionValue cipher nonce value).map some

def encryptOptionalLegacyValue (cipher : KeyCipher) (nonce : ℕ) (value : Option String) :
    Except StorageError (Option String) :=
  match value.filter (fun value => !isEncryptedSessionValue value) with
  | some value => (encryptSessionValue cipher nonce value).map some
  | none => .ok none

def sessionKey (row : ResponseSession) : String × String := (row.responseId, row.identityId)

def isLegacy (row : ResponseSession) : Bool := row.protocolFormat = "legacy_internal_v1"

structure SessionChanges where
  inputMessagesJson : Option String := none
  outputItemsJson : Option String := none
  requestItemsJson : Option String := none
  responseItemsJson : Option String := none
  deriving DecidableEq

def SessionChanges.apply (changes : SessionChanges) (row : ResponseSession) : ResponseSession :=
  { row with
    inputMessagesJson := changes.inputMessagesJson.getD row.inputMessagesJson
    outputItemsJson := changes.outputItemsJson.getD row.outputItemsJson
    requestItemsJson := changes.requestItemsJson.or row.requestItemsJson
    responseItemsJson := changes.responseItemsJson.or row.responseItemsJson }

/-- The nonces of the columns of one row, whether or not they are drawn. -/
structure RowNonces where
  input : ℕ
  output : ℕ
  request : ℕ
  response : ℕ

structure Collation where
  le : String → String → Prop
  antisymm : ∀ a b, le a b → le b a → a = b

def Collation.keyLe (collation : Collation) (a b : String × String) : Prop :=
  collation.le a.1 b.1 ∧ (a.1 = b.1 → collation.le a.2 b.2)

/-- What a run meets: the nonces of the rows that it visits, the statements that fail, and how a query lists rows. -/
structure MigrationRun (collation : Collation) where
  nonces : ℕ → RowNonces
  fault : ℕ → Option StorageError
  listing : ℕ → List ResponseSession → List ResponseSession
  perm : ∀ statement rows, (listing statement rows).Perm rows
  ordered : ∀ statement rows,
    (listing statement rows).Pairwise (fun a b => collation.keyLe (sessionKey a) (sessionKey b))

/-- The table with what the loop counts; `visited` follows the rows that it has gone through. -/
structure Migration where
  sessions : List ResponseSession
  statements : ℕ := 0
  visited : List (String × String) := []
  migrated : ℕ := 0

section source

variable {collation : Collation} (cipher : KeyCipher) (run : MigrationRun collation)

def legacyChanges (nonces : RowNonces) (row : ResponseSession) : Except StorageError SessionChanges := do
  let input ← encryptLegacyValue cipher nonces.input row.inputMessagesJson
  let output ← encryptLegacyValue cipher nonces.output row.outputItemsJson
  let request ← encryptOptionalLegacyValue cipher nonces.request row.requestItemsJson
  let response ← encryptOptionalLegacyValue cipher nonces.response row.responseItemsJson
  .ok ⟨input, output, request, response⟩

def statement (s : Migration) : Except StorageError Migration :=
  match run.fault s.statements with
  | some error => .error error
  | none => .ok { s with statements := s.statements + 1 }

def updateSession (key : String × String) (changes : SessionChanges) (sessions : List ResponseSession) :
    Except StorageError (List ResponseSession) :=
  if sessions.any (fun stored => sessionKey stored = key) then
    .ok (sessions.map (fun stored => if sessionKey stored = key then changes.apply stored else stored))
  else .error (.database .recordNotUpdated)

def encryptLegacyRow (row : ResponseSession) (s : Migration) : Except StorageError Migration := do
  let changes ← legacyChanges cipher (run.nonces s.visited.length) row
  let s := { s with visited := s.visited ++ [sessionKey row] }
  if changes = {} then .ok s
  else do
    let s ← statement run s
    let sessions ← updateSession (sessionKey row) changes s.sessions
    .ok { s with sessions := sessions, migrated := s.migrated + 1 }

def legacyPage (offset : ℕ) (s : Migration) : Except StorageError (List ResponseSession × Migration) := do
  let next ← statement run s
  .ok (((run.listing s.statements (s.sessions.filter isLegacy)).drop offset).take legacyResponseBatch, next)

def encryptLegacyResponseSessions (fuel : ℕ) (sessions : List ResponseSession) :
    Option (Migration × Except StorageError ℕ) :=
  (paged (legacyPage run) (encryptLegacyRow cipher run) fuel 0 { sessions := sessions }).map
    (fun final => (final.1, final.2.map (fun _ => final.1.migrated)))

end source

section purpose

/-- What becomes of a column: its text is kept under encryption, and a ciphertext is left as it is. -/
structure Encrypted (cipher : KeyCipher) (value value' : String) : Prop where
  encrypted : isEncryptedSessionValue value' = true
  text : ∀ text, Stored cipher text value → decryptSessionValue cipher value' = .ok text
  kept : isEncryptedSessionValue value = true → value' = value

def columns (row : ResponseSession) : List (Option String) :=
  [some row.inputMessagesJson, some row.outputItemsJson, row.requestItemsJson, row.responseItemsJson]

def SameRow (row row' : ResponseSession) : Prop :=
  { row' with
    inputMessagesJson := row.inputMessagesJson
    outputItemsJson := row.outputItemsJson
    requestItemsJson := row.requestItemsJson
    responseItemsJson := row.responseItemsJson } = row

structure Migrated (cipher : KeyCipher) (row row' : ResponseSession) : Prop where
  legacy : isLegacy row = true
  frame : SameRow row row'
  columns : List.Forall₂ (Option.Rel (Encrypted cipher)) (columns row) (columns row')

def hasPlaintext (row : ResponseSession) : Bool :=
  (columns row).any (fun column => column.any (fun value => !isEncryptedSessionValue value))

end purpose

section columns

variable {cipher : KeyCipher} {row row' row'' : ResponseSession}

theorem forall_columns {R : Option String → Option String → Prop} :
    List.Forall₂ R (columns row) (columns row') ↔
      R (some row.inputMessagesJson) (some row'.inputMessagesJson) ∧
      R (some row.outputItemsJson) (some row'.outputItemsJson) ∧
      R row.requestItemsJson row'.requestItemsJson ∧ R row.responseItemsJson row'.responseItemsJson := by
  simp only [columns, List.forall₂_cons, List.Forall₂.nil, and_true]

theorem Encrypted.refl {value : String} (h : isEncryptedSessionValue value = true) : Encrypted cipher value value :=
  ⟨h, fun _ hstored => hstored.decrypts, fun _ => rfl⟩

theorem encrypted_of_encrypt (hcipher : cipher.Lawful) {nonce : ℕ} {value value' : String}
    (hplain : isEncryptedSessionValue value = false) (h : encryptSessionValue cipher nonce value = .ok value') :
    Encrypted cipher value value' := by
  obtain ⟨hencrypted, hstored⟩ := encryptSessionValue_stored hcipher h
  refine ⟨hencrypted, fun text htext => ?_, fun hvalue => absurd hvalue (by rw [hplain]; exact Bool.false_ne_true)⟩
  rw [hstored.decrypts]
  exact (decrypt_plain hplain).symm.trans htext.decrypts

theorem Encrypted.trans {a b c : String} (h : Encrypted cipher a b) (h' : Encrypted cipher b c) :
    Encrypted cipher a c := by
  obtain rfl := h'.kept h.encrypted
  exact h

theorem encryptLegacyValue_ok (hcipher : cipher.Lawful) {nonce : ℕ} {value : String} {change : Option String}
    (h : encryptLegacyValue cipher nonce value = .ok change) :
    Encrypted cipher value (change.getD value) ∧ (change = none ↔ isEncryptedSessionValue value = true) := by
  unfold encryptLegacyValue at h
  split_ifs at h with hvalue
  · obtain rfl := Except.ok.inj h
    exact ⟨.refl hvalue, iff_of_true rfl hvalue⟩
  · rw [Bool.not_eq_true] at hvalue
    cases hencrypt : encryptSessionValue cipher nonce value with
    | error error => rw [hencrypt] at h; exact nomatch h
    | ok value' =>
      rw [hencrypt] at h
      obtain rfl := Except.ok.inj h
      exact ⟨encrypted_of_encrypt hcipher hvalue hencrypt, by simp [hvalue]⟩

theorem encryptOptionalLegacyValue_ok (hcipher : cipher.Lawful) {nonce : ℕ} {value change : Option String}
    (h : encryptOptionalLegacyValue cipher nonce value = .ok change) :
    Option.Rel (Encrypted cipher) value (change.or value) ∧
      (change = none ↔ value.any (fun value => !isEncryptedSessionValue value) = false) := by
  have hvalue : encryptOptionalLegacyValue cipher nonce value =
      value.elim (.ok none) (encryptLegacyValue cipher nonce) := by
    cases value with
    | none => rfl
    | some value =>
      cases hplain : isEncryptedSessionValue value <;>
        simp [encryptOptionalLegacyValue, encryptLegacyValue, Option.filter, hplain]
  rw [hvalue] at h
  cases value with
  | none =>
    obtain rfl := Except.ok.inj h
    exact ⟨.none, iff_of_true rfl rfl⟩
  | some value =>
    obtain ⟨hcolumn, hchange⟩ := encryptLegacyValue_ok hcipher h
    refine ⟨?_, hchange.trans (by simp)⟩
    cases change with
    | none => exact .some hcolumn
    | some value' => exact .some hcolumn

theorem legacyChanges_ok (hcipher : cipher.Lawful) {nonces : RowNonces} {changes : SessionChanges}
    (h : legacyChanges cipher nonces row = .ok changes) :
    List.Forall₂ (Option.Rel (Encrypted cipher)) (columns row) (columns (changes.apply row)) ∧
      (changes = {} ↔ hasPlaintext row = false) := by
  obtain ⟨input, hinput, h⟩ := bind_ok h
  obtain ⟨output, houtput, h⟩ := bind_ok h
  obtain ⟨request, hrequest, h⟩ := bind_ok h
  obtain ⟨response, hresponse, h⟩ := bind_ok h
  obtain rfl := Except.ok.inj h
  obtain ⟨hinput, hnoInput⟩ := encryptLegacyValue_ok hcipher hinput
  obtain ⟨houtput, hnoOutput⟩ := encryptLegacyValue_ok hcipher houtput
  obtain ⟨hrequest, hnoRequest⟩ := encryptOptionalLegacyValue_ok hcipher hrequest
  obtain ⟨hresponse, hnoResponse⟩ := encryptOptionalLegacyValue_ok hcipher hresponse
  constructor
  · exact forall_columns.mpr ⟨.some hinput, .some houtput, hrequest, hresponse⟩
  · rw [SessionChanges.mk.injEq, hnoInput, hnoOutput, hnoRequest, hnoResponse]
    simp [hasPlaintext, columns]

theorem Migrated.apply (hcipher : cipher.Lawful) {nonces : RowNonces} {changes : SessionChanges}
    (hlegacy : isLegacy row = true) (h : legacyChanges cipher nonces row = .ok changes) :
    Migrated cipher row (changes.apply row) :=
  ⟨hlegacy, rfl, (legacyChanges_ok hcipher h).1⟩

theorem SessionChanges.apply_empty (row : ResponseSession) : SessionChanges.apply {} row = row := rfl

theorem SameRow.key (h : SameRow row row') : sessionKey row' = sessionKey row ∧ isLegacy row' = isLegacy row := by
  rw [← h]
  exact ⟨rfl, rfl⟩

theorem SameRow.trans (h : SameRow row row') (h' : SameRow row' row'') : SameRow row row'' := by
  rw [SameRow, ← h'] at h
  exact h

theorem Migrated.trans (h : Migrated cipher row row') (h' : Migrated cipher row' row'') :
    Migrated cipher row row'' := by
  have hrel {a b c : Option String} (hab : Option.Rel (Encrypted cipher) a b)
      (hbc : Option.Rel (Encrypted cipher) b c) : Option.Rel (Encrypted cipher) a c := by
    cases hab with
    | none => cases hbc; exact .none
    | some hab => cases hbc with | some hbc => exact .some (hab.trans hbc)
  obtain ⟨hinput, houtput, hrequest, hresponse⟩ := forall_columns.mp h.columns
  obtain ⟨hinput', houtput', hrequest', hresponse'⟩ := forall_columns.mp h'.columns
  refine ⟨h.legacy, h.frame.trans h'.frame, ?_⟩
  exact forall_columns.mpr
    ⟨hrel hinput hinput', hrel houtput houtput', hrel hrequest hrequest', hrel hresponse hresponse'⟩

theorem Migrated.sealed (h : Migrated cipher row row') : hasPlaintext row' = false := by
  have hcolumn {a b : Option String} (hab : Option.Rel (Encrypted cipher) a b) :
      b.any (fun value => !isEncryptedSessionValue value) = false := by
    cases hab with
    | none => rfl
    | some hab => simp [hab.encrypted]
  obtain ⟨hinput, houtput, hrequest, hresponse⟩ := forall_columns.mp h.columns
  simp only [hasPlaintext, LegacySessions.columns, List.any_cons, List.any_nil, hcolumn hinput, hcolumn houtput,
    hcolumn hrequest, hcolumn hresponse, Bool.or_self]

theorem Migrated.kept (h : Migrated cipher row row') (hsealed : hasPlaintext row = false) : row' = row := by
  have hcolumn {a b : Option String} (hab : Option.Rel (Encrypted cipher) a b)
      (ha : a.any (fun value => !isEncryptedSessionValue value) = false) : b = a := by
    cases hab with
    | none => rfl
    | some hab => exact congrArg some (hab.kept (by simpa using ha))
  obtain ⟨hinput, houtput, hrequest, hresponse⟩ := forall_columns.mp h.columns
  simp only [hasPlaintext, LegacySessions.columns, List.any_cons, List.any_nil, Bool.or_eq_false_iff] at hsealed
  obtain ⟨hinputSealed, houtputSealed, hrequestSealed, hresponseSealed, -⟩ := hsealed
  rw [← h.frame, ← Option.some.inj (hcolumn hinput hinputSealed), ← Option.some.inj (hcolumn houtput houtputSealed),
    ← hcolumn hrequest hrequestSealed, ← hcolumn hresponse hresponseSealed]

end columns

section run

variable {collation : Collation} {cipher : KeyCipher} {run : MigrationRun collation}
  {sessions done : List ResponseSession} {row : ResponseSession} {s s' : Migration}

structure Progress (cipher : KeyCipher) (sessions done : List ResponseSession) (s : Migration) : Prop where
  table : ∃ f : ResponseSession → ResponseSession, s.sessions = sessions.map f ∧ (∀ row, SameRow row (f row)) ∧
    (∀ row, sessionKey row ∉ done.map sessionKey → f row = row) ∧ ∀ row ∈ done, Migrated cipher row (f row)
  visited : s.visited = done.map sessionKey
  migrated : s.migrated = done.countP hasPlaintext

theorem statement_ok (h : statement run s = .ok s') : s' = { s with statements := s.statements + 1 } := by
  unfold statement at h
  split at h
  · exact nomatch h
  · exact (Except.ok.inj h).symm

theorem encryptLegacyRow_ok (hcipher : cipher.Lawful) (hlegacy : isLegacy row = true)
    (h : encryptLegacyRow cipher run row s = .ok s') :
    ∃ changes : SessionChanges, Migrated cipher row (changes.apply row) ∧
      s'.sessions = s.sessions.map
        (fun stored => if sessionKey stored = sessionKey row then changes.apply stored else stored) ∧
      s'.visited = s.visited ++ [sessionKey row] ∧
      s'.migrated = s.migrated + if hasPlaintext row then 1 else 0 := by
  obtain ⟨changes, hchanges, h⟩ := bind_ok h
  obtain ⟨-, hnone⟩ := legacyChanges_ok hcipher hchanges
  refine ⟨changes, .apply hcipher hlegacy hchanges, ?_⟩
  split_ifs at h with hempty
  · obtain rfl := Except.ok.inj h
    rw [hnone.mp hempty]
    subst hempty
    refine ⟨?_, rfl, rfl⟩
    simp only [SessionChanges.apply_empty, ite_self, List.map_id']
  · obtain ⟨next, hstatement, h⟩ := bind_ok h
    obtain rfl := statement_ok hstatement
    obtain ⟨rows, hupdate, h⟩ := bind_ok h
    obtain rfl := Except.ok.inj h
    rw [Bool.eq_true_of_not_eq_false (mt hnone.mpr hempty)]
    unfold updateSession at hupdate
    split_ifs at hupdate with hany
    exact ⟨(Except.ok.inj hupdate).symm, rfl, rfl⟩

theorem Progress.step (hcipher : cipher.Lawful) (hkeys : (sessions.map sessionKey).Nodup) (hrow : row ∈ sessions)
    (hlegacy : isLegacy row = true) (hnew : sessionKey row ∉ done.map sessionKey) (h : Progress cipher sessions done s)
    (hstep : encryptLegacyRow cipher run row s = .ok s') : Progress cipher sessions (done ++ [row]) s' := by
  obtain ⟨changes, hmigrated, hsessions, hvisited, hcount⟩ := encryptLegacyRow_ok hcipher hlegacy hstep
  obtain ⟨f, htable, hsame, huntouched, hdone⟩ := h.table
  refine ⟨⟨Function.update f row (changes.apply row), ?_, ?_, ?_, ?_⟩, ?_, ?_⟩
  · rw [hsessions, htable, List.map_map]
    apply List.map_congr_left
    intro stored hstored
    simp only [Function.comp_apply, (hsame stored).key.1]
    by_cases hkey : sessionKey stored = sessionKey row
    · obtain rfl := List.inj_on_of_nodup_map hkeys hstored hrow hkey
      rw [if_pos rfl, Function.update_self, huntouched stored hnew]
    · have hne : stored ≠ row := fun heq => hkey (congrArg sessionKey heq)
      rw [if_neg hkey, Function.update_of_ne hne]
  · intro other
    by_cases hother : other = row
    · rw [hother, Function.update_self]
      exact hmigrated.frame
    · rw [Function.update_of_ne hother]
      exact hsame other
  · intro other hother
    rw [List.map_append, List.mem_append, not_or, List.map_singleton, List.mem_singleton] at hother
    rw [Function.update_of_ne (fun heq => hother.2 (congrArg sessionKey heq))]
    exact huntouched other hother.1
  · intro other hother
    rcases List.mem_append.mp hother with hother | hother
    · have hne : other ≠ row := fun heq => hnew (heq ▸ List.mem_map_of_mem hother)
      rw [Function.update_of_ne hne]
      exact hdone other hother
    · rw [List.mem_singleton.mp hother, Function.update_self]
      exact hmigrated
  · rw [hvisited, h.visited, List.map_append, List.map_singleton]
  · rw [hcount, h.migrated, List.countP_append, List.countP_singleton]

theorem Progress.nil (cipher : KeyCipher) (sessions : List ResponseSession) :
    Progress cipher sessions [] { sessions := sessions } :=
  ⟨⟨id, (List.map_id sessions).symm, fun _ => rfl, fun _ _ => rfl, fun _ h => nomatch h⟩, rfl, rfl⟩

def legacyRows (run : MigrationRun collation) (sessions : List ResponseSession) : List ResponseSession :=
  run.listing 0 (sessions.filter isLegacy)

theorem mem_legacyRows : row ∈ legacyRows run sessions ↔ row ∈ sessions ∧ isLegacy row = true := by
  rw [legacyRows, (run.perm 0 _).mem_iff, List.mem_filter]

theorem legacyRows_nodup (run : MigrationRun collation) (hkeys : (sessions.map sessionKey).Nodup) :
    ((legacyRows run sessions).map sessionKey).Nodup := by
  rw [legacyRows, ((run.perm 0 _).map sessionKey).nodup_iff]
  exact hkeys.sublist (List.filter_sublist.map _)

theorem not_mem_done {rest : List ResponseSession} (hnodup : ((done ++ row :: rest).map sessionKey).Nodup) :
    sessionKey row ∉ done.map sessionKey := by
  rw [List.map_append, List.map_cons] at hnodup
  intro hmem
  exact (List.nodup_append.mp hnodup).2.2 _ hmem _ List.mem_cons_self rfl

theorem collation_antisymm (a b : String × String) (h : collation.keyLe a b) (h' : collation.keyLe b a) : a = b := by
  have hfirst := collation.antisymm _ _ h.1 h'.1
  exact Prod.ext hfirst (collation.antisymm _ _ (h.2 hfirst) (h'.2 hfirst.symm))

theorem legacyPage_steady (cipher : KeyCipher) (run : MigrationRun collation)
    (hkeys : (sessions.map sessionKey).Nodup) :
    Steady (legacyPage run) (Progress cipher sessions) (legacyRows run sessions) legacyResponseBatch := by
  intro done rest s read s' hrows hdone hpage
  obtain ⟨next, hstatement, hread⟩ := bind_ok hpage
  obtain rfl := statement_ok hstatement
  obtain ⟨rfl, rfl⟩ := Prod.mk.inj (Except.ok.inj hread)
  refine ⟨?_, hdone.table, hdone.visited, hdone.migrated⟩
  obtain ⟨f, htable, hsame, huntouched, -⟩ := hdone.table
  have hnodup := legacyRows_nodup run hkeys
  have hfilter : s.sessions.filter isLegacy = (sessions.filter isLegacy).map f := by
    rw [htable, List.filter_map]
    congr 1
    apply List.filter_congr
    intro row _
    exact (hsame row).key.2
  have hlisting : run.listing s.statements (s.sessions.filter isLegacy) = (legacyRows run sessions).map f := by
    refine listing_map collation_antisymm (fun row => (hsame row).key.1) ?_ (run.perm 0 _) ?_ (run.ordered 0 _)
      (run.ordered _ _)
    · exact hkeys.sublist (List.filter_sublist.map _)
    · rw [hfilter]
      exact run.perm _ _
  have hrest : rest.map f = rest := by
    apply Json.map_eq_self_iff.mpr
    intro row hrow
    obtain ⟨front, back, rfl⟩ := List.append_of_mem hrow
    apply huntouched
    rw [← hrows, ← List.append_assoc] at hnodup
    intro hmem
    apply not_mem_done hnodup
    rw [List.map_append]
    exact List.mem_append_left _ hmem
  rw [hlisting, ← hrows, List.map_append, List.drop_append_of_le_length (by simp), List.drop_of_length_le (by simp),
    List.nil_append, hrest]

theorem encryptLegacyRow_keeps (hcipher : cipher.Lawful) (run : MigrationRun collation)
    (hkeys : (sessions.map sessionKey).Nodup) :
    Keeps (encryptLegacyRow cipher run) (Progress cipher sessions) (legacyRows run sessions) := by
  intro done row rest s s' hrows hdone hstep
  have hmem : row ∈ legacyRows run sessions := by
    rw [← hrows]
    exact List.mem_append_right _ List.mem_cons_self
  obtain ⟨hrow, hlegacy⟩ := mem_legacyRows.mp hmem
  have hnodup := legacyRows_nodup run hkeys
  rw [← hrows] at hnodup
  exact hdone.step hcipher hkeys hrow hlegacy (not_mem_done hnodup) hstep

structure Undisturbed (cipher : KeyCipher) (run : MigrationRun collation) : Prop where
  statements : ∀ statement, run.fault statement = none
  encrypts : ∀ nonce text, ∃ ciphertext, cipher.encrypt nonce text = .ok ciphertext

theorem Undisturbed.statement (h : Undisturbed cipher run) (s : Migration) :
    LegacySessions.statement run s = .ok { s with statements := s.statements + 1 } := by
  unfold LegacySessions.statement
  rw [h.statements]

theorem Undisturbed.changes (h : Undisturbed cipher run) (nonces : RowNonces) (row : ResponseSession) :
    ∃ changes, legacyChanges cipher nonces row = .ok changes := by
  have hvalue (nonce : ℕ) (value : String) : ∃ change, encryptLegacyValue cipher nonce value = .ok change := by
    obtain ⟨ciphertext, hencrypt⟩ := h.encrypts nonce value
    unfold encryptLegacyValue encryptSessionValue
    rw [hencrypt]
    split_ifs
    · exact ⟨none, rfl⟩
    · exact ⟨_, rfl⟩
  have hoptional (nonce : ℕ) (value : Option String) :
      ∃ change, encryptOptionalLegacyValue cipher nonce value = .ok change := by
    unfold encryptOptionalLegacyValue encryptSessionValue
    split
    next value _ =>
      obtain ⟨ciphertext, hencrypt⟩ := h.encrypts nonce value
      rw [hencrypt]
      exact ⟨_, rfl⟩
    next => exact ⟨none, rfl⟩
  obtain ⟨input, hinput⟩ := hvalue nonces.input row.inputMessagesJson
  obtain ⟨output, houtput⟩ := hvalue nonces.output row.outputItemsJson
  obtain ⟨request, hrequest⟩ := hoptional nonces.request row.requestItemsJson
  obtain ⟨response, hresponse⟩ := hoptional nonces.response row.responseItemsJson
  refine ⟨⟨input, output, request, response⟩, ?_⟩
  rw [legacyChanges, hinput, houtput, hrequest, hresponse]
  rfl

theorem Undisturbed.passes (h : Undisturbed cipher run) (hrow : row ∈ sessions)
    (hdone : Progress cipher sessions done s) :
    ∃ s', encryptLegacyRow cipher run row s = .ok s' := by
  obtain ⟨changes, hchanges⟩ := h.changes (run.nonces s.visited.length) row
  obtain ⟨f, htable, hsame, -⟩ := hdone.table
  have hany : s.sessions.any (fun stored => sessionKey stored = sessionKey row) = true := by
    rw [htable, List.any_map, List.any_eq_true]
    exact ⟨row, hrow, by simp [(hsame row).key.1]⟩
  unfold encryptLegacyRow
  rw [hchanges]
  change ∃ s', (if changes = {} then _ else _) = _
  split_ifs
  · exact ⟨_, rfl⟩
  · rw [h.statement]
    change ∃ s', (updateSession _ _ s.sessions >>= _) = _
    rw [updateSession, if_pos hany]
    exact ⟨_, rfl⟩

end run

section marking

def markingCipher : KeyCipher where
  encrypt _ text := .ok ("x" ++ text)
  decrypt value := match Str.stripPrefix "x" value with
    | some text => .ok text
    | none => .error (.crypto "stored ciphertext is not Base64")

theorem markingCipher_lawful : markingCipher.Lawful := by
  rintro nonce text ciphertext h
  obtain rfl := Except.ok.inj h
  simp only [markingCipher, stripPrefix_append]

def byteOrder : Collation := ⟨(· ≤ ·), fun _ _ => le_antisymm⟩

instance (a b : String × String) : Decidable (byteOrder.keyLe a b) :=
  inferInstanceAs (Decidable (a.1 ≤ b.1 ∧ (a.1 = b.1 → a.2 ≤ b.2)))

theorem byteOrder_iff (a b : String × String) : byteOrder.keyLe a b ↔ toLex a ≤ toLex b := by
  rw [Prod.Lex.le_iff]
  change a.1 ≤ b.1 ∧ (a.1 = b.1 → a.2 ≤ b.2) ↔ a.1 < b.1 ∨ a.1 = b.1 ∧ a.2 ≤ b.2
  constructor
  · rintro ⟨hle, hsecond⟩
    rcases lt_or_eq_of_le hle with hlt | heq
    · exact .inl hlt
    · exact .inr ⟨heq, hsecond heq⟩
  · rintro (hlt | ⟨heq, hle⟩)
    · exact ⟨hlt.le, fun heq => absurd heq hlt.ne⟩
    · exact ⟨heq.le, fun _ => hle⟩

def interrupted : MigrationRun byteOrder where
  nonces n := ⟨4 * n, 4 * n + 1, 4 * n + 2, 4 * n + 3⟩
  fault statement := if statement = 1 then some (.database .recordNotUpdated) else none
  listing _ rows := rows.mergeSort (fun a b => byteOrder.keyLe (sessionKey a) (sessionKey b))
  perm _ rows := List.mergeSort_perm rows _
  ordered _ rows := by
    have h : (rows.mergeSort (fun a b => byteOrder.keyLe (sessionKey a) (sessionKey b))).Pairwise
        (fun a b => decide (byteOrder.keyLe (sessionKey a) (sessionKey b)) = true) := by
      apply List.pairwise_mergeSort
      · intro a b c
        simp only [decide_eq_true_eq, byteOrder_iff]
        exact le_trans
      · intro a b
        simp only [Bool.or_eq_true, decide_eq_true_eq, byteOrder_iff]
        exact le_total _ _
    simpa only [decide_eq_true_eq] using h

def mixedRow : ResponseSession where
  responseId := "resp_legacy_plain"
  identityId := "identity"
  previousResponseId := none
  conversationId := none
  providerId := "provider"
  model := "model-legacy"
  status := "legacy"
  protocolFormat := "legacy_internal_v1"
  upstreamResponseId := none
  requestItemsJson := none
  responseItemsJson := some "[1]"
  expiresAt := none
  inputMessagesJson := "[2]"
  outputItemsJson := "enc:v1:x[3]"
  createdAt := 0

/-- Two rows to migrate with one between them that is no legacy row. -/
def mixedRows : List ResponseSession :=
  [mixedRow, { mixedRow with responseId := "resp_new", protocolFormat := "responses_v1" },
    { mixedRow with responseId := "resp_old", outputItemsJson := "[3]" }]

def calm : MigrationRun byteOrder :=
  { interrupted with fault := fun _ => none }

theorem calm_undisturbed : Undisturbed markingCipher calm :=
  ⟨fun _ => rfl, fun _ text => ⟨"x" ++ text, rfl⟩⟩

end marking

section outcome

variable {collation : Collation} {cipher : KeyCipher} {sessions middle final : List ResponseSession}

/-- The run ends, with the table and the answer `result`, however much fuel it is given beyond some amount. -/
def Returns (cipher : KeyCipher) (run : MigrationRun collation) (sessions : List ResponseSession) (s : Migration)
    (result : Except StorageError ℕ) : Prop :=
  ∃ least, ∀ fuel, least ≤ fuel → encryptLegacyResponseSessions cipher run fuel sessions = some (s, result)

def Touched (cipher : KeyCipher) (sessions final : List ResponseSession) : Prop :=
  List.Forall₂ (fun row row' => row' = row ∨ Migrated cipher row row') sessions final

def Completed (cipher : KeyCipher) (sessions final : List ResponseSession) : Prop :=
  List.Forall₂ (fun row row' => if isLegacy row then Migrated cipher row row' else row' = row) sessions final

theorem forall_trans {α : Type} {P Q R : α → α → Prop} (h : ∀ a b c, P a b → Q b c → R a c) {xs ys zs : List α}
    (hxy : List.Forall₂ P xs ys) (hyz : List.Forall₂ Q ys zs) : List.Forall₂ R xs zs := by
  induction hxy generalizing zs with
  | nil =>
    cases hyz
    exact .nil
  | cons hab _ ih =>
    cases hyz with
    | cons hbc hrest => exact .cons (h _ _ _ hab hbc) (ih hrest)

theorem Touched.keys (h : Touched cipher sessions final) : final.map sessionKey = sessions.map sessionKey := by
  induction h with
  | nil => rfl
  | cons hrow _ ih =>
    rw [List.map_cons, List.map_cons, ih]
    rcases hrow with rfl | hrow
    · rfl
    · rw [hrow.frame.key.1]

theorem Touched.trans (h : Touched cipher sessions middle) (h' : Touched cipher middle final) :
    Touched cipher sessions final := by
  refine forall_trans (fun row row' row'' hrow hrow' => ?_) h h'
  rcases hrow with rfl | hrow
  · exact hrow'
  · rcases hrow' with rfl | hrow'
    · exact .inr hrow
    · exact .inr (hrow.trans hrow')

theorem Touched.completed (h : Touched cipher sessions middle) (h' : Completed cipher middle final) :
    Completed cipher sessions final := by
  refine forall_trans (fun row row' row'' hrow hrow' => ?_) h h'
  rcases hrow with rfl | hrow
  · exact hrow'
  · rw [hrow.frame.key.2, if_pos hrow.legacy] at hrow'
    rw [if_pos hrow.legacy]
    exact hrow.trans hrow'

theorem Completed.sealed (h : Completed cipher sessions final) :
    ∀ row ∈ final, isLegacy row = true → hasPlaintext row = false := by
  induction h with
  | nil => exact fun _ h => nomatch h
  | @cons row row' rows rows' hrow _ ih =>
    intro other hother hlegacy
    rcases List.mem_cons.mp hother with rfl | hother
    · split_ifs at hrow with hold
      · exact hrow.sealed
      · rw [hrow] at hlegacy
        exact absurd hlegacy hold
    · exact ih other hother hlegacy

theorem Touched.unchanged (h : Touched cipher sessions final)
    (hsealed : ∀ row ∈ sessions, isLegacy row = true → hasPlaintext row = false) : final = sessions := by
  induction h with
  | nil => rfl
  | @cons row row' rows rows' hrow _ ih =>
    have hfirst : row' = row := by
      rcases hrow with hrow | hrow
      · exact hrow
      · exact hrow.kept (hsealed row List.mem_cons_self hrow.legacy)
    rw [hfirst, ih (fun other hother => hsealed other (List.mem_cons_of_mem row hother))]

structure Outcome (cipher : KeyCipher) (run : MigrationRun collation) (sessions : List ResponseSession) (s : Migration)
    (result : Except StorageError ℕ) : Prop where
  returns : Returns cipher run sessions s result
  touched : Touched cipher sessions s.sessions
  completed : ∀ n, result = .ok n → Completed cipher sessions s.sessions
  visited : ∀ n, result = .ok n → s.visited.Perm ((sessions.filter isLegacy).map sessionKey)
  count : ∀ n, result = .ok n → n = (sessions.filter isLegacy).countP hasPlaintext
  succeeds : Undisturbed cipher run → ∃ n, result = .ok n

theorem exists_outcome (hcipher : cipher.Lawful) (hkeys : (sessions.map sessionKey).Nodup)
    (run : MigrationRun collation) : ∃ s result, Outcome cipher run sessions s result := by
  obtain ⟨⟨s, result⟩, hrun, done, rest, hrows, hdone, hended, hfailed⟩ :=
    paged_passed (by decide) (legacyPage_steady cipher run hkeys) (encryptLegacyRow_keeps hcipher run hkeys)
      (Progress.nil cipher sessions)
  obtain ⟨f, htable, -, huntouched, hmigrated⟩ := hdone.table
  have hall {n : ℕ} (hok : result.map (fun _ => s.migrated) = .ok n) :
      done = legacyRows run sessions ∧ s.migrated = n := by
    cases hresult : result with
    | error error => rw [hresult] at hok; exact nomatch hok
    | ok _ =>
      rw [hresult] at hok
      rw [hended hresult, List.append_nil] at hrows
      exact ⟨hrows, Except.ok.inj hok⟩
  have hunread {row : ResponseSession} (hrow : row ∈ sessions) (hnot : row ∉ done) : f row = row := by
    apply huntouched
    intro hkey
    obtain ⟨other, hother, hsame⟩ := List.mem_map.mp hkey
    have hmem := (mem_legacyRows.mp (hrows ▸ List.mem_append_left rest hother)).1
    exact hnot (List.inj_on_of_nodup_map hkeys hmem hrow hsame ▸ hother)
  refine ⟨s, result.map (fun _ => s.migrated), ⟨(legacyRows run sessions).length + 1, fun fuel hfuel => ?_⟩, ?_,
    fun n hok => ?_, fun n hok => ?_, fun n hok => ?_, fun hquiet => ?_⟩
  · rw [encryptLegacyResponseSessions, hrun fuel hfuel]
    rfl
  · rw [Touched, htable, List.forall₂_map_right_iff, List.forall₂_same]
    intro row hrow
    by_cases hmem : row ∈ done
    · exact .inr (hmigrated row hmem)
    · exact .inl (hunread hrow hmem)
  · rw [Completed, htable, List.forall₂_map_right_iff, List.forall₂_same]
    intro row hrow
    have hdoneIff : row ∈ done ↔ isLegacy row = true := by
      rw [(hall hok).1, mem_legacyRows]
      exact and_iff_right hrow
    split_ifs with hlegacy
    · exact hmigrated row (hdoneIff.mpr hlegacy)
    · exact hunread hrow (mt hdoneIff.mp hlegacy)
  · rw [hdone.visited, (hall hok).1]
    exact (run.perm 0 _).map sessionKey
  · rw [← (hall hok).2, hdone.migrated, (hall hok).1]
    exact (run.perm 0 _).countP_eq _
  · cases result with
    | ok _ => exact ⟨s.migrated, rfl⟩
    | error error =>
      -- Neither the page nor the row at which the loop would have stopped can fail.
      rcases hfailed error rfl with hpage | ⟨row, hhead, hrow⟩
      · rw [legacyPage, hquiet.statement] at hpage
        exact nomatch hpage
      · have hmem : row ∈ legacyRows run sessions := by
          rw [← hrows]
          exact List.mem_append_right _ (List.mem_of_mem_head? hhead)
        obtain ⟨next, hnext⟩ := hquiet.passes (mem_legacyRows.mp hmem).1 hdone
        rw [hnext] at hrow
        exact nomatch hrow

theorem Returns.unique {run : MigrationRun collation} {s s' : Migration} {result result' : Except StorageError ℕ}
    (h : Returns cipher run sessions s result) (h' : Returns cipher run sessions s' result') :
    s = s' ∧ result = result' := by
  obtain ⟨least, h⟩ := h
  obtain ⟨least', h'⟩ := h'
  have heq := (h (max least least') (le_max_left _ _)).symm.trans (h' (max least least') (le_max_right _ _))
  exact Prod.mk.inj (Option.some.inj heq)

inductive Reached (collation : Collation) (cipher : KeyCipher) (sessions : List ResponseSession) :
    List ResponseSession → Prop
  | start : Reached collation cipher sessions sessions
  | attempt {middle : List ResponseSession} {run : MigrationRun collation} {s : Migration}
      {result : Except StorageError ℕ} : Reached collation cipher sessions middle → Returns cipher run middle s result →
      Reached collation cipher sessions s.sessions

theorem Reached.touched (hcipher : cipher.Lawful) (hkeys : (sessions.map sessionKey).Nodup)
    (h : Reached collation cipher sessions middle) : Touched cipher sessions middle := by
  induction h with
  | start => exact List.forall₂_same.mpr (fun _ _ => .inl rfl)
  | @attempt middle run s result _ hreturns ih =>
    obtain ⟨s', result', houtcome⟩ := exists_outcome hcipher (ih.keys ▸ hkeys) run
    obtain ⟨rfl, -⟩ := hreturns.unique houtcome.returns
    exact ih.trans houtcome.touched

/-- Wherever earlier runs stopped, a run ends with every row untouched or migrated; one that succeeds has visited each
legacy row once and leaves all of them migrated, and then the next finds nothing to do. -/
theorem legacy_sessions_encrypted (hcipher : cipher.Lawful) (hkeys : (sessions.map sessionKey).Nodup)
    (hreached : Reached collation cipher sessions middle) (run : MigrationRun collation) :
    ∃ s result, Outcome cipher run middle s result ∧ Touched cipher sessions s.sessions ∧
      ∀ n, result = .ok n → Completed cipher sessions s.sessions ∧
        ∀ next : MigrationRun collation, ∃ s' result', Outcome cipher next s.sessions s' result' ∧
          s'.sessions = s.sessions ∧ ∀ k, result' = .ok k → k = 0 := by
  have hmiddle := hreached.touched hcipher hkeys
  obtain ⟨s, result, houtcome⟩ := exists_outcome hcipher (hmiddle.keys ▸ hkeys) run
  have htouched := hmiddle.trans houtcome.touched
  refine ⟨s, result, houtcome, htouched, fun n hok => ⟨hmiddle.completed (houtcome.completed n hok), fun next => ?_⟩⟩
  obtain ⟨s', result', hnext⟩ := exists_outcome hcipher (htouched.keys ▸ hkeys) next
  have hsealed := (houtcome.completed n hok).sealed
  refine ⟨s', result', hnext, hnext.touched.unchanged hsealed, fun k hk => ?_⟩
  rw [hnext.count k hk, List.countP_eq_zero]
  intro row hrow
  obtain ⟨hmem, hlegacy⟩ := List.mem_filter.mp hrow
  rw [hsealed row hmem hlegacy]
  exact Bool.false_ne_true

/-- The run that is interrupted at its second statement, and then one that is not. -/
theorem legacy_sessions_encrypted_mixed :
    ∃ middle, Reached byteOrder markingCipher mixedRows middle ∧ ∃ s n, Outcome markingCipher calm middle s (.ok n) ∧
      Completed markingCipher mixedRows s.sessions ∧
      ∀ next : MigrationRun byteOrder, ∃ s' result', Outcome markingCipher next s.sessions s' result' ∧
        s'.sessions = s.sessions ∧ ∀ k, result' = .ok k → k = 0 := by
  have hkeys : (mixedRows.map sessionKey).Nodup := by decide
  obtain ⟨stopped, _, hstopped, -⟩ := legacy_sessions_encrypted markingCipher_lawful hkeys .start interrupted
  have hreached : Reached byteOrder markingCipher mixedRows stopped.sessions := .attempt .start hstopped.returns
  obtain ⟨s, _, houtcome, -, hok⟩ := legacy_sessions_encrypted markingCipher_lawful hkeys hreached calm
  obtain ⟨n, rfl⟩ := houtcome.succeeds calm_undisturbed
  exact ⟨stopped.sessions, hreached, s, n, houtcome, hok n rfl⟩

end outcome

end Prelay.Store.LegacySessions
