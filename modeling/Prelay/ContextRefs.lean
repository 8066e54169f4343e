import Prelay.DraftIdentity

namespace Prelay.Rollout

open Json

/-- The event that a reference of a context stands for. -/
def resolveRef (events : Log) (ref : ℕ) : Option ConversationEvent := events.find? (fun event => event.seq = ref)

/-- A reference to an event with the type and the payload of a draft, the phase apart. -/
def Matches (env : Env) (events : Log) (draft : ContentDraft) (ref : ℕ) : Prop :=
  ∃ event, resolveRef events ref = some event ∧ event.eventType = draft.body.eventType ∧
    comparisonPayload event.payload = comparisonPayload (storedPayload env draft.body.members)

def SameContent (env : Env) (a b : ContentDraft) : Prop :=
  a.body.eventType = b.body.eventType ∧
    comparisonPayload (storedPayload env a.body.members) = comparisonPayload (storedPayload env b.body.members)

/-- Item ids that tell the truth: a known one leads to an event with the content of the draft, and the drafts of one
unknown id have one content. -/
structure KeysMatch (env : Env) (itemRefs : Std.ExtTreeMap String ℕ) (events : Log) (drafts : List ContentDraft) :
    Prop where
  known : ∀ draft ∈ drafts, ∀ (key : String) (seq : ℕ), draftKey draft.body.eventType draft = some key →
    itemRefs[key]? = some seq → Matches env events draft seq
  unknown : drafts.Pairwise (fun a b => ∀ key : String, draftKey a.body.eventType a = some key →
    draftKey b.body.eventType b = some key → itemRefs[key]? = none → SameContent env a b)

section refs

variable {env : Env} {drafts : Set ContentDraft} {log more : Log}

theorem Numbered.nodup (h : Numbered log) : (log.map ConversationEvent.seq).Nodup := by
  rw [h]
  exact List.nodup_range'

theorem resolveRef_mem (h : Numbered log) {event : ConversationEvent} (hevent : event ∈ log) :
    resolveRef log event.seq = some event := by
  unfold resolveRef
  have hnodup := h.nodup
  clear h
  induction log with
  | nil => exact nomatch hevent
  | cons head log ih =>
    rw [List.map_cons, List.nodup_cons] at hnodup
    rcases List.mem_cons.mp hevent with rfl | hmem
    · simp
    · have hne : head.seq ≠ event.seq := by
        intro heq
        exact hnodup.1 (heq ▸ List.mem_map_of_mem hmem)
      rw [List.find?_cons_of_neg (by simpa using hne)]
      exact ih hmem hnodup.2

theorem resolveRef_append {ref : ℕ} (h : ∃ event ∈ log, event.seq = ref) (more : Log) :
    resolveRef (log ++ more) ref = resolveRef log ref := by
  obtain ⟨event, hevent, hseq⟩ := h
  have hsome : (log.find? (fun event => event.seq = ref)).isSome = true := by
    rw [List.find?_isSome]
    exact ⟨event, hevent, by simpa using hseq⟩
  obtain ⟨found, hfound⟩ := Option.isSome_iff_exists.mp hsome
  simp [resolveRef, List.find?_append, hfound]

theorem matches_append {draft : ContentDraft} {ref : ℕ} (h : ∃ event ∈ log, event.seq = ref) (more : Log) :
    Matches env (log ++ more) draft ref ↔ Matches env log draft ref := by
  unfold Matches
  rw [resolveRef_append h]

theorem Matches.same {a b : ContentDraft} {ref : ℕ} (ha : Matches env log a ref) :
    Matches env log b ref ↔ SameContent env a b := by
  obtain ⟨event, hevent, htype, hpayload⟩ := ha
  constructor
  · rintro ⟨event', hevent', htype', hpayload'⟩
    obtain rfl := Option.some.inj (hevent.symm.trans hevent')
    exact ⟨htype.symm.trans htype', hpayload.symm.trans hpayload'⟩
  · rintro ⟨hsame, hcontent⟩
    exact ⟨event, hevent, htype.trans hsame, hpayload.trans hcontent⟩

theorem keysMatch_known {itemRefs itemRefs' : Std.ExtTreeMap String ℕ} {draft : ContentDraft} {rest : List ContentDraft}
    {key : String} {ref : ℕ} (hkey : draftKey draft.body.eventType draft = some key) (href : itemRefs[key]? = some ref)
    (hitems : ∀ k : String, itemRefs'[k]? = if draftKey draft.body.eventType draft = some k then some ref
      else itemRefs[k]?) :
    Matches env log draft ref ∧ KeysMatch env itemRefs' log rest ↔ KeysMatch env itemRefs log (draft :: rest) := by
  have hsame : itemRefs' = itemRefs := by
    apply Std.ExtTreeMap.ext_getElem?
    intro k
    rw [hitems]
    split_ifs with hk
    · rw [← Option.some.inj (hkey.symm.trans hk), href]
    · rfl
  rw [hsame]
  constructor
  · rintro ⟨hmatch, hknown, hunknown⟩
    refine ⟨?_, List.pairwise_cons.mpr ⟨?_, hunknown⟩⟩
    · intro d hd k seq hk hseq
      rcases List.mem_cons.mp hd with rfl | hd
      · obtain rfl := Option.some.inj (hkey.symm.trans hk)
        obtain rfl := Option.some.inj (href.symm.trans hseq)
        exact hmatch
      · exact hknown d hd k seq hk hseq
    · intro b hb k hk hbk hnone
      obtain rfl := Option.some.inj (hkey.symm.trans hk)
      rw [href] at hnone
      exact nomatch hnone
  · rintro ⟨hknown, hunknown⟩
    exact ⟨hknown draft List.mem_cons_self key ref hkey href,
      fun d hd => hknown d (List.mem_cons_of_mem _ hd), (List.pairwise_cons.mp hunknown).2⟩

theorem keysMatch_unknown {itemRefs itemRefs' : Std.ExtTreeMap String ℕ} {draft : ContentDraft}
    {rest : List ContentDraft} {ref : ℕ}
    (hkey : ∀ key : String, draftKey draft.body.eventType draft = some key → itemRefs[key]? = none)
    (hmatch : Matches env (log ++ more) draft ref)
    (hrange : ∀ (key : String) (seq : ℕ), itemRefs[key]? = some seq → ∃ event ∈ log, event.seq = seq)
    (hitems : ∀ k : String, itemRefs'[k]? = if draftKey draft.body.eventType draft = some k then some ref
      else itemRefs[k]?) :
    KeysMatch env itemRefs' (log ++ more) rest ↔ KeysMatch env itemRefs log (draft :: rest) := by
  constructor
  · rintro ⟨hknown, hunknown⟩
    have hhead : ∀ b ∈ rest, ∀ k : String, draftKey draft.body.eventType draft = some k →
        draftKey b.body.eventType b = some k → SameContent env draft b := by
      intro b hb k hk hbk
      exact hmatch.same.mp (hknown b hb k ref hbk (by rw [hitems, if_pos hk]))
    refine ⟨?_, List.pairwise_cons.mpr ⟨fun b hb k hk hbk _ => hhead b hb k hk hbk, ?_⟩⟩
    · intro d hd k seq hk hseq
      have hne : draftKey draft.body.eventType draft ≠ some k := by
        intro hdraft
        rw [hkey k hdraft] at hseq
        exact nomatch hseq
      rcases List.mem_cons.mp hd with rfl | hd
      · exact absurd hk hne
      · exact (matches_append (hrange k seq hseq) more).mp (hknown d hd k seq hk (by rw [hitems, if_neg hne, hseq]))
    · apply hunknown.imp_of_mem
      intro a b ha hb hpair k hak hbk hnone
      by_cases hk : draftKey draft.body.eventType draft = some k
      · obtain ⟨htype, hpayload⟩ := hhead a ha k hk hak
        obtain ⟨htype', hpayload'⟩ := hhead b hb k hk hbk
        exact ⟨htype.symm.trans htype', hpayload.symm.trans hpayload'⟩
      · exact hpair k hak hbk (by rw [hitems, if_neg hk, hnone])
  · rintro ⟨hknown, hunknown⟩
    obtain ⟨hhead, htail⟩ := List.pairwise_cons.mp hunknown
    refine ⟨?_, htail.imp ?_⟩
    · intro d hd k seq hk hseq
      rw [hitems] at hseq
      split_ifs at hseq with hdraft
      · obtain rfl := Option.some.inj hseq
        exact hmatch.same.mpr (hhead d hd k hdraft hk (hkey k hdraft))
      · exact (matches_append (hrange k seq hseq) more).mpr (hknown d (List.mem_cons_of_mem _ hd) k seq hk hseq)
    · intro a b hpair k hak hbk hnone
      rw [hitems] at hnone
      split_ifs at hnone with hdraft
      exact hpair k hak hbk hnone

end refs

end Prelay.Rollout
