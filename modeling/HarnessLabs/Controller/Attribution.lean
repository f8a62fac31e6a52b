import HarnessLabs.Controller.Operations
import HarnessLabs.Lib.FirstWins
import HarnessLabs.Lib.Until

/-!
# Attribution of evidence

The catalog stores a content once, under its digest, with the kind and the producer of the call
that brought it first. A later call with the same content gets that record back, and the kernel
compares the record's kind and producer with those of the task that refers to it.

* `OwnEvidence` — every caller's record is its own, and own evidence passes the kernel's checks.
* `ownEvidence_iff` — **own evidence is attributable exactly if no two accepted calls with one
  digest differ in kind, producer or content.**
-/

namespace HarnessLabs.Controller

open List Option

/-! ## Adding -/

/-- What a caller adds: bytes as they are, a text, or a JSON value. -/
inductive EvidenceContent where
  | bytes (raw : List ℕ)
  | text (s : String)
  | json (value : Json)

/-- `_encode`. -/
def EvidenceContent.encode : EvidenceContent → List ℕ
  | bytes raw => raw
  | text s => Json.utf8 s.toList
  | json value => encodeContent value

structure AddCall where
  kind : String
  content : EvidenceContent
  mediaType : String
  producerTaskId : String

namespace AddCall

/-- The metadata are not empty. -/
def accepted (c : AddCall) : Bool :=
  !(isBlank c.kind || isBlank c.mediaType || isBlank c.producerTaskId)

def raw (c : AddCall) : List ℕ := c.content.encode

def sha256 (c : AddCall) : String := Sha256.hexdigest c.raw

def ref (c : AddCall) : String := artifactRef c.sha256

/-- What the call enters if its reference is new. -/
def entry (c : AddCall) : EvidenceRecord × List ℕ :=
  (⟨c.ref, c.kind, c.sha256, c.mediaType, c.producerTaskId⟩, c.raw)

end AddCall

/-- The records with their contents, which the source keeps under the same keys. -/
abbrev EvidenceStore := Dict String (EvidenceRecord × List ℕ)

namespace EvidenceStore

/-- `EvidenceCatalog.add`. -/
def add (store : EvidenceStore) (c : AddCall) : EvidenceStore × Except String EvidenceRecord :=
  if c.accepted = false then (store, .error "evidence metadata must be non-empty")
  else
    match store.get? c.ref with
    | some existing => (store, .ok existing.1)
    | none => (store.set c.ref c.entry, .ok c.entry.1)

/-- The store behind calls on an empty one. -/
def after (calls : List AddCall) : EvidenceStore := calls.foldl (fun store c => (store.add c).1) ∅

/-- What the kernel reads, with `json.loads`. -/
def catalog (store : EvidenceStore) (loads : List ℕ → Option Json) : EvidenceCatalog where
  records := store.mapValues fun _ e => e.1
  content := store.filterMap fun _ e => loads e.2

variable {c : AddCall}

theorem fst_add (store : EvidenceStore) (c : AddCall) :
    (store.add c).1 = FirstWins.keep AddCall.accepted AddCall.ref AddCall.entry store c := by
  rw [add, FirstWins.keep, Dict.contains]
  cases c.accepted <;> cases store.get? c.ref <;> rfl

/-- An accepted call returns the record that its reference has afterwards. -/
theorem add_returns (store : EvidenceStore) (hc : c.accepted = true) :
    ∃ e, (store.add c).1.get? c.ref = some e ∧ (store.add c).2 = .ok e.1 := by
  rw [add, if_neg (by simp [hc])]
  cases hget : store.get? c.ref with
  | some existing => exact ⟨existing, hget, rfl⟩
  | none => exact ⟨c.entry, Dict.get?_set_self .., rfl⟩

theorem after_concat (calls : List AddCall) (c : AddCall) :
    after (calls ++ [c]) = ((after calls).add c).1 := by
  rw [after, foldl_append]
  rfl

theorem get?_after (calls : List AddCall) (ref : String) : (after calls).get? ref =
    (FirstWins.first AddCall.accepted AddCall.ref calls ref).map AddCall.entry := by
  rw [← FirstWins.get?_kept, after]
  congr 2
  funext store c
  exact fst_add store c

end EvidenceStore

/-! ## The claims of a caller -/

/-- The record that a caller gets carries its kind and its producer, and stands for its bytes. -/
def Attributes (calls : List AddCall) : Prop :=
  ∀ before c behind, calls = before ++ c :: behind → c.accepted = true →
    ∃ record, ((EvidenceStore.after before).add c).2 = .ok record ∧ record.kind = c.kind ∧
      record.producerTaskId = c.producerTaskId ∧
      ((EvidenceStore.after before).add c).1.get? record.ref = some (record, c.raw)

/-- The task refers to nothing but what it added, with the kinds that it gave. -/
structure RefersToOwn (calls : List AddCall) (taskId : String) (semantic : SemanticResult) :
    Prop where
  refs : ∀ ref ∈ semantic.claimRefs ++ semantic.findings.flatMap (·.evidenceRefs) ++
    semantic.criterionCoverage.flatMap (·.evidenceRefs),
    ∃ c ∈ calls, c.accepted = true ∧ c.producerTaskId = taskId ∧ ref = c.ref
  artifacts : ∀ a ∈ semantic.artifacts, ∃ c ∈ calls, c.accepted = true ∧
    c.producerTaskId = taskId ∧ a.ref = c.ref ∧ a.sha256 = c.sha256 ∧ a.kind = c.kind

/-- What the kernel asks of a result besides its evidence. -/
structure SoundBesides (s : State) (task : Task) (semantic : SemanticResult) : Prop where
  sources : ∀ id ∈ semantic.findings.flatMap (·.sourceFindingIds), s.findings.contains id = true
  promoted : ∀ f ∈ semantic.findings, s.findings.contains (task.id ++ "/" ++ f.id) = false
  coverage : ∀ item ∈ semantic.criterionCoverage, checkCoverage s task item = .ok ()

/-- Own evidence is attributed, and accepted from tasks and from the verification owner. -/
structure OwnEvidence (calls : List AddCall) : Prop where
  attributes : Attributes calls
  results : ∀ loads s (task : Task) semantic, RefersToOwn calls task.id semantic →
    SoundBesides s task semantic → s.validateResultReferences
      ((EvidenceStore.after calls).catalog loads) task semantic = .ok ()
  gates : ∀ loads, ∀ c ∈ calls, c.accepted = true → c.kind = gateVerificationEvidenceKind →
    c.producerTaskId = gateVerificationOwner → ∀ code expectPassing,
    ((loads c.raw).bind (·.get? "exit_code")).bind pyInt? = some code →
    (code = 0 ↔ expectPassing = true) → verificationOwnerEvidence
      ((EvidenceStore.after calls).catalog loads) c.ref expectPassing = .ok ()

/-- Accepted calls with one digest have the same kind, producer and content. -/
def Agree (calls : List AddCall) : Prop :=
  ∀ c ∈ calls, ∀ d ∈ calls, c.accepted = true → d.accepted = true → c.sha256 = d.sha256 →
    c.kind = d.kind ∧ c.producerTaskId = d.producerTaskId ∧ c.raw = d.raw

/-! ## Where calls agree -/

variable {calls : List AddCall} {c : AddCall}

theorem AddCall.sha256_eq {d : AddCall} (h : c.ref = d.ref) : c.sha256 = d.sha256 :=
  String.append_right_inj _ |>.1 h

theorem Agree.get?_after (h : Agree calls) (hc : c ∈ calls) (hok : c.accepted = true) :
    ∃ mediaType, (EvidenceStore.after calls).get? c.ref =
      some (⟨c.ref, c.kind, c.sha256, mediaType, c.producerTaskId⟩, c.raw) := by
  rw [EvidenceStore.get?_after]
  cases hfirst : FirstWins.first AddCall.accepted AddCall.ref calls c.ref with
  | none =>
    rw [FirstWins.first, find?_eq_none] at hfirst
    simpa [hok] using hfirst c hc
  | some d =>
    obtain ⟨hd, hdok, href⟩ := FirstWins.first_spec hfirst
    have hsha := AddCall.sha256_eq href
    obtain ⟨hkind, hproducer, hraw⟩ := h d hd c hc hdok hok hsha
    exact ⟨d.mediaType, by simp [AddCall.entry, href, hkind, hsha, hproducer, hraw]⟩

theorem Agree.attributes (h : Agree calls) : Attributes calls := by
  rintro before c behind rfl hok
  have hbefore : Agree (before ++ [c]) := fun d hd e he =>
    h d (by simp at hd ⊢; tauto) e (by simp at he ⊢; tauto)
  obtain ⟨mediaType, hget⟩ := hbefore.get?_after (by simp) hok
  obtain ⟨e, he, hreturned⟩ := EvidenceStore.add_returns (.after before) hok
  rw [EvidenceStore.after_concat, he] at hget
  cases hget
  exact ⟨_, hreturned, rfl, rfl, he⟩

theorem Agree.results (h : Agree calls) (loads : List ℕ → Option Json) {s : State} {task : Task}
    {semantic : SemanticResult} (hown : RefersToOwn calls task.id semantic)
    (hsound : SoundBesides s task semantic) : s.validateResultReferences
      ((EvidenceStore.after calls).catalog loads) task semantic = .ok () := by
  have hunits {α : Type} {l : List α} {f : α → Except String Unit} (hl : ∀ a ∈ l, f a = .ok ()) :
      l.mapM f = .ok (l.map fun _ => ()) :=
    Until.mapM_ok_iff.2 (forall₂_map_right_iff.2 (forall₂_same.2 hl))
  have hartifacts : ∀ a ∈ semantic.artifacts,
      checkArtifact ((EvidenceStore.after calls).catalog loads) task.id a = .ok () := by
    intro a ha
    obtain ⟨c, hc, hok, hproducer, href, hsha, hkind⟩ := hown.artifacts a ha
    obtain ⟨mediaType, hget⟩ := h.get?_after hc hok
    simp [checkArtifact, EvidenceStore.catalog, href, hget, hsha, hkind, hproducer]
  rw [State.validateResultReferences]
  rw [find?_eq_none.2 fun id hid => by simp [hsound.sources id hid]]
  rw [find?_eq_none.2 fun ref href => ?_, hunits hartifacts,
    find?_eq_none.2 fun f hf => by simp [hsound.promoted f hf], hunits hsound.coverage]
  obtain ⟨c, hc, hok, -, rfl⟩ := hown.refs ref href
  obtain ⟨mediaType, hget⟩ := h.get?_after hc hok
  simp [EvidenceCatalog.contains, EvidenceStore.catalog, Dict.contains, hget]

theorem Agree.gates (h : Agree calls) (loads : List ℕ → Option Json) (hc : c ∈ calls)
    (hok : c.accepted = true) (hkind : c.kind = gateVerificationEvidenceKind)
    (hproducer : c.producerTaskId = gateVerificationOwner) {code : ℤ} {expectPassing : Bool}
    (hcode : ((loads c.raw).bind (·.get? "exit_code")).bind pyInt? = some code)
    (hpassing : code = 0 ↔ expectPassing = true) : verificationOwnerEvidence
      ((EvidenceStore.after calls).catalog loads) c.ref expectPassing = .ok () := by
  obtain ⟨mediaType, hget⟩ := h.get?_after hc hok
  cases expectPassing <;>
    simp_all [verificationOwnerEvidence, EvidenceStore.catalog]

/-! ## Where they do not -/

/-- The first call with its reference has the kind, the producer and the bytes of each. -/
theorem Attributes.first (h : Attributes calls) (hc : c ∈ calls) (hok : c.accepted = true) :
    ∃ d, FirstWins.first AddCall.accepted AddCall.ref calls c.ref = some d ∧ d.kind = c.kind ∧
      d.producerTaskId = c.producerTaskId ∧ d.raw = c.raw := by
  obtain ⟨before, behind, rfl⟩ := append_of_mem hc
  obtain ⟨record, hrecord, hkind, hproducer, hraw⟩ := h before c behind rfl hok
  obtain ⟨e, he, hreturned⟩ := EvidenceStore.add_returns (.after before) hok
  rw [hreturned] at hrecord
  cases hrecord
  rw [← EvidenceStore.after_concat, EvidenceStore.get?_after] at he hraw
  obtain ⟨d, hfirst, rfl⟩ := map_eq_some_iff.1 he
  have hmore := FirstWins.first_append hfirst behind
  obtain ⟨-, -, href⟩ := FirstWins.first_spec hfirst
  rw [append_assoc, singleton_append] at hmore
  rw [show d.entry.1.ref = c.ref from href, hfirst] at hraw
  exact ⟨d, hmore, hkind, hproducer, (Prod.mk.inj (some.inj hraw)).2⟩

theorem Attributes.agree (h : Attributes calls) : Agree calls := by
  intro c hc d hd hcok hdok hsha
  obtain ⟨a, ha, hkind, hproducer, hraw⟩ := h.first hc hcok
  obtain ⟨b, hb, hkind', hproducer', hraw'⟩ := h.first hd hdok
  rw [AddCall.ref, hsha, ← AddCall.ref, hb] at ha
  cases ha
  exact ⟨hkind.symm.trans hkind', hproducer.symm.trans hproducer', hraw.symm.trans hraw'⟩

/-- **Own evidence is attributable exactly if calls with one digest agree.** -/
theorem ownEvidence_iff (calls : List AddCall) : OwnEvidence calls ↔ Agree calls :=
  ⟨fun h => h.attributes.agree, fun h => ⟨h.attributes,
    fun loads _ _ _ hown hsound => h.results loads hown hsound,
    fun loads _ hc hok hkind hproducer _ _ hcode hpassing =>
      h.gates loads hc hok hkind hproducer hcode hpassing⟩⟩

/-- Two tasks report one text, and the second one's own artifact is refused. -/
theorem same_report_refused :
    let calls : List AddCall := [⟨"report", .text "Done.\n", "text/markdown", "build"⟩,
      ⟨"report", .text "Done.\n", "text/markdown", "verify"⟩]
    ¬ OwnEvidence calls := by
  intro calls h
  obtain ⟨-, hproducer, -⟩ := h.attributes.agree _ (mem_cons_self ..) _
    (mem_cons_of_mem _ (mem_cons_self ..)) rfl rfl rfl
  exact absurd hproducer (by decide)

end HarnessLabs.Controller
