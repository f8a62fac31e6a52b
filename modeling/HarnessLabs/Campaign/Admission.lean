import HarnessLabs.Campaign.Driver
import HarnessLabs.Lib.Until
import HarnessLabs.PlanGraph.ConvergenceSummary

/-!
# Harvested records at the ledger

The records of a child's review ledger are normalized to findings of an audit. The harvest asks for
a file and a subject that are not empty; the ledger asks for texts that are not blank, in these two
and in every list.

* `Presentable` — no text that the normalized record carries is blank.
* `validateFinding_normalized_iff` — **the ledger accepts the normalized record exactly then.**
* `merge_keeps_valid_iff` — **a record makes no valid audit fail exactly then.**
* `harvestRecord_toJson` — which records are harvested.
-/

namespace HarnessLabs.Campaign

open List Option
open Audit (bind_eq_ok require_bind_eq_ok)
open Controller (pyStr isBlank nonBlankText)
open FeatureRun (FindingRecord)
open PlanGraph (truthy setField)
open PlanGraph.Convergence (Record AuditResult Finding field inWords findingSeverities listOf
  membersOf requireText optionalText requireTexts optionalTexts texts? validateFinding validateAudit
  validateAudit_eq_ok_iff ingestAudit)

/-! ## Fields -/

theorem isSome_withField (record : Json) (name : String) (value : Option Json) :
    (withField record name value).asMembers?.isSome = record.asMembers?.isSome := by
  cases value with
  | none => rfl
  | some value => cases record <;> rfl

variable {record auditResult merged : Json} {texts : List String} {harvested : List Json}
  {a : AuditResult}

theorem get?_setField_self (h : record.asMembers?.isSome) (name : String) (value : Json) :
    (setField record name value).get? name = some value := by
  cases record with
  | obj members => exact Json.get?_setMember_self name value members
  | _ => cases h

theorem get?_withField_ne {name other : String} (value : Option Json) (h : other ≠ name) :
    (withField record name value).get? other = record.get? other := by
  cases value with
  | none => rfl
  | some value => exact PlanGraph.get?_setField value h

theorem get?_withField_self (h : record.asMembers?.isSome) (name : String) (value : Option Json) :
    (withField record name value).get? name = value.or (record.get? name) := by
  cases value with
  | none => rfl
  | some value => exact get?_setField_self h name value

theorem bind_isOk {α β : Type} {x : Except String α} {f : α → Except String β} :
    (∃ b, (x >>= f) = .ok b) ↔ ∃ a, x = .ok a ∧ ∃ b, f a = .ok b := by
  constructor
  · intro ⟨b, h⟩
    obtain ⟨a, ha, hb⟩ := bind_eq_ok.1 h
    exact ⟨a, ha, b, hb⟩
  · intro ⟨a, ha, b, hb⟩
    exact ⟨b, bind_eq_ok.2 ⟨a, ha, hb⟩⟩

/-! ## Texts -/

theorem requireText_isOk {text message : String} :
    (∃ t, requireText (.str text) message = .ok t) ↔ isBlank text = false := by
  cases h : isBlank text <;> simp [requireText, nonBlankText, h]

theorem nonBlankText_eq_some {text read : String} :
    nonBlankText (.str text) = some read ↔ read = text ∧ isBlank text = false := by
  cases h : isBlank text
  · simp [nonBlankText, h, eq_comm]
  · simp [nonBlankText, h]

/-- A list of texts is read as it is, unless one of them is blank. -/
theorem texts?_eq_some_iff {read : List String} :
    texts? (.arr (texts.map .str)) = some read ↔
      read = texts ∧ ∀ text ∈ texts, isBlank text = false := by
  rw [texts?]
  induction texts generalizing read with
  | nil =>
    constructor
    · intro h
      exact ⟨(Option.some.inj h).symm, forall_mem_nil _⟩
    · intro h
      rw [h.1]
      rfl
  | cons text rest ih =>
    rw [map_cons, mapM_cons, forall_mem_cons]
    constructor
    · intro h
      obtain ⟨first, hfirst, hread⟩ := bind_eq_some_iff.1 h
      obtain ⟨more, hmore, hread⟩ := bind_eq_some_iff.1 hread
      obtain ⟨hfirst, htext⟩ := nonBlankText_eq_some.1 hfirst
      obtain ⟨hmore, hrest⟩ := ih.1 hmore
      rw [hfirst, hmore] at hread
      exact ⟨(Option.some.inj hread).symm, htext, hrest⟩
    · intro ⟨hread, htext, hrest⟩
      rw [nonBlankText_eq_some.2 ⟨rfl, htext⟩, ih.2 ⟨rfl, hrest⟩, hread]
      rfl

theorem requireTexts_isOk {message : String} {read : List String} :
    requireTexts (.arr (texts.map .str)) message = .ok read ↔
      read = texts ∧ ∀ text ∈ texts, isBlank text = false := by
  rw [← texts?_eq_some_iff, requireTexts]
  cases texts? (.arr (texts.map .str)) <;> simp

/-! ## Records -/

/-- `record.get("subject") or record.get("statement") or ""`. -/
def subjectOf (r : FindingRecord) : String := if r.subject ≠ "" then r.subject else r.statement

/-- The paths of a record, its file among them. -/
def pathsOf (r : FindingRecord) : List String :=
  if r.file ≠ "" ∧ r.file ∉ r.requiredPaths then r.requiredPaths ++ [r.file] else r.requiredPaths

/-- No text that the normalized record carries is blank. -/
structure Presentable (r : FindingRecord) : Prop where
  file : isBlank r.file = false
  subject : isBlank (subjectOf r) = false
  requiredPaths : ∀ path ∈ r.requiredPaths, isBlank path = false
  evidenceRefs : ∀ ref ∈ r.evidenceRefs, isBlank (pyStr ref) = false
  sourceFindingIds : ∀ id ∈ r.sourceFindingIds, isBlank id = false

/-- The fields that the harvest reads of an exported record. -/
theorem field_toJson (r : FindingRecord) :
    field r.toJson "file" = .str r.file ∧ field r.toJson "subject" = .str r.subject ∧
      field r.toJson "statement" = .str r.statement ∧
      field r.toJson "category" = .str r.category ∧
      field r.toJson "severity" = .str r.severity ∧
      field r.toJson "required_paths" = .arr (r.requiredPaths.map .str) ∧
      r.toJson.get? "requires_disposition" = some (.bool r.requiresDisposition) ∧
      field r.toJson "evidence_refs" = .arr r.evidenceRefs ∧
      field r.toJson "source_finding_ids" = .arr (r.sourceFindingIds.map .str) := by
  have hget : ∀ name value, (name, value) ∈ _ → r.toJson.get? name = some value :=
    fun _ _ => Json.get?_ofMembers (by simp)
  have hfield : ∀ name value, r.toJson.get? name = some value → field r.toJson name = value := by
    intro name value h
    rw [field, h]
    rfl
  refine ⟨hfield _ _ (hget _ _ ?_), hfield _ _ (hget _ _ ?_), hfield _ _ (hget _ _ ?_),
    hfield _ _ (hget _ _ ?_), hfield _ _ (hget _ _ ?_), hfield _ _ (hget _ _ ?_), hget _ _ ?_,
    hfield _ _ (hget _ _ ?_), hfield _ _ (hget _ _ ?_)⟩
  all_goals simp

/-- The finding that a record is normalized to. -/
def normalized (r : FindingRecord) : Json :=
  let finding := Json.ofMembers [("file", .str r.file), ("subject", .str (subjectOf r)),
    ("required_paths", .arr ((pathsOf r).map .str)), ("confidence", .null),
    ("supersedes_key", .null)]
  let finding := withField finding "statement" ((nonBlankText (.str r.statement)).map .str)
  let finding := withField finding "category" ((nonBlankText (.str r.category)).map .str)
  let finding := withField finding "severity"
    (if r.severity ∈ findingSeverities then some (.str r.severity) else none)
  let finding := withField finding "requires_disposition" (some (.bool r.requiresDisposition))
  let finding := withField finding "evidence_refs" ((someItems (.arr r.evidenceRefs)).map
    fun refs => .arr (refs.map (.str ∘ pyStr)))
  let finding := withField finding "id" (r.sourceFindingIds.head?.map .str)
  withField finding "source_finding_ids" (if r.sourceFindingIds = [] then none
    else some (.arr (r.sourceFindingIds.map .str)))

theorem strOr_str (text : String) : strOr (.str text) = text := by
  by_cases h : text = "" <;> simp [strOr, truthy, pyStr, h]

theorem map_pyStr (texts : List String) : (texts.map Json.str).map pyStr = texts := by
  rw [List.map_map]
  exact List.map_id'' (fun _ => rfl) texts

theorem someItems_str (texts : List String) :
    someItems (.arr (texts.map .str)) = if texts = [] then none else some (texts.map .str) := by
  cases texts <;> rfl

theorem normalizeHarvestedFinding_toJson (r : FindingRecord) :
    normalizeHarvestedFinding r.toJson = .ok (normalized r) := by
  obtain ⟨hfile, hsubject, hstatement, hcategory, hseverity, hpaths, hrequires, hrefs, hids⟩ :=
    field_toJson r
  rw [normalizeHarvestedFinding, hfile, hsubject, hstatement, hcategory, hseverity, hpaths,
    hrequires, hrefs, hids]
  have hsubjectOf : (if truthy (.str r.subject) then pyStr (.str r.subject)
      else strOr (.str r.statement)) = subjectOf r := by
    by_cases h : r.subject = "" <;> simp [subjectOf, truthy, pyStr, strOr_str, h]
  have hknown : inWords (.str r.severity) findingSeverities =
      .ok (decide (r.severity ∈ findingSeverities)) := rfl
  have hpathsOf : (if (if r.file ≠ "" ∧ r.file ∉ r.requiredPaths then r.requiredPaths ++ [r.file]
      else r.requiredPaths) = [] ∧ r.file ≠ "" then [r.file]
      else if r.file ≠ "" ∧ r.file ∉ r.requiredPaths then r.requiredPaths ++ [r.file]
      else r.requiredPaths) = pathsOf r := by
    rw [pathsOf, if_neg]
    intro ⟨hempty, hfile⟩
    split_ifs at hempty with hnew
    · simp at hempty
    · simp [hfile, hempty] at hnew
  rw [hsubjectOf, hknown]
  simp only [strOr_str, itemsOf, bind, Except.bind, map_pyStr, hpathsOf, someItems_str]
  have hagain : ∀ texts : List String,
      (texts.map Json.str).map (Json.str ∘ pyStr) = texts.map .str := by
    intro texts
    rw [← List.map_map, map_pyStr]
  have htruthy : ∀ b, truthy (.bool b) = b := fun _ => rfl
  have hhead : Option.map (Json.str ∘ pyStr) ((if r.sourceFindingIds = [] then none
      else some (r.sourceFindingIds.map Json.str)).bind fun ids => ids.head?) =
        r.sourceFindingIds.head?.map .str := by
    cases r.sourceFindingIds <;> rfl
  have hids : Option.map (fun ids : List Json => Json.arr (ids.map (Json.str ∘ pyStr)))
      (if r.sourceFindingIds = [] then none else some (r.sourceFindingIds.map Json.str)) =
        if r.sourceFindingIds = [] then none else some (.arr (r.sourceFindingIds.map .str)) := by
    split_ifs <;> simp only [map_none, map_some, hagain]
  simp only [hhead, hids, map_some, htruthy, decide_eq_true_eq]
  rfl

/-! ## What the ledger asks for -/

/-- The fields of a normalized record. -/
theorem get?_normalized (r : FindingRecord) :
    (normalized r).asMembers?.isSome ∧
      field (normalized r) "file" = .str r.file ∧
      field (normalized r) "subject" = .str (subjectOf r) ∧
      field (normalized r) "required_paths" = .arr ((pathsOf r).map .str) ∧
      field (normalized r) "confidence" = .null ∧ field (normalized r) "supersedes_key" = .null ∧
      field (normalized r) "id" = (r.sourceFindingIds.head?.map .str).getD .null ∧
      field (normalized r) "statement" =
        ((nonBlankText (.str r.statement)).map .str).getD .null ∧
      field (normalized r) "category" = ((nonBlankText (.str r.category)).map .str).getD .null ∧
      field (normalized r) "severity" =
        (if r.severity ∈ findingSeverities then .str r.severity else .null) ∧
      (normalized r).get? "requires_disposition" = some (.bool r.requiresDisposition) ∧
      field (normalized r) "evidence_refs" =
        (if r.evidenceRefs = [] then .null else .arr (r.evidenceRefs.map (.str ∘ pyStr))) ∧
      field (normalized r) "source_finding_ids" =
        (if r.sourceFindingIds = [] then .null else .arr (r.sourceFindingIds.map .str)) := by
  have hrefs : (someItems (.arr r.evidenceRefs)) =
      if r.evidenceRefs = [] then none else some r.evidenceRefs := by
    cases r.evidenceRefs <;> rfl
  unfold normalized
  simp only [hrefs]
  generalize hbase : Json.ofMembers [("file", .str r.file), ("subject", .str (subjectOf r)),
      ("required_paths", .arr ((pathsOf r).map .str)), ("confidence", .null),
      ("supersedes_key", .null)] = base
  have hobj : base.asMembers?.isSome := by
    rw [← hbase]
    rfl
  have hget : ∀ name value, (name, value) ∈ _ → base.get? name = some value :=
    fun _ _ hmem => hbase ▸ Json.get?_ofMembers (by simp) hmem
  have hnone : ∀ name, name ∉ ["file", "subject", "required_paths", "confidence",
      "supersedes_key"] → base.get? name = none :=
    fun _ hname => hbase ▸ Json.get?_ofMembers_eq_none (by simpa using hname)
  have hfile := hget "file" (.str r.file) (by simp)
  have hsubject := hget "subject" (.str (subjectOf r)) (by simp)
  have hpaths := hget "required_paths" (.arr ((pathsOf r).map .str)) (by simp)
  have hconfidence := hget "confidence" .null (by simp)
  have hsupersedes := hget "supersedes_key" .null (by simp)
  have hid := hnone "id" (by simp)
  have hstatement := hnone "statement" (by simp)
  have hcategory := hnone "category" (by simp)
  have hseverity := hnone "severity" (by simp)
  have hevidence := hnone "evidence_refs" (by simp)
  have hids := hnone "source_finding_ids" (by simp)
  refine ⟨?_, ?_, ?_, ?_, ?_, ?_, ?_, ?_, ?_, ?_, ?_, ?_, ?_⟩
  all_goals
    simp only [field, ne_eq, String.reduceEq, not_false_eq_true, get?_withField_ne,
      get?_withField_self, isSome_withField, hobj, hfile, hsubject, hpaths, hconfidence,
      hsupersedes, hid, hstatement, hcategory, hseverity, hevidence, hids, or_none,
      some_or, getD_some]
  all_goals split_ifs <;> rfl

theorem optionalText_filtered (text message : String) :
    optionalText (((nonBlankText (.str text)).map .str).getD .null) message =
      .ok (nonBlankText (.str text)) := by
  cases h : isBlank text <;> simp [optionalText, requireText, nonBlankText, h, Except.map]

theorem validateSeverity_known (severity : String) :
    ∃ known, PlanGraph.Convergence.validateSeverity
      (if severity ∈ findingSeverities then .str severity else .null) = .ok known := by
  by_cases h : severity ∈ findingSeverities
  · refine ⟨some severity, ?_⟩
    rw [if_pos h, PlanGraph.Convergence.validateSeverity, if_neg (by simp)]
    simp [inWords, h, Audit.require, bind, Except.bind, pure, Except.pure, Json.asStr?]
  · exact ⟨none, by rw [if_neg h]; rfl⟩

theorem optionalTexts_isOk {value : Json}
    (h : value = .null ∧ texts = [] ∨ value = .arr (texts.map .str)) (message : String) :
    (∃ read, optionalTexts value message = .ok read) ↔ ∀ text ∈ texts, isBlank text = false := by
  obtain ⟨rfl, rfl⟩ | rfl := h
  · exact iff_of_true ⟨[], rfl⟩ (forall_mem_nil _)
  · rw [optionalTexts, if_neg nofun]
    constructor
    · intro ⟨read, hread⟩
      exact (requireTexts_isOk.1 hread).2
    · intro hall
      exact ⟨texts, requireTexts_isOk.2 ⟨rfl, hall⟩⟩

theorem mem_pathsOf {r : FindingRecord} {path : String} :
    path ∈ pathsOf r ↔ path ∈ r.requiredPaths ∨ path = r.file ∧ r.file ≠ "" := by
  unfold pathsOf
  split_ifs with h
  · simp [h.1]
  · rw [not_and_or, not_not, not_not] at h
    refine ⟨.inl, fun hor => hor.elim id fun heq => ?_⟩
    exact heq.1 ▸ h.resolve_left heq.2

/-- **The ledger accepts a normalized record exactly when none of its texts is blank.** -/
theorem validateFinding_normalized_iff (r : FindingRecord) :
    (∃ f, validateFinding (normalized r) = .ok f) ↔ Presentable r := by
  obtain ⟨hobj, hfile, hsubject, hpaths, hconfidence, hsupersedes, hid, hstatement, hcategory,
    hseverity, hrequires, hrefs, hids⟩ := get?_normalized r
  have hrefsIff : ∀ message, (∃ read, optionalTexts (field (normalized r) "evidence_refs") message =
      .ok read) ↔ ∀ text ∈ r.evidenceRefs.map pyStr, isBlank text = false := by
    refine optionalTexts_isOk ?_
    rw [hrefs]
    by_cases hempty : r.evidenceRefs = [] <;> simp [hempty]
  have hidsIff : ∀ message, (∃ read, optionalTexts (field (normalized r) "source_finding_ids")
      message = .ok read) ↔ ∀ text ∈ r.sourceFindingIds, isBlank text = false := by
    refine optionalTexts_isOk ?_
    rw [hids]
    by_cases hempty : r.sourceFindingIds = [] <;> simp [hempty]
  obtain ⟨severity, hknown⟩ := validateSeverity_known r.severity
  constructor
  · intro ⟨f, hvalid⟩
    obtain ⟨⟨⟩, -, hvalid⟩ := bind_eq_ok.1 hvalid
    obtain ⟨file, hfileOk, hvalid⟩ := bind_eq_ok.1 hvalid
    obtain ⟨subject, hsubjectOk, hvalid⟩ := bind_eq_ok.1 hvalid
    obtain ⟨paths, hpathsOk, hvalid⟩ := bind_eq_ok.1 hvalid
    obtain ⟨-, hvalid⟩ := require_bind_eq_ok.1 hvalid
    obtain ⟨-, hvalid⟩ := require_bind_eq_ok.1 hvalid
    obtain ⟨_, -, hvalid⟩ := bind_eq_ok.1 hvalid
    obtain ⟨_, -, hvalid⟩ := bind_eq_ok.1 hvalid
    obtain ⟨_, -, hvalid⟩ := bind_eq_ok.1 hvalid
    obtain ⟨_, -, hvalid⟩ := bind_eq_ok.1 hvalid
    obtain ⟨_, -, hvalid⟩ := bind_eq_ok.1 hvalid
    obtain ⟨_, -, hvalid⟩ := bind_eq_ok.1 hvalid
    obtain ⟨_, -, hvalid⟩ := bind_eq_ok.1 hvalid
    obtain ⟨refs, hrefsOk, hvalid⟩ := bind_eq_ok.1 hvalid
    obtain ⟨ids, hidsOk, -⟩ := bind_eq_ok.1 hvalid
    rw [hfile] at hfileOk
    rw [hsubject] at hsubjectOk
    rw [hpaths, requireTexts_isOk] at hpathsOk
    refine ⟨requireText_isOk.1 ⟨file, hfileOk⟩, requireText_isOk.1 ⟨subject, hsubjectOk⟩,
      fun path hpath => hpathsOk.2 path (mem_pathsOf.2 (.inl hpath)), ?_,
      (hidsIff _).1 ⟨ids, hidsOk⟩⟩
    exact fun ref href => (hrefsIff _).1 ⟨refs, hrefsOk⟩ (pyStr ref) (mem_map_of_mem href)
  · intro h
    have hfileNe : r.file ≠ "" := by
      intro hempty
      have hblank := h.file
      rw [hempty] at hblank
      cases hblank
    have hmem : r.file ∈ pathsOf r := mem_pathsOf.2 (.inr ⟨rfl, hfileNe⟩)
    have hall : ∀ path ∈ pathsOf r, isBlank path = false := fun path hpath =>
      (mem_pathsOf.1 hpath).elim (h.requiredPaths path) fun heq => heq.1 ▸ h.file
    have hidOk : ∀ message, ∃ id, optionalText (field (normalized r) "id") message = .ok id := by
      intro message
      rw [hid]
      cases hids : r.sourceFindingIds with
      | nil => exact ⟨none, rfl⟩
      | cons id rest =>
        have hid : isBlank id = false :=
          h.sourceFindingIds id (hids ▸ mem_cons_self)
        exact ⟨some id, by simp [optionalText, requireText, nonBlankText, hid, Except.map]⟩
    obtain ⟨refs, hrefsOk⟩ := (hrefsIff _).2 fun text htext => by
      obtain ⟨ref, href, rfl⟩ := mem_map.1 htext
      exact h.evidenceRefs ref href
    obtain ⟨ids, hidsOk⟩ := (hidsIff _).2 h.sourceFindingIds
    obtain ⟨id, hidOk⟩ := hidOk _
    have hmapping : PlanGraph.Convergence.requireMapping (normalized r)
        "finding must be an object" = .ok () := if_pos hobj
    have htext : ∀ text message, isBlank text = false →
        requireText (.str text) message = .ok text := by
      intro text message hblank
      simp [requireText, nonBlankText, hblank]
    refine bind_isOk.2 ⟨(), hmapping, ?_⟩
    refine bind_isOk.2 ⟨r.file, by rw [hfile]; exact htext _ _ h.file, ?_⟩
    refine bind_isOk.2 ⟨subjectOf r, by rw [hsubject]; exact htext _ _ h.subject, ?_⟩
    refine bind_isOk.2 ⟨pathsOf r, by rw [hpaths]; exact requireTexts_isOk.2 ⟨rfl, hall⟩, ?_⟩
    refine bind_isOk.2 ⟨(), if_pos (ne_nil_of_mem hmem), ?_⟩
    refine bind_isOk.2 ⟨(), if_pos hmem, ?_⟩
    refine bind_isOk.2 ⟨none, by rw [hconfidence]; rfl, ?_⟩
    refine bind_isOk.2 ⟨none, by rw [hsupersedes]; rfl, ?_⟩
    refine bind_isOk.2 ⟨id, hidOk, ?_⟩
    refine bind_isOk.2 ⟨_, by rw [hstatement]; exact optionalText_filtered _ _, ?_⟩
    refine bind_isOk.2 ⟨_, by rw [hcategory]; exact optionalText_filtered _ _, ?_⟩
    refine bind_isOk.2 ⟨severity, by rw [hseverity]; exact hknown, ?_⟩
    refine bind_isOk.2 ⟨r.requiresDisposition, by rw [hrequires]; rfl, ?_⟩
    refine bind_isOk.2 ⟨refs, hrefsOk, ?_⟩
    exact bind_isOk.2 ⟨ids, hidsOk, _, rfl⟩

/-! ## What a valid audit asks for -/

theorem ownFindings_eq_ok {items : List Json} (h : listOf auditResult "findings" = .ok items) :
    ownFindings auditResult = .ok items := by
  cases hget : auditResult.get? "findings" with
  | none =>
    rw [listOf, hget] at h
    rw [ownFindings, hget]
    exact h
  | some value =>
    cases value with
    | arr xs =>
      rw [listOf, hget] at h
      rw [ownFindings, hget]
      exact h
    | _ =>
      rw [listOf, hget] at h
      cases h

/-- The findings of an audit behind the merge, and its other members. -/
theorem merged_members {items : List Json}
    (hmerge : mergeHarvest auditResult harvested = .ok merged)
    (hitems : listOf merged "findings" = .ok items) :
    ∃ front, ownFindings auditResult = .ok front ∧ items = front ++ harvested ∧
      (merged.asMembers?.isSome → auditResult.asMembers?.isSome) ∧
      ∀ name, name ≠ "findings" → merged.get? name = auditResult.get? name := by
  unfold mergeHarvest at hmerge
  split_ifs at hmerge with hempty
  · cases hmerge
    exact ⟨items, ownFindings_eq_ok hitems, by rw [hempty, append_nil], id, fun _ _ => rfl⟩
  · obtain ⟨hmapping, hmerge⟩ := require_bind_eq_ok.1 hmerge
    obtain ⟨front, hfront, hmerge⟩ := bind_eq_ok.1 hmerge
    cases hmerge
    rw [listOf, get?_setField_self hmapping] at hitems
    exact ⟨front, hfront, (Except.ok.inj hitems).symm, fun _ => hmapping,
      fun name hname => PlanGraph.get?_setField _ hname⟩

/-- The findings that are merged into a valid audit are valid. -/
theorem merged_findings (hmerge : mergeHarvest auditResult harvested = .ok merged)
    (hvalid : validateAudit merged = .ok a) {finding : Json} (hmem : finding ∈ harvested) :
    ∃ f ∈ a.findings, validateFinding finding = .ok f := by
  obtain ⟨items, hitems, hfindings⟩ := (validateAudit_eq_ok_iff.1 hvalid).findings
  obtain ⟨front, -, rfl, -, -⟩ := merged_members hmerge hitems
  exact Until.mapM_ok_mem hfindings (mem_append_right _ hmem)

theorem mapM_concat {α β : Type} {f : α → Except String β} {as : List α} {bs : List β} {a : α}
    {b : β} (has : as.mapM f = .ok bs) (ha : f a = .ok b) :
    (as ++ [a]).mapM f = .ok (bs ++ [b]) := by
  rw [mapM_append, has]
  rw [mapM_cons, ha]
  rfl

/-- One more finding that is valid leaves a valid audit valid. -/
theorem merge_concat {finding : Json} (hmerge : mergeHarvest auditResult harvested = .ok merged)
    (hvalid : validateAudit merged = .ok a) {f : Finding}
    (hfinding : validateFinding finding = .ok f) :
    ∃ again, mergeHarvest auditResult (harvested ++ [finding]) = .ok again ∧
      validateAudit again = .ok { a with findings := a.findings ++ [f] } := by
  have hfields := validateAudit_eq_ok_iff.1 hvalid
  obtain ⟨items, hitems, hfindings⟩ := hfields.findings
  obtain ⟨front, hfront, rfl, hmapping, hsame⟩ := merged_members hmerge hitems
  have hmapping := hmapping hfields.mapping
  have hother : ∀ value name, name ≠ "findings" →
      (setField auditResult "findings" value).get? name = merged.get? name := by
    intro value name hname
    rw [PlanGraph.get?_setField value hname, hsame name hname]
  refine ⟨setField auditResult "findings" (.arr (front ++ (harvested ++ [finding]))), ?_,
    validateAudit_eq_ok_iff.2 ?_⟩
  · rw [mergeHarvest, if_neg (append_ne_nil_of_right_ne_nil _ (cons_ne_nil _ _))]
    exact require_bind_eq_ok.2 ⟨hmapping, bind_eq_ok.2 ⟨front, hfront, rfl⟩⟩
  · refine ⟨?_, ?_, ⟨front ++ (harvested ++ [finding]), ?_, ?_⟩, ?_, ?_, ?_⟩
    · cases auditResult with
      | obj members => rfl
      | _ => cases hmapping
    · rw [field, hother _ _ (by decide)]
      exact hfields.digest
    · rw [listOf, get?_setField_self hmapping]
      rfl
    · rw [← append_assoc]
      exact mapM_concat hfindings hfinding
    · rw [listOf, hother _ _ (by decide)]
      exact hfields.verdicts
    · rw [listOf, hother _ _ (by decide)]
      exact hfields.confirmedGood
    · rw [membersOf, hother _ _ (by decide)]
      exact hfields.captureCoverage

/-- The ledger takes the audit with the harvested findings in it. -/
def Takes (journal : List Record) (auditResult : Json) (harvested : List Json) : Prop :=
  ∃ merged answer, mergeHarvest auditResult harvested = .ok merged ∧
    ingestAudit journal merged = .ok answer

/-- Whether the ledger takes an audit is up to its digest and its verdicts. -/
theorem ingest_isOk_of_findings {s : PlanGraph.Convergence.State}
    {answer : List Record × PlanGraph.Convergence.Summary} (h : s.ingest a = .ok answer)
    (findings : List Finding) :
    ∃ answer, s.ingest { a with findings := findings } = .ok answer := by
  obtain ⟨hdigest, -⟩ | ⟨hdigest, hknown, -⟩ := PlanGraph.Convergence.State.ingest_eq_ok h
  · exact ⟨_, if_pos hdigest⟩
  · obtain ⟨summary, hfresh⟩ := PlanGraph.Convergence.State.ingest_fresh
      (a := { a with findings := findings }) hdigest hknown
    exact ⟨_, hfresh⟩

def bareAudit : Json := .obj [("digest", .str "d1")]

/-- **A harvested record makes no audit fail exactly when none of its texts is blank.** -/
theorem merge_keeps_valid_iff (r : FindingRecord) :
    (∀ journal auditResult harvested, Takes journal auditResult harvested →
      Takes journal auditResult (harvested ++ [normalized r])) ↔ Presentable r := by
  rw [← validateFinding_normalized_iff]
  constructor
  · intro hall
    have hbare : (ingestAudit [] bareAudit).toOption.isSome = true := by decide +kernel
    cases hingest : ingestAudit [] bareAudit with
    | error message =>
      rw [hingest] at hbare
      cases hbare
    | ok answer =>
      obtain ⟨merged, answer, hmerge, htaken⟩ := hall [] bareAudit [] ⟨_, _, rfl, hingest⟩
      obtain ⟨a, hvalid, -⟩ := bind_eq_ok.1 htaken
      obtain ⟨f, -, hf⟩ := merged_findings hmerge hvalid (mem_singleton_self _)
      exact ⟨f, hf⟩
  · intro ⟨f, hf⟩ journal auditResult harvested ⟨merged, answer, hmerge, htaken⟩
    obtain ⟨a, hvalid, hrest⟩ := bind_eq_ok.1 htaken
    obtain ⟨s, hs, hingest⟩ := bind_eq_ok.1 hrest
    obtain ⟨again, hagain, hvalidAgain⟩ := merge_concat hmerge hvalid hf
    obtain ⟨answerAgain, hanswer⟩ := ingest_isOk_of_findings hingest (a.findings ++ [f])
    exact ⟨again, answerAgain, hagain,
      bind_eq_ok.2 ⟨_, hvalidAgain, bind_eq_ok.2 ⟨s, hs, hanswer⟩⟩⟩

/-! ## What is harvested of a record -/

theorem isUnrouted_toJson (r : FindingRecord) : isUnrouted r.toJson = r.isOpen := by
  have houtcome : field r.toJson "outcome" = .str r.outcome.text := by
    have hget : r.toJson.get? "outcome" = some (.str r.outcome.text) :=
      Json.get?_ofMembers (by simp) (by simp)
    rw [field, hget]
    rfl
  rw [isUnrouted, houtcome, FindingRecord.isOpen]
  cases r.outcome <;> rfl

/-- An open record with a file and a subject is harvested. -/
theorem harvestRecord_toJson (blockPath : BlockPath) (nodeId : String) (r : FindingRecord) :
    harvestRecord blockPath nodeId r.toJson =
      .ok (if r.isOpen ∧ r.file ≠ "" ∧ subjectOf r ≠ "" then [⟨normalized r, blockPath, nodeId⟩]
        else []) := by
  obtain ⟨-, hfile, hsubject, -⟩ := get?_normalized r
  rw [harvestRecord, isUnrouted_toJson, normalizeHarvestedFinding_toJson]
  change (if r.isOpen = true then
    if field (normalized r) "file" = .str "" ∨ field (normalized r) "subject" = .str "" then
      Except.ok [] else .ok [HarvestedFinding.mk (normalized r) blockPath nodeId]
    else .ok []) = _
  rw [hfile, hsubject]
  by_cases hopen : r.isOpen = true <;> by_cases hf : r.file = "" <;>
    by_cases hs : subjectOf r = "" <;> simp [hopen, hf, hs]

end HarnessLabs.Campaign
