import HarnessLabs.Core.AuditJournal
import Mathlib.Logic.Relation

/-!
# Recovery of a journal directory

What any number of an operation's writes leaves of a journal directory, and which directories a
restart accepts.

* `Intact` — the events are linked, the checkpoint binds a place among them, and a manifest seals
  the whole directory.
* `directory_recoverable_iff` — **a reached directory reopens exactly when the schemas admit its
  events and its checkpoint and no terminal checkpoint is without its manifest; and no step from
  there loses an event.**
-/

namespace HarnessLabs.Audit

open Lines List Option

/-! ## Intact directories -/

/-- The verification of linked events. -/
def verificationOf (runId evidenceClassification : String) (es : List AuditEvent) : Verification :=
  ⟨.str runId, es.map (·.eventHash), .str evidenceClassification⟩

structure Intact (host : Host) (runId evidenceClassification : String) (disk : Disk)
    (es : List AuditEvent) (c : Checkpoint) : Prop where
  named : runId ≠ ""
  classified : evidenceClassification ∈ evidenceClasses
  events : disk.events = journalText es
  linked : Linked runId evidenceClassification es
  checkpoint : disk.checkpoint = some c
  sameRun : c.runId = runId
  sameClass : c.evidenceClassification = evidenceClassification
  revision : 1 ≤ c.revision
  sequence : 1 ≤ c.sequence
  behind : c.sequence ≤ es.length
  head : c.headHash = (es.take c.sequence).getLast?.map (·.eventHash)
  started : isTimestamp host.fromIsoformat c.startedAt = true
  updated : isTimestamp host.fromIsoformat c.updatedAt = true
  paths : ∀ path ∈ disk.files.keys, path ≠ ""
  sealed : ∀ m, disk.manifest = some m → c.sequence = es.length ∧
    verifyManifest host disk (verificationOf runId evidenceClassification es) c m = .ok ()

section Writes

variable {host : Host} {runId evidenceClassification : String} {disk : Disk}
  {es : List AuditEvent} {c : Checkpoint}

theorem journalText_snoc (es : List AuditEvent) (e : AuditEvent) :
    journalText (es ++ [e]) = journalText es ++ (Json.dumps e.value ++ ['\n']) := by
  simp [journalText, writeLines]

section

variable (h : Intact host runId evidenceClassification disk es c)

include h

theorem Intact.ne_nil : es ≠ [] := by
  rintro rfl
  have hbehind := h.behind
  have hsequence := h.sequence
  simp at hbehind
  omega

theorem Intact.writeArtifact (hopen : disk.manifest = none) {path : String} (hpath : path ≠ "")
    (raw : List ℕ) :
    Intact host runId evidenceClassification (disk.write (.artifact path raw)) es c where
  named := h.named
  classified := h.classified
  events := h.events
  linked := h.linked
  checkpoint := h.checkpoint
  sameRun := h.sameRun
  sameClass := h.sameClass
  revision := h.revision
  sequence := h.sequence
  behind := h.behind
  head := h.head
  started := h.started
  updated := h.updated
  paths := by
    intro p hp
    rcases Dict.mem_keys_set.1 hp with rfl | hp
    · exact hpath
    · exact h.paths p hp
  sealed := by
    intro m hm
    rw [show (disk.write (.artifact path raw)).manifest = disk.manifest from rfl, hopen] at hm
    cases hm

theorem Intact.writeEvent (hopen : disk.manifest = none) {e : AuditEvent}
    (hlinked : Linked runId evidenceClassification (es ++ [e])) :
    Intact host runId evidenceClassification (disk.write (.event e)) (es ++ [e]) c where
  named := h.named
  classified := h.classified
  events := by
    rw [journalText_snoc, ← h.events]
    rfl
  linked := hlinked
  checkpoint := h.checkpoint
  sameRun := h.sameRun
  sameClass := h.sameClass
  revision := h.revision
  sequence := h.sequence
  behind := by
    rw [length_append]
    exact Nat.le_add_right_of_le h.behind
  head := by
    rw [take_append_of_le_length h.behind]
    exact h.head
  started := h.started
  updated := h.updated
  paths := h.paths
  sealed := by
    intro m hm
    rw [show (disk.write (.event e)).manifest = disk.manifest from rfl, hopen] at hm
    cases hm

end

/-- The checkpoint binds the head of the events. -/
structure Binds (host : Host) (runId evidenceClassification : String) (es : List AuditEvent)
    (c : Checkpoint) : Prop where
  sameRun : c.runId = runId
  sameClass : c.evidenceClassification = evidenceClassification
  revision : 1 ≤ c.revision
  sequence : c.sequence = es.length
  head : c.headHash = es.getLast?.map (·.eventHash)
  started : isTimestamp host.fromIsoformat c.startedAt = true
  updated : isTimestamp host.fromIsoformat c.updatedAt = true

section

variable (h : Intact host runId evidenceClassification disk es c)

include h

theorem Intact.writeCheckpoint (hopen : disk.manifest = none) {c' : Checkpoint}
    (hc : Binds host runId evidenceClassification es c') :
    Intact host runId evidenceClassification (disk.write (.checkpoint c')) es c' where
  named := h.named
  classified := h.classified
  events := h.events
  linked := h.linked
  checkpoint := rfl
  sameRun := hc.sameRun
  sameClass := hc.sameClass
  revision := hc.revision
  sequence := by
    rw [hc.sequence]
    exact length_pos_of_ne_nil h.ne_nil
  behind := hc.sequence.le
  head := by
    rw [hc.sequence, take_length]
    exact hc.head
  started := hc.started
  updated := hc.updated
  paths := h.paths
  sealed := by
    intro m hm
    rw [show (disk.write (.checkpoint c')).manifest = disk.manifest from rfl, hopen] at hm
    cases hm

theorem Intact.writeSummary (hopen : disk.manifest = none) (s : Json) :
    Intact host runId evidenceClassification (disk.write (.summary s)) es c :=
  { h with
    events := h.events
    checkpoint := h.checkpoint
    paths := h.paths
    sealed := by
      intro m hm
      rw [show (disk.write (.summary s)).manifest = disk.manifest from rfl, hopen] at hm
      cases hm }

theorem Intact.writeManifest {m : Manifest} (hsequence : c.sequence = es.length)
    (hm : verifyManifest host disk (verificationOf runId evidenceClassification es) c m = .ok ()) :
    Intact host runId evidenceClassification (disk.write (.manifest m)) es c :=
  { h with
    events := h.events
    checkpoint := h.checkpoint
    paths := h.paths
    sealed := by
      intro m' hm'
      cases hm'
      exact ⟨hsequence, hm⟩ }

end

end Writes

/-! ## Reopening -/

section Reopen

variable {host : Host} {runId evidenceClassification : String} {disk : Disk}
  {es : List AuditEvent} {c : Checkpoint}

/-- The schemas admit the events and the checkpoint, and the artifacts of the events are there. -/
def SchemasAdmit (host : Host) (disk : Disk) (es : List AuditEvent) (c : Checkpoint) : Prop :=
  (∀ e ∈ es, e.Admissible host.fromIsoformat ∧ e.Filed disk.files) ∧ c.status ≠ ""

/-- A terminal checkpoint has its manifest. -/
def NotTorn (disk : Disk) (c : Checkpoint) : Prop :=
  c.status ∈ terminalStatuses → disk.manifest.isSome = true

section

variable (h : Intact host runId evidenceClassification disk es c)

include h

theorem Intact.verify_eq_ok {v : Verification} :
    verifyEventJournal host.fromIsoformat disk.files disk.events = .ok v ↔
      (∀ e ∈ es, e.Admissible host.fromIsoformat ∧ e.Filed disk.files) ∧
        v = verificationOf runId evidenceClassification es := by
  rw [h.events]
  exact verifyEventJournal_eq_ok h.linked h.ne_nil

theorem Intact.head_isSha256 :
    c.headHash.any isSha256 = true := by
  have hne : es.take c.sequence ≠ [] := by
    rw [Ne, take_eq_nil_iff]
    have hsequence := h.sequence
    exact not_or.2 ⟨by omega, h.ne_nil⟩
  rw [h.head, List.getLast?_eq_some_getLast hne, map_some, any_some]
  exact isSha256_eventHash _

theorem Intact.loadCheckpoint_eq_ok {c' : Checkpoint} :
    disk.loadCheckpoint host = .ok c' ↔ c.status ≠ "" ∧ c' = c := by
  have hschema : (c.runId ≠ "" ∧ c.evidenceClassification ∈ evidenceClasses ∧ 1 ≤ c.revision ∧
      1 ≤ c.sequence ∧ c.headHash.any isSha256 ∧ c.status ≠ "") ↔ c.status ≠ "" := by
    rw [h.sameRun, h.sameClass]
    exact ⟨fun hall => hall.2.2.2.2.2, fun hstatus => ⟨h.named, h.classified, h.revision,
      h.sequence, h.head_isSha256, hstatus⟩⟩
  have hvalid : validateCheckpoint host c = .ok () ↔ c.status ≠ "" := by
    rw [validateCheckpoint, guard_eq_ok, guard_eq_ok, hschema]
    exact and_iff_left ⟨⟨h.started, h.updated⟩, rfl⟩
  rw [Disk.loadCheckpoint, h.checkpoint]
  dsimp only
  cases hresult : validateCheckpoint host c with
  | error message =>
    refine iff_of_false (fun heq => by cases heq) fun ⟨hstatus, _⟩ => ?_
    rw [hvalid.2 hstatus] at hresult
    cases hresult
  | ok u =>
    exact ⟨fun heq => ⟨hvalid.1 hresult, (Except.ok.inj heq).symm⟩, fun ⟨_, heq⟩ => by rw [heq]; rfl⟩

theorem Intact.verifyIdentity_eq_ok :
    verifyIdentity (verificationOf runId evidenceClassification es) c = .ok () := by
  rw [verifyIdentity, require_bind_eq_ok, h.sameRun, h.sameClass]
  exact ⟨rfl, require_eq_ok.2 rfl⟩

end

theorem verifyTerminal_eq_ok : verifyTerminal disk c = .ok () ↔ NotTorn disk c := require_eq_ok

theorem Intact.verifyDirectory_eq_ok (h : Intact host runId evidenceClassification disk es c)
    (hentered : SchemasAdmit host disk es c) (hwhole : disk.manifest.isSome = true) :
    verifyDirectory host disk = .ok (verificationOf runId evidenceClassification es) := by
  obtain ⟨m, hm⟩ := isSome_iff_exists.1 hwhole
  obtain ⟨hsequence, hverify⟩ := h.sealed m hm
  have hhead : c.headHash = (verificationOf runId evidenceClassification es).headHash := by
    rw [h.head, hsequence, take_length]
    exact List.getLast?_map.symm
  have hcount : c.sequence = (verificationOf runId evidenceClassification es).eventCount := by
    rw [hsequence]
    exact (length_map _).symm
  rw [verifyDirectory, bind_eq_ok]
  refine ⟨_, h.verify_eq_ok.2 ⟨hentered.1, rfl⟩, ?_⟩
  rw [bind_eq_ok]
  refine ⟨c, h.loadCheckpoint_eq_ok.2 ⟨hentered.2, rfl⟩, ?_⟩
  rw [bind_eq_ok]
  refine ⟨(), h.verifyIdentity_eq_ok, ?_⟩
  rw [bind_eq_ok]
  refine ⟨(), verifyTerminal_eq_ok.2 fun _ => hwhole, ?_⟩
  rw [require_bind_eq_ok, require_bind_eq_ok, hm]
  refine ⟨hhead, hcount, ?_⟩
  dsimp only
  rw [hverify]
  rfl

/-- **Which directories reopen.** -/
theorem Intact.checkExisting_eq_ok (h : Intact host runId evidenceClassification disk es c)
    {r : Verification × Checkpoint} : checkExisting host disk = .ok r ↔
      SchemasAdmit host disk es c ∧ NotTorn disk c ∧
        r = (verificationOf runId evidenceClassification es, c) := by
  have hplace : c.headHash = ((verificationOf runId evidenceClassification es).eventHashes.take
      c.sequence).getLast? := by
    rw [h.head]
    show _ = ((es.map (·.eventHash)).take c.sequence).getLast?
    rw [← map_take, List.getLast?_map]
  have hbehind : c.sequence ≤ (verificationOf runId evidenceClassification es).eventCount :=
    h.behind.trans (length_map _).ge
  have htail (hentered : SchemasAdmit host disk es c) :
      (if disk.manifest.isSome then (verifyDirectory host disk).bind fun _ =>
          (require (c.sequence = (verificationOf runId evidenceClassification es).eventCount)
            "finalized audit checkpoint lags its journal").map
            fun _ => (verificationOf runId evidenceClassification es, c)
        else (.ok (verificationOf runId evidenceClassification es, c) :
          Except String (Verification × Checkpoint))) =
        .ok (verificationOf runId evidenceClassification es, c) := by
    split_ifs with hwhole
    · obtain ⟨m, hm⟩ := isSome_iff_exists.1 hwhole
      have hcount : c.sequence = (verificationOf runId evidenceClassification es).eventCount :=
        (h.sealed m hm).1.trans (length_map _).symm
      rw [h.verifyDirectory_eq_ok hentered hwhole, require, if_pos hcount]
      rfl
    · rfl
  rw [checkExisting, bind_eq_ok]
  constructor
  · rintro ⟨v, hv, hrest⟩
    obtain ⟨hevents, rfl⟩ := h.verify_eq_ok.1 hv
    obtain ⟨c', hc', hrest⟩ := bind_eq_ok.1 hrest
    obtain ⟨hstatus, rfl⟩ := h.loadCheckpoint_eq_ok.1 hc'
    obtain ⟨-, -, hrest⟩ := bind_eq_ok.1 hrest
    rw [require_bind_eq_ok, require_bind_eq_ok] at hrest
    obtain ⟨-, -, hrest⟩ := hrest
    obtain ⟨_, hterminal, hrest⟩ := bind_eq_ok.1 hrest
    refine ⟨⟨hevents, hstatus⟩, verifyTerminal_eq_ok.1 hterminal, ?_⟩
    exact (Except.ok.inj ((htail ⟨hevents, hstatus⟩).symm.trans hrest)).symm
  · rintro ⟨hentered, hwhole, rfl⟩
    refine ⟨_, h.verify_eq_ok.2 ⟨hentered.1, rfl⟩, ?_⟩
    rw [bind_eq_ok]
    refine ⟨c, h.loadCheckpoint_eq_ok.2 ⟨hentered.2, rfl⟩, ?_⟩
    rw [bind_eq_ok]
    refine ⟨(), h.verifyIdentity_eq_ok, ?_⟩
    rw [require_bind_eq_ok, require_bind_eq_ok]
    refine ⟨hbehind, hplace, ?_⟩
    rw [bind_eq_ok]
    exact ⟨(), verifyTerminal_eq_ok.2 hwhole, htail hentered⟩

end Reopen

/-! ## Open journals -/

/-- The open journal knows the head of the events, and whether the directory is sealed. -/
structure Live (host : Host) (runId evidenceClassification : String) (disk : Disk)
    (es : List AuditEvent) (j : Journal) : Prop where
  sameRun : j.runId = runId
  sameClass : j.evidenceClassification = evidenceClassification
  sequence : j.sequence = es.length
  head : j.headHash = es.getLast?.map (·.eventHash)
  started : isTimestamp host.fromIsoformat j.startedAt = true
  finalized : j.finalized = disk.manifest.isSome

/-- The directory is intact behind any number of the writes. -/
def Keeps (host : Host) (runId evidenceClassification : String) (disk : Disk)
    (writes : List FileWrite) : Prop :=
  ∀ k, ∃ es c, Intact host runId evidenceClassification (disk.writeAll (writes.take k)) es c

section Operations

variable {host : Host} {runId evidenceClassification : String} {disk : Disk}
  {es : List AuditEvent} {c : Checkpoint} {j : Journal}

theorem Intact.keeps_nil (h : Intact host runId evidenceClassification disk es c) :
    Keeps host runId evidenceClassification disk [] := by
  intro k
  rw [take_nil]
  exact ⟨es, c, h⟩

theorem Intact.keeps_cons (h : Intact host runId evidenceClassification disk es c)
    {w : FileWrite} {ws : List FileWrite}
    (hws : Keeps host runId evidenceClassification (disk.write w) ws) :
    Keeps host runId evidenceClassification disk (w :: ws) := by
  intro k
  cases k with
  | zero => exact ⟨es, c, h⟩
  | succ k => exact hws k

theorem writeAll_append (disk : Disk) (ws ws' : List FileWrite) :
    disk.writeAll (ws ++ ws') = (disk.writeAll ws).writeAll ws' := foldl_append

theorem Keeps.append {ws ws' : List FileWrite}
    (hws : Keeps host runId evidenceClassification disk ws)
    (hws' : Keeps host runId evidenceClassification (disk.writeAll ws) ws') :
    Keeps host runId evidenceClassification disk (ws ++ ws') := by
  intro k
  rw [take_append, writeAll_append]
  by_cases hk : k ≤ ws.length
  · obtain ⟨es, c, h⟩ := hws k
    rw [Nat.sub_eq_zero_of_le hk, take_zero]
    exact ⟨es, c, h⟩
  · rw [take_of_length_le (Nat.le_of_not_le hk)]
    exact hws' _

theorem Live.linked_newEvent (h : Intact host runId evidenceClassification disk es c)
    (hj : Live host runId evidenceClassification disk es j) (tick : Tick host) (d : Draft) :
    Linked runId evidenceClassification (es ++ [j.newEvent tick d]) := by
  have heq : j.newEvent tick d = nextEvent runId evidenceClassification es
      { d with timestamp := tick.timestamp.1, monotonicNs := tick.monotonicNs } := by
    rw [Journal.newEvent, hj.sameRun, hj.sameClass, hj.sequence, hj.head]
    rfl
  rw [heq]
  exact h.linked.snoc _

section

variable (hj : Live host runId evidenceClassification disk es j)

include hj

theorem Live.afterEvent (e : AuditEvent) :
    Live host runId evidenceClassification (disk.write (.event e)) (es ++ [e]) (j.afterEvent e) where
  sameRun := hj.sameRun
  sameClass := hj.sameClass
  sequence := by
    rw [length_append, length_singleton, ← hj.sequence]
    rfl
  head := by
    rw [List.getLast?_concat]
    rfl
  started := hj.started
  finalized := hj.finalized

theorem Live.binds_newCheckpoint (tick : Tick host) (status : String) (state : Payload) :
    Binds host runId evidenceClassification es (j.newCheckpoint tick status state) where
  sameRun := hj.sameRun
  sameClass := hj.sameClass
  revision := Nat.le_add_left 1 j.revision
  sequence := hj.sequence
  head := hj.head
  started := hj.started
  updated := tick.timestamp.2

theorem Live.afterCheckpoint (c : Checkpoint) :
    Live host runId evidenceClassification (disk.write (.checkpoint c)) es j.afterCheckpoint where
  sameRun := hj.sameRun
  sameClass := hj.sameClass
  sequence := hj.sequence
  head := hj.head
  started := hj.started
  finalized := hj.finalized

theorem Live.afterArtifact (path : String) (raw : List ℕ) :
    Live host runId evidenceClassification (disk.write (.artifact path raw)) es
      { j with artifactNumber := j.artifactNumber + 1 } where
  sameRun := hj.sameRun
  sameClass := hj.sameClass
  sequence := hj.sequence
  head := hj.head
  started := hj.started
  finalized := hj.finalized

end

theorem ofList_append_ne {start rest : List Char} (h : start ≠ []) :
    String.ofList (start ++ rest) ≠ "" := by
  intro heq
  have hlist := congrArg String.toList heq
  rw [String.toList_ofList] at hlist
  exact h (append_eq_nil_iff.1 hlist).1

theorem artifactPath_ne (number : ℕ) (kind mediaType : String) (content : ArtifactContent) :
    artifactPath number kind mediaType content ≠ "" := by
  exact ofList_append_ne (by simp)

theorem verifyArtifact_inventory (files : Dict String (List ℕ)) :
    ∀ a ∈ artifactInventory files evidenceClassification, verifyArtifact files a.value = .ok () := by
  intro a ha
  obtain ⟨f, hf, rfl⟩ := mem_map.1 ha
  have hget : files.get? f.1 = some f.2 :=
    Dict.get?_eq_some_iff.2 ((mergeSort_perm _ _).mem_iff.1 hf)
  generalize hartifact : AuditArtifact.mk f.1 (Sha256.hexdigest f.2) f.2.length
    "application/octet-stream" evidenceClassification = a
  have hpath : a.value.get? "path" = some (.str f.1) := by
    rw [← hartifact]
    rfl
  have hsha : a.value.get? "sha256" = some (.str (Sha256.hexdigest f.2)) := by
    rw [← hartifact]
    rfl
  have hsize : a.value.get? "size_bytes" = some (.int f.2.length) := by
    rw [← hartifact]
    rfl
  simp [verifyArtifact, hpath, hsha, hsize, Json.asStr?, hget]

theorem admissible_inventory (h : Intact host runId evidenceClassification disk es c) :
    ∀ a ∈ artifactInventory disk.files evidenceClassification, a.Admissible := by
  intro a ha
  obtain ⟨f, hf, rfl⟩ := mem_map.1 ha
  refine ⟨h.paths f.1 (mem_map_of_mem ((mergeSort_perm _ _).mem_iff.1 hf)),
    isSha256_hexdigest _, ?_, h.classified⟩
  show "application/octet-stream" ≠ ""
  decide

/-- **The manifest that is written seals the directory.** -/
theorem Live.verify_newManifest (h : Intact host runId evidenceClassification disk es c)
    (hj : Live host runId evidenceClassification disk es j)
    (hterminal : c.status ∈ terminalStatuses) (tick : Tick host) (s : Json) :
    verifyManifest host (disk.write (.summary s))
      (verificationOf runId evidenceClassification es) c
      (j.newManifest disk c c.status tick.timestamp.1 s) = .ok () := by
  have hhead : j.headHash = (verificationOf runId evidenceClassification es).headHash :=
    hj.head.trans List.getLast?_map.symm
  have hcount : j.sequence = (verificationOf runId evidenceClassification es).eventCount :=
    hj.sequence.trans (length_map _).symm
  have hsealed : j.headHash.any isSha256 = true := by
    rw [hj.head, List.getLast?_eq_some_getLast h.ne_nil, map_some, any_some]
    exact isSha256_eventHash _
  have hpositive : 1 ≤ j.sequence := by
    rw [hj.sequence]
    exact length_pos_of_ne_nil h.ne_nil
  have hvalid : validateManifest host (j.newManifest disk c c.status tick.timestamp.1 s) =
      .ok () := by
    rw [validateManifest, guard_eq_ok, guard_eq_ok, guard_eq_ok]
    refine ⟨⟨?_, ?_, hterminal, hpositive, hsealed, isSha256_hexdigest _, h.revision,
      isSha256_hexdigest _, isSha256_hexdigest _⟩, ⟨hj.started, tick.timestamp.2⟩, ?_, rfl⟩
    · show j.runId ≠ ""
      rw [hj.sameRun]
      exact h.named
    · show j.evidenceClassification ∈ evidenceClasses
      rw [hj.sameClass]
      exact h.classified
    · rw [List.all_eq_true]
      intro v hv
      obtain ⟨a, ha, rfl⟩ := List.mem_map.1 hv
      refine (validArtifactDescriptor_iff a).2 (admissible_inventory h a ?_)
      exact hj.sameClass ▸ ha
  rw [verifyManifest, bind_eq_ok]
  refine ⟨(), hvalid, ?_⟩
  simp only [require_bind_eq_ok]
  refine ⟨rfl, hhead, congrArg Json.str hj.sameRun, congrArg Json.str hj.sameClass, hcount, rfl, rfl,
    rfl, ?_⟩
  rw [bind_eq_ok]
  refine ⟨(), require_eq_ok.2 rfl, ?_⟩
  rw [bind_eq_ok]
  refine ⟨(), forM_eq_ok.2 (verifyArtifact_inventory disk.files), require_eq_ok.2 rfl⟩

/-- Behind all of its writes too, with the journal that the operation leaves. -/
def Proceeds (host : Host) (runId evidenceClassification : String) (disk : Disk) (o : Outcome) :
    Prop :=
  Keeps host runId evidenceClassification disk o.writes ∧
    ∃ es c, Intact host runId evidenceClassification (disk.writeAll o.writes) es c ∧
      Live host runId evidenceClassification (disk.writeAll o.writes) es o.journal

theorem Live.proceeds_raises (h : Intact host runId evidenceClassification disk es c)
    (hj : Live host runId evidenceClassification disk es j) (message : String) :
    Proceeds host runId evidenceClassification disk (j.raises message) :=
  ⟨h.keeps_nil, es, c, h, hj⟩

theorem Live.manifest_eq_none (hj : Live host runId evidenceClassification disk es j)
    (hopen : ¬ j.finalized = true) : disk.manifest = none := by
  rw [hj.finalized] at hopen
  simpa using hopen

section

variable (h : Intact host runId evidenceClassification disk es c)
  (hj : Live host runId evidenceClassification disk es j)

include h hj

theorem Live.concludes (hopen : disk.manifest = none) (clock : ℕ → Tick host) (status : String)
    (result : Payload) (state : Option Payload) :
    let done := j.conclude clock status result state
    Keeps host runId evidenceClassification disk done.writes ∧
      done.checkpoint.status = status ∧ ∃ es',
      Intact host runId evidenceClassification (disk.writeAll done.writes) es' done.checkpoint ∧
      Live host runId evidenceClassification (disk.writeAll done.writes) es' done.journal ∧
      done.checkpoint.sequence = es'.length ∧ (disk.writeAll done.writes).manifest = none := by
  have h₁ := h.writeArtifact hopen (artifactPath_ne (j.artifactNumber + 1) "final-result"
    "application/json" (.json (.obj result.1))) (ArtifactContent.json (.obj result.1)).raw
  have hj₁ := hj.afterArtifact (artifactPath (j.artifactNumber + 1) "final-result"
    "application/json" (.json (.obj result.1))) (ArtifactContent.json (.obj result.1)).raw
  have hlinked : Linked runId evidenceClassification (es ++ [Journal.finalEvent
      { j with artifactNumber := j.artifactNumber + 1 } (clock 0) status
      (j.newArtifact "final-result" (.json (.obj result.1)) "application/json")]) :=
    hj₁.linked_newEvent h₁ (clock 0) _
  have h₂ := h₁.writeEvent hopen hlinked
  have hj₂ := hj₁.afterEvent (Journal.finalEvent
    { j with artifactNumber := j.artifactNumber + 1 } (clock 0) status
    (j.newArtifact "final-result" (.json (.obj result.1)) "application/json"))
  have hbinds := hj₂.binds_newCheckpoint (clock 1) status (Journal.finalState state)
  have h₃ := h₂.writeCheckpoint hopen hbinds
  exact ⟨h.keeps_cons (h₁.keeps_cons (h₂.keeps_cons h₃.keeps_nil)), rfl, _, h₃,
    hj₂.afterCheckpoint _, hbinds.sequence, hopen⟩

theorem Live.proceeds_finalize (clock : ℕ → Tick host) (status : String) (result : Payload)
    (state : Option Payload) :
    Proceeds host runId evidenceClassification disk
      (j.finalize clock disk status result state) := by
  rw [Journal.finalize]
  by_cases hdone : j.finalized = true
  · rw [if_pos hdone]
    exact hj.proceeds_raises h _
  rw [if_neg hdone]
  by_cases hstatus : status ∉ terminalStatuses
  · rw [if_pos hstatus]
    exact hj.proceeds_raises h _
  rw [if_neg hstatus]
  obtain ⟨hkeeps, hterminal, es', h', hj', hsequence, hopen⟩ :=
    hj.concludes h (hj.manifest_eq_none hdone) clock status result state
  dsimp only
  cases Journal.runSummary host (disk.writeAll (j.conclude clock status result state).writes).events status
      (j.conclude clock status result state).journal.startedAt (clock 2).timestamp.1 with
  | error message => exact ⟨hkeeps, es', _, h', hj'⟩
  | ok summary =>
    have hseal := hj'.verify_newManifest h'
      (by rw [hterminal]; exact not_not.1 hstatus) (clock 2) summary
    have h₁ := h'.writeSummary hopen summary
    have h₂ := h₁.writeManifest hsequence hseal
    refine ⟨hkeeps.append (h'.keeps_cons (h₁.keeps_cons h₂.keeps_nil)), es',
      (j.conclude clock status result state).checkpoint, ?_, ?_⟩
    · rw [writeAll_append]
      exact h₂
    · rw [writeAll_append]
      exact ⟨hj'.sameRun, hj'.sameClass, hj'.sequence, hj'.head, hj'.started, rfl⟩

theorem Live.proceeds_event (hopen : disk.manifest = none) (tick : Tick host) (d : Draft)
    (answer : Except String Answer) :
    Proceeds host runId evidenceClassification disk
      ⟨j.afterEvent (j.newEvent tick d), [.event (j.newEvent tick d)], answer⟩ := by
  have h₁ := h.writeEvent hopen (hj.linked_newEvent h tick d)
  exact ⟨h.keeps_cons h₁.keeps_nil, _, _, h₁, hj.afterEvent _⟩

theorem Live.proceeds_checkpoint (hopen : disk.manifest = none) (tick : Tick host)
    (status : String) (state : Payload) (answer : Except String Answer) :
    Proceeds host runId evidenceClassification disk
      ⟨j.afterCheckpoint, [.checkpoint (j.newCheckpoint tick status state)], answer⟩ := by
  have h₁ := h.writeCheckpoint hopen (hj.binds_newCheckpoint tick status state)
  exact ⟨h.keeps_cons h₁.keeps_nil, _, _, h₁, hj.afterCheckpoint _⟩

theorem Live.proceeds_transition (hopen : disk.manifest = none) (clock : ℕ → Tick host)
    (d : Draft) (status : String) (state : Payload) (answer : Except String Answer) :
    let e := j.newEvent (clock 0) d
    Proceeds host runId evidenceClassification disk
      ⟨(j.afterEvent e).afterCheckpoint, [.event e, .checkpoint
        { (j.afterEvent e).newCheckpoint (clock 1) status state with startedAt := c.startedAt }],
        answer⟩ := by
  intro e
  have h₁ := h.writeEvent hopen (hj.linked_newEvent h (clock 0) d)
  have hj₁ := hj.afterEvent e
  have hbinds := hj₁.binds_newCheckpoint (clock 1) status state
  have hbinds' : Binds host runId evidenceClassification (es ++ [e])
      { (j.afterEvent e).newCheckpoint (clock 1) status state with startedAt := c.startedAt } :=
    ⟨hbinds.sameRun, hbinds.sameClass, hbinds.revision, hbinds.sequence, hbinds.head, h.started,
      hbinds.updated⟩
  have h₂ := h₁.writeCheckpoint hopen hbinds'
  exact ⟨h.keeps_cons (h₁.keeps_cons h₂.keeps_nil), _, _, h₂, hj₁.afterCheckpoint _⟩

end

/-- The journal in memory is brought up to the directory, where it already is. -/
theorem Live.refreshed (hj : Live host runId evidenceClassification disk es j) (revision : ℕ) :
    Live host runId evidenceClassification disk es { j with
      sequence := (verificationOf runId evidenceClassification es).eventCount
      headHash := (verificationOf runId evidenceClassification es).headHash
      revision := revision } :=
  ⟨hj.sameRun, hj.sameClass, length_map _, List.getLast?_map, hj.started, hj.finalized⟩

section

variable (h : Intact host runId evidenceClassification disk es c)
  (hj : Live host runId evidenceClassification disk es j) (clock : ℕ → Tick host)

include h hj clock

theorem Live.proceeds_compareAndSwap (expectedRevision : ℤ) (expectedHeadHash : Option String)
    (status : String) (state : Payload) (eventType eventStatus : String) (payload : Payload)
    (actor : Option AuditActor) :
    Proceeds host runId evidenceClassification disk
      (j.compareAndSwap clock disk expectedRevision expectedHeadHash status state eventType
        eventStatus payload actor) := by
  have hraises := hj.proceeds_raises h
  rw [Journal.compareAndSwap]
  by_cases hnegative : expectedRevision < 0
  · rw [if_pos hnegative]
    exact hraises _
  rw [if_neg hnegative]
  by_cases hdone : j.finalized = true
  · rw [if_pos hdone]
    exact hraises _
  rw [if_neg hdone]
  cases hv : verifyEventJournal host.fromIsoformat disk.files disk.events with
  | error message => exact hraises _
  | ok v =>
    obtain ⟨_, rfl⟩ := h.verify_eq_ok.1 hv
    cases hc : disk.loadCheckpoint host with
    | error message => exact hraises _
    | ok c' =>
      obtain ⟨_, rfl⟩ := h.loadCheckpoint_eq_ok.1 hc
      dsimp only
      iterate 4
        split
        · exact hraises _
      exact (hj.refreshed c'.revision).proceeds_transition h (hj.manifest_eq_none hdone) clock _ _ _ _

/-- **The step**: an operation leaves the directory intact behind any number of its writes. -/
theorem Live.proceeds (op : Operation) :
    Proceeds host runId evidenceClassification disk (j.perform clock disk op) := by
  cases op with
  | writeArtifact kind content mediaType =>
    rw [Journal.perform]
    split_ifs with hdone
    · exact hj.proceeds_raises h _
    · have h₁ := h.writeArtifact (hj.manifest_eq_none hdone)
        (artifactPath_ne (j.artifactNumber + 1) kind mediaType content) content.raw
      exact ⟨h.keeps_cons h₁.keeps_nil, _, _, h₁, hj.afterArtifact _ _⟩
  | append d =>
    rw [Journal.perform]
    split_ifs with hdone
    · exact hj.proceeds_raises h _
    · exact hj.proceeds_event h (hj.manifest_eq_none hdone) _ _ _
  | checkpoint status state =>
    rw [Journal.perform]
    split_ifs with hdone
    · exact hj.proceeds_raises h _
    · exact hj.proceeds_checkpoint h (hj.manifest_eq_none hdone) _ _ _ _
  | mergeCheckpoint status updates =>
    rw [Journal.perform]
    split_ifs with hdone
    · exact hj.proceeds_raises h _
    · exact hj.proceeds_checkpoint h (hj.manifest_eq_none hdone) _ _ _ _
  | compareAndSwap expectedRevision expectedHeadHash status state eventType eventStatus payload
      actor =>
    exact hj.proceeds_compareAndSwap h clock _ _ _ _ _ _ _ _
  | finalize status result state => exact hj.proceeds_finalize h clock status result state

end

end Operations

/-! ## Restarts -/

section Restart

variable {host : Host} {runId evidenceClassification : String} {disk : Disk}
  {es : List AuditEvent} {c : Checkpoint}

theorem Intact.live_openedJournal (h : Intact host runId evidenceClassification disk es c)
    (actor : AuditActor) : Live host runId evidenceClassification disk es
      (openedJournal actor disk (verificationOf runId evidenceClassification es) c) where
  sameRun := h.sameRun
  sameClass := h.sameClass
  sequence := length_map _
  head := List.getLast?_map
  started := h.started
  finalized := rfl

theorem Live.proceeds_reconcile {j : Journal}
    (h : Intact host runId evidenceClassification disk es c)
    (hj : Live host runId evidenceClassification disk es j) (hopen : disk.manifest = none)
    (clock : ℕ → Tick host) :
    Proceeds host runId evidenceClassification disk (reconcile clock j c) := by
  rw [reconcile]
  generalize (c.state.set "reconciled_from_revision" (Payload.number c.revision)).set
    "reconciled_event_count" (Payload.number (j.sequence - c.sequence)) = state
  generalize Journal.plainDraft (clock 1) _ _ _ _ = d
  have h₁ := h.writeCheckpoint hopen (hj.binds_newCheckpoint (clock 0) "recovering" state)
  have hj₁ := hj.afterCheckpoint (j.newCheckpoint (clock 0) "recovering" state)
  have h₂ := h₁.writeEvent hopen (hj₁.linked_newEvent h₁ (clock 1) d)
  have hj₂ := hj₁.afterEvent (j.afterCheckpoint.newEvent (clock 1) d)
  have h₃ := h₂.writeCheckpoint hopen (hj₂.binds_newCheckpoint (clock 2) "running"
    (Payload.update (j.newCheckpoint (clock 0) "recovering" state).state Payload.empty))
  exact ⟨h.keeps_cons (h₁.keeps_cons (h₂.keeps_cons h₃.keeps_nil)), _, _, h₃,
    hj₂.afterCheckpoint _⟩

theorem Intact.openExisting_isOk (h : Intact host runId evidenceClassification disk es c)
    (clock : ℕ → Tick host) (actor : AuditActor) :
    (∃ o, openExisting clock actor disk = .ok o) ↔ SchemasAdmit host disk es c ∧ NotTorn disk c := by
  rw [openExisting]
  constructor
  · rintro ⟨o, ho⟩
    cases hr : checkExisting host disk with
    | error message =>
      rw [hr] at ho
      cases ho
    | ok r =>
      obtain ⟨hentered, hwhole, _⟩ := h.checkExisting_eq_ok.1 hr
      exact ⟨hentered, hwhole⟩
  · rintro ⟨hentered, hwhole⟩
    rw [h.checkExisting_eq_ok.2 ⟨hentered, hwhole, rfl⟩]
    exact ⟨_, rfl⟩

theorem Intact.proceeds_openExisting (h : Intact host runId evidenceClassification disk es c)
    {clock : ℕ → Tick host} {actor : AuditActor} {o : Outcome}
    (ho : openExisting clock actor disk = .ok o) :
    Proceeds host runId evidenceClassification disk o := by
  obtain ⟨hentered, hwhole⟩ := (h.openExisting_isOk clock actor).1 ⟨o, ho⟩
  rw [openExisting, h.checkExisting_eq_ok.2 ⟨hentered, hwhole, rfl⟩] at ho
  have hj := h.live_openedJournal actor
  cases ho
  show Proceeds host runId evidenceClassification disk (if c.sequence = _ then _ else _)
  by_cases hcaught : c.sequence = (verificationOf runId evidenceClassification es).eventCount
  · rw [if_pos hcaught]
    exact ⟨h.keeps_nil, es, c, h, hj⟩
  · rw [if_neg hcaught]
    refine hj.proceeds_reconcile h ?_ clock
    -- a sealed directory has nothing to reconcile
    by_contra hsealed
    obtain ⟨m, hm⟩ := ne_none_iff_exists'.1 hsealed
    exact hcaught ((h.sealed m hm).1.trans (length_map _).symm)

theorem Proceeds.keeps {o : Outcome} (h : Proceeds host runId evidenceClassification disk o) :
    Keeps host runId evidenceClassification disk o.writes := h.1

theorem Intact.keeps_recoverInterrupted (h : Intact host runId evidenceClassification disk es c)
    (clock : ℕ → Tick host) (actor : AuditActor) (reason : String) :
    Keeps host runId evidenceClassification disk
      (recoverInterrupted clock actor reason disk).writes := by
  rw [recoverInterrupted]
  cases ho : openExisting clock actor disk with
  | error message => exact h.keeps_nil
  | ok o =>
    obtain ⟨hkeeps, es', c', h', hj'⟩ := h.proceeds_openExisting ho
    dsimp only
    rw [h'.checkpoint]
    dsimp only
    by_cases hterminal : c'.status ∈ terminalStatuses
    · rw [if_pos hterminal]
      cases (disk.writeAll o.writes).manifest <;> exact hkeeps
    rw [if_neg hterminal]
    by_cases hdone : o.journal.finalized = true
    · rw [if_pos hdone]
      exact hkeeps
    rw [if_neg hdone]
    have hopen := hj'.manifest_eq_none hdone
    generalize Journal.plainDraft (clock 3) _ _ _ _ = d
    generalize (((Payload.empty.set "active_children" Payload.emptyList).set "active_sessions"
      Payload.emptyList).set "recovered_from_revision" (Payload.number c'.revision)) = state
    have h₁ := h'.writeEvent hopen (hj'.linked_newEvent h' (clock 3) d)
    have hj₁ := hj'.afterEvent (o.journal.newEvent (clock 3) d)
    have h₂ := h₁.writeCheckpoint hopen (hj₁.binds_newCheckpoint (clock 4) "interrupted" state)
    have hj₂ := hj₁.afterCheckpoint
      ((o.journal.afterEvent (o.journal.newEvent (clock 3) d)).newCheckpoint (clock 4)
        "interrupted" state)
    have hfinal := (hj₂.proceeds_finalize h₂ (fun n => clock (n + 5)) "interrupted"
      ((Payload.empty.set "status" (Payload.text "interrupted")).set "reason"
        (Payload.text reason)) none).keeps
    rw [append_assoc]
    exact hkeeps.append (Keeps.append (h'.keeps_cons (h₁.keeps_cons h₂.keeps_nil)) hfinal)

end Restart

/-! ## Runs -/

/-- A run directory and the journal that is open on it. -/
structure Site where
  disk : Disk
  journal : Option Journal

/-- The directory and the journal go on with all of an operation's writes, also where it raises. A
crash leaves the first `k` of them and no journal. -/
inductive Step (host : Host) : Site → Site → Prop
  | perform (disk : Disk) (j : Journal) (clock : ℕ → Tick host) (op : Operation) :
    Step host ⟨disk, some j⟩
      ⟨disk.writeAll (j.perform clock disk op).writes, some (j.perform clock disk op).journal⟩
  | crash (disk : Disk) (j : Journal) (clock : ℕ → Tick host) (op : Operation) (k : ℕ) :
    Step host ⟨disk, some j⟩ ⟨disk.writeAll ((j.perform clock disk op).writes.take k), none⟩
  | reopen (disk : Disk) (clock : ℕ → Tick host) (actor : AuditActor) (o : Outcome)
      (ho : openExisting clock actor disk = .ok o) :
    Step host ⟨disk, none⟩ ⟨disk.writeAll o.writes, some o.journal⟩
  | crashReopening (disk : Disk) (clock : ℕ → Tick host) (actor : AuditActor) (o : Outcome)
      (ho : openExisting clock actor disk = .ok o) (k : ℕ) :
    Step host ⟨disk, none⟩ ⟨disk.writeAll (o.writes.take k), none⟩
  | recover (disk : Disk) (clock : ℕ → Tick host) (actor : AuditActor) (reason : String) (k : ℕ) :
    Step host ⟨disk, none⟩
      ⟨disk.writeAll ((recoverInterrupted clock actor reason disk).writes.take k), none⟩

def Disk.empty : Disk := ⟨[], none, none, none, ⟨[], nodup_nil⟩⟩

/-- The new journal and its directory. -/
def newSite {host : Host} (clock : ℕ → Tick host) (actor : AuditActor)
    (runId evidenceClassification : String) : Site :=
  let o := newJournal clock actor runId evidenceClassification
  ⟨Disk.empty.writeAll o.writes, some o.journal⟩

def Reached (host : Host) (runId evidenceClassification : String) (site : Site) : Prop :=
  ∃ (clock : ℕ → Tick host) (actor : AuditActor), Relation.ReflTransGen (Step host)
    (newSite clock actor runId evidenceClassification) site

/-- `run_id must be a non-empty path-safe name`, and the classification is one of the classes. -/
def Named (runId evidenceClassification : String) : Prop :=
  (runId ≠ "" ∧ '/' ∉ runId.toList) ∧ evidenceClassification ∈ evidenceClasses

section Runs

variable {host : Host} {runId evidenceClassification : String} {site later : Site}

/-- The invariant of a run. -/
def Site.Sound (host : Host) (runId evidenceClassification : String) (site : Site) : Prop :=
  ∃ es c, Intact host runId evidenceClassification site.disk es c ∧
    ∀ j, site.journal = some j → Live host runId evidenceClassification site.disk es j

theorem Keeps.sound {disk : Disk} {writes : List FileWrite}
    (h : Keeps host runId evidenceClassification disk writes) (k : ℕ) :
    Site.Sound host runId evidenceClassification ⟨disk.writeAll (writes.take k), none⟩ := by
  obtain ⟨es, c, h⟩ := h k
  exact ⟨es, c, h, nofun⟩

theorem Proceeds.sound {disk : Disk} {o : Outcome}
    (h : Proceeds host runId evidenceClassification disk o) :
    Site.Sound host runId evidenceClassification ⟨disk.writeAll o.writes, some o.journal⟩ := by
  obtain ⟨-, es, c, h, hj⟩ := h
  exact ⟨es, c, h, fun j heq => Option.some.inj heq ▸ hj⟩

theorem Step.sound (hstep : Step host site later)
    (h : site.Sound host runId evidenceClassification) :
    later.Sound host runId evidenceClassification := by
  obtain ⟨es, c, h, hlive⟩ := h
  cases hstep with
  | perform disk j clock op => exact ((hlive j rfl).proceeds h clock op).sound
  | crash disk j clock op k => exact ((hlive j rfl).proceeds h clock op).keeps.sound k
  | reopen disk clock actor o ho => exact (h.proceeds_openExisting ho).sound
  | crashReopening disk clock actor o ho k => exact (h.proceeds_openExisting ho).keeps.sound k
  | recover disk clock actor reason k =>
    exact (h.keeps_recoverInterrupted clock actor reason).sound k

theorem sound_newSite (hnamed : Named runId evidenceClassification) (clock : ℕ → Tick host)
    (actor : AuditActor) :
    (newSite clock actor runId evidenceClassification).Sound host runId evidenceClassification := by
  obtain ⟨⟨hrun, _⟩, hclass⟩ := hnamed
  let d : Draft := Journal.plainDraft (clock 1) "run_started" "started"
    (Payload.empty.set "audit_protocol" (Payload.text auditProtocol)) actor
  obtain ⟨c, hc⟩ : ∃ c, (newSite clock actor runId evidenceClassification).disk.checkpoint =
    some c := ⟨_, rfl⟩
  refine ⟨[nextEvent runId evidenceClassification [] d], c, ?_, ?_⟩
  · cases hc
    exact
      { named := hrun
        classified := hclass
        events := (nil_append _).trans (append_nil _).symm
        linked := linked_nil.snoc d
        checkpoint := rfl
        sameRun := rfl
        sameClass := rfl
        revision := le_rfl
        sequence := le_rfl
        behind := le_rfl
        head := rfl
        started := (clock 0).timestamp.2
        updated := (clock 2).timestamp.2
        paths := nofun
        sealed := nofun }
  · intro j hj
    cases hj
    exact ⟨rfl, rfl, rfl, rfl, (clock 0).timestamp.2, rfl⟩

theorem Reached.sound (hnamed : Named runId evidenceClassification)
    (h : Reached host runId evidenceClassification site) :
    site.Sound host runId evidenceClassification := by
  obtain ⟨clock, actor, hsteps⟩ := h
  induction hsteps with
  | refl => exact sound_newSite hnamed clock actor
  | tail _ hstep ih => exact hstep.sound ih

/-- The events among the writes. -/
def appended : List FileWrite → List AuditEvent :=
  List.filterMap fun
    | .event e => some e
    | _ => none

theorem events_writeAll (disk : Disk) (writes : List FileWrite) :
    (disk.writeAll writes).events = disk.events ++ journalText (appended writes) := by
  induction writes generalizing disk with
  | nil => exact (append_nil _).symm
  | cons w writes ih =>
    rw [show disk.writeAll (w :: writes) = (disk.write w).writeAll writes from rfl, ih]
    cases w with
    | event e => simp [Disk.write, appended, journalText, writeLines]
    | _ => rfl

theorem Step.appends (hstep : Step host site later) :
    ∃ es, later.disk.events = site.disk.events ++ journalText es := by
  cases hstep <;> exact ⟨_, events_writeAll _ _⟩

theorem appends_of_steps (hsteps : Relation.ReflTransGen (Step host) site later) :
    ∃ es, later.disk.events = site.disk.events ++ journalText es := by
  induction hsteps with
  | refl => exact ⟨[], (append_nil _).symm⟩
  | tail _ hstep ih =>
    obtain ⟨es, hes⟩ := ih
    obtain ⟨es', hes'⟩ := hstep.appends
    refine ⟨es ++ es', ?_⟩
    rw [hes', hes, append_assoc]
    simp [journalText, writeLines]

theorem Intact.recoverable_iff {disk : Disk} {es : List AuditEvent} {c : Checkpoint}
    (h : Intact host runId evidenceClassification disk es c) (clock : ℕ → Tick host)
    (actor : AuditActor) (reason : String) :
    ((∃ o, openExisting clock actor disk = .ok o) ∨
      ∃ m, (recoverInterrupted clock actor reason disk).answer = .ok m) ↔
      SchemasAdmit host disk es c ∧ NotTorn disk c := by
  rw [← h.openExisting_isOk clock actor]
  refine or_iff_left_of_imp ?_
  rintro ⟨m, hm⟩
  cases ho : openExisting clock actor disk with
  | error message =>
    rw [recoverInterrupted, ho] at hm
    cases hm
  | ok o => exact ⟨o, rfl⟩

/-- **Recovery.** A reached directory is opened or repaired exactly when the schemas admit its
events and its checkpoint, and no terminal checkpoint is without its manifest. Its events are the
first events of every later directory. -/
theorem directory_recoverable_iff (hnamed : Named runId evidenceClassification)
    (h : Reached host runId evidenceClassification site) :
    ∃ es c, site.disk.events = journalText es ∧ site.disk.checkpoint = some c ∧
      (∀ (clock : ℕ → Tick host) (actor : AuditActor) (reason : String),
        ((∃ o, openExisting clock actor site.disk = .ok o) ∨
          ∃ m, (recoverInterrupted clock actor reason site.disk).answer = .ok m) ↔
          SchemasAdmit host site.disk es c ∧ NotTorn site.disk c) ∧
      ∀ later, Relation.ReflTransGen (Step host) site later →
        ∃ es', later.disk.events = journalText (es ++ es') := by
  obtain ⟨es, c, hintact, _⟩ := h.sound hnamed
  refine ⟨es, c, hintact.events, hintact.checkpoint,
    fun clock actor reason => hintact.recoverable_iff clock actor reason, ?_⟩
  intro later hsteps
  obtain ⟨es', hes'⟩ := appends_of_steps hsteps
  refine ⟨es', ?_⟩
  rw [hes', hintact.events]
  simp [journalText, writeLines]

end Runs

/-! ## A torn directory -/

def plainHost : Host := ⟨fun _ => true, fun _ _ _ _ => some .null⟩

def plainClock (n : ℕ) : Tick plainHost := ⟨⟨"2026-01-01T00:00:00Z", by decide⟩, n⟩

def controllerActor : AuditActor := ⟨"controller", "controller", none⟩

theorem directory_recoverable_iff_new :
    Named "run" "production_lifecycle" ∧
      ∃ es c, (newSite plainClock controllerActor "run" "production_lifecycle").disk.events =
          journalText es ∧
        (newSite plainClock controllerActor "run" "production_lifecycle").disk.checkpoint = some c ∧
        (∀ (clock : ℕ → Tick plainHost) (actor : AuditActor) (reason : String),
          ((∃ o, openExisting clock actor
              (newSite plainClock controllerActor "run" "production_lifecycle").disk = .ok o) ∨
            ∃ m, (recoverInterrupted clock actor reason
              (newSite plainClock controllerActor "run" "production_lifecycle").disk).answer =
                .ok m) ↔
            SchemasAdmit plainHost
              (newSite plainClock controllerActor "run" "production_lifecycle").disk es c ∧
              NotTorn (newSite plainClock controllerActor "run" "production_lifecycle").disk c) ∧
        ∀ later, Relation.ReflTransGen (Step plainHost)
            (newSite plainClock controllerActor "run" "production_lifecycle") later →
          ∃ es', later.disk.events = journalText (es ++ es') :=
  have hnamed : Named "run" "production_lifecycle" := ⟨by decide, by decide⟩
  ⟨hnamed, directory_recoverable_iff hnamed ⟨plainClock, controllerActor, .refl⟩⟩

/-- The journal that `finalize` was called on, cut behind the terminal checkpoint. -/
theorem finalize_cut (host : Host) (clock clock' : ℕ → Tick host) (actor : AuditActor)
    (runId evidenceClassification : String) (result : Payload) :
    ∃ site, Reached host runId evidenceClassification site ∧ site.journal = none ∧
      site.disk.manifest = none ∧ ∃ c, site.disk.checkpoint = some c ∧ c.status = "succeeded" := by
  have hrun := Relation.ReflTransGen.single (Step.crash
    (newSite clock actor runId evidenceClassification).disk
    (newJournal clock actor runId evidenceClassification).journal clock'
    (.finalize "succeeded" result none) 3)
  refine ⟨_, ⟨clock, actor, hrun⟩, rfl, ?_⟩
  have hwrites : ((newJournal clock actor runId evidenceClassification).journal.perform clock'
      (newSite clock actor runId evidenceClassification).disk
      (.finalize "succeeded" result none)).writes.take 3 =
      ((newJournal clock actor runId evidenceClassification).journal.conclude clock' "succeeded"
        result none).writes := by
    rw [Journal.perform, Journal.finalize, if_neg (by exact Bool.false_ne_true),
      if_neg (by decide)]
    dsimp only
    split <;> rfl
  rw [hwrites]
  exact ⟨rfl, _, rfl, rfl⟩

theorem finalize_cut_not_recoverable : ¬ ∀ (host : Host) (runId evidenceClassification : String)
    (site : Site), Named runId evidenceClassification →
      Reached host runId evidenceClassification site →
      ∀ (clock : ℕ → Tick host) (actor : AuditActor) (reason : String),
        (∃ o, openExisting clock actor site.disk = .ok o) ∨
          ∃ m, (recoverInterrupted clock actor reason site.disk).answer = .ok m := by
  intro hclaim
  obtain ⟨site, hreached, _, hmanifest, c, hc, hstatus⟩ := finalize_cut plainHost plainClock
    plainClock controllerActor "run" "production_lifecycle" Payload.empty
  have hnamed : Named "run" "production_lifecycle" := ⟨by decide, by decide⟩
  obtain ⟨es, c', hintact, _⟩ := hreached.sound hnamed
  have hwhole := ((hintact.recoverable_iff plainClock controllerActor "restart").1
    (hclaim plainHost "run" "production_lifecycle" site hnamed hreached plainClock controllerActor
      "restart")).2
  cases hc.symm.trans hintact.checkpoint
  have hterminal : c.status ∈ terminalStatuses := by
    rw [hstatus]
    decide
  have hmissing := hwhole hterminal
  rw [hmanifest] at hmissing
  exact Bool.false_ne_true hmissing

end HarnessLabs.Audit
