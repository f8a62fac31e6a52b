import HarnessLabs.Core.AuditRecovery

/-!
# Journals of callers that keep to the schema

An artifact never takes the path of another one, so an event that was filed stays filed. A caller
whose events the schema admits therefore has a journal that verifies, whenever it is open.

* `Step.numbered` — artifact numbers are used once.
* `Recorded.verified` — **an open journal of such a caller verifies.**
-/

namespace HarnessLabs.Audit

open Lines List

/-! ## Artifact numbers -/

theorem artifactPath_number {m n : ℕ} {kind kind' mediaType mediaType' : String}
    {content content' : ArtifactContent}
    (h : artifactPath m kind mediaType content = artifactPath n kind' mediaType' content') :
    m = n := by
  have hdash (k : ℕ) : '-' ∉ Text.padded 6 k := by
    intro hmem
    rcases mem_append.1 hmem with hzero | hdigit
    · exact absurd (eq_of_mem_replicate hzero) (by decide)
    · exact Text.notMem_toDigits (by decide) k hdigit
  have hlist := String.ofList_injective h
  simp only [append_assoc, cons_append] at hlist
  exact Text.padded_inj (Text.split_at_first (hdash m) (hdash n) (append_cancel_left hlist)).1

/-- The artifact files carry the numbers up to their count. -/
def NumberedFiles (files : Dict String (List ℕ)) : Prop :=
  ∀ path ∈ files.keys, ∃ number kind mediaType content,
    number ≤ files.items.length ∧ path = artifactPath number kind mediaType content

/-- The artifacts among the writes take the numbers behind the first one, in order. -/
inductive Numbers : ℕ → List FileWrite → ℕ → Prop
  | nil (n : ℕ) : Numbers n [] n
  | artifact {n n' : ℕ} {ws : List FileWrite} (kind mediaType : String)
      (content : ArtifactContent) (raw : List ℕ) (h : Numbers (n + 1) ws n') :
    Numbers n (.artifact (artifactPath (n + 1) kind mediaType content) raw :: ws) n'
  | event {n n' : ℕ} {ws : List FileWrite} (e : AuditEvent) (h : Numbers n ws n') :
    Numbers n (.event e :: ws) n'
  | checkpoint {n n' : ℕ} {ws : List FileWrite} (c : Checkpoint) (h : Numbers n ws n') :
    Numbers n (.checkpoint c :: ws) n'
  | summary {n n' : ℕ} {ws : List FileWrite} (s : Json) (h : Numbers n ws n') :
    Numbers n (.summary s :: ws) n'
  | manifest {n n' : ℕ} {ws : List FileWrite} (m : Manifest) (h : Numbers n ws n') :
    Numbers n (.manifest m :: ws) n'

section Numbers

variable {host : Host} {n n' n'' : ℕ} {ws ws' : List FileWrite}

theorem Numbers.append (h : Numbers n ws n') (h' : Numbers n' ws' n'') :
    Numbers n (ws ++ ws') n'' := by
  induction h with
  | nil n => exact h'
  | artifact kind mediaType content raw _ ih => exact .artifact kind mediaType content raw (ih h')
  | event e _ ih => exact .event e (ih h')
  | checkpoint c _ ih => exact .checkpoint c (ih h')
  | summary s _ ih => exact .summary s (ih h')
  | manifest m _ ih => exact .manifest m (ih h')

theorem Numbers.take (h : Numbers n ws n') (k : ℕ) : ∃ n'', Numbers n (ws.take k) n'' := by
  induction h generalizing k with
  | nil n => exact ⟨n, by rw [take_nil]; exact .nil n⟩
  | artifact kind mediaType content raw _ ih =>
    cases k with
    | zero => exact ⟨_, .nil _⟩
    | succ k => exact ⟨_, .artifact kind mediaType content raw (ih k).choose_spec⟩
  | event e _ ih =>
    cases k with
    | zero => exact ⟨_, .nil _⟩
    | succ k => exact ⟨_, .event e (ih k).choose_spec⟩
  | checkpoint c _ ih =>
    cases k with
    | zero => exact ⟨_, .nil _⟩
    | succ k => exact ⟨_, .checkpoint c (ih k).choose_spec⟩
  | summary s _ ih =>
    cases k with
    | zero => exact ⟨_, .nil _⟩
    | succ k => exact ⟨_, .summary s (ih k).choose_spec⟩
  | manifest m _ ih =>
    cases k with
    | zero => exact ⟨_, .nil _⟩
    | succ k => exact ⟨_, .manifest m (ih k).choose_spec⟩

theorem NumberedFiles.notMem_keys {files : Dict String (List ℕ)} (h : NumberedFiles files)
    (kind mediaType : String) (content : ArtifactContent) :
    artifactPath (files.items.length + 1) kind mediaType content ∉ files.keys := by
  intro hmem
  obtain ⟨number, _, _, _, hle, heq⟩ := h _ hmem
  have hnumber := artifactPath_number heq
  omega

theorem NumberedFiles.set {files : Dict String (List ℕ)} (h : NumberedFiles files)
    (kind mediaType : String) (content : ArtifactContent) (raw : List ℕ) :
    NumberedFiles (files.set (artifactPath (files.items.length + 1) kind mediaType content) raw) ∧
      (files.set (artifactPath (files.items.length + 1) kind mediaType content) raw).items.length =
        files.items.length + 1 := by
  have hcount : (files.set (artifactPath (files.items.length + 1) kind mediaType content)
      raw).items.length = files.items.length + 1 := by
    rw [Dict.items_set_of_notMem (h.notMem_keys kind mediaType content), length_append,
      length_singleton]
  refine ⟨fun path hpath => ?_, hcount⟩
  rw [hcount]
  rcases Dict.mem_keys_set.1 hpath with rfl | hpath
  · exact ⟨_, kind, mediaType, content, le_rfl, rfl⟩
  · obtain ⟨number, kind', mediaType', content', hle, heq⟩ := h path hpath
    exact ⟨number, kind', mediaType', content', hle.trans (Nat.le_succ _), heq⟩

theorem Numbers.numberedFiles (h : Numbers n ws n') :
    ∀ disk : Disk, NumberedFiles disk.files → n = disk.files.items.length →
      NumberedFiles (disk.writeAll ws).files ∧ n' = (disk.writeAll ws).files.items.length := by
  induction h with
  | nil n => exact fun disk hfiles hn => ⟨hfiles, hn⟩
  | artifact kind mediaType content raw _ ih =>
    rintro disk hfiles rfl
    obtain ⟨hset, hcount⟩ := hfiles.set kind mediaType content raw
    exact ih (disk.write (.artifact _ raw)) hset hcount.symm
  | event e _ ih => exact fun disk => ih (disk.write (.event e))
  | checkpoint c _ ih => exact fun disk => ih (disk.write (.checkpoint c))
  | summary s _ ih => exact fun disk => ih (disk.write (.summary s))
  | manifest m _ ih => exact fun disk => ih (disk.write (.manifest m))

theorem Journal.numbers_finalize (j : Journal) (clock : ℕ → Tick host) (disk : Disk)
    (status : String) (result : Payload) (state : Option Payload) :
    Numbers j.artifactNumber (j.finalize clock disk status result state).writes
      (j.finalize clock disk status result state).journal.artifactNumber := by
  have hconclude : Numbers j.artifactNumber (j.conclude clock status result state).writes
      (j.conclude clock status result state).journal.artifactNumber :=
    .artifact _ _ _ _ (.event _ (.checkpoint _ (.nil _)))
  rw [Journal.finalize]
  by_cases hdone : j.finalized = true
  · rw [if_pos hdone]
    exact .nil _
  rw [if_neg hdone]
  by_cases hstatus : status ∉ terminalStatuses
  · rw [if_pos hstatus]
    exact .nil _
  rw [if_neg hstatus]
  dsimp only
  cases Journal.runSummary host (disk.writeAll (j.conclude clock status result state).writes).events
      status (j.conclude clock status result state).journal.startedAt (clock 2).timestamp.1 with
  | error message => exact hconclude
  | ok summary => exact hconclude.append (.summary _ (.manifest _ (.nil _)))

theorem Journal.numbers_perform (j : Journal) (clock : ℕ → Tick host) (disk : Disk)
    (op : Operation) : Numbers j.artifactNumber (j.perform clock disk op).writes
      (j.perform clock disk op).journal.artifactNumber := by
  cases op with
  | writeArtifact kind content mediaType =>
    rw [Journal.perform]
    split_ifs with hdone
    · exact .nil _
    · exact .artifact kind mediaType content _ (.nil _)
  | append d =>
    rw [Journal.perform]
    split_ifs with hdone
    · exact .nil _
    · exact .event _ (.nil _)
  | checkpoint status state =>
    rw [Journal.perform]
    split_ifs with hdone
    · exact .nil _
    · exact .checkpoint _ (.nil _)
  | mergeCheckpoint status updates =>
    rw [Journal.perform]
    split_ifs with hdone
    · exact .nil _
    · exact .checkpoint _ (.nil _)
  | compareAndSwap expectedRevision expectedHeadHash status state eventType eventStatus payload
      actor =>
    rw [Journal.perform, Journal.compareAndSwap]
    by_cases hnegative : expectedRevision < 0
    · rw [if_pos hnegative]
      exact .nil _
    rw [if_neg hnegative]
    by_cases hdone : j.finalized = true
    · rw [if_pos hdone]
      exact .nil _
    rw [if_neg hdone]
    cases verifyEventJournal host.fromIsoformat disk.files disk.events with
    | error message => exact .nil _
    | ok v =>
      cases disk.loadCheckpoint host with
      | error message => exact .nil _
      | ok c =>
        dsimp only
        iterate 4
          split
          · exact .nil _
        exact .event _ (.checkpoint _ (.nil _))
  | finalize status result state => exact j.numbers_finalize clock disk status result state

end Numbers

/-! ## Callers -/

def AuditActor.Named (a : AuditActor) : Prop := a.id ≠ "" ∧ a.role ≠ ""

/-- What a caller of `append` keeps to: the schema, and artifacts that are there. -/
structure Draft.Lawful (files : Dict String (List ℕ)) (d : Draft) : Prop where
  eventType : d.eventType ≠ ""
  status : d.status ≠ ""
  actor : d.actor.Named
  duration : ∀ n, d.durationMs = some n → 0 ≤ n
  artifacts : ∀ a ∈ d.artifacts, a.Admissible ∧ verifyArtifact files a.value = .ok ()

/-- The payload has no record of usage. -/
def Payload.Unmetered (p : Payload) : Prop := (Json.obj p.1).get? "usage" = none

/-- The operations of a caller that keeps to the schema. -/
def Operation.Lawful (files : Dict String (List ℕ)) : Operation → Prop
  | .append d => d.Lawful files ∧ d.payload.Unmetered
  | .compareAndSwap _ _ _ _ eventType eventStatus payload actor =>
    eventType ≠ "" ∧ eventStatus ≠ "" ∧ (∀ a, actor = some a → a.Named) ∧ payload.Unmetered
  | _ => True

/-- The steps of a run directory that one caller writes, under one actor. -/
inductive LawfulStep (host : Host) (actor : AuditActor) : Site → Site → Prop
  | perform (disk : Disk) (j : Journal) (clock : ℕ → Tick host) (op : Operation)
      (hop : op.Lawful disk.files) :
    LawfulStep host actor ⟨disk, some j⟩
      ⟨disk.writeAll (j.perform clock disk op).writes, some (j.perform clock disk op).journal⟩
  | crash (disk : Disk) (j : Journal) (clock : ℕ → Tick host) (op : Operation)
      (hop : op.Lawful disk.files) (k : ℕ) :
    LawfulStep host actor ⟨disk, some j⟩
      ⟨disk.writeAll ((j.perform clock disk op).writes.take k), none⟩
  | reopen (disk : Disk) (clock : ℕ → Tick host) (o : Outcome)
      (ho : openExisting clock actor disk = .ok o) :
    LawfulStep host actor ⟨disk, none⟩ ⟨disk.writeAll o.writes, some o.journal⟩
  | crashReopening (disk : Disk) (clock : ℕ → Tick host) (o : Outcome)
      (ho : openExisting clock actor disk = .ok o) (k : ℕ) :
    LawfulStep host actor ⟨disk, none⟩ ⟨disk.writeAll (o.writes.take k), none⟩

/-- The directory is reached by one caller from a new one. -/
def Recorded (host : Host) (actor : AuditActor) (runId evidenceClassification : String)
    (site : Site) : Prop :=
  ∃ clock : ℕ → Tick host, Relation.ReflTransGen (LawfulStep host actor)
    (newSite clock actor runId evidenceClassification) site

section Callers

variable {host : Host} {actor : AuditActor} {runId evidenceClassification : String}
  {site later : Site} {disk : Disk} {es : List AuditEvent} {c : Checkpoint} {j : Journal}

theorem LawfulStep.step (h : LawfulStep host actor site later) : Step host site later := by
  cases h with
  | perform disk j clock op _ => exact .perform disk j clock op
  | crash disk j clock op _ k => exact .crash disk j clock op k
  | reopen disk clock o ho => exact .reopen disk clock actor o ho
  | crashReopening disk clock o ho k => exact .crashReopening disk clock actor o ho k

theorem Recorded.reached (h : Recorded host actor runId evidenceClassification site) :
    Reached host runId evidenceClassification site := by
  obtain ⟨clock, hsteps⟩ := h
  exact ⟨clock, actor, hsteps.lift id fun _ _ hstep => hstep.step⟩

/-! ### Numbers -/

/-- The artifacts of the directory are numbered, and the open journal goes on behind them. -/
def Site.Numbered (site : Site) : Prop :=
  NumberedFiles site.disk.files ∧
    ∀ j, site.journal = some j → j.artifactNumber = site.disk.files.items.length

theorem numbers_openExisting {clock : ℕ → Tick host} {o : Outcome}
    (ho : openExisting clock actor disk = .ok o) :
    Numbers disk.files.items.length o.writes o.journal.artifactNumber := by
  rw [openExisting] at ho
  cases hcheck : checkExisting host disk with
  | error message =>
    rw [hcheck] at ho
    cases ho
  | ok r =>
    rw [hcheck] at ho
    cases ho
    dsimp only
    split
    · exact .nil _
    · exact .checkpoint _ (.event _ (.checkpoint _ (.nil _)))

theorem numbers_recoverInterrupted (clock : ℕ → Tick host) (actor : AuditActor) (reason : String) :
    ∃ n, Numbers disk.files.items.length (recoverInterrupted clock actor reason disk).writes n := by
  rw [recoverInterrupted]
  split
  · exact ⟨_, .nil _⟩
  · rename_i o ho
    have hopened := numbers_openExisting ho
    dsimp only
    split
    · exact ⟨_, hopened⟩
    split_ifs
    · split <;> exact ⟨_, hopened⟩
    · exact ⟨_, hopened⟩
    · have hfinal (j : Journal) (hj : j.artifactNumber = o.journal.artifactNumber)
          (clock : ℕ → Tick host) (disk : Disk) (status : String) (result : Payload) :
          ∃ n, Numbers o.journal.artifactNumber (j.finalize clock disk status result none).writes n :=
        ⟨_, hj ▸ j.numbers_finalize clock disk status result none⟩
      refine Exists.imp (fun _ => Numbers.append
        (hopened.append (.event _ (.checkpoint _ (.nil _))))) ?_
      refine hfinal _ ?_ _ _ _ _
      rfl

theorem Step.numbered (hstep : Step host site later) (h : site.Numbered) : later.Numbered := by
  obtain ⟨hfiles, hlive⟩ := h
  cases hstep with
  | perform disk j clock op =>
    obtain ⟨hfiles', hcount⟩ :=
      (j.numbers_perform clock disk op).numberedFiles disk hfiles (hlive j rfl)
    exact ⟨hfiles', fun j' hj' => Option.some.inj hj' ▸ hcount⟩
  | crash disk j clock op k =>
    obtain ⟨_, hk⟩ := (j.numbers_perform clock disk op).take k
    exact ⟨(hk.numberedFiles disk hfiles (hlive j rfl)).1, nofun⟩
  | reopen disk clock actor o ho =>
    obtain ⟨hfiles', hcount⟩ := (numbers_openExisting ho).numberedFiles disk hfiles rfl
    exact ⟨hfiles', fun j' hj' => Option.some.inj hj' ▸ hcount⟩
  | crashReopening disk clock actor o ho k =>
    obtain ⟨_, hk⟩ := (numbers_openExisting ho).take k
    exact ⟨(hk.numberedFiles disk hfiles rfl).1, nofun⟩
  | recover disk clock actor reason k =>
    obtain ⟨_, hwrites⟩ := numbers_recoverInterrupted clock actor reason
    obtain ⟨_, hk⟩ := hwrites.take k
    exact ⟨(hk.numberedFiles disk hfiles rfl).1, nofun⟩

theorem Reached.numbered (h : Reached host runId evidenceClassification site) : site.Numbered := by
  obtain ⟨clock, actor, hsteps⟩ := h
  induction hsteps with
  | refl => exact ⟨nofun, fun j hj => by obtain rfl := Option.some.inj hj; rfl⟩
  | tail _ hstep ih => exact hstep.numbered ih

theorem Recorded.numbered (h : Recorded host actor runId evidenceClassification site) :
    site.Numbered :=
  h.reached.numbered

/-! ### Usage -/

/-- Every event of the directory is one without a record of usage. -/
def Disk.Unmetered (disk : Disk) : Prop :=
  ∃ es : List AuditEvent, disk.events = journalText es ∧ ∀ e ∈ es, e.payload.Unmetered

theorem Disk.Unmetered.writeAll (h : disk.Unmetered) {ws : List FileWrite}
    (hws : ∀ e, .event e ∈ ws → e.payload.Unmetered) : (disk.writeAll ws).Unmetered := by
  obtain ⟨es, hevents, hes⟩ := h
  refine ⟨es ++ appended ws, ?_, ?_⟩
  · rw [events_writeAll, hevents]
    simp [journalText, writeLines]
  · intro e he
    rcases mem_append.1 he with he | he
    · exact hes e he
    · obtain ⟨w, hw, heq⟩ := mem_filterMap.1 he
      cases w with
      | event e' =>
        obtain rfl := Option.some.inj heq
        exact hws e' hw
      | _ => cases heq

theorem Journal.unmetered_perform (j : Journal) (clock : ℕ → Tick host) {op : Operation}
    (hop : op.Lawful disk.files) :
    ∀ e, .event e ∈ (j.perform clock disk op).writes → e.payload.Unmetered := by
  intro e he
  cases op with
  | writeArtifact kind content mediaType =>
    rw [Journal.perform] at he
    split_ifs at he
    · cases he
    · cases mem_singleton.1 he
  | append d =>
    rw [Journal.perform] at he
    split_ifs at he
    · cases he
    · cases mem_singleton.1 he
      exact hop.2
  | checkpoint status state =>
    rw [Journal.perform] at he
    split_ifs at he
    · cases he
    · cases mem_singleton.1 he
  | mergeCheckpoint status updates =>
    rw [Journal.perform] at he
    split_ifs at he
    · cases he
    · cases mem_singleton.1 he
  | compareAndSwap expectedRevision expectedHeadHash status state eventType eventStatus payload
      actor =>
    rw [Journal.perform, Journal.compareAndSwap] at he
    by_cases hnegative : expectedRevision < 0
    · rw [if_pos hnegative] at he
      cases he
    rw [if_neg hnegative] at he
    by_cases hdone : j.finalized = true
    · rw [if_pos hdone] at he
      cases he
    rw [if_neg hdone] at he
    cases hv : verifyEventJournal host.fromIsoformat disk.files disk.events with
    | error message =>
      rw [hv] at he
      cases he
    | ok v =>
      rw [hv] at he
      cases hc : disk.loadCheckpoint host with
      | error message =>
        rw [hc] at he
        cases he
      | ok c =>
        rw [hc] at he
        dsimp only at he
        iterate 4
          split at he
          · cases he
        simp only [mem_cons, FileWrite.event.injEq, reduceCtorEq, not_mem_nil,
          or_false] at he
        rw [he]
        exact hop.2.2.2
  | finalize status result state =>
    rw [Journal.perform, Journal.finalize] at he
    by_cases hdone : j.finalized = true
    · rw [if_pos hdone] at he
      cases he
    rw [if_neg hdone] at he
    by_cases hstatus : status ∉ terminalStatuses
    · rw [if_pos hstatus] at he
      cases he
    rw [if_neg hstatus] at he
    dsimp only at he
    cases hsummary : Journal.runSummary host
        (disk.writeAll (j.conclude clock status result state).writes).events status
        (j.conclude clock status result state).journal.startedAt (clock 2).timestamp.1 <;>
      (rw [hsummary] at he
       simp [Journal.conclude] at he
       rw [he]
       rfl)

theorem LawfulStep.unmetered (hstep : LawfulStep host actor site later)
    (h : site.disk.Unmetered) : later.disk.Unmetered := by
  have hopened {disk : Disk} {clock : ℕ → Tick host} {o : Outcome}
      (ho : openExisting clock actor disk = .ok o) :
      ∀ e, .event e ∈ o.writes → e.payload.Unmetered := by
    intro e he
    rw [openExisting] at ho
    cases hcheck : checkExisting host disk with
    | error message =>
      rw [hcheck] at ho
      cases ho
    | ok r =>
      rw [hcheck] at ho
      cases ho
      dsimp only at he
      split at he
      · cases he
      · simp [reconcile] at he
        rw [he]
        rfl
  cases hstep with
  | perform disk j clock op hop => exact h.writeAll (j.unmetered_perform clock hop)
  | crash disk j clock op hop k =>
    exact h.writeAll fun e he => j.unmetered_perform clock hop e (mem_of_mem_take he)
  | reopen disk clock o ho => exact h.writeAll (hopened ho)
  | crashReopening disk clock o ho k =>
    exact h.writeAll fun e he => hopened ho e (mem_of_mem_take he)

theorem Recorded.unmetered (h : Recorded host actor runId evidenceClassification site) :
    site.disk.Unmetered := by
  obtain ⟨clock, hsteps⟩ := h
  induction hsteps with
  | refl =>
    have hempty : Disk.empty.Unmetered := ⟨[], rfl, forall_mem_nil _⟩
    refine hempty.writeAll ?_
    intro e he
    simp [newJournal] at he
    rw [he]
    rfl
  | tail _ hstep ih => exact hstep.unmetered ih

/-! ### Verification -/

/-- `verify_event_journal` accepts the events of the directory. -/
def Disk.Verifies (host : Host) (disk : Disk) : Prop :=
  ∃ v, verifyEventJournal host.fromIsoformat disk.files disk.events = .ok v

theorem Intact.verifies_iff (h : Intact host runId evidenceClassification disk es c) :
    disk.Verifies host ↔ ∀ e ∈ es, e.Admissible host.fromIsoformat ∧ e.Filed disk.files :=
  ⟨fun ⟨_, hv⟩ => (h.verify_eq_ok.1 hv).1, fun hall => ⟨_, h.verify_eq_ok.2 ⟨hall, rfl⟩⟩⟩

theorem AuditEvent.Filed.set {files : Dict String (List ℕ)} {e : AuditEvent} (h : e.Filed files)
    {path : String} (hpath : path ∉ files.keys) (raw : List ℕ) : e.Filed (files.set path raw) := by
  intro a ha
  have hfiled := h a ha
  have hget : a.value.get? "path" = some (.str a.path) := rfl
  rw [verifyArtifact, hget] at hfiled ⊢
  dsimp only [Option.bind_some, Json.asStr?] at hfiled ⊢
  have hne : a.path ≠ path := by
    rintro rfl
    rw [Dict.get?_eq_none_iff.2 hpath] at hfiled
    cases hfiled
  rw [Dict.get?_set_ne _ _ hne]
  exact hfiled

theorem Intact.verifies_writeArtifact (h : Intact host runId evidenceClassification disk es c)
    (hverifies : disk.Verifies host) (hopen : disk.manifest = none)
    (hfiles : NumberedFiles disk.files) (hj : j.artifactNumber = disk.files.items.length)
    (kind mediaType : String) (content : ArtifactContent) :
    (disk.write (.artifact (artifactPath (j.artifactNumber + 1) kind mediaType content)
      content.raw)).Verifies host := by
  refine (h.writeArtifact hopen (artifactPath_ne _ kind mediaType content) _).verifies_iff.2 ?_
  intro e he
  obtain ⟨hadmissible, hfiled⟩ := h.verifies_iff.1 hverifies e he
  exact ⟨hadmissible, hfiled.set (hj ▸ hfiles.notMem_keys kind mediaType content) _⟩

/-- The event that is written can be read back. -/
theorem Live.verifies_writeEvent (h : Intact host runId evidenceClassification disk es c)
    (hj : Live host runId evidenceClassification disk es j) (hverifies : disk.Verifies host)
    (hopen : disk.manifest = none) (tick : Tick host) {d : Draft} (hd : d.Lawful disk.files) :
    (disk.write (.event (j.newEvent tick d))).Verifies host := by
  refine (h.writeEvent hopen (hj.linked_newEvent h tick d)).verifies_iff.2 ?_
  rw [forall_mem_append, forall_mem_singleton]
  refine ⟨h.verifies_iff.1 hverifies, ⟨?_, ?_, hd.eventType, hd.status, hd.actor.1, hd.actor.2,
    tick.timestamp.2, hd.duration, fun a ha => (hd.artifacts a ha).1⟩,
    fun a ha => (hd.artifacts a ha).2⟩
  · show j.runId ≠ ""
    rw [hj.sameRun]
    exact h.named
  · show j.evidenceClassification ∈ evidenceClasses
    rw [hj.sameClass]
    exact h.classified

theorem lawful_plainDraft {eventType status : String} (htype : eventType ≠ "")
    (hstatus : status ≠ "") {actor : AuditActor} (hactor : actor.Named)
    (files : Dict String (List ℕ)) (tick : Tick host) (payload : Payload) :
    (Journal.plainDraft tick eventType status payload actor).Lawful files where
  eventType := htype
  status := hstatus
  actor := hactor
  duration := nofun
  artifacts := nofun

theorem verifyArtifact_newArtifact (j : Journal) (files : Dict String (List ℕ)) (kind : String)
    (content : ArtifactContent) (mediaType : String) :
    verifyArtifact (files.set (j.newArtifact kind content mediaType).path content.raw)
      (j.newArtifact kind content mediaType).value = .ok () := by
  generalize hartifact : j.newArtifact kind content mediaType = a
  have hpath : a.value.get? "path" = some (.str a.path) := rfl
  have hsha : a.value.get? "sha256" = some (.str (Sha256.hexdigest content.raw)) := by
    rw [← hartifact]
    rfl
  have hsize : a.value.get? "size_bytes" = some (.int content.raw.length) := by
    rw [← hartifact]
    rfl
  simp [verifyArtifact, hpath, hsha, hsize, Json.asStr?]

theorem terminal_ne_empty {status : String} (h : status ∈ terminalStatuses) : status ≠ "" := by
  rintro rfl
  revert h
  decide

section

variable (h : Intact host runId evidenceClassification disk es c)
  (hj : Live host runId evidenceClassification disk es j) (hverifies : disk.Verifies host)

include h hj hverifies

theorem Live.verifies_conclude (hopen : disk.manifest = none) (hfiles : NumberedFiles disk.files)
    (hcount : j.artifactNumber = disk.files.items.length) (hactor : j.actor.Named)
    (clock : ℕ → Tick host) {status : String} (hstatus : status ≠ "") (result : Payload)
    (state : Option Payload) :
    (disk.writeAll (j.conclude clock status result state).writes).Verifies host := by
  let content := ArtifactContent.json (.obj result.1)
  let artifact := j.newArtifact "final-result" content "application/json"
  have hpath : artifact.path ≠ "" := artifactPath_ne _ _ _ _
  have h₁ := h.writeArtifact hopen hpath content.raw
  have hj₁ := hj.afterArtifact artifact.path content.raw
  have hverifies₁ := h.verifies_writeArtifact hverifies hopen hfiles hcount "final-result"
    "application/json" content
  have hlawful : Draft.Lawful (disk.write (.artifact artifact.path content.raw)).files
      { Journal.plainDraft (clock 0) (if status = "succeeded" then "run_completed" else "run_failed")
          status (Payload.empty.set "terminal_status" (Payload.text status)) j.actor with
        artifacts := [artifact] } :=
    { eventType := by
        show (if status = "succeeded" then "run_completed" else "run_failed") ≠ ""
        split_ifs <;> decide
      status := hstatus
      actor := hactor
      duration := nofun
      artifacts := by
        intro a ha
        obtain rfl := mem_singleton.1 ha
        refine ⟨⟨hpath, isSha256_hexdigest _, ?_, ?_⟩, verifyArtifact_newArtifact j disk.files _ _ _⟩
        · show "application/json" ≠ ""
          decide
        · show j.evidenceClassification ∈ evidenceClasses
          rw [hj.sameClass]
          exact h.classified }
  exact hj₁.verifies_writeEvent h₁ hverifies₁ hopen (clock 0) hlawful

theorem Live.verifies_finalize (hfiles : NumberedFiles disk.files)
    (hcount : j.artifactNumber = disk.files.items.length) (hactor : j.actor.Named)
    (clock : ℕ → Tick host) (status : String) (result : Payload) (state : Option Payload) :
    (disk.writeAll (j.finalize clock disk status result state).writes).Verifies host := by
  rw [Journal.finalize]
  by_cases hdone : j.finalized = true
  · rw [if_pos hdone]
    exact hverifies
  rw [if_neg hdone]
  by_cases hstatus : status ∉ terminalStatuses
  · rw [if_pos hstatus]
    exact hverifies
  rw [if_neg hstatus]
  have hconcluded := hj.verifies_conclude h hverifies (hj.manifest_eq_none hdone) hfiles hcount
    hactor clock (terminal_ne_empty (not_not.1 hstatus)) result state
  dsimp only
  cases Journal.runSummary host (disk.writeAll (j.conclude clock status result state).writes).events
      status (j.conclude clock status result state).journal.startedAt (clock 2).timestamp.1 with
  | error message => exact hconcluded
  | ok summary =>
    exact hconcluded

theorem Live.verifies_perform (hfiles : NumberedFiles disk.files)
    (hcount : j.artifactNumber = disk.files.items.length) (hactor : j.actor.Named)
    (clock : ℕ → Tick host) {op : Operation} (hop : op.Lawful disk.files) :
    (disk.writeAll (j.perform clock disk op).writes).Verifies host := by
  cases op with
  | writeArtifact kind content mediaType =>
    rw [Journal.perform]
    by_cases hdone : j.finalized = true
    · rw [if_pos hdone]
      exact hverifies
    · rw [if_neg hdone]
      exact h.verifies_writeArtifact hverifies (hj.manifest_eq_none hdone) hfiles hcount kind
        mediaType content
  | append d =>
    rw [Journal.perform]
    by_cases hdone : j.finalized = true
    · rw [if_pos hdone]
      exact hverifies
    · rw [if_neg hdone]
      exact hj.verifies_writeEvent h hverifies (hj.manifest_eq_none hdone) (clock 0) hop.1
  | checkpoint status state =>
    rw [Journal.perform]
    split_ifs <;> exact hverifies
  | mergeCheckpoint status updates =>
    rw [Journal.perform]
    split_ifs <;> exact hverifies
  | compareAndSwap expectedRevision expectedHeadHash status state eventType eventStatus payload
      actor =>
    obtain ⟨htype, hstatus, hgiven, _⟩ := hop
    have hnamed : (actor.getD j.actor).Named := by
      cases actor with
      | none => exact hactor
      | some a => exact hgiven a rfl
    rw [Journal.perform, Journal.compareAndSwap]
    by_cases hnegative : expectedRevision < 0
    · rw [if_pos hnegative]
      exact hverifies
    rw [if_neg hnegative]
    by_cases hdone : j.finalized = true
    · rw [if_pos hdone]
      exact hverifies
    rw [if_neg hdone]
    cases hv : verifyEventJournal host.fromIsoformat disk.files disk.events with
    | error message => exact hverifies
    | ok v =>
      obtain ⟨_, rfl⟩ := h.verify_eq_ok.1 hv
      cases hc : disk.loadCheckpoint host with
      | error message => exact hverifies
      | ok c' =>
        dsimp only
        iterate 4
          split
          · exact hverifies
        exact (hj.refreshed c'.revision).verifies_writeEvent h hverifies (hj.manifest_eq_none hdone)
          (clock 0) (lawful_plainDraft htype hstatus hnamed disk.files (clock 0) payload)
  | finalize status result state =>
    exact hj.verifies_finalize h hverifies hfiles hcount hactor clock status result state

end

theorem Journal.actor_perform (j : Journal) (clock : ℕ → Tick host) (disk : Disk) (op : Operation) :
    (j.perform clock disk op).journal.actor = j.actor := by
  cases op with
  | writeArtifact kind content mediaType =>
    rw [Journal.perform]
    split_ifs <;> rfl
  | append d =>
    rw [Journal.perform]
    split_ifs <;> rfl
  | checkpoint status state =>
    rw [Journal.perform]
    split_ifs <;> rfl
  | mergeCheckpoint status updates =>
    rw [Journal.perform]
    split_ifs <;> rfl
  | compareAndSwap expectedRevision expectedHeadHash status state eventType eventStatus payload
      actor =>
    rw [Journal.perform, Journal.compareAndSwap]
    split_ifs
    · rfl
    · rfl
    · cases verifyEventJournal host.fromIsoformat disk.files disk.events with
      | error message => rfl
      | ok v =>
        cases disk.loadCheckpoint host with
        | error message => rfl
        | ok c =>
          dsimp only
          split_ifs <;> rfl
  | finalize status result state =>
    rw [Journal.perform, Journal.finalize]
    by_cases hdone : j.finalized = true
    · rw [if_pos hdone]
      rfl
    rw [if_neg hdone]
    by_cases hstatus : status ∉ terminalStatuses
    · rw [if_pos hstatus]
      rfl
    rw [if_neg hstatus]
    dsimp only
    split <;> rfl

theorem Intact.verifies_openExisting (h : Intact host runId evidenceClassification disk es c)
    (hactor : actor.Named) {clock : ℕ → Tick host} {o : Outcome}
    (ho : openExisting clock actor disk = .ok o) :
    o.journal.actor = actor ∧ (disk.writeAll o.writes).Verifies host := by
  obtain ⟨hentered, hwhole⟩ := (h.openExisting_isOk clock actor).1 ⟨o, ho⟩
  have hverifies := h.verifies_iff.2 hentered.1
  rw [openExisting, h.checkExisting_eq_ok.2 ⟨hentered, hwhole, rfl⟩] at ho
  have hj := h.live_openedJournal actor
  cases ho
  dsimp only
  by_cases hcaught : c.sequence = (verificationOf runId evidenceClassification es).eventCount
  · rw [if_pos hcaught]
    exact ⟨rfl, hverifies⟩
  · rw [if_neg hcaught]
    have hopen : disk.manifest = none := by
      by_contra hsealed
      obtain ⟨m, hm⟩ := Option.ne_none_iff_exists'.1 hsealed
      exact hcaught ((h.sealed m hm).1.trans (length_map _).symm)
    have h₁ := h.writeCheckpoint hopen (hj.binds_newCheckpoint (clock 0) "recovering"
      ((c.state.set "reconciled_from_revision" (Payload.number c.revision)).set
        "reconciled_event_count" (Payload.number
          ((openedJournal actor disk (verificationOf runId evidenceClassification es) c).sequence -
            c.sequence))))
    exact ⟨rfl, (hj.afterCheckpoint _).verifies_writeEvent h₁ hverifies hopen (clock 1)
      (lawful_plainDraft (by decide) (by decide) hactor _ (clock 1) _)⟩

/-- The open journal is the caller's, and its events verify. -/
def Site.Verified (host : Host) (actor : AuditActor) (site : Site) : Prop :=
  ∀ j, site.journal = some j → j.actor = actor ∧ site.disk.Verifies host

theorem LawfulStep.verified (hstep : LawfulStep host actor site later) (hactor : actor.Named)
    (hsound : site.Sound host runId evidenceClassification) (hnumbered : site.Numbered)
    (h : site.Verified host actor) : later.Verified host actor := by
  obtain ⟨es, c, hintact, hlive⟩ := hsound
  obtain ⟨hfiles, hcount⟩ := hnumbered
  cases hstep with
  | perform disk j clock op hop =>
    obtain ⟨rfl, hverifies⟩ := h j rfl
    intro j' hj'
    cases hj'
    exact ⟨j.actor_perform clock disk op,
      (hlive j rfl).verifies_perform hintact hverifies hfiles (hcount j rfl) hactor clock hop⟩
  | crash disk j clock op hop k => exact nofun
  | reopen disk clock o ho =>
    intro j' hj'
    cases hj'
    exact hintact.verifies_openExisting hactor ho
  | crashReopening disk clock o ho k => exact nofun

theorem verified_newSite (hnamed : Named runId evidenceClassification) (hactor : actor.Named)
    (clock : ℕ → Tick host) :
    (newSite clock actor runId evidenceClassification).Verified host actor := by
  obtain ⟨⟨hrun, _⟩, hclass⟩ := hnamed
  intro j hj
  cases hj
  let d : Draft := Journal.plainDraft (clock 1) "run_started" "started"
    (Payload.empty.set "audit_protocol" (Payload.text auditProtocol)) actor
  have hlinked : Linked runId evidenceClassification
      ([] ++ [nextEvent runId evidenceClassification [] d]) := linked_nil.snoc d
  have hevents : (newSite clock actor runId evidenceClassification).disk.events =
      journalText [nextEvent runId evidenceClassification [] d] :=
    (nil_append _).trans (append_nil _).symm
  have hfiles : (newSite clock actor runId evidenceClassification).disk.files = Disk.empty.files :=
    rfl
  refine ⟨rfl, ?_⟩
  rw [Disk.Verifies, hevents, hfiles]
  refine ⟨_, (verifyEventJournal_eq_ok hlinked (cons_ne_nil _ _)).2 ⟨?_, rfl⟩⟩
  intro e he
  obtain rfl := mem_singleton.1 he
  refine ⟨⟨hrun, hclass, ?_, ?_, hactor.1, hactor.2, (clock 1).timestamp.2, nofun, nofun⟩, nofun⟩
  · show "run_started" ≠ ""
    decide
  · show "started" ≠ ""
    decide

/-- **An open journal verifies**, whatever its caller did and wherever it was cut. -/
theorem Recorded.verified (hnamed : Named runId evidenceClassification) (hactor : actor.Named)
    (h : Recorded host actor runId evidenceClassification site) : site.Verified host actor := by
  obtain ⟨clock, hsteps⟩ := h
  induction hsteps with
  | refl => exact verified_newSite hnamed hactor clock
  | tail hbefore hstep ih =>
    have hrecorded : Recorded host actor runId evidenceClassification _ := ⟨clock, hbefore⟩
    exact hstep.verified hactor (hrecorded.reached.sound hnamed) hrecorded.numbered ih

end Callers

/-! ## Finalizing -/

/-- `build_run_summary` fails on no events without a record of usage. -/
def Host.Summarizes (host : Host) : Prop :=
  ∀ (es : List AuditEvent) (status startedAt finishedAt : String),
    (∀ e ∈ es, e.payload.Unmetered) → isTimestamp host.fromIsoformat startedAt = true →
      isTimestamp host.fromIsoformat finishedAt = true →
        (host.summarize (es.map (·.value)) status startedAt finishedAt).isSome = true

section Boundaries

variable {e : AuditEvent}

theorem unbroken_of_isSha256 {s : String} (h : isSha256 s = true) : Unbroken (.str s) := by
  refine unbroken_ascii fun c hc => ?_
  rw [isSha256, Bool.and_eq_true, all_eq_true] at h
  have hmem := h.2 c hc
  have hdigits : (Sha256.hexDigits.all fun d => decide (d.toNat < 128)) = true := by decide
  exact of_decide_eq_true (all_eq_true.1 hdigits c (by simpa using hmem))

/-- The strings of an event that is no part of an attempt or a session. -/
structure AuditEvent.Plain (e : AuditEvent) : Prop where
  actor : Unbroken e.actor.value
  artifacts : ∀ a ∈ e.artifacts, Unbroken a.value
  identities : e.attemptId = none ∧ e.backendId = none ∧ e.parentAttemptId = none ∧
    e.sessionId = none
  eventType : Unbroken (.str e.eventType)
  payload : Unbroken (.obj e.payload.1)
  previous : ∀ h, e.previousHash = some h → isSha256 h = true
  run : Unbroken (.str e.runId)
  classification : Unbroken (.str e.evidenceClassification)
  status : Unbroken (.str e.status)
  timestamp : Unbroken (.str e.timestamp)

theorem unbroken_textOrNull {s : Option String} (h : ∀ t, s = some t → Unbroken (.str t)) :
    Unbroken (textOrNull s) := by
  cases s with
  | none => exact forall_mem_nil _
  | some t => exact h t rfl

theorem unbroken_int (n : ℤ) : Unbroken (.int n) := forall_mem_nil _

theorem AuditEvent.Plain.unbroken (h : e.Plain) : Unbroken e.value := by
  obtain ⟨hattempt, hbackend, hparent, hsession⟩ := h.identities
  have hartifacts : Unbroken (.arr (e.artifacts.map (·.value))) := by
    refine unbroken_arr.2 fun v hv => ?_
    obtain ⟨a, ha, rfl⟩ := mem_map.1 hv
    exact h.artifacts a ha
  have hduration : Unbroken (intOrNull e.durationMs) := by
    cases e.durationMs <;> exact forall_mem_nil _
  have hprevious : Unbroken (textOrNull e.previousHash) :=
    unbroken_textOrNull fun t ht => unbroken_of_isSha256 (h.previous t ht)
  have hnull : Unbroken (textOrNull none) := forall_mem_nil _
  have hkeys : ∀ key ∈ ["actor", "artifacts", "attempt_id", "backend_id", "duration_ms",
      "event_hash", "event_type", "evidence_classification", "monotonic_ns", "parent_attempt_id",
      "payload", "previous_hash", "protocol", "run_id", "sequence", "session_id", "status",
      "timestamp", auditProtocol], Unbroken (.str key) := by
    intro key hkey
    refine unbroken_of_all ?_
    revert key
    decide
  rw [AuditEvent.value, unbroken_obj, membersBefore, membersBehind, hattempt, hbackend, hparent,
    hsession]
  simp [hkeys, hnull, hartifacts, hduration, hprevious, h.actor, h.eventType, h.payload,
    h.run, h.classification, h.status, h.timestamp, unbroken_int,
    unbroken_of_isSha256 (isSha256_eventHash e)]

theorem AuditEvent.unbroken_parts (h : Unbroken e.value) :
    Unbroken e.actor.value ∧ Unbroken (.str e.runId) ∧
      Unbroken (.str e.evidenceClassification) := by
  rw [AuditEvent.value, unbroken_obj] at h
  refine ⟨(h ("actor", e.actor.value) ?_).2, (h ("run_id", _) ?_).2,
    (h ("evidence_classification", _) ?_).2⟩ <;>
  simp [AuditEvent.membersBefore, AuditEvent.membersBehind]

theorem ascii_toDigits {c : Char} {n : ℕ} (h : c ∈ Nat.toDigits 10 n) : c.toNat < 128 := by
  have hd := Nat.isDigit_of_mem_toDigits (by decide) (by decide) h
  exact (ascii_of_isDigit hd).2

/-- The path of the artifact of a result. -/
theorem resultPath_eq (number : ℕ) (content : Json) :
    artifactPath number "final-result" "application/json" (.json content) =
      String.ofList ("artifacts/".toList ++ Text.padded 6 number ++ '-' :: "final-result".toList ++
        '.' :: "json".toList) := by
  have hkind : safeKind "final-result" = "final-result".toList := by decide +kernel
  have hsuffix : mediaTypeSuffixes.lookup (normalizedMediaType "application/json") =
      some "json" := by
    decide +kernel
  unfold artifactPath
  rw [hkind, hsuffix, Option.getD_some]

theorem unbroken_resultPath (number : ℕ) (content : Json) :
    Unbroken (.str (artifactPath number "final-result" "application/json" (.json content))) := by
  refine unbroken_ascii fun c hc => ?_
  rw [resultPath_eq, String.toList_ofList] at hc
  simp only [append_assoc] at hc
  rw [mem_append, mem_append] at hc
  have htexts : (("artifacts/".toList ++ '-' :: ("final-result".toList ++ '.' :: "json".toList)).all
      fun c => decide (c.toNat < 128)) = true := by decide +kernel
  rcases hc with hc | hc | hc
  · exact of_decide_eq_true (all_eq_true.1 htexts c (mem_append_left _ hc))
  · rcases mem_append.1 hc with hzero | hdigit
    · rw [eq_of_mem_replicate hzero]
      decide
    · exact ascii_toDigits hdigit
  · exact of_decide_eq_true (all_eq_true.1 htexts c (mem_append_right _ hc))

end Boundaries

section Finalizing

variable {host : Host} {runId evidenceClassification : String} {disk : Disk}
  {es es' : List AuditEvent} {c : Checkpoint} {j : Journal}

theorem foldlM_collect (values acc : List Json) :
    values.foldlM (fun acc v => (.ok (acc ++ [v]) : Except String (List Json))) acc =
      .ok (acc ++ values) := by
  induction values generalizing acc with
  | nil => rw [append_nil]; rfl
  | cons v values ih =>
    exact (ih (acc ++ [v])).trans (by rw [append_assoc, singleton_append])

/-- The text of a journal determines the values of its events. -/
theorem values_eq_of_journalText (h : journalText es = journalText es') :
    es.map (·.value) = es'.map (·.value) := by
  have hread (fs : List AuditEvent) :
      readEach (fun acc v => .ok (acc ++ [v])) [] (textLines (journalText fs)) =
        .ok (fs.map (·.value)) := by
    rw [journalText, readEach_textLines _ _ fun v hv => ?_, foldlM_collect, nil_append]
    obtain ⟨e, -, rfl⟩ := mem_map.1 hv
    exact keyed_value e
  exact Except.ok.inj ((hread es).symm.trans (by rw [h, hread es']))

theorem Disk.Unmetered.of_events (h : disk.Unmetered) (hevents : disk.events = journalText es) :
    ∀ e ∈ es, e.payload.Unmetered := by
  obtain ⟨es', hevents', hes'⟩ := h
  have hvalues := values_eq_of_journalText (hevents.symm.trans hevents')
  have hpayload (e : AuditEvent) : e.value.get? "payload" = some (.obj e.payload.1) := rfl
  intro e he
  have hmem : e.value ∈ es.map (·.value) := mem_map.2 ⟨e, he, rfl⟩
  rw [hvalues] at hmem
  obtain ⟨e', he', hsame⟩ := mem_map.1 hmem
  have heq := hpayload e'
  rw [hsame, hpayload e] at heq
  rw [Payload.Unmetered, Option.some.inj heq]
  exact hes' e' he'

theorem summaryEvents_of_unbroken (h : ∀ e ∈ es, Unbroken e.value) :
    Journal.summaryEvents (journalText es) = .ok (es.map (·.value)) := by
  have hrecords : ∀ v ∈ es.map (·.value), Json.Keyed v ∧ Unbroken v := by
    intro v hv
    obtain ⟨e, he, rfl⟩ := mem_map.1 hv
    exact ⟨keyed_value e, h e he⟩
  rw [Journal.summaryEvents, journalText, readEach_splitlines _ _ hrecords]
  have hcollect (fs : List AuditEvent) (acc : List Json) :
      (fs.map (·.value)).foldlM (fun values value => (.ok (if value.asMembers?.isSome then
        values ++ [value] else values) : Except String (List Json))) acc =
        .ok (acc ++ fs.map (·.value)) := by
    induction fs generalizing acc with
    | nil => rw [map_nil, append_nil]; rfl
    | cons e fs ih =>
      rw [map_cons, foldlM_cons]
      exact (ih (acc ++ [e.value])).trans (by rw [append_assoc, singleton_append])
  exact hcollect es []

/-- **The summary is built exactly when no event holds a boundary.** -/
theorem runSummary_isOk_iff (hsummary : host.Summarizes) (hunmetered : ∀ e ∈ es, e.payload.Unmetered)
    (status : String) {startedAt finishedAt : String} (hstarted : isTimestamp host.fromIsoformat startedAt = true)
    (hfinished : isTimestamp host.fromIsoformat finishedAt = true) :
    (∃ s, Journal.runSummary host (journalText es) status startedAt finishedAt = .ok s) ↔
      ∀ e ∈ es, Unbroken e.value := by
  rw [Journal.runSummary]
  by_cases h : ∀ e ∈ es, Unbroken e.value
  · obtain ⟨s, hs⟩ := Option.isSome_iff_exists.1
      (hsummary es status startedAt finishedAt hunmetered hstarted hfinished)
    rw [summaryEvents_of_unbroken h]
    dsimp only
    rw [hs]
    exact iff_of_true ⟨s, rfl⟩ h
  · refine iff_of_false ?_ h
    push Not at h
    obtain ⟨e, he, hbroken⟩ := h
    have hrecords : ∀ v ∈ es.map (·.value), IsRecord v := by
      intro v hv
      obtain ⟨e, -, rfl⟩ := mem_map.1 hv
      exact isRecord_value e
    obtain ⟨message, hmessage⟩ := readEach_of_broken (fun values value => .ok
      (if value.asMembers?.isSome then values ++ [value] else values)) [] hrecords
      ⟨e.value, mem_map.2 ⟨e, he, rfl⟩, hbroken⟩
    rintro ⟨s, hs⟩
    rw [Journal.summaryEvents, journalText, hmessage] at hs
    cases hs

/-- Boundaries in a new event come from what is appended or from the events before it. -/
theorem Live.unbroken_newEvent (h : Intact host runId evidenceClassification disk es c)
    (hj : Live host runId evidenceClassification disk es j) (hall : ∀ e ∈ es, Unbroken e.value)
    {tick : Tick host} (htick : Unbroken (.str tick.timestamp.1)) {d : Draft}
    (hactor : Unbroken d.actor.value) (hartifacts : ∀ a ∈ d.artifacts, Unbroken a.value)
    (hidentities : d.attemptId = none ∧ d.backendId = none ∧ d.parentAttemptId = none ∧
      d.sessionId = none)
    (htype : Unbroken (.str d.eventType)) (hstatus : Unbroken (.str d.status))
    (hpayload : Unbroken (.obj d.payload.1)) : Unbroken (j.newEvent tick d).value := by
  obtain ⟨first, rest, hes⟩ := exists_cons_of_ne_nil h.ne_nil
  obtain ⟨hrun, hclass, -⟩ := h.linked [] first rest hes
  obtain ⟨-, hrun', hclass'⟩ :=
    AuditEvent.unbroken_parts (hall first (by rw [hes]; exact mem_cons_self))
  refine AuditEvent.Plain.unbroken
    { actor := hactor, artifacts := hartifacts, identities := hidentities, eventType := htype
      payload := hpayload, status := hstatus, timestamp := htick
      previous := ?_, run := ?_, classification := ?_ }
  · intro hash heq
    change j.headHash = some hash at heq
    rw [hj.head, Option.map_eq_some_iff] at heq
    obtain ⟨e, -, rfl⟩ := heq
    exact isSha256_eventHash e
  · show Unbroken (.str j.runId)
    rw [hj.sameRun, ← hrun]
    exact hrun'
  · show Unbroken (.str j.evidenceClassification)
    rw [hj.sameClass, ← hclass]
    exact hclass'

theorem unbroken_status {status : String} (h : status ∈ terminalStatuses) :
    Unbroken (.str status) := by
  refine unbroken_of_all ?_
  revert status
  decide

theorem unbroken_member {key : String} {value : {v : Json // Json.Keyed v}}
    (hkey : Unbroken (.str key)) (hvalue : Unbroken value.1) :
    Unbroken (.obj (Payload.empty.set key value).1) :=
  unbroken_obj.2 (forall_mem_singleton.2 ⟨hkey, hvalue⟩)

theorem Live.unbroken_finalEvent (h : Intact host runId evidenceClassification disk es c)
    (hj : Live host runId evidenceClassification disk es j) (hall : ∀ e ∈ es, Unbroken e.value)
    (hactor : Unbroken j.actor.value) {tick : Tick host}
    (htick : Unbroken (.str tick.timestamp.1)) {status : String} (hstatus : status ∈ terminalStatuses)
    (result : Json) : Unbroken (Journal.finalEvent { j with artifactNumber := j.artifactNumber + 1 }
      tick status (j.newArtifact "final-result" (.json result) "application/json")).value := by
  obtain ⟨first, rest, hes⟩ := exists_cons_of_ne_nil h.ne_nil
  have hclass : Unbroken (.str j.evidenceClassification) := by
    rw [hj.sameClass, ← (h.linked [] first rest hes).2.1]
    exact (AuditEvent.unbroken_parts (hall first (by rw [hes]; exact mem_cons_self))).2.2
  have hascii : ∀ key ∈ ["evidence_classification", "media_type", "path", "sha256", "size_bytes",
      "application/json", "terminal_status", "run_completed", "run_failed"],
      Unbroken (.str key) := by
    intro key hkey
    refine unbroken_of_all ?_
    revert key
    decide
  simp only [forall_mem_cons] at hascii
  have hartifact : Unbroken
      (j.newArtifact "final-result" (.json result) "application/json").value := by
    rw [AuditArtifact.value, unbroken_obj]
    simp [hascii, Journal.newArtifact, hclass, unbroken_resultPath, unbroken_int,
      unbroken_of_isSha256 (isSha256_hexdigest _)]
  have hj' : Live host runId evidenceClassification disk es
      { j with artifactNumber := j.artifactNumber + 1 } :=
    ⟨hj.sameRun, hj.sameClass, hj.sequence, hj.head, hj.started, hj.finalized⟩
  refine hj'.unbroken_newEvent h hall htick hactor ?_ ⟨rfl, rfl, rfl, rfl⟩ ?_
    (unbroken_status hstatus) (unbroken_member hascii.2.2.2.2.2.2.1 (unbroken_status hstatus))
  · exact forall_mem_singleton.2 hartifact
  · show Unbroken (.str (if status = "succeeded" then "run_completed" else "run_failed"))
    split_ifs
    · exact hascii.2.2.2.2.2.2.2.1
    · exact hascii.2.2.2.2.2.2.2.2.1

/-- What `finalize` gives when it returns a manifest. -/
structure Finalized (host : Host) (disk : Disk) (status : String) (o : Outcome) : Prop where
  answer : ∃ m, o.answer = .ok (.manifest m) ∧ (disk.writeAll o.writes).manifest = some m ∧
    m.status = status
  terminal : ∃ c, (disk.writeAll o.writes).checkpoint = some c ∧ c.status = status
  verifies : ∃ v, verifyDirectory host (disk.writeAll o.writes) = .ok v

/-- **A journal that verifies is finalized exactly when no event of it holds a boundary.** -/
theorem Live.finalized_iff (h : Intact host runId evidenceClassification disk es c)
    (hj : Live host runId evidenceClassification disk es j) (hopen : ¬ j.finalized = true)
    (hverifies : disk.Verifies host) (hunmetered : disk.Unmetered)
    (hfiles : NumberedFiles disk.files) (hcount : j.artifactNumber = disk.files.items.length)
    (hactor : j.actor.Named) (hplain : Unbroken j.actor.value) (hsummary : host.Summarizes)
    {clock : ℕ → Tick host} (hclock : ∀ n, Unbroken (.str (clock n).timestamp.1)) {status : String}
    (hstatus : status ∈ terminalStatuses) (result : Payload) (state : Option Payload) :
    Finalized host disk status (j.finalize clock disk status result state) ↔
      ∀ e ∈ es, Unbroken e.value := by
  let e := Journal.finalEvent { j with artifactNumber := j.artifactNumber + 1 } (clock 0) status
    (j.newArtifact "final-result" (.json (.obj result.1)) "application/json")
  let done := j.conclude clock status result state
  have hevents : (disk.writeAll done.writes).events = journalText (es ++ [e]) := by
    rw [journalText_snoc, ← h.events]
    rfl
  have hpayloads : ∀ e' ∈ es ++ [e], e'.payload.Unmetered := by
    rw [forall_mem_append, forall_mem_singleton]
    exact ⟨hunmetered.of_events h.events, rfl⟩
  have hbuilt := runSummary_isOk_iff hsummary hpayloads status hj.started
    (clock 2).timestamp.2
  rw [forall_mem_append, forall_mem_singleton] at hbuilt
  have hseal := hj.verifies_finalize h hverifies hfiles hcount hactor clock status result state
  obtain ⟨-, es', c', h', -⟩ := hj.proceeds_finalize h clock status result state
  constructor
  · rintro ⟨⟨m, hanswer, -⟩, -, -⟩
    rw [Journal.finalize, if_neg hopen, if_neg (not_not.2 hstatus)] at hanswer
    dsimp only at hanswer
    rw [hevents] at hanswer
    refine (hbuilt.1 ?_).1
    split at hanswer
    · cases hanswer
    next summary hsum => exact ⟨summary, hsum⟩
  · intro hall
    obtain ⟨summary, hsum⟩ :=
      hbuilt.2 ⟨hall, hj.unbroken_finalEvent h hall hplain (hclock 0) hstatus _⟩
    let m := done.journal.newManifest (disk.writeAll done.writes) done.checkpoint status
      (clock 2).timestamp.1 summary
    have heq : j.finalize clock disk status result state =
        ⟨{ done.journal with finalized := true }, done.writes ++ [.summary summary, .manifest m],
          (verifyDirectory host ((disk.writeAll done.writes).writeAll
            [.summary summary, .manifest m])).map fun _ => .manifest m⟩ := by
      rw [Journal.finalize, if_neg hopen, if_neg (not_not.2 hstatus)]
      dsimp only
      rw [hevents]
      split
      next message herror => cases hsum.symm.trans herror
      next built hbuilt =>
      cases hsum.symm.trans hbuilt
      rfl
    rw [heq] at hseal h' ⊢
    rw [writeAll_append] at hseal h'
    obtain rfl := Option.some.inj
      ((show ((disk.writeAll done.writes).writeAll [.summary summary, .manifest m]).checkpoint =
        some done.checkpoint from rfl).symm.trans h'.checkpoint)
    have hverified := h'.verifyDirectory_eq_ok
      ⟨h'.verifies_iff.1 hseal, terminal_ne_empty hstatus⟩ rfl
    refine ⟨⟨m, ?_, ?_, rfl⟩, ⟨done.checkpoint, ?_, rfl⟩, ?_⟩
    · dsimp only
      rw [hverified]
      rfl
    · rw [writeAll_append]
      rfl
    · rw [writeAll_append]
      rfl
    · rw [writeAll_append]
      exact ⟨_, hverified⟩

end Finalizing

end HarnessLabs.Audit
