import HarnessLabs.Core.AuditFiled
import Mathlib.Data.Set.Function

/-!
# The hash chain binds the history

Two journals that the verification accepts with one head hash hold the same events, as long as no
two of the texts that were hashed share a digest. The proof walks both chains from the head to the
front: the digest of an event determines its body, the body holds the hash of the event before it,
and a first event holds none.

* `journalEvents` — the events of a file, as `json.loads` reads them.
* `Tampered` — an insertion, a deletion, a permutation or a change before the head.
* `journalEvents_eq` — **the head hash determines the events.**
* `chain_binds_history` — **so do all accepted files, and what `AuditJournal` writes is accepted when
  its events meet the schema.**
-/

namespace HarnessLabs.Audit

open Lines List

/-! ## Files of events -/

def journalEvents (text : List Char) : Option (List Json) := (textLines text).mapM Json.loads

theorem mem_of_mapM {α β : Type} {f : α → Option β} {xs : List α} {ys : List β}
    (h : xs.mapM f = some ys) {y : β} (hy : y ∈ ys) : ∃ x ∈ xs, f x = some y := by
  induction xs generalizing ys with
  | nil =>
    cases h
    cases hy
  | cons x xs ih =>
    rw [mapM_cons] at h
    obtain ⟨z, hz, h⟩ := Option.bind_eq_some_iff.1 h
    obtain ⟨zs, hzs, h⟩ := Option.bind_eq_some_iff.1 h
    cases h
    rcases mem_cons.1 hy with rfl | hy
    · exact ⟨x, mem_cons_self, hz⟩
    · obtain ⟨x', hx', hfx⟩ := ih hzs hy
      exact ⟨x', mem_cons_of_mem x hx', hfx⟩

theorem foldlM_snoc {α : Type} (start xs : List α) :
    xs.foldlM (fun vs v => (.ok (vs ++ [v]) : Except String (List α))) start =
      .ok (start ++ xs) := by
  induction xs generalizing start with
  | nil => simp [pure, Except.pure]
  | cons x xs ih =>
    show xs.foldlM _ (start ++ [x]) = _
    rw [ih]
    simp

/-- The file that `append` writes reads back. -/
theorem journalEvents_journalText (es : List AuditEvent) :
    journalEvents (journalText es) = some (es.map (·.value)) := by
  have hkeyed : ∀ w ∈ es.map (·.value), Json.Keyed w := by
    intro w hw
    obtain ⟨e, -, rfl⟩ := mem_map.1 hw
    exact keyed_value e
  have hread := readEach_textLines (fun vs v => .ok (vs ++ [v])) [] hkeyed
  obtain ⟨vs, hvs, hfold⟩ := readEach_eq_ok.1 (hread.trans (foldlM_snoc [] _))
  rw [foldlM_snoc, nil_append, nil_append] at hfold
  rw [journalEvents, journalText, hvs, Except.ok.inj hfold]

/-- The bytes that the verification hashes for an event. -/
def hashedBytes (event : Json) : List ℕ := Json.utf8 (Json.dumps (pop "event_hash" event))

/-- Everything that the verification of a file hashes for the chain. -/
def hashedTexts (text : List Char) : Set (List ℕ) :=
  {bytes | ∃ es, journalEvents text = some es ∧ ∃ e ∈ es, hashedBytes e = bytes}

/-- No two texts of the files share a SHA-256 digest. -/
def CollisionFree (text text' : List Char) : Prop :=
  Set.InjOn Sha256.hexdigest (hashedTexts text ∪ hashedTexts text')

/-- Ways to forge a history without touching its head. -/
inductive Tampered : List Json → List Json → Prop
  | insert (before behind : List Json) (e : Json) (hbehind : behind ≠ []) :
    Tampered (before ++ behind) (before ++ e :: behind)
  | delete (before behind : List Json) (e : Json) (hbehind : behind ≠ []) :
    Tampered (before ++ e :: behind) (before ++ behind)
  | reorder (es es' : List Json) (hperm : es.Perm es') (hne : es ≠ es') : Tampered es es'
  | alter (before behind : List Json) (e e' : Json) (hbehind : behind ≠ []) (hne : e ≠ e') :
    Tampered (before ++ e :: behind) (before ++ e' :: behind)

theorem Tampered.ne {es es' : List Json} (h : Tampered es es') : es ≠ es' := by
  intro heq
  cases h with
  | insert before behind e _ =>
    have hlength := congrArg List.length heq
    simp at hlength
  | delete before behind e _ =>
    have hlength := congrArg List.length heq
    simp at hlength
  | reorder _ _ _ hne => exact hne heq
  | alter _ _ _ _ _ hne => exact hne (List.cons.inj (append_cancel_left heq)).1

/-! ## Chains -/

section Chains

variable {fromIsoformat fromIsoformat' : String → Bool} {files files' : Dict String (List ℕ)}

theorem keyed_pop {key : String} {v : Json} (h : Json.Keyed v) : Json.Keyed (pop key v) := by
  cases v with
  | obj ms => exact Json.keyed_filter h
  | _ => exact h

/-- What is hashed of an event, and its own hash, make it up. -/
theorem event_eq {e e' : Json} (he : Json.Keyed e) (he' : Json.Keyed e')
    (hobj : e.keys? = some eventKeys) (hobj' : e'.keys? = some eventKeys)
    (hbody : hashedBytes e = hashedBytes e')
    (hhash : e.get? "event_hash" = e'.get? "event_hash") : e = e' := by
  cases e with
  | obj ms =>
    cases e' with
    | obj ns =>
      have hpop : Json.Keyed (pop "event_hash" (.obj ms)) := keyed_pop he
      have hpop' : Json.Keyed (pop "event_hash" (.obj ns)) := keyed_pop he'
      have hsame := Json.dumps_inj hpop hpop' (Json.utf8_injective hbody)
      exact congrArg Json.obj (Json.members_eq he he' hhash (Json.obj.inj hsame))
    | _ => cases hobj'
  | _ => cases hobj

/-- The events behind which the verification knows some hashes. -/
theorem scan_snoc {es : List Json} {e : Json} {p : Scanned}
    (h : (es ++ [e]).foldlM (verifyEvent fromIsoformat files) {} = .ok p) :
    ∃ q, es.foldlM (verifyEvent fromIsoformat files) {} = .ok q ∧
      verifyEvent fromIsoformat files q e = .ok p := by
  rw [foldlM_append] at h
  obtain ⟨q, hq, hp⟩ := bind_eq_ok.1 h
  obtain ⟨q', hq', hsame⟩ := bind_eq_ok.1 hp
  exact ⟨q, hq, hq'.trans hsame⟩

/-- Two accepted lists of events with one last hash are one list. -/
theorem scan_injective {es fs : List Json} {p q : Scanned}
    (hinj : Set.InjOn Sha256.hexdigest ({b | ∃ e ∈ es, hashedBytes e = b} ∪
      {b | ∃ e ∈ fs, hashedBytes e = b}))
    (hes : ∀ e ∈ es, Json.Keyed e) (hfs : ∀ e ∈ fs, Json.Keyed e)
    (hp : es.foldlM (verifyEvent fromIsoformat files) {} = .ok p)
    (hq : fs.foldlM (verifyEvent fromIsoformat' files') {} = .ok q)
    (hhead : p.hashes.getLast? = q.hashes.getLast?) : es = fs := by
  induction es using List.reverseRecOn generalizing fs p q with
  | nil =>
    cases hp
    rcases eq_nil_or_concat fs with rfl | ⟨fs, f, rfl⟩
    · rfl
    · rw [concat_eq_append] at hq
      obtain ⟨q', -, hf⟩ := scan_snoc hq
      obtain ⟨-, -, -, -, hhashes⟩ := verifyEvent_inv hf
      rw [hhashes] at hhead
      simp at hhead
  | append_singleton es e ih =>
    obtain ⟨p', hp', he⟩ := scan_snoc hp
    obtain ⟨hkeys, hsealed, -, hprevious, hhashes⟩ := verifyEvent_inv he
    rcases eq_nil_or_concat fs with rfl | ⟨fs, f, rfl⟩
    · cases hq
      rw [hhashes] at hhead
      simp at hhead
    rw [concat_eq_append] at hq hfs hinj ⊢
    obtain ⟨q', hq', hf⟩ := scan_snoc hq
    obtain ⟨hkeys', hsealed', -, hprevious', hhashes'⟩ := verifyEvent_inv hf
    -- the last hashes agree, so the last bodies do
    rw [hhashes, hhashes', List.getLast?_concat, List.getLast?_concat, Option.some.injEq] at hhead
    have hbody : hashedBytes e = hashedBytes f :=
      hinj (.inl ⟨e, by simp, rfl⟩) (.inr ⟨f, by simp, rfl⟩) hhead
    have hlast : e = f := by
      refine event_eq (hes e (by simp)) (hfs f (by simp)) hkeys hkeys' hbody ?_
      rw [hsealed, hsealed', hhead]
    subst hlast
    -- and the body holds the hash before it
    have hbefore : p'.hashes.getLast? = q'.hashes.getLast? :=
      textOrNull_inj (Option.some.inj (hprevious.symm.trans hprevious'))
    have hrest := ih (hinj.mono (Set.union_subset_union ?_ ?_))
      (fun e he => hes e (mem_append_left _ he)) (fun f hf => hfs f (mem_append_left _ hf))
      hp' hq' hbefore
    · rw [hrest]
    · rintro _ ⟨e, he, rfl⟩
      exact ⟨e, mem_append_left _ he, rfl⟩
    · rintro _ ⟨f, hf, rfl⟩
      exact ⟨f, mem_append_left _ hf, rfl⟩

end Chains

/-! ## Accepted files -/

section Accepted

variable {fromIsoformat fromIsoformat' : String → Bool} {files files' : Dict String (List ℕ)}
  {text text' : List Char} {v v' : Verification}

/-- A file that is accepted is read event by event. -/
theorem events_of_verify (h : verifyEventJournal fromIsoformat files text = .ok v) :
    ∃ es p, journalEvents text = some es ∧ (∀ e ∈ es, Json.Keyed e) ∧
      es.foldlM (verifyEvent fromIsoformat files) {} = .ok p ∧ p.hashes = v.eventHashes := by
  rw [verifyEventJournal] at h
  split at h
  · cases h
  rename_i p hread
  obtain ⟨es, hes, hscan⟩ := readEach_eq_ok.1 hread
  have hkeyed : ∀ e ∈ es, Json.Keyed e := by
    intro e he
    obtain ⟨line, -, hline⟩ := mem_of_mapM hes he
    exact Json.keyed_of_loads hline
  split at h
  · cases h
    exact ⟨es, p, hes, hkeyed, hscan, rfl⟩
  · cases h

/-- **The head hash determines the events** of accepted files. -/
theorem journalEvents_eq (hfree : CollisionFree text text')
    (h : verifyEventJournal fromIsoformat files text = .ok v)
    (h' : verifyEventJournal fromIsoformat' files' text' = .ok v')
    (hhead : v.headHash = v'.headHash) :
    ∃ es, journalEvents text = some es ∧ journalEvents text' = some es := by
  obtain ⟨es, p, hes, hkeyed, hscan, hhashes⟩ := events_of_verify h
  obtain ⟨es', p', hes', hkeyed', hscan', hhashes'⟩ := events_of_verify h'
  have hsame : es = es' := by
    refine scan_injective (hfree.mono (Set.union_subset_union ?_ ?_)) hkeyed hkeyed' hscan hscan' ?_
    · exact fun _ hb => ⟨es, hes, hb⟩
    · exact fun _ hb => ⟨es', hes', hb⟩
    · rw [hhashes, hhashes']
      exact hhead
  exact ⟨es, hes, hsame ▸ hes'⟩

end Accepted

/-! ## Written files -/

section Written

variable {host : Host} {runId evidenceClassification : String} {site later : Site}
  {disk : Disk} {es : List AuditEvent} {c : Checkpoint}

theorem Intact.linked_take (h : Intact host runId evidenceClassification disk es c) (k : ℕ) :
    Linked runId evidenceClassification (es.take k) := by
  refine Linked.of_append (?_ : Linked _ _ (es.take k ++ es.drop k))
  rw [take_append_drop]
  exact h.linked

theorem Intact.take_ne_nil (h : Intact host runId evidenceClassification disk es c) {k : ℕ}
    (hk : 0 < k) : es.take k ≠ [] := by
  simp only [ne_eq, take_eq_nil_iff, not_or]
  exact ⟨hk.ne', h.ne_nil⟩

/-- The first events of a journal are accepted exactly when each one meets the schema and its
artifacts are in the directory. -/
theorem Intact.verifies_take_iff (h : Intact host runId evidenceClassification disk es c) {k : ℕ}
    (hk : 0 < k) :
    (∃ v, verifyEventJournal host.fromIsoformat disk.files (journalText (es.take k)) = .ok v) ↔
      ∀ e ∈ es.take k, e.Admissible host.fromIsoformat ∧ e.Filed disk.files := by
  constructor
  · rintro ⟨v, hv⟩
    exact ((verifyEventJournal_eq_ok (h.linked_take k) (h.take_ne_nil hk)).1 hv).1
  · intro hall
    exact ⟨_, (verifyEventJournal_eq_ok (h.linked_take k) (h.take_ne_nil hk)).2 ⟨hall, rfl⟩⟩

theorem Numbers.filed {n n' : ℕ} {ws : List FileWrite} (h : Numbers n ws n') {e : AuditEvent} :
    ∀ disk : Disk, NumberedFiles disk.files → n = disk.files.items.length →
      e.Filed disk.files → e.Filed (disk.writeAll ws).files := by
  induction h with
  | nil n => exact fun disk _ _ he => he
  | artifact kind mediaType content raw _ ih =>
    rintro disk hfiles rfl he
    obtain ⟨hset, hcount⟩ := hfiles.set kind mediaType content raw
    exact ih (disk.write (.artifact _ raw)) hset hcount.symm
      (he.set (hfiles.notMem_keys kind mediaType content) raw)
  | event e _ ih => exact fun disk => ih (disk.write (.event e))
  | checkpoint c _ ih => exact fun disk => ih (disk.write (.checkpoint c))
  | summary s _ ih => exact fun disk => ih (disk.write (.summary s))
  | manifest m _ ih => exact fun disk => ih (disk.write (.manifest m))

/-- An artifact that is in the directory stays as it is. -/
theorem Step.filed (hstep : Step host site later) (h : site.Numbered) {e : AuditEvent}
    (he : e.Filed site.disk.files) : e.Filed later.disk.files := by
  obtain ⟨hfiles, hlive⟩ := h
  cases hstep with
  | perform disk j clock op =>
    exact (j.numbers_perform clock disk op).filed disk hfiles (hlive j rfl) he
  | crash disk j clock op k =>
    obtain ⟨_, hk⟩ := (j.numbers_perform clock disk op).take k
    exact hk.filed disk hfiles (hlive j rfl) he
  | reopen disk clock actor o ho => exact (numbers_openExisting ho).filed disk hfiles rfl he
  | crashReopening disk clock actor o ho k =>
    obtain ⟨_, hk⟩ := (numbers_openExisting ho).take k
    exact hk.filed disk hfiles rfl he
  | recover disk clock actor reason k =>
    obtain ⟨_, hwrites⟩ := numbers_recoverInterrupted clock actor reason
    obtain ⟨_, hk⟩ := hwrites.take k
    exact hk.filed disk hfiles rfl he

theorem filed_of_steps (hsteps : Relation.ReflTransGen (Step host) site later)
    (h : site.Numbered) {e : AuditEvent} (he : e.Filed site.disk.files) :
    e.Filed later.disk.files := by
  have hboth : later.Numbered ∧ e.Filed later.disk.files := by
    induction hsteps with
    | refl => exact ⟨h, he⟩
    | tail _ hstep ih => exact ⟨hstep.numbered ih.1, hstep.filed ih.1 ih.2⟩
  exact hboth.2

/-- **The hash chain binds the whole history.** Accepted files with one head hash hold the same
events; so a file with a forged history is refused or has another head. The first events that
`AuditJournal` has written at any point of a run are accepted exactly when they meet the schema and
their artifacts are in the directory, and once accepted they stay accepted. -/
theorem chain_binds_history :
    (∀ (fromIsoformat fromIsoformat' : String → Bool) (files files' : Dict String (List ℕ))
      (text text' : List Char) (v v' : Verification), CollisionFree text text' →
      verifyEventJournal fromIsoformat files text = .ok v →
      verifyEventJournal fromIsoformat' files' text' = .ok v' → v.headHash = v'.headHash →
      ∃ es, journalEvents text = some es ∧ journalEvents text' = some es) ∧
    (∀ (host : Host) (runId evidenceClassification : String) (site : Site),
      Named runId evidenceClassification → Reached host runId evidenceClassification site →
      ∃ es, site.disk.events = journalText es ∧
        journalEvents site.disk.events = some (es.map (·.value)) ∧ ∀ k, 0 < k →
        ((∃ v, verifyEventJournal host.fromIsoformat site.disk.files
            (journalText (es.take k)) = .ok v) ↔
          ∀ e ∈ es.take k, e.Admissible host.fromIsoformat ∧ e.Filed site.disk.files) ∧
        ((∃ v, verifyEventJournal host.fromIsoformat site.disk.files
            (journalText (es.take k)) = .ok v) →
          ∀ later, Relation.ReflTransGen (Step host) site later →
            ∃ v, verifyEventJournal host.fromIsoformat later.disk.files
              (journalText (es.take k)) = .ok v)) ∧
    ∀ (fromIsoformat fromIsoformat' : String → Bool) (files files' : Dict String (List ℕ))
      (text text' : List Char) (es es' : List Json) (v : Verification),
      CollisionFree text text' → verifyEventJournal fromIsoformat files text = .ok v →
      journalEvents text = some es → journalEvents text' = some es' → Tampered es es' →
      (∃ message, verifyEventJournal fromIsoformat' files' text' = .error message) ∨
        ∃ v', verifyEventJournal fromIsoformat' files' text' = .ok v' ∧
          v'.headHash ≠ v.headHash := by
  refine ⟨?_, ?_, ?_⟩
  · intro _ _ _ _ text text' v v' hfree h h' hhead
    exact journalEvents_eq hfree h h' hhead
  · intro host runId evidenceClassification site hnamed hreached
    obtain ⟨es, c, hintact, -⟩ := hreached.sound hnamed
    refine ⟨es, hintact.events, ?_, fun k hk => ⟨hintact.verifies_take_iff hk, ?_⟩⟩
    · rw [hintact.events, journalEvents_journalText]
    intro hverifies later hsteps
    have hall := (hintact.verifies_take_iff hk).1 hverifies
    have hlinked : Linked runId evidenceClassification (es.take k) := hintact.linked_take k
    refine ⟨_, (verifyEventJournal_eq_ok hlinked (hintact.take_ne_nil hk)).2 ⟨?_, rfl⟩⟩
    intro e he
    exact ⟨(hall e he).1, filed_of_steps hsteps hreached.numbered (hall e he).2⟩
  · intro fromIsoformat fromIsoformat' files files' text text' es es' v hfree h hes hes' htampered
    cases h' : verifyEventJournal fromIsoformat' files' text' with
    | error message => exact .inl ⟨message, rfl⟩
    | ok v' =>
      refine .inr ⟨v', rfl, fun hhead => ?_⟩
      obtain ⟨fs, hfs, hfs'⟩ := journalEvents_eq hfree h h' hhead.symm
      rw [hes] at hfs
      rw [hes'] at hfs'
      exact htampered.ne ((Option.some.inj hfs).trans (Option.some.inj hfs').symm)

end Written

/-! ## A new journal -/

def startDraft : Draft :=
  Journal.plainDraft (plainClock 1) "run_started" "started"
    (Payload.empty.set "audit_protocol" (Payload.text auditProtocol)) controllerActor

def startEvent : AuditEvent := nextEvent "run" "production_lifecycle" [] startDraft

/-- The file of a new journal, with blanks at the end of its line. -/
def startText (blanks : ℕ) : List Char :=
  Json.dumps startEvent.value ++ List.replicate blanks ' ' ++ ['\n']

theorem textLines_startText (blanks : ℕ) : textLines (startText blanks) =
    [Json.dumps startEvent.value ++ List.replicate blanks ' '] := by
  have hlow : ∀ c ∈ Json.dumps startEvent.value ++ List.replicate blanks ' ', 32 ≤ c.toNat := by
    intro c hc
    rcases mem_append.1 hc with hc | hc
    · exact (mem_dumps _ c hc).1
    · rw [eq_of_mem_replicate hc]
      decide
  have hreturn : '\r' ∉ startText blanks := by
    intro hmem
    rcases mem_append.1 hmem with hmem | hmem
    · exact absurd (hlow _ hmem) (by decide)
    · exact absurd (mem_singleton.1 hmem) (by decide)
  rw [textLines, translateNewlines_eq_self hreturn, startText]
  refine (splitBreaks_line (fun c hc => ?_) (by rfl) [] []).trans rfl
  rw [beq_eq_false_iff_ne]
  rintro rfl
  exact absurd (hlow _ hc) (by decide)

theorem loads_startLine (blanks : ℕ) :
    Json.loads (Json.dumps startEvent.value ++ List.replicate blanks ' ') =
      some startEvent.value := by
  refine Json.loads_dumps (keyed_value startEvent) fun c hc => ?_
  rw [eq_of_mem_replicate hc]
  rfl

theorem journalEvents_startText (blanks : ℕ) :
    journalEvents (startText blanks) = some [startEvent.value] := by
  rw [journalEvents, textLines_startText, mapM_cons, loads_startLine]
  rfl

theorem verify_startText (blanks : ℕ) : ∃ v,
    verifyEventJournal plainHost.fromIsoformat ⟨[], nodup_nil⟩ (startText blanks) = .ok v ∧
      v.headHash = some startEvent.eventHash := by
  have hverify : verifyEvent plainHost.fromIsoformat ⟨[], nodup_nil⟩ {} startEvent.value =
      .ok ⟨some (.str "run"), some (.str "production_lifecycle"), [startEvent.eventHash]⟩ := by
    refine (verifyEvent_value rfl rfl (.inl rfl) (.inl rfl)).2 ⟨?_, nofun, rfl⟩
    refine (validateEvent_iff fun h hh => by cases hh).2 ⟨?_, ?_, ?_, ?_, ?_, ?_, ?_, nofun, nofun⟩ <;> decide
  refine ⟨⟨.str "run", [startEvent.eventHash], .str "production_lifecycle"⟩, ?_, rfl⟩
  rw [verifyEventJournal, textLines_startText, readEach, loads_startLine]
  dsimp only
  rw [hverify]
  rfl

theorem collisionFree_start {text text' : List Char} {es es' : List Json}
    (hes : journalEvents text = some es) (hes' : journalEvents text' = some es')
    (hall : ∀ e ∈ es ++ es', e = startEvent.value) : CollisionFree text text' := by
  have hone : ∀ b ∈ hashedTexts text ∪ hashedTexts text', b = hashedBytes startEvent.value := by
    rintro b (⟨fs, hfs, e, he, rfl⟩ | ⟨fs, hfs, e, he, rfl⟩)
    · cases hes.symm.trans hfs
      rw [hall e (mem_append_left _ he)]
    · cases hes'.symm.trans hfs
      rw [hall e (mem_append_right _ he)]
  intro b hb b' hb' _
  rw [hone b hb, hone b' hb']

theorem chain_binds_history_new :
    (∃ es, journalEvents (startText 0) = some es ∧ journalEvents (startText 1) = some es) ∧
      (∃ es, (newSite plainClock controllerActor "run" "production_lifecycle").disk.events =
        journalText es) ∧
      ∀ v, verifyEventJournal plainHost.fromIsoformat ⟨[], nodup_nil⟩ (startText 0) = .ok v →
        (∃ message, verifyEventJournal plainHost.fromIsoformat ⟨[], nodup_nil⟩
          (journalText [startEvent, startEvent]) = .error message) ∨
        ∃ v', verifyEventJournal plainHost.fromIsoformat ⟨[], nodup_nil⟩
          (journalText [startEvent, startEvent]) = .ok v' ∧ v'.headHash ≠ v.headHash := by
  obtain ⟨v, hv, hhead⟩ := verify_startText 0
  obtain ⟨v', hv', hhead'⟩ := verify_startText 1
  have hevents := journalEvents_startText 0
  have htwice := journalEvents_journalText [startEvent, startEvent]
  have hnamed : Named "run" "production_lifecycle" := ⟨by decide, by decide⟩
  refine ⟨chain_binds_history.1 _ _ _ _ _ _ v v'
    (collisionFree_start hevents (journalEvents_startText 1) (by simp)) hv hv'
    (hhead.trans hhead'.symm), ?_, ?_⟩
  · obtain ⟨es, hes, -⟩ := chain_binds_history.2.1 plainHost "run" "production_lifecycle" _ hnamed
      ⟨plainClock, controllerActor, .refl⟩
    exact ⟨es, hes⟩
  · intro v hv
    exact chain_binds_history.2.2 _ _ _ _ _ _ _ _ v
      (collisionFree_start hevents htwice (by simp)) hv hevents htwice
      (.insert [] [startEvent.value] startEvent.value (cons_ne_nil _ _))

/-! ## An event that the schema refuses -/

/-- The new journal on which the controller has appended an event with the given type. -/
def appendedSite (eventType : String) : Site :=
  let site := newSite plainClock controllerActor "run" "production_lifecycle"
  let o := (newJournal plainClock controllerActor "run" "production_lifecycle").journal.perform
    plainClock site.disk
    (.append (Journal.plainDraft (plainClock 0) eventType "succeeded" Payload.empty
      controllerActor))
  ⟨site.disk.writeAll o.writes, some o.journal⟩

theorem reached_appendedSite (eventType : String) :
    Reached plainHost "run" "production_lifecycle" (appendedSite eventType) :=
  ⟨plainClock, controllerActor, .single (.perform _ _ plainClock _)⟩

theorem events_appendedSite (eventType : String) : (appendedSite eventType).disk.events =
    journalText (appendAll "run" "production_lifecycle" [startDraft,
      Journal.plainDraft (plainClock 0) eventType "succeeded" Payload.empty controllerActor]) := by
  have hbytes (e e' : AuditEvent) : journalText [e, e'] =
      [] ++ (Json.dumps e.value ++ ['\n']) ++ (Json.dumps e'.value ++ ['\n']) := by
    simp [journalText, writeLines]
  exact (hbytes _ _).symm

/-- `append` checks none of its arguments. -/
theorem append_unchecked : ¬ ∀ (host : Host) (runId evidenceClassification : String) (site : Site),
    Named runId evidenceClassification → Reached host runId evidenceClassification site →
      ∃ v, verifyEventJournal host.fromIsoformat site.disk.files site.disk.events = .ok v := by
  intro hclaim
  have hnamed : Named "run" "production_lifecycle" := ⟨by decide, by decide⟩
  obtain ⟨v, hv⟩ := hclaim plainHost "run" "production_lifecycle" _ hnamed (reached_appendedSite "")
  rw [events_appendedSite] at hv
  have hall := ((verifyEventJournal_eq_ok (linked_appendAll _)
    (by exact cons_ne_nil _ _)).1 hv).1
  obtain ⟨-, -, htype, -⟩ := (hall _ (mem_cons_of_mem _ mem_cons_self)).1
  exact htype rfl

end HarnessLabs.Audit
