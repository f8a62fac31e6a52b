import HarnessLabs.Campaign.Custody

/-!
# Regression suspects and the next round

An ingest places the suspects of a regression in the checkpoint, and the rule step asks for a ruling
on each of them. It counts those of its own call; the plan step does not look at suspects at all.

* `Rulings` — what an observer notes: the suspects of the latest ingest, the keys that the ledger
  holds a ruling for since, and the rounds that were planned too early.
* `Orderly` — a rule call names every suspect, or leaves one without a ruling; a plan call waits for
  a rule call that ended ruled.
* `suspects_gate` — **orderly calls plan no round too early, and the ruling that was missing last
  ends its call ruled.**
* `suspects_not_gated` — a plan call behind the ingest, and two rule calls.
-/

namespace HarnessLabs.Campaign

open Audit (require require_bind_eq_ok bind_eq_ok)
open Controller (isBlank)
open PlanGraph.Convergence (Key Record recordRuling)
open Durable (Script Watched Holds)

/-! ## What is noted -/

inductive RoundInput where
  | ingest (head : Option String) (input : IngestInput)
  | rule (head : Option String) (dispositions : List RulingItem)
  | plan (head : Option String) (source : Except String RoundPlan)

def RoundInput.script (host : Host) : RoundInput → Driver Unit
  | .ingest head input => Campaign.ingest host head input
  | .rule head dispositions => Campaign.rule head dispositions
  | .plan head source => Campaign.plan host head source

/-- The suspects of the latest ingest, the keys that were ruled since, whether a rule call ended
ruled since, and how many rounds were planned while a suspect had no ruling. -/
structure Rulings where
  suspects : List Key
  ruled : List Key := []
  answered : Bool := false
  early : ℕ := 0

/-- The suspects without a ruling. -/
def Rulings.unruled (n : Rulings) : List Key := n.suspects.filter (· ∉ n.ruled)

def Rulings.note (n : Rulings) (_ : Disk) : Write → Rulings
  | .append (.findingRuled key _ _ _) => { n with ruled := n.ruled ++ [key] }
  | .save ⟨.ingested, state⟩ =>
    { n with suspects := state.regressionSuspects, ruled := [], answered := false }
  | .save ⟨.ruled, _⟩ => { n with answered := true }
  | .save ⟨.planned, _⟩ => if n.unruled = [] then n else { n with early := n.early + 1 }
  | _ => n

/-- Nothing is ruled yet. -/
def Rulings.start (d : Disk) : Watched Disk Rulings :=
  ⟨d, { suspects := (d.checkpoint.map (·.state.regressionSuspects)).getD [] }⟩

def perform (host : Host) (input : RoundInput) (w : Watched Disk Rulings) :
    Option (Watched Disk Rulings) :=
  some (w.writeAll Rulings.note ((input.script host) w.store).1)

/-- The ledger takes the rulings one behind the other. -/
def takesAll (journal : List Record) : List RulingItem → Bool
  | [] => true
  | item :: rest =>
    match recordRuling journal (.arr [.str item.key.1, .str item.key.2]) item.disposition
      item.statement item.actor with
    | .error _ => false
    | .ok record => takesAll (journal ++ [record]) rest

/-- A rule call with a suspect to rule leaves one out that has no ruling, or names them all in items
that the ledger takes; a plan call has no suspects, or a rule call ended ruled. -/
def Orderly (w : Watched Disk Rulings) : RoundInput → Prop
  | .ingest _ _ => True
  | .rule _ dispositions =>
    w.notes.unruled = [] ∨ (∃ key ∈ w.notes.unruled, key ∉ dispositions.map RulingItem.key) ∨
      unanswered w.notes.suspects dispositions = [] ∧ takesAll w.store.journal dispositions
  | .plan _ _ => w.notes.suspects = [] ∨ w.notes.answered = true

/-- No round is planned too early, and a rule call that supplies the last ruling ends ruled. -/
def Gates (w : Watched Disk Rulings) (input : RoundInput) (w' : Watched Disk Rulings) : Prop :=
  w'.notes.early = w.notes.early ∧
    match input with
    | .rule _ _ => w.notes.unruled ≠ [] → w'.notes.unruled = [] →
      w'.store.checkpoint.map (·.lifecycle) = some .ruled
    | .ingest _ _ | .plan _ _ => True

/-! ## Steps -/

/-- The checkpoint has the suspects of the latest ingest, and who ended ruled left none without a
ruling. -/
structure Tracked (w : Watched Disk Rulings) : Prop where
  suspects : ∀ checkpoint ∈ w.store.checkpoint,
    checkpoint.state.regressionSuspects = w.notes.suspects
  answered : w.notes.answered = true → w.notes.unruled = []

/-- What appends and seals keep. -/
structure Alike (w w' : Watched Disk Rulings) : Prop where
  checkpoint : w'.store.checkpoint = w.store.checkpoint
  suspects : w'.notes.suspects = w.notes.suspects
  answered : w'.notes.answered = w.notes.answered
  early : w'.notes.early = w.notes.early
  ruled : w.notes.ruled ⊆ w'.notes.ruled

section Steps

variable {w w' : Watched Disk Rulings} {writes : List Write} {d : Disk} {head : Option String}
  {state : CampaignState} {lifecycle : Lifecycle} {host : Host}

theorem unruled_eq_nil {n : Rulings} : n.unruled = [] ↔ ∀ key ∈ n.suspects, key ∈ n.ruled := by
  simp [Rulings.unruled]

theorem Alike.unruled (h : Alike w w') (hnone : w.notes.unruled = []) : w'.notes.unruled = [] := by
  rw [unruled_eq_nil] at hnone ⊢
  rw [h.suspects]
  exact fun key hkey => h.ruled (hnone key hkey)

theorem Tracked.alike (h : Tracked w) (hsame : Alike w w') : Tracked w' where
  suspects := by
    rw [hsame.checkpoint, hsame.suspects]
    exact h.suspects
  answered ha := hsame.unruled (h.answered (hsame.answered ▸ ha))

theorem Alike.refl (w : Watched Disk Rulings) : Alike w w := ⟨rfl, rfl, rfl, rfl, fun _ => id⟩

theorem Alike.trans {w'' : Watched Disk Rulings} (h : Alike w w') (h' : Alike w' w'') :
    Alike w w'' :=
  ⟨h'.1.trans h.1, h'.2.trans h.2, h'.3.trans h.3, h'.4.trans h.4, fun _ hk => h'.5 (h.5 hk)⟩

theorem alike_append (w : Watched Disk Rulings) (record : Record) :
    Alike w (w.write Rulings.note (.append record)) := by
  cases record with
  | findingRuled => exact ⟨rfl, rfl, rfl, rfl, List.subset_append_left _ _⟩
  | _ => exact ⟨rfl, rfl, rfl, rfl, fun _ => id⟩

theorem alike_seal (w : Watched Disk Rulings) (digest : String) (content : Json) :
    Alike w (w.write Rulings.note (.seal digest content)) :=
  ⟨Rules.checkpoint_seal w _ _, rfl, rfl, rfl, fun _ => id⟩

/-- What ingest and plan keep. -/
def Kempt (early : ℕ) (w : Watched Disk Rulings) : Prop := Tracked w ∧ w.notes.early = early

variable {early : ℕ}

theorem Kempt.alike (h : Kempt early w) (hsame : Alike w w') : Kempt early w' :=
  ⟨h.1.alike hsame, hsame.early.trans h.2⟩

/-- A save that is not noted. -/
theorem Kempt.save (h : Kempt early w)
    (hnotes : (w.write Rulings.note (.save ⟨lifecycle, state⟩)).notes = w.notes)
    (hstate : state.regressionSuspects = w.notes.suspects) :
    Kempt early (w.write Rulings.note (.save ⟨lifecycle, state⟩)) := by
  refine ⟨⟨fun checkpoint hcheckpoint => ?_, ?_⟩, ?_⟩
  · cases hcheckpoint
    rw [hnotes]
    exact hstate
  · rw [hnotes]
    exact h.1.answered
  · rw [hnotes]
    exact h.2

theorem enter_kempt (hlifecycle : lifecycle = .ingesting ∨ lifecycle = .ruling) (h : Kempt early w)
    {I : Watched Disk Rulings → Prop} (hI : ∀ b, Kempt early b → b.notes = w.notes → I b) :
    Holds Rulings.note I (Campaign.enter head lifecycle) (fun state b => Kempt early b ∧
      b.notes = w.notes ∧ b.store.journal = w.store.journal ∧
        state.regressionSuspects = w.notes.suspects) w := by
  refine Rules.enter (hI w h rfl) fun before state hcheckpoint => ?_
  have hstate := h.1.suspects _ hcheckpoint
  have hnotes : (w.write Rulings.note (.save ⟨lifecycle, state⟩)).notes = w.notes := by
    rcases hlifecycle with rfl | rfl <;> rfl
  have hnext := h.save hnotes hstate
  exact ⟨hI _ hnext hnotes, hnext, hnotes, rfl, hstate⟩

theorem ingest_kempt {input : IngestInput} (h : Kempt early w) :
    Holds Rulings.note (Kempt early) (Campaign.ingest host head input) (fun _ => Kempt early)
      w := by
  refine Holds.bind ((enter_kempt (.inl rfl) h fun _ hb _ => hb).mono fun state b hb => ?_)
  refine Holds.bind (Holds.read hb.1 (Holds.bind (Rules.liftM hb.1 fun auditResult _ => ?_)))
  have hledger : Holds Rulings.note (Kempt early) (ingestLedger auditResult)
      (fun _ => Kempt early) b := by
    refine Holds.bind (Holds.read hb.1 (Holds.bind (Rules.liftM hb.1 fun r _ => ?_)))
    refine Holds.bind ((Holds.forM (fun _ => id) (fun record _ c hc => ?_) hb.1).mono
      fun _ c hc => Holds.pure hc hc)
    exact Holds.put hc (hc.alike (alike_append c record)) (hc.alike (alike_append c record))
  refine Holds.bind (hledger.mono fun summary c hc => Holds.bind (Holds.read hc ?_))
  have hsealed : Holds Rulings.note (Kempt early) (sealRecurrenceAnnotations host input.history
      (annotationKeys summary c.store.journal)) (fun _ => Kempt early) c := by
    unfold sealRecurrenceAnnotations
    cases input.history with
    | none => exact Holds.pure hc hc
    | some history =>
      split_ifs
      · exact Holds.pure hc hc
      · refine Holds.bind (Rules.liftM hc fun history _ => Holds.foldlM (fun _ => id)
          (fun digests key _ e he => ?_) hc)
        unfold annotationSealed
        cases history key with
        | none => exact Holds.pure he he
        | some payload =>
          have hnext := he.alike (alike_seal e (host.digest payload) payload)
          exact Holds.bind (Holds.put he hnext (Holds.pure hnext hnext))
  refine Holds.bind (hsealed.mono fun annotations e he => ?_)
  have hnext : ∀ next, Kempt early (e.write Rulings.note (.save ⟨.ingested, next⟩)) := fun next =>
    ⟨⟨fun checkpoint hcheckpoint => by cases hcheckpoint; rfl, nofun⟩, he.2⟩
  exact Rules.save he (hnext _) (hnext _)

theorem plan_kempt {source : Except String RoundPlan} (h : Kempt early w)
    (horderly : Orderly w (.plan head source)) :
    Holds Rulings.note (Kempt early) (Campaign.plan host head source) (fun _ => Kempt early) w := by
  have hnone : w.notes.unruled = [] := horderly.elim
    (fun hsuspects => by simp [Rulings.unruled, hsuspects]) h.1.answered
  refine Holds.bind (Rules.loadState h (Holds.bind (Rules.liftM h fun _ _ => ?_)))
  refine Holds.bind (Holds.read h (Holds.bind (Rules.liftM h fun s _ => ?_)))
  have hloaded : ∀ state, w.store.checkpoint.map (·.state) = some state →
      state.regressionSuspects = w.notes.suspects := by
    intro state hstate
    obtain ⟨checkpoint, hcheckpoint, rfl⟩ := Option.map_eq_some_iff.1 hstate
    exact h.1.suspects checkpoint hcheckpoint
  cases guardBeforePlan s host.maxRepairRounds _ with
  | some reason =>
    refine Holds.bind (Rules.saveLoaded h fun state hstate => ?_)
    obtain ⟨loaded, hbefore, rfl⟩ := Option.map_eq_some_iff.1 hstate
    have hnext : Kempt early (w.write Rulings.note
        (.save ⟨.blocked, { loaded with blockedReason := some reason }⟩)) :=
      h.save rfl (hloaded loaded hbefore)
    exact ⟨hnext, Rules.raise hnext⟩
  | none =>
    refine Holds.bind (Rules.saveLoaded h fun state hstate => ?_)
    have hnext : Kempt early (w.write Rulings.note (.save ⟨.planning, state⟩)) :=
      h.save rfl (hloaded state hstate)
    refine ⟨hnext, Holds.bind (Rules.liftM hnext fun roundPlan _ => ?_)⟩
    have hplanned : ∀ next, next.regressionSuspects = w.notes.suspects →
        Kempt early ((w.write Rulings.note (.save ⟨.planning, state⟩)).write Rulings.note
          (.save ⟨.planned, next⟩)) := fun next hsame => hnext.save (if_pos hnone) hsame
    exact Rules.save hnext (hplanned _ (hloaded state hstate)) (hplanned _ (hloaded state hstate))

/-! ## Rulings -/

theorem recordRuling_eq_ok {journal : List Record} {item : RulingItem} {record : Record}
    (h : recordRuling journal (.arr [.str item.key.1, .str item.key.2]) item.disposition
      item.statement item.actor = .ok record) :
    ∃ disposition, record = .findingRuled item.key disposition item.statement item.actor := by
  obtain ⟨key, hkey, h⟩ := bind_eq_ok.1 h
  have hkey : key = item.key := by
    unfold PlanGraph.Convergence.validateKey at hkey
    dsimp only at hkey
    split_ifs at hkey
    cases hkey
    rfl
  cases hdisposition : PlanGraph.Convergence.disposition? item.disposition with
  | none => simp [hdisposition] at h
  | some disposition =>
    simp only [hdisposition] at h
    obtain ⟨-, h⟩ := require_bind_eq_ok.1 h
    obtain ⟨_, -, h⟩ := bind_eq_ok.1 h
    cases (require_bind_eq_ok.1 h).2
    exact ⟨disposition, by rw [hkey]⟩

/-- The items of a rule call, up to one that the ledger refuses. -/
theorem items_run (items : List RulingItem) (w : Watched Disk Rulings) :
    ∃ writes result, (items.forM ruleItem : Driver PUnit) w.store = (writes, result) ∧
      Alike w (w.writeAll Rulings.note writes) ∧
      (∀ key ∈ (w.writeAll Rulings.note writes).notes.ruled,
        key ∈ w.notes.ruled ∨ key ∈ items.map RulingItem.key) ∧
      (result = .ok ⟨⟩ → items.map RulingItem.key ⊆ (w.writeAll Rulings.note writes).notes.ruled) ∧
      (takesAll w.store.journal items → result = .ok ⟨⟩) := by
  induction items generalizing w with
  | nil =>
    exact ⟨[], .ok ⟨⟩, rfl, .refl w, fun _ => .inl, fun _ => List.nil_subset _, fun _ => rfl⟩
  | cons item rest ih =>
    rw [takesAll]
    cases hrecord : recordRuling w.store.journal (.arr [.str item.key.1, .str item.key.2])
      item.disposition item.statement item.actor with
    | error e =>
      have hitem : ruleItem item w.store = ([], .error e) := by
        rw [ruleItem, Script.bind_ok (Script.read_run _), Durable.writeAll_nil, hrecord]
        rfl
      exact ⟨[], .error e, Script.bind_error hitem _, .refl w, fun _ => .inl, nofun, nofun⟩
    | ok record =>
      have hitem : ruleItem item w.store = ([.append record], .ok ⟨⟩) := by
        rw [ruleItem, Script.bind_ok (Script.read_run _), Durable.writeAll_nil, hrecord]
        rfl
      obtain ⟨writes, result, hrest, halike, hruled, hdone, hok⟩ :=
        ih (w.write Rulings.note (.append record))
      have hcons := Script.bind_ok hitem fun _ => (rest.forM ruleItem : Driver PUnit)
      change _ = (_ ++ (rest.forM ruleItem (w.write Rulings.note (.append record)).store).1,
        (rest.forM ruleItem (w.write Rulings.note (.append record)).store).2) at hcons
      rw [hrest] at hcons
      have hnoted : (w.write Rulings.note (.append record)).notes.ruled =
          w.notes.ruled ++ [item.key] := by
        obtain ⟨disposition, rfl⟩ := recordRuling_eq_ok hrecord
        rfl
      rw [hnoted] at hruled
      refine ⟨_, result, hcons, (alike_append w record).trans halike, fun key hkey => ?_,
        fun hresult => ?_, hok⟩
      · have hkey := hruled key hkey
        simp only [List.mem_append, List.map_cons, List.mem_cons] at hkey ⊢
        tauto
      · rw [List.map_cons, List.cons_subset]
        exact ⟨halike.ruled (by simp [hnoted]), hdone hresult⟩

theorem save_run (h : state.currentBaseCommit ≠ "" ∧ isBlank state.currentBaseCommit = false)
    (d : Disk) : Campaign.save lifecycle state d = ([.save ⟨lifecycle, state⟩], .ok ()) := by
  rw [Campaign.save, require, if_pos h.1, require, if_pos h.2]
  rfl

/-- A state that was saved can be saved. -/
theorem enter_saveable (head : Option String) (w : Watched Disk Rulings) :
    Holds Rulings.note (fun _ => True) (Campaign.enter head lifecycle) (fun state _ =>
      state.currentBaseCommit ≠ "" ∧ isBlank state.currentBaseCommit = false) w := by
  refine Holds.bind (Rules.loadState trivial ?_)
  cases w.store.checkpoint.map (·.state) with
  | none => exact Rules.raise trivial
  | some state =>
    refine Holds.bind (Holds.bind (Rules.liftM trivial fun _ hbase => Holds.bind
      (Rules.liftM trivial fun _ hfilled => ?_)))
    exact Holds.put trivial trivial (Holds.pure trivial ⟨Audit.require_eq_ok.1 hbase,
      Audit.require_eq_ok.1 hfilled⟩)

theorem unanswered_eq_nil {suspects : List Key} {dispositions : List RulingItem} :
    unanswered suspects dispositions = [] ↔
      ∀ key ∈ suspects, key ∈ dispositions.map RulingItem.key := by
  simp [unanswered, PlanGraph.Convergence.sortKeys, List.eq_nil_iff_forall_not_mem]

/-- A rule call that every suspect is left out of, or that is taken whole. -/
theorem rule_gates {dispositions : List RulingItem} (h : Tracked w)
    (horderly : Orderly w (.rule head dispositions))
    (hw : perform host (.rule head dispositions) w = some w') :
    Gates w (.rule head dispositions) w' ∧ Tracked w' := by
  cases hw
  have hentered := @enter_kempt w head .ruling _ (.inr rfl) ⟨h, rfl⟩
    (fun b => Kempt w.notes.early b ∧ b.notes = w.notes) fun _ => And.intro
  change Gates w _ (w.writeAll _ (Campaign.rule head dispositions w.store).1) ∧
    Tracked (w.writeAll _ (Campaign.rule head dispositions w.store).1)
  unfold Campaign.rule
  rcases hrun : Campaign.enter head .ruling w.store with ⟨entered, e | state⟩
  · rw [Script.bind_error hrun]
    have hall := hentered.always entered.length
    rw [hrun, List.take_length] at hall
    exact ⟨⟨hall.1.2, fun hsome hnone => absurd (hall.2 ▸ hnone) hsome⟩, hall.1.1⟩
  · obtain ⟨hkempt, hnotes, hjournal, hstate⟩ := hentered.post state (by rw [hrun])
    have hsave := (@enter_saveable .ruling head w).post state (by rw [hrun])
    rw [hrun] at hkempt hnotes hjournal
    obtain ⟨writes, result, hitems, halike, hruled, hdone, hok⟩ :=
      items_run dispositions (w.writeAll Rulings.note entered)
    rw [Watched.store_writeAll] at hitems
    rw [hnotes] at hruled
    rw [Script.bind_ok hrun, Watched.writeAll_append]
    generalize w.writeAll Rulings.note entered = b at *
    have hb := hkempt.alike halike
    have hsuspects : (b.writeAll Rulings.note writes).notes.suspects = w.notes.suspects :=
      halike.suspects.trans (congrArg Rulings.suspects hnotes)
    have hleft : w.notes.unruled ≠ [] → (b.writeAll Rulings.note writes).notes.unruled = [] →
        unanswered w.notes.suspects dispositions = [] ∧ result = .ok ⟨⟩ := by
      intro hsome hnone
      rcases horderly with hnone' | ⟨key, hkey, hout⟩ | ⟨hanswered, htakes⟩
      · exact absurd hnone' hsome
      · obtain ⟨hsuspect, hopen⟩ : key ∈ w.notes.suspects ∧ key ∉ w.notes.ruled := by
          simpa [Rulings.unruled] using hkey
        have hkey := unruled_eq_nil.1 hnone key (hsuspects ▸ hsuspect)
        exact absurd (hruled key hkey) (not_or.2 ⟨hopen, hout⟩)
      · exact ⟨hanswered, hok (hjournal ▸ htakes)⟩
    cases result with
    | error e =>
      rw [Script.bind_error hitems]
      exact ⟨⟨hb.2, fun hsome hnone => nomatch (hleft hsome hnone).2⟩, hb.1⟩
    | ok =>
      rw [Script.bind_ok hitems]
      rw [← hstate] at hleft
      by_cases hmissing : unanswered state.regressionSuspects dispositions = []
      · rw [if_neg (not_not.2 hmissing), save_run hsave, Watched.writeAll_append]
        refine ⟨⟨hb.2, fun _ _ => rfl⟩, fun checkpoint hcheckpoint => ?_, fun _ => ?_⟩
        · cases hcheckpoint
          exact hstate.trans hsuspects.symm
        · refine unruled_eq_nil.2 fun key hkey => hdone rfl ?_
          exact unanswered_eq_nil.1 hmissing key (hstate ▸ hsuspects ▸ hkey)
      · rw [if_pos hmissing, Script.bind_ok (@save_run { state with blockedReason := some _ }
          .blocked hsave _), Watched.writeAll_append]
        have hnext := fun reason => @Kempt.save _ { state with blockedReason := reason } .blocked _
          hb rfl (hstate.trans hsuspects.symm)
        exact ⟨⟨(hnext _).2, fun hsome hnone => absurd (hleft hsome hnone).1 hmissing⟩, (hnext _).1⟩

/-- **Orderly calls plan no round too early, and the ruling that was missing last ends its call
ruled.** -/
theorem suspects_gate (host : Host) (d : Disk) (inputs : List RoundInput)
    (h : Inputs.AllInputs (perform host) Orderly (Rulings.start d) inputs) :
    Inputs.AllSteps (perform host) Gates (Rulings.start d) inputs := by
  have hstart : Tracked (Rulings.start d) := by
    refine ⟨fun checkpoint hcheckpoint => ?_, nofun⟩
    change _ = (d.checkpoint.map _).getD []
    rw [show d.checkpoint = some checkpoint from hcheckpoint]
    rfl
  generalize Rulings.start d = w at h hstart
  induction inputs generalizing w with
  | nil => trivial
  | cons input rest ih =>
    intro w' hw'
    obtain ⟨horderly, hrest⟩ := h w' hw'
    have hstep : Gates w input w' ∧ Tracked w' := by
      cases input with
      | ingest head input =>
        cases hw'
        have hall := (@ingest_kempt w head host _ input ⟨hstart, rfl⟩).always
          (Campaign.ingest host head input w.store).1.length
        rw [List.take_length] at hall
        exact ⟨⟨hall.2, trivial⟩, hall.1⟩
      | rule head dispositions => exact rule_gates hstart horderly hw'
      | plan head source =>
        cases hw'
        have hall := (@plan_kempt w head host _ source ⟨hstart, rfl⟩ horderly).always
          (Campaign.plan host head source w.store).1.length
        rw [List.take_length] at hall
        exact ⟨⟨hall.2, trivial⟩, hall.1⟩
    exact ⟨hstep.1, ih w' hrest hstep.2⟩

end Steps

/-! ## A suspect -/

/-- A campaign behind a round that repaired `a.py`. -/
def repairedDisk : Disk where
  checkpoint := some ⟨.closed, { currentBaseCommit := "c0", priorRepairGrants := ["a.py"] }⟩

def suspectFinding (subject : String) : Json :=
  .obj [("file", .str "a.py"), ("subject", .str subject), ("required_paths", .arr [.str "a.py"])]

def ingestSuspects (subjects : List String) : RoundInput :=
  .ingest none { auditResult := some (.obj [("digest", .str "d1"),
    ("findings", .arr (subjects.map suspectFinding))]) }

def waive (subjects : List String) : RoundInput :=
  .rule none (subjects.map fun subject => ⟨("a.py", subject), "waive", "kept", "operator"⟩)

def nextRound : RoundInput := .plan none (.ok ⟨"join", ["b.py"]⟩)

/-- Both suspects are ruled in one call, and the next round is planned. -/
theorem suspects_gate_waived : Inputs.AllSteps (perform plainHost) Gates
    (Rulings.start repairedDisk) [ingestSuspects ["s", "t"], waive ["s", "t"], nextRound] := by
  refine suspects_gate plainHost repairedDisk _ fun _ hb => ?_
  cases hb
  refine ⟨trivial, fun _ hb => ?_⟩
  cases hb
  refine ⟨.inr (.inr (by decide +kernel)), fun _ hb => ?_⟩
  exact ⟨.inr (by decide +kernel), trivial⟩

/-- **A round is planned while a suspect has no ruling; two rule calls that rule all suspects
between them both end blocked.** -/
theorem suspects_not_gated :
    ((Inputs.runInputs (perform plainHost) (Rulings.start repairedDisk)
      [ingestSuspects ["s"], nextRound]).map fun w => (w.notes.early, w.notes.unruled,
        w.store.checkpoint.map (·.lifecycle))) = some (1, [("a.py", "s")], some .planned) ∧
    ((Inputs.runInputs (perform plainHost) (Rulings.start repairedDisk)
      [ingestSuspects ["s", "t"], waive ["s"], waive ["t"]]).map fun w => (w.notes.unruled,
        w.store.checkpoint.map (·.lifecycle))) = some ([], some .blocked) := by
  decide +kernel

end HarnessLabs.Campaign
