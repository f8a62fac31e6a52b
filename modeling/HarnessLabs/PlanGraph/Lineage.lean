import HarnessLabs.PlanGraph.Registration
import HarnessLabs.PlanGraph.Routing

/-!
# Questions along a lineage

A repair successor of an attempt starts with a journal of its own and names its predecessor in its
checkpoint. A finding that the judge rejected comes back with the node that raised it, and only the
journals of the attempts before tell that it was judged.

* `traceFinding` — one escalated finding, with what it journals and when it asks the judge.
* `lineageEventJournals` — the journals from an attempt back through its predecessors.
* `Ranked` — predecessors are ranked below their successors, so the chain ends before the search.
* `Kept` — every predecessor is a finalized attempt with an intact journal.
* `escalation_routing` — **a finding is judged only where it has an owner, and never where an
  attempt of the lineage has journaled its rejection.**
-/

namespace HarnessLabs.PlanGraph

open List Function

/-! ## Journals -/

/-- An event of `events.jsonl`. -/
structure JournalEvent where
  eventType : String
  payload : Json

/-- A line of `events.jsonl`; `torn` is one that is no JSON. -/
inductive JournalLine where
  | blank
  | torn
  | event (e : JournalEvent)

/-- The event journals the rejection of the finding. -/
def JournalEvent.Rejects (e : JournalEvent) (key : String) : Prop :=
  e.eventType = "plan_graph_escalation_judged" ∧ e.payload.get? "finding_key" = some (.str key) ∧
    e.payload.get? "verdict" = some (.str "reject")

instance (e : JournalEvent) (key : String) : Decidable (e.Rejects key) :=
  inferInstanceAs (Decidable (_ ∧ _ ∧ _))

/-- One journal read up to its first torn line. -/
def readsRejection (key : String) : List JournalLine → Bool
  | [] => false
  | .blank :: rest => readsRejection key rest
  | .torn :: _ => false
  | .event e :: rest => decide (e.Rejects key) || readsRejection key rest

/-- `prior_escalation_verdict`. -/
def priorEscalationVerdict (journals : List (List JournalLine)) (key : String) : Option String :=
  if journals.any (readsRejection key) then some "reject" else none

/-- Some line of the journal journals the rejection. -/
def JournalsRejection (journal : List JournalLine) (key : String) : Prop :=
  ∃ e : JournalEvent, .event e ∈ journal ∧ e.Rejects key

def JournalLine.isEvent : JournalLine → Bool
  | .event _ => true
  | _ => false

/-- Every line is an event. -/
def Intact (journal : List JournalLine) : Prop := ∀ line ∈ journal, line.isEvent

instance (journal : List JournalLine) : Decidable (Intact journal) :=
  inferInstanceAs (Decidable (∀ line ∈ journal, line.isEvent = true))

theorem Intact.append {journal more : List JournalLine} (h : Intact journal)
    (hmore : Intact more) : Intact (journal ++ more) := by
  intro line hline
  rcases mem_append.1 hline with hline | hline
  · exact h line hline
  · exact hmore line hline

theorem readsRejection_iff {journal : List JournalLine} (h : Intact journal) {key : String} :
    readsRejection key journal ↔ JournalsRejection journal key := by
  induction journal with
  | nil => simp [readsRejection, JournalsRejection]
  | cons line rest ih =>
    have hline := h line mem_cons_self
    have hrest := ih fun l hl => h l (mem_cons_of_mem _ hl)
    obtain _ | _ | e := line
    · exact nomatch hline
    · exact nomatch hline
    simp only [readsRejection, Bool.or_eq_true, decide_eq_true_eq, hrest, JournalsRejection,
      mem_cons, JournalLine.event.injEq]
    constructor
    · rintro (hrejects | ⟨other, hmem, hrejects⟩)
      · exact ⟨e, .inl rfl, hrejects⟩
      · exact ⟨other, .inr hmem, hrejects⟩
    · rintro ⟨other, rfl | hmem, hrejects⟩
      · exact .inl hrejects
      · exact .inr ⟨other, hmem, hrejects⟩

/-! ## One finding -/

/-- What a pass over escalated findings does that is seen from outside. -/
inductive EscalationEffect where
  | journaled (event : JournalEvent)
  | asked (packet : Json)

/-- The lines that effects leave in the journal. -/
def journaledLines (effects : List EscalationEffect) : List JournalLine :=
  effects.filterMap fun
    | .journaled event => some (.event event)
    | .asked _ => none

/-- `record_finding_escalated`. -/
def findingEscalated (nodeId key owner : String) (paths : List String) : JournalEvent where
  eventType := "plan_graph_finding_escalated"
  payload := .obj [("finding_key", .str key), ("owner_node", .str owner),
    ("plan_node_id", .str nodeId), ("required_paths", .arr (paths.map .str))]

/-- `record_escalation_judged`. -/
def escalationJudged (nodeId key : String) (judgment : Judgment) : JournalEvent where
  eventType := "plan_graph_escalation_judged"
  payload := .obj [("finding_key", .str key), ("plan_node_id", .str nodeId),
    ("verdict", .str judgment.verdict.text)]

/-- `record_node_unsealed`. -/
def nodeUnsealed (owner key escalatingNode : String) : JournalEvent where
  eventType := "plan_graph_node_unsealed"
  payload := .obj [("finding_key", .str key), ("origin_node", .str escalatingNode),
    ("plan_node_id", .str owner)]

/-- The packet that the judge is given. -/
def judgePacket (run : PlanRun) (owner : String) (record : Json) : Json :=
  setField (setField (setField record "origin_node" (.str run.id)) "origin_reviewer_id"
    (.str run.id)) "owner_node" (.str owner)

/-- What a pass is about: the plan, the judge's identity, the node that escalates, the completed
nodes and the answers that the findings get. -/
structure EscalationPass where
  runs : List PlanRun
  identity : String
  run : PlanRun
  completed : String → Bool
  answers : ℕ → EscalationAnswer

namespace EscalationPass

variable (p : EscalationPass)

/-- A finding that is asked about. -/
def traceJudged (answer : EscalationAnswer) (pass : Resolving) (record : Json) (o : Obligation)
    (owner : String) (paths : List String) : Resolution × List EscalationEffect :=
  let asked := [.journaled (findingEscalated p.run.id o.key owner paths),
    .asked (judgePacket p.run owner record)]
  match answer.judge with
  | .unavailable why =>
    (.stop pass { pass.disposition with judgeUnavailable := some (o.key, owner, why) }, asked)
  | .raised message => (.raised pass message, asked)
  | .answered raw =>
    match validateJudgment raw with
    | .error message => (.raised pass message, asked)
    | .ok judgment =>
      let resolved := applyJudgment p.run p.completed answer.ledger pass o owner paths judgment
      let unsealed := judgment.verdict = .confirm ∧ p.completed owner ∧ answer.ledger = none
      (resolved, asked ++ .journaled (escalationJudged p.run.id o.key judgment) ::
        if unsealed then [.journaled (nodeUnsealed owner o.key p.run.id)] else [])

/-- One escalated finding, read against the journals of the lineage. -/
def traceFinding (answer : EscalationAnswer) (journals : List (List JournalLine))
    (pass : Resolving) (record : Json) : Resolution × List EscalationEffect :=
  match Obligation.ofRecord? record with
  | none => (.raised pass "escalated finding is missing its key", [])
  | some o =>
    match nonEmptyTexts? (record.get? "required_paths") with
    | none => (.raised pass s!"escalated finding {o.key} has invalid required_paths", [])
    | some paths =>
      match ownerForPaths? p.runs paths with
      | .error message => (.raised pass message, [])
      | .ok none =>
        match candidateOwnersForPaths? p.runs paths with
        | .error message => (.raised pass message, [])
        | .ok owners =>
          (.stop pass { pass.disposition with unrouted := some (o.key, owners) }, [])
      | .ok (some owner) =>
        if priorEscalationVerdict journals o.key = some "reject" then
          (.stop pass { pass.disposition with alreadyRejected := some (o.key, owner) }, [])
        else if p.identity = p.run.id then
          (.raised pass
            "escalation judge must be independent of the reviewer whose finding is being judged",
            [])
        else p.traceJudged answer pass record o owner paths

/-- The findings one after the other. `own` is the journal of the attempt so far, `elders` are
those of its predecessors. -/
def traceAll (elders : List (List JournalLine)) :
    ℕ → List JournalLine → Resolving → List Json →
      Except String EscalationDisposition × List EscalationEffect
  | _, _, pass, [] => (.ok (finalDisposition p.runs p.run pass), [])
  | n, own, pass, record :: rest =>
    match p.traceFinding (p.answers n) (own :: elders) pass record with
    | (.next later, effects) =>
      let (answer, more) := traceAll elders (n + 1) (own ++ journaledLines effects) later rest
      (answer, effects ++ more)
    | (.stop _ d, effects) => (.ok d, effects)
    | (.raised _ message, effects) => (.error message, effects)

end EscalationPass

/-! ## Attempts -/

/-- The directory of an attempt: the predecessor that its checkpoint names, its journal, and
whether it is finalized. -/
structure AttemptFiles where
  predecessor : Option String
  journal : List JournalLine
  finalized : Bool

/-- The directories under the run root. -/
abbrev AttemptRoot := Dict String AttemptFiles

/-- The journals of the predecessors, up to one that is seen, not named like an attempt, or not
there. -/
def elderJournals (root : AttemptRoot) :
    ℕ → List String → Option String → List (List JournalLine)
  | 0, _, _ | _, _, none => []
  | fuel + 1, seen, some id =>
    if id = "" ∨ id ∈ seen ∨ ¬ isPlanGraphId id then []
    else
      match root.get? id with
      | none => []
      | some files => files.journal :: elderJournals root fuel (id :: seen) files.predecessor

/-- `_lineage_event_journals` behind the attempt's own journal. No chain is longer than there are
attempts. -/
def lineageEventJournals (root : AttemptRoot) (id : String) (files : AttemptFiles) :
    List (List JournalLine) :=
  elderJournals root (root.items.length + 1) [id] files.predecessor

/-- The attempt names that predecessor. -/
def Precedes (root : AttemptRoot) (elder id : String) : Prop :=
  ∃ files, root.get? id = some files ∧ files.predecessor = some elder

/-- The lineage of an attempt: itself and its predecessors. -/
def Lineage (root : AttemptRoot) (id elder : String) : Prop :=
  Relation.ReflTransGen (fun a b => Precedes root b a) id elder

/-- Predecessors are there, and ranked below the attempts that name them. -/
structure Ranked (root : AttemptRoot) (rank : String → ℕ) : Prop where
  present : ∀ elder id, Precedes root elder id → elder ∈ root.keys
  below : ∀ elder id, Precedes root elder id → rank elder < rank id
  bounded : ∀ id ∈ root.keys, rank id ≤ root.items.length

/-- Every name is one of an attempt, and every predecessor is finalized with an intact journal. -/
structure Kept (root : AttemptRoot) : Prop where
  named : ∀ id ∈ root.keys, isPlanGraphId id
  sealed : ∀ elder id, Precedes root elder id →
    ∃ files, root.get? elder = some files ∧ files.finalized ∧ Intact files.journal
  ranked : ∃ rank, Ranked root rank

section Search

variable {root : AttemptRoot}

variable {id : String}

theorem elderJournals_of_get? (hkept : Kept root) {files : AttemptFiles}
    (hget : root.get? id = some files) {seen : List String} (hseen : id ∉ seen) (fuel : ℕ) :
    elderJournals root (fuel + 1) seen (some id) =
      files.journal :: elderJournals root fuel (id :: seen) files.predecessor := by
  have hnamed : isPlanGraphId id := hkept.named id (Dict.mem_keys_iff.2 ⟨files, hget⟩)
  have hne : id ≠ "" := by
    rintro rfl
    exact absurd hnamed (by decide)
  rw [elderJournals, if_neg (by simp [hne, hseen, hnamed]), hget]

/-- The search from `id` on finds the journals of its whole lineage: the attempts that it has seen
are ranked above. -/
theorem elderJournals_complete (hkept : Kept root) {rank : String → ℕ} (hrank : Ranked root rank)
    {elder : String} (hline : Lineage root id elder) :
    ∀ {fuel : ℕ} {seen : List String}, id ∈ root.keys → rank id < fuel →
      (∀ s ∈ seen, rank id < rank s) → ∃ files, root.get? elder = some files ∧
        files.journal ∈ elderJournals root fuel seen (some id) := by
  induction hline using Relation.ReflTransGen.head_induction_on with
  | refl =>
    intro fuel seen hid hfuel hseen
    obtain ⟨fuel, rfl⟩ := Nat.exists_eq_succ_of_ne_zero (Nat.ne_zero_of_lt hfuel)
    obtain ⟨files, hget⟩ := Dict.mem_keys_iff.1 hid
    refine ⟨files, hget, ?_⟩
    rw [elderJournals_of_get? hkept hget fun hmem => lt_irrefl _ (hseen _ hmem)]
    exact mem_cons_self
  | @head id next hstep _ ih =>
    intro fuel seen hid hfuel hseen
    obtain ⟨fuel, rfl⟩ := Nat.exists_eq_succ_of_ne_zero (Nat.ne_zero_of_lt hfuel)
    obtain ⟨files, hget, hnext⟩ := hstep
    have hbelow : rank next < rank id := hrank.below next id ⟨files, hget, hnext⟩
    have hpresent : next ∈ root.keys := hrank.present next id ⟨files, hget, hnext⟩
    have hseen' : ∀ s ∈ id :: seen, rank next < rank s := by
      intro s hs
      rcases mem_cons.1 hs with rfl | hs
      · exact hbelow
      · exact hbelow.trans (hseen s hs)
    obtain ⟨found, hfound, hmem⟩ := ih hpresent (hbelow.trans_le (Nat.le_of_lt_succ hfuel)) hseen'
    refine ⟨found, hfound, ?_⟩
    rw [elderJournals_of_get? hkept hget fun hmem => lt_irrefl _ (hseen _ hmem), hnext]
    exact mem_cons_of_mem _ hmem

/-- An elder of the lineage is the predecessor of some attempt. -/
theorem Lineage.preceded {elder : String} (h : Lineage root id elder) :
    elder = id ∨ ∃ next, Precedes root elder next := by
  rcases Relation.ReflTransGen.cases_tail h with heq | ⟨next, _, hlast⟩
  · exact .inl heq
  · exact .inr ⟨next, hlast⟩

/-- Where no journal that is read rejects the finding, none of the lineage does. -/
theorem not_rejected_of_prior (hkept : Kept root) {files : AttemptFiles}
    (hget : root.get? id = some files) {key : String}
    (hprior : priorEscalationVerdict (lineageEventJournals root id files) key = none)
    {elder : String} (hline : Lineage root id elder) (hne : elder ≠ id) {found : AttemptFiles}
    (hfound : root.get? elder = some found) : ¬ JournalsRejection found.journal key := by
  intro hrejects
  obtain ⟨rank, hrank⟩ := hkept.ranked
  rcases Relation.ReflTransGen.cases_head hline with heq | ⟨next, hstep, hrest⟩
  · exact hne heq.symm
  have hbelow : rank next < rank id := hrank.below next id hstep
  have hpresent : next ∈ root.keys := hrank.present next id hstep
  have hid : id ∈ root.keys := Dict.mem_keys_iff.2 ⟨files, hget⟩
  have hfuel : rank next < root.items.length + 1 :=
    hbelow.trans_le ((hrank.bounded id hid).trans (Nat.le_succ _))
  have hseen : ∀ s ∈ [id], rank next < rank s := by simpa using hbelow
  obtain ⟨other, hother, hmem⟩ := elderJournals_complete hkept hrank hrest hpresent hfuel hseen
  obtain rfl : other = found := Option.some.inj (hother.symm.trans hfound)
  have hnext : files.predecessor = some next := by
    obtain ⟨files', hget', hnext⟩ := hstep
    rw [hget] at hget'
    rwa [Option.some.inj hget']
  rcases hline.preceded with heq | ⟨later, hprecedes⟩
  · exact absurd heq hne
  obtain ⟨files', hget', _, hintact⟩ := hkept.sealed elder later hprecedes
  obtain rfl : files' = other := Option.some.inj (hget'.symm.trans hfound)
  have hread := (readsRejection_iff hintact).2 hrejects
  rw [priorEscalationVerdict, if_pos] at hprior
  · exact nomatch hprior
  · rw [any_eq_true]
    refine ⟨_, ?_, hread⟩
    rw [lineageEventJournals, hnext]
    exact hmem

end Search

/-! ## Runs -/

/-- Lines behind the journal of an attempt that is open: not finalized, with a journal that its
owner can append to. -/
def appendLines (root : AttemptRoot) (id : String) (lines : List JournalLine) :
    Option AttemptRoot :=
  match root.get? id with
  | none => none
  | some files =>
    if files.finalized ∨ ¬ Intact files.journal then none
    else some (root.set id { files with journal := files.journal ++ lines })

/-- The predecessor of a repair: finalized, with a journal that verifies. -/
def repairable (root : AttemptRoot) (elder : String) : Bool :=
  match root.get? elder with
  | none => false
  | some files => files.finalized && decide (Intact files.journal)

/-- What a pass of the attempt does, reading its lineage. -/
def passEffects (root : AttemptRoot) (id : String) (files : AttemptFiles) (p : EscalationPass)
    (findings : List Json) : List EscalationEffect :=
  (p.traceAll (lineageEventJournals root id files) 0 files.journal {} findings).2

/-- What happens under the run root. A crash cuts a pass short or tears a line. -/
inductive AttemptMove where
  | create (id : String) (predecessor : Option String)
  | append (id : String) (event : JournalEvent)
  | tear (id : String)
  | escalate (id : String) (p : EscalationPass) (findings : List Json) (cut : ℕ)
  | finalize (id : String)

def attemptStep : AttemptMove → AttemptRoot → Option AttemptRoot
  | .create id predecessor, root =>
    if isPlanGraphId id ∧ id ∉ root.keys ∧ predecessor.all (repairable root) then
      some (root.set id ⟨predecessor, [], false⟩)
    else none
  | .append id event, root => appendLines root id [.event event]
  | .tear id, root => appendLines root id [.torn]
  | .escalate id p findings cut, root =>
    (root.get? id).bind fun files =>
      appendLines root id (journaledLines ((passEffects root id files p findings).take cut))
  | .finalize id, root =>
    (root.get? id).map fun files => root.set id { files with finalized := true }

section Runs

variable {root : AttemptRoot}

theorem Kept.empty : Kept ∅ where
  named := nofun
  sealed := by
    intro elder id ⟨files, hget, _⟩
    exact nomatch hget
  ranked := by
    refine ⟨fun _ => 0, ?_, ?_, nofun⟩
    all_goals
      intro elder id ⟨files, hget, _⟩
      exact nomatch hget

variable {id : String} {files : AttemptFiles}

/-- An attempt that keeps its predecessor keeps the edges of the lineage. -/
theorem precedes_set {files' : AttemptFiles} (hget : root.get? id = some files)
    (hsame : files'.predecessor = files.predecessor) {elder other : String} :
    Precedes (root.set id files') elder other ↔ Precedes root elder other := by
  by_cases hid : other = id
  · subst hid
    constructor
    · intro ⟨found, hfound, hpred⟩
      rw [Dict.get?_set_self] at hfound
      cases hfound
      exact ⟨files, hget, hsame.symm.trans hpred⟩
    · intro ⟨found, hfound, hpred⟩
      rw [hget] at hfound
      cases hfound
      exact ⟨files', Dict.get?_set_self _ _ _, hsame.trans hpred⟩
  · simp only [Precedes, Dict.get?_set_ne root files' hid]

theorem keys_set_of_get? (hget : root.get? id = some files) (files' : AttemptFiles) {other : String}
    :
    other ∈ (root.set id files').keys ↔ other ∈ root.keys := by
  rw [Dict.mem_keys_set, or_iff_right_of_imp]
  rintro rfl
  exact Dict.mem_keys_iff.2 ⟨files, hget⟩

theorem length_set_of_get? (hget : root.get? id = some files) (files' : AttemptFiles) :
    (root.set id files').items.length = root.items.length := by
  rw [← Dict.card_keySet, ← Dict.card_keySet, Dict.keySet_set, Finset.insert_eq_self.2]
  exact Dict.mem_keySet.2 (Dict.mem_keys_iff.2 ⟨files, hget⟩)

theorem Kept.replace (hkept : Kept root) {files' : AttemptFiles} (hget : root.get? id = some files)
    (hsame : files'.predecessor = files.predecessor)
    (hseal : files.finalized → Intact files.journal →
      files'.finalized ∧ Intact files'.journal) : Kept (root.set id files') where
  named other hother := hkept.named other ((keys_set_of_get? hget files').1 hother)
  sealed elder other hprecedes := by
    obtain ⟨found, hfound, hfinal, hintact⟩ :=
      hkept.sealed elder other ((precedes_set hget hsame).1 hprecedes)
    by_cases hid : elder = id
    · subst hid
      obtain rfl : files = found := Option.some.inj (hget.symm.trans hfound)
      exact ⟨files', Dict.get?_set_self _ _ _, hseal hfinal hintact⟩
    · exact ⟨found, (Dict.get?_set_ne root files' hid).trans hfound, hfinal, hintact⟩
  ranked := by
    obtain ⟨rank, hrank⟩ := hkept.ranked
    refine ⟨rank, fun elder other h => ?_, fun elder other h => ?_, fun other h => ?_⟩
    · exact (keys_set_of_get? hget files').2
        (hrank.present elder other ((precedes_set hget hsame).1 h))
    · exact hrank.below elder other ((precedes_set hget hsame).1 h)
    · rw [length_set_of_get? hget]
      exact hrank.bounded other ((keys_set_of_get? hget files').1 h)

variable {later : AttemptRoot}

theorem appendLines_eq_some {lines : List JournalLine}
    (h : appendLines root id lines = some later) : ∃ files, root.get? id = some files ∧
      files.finalized = false ∧ Intact files.journal ∧
      later = root.set id { files with journal := files.journal ++ lines } := by
  rw [appendLines] at h
  split at h
  · exact nomatch h
  · rename_i files hget
    split_ifs at h with hopen
    rw [not_or, Bool.not_eq_true, not_not] at hopen
    exact ⟨files, hget, hopen.1, hopen.2, (Option.some.inj h).symm⟩

theorem Kept.appendLines (hkept : Kept root) {lines : List JournalLine}
    (h : appendLines root id lines = some later) : Kept later := by
  obtain ⟨files, hget, hopen, -, rfl⟩ := appendLines_eq_some h
  refine hkept.replace hget rfl fun hfinal => ?_
  rw [hopen] at hfinal
  exact nomatch hfinal

theorem repairable_eq_true {elder : String} (h : repairable root elder = true) :
    ∃ files, root.get? elder = some files ∧ files.finalized ∧ Intact files.journal := by
  rw [repairable] at h
  split at h
  · exact nomatch h
  · rename_i files hget
    rw [Bool.and_eq_true, decide_eq_true_eq] at h
    exact ⟨files, hget, h⟩

theorem precedes_create (hfresh : id ∉ root.keys) {elder other : String}
    (h : Precedes (root.set id files) elder other) :
    other = id ∧ files.predecessor = some elder ∨ other ≠ id ∧ Precedes root elder other := by
  obtain ⟨found, hfound, hpred⟩ := h
  by_cases hid : other = id
  · subst hid
    rw [Dict.get?_set_self] at hfound
    cases hfound
    exact .inl ⟨rfl, hpred⟩
  · rw [Dict.get?_set_ne root files hid] at hfound
    exact .inr ⟨hid, found, hfound, hpred⟩

/-- A new attempt is ranked above all that are there. -/
theorem Kept.create (hkept : Kept root) {predecessor : Option String} (hnamed : isPlanGraphId id)
    (hfresh : id ∉ root.keys) (hrepair : predecessor.all (repairable root)) :
    Kept (root.set id ⟨predecessor, [], false⟩) := by
  have hkeep : ∀ other ∈ root.keys, other ≠ id := fun other hother heq => hfresh (heq ▸ hother)
  have helder : ∀ elder other, Precedes (root.set id ⟨predecessor, [], false⟩) elder other →
      ∃ files, root.get? elder = some files ∧ files.finalized ∧ Intact files.journal := by
    intro elder other h
    rcases precedes_create hfresh h with ⟨-, hpred⟩ | ⟨-, hold⟩
    · dsimp only at hpred
      rw [hpred] at hrepair
      exact repairable_eq_true hrepair
    · exact hkept.sealed elder other hold
  refine ⟨fun other hother => ?_, fun elder other h => ?_, ?_⟩
  · rcases Dict.mem_keys_set.1 hother with rfl | hother
    · exact hnamed
    · exact hkept.named other hother
  · obtain ⟨files, hget, hsealed⟩ := helder elder other h
    have hne := hkeep elder (Dict.mem_keys_iff.2 ⟨files, hget⟩)
    exact ⟨files, (Dict.get?_set_ne root _ hne).trans hget, hsealed⟩
  · obtain ⟨rank, hrank⟩ := hkept.ranked
    have hlength : (root.set id ⟨predecessor, [], false⟩).items.length =
        root.items.length + 1 := by
      rw [Dict.items_set_of_notMem hfresh, length_append]
      rfl
    refine ⟨Function.update rank id (root.items.length + 1), ?_, ?_, ?_⟩
    · intro elder other h
      obtain ⟨files, hget, -⟩ := helder elder other h
      exact Dict.mem_keys_set.2 (.inr (Dict.mem_keys_iff.2 ⟨files, hget⟩))
    · intro elder other h
      obtain ⟨files, hget, -⟩ := helder elder other h
      have hmem := Dict.mem_keys_iff.2 ⟨files, hget⟩
      rw [update_of_ne (hkeep elder hmem)]
      rcases precedes_create hfresh h with ⟨rfl, -⟩ | ⟨hne, hold⟩
      · rw [update_self]
        exact Nat.lt_succ_of_le (hrank.bounded elder hmem)
      · rw [update_of_ne hne]
        exact hrank.below elder other hold
    · intro other hother
      rw [hlength]
      rcases Dict.mem_keys_set.1 hother with rfl | hother
      · rw [update_self]
      · rw [update_of_ne (hkeep other hother)]
        exact (hrank.bounded other hother).trans (Nat.le_succ _)

theorem Kept.step (move : AttemptMove) (hkept : Kept root)
    (h : attemptStep move root = some later) : Kept later := by
  cases move with
  | create id predecessor =>
    rw [attemptStep] at h
    split_ifs at h with hcreate
    cases h
    exact hkept.create hcreate.1 hcreate.2.1 hcreate.2.2
  | append id event => exact hkept.appendLines h
  | tear id => exact hkept.appendLines h
  | escalate id p findings cut =>
    obtain ⟨files, -, hlater⟩ := Option.bind_eq_some_iff.1 h
    exact hkept.appendLines hlater
  | finalize id =>
    obtain ⟨files, hget, rfl⟩ := Option.map_eq_some_iff.1 h
    exact hkept.replace hget rfl fun _ hintact => ⟨rfl, hintact⟩

theorem Kept.of_runs (h : Inputs.Runs attemptStep ∅ root) : Kept root :=
  h.invariant (fun move _ _ hstep hkept => hkept.step move hstep) Kept.empty

end Runs

/-! ## Questions -/

/-- Whenever the judge is asked, `P` holds of the journal at that moment and of the packet. -/
def AllAsked (P : List JournalLine → Json → Prop) :
    List JournalLine → List EscalationEffect → Prop
  | _, [] => True
  | own, .journaled event :: rest => AllAsked P (own ++ [.event event]) rest
  | own, .asked packet :: rest => P own packet ∧ AllAsked P own rest

/-- The finding of the packet: it has an owner, and no journal that is read rejects it. -/
structure Asks (p : EscalationPass) (elders : List (List JournalLine)) (findings : List Json)
    (own : List JournalLine) (packet record : Json) (o : Obligation) (paths : List String)
    (owner : String) : Prop where
  record_mem : record ∈ findings
  names_key : Obligation.ofRecord? record = some o
  names_paths : nonEmptyTexts? (record.get? "required_paths") = some paths
  routed : ownerForPaths? p.runs paths = .ok (some owner)
  tells : packet = judgePacket p.run owner record
  elders_silent : priorEscalationVerdict elders o.key = none
  own_silent : ¬ JournalsRejection own o.key

section Questions

variable {P Q : List JournalLine → Json → Prop} {p : EscalationPass}
  {elders : List (List JournalLine)}

variable {own : List JournalLine}

theorem AllAsked.append {effects more : List EscalationEffect} (h : AllAsked P own effects)
    (hmore : AllAsked P (own ++ journaledLines effects) more) :
    AllAsked P own (effects ++ more) := by
  induction effects generalizing own with
  | nil => rwa [journaledLines, filterMap_nil, append_nil] at hmore
  | cons effect rest ih =>
    cases effect with
    | journaled event =>
      refine ih h ?_
      rw [append_assoc]
      exact hmore
    | asked packet => exact ⟨h.1, ih h.2 hmore⟩

theorem AllAsked.imp (himp : ∀ own packet, P own packet → Q own packet)
    {effects : List EscalationEffect} (h : AllAsked P own effects) :
    AllAsked Q own effects := by
  induction effects generalizing own with
  | nil => trivial
  | cons effect rest ih =>
    cases effect with
    | journaled event => exact ih h
    | asked packet => exact ⟨himp own packet h.1, ih h.2⟩

theorem not_rejects_findingEscalated (nodeId key owner : String) (paths : List String)
    (other : String) : ¬ (findingEscalated nodeId key owner paths).Rejects other := by
  intro h
  have htype : "plan_graph_finding_escalated" = "plan_graph_escalation_judged" := h.1
  exact absurd htype (by decide)

theorem intact_journaledLines (effects : List EscalationEffect) :
    Intact (journaledLines effects) := by
  intro line hline
  obtain ⟨effect, -, heq⟩ := mem_filterMap.1 hline
  cases effect with
  | journaled event =>
    cases heq
    rfl
  | asked packet => exact nomatch heq

theorem journalsRejection_concat {e : JournalEvent} {key : String} (hnot : ¬ e.Rejects key)
    (h : JournalsRejection (own ++ [.event e]) key) :
    JournalsRejection own key := by
  obtain ⟨other, hmem, hrejects⟩ := h
  rcases mem_append.1 hmem with hmem | hmem
  · exact ⟨other, hmem, hrejects⟩
  · obtain rfl := JournalLine.event.inj (mem_singleton.1 hmem)
    exact absurd hrejects hnot

theorem priorEscalationVerdict_cons {key : String}
    (h : priorEscalationVerdict (own :: elders) key ≠ some "reject") :
    readsRejection key own = false ∧ priorEscalationVerdict elders key = none := by
  rw [priorEscalationVerdict] at h ⊢
  split_ifs at h with hany
  · exact absurd rfl h
  · simp only [any_cons, Bool.or_eq_true, not_or, Bool.not_eq_true] at hany
    refine ⟨hany.1, ?_⟩
    simpa using hany.2

variable {paths : List String}

/-- One finding asks at most once, behind the event that it is escalated. -/
theorem traceJudged_asks {answer : EscalationAnswer} {pass : Resolving} {record : Json}
    {o : Obligation} {owner : String}
    (h : P (own ++ [.event (findingEscalated p.run.id o.key owner paths)])
      (judgePacket p.run owner record)) :
    AllAsked P own (p.traceJudged answer pass record o owner paths).2 := by
  rw [EscalationPass.traceJudged]
  split
  · exact ⟨h, trivial⟩
  · exact ⟨h, trivial⟩
  · split
    · exact ⟨h, trivial⟩
    · refine ⟨h, ?_⟩
      split_ifs
      · trivial
      · trivial

theorem traceFinding_asks {answer : EscalationAnswer} {pass : Resolving} {record : Json}
    {findings : List Json} (hrecord : record ∈ findings) (hintact : Intact own) :
    AllAsked (fun own packet => ∃ record o paths owner,
      Asks p elders findings own packet record o paths owner) own
      (p.traceFinding answer (own :: elders) pass record).2 := by
  rw [EscalationPass.traceFinding]
  split
  · trivial
  rename_i o hkey
  split
  · trivial
  rename_i paths hpaths
  split
  · trivial
  · split
    · trivial
    · trivial
  rename_i owner howner
  split_ifs with hprior hself
  · trivial
  · trivial
  obtain ⟨hown, helders⟩ := priorEscalationVerdict_cons hprior
  refine traceJudged_asks ⟨record, o, paths, owner, hrecord, hkey, hpaths, howner, rfl, helders, ?_⟩
  intro hrejects
  have hread := (readsRejection_iff hintact).2
    (journalsRejection_concat (not_rejects_findingEscalated _ _ _ _ _) hrejects)
  rw [hown] at hread
  exact nomatch hread

/-- The findings one after the other: the journal grows by what the pass journals itself. -/
theorem traceAll_asks {findings : List Json} :
    ∀ {rest : List Json} {n : ℕ} {own : List JournalLine} {pass : Resolving}, rest ⊆ findings →
      Intact own → AllAsked (fun own packet => ∃ record o paths owner,
        Asks p elders findings own packet record o paths owner) own
        (p.traceAll elders n own pass rest).2 := by
  intro rest
  induction rest with
  | nil =>
    intro n own pass _ _
    trivial
  | cons record rest ih =>
    intro n own pass hsub hintact
    have hfirst : AllAsked (fun own packet => ∃ record o paths owner,
        Asks p elders findings own packet record o paths owner) own
        (p.traceFinding (p.answers n) (own :: elders) pass record).2 :=
      traceFinding_asks (hsub mem_cons_self) hintact
    rw [EscalationPass.traceAll]
    generalize p.traceFinding (p.answers n) (own :: elders) pass record = traced at hfirst
    obtain ⟨r, effects⟩ := traced
    cases r with
    | next later =>
      exact hfirst.append (ih (subset_of_cons_subset hsub)
        (hintact.append (intact_journaledLines effects)))
    | stop _ d => exact hfirst
    | raised _ message => exact hfirst

theorem writable_of_routed {runs : List PlanRun} (hne : paths ≠ []) {owner : Option String}
    (h : ownerForPaths? runs paths = .ok owner) : WritableGrants runs := by
  by_contra hnot
  obtain ⟨message, herror⟩ := ownerForPaths?_of_not_writable hnot hne
  rw [h] at herror
  exact nomatch herror

theorem ownsAll_of_routed {runs : List PlanRun} (hne : paths ≠ []) {owner : String}
    (h : ownerForPaths? runs paths = .ok (some owner)) :
    OwnsAll runs paths owner := by
  rw [ownerForPaths?_eq (writable_of_routed hne h)] at h
  exact (ownerForPaths_eq_some hne).1 (Except.ok.inj h)

end Questions

/-! ## Routing of a finding -/

/-- The pass stops at a finding without an owner. -/
def Resolution.Unrouted (r : Resolution) (key : String) (candidates : List String) : Prop :=
  ∃ pass d, r = .stop pass d ∧ d.unrouted = some (key, candidates)

section Routed

variable {p : EscalationPass} {answer : EscalationAnswer} {journals : List (List JournalLine)}
  {pass : Resolving} {record : Json} {o : Obligation} {paths : List String}

theorem applyJudgment_routed {run : PlanRun} {completed : String → Bool} {ledger : Option String}
    {owner : String} {judgment : Judgment} {key : String} {candidates : List String} :
    ¬ (applyJudgment run completed ledger pass o owner paths judgment).Unrouted key candidates := by
  unfold applyJudgment
  rintro ⟨later, d, hstop, hunrouted⟩
  cases hverdict : judgment.verdict with
  | reject =>
    rw [hverdict] at hstop
    exact nomatch hstop
  | confirm =>
    rw [hverdict] at hstop
    cases ledger with
    | none =>
      split_ifs at hstop
    | some error =>
      split_ifs at hstop
      obtain ⟨rfl, rfl⟩ := Resolution.stop.inj hstop
      exact nomatch hunrouted

theorem traceJudged_routed {owner : String} {key : String} {candidates : List String} :
    ¬ (p.traceJudged answer pass record o owner paths).1.Unrouted key candidates := by
  rw [EscalationPass.traceJudged]
  split
  · rintro ⟨later, d, hstop, hunrouted⟩
    obtain ⟨rfl, rfl⟩ := Resolution.stop.inj hstop
    exact nomatch hunrouted
  · rintro ⟨later, d, hstop, -⟩
    exact nomatch hstop
  · split
    · rintro ⟨later, d, hstop, -⟩
      exact nomatch hstop
    · exact applyJudgment_routed

section

variable (hkey : Obligation.ofRecord? record = some o)
  (hpaths : nonEmptyTexts? (record.get? "required_paths") = some paths)

include hkey hpaths

/-- A finding with an owner goes on to the judge. -/
theorem traceFinding_routed {owner : String}
    (howner : ownerForPaths? p.runs paths = .ok (some owner)) {key : String}
    {candidates : List String} :
    ¬ (p.traceFinding answer journals pass record).1.Unrouted key candidates := by
  rw [EscalationPass.traceFinding, hkey]
  rw [hpaths]
  dsimp only
  rw [howner]
  split_ifs
  · rintro ⟨later, d, hstop, hunrouted⟩
    obtain ⟨rfl, rfl⟩ := Resolution.stop.inj hstop
    exact nomatch hunrouted
  · rintro ⟨later, d, hstop, -⟩
    exact nomatch hstop
  · exact traceJudged_routed

theorem traceFinding_unrouted (hwritable : WritableGrants p.runs)
    (hnone : ownerForPaths p.runs paths = none) :
    p.traceFinding answer journals pass record =
      (.stop pass { pass.disposition with
        unrouted := some (o.key, candidateOwnersForPaths p.runs paths) }, []) := by
  rw [EscalationPass.traceFinding, hkey]
  rw [hpaths]
  dsimp only
  rw [ownerForPaths?_eq hwritable, hnone, candidateOwnersForPaths?_eq hwritable]

theorem traceFinding_not_writable (hnot : ¬ WritableGrants p.runs) : ∃ message,
      p.traceFinding answer journals pass record = (.raised pass message, []) := by
  obtain ⟨message, herror⟩ := ownerForPaths?_of_not_writable hnot (nonEmptyTexts?_ne_nil hpaths)
  refine ⟨message, ?_⟩
  rw [EscalationPass.traceFinding, hkey]
  rw [hpaths]
  dsimp only
  rw [herror]

end

end Routed

/-! ## The law -/

/-- A question about a finding of an attempt in the journal's state `own`: the finding belongs to
the owner in the packet, and no attempt of the lineage has journaled its rejection. -/
def AskedRightly (root : AttemptRoot) (id : String) (files : AttemptFiles) (p : EscalationPass)
    (findings : List Json) (own : List JournalLine) (packet : Json) : Prop :=
  ∃ record ∈ findings, ∃ o paths owner, Obligation.ofRecord? record = some o ∧
    nonEmptyTexts? (record.get? "required_paths") = some paths ∧ OwnsAll p.runs paths owner ∧
    packet = judgePacket p.run owner record ∧
    ∀ elder found, Lineage (root.set id { files with journal := own }) id elder →
      (root.set id { files with journal := own }).get? elder = some found →
      ¬ JournalsRejection found.journal o.key

theorem asks_rightly {root : AttemptRoot} (hkept : Kept root) {id : String}
    {files : AttemptFiles} (hget : root.get? id = some files) {p : EscalationPass}
    {findings : List Json} {own : List JournalLine} {packet record : Json} {o : Obligation}
    {paths : List String} {owner : String}
    (h : Asks p (lineageEventJournals root id files) findings own packet record o paths owner) :
    AskedRightly root id files p findings own packet := by
  refine ⟨record, h.record_mem, o, paths, owner, h.names_key, h.names_paths,
    ownsAll_of_routed (nonEmptyTexts?_ne_nil h.names_paths) h.routed, h.tells, ?_⟩
  intro elder found hline hfound
  by_cases hid : elder = id
  · subst hid
    rw [Dict.get?_set_self] at hfound
    cases hfound
    exact h.own_silent
  · rw [Dict.get?_set_ne root _ hid] at hfound
    have hsame : ∀ a b, Precedes (root.set id { files with journal := own }) b a →
        Precedes root b a := fun a b =>
      (@precedes_set root id files { files with journal := own } hget rfl b a).1
    have hold : Lineage root id elder := Relation.ReflTransGen.mono hsame _ _ hline
    exact not_rejected_of_prior hkept hget h.elders_silent hold hid hfound

/-- A plan where one node's grant leaves the repository. -/
def straying : List PlanRun := [⟨"core", [], ["src/core"]⟩, ⟨"docs", ["core"], ["../docs"]⟩]

/-- A finding of a path that two grants claim at one depth. -/
def contested : EscalationPass where
  runs := [⟨"core", [], ["src"]⟩, ⟨"api", ["core"], ["src", "api"]⟩]
  identity := "judge"
  run := ⟨"api", ["core"], ["src", "api"]⟩
  completed := (· = "core")
  answers _ := ⟨.unavailable "", none⟩

def contestedFinding : Json :=
  .obj [("key", .str "F1"), ("required_paths", .arr [.str "src/a.py"])]

/-- A finding that belongs to `api`. -/
def ownedFinding : Json :=
  .obj [("key", .str "F2"), ("required_paths", .arr [.str "api/b.py"])]

end HarnessLabs.PlanGraph
