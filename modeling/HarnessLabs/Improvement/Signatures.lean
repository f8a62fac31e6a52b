import HarnessLabs.Improvement.Remeasure
import HarnessLabs.Observability.Dedup

/-!
# Assertions about signatures

An assertion that a signature is absent mines the runs itself, and mining moves a watermark that all
keys share.

* `mine`, `defaultAssertionRunner`, `runAssertions` — the miner, the runner, and the loop over keys.
* `mem_runAssertions` — what the loop says of a key, by its place among those that mine.
* `trustworthy_iff` — **the verdicts are sound and independent exactly if there is nothing new, or a
  production run is and no later key sees less than the first.**
-/

namespace HarnessLabs.Improvement

open List
open Controller (isBlank)
open PlanGraph.Convergence (Key)

/-! ## Mining -/

/-- A run whose chain verified; `observations` are those that `_mine_run` mints. -/
structure RunMetrics where
  runId : String
  headHash : Option String
  eventCount : ℕ
  production : Bool
  observations : List Observability.Observation

/-- What `project_run_metrics` says: the run is refused, mining raises, or there are metrics. -/
inductive Projection where
  | refused (reason : String)
  | raises
  | verified (m : RunMetrics)

structure RunDir where
  name : String
  projection : Projection

/-- The runs root and the watermarks, each with a head and a count. -/
structure Corpus where
  rootExists : Bool
  runs : List RunDir
  nodup : (runs.map (·.name)).Nodup
  processed : Dict String (Option String × ℕ)

structure MiningResult where
  observations : List Observability.Observation := []
  excludedRunIds : List String := []
  refused : List String := []
  newRunDirs : List String := []

/-- The loop of `mine`; `none` where it raises. The source sorts the lists of the result. -/
def mineRuns (processed : Dict String (Option String × ℕ)) (result : MiningResult) :
    List RunDir → Option (MiningResult × Dict String (Option String × ℕ))
  | [] => some (result, processed)
  | run :: rest =>
    match run.projection with
    | .raises => none
    | .refused _ =>
      mineRuns processed { result with
        refused := result.refused ++ [run.name]
        newRunDirs := result.newRunDirs ++ [run.name] } rest
    | .verified m =>
      if processed.get? run.name = some (m.headHash, m.eventCount) then
        mineRuns processed result rest
      else
        mineRuns (processed.set run.name (m.headHash, m.eventCount))
          (if m.production then { result with
            observations := result.observations ++ m.observations
            newRunDirs := result.newRunDirs ++ [run.name] }
          else { result with
            excludedRunIds := result.excludedRunIds ++ [m.runId]
            newRunDirs := result.newRunDirs ++ [run.name] }) rest

/-- `mine`. -/
def mine (corpus : Corpus) : Option (MiningResult × Corpus) :=
  (mineRuns corpus.processed {} corpus.runs).map fun r => (r.1, { corpus with processed := r.2 })

/-- The signature of an assertion that mines. -/
def signatureAbsent? (assertion : Json) : Option String :=
  match assertion.get? "argv", assertion.get? "signature_absent" with
  | some (.arr (_ :: _)), _ => none
  | _, some (.str signature) => if isBlank signature then none else some signature
  | _, _ => none

section Runner

-- What a command assertion comes to; one that is no assertion at all is not executed.
variable (command : Json → Outcome)

/-- `_default_assertion_runner`. -/
def defaultAssertionRunner (corpus : Corpus) (assertion : Json) : Outcome × Corpus :=
  match signatureAbsent? assertion with
  | none => (command assertion, corpus)
  | some signature =>
    if corpus.rootExists then
      match mine corpus with
      | none => (.unexecuted, corpus)
      | some (result, corpus) =>
        (if result.newRunDirs = [] then .unexecuted
          else if signature ∈ result.observations.map (·.signature) then .fail
          else .pass, corpus)
    else (.unexecuted, corpus)

/-- The loop of `remeasure` with the default runner. -/
def runAssertions (assertionOf : Key → Json) (corpus : Corpus) : List Key → List (Key × Outcome)
  | [] => []
  | key :: rest =>
    let ran := defaultAssertionRunner command corpus (assertionOf key)
    (key, ran.1) :: runAssertions assertionOf ran.2 rest

end Runner

/-- Mining would report the run. -/
def fresh (processed : Dict String (Option String × ℕ)) (run : RunDir) : Bool :=
  match run.projection with
  | .refused _ => true
  | .raises => false
  | .verified m => processed.get? run.name ≠ some (m.headHash, m.eventCount)

def RunDir.isRefused (run : RunDir) : Bool :=
  match run.projection with
  | .refused _ => true
  | .raises | .verified _ => false

/-- The observations that mining takes from a new run. -/
def RunDir.minted (run : RunDir) : List Observability.Observation :=
  match run.projection with
  | .verified m => if m.production then m.observations else []
  | .refused _ | .raises => []

variable {processed processed' : Dict String (Option String × ℕ)} {runs : List RunDir}
  {result result' : MiningResult} {corpus corpus' : Corpus}

/-- A mark of another run does not make a run new or old. -/
theorem fresh_set {name : String} {run : RunDir} (h : run.name ≠ name)
    (mark : Option String × ℕ) : fresh (processed.set name mark) run = fresh processed run := by
  simp only [fresh, Dict.get?_set_ne processed mark h]

/-- What the loop reports and where it leaves the watermarks. -/
theorem mineRuns_eq_some (hnodup : (runs.map (·.name)).Nodup)
    (h : mineRuns processed result runs = some (result', processed')) :
    result'.newRunDirs = result.newRunDirs ++ (runs.filter (fresh processed)).map (·.name) ∧
      result'.observations =
        result.observations ++ (runs.filter (fresh processed)).flatMap (·.minted) ∧
      (∀ name, name ∉ runs.map (·.name) → processed'.get? name = processed.get? name) ∧
      ∀ run ∈ runs, fresh processed' run = run.isRefused := by
  induction runs generalizing processed result with
  | nil =>
    cases h
    simp
  | cons run rest ih =>
    obtain ⟨hname, hrest⟩ := nodup_cons.1 hnodup
    rw [mineRuns] at h
    cases hprojection : run.projection with
    | raises => simp [hprojection] at h
    | refused reason =>
      rw [hprojection] at h
      obtain ⟨hnew, hobserved, hother, hmarks⟩ := ih hrest h
      have hfresh (d : Dict String (Option String × ℕ)) : fresh d run = true := by
        rw [fresh, hprojection]
      refine ⟨?_, ?_, fun name hn => hother name (not_or.1 (mt mem_cons.2 hn)).2,
        forall_mem_cons.2 ⟨?_, hmarks⟩⟩
      · simp [hnew, hfresh]
      · simp [hobserved, hfresh, RunDir.minted, hprojection]
      · rw [hfresh, RunDir.isRefused, hprojection]
    | verified m =>
      rw [hprojection] at h
      have hrefused : run.isRefused = false := by rw [RunDir.isRefused, hprojection]
      have hseen (d : Dict String (Option String × ℕ)) :
          fresh d run = decide (d.get? run.name ≠ some (m.headHash, m.eventCount)) := by
        rw [fresh, hprojection]
      by_cases hmark : processed.get? run.name = some (m.headHash, m.eventCount)
      · simp only [hmark, if_true] at h
        obtain ⟨hnew, hobserved, hother, hmarks⟩ := ih hrest h
        refine ⟨?_, ?_, fun name hn => hother name (not_or.1 (mt mem_cons.2 hn)).2,
          forall_mem_cons.2 ⟨?_, hmarks⟩⟩
        · simp [hnew, hseen, hmark]
        · simp [hobserved, hseen, hmark]
        · rw [hrefused, hseen, hother _ hname, hmark]
          simp
      · simp only [hmark, if_false] at h
        obtain ⟨hnew, hobserved, hother, hmarks⟩ := ih hrest h
        have hfilter : rest.filter (fresh (processed.set run.name (m.headHash, m.eventCount))) =
            rest.filter (fresh processed) :=
          filter_congr fun r hr => fresh_set (fun heq => hname (mem_map.2 ⟨r, hr, heq⟩)) _
        refine ⟨?_, ?_, fun name hn => ?_, forall_mem_cons.2 ⟨?_, hmarks⟩⟩
        · rw [hnew, hfilter]
          cases m.production <;> simp [hseen, hmark]
        · rw [hobserved, hfilter]
          cases hproduction : m.production <;>
            simp [hseen, hmark, RunDir.minted, hprojection, hproduction]
        · obtain ⟨hne, hn⟩ := not_or.1 (mt mem_cons.2 hn)
          rw [hother name hn, Dict.get?_set_ne _ _ hne]
        · rw [hrefused, hseen, hother _ hname, Dict.get?_set_self]
          simp

/-- Mining is possible. -/
def Minable (corpus : Corpus) : Prop := corpus.rootExists = true ∧ (mine corpus).isSome = true

/-- The runs that mining would report. -/
def Corpus.freshRuns (corpus : Corpus) : List RunDir :=
  corpus.runs.filter (fresh corpus.processed)

theorem mine_eq_some (h : mine corpus = some (result, corpus')) :
    result.newRunDirs = corpus.freshRuns.map (·.name) ∧
      result.observations = corpus.freshRuns.flatMap (·.minted) ∧
      corpus'.rootExists = corpus.rootExists ∧ corpus'.runs = corpus.runs ∧
      ∀ run ∈ corpus.runs, fresh corpus'.processed run = run.isRefused := by
  obtain ⟨⟨r, d⟩, hloop, heq⟩ := Option.map_eq_some_iff.1 h
  cases heq
  obtain ⟨hnew, hobserved, -, hmarks⟩ := mineRuns_eq_some corpus.nodup hloop
  exact ⟨hnew, hobserved, rfl, rfl, hmarks⟩

/-- Whether mining raises does not depend on the watermarks. -/
theorem mineRuns_isSome : (mineRuns processed result runs).isSome =
    runs.all fun run => match run.projection with | .raises => false | _ => true := by
  induction runs generalizing processed result with
  | nil => rfl
  | cons run rest ih =>
    rw [mineRuns, all_cons]
    cases run.projection with
    | raises => rfl
    | refused | verified =>
      simp only [Bool.true_and]
      try split_ifs
      all_goals exact ih

/-! ## The loop over keys -/

variable {command : Json → Outcome} {assertionOf : Key → Json} {keys : List Key} {key : Key}
  {o : Outcome} {signature : String} {assertion : Json}

/-- The key's assertion mines. -/
def mines (assertionOf : Key → Json) (key : Key) : Bool :=
  (signatureAbsent? (assertionOf key)).isSome

/-- What a mining that is not the first comes to. -/
def laterOutcome (corpus : Corpus) : Outcome :=
  if corpus.runs.any (·.isRefused) then .pass else .unexecuted

/-- All but the refused runs are behind their watermarks. -/
structure Mined (corpus : Corpus) : Prop where
  minable : Minable corpus
  fresh_eq : ∀ run ∈ corpus.runs, fresh corpus.processed run = run.isRefused

theorem minted_of_isRefused {run : RunDir} (h : run.isRefused = true) : run.minted = [] := by
  rw [RunDir.isRefused] at h
  rw [RunDir.minted]
  cases hprojection : run.projection <;> simp [hprojection] at h ⊢

/-- What the runner says where mining is possible; behind it only refused runs are new. -/
theorem defaultAssertionRunner_mines (command : Json → Outcome) (h : Minable corpus)
    (hsignature : signatureAbsent? assertion = some signature) :
    (defaultAssertionRunner command corpus assertion).1 =
      (if corpus.freshRuns = [] then .unexecuted
        else if signature ∈ (corpus.freshRuns.flatMap (·.minted)).map (·.signature) then .fail
        else .pass) ∧
      Mined (defaultAssertionRunner command corpus assertion).2 ∧
      (defaultAssertionRunner command corpus assertion).2.runs = corpus.runs := by
  obtain ⟨⟨result, corpus'⟩, hmine⟩ := Option.isSome_iff_exists.1 h.2
  obtain ⟨hnew, hobserved, hroot, hruns, hmarks⟩ := mine_eq_some hmine
  have hminable : Minable corpus' := by
    refine ⟨hroot.trans h.1, ?_⟩
    have hsome := h.2
    rw [mine, Option.isSome_map, mineRuns_isSome] at hsome ⊢
    rwa [hruns]
  simp only [defaultAssertionRunner, hsignature, h.1, if_true, hmine]
  refine ⟨?_, ⟨hminable, hruns ▸ hmarks⟩, hruns⟩
  rw [hnew, hobserved]
  simp only [map_eq_nil_iff]

/-- Behind a mining only the refused runs are new, and they count as evidence. -/
theorem defaultAssertionRunner_mined (h : Mined corpus)
    (hsignature : signatureAbsent? assertion = some signature) :
    (defaultAssertionRunner command corpus assertion).1 = laterOutcome corpus := by
  have hfresh : corpus.freshRuns = corpus.runs.filter (·.isRefused) := filter_congr h.fresh_eq
  have hminted : corpus.freshRuns.flatMap (·.minted) = [] :=
    flatMap_eq_nil_iff.2 fun run hrun => minted_of_isRefused (mem_filter.1 (hfresh ▸ hrun)).2
  rw [(defaultAssertionRunner_mines _ h.minable hsignature).1, hminted, hfresh, laterOutcome]
  cases hany : corpus.runs.any (·.isRefused) with
  | false => simpa using hany
  | true =>
    rw [if_neg, map_nil, if_neg not_mem_nil, if_pos rfl]
    simpa using hany

theorem mem_runAssertions_of_mined (h : Mined corpus)
    (hmem : (key, o) ∈ runAssertions command assertionOf corpus keys) :
    o = if mines assertionOf key then laterOutcome corpus else command (assertionOf key) := by
  induction keys generalizing corpus with
  | nil => exact absurd hmem not_mem_nil
  | cons first rest ih =>
    rw [runAssertions] at hmem
    cases hsignature : signatureAbsent? (assertionOf first) with
    | none =>
      rw [defaultAssertionRunner, hsignature] at hmem
      obtain heq | hrest := mem_cons.1 hmem
      · cases heq
        simp [mines, hsignature]
      · exact ih h hrest
    | some signature =>
      obtain ⟨-, hmined, hruns⟩ := defaultAssertionRunner_mines command
        h.minable hsignature
      obtain heq | hrest := mem_cons.1 hmem
      · cases heq
        simp [mines, hsignature, defaultAssertionRunner_mined h hsignature]
      · rw [ih hmined hrest, laterOutcome, laterOutcome, hruns]

theorem map_fst_runAssertions (command : Json → Outcome) (assertionOf : Key → Json)
    (corpus : Corpus) (keys : List Key) :
    (runAssertions command assertionOf corpus keys).map Prod.fst = keys := by
  induction keys generalizing corpus with
  | nil => rfl
  | cons first rest ih => rw [runAssertions, map_cons, ih]

/-- Where mining is not possible nothing is said of a signature and nothing moves. -/
theorem mem_runAssertions_of_not_minable (h : ¬ Minable corpus)
    (hmem : (key, o) ∈ runAssertions command assertionOf corpus keys) :
    o = if mines assertionOf key then .unexecuted else command (assertionOf key) := by
  have hrunner (assertion : Json) : defaultAssertionRunner command corpus assertion =
      (if (signatureAbsent? assertion).isSome then .unexecuted else command assertion, corpus) := by
    rw [defaultAssertionRunner]
    cases signatureAbsent? assertion with
    | none => rfl
    | some signature =>
      by_cases hroot : corpus.rootExists = true
      · have hmine : mine corpus = none := by simpa [Minable, hroot] using h
        simp [hmine]
      · simp [hroot]
  induction keys with
  | nil => exact absurd hmem not_mem_nil
  | cons first rest ih =>
    rw [runAssertions, hrunner] at hmem
    obtain heq | hrest := mem_cons.1 hmem
    · cases heq
      rfl
    · exact ih hrest

/-- **A key is told what it would be told alone, unless another one mined before it.** -/
theorem mem_runAssertions (h : Minable corpus) (hnodup : keys.Nodup)
    (hmem : (key, o) ∈ runAssertions command assertionOf corpus keys) :
    o = if key ∈ (keys.filter (mines assertionOf)).tail then laterOutcome corpus
      else (defaultAssertionRunner command corpus (assertionOf key)).1 := by
  induction keys with
  | nil => exact absurd hmem not_mem_nil
  | cons first rest ih =>
    obtain ⟨hfirst, hrest⟩ := nodup_cons.1 hnodup
    rw [runAssertions] at hmem
    cases hsignature : signatureAbsent? (assertionOf first) with
    | none =>
      have hfilter : (first :: rest).filter (mines assertionOf) = rest.filter (mines assertionOf) :=
        filter_cons_of_neg (by simp [mines, hsignature])
      rw [hfilter]
      obtain heq | hmem := mem_cons.1 hmem
      · cases heq
        rw [if_neg fun htail => hfirst (mem_filter.1 (mem_of_mem_tail htail)).1]
      · rw [defaultAssertionRunner, hsignature] at hmem
        exact ih hrest hmem
    | some signature =>
      have hfilter : (first :: rest).filter (mines assertionOf) =
          first :: rest.filter (mines assertionOf) :=
        filter_cons_of_pos (by simp [mines, hsignature])
      rw [hfilter, tail_cons]
      obtain ⟨-, hmined, hruns⟩ := defaultAssertionRunner_mines command h hsignature
      obtain heq | hmem := mem_cons.1 hmem
      · cases heq
        rw [if_neg fun htail => hfirst (mem_filter.1 htail).1]
      · have hkey : key ∈ rest := by
          exact map_fst_runAssertions _ _ _ rest ▸ mem_map_of_mem (f := Prod.fst) hmem
        rw [mem_runAssertions_of_mined hmined hmem, laterOutcome, laterOutcome, hruns]
        cases hkeySignature : signatureAbsent? (assertionOf key) with
        | none => simp [mines, hkeySignature, defaultAssertionRunner]
        | some signature =>
          have hmines : mines assertionOf key = true := by simp [mines, hkeySignature]
          rw [if_pos hmines, if_pos (mem_filter.2 ⟨hkey, hmines⟩)]

/-! ## Verdicts -/

section Campaign

variable (command : Json → Outcome) (c : Campaign) (corpus : Corpus)

/-- What the default runner says of the open keys. -/
def defaultOutcomes (key : Key) : Outcome :=
  ((runAssertions command c.assertionOf corpus c.active).lookup key).getD .unexecuted

/-- The run verified, counts as evidence, and was mined without the signature. -/
def Evidence (signature : String) : Prop :=
  ∃ run ∈ corpus.freshRuns, ∃ m, run.projection = .verified m ∧ m.production = true ∧
    signature ∉ m.observations.map (·.signature)

/-- No fix is observed without evidence, and every key is told what it would be told alone. -/
structure Trustworthy : Prop where
  sound : ∀ key ∈ c.observedFixed (defaultOutcomes command c corpus), ∀ signature,
    signatureAbsent? (c.assertionOf key) = some signature → Evidence corpus signature
  independent : ∀ key ∈ c.active,
    runAssertions command c.assertionOf corpus [key] = [(key, defaultOutcomes command c corpus key)]

/-- No key mines, mining is not possible, nothing is new; or a production run is new and no other
key mines behind the first, unless a run is refused and their signatures did not appear. -/
def Adequate : Prop :=
  c.active.filter (mines c.assertionOf) = [] ∨ ¬ Minable corpus ∨ corpus.freshRuns = [] ∨
    (∃ run ∈ corpus.freshRuns, ∃ m, run.projection = .verified m ∧ m.production = true) ∧
      ∀ key ∈ (c.active.filter (mines c.assertionOf)).tail, ∀ signature,
        signatureAbsent? (c.assertionOf key) = some signature →
          (∃ run ∈ corpus.runs, run.isRefused = true) ∧
            signature ∉ (corpus.freshRuns.flatMap (·.minted)).map (·.signature)

end Campaign

variable {c : Campaign}

theorem mem_defaultOutcomes (command : Json → Outcome) (corpus : Corpus) (h : key ∈ c.active) :
    (key, defaultOutcomes command c corpus key) ∈
      runAssertions command c.assertionOf corpus c.active := by
  rw [defaultOutcomes]
  cases hlookup : (runAssertions command c.assertionOf corpus c.active).lookup key with
  | none =>
    rw [← map_fst_runAssertions command c.assertionOf corpus c.active] at h
    obtain ⟨p, hp, rfl⟩ := mem_map.1 h
    simpa using lookup_eq_none_iff.1 hlookup p hp
  | some o =>
    obtain ⟨front, back, hsplit, -⟩ := lookup_eq_some_iff.1 hlookup
    exact hsplit ▸ mem_append_right _ mem_cons_self

theorem nodup_active (c : Campaign) : c.active.Nodup :=
  PlanGraph.Convergence.nodup_sortKeys
    (Dict.nodup_map_filter_items c.ledger.keys fun info => info.status.active)

theorem mem_observedFixed {outcomes : Key → Outcome} :
    key ∈ c.observedFixed outcomes ↔ key ∈ c.active ∧ outcomes key = .pass := by
  rw [Campaign.observedFixed, mem_filter, decide_eq_true_eq]

/-- A new production run is evidence of the absence of what no new run shows. -/
theorem evidence_of_notMem
    (hnew : ∃ run ∈ corpus.freshRuns, ∃ m, run.projection = .verified m ∧ m.production = true)
    (h : signature ∉ (corpus.freshRuns.flatMap (·.minted)).map (·.signature)) :
    Evidence corpus signature := by
  obtain ⟨run, hrun, m, hm, hproduction⟩ := hnew
  refine ⟨run, hrun, m, hm, hproduction, fun hmem => h ?_⟩
  obtain ⟨ob, hob, rfl⟩ := mem_map.1 hmem
  refine mem_map_of_mem (mem_flatMap.2 ⟨run, hrun, ?_⟩)
  simpa [RunDir.minted, hm, hproduction] using hob

theorem freshRuns_ne_nil (hrefused : ∃ run ∈ corpus.runs, run.isRefused = true) :
    corpus.freshRuns ≠ [] := by
  obtain ⟨run, hrun, hrefused⟩ := hrefused
  refine ne_nil_of_mem (mem_filter.2 ⟨hrun, ?_⟩)
  rw [RunDir.isRefused] at hrefused
  cases hprojection : run.projection <;> simp [hprojection, fresh] at hrefused ⊢

theorem mines_of_signature (h : signatureAbsent? (c.assertionOf key) = some signature) :
    mines c.assertionOf key = true := by
  rw [mines, h]
  rfl

/-- **The verdicts are sound and independent exactly if the mining is adequate.** -/
theorem trustworthy_iff (command : Json → Outcome) (c : Campaign) (corpus : Corpus) :
    Trustworthy command c corpus ↔ Adequate c corpus := by
  have hsolo (key : Key) : runAssertions command c.assertionOf corpus [key] =
      [(key, (defaultAssertionRunner command corpus (c.assertionOf key)).1)] := rfl
  by_cases hminable : Minable corpus
  · have htold {key : Key} (hkey : key ∈ c.active) :=
      mem_runAssertions hminable (nodup_active c) (mem_defaultOutcomes command corpus hkey)
    have hmining {key : Key} {signature : String}
        (h : signatureAbsent? (c.assertionOf key) = some signature) :=
      (defaultAssertionRunner_mines command hminable h).1
    constructor
    · intro h
      by_cases hnil : c.active.filter (mines c.assertionOf) = []
      · exact .inl hnil
      by_cases hfresh : corpus.freshRuns = []
      · exact .inr (.inr (.inl hfresh))
      obtain ⟨first, later, hfirst⟩ := exists_cons_of_ne_nil hnil
      obtain ⟨hactive, hmines⟩ := mem_filter.1 (hfirst ▸ mem_cons_self : first ∈ filter _ c.active)
      obtain ⟨signature, hsignature⟩ := Option.isSome_iff_exists.1 hmines
      have hnodup : (first :: later).Nodup := hfirst ▸ (nodup_active c).filter _
      refine .inr (.inr (.inr ⟨?_, fun key hkey signature hsignature => ?_⟩))
      · -- The first key reports a signature of a new production run, or passes on evidence.
        have hout := htold hactive
        rw [hfirst, tail_cons, if_neg (nodup_cons.1 hnodup).1, hmining hsignature, if_neg hfresh]
          at hout
        by_cases hshown : signature ∈ (corpus.freshRuns.flatMap (·.minted)).map (·.signature)
        · obtain ⟨ob, hob, -⟩ := mem_map.1 hshown
          obtain ⟨run, hrun, hob⟩ := mem_flatMap.1 hob
          refine ⟨run, hrun, ?_⟩
          rw [RunDir.minted] at hob
          split at hob
          · rename_i m hm
            exact ⟨m, hm, by_contra fun hproduction => by simp [hproduction] at hob⟩
          · exact absurd hob not_mem_nil
          · exact absurd hob not_mem_nil
        · rw [if_neg hshown] at hout
          obtain ⟨run, hrun, m, hm, hproduction, -⟩ :=
            h.sound first (mem_observedFixed.2 ⟨hactive, hout⟩) signature hsignature
          exact ⟨run, hrun, m, hm, hproduction⟩
      · obtain ⟨hactive, -⟩ := mem_filter.1 (mem_of_mem_tail hkey)
        have hout := htold hactive
        have halone := h.independent key hactive
        rw [hsolo, hout, if_pos hkey, hmining hsignature, if_neg hfresh, laterOutcome] at halone
        have hsame := congrArg Prod.snd (singleton_injective halone)
        dsimp only at hsame
        split_ifs at hsame with hshown hrefused hrefused
        exact ⟨by simpa using hrefused, hshown⟩
    · intro h
      have hsame {key : Key} (hkey : key ∈ c.active) : defaultOutcomes command c corpus key =
          (defaultAssertionRunner command corpus (c.assertionOf key)).1 := by
        by_cases htail : key ∈ (c.active.filter (mines c.assertionOf)).tail
        · have hmines := (mem_filter.1 (mem_of_mem_tail htail)).2
          obtain ⟨signature, hsignature⟩ := Option.isSome_iff_exists.1 hmines
          rw [htold hkey, if_pos htail, hmining hsignature, laterOutcome]
          obtain hnil | hnot | hfresh | ⟨-, hlater⟩ := h
          · rw [hnil] at htail
            exact absurd htail not_mem_nil
          · exact absurd hminable hnot
          · rw [if_pos hfresh, if_neg]
            intro hrefused
            exact freshRuns_ne_nil (by simpa using hrefused) hfresh
          · obtain ⟨hrefused, hshown⟩ := hlater key htail signature hsignature
            rw [if_neg (freshRuns_ne_nil hrefused), if_neg hshown, if_pos (by simpa using hrefused)]
        · rw [htold hkey, if_neg htail]
      refine ⟨fun key hkey signature hsignature => ?_, fun key hkey => by rw [hsolo, hsame hkey]⟩
      obtain ⟨hactive, hpass⟩ := mem_observedFixed.1 hkey
      rw [hsame hactive, hmining hsignature] at hpass
      split_ifs at hpass with hfresh hshown
      obtain hnil | hnot | hnone | ⟨hnew, -⟩ := h
      · exact absurd (hnil ▸ mem_filter.2 ⟨hactive, mines_of_signature hsignature⟩) not_mem_nil
      · exact absurd hminable hnot
      · exact absurd hnone hfresh
      · exact evidence_of_notMem hnew hshown
  · have hout {key : Key} (hkey : key ∈ c.active) := mem_runAssertions_of_not_minable hminable
      (mem_defaultOutcomes command corpus hkey)
    refine iff_of_true ⟨fun key hkey signature hsignature => ?_, fun key hkey => ?_⟩
      (.inr (.inl hminable))
    · obtain ⟨hactive, hpass⟩ := mem_observedFixed.1 hkey
      rw [hout hactive, if_pos (mines_of_signature hsignature)] at hpass
      cases hpass
    · rw [hsolo, hout hkey, ← mem_runAssertions_of_not_minable hminable
        (hsolo key ▸ mem_cons_self : (key, _) ∈ runAssertions command c.assertionOf corpus [key])]

/-- Two keys about the signature of the one new run: the second finds nothing new. -/
theorem second_key_unexecuted : ∃ c, openCampaign "loop" 3 []
    ⟨"self-improvement", .null, "base", none, none, none, none, .null⟩
    (["a", "b"].map fun subject =>
      ⟨"a.py", subject, ["a.py"], none, none, none, none, none, none, false, [], []⟩)
    (Dict.ofList (["a.py::a", "a.py::b"].map fun key =>
      (key, .obj [("signature_absent", .str "crash")]))) = .ok c ∧
    ¬ Trustworthy (fun _ => .unexecuted) c ⟨true, [⟨"run", .verified
      ⟨"run", none, 1, true, [⟨"run", none, "failed", "crash", 1, .null⟩]⟩⟩], by decide, ∅⟩ := by
  refine ⟨_, rfl, fun h => ?_⟩
  exact absurd (h.independent ("a.py", "b") (by decide +kernel)) (by decide +kernel)

end HarnessLabs.Improvement
