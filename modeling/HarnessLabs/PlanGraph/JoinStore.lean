import HarnessLabs.Lib.Runs
import HarnessLabs.Lib.Yields
import HarnessLabs.PlanGraph.JoinResolution

/-!
# The store of join resolutions

A registration appends a record under the lock and updates the ref of its conflict afterwards. The
processes take turns between the two, and may die there.

* `register`, `lookup` — what happens under the lock.
* `step` — the turns of all processes.
* `durable_of_undisturbed` — **what is returned stays registered and anchored**, where no
  registration is repeated or replaced before an earlier one of its conflict has updated the ref.
-/

namespace HarnessLabs.PlanGraph.JoinResolution

open List

/-! ## The journal -/

structure Record where
  sequence : ℕ
  description : Description
  resolvedTree : String
  reason : String
  actor : String
  supersedes : Option ℕ
deriving DecidableEq

def Record.key (r : Record) : String := r.description.resolutionKey

/-- `key[:16]`, the last part of the name of the ref. -/
def refName (key : String) : String := String.ofList (key.toList.take 16)

structure Folded where
  resolutions : Dict String Record
  nextSequence : ℕ

/-- What `_fold` demands of a record, its place apart. -/
def Record.Valid (r : Record) : Prop :=
  r.description.label ≠ "" ∧ r.key ≠ "" ∧ r.resolvedTree ≠ "" ∧
    r.description.automergeTree ≠ "" ∧ r.reason ≠ "" ∧ r.actor ≠ "" ∧
      r.description.conflictedPaths ≠ []

instance (r : Record) : Decidable r.Valid := by
  unfold Record.Valid
  infer_instance

def foldRecord (state : Folded) (r : Record) : Except JoinError Folded :=
  if r.sequence = state.nextSequence ∧ r.Valid then
    .ok ⟨state.resolutions.set r.key r, state.nextSequence + 1⟩
  else .error .corrupt

/-- `_fold`. -/
def fold (journal : List Record) : Except JoinError Folded := journal.foldlM foldRecord ⟨∅, 1⟩

/-! ## Registration and look-up -/

structure Call where
  label : String
  parentA : String
  parentB : String
  resolvedTree : String
  reason : String
  actor : String
  supersede : Bool
deriving DecidableEq

inductive Registered where
  | existing (r : Record)
  | appended (r : Record)

/-- `register` up to the end of the lock. -/
def register (git : Git) (journal : List Record) (c : Call) : Except JoinError Registered :=
  if c.reason.toList.all Char.isWhitespace then .error .blankReason
  else if c.actor.toList.all Char.isWhitespace then .error .blankActor
  else do
    let description ← describeJoinConflict git c.label c.parentA c.parentB
    let resolved ← verifyResolvedTree git description c.resolvedTree
    let state ← fold journal
    let record (supersedes : Option ℕ) : Record :=
      ⟨state.nextSequence, description, resolved, c.reason, c.actor, supersedes⟩
    match state.resolutions.get? description.resolutionKey with
    | none => .ok (.appended (record none))
    | some existing =>
      if c.supersede then .ok (.appended (record (some existing.sequence)))
      else if existing.resolvedTree = resolved then .ok (.existing existing)
      else .error (.alreadyResolved existing.sequence)

def pairKey (git : Git) (label parentA parentB : String) : Except JoinError String := do
  let a ← resolveCommit git parentA
  let b ← resolveCommit git parentB
  let bases ← sharedTrees git a b
  return resolutionKey label (parentTrees git a b) bases

/-- A journal that does not exist is an empty one. -/
def lookup (git : Git) (journal : List Record) (label parentA parentB : String) :
    Except JoinError (Option Record) :=
  match pairKey git label parentA parentB with
  | .error _ => .ok none
  | .ok key => (fold journal).map fun state => state.resolutions.get? key

/-! ## Turns -/

structure Store where
  journal : List Record := []
  refs : Dict String String := ∅
  /-- Calls with a record in the journal and the ref update to come. -/
  unanchored : List (Call × Record) := []
  /-- Records whose call ended without the ref update. -/
  cut : List Record := []
  returned : List (Call × Record) := []
  /-- What each refused call had appended. -/
  refused : List (Option Record) := []
deriving DecidableEq

inductive Turn where
  | register (c : Call)
  | updateRef (c : Call) (r : Record)
  | updateRefFails (c : Call) (r : Record)
  | crash (c : Call) (r : Record)

def step (git : Git) : Turn → Store → Option Store
  | .register c, s =>
    match register git s.journal c with
    | .error _ => some { s with refused := none :: s.refused }
    | .ok (.existing r) => some { s with returned := (c, r) :: s.returned }
    | .ok (.appended r) => some { s with
        journal := s.journal ++ [r], unanchored := (c, r) :: s.unanchored }
  | .updateRef c r, s =>
    if (c, r) ∈ s.unanchored then some { s with
      refs := s.refs.set (refName r.key) r.resolvedTree
      unanchored := s.unanchored.erase (c, r)
      returned := (c, r) :: s.returned }
    else none
  | .updateRefFails c r, s =>
    if (c, r) ∈ s.unanchored then some { s with
      unanchored := s.unanchored.erase (c, r)
      cut := r :: s.cut
      refused := some r :: s.refused }
    else none
  | .crash c r, s =>
    if (c, r) ∈ s.unanchored then some { s with
      unanchored := s.unanchored.erase (c, r)
      cut := r :: s.cut }
    else none

/-- What a store promises. -/
structure Durable (git : Git) (s : Store) : Prop where
  sequences : s.journal.map Record.sequence = range' 1 s.journal.length
  refusals : ∀ appended ∈ s.refused, appended = none
  /-- A returned record is found until a later one of its conflict supersedes it. -/
  found : ∀ c r, (c, r) ∈ s.returned →
    lookup git s.journal c.label c.parentA c.parentB = .ok (some r) ∨
      ∃ later ∈ s.journal, later.key = r.key ∧ r.sequence < later.sequence ∧
        later.supersedes.isSome
  anchored : ∀ c r, (c, r) ∈ s.returned →
    lookup git s.journal c.label c.parentA c.parentB = .ok (some r) →
      s.refs.get? (refName r.key) = some r.resolvedTree

/-- No registration of the call's conflict is in flight or was cut, no other conflict has the name
of its ref, and Git updates the ref. -/
def Undisturbed (git : Git) (s : Store) : Turn → Prop
  | .register c => ∀ key, pairKey git c.label c.parentA c.parentB = .ok key →
      (∀ r, r ∈ s.unanchored.map Prod.snd ∨ r ∈ s.cut → r.key ≠ key) ∧
        ∀ r ∈ s.journal, refName r.key = refName key → r.key = key
  | .updateRefFails _ _ => False
  | _ => True

/-! ## What a registration yields -/

theorem resolutionKey_ne {label : String} {trees : String × String} {bases : List String} :
    resolutionKey label trees bases ≠ "" := by
  simp [resolutionKey, Sha256.hexdigest, Sha256.hexChars]

variable {git : Git}

theorem describe_eq_ok {label a b : String} {d : Description}
    (h : describeJoinConflict git label a b = .ok d) :
    (d.label ≠ "" ∧ d.resolutionKey ≠ "" ∧ d.automergeTree ≠ "" ∧ d.conflictedPaths ≠ []) ∧
      pairKey git label a b = .ok d.resolutionKey := by
  rw [describeJoinConflict] at h
  rw [pairKey]
  split at h
  · cases h
  next hlabel =>
  cases ha : resolveCommit git a with
  | error e => simp [ha, bind, Except.bind] at h
  | ok ca =>
  cases hb : resolveCommit git b with
  | error e => simp [ha, hb, bind, Except.bind] at h
  | ok cb =>
  simp only [ha, hb, bind, Except.bind] at h ⊢
  split at h
  · cases h
  split at h
  · cases h
  · cases h
  next tree stages hmerge =>
  split at h
  · cases h
  next hpaths =>
  cases hbases : sharedTrees git ca cb with
  | error e => simp [hbases, Except.map] at h
  | ok bases =>
    rw [hbases] at h
    cases h
    exact ⟨⟨hlabel, resolutionKey_ne, git.mergeTree_ne hmerge, hpaths⟩, rfl⟩

/-- What the store keeps of its journal. -/
theorem fold_concat {journal : List Record} {state : Folded} {r : Record}
    (h : fold journal = .ok state) (hr : r.sequence = state.nextSequence) (hvalid : r.Valid) :
    fold (journal ++ [r]) = .ok ⟨state.resolutions.set r.key r, state.nextSequence + 1⟩ := by
  rw [fold, foldlM_append]
  rw [fold] at h
  simp [h, foldRecord, hr, hvalid, bind, Except.bind, pure, Except.pure]

theorem lookup_eq {journal : List Record} {state : Folded} {label a b key : String}
    (h : fold journal = .ok state) (hkey : pairKey git label a b = .ok key) :
    lookup git journal label a b = .ok (state.resolutions.get? key) := by
  rw [lookup, hkey]
  simp [h, Except.map]

/-- The two kinds of accepted calls. -/
theorem register_eq_ok {journal : List Record} {state : Folded} {c : Call} {out : Registered}
    (hfold : fold journal = .ok state) (h : register git journal c = .ok out) :
    ∃ key, pairKey git c.label c.parentA c.parentB = .ok key ∧
      match out with
      | .existing r => state.resolutions.get? key = some r
      | .appended r => r.key = key ∧ r.sequence = state.nextSequence ∧ r.Valid ∧
          r.supersedes = (state.resolutions.get? key).map Record.sequence := by
  rw [register] at h
  split at h
  · cases h
  next hreason =>
  split at h
  · cases h
  next hactor =>
  cases hd : describeJoinConflict git c.label c.parentA c.parentB with
  | error e => simp [hd, bind, Except.bind] at h
  | ok d =>
  obtain ⟨⟨hlabel, hkey, htree, hpaths⟩, hpair⟩ := describe_eq_ok hd
  cases hv : verifyResolvedTree git d c.resolvedTree with
  | error e => simp [hd, hv, bind, Except.bind] at h
  | ok resolved =>
  have hvalid : ∀ supersedes,
      Record.Valid ⟨state.nextSequence, d, resolved, c.reason, c.actor, supersedes⟩ := by
    have hne : ∀ s : String, ¬ (s.toList.all Char.isWhitespace = true) → s ≠ "" := by
      rintro s hs rfl
      exact hs rfl
    have hresolved : resolved ≠ "" := by
      rw [verifyResolvedTree] at hv
      split at hv
      · cases hv
      next id hid =>
      cases hcompare : compareTrees (git.files d.automergeTree) d.conflictedPaths
          (git.files id) with
      | error e => simp [hcompare, Except.map] at hv
      | ok u =>
        rw [hcompare] at hv
        cases hv
        exact git.tree_ne hid
    exact fun _ => ⟨hlabel, hkey, hresolved, htree, hne _ hreason, hne _ hactor, hpaths⟩
  refine ⟨d.resolutionKey, hpair, ?_⟩
  simp only [hd, hv, hfold, bind, Except.bind] at h
  cases hget : state.resolutions.get? d.resolutionKey with
  | none =>
    rw [hget] at h
    cases h
    exact ⟨rfl, rfl, hvalid none, rfl⟩
  | some existing =>
    simp only [hget] at h
    split_ifs at h <;> cases h
    · exact ⟨rfl, rfl, hvalid _, rfl⟩
    · rfl

/-! ## What the turns keep -/

/-- The record is active, or a later one of its conflict supersedes it. -/
def Holds (state : Folded) (r : Record) : Prop :=
  ∃ active, state.resolutions.get? r.key = some active ∧
    (active = r ∨ r.sequence < active.sequence ∧ active.supersedes.isSome)

structure Kept (git : Git) (s : Store) (state : Folded) : Prop where
  folded : fold s.journal = .ok state
  next : state.nextSequence = s.journal.length + 1
  sequences : s.journal.map Record.sequence = range' 1 s.journal.length
  active : ∀ key r, state.resolutions.get? key = some r → r.key = key ∧ r ∈ s.journal
  holds : ∀ r ∈ s.journal, Holds state r
  refNames : ∀ r ∈ s.journal, ∀ r' ∈ s.journal, refName r.key = refName r'.key → r.key = r'.key
  /-- A record whose ref is still to be updated, or never will, is the active one. -/
  unfinished : ∀ r, r ∈ s.unanchored.map Prod.snd ∨ r ∈ s.cut →
    state.resolutions.get? r.key = some r
  refs : ∀ key r, state.resolutions.get? key = some r →
    (r ∈ s.unanchored.map Prod.snd ∨ r ∈ s.cut) ∨
      s.refs.get? (refName key) = some r.resolvedTree
  returned : ∀ c r, (c, r) ∈ s.returned → r ∈ s.journal ∧
    pairKey git c.label c.parentA c.parentB = .ok r.key ∧
      (state.resolutions.get? r.key = some r →
        s.refs.get? (refName r.key) = some r.resolvedTree)
  calls : ∀ c r, (c, r) ∈ s.unanchored → pairKey git c.label c.parentA c.parentB = .ok r.key
  refusals : ∀ appended ∈ s.refused, appended = none

section

variable {s s' : Store} {state : Folded} {c : Call} {r : Record}

theorem Kept.durable (h : Kept git s state) : Durable git s where
  sequences := h.sequences
  refusals := h.refusals
  found c r hr := by
    obtain ⟨hmem, hkey, -⟩ := h.returned c r hr
    obtain ⟨active, hactive, rfl | ⟨hlater, hsupersedes⟩⟩ := h.holds r hmem
    · exact .inl (by rw [lookup_eq h.folded hkey, hactive])
    · obtain ⟨hkey', hmem'⟩ := h.active _ _ hactive
      exact .inr ⟨active, hmem', hkey', hlater, hsupersedes⟩
  anchored c r hr hfound := by
    obtain ⟨-, hkey, hrefs⟩ := h.returned c r hr
    rw [lookup_eq h.folded hkey] at hfound
    exact hrefs (Except.ok.inj hfound)

theorem Kept.sequence_le (h : Kept git s state) (hr : r ∈ s.journal) :
    r.sequence < state.nextSequence := by
  have hmem : r.sequence ∈ range' 1 s.journal.length := h.sequences ▸ mem_map_of_mem hr
  rw [mem_range'_1] at hmem
  have hnext := h.next
  omega

theorem Kept.init : Kept git {} ⟨∅, 1⟩ where
  folded := rfl
  next := rfl
  sequences := rfl
  active := by simp
  holds := by simp
  refNames := by simp
  unfinished := by simp
  refs := by simp
  returned := by simp
  calls := by simp
  refusals := by simp

/-- An appended record becomes the active one of its conflict. -/
theorem Kept.append (h : Kept git s state)
    (hkey : pairKey git c.label c.parentA c.parentB = .ok r.key)
    (hundisturbed : (∀ u, u ∈ s.unanchored.map Prod.snd ∨ u ∈ s.cut → u.key ≠ r.key) ∧
      ∀ u ∈ s.journal, refName u.key = refName r.key → u.key = r.key)
    (hseq : r.sequence = state.nextSequence) (hvalid : r.Valid)
    (hsupersedes : r.supersedes = (state.resolutions.get? r.key).map Record.sequence) :
    Kept git { s with journal := s.journal ++ [r], unanchored := (c, r) :: s.unanchored }
      ⟨state.resolutions.set r.key r, state.nextSequence + 1⟩ where
  folded := fold_concat h.folded hseq hvalid
  next := by simp [h.next]
  sequences := by simp [h.sequences, hseq, h.next, range'_concat, Nat.add_comm]
  active key u hu := by
    rw [Dict.get?_set] at hu
    split_ifs at hu with heq
    · cases hu
      exact ⟨heq.symm, by simp⟩
    · obtain ⟨hu, hmem⟩ := h.active key u hu
      exact ⟨hu, mem_append_left _ hmem⟩
  holds u hu := by
    rw [Holds, Dict.get?_set]
    rcases mem_append.1 hu with hu | hu
    · obtain ⟨active, hactive, hlast⟩ := h.holds u hu
      split_ifs with heq
      · rw [heq] at hactive
        refine ⟨r, rfl, .inr ⟨hseq ▸ h.sequence_le hu, ?_⟩⟩
        rw [hsupersedes, hactive]
        rfl
      · exact ⟨active, hactive, hlast⟩
    · rw [mem_singleton.1 hu]
      exact ⟨r, if_pos rfl, .inl rfl⟩
  refNames u hu v hv heq := by
    rcases mem_append.1 hu with hu | hu <;> rcases mem_append.1 hv with hv | hv
    · exact h.refNames u hu v hv heq
    · rw [mem_singleton.1 hv] at heq ⊢
      exact hundisturbed.2 u hu heq
    · rw [mem_singleton.1 hu] at heq ⊢
      exact (hundisturbed.2 v hv heq.symm).symm
    · rw [mem_singleton.1 hu, mem_singleton.1 hv]
  unfinished u hu := by
    rw [map_cons, mem_cons, or_assoc] at hu
    rcases hu with rfl | hu
    · exact Dict.get?_set_self _ _ _
    · rw [Dict.get?_set_ne _ _ (hundisturbed.1 u hu)]
      exact h.unfinished u hu
  refs key u hu := by
    rw [map_cons, mem_cons, or_assoc, or_assoc]
    rw [Dict.get?_set] at hu
    split_ifs at hu
    · exact .inl (Option.some.inj hu).symm
    · exact .inr (or_assoc.1 (h.refs key u hu))
  returned d u hu := by
    obtain ⟨hmem, hd, hrefs⟩ := h.returned d u hu
    refine ⟨mem_append_left _ hmem, hd, fun hactive => ?_⟩
    rw [Dict.get?_set] at hactive
    split_ifs at hactive
    · cases hactive
      exact absurd (h.sequence_le hmem) (hseq ▸ Nat.lt_irrefl _)
    · exact hrefs hactive
  calls d u hu := by
    rcases mem_cons.1 hu with heq | hu
    · cases heq
      exact hkey
    · exact h.calls d u hu
  refusals := h.refusals

theorem mem_snd_of_erase {l : List (Call × Record)} {x : Call × Record}
    (h : r ∈ (l.erase x).map Prod.snd) : r ∈ l.map Prod.snd :=
  map_subset _ erase_subset h

/-- The ref of an unanchored record is updated, and the call returns it. -/
theorem Kept.updateRef (h : Kept git s state) (hmem : (c, r) ∈ s.unanchored) :
    Kept git { s with
      refs := s.refs.set (refName r.key) r.resolvedTree
      unanchored := s.unanchored.erase (c, r)
      returned := (c, r) :: s.returned } state := by
  have hactive : state.resolutions.get? r.key = some r :=
    h.unfinished r (.inl (mem_map_of_mem hmem))
  have hjournal := (h.active _ _ hactive).2
  -- The ref changes for no other active record.
  have hset : ∀ key u, state.resolutions.get? key = some u →
      s.refs.get? (refName key) = some u.resolvedTree →
        (s.refs.set (refName r.key) r.resolvedTree).get? (refName key) = some u.resolvedTree := by
    intro key u hu hrefs
    rw [Dict.get?_set]
    split_ifs with heq
    · obtain ⟨hkey, hu'⟩ := h.active key u hu
      have hsame : key = r.key := by
        rw [← hkey] at heq ⊢
        exact h.refNames u hu' r hjournal heq
      rw [hsame, hactive] at hu
      rw [Option.some.inj hu]
    · exact hrefs
  exact { h with
    unfinished := fun u hu => h.unfinished u (hu.imp_left mem_snd_of_erase)
    refs := by
      intro key u hu
      rcases h.refs key u hu with (hopen | hcut) | hrefs
      · obtain ⟨⟨d, v⟩, hd, rfl⟩ := mem_map.1 hopen
        by_cases heq : (d, v) = (c, r)
        · cases heq
          exact .inr (by rw [← (h.active key _ hu).1, Dict.get?_set_self])
        · exact .inl (.inl (mem_map_of_mem ((mem_erase_of_ne heq).2 hd)))
      · exact .inl (.inr hcut)
      · exact .inr (hset key u hu hrefs)
    returned := by
      intro d u hu
      rcases mem_cons.1 hu with heq | hu
      · cases heq
        exact ⟨hjournal, h.calls c r hmem, fun _ => Dict.get?_set_self _ _ _⟩
      · obtain ⟨hu, hkey, hrefs⟩ := h.returned d u hu
        exact ⟨hu, hkey, fun hactive => hset _ u hactive (hrefs hactive)⟩
    calls := fun d u hu => h.calls d u (mem_of_mem_erase hu) }

/-- A process dies before its ref update. -/
theorem Kept.crash (h : Kept git s state) (hmem : (c, r) ∈ s.unanchored) :
    Kept git { s with unanchored := s.unanchored.erase (c, r), cut := r :: s.cut } state :=
  { h with
    unfinished := by
      rintro u (hu | hu)
      · exact h.unfinished u (.inl (mem_snd_of_erase hu))
      · rcases mem_cons.1 hu with rfl | hu
        · exact h.unfinished u (.inl (mem_map_of_mem hmem))
        · exact h.unfinished u (.inr hu)
    refs := by
      intro key u hu
      rcases h.refs key u hu with (hopen | hcut) | hrefs
      · obtain ⟨⟨d, v⟩, hd, rfl⟩ := mem_map.1 hopen
        by_cases heq : (d, v) = (c, r)
        · cases heq
          exact .inl (.inr mem_cons_self)
        · exact .inl (.inl (mem_map_of_mem ((mem_erase_of_ne heq).2 hd)))
      · exact .inl (.inr (mem_cons_of_mem _ hcut))
      · exact .inr hrefs
    calls := fun d u hu => h.calls d u (mem_of_mem_erase hu) }

/-- What one turn keeps. -/
theorem Kept.step {turn : Turn} (h : Kept git s state) (hallowed : Undisturbed git s turn)
    (hstep : step git turn s = some s') : ∃ state', Kept git s' state' := by
  cases turn with
  | register c =>
    simp only [JoinResolution.step] at hstep
    cases hout : register git s.journal c with
    | error e =>
      rw [hout] at hstep
      cases hstep
      exact ⟨state, { h with refusals := by simpa using h.refusals }⟩
    | ok out =>
      obtain ⟨key, hkey, hcase⟩ := register_eq_ok h.folded hout
      obtain ⟨hquiet, hrefs⟩ := hallowed key hkey
      rw [hout] at hstep
      cases out with
      | existing r =>
        cases hstep
        obtain ⟨hr, hmem⟩ := h.active key r hcase
        refine ⟨state, { h with returned := fun d u hu => ?_ }⟩
        rcases mem_cons.1 hu with heq | hu
        · cases heq
          refine ⟨hmem, hr ▸ hkey, fun _ => ?_⟩
          rcases h.refs key r hcase with hopen | hrefs
          · exact absurd hr (hquiet r hopen)
          · exact hr ▸ hrefs
        · exact h.returned d u hu
      | appended r =>
        cases hstep
        obtain ⟨rfl, hseq, hvalid, hsupersedes⟩ := hcase
        exact ⟨_, h.append hkey ⟨hquiet, hrefs⟩ hseq hvalid hsupersedes⟩
  | updateRef c r =>
    obtain ⟨hmem, heq⟩ := Option.ite_none_right_eq_some.1 hstep
    cases heq
    exact ⟨state, h.updateRef hmem⟩
  | updateRefFails c r => exact hallowed.elim
  | crash c r =>
    obtain ⟨hmem, heq⟩ := Option.ite_none_right_eq_some.1 hstep
    cases heq
    exact ⟨state, h.crash hmem⟩

end

/-- **What is returned stays registered and anchored** in every run without disturbed turns. -/
theorem durable_of_undisturbed {s : Store}
    (h : Inputs.RunsUnder (Undisturbed git) (step git) {} s) : Durable git s := by
  obtain ⟨state, hkept⟩ := h.invariant (P := fun s => ∃ state, Kept git s state)
    (fun _ _ _ hallowed hstep ⟨_, hx⟩ => hx.step hallowed hstep) ⟨_, Kept.init⟩
  exact hkept.durable

/-! ## A registration that is cut -/

/-- Any two commits conflict in one file, and every other tree resolves the conflict. -/
def oneFile : Git where
  commit := some
  tree name := if name = "" then none else some name
  treeOf := id
  mergeBases _ _ := some ["base"]
  mergeTree _ _ := .conflict "automerge" [⟨"100644", "0a", "2", [97]⟩]
  files id := if id = "automerge" then ⟨[([97], marked 0)], nodup_singleton _⟩ else ∅
  tree_ne := by
    intro name id h
    split_ifs at h with hne
    exact Option.some.inj h ▸ hne
  mergeTree_ne := by
    intro a b id stages h
    cases h
    decide

def oneCall : Call := ⟨"join", "a", "b", "resolved", "checked", "operator", false⟩

def oneRecord : Record :=
  ⟨1, ⟨"join", ("a", "b"), ("a", "b"), ["base"], resolutionKey "join" ("a", "b") ["base"],
    "automerge", [[97]]⟩, "resolved", "checked", "operator", none⟩

def cutStore : Store :=
  { journal := [oneRecord], cut := [oneRecord], returned := [(oneCall, oneRecord)] }

def completedStore : Store :=
  { journal := [oneRecord], refs := Dict.empty.set (refName oneRecord.key) "resolved",
    returned := [(oneCall, oneRecord)] }

theorem durable_of_completed : Durable oneFile completedStore := by
  have hrun : Inputs.runInputs (step oneFile) {}
      [.register oneCall, .updateRef oneCall oneRecord] = some completedStore := by
    decide +kernel
  refine durable_of_undisturbed (Inputs.AllInputs.runsUnder ?_ hrun)
  exact fun _ _ => ⟨by simp [Undisturbed], fun _ _ => ⟨True.intro, True.intro⟩⟩

/-- After the crash the same call returns the record, and no ref names its tree. -/
theorem returns_without_ref :
    ∃ s, Inputs.Runs (step oneFile) {} s ∧ ¬ Durable oneFile s := by
  have hrun : Inputs.runInputs (step oneFile) {}
      [.register oneCall, .crash oneCall oneRecord, .register oneCall] = some cutStore := by
    decide +kernel
  refine ⟨cutStore, Inputs.runs_of_runInputs hrun, fun h => ?_⟩
  have hanchored := h.anchored oneCall oneRecord mem_cons_self (by decide +kernel)
  exact absurd hanchored (by decide +kernel)

end HarnessLabs.PlanGraph.JoinResolution
