import HarnessLabs.Core.SharedJournal
import HarnessLabs.Lib.Runs

/-!
# Contenders on one journal

Any number of controllers work on the directory of one audit, each through a journal of its own. A
transition reads the state twice, appends its event and writes its checkpoint, and looks at nothing
else. A guarded operation reads the head that belongs to the revision it expects, reads the state,
and swaps. The steps of different controllers come in any order, and a controller may stop anywhere.

A transition that overtakes another writer breaks the hash chain, because its journal still believes
the place of an earlier event. Every swap from then on is refused. So as long as the chain holds the
states follow each other as if every operation was one step.

* `History` — what operations that are one step leave.
* `run_history` — **what is behind the events of a run, up to the first broken link.**
* `run_invariant` — **what every operation keeps holds of every checkpoint.**
-/

namespace HarnessLabs.Audit

open Inputs List Function

/-! ## The system -/

/-- The operations of a controller on the state: transitions, with what they keep of their first
read, and guarded operations, which check their arguments first. -/
structure Client (σ T U O E : Type) where
  prepare : T → σ → Except String U
  load : U → σ → Except String (σ × E)
  check : O → Except String Unit
  expectedRevision : O → ℕ
  compose : O → σ → Except String (σ × E)

/-- Where a controller stands. -/
inductive Phase (σ U O E H : Type) where
  | idle
  | prepared (update : U)
  | loaded (next : σ) (payload : E)
  | appended (next : σ)
  | headed (op : O) (head : Option H)
  | composed (expectedRevision : ℕ) (head : Option H) (next : σ) (payload : E)

structure System (K σ U O E H : Type) where
  disk : SharedDisk σ H E
  beliefs : K → Believed H
  phases : K → Phase σ U O E H

/-- The next step of a controller. The hash is that of the event which the step writes. -/
inductive Action (K T O H : Type) where
  | reopen (k : K)
  | prepare (k : K) (t : T)
  | load (k : K)
  | append (k : K) (hash : H)
  | checkpoint (k : K)
  | head (k : K) (op : O)
  | compose (k : K)
  | swap (k : K) (hash : H)

set_option linter.unusedSectionVars false

variable {K σ T U O E H : Type} [DecidableEq K] [DecidableEq H]

namespace System

def moveTo (s : System K σ U O E H) (k : K) (phase : Phase σ U O E H) : System K σ U O E H :=
  { s with phases := Function.update s.phases k phase }

/-- A controller writes: it leaves the directory, what it believes now, and where it stands. -/
def write (s : System K σ U O E H) (k : K) (disk : SharedDisk σ H E) (b : Believed H)
    (phase : Phase σ U O E H) : System K σ U O E H :=
  ⟨disk, Function.update s.beliefs k b, Function.update s.phases k phase⟩

/-- One step. What raises leaves the controller idle. -/
def step (client : Client σ T U O E) (action : Action K T O H) (s : System K σ U O E H) :
    Option (System K σ U O E H) :=
  match action with
  | .reopen k =>
    match s.phases k with
    | .idle =>
      if Chained s.disk.events ∧ s.disk.Bound then
        some (s.write k s.disk s.disk.believed .idle)
      else none
    | _ => none
  | .prepare k t =>
    match s.phases k with
    | .idle =>
      match client.prepare t s.disk.state with
      | .error _ => some s
      | .ok update => some (s.moveTo k (.prepared update))
    | _ => none
  | .load k =>
    match s.phases k with
    | .prepared update =>
      match client.load update s.disk.state with
      | .error _ => some (s.moveTo k .idle)
      | .ok (next, payload) => some (s.moveTo k (.loaded next payload))
    | _ => none
  | .append k hash =>
    match s.phases k with
    | .loaded next payload =>
      some (s.write k (s.disk.append (s.beliefs k) hash payload) ((s.beliefs k).afterEvent hash)
        (.appended next))
    | _ => none
  | .checkpoint k =>
    match s.phases k with
    | .appended next =>
      some (s.write k (s.disk.checkpoint (s.beliefs k) next) (s.beliefs k).afterCheckpoint .idle)
    | _ => none
  | .head k op =>
    match s.phases k with
    | .idle =>
      match client.check op with
      | .error _ => some s
      | .ok () =>
        if s.disk.revision = client.expectedRevision op then
          some (s.moveTo k (.headed op s.disk.headHash))
        else some s
    | _ => none
  | .compose k =>
    match s.phases k with
    | .headed op head =>
      match client.compose op s.disk.state with
      | .error _ => some (s.moveTo k .idle)
      | .ok (next, payload) =>
        some (s.moveTo k (.composed (client.expectedRevision op) head next payload))
    | _ => none
  | .swap k hash =>
    match s.phases k with
    | .composed expectedRevision head next payload =>
      match s.disk.swap expectedRevision head next hash payload with
      | .error _ => some (s.moveTo k .idle)
      | .ok (disk, b) => some (s.write k disk b .idle)
    | _ => none

end System

/-- The controllers have opened the journal and have not begun. -/
structure Opened (s : System K σ U O E H) : Prop where
  chained : Chained s.disk.events
  bound : s.disk.Bound
  beliefs : ∀ k, s.beliefs k = s.disk.believed
  idle : ∀ k, s.phases k = .idle

/-! ## What a step does -/

/-- How a controller gets where it stands without a write. -/
def Arises (client : Client σ T U O E) (s : System K σ U O E H) (k : K) :
    Phase σ U O E H → Prop
  | .idle => True
  | .prepared _ => True
  | .loaded next payload => ∃ update, client.load update s.disk.state = .ok (next, payload)
  | .appended _ => False
  | .headed op _ => s.disk.revision = client.expectedRevision op
  | .composed expectedRevision head next payload => ∃ op, s.phases k = .headed op head ∧
      expectedRevision = client.expectedRevision op ∧
      client.compose op s.disk.state = .ok (next, payload)

/-- What a step does. -/
inductive Moves (client : Client σ T U O E) (s : System K σ U O E H) : System K σ U O E H → Prop
  | stays : Moves client s s
  | turns (k : K) (phase : Phase σ U O E H) (hbefore : ∀ next, s.phases k ≠ .appended next)
      (h : Arises client s k phase) : Moves client s (s.moveTo k phase)
  | opens (k : K) (hidle : s.phases k = .idle) (hchained : Chained s.disk.events)
      (hbound : s.disk.Bound) : Moves client s (s.write k s.disk s.disk.believed .idle)
  | appends (k : K) (hash : H) (next : σ) (payload : E) (h : s.phases k = .loaded next payload) :
      Moves client s (s.write k (s.disk.append (s.beliefs k) hash payload)
        ((s.beliefs k).afterEvent hash) (.appended next))
  | checkpoints (k : K) (next : σ) (h : s.phases k = .appended next) :
      Moves client s (s.write k (s.disk.checkpoint (s.beliefs k) next)
        (s.beliefs k).afterCheckpoint .idle)
  | swaps (k : K) (hash : H) (head : Option H) (next : σ) (payload : E)
      (h : s.phases k = .composed s.disk.revision head next payload)
      (hchained : Chained s.disk.events) (hbound : s.disk.Bound) :
      Moves client s (s.write k ((s.disk.append s.disk.believed hash payload).checkpoint
        (s.disk.believed.afterEvent hash) next) (s.disk.believed.afterEvent hash).afterCheckpoint
        .idle)

section

variable {client : Client σ T U O E} {s s' : System K σ U O E H}

/-- **Every step is one of these.** -/
theorem step_moves {action : Action K T O H} (h : s.step client action = some s') :
    Moves client s s' := by
  cases action with
  | reopen k =>
    rw [System.step] at h
    split at h
    · rename_i hidle
      split at h
      · rename_i hready
        cases h
        exact .opens k hidle hready.1 hready.2
      · cases h
    · cases h
  | prepare k t =>
    rw [System.step] at h
    split at h
    · rename_i hidle
      have hbefore : ∀ next, s.phases k ≠ .appended next := by
        rw [hidle]
        simp
      split at h
      · cases h
        exact .stays
      · cases h
        exact .turns k _ hbefore True.intro
    · cases h
  | load k =>
    rw [System.step] at h
    split at h
    · rename_i update hprepared
      have hbefore : ∀ next, s.phases k ≠ .appended next := by
        rw [hprepared]
        simp
      split at h
      · cases h
        exact .turns k _ hbefore True.intro
      · rename_i next payload hok
        cases h
        exact .turns k _ hbefore ⟨update, hok⟩
    · cases h
  | append k hash =>
    rw [System.step] at h
    split at h
    · rename_i next payload hloaded
      cases h
      exact .appends k hash next payload hloaded
    · cases h
  | checkpoint k =>
    rw [System.step] at h
    split at h
    · rename_i next happended
      cases h
      exact .checkpoints k next happended
    · cases h
  | head k op =>
    rw [System.step] at h
    split at h
    · rename_i hidle
      have hbefore : ∀ next, s.phases k ≠ .appended next := by
        rw [hidle]
        simp
      split at h
      · cases h
        exact .stays
      split at h
      · rename_i hrevision
        cases h
        exact .turns k _ hbefore hrevision
      · cases h
        exact .stays
    · cases h
  | compose k =>
    rw [System.step] at h
    split at h
    · rename_i op head hheaded
      have hbefore : ∀ next, s.phases k ≠ .appended next := by
        rw [hheaded]
        simp
      split at h
      · cases h
        exact .turns k _ hbefore True.intro
      · rename_i next payload hok
        cases h
        exact .turns k _ hbefore ⟨op, hheaded, rfl, hok⟩
    · cases h
  | swap k hash =>
    rw [System.step] at h
    split at h
    · rename_i expectedRevision head next payload hcomposed
      have hbefore : ∀ next, s.phases k ≠ .appended next := by
        rw [hcomposed]
        simp
      split at h
      · cases h
        exact .turns k _ hbefore True.intro
      · rename_i disk b hok
        cases h
        obtain ⟨⟨hchained, hbound, rfl, -⟩, hresult⟩ := swap_eq_ok.1 hok
        obtain ⟨rfl, rfl⟩ := Prod.mk.inj hresult
        exact .swaps k hash head next payload hcomposed hchained hbound
    · cases h

/-- **A swap behind another revision or another head writes nothing.** -/
theorem swap_stale {k : K} {hash : H} {expectedRevision : ℕ} {head : Option H} {next : σ}
    {payload : E} (hphase : s.phases k = .composed expectedRevision head next payload)
    (hstale : s.disk.revision ≠ expectedRevision ∨ s.disk.headHash ≠ head)
    (hstep : s.step client (.swap k hash) = some s') : s' = s.moveTo k .idle := by
  rw [System.step, hphase] at hstep
  dsimp only at hstep
  cases hswap : s.disk.swap expectedRevision head next hash payload with
  | error message =>
    rw [hswap] at hstep
    exact (Option.some.inj hstep).symm
  | ok result =>
    obtain ⟨⟨-, -, hrevision, hhead⟩, -⟩ := swap_eq_ok.1 hswap
    exact absurd hrevision (hstale.resolve_right (not_not.2 hhead))

/-- A guarded operation that expects another revision does not begin. -/
theorem head_stale {k : K} {op : O} (hstale : s.disk.revision ≠ client.expectedRevision op)
    (hstep : s.step client (.head k op) = some s') : s' = s := by
  rw [System.step] at hstep
  split at hstep
  · split at hstep
    · exact (Option.some.inj hstep).symm
    · rw [if_neg hstale] at hstep
      exact (Option.some.inj hstep).symm
  · cases hstep

end

/-! ## Checkpoints -/

section AllHold

variable {client : Client σ T U O E} {P : σ → Prop} {s s' : System K σ U O E H}

/-- What a controller is going to write is a state of `P`, and a transition is one. -/
def Holds (client : Client σ T U O E) (P : σ → Prop) : Phase σ U O E H → Prop
  | .loaded next payload => P next ∧ ∃ update state, client.load update state = .ok (next, payload)
  | .appended next => P next
  | .composed _ _ next _ => P next
  | _ => True

/-- Every state that was written or is going to be. -/
structure AllHold (client : Client σ T U O E) (P : σ → Prop) (s : System K σ U O E H) : Prop where
  disk : P s.disk.state
  phases : ∀ k, Holds client P (s.phases k)

theorem AllHold.phase (h : AllHold client P s) {k : K} {phase : Phase σ U O E H}
    (hk : s.phases k = phase) : Holds client P phase := by
  rw [← hk]
  exact h.phases k

theorem holds_update (h : ∀ j, Holds client P (s.phases j)) (k : K) {phase : Phase σ U O E H}
    (hphase : Holds client P phase) (j : K) : Holds client P (Function.update s.phases k phase j) := by
  by_cases hj : j = k
  · rw [hj, update_self]
    exact hphase
  · rw [update_of_ne hj]
    exact h j

section

variable
  (hload : ∀ update state next payload, client.load update state = .ok (next, payload) → P state → P next)
  (hcompose : ∀ op state next payload, client.compose op state = .ok (next, payload) → P state → P next)

include hload hcompose

/-- A step keeps what the operations keep. -/
theorem AllHold.step (h : AllHold client P s) (hmoves : Moves client s s') :
    AllHold client P s' := by
  cases hmoves with
  | stays => exact h
  | turns k phase hbefore harises =>
    refine ⟨h.disk, holds_update h.phases k ?_⟩
    cases phase with
    | loaded next payload =>
      obtain ⟨update, hok⟩ := harises
      exact ⟨hload _ _ _ _ hok h.disk, update, _, hok⟩
    | appended next => exact harises.elim
    | composed expectedRevision head next payload =>
      obtain ⟨op, -, -, hok⟩ := harises
      exact hcompose _ _ _ _ hok h.disk
    | _ => exact True.intro
  | opens k hidle hchained hbound => exact ⟨h.disk, holds_update h.phases k True.intro⟩
  | appends k hash next payload hloaded =>
    exact ⟨h.disk, holds_update h.phases k (h.phase hloaded).1⟩
  | checkpoints k next happended =>
    exact ⟨h.phase happended, holds_update h.phases k True.intro⟩
  | swaps k hash head next payload hcomposed hchained hbound =>
    exact ⟨h.phase hcomposed, holds_update h.phases k True.intro⟩

/-- **What every operation keeps holds of every checkpoint**, in any interleaving. -/
theorem run_invariant (hopened : Opened s) (hstart : P s.disk.state)
    (hrun : Runs (System.step client) s s') : AllHold client P s' := by
  have hall : AllHold client P s := by
    refine ⟨hstart, fun k => ?_⟩
    rw [hopened.idle k]
    exact True.intro
  exact hrun.invariant (fun _ _ _ hstep h => h.step hload hcompose (step_moves hstep)) hall

end

end AllHold

/-! ## Histories -/

section History

variable {client : Client σ T U O E} {es₀ : List (ChainEvent H E)} {σ₀ : σ}
  {s s' : System K σ U O E H}

/-- What operations leave that are one step: the events, and the state behind them. -/
inductive History (client : Client σ T U O E) (es₀ : List (ChainEvent H E)) (σ₀ : σ) :
    List (ChainEvent H E) → σ → Prop
  | start : History client es₀ σ₀ es₀ σ₀
  | transition {es : List (ChainEvent H E)} {state next : σ} {update : U} {e : ChainEvent H E}
      (h : History client es₀ σ₀ es state)
      (hload : client.load update state = .ok (next, e.payload)) :
      History client es₀ σ₀ (es ++ [e]) next
  | guarded {es : List (ChainEvent H E)} {state next : σ} {op : O} {e : ChainEvent H E}
      (h : History client es₀ σ₀ es state)
      (hcompose : client.compose op state = .ok (next, e.payload)) :
      History client es₀ σ₀ (es ++ [e]) next

/-- What a controller knows while the chain holds. One that believes the last place has seen the
last state; a guarded operation has seen the state of the revision that it expects. -/
def Knows (client : Client σ T U O E) (es₀ : List (ChainEvent H E)) (σ₀ : σ)
    (s : System K σ U O E H) (k : K) : Phase σ U O E H → Prop
  | .loaded next payload => (s.beliefs k).sequence = s.disk.events.length →
      ∃ update, client.load update s.disk.state = .ok (next, payload)
  | .appended next => (s.beliefs k).sequence = s.disk.events.length ∧
      (∀ j, j ≠ k → (s.beliefs j).sequence < s.disk.events.length) ∧
      s.disk.sequence < s.disk.events.length ∧ History client es₀ σ₀ s.disk.events next
  | .headed op _ => client.expectedRevision op ≤ s.disk.revision
  | .composed expectedRevision _ next payload => expectedRevision ≤ s.disk.revision ∧
      (expectedRevision = s.disk.revision →
        ∃ op, client.compose op s.disk.state = .ok (next, payload))
  | _ => True

/-- While the chain holds. -/
structure Orderly (client : Client σ T U O E) (es₀ : List (ChainEvent H E)) (σ₀ : σ)
    (s : System K σ U O E H) : Prop where
  beliefs : ∀ k, (s.beliefs k).sequence ≤ s.disk.events.length
  checkpoint : s.disk.sequence ≤ s.disk.events.length
  revision : ∀ k, (s.beliefs k).sequence = s.disk.events.length →
    (s.beliefs k).revision = s.disk.revision
  phases : ∀ k, Knows client es₀ σ₀ s k (s.phases k)
  settled : (∀ k next, s.phases k ≠ .appended next) →
    History client es₀ σ₀ s.disk.events s.disk.state

/-- A controller that has not written since the last event was written by another one. -/
theorem Knows.behind {k : K} {phase : Phase σ U O E H} {disk : SharedDisk σ H E}
    {beliefs : K → Believed H} {phases : K → Phase σ U O E H}
    (h : Knows client es₀ σ₀ s k phase) (happended : ∀ next, phase ≠ .appended next)
    (hbehind : (beliefs k).sequence < disk.events.length)
    (hrevision : s.disk.revision ≤ disk.revision)
    (hstate : s.disk.revision = disk.revision → disk.state = s.disk.state) :
    Knows client es₀ σ₀ ⟨disk, beliefs, phases⟩ k phase := by
  cases phase with
  | idle => exact True.intro
  | prepared update => exact True.intro
  | loaded next payload => exact fun hlast => absurd hlast (Nat.ne_of_lt hbehind)
  | appended next => exact absurd rfl (happended next)
  | headed op head => exact le_trans h hrevision
  | composed expectedRevision head next payload =>
    obtain ⟨hle, hcompose⟩ := h
    refine ⟨le_trans hle hrevision, fun hsame => ?_⟩
    have hrevision' : s.disk.revision = disk.revision := le_antisymm hrevision (hsame ▸ hle)
    obtain ⟨op, hop⟩ := hcompose (hsame.trans hrevision'.symm)
    refine ⟨op, ?_⟩
    rw [hstate hrevision']
    exact hop

section

variable (h : Orderly client es₀ σ₀ s)

include h

/-- A swap finds nobody between an event and its checkpoint. -/
theorem Orderly.no_appended (hbound : s.disk.Bound) (k : K) (next : σ) :
    s.phases k ≠ .appended next := by
  intro happended
  have hknows := h.phases k
  rw [happended] at hknows
  obtain ⟨-, -, hlags, -⟩ := hknows
  exact absurd hbound.1 (Nat.ne_of_lt hlags)

theorem Orderly.turns {k : K} {phase : Phase σ U O E H}
    (hbefore : ∀ next, s.phases k ≠ .appended next) (harises : Arises client s k phase) :
    Orderly client es₀ σ₀ (s.moveTo k phase) := by
  refine ⟨h.beliefs, h.checkpoint, h.revision, fun j => ?_, fun hnone => h.settled fun j next => ?_⟩
  · show Knows client es₀ σ₀ s j (Function.update s.phases k phase j)
    by_cases hj : j = k
    · rw [hj, update_self]
      cases phase with
      | idle => exact True.intro
      | prepared update => exact True.intro
      | loaded next payload => exact fun _ => harises
      | appended next => exact harises.elim
      | headed op head => exact le_of_eq harises.symm
      | composed expectedRevision head next payload =>
        obtain ⟨op, hheaded, rfl, hop⟩ := harises
        have hknows := h.phases k
        rw [hheaded] at hknows
        exact ⟨hknows, fun _ => ⟨op, hop⟩⟩
    · rw [update_of_ne hj]
      exact h.phases j
  · by_cases hj : j = k
    · rw [hj]
      exact hbefore next
    · have hother := hnone j next
      dsimp only [System.moveTo] at hother
      rwa [update_of_ne hj] at hother

theorem Orderly.opens {k : K} (hidle : s.phases k = .idle) (hbound : s.disk.Bound) :
    Orderly client es₀ σ₀ (s.write k s.disk s.disk.believed .idle) := by
  have hphases : Function.update s.phases k .idle = s.phases := by
    rw [← hidle, update_eq_self]
  rw [System.write, hphases]
  refine ⟨fun j => ?_, h.checkpoint, fun j hlast => ?_, fun j => ?_, fun hnone => h.settled hnone⟩
  · show (Function.update s.beliefs k s.disk.believed j).sequence ≤ _
    by_cases hj : j = k
    · rw [hj, update_self]
      exact le_refl _
    · rw [update_of_ne hj]
      exact h.beliefs j
  · by_cases hj : j = k
    · rw [hj]
      show (Function.update s.beliefs k s.disk.believed k).revision = _
      rw [update_self]
      rfl
    · dsimp only at hlast ⊢
      rw [update_of_ne hj] at hlast ⊢
      exact h.revision j hlast
  · have hknows := h.phases j
    cases hphase : s.phases j with
    | loaded next payload =>
      rw [hphase] at hknows
      have hj : j ≠ k := by
        rintro rfl
        rw [hidle] at hphase
        cases hphase
      intro hlast
      dsimp only at hlast
      rw [update_of_ne hj] at hlast
      exact hknows hlast
    | appended next => exact absurd hphase (h.no_appended hbound j next)
    | idle => exact True.intro
    | prepared update => exact True.intro
    | headed op head => rwa [hphase] at hknows
    | composed expectedRevision head next payload => rwa [hphase] at hknows

/-- A write that leaves the others behind. -/
theorem Orderly.write {k : K} {disk : SharedDisk σ H E} {b : Believed H} {phase : Phase σ U O E H}
    (hothers : ∀ j, j ≠ k → (s.beliefs j).sequence < disk.events.length ∧
      ∀ next, s.phases j ≠ .appended next) (hplace : b.sequence ≤ disk.events.length)
    (hcheckpoint : disk.sequence ≤ disk.events.length) (hrevision : b.revision = disk.revision)
    (hlater : s.disk.revision ≤ disk.revision)
    (hstate : s.disk.revision = disk.revision → disk.state = s.disk.state)
    (hphase : Knows client es₀ σ₀ (s.write k disk b phase) k phase)
    (hsettled : (∀ next, phase ≠ .appended next) → History client es₀ σ₀ disk.events disk.state) :
    Orderly client es₀ σ₀ (s.write k disk b phase) := by
  constructor
  · intro j
    show (Function.update s.beliefs k b j).sequence ≤ disk.events.length
    by_cases hj : j = k
    · rw [hj, update_self]
      exact hplace
    · rw [update_of_ne hj]
      exact (hothers j hj).1.le
  · exact hcheckpoint
  · intro j
    show (Function.update s.beliefs k b j).sequence = disk.events.length →
      (Function.update s.beliefs k b j).revision = disk.revision
    by_cases hj : j = k
    · rw [hj, update_self]
      exact fun _ => hrevision
    · rw [update_of_ne hj]
      exact fun hlast => absurd hlast (hothers j hj).1.ne
  · intro j
    show Knows client es₀ σ₀ _ j (Function.update s.phases k phase j)
    by_cases hj : j = k
    · rw [hj, update_self]
      exact hphase
    · rw [update_of_ne hj]
      refine (h.phases j).behind (hothers j hj).2 ?_ hlater hstate
      rw [update_of_ne hj]
      exact (hothers j hj).1
  · intro hnone
    refine hsettled fun next hnext => ?_
    have hself := hnone k next
    dsimp only [System.write] at hself
    rw [update_self] at hself
    exact hself hnext

theorem Orderly.appends {k : K} {hash : H} {next : σ} {payload : E}
    (hloaded : s.phases k = .loaded next payload)
    (hchained : Chained (s.disk.append (s.beliefs k) hash payload).events) :
    Orderly client es₀ σ₀ (s.write k (s.disk.append (s.beliefs k) hash payload)
      ((s.beliefs k).afterEvent hash) (.appended next)) := by
  obtain ⟨-, hplace, -⟩ := chained_snoc.1 hchained
  have hlength : (s.disk.append (s.beliefs k) hash payload).events.length =
      s.disk.events.length + 1 := length_append
  have hbehind : ∀ j, (s.beliefs j).sequence <
      (s.disk.append (s.beliefs k) hash payload).events.length := by
    intro j
    rw [hlength]
    exact Nat.lt_succ_of_le (h.beliefs j)
  have hnone : ∀ j next, s.phases j ≠ .appended next := by
    intro j next happended
    have hj : k ≠ j := by
      rintro rfl
      rw [hloaded] at happended
      cases happended
    have hknows := h.phases j
    rw [happended] at hknows
    exact absurd hplace (hknows.2.1 k hj).ne
  have hknows := h.phases k
  rw [hloaded] at hknows
  obtain ⟨update, hload⟩ := hknows hplace
  refine h.write (fun j _ => ⟨hbehind j, hnone j⟩) ?_ ?_ (h.revision k hplace) (le_refl _)
    (fun _ => rfl) ⟨?_, fun j hj => ?_, ?_, .transition (h.settled hnone) hload⟩
    fun happended => absurd rfl (happended next)
  · exact le_of_eq ((congrArg (· + 1) hplace).trans hlength.symm)
  · exact h.checkpoint.trans (hlength ▸ Nat.le_succ _)
  · show (Function.update s.beliefs k _ k).sequence = _
    rw [update_self]
    exact (congrArg (· + 1) hplace).trans hlength.symm
  · show (Function.update s.beliefs k _ j).sequence < _
    rw [update_of_ne hj]
    exact hbehind j
  · exact lt_of_lt_of_eq (Nat.lt_succ_of_le h.checkpoint) hlength.symm

theorem Orderly.checkpoints {k : K} {next : σ} (happended : s.phases k = .appended next) :
    Orderly client es₀ σ₀ (s.write k (s.disk.checkpoint (s.beliefs k) next)
      (s.beliefs k).afterCheckpoint .idle) := by
  have hknows := h.phases k
  rw [happended] at hknows
  obtain ⟨hplace, hothers, -, hhistory⟩ := hknows
  have hrevision : (s.disk.checkpoint (s.beliefs k) next).revision = s.disk.revision + 1 :=
    congrArg (· + 1) (h.revision k hplace)
  refine h.write (fun j hj => ⟨hothers j hj, fun other hother => ?_⟩) (h.beliefs k) (h.beliefs k)
    rfl ?_ (fun hsame => ?_) True.intro fun _ => hhistory
  · have hknows := h.phases j
    rw [hother] at hknows
    exact absurd hknows.1 (hothers j hj).ne
  · rw [hrevision]
    exact Nat.le_succ _
  · rw [hrevision] at hsame
    exact absurd hsame (Nat.lt_succ_self _).ne

theorem Orderly.swaps {k : K} {hash : H} {head : Option H} {next : σ} {payload : E}
    (hcomposed : s.phases k = .composed s.disk.revision head next payload) (hbound : s.disk.Bound) :
    Orderly client es₀ σ₀ (s.write k ((s.disk.append s.disk.believed hash payload).checkpoint
      (s.disk.believed.afterEvent hash) next) (s.disk.believed.afterEvent hash).afterCheckpoint
      .idle) := by
  have hlength : (s.disk.append s.disk.believed hash payload).events.length =
      s.disk.events.length + 1 := length_append
  have hknows := h.phases k
  rw [hcomposed] at hknows
  obtain ⟨op, hop⟩ := hknows.2 rfl
  refine h.write (fun j _ => ⟨?_, h.no_appended hbound j⟩) (le_of_eq hlength.symm)
    (le_of_eq hlength.symm) rfl (Nat.le_succ _) (fun hsame => ?_) True.intro
    fun _ => .guarded (h.settled (h.no_appended hbound)) hop
  · exact lt_of_lt_of_eq (Nat.lt_succ_of_le (h.beliefs j)) hlength.symm
  · exact absurd hsame (Nat.lt_succ_self _).ne

end

/-- What every run keeps: it is orderly while the chain holds, and behind the first broken link
there are transitions only. -/
structure Tracks (client : Client σ T U O E) (es₀ : List (ChainEvent H E)) (σ₀ : σ)
    (s : System K σ U O E H) : Prop where
  orderly : Chained s.disk.events → Orderly client es₀ σ₀ s
  events : ∃ es rest state, s.disk.events = es ++ rest ∧ History client es₀ σ₀ es state ∧
    ∀ e ∈ rest, ∃ update before next, client.load update before = .ok (next, e.payload)
  phases : AllHold client (fun _ => True) s

theorem Tracks.step (h : Tracks client es₀ σ₀ s) (hmoves : Moves client s s') :
    Tracks client es₀ σ₀ s' := by
  have hphases := h.phases.step (fun _ _ _ _ _ _ => True.intro) (fun _ _ _ _ _ _ => True.intro)
    hmoves
  cases hmoves with
  | stays => exact h
  | turns k phase hbefore harises =>
    exact ⟨fun hchained => (h.orderly hchained).turns hbefore harises, h.events, hphases⟩
  | opens k hidle hchained hbound =>
    exact ⟨fun hchained => (h.orderly hchained).opens hidle hbound, h.events, hphases⟩
  | appends k hash next payload hloaded =>
    obtain ⟨es, rest, state, hevents, hhistory, hrest⟩ := h.events
    refine ⟨fun hchained => ?_, ⟨es, rest ++ [(s.beliefs k).event hash payload], state, ?_,
      hhistory, ?_⟩, hphases⟩
    · exact (h.orderly (chained_snoc.1 hchained).1).appends hloaded hchained
    · show s.disk.events ++ _ = _
      rw [hevents, append_assoc]
    · obtain ⟨-, update, before, hload⟩ := h.phases.phase hloaded
      exact forall_mem_append.2
        ⟨hrest, forall_mem_singleton.2 ⟨update, before, next, hload⟩⟩
  | checkpoints k next happended =>
    exact ⟨fun hchained => (h.orderly hchained).checkpoints happended, h.events, hphases⟩
  | swaps k hash head next payload hcomposed hchained hbound =>
    have horderly := @Orderly.swaps _ _ _ _ _ _ _ _ _ _ _ _ _ (h.orderly hchained) k hash _ _ _
      hcomposed hbound
    refine ⟨fun _ => horderly, ⟨_, [], next, (append_nil _).symm, horderly.settled ?_,
      forall_mem_nil _⟩, hphases⟩
    intro j n
    show Function.update s.phases k _ j ≠ _
    by_cases hj : j = k
    · rw [hj, update_self]
      exact nofun
    · rw [update_of_ne hj]
      exact (h.orderly hchained).no_appended hbound j n

theorem Opened.tracks (h : Opened s) : Tracks client s.disk.events s.disk.state s := by
  refine ⟨fun _ => ⟨fun k => ?_, le_of_eq h.bound.1, fun k _ => ?_, fun k => ?_, fun _ => .start⟩,
    ⟨s.disk.events, [], s.disk.state, (append_nil _).symm, .start, forall_mem_nil _⟩,
    True.intro, fun k => ?_⟩
  · rw [h.beliefs k]
    exact le_refl _
  · rw [h.beliefs k]
    rfl
  · rw [h.idle k]
    exact True.intro
  · rw [h.idle k]
    exact True.intro

/-- **The history of a run**: its events are those of operations that are one step, and behind
them transitions that a broken chain keeps from every swap. -/
theorem run_history (hopened : Opened s) (hrun : Runs (System.step client) s s') :
    Tracks client s.disk.events s.disk.state s' :=
  hrun.invariant (fun _ _ _ hstep h => h.step (step_moves hstep)) hopened.tracks

end History

end HarnessLabs.Audit
