import HarnessLabs.Core.Contention

/-!
# One journal and several threads

A process that opens one journal and writes to it from a coordinating thread and from workers. Each
write of the journal holds its lock, so that the writes of the threads come in some order and every
one of them knows the write before it.

The coordinating thread makes transitions, guarded operations and recoveries. A recovery writes
events while it goes, and may raise behind them. A worker appends an event and stamps the checkpoint
again with the state that is in it. A note is an event that nothing stamps.

* `Coordinator` — the operations of the coordinating thread and of the workers.
* `Threads.step` — one write of a thread, or a step of it between two writes.
* `Loose` — a note, or a recovery that raises behind an event which it wrote.
* `restamped_iff` — **the checkpoint binds the journal head whenever no operation is in progress,
  exactly when a worker that stamps is in progress at every loose step.**
-/

namespace HarnessLabs.Audit

open Inputs

/-! ## Operations -/

/-- What a recovery does: nothing; the events that it writes and what it stamps behind them; or the
events that it has written when it raises. -/
inductive Sweep (σ E : Type) where
  | nothing
  | closes (events : List E) (next : σ) (payload : E)
  | raises (events : List E)

/-- The operations on one journal. `note` and `stamp` check what they are given. -/
structure Coordinator (σ T U O R N G E : Type) extends Client σ T U O E where
  recover : R → σ → Sweep σ E
  note : N → Except String E
  stamp : G → Except String E

/-- An operation that has stamped a state. -/
inductive Deed (T O R : Type) where
  | transition (t : T)
  | guarded (op : O)
  | recovery (r : R)

/-- Where the coordinating thread stands. -/
inductive Stance (σ T U O R E H : Type) where
  | idle
  | prepared (t : T) (update : U)
  | loaded (deed : Deed T O R) (next : σ) (payload : E)
  | appended (deed : Deed T O R) (next : σ)
  | headed (op : O) (head : Option H)
  | composed (op : O) (head : Option H) (next : σ) (payload : E)
  | recovering (r : R) (events : List E) (close : Option (σ × E))

inductive WorkerPhase (E : Type) where
  | idle
  | entered (payload : E)
  | appended

/-- The threads of a process and the journal that they share. `done` are the operations of the
coordinating thread that have stamped a state. -/
structure Threads (W σ T U O R E H : Type) where
  disk : SharedDisk σ H E
  belief : Believed H
  stance : Stance σ T U O R E H
  workers : W → WorkerPhase E
  done : List (Deed T O R)

inductive ThreadAction (W T O R N G H : Type) where
  | prepare (t : T)
  | load
  | append (hash : H)
  | checkpoint
  | head (op : O)
  | compose
  | swap (hash : H)
  | note (n : N) (hash : H)
  | recover (r : R)
  | journal (hash : H)
  | close
  | enter (w : W) (g : G)
  | stampAppend (w : W) (hash : H)
  | stampMerge (w : W)

set_option linter.unusedSectionVars false

variable {W σ T U O R N G E H : Type} [DecidableEq W] [DecidableEq H]

/-- The state that an operation leaves which nothing comes between. -/
def Coordinator.perform (c : Coordinator σ T U O R N G E) : Deed T O R → σ → Option σ
  | .transition t, state => do
    let update ← (c.prepare t state).toOption
    let (next, _) ← (c.load update state).toOption
    return next
  | .guarded op, state => (c.compose op state).toOption.map Prod.fst
  | .recovery r, state =>
    match c.recover r state with
    | .closes _ next _ => some next
    | _ => none

namespace Threads

def turnTo (s : Threads W σ T U O R E H) (stance : Stance σ T U O R E H) :
    Threads W σ T U O R E H := { s with stance := stance }

/-- The coordinating thread appends an event. -/
def append (s : Threads W σ T U O R E H) (hash : H) (payload : E)
    (stance : Stance σ T U O R E H) : Threads W σ T U O R E H :=
  { s with
    disk := s.disk.append s.belief hash payload
    belief := s.belief.afterEvent hash
    stance := stance }

def moveWorker (s : Threads W σ T U O R E H) (w : W) (phase : WorkerPhase E) :
    Threads W σ T U O R E H := { s with workers := Function.update s.workers w phase }

/-- One step. What raises leaves its thread idle. -/
def step (c : Coordinator σ T U O R N G E) (action : ThreadAction W T O R N G H)
    (s : Threads W σ T U O R E H) : Option (Threads W σ T U O R E H) :=
  match action with
  | .prepare t =>
    match s.stance with
    | .idle =>
      match c.prepare t s.disk.state with
      | .error _ => some s
      | .ok update => some (s.turnTo (.prepared t update))
    | _ => none
  | .load =>
    match s.stance with
    | .prepared t update =>
      match c.load update s.disk.state with
      | .error _ => some (s.turnTo .idle)
      | .ok (next, payload) => some (s.turnTo (.loaded (.transition t) next payload))
    | _ => none
  | .append hash =>
    match s.stance with
    | .loaded deed next payload => some (s.append hash payload (.appended deed next))
    | _ => none
  | .checkpoint =>
    match s.stance with
    | .appended deed next =>
      some { s with
        disk := s.disk.checkpoint s.belief next
        belief := s.belief.afterCheckpoint
        stance := .idle
        done := s.done ++ [deed] }
    | _ => none
  | .head op =>
    match s.stance with
    | .idle =>
      match c.check op with
      | .error _ => some s
      | .ok () =>
        if s.disk.revision = c.expectedRevision op then
          some (s.turnTo (.headed op s.disk.headHash))
        else some s
    | _ => none
  | .compose =>
    match s.stance with
    | .headed op head =>
      match c.compose op s.disk.state with
      | .error _ => some (s.turnTo .idle)
      | .ok (next, payload) => some (s.turnTo (.composed op head next payload))
    | _ => none
  | .swap hash =>
    match s.stance with
    | .composed op head next payload =>
      match s.disk.swap (c.expectedRevision op) head next hash payload with
      | .error _ => some (s.turnTo .idle)
      | .ok (disk, b) =>
        some { s with disk := disk, belief := b, stance := .idle, done := s.done ++ [.guarded op] }
    | _ => none
  | .note n hash =>
    match s.stance with
    | .idle =>
      match c.note n with
      | .error _ => some s
      | .ok payload => some (s.append hash payload .idle)
    | _ => none
  | .recover r =>
    match s.stance with
    | .idle =>
      match c.recover r s.disk.state with
      | .nothing => some s
      | .closes events next payload => some (s.turnTo (.recovering r events (some (next, payload))))
      | .raises events => some (s.turnTo (.recovering r events none))
    | _ => none
  | .journal hash =>
    match s.stance with
    | .recovering r (payload :: rest) close =>
      some (s.append hash payload (.recovering r rest close))
    | _ => none
  | .close =>
    match s.stance with
    | .recovering _ [] none => some (s.turnTo .idle)
    | .recovering r [] (some (next, payload)) =>
      some (s.turnTo (.loaded (.recovery r) next payload))
    | _ => none
  | .enter w g =>
    match s.workers w with
    | .idle =>
      match c.stamp g with
      | .error _ => some s
      | .ok payload => some (s.moveWorker w (.entered payload))
    | _ => none
  | .stampAppend w hash =>
    match s.workers w with
    | .entered payload =>
      some { s.moveWorker w .appended with
        disk := s.disk.append s.belief hash payload
        belief := s.belief.afterEvent hash }
    | _ => none
  | .stampMerge w =>
    match s.workers w with
    | .appended =>
      some { s.moveWorker w .idle with
        disk := s.disk.checkpoint s.belief s.disk.state
        belief := s.belief.afterCheckpoint }
    | _ => none

/-! ## States without an operation -/

/-- No operation is in progress. -/
def Quiet (s : Threads W σ T U O R E H) : Prop := s.stance = .idle ∧ ∀ w, s.workers w = .idle

/-- A worker is in progress. -/
def Stamping (s : Threads W σ T U O R E H) : Prop := ∃ w, s.workers w ≠ .idle

/-- A step behind which the coordinating thread leaves an event that it does not stamp: a note, and
the end of a recovery that raises behind an event of its own. -/
def Loose (c : Coordinator σ T U O R N G E) (s : Threads W σ T U O R E H) :
    ThreadAction W T O R N G H → Prop
  | .note n _ => ∃ payload, c.note n = .ok payload
  | .close => ∃ r, s.stance = .recovering r [] none ∧ ¬ s.disk.Bound
  | _ => False

/-- A loose step is taken while a worker is in progress. -/
def Covered (c : Coordinator σ T U O R N G E) (s : Threads W σ T U O R E H)
    (action : ThreadAction W T O R N G H) : Prop := Loose c s action → s.Stamping

/-- What holds of a state of a run from `state`: the checkpoint has the state that the operations of
the coordinating thread leave which nothing comes between. When no operation is in progress it binds
the journal head, and no swap is refused because it does not. -/
structure Restamped (c : Coordinator σ T U O R N G E) (state : σ) (s : Threads W σ T U O R E H) :
    Prop where
  state : runInputs c.perform state s.done = some s.disk.state
  bound : s.Quiet → s.disk.Bound
  accepted : s.Quiet → ∀ expectedRevision head next hash payload,
    s.disk.swap expectedRevision head next hash payload ≠
      .error "checkpoint does not bind the journal head"

/-- The journal is open and no operation has begun. -/
structure Ready (s : Threads W σ T U O R E H) : Prop where
  chained : Chained s.disk.events
  bound : s.disk.Bound
  belief : s.belief = s.disk.believed
  quiet : s.Quiet
  done : s.done = []

end Threads

/-! ## What the journal knows -/

section Belief

variable {disk : SharedDisk σ H E}

theorem believed_append (disk : SharedDisk σ H E) (hash : H) (payload : E) :
    (disk.append disk.believed hash payload).believed = disk.believed.afterEvent hash := by
  have hhead : headOf (disk.events ++ [disk.believed.event hash payload]) = some hash := by
    rw [headOf, List.getLast?_concat]
    rfl
  rw [SharedDisk.believed, SharedDisk.append, hhead, List.length_append]
  rfl

theorem believed_checkpoint (disk : SharedDisk σ H E) (state : σ) :
    (disk.checkpoint disk.believed state).believed = disk.believed.afterCheckpoint := rfl

/-- **A checkpoint of a journal that knows the last event binds it.** -/
theorem bound_checkpoint (disk : SharedDisk σ H E) (state : σ) :
    (disk.checkpoint disk.believed state).Bound := ⟨rfl, rfl⟩

/-- An event that nothing stamps is not bound. -/
theorem not_bound_append (hbehind : disk.sequence ≤ disk.events.length) (b : Believed H) (hash : H)
    (payload : E) : ¬ (disk.append b hash payload).Bound := by
  intro hbound
  have hsequence : disk.sequence = (disk.events ++ [b.event hash payload]).length := hbound.1
  rw [List.length_append, List.length_singleton] at hsequence
  omega

theorem require_bind_ne_error {β : Type} {condition : Prop} [Decidable condition]
    {message other : String} {rest : Except String β} (hmessage : message ≠ other)
    (hrest : rest ≠ .error other) : (require condition message >>= fun _ => rest) ≠ .error other := by
  by_cases h : condition
  · rw [require, if_pos h]
    exact hrest
  · rw [require, if_neg h]
    exact fun hsame => hmessage (Except.error.inj hsame)

/-- A checkpoint that binds the journal head is not refused because it does not. -/
theorem swap_of_bound (hbound : disk.Bound) (expectedRevision : ℕ) (head : Option H) (next : σ)
    (hash : H) (payload : E) : disk.swap expectedRevision head next hash payload ≠
      .error "checkpoint does not bind the journal head" := by
  refine require_bind_ne_error (by decide) ?_
  rw [require, if_pos hbound]
  exact require_bind_ne_error (by decide) (require_bind_ne_error (by decide) fun h => by cases h)

end Belief

/-! ## Every step -/

namespace Threads

section Steps

variable {c : Coordinator σ T U O R N G E} {state : σ} {s s' : Threads W σ T U O R E H}
  {action : ThreadAction W T O R N G H}

/-- What the coordinating thread has in hand it has from the state in the checkpoint. -/
def Current (c : Coordinator σ T U O R N G E) (state : σ) : Stance σ T U O R E H → Prop
  | .prepared t update => c.prepare t state = .ok update
  | .loaded deed next _ => c.perform deed state = some next
  | .appended deed next => c.perform deed state = some next
  | .composed op _ next payload => c.compose op state = .ok (next, payload)
  | .recovering r _ (some (next, _)) => c.perform (.recovery r) state = some next
  | _ => True

/-- The stances behind which the coordinating thread stamps or raises. -/
def Due : Stance σ T U O R E H → Prop
  | .loaded _ _ _ | .appended _ _ | .recovering _ _ _ => True
  | _ => False

/-- **The invariant of the threads.** The journal knows the last event, and every state in the
checkpoint is that of the coordinating thread. -/
structure Orderly (c : Coordinator σ T U O R N G E) (state : σ) (s : Threads W σ T U O R E H) :
    Prop where
  chained : Chained s.disk.events
  belief : s.belief = s.disk.believed
  behind : s.disk.sequence ≤ s.disk.events.length
  state : runInputs c.perform state s.done = some s.disk.state
  current : Current c s.disk.state s.stance

/-- The checkpoint binds the journal head, or a thread that stamps it is in progress. -/
def Promised (s : Threads W σ T U O R E H) : Prop := s.disk.Bound ∨ s.Stamping ∨ Due s.stance

theorem stamping_of_moveWorker {w : W} {phase : WorkerPhase E} (h : phase ≠ .idle) :
    (s.moveWorker w phase).Stamping := by
  refine ⟨w, ?_⟩
  show Function.update s.workers w phase w ≠ .idle
  rw [Function.update_self]
  exact h

/-- What a step does. A step that is not a note and does not raise is not loose. -/
inductive Moves (c : Coordinator σ T U O R N G E) (s : Threads W σ T U O R E H) :
    ThreadAction W T O R N G H → Threads W σ T U O R E H → Prop
  | turns {action : ThreadAction W T O R N G H} (stance : Stance σ T U O R E H)
      (hcurrent : Current c s.disk.state s.stance → Current c s.disk.state stance)
      (hdue : Due s.stance → Due stance) (hfirm : ¬ Loose c s action) :
      Moves c s action (s.turnTo stance)
  | raises (r : R) (h : s.stance = .recovering r [] none) : Moves c s .close (s.turnTo .idle)
  | appends {action : ThreadAction W T O R N G H} (hash : H) (payload : E)
      (stance : Stance σ T U O R E H)
      (hcurrent : Current c s.disk.state s.stance → Current c s.disk.state stance)
      (hdue : Due stance) (hfirm : ¬ Loose c s action) :
      Moves c s action (s.append hash payload stance)
  | notes (n : N) (hash : H) (payload : E) (hidle : s.stance = .idle) (h : c.note n = .ok payload) :
      Moves c s (.note n hash) (s.append hash payload .idle)
  | checkpoints (deed : Deed T O R) (next : σ) (h : s.stance = .appended deed next) :
      Moves c s .checkpoint { s with
        disk := s.disk.checkpoint s.belief next
        belief := s.belief.afterCheckpoint
        stance := .idle
        done := s.done ++ [deed] }
  | swaps (op : O) (head : Option H) (next : σ) (hash : H) (payload : E)
      (h : s.stance = .composed op head next payload) (hchained : Chained s.disk.events) :
      Moves c s (.swap hash) { s with
        disk := (s.disk.append s.disk.believed hash payload).checkpoint
          (s.disk.believed.afterEvent hash) next
        belief := (s.disk.believed.afterEvent hash).afterCheckpoint
        stance := .idle
        done := s.done ++ [.guarded op] }
  | enters (w : W) (g : G) (payload : E) :
      Moves c s (.enter w g) (s.moveWorker w (.entered payload))
  | stampAppends (w : W) (hash : H) (payload : E) :
      Moves c s (.stampAppend w hash) { s.moveWorker w .appended with
        disk := s.disk.append s.belief hash payload
        belief := s.belief.afterEvent hash }
  | stampMerges (w : W) :
      Moves c s (.stampMerge w) { s.moveWorker w .idle with
        disk := s.disk.checkpoint s.belief s.disk.state
        belief := s.belief.afterCheckpoint }

/-- **Every step is one of these.** -/
theorem step_moves (h : s.step c action = some s') : Moves c s action s' := by
  cases action with
  | prepare t =>
    rw [step] at h
    split at h
    · rename_i hidle
      split at h
      · cases h
        exact .turns s.stance id id not_false
      · rename_i update hok
        cases h
        refine .turns _ (fun _ => hok) ?_ not_false
        rw [hidle]
        exact False.elim
    · cases h
  | load =>
    rw [step] at h
    split at h
    · rename_i t update hprepared
      split at h
      · cases h
        refine .turns _ (fun _ => True.intro) ?_ not_false
        rw [hprepared]
        exact False.elim
      · rename_i next payload hok
        cases h
        refine .turns _ (fun hcurrent => ?_) (fun _ => True.intro) not_false
        rw [hprepared] at hcurrent
        have hprepare : c.prepare t s.disk.state = .ok update := hcurrent
        show c.perform (.transition t) s.disk.state = some next
        rw [Coordinator.perform, hprepare]
        show ((c.load update s.disk.state).toOption >>= _) = _
        rw [hok]
        rfl
    · cases h
  | append hash =>
    rw [step] at h
    split at h
    · rename_i deed next payload hloaded
      cases h
      refine .appends _ _ _ (fun hcurrent => ?_) True.intro not_false
      rw [hloaded] at hcurrent
      exact hcurrent
    · cases h
  | checkpoint =>
    rw [step] at h
    split at h
    · rename_i deed next happended
      cases h
      exact .checkpoints deed next happended
    · cases h
  | head op =>
    rw [step] at h
    split at h
    · rename_i hidle
      split at h
      · cases h
        exact .turns s.stance id id not_false
      split at h
      · cases h
        refine .turns _ (fun _ => True.intro) ?_ not_false
        rw [hidle]
        exact False.elim
      · cases h
        exact .turns s.stance id id not_false
    · cases h
  | compose =>
    rw [step] at h
    split at h
    · rename_i op head hheaded
      split at h
      · cases h
        refine .turns _ (fun _ => True.intro) ?_ not_false
        rw [hheaded]
        exact False.elim
      · rename_i next payload hok
        cases h
        refine .turns _ (fun _ => hok) ?_ not_false
        rw [hheaded]
        exact False.elim
    · cases h
  | swap hash =>
    rw [step] at h
    split at h
    · rename_i op head next payload hcomposed
      split at h
      · cases h
        refine .turns _ (fun _ => True.intro) ?_ not_false
        rw [hcomposed]
        exact False.elim
      · rename_i disk b hok
        cases h
        obtain ⟨⟨hchained, -, -, -⟩, hresult⟩ := swap_eq_ok.1 hok
        obtain ⟨rfl, rfl⟩ := Prod.mk.inj hresult
        exact .swaps op head next hash payload hcomposed hchained
    · cases h
  | note n hash =>
    rw [step] at h
    split at h
    · rename_i hidle
      split at h
      · rename_i message hrefused
        cases h
        refine .turns s.stance id id ?_
        intro hloose
        obtain ⟨payload, hok⟩ := hloose
        rw [hrefused] at hok
        cases hok
      · rename_i payload hok
        cases h
        exact .notes n hash payload hidle hok
    · cases h
  | recover r =>
    rw [step] at h
    split at h
    · split at h
      · cases h
        exact .turns s.stance id id not_false
      · rename_i events next payload hcloses
        cases h
        refine .turns _ (fun _ => ?_) (fun _ => True.intro) not_false
        show c.perform (.recovery r) s.disk.state = some next
        rw [Coordinator.perform, hcloses]
      · cases h
        exact .turns _ (fun _ => True.intro) (fun _ => True.intro) not_false
    · cases h
  | journal hash =>
    rw [step] at h
    split at h
    · rename_i r payload rest close hrecovering
      cases h
      refine .appends _ _ _ (fun hcurrent => ?_) True.intro not_false
      rw [hrecovering] at hcurrent
      cases close with
      | none => exact True.intro
      | some result => exact hcurrent
    · cases h
  | close =>
    rw [step] at h
    split at h
    · rename_i r hraises
      cases h
      exact .raises r hraises
    · rename_i r next payload hcloses
      cases h
      refine .turns _ (fun hcurrent => ?_) (fun _ => True.intro) ?_
      · rw [hcloses] at hcurrent
        exact hcurrent
      · intro hloose
        obtain ⟨r', hraises, -⟩ := hloose
        rw [hcloses] at hraises
        cases hraises
    · cases h
  | enter w g =>
    rw [step] at h
    split at h
    · split at h
      · cases h
        exact .turns s.stance id id not_false
      · cases h
        exact .enters w g _
    · cases h
  | stampAppend w hash =>
    rw [step] at h
    split at h
    · cases h
      exact .stampAppends w hash _
    · cases h
  | stampMerge w =>
    rw [step] at h
    split at h
    · cases h
      exact .stampMerges w
    · cases h

/-- An event of the journal keeps the invariant, whatever its thread has in hand then. -/
theorem Orderly.append (h : Orderly c state s) (hash : H) (payload : E)
    {stance : Stance σ T U O R E H} {workers : W → WorkerPhase E}
    (hstance : Current c s.disk.state stance) :
    Orderly c state ⟨s.disk.append s.belief hash payload, s.belief.afterEvent hash, stance, workers,
      s.done⟩ := by
  constructor
  · show Chained (s.disk.append s.belief hash payload).events
    rw [h.belief]
    exact chained_believed h.chained
  · show s.belief.afterEvent hash = (s.disk.append s.belief hash payload).believed
    rw [h.belief, believed_append]
  · show s.disk.sequence ≤ (s.disk.events ++ [s.belief.event hash payload]).length
    rw [List.length_append]
    exact le_trans h.behind (Nat.le_add_right _ _)
  · exact h.state
  · exact hstance

theorem Orderly.step (h : Orderly c state s) (hstep : s.step c action = some s') :
    Orderly c state s' := by
  cases step_moves hstep with
  | turns stance hcurrent hdue hfirm =>
    exact ⟨h.chained, h.belief, h.behind, h.state, hcurrent h.current⟩
  | raises r hraises => exact ⟨h.chained, h.belief, h.behind, h.state, True.intro⟩
  | appends hash payload stance hcurrent hdue hfirm => exact h.append hash payload (hcurrent h.current)
  | notes n hash payload hidle hok => exact h.append hash payload True.intro
  | checkpoints deed next happended =>
    have hcurrent := h.current
    rw [happended] at hcurrent
    refine ⟨h.chained, ?_, ?_, runInputs_concat h.state hcurrent, True.intro⟩
    · show s.belief.afterCheckpoint = (s.disk.checkpoint s.belief next).believed
      rw [h.belief, believed_checkpoint]
    · show s.belief.sequence ≤ s.disk.events.length
      rw [h.belief]
      exact le_refl _
  | swaps op head next hash payload hcomposed hchained =>
    have hcurrent := h.current
    rw [hcomposed] at hcurrent
    have hcompose : c.compose op s.disk.state = .ok (next, payload) := hcurrent
    have hperform : c.perform (.guarded op) s.disk.state = some next := by
      rw [Coordinator.perform, hcompose]
      rfl
    have hbelieved := believed_append s.disk hash payload
    refine ⟨chained_believed hchained, ?_, ?_, runInputs_concat h.state hperform, True.intro⟩
    · show (s.disk.believed.afterEvent hash).afterCheckpoint =
        ((s.disk.append s.disk.believed hash payload).checkpoint
          (s.disk.believed.afterEvent hash) next).believed
      rw [← hbelieved, believed_checkpoint]
    · show s.disk.events.length + 1 ≤ (s.disk.events ++ [_]).length
      rw [List.length_append]
      exact le_refl _
  | enters w g payload => exact ⟨h.chained, h.belief, h.behind, h.state, h.current⟩
  | stampAppends w hash payload => exact h.append hash payload h.current
  | stampMerges w =>
    refine ⟨h.chained, ?_, ?_, h.state, h.current⟩
    · show s.belief.afterCheckpoint = (s.disk.checkpoint s.belief s.disk.state).believed
      rw [h.belief, believed_checkpoint]
    · show s.belief.sequence ≤ s.disk.events.length
      rw [h.belief]
      exact le_refl _

/-- A step keeps the promise, unless it is loose and no worker is in progress. -/
theorem Promised.step (h : s.Promised) (hstep : s.step c action = some s')
    (horderly : Orderly c state s) (hcovered : Covered c s action) : s'.Promised := by
  cases step_moves hstep with
  | turns stance hcurrent hdue hfirm => exact h.imp_right (Or.imp_right hdue)
  | raises r hraises =>
    by_cases hbound : s.disk.Bound
    · exact .inl hbound
    · exact .inr (.inl (hcovered ⟨r, hraises, hbound⟩))
  | appends hash payload stance hcurrent hdue hfirm => exact .inr (.inr hdue)
  | notes n hash payload hidle hok => exact .inr (.inl (hcovered ⟨payload, hok⟩))
  | checkpoints deed next happended =>
    refine .inl ?_
    rw [horderly.belief]
    exact bound_checkpoint _ _
  | swaps op head next hash payload hcomposed hchained =>
    refine .inl ?_
    rw [← believed_append]
    exact bound_checkpoint _ _
  | enters w g payload => exact .inr (.inl (stamping_of_moveWorker nofun))
  | stampAppends w hash payload => exact .inr (.inl (stamping_of_moveWorker (s := s) nofun))
  | stampMerges w =>
    refine .inl ?_
    rw [horderly.belief]
    exact bound_checkpoint _ _

/-- Behind a loose step without a worker no operation is in progress and the checkpoint is behind. -/
theorem covered_of_restamped (hstep : s.step c action = some s') (horderly : Orderly c state s)
    (h : Restamped c state s') : Covered c s action := by
  intro hloose
  by_contra hnone
  have hworkers : ∀ w, s.workers w = .idle := by
    intro w
    by_contra hw
    exact hnone ⟨w, hw⟩
  cases step_moves hstep with
  | turns stance hcurrent hdue hfirm => exact hfirm hloose
  | raises r hraises =>
    obtain ⟨-, -, hbound⟩ := hloose
    exact hbound (h.bound ⟨rfl, hworkers⟩)
  | appends hash payload stance hcurrent hdue hfirm => exact hfirm hloose
  | notes n hash payload hidle hok =>
    exact not_bound_append horderly.behind s.belief hash payload (h.bound ⟨rfl, hworkers⟩)
  | _ => exact hloose

theorem restamped_of_promised (horderly : Orderly c state s) (h : s.Promised) :
    Restamped c state s := by
  have hbound : s.Quiet → s.disk.Bound := by
    intro hquiet
    obtain hbound | ⟨w, hw⟩ | hdue := h
    · exact hbound
    · exact absurd (hquiet.2 w) hw
    · rw [hquiet.1] at hdue
      exact hdue.elim
  exact ⟨horderly.state, hbound, fun hquiet => swap_of_bound (hbound hquiet)⟩

/-- **The checkpoint and the journal stay bound exactly when no loose step comes alone.** In every
interleaving of the threads the checkpoint has the state of the coordinating thread's operations;
and it binds the journal head in every state of the run in which no operation is in progress, so that
a swap is not refused for it, exactly when a worker is in progress at every loose step. -/
theorem restamped_iff (hready : s.Ready) (actions : List (ThreadAction W T O R N G H)) :
    AllStates (step c) (Restamped c s.disk.state) s actions ↔
      AllInputs (step c) (Covered c) s actions := by
  refine allStates_iff_allInputs (fun t => Orderly c s.disk.state t ∧ t.Promised)
    (P := Restamped c s.disk.state) (fun t ht => ?_)
    (fun action t t' hstep ht => ⟨fun hcovered => ?_, fun hrestamped => ?_⟩) ⟨?_, .inl hready.bound⟩
    actions
  · exact restamped_of_promised ht.1 ht.2
  · exact ⟨ht.1.step hstep, ht.2.step hstep ht.1 hcovered⟩
  · exact covered_of_restamped hstep ht.1 hrestamped
  · refine ⟨hready.chained, hready.belief, le_of_eq hready.bound.1, ?_, ?_⟩
    · rw [hready.done]
      rfl
    · rw [hready.quiet.1]
      exact True.intro

end Steps

end Threads

end HarnessLabs.Audit
