import HarnessLabs.Controller.SessionRuns
import HarnessLabs.Lib.Runs

/-!
# Idempotent commands

The kernel keeps the receipt of an accepted command under the command's key. A command whose key
has a receipt is answered as a duplicate before anything else of it is looked at, whoever sent it
and whatever it says.

* `Answered` — a kernel with its disk, the commands whose receipts were written and the answers
  that were given.
* `answerStep` — an operation, whose writes a crash may cut.
* `Faithful` — every positive answer stands for the applied effects of such a command.
* `answers_faithful_iff` — **the answers of a run are faithful exactly when no command comes with
  the key of an accepted one that says something else.**
-/

namespace HarnessLabs.Controller

open EventLog List

/-- `accepted`. -/
def CommandReceipt.positive (r : CommandReceipt) : Bool :=
  r.status = .accepted || r.status = .duplicate

/-- The same key, type, payload and actor. -/
def SameContent (c d : CommandEnvelope) : Prop :=
  c.idempotencyKey = d.idempotencyKey ∧ c.type = d.type ∧ c.payload = d.payload ∧ c.actor = d.actor

instance (c d : CommandEnvelope) : Decidable (SameContent c d) :=
  inferInstanceAs (Decidable (_ ∧ _ ∧ _ ∧ _))

/-! ## Answers -/

/-- A kernel with its disk. `accepted` are the commands whose receipts were written, with the events
that the kernel applied for them; `answers` are the receipts that were given. -/
structure Answered where
  durable : Durable
  kernel : Kernel
  accepted : List (CommandEnvelope × List KernelEvent) := []
  answers : List (CommandEnvelope × CommandReceipt) := []

def Write.isReceipt : Write → Bool
  | .commandProcessed _ _ => true
  | _ => false

/-- The command of an operation. -/
def Operation.command? : Operation → Option CommandEnvelope
  | .handle _ command => some command
  | _ => none

/-- The command whose receipt is among the writes, with the events that were applied for it. -/
def receiptWritten (k : Kernel) (op : Operation) (outcome : Outcome) (writes : List Write) :
    List (CommandEnvelope × List KernelEvent) :=
  match op.command? with
  | some command =>
    if writes.any Write.isReceipt then
      [(command, outcome.kernel.events.drop k.events.length)]
    else []
  | none => []

/-- The answer of an operation that finished. -/
def answerGiven (op : Operation) (outcome : Outcome) :
    List (CommandEnvelope × CommandReceipt) :=
  match op.command?, outcome.answer with
  | some command, .ok (some receipt) => [(command, receipt)]
  | _, _ => []

/-- An operation of whose writes the first `j` reach the disk. Where that is all of them it answers
and the kernel lives on, else the kernel is restored. -/
def answerStep (setting : Setting) (i : Operation × ℕ) (s : Answered) : Option Answered :=
  let outcome := s.kernel.step setting i.1
  let writes := outcome.writes.take i.2
  (replay Durable.write s.durable writes).bind fun d =>
    let accepted := s.accepted ++ receiptWritten s.kernel i.1 outcome writes
    if outcome.writes.length ≤ i.2 then
      some ⟨d, outcome.kernel, accepted, s.answers ++ answerGiven i.1 outcome⟩
    else
      d.restore.map fun k => ⟨d, k, accepted, s.answers⟩

/-- A positive answer stands for effects that were applied under its key. -/
def Faithful (s : Answered) : Prop :=
  ∀ a ∈ s.answers, a.2.positive →
    ∃ p ∈ s.accepted, SameContent p.1 a.1 ∧ p.2 ≠ [] ∧ p.2 ⊆ s.kernel.events

/-- The command does not come with the key of an accepted command that says something else. -/
def KeyKept (s : Answered) (i : Operation × ℕ) : Prop :=
  ∀ command, i.1.command? = some command → ∀ p ∈ s.accepted,
    p.1.idempotencyKey = command.idempotencyKey → SameContent p.1 command

/-- A new run. -/
def Answered.start (contract : RunContract) (criteria : Dict String Criterion)
    (artifacts : Dict String Artifact) : Answered where
  durable := ⟨initialState contract criteria artifacts, [], ∅⟩
  kernel := ⟨initialState contract criteria artifacts, []⟩

/-! ## What an operation answers -/

section Handle

variable {k : Kernel} {command : CommandEnvelope}

theorem handle_duplicate (setting : Setting) (catalog : EvidenceCatalog) {receipt : CommandReceipt}
    (h : k.state.receipts.get? command.idempotencyKey = some receipt) :
    k.step setting (.handle catalog command) =
      ⟨k, [], .ok (some (duplicateReceipt command receipt))⟩ := by
  rw [Kernel.step, Kernel.handle, h]

theorem handle_fresh (setting : Setting) (catalog : EvidenceCatalog)
    (h : k.state.receipts.get? command.idempotencyKey = none) :
    (∃ code message, k.step setting (.handle catalog command) = k.reject command code message) ∨
    ∃ effects, Accepts setting.contract k catalog command ∧
      k.state.evaluate setting.contract catalog command = .ok effects ∧
      k.step setting (.handle catalog command) = k.commit setting.contract command effects := by
  rw [Kernel.step, Kernel.handle, h]
  cases henvelope : k.state.validateEnvelope setting.contract catalog k.events command with
  | some refusal => exact .inl ⟨_, _, rfl⟩
  | none =>
    cases heval : k.state.evaluate setting.contract catalog command with
    | error message => exact .inl ⟨_, _, rfl⟩
    | ok effects => exact .inr ⟨effects, ⟨h, henvelope⟩, rfl, rfl⟩

theorem receipt_of_reject {code message : String} {receipt : CommandReceipt}
    (h : (k.reject command code message).answer = .ok (some receipt)) :
    receipt.positive = false := by
  rw [Kernel.reject] at h
  split_ifs at h
  all_goals
    obtain rfl := Option.some.inj (Except.ok.inj h)
    rfl

theorem writes_reject (k : Kernel) (command : CommandEnvelope) (code message : String) :
    (k.reject command code message).writes.any Write.isReceipt = false := by
  rw [Kernel.reject]
  split_ifs <;> rfl

end Handle

/-- The receipt is written behind the events and before the checkpoint. -/
theorem any_isReceipt_persist (events : List KernelEvent) (p : String × CommandReceipt)
    (state : State) (j : ℕ) :
    ((persist events (some p) state).take j).any Write.isReceipt = decide (events.length < j) := by
  have hevents (n : ℕ) :
      ((events.map Write.controllerEvent).take n).any Write.isReceipt = false := by
    rw [any_eq_false]
    intro w hw
    obtain ⟨e, -, rfl⟩ := mem_map.1 (mem_of_mem_take hw)
    exact Bool.false_ne_true
  rw [persist, append_assoc, take_append, any_append, hevents, length_map,
    Bool.false_or]
  rcases Nat.lt_or_ge events.length j with hj | hj
  · obtain ⟨n, hn⟩ := Nat.exists_eq_succ_of_ne_zero (Nat.sub_ne_zero_of_lt hj)
    rw [hn, decide_eq_true hj]
    rfl
  · rw [Nat.sub_eq_zero_of_le hj, decide_eq_false (Nat.not_lt.2 hj)]
    rfl

theorem any_isReceipt_record (events : List KernelEvent) (state : State) (j : ℕ) :
    ((persist events none state).take j).any Write.isReceipt = false := by
  rw [any_eq_false]
  intro w hw
  have hmem := mem_of_mem_take hw
  rcases mem_append.1 hmem with hmem | hmem
  · obtain ⟨e, -, rfl⟩ := mem_map.1 (by simpa using hmem)
    exact Bool.false_ne_true
  · obtain rfl := mem_singleton.1 hmem
    exact Bool.false_ne_true

/-! ## The step -/

/-- The receipts are those of the accepted commands, one under each key, and the events of these
are in the kernel. -/
structure KeptAnswers (initial : State) (s : Answered) : Prop where
  restores : s.durable.restore = some s.kernel
  sound : s.kernel.Sound initial
  receipts : ∀ key, (s.kernel.state.receipts.get? key).isSome ↔
    ∃ p ∈ s.accepted, p.1.idempotencyKey = key
  unique : (s.accepted.map (·.1.idempotencyKey)).Nodup
  applied : ∀ p ∈ s.accepted, p.2 ≠ [] ∧ p.2 ⊆ s.kernel.events

/-- What an operation can do to a kept kernel. -/
inductive Answers (s : Answered) (op : Operation) (t : Answered) : Prop
  | quiet (events : List KernelEvent) (given : List (CommandEnvelope × CommandReceipt))
      (hreceipts : t.kernel.state.receipts = s.kernel.state.receipts)
      (hevents : t.kernel.events = s.kernel.events ++ events)
      (haccepted : t.accepted = s.accepted)
      (hanswers : t.answers = s.answers ++ given)
      (hgiven : ∀ a ∈ given, a.2.positive = false)
      (hfresh : ∀ command, op.command? = some command →
        s.kernel.state.receipts.get? command.idempotencyKey = none)
  | duplicate (command : CommandEnvelope) (receipt : CommandReceipt)
      (hcommand : op.command? = some command)
      (hkey : s.kernel.state.receipts.get? command.idempotencyKey = some receipt)
      (hstep : t = { s with answers := s.answers ++ [(command, duplicateReceipt command receipt)] })
  | committed (command : CommandEnvelope) (events : List KernelEvent)
      (given : List (CommandEnvelope × CommandReceipt))
      (hcommand : op.command? = some command)
      (hkey : s.kernel.state.receipts.get? command.idempotencyKey = none)
      (hne : events ≠ [])
      (hreceipts : ∀ key, (t.kernel.state.receipts.get? key).isSome ↔
        key = command.idempotencyKey ∨ (s.kernel.state.receipts.get? key).isSome)
      (hevents : t.kernel.events = s.kernel.events ++ events)
      (haccepted : t.accepted = s.accepted ++ [(command, events)])
      (hanswers : t.answers = s.answers ++ given)
      (hgiven : ∀ a ∈ given, a.1 = command)

section Step

variable {initial : State} {s t : Answered} {setting : Setting} {op : Operation} {j : ℕ}

theorem answerStep_eq {d : Durable} {k : Kernel}
    (hwrites : replay Durable.write s.durable ((s.kernel.step setting op).writes.take j) = some d)
    (hk : d.restore = some k)
    (hlive : (s.kernel.step setting op).writes.length ≤ j → k = (s.kernel.step setting op).kernel) :
    answerStep setting (op, j) s = some
      { durable := d
        kernel := k
        accepted := s.accepted ++ receiptWritten s.kernel op (s.kernel.step setting op)
          ((s.kernel.step setting op).writes.take j)
        answers := s.answers ++ if (s.kernel.step setting op).writes.length ≤ j then
          answerGiven op (s.kernel.step setting op) else [] } := by
  rw [answerStep, hwrites, Option.bind_some]
  by_cases hj : (s.kernel.step setting op).writes.length ≤ j
  · rw [if_pos hj, if_pos hj, hlive hj]
  · rw [if_neg hj, if_neg hj, hk, append_nil]
    rfl

/-- No receipt is written, and no positive answer is given. -/
theorem answers_quiet {d : Durable} {k : Kernel} {events : List KernelEvent}
    (hwrites : replay Durable.write s.durable ((s.kernel.step setting op).writes.take j) = some d)
    (hk : d.restore = some k) (hsound : k.Sound initial)
    (hlive : (s.kernel.step setting op).writes.length ≤ j → k = (s.kernel.step setting op).kernel)
    (hreceipts : k.state.receipts = s.kernel.state.receipts)
    (hevents : k.events = s.kernel.events ++ events)
    (hsilent : ((s.kernel.step setting op).writes.take j).any Write.isReceipt = false)
    (hgiven : ((s.kernel.step setting op).writes.length ≤ j →
      ∀ a ∈ answerGiven op (s.kernel.step setting op), a.2.positive = false))
    (hfresh : ∀ command, op.command? = some command →
      s.kernel.state.receipts.get? command.idempotencyKey = none) :
    ∃ t, answerStep setting (op, j) s = some t ∧ t.durable.restore = some t.kernel ∧
      t.kernel.Sound initial ∧ Answers s op t := by
  refine ⟨_, answerStep_eq hwrites hk hlive, hk, hsound,
    .quiet events _ hreceipts hevents ?_ rfl ?_ hfresh⟩
  · dsimp only
    rw [receiptWritten, hsilent]
    cases op.command? with
    | none => exact append_nil _
    | some command => exact append_nil _
  · intro a ha
    split_ifs at ha with hj
    · exact hgiven hj a ha
    · exact nomatch ha

theorem answerGiven_of_trusted (h : op.command? = none) (outcome : Outcome) :
    answerGiven op outcome = [] := by
  rw [answerGiven, h]

theorem answers_commit {command : CommandEnvelope} {catalog : EvidenceCatalog} {effects : Effects}
    (hk : s.durable.restore = some s.kernel) (hs : s.kernel.Sound initial)
    (haccepts : Accepts setting.contract s.kernel catalog command)
    (heval : s.kernel.state.evaluate setting.contract catalog command = .ok effects)
    (hstep : s.kernel.step setting (.handle catalog command) =
      s.kernel.commit setting.contract command effects) :
    ∃ t, answerStep setting (.handle catalog command, j) s = some t ∧
      t.durable.restore = some t.kernel ∧ t.kernel.Sound initial ∧
      Answers s (.handle catalog command) t := by
  have hadmitted := (yields_evaluate effects heval).admitted
  obtain ⟨d, k, hd, hrestore, hsound, hlive, hcut⟩ :=
    restore_commit setting.contract hk hs haccepts.1 hadmitted j
  obtain ⟨u, hu, -⟩ := commit_applies setting.contract command hs hadmitted
  have heq : s.kernel.commit setting.contract command effects = _ := commit_eq hu
  rw [← hstep] at hd hlive
  obtain ⟨hj, hevents, hreceipts⟩ | ⟨hj, hkernel⟩ := hcut
  · -- the crash comes before the receipt
    refine answers_quiet hd hrestore hsound hlive hreceipts hevents ?_ ?_ ?_
    · rw [hstep, heq, any_isReceipt_persist, decide_eq_false (Nat.not_lt.2 hj)]
    · intro hall
      rw [hstep, heq] at hall
      simp [persist] at hall
      omega
    · intro other hother
      obtain rfl := Option.some.inj hother
      exact haccepts.1
  · refine ⟨_, answerStep_eq hd hrestore hlive, hrestore, hsound, ?_⟩
    have hwritten : ((s.kernel.step setting (.handle catalog command)).writes.take j).any
        Write.isReceipt = true := by
      rw [hstep, heq, any_isReceipt_persist, decide_eq_true hj]
    rw [heq] at hkernel
    refine .committed command (commitEvents s.kernel setting.contract command effects) _ rfl
      haccepts.1 (commitEvents_ne_nil hadmitted) ?_ ?_ ?_ rfl ?_
    · intro key
      rw [hkernel]
      show ((s.kernel.state.receipts.set _ _).get? key).isSome ↔ _
      rw [Dict.get?_set]
      split_ifs with hkey
      · simp [hkey]
      · simp [hkey]
    · rw [hkernel]
    · dsimp only
      rw [receiptWritten, hwritten]
      simp [Operation.command?, hstep, heq]
    · intro a ha
      split_ifs at ha
      · rw [answerGiven] at ha
        split at ha
        · rename_i other receipt hother _
          obtain rfl := mem_singleton.1 ha
          exact (Option.some.inj hother).symm
        · cases ha
      · cases ha

/-- **An operation on a kept kernel.** It is quiet, answers a duplicate, or commits a command with
a fresh key. -/
theorem answerStep_cases (h : KeptAnswers initial s) (setting : Setting) (op : Operation) (j : ℕ) :
    ∃ t, answerStep setting (op, j) s = some t ∧ t.durable.restore = some t.kernel ∧
      t.kernel.Sound initial ∧ Answers s op t := by
  have hself : s.kernel.events = s.kernel.events ++ [] := (append_nil _).symm
  by_cases hduplicate : ∃ command receipt, op.command? = some command ∧
      s.kernel.state.receipts.get? command.idempotencyKey = some receipt
  · obtain ⟨command, receipt, hcommand, hkey⟩ := hduplicate
    cases op with
    | handle catalog other =>
      obtain rfl := Option.some.inj hcommand
      have hstep := handle_duplicate setting catalog hkey
      refine ⟨{ s with answers := s.answers ++ [(other, duplicateReceipt other receipt)] }, ?_,
        h.restores, h.sound, .duplicate other receipt rfl hkey rfl⟩
      rw [answerStep, hstep]
      simp [receiptWritten, answerGiven, Operation.command?]
    | _ => exact nomatch hcommand
  have hfresh : ∀ command, op.command? = some command →
      s.kernel.state.receipts.get? command.idempotencyKey = none := by
    intro command hcommand
    by_contra hsome
    obtain ⟨receipt, hreceipt⟩ := Option.ne_none_iff_exists'.1 hsome
    exact hduplicate ⟨command, receipt, hcommand, hreceipt⟩
  have htrusted (hnone : op.command? = none) :
      ∃ t, answerStep setting (op, j) s = some t ∧ t.durable.restore = some t.kernel ∧
        t.kernel.Sound initial ∧ Answers s op t := by
    obtain ⟨answer, hstep⟩ | ⟨catalog, command, _, _, rfl, _⟩ | ⟨catalog, command, _, rfl, _⟩ |
      ⟨actor, bodies, hrecorded, hstep⟩ := step_cases s.kernel setting op
    · refine answers_quiet (d := s.durable) (k := s.kernel) (by rw [hstep]; simp)
        h.restores h.sound (fun _ => by rw [hstep]) rfl hself (by rw [hstep]; simp) ?_ hfresh
      intro _ a ha
      rw [answerGiven_of_trusted hnone] at ha
      exact nomatch ha
    · exact nomatch hnone
    · exact nomatch hnone
    · obtain ⟨d, k, hd, hrestore, hsound, hlive, hreceipts, i, hevents⟩ :=
        restore_record setting.contract actor h.restores h.sound hrecorded.trusted j
      obtain ⟨u, hu, -⟩ := record_applies setting.contract actor h.sound hrecorded.trusted
      rw [← hstep] at hd hlive
      refine answers_quiet hd hrestore hsound hlive hreceipts hevents ?_ ?_ hfresh
      · rw [hstep, record_eq hu, any_isReceipt_record]
      · intro _ a ha
        rw [answerGiven_of_trusted hnone] at ha
        exact nomatch ha
  cases op with
  | handle catalog command =>
    obtain ⟨code, message, hstep⟩ | ⟨effects, haccepts, heval, hstep⟩ :=
      handle_fresh setting catalog (hfresh command rfl)
    · obtain ⟨d, k, hd, hrestore, hsound, hlive, hreceipts, hevents⟩ :=
        restore_reject command code message h.restores h.sound j
      rw [← hstep] at hd hlive
      refine answers_quiet hd hrestore hsound hlive hreceipts (hevents.trans hself) ?_ ?_ hfresh
      · rw [hstep, any_eq_false]
        intro w hw
        exact any_eq_false.1 (writes_reject s.kernel command code message) w
          (mem_of_mem_take hw)
      · intro _ a ha
        rw [answerGiven, hstep] at ha
        split at ha
        · rename_i receipt _ hanswer
          obtain rfl := mem_singleton.1 ha
          exact receipt_of_reject hanswer
        · exact nomatch ha
    · exact answers_commit h.restores h.sound haccepts heval hstep
  | _ => exact htrusted rfl

/-! ## KeptAnswers answers -/

theorem KeptAnswers.receipt_of_mem (h : KeptAnswers initial s)
    {p : CommandEnvelope × List KernelEvent} (hp : p ∈ s.accepted) :
    ∃ r, s.kernel.state.receipts.get? p.1.idempotencyKey = some r :=
  Option.isSome_iff_exists.1 ((h.receipts _).2 ⟨p, hp, rfl⟩)

theorem KeptAnswers.step (h : KeptAnswers initial s) (hrestores : t.durable.restore = some t.kernel)
    (hsound : t.kernel.Sound initial) (hanswers : Answers s op t) : KeptAnswers initial t := by
  cases hanswers with
  | quiet events given hreceipts hevents haccepted _ _ _ =>
    refine ⟨hrestores, hsound, ?_, ?_, ?_⟩
    · rw [hreceipts, haccepted]
      exact h.receipts
    · rw [haccepted]
      exact h.unique
    · rw [haccepted, hevents]
      intro p hp
      obtain ⟨hne, hsub⟩ := h.applied p hp
      exact ⟨hne, subset_append_of_subset_left _ hsub⟩
  | duplicate command receipt _ _ hstep =>
    subst hstep
    exact ⟨h.restores, h.sound, h.receipts, h.unique, h.applied⟩
  | committed command events given _ hkey hne hreceipts hevents haccepted _ _ =>
    refine ⟨hrestores, hsound, fun key => ?_, ?_, ?_⟩
    · rw [hreceipts, haccepted, h.receipts key]
      constructor
      · rintro (rfl | ⟨p, hp, hpkey⟩)
        · exact ⟨_, mem_append_right _ (mem_singleton_self _), rfl⟩
        · exact ⟨p, mem_append_left _ hp, hpkey⟩
      · intro ⟨p, hp, hpkey⟩
        rcases mem_append.1 hp with hp | hp
        · exact .inr ⟨p, hp, hpkey⟩
        · obtain rfl := mem_singleton.1 hp
          exact .inl hpkey.symm
    · rw [haccepted, map_append, map_singleton]
      refine h.unique.append (nodup_singleton _) ?_
      intro key hold hnew
      obtain ⟨p, hp, rfl⟩ := mem_map.1 hold
      obtain ⟨r, hr⟩ := h.receipt_of_mem hp
      rw [mem_singleton.1 hnew, hkey] at hr
      exact nomatch hr
    · rw [haccepted, hevents]
      intro p hp
      rcases mem_append.1 hp with hp | hp
      · obtain ⟨hsome, hsub⟩ := h.applied p hp
        exact ⟨hsome, subset_append_of_subset_left _ hsub⟩
      · obtain rfl := mem_singleton.1 hp
        exact ⟨hne, subset_append_right _ _⟩

/-- What was faithful stays so. -/
theorem Faithful.extend (h : Faithful s) (haccepted : s.accepted ⊆ t.accepted)
    (hevents : s.kernel.events ⊆ t.kernel.events)
    (hnew : ∀ a ∈ t.answers, a ∈ s.answers ∨ (a.2.positive → ∃ p ∈ t.accepted,
      SameContent p.1 a.1 ∧ p.2 ≠ [] ∧ p.2 ⊆ t.kernel.events)) : Faithful t := by
  intro a ha hpositive
  rcases hnew a ha with hold | hnew
  · obtain ⟨p, hp, hsame, hne, hsub⟩ := h a hold hpositive
    exact ⟨p, haccepted hp, hsame, hne, List.Subset.trans hsub hevents⟩
  · exact hnew hpositive

/-- **A step keeps the answers faithful exactly when the key of its command is kept.** -/
theorem Answers.faithful_iff (h : KeptAnswers initial s) (ht : KeptAnswers initial t)
    (hfaithful : Faithful s) (hanswers : Answers s op t) (j : ℕ) :
    Faithful t ↔ KeyKept s (op, j) := by
  cases hanswers with
  | quiet events given hreceipts hevents haccepted hgivenAnswers hgiven hfresh =>
    refine iff_of_true (hfaithful.extend ?_ ?_ ?_) ?_
    · rw [haccepted]
      exact List.Subset.refl _
    · rw [hevents]
      exact subset_append_left _ _
    · intro a ha
      rw [hgivenAnswers] at ha
      refine (mem_append.1 ha).imp_right fun ha hpositive => ?_
      rw [hgiven a ha] at hpositive
      exact nomatch hpositive
    · intro command hcommand p hp hpkey
      obtain ⟨r, hr⟩ := h.receipt_of_mem hp
      rw [hpkey, hfresh command hcommand] at hr
      exact nomatch hr
  | committed command events given hcommand hkey hne hreceipts hevents haccepted hgivenAnswers
      hgiven =>
    refine iff_of_true (hfaithful.extend ?_ ?_ ?_) ?_
    · rw [haccepted]
      exact subset_append_left _ _
    · rw [hevents]
      exact subset_append_left _ _
    · intro a ha
      rw [hgivenAnswers] at ha
      refine (mem_append.1 ha).imp_right fun ha _ => ?_
      rw [haccepted, hgiven a ha]
      refine ⟨_, mem_append_right _ (mem_singleton_self _), ⟨rfl, rfl, rfl, rfl⟩, hne, ?_⟩
      rw [hevents]
      exact subset_append_right _ _
    · intro other hother p hp hpkey
      cases hcommand.symm.trans hother
      obtain ⟨r, hr⟩ := h.receipt_of_mem hp
      rw [hpkey, hkey] at hr
      exact nomatch hr
  | duplicate command receipt hcommand hkey hstep =>
    subst hstep
    constructor
    · -- the only accepted command under the key is the one that answers for this one
      intro hlater other hother p hp hpkey
      cases hcommand.symm.trans hother
      obtain ⟨q, hq, hsame, -⟩ := hlater _ (mem_append_right _ (mem_singleton_self _)) rfl
      have hkeys : p.1.idempotencyKey = q.1.idempotencyKey := hpkey.trans hsame.1.symm
      rwa [inj_on_of_nodup_map h.unique hp hq hkeys]
    · intro hkept
      refine hfaithful.extend (List.Subset.refl _) (List.Subset.refl _) fun a ha => ?_
      refine (mem_append.1 ha).imp_right fun ha _ => ?_
      obtain rfl := mem_singleton.1 ha
      obtain ⟨p, hp, hpkey⟩ := (h.receipts command.idempotencyKey).1 (by rw [hkey]; rfl)
      exact ⟨p, hp, hkept command hcommand p hp hpkey, h.applied p hp⟩

end Step

/-! ## Runs -/

theorem keptAnswers_start (contract : RunContract) (criteria : Dict String Criterion)
    (artifacts : Dict String Artifact) :
    KeptAnswers (initialState contract criteria artifacts)
      (.start contract criteria artifacts) where
  restores := rfl
  sound := ⟨rfl, rfl, rfl⟩
  receipts key := iff_of_false (by exact nofun) (by rintro ⟨p, hp, -⟩; exact nomatch hp)
  unique := nodup_nil
  applied := forall_mem_nil _

/-- **Faithful answers.** In every run of operations and crashes, every accepted or duplicate answer
stands for the applied effects of a command with its key, type, payload and actor, exactly when no
command comes with the key of an accepted command that says something else. -/
theorem answers_faithful_iff (setting : Setting) (criteria : Dict String Criterion)
    (artifacts : Dict String Artifact) (inputs : List (Operation × ℕ)) :
    Inputs.AllStates (answerStep setting) Faithful (.start setting.contract criteria artifacts)
        inputs ↔
      Inputs.AllInputs (answerStep setting) KeyKept (.start setting.contract criteria artifacts)
        inputs := by
  refine Inputs.allStates_iff_allInputs
    (fun s => KeptAnswers (initialState setting.contract criteria artifacts) s ∧ Faithful s)
    (fun s hs => hs.2) ?_ ⟨keptAnswers_start _ _ _, forall_mem_nil _⟩ inputs
  intro ⟨op, j⟩ s t hstep ⟨hkept, hfaithful⟩
  obtain ⟨t', ht', hrestores, hsound, hanswers⟩ := answerStep_cases hkept setting op j
  cases hstep.symm.trans ht'
  have hlater := hkept.step hrestores hsound hanswers
  have hiff := hanswers.faithful_iff hkept hlater hfaithful j
  exact ⟨fun hallowed => ⟨hlater, hiff.2 hallowed⟩, hiff.1⟩

/-! ### A key that was taken -/

def sessionEndKey : String := "run/dispatcher/session-end/session-1"

/-- The coordinator asks the operator under the key of the dispatcher's next command. -/
def takeKey : Operation :=
  .handle ⟨∅, ∅⟩ { exampleCommand .operatorInputRequest
    (Json.ofMembers [("id", .str "q1"), ("question", .str "which port?")]) 2 with
      idempotencyKey := sessionEndKey }

def endSession : Operation :=
  dispatcherCommand .coordinatorSessionEnd sessionEndKey 3
    (Json.ofMembers [("session_id", .str "session-1"), ("outcome", .str "completed"),
      ("result_status", .str "succeeded"), ("reason", .str "")])

def takenInputs : List (Operation × ℕ) :=
  [(registerSchema "schema" 0 (.int 1), 9), (startSession 1, 9), (takeKey, 9), (endSession, 9)]

/-- An answer without effects, and the session that it was to end. -/
def unfaithful (s : Answered) : Bool :=
  s.kernel.state.activeSession.isSome &&
    s.answers.any fun a => a.2.positive && s.accepted.all fun p => !decide (SameContent p.1 a.1)

/-- The end of the session is answered as a duplicate, and the session stays open. -/
theorem session_end_swallowed :
    ¬ ∀ (setting : Setting) (criteria : Dict String Criterion) (artifacts : Dict String Artifact)
      (inputs : List (Operation × ℕ)), Inputs.AllStates (answerStep setting) Faithful
        (.start setting.contract criteria artifacts) inputs := by
  intro hclaim
  have hall := hclaim exampleSetting ∅ ∅ takenInputs
  have hchecked : (Inputs.runInputs (answerStep exampleSetting)
      (.start exampleSetting.contract ∅ ∅) takenInputs).any unfaithful = true := by decide +kernel
  cases hrun : Inputs.runInputs (answerStep exampleSetting)
      (.start exampleSetting.contract ∅ ∅) takenInputs with
  | none =>
    rw [hrun] at hchecked
    exact nomatch hchecked
  | some s =>
    rw [hrun, Option.any_some, unfaithful, Bool.and_eq_true] at hchecked
    obtain ⟨a, ha, hother⟩ := any_eq_true.1 hchecked.2
    rw [Bool.and_eq_true, all_eq_true] at hother
    obtain ⟨p, hp, hsame, -⟩ := hall.of_runInputs hrun a ha hother.1
    have hnot := hother.2 p hp
    rw [decide_eq_true hsame] at hnot
    exact nomatch hnot

end HarnessLabs.Controller
