import HarnessLabs.Controller.Applicable

/-!
# Crash recovery

A crash leaves a prefix of the writes of the operation that ran, and a restart builds the kernel
from them. An event is written before the receipt of its command, and the restart applies it in
either case.

* `Kernel.ExactlyOnce` — the events that commands caused are those that receipts list.
* `restore_commit` — what a restart finds behind a cut commit.
* `crash_recovery_exactly_once` — **effects and receipts go together behind every cut that does not
  part them, and behind no other.**
-/

namespace HarnessLabs.Controller

open EventLog List

/-! ## New events -/

section NewEvents

variable {runId : String} {revision : ℕ} {actor : CommandActor}

@[simp] theorem length_newEvents (count : ℕ) (bodies : List (String × EventBody)) :
    (newEvents runId revision actor count bodies).length = bodies.length := by
  induction bodies generalizing count with
  | nil => rfl
  | cons p rest ih => simp [newEvents, ih]

theorem eventIds_newEvents (count : ℕ) (bodies : List (String × EventBody)) :
    (newEvents runId revision actor count bodies).map (·.eventId) =
      (List.range' count bodies.length).map fun i => eventId (i + 1) := by
  induction bodies generalizing count with
  | nil => rfl
  | cons p rest ih => simp [newEvents, ih, range'_succ]

theorem take_newEvents (count j : ℕ) (bodies : List (String × EventBody)) :
    (newEvents runId revision actor count bodies).take j =
      newEvents runId revision actor count (bodies.take j) := by
  induction bodies generalizing count j with
  | nil => simp [newEvents]
  | cons p rest ih =>
    cases j with
    | zero => rfl
    | succ j => simp [newEvents, ih]

theorem mem_newEvents {count : ℕ} {bodies : List (String × EventBody)} {e : KernelEvent}
    (h : e ∈ newEvents runId revision actor count bodies) :
    ∃ p ∈ bodies, e.commandId = p.1 ∧ e.body = p.2 ∧ e.revision = revision := by
  induction bodies generalizing count with
  | nil => cases h
  | cons p rest ih =>
    rcases mem_cons.1 h with rfl | h
    · exact ⟨p, mem_cons_self, rfl, rfl, rfl⟩
    · obtain ⟨q, hq, hqe⟩ := ih h
      exact ⟨q, mem_cons_of_mem p hq, hqe⟩

end NewEvents

/-! ## Sound kernels -/

/-- The kernel holds the numbered events that lead from the initial state to its own. -/
structure Kernel.Sound (initial : State) (k : Kernel) : Prop where
  sourced : replay State.apply initial k.events = some (k.state.marked initial.marks)
  counted : k.state.kernelEventCount = k.events.length
  numbered : k.events.map (·.eventId) = (List.range k.events.length).map fun i => eventId (i + 1)

namespace Kernel

/-- The command and the id of each event that a command caused. -/
def commandEvents (k : Kernel) : List (String × String) :=
  (k.events.filter (·.body.fromCommand)).map fun e => (e.commandId, e.eventId)

/-- The command and the id of each event that a receipt lists. -/
def receiptEvents (k : Kernel) : List (String × String) :=
  k.state.receipts.items.flatMap fun p => p.2.eventIds.map fun id => (p.2.commandId, id)

/-- **Every effect of a command has its receipt, and every receipt has all of its effects.** -/
def ExactlyOnce (k : Kernel) : Prop := k.commandEvents = k.receiptEvents

end Kernel

/-- Applied events keep a kernel sound, whatever marks they leave. -/
theorem Kernel.Sound.extend {initial : State} {k : Kernel} (h : k.Sound initial)
    {es : List KernelEvent} {t : State} (m : Marks) (ht : replay State.apply k.state es = some t)
    (hcount : t.kernelEventCount = k.state.kernelEventCount + es.length)
    (hids : es.map (·.eventId) =
      (List.range' k.events.length es.length).map fun i => eventId (i + 1)) :
    Kernel.Sound initial ⟨t.marked m, k.events ++ es⟩ where
  sourced := by
    rw [replay_append_of h.sourced, replay_marked, ht]
    rfl
  counted := by
    show t.kernelEventCount = _
    rw [hcount, h.counted, length_append]
  numbered := by
    have hsplit : List.range (k.events.length + es.length) =
        List.range k.events.length ++ List.range' k.events.length es.length := by
      rw [range_eq_range', range_eq_range', ← range'_append_1, Nat.zero_add]
    rw [map_append, h.numbered, hids, length_append, hsplit, map_append]

/-- A change of the marks keeps a kernel sound. -/
theorem Kernel.Sound.marked {initial : State} {k : Kernel} (h : k.Sound initial) (m : Marks) :
    Kernel.Sound initial ⟨k.state.marked m, k.events⟩ :=
  ⟨h.sourced, h.counted, h.numbered⟩

/-! ## Behind cut writes -/

section Restore

variable {d : Durable} {k : Kernel}

theorem replay_controllerEvents (d : Durable) (es : List KernelEvent) :
    replay Durable.write d (es.map .controllerEvent) =
      some { d with events := d.events ++ es } := by
  induction es generalizing d with
  | nil => simp
  | cons e es ih =>
    rw [map_cons, replay_cons_of (t := { d with events := d.events ++ [e] }) rfl, ih,
      append_assoc, singleton_append]

theorem behind_revision {m : Marks} {es : List KernelEvent} {revision : ℕ} (hne : es ≠ [])
    (hes : ∀ e ∈ es, e.revision = revision) (hle : m.revision ≤ revision) :
    m.behind es = { m with revision } := by
  have hfold (es : List KernelEvent) (hes : ∀ e ∈ es, e.revision = revision) :
      es.foldl (fun r e => max r e.revision) revision = revision := by
    induction es with
    | nil => rfl
    | cons e es ih =>
      rw [foldl_cons, hes e mem_cons_self, max_self]
      exact ih fun e' he' => hes e' (mem_cons_of_mem e he')
  cases es with
  | nil => exact absurd rfl hne
  | cons e es =>
    rw [Marks.behind, foldl_cons, hes e mem_cons_self, max_eq_right hle,
      hfold es fun e' he' => hes e' (mem_cons_of_mem e he')]

/-- A checkpoint of a sound kernel with the written events and receipts restores it. -/
theorem restore_checkpointed {initial : State} (hs : k.Sound initial) (hevents : k.events = d.events)
    (hreceipts : ∀ p ∈ d.receipts.items, k.state.receipts.get? p.1 = some p.2) :
    ({ d with checkpoint := k.state } : Durable).restore = some k := by
  have hcount : k.state.kernelEventCount = d.events.length := hevents ▸ hs.counted
  rw [restore_checkpoint hcount hreceipts, ← hevents]

end Restore

/-! ## Commits and records -/

section Applied

variable {initial : State} {k : Kernel} {bodies : List (String × EventBody)}

/-- Any number of an operation's events apply, and leave a sound kernel. -/
theorem Kernel.Sound.applied (h : k.Sound initial) (runId : String) (actor : CommandActor)
    (hnames : ∀ p ∈ bodies, Names k.state p.2) (revision j : ℕ) :
    ∃ t, replay State.apply k.state
        ((newEvents runId revision actor k.events.length bodies).take j) = some t ∧
      ∀ m, Kernel.Sound initial
        ⟨t.marked m, k.events ++ (newEvents runId revision actor k.events.length bodies).take j⟩ := by
  rw [take_newEvents]
  have hes : ∀ e ∈ newEvents runId revision actor k.events.length (bodies.take j),
      Names k.state e.body := by
    intro e he
    obtain ⟨p, hp, -, hbody, -⟩ := mem_newEvents he
    exact hbody ▸ hnames p (mem_of_mem_take hp)
  obtain ⟨t, ht, hcount⟩ := replay_of_names hes
  refine ⟨t, ht, fun m => h.extend m ht hcount ?_⟩
  rw [eventIds_newEvents, length_newEvents]

end Applied

section Commit

variable {initial : State} {d : Durable} {k : Kernel}

variable {es : List KernelEvent} {processed : Option (String × CommandReceipt)} {s : State}

theorem persist_take_events {j : ℕ} (hj : j ≤ es.length) :
    (persist es processed s).take j = (es.take j).map .controllerEvent := by
  rw [persist, append_assoc, take_append_of_le_length (by rwa [length_map]),
    map_take]

theorem persist_take_rest (i : ℕ) :
    (persist es processed s).take (es.length + i) = es.map .controllerEvent ++
      ((processed.map fun (p : String × CommandReceipt) => Write.commandProcessed p.1 p.2).toList ++
        [Write.checkpoint s]).take i := by
  rw [persist, append_assoc, take_append, length_map,
    take_of_length_le (by rw [length_map]; omega), Nat.add_sub_cancel_left]

theorem length_persist :
    (persist es processed s).length = es.length + processed.toList.length + 1 := by
  cases processed <;> simp [persist]

/-- The events of a commit. -/
def commitEvents (k : Kernel) (contract : RunContract) (command : CommandEnvelope)
    (effects : Effects) : List KernelEvent :=
  newEvents contract.runId (k.state.revision + 1) command.actor k.events.length
    (effects.1.map fun body => (command.commandId, body))

/-- The receipt of a commit. -/
def commitReceipt (k : Kernel) (contract : RunContract) (command : CommandEnvelope)
    (effects : Effects) : CommandReceipt where
  commandId := command.commandId
  runId := command.runId
  status := .accepted
  revision := k.state.revision + 1
  eventIds := (commitEvents k contract command effects).map (·.eventId)
  effectRefs := effects.2

/-- The marks that a commit leaves. -/
def commitMarks (k : Kernel) (contract : RunContract) (command : CommandEnvelope)
    (effects : Effects) : Marks :=
  { k.state.marks with
    revision := k.state.revision + 1
    receipts :=
      k.state.receipts.set command.idempotencyKey (commitReceipt k contract command effects) }

variable {contract : RunContract} {command : CommandEnvelope} {effects : Effects}

theorem commit_eq {t : State}
    (ht : replay State.apply k.state (commitEvents k contract command effects) = some t) :
    k.commit contract command effects =
      ⟨⟨t.marked (commitMarks k contract command effects),
          k.events ++ commitEvents k contract command effects⟩,
        persist (commitEvents k contract command effects)
          (some (command.idempotencyKey, commitReceipt k contract command effects))
          (t.marked (commitMarks k contract command effects)),
        .ok (some (commitReceipt k contract command effects))⟩ := by
  have ht' : replay State.apply k.state (newEvents contract.runId (k.state.revision + 1)
      command.actor k.events.length (effects.1.map fun body => (command.commandId, body))) =
      some t := ht
  have hmarks := marks_replay ht
  have hreceipts : k.state.receipts = t.receipts := (congrArg Marks.receipts hmarks).symm
  have hrefs : k.state.rejectedTaskDispatchRefs = t.rejectedTaskDispatchRefs :=
    (congrArg Marks.rejectedTaskDispatchRefs hmarks).symm
  rw [Kernel.commit, commitMarks, State.marks, hreceipts, hrefs]
  rw [ht']
  rfl

theorem revision_commitEvents {e : KernelEvent} (he : e ∈ commitEvents k contract command effects) :
    e.revision = k.state.revision + 1 := by
  obtain ⟨-, -, -, -, hrevision⟩ := mem_newEvents he
  exact hrevision

theorem notMem_receipts (hk : d.restore = some k) {key : String}
    (hkey : k.state.receipts.get? key = none) : key ∉ d.receipts.keys := by
  intro hmem
  obtain ⟨p, hp, rfl⟩ := mem_map.1 hmem
  exact Option.some_ne_none p.2 ((receipts_of_restore hk p hp).symm.trans hkey)

theorem commitEvents_ne_nil (h : Admitted k.state effects) :
    commitEvents k contract command effects ≠ [] := by
  rw [Ne, ← length_eq_zero_iff, commitEvents, length_newEvents, length_map,
    length_eq_zero_iff]
  exact h.1

theorem commit_names (command : CommandEnvelope) (h : Admitted k.state effects) :
    ∀ p ∈ effects.1.map fun body => (command.commandId, body), Names k.state p.2 := by
  intro p hp
  obtain ⟨b, hb, rfl⟩ := mem_map.1 hp
  exact (h.2 b hb).2

/-- The events of a commit apply. -/
theorem commit_applies (contract : RunContract) (command : CommandEnvelope)
    (hs : k.Sound initial) (hadmitted : Admitted k.state effects) :
    ∃ t, replay State.apply k.state (commitEvents k contract command effects) = some t ∧
      ∀ m, Kernel.Sound initial
        ⟨t.marked m, k.events ++ commitEvents k contract command effects⟩ := by
  have happlied := hs.applied contract.runId command.actor
    (commit_names command hadmitted) (k.state.revision + 1)
    (commitEvents k contract command effects).length
  rwa [← commitEvents, take_length] at happlied

/-- What a restart finds behind a cut commit: some events and no receipt, or all there is. -/
theorem restore_commit (contract : RunContract) (hk : d.restore = some k) (hs : k.Sound initial)
    (hkey : k.state.receipts.get? command.idempotencyKey = none)
    (hadmitted : Admitted k.state effects) (j : ℕ) :
    ∃ d' k', replay Durable.write d ((k.commit contract command effects).writes.take j) = some d' ∧
      d'.restore = some k' ∧ k'.Sound initial ∧
      ((k.commit contract command effects).writes.length ≤ j →
        k' = (k.commit contract command effects).kernel) ∧
      (j ≤ (commitEvents k contract command effects).length ∧
        k'.events = k.events ++ (commitEvents k contract command effects).take j ∧
        k'.state.receipts = k.state.receipts ∨
      (commitEvents k contract command effects).length < j ∧
        k' = (k.commit contract command effects).kernel) := by
  obtain ⟨t, ht, hsound⟩ := commit_applies contract command hs hadmitted
  rw [commit_eq ht]
  rcases Nat.lt_or_ge (commitEvents k contract command effects).length j with hj | hj
  · -- the receipt is written, and perhaps the checkpoint
    obtain ⟨i, rfl⟩ := Nat.exists_eq_add_of_lt hj
    have hreceipt := restore_receipt (restore_events hk ht) (notMem_receipts hk hkey)
      (commitReceipt k contract command effects)
    rw [behind_revision (commitEvents_ne_nil hadmitted) (fun _ he => revision_commitEvents he)
      (Nat.le_succ _)] at hreceipt
    let received : Durable :=
      { d with
        events := d.events ++ commitEvents k contract command effects
        receipts := d.receipts.set command.idempotencyKey
          (commitReceipt k contract command effects) }
    have hwritten (rest : List Write) : replay Durable.write d
        ((commitEvents k contract command effects).map .controllerEvent ++
          .commandProcessed command.idempotencyKey (commitReceipt k contract command effects) ::
            rest) = replay Durable.write received rest :=
      replay_append_of (replay_controllerEvents d _) _
    have hall := hsound (commitMarks k contract command effects)
    have hevents : k.events ++ commitEvents k contract command effects = received.events :=
      congrArg (· ++ _) (restore_eq_some.1 hk).2.1
    rw [Nat.add_assoc, persist_take_rest]
    cases i with
    | zero => exact ⟨received, _, hwritten [], hreceipt, hall, fun _ => rfl, .inr ⟨hj, rfl⟩⟩
    | succ i =>
      refine ⟨{ received with checkpoint := t.marked (commitMarks k contract command effects) }, _,
        ?_, restore_checkpointed hall hevents (receipts_of_restore hreceipt), hall,
        fun _ => rfl, .inr ⟨hj, rfl⟩⟩
      show replay Durable.write d (_ ++ _ :: [Write.checkpoint _].take (i + 1)) = _
      rw [hwritten, take_succ_cons, take_nil]
      rfl
  · obtain ⟨u, hu, husound⟩ := hs.applied contract.runId command.actor
      (commit_names command hadmitted) (k.state.revision + 1) j
    rw [← commitEvents] at hu husound
    refine ⟨_, _, ?_, restore_events hk hu, husound _, fun hle => ?_, .inl ⟨hj, rfl, rfl⟩⟩
    · rw [persist_take_events hj, replay_controllerEvents]
    · rw [length_persist] at hle
      omega

end Commit

section Record

variable {initial : State} {d : Durable} {k : Kernel} {contract : RunContract}

/-- The events of a trusted operation. -/
def recordEvents (k : Kernel) (contract : RunContract) (actor : CommandActor)
    (bodies : List (String × EventBody)) : List KernelEvent :=
  newEvents contract.runId (k.state.revision + 1) actor k.events.length bodies

variable {bodies : List (String × EventBody)}

/-- The events of a trusted operation apply. -/
theorem record_applies (contract : RunContract) (actor : CommandActor) (hs : k.Sound initial)
    (htrusted : Trusted k.state bodies) :
    ∃ t, replay State.apply k.state (recordEvents k contract actor bodies) = some t ∧
      ∀ m, Kernel.Sound initial ⟨t.marked m, k.events ++ recordEvents k contract actor bodies⟩ := by
  have happlied := hs.applied contract.runId actor (fun p hp => (htrusted p hp).2)
    (k.state.revision + 1) (recordEvents k contract actor bodies).length
  rwa [← recordEvents, take_length] at happlied

theorem record_eq {actor : CommandActor} {t : State}
    (ht : replay State.apply k.state (recordEvents k contract actor bodies) = some t) :
    k.record contract actor bodies =
      ⟨⟨{ t with revision := k.state.revision + 1 }, k.events ++ recordEvents k contract actor bodies⟩,
        persist (recordEvents k contract actor bodies) none
          { t with revision := k.state.revision + 1 }, .ok none⟩ := by
  have ht' : replay State.apply k.state (newEvents contract.runId (k.state.revision + 1) actor
      k.events.length bodies) = some t := ht
  rw [Kernel.record]
  rw [ht']
  rfl

/-- What a restart finds behind a cut trusted operation: some of its events. -/
theorem restore_record (contract : RunContract) (actor : CommandActor) (hk : d.restore = some k)
    (hs : k.Sound initial) (htrusted : Trusted k.state bodies) (j : ℕ) :
    ∃ d' k', replay Durable.write d ((k.record contract actor bodies).writes.take j) = some d' ∧
      d'.restore = some k' ∧ k'.Sound initial ∧
      ((k.record contract actor bodies).writes.length ≤ j →
        k' = (k.record contract actor bodies).kernel) ∧
      k'.state.receipts = k.state.receipts ∧
      ∃ i, k'.events = k.events ++ (recordEvents k contract actor bodies).take i := by
  obtain ⟨t, ht, hsound⟩ := record_applies contract actor hs htrusted
  rw [record_eq ht]
  rcases Nat.lt_or_ge (recordEvents k contract actor bodies).length j with hj | hj
  · obtain ⟨i, rfl⟩ := Nat.exists_eq_add_of_lt hj
    have hreceipts : t.receipts = k.state.receipts := congrArg Marks.receipts (marks_replay ht)
    have hall := hsound { t.marks with revision := k.state.revision + 1 }
    let recorded : Durable :=
      { d with events := d.events ++ recordEvents k contract actor bodies }
    have hevents : k.events ++ recordEvents k contract actor bodies = recorded.events :=
      congrArg (· ++ _) (restore_eq_some.1 hk).2.1
    refine ⟨_, _, ?_, restore_checkpointed hall hevents fun p hp => ?_, hall, fun _ => rfl, hreceipts,
      (recordEvents k contract actor bodies).length, by rw [take_length]⟩
    · rw [Nat.add_assoc, persist_take_rest]
      show replay Durable.write d (_ ++ [Write.checkpoint _].take (i + 1)) = _
      rw [take_succ_cons, take_nil, replay_append_of (replay_controllerEvents d _)]
      rfl
    · have hheld := receipts_of_restore hk p hp
      rwa [← hreceipts] at hheld
  · obtain ⟨u, hu, husound⟩ := hs.applied contract.runId actor
      (fun p hp => (htrusted p hp).2) (k.state.revision + 1) j
    rw [← recordEvents] at hu husound
    refine ⟨_, _, ?_, restore_events hk hu, husound _, fun hle => ?_, rfl, j, rfl⟩
    · rw [persist_take_events hj, replay_controllerEvents]
    · rw [length_persist] at hle
      omega

/-- What a restart finds behind a cut rejection: the same events and receipts. -/
theorem restore_reject (command : CommandEnvelope) (code message : String)
    (hk : d.restore = some k) (hs : k.Sound initial) (j : ℕ) :
    ∃ d' k', replay Durable.write d ((k.reject command code message).writes.take j) = some d' ∧
      d'.restore = some k' ∧ k'.Sound initial ∧
      ((k.reject command code message).writes.length ≤ j →
        k' = (k.reject command code message).kernel) ∧
      k'.state.receipts = k.state.receipts ∧ k'.events = k.events := by
  by_cases hcode : code = "invalid_command" ∧ command.type = .taskDispatch
  · rw [Kernel.reject, if_pos hcode]
    match j with
    | 0 => exact ⟨d, k, rfl, hk, hs, nofun, rfl, rfl⟩
    | 1 => exact ⟨d, k, rfl, hk, hs, fun hle => absurd (show 2 ≤ 1 from hle) (by decide), rfl, rfl⟩
    | j + 2 =>
      have hall := hs.marked { k.state.marks with
        rejectedTaskDispatchRefs :=
          k.state.rejectedTaskDispatchRefs ++ ["command:" ++ command.commandId] }
      refine ⟨_, _, ?_, restore_checkpointed hall (restore_eq_some.1 hk).2.1
        fun p hp => receipts_of_restore hk p hp, hall, fun _ => rfl, rfl, rfl⟩
      rw [take_succ_cons, take_succ_cons, take_nil]
      rfl
  · rw [Kernel.reject, if_neg hcode]
    refine ⟨d, k, ?_, hk, hs, fun _ => rfl, rfl, rfl⟩
    cases j with
    | zero => rfl
    | succ j =>
      rw [take_succ_cons, take_nil]
      rfl

end Record

/-! ## Exactly once -/

/-- A cut that does not part a command's events from its receipt. -/
def SafeCut (setting : Setting) (k : Kernel) : Operation → ℕ → Prop
  | .handle catalog command, j =>
    j = 0 ∨ (k.handle setting.contract catalog command).kernel.events.length < k.events.length + j
  | _, _ => True

/-- None of a command's events, or all of them and every retry is a duplicate. -/
def Settled (setting : Setting) (k k' : Kernel) : Operation → Prop
  | .handle catalog command =>
    k'.events = k.events ∨
    k'.events = (k.handle setting.contract catalog command).kernel.events ∧
      ∀ catalog' retry, retry.idempotencyKey = command.idempotencyKey →
        ∃ answer, k'.handle setting.contract catalog' retry = ⟨k', [], answer⟩
  | _ => True

section ExactlyOnce

variable {initial : State} {setting : Setting} {d : Durable} {k k' : Kernel}

theorem commandEvents_append {es : List KernelEvent} (h : k'.events = k.events ++ es) :
    k'.commandEvents =
      k.commandEvents ++ (es.filter (·.body.fromCommand)).map fun e => (e.commandId, e.eventId) := by
  rw [Kernel.commandEvents, h, filter_append, map_append]
  rfl

theorem receiptEvents_of_eq (h : k'.state.receipts = k.state.receipts) :
    k'.receiptEvents = k.receiptEvents := by
  rw [Kernel.receiptEvents, h]
  rfl

/-- Events that no command caused change neither side. -/
theorem exactlyOnce_of_trusted {es : List KernelEvent} (hevents : k'.events = k.events ++ es)
    (hes : ∀ e ∈ es, e.body.fromCommand = false)
    (hreceipts : k'.state.receipts = k.state.receipts) (h : k.ExactlyOnce) : k'.ExactlyOnce := by
  have hnone : es.filter (·.body.fromCommand) = [] :=
    filter_eq_nil_iff.2 fun e he => by rw [hes e he]; exact Bool.false_ne_true
  rw [Kernel.ExactlyOnce, commandEvents_append hevents, hnone, receiptEvents_of_eq hreceipts, h,
    map_nil, append_nil]

theorem exactlyOnce_of_same (hevents : k'.events = k.events)
    (hreceipts : k'.state.receipts = k.state.receipts) (h : k.ExactlyOnce) : k'.ExactlyOnce :=
  exactlyOnce_of_trusted (by rw [hevents, append_nil]) (forall_mem_nil _) hreceipts h

theorem commitEvents_commandEvents (contract : RunContract) (command : CommandEnvelope)
    {effects : Effects} (h : Admitted k.state effects) (j : ℕ) :
    (((commitEvents k contract command effects).take j).filter (·.body.fromCommand)).map
        (fun e => (e.commandId, e.eventId)) =
      (((commitEvents k contract command effects).map (·.eventId)).take j).map
        fun id => (command.commandId, id) := by
  have hes : ∀ e ∈ (commitEvents k contract command effects).take j,
      e.commandId = command.commandId ∧ e.body.fromCommand = true := by
    intro e he
    obtain ⟨p, hp, hid, hbody, -⟩ := mem_newEvents (mem_of_mem_take he)
    obtain ⟨b, hb, rfl⟩ := mem_map.1 hp
    exact ⟨hid, hbody ▸ (h.2 b hb).1⟩
  rw [filter_eq_self.2 fun e he => (hes e he).2, ← map_take, map_map]
  exact map_congr_left fun e he => Prod.ext (hes e he).1 rfl

theorem settled_of_events {op : Operation} (h : k'.events = k.events) : Settled setting k k' op := by
  cases op with
  | handle catalog command => exact .inl h
  | _ => trivial

theorem safeCut_of_events {op : Operation} (h : (k.step setting op).kernel.events = k.events)
    (j : ℕ) : SafeCut setting k op j := by
  cases op with
  | handle catalog command =>
    refine (Nat.eq_zero_or_pos j).imp_right fun hj => ?_
    have h : (k.handle setting.contract catalog command).kernel.events = k.events := h
    rw [h]
    exact Nat.lt_add_of_pos_right hj
  | _ => trivial

/-- Behind a cut commit: paired, and settled, exactly when the receipt is there or no event is. -/
theorem commit_paired {catalog : EvidenceCatalog} {command : CommandEnvelope} {effects : Effects}
    (h : k.ExactlyOnce) (hkey : k.state.receipts.get? command.idempotencyKey = none)
    (hadmitted : Admitted k.state effects)
    (hcommit : k.handle setting.contract catalog command =
      k.commit setting.contract command effects)
    {t : State} (ht : replay State.apply k.state (commitEvents k setting.contract command effects) =
      some t) {j : ℕ}
    (hcut : j ≤ (commitEvents k setting.contract command effects).length ∧
        k'.events = k.events ++ (commitEvents k setting.contract command effects).take j ∧
        k'.state.receipts = k.state.receipts ∨
      (commitEvents k setting.contract command effects).length < j ∧
        k' = (k.commit setting.contract command effects).kernel) :
    k'.ExactlyOnce ∧ Settled setting k k' (.handle catalog command) ↔
      SafeCut setting k (.handle catalog command) j := by
  have hsafe : SafeCut setting k (.handle catalog command) j ↔
      j = 0 ∨ (commitEvents k setting.contract command effects).length < j := by
    rw [SafeCut, hcommit, commit_eq ht, length_append, Nat.add_lt_add_iff_left]
  rw [hsafe]
  obtain ⟨hj, hevents, hreceipts⟩ | ⟨hj, rfl⟩ := hcut
  · constructor
    · rintro ⟨honce, -⟩
      -- without a receipt there may be no event
      rw [Kernel.ExactlyOnce, commandEvents_append hevents, commitEvents_commandEvents _ _ hadmitted,
        receiptEvents_of_eq hreceipts, ← h] at honce
      have hnil := map_eq_nil_iff.1 (append_right_eq_self.1 honce)
      have hlen := congrArg List.length hnil
      rw [length_take, length_map, min_eq_left hj, length_nil] at hlen
      exact .inl hlen
    · rintro (rfl | hlt)
      · rw [take_zero, append_nil] at hevents
        refine ⟨?_, .inl hevents⟩
        exact exactlyOnce_of_same hevents hreceipts h
      · omega
  · refine iff_of_true ⟨?_, .inr ⟨by rw [hcommit], fun catalog' retry hretry => ?_⟩⟩ (.inr hj)
    · rw [commit_eq ht]
      have hitems := Dict.items_set_of_notMem (Dict.get?_eq_none_iff.1 hkey)
      have hnew := commitEvents_commandEvents setting.contract command hadmitted
        (commitEvents k setting.contract command effects).length
      rw [take_length, ← length_map (f := (·.eventId)), take_length] at hnew
      rw [Kernel.ExactlyOnce, commandEvents_append (k := k) rfl, hnew, h]
      show _ = List.flatMap _ (k.state.receipts.set command.idempotencyKey
        (commitReceipt k setting.contract command effects)).items
      rw [hitems, flatMap_append, flatMap_singleton]
      rfl
    · refine ⟨.ok (some (duplicateReceipt retry
        (commitReceipt k setting.contract command effects))), ?_⟩
      have hheld : (k.commit setting.contract command effects).kernel.state.receipts.get?
          retry.idempotencyKey = some (commitReceipt k setting.contract command effects) := by
        rw [commit_eq ht, hretry]
        exact Dict.get?_set_self _ _ _
      rw [Kernel.handle, hheld]

/-- **One operation, cut anywhere.** Uncut, the restart is the kernel that lives on; effects and
receipts stay paired exactly when the cut does not part them. -/
theorem restore_step (setting : Setting) (hk : d.restore = some k) (hs : k.Sound initial)
    (h : k.ExactlyOnce) (op : Operation) (j : ℕ) :
    ∃ d' k', replay Durable.write d ((k.step setting op).writes.take j) = some d' ∧
      d'.restore = some k' ∧ k'.Sound initial ∧
      ((k.step setting op).writes.length ≤ j → k' = (k.step setting op).kernel) ∧
      (k'.ExactlyOnce ∧ Settled setting k k' op ↔ SafeCut setting k op j) := by
  obtain ⟨answer, hstep⟩ | ⟨catalog, command, code, message, rfl, hstep⟩ |
    ⟨catalog, command, effects, rfl, haccepts, heval, hstep⟩ |
    ⟨actor, bodies, hrecorded, hstep⟩ := step_cases k setting op
  · refine ⟨d, k, by rw [hstep, take_nil, replay_nil], hk, hs, fun _ => by rw [hstep],
      iff_of_true ⟨h, settled_of_events rfl⟩ (safeCut_of_events (by rw [hstep]) j)⟩
  · obtain ⟨d', k', hd', hk', hs', hlive, hreceipts, hevents⟩ :=
      restore_reject command code message hk hs j
    have hsame : (k.reject command code message).kernel.events = k.events := by
      rw [Kernel.reject]
      split <;> rfl
    have honce := exactlyOnce_of_same hevents hreceipts h
    rw [hstep]
    exact ⟨d', k', hd', hk', hs', hlive, iff_of_true ⟨honce, settled_of_events hevents⟩
      (safeCut_of_events (by rw [hstep, hsame]) j)⟩
  · have hadmitted := (yields_evaluate effects heval).admitted
    obtain ⟨d', k', hd', hk', hs', hlive, hcut⟩ :=
      restore_commit setting.contract hk hs haccepts.1 hadmitted j
    obtain ⟨t, ht, -⟩ := commit_applies setting.contract command hs hadmitted
    rw [hstep]
    exact ⟨d', k', hd', hk', hs', hlive, commit_paired h haccepts.1 hadmitted hstep ht hcut⟩
  · obtain ⟨d', k', hd', hk', hs', hlive, hreceipts, i, hevents⟩ :=
      restore_record setting.contract actor hk hs hrecorded.trusted j
    have hes : ∀ e ∈ (recordEvents k setting.contract actor bodies).take i,
        e.body.fromCommand = false := by
      intro e he
      obtain ⟨p, hp, -, hbody, -⟩ := mem_newEvents (mem_of_mem_take he)
      exact hbody ▸ (hrecorded.trusted p hp).1
    have honce := exactlyOnce_of_trusted hevents hes hreceipts h
    rw [hstep]
    refine ⟨d', k', hd', hk', hs', hlive, ?_⟩
    cases op with
    | handle catalog command => exact absurd rfl (hrecorded.ne_handle catalog command)
    | _ => exact iff_of_true ⟨honce, trivial⟩ trivial

end ExactlyOnce

/-! ## Runs with crashes -/

/-- What is on disk when a run begins. -/
def Durable.fresh (initial : State) : Durable := ⟨initial, [], ∅⟩

/-- The writes of an operation on the kernel that a restart finds. -/
def emits (setting : Setting) (d : Durable) (op : Operation) : List Write :=
  match d.restore with
  | some k => (k.step setting op).writes
  | none => []

/-- The operation may stop there. -/
def SafeCuts (setting : Setting) (d : Durable) (op : Operation) (j : ℕ) : Prop :=
  ∀ k, d.restore = some k → SafeCut setting k op j

/-- **Exactly once.** In every run whose crashes part no command's events from its receipt, the
restarted kernel has the effects of exactly the commands whose receipts it holds. After one more
operation, cut anywhere, this is so, and a retry applies nothing twice, if and only if that cut
parts no events from their receipt either. -/
theorem crash_recovery_exactly_once (setting : Setting) (criteria : Dict String Criterion)
    (artifacts : Dict String Artifact) {log : List Write}
    (h : Reaches Durable.write (.fresh (initialState setting.contract criteria artifacts))
      (emits setting) (SafeCuts setting) log) :
    ∃ d k, replay Durable.write (.fresh (initialState setting.contract criteria artifacts)) log =
        some d ∧
      d.restore = some k ∧ k.Sound (initialState setting.contract criteria artifacts) ∧
      k.ExactlyOnce ∧
      ∀ op j, ∃ d' k', replay Durable.write d ((k.step setting op).writes.take j) = some d' ∧
        d'.restore = some k' ∧ k'.Sound (initialState setting.contract criteria artifacts) ∧
        ((k.step setting op).writes.length ≤ j → k' = (k.step setting op).kernel) ∧
        (k'.ExactlyOnce ∧ Settled setting k k' op ↔ SafeCut setting k op j) := by
  obtain ⟨d, hd, k, hk, hs, honce⟩ := h.replays (P := fun d => ∃ k, d.restore = some k ∧
      k.Sound (initialState setting.contract criteria artifacts) ∧ k.ExactlyOnce)
    ⟨_, rfl, ⟨rfl, rfl, rfl⟩, rfl⟩ fun d op j ⟨k, hk, hs, honce⟩ hcut => by
    obtain ⟨d', k', hd', hk', hs', -, hiff⟩ := restore_step setting hk hs honce op j
    have hemits : emits setting d op = (k.step setting op).writes := by rw [emits, hk]
    exact ⟨d', by rw [hemits, hd'], k', hk', hs', (hiff.2 (hcut k hk)).1⟩
  exact ⟨d, k, hd, hk, hs, honce, fun op j => restore_step setting hk hs honce op j⟩

section Example

def exampleSetting : Setting where
  contract := ⟨"run", "objective", ["work"], [], ⟨2, 4, none, none⟩⟩
  validate := fun _ _ => .error "no result"

def exampleState : State := initialState exampleSetting.contract ∅ ∅

def exampleTask (id : String) : Json :=
  Json.ofMembers [("id", .str id), ("role", .str "implementer"), ("objective", .str "change"),
    ("details_schema", .str "details/1")]

def exampleCommand (type : CommandType) (payload : Json) (revision : ℕ) : CommandEnvelope where
  commandId := "command-1"
  runId := "run"
  type := type
  actor := ⟨"coordinator", .runCoordinator, none⟩
  expectedRevision := revision
  idempotencyKey := "key-1"
  payload := payload

/-- A dispatch of two tasks. -/
def twoTasks : Operation :=
  .handle ⟨∅, ∅⟩ (exampleCommand .taskDispatch
    (Json.ofMembers [("tasks", .arr [exampleTask "build", exampleTask "test"])]) 0)

def twoTasksLog : List Write :=
  [] ++ (emits exampleSetting (.fresh exampleState) twoTasks).take 4

theorem reaches_twoTasksLog : Reaches Durable.write (.fresh exampleState) (emits exampleSetting)
    (SafeCuts exampleSetting) twoTasksLog := by
  refine .append twoTasks 4 .nil rfl fun k hk => ?_
  cases hk
  exact .inr (by decide +kernel)

theorem crash_recovery_exactly_once_twoTasksLog :
    ∃ d k, replay Durable.write (.fresh exampleState) twoTasksLog = some d ∧
      d.restore = some k ∧ k.Sound exampleState ∧ k.ExactlyOnce ∧
      ∀ op j, ∃ d' k', replay Durable.write d ((k.step exampleSetting op).writes.take j) = some d' ∧
        d'.restore = some k' ∧ k'.Sound exampleState ∧
        ((k.step exampleSetting op).writes.length ≤ j →
          k' = (k.step exampleSetting op).kernel) ∧
        (k'.ExactlyOnce ∧ Settled exampleSetting k k' op ↔ SafeCut exampleSetting k op j) :=
  crash_recovery_exactly_once exampleSetting ∅ ∅ reaches_twoTasksLog

/-! ## A cut that parts effects from their receipt -/

def retryRequest (revision : ℕ) : CommandEnvelope :=
  exampleCommand .retryRequest (Json.ofMembers [("reason", .str "flaky")]) revision

/-- The first write of an operation on a new run. -/
def firstWrite (op : Operation) : List Write :=
  (emits exampleSetting (.fresh exampleState) op).take 1

def restoredFrom (log : List Write) : Option Kernel :=
  (replay Durable.write (.fresh exampleState) log).bind Durable.restore

instance (k : Kernel) : Decidable k.ExactlyOnce :=
  inferInstanceAs (Decidable (k.commandEvents = k.receiptEvents))

/-- Behind its first write a dispatch of two tasks is restored with one of them and no receipt, and
a retry request is restored without its receipt, so that a retry records it twice. -/
theorem crash_parts_effects_from_receipt :
    (∃ k, restoredFrom (firstWrite twoTasks) = some k ∧ k.state.tasks.keys = ["build"] ∧
      k.state.receipts.keys = [] ∧ ¬ k.ExactlyOnce) ∧
    (∃ k, restoredFrom (firstWrite (.handle ⟨∅, ∅⟩ (retryRequest 0))) = some k ∧
      k.state.anomalies.length = 1 ∧ k.state.receipts.keys = [] ∧ ¬ k.ExactlyOnce ∧
      (k.handle exampleSetting.contract ⟨∅, ∅⟩ (retryRequest 1)).kernel.state.anomalies.length = 2) ∧
    ∀ op, Reaches Durable.write (.fresh exampleState) (emits exampleSetting) (fun _ _ _ => True)
      (firstWrite op) := by
  refine ⟨⟨_, rfl, by decide +kernel, by decide +kernel, by decide +kernel⟩,
    ⟨_, rfl, by decide +kernel, by decide +kernel, by decide +kernel, by decide +kernel⟩,
    fun op => .append op 1 .nil rfl trivial⟩

end Example

end HarnessLabs.Controller
