import HarnessLabs.PlanGraph.BlockArtifact

/-!
# The frontier of a retry

Before the unattended driver resumes a blocked attempt it checks the frontier that the escalation
declares against the attempt's events: a node that the events name as failed, and that the
escalation has as failed or blocked, is appended. The events are read line by line up to the first
line that is no JSON text.

* `readEvents_writeLines` — what is read are the events in front of the first one with a boundary.
* `Attempt` — the journal of an attempt, and the statuses that its steps lead to.
* `retriesAll_iff` — **every terminal node is retried exactly when each one that the escalation
  leaves out has a failure event that is read, and the escalation names no node that succeeded.**
-/

namespace HarnessLabs.PlanGraph

open List Option Lines

/-! ## Reading -/

/-- The loop of `_read_events`. -/
def readUntil : List (List Char) → List Json
  | [] => []
  | line :: rest =>
    if line.all (·.isWhitespace) then readUntil rest
    else
      match Json.loads line with
      | none => []
      | some event => if event.asMembers?.isSome then event :: readUntil rest else readUntil rest

/-- `_read_events`. -/
def readEvents (text : List Char) : List Json := readUntil (splitlines text)

/-- The event has no line boundary that its line does not escape. -/
def legible (event : Json) : Bool := (chars event).all fun c => !isWideBoundary c

theorem legible_iff {event : Json} : legible event = true ↔ Unbroken event := by
  simp [legible, Unbroken]

/-- **A line boundary in an event ends the reading in front of it.** -/
theorem readEvents_writeLines {events : List Json} (h : ∀ e ∈ events, IsRecord e) :
    readEvents (writeLines events) = events.takeWhile legible := by
  rw [readEvents, splitlines, translateNewlines_eq_self (carriageReturn_notMem events)]
  have hnonblank {line : List Char} (hline : '\x7b' ∈ line) :
      line.all (·.isWhitespace) = false :=
    all_eq_false.2 ⟨_, hline, by decide⟩
  induction events with
  | nil => rfl
  | cons event events ih =>
    obtain ⟨hrecord, hrest⟩ := forall_mem_cons.1 h
    by_cases hv : Unbroken event
    · have hload : Json.loads (Json.dumps event) = some event := by
        simpa using Json.loads_dumps hrecord.1 (forall_mem_nil _)
      obtain ⟨-, members, rfl⟩ := hrecord
      rw [splitBreaks_of_unbroken hv, takeWhile_cons_of_pos (legible_iff.2 hv), readUntil,
        hnonblank (by simp [Json.dumps]), hload, ← ih hrest]
      rfl
    · obtain ⟨part, rest, hsplit, hpart, hbrace⟩ := splitBreaks_of_broken hrecord hv events
      rw [hsplit, readUntil, hnonblank hbrace, hpart,
        takeWhile_cons_of_neg fun hlegible => hv (legible_iff.1 hlegible)]
      rfl

/-! ## The reconciliation -/

/-- The node that an event names as failed. -/
def failedNode? (event : Json) : Option String :=
  if event.get? "event_type" = some (.str "plan_node_failed") then
    (((event.get? "payload").bind (·.get? "plan_node_id")).bind Json.asStr?).filter (· ≠ "")
  else none

/-- `_failed_event_nodes`: each node once, where it is named first. -/
def failedEventNodes (events : List Json) : List String :=
  (events.filterMap failedNode?).reverse.dedup.reverse

/-- `_TERMINAL_NODE_STATUSES`. -/
def terminalNodeStatuses : List String := ["failed", "blocked"]

structure FrontierReconciliation where
  template : List String
  observed : List String
  frontier : List String
  missingFromTemplate : List String
  missingFromEvents : List String
  recovered : List String

/-- `reconcile_frontier`, of an escalation as it was written. -/
def reconcileFrontier (escalation : EscalationArtifact) (events : List Json) :
    Except String FrontierReconciliation :=
  let template := escalation.retryFrontier.filter (· ≠ "")
  let finalStatus := Dict.ofList (escalation.nodes.map fun d => (d.nodeId, d.status))
  let failedEvents := failedEventNodes events
  let observed := failedEvents.filter fun id =>
    ((finalStatus.get? id).bind Json.asStr?).any (· ∈ terminalNodeStatuses)
  let missingFromTemplate := (observed.filter (· ∉ template)).mergeSort fun a b => a ≤ b
  if template = [] ∧ observed = [] then
    .error "neither the escalation template nor its events name a retry frontier"
  else .ok
    { template, observed, missingFromTemplate
      frontier := template ++ missingFromTemplate
      missingFromEvents := template.filter (· ∉ failedEvents)
      recovered := failedEvents.filter (· ∉ observed) }

/-! ## Attempts -/

/-- What the audit does to a node, with the event that it journals. -/
inductive NodeStep where
  /-- `node_failed`. -/
  | nodeFailed (nodeId : String) (blocked : Bool)
  | transferConflictBlocked (nodeId : String)
  | childRecoveryBlocked (nodeId : String)
  /-- An event of another type, and the status that the node gets, if one. -/
  | other (eventType : String) (update : Option (String × String))
      (plain : eventType ≠ "plan_node_failed")

namespace NodeStep

def update? : NodeStep → Option (String × String)
  | nodeFailed id blocked => some (id, if blocked then "blocked" else "failed")
  | transferConflictBlocked id => some (id, "blocked")
  | childRecoveryBlocked id => some (id, "blocked")
  | other _ update _ => update

/-- The event tells of the step; what else it says is free. -/
def Tells (event : Json) : NodeStep → Prop
  | nodeFailed id _ => event.get? "event_type" = some (.str "plan_node_failed") ∧
      (event.get? "payload").bind (·.get? "plan_node_id") = some (.str id)
  | transferConflictBlocked _ =>
      event.get? "event_type" = some (.str "plan_graph_transfer_conflict_blocked")
  | childRecoveryBlocked _ =>
      event.get? "event_type" = some (.str "plan_graph_child_recovery_blocked")
  | other eventType _ _ => event.get? "event_type" = some (.str eventType)

end NodeStep

/-- The statuses behind the steps. -/
def statusBehind (initial : String → String) (steps : List NodeStep) : String → String :=
  steps.foldl (fun status step =>
    match step.update? with
    | some (id, s) => Function.update status id s
    | none => status) initial

/-- An attempt: its events with the steps that they tell of, the nodes of its checkpoint, and the
block that it ended with. -/
structure Attempt where
  journal : List (Json × NodeStep)
  initial : String → String
  audit : AuditCheckpoint
  context : BlockContext
  budget : Budget.State
  ledger : List Budget.Event
  block : Block
  told : ∀ entry ∈ journal, IsRecord entry.1 ∧ entry.2.Tells entry.1
  named : ∀ id ∈ audit.nodes.keys, id ≠ ""
  follows : ∀ id node, audit.nodes.get? id = some node →
    nodeStatus node = .str (statusBehind initial (journal.map Prod.snd) id)

namespace Attempt

variable (a : Attempt)

def events : List Json := a.journal.map Prod.fst

/-- What `_transition_to_blocked` writes for the attempt. -/
abbrev escalation : EscalationArtifact :=
  .ofBlock a.context a.audit a.budget a.ledger a.block

/-- The frontier that the escalation declares. -/
def declared : List String := a.escalation.retryFrontier.filter (· ≠ "")

/-- What the driver makes of the escalation and the journal. -/
def reconciled : Except String FrontierReconciliation :=
  reconcileFrontier a.escalation (readEvents (writeLines a.events))

/-- The status in which a node ends. -/
def finalStatus (id : String) : Option String :=
  if id ∈ a.audit.nodes.keys then some (statusBehind a.initial (a.journal.map Prod.snd) id)
  else none

def Terminal (id : String) : Prop := ∃ s ∈ terminalNodeStatuses, a.finalStatus id = some s

/-- The node failed through `node_failed`, in front of the first event with a boundary. -/
def ReadAsFailed (id : String) : Prop :=
  ∃ entry ∈ a.journal.takeWhile fun entry => legible entry.1, ∃ blocked,
    entry.2 = .nodeFailed id blocked

/-- What the frontier of a retry should be. -/
structure RetriesAll (frontier : List String) : Prop where
  nodup : frontier.Nodup
  terminal : ∀ id, a.Terminal id → id ∈ frontier
  declared : a.declared <+: frontier
  unfinished : ∀ id ∈ frontier, a.finalStatus id ≠ some "succeeded"

/-- What the attempt left behind for that. -/
structure Retryable : Prop where
  something : a.declared ≠ [] ∨ ∃ id, a.Terminal id
  read : ∀ id, a.Terminal id → id ∉ a.declared → a.ReadAsFailed id
  unfinished : ∀ id ∈ a.declared, a.finalStatus id ≠ some "succeeded"

end Attempt

section Frontier

variable {a : Attempt} {id : String}

theorem Attempt.Terminal.mem_keys (h : a.Terminal id) : id ∈ a.audit.nodes.keys := by
  obtain ⟨s, -, hs⟩ := h
  by_contra hid
  simp [finalStatus, hid] at hs

theorem mem_failedEventNodes (hid : id ∈ a.audit.nodes.keys) :
    id ∈ failedEventNodes (readEvents (writeLines a.events)) ↔ a.ReadAsFailed id := by
  have hrecords : ∀ e ∈ a.events, IsRecord e := by
    intro e he
    obtain ⟨entry, hentry, rfl⟩ := mem_map.1 he
    exact (a.told entry hentry).1
  rw [failedEventNodes, mem_reverse, mem_dedup, mem_reverse, mem_filterMap,
    readEvents_writeLines hrecords, Attempt.events, takeWhile_map]
  constructor
  · rintro ⟨event, hevent, hnode⟩
    obtain ⟨⟨event, step⟩, hentry, rfl⟩ := mem_map.1 hevent
    refine ⟨_, hentry, ?_⟩
    have htells := (a.told _ (takeWhile_subset _ hentry)).2
    cases step with
    | other eventType update plain =>
      simp only [failedNode?, NodeStep.Tells] at hnode htells
      simp [htells, plain] at hnode
    | _ => simp_all [failedNode?, NodeStep.Tells, Json.asStr?]
  · rintro ⟨⟨event, step⟩, hentry, blocked, rfl⟩
    obtain ⟨htype, hnode⟩ := (a.told _ (takeWhile_subset _ hentry)).2
    refine ⟨event, mem_map_of_mem hentry, ?_⟩
    simp [failedNode?, htype, hnode, Json.asStr?, a.named id hid]

/-- The statuses of the escalation are those in which the nodes end. -/
theorem finalStatus_escalation : (Dict.ofList (a.escalation.nodes.map
    fun d => (d.nodeId, d.status))).get? id = (a.finalStatus id).map .str := by
  have hvalues : Dict.ofList (a.audit.nodes.items.map fun p => (p.1, nodeStatus p.2)) =
      a.audit.nodes.mapValues fun _ node => nodeStatus node :=
    Dict.ext (Dict.items_ofList (a.audit.nodes.mapValues fun _ node => nodeStatus node).nodup)
  rw [nodes_ofBlock, List.map_map]
  refine (congrArg (·.get? id) hvalues).trans ?_
  rw [Dict.get?_mapValues, Attempt.finalStatus]
  cases hget : a.audit.nodes.get? id with
  | none => rw [if_neg (Dict.get?_eq_none_iff.1 hget), Option.map_none, Option.map_none]
  | some node =>
    rw [if_pos (Dict.mem_keys_iff.2 ⟨node, hget⟩), Option.map_some, a.follows id node hget]
    rfl

theorem nodup_declared : a.declared.Nodup := by
  have hnodes : (a.escalation.nodes.map (·.nodeId)).Nodup := by
    rw [entries_ofBlock]
    exact a.audit.nodes.nodup_keys
  exact (retryFrontierOf_nodup hnodes).filter _

/-- The frontier is that of the escalation with the terminal nodes that are read as failed. -/
theorem frontier_reconciled (a : Attempt) : ∃ observed : List String, observed.Nodup ∧
    (∀ id, id ∈ observed ↔ a.Terminal id ∧ a.ReadAsFailed id) ∧
    a.reconciled.map (·.frontier) =
      if a.declared = [] ∧ observed = [] then
        .error "neither the escalation template nor its events name a retry frontier"
      else .ok (a.declared ++ (observed.filter (· ∉ a.declared)).mergeSort fun a b => a ≤ b) := by
  refine ⟨(failedEventNodes (readEvents (writeLines a.events))).filter fun id =>
    (((a.finalStatus id).map Json.str).bind (·.asStr?)).any (· ∈ terminalNodeStatuses),
    (nodup_reverse.2 (nodup_dedup _)).filter _, fun id => ?_, ?_⟩
  · have hterminal : (((a.finalStatus id).map Json.str).bind (·.asStr?)).any
        (· ∈ terminalNodeStatuses) = true ↔ a.Terminal id := by
      rw [Attempt.Terminal]
      cases a.finalStatus id <;> simp [Json.asStr?]
    rw [mem_filter, hterminal, and_comm]
    exact and_congr_right fun h => mem_failedEventNodes h.mem_keys
  · simp only [Attempt.reconciled, reconcileFrontier, finalStatus_escalation, Attempt.declared]
    exact apply_ite ..

/-- A frontier that retries all names what the escalation leaves out, from the events. -/
theorem Attempt.RetriesAll.retryable {r : FrontierReconciliation} (hr : a.reconciled = .ok r)
    (h : a.RetriesAll r.frontier) : a.Retryable := by
  obtain ⟨observed, -, hobserved, hfrontier⟩ := frontier_reconciled a
  rw [hr] at hfrontier
  split_ifs at hfrontier with hnone
  · cases hfrontier
  have heq : r.frontier = _ := Except.ok.inj hfrontier
  refine ⟨?_, fun id hid hleft => ?_, fun id hid => h.unfinished id ?_⟩
  · by_contra! hnothing
    obtain ⟨id, hid⟩ := exists_mem_of_ne_nil observed fun ho => hnone ⟨hnothing.1, ho⟩
    exact hnothing.2 id ((hobserved id).1 hid).1
  · have hin := h.terminal id hid
    rw [heq] at hin
    have hadded := (mem_append.1 hin).resolve_left hleft
    exact ((hobserved id).1 (mem_filter.1 (mem_mergeSort.1 hadded)).1).2
  · rw [heq]
    exact mem_append_left _ hid

/-- What the escalation leaves out and the events name is appended. -/
theorem Attempt.Retryable.retriesAll (h : a.Retryable) :
    ∃ r, a.reconciled = .ok r ∧ a.RetriesAll r.frontier := by
  obtain ⟨observed, hnodup, hobserved, hfrontier⟩ := frontier_reconciled a
  have hread {id : String} (hid : a.Terminal id) (hleft : id ∉ a.declared) : id ∈ observed :=
    (hobserved id).2 ⟨hid, h.read id hid hleft⟩
  have hsome : ¬ (a.declared = [] ∧ observed = []) := by
    rintro ⟨hempty, rfl⟩
    obtain ⟨id, hid⟩ := h.something.resolve_left (not_not.2 hempty)
    exact not_mem_nil (hread hid (hempty ▸ not_mem_nil))
  rw [if_neg hsome] at hfrontier
  cases hr : a.reconciled with
  | error e =>
    rw [hr] at hfrontier
    cases hfrontier
  | ok r =>
    rw [hr] at hfrontier
    refine ⟨r, rfl, ?_⟩
    rw [show r.frontier = _ from Except.ok.inj hfrontier]
    refine ⟨?_, fun id hid => ?_, prefix_append .., fun id hid => ?_⟩
    · refine nodup_declared.append ((mergeSort_perm _ _).nodup_iff.2 (hnodup.filter _)) ?_
      intro id hid hother
      simp [hid] at hother
    · by_cases hin : id ∈ a.declared
      · exact mem_append_left _ hin
      · simp [hread hid hin, hin]
    · rcases mem_append.1 hid with hin | hin
      · exact h.unfinished id hin
      · obtain ⟨s, hs, hfinal⟩ := ((hobserved id).1 (mem_filter.1 (mem_mergeSort.1 hin)).1).1
        rw [hfinal]
        rintro ⟨⟩
        exact absurd hs (by decide)

end Frontier

/-! ## A sibling that a transfer conflict blocks -/

/-- The first failure blocks the attempt. -/
def siblingBlock : Block :=
  { conflictBlock with reason := "FeatureRun reported failed", evidenceRef := none }

/-- `a` fails, and a transfer conflict blocks `b`. -/
def conflictedSibling : Attempt where
  journal := [(.obj [("event_type", .str "plan_node_failed"),
      ("payload", .obj [("plan_node_id", .str "a")])], .nodeFailed "a" false),
    (.obj [("event_type", .str "plan_graph_transfer_conflict_blocked")],
      .transferConflictBlocked "b")]
  initial := fun _ => "running"
  audit :=
    { nodes := (Dict.empty.set "a" (.obj [("status", .str "failed")])).set "b"
        (.obj [("status", .str "blocked")])
      objects := ((Dict.All.empty fun _ (node : Json) => node.asMembers?.isSome = true).set
        rfl).set rfl }
  context := exampleContext
  budget := {}
  ledger := []
  block := siblingBlock
  told := by
    simp [IsRecord, NodeStep.Tells, Json.Keyed, Json.KeyedMembers, Json.get?]
    exact String.lt_iff_ltb.1 (String.lt_iff_toList_lt.2 (by decide))
  named := by decide
  follows := by
    intro id node hget
    rw [Dict.get?_set, Dict.get?_set] at hget
    split_ifs at hget with hb ha
    · cases hget
      subst hb
      rfl
    · cases hget
      subst ha
      rfl
    · cases hget

end HarnessLabs.PlanGraph
