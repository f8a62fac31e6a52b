import HarnessLabs.PlanGraph.Disclosure

/-!
# The artifact of a block

When an attempt ends blocked, one artifact tells the operator and the successor about it: what the
block refers to, every node with its own outcome, and the nodes to retry. It is put together in one
loop over the nodes of the checkpoint, and the loop keeps the reference of the node it is at under
the same name as the reference of the block.

* `EscalationArtifact.ofBlock` — the artifact that `_transition_to_blocked` writes.
* `Faithful` — the artifact says what the audit and the caller say.
* `detailLoop_ref` — the reference behind the loop is that of the last node.
* `artifact_faithful_iff` — **the artifact is faithful exactly when the last node's reference is the
  block's and the nodes list what the audit says that they owe.**
-/

namespace HarnessLabs.PlanGraph

/-! ## What is read -/

/-- The part of the audit's state that the artifact reads. Every node is an object. -/
structure AuditCheckpoint where
  nodes : Dict String Json
  findingObligations : Dict String Json := ∅
  objects : nodes.All fun _ node => node.asMembers?.isSome

/-- What the audit holds for a node. -/
def AuditCheckpoint.held (audit : AuditCheckpoint) (id : String) : Json :=
  audit.findingObligations.getD id (.arr [])

/-- A disposition that leads the frontier names the failed node in it, and every node once. -/
def Led (failedRunId : Option String) (disposition : Option EscalationDisposition) : Prop :=
  ∀ d, disposition = some d → d.retryFrontierPrefix ≠ [] →
    d.retryFrontierPrefix.Nodup ∧ ∀ id, failedRunId = some id → id ∈ d.retryFrontierPrefix

/-- What a caller passes for a block. -/
structure Block where
  failedRunId : Option String
  reason : String
  evidence : Json := .null
  evidenceRef : Option String := none
  disposition : Option EscalationDisposition := none
  named : failedRunId ≠ some ""
  led : Led failedRunId disposition

/-- A reference as the artifact has it. -/
def Block.ref (block : Block) : Json := (block.evidenceRef.map Json.str).getD .null

/-- What the controller is set up with. -/
structure BlockContext where
  graphRunId : String
  logicalGraphId : String
  predecessorAttemptId : Option String
  continueIndependentAfterBlock : Bool
  lineageId : String
  acceptanceCriteria : Dict String String

/-! ## Nodes -/

def nodeStatus (node : Json) : Json := (node.get? "status").getD .null

/-- The sealed candidate, or the verified one that a blocked transfer retains. -/
def nodeCandidate (node : Json) : Json :=
  match (node.get? "candidate_commit").filter truthy with
  | some candidate => candidate
  | none =>
    match ((node.get? "candidate_verified_pending_transfer").bind (·.get? "candidate_commit")).bind
        Json.asStr? with
    | some candidate => .str candidate
    | none => .null

def nodeEvidenceRef (node : Json) : Json :=
  ((node.get? "evidence").bind (·.get? "evidence_ref")).getD .null

def nodeObligations (node : Json) : Json := (node.get? "finding_obligations").getD (.arr [])

def nodeScreening (node : Json) : Json :=
  ((node.get? "scope_screening").filter (·.asMembers?.isSome)).getD (.obj [])

/-- An entry of `nodes`. -/
structure NodeDetail where
  nodeId : String
  status : Json
  reason : Option String
  tier : String := "tier_2"
  classification : String
  candidateCommit : Json
  evidenceRef : Json
  openObligations : Json
  scopeScreening : Json

def classificationText : Budget.Classification → String
  | .product => "product"
  | .indeterminate => "indeterminate"
  | .infrastructureTransient => "infrastructure_transient"
  | .harnessOrConfiguration => "harness_or_configuration"
  | .policyViolation => "policy_violation"
  | .structuralDecision => "structural_decision"

/-- The classes that the ledger has charged or observed, in the order of their texts. -/
def observedClasses (account : Budget.NodeAccount) : List String :=
  ([.harnessOrConfiguration, .indeterminate, .infrastructureTransient, .policyViolation, .product,
    .structuralDecision].filter fun c => 0 < account.counters c + account.evidenceCounters c).map
    classificationText

/-- The class that the evidence of the failed node names. -/
def namedClass (block : Block) (id : String) : Option Budget.Classification :=
  if block.failedRunId = some id then
    ((block.evidence.get? "classification").bind Json.asStr?).bind Budget.Classification.ofString?
  else none

def nodeClassification (block : Block) (budget : Budget.State) (id : String) : String :=
  match (namedClass block id).filter (· ≠ .indeterminate) with
  | some c => classificationText c
  | none => (observedClasses (budget.node id)).getLast?.getD "indeterminate"

def nodeDetail (block : Block) (budget : Budget.State) (id : String) (node evidenceRef : Json) :
    NodeDetail where
  nodeId := id
  status := nodeStatus node
  reason := if block.failedRunId = some id then some block.reason else none
  classification := nodeClassification block budget id
  candidateCommit := nodeCandidate node
  evidenceRef := evidenceRef
  openObligations := nodeObligations node
  scopeScreening := nodeScreening node

/-- The loop over the nodes. The first result is the variable `evidence_ref` behind it. -/
def detailLoop (block : Block) (budget : Budget.State) :
    Json → List NodeDetail → List (String × Json) → Json × List NodeDetail
  | evidenceRef, details, [] => (evidenceRef, details)
  | _, details, (id, node) :: rest =>
    let evidenceRef := nodeEvidenceRef node
    detailLoop block budget evidenceRef (details ++ [nodeDetail block budget id node evidenceRef])
      rest

/-! ## The artifact -/

/-- `_status_flags`. -/
structure StatusFlags where
  complete : Bool
  success : Bool
  resumable : Bool
  deviated : Bool

/-- The tokens that completed launches report, by node. -/
def tokensByNode (budget : Budget.State) (events : List Budget.Event) : Dict String ℕ :=
  events.foldl (fun tokens event =>
    match event with
    | .completed reservation _ (some total) =>
      match budget.reservations.get? reservation with
      | some r => tokens.set r.nodeId (tokens.getD r.nodeId 0 + total)
      | none => tokens
    | _ => tokens) ∅

/-- `escalation.json`. -/
structure EscalationArtifact where
  graphRunId : String
  logicalGraphId : String
  predecessorAttemptId : Option String
  blockedNodeId : Option String
  reason : String
  evidenceRef : Json
  statusFlags : StatusFlags
  nodes : List NodeDetail
  lineageId : String
  budgetNodes : Dict String (Budget.NodeAccount × ℕ)
  findingKeys : String → ℕ
  significanceGuidance : Dict String String
  requestedAction : String
  candidateActions : List String
  retryFrontier : List String
  escalations : List EscalatedFinding

/-- The nodes that stopped, of those that are not named yet. -/
def otherStopped (details : List NodeDetail) (named : List String) : List String :=
  ((details.filter fun d => (d.status = .str "failed" ∨ d.status = .str "blocked") ∧
    d.nodeId ∉ named).map (·.nodeId)).mergeSort fun a b => a ≤ b

def retryFrontierOf (ctx : BlockContext) (block : Block) (details : List NodeDetail) :
    List String :=
  match (block.disposition.map (·.retryFrontierPrefix)).getD [] with
  | [] =>
    block.failedRunId.toList ++
      if ctx.continueIndependentAfterBlock then otherStopped details block.failedRunId.toList
      else []
  | led => led

/-- `_transition_to_blocked`, up to the artifact that it writes. -/
def EscalationArtifact.ofBlock (ctx : BlockContext) (audit : AuditCheckpoint) (budget : Budget.State)
    (events : List Budget.Event) (block : Block) : EscalationArtifact :=
  let tokens := tokensByNode budget events
  let loop := detailLoop block budget block.ref [] audit.nodes.items
  { graphRunId := ctx.graphRunId
    logicalGraphId := ctx.logicalGraphId
    predecessorAttemptId := ctx.predecessorAttemptId
    blockedNodeId := block.failedRunId
    reason := block.reason
    evidenceRef := loop.1
    statusFlags := ⟨true, false, true, true⟩
    nodes := loop.2
    lineageId := ctx.lineageId
    budgetNodes := budget.nodes.mapValues fun id account => (account, tokens.getD id 0)
    findingKeys := budget.findingKeys
    significanceGuidance := ctx.acceptanceCriteria
    requestedAction :=
      if (block.disposition.bind (·.unrouted)).isSome then "assign_finding_owner"
      else "operator_review"
    candidateActions :=
      match block.disposition.bind (·.unrouted) with
      | some (_, owners) => owners
      | none => ["resume", "extend_budget", "reset_budget"]
    retryFrontier := retryFrontierOf ctx block loop.2
    escalations := (block.disposition.map (·.escalationsPayload)).getD [] }

/-- The artifact says what the audit and the caller say. -/
structure Faithful (audit : AuditCheckpoint) (block : Block) (a : EscalationArtifact) : Prop where
  evidenceRef : a.evidenceRef = block.ref
  entries : a.nodes.map (·.nodeId) = audit.nodes.keys
  own : ∀ d ∈ a.nodes, ∃ node, audit.nodes.get? d.nodeId = some node ∧
    d.status = nodeStatus node ∧ d.candidateCommit = nodeCandidate node ∧
    d.evidenceRef = nodeEvidenceRef node
  obligations : ∀ d ∈ a.nodes, d.openObligations = audit.held d.nodeId
  frontier_nodup : a.retryFrontier.Nodup
  frontier_failed : ∀ id, block.failedRunId = some id → id ∈ a.retryFrontier

section Artifact

variable {ctx : BlockContext} {audit : AuditCheckpoint} {budget : Budget.State}
  {events : List Budget.Event} {block : Block}

/-! ## The loop -/

/-- The entries of the loop are those of the nodes, each with its own reference. -/
theorem detailLoop_details (ref : Json) (details : List NodeDetail) (items : List (String × Json)) :
    (detailLoop block budget ref details items).2 = details ++ items.map fun p =>
      nodeDetail block budget p.1 p.2 (nodeEvidenceRef p.2) := by
  induction items generalizing ref details with
  | nil => simp [detailLoop]
  | cons p rest ih =>
    rw [detailLoop, ih, List.map_cons, List.append_assoc]
    rfl

/-- **Behind the loop the reference is that of the last node.** -/
theorem detailLoop_ref (ref : Json) (details : List NodeDetail) (items : List (String × Json)) :
    (detailLoop block budget ref details items).1 =
      (items.getLast?.map fun p => nodeEvidenceRef p.2).getD ref := by
  induction items generalizing ref details with
  | nil => rfl
  | cons p rest ih =>
    rw [detailLoop, ih, List.getLast?_cons]
    cases rest.getLast? with
    | none => rfl
    | some last => rfl

theorem nodes_ofBlock : (EscalationArtifact.ofBlock ctx audit budget events block).nodes =
    audit.nodes.items.map fun p => nodeDetail block budget p.1 p.2 (nodeEvidenceRef p.2) := by
  exact (detailLoop_details block.ref [] audit.nodes.items).trans (List.nil_append _)

theorem evidenceRef_ofBlock :
    (EscalationArtifact.ofBlock ctx audit budget events block).evidenceRef =
      (audit.nodes.items.getLast?.map fun p => nodeEvidenceRef p.2).getD block.ref := by
  exact detailLoop_ref block.ref [] audit.nodes.items

theorem mem_nodes_ofBlock {d : NodeDetail} :
    d ∈ (EscalationArtifact.ofBlock ctx audit budget events block).nodes ↔
      ∃ id node, audit.nodes.get? id = some node ∧
        d = nodeDetail block budget id node (nodeEvidenceRef node) := by
  rw [nodes_ofBlock, List.mem_map]
  constructor
  · intro ⟨⟨id, node⟩, hmem, heq⟩
    exact ⟨id, node, Dict.get?_eq_some_iff.2 hmem, heq.symm⟩
  · intro ⟨id, node, hget, heq⟩
    exact ⟨(id, node), Dict.get?_eq_some_iff.1 hget, heq.symm⟩

theorem entries_ofBlock :
    (EscalationArtifact.ofBlock ctx audit budget events block).nodes.map (·.nodeId) =
      audit.nodes.keys := by
  rw [nodes_ofBlock, List.map_map]
  rfl

/-! ## The frontier -/

variable {details : List NodeDetail}

theorem nodup_otherStopped (h : (details.map (·.nodeId)).Nodup) (named : List String) :
    (otherStopped details named).Nodup := by
  rw [otherStopped, (List.mergeSort_perm _ _).nodup_iff]
  exact h.sublist (List.filter_sublist.map _)

theorem notMem_otherStopped {named : List String} {id : String}
    (h : id ∈ otherStopped details named) : id ∉ named := by
  rw [otherStopped, List.mem_mergeSort] at h
  obtain ⟨d, hd, rfl⟩ := List.mem_map.1 h
  exact (of_decide_eq_true (List.mem_filter.1 hd).2).2

theorem retryFrontierOf_nodup (h : (details.map (·.nodeId)).Nodup) :
    (retryFrontierOf ctx block details).Nodup := by
  rw [retryFrontierOf]
  cases hled : (block.disposition.map (·.retryFrontierPrefix)).getD [] with
  | nil =>
    have hone : block.failedRunId.toList.Nodup := by
      cases block.failedRunId with
      | none => exact List.nodup_nil
      | some id => exact List.nodup_singleton id
    split_ifs
    · refine List.Nodup.append hone (nodup_otherStopped h _) ?_
      intro id hid hother
      exact notMem_otherStopped hother hid
    · rwa [List.append_nil]
  | cons first rest =>
    cases hd : block.disposition with
    | none =>
      rw [hd] at hled
      exact nomatch hled
    | some d =>
      have heq : d.retryFrontierPrefix = first :: rest := by simpa [hd] using hled
      have hnodup := (block.led d hd (by simp [heq])).1
      rwa [heq] at hnodup

theorem failed_mem_retryFrontierOf {id : String} (h : block.failedRunId = some id) :
    id ∈ retryFrontierOf ctx block details := by
  rw [retryFrontierOf]
  cases hled : (block.disposition.map (·.retryFrontierPrefix)).getD [] with
  | nil => simp [h]
  | cons first rest =>
    cases hd : block.disposition with
    | none =>
      rw [hd] at hled
      exact nomatch hled
    | some d =>
      have heq : d.retryFrontierPrefix = first :: rest := by simpa [hd] using hled
      have hmem := (block.led d hd (by simp [heq])).2 id h
      rwa [heq] at hmem

/-! ## Faithfulness -/

/-- The node that the loop comes to last has the reference that the caller passed. -/
def RefKept (audit : AuditCheckpoint) (block : Block) : Prop :=
  ∀ p, audit.nodes.items.getLast? = some p → nodeEvidenceRef p.2 = block.ref

/-- Every node lists what the audit holds for it. -/
def ObligationsListed (audit : AuditCheckpoint) : Prop :=
  ∀ id node, audit.nodes.get? id = some node → nodeObligations node = audit.held id

end Artifact

/-! ## A sibling behind the blocked node -/

theorem led_none (failedRunId : Option String) : Led failedRunId none := by
  intro d hd
  exact nomatch hd

/-- The candidate of `a` conflicts with what is owed while `b` waits and owes a finding. -/
def conflictedAudit : AuditCheckpoint where
  nodes := (Dict.empty.set "a" (.obj [("evidence", .obj [("evidence_ref", .str "artifact:a")]),
    ("status", .str "blocked")])).set "b" (.obj [("status", .str "queued")])
  findingObligations := Dict.empty.set "b" (.arr [.obj [("key", .str "F1")]])
  objects := ((Dict.All.empty fun _ (node : Json) => node.asMembers?.isSome = true).set rfl).set rfl

def conflictBlock : Block where
  failedRunId := some "a"
  reason := "duplicate transferred finding F1 for node b"
  evidenceRef := some "artifact:a"
  named := by decide
  led := led_none _

def exampleContext : BlockContext := ⟨"g", "g", none, false, "lineage", ∅⟩

end HarnessLabs.PlanGraph
