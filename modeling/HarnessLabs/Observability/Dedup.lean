import HarnessLabs.Lib.FirstWins
import HarnessLabs.Lib.Json

/-!
# Echoes of one incident

The miner collapses what one run says several times: an echo on another level, a reason that
quotes another signature, and lifecycle records next to anything else.

* `exists_minimal` — below every signature stands one that quotes nothing.
* `losesNoIncident_iff` — **no incident is lost exactly if whatever the first rule drops still has
  a representative that the later rules keep.**
-/

namespace HarnessLabs.Observability

open List

/-! ## The rules -/

/-- Which rung of the cause ladder made the record. -/
inductive Shape where
  | cause
  | reason
  | lifecycle
deriving DecidableEq

/-- `rest` is what the miner writes and does not read again. -/
structure Observation where
  runId : String
  nodeId : Option String
  phase : String
  signature : String
  firstEventSequence : ℤ
  rest : Json := .null
deriving DecidableEq

structure Tagged where
  shape : Shape
  source : String
  observation : Observation
deriving DecidableEq

namespace Tagged

def signature (t : Tagged) : String := t.observation.signature

def key (t : Tagged) : String × Option String := (t.signature, t.observation.nodeId)

/-- Not lifecycle-shaped. -/
def substantive (t : Tagged) : Bool := t.shape != .lifecycle

def earlier (t u : Tagged) : Prop :=
  t.observation.firstEventSequence < u.observation.firstEventSequence ∨
    t.observation.firstEventSequence = u.observation.firstEventSequence ∧
      t.signature ≤ u.signature

instance : DecidableRel earlier := fun _ _ => inferInstanceAs (Decidable (_ ∨ _ ∧ _))

end Tagged

/-- `other in signature`, for another signature. -/
def quotes (signature other : String) : Prop :=
  other ≠ signature ∧ other.toList <:+: signature.toList

instance : DecidableRel quotes := fun _ _ => inferInstanceAs (Decidable (_ ∧ _))

def ordered (tagged : List Tagged) : List Tagged := tagged.insertionSort Tagged.earlier

/-- The loop of rule (a), with `first_source`. -/
def dropEchoes (firstSource : Dict (String × Option String) String) : List Tagged → List Tagged
  | [] => []
  | t :: rest =>
    let firstSource := FirstWins.keep (fun _ => true) Tagged.key Tagged.source firstSource t
    if firstSource.get? t.key = some t.source then t :: dropEchoes firstSource rest
    else dropEchoes firstSource rest

def unique (tagged : List Tagged) : List Tagged := dropEchoes ∅ (ordered tagged)

def substantive (tagged : List Tagged) : List Tagged := (unique tagged).filter (·.substantive)

/-- Rule (b) drops it. -/
def restates (tagged : List Tagged) (t : Tagged) : Bool :=
  t.shape = .reason && (substantive tagged).any fun u => quotes t.signature u.signature

/-- What the three rules leave, still tagged. -/
def survivors (tagged : List Tagged) : List Tagged :=
  match (substantive tagged).filter fun t => !restates tagged t with
  | [] => ((unique tagged).filter fun t => t.shape = .lifecycle).take 1
  | kept => kept

/-- `_dedup_run_observations`. -/
def dedupRunObservations (tagged : List Tagged) : List Observation :=
  (survivors tagged).map (·.observation)

/-! ## Sources -/

/-- The source of the earliest observation with a signature and node. -/
def earliestSource (tagged : List Tagged) (key : String × Option String) : Option String :=
  (FirstWins.first (fun _ => true) Tagged.key (ordered tagged) key).map Tagged.source

/-- The observation comes from the earliest source of its pair. -/
def Owned (tagged : List Tagged) (t : Tagged) : Prop :=
  earliestSource tagged t.key = some t.source

/-- Not lifecycle-shaped, and from the earliest source of its pair. -/
structure Speaks (tagged : List Tagged) (t : Tagged) : Prop where
  mem : t ∈ tagged
  owned : Owned tagged t
  shape : t.shape ≠ .lifecycle

variable {tagged : List Tagged} {t u : Tagged}

theorem dropEchoes_eq_filter (d : Dict (String × Option String) String) (l : List Tagged) :
    dropEchoes d l = l.filter fun t =>
      (d.get? t.key).or ((FirstWins.first (fun _ => true) Tagged.key l t.key).map Tagged.source) =
        some t.source := by
  induction l generalizing d with
  | nil => rfl
  | cons t rest ih =>
    have hkeep (k : String × Option String) :
        ((FirstWins.keep (fun _ => true) Tagged.key Tagged.source d t).get? k).or
          ((FirstWins.first (fun _ => true) Tagged.key rest k).map Tagged.source) = (d.get? k).or
          ((FirstWins.first (fun _ => true) Tagged.key (t :: rest) k).map Tagged.source) := by
      rw [FirstWins.get?_keep, Option.or_assoc, FirstWins.first_cons]
      split_ifs <;> simp
    have hhead : (FirstWins.keep (fun _ => true) Tagged.key Tagged.source d t).get? t.key =
        (d.get? t.key).or
          ((FirstWins.first (fun _ => true) Tagged.key (t :: rest) t.key).map Tagged.source) := by
      rw [FirstWins.get?_keep, FirstWins.first_cons]
      simp
    rw [dropEchoes, filter_cons, ← hhead, ih]
    simp only [hkeep, decide_eq_true_eq]

theorem mem_ordered : t ∈ ordered tagged ↔ t ∈ tagged := mem_insertionSort _

/-- **The first rule keeps what comes from the earliest source of its pair.** -/
theorem mem_unique : t ∈ unique tagged ↔ t ∈ tagged ∧ Owned tagged t := by
  rw [unique, dropEchoes_eq_filter, mem_filter, mem_ordered, decide_eq_true_eq]
  rfl

theorem mem_substantive : t ∈ substantive tagged ↔ Speaks tagged t := by
  rw [substantive, mem_filter, mem_unique, Tagged.substantive, bne_iff_ne]
  exact ⟨fun h => ⟨h.1.1, h.1.2, h.2⟩, fun h => ⟨⟨h.mem, h.owned⟩, h.shape⟩⟩

/-- The earliest observation of all is from the earliest source. -/
theorem head?_unique : (unique tagged).head? = (ordered tagged).head? := by
  rw [unique, dropEchoes_eq_filter]
  cases ordered tagged with
  | nil => rfl
  | cons t rest =>
    rw [filter_cons_of_pos, head?_cons, head?_cons]
    simp [FirstWins.first]

/-! ## Quotations -/

/-- A reason whose signature strictly contains one of an observation that speaks. -/
def Restates (tagged : List Tagged) (t : Tagged) : Prop :=
  t.shape = .reason ∧ ∃ u, Speaks tagged u ∧ quotes t.signature u.signature

theorem restates_iff : restates tagged t = true ↔ Restates tagged t := by
  simp [restates, Restates, mem_substantive]

/-- **Below every signature stands one that quotes nothing.** -/
theorem exists_minimal (ht : Speaks tagged t) : ∃ u, Speaks tagged u ∧ ¬ Restates tagged u ∧
    u.signature.toList <:+: t.signature.toList := by
  induction hn : t.signature.toList.length using Nat.strong_induction_on generalizing t with
  | _ n ih =>
    by_cases hrestates : Restates tagged t
    · obtain ⟨-, u, hu, hne, hwithin⟩ := hrestates
      have hshorter : u.signature.toList.length < n :=
        hn ▸ lt_of_le_of_ne hwithin.length_le fun hlen =>
          hne (String.toList_injective (hwithin.eq_of_length hlen))
      obtain ⟨v, hv, hkept, hbelow⟩ := ih _ hshorter hu rfl
      exact ⟨v, hv, hkept, hbelow.trans hwithin⟩
    · exact ⟨t, ht, hrestates, infix_rfl⟩

theorem mem_kept : t ∈ (substantive tagged).filter (fun t => !restates tagged t) ↔
    Speaks tagged t ∧ ¬ Restates tagged t := by
  rw [mem_filter, mem_substantive, Bool.not_eq_true', ← Bool.not_eq_true, restates_iff]

/-- Where an observation speaks, exactly those survive that restate nothing. -/
theorem mem_survivors (h : ∃ u, Speaks tagged u) :
    t ∈ survivors tagged ↔ Speaks tagged t ∧ ¬ Restates tagged t := by
  obtain ⟨u, hu⟩ := h
  obtain ⟨v, hv, hkept, -⟩ := exists_minimal hu
  rw [← mem_kept, survivors]
  split
  · exact absurd (‹_ = []› ▸ mem_kept.2 ⟨hv, hkept⟩) not_mem_nil
  · rfl

/-- Where none does, the earliest observation survives alone. -/
theorem mem_survivors_of_silent (h : ¬ ∃ u, Speaks tagged u) :
    t ∈ survivors tagged ↔ (ordered tagged).head? = some t := by
  have hall : (unique tagged).filter (fun t => t.shape = .lifecycle) = unique tagged := by
    refine filter_eq_self.2 fun u hu => decide_eq_true ?_
    by_contra hshape
    obtain ⟨hmem, howned⟩ := mem_unique.1 hu
    exact h ⟨u, hmem, howned, hshape⟩
  have hnone : (substantive tagged).filter (fun t => !restates tagged t) = [] :=
    eq_nil_iff_forall_not_mem.2 fun u hu => h ⟨u, (mem_kept.1 hu).1⟩
  rw [survivors, hnone, hall, ← head?_unique]
  cases unique tagged <;> simp [eq_comm]

/-! ## Incidents -/

/-- What the collapsed list owes the incidents of the run. -/
structure LosesNoIncident (tagged : List Tagged) : Prop where
  nonempty : tagged ≠ [] → dedupRunObservations tagged ≠ []
  causes : ∀ t ∈ tagged, t.shape = .cause → t ∈ survivors tagged ∨
    ∃ k ∈ survivors tagged, k.source ≠ t.source ∧ k.key = t.key
  dropped : ∀ t ∈ tagged, t.shape ≠ .lifecycle → t ∉ survivors tagged →
    ∃ k ∈ survivors tagged, k.key = t.key ∨ k.signature.toList <:+: t.signature.toList

/-- A later source's observation has a representative that the later rules keep: one of its pair
for a cause, one below its signature for a reason; the earliest of all where only lifecycle
records come from the earliest source of their pair. -/
structure Represented (tagged : List Tagged) (t : Tagged) : Prop where
  cause : (∃ u, Speaks tagged u) → t.shape = .cause →
    ∃ u, Speaks tagged u ∧ u.key = t.key ∧ ¬ Restates tagged u
  below : (∃ u, Speaks tagged u) →
    ∃ u, Speaks tagged u ∧ u.signature.toList <:+: t.signature.toList
  earliest : (¬ ∃ u, Speaks tagged u) → ∃ u, (ordered tagged).head? = some u ∧
    (u.key = t.key ∨ t.shape ≠ .cause ∧ u.signature.toList <:+: t.signature.toList)

theorem survivors_ne_nil (h : tagged ≠ []) : survivors tagged ≠ [] := by
  by_cases hspeaks : ∃ u, Speaks tagged u
  · obtain ⟨u, hu⟩ := hspeaks
    obtain ⟨v, hv, hkept, -⟩ := exists_minimal hu
    exact ne_nil_of_mem ((mem_survivors ⟨u, hu⟩).2 ⟨hv, hkept⟩)
  · obtain ⟨t, ht⟩ := exists_mem_of_ne_nil _ h
    cases hordered : ordered tagged with
    | nil => exact absurd (hordered ▸ mem_ordered.2 ht) not_mem_nil
    | cons u rest =>
      exact ne_nil_of_mem ((mem_survivors_of_silent hspeaks).2 (by rw [hordered]; rfl))

/-- Survivors come from the earliest source of their pair. -/
theorem owned_of_mem_survivors (h : t ∈ survivors tagged) : Owned tagged t := by
  by_cases hspeaks : ∃ u, Speaks tagged u
  · exact ((mem_survivors hspeaks).1 h).1.owned
  · rw [mem_survivors_of_silent hspeaks, ← head?_unique] at h
    exact (mem_unique.1 (mem_of_head? h)).2

/-- A later source's observation is represented exactly if it is echoed by what survives. -/
theorem represented_iff (howned : ¬ Owned tagged t) : Represented tagged t ↔
    (t.shape = .cause → ∃ k ∈ survivors tagged, k.source ≠ t.source ∧ k.key = t.key) ∧
      ∃ k ∈ survivors tagged, k.key = t.key ∨ k.signature.toList <:+: t.signature.toList := by
  have hsource {k : Tagged} (hk : k ∈ survivors tagged) (hkey : k.key = t.key) :
      k.source ≠ t.source := fun hsame =>
    howned (by simpa [Owned, hkey, hsame] using owned_of_mem_survivors hk)
  have hbelow {k : Tagged} (hk : k.key = t.key ∨ k.signature.toList <:+: t.signature.toList) :
      k.signature.toList <:+: t.signature.toList := by
    rcases hk with hkey | hwithin
    · rw [show k.signature = t.signature from congrArg Prod.fst hkey]
    · exact hwithin
  constructor
  · intro h
    by_cases hspeaks : ∃ u, Speaks tagged u
    · refine ⟨fun hcause => ?_, ?_⟩
      · obtain ⟨u, hu, hkey, hkept⟩ := h.cause hspeaks hcause
        have hmem := (mem_survivors hspeaks).2 ⟨hu, hkept⟩
        exact ⟨u, hmem, hsource hmem hkey, hkey⟩
      · obtain ⟨u, hu, hwithin⟩ := h.below hspeaks
        obtain ⟨v, hv, hkept, hmin⟩ := exists_minimal hu
        exact ⟨v, (mem_survivors hspeaks).2 ⟨hv, hkept⟩, .inr (hmin.trans hwithin)⟩
    · obtain ⟨u, hu, hor⟩ := h.earliest hspeaks
      have hmem := (mem_survivors_of_silent hspeaks).2 hu
      refine ⟨fun hcause => ?_, u, hmem, hor.imp_right And.right⟩
      have hkey := hor.resolve_right fun hne => hne.1 hcause
      exact ⟨u, hmem, hsource hmem hkey, hkey⟩
  · rintro ⟨hcauses, k, hk, hor⟩
    refine ⟨fun hspeaks hcause => ?_,
      fun hspeaks => ⟨k, ((mem_survivors hspeaks).1 hk).1, hbelow hor⟩, fun hspeaks => ?_⟩
    · obtain ⟨u, hu, -, hkey⟩ := hcauses hcause
      obtain ⟨hmem, hkept⟩ := (mem_survivors hspeaks).1 hu
      exact ⟨u, hmem, hkey, hkept⟩
    · by_cases hcause : t.shape = .cause
      · obtain ⟨u, hu, -, hkey⟩ := hcauses hcause
        exact ⟨u, (mem_survivors_of_silent hspeaks).1 hu, .inl hkey⟩
      · exact ⟨k, (mem_survivors_of_silent hspeaks).1 hk, .inr ⟨hcause, hbelow hor⟩⟩

/-- What speaks survives, or quotes what survives. -/
theorem Speaks.survives (h : Speaks tagged t) : t ∈ survivors tagged ∨ t.shape = .reason ∧
    ∃ k ∈ survivors tagged, k.signature.toList <:+: t.signature.toList := by
  by_cases hrestates : Restates tagged t
  · obtain ⟨u, hu, hkept, hwithin⟩ := exists_minimal h
    exact .inr ⟨hrestates.1, u, (mem_survivors ⟨t, h⟩).2 ⟨hu, hkept⟩, hwithin⟩
  · exact .inl ((mem_survivors ⟨t, h⟩).2 ⟨h, hrestates⟩)

/-- **No incident is lost exactly if whatever the first rule drops is represented.** -/
theorem losesNoIncident_iff (tagged : List Tagged) : LosesNoIncident tagged ↔
    ∀ t ∈ tagged, t.shape ≠ .lifecycle → ¬ Owned tagged t → Represented tagged t := by
  constructor
  · intro h t ht hshape howned
    have hdropped : t ∉ survivors tagged := fun hmem => howned (owned_of_mem_survivors hmem)
    exact (represented_iff howned).2
      ⟨fun hcause => (h.causes t ht hcause).resolve_left hdropped, h.dropped t ht hshape hdropped⟩
  · intro h
    refine ⟨fun hne => by simpa [dedupRunObservations] using survivors_ne_nil hne,
      fun t ht hcause => ?_, fun t ht hshape hdropped => ?_⟩
    · have hshape : t.shape ≠ .lifecycle := by simp [hcause]
      by_cases howned : Owned tagged t
      · have hspeaks : Speaks tagged t := ⟨ht, howned, hshape⟩
        exact .inl (hspeaks.survives.resolve_right fun hr => by simp [hcause] at hr)
      · exact .inr (((represented_iff howned).1 (h t ht hshape howned)).1 hcause)
    · by_cases howned : Owned tagged t
      · have hspeaks : Speaks tagged t := ⟨ht, howned, hshape⟩
        obtain ⟨-, k, hk, hwithin⟩ := hspeaks.survives.resolve_left hdropped
        exact ⟨k, hk, .inr hwithin⟩
      · exact ((represented_iff howned).1 (h t ht hshape howned)).2

/-- A reason has the words of a cause, comes first and quotes another reason: the bypassed gate
slot is not reported. -/
theorem bypass_absorbed : ¬ LosesNoIncident
    [⟨.reason, "node_failed", "run", none, "failed", "gate_slot_bypassed", 1, .null⟩,
      ⟨.cause, "plan_graph_gate_slot_bypassed", "run", none, "failed", "gate_slot_bypassed", 2,
        .null⟩,
      ⟨.reason, "graph_blocked", "run", none, "blocked", "gate", 3, .null⟩] := by
  intro h
  exact absurd (h.causes _ (.tail _ (.head _)) rfl) (by decide)

end HarnessLabs.Observability
