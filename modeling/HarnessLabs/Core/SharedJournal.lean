import HarnessLabs.Core.AuditJournal

/-!
# A journal that several controllers write

The run directory as its writers see it: the events with their place in the hash chain, the
checkpoint with the place that it binds, and what every open journal believes about both. The two
plain writes trust what the journal believes. The compare-and-swap looks at the directory first.

* `SharedDisk.append`, `SharedDisk.checkpoint` — the plain writes.
* `SharedDisk.swap` — `compare_and_swap_checkpoint`.
* `compareAndSwap_shared` — **an accepted `compareAndSwap` on the bytes is an accepted swap.**
-/

namespace HarnessLabs.Audit

open Lines

/-! ## Records -/

/-- An event with its place in the hash chain. -/
structure ChainEvent (H E : Type) where
  sequence : ℕ
  previousHash : Option H
  eventHash : H
  payload : E

/-- The run directory. -/
structure SharedDisk (σ H E : Type) where
  events : List (ChainEvent H E)
  revision : ℕ
  sequence : ℕ
  headHash : Option H
  state : σ

/-- What an open journal believes about the directory. -/
structure Believed (H : Type) where
  sequence : ℕ
  headHash : Option H
  revision : ℕ

variable {σ H E : Type}

def headOf (events : List (ChainEvent H E)) : Option H := events.getLast?.map (·.eventHash)

/-- The event of a journal that believes `b`. -/
def Believed.event (b : Believed H) (hash : H) (payload : E) : ChainEvent H E :=
  ⟨b.sequence, b.headHash, hash, payload⟩

def Believed.afterEvent (b : Believed H) (hash : H) : Believed H :=
  { b with sequence := b.sequence + 1, headHash := some hash }

def Believed.afterCheckpoint (b : Believed H) : Believed H := { b with revision := b.revision + 1 }

/-! ## Plain writes -/

def SharedDisk.append (disk : SharedDisk σ H E) (b : Believed H) (hash : H) (payload : E) :
    SharedDisk σ H E :=
  { disk with events := disk.events ++ [b.event hash payload] }

def SharedDisk.checkpoint (disk : SharedDisk σ H E) (b : Believed H) (state : σ) :
    SharedDisk σ H E :=
  { disk with
    revision := b.revision + 1
    sequence := b.sequence
    headHash := b.headHash
    state := state }

/-! ## Compare and swap -/

section Swap

variable [DecidableEq H]

/-- The chain checks of `_verify_event_journal`, on the events behind others. -/
def chainedFrom : ℕ → Option H → List (ChainEvent H E) → Bool
  | _, _, [] => true
  | n, head, e :: rest =>
    e.sequence = n && e.previousHash = head && chainedFrom (n + 1) (some e.eventHash) rest

def Chained (events : List (ChainEvent H E)) : Prop := chainedFrom 0 none events = true

instance (events : List (ChainEvent H E)) : Decidable (Chained events) :=
  inferInstanceAs (Decidable (_ = _))

/-- The checkpoint binds the journal head. -/
def SharedDisk.Bound (disk : SharedDisk σ H E) : Prop :=
  disk.sequence = disk.events.length ∧ disk.headHash = headOf disk.events

instance (disk : SharedDisk σ H E) : Decidable disk.Bound :=
  inferInstanceAs (Decidable (_ ∧ _))

/-- What a journal believes that is opened now. -/
def SharedDisk.believed (disk : SharedDisk σ H E) : Believed H :=
  ⟨disk.events.length, headOf disk.events, disk.revision⟩

/-- `compare_and_swap_checkpoint`: the directory, and what the journal believes behind it. -/
def SharedDisk.swap (disk : SharedDisk σ H E) (expectedRevision : ℕ) (expectedHeadHash : Option H)
    (state : σ) (hash : H) (payload : E) : Except String (SharedDisk σ H E × Believed H) := do
  require (Chained disk.events) "audit event hash chain is broken"
  require disk.Bound "checkpoint does not bind the journal head"
  require (disk.revision = expectedRevision) "audit checkpoint revision changed"
  require (disk.headHash = expectedHeadHash) "audit checkpoint head changed"
  let b := disk.believed.afterEvent hash
  return ((disk.append disk.believed hash payload).checkpoint b state, b.afterCheckpoint)

theorem swap_eq_ok {disk : SharedDisk σ H E} {expectedRevision : ℕ} {expectedHeadHash : Option H}
    {state : σ} {hash : H} {payload : E} {result : SharedDisk σ H E × Believed H} :
    disk.swap expectedRevision expectedHeadHash state hash payload = .ok result ↔
      (Chained disk.events ∧ disk.Bound ∧ disk.revision = expectedRevision ∧
        disk.headHash = expectedHeadHash) ∧
      result = ((disk.append disk.believed hash payload).checkpoint
        (disk.believed.afterEvent hash) state, (disk.believed.afterEvent hash).afterCheckpoint) := by
  rw [SharedDisk.swap, require_bind_eq_ok, require_bind_eq_ok, require_bind_eq_ok,
    require_bind_eq_ok]
  constructor
  · rintro ⟨hchain, hbound, hrevision, hhead, hresult⟩
    exact ⟨⟨hchain, hbound, hrevision, hhead⟩, (Except.ok.inj hresult).symm⟩
  · rintro ⟨⟨hchain, hbound, hrevision, hhead⟩, rfl⟩
    exact ⟨hchain, hbound, hrevision, hhead, rfl⟩

theorem chainedFrom_append {n : ℕ} {head : Option H} {es fs : List (ChainEvent H E)} :
    chainedFrom n head (es ++ fs) = true ↔ chainedFrom n head es = true ∧
      chainedFrom (n + es.length) (if es = [] then head else headOf es) fs = true := by
  induction es generalizing n head with
  | nil => simp [chainedFrom]
  | cons e es ih =>
    have hhead : (if es = [] then some e.eventHash else headOf es) = headOf (e :: es) := by
      cases es with
      | nil => rfl
      | cons f es => rfl
    simp only [List.cons_append, chainedFrom, Bool.and_eq_true, ih, hhead, List.length_cons,
      if_neg (List.cons_ne_nil e es), and_assoc, Nat.add_assoc, Nat.add_comm 1]

/-- **An event continues the chain when it has the next place and the head before it.** -/
theorem chained_snoc {es : List (ChainEvent H E)} {e : ChainEvent H E} :
    Chained (es ++ [e]) ↔ Chained es ∧ e.sequence = es.length ∧ e.previousHash = headOf es := by
  have hhead : (if es = [] then none else headOf es) = headOf es := by
    cases es with
    | nil => rfl
    | cons f es => rfl
  rw [Chained, Chained, chainedFrom_append, hhead, Nat.zero_add]
  simp [chainedFrom]

/-- What is opened now continues the chain. -/
theorem chained_believed {disk : SharedDisk σ H E} {hash : H} {payload : E}
    (h : Chained disk.events) : Chained (disk.append disk.believed hash payload).events :=
  chained_snoc.2 ⟨h, rfl, rfl⟩

end Swap

/-! ## The journal on bytes -/

/-- An event of the file. -/
def AuditEvent.chainEvent (e : AuditEvent) : ChainEvent String AuditEvent :=
  ⟨e.sequence, e.previousHash, e.eventHash, e⟩

/-- The directory with these events and this checkpoint. -/
def sharedDisk (es : List AuditEvent) (c : Checkpoint) : SharedDisk Payload String AuditEvent :=
  ⟨es.map (·.chainEvent), c.revision, c.sequence, c.headHash, c.state⟩

def Journal.believed (j : Journal) : Believed String := ⟨j.sequence, j.headHash, j.revision⟩

/-- The plain writes are those of the journal on bytes. -/
theorem append_shared {host : Host} (j : Journal) (tick : Tick host) (d : Draft)
    (es : List AuditEvent) (c : Checkpoint) :
    (sharedDisk es c).append j.believed (j.newEvent tick d).eventHash (j.newEvent tick d) =
      sharedDisk (es ++ [j.newEvent tick d]) c := by
  rw [sharedDisk, sharedDisk, List.map_append]
  rfl

theorem checkpoint_shared {host : Host} (j : Journal) (tick : Tick host) (status : String)
    (state : Payload) (es : List AuditEvent) (c : Checkpoint) :
    (sharedDisk es c).checkpoint j.believed state =
      sharedDisk es (j.newCheckpoint tick status state) := rfl

theorem headOf_chainEvents (es : List AuditEvent) :
    headOf (es.map (·.chainEvent)) = (es.map (·.eventHash)).getLast? := by
  rw [headOf, List.getLast?_map, List.getLast?_map, Option.map_map]
  rfl

/-- An event that is accepted is at its place. -/
theorem verifyEvent_place {fromIsoformat : String → Bool} {files : Dict String (List ℕ)}
    {p p' : Scanned} {e : AuditEvent}
    (h : verifyEvent fromIsoformat files p e.value = .ok p') :
    e.sequence = p.hashes.length ∧ e.previousHash = p.hashes.getLast? ∧
      p'.hashes = p.hashes ++ [e.eventHash] := by
  have hplace : natural? (e.unsealed.get? "sequence") = some e.sequence := by
    show natural? (some (.int e.sequence)) = _
    simp [natural?]
  obtain ⟨-, -, hsequence, hprevious, hhashes⟩ := verifyEvent_inv h
  exact ⟨Option.some.inj (hplace.symm.trans hsequence),
    textOrNull_inj (Option.some.inj hprevious), hhashes⟩

/-- **What is verified is chained**, whoever wrote the events. -/
theorem chained_of_verify {fromIsoformat : String → Bool} {files : Dict String (List ℕ)}
    {es : List AuditEvent} {v : Verification}
    (h : verifyEventJournal fromIsoformat files (journalText es) = .ok v) :
    Chained (es.map (·.chainEvent)) ∧ v.eventHashes = es.map (·.eventHash) := by
  have hkeyed : ∀ w ∈ es.map (·.value), Json.Keyed w := by
    intro w hw
    obtain ⟨e, -, rfl⟩ := List.mem_map.1 hw
    exact keyed_value e
  have hscan : ∀ p, (es.map (·.value)).foldlM (verifyEvent fromIsoformat files) {} = .ok p →
      Chained (es.map (·.chainEvent)) ∧ p.hashes = es.map (·.eventHash) := by
    clear h hkeyed
    induction es using List.reverseRecOn with
    | nil =>
      intro p hp
      rw [← Except.ok.inj hp]
      exact ⟨rfl, rfl⟩
    | append_singleton es e ih =>
      intro p hp
      rw [List.map_append, List.foldlM_append] at hp
      obtain ⟨q, hq, hp⟩ := bind_eq_ok.1 hp
      obtain ⟨hchained, hhashes⟩ := ih q hq
      obtain ⟨p', hevent, hsame⟩ := bind_eq_ok.1 hp
      cases hsame
      obtain ⟨hsequence, hprevious, hp'⟩ := verifyEvent_place hevent
      rw [hhashes] at hsequence hprevious hp'
      rw [List.map_append, List.map_append]
      refine ⟨chained_snoc.2 ⟨hchained, ?_, ?_⟩, hp'⟩
      · rw [List.length_map] at hsequence ⊢
        exact hsequence
      · rw [headOf_chainEvents]
        exact hprevious
  rw [verifyEventJournal, journalText, readEach_textLines _ _ hkeyed] at h
  cases hresult : (es.map (·.value)).foldlM (verifyEvent fromIsoformat files) {} with
  | error message =>
    rw [hresult] at h
    cases h
  | ok p =>
    obtain ⟨hchained, hhashes⟩ := hscan p hresult
    rw [hresult] at h
    dsimp only at h
    split at h
    · cases h
      exact ⟨hchained, hhashes⟩
    · cases h

/-- **The swap on the bytes is the swap on the records.** What `compareAndSwap` accepts and writes is
accepted and written on the records, and the journal believes the same behind it. -/
theorem compareAndSwap_shared {host : Host} {j : Journal} {clock : ℕ → Tick host} {disk : Disk}
    {es : List AuditEvent} {c : Checkpoint} {expectedRevision : ℕ}
    {expectedHeadHash : Option String} {status : String} {state : Payload}
    {eventType eventStatus : String} {payload : Payload} {actor : Option AuditActor}
    {e : AuditEvent} {successor : Checkpoint} (hevents : disk.events = journalText es)
    (hcheckpoint : disk.checkpoint = some c)
    (h : (j.compareAndSwap clock disk expectedRevision expectedHeadHash status state eventType
      eventStatus payload actor).answer = .ok (.swapped e successor)) :
    (sharedDisk es c).swap expectedRevision expectedHeadHash state e.eventHash e =
      .ok (sharedDisk (es ++ [e]) successor,
        (j.compareAndSwap clock disk expectedRevision expectedHeadHash status state eventType
          eventStatus payload actor).journal.believed) := by
  have hnegative : ¬ (expectedRevision : ℤ) < 0 := Int.not_lt.2 (Int.natCast_nonneg _)
  unfold Journal.compareAndSwap at h ⊢
  rw [if_neg hnegative] at h ⊢
  by_cases hdone : j.finalized = true
  · rw [if_pos hdone] at h
    cases h
  rw [if_neg hdone] at h ⊢
  cases hv : verifyEventJournal host.fromIsoformat disk.files disk.events with
  | error message =>
    rw [hv] at h
    cases h
  | ok v =>
    cases hc : disk.loadCheckpoint host with
    | error message =>
      rw [hv, hc] at h
      cases h
    | ok c' =>
      rw [hv, hc] at h
      dsimp only at h ⊢
      split at h
      · cases h
      split at h
      · cases h
      split at h
      · cases h
      split at h
      · cases h
      rename_i hrun hbound hrevision hhead
      rw [if_neg hrun, if_neg hbound, if_neg hrevision, if_neg hhead]
      have hsame : c' = c := by
        rw [Disk.loadCheckpoint, hcheckpoint] at hc
        dsimp only at hc
        cases hvalid : validateCheckpoint host c with
        | error message =>
          rw [hvalid] at hc
          cases hc
        | ok u =>
          rw [hvalid] at hc
          exact (Except.ok.inj hc).symm
      subst hsame
      rw [hevents] at hv
      obtain ⟨hchained, hhashes⟩ := chained_of_verify hv
      obtain ⟨hplace, hbinds⟩ := not_or.1 hbound
      have hcount : v.eventCount = es.length := by
        rw [Verification.eventCount, hhashes, List.length_map]
      have hlast : v.headHash = headOf (es.map (·.chainEvent)) := by
        rw [Verification.headHash, hhashes, headOf_chainEvents]
      obtain ⟨he, hsuccessor⟩ := Answer.swapped.inj (Except.ok.inj h)
      rw [swap_eq_ok]
      refine ⟨⟨hchained, ⟨?_, ?_⟩, ?_, ?_⟩, ?_⟩
      · show c'.sequence = (es.map (·.chainEvent)).length
        rw [List.length_map, not_not.1 hplace, hcount]
      · show c'.headHash = headOf (es.map (·.chainEvent))
        rw [not_not.1 hbinds, hlast]
      · exact Int.ofNat.inj (not_not.1 hrevision)
      · exact not_not.1 hhead
      · have hbelieved : (sharedDisk es c').believed =
            ⟨v.eventCount, v.headHash, c'.revision⟩ := by
          rw [SharedDisk.believed, hcount, hlast]
          show Believed.mk (es.map (·.chainEvent)).length _ _ = _
          rw [List.length_map]
          rfl
        rw [hbelieved, ← hsuccessor, ← he, sharedDisk, List.map_append]
        rfl

end HarnessLabs.Audit
