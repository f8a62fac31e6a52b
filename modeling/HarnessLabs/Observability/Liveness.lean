import HarnessLabs.Lib.Json
import HarnessLabs.Lib.Runs

/-!
# The liveness lease

A controller writes a lease into its run directory, and the catalog reads it and asks the host who
runs under its process id. A killed controller leaves its lease behind, its process id is given to
others, and a beat past its checks is written after any delay, also behind `stop`.

* `World`, `step` — the processes of the host, their leases, and the file.
* `live_iff` — **a run reads live exactly when the process that began the beat in its lease still
  runs and is seen, and the beat is fresh.**

The host gives a process id with a start token to one process only, which is the guard of `spawn`.
-/

namespace HarnessLabs.Observability

open List

/-! ## The lease -/

/-- What the host gives. `read` is `datetime.fromisoformat` of a text with its `Z` replaced; a
timestamp without an offset is read as `some none`. -/
structure Machine where
  hostname : String
  named : hostname ≠ ""
  read : String → Option (Option ℤ)

def livenessProtocol : String := "harness-controller-liveness/1"

/-- `CONTROLLER_KINDS`. -/
def controllerKinds : List String := ["plan_graph", "feature_run"]

/-- `ControllerLivenessLease`, with the process that owns it: the place of its start on the host. -/
structure Lease where
  runId : String
  controllerKind : String
  instanceId : String
  pid : ℕ
  processStartToken : String
  enabled : Bool
  process : ℕ
  sequence : ℕ := 0
  stopped : Bool := false

/-- A beat past the checks of `beat`: the lease with its sequence counted on, and the time. -/
structure Beat where
  lease : Lease
  heartbeatAt : String
  time : ℤ

/-- The payload of a beat, with its keys sorted. -/
def Beat.payload (m : Machine) (b : Beat) : Json := .obj [
  ("controller_instance_id", .str b.lease.instanceId),
  ("controller_kind", .str b.lease.controllerKind), ("heartbeat_at", .str b.heartbeatAt),
  ("heartbeat_sequence", .int b.lease.sequence), ("hostname", .str m.hostname),
  ("pid", .int b.lease.pid), ("process_start_token", .str b.lease.processStartToken),
  ("protocol", .str livenessProtocol), ("run_id", .str b.lease.runId)]

/-! ## The catalog -/

structure Liveness where
  state : String
  reason : Option String
deriving DecidableEq

/-- `TERMINAL_STATUSES`. -/
def terminalStatuses : List String := ["succeeded", "failed", "blocked", "interrupted"]

/-- `_LEASE_FIELDS`. -/
def leaseFields : List String := ["protocol", "run_id", "controller_instance_id", "hostname", "pid",
  "process_start_token", "heartbeat_sequence", "heartbeat_at", "controller_kind"]

def unavailable (reason : String) : Liveness := ⟨"liveness_unavailable", some reason⟩

def isText (lease : Json) (key : String) : Bool :=
  ((lease.get? key).bind Json.asStr?).any (· ≠ "")

def isInt (lease : Json) (key : String) (least : ℤ) : Bool :=
  ((lease.get? key).bind Json.asInt?).any (least ≤ ·)

/-- `_liveness` of an object. What is no text is not read with an offset. -/
def leaseLiveness (m : Machine) (lease : Json) (runId : String) (kind : Option String) (now : ℤ)
    (probe : ℤ → Option String) (freshness : ℤ) : Liveness :=
  let text (key : String) : Option String := (lease.get? key).bind Json.asStr?
  let pid : ℤ := ((lease.get? "pid").bind Json.asInt?).getD 0
  if lease = .obj [] then unavailable "no liveness lease"
  else if ((lease.keys?).getD []).toFinset ≠ leaseFields.toFinset ∨
      lease.get? "protocol" ≠ some (.str livenessProtocol) ∨
      lease.get? "run_id" ≠ some (.str runId) ∨
      lease.get? "controller_kind" ≠ some ((kind.map Json.str).getD .null) then
    unavailable "invalid liveness lease"
  else if ¬ (isText lease "controller_instance_id" && isText lease "hostname" &&
      isText lease "process_start_token" && isInt lease "pid" 1 &&
      isInt lease "heartbeat_sequence" 0) then
    unavailable "invalid liveness lease"
  else if text "hostname" ≠ some m.hostname then
    ⟨"remote_unverified", some "lease host is not local"⟩
  else match (text "heartbeat_at").bind m.read with
  | none | some none => unavailable "invalid heartbeat timestamp"
  | some (some heartbeat) =>
    if heartbeat > now then unavailable "invalid heartbeat timestamp"
    else if now - heartbeat > freshness then ⟨"stale", some "heartbeat is stale"⟩
    else if probe pid ≠ text "process_start_token" then
      ⟨"stale", some "process identity does not match"⟩
    else ⟨"live", none⟩

/-- `_liveness`. -/
def liveness (m : Machine) (file : Option Json) (runId : String) (kind : Option String)
    (status : String) (now : ℤ) (probe : ℤ → Option String) (freshness : ℤ) : Liveness :=
  if status ∈ terminalStatuses then ⟨"terminal", none⟩
  else match file with
  | none => unavailable "no liveness lease"
  | some (.obj members) => leaseLiveness m (.obj members) runId kind now probe freshness
  | some _ => unavailable "invalid liveness lease"

/-! ## The host -/

/-- `starts` are the process ids and start tokens of all processes, in the order of their starts;
`table` has the running ones. `begun` are all beats past their checks, and `pending` those that are
not written yet. -/
structure World where
  now : ℤ := 0
  starts : List (ℕ × String) := []
  table : ℕ → Option ℕ := fun _ => none
  leases : List Lease := []
  begun : List Beat := []
  pending : List Beat := []
  file : Option Json := none

namespace World

/-- What a probe that sees the process finds. -/
def token (w : World) (pid : ℤ) : Option String :=
  ((w.table pid.toNat).bind fun n => w.starts[n]?).map Prod.snd

inductive Act where
  | tick (d : ℕ)
  | spawn (pid : ℕ) (token : String)
  | exit (pid : ℕ)
  /-- The constructor, before its first beat. `probed` tells whether the process saw its own start
  token. -/
  | lease (pid : ℕ) (runId kind instanceId : String) (write probed : Bool)
  /-- `beat` up to its write, without its lock. -/
  | begin (i : ℕ) (heartbeatAt : String)
  /-- The write of a beat. One that fails is swallowed. -/
  | write (i : ℕ) (fails : Bool)
  /-- `stop`. The file of another lease is removed as well, and an error of it is swallowed. -/
  | stop (i : ℕ) (fails : Bool)

def step (m : Machine) (a : Act) (w : World) : Option World :=
  match a with
  | .tick d => some { w with now := w.now + d }
  | .spawn pid token =>
    if 1 ≤ pid ∧ w.table pid = none ∧ (pid, token) ∉ w.starts then
      some { w with
        starts := w.starts ++ [(pid, token)]
        table := Function.update w.table pid (some w.starts.length) }
    else none
  | .exit pid => some { w with table := Function.update w.table pid none }
  | .lease pid runId kind instanceId write probed =>
    (w.table pid).bind fun process =>
      if kind ∈ controllerKinds ∧ runId ≠ "" ∧ '/' ∉ runId.toList ∧ instanceId ≠ "" then
        let token := bif probed then (w.token pid).getD "" else ""
        some { w with leases := w.leases ++
          [⟨runId, kind, instanceId, pid, token, write && token ≠ "", process, 0, false⟩] }
      else none
  | .begin i heartbeatAt => w.leases[i]?.bind fun l =>
    if w.table l.pid = some l.process ∧ l.enabled ∧ ¬ l.stopped ∧
        m.read heartbeatAt = some (some w.now) then
      let next := { l with sequence := l.sequence + 1 }
      let beat : Beat := ⟨next, heartbeatAt, w.now⟩
      some { w with
        leases := w.leases.set i next
        begun := w.begun ++ [beat]
        pending := w.pending ++ [beat] }
    else none
  | .write i fails => w.pending[i]?.bind fun b =>
    if w.table b.lease.pid = some b.lease.process then
      some { w with
        pending := w.pending.eraseIdx i
        file := bif fails then w.file else some (b.payload m) }
    else none
  | .stop i fails => w.leases[i]?.bind fun l =>
    if w.table l.pid = some l.process then
      if l.stopped then some w
      else some { w with
        leases := w.leases.set i { l with stopped := true }
        file := bif fails then w.file else none }
    else none

/-! ## The invariant -/

/-- The lease has the identity of the process that owns it. -/
structure Owned (w : World) (l : Lease) : Prop where
  instance_ne : l.instanceId ≠ ""
  pid_pos : 1 ≤ l.pid
  started : l.enabled = true →
    w.starts[l.process]? = some (l.pid, l.processStartToken) ∧ l.processStartToken ≠ ""

structure Genuine (m : Machine) (w : World) (b : Beat) : Prop where
  owned : Owned w b.lease
  enabled : b.lease.enabled = true
  stamped : m.read b.heartbeatAt = some (some b.time)
  past : b.time ≤ w.now

structure Sound (m : Machine) (w : World) : Prop where
  nodup : w.starts.Nodup
  running : ∀ pid n, w.table pid = some n → 1 ≤ pid ∧ ∃ token, w.starts[n]? = some (pid, token)
  leases : ∀ l ∈ w.leases, Owned w l
  begun : ∀ b ∈ w.begun, Genuine m w b
  pending : w.pending ⊆ w.begun
  file : ∀ lease ∈ w.file, ∃ b ∈ w.begun, lease = b.payload m

variable {m : Machine} {w w' : World}

theorem getElem?_grown {α : Type*} {xs ys : List α} {n : ℕ} {x : α} (h : xs <+: ys)
    (hx : xs[n]? = some x) : ys[n]? = some x := by
  obtain ⟨rest, rfl⟩ := h
  rw [getElem?_append_left (List.getElem?_eq_some_iff.1 hx).1, hx]

theorem Owned.mono {l : Lease} (h : Owned w l) (hstarts : w.starts <+: w'.starts) : Owned w' l :=
  ⟨h.instance_ne, h.pid_pos, fun he => (h.started he).imp_left (getElem?_grown hstarts)⟩

theorem Genuine.mono {b : Beat} (h : Genuine m w b) (hstarts : w.starts <+: w'.starts)
    (hnow : w.now ≤ w'.now) : Genuine m w' b :=
  ⟨h.owned.mono hstarts, h.enabled, h.stamped, h.past.trans hnow⟩

/-- Steps that start no process. -/
theorem Sound.frame (h : Sound m w) (hstarts : w'.starts = w.starts)
    (htable : ∀ pid n, w'.table pid = some n → w.table pid = some n) (hnow : w.now ≤ w'.now)
    (hleases : ∀ l ∈ w'.leases, l ∈ w.leases ∨ Owned w l)
    (hbegun : ∀ b ∈ w'.begun, b ∈ w.begun ∨ Genuine m w b) (hpending : w'.pending ⊆ w'.begun)
    (hfile : ∀ lease ∈ w'.file, ∃ b ∈ w'.begun, lease = b.payload m) : Sound m w' := by
  have hextends : w.starts <+: w'.starts := by rw [hstarts]
  refine ⟨hstarts ▸ h.nodup, fun pid n hn => ?_, fun l hl => ?_, fun b hb => ?_, hpending, hfile⟩
  · rw [hstarts]
    exact h.running pid n (htable pid n hn)
  · exact ((hleases l hl).elim (h.leases l) id).mono hextends
  · exact ((hbegun b hb).elim (h.begun b) id).mono hextends hnow

theorem Sound.step {a : Act} (h : Sound m w) (hstep : step m a w = some w') : Sound m w' := by
  have hold : ∀ b ∈ w.begun, b ∈ w.begun ∨ Genuine m w b := fun _ => .inl
  have hsame : ∀ pid n, w.table pid = some n → w.table pid = some n := fun _ _ => id
  cases a with
  | tick d =>
    cases hstep
    exact h.frame rfl hsame (by dsimp only; omega) (fun _ => .inl) hold h.pending h.file
  | spawn pid token =>
    simp only [World.step] at hstep
    split_ifs at hstep with hguard
    cases hstep
    have hgrown := prefix_append w.starts [(pid, token)]
    refine ⟨nodup_append.2 ⟨h.nodup, nodup_singleton _, ?_⟩, fun other n hn => ?_,
      fun l hl => (h.leases l hl).mono hgrown, fun b hb => (h.begun b hb).mono hgrown le_rfl,
      h.pending, h.file⟩
    · rintro x hx y hy rfl
      rw [mem_singleton.1 hy] at hx
      exact hguard.2.2 hx
    · dsimp only at hn
      rw [Function.update_apply] at hn
      split_ifs at hn with hother
      · cases hn
        exact ⟨hother ▸ hguard.1, token, by rw [hother]; exact getElem?_concat_length⟩
      · obtain ⟨hpos, t, ht⟩ := h.running other n hn
        exact ⟨hpos, t, getElem?_grown hgrown ht⟩
  | exit pid =>
    cases hstep
    refine h.frame rfl (fun other n hn => ?_) le_rfl (fun _ => .inl) hold h.pending h.file
    dsimp only at hn
    rw [Function.update_apply] at hn
    split_ifs at hn
    exact hn
  | lease pid runId kind instanceId write probed =>
    obtain ⟨process, hprocess, hstep⟩ := Option.bind_eq_some_iff.1 hstep
    split_ifs at hstep with hguard
    cases hstep
    obtain ⟨hpos, token, htoken⟩ := h.running pid process hprocess
    refine h.frame rfl hsame le_rfl (fun l hl => ?_) hold h.pending h.file
    refine (mem_append.1 hl).imp_right fun hl => ?_
    rw [mem_singleton.1 hl]
    refine ⟨hguard.2.2.2, hpos, fun henabled => ?_⟩
    have hsees : w.token pid = some token := by
      rw [World.token, Int.toNat_natCast, hprocess, Option.bind_some, htoken]
      rfl
    rw [hsees] at henabled ⊢
    cases probed with
    | true => exact ⟨htoken, (by simpa using henabled : write = true ∧ token ≠ "").2⟩
    | false => simp at henabled
  | begin i heartbeatAt =>
    obtain ⟨l, hl, hstep⟩ := Option.bind_eq_some_iff.1 hstep
    split_ifs at hstep with hguard
    cases hstep
    have howned := h.leases l (mem_of_getElem? hl)
    have hnext : Owned w { l with sequence := l.sequence + 1 } :=
      ⟨howned.instance_ne, howned.pid_pos, howned.started⟩
    refine h.frame rfl hsame le_rfl (fun other hother => ?_) (fun b hb => ?_)
      (append_subset.2 ⟨subset_append_of_subset_left _ h.pending, subset_append_right _ _⟩)
      fun lease hlease => ?_
    · exact (mem_or_eq_of_mem_set hother).imp_right fun heq => by rwa [heq]
    · refine (mem_append.1 hb).imp_right fun hb => ?_
      rw [mem_singleton.1 hb]
      exact ⟨hnext, hguard.2.1, hguard.2.2.2, le_rfl⟩
    · obtain ⟨b, hb, heq⟩ := h.file lease hlease
      exact ⟨b, mem_append_left _ hb, heq⟩
  | write i fails =>
    obtain ⟨b, hb, hstep⟩ := Option.bind_eq_some_iff.1 hstep
    split_ifs at hstep with hguard
    cases hstep
    refine h.frame rfl hsame le_rfl (fun _ => .inl) hold
      (fun x hx => h.pending (mem_of_mem_eraseIdx hx)) fun lease hlease => ?_
    cases fails with
    | true => exact h.file lease hlease
    | false =>
      cases hlease
      exact ⟨b, h.pending (mem_of_getElem? hb), rfl⟩
  | stop i fails =>
    obtain ⟨l, hl, hstep⟩ := Option.bind_eq_some_iff.1 hstep
    split_ifs at hstep with hguard hstopped
    · cases hstep
      exact h
    cases hstep
    have howned := h.leases l (mem_of_getElem? hl)
    refine h.frame rfl hsame le_rfl (fun other hother => ?_) hold h.pending fun lease hlease => ?_
    · refine (mem_or_eq_of_mem_set hother).imp_right fun heq => ?_
      rw [heq]
      exact ⟨howned.instance_ne, howned.pid_pos, howned.started⟩
    · cases fails with
      | true => exact h.file lease hlease
      | false => cases hlease

/-! ## Who reads live -/

theorem keys_payload (m : Machine) (b : Beat) :
    (((b.payload m).keys?).getD []).toFinset = leaseFields.toFinset := by
  show (["controller_instance_id", "controller_kind", "heartbeat_at", "heartbeat_sequence",
    "hostname", "pid", "process_start_token", "protocol", "run_id"] : List String).toFinset = _
  decide

/-- The catalog accepts the lease of a genuine beat of the run. -/
theorem Genuine.reads_live {b : Beat} (h : Genuine m w b) (runId : String) (kind : Option String)
    (probe : ℤ → Option String) (freshness : ℤ) :
    leaseLiveness m (b.payload m) runId kind w.now probe freshness = ⟨"live", none⟩ ↔
      b.lease.runId = runId ∧ kind = some b.lease.controllerKind ∧ w.now - b.time ≤ freshness ∧
        probe b.lease.pid = some b.lease.processStartToken := by
  have hkind : (b.payload m).get? "controller_kind" = some ((kind.map Json.str).getD .null) ↔
      kind = some b.lease.controllerKind := by
    show some (Json.str b.lease.controllerKind) = _ ↔ _
    cases kind <;> simp [eq_comm]
  have hrun : (b.payload m).get? "run_id" = some (.str runId) ↔ b.lease.runId = runId := by
    show some (Json.str b.lease.runId) = _ ↔ _
    simp
  have hprotocol : (b.payload m).get? "protocol" = some (.str livenessProtocol) := rfl
  have hvalid : (isText (b.payload m) "controller_instance_id" && isText (b.payload m) "hostname" &&
      isText (b.payload m) "process_start_token" && isInt (b.payload m) "pid" 1 &&
      isInt (b.payload m) "heartbeat_sequence" 0) = true := by
    have htoken := (h.owned.started h.enabled).2
    show (decide (b.lease.instanceId ≠ "") && decide (m.hostname ≠ "") &&
      decide (b.lease.processStartToken ≠ "") && decide ((1 : ℤ) ≤ b.lease.pid) &&
      decide ((0 : ℤ) ≤ b.lease.sequence)) = true
    simp [h.owned.instance_ne, m.named, htoken, h.owned.pid_pos]
  rw [leaseLiveness, keys_payload, hprotocol]
  simp only [ne_eq, not_true_eq_false, false_or, hkind, hrun, ← not_and_or]
  rw [if_neg (show ¬ b.payload m = .obj [] by rintro ⟨⟩), ← and_assoc]
  by_cases hsame : b.lease.runId = runId ∧ kind = some b.lease.controllerKind
  · rw [if_neg (not_not.2 hsame), if_neg (not_not.2 hvalid), and_iff_right hsame]
    show (if ¬ some m.hostname = some m.hostname then _ else match m.read b.heartbeatAt with
      | none | some none => _ | some (some heartbeat) => _) = _ ↔ _
    rw [if_neg (not_not.2 rfl), h.stamped]
    dsimp only
    rw [if_neg (not_lt.2 h.past)]
    split_ifs with hstale hother
    · exact iff_of_false (by simp) fun hall => not_le.2 hstale hall.1
    · exact iff_of_true rfl ⟨not_lt.1 hstale, hother⟩
    · exact iff_of_false (by simp) fun hall => hother hall.2
  · rw [if_pos hsame]
    exact iff_of_false (by simp [unavailable]) fun hall => hsame hall.1

theorem sound_of_runs (h : Inputs.Runs (step m) {} w) : Sound m w := by
  refine h.invariant (P := Sound m) (fun _ _ _ hstep hx => hx.step hstep)
    ⟨nodup_nil, fun _ _ hn => ?_, forall_mem_nil _, forall_mem_nil _, nil_subset _, fun _ hl => ?_⟩
  · cases hn
  · cases hl

/-- The token names the process, and not only its id. -/
theorem Sound.probe_eq_iff (h : Sound m w) {probe : ℤ → Option String} {l : Lease}
    (hprobe : probe l.pid = none ∨ probe l.pid = w.token l.pid) (hl : Owned w l)
    (henabled : l.enabled = true) : probe l.pid = some l.processStartToken ↔
      w.table l.pid = some l.process ∧ probe l.pid ≠ none := by
  obtain ⟨hstarted, -⟩ := hl.started henabled
  constructor
  · intro hseen
    have htoken := hprobe.resolve_left (by simp [hseen])
    rw [hseen, World.token, Int.toNat_natCast] at htoken
    refine ⟨?_, by simp [hseen]⟩
    cases hn : w.table l.pid with
    | none =>
      rw [hn] at htoken
      cases htoken
    | some n =>
      obtain ⟨-, token, hplace⟩ := h.running l.pid n hn
      rw [hn, Option.bind_some, hplace] at htoken
      cases htoken
      have hlt := (List.getElem?_eq_some_iff.1 hplace).1
      rw [(List.getElem?_inj hlt h.nodup).1 (hplace.trans hstarted.symm)]
  · rintro ⟨htable, hseen⟩
    rw [hprobe.resolve_left hseen, World.token, Int.toNat_natCast, htable, Option.bind_some,
      hstarted]
    rfl

/-- **Who reads live.** Whatever happened on the host, and for a probe that answers truly or not at
all: a run that is not finished reads live exactly when its lease holds a fresh beat of this run and
kind, and the process that began the beat still runs and is seen. -/
theorem live_iff (h : Inputs.Runs (step m) {} w) {probe : ℤ → Option String}
    (hprobe : ∀ pid, probe pid = none ∨ probe pid = w.token pid) (runId : String)
    (kind : Option String) (status : String) (freshness : ℤ) :
    liveness m w.file runId kind status w.now probe freshness = ⟨"live", none⟩ ↔
      status ∉ terminalStatuses ∧ ∃ b ∈ w.begun, w.file = some (b.payload m) ∧
        b.lease.runId = runId ∧ kind = some b.lease.controllerKind ∧ w.now - b.time ≤ freshness ∧
        w.table b.lease.pid = some b.lease.process ∧ probe b.lease.pid ≠ none := by
  have hsound := sound_of_runs h
  -- the lease of a beat reads live when the beat is of this run, fresh, and its process is seen
  have hbeat : ∀ b ∈ w.begun,
      leaseLiveness m (b.payload m) runId kind w.now probe freshness = ⟨"live", none⟩ ↔
        b.lease.runId = runId ∧ kind = some b.lease.controllerKind ∧ w.now - b.time ≤ freshness ∧
          w.table b.lease.pid = some b.lease.process ∧ probe b.lease.pid ≠ none := by
    intro b hb
    have hgenuine := hsound.begun b hb
    rw [hgenuine.reads_live,
      hsound.probe_eq_iff (hprobe b.lease.pid) hgenuine.owned hgenuine.enabled]
  unfold liveness
  by_cases hstatus : status ∈ terminalStatuses
  · rw [if_pos hstatus]
    exact iff_of_false (by simp) fun hall => hall.1 hstatus
  rw [if_neg hstatus]
  cases hfile : w.file with
  | none => exact iff_of_false (by simp [unavailable]) (by rintro ⟨-, b, -, ⟨⟩, -⟩)
  | some lease =>
    obtain ⟨b, hb, rfl⟩ := hsound.file lease hfile
    refine (hbeat b hb).trans ⟨fun hall => ⟨hstatus, b, hb, rfl, hall⟩, ?_⟩
    rintro ⟨-, b', hb', heq, hall⟩
    rw [← hbeat b hb, Option.some.inj heq]
    exact (hbeat b' hb').2 hall

/-- A host that is at the beginning of its time. -/
def epochMachine : Machine where
  hostname := "host"
  named := by decide
  read := fun _ => some (some 0)

/-- A controller starts, and writes its first beat. -/
def firstBeat : Option World := Inputs.runInputs (step epochMachine) {}
  [.spawn 7 "100", .lease 7 "run" "plan_graph" "controller" true true,
    .begin 0 "1970-01-01T00:00:00Z", .write 0 false]

theorem live_iff_firstBeat : ∃ w, firstBeat = some w ∧ ∃ b ∈ w.begun,
    w.file = some (b.payload epochMachine) ∧ w.table b.lease.pid = some b.lease.process := by
  have hlive : firstBeat.map (fun w => liveness epochMachine w.file "run" (some "plan_graph")
      "running" w.now w.token 30) = some ⟨"live", none⟩ := by
    decide +kernel
  obtain ⟨w, hw, hlive⟩ := Option.map_eq_some_iff.1 hlive
  obtain ⟨-, b, hb, hfile, -, -, -, hruns, -⟩ := (live_iff (Inputs.runs_of_runInputs hw)
    (fun _ => .inr rfl) "run" (some "plan_graph") "running" 30).1 hlive
  exact ⟨w, hw, b, hb, hfile, hruns⟩

end World

end HarnessLabs.Observability
