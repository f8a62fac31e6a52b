import HarnessLabs.Controller.Sessions

/-!
# Sessions over runs

Every operation appends orderly events, so every run whose commands repeat the schema keeps the
session protocol, whatever crashes cut.

* `Appends.orderly` — **the events of an operation are orderly.**
* `RepeatsSchema` — the condition on a command that registers a schema again.
* `session_protocol` — **the protocol in every run that repeats its schema.**
* `schema_replaced` — a run that does not.
-/

namespace HarnessLabs.Controller

open EventLog

/-! ## Orderly runs -/

/-- Every event is orderly behind those before it. -/
def OrderlyRun (events : List KernelEvent) (s : State) : List KernelEvent → Prop
  | [] => True
  | e :: es => Orderly events s e.body ∧ ∀ t, s.apply e = some t → OrderlyRun (events ++ [e]) t es

section Runs

variable {initial s t : State} {events es : List KernelEvent}

theorem OrderlyRun.take (h : OrderlyRun events s es) (i : ℕ) : OrderlyRun events s (es.take i) := by
  induction es generalizing events s i with
  | nil => rwa [List.take_nil]
  | cons e es ih =>
    cases i with
    | zero => trivial
    | succ i =>
      obtain ⟨he, hes⟩ := h
      exact ⟨he, fun t ht => ih (hes t ht) i⟩

/-- Orderly events keep the protocol. -/
theorem Ordered.run (h : Ordered initial events s) (hes : OrderlyRun events s es)
    (hreplay : replay State.apply s es = some t) : Ordered initial (events ++ es) t := by
  induction es generalizing events s with
  | nil =>
    cases hreplay
    rwa [List.append_nil]
  | cons e es ih =>
    obtain ⟨he, hrest⟩ := hes
    obtain ⟨m, hm, ht⟩ := Option.bind_eq_some_iff.1 hreplay
    have hall := ih (h.step he hm) (hrest m hm) ht
    rwa [List.append_assoc] at hall

/-- Events that are none of a session's end are orderly when they start and record no orphan. -/
theorem orderlyRun_of_unorphaned {start : List KernelEvent}
    (horphaned : ∀ id, Orphaned events id → Orphaned start id)
    (hes : ∀ e ∈ es, e.body.dispatches = false ∧
      (∀ id attempt session outcome evidence,
        e.body ≠ .taskOrphaned id attempt session outcome evidence) ∧
      ∀ id, (∃ task, e.body = .taskRegistered task ∧ task.id = id) ∨ e.body.progress? = some id →
        ¬ Orphaned start id) :
    OrderlyRun events s es := by
  induction es generalizing events s with
  | nil => trivial
  | cons e es ih =>
    obtain ⟨hdispatches, hplain, hfree⟩ := hes e List.mem_cons_self
    refine ⟨?_, fun t _ => ih (fun id hid => ?_) fun x hx => hes x (List.mem_cons_of_mem e hx)⟩
    · cases hbody : e.body with
      | taskRegistered task =>
        exact fun h => hfree task.id (.inl ⟨task, hbody, rfl⟩) (horphaned _ h)
      | taskStarted id =>
        exact fun h => hfree id (.inr (by rw [hbody]; rfl)) (horphaned _ h)
      | taskResultRecorded id result promotions =>
        exact fun h => hfree id (.inr (by rw [hbody]; rfl)) (horphaned _ h)
      | coordinatorSchemaRegistered _ | coordinatorSessionStarted _ | coordinatorSessionEnded _ =>
        rw [hbody] at hdispatches
        exact nomatch hdispatches
      | _ => trivial
    · cases orphaned_snoc.1 hid with
      | inl hold => exact horphaned id hold
      | inr hnew =>
        obtain ⟨attemptId, sessionId, outcome, evidence, hbody⟩ := hnew
        exact absurd hbody (hplain id attemptId sessionId outcome evidence)

/-- The orphans of a session's end are all that was running. -/
theorem orderlyRun_orphans {start : State} {catalog : EvidenceCatalog} {sessionId outcome : String}
    {record : SessionRecord} {ids : List String}
    (hactive : s.activeSession = some record.session)
    (hrunning : ∀ id task, s.tasks.get? id = some task → task.status = .running → id ∈ ids)
    (hbodies : es.map (·.body) = ids.map (orphanEvent start catalog sessionId outcome) ++
      [.coordinatorSessionEnded record]) :
    OrderlyRun events s es := by
  induction ids generalizing events s es with
  | nil =>
    obtain ⟨e, rfl, he⟩ := List.map_eq_singleton_iff.1 hbodies
    refine ⟨?_, fun _ _ => trivial⟩
    rw [he]
    exact ⟨hactive, fun id task htask hstatus => by cases hrunning id task htask hstatus⟩
  | cons id ids ih =>
    obtain ⟨e, es, rfl, he, hes⟩ := List.map_eq_cons_iff.1 hbodies
    obtain ⟨attemptId, evidence, horphan⟩ : ∃ attemptId evidence,
        orphanEvent start catalog sessionId outcome id =
          .taskOrphaned id attemptId sessionId outcome evidence := by
      rw [orphanEvent]
      split <;> exact ⟨_, _, rfl⟩
    rw [horphan] at he
    refine ⟨by rw [he]; trivial, fun t ht => ih ?_ ?_ hes⟩
    · rw [State.apply, he] at ht
      obtain ⟨n, hn, rfl⟩ := Option.map_eq_some_iff.1 ht
      obtain ⟨_, _, rfl⟩ := updateTask_eq_some hn
      exact hactive
    · intro j task htask hstatus
      rw [State.apply, he] at ht
      obtain ⟨n, hn, rfl⟩ := Option.map_eq_some_iff.1 ht
      obtain ⟨old, -, rfl⟩ := updateTask_eq_some hn
      rw [Dict.get?_set] at htask
      split_ifs at htask with hj
      · cases htask
        cases hstatus
      · exact (List.mem_cons.1 (hrunning j task htask hstatus)).resolve_left hj

end Runs

/-! ## The handlers of a dispatcher -/

section Handlers

variable {s : State} {contract : RunContract} {catalog : EvidenceCatalog} {payload : Json}
  {events : List KernelEvent}

/-- A segment that is read has a new id, and a limit that is positive. -/
theorem yields_readSegment (seen : List String) (item : Json) :
    Yields (fun segment : Segment => segment.id ∉ seen ∧
      ∀ limit, segment.maxAttempts = some limit → 1 ≤ limit) (readSegment seen item) := by
  simp only [readSegment, yields_bind, yields_ite, yields_throw, implies_true, true_and]
  intro _ id _ hnew phases _
  split
  · exact yields_pure.2 ⟨hnew, by simp⟩
  · exact yields_pure.2 ⟨hnew, by simp⟩
  · simp only [yields_ite, yields_throw, implies_true, true_and, yields_pure]
    intro hpositive
    refine ⟨hnew, fun limit hlimit => ?_⟩
    cases hlimit
    omega
  · exact yields_throw

theorem yields_readSegments (items : List Json) {earlier : List Segment}
    (hnodup : (earlier.map (·.id)).Nodup)
    (hlimits : ∀ segment ∈ earlier, ∀ limit, segment.maxAttempts = some limit → 1 ≤ limit) :
    Yields (fun segments : List Segment => (segments.map (·.id)).Nodup ∧
      ∀ segment ∈ segments, ∀ limit, segment.maxAttempts = some limit → 1 ≤ limit)
      (readSegments earlier items) := by
  induction items generalizing earlier with
  | nil => exact yields_ok.2 ⟨hnodup, hlimits⟩
  | cons item rest ih =>
    rw [readSegments]
    cases hsegment : readSegment (earlier.map (·.id)) item with
    | error message => exact yields_error
    | ok segment =>
      obtain ⟨hnew, hlimit⟩ := yields_readSegment _ item segment hsegment
      refine ih ?_ fun x hx => ?_
      · rw [List.map_append, List.nodup_append]
        refine ⟨hnodup, List.nodup_singleton _, fun a ha b hb heq => ?_⟩
        obtain rfl : b = segment.id := List.mem_singleton.1 hb
        rw [← heq] at hnew
        exact hnew ha
      · cases List.mem_append.1 hx with
        | inl hold => exact hlimits x hold
        | inr hlast => exact List.mem_singleton.1 hlast ▸ hlimit

/-- The entries of a schema's segments. -/
def segmentItems (payload : Json) : List Json := ((payload.get? "segments").bind Json.asArr?).getD []

/-- What is registered has the digest that the command names and the segments that it lists. -/
theorem yields_register :
    Yields (fun effects : Effects => ∃ schema, effects.1 = [.coordinatorSchemaRegistered schema] ∧
      payloadText payload "sha256" "coordinator schema" = .ok schema.sha256 ∧
      readSegments [] (segmentItems payload) = .ok schema.segments ∧
      ∀ current, s.schema = some current → current.sha256 = schema.sha256)
      (coordinatorSchemaRegister s contract payload) := by
  simp only [coordinatorSchemaRegister, yields_bind, yields_ite, yields_throw, implies_true,
    true_and, yields_pure]
  intro protocol _ _ schemaId _ digest hdigest _ phases _ _ _ segments hsegments _ hsame
  refine ⟨_, rfl, hdigest, hsegments, fun current hcurrent => ?_⟩
  rw [hcurrent] at hsame
  simpa using hsame

/-- A session that starts is orderly. -/
theorem yields_start :
    Yields (fun effects : Effects => ∃ session, effects.1 = [.coordinatorSessionStarted session] ∧
      Orderly events s (.coordinatorSessionStarted session)) (coordinatorSessionStart s payload) := by
  rw [coordinatorSessionStart]
  cases hschema : s.schema with
  | none => exact yields_error
  | some schema =>
    simp only [yields_bind, yields_ite, yields_throw, implies_true, true_and]
    intro hidle sessionId _ segmentId _
    split
    · exact yields_throw
    · rename_i attempt _
      simp only [yields_bind, yields_ite, yields_throw, implies_true, true_and]
      intro _
      split
      · exact yields_throw
      · rename_i segment hsegment
        simp only [yields_bind, yields_ite, yields_throw, implies_true, true_and, yields_pure]
        intro howned hattempt hlimit
        have hnone : s.activeSession = none := by simpa using hidle
        have hid : segment.id = segmentId := by simpa using List.find?_some hsegment
        have hcount : s.sessions.countP (·.session.segmentId == segmentId) =
            (s.attempts segmentId).length := by
          rw [State.attempts, hnone, List.length_map, List.countP_eq_length_filter]
          simp [List.filter_map, Function.comp_def, beq_eq_decide]
        refine ⟨_, rfl, hnone, schema, segment, hschema, List.mem_of_find?_eq_some hsegment, hid, rfl,
          not_not.1 howned, ?_, fun limit hsome => ?_⟩
        · rw [← hcount]
          exact not_not.1 hattempt
        · rw [hsome] at hlimit
          simpa using hlimit

/-- The end of a session orphans what is running. -/
theorem yields_end :
    Yields (fun effects : Effects => ∃ sessionId outcome record,
      s.activeSession = some record.session ∧
      effects.1 = s.runningTaskIds.map (orphanEvent s catalog sessionId outcome) ++
        [.coordinatorSessionEnded record]) (coordinatorSessionEnd s catalog payload) := by
  rw [coordinatorSessionEnd]
  cases hactive : s.activeSession with
  | none => exact yields_error
  | some active =>
    simp only [yields_bind, yields_ite, yields_throw, implies_true, true_and, yields_pure]
    intro sessionId _ _ outcome _ _
    exact ⟨sessionId, outcome, _, rfl, rfl⟩

end Handlers

/-! ## Operations -/

/-- A command that names the digest of the registered schema lists its segments. -/
def RepeatsSchema (s : State) : Operation → Prop
  | .handle _ command => command.type = .coordinatorSchemaRegister →
      ∀ schema, s.schema = some schema →
        payloadText command.payload "sha256" "coordinator schema" = .ok schema.sha256 →
          ∀ segments, readSegments [] (segmentItems command.payload) = .ok segments →
            segments = schema.segments
  | _ => True

section Operations

variable {initial : State} {setting : Setting} {k k' : Kernel} {op : Operation}
  {es : List KernelEvent}

/-- No event of an operation that is none of a dispatcher's concerns an orphan. -/
theorem Ordered.unorphaned (h : Ordered initial k.events k.state) {b : EventBody}
    (hb : Lawful setting.contract k.state b) {id : String}
    (hid : (∃ task, b = .taskRegistered task ∧ task.id = id) ∨ b.progress? = some id)
    (hplain : ∀ id attempt session outcome evidence,
      b ≠ .taskOrphaned id attempt session outcome evidence) : ¬ Orphaned k.events id := by
  intro horphaned
  obtain ⟨task, htask, hfailed⟩ := h.failed id horphaned
  have hactive (hfound : ∃ found, k.state.tasks.get? id = some found ∧
      (found.status = .ready ∨ found.status = .running)) : False := by
    obtain ⟨found, hget, hstatus⟩ := hfound
    cases htask.symm.trans hget
    rw [hfailed] at hstatus
    cases hstatus with
    | inl hready => exact nomatch hready
    | inr hrunning => exact nomatch hrunning
  cases hid with
  | inl hregistered =>
    obtain ⟨new, rfl, rfl⟩ := hregistered
    exact hb.1 (Dict.mem_keys_iff.2 ⟨task, htask⟩)
  | inr hprogress => exact hactive (active_of_progress hb hprogress)

/-- The event is caused by none of the dispatcher's commands. -/
theorem EventBody.plain_of_commandType {b : EventBody} {type : Option CommandType}
    (hb : b.commandType? = type) (hregister : type ≠ some .coordinatorSchemaRegister)
    (hstart : type ≠ some .coordinatorSessionStart) (hend : type ≠ some .coordinatorSessionEnd) :
    b.dispatches = false ∧ ∀ id attempt session outcome evidence,
      b ≠ .taskOrphaned id attempt session outcome evidence := by
  subst hb
  cases b with
  | coordinatorSchemaRegistered _ => exact absurd rfl hregister
  | coordinatorSessionStarted _ => exact absurd rfl hstart
  | coordinatorSessionEnded _ => exact absurd rfl hend
  | taskOrphaned _ _ _ _ _ => exact absurd rfl hend
  | _ => exact ⟨rfl, nofun⟩

/-- **The events of an operation are orderly.** -/
theorem Appends.orderly (h : Ordered initial k.events k.state) (hop : RepeatsSchema k.state op)
    (happends : Appends setting k op es) : OrderlyRun k.events k.state es := by
  have hother {type : Option CommandType} (hregister : type ≠ some .coordinatorSchemaRegister)
      (hstart : type ≠ some .coordinatorSessionStart) (hend : type ≠ some .coordinatorSessionEnd)
      (hes : ∀ e ∈ es, e.body.commandType? = type) : OrderlyRun k.events k.state es := by
    refine orderlyRun_of_unorphaned (fun _ => id) fun e he => ?_
    obtain ⟨hdispatches, hplain⟩ := EventBody.plain_of_commandType (hes e he) hregister hstart hend
    exact ⟨hdispatches, hplain, fun id hid => h.unorphaned (happends.lawful e he) hid hplain⟩
  cases happends with
  | recorded hrecorded =>
    refine @hother none (by simp) (by simp) (by simp) fun e he => ?_
    obtain ⟨p, hp, -, hbody, -⟩ := mem_newEvents he
    exact hbody ▸ (hrecorded.lawful p hp).1
  | @committed catalog command effects haccepts heval =>
    have hbodies : (commitEvents k setting.contract command effects).map (·.body) = effects.1 := by
      rw [commitEvents, bodies_newEvents, List.map_map]
      simp
    by_cases hregister : command.type = .coordinatorSchemaRegister
    · have hhandler : coordinatorSchemaRegister k.state setting.contract command.payload =
          .ok effects := by rwa [State.evaluate, hregister] at heval
      obtain ⟨schema, heffects, hdigest, hsegments, hsame⟩ := yields_register effects hhandler
      obtain ⟨hnodup, hlimits⟩ :=
        @yields_readSegments _ [] List.nodup_nil (fun _ hmem => by cases hmem) _ hsegments
      obtain ⟨e, hes, he⟩ := List.map_eq_singleton_iff.1 (hbodies.trans heffects)
      rw [hes]
      refine ⟨?_, fun _ _ => trivial⟩
      rw [he]
      refine ⟨hnodup, hlimits, fun current hcurrent => ?_⟩
      rw [← hsame current hcurrent] at hdigest
      exact (hop hregister current hcurrent hdigest schema.segments hsegments).symm
    by_cases hstart : command.type = .coordinatorSessionStart
    · have hhandler : coordinatorSessionStart k.state command.payload = .ok effects := by
        rwa [State.evaluate, hstart] at heval
      have hyields : Yields (fun effects : Effects => ∃ session,
          effects.1 = [.coordinatorSessionStarted session] ∧
            Orderly k.events k.state (.coordinatorSessionStarted session))
          (coordinatorSessionStart k.state command.payload) := yields_start
      obtain ⟨session, heffects, horderly⟩ := hyields effects hhandler
      obtain ⟨e, hes, he⟩ := List.map_eq_singleton_iff.1 (hbodies.trans heffects)
      rw [hes]
      refine ⟨?_, fun _ _ => trivial⟩
      rw [he]
      exact horderly
    by_cases hend : command.type = .coordinatorSessionEnd
    · have hhandler : coordinatorSessionEnd k.state catalog command.payload = .ok effects := by
        rwa [State.evaluate, hend] at heval
      obtain ⟨sessionId, outcome, record, hactive, heffects⟩ := yields_end effects hhandler
      refine orderlyRun_orphans hactive (fun id task htask hstatus => ?_) (hbodies.trans heffects)
      have hmem : id ∈ (k.state.tasks.items.filter fun p => p.2.status = .running).map Prod.fst :=
        List.mem_map.2 ⟨(id, task), List.mem_filter.2
          ⟨Dict.get?_eq_some_iff.1 htask, decide_eq_true hstatus⟩, rfl⟩
      exact (List.mem_insertionSort (· ≤ ·)).2 hmem
    · refine @hother (some command.type) ?_ ?_ ?_ fun e he => ?_
      · exact fun heq => hregister (Option.some.inj heq)
      · exact fun heq => hstart (Option.some.inj heq)
      · exact fun heq => hend (Option.some.inj heq)
      · have hmem : e.body ∈ effects.1 := hbodies ▸ List.mem_map_of_mem he
        exact ((yields_evaluate effects heval).2 e.body hmem).1

end Operations

/-! ## Runs -/

/-- The kernels of a run with crashes whose operations meet a condition on their state. -/
inductive ReachedUnder (allowed : State → Operation → Prop) (setting : Setting) (initial : State) :
    Kernel → Prop
  | start : ReachedUnder allowed setting initial ⟨initial, []⟩
  | move {k k' : Kernel} (op : Operation) : ReachedUnder allowed setting initial k →
      allowed k.state op → Moves setting k op k' → ReachedUnder allowed setting initial k'

section Protocol

variable {setting : Setting} {k : Kernel} {allowed : State → Operation → Prop} {initial : State}

theorem ReachedUnder.reached (h : ReachedUnder allowed setting initial k) :
    Reached setting initial k := by
  induction h with
  | start => exact .start
  | move op _ _ hmove ih => exact .move op ih hmove

/-- **The session protocol in every run that repeats its schema**, with crashes at any write. -/
theorem session_protocol {criteria : Dict String Criterion} {artifacts : Dict String Artifact}
    (h : ReachedUnder RepeatsSchema setting (initialState setting.contract criteria artifacts) k) :
    SessionProtocol (initialState setting.contract criteria artifacts) k.events k.state := by
  have hordered : Ordered (initialState setting.contract criteria artifacts) k.events k.state := by
    induction h with
    | start => exact Ordered.initial_start _ _ _
    | @move k k' op hreached hop hmove ih =>
      obtain ⟨-, es, hes, hevents, t, ht, hstate⟩ := moves_cases (hreached.reached.sound rfl) hmove
      rw [hstate, hevents]
      refine Ordered.marked ?_ _
      obtain rfl | ⟨all, hall, i, rfl⟩ := hes
      · cases ht
        rwa [List.append_nil]
      · exact ih.run ((hall.orderly ih hop).take i) ht
  exact hordered.toSessionProtocol

theorem ReachedUnder.step (hzero : initial.kernelEventCount = 0)
    (h : ReachedUnder allowed setting initial k) {op : Operation} (hop : allowed k.state op) :
    ReachedUnder allowed setting initial (k.step setting op).kernel :=
  .move op h hop (moves_step (h.reached.sound hzero) setting op)

/-! ### A schema that is replaced -/

def dispatcherCommand (type : CommandType) (key : String) (revision : ℕ) (payload : Json) :
    Operation :=
  .handle ⟨∅, ∅⟩
    { commandId := key, runId := "run", type, actor := ⟨"dispatcher", .dispatcher, none⟩
      expectedRevision := revision, idempotencyKey := key, payload }

/-- The registration of one segment that owns the phases of the run. -/
def registerSchema (key : String) (revision : ℕ) (limit : Json) : Operation :=
  dispatcherCommand .coordinatorSchemaRegister key revision
    (Json.ofMembers [("protocol", .str "coordinator-dispatch-schema/1"), ("schema_id", .str "s"),
      ("sha256", .str (String.ofList (List.replicate 64 'a'))), ("phases", .arr [.str "work"]),
      ("segments", .arr [Json.ofMembers [("id", .str "work"), ("phases", .arr [.str "work"]),
        ("max_attempts", limit)]])])

def startSession (revision : ℕ) : Operation :=
  dispatcherCommand .coordinatorSessionStart "start" revision
    (Json.ofMembers [("session_id", .str "session-1"), ("segment_id", .str "work"),
      ("attempt", .int 1)])

/-- The kernel behind a schema, and behind the start of a session. -/
def registeredKernel : Kernel :=
  ((⟨exampleState, []⟩ : Kernel).step exampleSetting (registerSchema "schema" 0 (.int 1))).kernel

def startedKernel : Kernel := (registeredKernel.step exampleSetting (startSession 1)).kernel

theorem session_protocol_started :
    startedKernel.state.attempts "work" = [1] ∧
      SessionProtocol exampleState startedKernel.events startedKernel.state := by
  have hregistered : ReachedUnder RepeatsSchema exampleSetting exampleState registeredKernel :=
    ReachedUnder.start.step rfl fun _ schema hschema => nomatch hschema
  have hstarted : ReachedUnder RepeatsSchema exampleSetting exampleState startedKernel :=
    hregistered.step rfl fun htype => nomatch htype
  exact ⟨by decide +kernel, session_protocol hstarted⟩

/-- The digest is the command's: the same digest with another limit replaces the schema. -/
theorem schema_replaced :
    ¬ ∀ (setting : Setting) (criteria : Dict String Criterion) (artifacts : Dict String Artifact)
      (k : Kernel), Reached setting (initialState setting.contract criteria artifacts) k →
        SessionProtocol (initialState setting.contract criteria artifacts) k.events k.state := by
  intro hclaim
  have hreached : Reached exampleSetting exampleState
      (registeredKernel.step exampleSetting (registerSchema "again" 1 .null)).kernel :=
    (Reached.start.step rfl _).step rfl _
  have hchecked : ((registeredKernel.step exampleSetting
      (registerSchema "again" 1 .null)).kernel.events.any fun e =>
        match e.body with
        | .coordinatorSchemaRegistered schema => (registeredKernel.step exampleSetting
            (registerSchema "again" 1 .null)).kernel.state.schema.all fun current =>
              decide (current.segments ≠ schema.segments)
        | _ => false) = true := by decide +kernel
  generalize (registeredKernel.step exampleSetting (registerSchema "again" 1 .null)).kernel = k
    at hreached hchecked
  have hprotocol := hclaim exampleSetting ∅ ∅ k hreached
  obtain ⟨e, he, hother⟩ := List.any_eq_true.1 hchecked
  cases hbody : e.body with
  | coordinatorSchemaRegistered schema =>
    obtain ⟨current, hcurrent, hsame⟩ := hprotocol.fixed e he schema hbody
    rw [hbody, hcurrent] at hother
    exact absurd hsame (of_decide_eq_true hother)
  | _ =>
    rw [hbody] at hother
    exact nomatch hother

end Protocol

end HarnessLabs.Controller
