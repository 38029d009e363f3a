import TransactionSimulator.Outbox.Delivery

/-!
# Jobs that are created twice

An addition under the id of a job does nothing as long as the queue holds the job, and a job that is
completed leaves the queue.  So an event gets a second job if its first is completed while a relay may still
add it: while the event is unpublished, or while a relay that read it unpublished has yet to add its batch.

* `Claims`: a program adds only what its last call has read.
* `relayed_once`: one job for each event, in every run whose completions come late enough.
* `relayed_twice`: a relay that stops between its addition and its mark.
-/

namespace TransactionSimulator

open Concurrent Queueing Relational Texts

/-! ## What a program is about to add -/

/-- The next call of the program adds a job under the id. -/
def Adding {α : Type} (id : String) : RelayProgram α → Prop
  | .call (.addBulk jobs) _ => ∃ job ∈ jobs, job.2.jobId = some id
  | _ => False

/-- The answer to a call names the event. -/
def Reads (id : String) : (o : RelayOp) → Except JsError o.Res → Prop
  | .findMany _, .ok events => ∃ e ∈ events, e.id = id
  | _, _ => False

/-- A call adds only jobs of events. -/
def RelayOp.OfEvents : RelayOp → Prop
  | .addBulk jobs => ∀ job ∈ jobs, ∃ id, job.2 = outboxRelayQueue id
  | _ => True

/-- **The program adds only events that the call before has read.** -/
def Claims {α : Type} : RelayProgram α → Prop
  | .call o k => o.OfEvents ∧ ∀ r, (∀ id, Adding id (k r) → Reads id o r) ∧ Claims (k r)
  | _ => True

section Programs

variable {α β : Type}

theorem Adding.of_bind {id : String} {p : RelayProgram α} {f : α → RelayProgram β} (h : Adding id (p.bind f))
    (hstart : ∀ a, ¬ Adding id (f a)) : Adding id p := by
  cases p with
  | pure a => exact absurd h (hstart a)
  | throw e => exact h
  | call o k => cases o <;> exact h

theorem Adding.of_tryCatch {id : String} {p : RelayProgram α} {h : JsError → RelayProgram α}
    (hadding : Adding id (p.tryCatch h)) (hstart : ∀ e, ¬ Adding id (h e)) : Adding id p := by
  cases p with
  | pure a => exact hadding
  | throw e => exact absurd hadding (hstart e)
  | call o k => cases o <;> exact hadding

theorem Claims.bind {p : RelayProgram α} {f : α → RelayProgram β} (hp : Claims p) (hf : ∀ a, Claims (f a))
    (hstart : ∀ a id, ¬ Adding id (f a)) : Claims (p.bind f) := by
  induction p with
  | pure a => exact hf a
  | throw e => exact trivial
  | call o k ih =>
    refine ⟨hp.1, fun r => ⟨?_, ih r (hp.2 r).2⟩⟩
    intro id hadding
    exact (hp.2 r).1 id (hadding.of_bind fun a => hstart a id)

theorem Claims.tryCatch {p : RelayProgram α} {h : JsError → RelayProgram α} (hp : Claims p)
    (hh : ∀ e, Claims (h e)) (hstart : ∀ e id, ¬ Adding id (h e)) : Claims (p.tryCatch h) := by
  induction p with
  | pure a => exact trivial
  | throw e => exact hh e
  | call o k ih =>
    refine ⟨hp.1, fun r => ⟨?_, ih r (hp.2 r).2⟩⟩
    intro id hadding
    exact (hp.2 r).1 id (hadding.of_tryCatch fun e => hstart e id)

theorem claims_perform {o : RelayOp} (h : o.OfEvents) : Claims (Prog.perform o : RelayProgram o.Res) := by
  refine ⟨h, fun r => ?_⟩
  cases r with
  | ok a => exact ⟨fun _ hadding => hadding.elim, trivial⟩
  | error e => exact ⟨fun _ hadding => hadding.elim, trivial⟩

theorem not_adding_markPublished (ids : List String) (id : String) :
    ¬ Adding id (OutboxEventRepository.markPublished ids) := by
  rw [OutboxEventRepository.markPublished]
  split <;> exact fun h => h

theorem claims_markPublished (ids : List String) : Claims (OutboxEventRepository.markPublished ids) := by
  rw [OutboxEventRepository.markPublished]
  split
  · exact trivial
  · refine Claims.bind (claims_perform ?_) (fun _ => claims_perform ?_) fun _ _ h => h
    · exact trivial
    · exact trivial

/-- **A relay adds the events that it has just read.** -/
theorem claims_relay (limit : Nat) : Claims (OutboxEventService.relay limit) := by
  refine ⟨trivial, fun r => ?_⟩
  cases r with
  | error e => exact ⟨fun _ h => h.elim, trivial⟩
  | ok events =>
    refine ⟨?_, ?_⟩
    · intro id h
      replace h : Adding id (if events.length = 0 then (.pure 0 : RelayProgram Nat) else _) := h
      split at h
      · exact h.elim
      · obtain ⟨job, hjob, hid⟩ := h
        obtain ⟨e, he, rfl⟩ := List.mem_map.mp hjob
        exact ⟨e, he, Option.some.inj hid⟩
    · change Claims (if events.length = 0 then (.pure 0 : RelayProgram Nat) else _)
      split
      · exact trivial
      · refine Claims.bind (claims_perform ?_) (fun _ => ?_) fun _ id h => ?_
        · intro job hjob
          obtain ⟨e, -, rfl⟩ := List.mem_map.mp hjob
          exact ⟨e.id, rfl⟩
        · exact (claims_markPublished _).bind (fun _ => trivial) fun _ _ h => h
        · exact not_adding_markPublished _ id (h.of_bind fun _ h => h)

theorem claims_prog (t : RelayTask) : Claims (relaySystem.prog t) := by
  have hvoid : ∀ limit, Claims (OutboxEventService.relay limit).void :=
    fun limit => (claims_relay limit).bind (fun _ => trivial) fun _ _ h => h
  cases t with
  | relay limit => exact hvoid limit
  | run ownerId =>
    refine Claims.bind (Claims.tryCatch (claims_perform ?_) (fun _ => trivial) fun _ _ h => h)
      (fun leaseAcquired => ?_) fun leaseAcquired id h => ?_
    · exact trivial
    · cases leaseAcquired with
      | false => exact trivial
      | true =>
        refine Claims.bind ((hvoid 50).tryCatch (fun _ => trivial) fun _ _ h => h) (fun _ => ?_) fun _ _ h => h
        refine Claims.tryCatch (claims_perform ?_) (fun _ => trivial) fun _ _ h => h
        exact trivial
    · cases leaseAcquired <;> exact h
  | renewLease ownerId =>
    refine Claims.tryCatch (Claims.bind (claims_perform ?_) (fun _ => trivial) fun _ _ h => h) (fun _ => trivial)
      fun _ _ h => h
    exact trivial

end Programs

/-! ## When a job may be completed -/

/-- No program of the pool is about to add a job under the id. -/
def Unclaimed (c : RelayConfig) (id : String) : Prop := ∀ p, some p ∈ c.procs → ¬ Adding id p

/-- A job is completed only when its event is published and no relay is about to add it. -/
def Careful (c : RelayConfig) : RelayEvent → Prop
  | .shift (.complete jobId) => ∀ j, c.world.queue.jobs.get jobId = some j → j.state = .active →
      c.world.publishedAs jobId = true ∧ Unclaimed c jobId
  | _ => True

/-- Every completion of the run comes late enough. -/
def CarefulRun (c : RelayConfig) : List RelayEvent → Prop
  | [] => True
  | e :: es => Careful c e ∧ CarefulRun (c.apply relaySystem e) es

/-- **One job for each id**: a job that was created is still there, or its event is published and out of the
relays' hands. -/
structure Single (c : RelayConfig) : Prop where
  procs : ∀ p, some p ∈ c.procs → Claims p
  kept : ∀ j ∈ c.world.queue.jobs.rows, j.opts.removeOnFail = false
  once : ∀ id, c.world.created.countP (fun j => j.id = id) ≤ 1
  held : ∀ id, (∃ j ∈ c.world.created, j.id = id) →
    (c.world.queue.jobs.get id).isSome = true ∨ (c.world.publishedAs id = true ∧ Unclaimed c id)

section Steps

variable {c : RelayConfig} {w : RelayWorld}

theorem queue_exec (o : RelayOp) (i : RelayInput) (w : RelayWorld) :
    ((o.exec i w).2.queue = w.queue ∧ (o.exec i w).2.created = w.created) ∨
      ∃ jobs, o = .addBulk jobs ∧ (o.exec i w).2.queue = (w.queue.addBulk jobs).1 ∧
        (o.exec i w).2.created = w.created ++ (w.queue.addBulk jobs).2 := by
  refine RelayOp.exec_snd (P := fun w w' => (w'.queue = w.queue ∧ w'.created = w.created) ∨
    ∃ jobs, o = .addBulk jobs ∧ w'.queue = (w.queue.addBulk jobs).1 ∧
      w'.created = w.created ++ (w.queue.addBulk jobs).2) (.inl ⟨rfl, rfl⟩) ?_
  cases o with
  | addBulk jobs => exact .inr ⟨jobs, rfl, rfl, rfl⟩
  | updateMany ids publishedAt => exact .inl ⟨publish_queue w ids publishedAt, publish_created w ids publishedAt⟩
  | _ => exact .inl ⟨rfl, rfl⟩

theorem publishedAs_exec (o : RelayOp) (i : RelayInput) {id : String} (h : w.publishedAs id = true) :
    (o.exec i w).2.publishedAs id = true := by
  obtain ⟨e, he, hid, hpublished⟩ := RelayWorld.publishedAs_iff.mp h
  rcases events_exec o i w with hsame | ⟨ids, publishedAt, -, hleft⟩
  · exact RelayWorld.publishedAs_iff.mpr ⟨e, hsame ▸ he, hid, hpublished⟩
  · rw [hleft, RelayWorld.publishedAs_iff]
    by_cases hin : e.id ∈ ids
    · exact ⟨_, mem_publish.mpr ⟨e, he, .inl ⟨hin, rfl⟩⟩, hid, rfl⟩
    · exact ⟨e, mem_publish.mpr ⟨e, he, .inr ⟨hin, rfl⟩⟩, hid, hpublished⟩

/-- What a program is about to add after a call is unpublished. -/
theorem publishedAs_of_adding {o : RelayOp} {k : Except JsError o.Res → RelayProgram Unit} (h : Claims (.call o k))
    {i : RelayInput} {id : String} (hadding : Adding id (k (o.exec i w).1)) : w.publishedAs id = false := by
  have hreads := (h.2 _).1 id hadding
  cases o with
  | findMany take =>
    cases hresult : (RelayOp.exec (.findMany take) i w).1 with
    | error e =>
      rw [hresult] at hreads
      exact hreads.elim
    | ok events =>
      rw [hresult] at hreads
      obtain ⟨e, he, rfl⟩ := hreads
      rw [RelayOp.exec_ok hresult] at hresult
      rw [← Except.ok.inj hresult] at he
      obtain ⟨hmem, hunpublished⟩ := w.events.mem_findMany he
      rw [← Bool.not_eq_true, RelayWorld.publishedAs_iff]
      intro hpublished
      obtain ⟨s, hs, hid, hspublished⟩ := hpublished
      rw [eq_of_id hs hmem hid] at hspublished
      rw [hspublished] at hunpublished
      cases hunpublished
  | _ => exact hreads.elim

/-- A step that creates no job. -/
theorem Single.mono {c' : RelayConfig} (h : Single c) (hprocs : ∀ p, some p ∈ c'.procs → Claims p)
    (hkept : ∀ j ∈ c'.world.queue.jobs.rows, j.opts.removeOnFail = false)
    (hcreated : c'.world.created = c.world.created)
    (hqueue : ∀ id, (c.world.queue.jobs.get id).isSome = true → (c'.world.queue.jobs.get id).isSome = true ∨
      (c'.world.publishedAs id = true ∧ Unclaimed c' id))
    (hunclaimed : ∀ id, c.world.publishedAs id = true → Unclaimed c id →
      c'.world.publishedAs id = true ∧ Unclaimed c' id) : Single c' := by
  refine ⟨hprocs, hkept, ?_, ?_⟩
  · rw [hcreated]
    exact h.once
  · intro id hid
    rw [hcreated] at hid
    rcases h.held id hid with hsome | ⟨hpublished, hfree⟩
    · exact hqueue id hsome
    · exact .inr (hunclaimed id hpublished hfree)

theorem not_adding_prog (t : RelayTask) (id : String) : ¬ Adding id (relaySystem.prog t) := by
  cases t <;> exact fun h => h

/-- What goes on around the relays. -/
theorem Single.shift (h : Single c) {d : RelayShift} (hd : Careful c (.shift d)) :
    Single (c.apply relaySystem (.shift d)) := by
  have hpublished : ∀ id, (c.world.shift d).publishedAs id = c.world.publishedAs id :=
    fun id => c.world.publishedAs_shift d id
  have hunclaimed : ∀ id, c.world.publishedAs id = true → Unclaimed c id →
      (c.world.shift d).publishedAs id = true ∧ Unclaimed (c.apply relaySystem (.shift d)) id :=
    fun id hid hfree => ⟨(hpublished id).trans hid, hfree⟩
  have hopts : ∀ q, c.world.queue.Within q → ∀ j ∈ q.jobs.rows, j.opts.removeOnFail = false := by
    intro q hq j hj
    obtain ⟨i, hi, -, -, hopts⟩ := hq j hj
    rw [← hopts]
    exact h.kept i hi
  have hfails : ∀ id j, c.world.queue.jobs.get id = some j → j.opts.removeOnFail = false :=
    fun id j hj => h.kept j (c.world.queue.jobs.get_eq_some_iff.mp hj).1
  cases d with
  | commit id aggregateId type payload createdAt =>
    exact h.mono h.procs h.kept rfl (fun _ hsome => .inl hsome) hunclaimed
  | tick elapsed => exact h.mono h.procs h.kept rfl (fun _ hsome => .inl hsome) hunclaimed
  | take jobId =>
    refine h.mono h.procs (hopts _ JobQueue.within_take) rfl (fun id hsome => .inl ?_) hunclaimed
    exact (JobQueue.isSome_get_take id).trans hsome
  | fail jobId =>
    refine h.mono h.procs (hopts _ JobQueue.within_fail) rfl (fun id hsome => .inl ?_) hunclaimed
    exact (JobQueue.isSome_get_fail (hfails jobId)).trans hsome
  | stall jobId =>
    refine h.mono h.procs (hopts _ JobQueue.within_stall) rfl (fun id hsome => .inl ?_) hunclaimed
    exact (JobQueue.isSome_get_stall (hfails jobId)).trans hsome
  | complete jobId =>
    refine h.mono h.procs (hopts _ JobQueue.within_complete) rfl (fun id hsome => ?_) hunclaimed
    by_cases hid : id = jobId
    · subst hid
      obtain ⟨j, hj⟩ := Option.isSome_iff_exists.mp hsome
      by_cases hactive : j.state = .active
      · exact .inr (hunclaimed id (hd j hj hactive).1 (hd j hj hactive).2)
      · -- only an active job is completed
        have hsame : c.world.queue.complete id = c.world.queue := by
          rw [JobQueue.complete, hj]
          exact if_neg hactive
        refine .inl ?_
        change ((c.world.queue.complete id).jobs.get id).isSome = true
        rw [hsame]
        exact hsome
    · exact .inl ((JobQueue.isSome_get_complete hid).trans hsome)

/-- A call. -/
theorem Single.call (h : Single c) {pid : Nat} {o : RelayOp} {k : Except JsError o.Res → RelayProgram Unit}
    (hpid : c.procs[pid]? = some (some (.call o k))) (i : RelayInput) :
    Single ⟨(o.exec i c.world).2, c.procs.set pid (some (k (o.exec i c.world).1))⟩ := by
  have hmem : some (Prog.call o k) ∈ c.procs := List.mem_of_getElem? hpid
  have hclaims := h.procs _ hmem
  have hprocs : ∀ p, some p ∈ c.procs.set pid (some (k (o.exec i c.world).1)) →
      some p ∈ c.procs ∨ p = k (o.exec i c.world).1 := by
    intro p hp
    rcases List.mem_or_eq_of_mem_set hp with hp | hp
    · exact .inl hp
    · exact .inr (Option.some.inj hp)
  have hclaims' : ∀ p, some p ∈ c.procs.set pid (some (k (o.exec i c.world).1)) → Claims p := by
    intro p hp
    rcases hprocs p hp with hp | rfl
    · exact h.procs p hp
    · exact (hclaims.2 _).2
  have hunclaimed : ∀ id, c.world.publishedAs id = true → Unclaimed c id → (o.exec i c.world).2.publishedAs id = true ∧
      Unclaimed ⟨(o.exec i c.world).2, c.procs.set pid (some (k (o.exec i c.world).1))⟩ id := by
    intro id hpublished hfree
    refine ⟨publishedAs_exec o i hpublished, ?_⟩
    intro p hp hadding
    rcases hprocs p hp with hp | rfl
    · exact hfree p hp hadding
    · rw [publishedAs_of_adding hclaims hadding] at hpublished
      cases hpublished
  rcases queue_exec o i c.world with ⟨hqueue, hcreated⟩ | ⟨jobs, rfl, hqueue, hcreated⟩
  · refine h.mono hclaims' ?_ hcreated (fun id hsome => .inl ?_) hunclaimed
    · rw [hqueue]
      exact h.kept
    · rw [hqueue]
      exact hsome
  · -- jobs are added: those whose id the queue does not hold are new
    have hids : ∀ job ∈ jobs, job.2.jobId.isSome := by
      intro job hjob
      obtain ⟨id, hid⟩ := hclaims.1 job hjob
      rw [hid]
      rfl
    have hadds : ∀ j ∈ (c.world.queue.addBulk jobs).2, ¬ Unclaimed c j.id := by
      intro j hj hfree
      obtain ⟨-, job, hjob, hid, -⟩ := JobQueue.of_mem_addBulk hids hj
      exact hfree _ hmem ⟨job, hjob, hid⟩
    refine ⟨hclaims', ?_, ?_, ?_⟩
    · intro j hj
      rw [hqueue] at hj
      rcases JobQueue.mem_addBulk.mp hj with hj | hj
      · exact h.kept j hj
      · obtain ⟨-, job, hjob, -, hnew⟩ := JobQueue.of_mem_addBulk hids hj
        obtain ⟨id, hid⟩ := hclaims.1 job hjob
        rw [hnew, hid]
        rfl
    · intro id
      have hnew := JobQueue.countP_addBulk_le (q := c.world.queue) hids id
      rw [hcreated, List.countP_append]
      by_cases hold : ∃ j ∈ c.world.created, j.id = id
      · have hnone : (c.world.queue.addBulk jobs).2.countP (fun j => j.id = id) = 0 := by
          rcases h.held id hold with hsome | ⟨-, hfree⟩
          · rw [if_neg (Option.isSome_iff_ne_none.mp hsome)] at hnew
            omega
          · rw [List.countP_eq_zero]
            intro j hj hid
            exact hadds j hj (of_decide_eq_true hid ▸ hfree)
        have honce := h.once id
        omega
      · have hnone : c.world.created.countP (fun j => j.id = id) = 0 := by
          rw [List.countP_eq_zero]
          intro j hj hid
          exact hold ⟨j, hj, of_decide_eq_true hid⟩
        split at hnew <;> omega
    · intro id hid
      obtain ⟨j, hj, hjid⟩ := hid
      rw [hcreated] at hj
      have hheld : ∀ j', j' ∈ (c.world.queue.addBulk jobs).1.jobs.rows → id ∈ [j'.id] →
          ((RelayOp.exec (.addBulk jobs) i c.world).2.queue.jobs.get id).isSome = true := by
        intro j' hj' hkey
        rw [hqueue, Option.isSome_iff_exists]
        exact ⟨j', (Table.get_eq_some_iff _).mpr ⟨hj', hkey⟩⟩
      rcases List.mem_append.mp hj with hj | hj
      · rcases h.held id ⟨j, hj, hjid⟩ with hsome | ⟨hpublished, hfree⟩
        · obtain ⟨j', hj'⟩ := Option.isSome_iff_exists.mp hsome
          obtain ⟨hmem', hkey⟩ := (Table.get_eq_some_iff _).mp hj'
          exact .inl (hheld j' (JobQueue.mem_addBulk.mpr (.inl hmem')) hkey)
        · exact .inr (hunclaimed id hpublished hfree)
      · exact .inl (hheld j (JobQueue.mem_addBulk.mpr (.inr hj)) (by simp [hjid]))

/-- **One event.** -/
theorem Single.apply (h : Single c) {e : RelayEvent} (he : Careful c e) : Single (c.apply relaySystem e) := by
  cases e with
  | spawn t =>
    have hprocs : ∀ p, some p ∈ (c.apply relaySystem (.spawn t)).procs → some p ∈ c.procs ∨ p = relaySystem.prog t := by
      intro p hp
      rcases List.mem_append.mp hp with hp | hp
      · exact .inl hp
      · exact .inr (Option.some.inj (List.mem_singleton.mp hp))
    refine h.mono ?_ h.kept rfl (fun _ hsome => .inl hsome) ?_
    · intro p hp
      rcases hprocs p hp with hp | rfl
      · exact h.procs p hp
      · exact claims_prog t
    · intro id hpublished hfree
      refine ⟨hpublished, fun p hp => ?_⟩
      rcases hprocs p hp with hp | rfl
      · exact hfree p hp
      · exact not_adding_prog t id
  | crash pid =>
    have hprocs : ∀ p, some p ∈ (c.apply relaySystem (.crash pid)).procs → some p ∈ c.procs := by
      intro p hp
      rcases List.mem_or_eq_of_mem_set hp with hp | hp
      · exact hp
      · cases hp
    exact h.mono (fun p hp => h.procs p (hprocs p hp)) h.kept rfl (fun _ hsome => .inl hsome)
      fun id hpublished hfree => ⟨hpublished, fun p hp => hfree p (hprocs p hp)⟩
  | shift d => exact h.shift he
  | step pid i =>
    rw [Config.apply]
    split
    · next o k hpid => exact h.call hpid i
    · exact h

/-- **A whole run.** -/
theorem Single.after (h : Single c) {es : List RelayEvent} (hes : CarefulRun c es) :
    Single (c.after relaySystem es) := by
  induction es generalizing c with
  | nil => exact h
  | cons e es ih => exact ih (h.apply hes.1) hes.2

end Steps

theorem RelayWorld.Fresh.single {w : RelayWorld} (hw : w.Fresh) : Single w.start := by
  refine ⟨fun p hp => ?_, ?_, ?_, ?_⟩
  · cases hp
  · intro j hj
    rw [show w.start.world.queue.jobs.rows = [] from hw.queue] at hj
    cases hj
  · intro id
    rw [show w.start.world.created = [] from hw.created]
    exact Nat.zero_le 1
  · intro id hid
    obtain ⟨j, hj, -⟩ := hid
    rw [show w.start.world.created = [] from hw.created] at hj
    cases hj

/-- **At most one job is created for an event** in every run in which a job is completed only when its event
is published and no relay is about to add it. -/
theorem relayed_once {w : RelayWorld} (hw : w.Fresh) {es : List RelayEvent} (hes : CarefulRun w.start es)
    (id : String) : (w.start.after relaySystem es).world.created.countP (fun j => j.id = id) ≤ 1 :=
  (hw.single.after hes).once id

/-- A relay goes through, and its job is completed. -/
def relayedAndConsumed : List RelayEvent := relayedOnce ++ [.shift (.take "event"), .shift (.complete "event")]

theorem relayed_once_consumed : RelayWorld.sample.Fresh ∧
    (RelayWorld.sample.start.after relaySystem relayedAndConsumed).world.queue.jobs.rows.length = 0 ∧
    (RelayWorld.sample.start.after relaySystem relayedAndConsumed).world.created.countP (fun j => j.id = "event") ≤ 1 := by
  refine ⟨RelayWorld.sample_fresh, by decide +kernel, relayed_once RelayWorld.sample_fresh ?_ "event"⟩
  refine ⟨trivial, trivial, trivial, trivial, trivial, trivial, ?_, trivial⟩
  intro j _ _
  refine ⟨by decide +kernel, ?_⟩
  intro p hp
  obtain rfl := Option.some.inj (List.mem_singleton.mp hp)
  exact fun h => h

/-- A relay adds the job and stops; the job is completed, and the next relay adds it again. -/
def relayedAgain : List RelayEvent :=
  [.spawn (.relay 50), .step 0 {}, .step 0 {}, .crash 0, .shift (.take "event"), .shift (.complete "event"),
    .spawn (.relay 50), .step 1 {}, .step 1 {}]

theorem relayed_twice : ¬ ∀ (w : RelayWorld), w.Fresh → ∀ (es : List RelayEvent) (id : String),
    (w.start.after relaySystem es).world.created.countP (fun j => j.id = id) ≤ 1 := by
  intro h
  exact absurd (h .sample RelayWorld.sample_fresh relayedAgain "event") (by decide +kernel)

end TransactionSimulator
