import TransactionSimulator.Lib.Pool
import TransactionSimulator.Outbox.Relay

/-!
# Events that are relayed

A relay adds the jobs of the events before it marks them, and nobody changes what a job is made of.  So at
the moment of the mark each event has its job, whoever created it and whatever became of it since; an event
without a job is unpublished, and the relays that are still to come find it.

* `RelayMoves`: what no call and nobody else undoes.  `Relays`: an event is marked once its job was created.
* `relay_loses_nothing`: what holds in every run.
-/

namespace TransactionSimulator

open Concurrent Queueing Relational Texts

open Prog (wp wp_bind wp_perform wp_mono Safe Yields Stable)

/-! ## What is kept -/

namespace RelayWorld

/-- A published event had its job created; a job belongs to an event, and the queue holds only created jobs. -/
structure Sound (w : RelayWorld) : Prop where
  published : ∀ e ∈ w.events.rows, e.published = true → w.Enqueued e
  queued : ∀ j ∈ w.queue.jobs.rows, ∃ i ∈ w.created, i.id = j.id
  created : ∀ j ∈ w.created, ∃ e ∈ w.events.rows, j.id = e.id ∧ j.data = e.relayJob

/-- The events that are still to be published. -/
def unpublished (w : RelayWorld) : List String := (w.events.rows.filter fun e => !e.published).map fun e => e.id

end RelayWorld

/-- An event and the same event later on. -/
structure Later (e e' : OutboxRow Json) : Prop where
  job : e'.relayJob = e.relayJob
  published : e.published = true → e'.published = true

/-- No event is dropped, changed or unpublished, and no job is struck from the record; `closed`: no event is
committed. -/
structure RelayMoves (closed : Prop) (w w' : RelayWorld) : Prop where
  rows : ∀ e ∈ w.events.rows, ∃ e' ∈ w'.events.rows, Later e e'
  created : ∀ j ∈ w.created, j ∈ w'.created
  unpublished : closed → ∀ id ∈ w'.unpublished, id ∈ w.unpublished
  sound : w.Sound → w'.Sound

/-- The event is marked once its job was created. -/
structure Relays (closed : Prop) (w w' : RelayWorld) : Prop where
  moves : RelayMoves closed w w'
  marked : ∀ e ∈ w.events.rows, ∀ e' ∈ w'.events.rows, Later e e' → e.published = false → e'.published = true →
    w.Enqueued e

section RelayMoves

variable {closed : Prop} {w w' w'' : RelayWorld} {e e' e'' : OutboxRow Json}

theorem Later.refl (e : OutboxRow Json) : Later e e := ⟨rfl, fun h => h⟩

theorem Later.trans (h : Later e e') (h' : Later e' e'') : Later e e'' :=
  ⟨h'.job.trans h.job, fun hp => h'.published (h.published hp)⟩

theorem Later.id (h : Later e e') : e'.id = e.id := congrArg OutboxRelayJob.outboxEventId h.job

theorem RelayMoves.refl (w : RelayWorld) : RelayMoves closed w w :=
  ⟨fun e he => ⟨e, he, .refl e⟩, fun _ h => h, fun _ _ h => h, fun h => h⟩

theorem RelayMoves.trans (h : RelayMoves closed w w') (h' : RelayMoves closed w' w'') : RelayMoves closed w w'' := by
  refine ⟨?_, fun j hj => h'.created j (h.created j hj), ?_, fun hw => h'.sound (h.sound hw)⟩
  · intro e he
    obtain ⟨e', he', hlater⟩ := h.rows e he
    obtain ⟨e'', he'', hlater'⟩ := h'.rows e' he'
    exact ⟨e'', he'', hlater.trans hlater'⟩
  · intro hclosed id hid
    exact h.unpublished hclosed id (h'.unpublished hclosed id hid)

theorem RelayMoves.star (h : Relation.ReflTransGen (RelayMoves closed) w w') : RelayMoves closed w w' := by
  induction h with
  | refl => exact .refl w
  | tail _ hs ih => exact ih.trans hs

theorem eq_of_id (he : e ∈ w.events.rows) (he' : e' ∈ w.events.rows) (hid : e.id = e'.id) : e = e' :=
  w.events.eq_of_mem_keys he he' (k := e.id) (by simp) (by simp [hid])

theorem RelayWorld.Enqueued.later (h : w.Enqueued e) (hcreated : ∀ j ∈ w.created, j ∈ w'.created)
    (hlater : Later e e') : w'.Enqueued e' := by
  obtain ⟨j, hj, hid, hdata⟩ := h
  exact ⟨j, hcreated j hj, hid.trans hlater.id.symm, hdata.trans hlater.job.symm⟩

theorem RelayWorld.mem_unpublished {id : String} :
    id ∈ w.unpublished ↔ ∃ e ∈ w.events.rows, e.published = false ∧ e.id = id := by
  simp [RelayWorld.unpublished, and_assoc]

/-- A step that writes neither the events nor the record, and adds nothing to the queue. -/
theorem Relays.of_queue (hevents : w'.events = w.events) (hcreated : w'.created = w.created)
    (hqueue : ∀ j ∈ w'.queue.jobs.rows, ∃ i ∈ w.queue.jobs.rows, i.id = j.id) : Relays closed w w' := by
  refine ⟨⟨?_, ?_, ?_, ?_⟩, ?_⟩
  · intro e he
    exact ⟨e, hevents ▸ he, .refl e⟩
  · intro j hj
    exact hcreated ▸ hj
  · intro _ id hid
    rw [RelayWorld.mem_unpublished, hevents] at hid
    exact RelayWorld.mem_unpublished.mpr hid
  · intro hw
    refine ⟨?_, ?_, ?_⟩
    · intro e he hpublished
      rw [hevents] at he
      exact (hw.published e he hpublished).later (fun j hj => hcreated ▸ hj) (.refl e)
    · intro j hj
      obtain ⟨i, hi, hid⟩ := hqueue j hj
      obtain ⟨k, hk, hkid⟩ := hw.queued i hi
      exact ⟨k, hcreated ▸ hk, hkid.trans hid⟩
    · rw [hcreated, hevents]
      exact hw.created
  · intro e he e' he' hlater hbefore hafter
    rw [hevents] at he'
    rw [eq_of_id he he' hlater.id.symm] at hbefore
    rw [hbefore] at hafter
    cases hafter

/-- When the relay may make a call: the jobs are those of events, and an event is marked once its job was
created. -/
def RelayOp.Due (w : RelayWorld) : RelayOp → Prop
  | .addBulk jobs => ∀ job ∈ jobs, ∃ e ∈ w.events.rows, job = (e.relayJob, outboxRelayQueue e.id)
  | .updateMany ids _ => ∀ e ∈ w.events.rows, e.id ∈ ids → w.Enqueued e
  | _ => True

/-- Jobs of events are added. -/
theorem relays_addBulk {jobs : List (OutboxRelayJob × JobOptions)} (h : RelayOp.Due w (.addBulk jobs)) (i : RelayInput) :
    Relays closed w (RelayOp.effect i w (.addBulk jobs)).2 := by
  have hids : ∀ job ∈ jobs, job.2.jobId.isSome := by
    intro job hjob
    obtain ⟨e, -, rfl⟩ := h job hjob
    rfl
  have hmore : ∀ j ∈ w.created, j ∈ w.created ++ (w.queue.addBulk jobs).2 := fun j hj => List.mem_append_left _ hj
  refine ⟨⟨fun e he => ⟨e, he, .refl e⟩, hmore, fun _ _ hid => hid, fun hw => ⟨?_, ?_, ?_⟩⟩, ?_⟩
  · intro e he hpublished
    exact (hw.published e he hpublished).later hmore (.refl e)
  · intro j hj
    rcases JobQueue.mem_addBulk.mp hj with hj | hj
    · obtain ⟨i, hi, hid⟩ := hw.queued j hj
      exact ⟨i, hmore i hi, hid⟩
    · exact ⟨j, List.mem_append_right _ hj, rfl⟩
  · intro j hj
    rcases List.mem_append.mp hj with hj | hj
    · exact hw.created j hj
    · obtain ⟨-, job, hjob, hid, hnew⟩ := JobQueue.of_mem_addBulk hids hj
      obtain ⟨e, he, rfl⟩ := h job hjob
      refine ⟨e, he, ?_, ?_⟩
      · exact (Option.some.inj hid).symm
      · rw [hnew]
  · intro e he e' he' hlater hbefore hafter
    rw [← eq_of_id he he' hlater.id.symm, hbefore] at hafter
    cases hafter

theorem publish_rows (w : RelayWorld) (ids : List String) (publishedAt : Date) :
    (w.publish ids publishedAt).events.rows =
      w.events.written (fun e => e.id ∈ ids) (OutboxRow.publish publishedAt) := by
  obtain ⟨t, n, hupdate⟩ := w.events.updateMany_isSome (fun e => e.id ∈ ids) (OutboxRow.publish publishedAt)
    (fun _ _ => rfl)
  rw [RelayWorld.publish, hupdate]
  exact (Table.updateMany_eq_some hupdate).1

@[simp] theorem publish_queue (w : RelayWorld) (ids : List String) (publishedAt : Date) :
    (w.publish ids publishedAt).queue = w.queue := by
  rw [RelayWorld.publish]
  split <;> rfl

@[simp] theorem publish_created (w : RelayWorld) (ids : List String) (publishedAt : Date) :
    (w.publish ids publishedAt).created = w.created := by
  rw [RelayWorld.publish]
  split <;> rfl

theorem mem_publish {ids : List String} {publishedAt : Date} : e' ∈ (w.publish ids publishedAt).events.rows ↔
    ∃ e ∈ w.events.rows, (e.id ∈ ids ∧ e' = e.publish publishedAt) ∨ (e.id ∉ ids ∧ e' = e) := by
  rw [publish_rows, Table.mem_written]
  refine exists_congr fun e => and_congr_right fun _ => ?_
  by_cases hid : e.id ∈ ids
  · simp [hid, eq_comm]
  · simp [hid, eq_comm]

theorem later_publish (e : OutboxRow Json) (publishedAt : Date) : Later e (e.publish publishedAt) :=
  ⟨rfl, fun _ => rfl⟩

/-- Events that have their job are marked. -/
theorem relays_publish {ids : List String} {publishedAt : Date} (h : RelayOp.Due w (.updateMany ids publishedAt)) :
    Relays closed w (w.publish ids publishedAt) := by
  refine ⟨⟨?_, by simp, ?_, fun hw => ⟨?_, by simpa using hw.queued, ?_⟩⟩, ?_⟩
  · intro e he
    by_cases hid : e.id ∈ ids
    · exact ⟨_, mem_publish.mpr ⟨e, he, .inl ⟨hid, rfl⟩⟩, later_publish e publishedAt⟩
    · exact ⟨e, mem_publish.mpr ⟨e, he, .inr ⟨hid, rfl⟩⟩, .refl e⟩
  · intro _ id hid
    obtain ⟨e', he', hunpublished, rfl⟩ := RelayWorld.mem_unpublished.mp hid
    obtain ⟨e, he, ⟨-, rfl⟩ | ⟨-, rfl⟩⟩ := mem_publish.mp he'
    · cases hunpublished
    · exact RelayWorld.mem_unpublished.mpr ⟨e', he, hunpublished, rfl⟩
  · intro e' he' hpublished
    obtain ⟨e, he, ⟨hid, rfl⟩ | ⟨-, rfl⟩⟩ := mem_publish.mp he'
    · exact (h e he hid).later (by simp) (later_publish e publishedAt)
    · exact (hw.published e' he hpublished).later (by simp) (.refl e')
  · intro j hj
    rw [publish_created] at hj
    obtain ⟨e, he, hid, hdata⟩ := hw.created j hj
    by_cases hin : e.id ∈ ids
    · exact ⟨_, mem_publish.mpr ⟨e, he, .inl ⟨hin, rfl⟩⟩, hid, hdata⟩
    · exact ⟨e, mem_publish.mpr ⟨e, he, .inr ⟨hin, rfl⟩⟩, hid, hdata⟩
  · intro e he e' he' hlater hbefore hafter
    obtain ⟨s, hs, ⟨hid, rfl⟩ | ⟨-, rfl⟩⟩ := mem_publish.mp he'
    · have hse : s.id = e.id := hlater.id
      exact h e he (hse ▸ hid)
    · rw [← eq_of_id he hs hlater.id.symm, hbefore] at hafter
      cases hafter

/-- An event is committed. -/
theorem relays_commit (hopen : ¬ closed) (id aggregateId type : String) (payload : Json) (createdAt : Date) :
    Relays closed w (w.shift (.commit id aggregateId type payload createdAt)) := by
  rw [RelayWorld.shift]
  cases hinsert : w.events.insert (newOutboxEvent id aggregateId type payload createdAt) with
  | none => exact Relays.of_queue rfl rfl fun j hj => ⟨j, hj, rfl⟩
  | some events =>
    have hrows : ∀ e, e ∈ events.rows ↔ e ∈ w.events.rows ∨ e = newOutboxEvent id aggregateId type payload createdAt := by
      intro e
      rw [Table.insert_rows hinsert, List.mem_append, List.mem_singleton]
    have hold : ∀ e ∈ w.events.rows, e ∈ events.rows := fun e he => (hrows e).mpr (.inl he)
    refine ⟨⟨fun e he => ⟨e, hold e he, .refl e⟩, fun _ hj => hj, fun hclosed => absurd hclosed hopen,
      fun hw => ⟨?_, hw.queued, ?_⟩⟩, ?_⟩
    · intro e he hpublished
      rcases (hrows e).mp he with he | rfl
      · exact hw.published e he hpublished
      · cases hpublished
    · intro j hj
      obtain ⟨e, he, hjob⟩ := hw.created j hj
      exact ⟨e, hold e he, hjob⟩
    · intro e he e' he' hlater hbefore hafter
      rcases (hrows e').mp he' with he' | rfl
      · rw [← eq_of_id he he' hlater.id.symm, hbefore] at hafter
        cases hafter
      · cases hafter

theorem RelayOp.exec_snd {P : RelayWorld → RelayWorld → Prop} {o : RelayOp} {i : RelayInput} {w : RelayWorld}
    (hrefl : P w w) (heff : P w (o.effect i w).2) : P w (o.exec i w).2 := by
  rw [RelayOp.exec]
  split
  · exact heff
  · dsimp only
    split
    · exact heff
    · exact hrefl

theorem RelayOp.exec_ok {o : RelayOp} {i : RelayInput} {w : RelayWorld} {a : o.Res}
    (h : (o.exec i w).1 = .ok a) : o.exec i w = o.effect i w := by
  rw [RelayOp.exec] at h ⊢
  split at h
  · rfl
  · cases h

theorem Relays.refl (w : RelayWorld) : Relays closed w w := .of_queue rfl rfl fun j hj => ⟨j, hj, rfl⟩

/-- **A call that is due keeps everything.** -/
theorem relays_exec {o : RelayOp} (h : o.Due w) (i : RelayInput) : Relays closed w (o.exec i w).2 := by
  refine RelayOp.exec_snd (P := Relays closed) (.refl w) ?_
  cases o with
  | addBulk jobs => exact relays_addBulk h i
  | updateMany ids publishedAt => exact relays_publish h
  | _ => exact .of_queue rfl rfl fun j hj => ⟨j, hj, rfl⟩

/-- **So does what goes on around the relays.** -/
theorem relays_shift (d : RelayShift) (hd : closed → ∀ id aggregateId type payload createdAt,
    d ≠ .commit id aggregateId type payload createdAt) : Relays closed w (w.shift d) := by
  have hqueue : ∀ q, w.queue.Within q → Relays closed w { w with queue := q } := by
    intro q hq
    refine .of_queue rfl rfl ?_
    intro j hj
    obtain ⟨i, hi, hid, -, -⟩ := hq j hj
    exact ⟨i, hi, hid⟩
  cases d with
  | commit id aggregateId type payload createdAt =>
    exact relays_commit (fun hclosed => hd hclosed _ _ _ _ _ rfl) id aggregateId type payload createdAt
  | take jobId => exact hqueue _ JobQueue.within_take
  | complete jobId => exact hqueue _ JobQueue.within_complete
  | fail jobId => exact hqueue _ JobQueue.within_fail
  | stall jobId => exact hqueue _ JobQueue.within_stall
  | tick elapsed => exact .of_queue rfl rfl fun j hj => ⟨j, hj, rfl⟩

theorem stable_relaySound : Stable (RelayMoves closed) (Relays closed) RelayWorld.Sound :=
  ⟨fun _ _ h => h.sound, fun _ _ h => h.moves.sound⟩

/-! ## The relay step by step -/

theorem yields_relayOp {o : RelayOp} {F : o.Res → RelayWorld → Prop}
    (hop : ∀ w₁, RelayMoves closed w w₁ → o.Due w₁)
    (hF : ∀ w₁ i a, RelayMoves closed w w₁ → (o.effect i w₁).1 = .ok a → F a (o.effect i w₁).2) :
    Yields RelayOp.exec (RelayMoves closed) (Relays closed) (.perform o) F w := by
  refine wp_perform.mpr ?_
  intro w₁ hpath i
  refine ⟨relays_exec (hop w₁ (.star hpath)) i, ?_⟩
  intro a ha
  have heffect := RelayOp.exec_ok ha
  rw [heffect] at ha ⊢
  exact hF w₁ i a (.star hpath) ha

/-- The jobs of the claimed events were created. -/
def JobsCreated (events : List (OutboxRow Json)) (w : RelayWorld) : Prop :=
  ∀ e ∈ events, ∃ e' ∈ w.events.rows, Later e e' ∧ w.Enqueued e'

theorem JobsCreated.moves {events : List (OutboxRow Json)} (h : JobsCreated events w) (hw : RelayMoves closed w w') : JobsCreated events w' := by
  intro e he
  obtain ⟨e', he', hlater, henqueued⟩ := h e he
  obtain ⟨e'', he'', hlater'⟩ := hw.rows e' he'
  exact ⟨e'', he'', hlater.trans hlater', henqueued.later hw.created hlater'⟩

/-- Some event that was unpublished is published now, or none is left. -/
def RelayAdvances (w w' : RelayWorld) : Prop :=
  w'.unpublished = [] ∨ ∃ id ∈ w.unpublished, id ∉ w'.unpublished

/-- The jobs are added. -/
theorem yields_addBulk {events : List (OutboxRow Json)} (hw : w.Sound)
    (hevents : ∀ e ∈ events, ∃ e' ∈ w.events.rows, Later e e') :
    Yields RelayOp.exec (RelayMoves closed) (Relays closed)
      (.perform (RelayOp.addBulk (events.map fun event => (event.relayJob, outboxRelayQueue event.id))))
      (fun _ w' => JobsCreated events w' ∧ RelayMoves closed w w') w := by
  have hdue : ∀ w₁, RelayMoves closed w w₁ →
      RelayOp.Due w₁ (.addBulk (events.map fun event => (event.relayJob, outboxRelayQueue event.id))) := by
    intro w₁ hpath job hjob
    obtain ⟨e, he, rfl⟩ := List.mem_map.mp hjob
    obtain ⟨e', he', hlater⟩ := hevents e he
    obtain ⟨e'', he'', hlater'⟩ := hpath.rows e' he'
    have hboth := hlater.trans hlater'
    exact ⟨e'', he'', by rw [hboth.job, hboth.id]⟩
  refine yields_relayOp hdue ?_
  intro w₁ i _ hpath _
  have hmoves : RelayMoves closed w₁ _ := (relays_addBulk (hdue w₁ hpath) i).moves
  refine ⟨?_, hpath.trans hmoves⟩
  have hsound := hmoves.sound (hpath.sound hw)
  intro e he
  obtain ⟨e', he', hlater⟩ := hevents e he
  obtain ⟨e'', he'', hlater'⟩ := (hpath.trans hmoves).rows e' he'
  refine ⟨e'', he'', hlater.trans hlater', ?_⟩
  -- the queue holds the id, so a job was created under it, and that is the job of this event
  have hloaded : (w₁.queue.addBulk (events.map fun event => (event.relayJob, outboxRelayQueue event.id))).1.jobs.get
      e.id ≠ none := JobQueue.get_addBulk_ne_none (List.mem_map.mpr ⟨e, he, rfl⟩) rfl
  obtain ⟨j, hj⟩ := Option.ne_none_iff_exists'.mp hloaded
  obtain ⟨hjmem, hjid⟩ := (Table.get_eq_some_iff _).mp hj
  obtain ⟨i', hi', hid⟩ := hsound.queued j hjmem
  obtain ⟨s, hs, hsid, hdata⟩ := hsound.created i' hi'
  have hsame : s = e'' := by
    refine eq_of_id hs he'' ?_
    rw [← hsid, hid, ← List.mem_singleton.mp hjid, (hlater.trans hlater').id]
  exact ⟨i', hi', hsid.trans (by rw [hsame]), hdata.trans (by rw [hsame])⟩

/-- The events are marked. -/
theorem yields_markPublished {events : List (OutboxRow Json)} (hcreated : JobsCreated events w) :
    Yields RelayOp.exec (RelayMoves closed) (Relays closed)
      (OutboxEventRepository.markPublished (events.map fun e => e.id))
      (fun _ w' => RelayMoves closed w w' ∧ ∀ e ∈ events, e.id ∉ w'.unpublished) w := by
  rw [OutboxEventRepository.markPublished]
  split
  · next hnone =>
    rw [List.length_map, List.length_eq_zero_iff] at hnone
    intro _ _
    exact ⟨.refl w, by simp [hnone]⟩
  refine Yields.bind (F := fun _ w' => RelayMoves closed w w') (yields_relayOp (fun _ _ => trivial) ?_) ?_
  · intro w₁ i _ hpath _
    exact hpath
  intro publishedAt w₁ hpath₁
  have hdue : ∀ w₂, RelayMoves closed w₁ w₂ → RelayOp.Due w₂ (.updateMany (events.map fun e => e.id) publishedAt) := by
    intro w₂ hpath₂ s hs hid
    obtain ⟨e, he, heid⟩ := List.mem_map.mp hid
    obtain ⟨e', he', hlater, henqueued⟩ := hcreated.moves (hpath₁.trans hpath₂) e he
    rw [eq_of_id hs he' (heid.symm.trans hlater.id.symm)]
    exact henqueued
  refine yields_relayOp hdue ?_
  intro w₂ i _ hpath₂ _
  refine ⟨(hpath₁.trans hpath₂).trans (relays_publish (hdue w₂ hpath₂)).moves, ?_⟩
  intro e he hunpublished
  obtain ⟨s, hs, hfalse, hid⟩ := RelayWorld.mem_unpublished.mp hunpublished
  obtain ⟨s', -, ⟨-, rfl⟩ | ⟨hnot, rfl⟩⟩ := mem_publish.mp hs
  · cases hfalse
  · exact hnot (List.mem_map.mpr ⟨e, he, hid.symm⟩)

/-- **A relay that succeeds publishes an event**, or there is none left. -/
theorem yields_relay (limit : Nat) (hw : w.Sound) :
    Yields RelayOp.exec (RelayMoves closed) (Relays closed) (OutboxEventService.relay limit)
      (fun _ w' => closed → 0 < limit → RelayAdvances w w') w := by
  refine Yields.bind (F := fun events w' => RelayMoves closed w w' ∧
    events = w'.events.findMany (fun e => !e.published) (fun e => some e.createdAt) limit)
    (yields_relayOp (fun _ _ => trivial) ?_) ?_
  · intro w₁ i events hpath hevents
    exact ⟨hpath, (Except.ok.inj hevents).symm⟩
  intro events w₁ hfound
  obtain ⟨hpath₁, hevents⟩ := hfound
  split
  · next hnone =>
    -- nothing was claimed: there is nothing to claim
    intro _ _ _ hlimit
    rw [List.length_eq_zero_iff, hevents, Table.findMany, List.take_eq_nil_iff] at hnone
    refine .inl (List.eq_nil_iff_forall_not_mem.mpr fun id hid => ?_)
    obtain ⟨e, he, hfalse, -⟩ := RelayWorld.mem_unpublished.mp hid
    have hsorted := hnone.resolve_left hlimit.ne'
    have hmem : e ∈ w₁.events.sorted (fun e => !e.published) (fun e => some e.createdAt) :=
      w₁.events.mem_sorted.mpr ⟨he, by rw [hfalse]; rfl⟩
    rw [hsorted] at hmem
    cases hmem
  next hsome =>
    have hclaimed : ∀ e ∈ events, e ∈ w₁.events.rows ∧ e.published = false := by
      intro e he
      rw [hevents] at he
      simpa using w₁.events.mem_findMany he
    obtain ⟨e, he⟩ := List.exists_mem_of_ne_nil events fun hnil => hsome (by rw [hnil]; rfl)
    refine Yields.bind (yields_addBulk (hpath₁.sound hw) fun e he => ⟨e, (hclaimed e he).1, .refl e⟩) ?_
    intro _ w₂ hadded
    refine Yields.bind (yields_markPublished hadded.1) ?_
    intro _ w₃ hmarked _ _ hclosed _
    refine .inr ⟨e.id, hpath₁.unpublished hclosed _ ?_, hmarked.2 e he⟩
    exact RelayWorld.mem_unpublished.mpr ⟨e, (hclaimed e he).1, (hclaimed e he).2, rfl⟩

theorem safe_relayOp {o : RelayOp} (h : ∀ v, o.Due v) :
    Safe RelayOp.exec (RelayMoves closed) (Relays closed) (.perform o) w :=
  (yields_relayOp (F := fun _ _ => True) (fun v _ => h v) fun _ _ _ _ _ => trivial).safe

theorem safe_run (ownerId : String) (hw : w.Sound) :
    Safe RelayOp.exec (RelayMoves closed) (Relays closed) (OutboxRelayScheduler.run ownerId) w := by
  refine Safe.bind stable_relaySound ?_ hw ?_
  · exact Safe.tryCatch stable_relaySound (safe_relayOp fun _ => trivial) hw fun _ _ _ => trivial
  intro leaseAcquired w₁ hw₁
  split
  · refine Safe.bind stable_relaySound ?_ hw₁ fun _ w₂ hw₂ => ?_
    · exact Safe.tryCatch stable_relaySound
        (Safe.bind stable_relaySound (yields_relay 50 hw₁).safe hw₁ fun _ _ _ => trivial) hw₁ fun _ _ _ => trivial
    · exact Safe.tryCatch stable_relaySound (safe_relayOp fun _ => trivial) hw₂ fun _ _ _ => trivial
  · exact trivial

theorem safe_relayTask (t : RelayTask) (hw : w.Sound) :
    Safe RelayOp.exec (RelayMoves closed) (Relays closed) (relaySystem.prog t) w := by
  cases t with
  | relay limit =>
    exact Safe.bind stable_relaySound (yields_relay limit hw).safe hw fun _ _ _ => trivial
  | run ownerId => exact safe_run ownerId hw
  | renewLease ownerId =>
    refine Safe.tryCatch stable_relaySound (Safe.bind stable_relaySound ?_ hw fun _ _ _ => trivial) hw
      fun _ _ _ => trivial
    exact safe_relayOp fun _ => trivial

end RelayMoves

/-- While the events are closed, none is committed. -/
def RelayEvent.Allowed (closed : Prop) (e : RelayEvent) : Prop :=
  closed → ∀ id aggregateId type payload createdAt, e ≠ .shift (.commit id aggregateId type payload createdAt)

theorem respects_relay (closed : Prop) :
    Respects relaySystem (RelayMoves closed) (Relays closed) RelayWorld.Sound (RelayEvent.Allowed closed) where
  refl := .refl
  sub _ _ h := h.moves
  keeps _ _ hw h := h.sound hw
  task t _ _ hw := safe_relayTask t hw
  shift d hd w _ := relays_shift d fun hclosed id aggregateId type payload createdAt heq =>
    hd hclosed id aggregateId type payload createdAt (by rw [heq])

/-! ## Relays one after the other -/

/-- A number of relays in turn. -/
def OutboxEventService.relays (limit : Nat) : Nat → RelayProgram Unit
  | 0 => .pure ()
  | n + 1 => (OutboxEventService.relay limit).bind fun _ => OutboxEventService.relays limit n

theorem stable_moves (closed : Prop) (w : RelayWorld) :
    Stable (RelayMoves closed) (Relays closed) (RelayMoves closed w) :=
  ⟨fun _ _ h hw => hw.trans h, fun _ _ h hw => hw.trans h.moves⟩

theorem RelayAdvances.card_lt {w w' : RelayWorld} (h : RelayAdvances w w') (hmoves : ∀ id ∈ w'.unpublished, id ∈ w.unpublished)
    (hsome : w'.unpublished ≠ []) : w'.unpublished.toFinset.card < w.unpublished.toFinset.card := by
  obtain ⟨id, hid, hgone⟩ := h.resolve_left hsome
  refine Finset.card_lt_card (Finset.ssubset_iff_of_subset ?_ |>.mpr ⟨id, by simpa using hid, by simpa using hgone⟩)
  intro id' hid'
  rw [List.mem_toFinset] at hid' ⊢
  exact hmoves id' hid'

/-- **As many relays as there are unpublished events** leave none. -/
theorem yields_relays {limit : Nat} (hlimit : 0 < limit) (n : Nat) {w : RelayWorld} (hw : w.Sound)
    (hn : w.unpublished.toFinset.card ≤ n) :
    Yields RelayOp.exec (RelayMoves True) (Relays True) (OutboxEventService.relays limit n)
      (fun _ w' => w'.Sound ∧ w'.unpublished = []) w := by
  induction n generalizing w with
  | zero =>
    intro _ _
    refine ⟨hw, ?_⟩
    rw [Nat.le_zero, Finset.card_eq_zero, List.toFinset_eq_empty_iff] at hn
    exact hn
  | succ n ih =>
    refine Yields.bind ((yields_relay limit hw).keeps (stable_moves True w) (.refl w)) ?_
    intro _ w₁ h
    obtain ⟨hadvances, hmoves⟩ := h
    refine ih (hmoves.sound hw) ?_
    by_cases hnone : w₁.unpublished = []
    · simp [hnone]
    · have hlt := (hadvances trivial hlimit).card_lt (hmoves.unpublished trivial) hnone
      omega

/-! ## Every run -/

theorem events_exec (o : RelayOp) (i : RelayInput) (w : RelayWorld) :
    (o.exec i w).2.events = w.events ∨
      ∃ ids publishedAt, o = .updateMany ids publishedAt ∧ (o.exec i w).2 = w.publish ids publishedAt := by
  refine RelayOp.exec_snd (P := fun w w' => w'.events = w.events ∨
    ∃ ids publishedAt, o = .updateMany ids publishedAt ∧ w' = w.publish ids publishedAt) (.inl rfl) ?_
  cases o with
  | updateMany ids publishedAt => exact .inr ⟨ids, publishedAt, rfl, rfl⟩
  | _ => exact .inl rfl

theorem unpublished_exec (o : RelayOp) (i : RelayInput) (w : RelayWorld) :
    ∀ id ∈ (o.exec i w).2.unpublished, id ∈ w.unpublished := by
  intro id hid
  obtain ⟨e', he', hunpublished, rfl⟩ := RelayWorld.mem_unpublished.mp hid
  rcases events_exec o i w with hsame | ⟨ids, publishedAt, -, hleft⟩
  · exact RelayWorld.mem_unpublished.mpr ⟨e', hsame ▸ he', hunpublished, rfl⟩
  · rw [hleft] at he'
    obtain ⟨e, he, ⟨-, rfl⟩ | ⟨-, rfl⟩⟩ := mem_publish.mp he'
    · cases hunpublished
    · exact RelayWorld.mem_unpublished.mpr ⟨e', he, hunpublished, rfl⟩

/-- What the programs of a run do, they do as well while no event is committed. -/
theorem healthy_closed {c : RelayConfig}
    (h : Healthy relaySystem (RelayMoves False) (Relays False) RelayWorld.Sound c) :
    Healthy relaySystem (RelayMoves True) (Relays True) RelayWorld.Sound c := by
  refine ⟨h.inv, ?_⟩
  intro p hp
  refine Prog.wp_weaken ?_ ?_ (Prog.wp_exec (H := fun w w' => ∀ id ∈ w'.unpublished, id ∈ w.unpublished)
    unpublished_exec (h.procs p hp))
  · intro w w' hmoves
    exact ⟨hmoves.rows, hmoves.created, fun h => h.elim, hmoves.sound⟩
  · intro w w' hrelays
    obtain ⟨⟨hmoves, hmarked⟩, hunpublished⟩ := hrelays
    exact ⟨⟨hmoves.rows, hmoves.created, fun _ => hunpublished, hmoves.sound⟩, hmarked⟩

/-- The event of the id is published. -/
def RelayWorld.publishedAs (w : RelayWorld) (id : String) : Bool := (w.events.get id).any fun e => e.published

theorem RelayWorld.publishedAs_iff {w : RelayWorld} {id : String} :
    w.publishedAs id = true ↔ ∃ e ∈ w.events.rows, e.id = id ∧ e.published = true := by
  rw [RelayWorld.publishedAs, Option.any_eq_true]
  constructor
  · intro h
    obtain ⟨e, hget, hpublished⟩ := h
    obtain ⟨he, hid⟩ := w.events.get_eq_some_iff.mp hget
    exact ⟨e, he, (List.mem_singleton.mp hid).symm, hpublished⟩
  · intro h
    obtain ⟨e, he, rfl, hpublished⟩ := h
    exact ⟨e, w.events.get_eq_some_iff.mpr ⟨he, by simp⟩, hpublished⟩

theorem RelayWorld.publishedAs_shift (d : RelayShift) (w : RelayWorld) (id : String) :
    (w.shift d).publishedAs id = w.publishedAs id := by
  cases d with
  | commit id' aggregateId type payload createdAt =>
    rw [RelayWorld.shift, RelayWorld.publishedAs]
    cases hinsert : w.events.insert (newOutboxEvent id' aggregateId type payload createdAt) with
    | none => rfl
    | some events =>
      rw [Option.getD_some, Table.get_insert hinsert, RelayWorld.publishedAs]
      cases w.events.get id with
      | some e => rfl
      | none =>
        rw [Option.none_or]
        split <;> rfl
  | _ => rfl

theorem RelayWorld.Fresh.sound {w : RelayWorld} (hw : w.Fresh) : w.Sound := by
  refine ⟨?_, ?_, ?_⟩
  · intro e he hpublished
    rw [hw.events e he] at hpublished
    cases hpublished
  · simp [hw.queue]
  · simp [hw.created]

theorem healthy_relay {w : RelayWorld} (hw : w.Fresh) (es : List RelayEvent) :
    Healthy relaySystem (RelayMoves False) (Relays False) RelayWorld.Sound (w.start.after relaySystem es) :=
  (Healthy.after (respects_relay False) (Healthy.init hw.sound) fun _ _ h => h.elim).2

/-- A published event was marked, and had its job then. -/
theorem exists_mark {w : RelayWorld} (hw : w.Fresh) (es : List RelayEvent) {e : OutboxRow Json}
    (he : e ∈ (w.start.after relaySystem es).world.events.rows) (hpublished : e.published = true) :
    ∃ m ∈ w.start.moments relaySystem es, ∃ ids publishedAt, m.op = .updateMany ids publishedAt ∧ e.id ∈ ids ∧
      ∃ e₀ ∈ m.state.events.rows, e₀.published = false ∧ Later e₀ e ∧ m.state.Enqueued e₀ := by
  have hnow : (w.start.after relaySystem es).world.publishedAs e.id = true :=
    RelayWorld.publishedAs_iff.mpr ⟨e, he, rfl, hpublished⟩
  have hbefore : w.publishedAs e.id = false := by
    rw [← Bool.not_eq_true, RelayWorld.publishedAs_iff]
    intro h
    obtain ⟨s, hs, -, hpublished⟩ := h
    rw [hw.events s hs] at hpublished
    cases hpublished
  obtain ⟨m, hm, hstate, hexec⟩ := changed_by_moment (S := relaySystem) (c := w.start)
    (f := fun w => w.publishedAs e.id) (fun d w => w.publishedAs_shift d e.id) fun h =>
      Bool.false_ne_true (hbefore.symm.trans (h.symm.trans hnow))
  obtain ⟨-, hrelays, hpath⟩ := Healthy.moments (respects_relay False) (Healthy.init hw.sound)
    (fun _ _ h => h.elim) hm
  rw [hnow] at hstate hexec
  obtain ⟨s', hs', hid, hmarked⟩ := RelayWorld.publishedAs_iff.mp hexec
  rcases events_exec m.op m.input m.state with hsame | ⟨ids, publishedAt, hop, hleft⟩
  · -- the events are as they were, so the event was published before
    exact absurd (RelayWorld.publishedAs_iff.mpr ⟨s', hsame ▸ hs', hid, hmarked⟩) hstate
  · replace hleft : (relaySystem.exec m.op m.input m.state).2 = m.state.publish ids publishedAt := hleft
    rw [hleft] at hs' hrelays
    obtain ⟨s, hs, ⟨hin, rfl⟩ | ⟨-, rfl⟩⟩ := mem_publish.mp hs'
    · have hunmarked : s.published = false := by
        rw [← Bool.not_eq_true]
        intro hbefore
        exact hstate (RelayWorld.publishedAs_iff.mpr ⟨s, hs, hid, hbefore⟩)
      -- the event of the mark, as it is at the end
      obtain ⟨e', he', hlater⟩ := (RelayMoves.star (Relation.ReflTransGen.mono (fun _ _ h => h.moves) _ _ hpath)).rows s hs
      have hsame : e' = e := eq_of_id he' he (hlater.id.trans hid)
      refine ⟨m, hm, ids, publishedAt, hop, hid ▸ hin, s, hs, hunmarked, hsame ▸ hlater, ?_⟩
      exact hrelays.marked s hs _ hs' (later_publish s publishedAt) hunmarked rfl
    · exact absurd (RelayWorld.publishedAs_iff.mpr ⟨s', hs, hid, hmarked⟩) hstate

/-- **No event is lost.**  In every run of relays, on any number of instances, with or without the lease, with
commits of events, consumption of jobs, faults and crashes: a published event was marked by a call before
which its job had been created; an event without a job is unpublished; and while no event is committed, as
many successful relays as there are unpublished events leave every event with its job. -/
theorem relay_loses_nothing {w : RelayWorld} (hw : w.Fresh) (es : List RelayEvent) :
    (∀ e ∈ (w.start.after relaySystem es).world.events.rows, e.published = true →
      ∃ m ∈ w.start.moments relaySystem es, ∃ ids publishedAt, m.op = .updateMany ids publishedAt ∧ e.id ∈ ids ∧
        ∃ e₀ ∈ m.state.events.rows, e₀.published = false ∧ Later e₀ e ∧ m.state.Enqueued e₀) ∧
    (∀ e ∈ (w.start.after relaySystem es).world.events.rows, ¬ (w.start.after relaySystem es).world.Enqueued e →
      e.published = false) ∧
    (∀ limit, 0 < limit → ∀ inp : Nat → List RelayEvent × RelayInput,
      (∀ n, ∀ e ∈ (inp n).1, RelayEvent.Allowed True e) →
      ((OutboxEventService.relays limit (w.start.after relaySystem es).world.unpublished.length).run
        (interleave relaySystem) inp (w.start.after relaySystem es)).1 = .ok () →
      ∀ e ∈ ((OutboxEventService.relays limit (w.start.after relaySystem es).world.unpublished.length).run
        (interleave relaySystem) inp (w.start.after relaySystem es)).2.world.events.rows,
        ((OutboxEventService.relays limit (w.start.after relaySystem es).world.unpublished.length).run
          (interleave relaySystem) inp (w.start.after relaySystem es)).2.world.Enqueued e) := by
  have hhealthy := healthy_relay hw es
  refine ⟨fun e he hpublished => exists_mark hw es he hpublished, ?_, ?_⟩
  · intro e he hnot
    cases hpublished : e.published with
    | false => rfl
    | true => exact absurd (hhealthy.inv.published e he hpublished) hnot
  · intro limit hlimit inp hinp hok
    have hrelays := yields_relays hlimit _ hhealthy.inv (List.toFinset_card_le _)
    obtain ⟨hsound, hnone⟩ := run_interleave_of_wp (respects_relay True) (healthy_closed hhealthy)
      (Prog.wp_weaken (fun _ _ h => h.moves) (fun _ _ h => h.moves) hrelays) hinp () hok
    intro e he
    refine hsound.published e he ?_
    by_contra hunpublished
    have hid := RelayWorld.mem_unpublished.mpr ⟨e, he, by simpa using hunpublished, rfl⟩
    rw [hnone] at hid
    cases hid

/-- One event that is still to be published. -/
def RelayWorld.sample : RelayWorld where
  events := ⟨[newOutboxEvent "event" "tx" "transaction.confirmed" .null 0], by decide⟩
  queue := .empty
  leases := .empty
  clock := 0
  created := []

theorem RelayWorld.sample_fresh : RelayWorld.sample.Fresh := by
  refine ⟨?_, rfl, rfl⟩
  intro e he
  obtain rfl := List.mem_singleton.mp he
  rfl

/-- A relay goes through. -/
def relayedOnce : List RelayEvent := [.spawn (.relay 50), .step 0 {}, .step 0 {}, .step 0 {}, .step 0 {}]

theorem relay_loses_nothing_relayedOnce : RelayWorld.sample.Fresh ∧
    (RelayWorld.sample.start.after relaySystem relayedOnce).world.publishedAs "event" = true ∧
    (∀ e ∈ (RelayWorld.sample.start.after relaySystem relayedOnce).world.events.rows, e.published = true →
      ∃ m ∈ RelayWorld.sample.start.moments relaySystem relayedOnce, ∃ ids publishedAt,
        m.op = .updateMany ids publishedAt ∧ e.id ∈ ids ∧
        ∃ e₀ ∈ m.state.events.rows, e₀.published = false ∧ Later e₀ e ∧ m.state.Enqueued e₀) ∧
    ∀ e ∈ ((OutboxEventService.relays 50 1).run (interleave relaySystem) (fun _ => ([], {}))
      RelayWorld.sample.start).2.world.events.rows,
      ((OutboxEventService.relays 50 1).run (interleave relaySystem) (fun _ => ([], {}))
        RelayWorld.sample.start).2.world.Enqueued e :=
  ⟨RelayWorld.sample_fresh, by decide +kernel, (relay_loses_nothing RelayWorld.sample_fresh relayedOnce).1,
    (relay_loses_nothing RelayWorld.sample_fresh []).2.2 50 (by decide) (fun _ => ([], {})) (by simp) rfl⟩

end TransactionSimulator
