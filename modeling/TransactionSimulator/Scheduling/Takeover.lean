import TransactionSimulator.Scheduling.Exclusion

/-!
# Stopping, and taking over

* `stopped_for_good`: an instance that was stopped and whose run is over.
* `takes_over`: whatever has become of the others, an instance acquires the lease once the time of a lease has
  passed, and runs its cycle.
-/

namespace TransactionSimulator

open Concurrent Prog Turns Relational LeaseWorld

section Runs

variable {Op : Type} {Res : Op → Type} {σ ι τ δ : Type} (S : System Op Res JsError σ ι τ δ)
  (schedulers : String → Scheduler Res)

/-! ## Stopping -/

/-- The calls of an instance that does nothing: timers that do not fire any more, and renewals under way. -/
def Dormant (ownerId : String) (o : SchedulerOp Op) : Prop :=
  o.ownerId? = some ownerId →
    o = .stop ownerId ∨ o = .interval ownerId ∨ o = .renewal ownerId ∨
      o = .renew ownerId (schedulers ownerId).NAME (schedulers ownerId).LEASE_TTL_MS

/-- The calls `later` have left the instance stopped and without a run. -/
structure Stopped (ownerId : String) (past later : List (SchedulerMoment Op ι σ)) (w : SchedulerWorld σ) : Prop where
  running : (w.flags ownerId).running = false
  idle : schedulerPhase S schedulers ownerId past = some .idle
  dormant : ∀ m ∈ later, Dormant schedulers ownerId m.op

variable {S schedulers} {ownerId : String} {past later : List (SchedulerMoment Op ι σ)} {w : SchedulerWorld σ}
  {o : SchedulerOp Op} {i : SchedulerInput ι}

namespace SchedulerFlags.Agrees

variable {flags : SchedulerFlags} (h : flags.Agrees .idle)
include h

theorem executing_idle : flags.executing = false := Bool.eq_false_iff.mpr fun ht => h.executing.mp ht rfl

theorem leaseRenewTimer_idle : flags.leaseRenewTimer = false :=
  Bool.eq_false_iff.mpr fun ht => by cases h.leaseRenewTimer ht

theorem eq_default (hrunning : flags.running = false) : flags = {} := by
  have htimer := h.timer.trans hrunning
  have hexecuting := h.executing_idle
  have hrenewal := h.leaseRenewTimer_idle
  cases flags
  subst hrunning htimer hexecuting hrenewal
  rfl

theorem fires (hrunning : flags.running = true) : flags.interval = (true, { flags with executing := true }) := by
  rw [SchedulerFlags.interval, if_pos (h.timer.trans hrunning), SchedulerFlags.enter, hrunning, h.executing_idle]
  rfl

end SchedulerFlags.Agrees

/-- **One call**, if it does not start the instance. -/
theorem Stopped.call (hflags : FlagsAgree S schedulers past w) (h : Stopped S schedulers ownerId past later w)
    (hallowed : (runTurns schedulers).Allowed (SchedulerOp.exec S.exec) past ⟨w, o, i⟩) (hstart : o ≠ .start ownerId) :
    Stopped S schedulers ownerId (past ++ [⟨w, o, i⟩]) (later ++ [⟨w, o, i⟩]) (SchedulerOp.exec S.exec o i w).2 := by
  have hlater : Dormant schedulers ownerId o → ∀ m ∈ later ++ [⟨w, o, i⟩], Dormant schedulers ownerId m.op := by
    intro ho m hm
    rcases List.mem_append.mp hm with hm | hm
    · exact h.dormant m hm
    · rw [List.mem_singleton.mp hm]
      exact ho
  by_cases hid : o.ownerId? = some ownerId
  · obtain ⟨φ, ψ, hφ, hnext, hψ⟩ := hallowed ownerId hid
    obtain rfl : φ = .idle := Option.some.inj (hφ.symm.trans h.idle)
    have hmove := moved_of_next (hflags ownerId _ hφ).executing hid hnext
    have hrunning := h.running
    cases hmove with
    | start => exact absurd rfl hstart
    | stop =>
      refine ⟨?_, hψ, hlater fun _ => .inl rfl⟩
      rw [SchedulerOp.exec, flags_setFlags, SchedulerFlags.stop, hrunning]
      exact hrunning
    | renewal => exact ⟨hrunning, hψ, hlater fun _ => .inr (.inr (.inl rfl))⟩
    | renew =>
      refine ⟨?_, hψ, hlater fun _ => .inr (.inr (.inr rfl))⟩
      rw [SchedulerOp.exec, flags_faulty]
      exact hrunning
    | stay _ hstays =>
      refine ⟨?_, hψ, hlater fun _ => .inr (.inl rfl)⟩
      rw [SchedulerOp.exec, flags_setFlags, hstays]
      exact hrunning
    | enter hgoes =>
      rw [hrunning] at hgoes
      cases hgoes
  · refine ⟨?_, ?_, hlater fun h => absurd h hid⟩
    · rw [flags_exec_of_ne hid]
      exact h.running
    · rw [← h.idle]
      exact phase_of_ne (T := runTurns schedulers) (m := ⟨w, o, i⟩) hid

variable (S schedulers)

/-- The calls of a run from `es` on. -/
def laterMoments (work : σ) (clock : Timestamp) (es fs : List (SchedulerEvent τ ι δ)) : List (SchedulerMoment Op ι σ) :=
  Config.moments (schedulerSystem S schedulers) (Config.after (schedulerSystem S schedulers) ⟨.fresh work clock, []⟩ es) fs

theorem moments_later (work : σ) (clock : Timestamp) (es fs : List (SchedulerEvent τ ι δ)) :
    schedulerMoments S schedulers work clock (es ++ fs) =
      schedulerMoments S schedulers work clock es ++ laterMoments S schedulers work clock es fs :=
  Config.moments_append ..

theorem stopped_later (work : σ) (clock : Timestamp) (es fs : List (SchedulerEvent τ ι δ)) (ownerId : String)
    (hstopped : ((schedulerWorld S schedulers work clock es).flags ownerId).running = false)
    (hidle : schedulerPhase S schedulers ownerId (schedulerMoments S schedulers work clock es) = some .idle)
    (hstart : ∀ m ∈ laterMoments S schedulers work clock es fs, m.op ≠ .start ownerId) :
    Stopped S schedulers ownerId (schedulerMoments S schedulers work clock (es ++ fs))
      (laterMoments S schedulers work clock es fs) (schedulerWorld S schedulers work clock (es ++ fs)) := by
  have hkept := (guards_flags S schedulers).later (flagsAgree_fresh work clock) es fs
    (J := fun past w => ∃ tr, past = schedulerMoments S schedulers work clock es ++ tr ∧
      ((∀ m ∈ tr, m.op ≠ .start ownerId) → Stopped S schedulers ownerId past tr w))
    ⟨[], (List.append_nil _).symm, fun _ => ⟨hstopped, hidle, fun m hm => (by cases hm)⟩⟩ ?_ ?_
  · obtain ⟨tr, htr, h⟩ := hkept
    obtain rfl : laterMoments S schedulers work clock es fs = tr :=
      List.append_cancel_left ((moments_later S schedulers work clock es fs).symm.trans htr)
    exact h hstart
  · rintro past w o i hflags ⟨tr, rfl, h⟩ hallowed
    refine ⟨tr ++ [⟨w, o, i⟩], List.append_assoc .., fun hno => ?_⟩
    exact (h fun m hm => hno m (List.mem_append_left _ hm)).call hflags hallowed
      (hno _ (List.mem_append_right _ (List.mem_singleton_self _)))
  · rintro past w d - ⟨tr, htr, h⟩
    refine ⟨tr, htr, fun hno => ?_⟩
    obtain ⟨hrunning, hidle, hdormant⟩ := h hno
    cases d with
    | tick elapsed => exact ⟨hrunning, hidle, hdormant⟩
    | other d => exact ⟨hrunning, hidle, hdormant⟩

/-- **Stopped for good**: after any calls that have left an instance stopped and its run over, whatever happens
then, as long as nobody starts it again, it acquires no lease, makes no call of its cycle and has no flag or
timer set; and if none of its acquisitions and releases had failed, it has no lease. -/
theorem stopped_for_good (work : σ) (clock : Timestamp) (es fs : List (SchedulerEvent τ ι δ)) (ownerId : String)
    (hstopped : ((schedulerWorld S schedulers work clock es).flags ownerId).running = false)
    (hidle : schedulerPhase S schedulers ownerId (schedulerMoments S schedulers work clock es) = some .idle)
    (hstart : ∀ m ∈ laterMoments S schedulers work clock es fs, m.op ≠ .start ownerId) :
    (∀ m ∈ laterMoments S schedulers work clock es fs, Dormant schedulers ownerId m.op) ∧
      (schedulerWorld S schedulers work clock (es ++ fs)).flags ownerId = {} ∧
      ((∀ m ∈ schedulerMoments S schedulers work clock es, ¬ LeaseCallFailed ownerId m) →
        ∀ name lease, (schedulerWorld S schedulers work clock (es ++ fs)).lease.leases.get name = some lease →
          lease.ownerId ≠ ownerId) := by
  obtain ⟨hrunning, hphase, hdormant⟩ := stopped_later S schedulers work clock es fs ownerId hstopped hidle hstart
  refine ⟨hdormant, ?_, ?_⟩
  · have hagrees := ((guards_flags S schedulers).after (flagsAgree_fresh work clock)
      (es ++ fs)).2 ownerId _ hphase
    exact hagrees.eq_default hrunning
  · rintro hfailed name lease hget rfl
    rcases (rowsHeld S schedulers work clock (es ++ fs)).held name lease hget _ hphase with hholding | ⟨m, hm, hm'⟩
    · exact absurd hholding (by decide)
    · rw [moments_later] at hm
      rcases List.mem_append.mp hm with hm | hm
      · exact hfailed m hm hm'
      · have hcall := hdormant m hm
        rcases hm'.2 with ⟨name', ttlMs, hop⟩ | ⟨name', hop⟩
        all_goals
          rw [hop] at hcall
          rcases hcall rfl with h | h | h | h <;> cases h

/-- An instance is started and stopped again. -/
def stoppedAgain : List (SchedulerEvent Task Input Shift) :=
  .spawn (.start "a") :: unhindered 0 1 ++ .spawn (.stop "a") :: unhindered 1 1

/-- The timer of an instance fires once more. -/
def firesOnce : List (SchedulerEvent Task Input Shift) := .spawn (.interval "a") :: unhindered 2 1

/-- It does nothing. -/
theorem stopped_for_good_again :
    (laterMoments Deployment.defaults.system expirationSchedulers .sample 0 stoppedAgain firesOnce).map Moment.op =
        [.interval "a"] ∧
      (schedulerWorld Deployment.defaults.system expirationSchedulers .sample 0 (stoppedAgain ++ firesOnce)).flags "a" =
        {} :=
  have hops : (laterMoments Deployment.defaults.system expirationSchedulers .sample 0 stoppedAgain firesOnce).map
      Moment.op = [.interval "a"] := rfl
  ⟨hops, (stopped_for_good Deployment.defaults.system expirationSchedulers .sample 0 stoppedAgain firesOnce "a"
    (by decide +kernel) (by decide +kernel) fun m hm hstart => by
      have hmem := List.mem_map_of_mem (f := Moment.op) hm
      rw [hops, hstart] at hmem
      cases List.mem_singleton.mp hmem).2.1⟩

/-! ## Taking over -/

variable {S schedulers} {flags : SchedulerFlags} {α : Type}

theorem toMillis_le (time : Timestamp) : Postgres.toMillis time ≤ time + 500 := Nat.div_mul_le_self ..

/-- **The lease times have passed**: no lease of the name bars anybody. -/
theorem free_after (work : σ) (clock : Timestamp) (es : List (SchedulerEvent τ ι δ)) (elapsed : Nat)
    (hlong : ∀ other, (schedulers other).NAME = (schedulers ownerId).NAME →
      ∀ interval, Postgres.milliseconds (schedulers other).LEASE_TTL_MS = .ok interval → interval + 500 ≤ elapsed)
    {lease : SchedulerLease}
    (hget : (schedulerWorld S schedulers work clock es).lease.leases.get (schedulers ownerId).NAME = some lease) :
    lease.expiresAt ≤ (schedulerWorld S schedulers work clock es).lease.clock + elapsed := by
  have hrows := rowsHeld S schedulers work clock es
  obtain ⟨s, hs, hvalid⟩ := hrows.lasts _ lease hget
  obtain ⟨interval, hinterval, hexpires⟩ := validExpiry_eq_ok hvalid
  have hfits := hlong lease.ownerId (hrows.named _ lease hget).symm interval hinterval
  have hmillis : Postgres.toMillis ((s : Int) + interval).toNat ≤ s + elapsed := by
    rcases lt_or_ge ((s : Int) + interval) 0 with hneg | hnonneg
    · rw [Int.toNat_of_nonpos hneg.le]
      exact Nat.zero_le _
    · have hnominal : ((s : Int) + interval).toNat + 500 ≤ s + elapsed := by omega
      exact (toMillis_le _).trans hnominal
  rw [hexpires]
  exact hmillis.trans (Nat.add_le_add_right hs elapsed)

section Full

variable (exec : (o : Op) → ι → σ → Except JsError (Res o) × σ) (scheduler : Scheduler Res) (ownerId)
  (inp : Nat → SchedulerInput ι) (w : SchedulerWorld σ)

/-- The calls of the cycle, when it runs by itself. -/
def cycleCalls : List Op := (scheduler.cycle.trace exec (fun n => (inp n).work) w.work).map Moment.op

/-- What the cycle leaves. -/
def cycled : SchedulerWorld σ := { w with work := (scheduler.cycle.run exec (fun n => (inp n).work) w.work).2 }

/-- However a cycle ends, `run` goes on. -/
theorem leads_working (p : Prog Op Res JsError Unit) (f : Unit → SchedulerProgram Res Unit) :
    Leads (SchedulerOp.exec exec) (((working ownerId p).tryCatch fun _ => .pure ()).bind f) inp w
      ((p.trace exec (fun n => (inp n).work) w.work).map fun m => .work ownerId m.op) (f ())
      (fun n => inp (n + (p.trace exec (fun n => (inp n).work) w.work).length))
      { w with work := (p.run exec (fun n => (inp n).work) w.work).2 } := by
  induction p generalizing inp w with
  | pure u => exact ⟨rfl, rfl⟩
  | throw e => exact ⟨rfl, rfl⟩
  | call o k ih =>
    obtain ⟨hrun, htrace⟩ := ih (exec o (inp 0).work w.work).1 (fun n => inp (n + 1))
      { w with work := (exec o (inp 0).work w.work).2 }
    exact ⟨hrun, congrArg (_ :: ·) htrace⟩

/-- From the guard to the lease. -/
theorem leads_acquire (hinp : ∀ n, (inp n).fault = none)
    (hfires : (w.flags ownerId).interval = (true, { w.flags ownerId with executing := true }))
    (hanswer : w.lease.answer (.acquire ownerId scheduler.NAME scheduler.LEASE_TTL_MS) = .ok (some true)) :
    Leads (SchedulerOp.exec exec) (scheduler.run ownerId) inp w
      [.interval ownerId, .acquire ownerId scheduler.NAME scheduler.LEASE_TTL_MS]
      ((scheduler.process ownerId).bind fun _ => scheduler.settle ownerId true) (fun n => inp (n + 2))
      { w.setFlags ownerId { w.flags ownerId with executing := true } with
        lease := w.lease.step (.acquire ownerId scheduler.NAME scheduler.LEASE_TTL_MS) } := by
  have hinterval : SchedulerOp.exec exec (.interval ownerId) (inp 0) w =
      (.ok true, w.setFlags ownerId { w.flags ownerId with executing := true }) := by
    rw [SchedulerOp.exec, hfires]
  have hacquire : SchedulerOp.exec exec (.acquire ownerId scheduler.NAME scheduler.LEASE_TTL_MS) (inp 1)
      (w.setFlags ownerId { w.flags ownerId with executing := true }) =
      (.ok true, { w.setFlags ownerId { w.flags ownerId with executing := true } with
        lease := w.lease.step (.acquire ownerId scheduler.NAME scheduler.LEASE_TTL_MS) }) := by
    rw [SchedulerOp.exec, SchedulerInput.faulty, hinp]
    exact congrArg (·, _) (map_some_eq_ok.mp hanswer)
  exact (leads_call inp hinterval _).trans (leads_call (fun n => inp (n + 1)) hacquire _)

/-- The cycle under the renewal timer. -/
theorem leads_process (f : Unit → SchedulerProgram Res Unit) :
    Leads (SchedulerOp.exec exec) ((scheduler.process ownerId).bind f) inp w
      (.startLeaseRenewal ownerId :: (cycleCalls exec scheduler (fun n => inp (n + 1)) w).map (.work ownerId)) (f ())
      (fun n => inp (n + (cycleCalls exec scheduler (fun n => inp (n + 1)) w).length + 1))
      (cycled exec scheduler (fun n => inp (n + 1)) (w.setFlags ownerId (w.flags ownerId).startLeaseRenewal)) := by
  have hcycle := leads_working ownerId exec (fun n => inp (n + 1))
    (w.setFlags ownerId (w.flags ownerId).startLeaseRenewal) scheduler.cycle f
  have hstart : SchedulerOp.exec exec (.startLeaseRenewal ownerId) (inp 0) w =
      (.ok (), w.setFlags ownerId (w.flags ownerId).startLeaseRenewal) := rfl
  have hcalls : cycleCalls exec scheduler (fun n => inp (n + 1)) w = (scheduler.cycle.trace exec
      (fun n => (inp (n + 1)).work) (w.setFlags ownerId (w.flags ownerId).startLeaseRenewal).work).map Moment.op := rfl
  rw [hcalls, List.map_map, List.length_map]
  exact (leads_call inp hstart _).trans hcycle

/-- The end of a run. -/
theorem leads_settle (hinp : ∀ n, (inp n).fault = none) :
    Leads (SchedulerOp.exec exec) (scheduler.settle ownerId true) inp w
      [.stopLeaseRenewal ownerId, .release ownerId scheduler.NAME, .leave ownerId] (.pure ()) (fun n => inp (n + 3))
      { w.setFlags ownerId { w.flags ownerId with leaseRenewTimer := false, executing := false } with
        lease := w.lease.step (.release ownerId scheduler.NAME) } := by
  have hstop : SchedulerOp.exec exec (.stopLeaseRenewal ownerId) (inp 0) w =
      (.ok (), w.setFlags ownerId (w.flags ownerId).stopLeaseRenewal) := rfl
  have hrelease : SchedulerOp.exec exec (.release ownerId scheduler.NAME) (inp 1)
      (w.setFlags ownerId (w.flags ownerId).stopLeaseRenewal) =
      (.ok (), { w.setFlags ownerId (w.flags ownerId).stopLeaseRenewal with
        lease := w.lease.step (.release ownerId scheduler.NAME) }) := by
    rw [SchedulerOp.exec, SchedulerInput.faulty, hinp]
    rfl
  have hleave : SchedulerOp.exec exec (.leave ownerId) (inp 2)
      { w.setFlags ownerId (w.flags ownerId).stopLeaseRenewal with
        lease := w.lease.step (.release ownerId scheduler.NAME) } =
      (.ok (), { w.setFlags ownerId { w.flags ownerId with leaseRenewTimer := false, executing := false } with
        lease := w.lease.step (.release ownerId scheduler.NAME) }) := by
    rw [SchedulerOp.exec]
    simp only [SchedulerWorld.setFlags, Function.update_self, Function.update_idem]
    rfl
  exact (leads_call inp hstop _).trans ((leads_call (fun n => inp (n + 1)) hrelease _).trans
    (leads_call (fun n => inp (n + 2)) hleave _))

end Full

variable (S schedulers)

/-- The calls of `run` when it is let through and gets the lease. -/
def fullRun (scheduler : Scheduler Res) (ownerId : String) (cycle : List Op) : List (SchedulerOp Op) :=
  [.interval ownerId, .acquire ownerId scheduler.NAME scheduler.LEASE_TTL_MS, .startLeaseRenewal ownerId] ++
    cycle.map (.work ownerId) ++ [.stopLeaseRenewal ownerId, .release ownerId scheduler.NAME, .leave ownerId]

theorem released_after_acquire {w : LeaseWorld} {name : String} {ttlMs : Js.Number}
    (hanswer : w.answer (.acquire ownerId name ttlMs) = .ok (some true)) :
    ((w.step (.acquire ownerId name ttlMs)).step (.release ownerId name)).leases.get name = none := by
  have hgrants : w.grants ownerId name (.acquire ownerId name ttlMs) = some (w.clock, ttlMs) :=
    if_pos ⟨rfl, rfl, hanswer⟩
  obtain ⟨expiresAt, -, hgranted⟩ := step_grants hgrants
  obtain ⟨lease, hget, howner, -⟩ := hgranted.row
  generalize w.step (.acquire ownerId name ttlMs) = w' at hget
  rw [step, release_spec, hget, Option.filter_some, name_of_get hget, howner,
    decide_eq_true (rfl : name = name), decide_eq_true (rfl : ownerId = ownerId)]
  rfl

/-- **A run that goes through.** -/
theorem leads_full (scheduler : Scheduler Res) {inp : Nat → SchedulerInput ι} (hinp : ∀ n, (inp n).fault = none)
    {w : SchedulerWorld σ}
    (hfires : (w.flags ownerId).interval = (true, { w.flags ownerId with executing := true }))
    (hanswer : w.lease.answer (.acquire ownerId scheduler.NAME scheduler.LEASE_TTL_MS) = .ok (some true)) :
    ∃ inp' w', Leads (SchedulerOp.exec S.exec) (scheduler.run ownerId) inp w
        (fullRun scheduler ownerId (cycleCalls S.exec scheduler (fun n => inp (n + 3)) w)) (.pure ()) inp' w' ∧
      w'.work = (cycled S.exec scheduler (fun n => inp (n + 3)) w).work ∧
      w'.flags = Function.update w.flags ownerId { w.flags ownerId with leaseRenewTimer := false, executing := false } ∧
      w'.lease.leases.get scheduler.NAME = none := by
  have hacquire := leads_acquire ownerId S.exec scheduler inp w hinp hfires hanswer
  generalize hw : ({ w.setFlags ownerId { w.flags ownerId with executing := true } with
    lease := w.lease.step (.acquire ownerId scheduler.NAME scheduler.LEASE_TTL_MS) } : SchedulerWorld σ) = w₁ at hacquire
  have hprocess := leads_process ownerId S.exec scheduler (fun n => inp (n + 2)) w₁ fun _ => scheduler.settle ownerId true
  have hsettle := leads_settle ownerId S.exec scheduler
    (fun n => inp (n + (cycleCalls S.exec scheduler (fun n => inp (n + 3)) w₁).length + 1 + 2))
    (cycled S.exec scheduler (fun n => inp (n + 3)) (w₁.setFlags ownerId (w₁.flags ownerId).startLeaseRenewal))
    fun n => hinp _
  subst hw
  refine ⟨_, _, (hacquire.trans (hprocess.trans hsettle)), rfl, ?_, ?_⟩
  · simp only [cycled, SchedulerWorld.setFlags, Function.update_self, Function.update_idem]
    rfl
  · exact released_after_acquire hanswer

/-- The timer of an instance fires, and its run goes through before anything else moves. -/
def ranAlone (c : Config (SchedulerOp Op) (SchedulerOp.Res Res) JsError (SchedulerWorld σ)) (ownerId : String)
    (inp : Nat → SchedulerInput ι) : List (SchedulerEvent τ ι δ) :=
  .spawn (.interval ownerId) :: stepping c.procs.length inp
    (((schedulers ownerId).run ownerId).trace (SchedulerOp.exec S.exec) inp c.world).length

/-- **Taking over**: after any calls, whoever holds the lease or has left it behind, once a lease time has passed a
started instance that is not in a run acquires the lease the next time its timer fires, makes all calls of its
cycle and releases the lease, if nothing else moves and its lease calls do not fail. -/
theorem takes_over (work : σ) (clock : Timestamp) (es : List (SchedulerEvent τ ι δ)) (ownerId : String) (elapsed : Nat)
    (hrunning : ((schedulerWorld S schedulers work clock es).flags ownerId).running = true)
    (hidle : schedulerPhase S schedulers ownerId (schedulerMoments S schedulers work clock es) = some .idle)
    (hlong : ∀ other, (schedulers other).NAME = (schedulers ownerId).NAME →
      ∀ interval, Postgres.milliseconds (schedulers other).LEASE_TTL_MS = .ok interval → interval + 500 ≤ elapsed)
    (hvalid : ∃ expiresAt, PostgresSchedulerLease.validExpiry (schedulers ownerId).LEASE_TTL_MS
      ((schedulerWorld S schedulers work clock es).lease.clock + elapsed) = .ok expiresAt)
    (inp : Nat → SchedulerInput ι) (hinp : ∀ n, (inp n).fault = none) {waited : List (SchedulerEvent τ ι δ)}
    (hwaited : waited = es ++ [.shift (.tick elapsed)]) {ran : List (SchedulerEvent τ ι δ)}
    (hran : ran = ranAlone S schedulers (Config.after (schedulerSystem S schedulers) ⟨.fresh work clock, []⟩ waited)
      ownerId inp) :
    (laterMoments S schedulers work clock waited ran).map Moment.op =
        fullRun (schedulers ownerId) ownerId (cycleCalls S.exec (schedulers ownerId) (fun n => inp (n + 3))
          (schedulerWorld S schedulers work clock waited)) ∧
      (schedulerWorld S schedulers work clock (waited ++ ran)).work =
        (cycled S.exec (schedulers ownerId) (fun n => inp (n + 3)) (schedulerWorld S schedulers work clock waited)).work ∧
      (schedulerWorld S schedulers work clock (waited ++ ran)).flags =
        (schedulerWorld S schedulers work clock waited).flags ∧
      (schedulerWorld S schedulers work clock (waited ++ ran)).lease.leases.get (schedulers ownerId).NAME = none := by
  have hwaiting : schedulerWorld S schedulers work clock waited = { schedulerWorld S schedulers work clock es with
      lease := (schedulerWorld S schedulers work clock es).lease.step (.tick elapsed) } := by
    rw [hwaited, schedulerWorld, Config.after_append]
    rfl
  have hagrees : ((schedulerWorld S schedulers work clock waited).flags ownerId).Agrees .idle := by
    rw [hwaiting]
    exact ((guards_flags S schedulers).after (flagsAgree_fresh work clock) es).2 ownerId _ hidle
  have hfires := hagrees.fires (by rw [hwaiting]; exact hrunning)
  have hanswer : (schedulerWorld S schedulers work clock waited).lease.answer
      (.acquire ownerId (schedulers ownerId).NAME (schedulers ownerId).LEASE_TTL_MS) = .ok (some true) := by
    rw [hwaiting]
    refine (acquired_iff _).mpr ⟨hvalid, fun lease hget hbars => ?_⟩
    exact absurd hbars.2 (Nat.not_lt.mpr (free_after work clock es elapsed hlong hget))
  obtain ⟨inp', w', hleads, hwork, hflags, hlease⟩ := leads_full (S := S) (schedulers ownerId) hinp hfires hanswer
  obtain ⟨hafter, hmoments⟩ := after_spawn_stepping (S := schedulerSystem S schedulers)
    (c := Config.after (schedulerSystem S schedulers) ⟨.fresh work clock, []⟩ waited) (.interval ownerId) inp
  have hworld : schedulerWorld S schedulers work clock (waited ++ ran) = w' := by
    rw [schedulerWorld, Config.after_append, hran]
    exact (congrArg Config.world hafter).trans (congrArg Prod.snd hleads.run)
  have hcalls : (laterMoments S schedulers work clock waited ran).map Moment.op =
      fullRun (schedulers ownerId) ownerId (cycleCalls S.exec (schedulers ownerId) (fun n => inp (n + 3))
        (schedulerWorld S schedulers work clock waited)) := by
    rw [laterMoments, hran]
    exact (congrArg (List.map Moment.op) hmoments).trans (hleads.trace.trans (List.append_nil _))
  rw [hworld]
  refine ⟨hcalls, hwork, ?_, hlease⟩
  rw [hflags]
  refine Function.update_eq_self_iff.mpr ?_
  have hexecuting := hagrees.executing_idle
  have hrenewal := hagrees.leaseRenewTimer_idle
  generalize (schedulerWorld S schedulers work clock waited).flags ownerId = flags at hexecuting hrenewal
  cases flags
  subst hexecuting hrenewal
  rfl

/-- An instance has died in its cycle, and its lease has run out since. -/
def diedHolding : List (SchedulerEvent Task Input Shift) :=
  firstHolds ++ [.crash 2]

/-- The other one takes over. -/
theorem takes_over_second :
    schedulerPhase Deployment.defaults.system expirationSchedulers "a"
        (schedulerMoments Deployment.defaults.system expirationSchedulers .sample 0 diedHolding) = some .processing ∧
      ∃ ran : List (SchedulerEvent Task Input Shift), ∃ cycle,
        (laterMoments Deployment.defaults.system expirationSchedulers .sample 0
          (diedHolding ++ [.shift (.tick 60000500)]) ran).map Moment.op = fullRun ExpirationScheduler "b" cycle :=
  ⟨by decide +kernel, _, _, (takes_over Deployment.defaults.system expirationSchedulers .sample 0 diedHolding "b" 60000500
    (by decide +kernel) (by decide +kernel) (fun _ _ interval h => by
      have hminute : Postgres.milliseconds (.finite 60000) = .ok 60000000 := by decide +kernel
      have heq : (60000000 : Int) = interval := Except.ok.inj (hminute.symm.trans h)
      omega) ⟨120001000, by decide +kernel⟩ (fun _ => { work := {} }) (fun _ => rfl) rfl rfl).1⟩

end Runs

end TransactionSimulator
