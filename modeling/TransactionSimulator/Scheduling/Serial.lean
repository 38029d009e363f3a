import TransactionSimulator.Scheduling.Schedulers

/-!
# One run after the other

The timer of an instance may fire while a run is under way, and calls of any number of runs of any instances
may interleave.  Still the calls that the runs of one instance make are, in the order in which they are made,
those of one run after the other.

* `RunPhase.next`: what a run does, call by call.
* `plays_run`: `run` does it; `guards_flags`: `executing` is the gate.
* `runs_serialized`: every run of the system.
-/

namespace TransactionSimulator

open Concurrent Prog Turns

/-- Where an instance stands in `run`. -/
inductive RunPhase
  | idle
  | acquiring
  | declined
  | acquired
  | processing
  | releasing
  | leaving
  deriving DecidableEq, Repr

/-- The lease was acquired and is not released yet. -/
def RunPhase.Holding (φ : RunPhase) : Prop := φ = acquired ∨ φ = processing ∨ φ = releasing

instance (φ : RunPhase) : Decidable φ.Holding := inferInstanceAs (Decidable (_ ∨ _))

section Calls

variable {Op : Type} {Res : Op → Type}

/-- The instance whose call it is. -/
def SchedulerOp.ownerId? : SchedulerOp Op → Option String
  | start ownerId => some ownerId
  | stop ownerId => some ownerId
  | interval ownerId => some ownerId
  | acquire ownerId _ _ => some ownerId
  | startLeaseRenewal ownerId => some ownerId
  | work ownerId _ => some ownerId
  | stopLeaseRenewal ownerId => some ownerId
  | release ownerId _ => some ownerId
  | leave ownerId => some ownerId
  | renewal ownerId => some ownerId
  | renew ownerId _ _ => some ownerId
  | other _ => none

/-- The call stays in the process, and cannot fail. -/
def SchedulerOp.isLocal : SchedulerOp Op → Bool
  | acquire _ _ _ | work _ _ | release _ _ | renew _ _ _ | other _ => false
  | _ => true

/-- **What a call does to the phase of its instance**; `none` if `run` does not make it there, or not with
these arguments.  Starts, stops and renewals may come at any time. -/
def RunPhase.next (schedulers : String → Scheduler Res) (φ : RunPhase) :
    (o : SchedulerOp Op) → Except JsError (o.Res Res) → Option RunPhase
  | .interval _, r =>
    match r with
    | .ok true => if φ = .idle then some .acquiring else none
    | .ok false => some φ
    | .error _ => none
  | .acquire ownerId name ttlMs, r =>
    if φ = .acquiring ∧ name = (schedulers ownerId).NAME ∧ ttlMs = (schedulers ownerId).LEASE_TTL_MS then
      match r with
      | .ok true => some .acquired
      | .ok false => some .declined
      | .error _ => some .declined
    else none
  | .startLeaseRenewal _, _ => if φ = .acquired then some .processing else none
  | .work _ _, _ => if φ = .processing then some .processing else none
  | .stopLeaseRenewal _, _ =>
    if φ = .processing then some .releasing else if φ = .declined then some .leaving else none
  | .release ownerId name, _ =>
    if φ = .releasing ∧ name = (schedulers ownerId).NAME then some .leaving else none
  | .leave _, _ => if φ = .leaving then some .idle else none
  | .renew ownerId name ttlMs, _ =>
    if name = (schedulers ownerId).NAME ∧ ttlMs = (schedulers ownerId).LEASE_TTL_MS then some φ else none
  | .start _, _ => some φ
  | .stop _, _ => some φ
  | .renewal _, _ => some φ
  | .other _, _ => some φ

def runTurns (schedulers : String → Scheduler Res) :
    Turns (SchedulerOp Op) (SchedulerOp.Res Res) JsError String RunPhase where
  key := SchedulerOp.ownerId?
  answers o r := o.isLocal = true → ∃ a, r = .ok a
  idle := .idle
  next := RunPhase.next schedulers

end Calls

/-! ## The programs -/

section Programs

variable {Op : Type} {Res : Op → Type} {schedulers : String → Scheduler Res} {ownerId : String}

theorem all_working {P : SchedulerOp Op → Prop} {α : Type} {p : Prog Op Res JsError α}
    (h : All (fun o => P (.work ownerId o)) p) : All P (working ownerId p) := by
  induction p with
  | pure a => exact trivial
  | throw e => exact trivial
  | call o k ih => exact ⟨h.1, fun r => ih r (h.2 r)⟩

theorem all_aside {P : SchedulerOp Op → Prop} {α : Type} {p : Prog Op Res JsError α}
    (h : All (fun o => P (.other o)) p) : All P (aside p) := by
  induction p with
  | pure a => exact trivial
  | throw e => exact trivial
  | call o k ih => exact ⟨h.1, fun r => ih r (h.2 r)⟩

theorem plays_call {o : SchedulerOp Op} (hid : o.ownerId? = some ownerId)
    (h : ∀ r, RunPhase.next schedulers .idle o r = some .idle) :
    (runTurns schedulers).Plays ownerId (fun x _ => x = .idle) (.perform o) .idle :=
  plays_perform hid fun r _ => ⟨.idle, h r, rfl⟩

theorem plays_process : (runTurns schedulers).Plays ownerId (fun x r => x = .processing ∧ r = .ok ())
    ((schedulers ownerId).process ownerId) .acquired := by
  refine plays_tryCatch (plays_perform_bind rfl ?_)
  intro r hr
  obtain ⟨u, rfl⟩ := hr rfl
  refine ⟨.processing, rfl, plays_of_all (all_working ?_) ?_⟩
  · exact (all_true _).mono fun o _ => .inr ⟨rfl, fun r => rfl⟩
  · rintro (e | u)
    · exact ⟨rfl, rfl⟩
    · exact ⟨rfl, rfl⟩

theorem plays_leave : (runTurns schedulers).Plays ownerId (fun x _ => x = .idle)
    (.perform (SchedulerOp.leave ownerId)) .leaving :=
  plays_perform rfl fun _ _ => ⟨.idle, rfl, rfl⟩

theorem plays_settle_acquired : (runTurns schedulers).Plays ownerId (fun x _ => x = .idle)
    ((schedulers ownerId).settle ownerId true) .processing := by
  refine plays_perform_bind rfl ?_
  intro r hr
  obtain ⟨u, rfl⟩ := hr rfl
  refine ⟨.releasing, rfl, plays_bind (plays_tryCatch ?_)⟩
  refine plays_perform (T := runTurns schedulers) (o := .release ownerId (schedulers ownerId).NAME) rfl ?_
  intro r _
  refine ⟨.leaving, if_pos ⟨rfl, rfl⟩, ?_⟩
  cases r with
  | ok u => exact plays_leave
  | error e => exact plays_leave

theorem plays_settle_declined : (runTurns schedulers).Plays ownerId (fun x _ => x = .idle)
    ((schedulers ownerId).settle ownerId false) .declined := by
  refine plays_perform_bind rfl ?_
  intro r hr
  obtain ⟨u, rfl⟩ := hr rfl
  exact ⟨.leaving, rfl, plays_leave⟩

/-- **What `run` does.** -/
theorem plays_run : (runTurns schedulers).Plays ownerId (fun x _ => x = .idle)
    ((schedulers ownerId).run ownerId) .idle := by
  refine plays_perform_bind rfl ?_
  intro r hr
  obtain ⟨fires, rfl⟩ := hr rfl
  cases fires with
  | false => exact ⟨.idle, rfl, rfl⟩
  | true =>
    refine ⟨.acquiring, rfl, plays_bind (plays_perform_tryCatch rfl ?_)⟩
    intro r _
    cases r with
    | error e => exact ⟨.declined, if_pos ⟨rfl, rfl, rfl⟩, plays_settle_declined⟩
    | ok leaseAcquired =>
      cases leaseAcquired with
      | false => exact ⟨.declined, if_pos ⟨rfl, rfl, rfl⟩, plays_settle_declined⟩
      | true =>
        refine ⟨.acquired, if_pos ⟨rfl, rfl, rfl⟩, plays_bind (plays_mono ?_ plays_process)⟩
        rintro y r ⟨rfl, rfl⟩
        exact plays_settle_acquired

theorem plays_renewLease : (runTurns schedulers).Plays ownerId (fun x _ => x = .idle)
    ((schedulers ownerId).renewLease ownerId) .idle := by
  refine plays_perform_bind rfl ?_
  intro r hr
  obtain ⟨fires, rfl⟩ := hr rfl
  refine ⟨.idle, rfl, ?_⟩
  cases fires with
  | false => exact rfl
  | true =>
    refine plays_tryCatch (plays_perform_bind rfl ?_)
    intro r _
    refine ⟨.idle, if_pos ⟨rfl, rfl⟩, ?_⟩
    cases r with
    | ok renewed => exact rfl
    | error e => exact rfl

end Programs

/-! ## The flags -/

/-- The flags of an instance go with its phase. -/
structure SchedulerFlags.Agrees (flags : SchedulerFlags) (φ : RunPhase) : Prop where
  executing : flags.executing = true ↔ φ ≠ .idle
  leaseRenewTimer : flags.leaseRenewTimer = true → φ = .processing
  timer : flags.timer = flags.running

section Flags

variable {Op : Type} {Res : Op → Type} {σ ι τ δ : Type} {S : System Op Res JsError σ ι τ δ}
  {schedulers : String → Scheduler Res} {exec : (o : Op) → ι → σ → Except JsError (Res o) × σ} {o : SchedulerOp Op}
  {i : SchedulerInput ι} {w : SchedulerWorld σ} {ownerId : String} {φ ψ : RunPhase}

@[simp] theorem flags_faulty {α : Type} (r : Except JsError α × LeaseWorld) :
    (i.faulty r w).2.flags = w.flags := by
  rw [SchedulerInput.faulty]
  cases i.fault with
  | none => rfl
  | some f => cases hf : f.applied <;> simp [hf]

@[simp] theorem flags_setFlags (flags : SchedulerFlags) : (w.setFlags ownerId flags).flags ownerId = flags :=
  Function.update_self ..

theorem flags_exec_of_ne (h : o.ownerId? ≠ some ownerId) :
    ((SchedulerOp.exec exec o i w).2).flags ownerId = w.flags ownerId := by
  have hset : ∀ {id : String} {flags}, some id ≠ some ownerId → (w.setFlags id flags).flags ownerId = w.flags ownerId :=
    fun hne => Function.update_of_ne (fun h => hne (congrArg some h.symm)) ..
  cases o with
  | acquire | release | renew => exact congrFun (flags_faulty _) ownerId
  | work | renewal | other => rfl
  | _ => exact hset h

theorem SchedulerFlags.interval_cases (flags : SchedulerFlags) : flags.interval = (false, flags) ∨
    flags.timer = true ∧ flags.running = true ∧ flags.executing = false ∧
      flags.interval = (true, { flags with executing := true }) := by
  rw [SchedulerFlags.interval]
  split
  · next htimer =>
    rw [SchedulerFlags.enter]
    split
    · exact .inl rfl
    · next hgoes =>
      simp only [Bool.or_eq_true, Bool.not_eq_true', not_or, Bool.not_eq_true, Bool.not_eq_false] at hgoes
      exact .inr ⟨htimer, hgoes.1, hgoes.2, rfl⟩
  · exact .inl rfl

theorem SchedulerFlags.Agrees.of_ne {flags : SchedulerFlags} (h : flags.Agrees φ) (hφ : φ ≠ .idle) (hψ : ψ ≠ .idle)
    (hprocessing : φ ≠ .processing) : flags.Agrees ψ where
  executing := iff_of_true (h.executing.mpr hφ) hψ
  leaseRenewTimer ht := absurd (h.leaseRenewTimer ht) hprocessing
  timer := h.timer

/-- The calls that an instance makes, and where they bring it. -/
inductive RunMove (schedulers : String → Scheduler Res) (exec : (o : Op) → ι → σ → Except JsError (Res o) × σ)
    (ownerId : String) (i : SchedulerInput ι) (w : SchedulerWorld σ) : RunPhase → SchedulerOp Op → RunPhase → Prop
  | start (φ : RunPhase) : RunMove schedulers exec ownerId i w φ (.start ownerId) φ
  | stop (φ : RunPhase) : RunMove schedulers exec ownerId i w φ (.stop ownerId) φ
  | renewal (φ : RunPhase) : RunMove schedulers exec ownerId i w φ (.renewal ownerId) φ
  | renew (φ : RunPhase) : RunMove schedulers exec ownerId i w φ
      (.renew ownerId (schedulers ownerId).NAME (schedulers ownerId).LEASE_TTL_MS) φ
  | stay (φ : RunPhase) (h : (w.flags ownerId).interval = (false, w.flags ownerId)) :
      RunMove schedulers exec ownerId i w φ (.interval ownerId) φ
  | enter (hrunning : (w.flags ownerId).running = true)
      (h : (w.flags ownerId).interval = (true, { w.flags ownerId with executing := true })) :
      RunMove schedulers exec ownerId i w .idle (.interval ownerId) .acquiring
  | acquire (h : (SchedulerOp.exec exec
        (.acquire ownerId (schedulers ownerId).NAME (schedulers ownerId).LEASE_TTL_MS) i w).1 = .ok true) :
      RunMove schedulers exec ownerId i w .acquiring
        (.acquire ownerId (schedulers ownerId).NAME (schedulers ownerId).LEASE_TTL_MS) .acquired
  | decline (h : (SchedulerOp.exec exec
        (.acquire ownerId (schedulers ownerId).NAME (schedulers ownerId).LEASE_TTL_MS) i w).1 ≠ .ok true) :
      RunMove schedulers exec ownerId i w .acquiring
        (.acquire ownerId (schedulers ownerId).NAME (schedulers ownerId).LEASE_TTL_MS) .declined
  | startLeaseRenewal : RunMove schedulers exec ownerId i w .acquired (.startLeaseRenewal ownerId) .processing
  | work (o : Op) : RunMove schedulers exec ownerId i w .processing (.work ownerId o) .processing
  | stopLeaseRenewal : RunMove schedulers exec ownerId i w .processing (.stopLeaseRenewal ownerId) .releasing
  | giveUp : RunMove schedulers exec ownerId i w .declined (.stopLeaseRenewal ownerId) .leaving
  | release : RunMove schedulers exec ownerId i w .releasing (.release ownerId (schedulers ownerId).NAME) .leaving
  | leave : RunMove schedulers exec ownerId i w .leaving (.leave ownerId) .idle

/-- **What an instance does**: a call that is allowed in its phase. -/
theorem moved_of_next (hflags : (w.flags ownerId).executing = true ↔ φ ≠ .idle) (hid : o.ownerId? = some ownerId)
    (hnext : RunPhase.next schedulers φ o (SchedulerOp.exec exec o i w).1 = some ψ) :
    RunMove schedulers exec ownerId i w φ o ψ := by
  cases o with
  | start id =>
    obtain rfl : id = ownerId := Option.some.inj hid
    obtain rfl := Option.some.inj hnext
    exact .start φ
  | stop id =>
    obtain rfl : id = ownerId := Option.some.inj hid
    obtain rfl := Option.some.inj hnext
    exact .stop φ
  | renewal id =>
    obtain rfl : id = ownerId := Option.some.inj hid
    obtain rfl := Option.some.inj hnext
    exact .renewal φ
  | renew id name ttlMs =>
    obtain rfl : id = ownerId := Option.some.inj hid
    rw [RunPhase.next] at hnext
    split at hnext
    · next hargs =>
      obtain ⟨rfl, rfl⟩ := hargs
      obtain rfl := Option.some.inj hnext
      exact .renew φ
    · cases hnext
  | interval id =>
    obtain rfl : id = ownerId := Option.some.inj hid
    rw [SchedulerOp.exec] at hnext
    rcases (w.flags id).interval_cases with hstays | ⟨-, hrunning, hexecuting, hfires⟩
    · rw [hstays] at hnext
      obtain rfl := Option.some.inj hnext
      exact .stay φ hstays
    · rw [hfires] at hnext
      have hidle : φ = .idle := by
        by_contra hne
        rw [hflags.mpr hne] at hexecuting
        cases hexecuting
      subst hidle
      obtain rfl := Option.some.inj hnext
      exact .enter hrunning hfires
  | acquire id name ttlMs =>
    obtain rfl : id = ownerId := Option.some.inj hid
    rw [RunPhase.next.eq_def] at hnext
    dsimp only at hnext
    split at hnext
    · next hargs =>
      obtain ⟨rfl, rfl, rfl⟩ := hargs
      cases hanswer : (SchedulerOp.exec exec
          (.acquire id (schedulers id).NAME (schedulers id).LEASE_TTL_MS) i w).1 with
      | error e =>
        rw [hanswer] at hnext
        obtain rfl := Option.some.inj hnext
        exact .decline fun h => by rw [hanswer] at h; cases h
      | ok leaseAcquired =>
        rw [hanswer] at hnext
        cases leaseAcquired with
        | true =>
          obtain rfl := Option.some.inj hnext
          exact .acquire hanswer
        | false =>
          obtain rfl := Option.some.inj hnext
          exact .decline fun h => by rw [hanswer] at h; cases h
    · cases hnext
  | startLeaseRenewal id =>
    obtain rfl : id = ownerId := Option.some.inj hid
    rw [RunPhase.next] at hnext
    split at hnext
    · next hφ =>
      subst hφ
      obtain rfl := Option.some.inj hnext
      exact .startLeaseRenewal
    · cases hnext
  | work id o =>
    obtain rfl : id = ownerId := Option.some.inj hid
    rw [RunPhase.next] at hnext
    split at hnext
    · next hφ =>
      subst hφ
      obtain rfl := Option.some.inj hnext
      exact .work o
    · cases hnext
  | stopLeaseRenewal id =>
    obtain rfl : id = ownerId := Option.some.inj hid
    rw [RunPhase.next] at hnext
    split at hnext
    · next hφ =>
      subst hφ
      obtain rfl := Option.some.inj hnext
      exact .stopLeaseRenewal
    · split at hnext
      · next hφ =>
        subst hφ
        obtain rfl := Option.some.inj hnext
        exact .giveUp
      · cases hnext
  | release id name =>
    obtain rfl : id = ownerId := Option.some.inj hid
    rw [RunPhase.next] at hnext
    split at hnext
    · next hargs =>
      obtain ⟨rfl, rfl⟩ := hargs
      obtain rfl := Option.some.inj hnext
      exact .release
    · cases hnext
  | leave id =>
    obtain rfl : id = ownerId := Option.some.inj hid
    rw [RunPhase.next] at hnext
    split at hnext
    · next hφ =>
      subst hφ
      obtain rfl := Option.some.inj hnext
      exact .leave
    · cases hnext
  | other o => cases hid

/-- **The flags after a call of the instance.** -/
theorem SchedulerFlags.Agrees.moved (h : (w.flags ownerId).Agrees φ) (hmoved : RunMove schedulers exec ownerId i w φ o ψ) :
    ((SchedulerOp.exec exec o i w).2.flags ownerId).Agrees ψ := by
  cases hmoved with
  | start =>
    rw [SchedulerOp.exec, flags_setFlags, SchedulerFlags.start]
    split
    · exact h
    · exact ⟨h.executing, h.leaseRenewTimer, rfl⟩
  | stop =>
    rw [SchedulerOp.exec, flags_setFlags, SchedulerFlags.stop]
    split
    · exact ⟨h.executing, fun ht => (by cases ht), rfl⟩
    · exact h
  | renewal | work => exact h
  | renew =>
    rw [SchedulerOp.exec, flags_faulty]
    exact h
  | stay _ hstays =>
    rw [SchedulerOp.exec, flags_setFlags, hstays]
    exact h
  | enter _ hfires =>
    rw [SchedulerOp.exec, flags_setFlags, hfires]
    exact ⟨iff_of_true rfl (by decide), fun ht => absurd (h.leaseRenewTimer ht) (by decide), h.timer⟩
  | acquire | decline | release =>
    rw [SchedulerOp.exec, flags_faulty]
    exact h.of_ne (by decide) (by decide) (by decide)
  | startLeaseRenewal =>
    rw [SchedulerOp.exec, flags_setFlags]
    exact ⟨iff_of_true (h.executing.mpr (by decide)) (by decide), fun _ => rfl, h.timer⟩
  | stopLeaseRenewal | giveUp =>
    rw [SchedulerOp.exec, flags_setFlags]
    exact ⟨iff_of_true (h.executing.mpr (by decide)) (by decide), fun ht => (by cases ht), h.timer⟩
  | leave =>
    rw [SchedulerOp.exec, flags_setFlags]
    exact ⟨iff_of_false (fun ht => by cases ht) (fun hne => hne rfl),
      fun ht => absurd (h.leaseRenewTimer ht) (by decide), h.timer⟩

end Flags

/-! ## The system -/

section System

variable {Op : Type} {Res : Op → Type} {σ ι τ δ : Type} (S : System Op Res JsError σ ι τ δ)
  (schedulers : String → Scheduler Res)

abbrev SchedulerMoment (Op ι σ : Type) := Moment (SchedulerOp Op) (SchedulerInput ι) (SchedulerWorld σ)

abbrev SchedulerEvent (τ ι δ : Type) := Event (SchedulerTask τ) (SchedulerInput ι) (SchedulerShift δ)

/-- **Where an instance stands after some calls**, if those of its runs are the calls of one run after the
other. -/
def schedulerPhase (ownerId : String) (past : List (SchedulerMoment Op ι σ)) : Option RunPhase :=
  (runTurns schedulers).phase (SchedulerOp.exec S.exec) ownerId past

/-- The flags of every instance go with its phase. -/
def FlagsAgree (past : List (SchedulerMoment Op ι σ)) (w : SchedulerWorld σ) : Prop :=
  ∀ ownerId φ, schedulerPhase S schedulers ownerId past = some φ → (w.flags ownerId).Agrees φ

/-- The instance whose method it is. -/
def SchedulerTask.ownerId : SchedulerTask τ → String
  | .start ownerId => ownerId
  | .stop ownerId => ownerId
  | .interval ownerId => ownerId
  | .renewLease ownerId => ownerId
  | .task _ => ""

variable {S schedulers} {past : List (SchedulerMoment Op ι σ)} {w : SchedulerWorld σ} {o : SchedulerOp Op}
  {i : SchedulerInput ι} {ownerId : String} {ψ : RunPhase}

/-- **An allowed call** is one of another instance, or moves this one. -/
theorem moved_or_same (hflags : FlagsAgree S schedulers past w)
    (hallowed : (runTurns schedulers).Allowed (SchedulerOp.exec S.exec) past ⟨w, o, i⟩)
    (hψ : schedulerPhase S schedulers ownerId (past ++ [⟨w, o, i⟩]) = some ψ) :
    o.ownerId? ≠ some ownerId ∧ schedulerPhase S schedulers ownerId past = some ψ ∨
      o.ownerId? = some ownerId ∧
        ∃ φ, schedulerPhase S schedulers ownerId past = some φ ∧ RunMove schedulers S.exec ownerId i w φ o ψ := by
  by_cases hid : o.ownerId? = some ownerId
  · obtain ⟨φ, ψ', hφ, hnext, hψ'⟩ := hallowed ownerId hid
    obtain rfl : ψ' = ψ := Option.some.inj (hψ'.symm.trans hψ)
    exact .inr ⟨hid, φ, hφ, moved_of_next (hflags ownerId φ hφ).executing hid hnext⟩
  · refine .inl ⟨hid, ?_⟩
    rw [← hψ]
    exact (phase_of_ne (T := runTurns schedulers) (m := ⟨w, o, i⟩) hid).symm

theorem exec_of_isLocal (h : o.isLocal = true) : ∃ a, (SchedulerOp.exec S.exec o i w).1 = .ok a := by
  cases o with
  | acquire | work | release | renew | other => cases h
  | _ => exact ⟨_, rfl⟩

variable (S schedulers) in
/-- **The gate** is `executing`. -/
theorem guards_flags : Guards (runTurns schedulers) (schedulerSystem S schedulers) (FlagsAgree S schedulers)
    SchedulerTask.ownerId where
  plays t := by
    cases t with
    | start ownerId => exact plays_call (o := SchedulerOp.start ownerId) rfl fun r => rfl
    | stop ownerId => exact plays_call (o := SchedulerOp.stop ownerId) rfl fun r => rfl
    | interval ownerId => exact plays_run
    | renewLease ownerId => exact plays_renewLease
    | task t => exact plays_of_all (all_aside ((all_true _).mono fun o _ => .inl rfl)) fun _ => rfl
  answers o i w h := exec_of_isLocal h
  neutral o r h x := by
    cases o with
    | start | stop | renewal | other => rfl
    | interval =>
      rcases r with e | fires
      · cases h
      · cases fires with
        | false => rfl
        | true => cases h
    | renew =>
      simp only [runTurns, RunPhase.next] at h ⊢
      split at h
      · next hargs => exact if_pos hargs
      · cases h
    | _ => cases h
  gate past w o i ownerId φ ψ hflags hφ hid hnext hψ := by
    by_contra hne
    have hexecuting := (hflags ownerId φ hφ).executing.mpr hne
    cases o with
    | interval id =>
      obtain rfl : id = ownerId := Option.some.inj hid
      rcases (w.flags id).interval_cases with hstays | ⟨-, -, hidle, -⟩
      · have hanswer : ((schedulerSystem S schedulers).exec (.interval id) i w).1 = .ok false :=
          congrArg Except.ok (congrArg Prod.fst hstays)
        rw [hanswer] at hnext
        exact hψ (Option.some.inj hnext).symm
      · rw [hexecuting] at hidle
        cases hidle
    | start | stop | renewal => exact hψ (Option.some.inj hnext).symm
    | renew =>
      simp only [runTurns, RunPhase.next] at hnext
      split at hnext
      · exact hψ (Option.some.inj hnext).symm
      · cases hnext
    | other => cases hid
    | _ => cases hnext
  call past w o i hflags hallowed ownerId ψ hψ := by
    rcases moved_or_same hflags hallowed hψ with ⟨hid, hφ⟩ | ⟨-, φ, hφ, hmoved⟩
    · have hsame : ((schedulerSystem S schedulers).exec o i w).2.flags ownerId = w.flags ownerId :=
        flags_exec_of_ne hid
      rw [hsame]
      exact hflags ownerId ψ hφ
    · exact (hflags ownerId φ hφ).moved hmoved
  shift past w d hflags := by
    cases d with
    | tick elapsed => exact hflags
    | other d => exact hflags

theorem flagsAgree_fresh (work : σ) (clock : Timestamp) :
    FlagsAgree S schedulers ([] : List (SchedulerMoment Op ι σ)) (.fresh work clock) := by
  intro ownerId φ hφ
  obtain rfl := Option.some.inj hφ
  exact ⟨iff_of_false (fun h => by cases h) (fun h => h rfl), fun h => (by cases h), rfl⟩

end System

section Runs

variable {Op : Type} {Res : Op → Type} {σ ι τ δ : Type} (S : System Op Res JsError σ ι τ δ)
  (schedulers : String → Scheduler Res)

/-- The calls of a run of the system. -/
def schedulerMoments (work : σ) (clock : Timestamp) (es : List (SchedulerEvent τ ι δ)) :
    List (SchedulerMoment Op ι σ) :=
  Config.moments (schedulerSystem S schedulers) ⟨.fresh work clock, []⟩ es

/-- What a run of the system leaves. -/
def schedulerWorld (work : σ) (clock : Timestamp) (es : List (SchedulerEvent τ ι δ)) : SchedulerWorld σ :=
  (Config.after (schedulerSystem S schedulers) ⟨.fresh work clock, []⟩ es).world

/-- **The runs of an instance are serialized**, however often its timer fires and however its calls, those of
the other instances and those of everything else interleave: the calls that its runs have made are those of
one run after the other, each from its guard through the lease, the cycle and the release to its end.  It is
executing exactly while one of them is under way, and the lease is renewed only during a cycle. -/
theorem runs_serialized (work : σ) (clock : Timestamp) (es : List (SchedulerEvent τ ι δ)) (ownerId : String) :
    ∃ φ, schedulerPhase S schedulers ownerId (schedulerMoments S schedulers work clock es) = some φ ∧
      ((schedulerWorld S schedulers work clock es).flags ownerId).Agrees φ := by
  obtain ⟨hlegal, hflags⟩ := (guards_flags S schedulers).after (flagsAgree_fresh work clock) es
  obtain ⟨φ, hφ⟩ := hlegal ownerId
  exact ⟨φ, hφ, hflags ownerId φ hφ⟩

end Runs

end TransactionSimulator
