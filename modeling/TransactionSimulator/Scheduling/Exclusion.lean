import TransactionSimulator.Scheduling.Serial

/-!
# The lease of a run

While an instance is between the acquisition and the release of its lease, every grant of its lease calls that
has not run out yet keeps the row its own.

* `grants_kept`: what a call leaves of that; `guards_leases`: every run of the system.
* `leases_exclude`: two instances of one name that both hold the lease.
* `guards_rows`: what rows there are; `lease_left_behind`: the row of an instance that does not hold the lease.
-/

namespace TransactionSimulator

open Concurrent Prog Turns Relational LeaseWorld

section Calls

variable {Op : Type} {Res : Op → Type} {σ ι : Type} {exec : (o : Op) → ι → σ → Except JsError (Res o) × σ}
  {o : SchedulerOp Op} {i : SchedulerInput ι} {w : SchedulerWorld σ}

/-- The statement of a lease call. -/
def SchedulerOp.statement? : SchedulerOp Op → Option LeaseEvent
  | acquire ownerId name ttlMs => some (.acquire ownerId name ttlMs)
  | renew ownerId name ttlMs => some (.renew ownerId name ttlMs)
  | release ownerId name => some (.release ownerId name)
  | _ => none

/-- The statement of a lease call was applied, whether or not its answer came back. -/
def SchedulerInput.applied (i : SchedulerInput ι) : Bool := i.fault.all fun f => f.applied

/-- What was applied to the leases. -/
def applied? (m : SchedulerMoment Op ι σ) : Option LeaseEvent :=
  if m.input.applied then m.op.statement? else none

/-- Until when the call granted the name to the owner. -/
def grantedUntil? (ownerId name : String) (m : SchedulerMoment Op ι σ) : Option Timestamp :=
  ((applied? m).bind fun e => m.state.lease.grants ownerId name e).bind fun grant =>
    (PostgresSchedulerLease.validExpiry grant.2 grant.1).toOption

theorem grantedUntil_eq_some {ownerId name : String} {expiresAt : Timestamp} {m : SchedulerMoment Op ι σ}
    (h : grantedUntil? ownerId name m = some expiresAt) :
    ∃ e s ttlMs, applied? m = some e ∧ m.state.lease.grants ownerId name e = some (s, ttlMs) ∧
      PostgresSchedulerLease.validExpiry ttlMs s = .ok expiresAt := by
  obtain ⟨⟨s, ttlMs⟩, hgrant, hvalid⟩ := Option.bind_eq_some_iff.mp h
  obtain ⟨e, happlied, hgrants⟩ := Option.bind_eq_some_iff.mp hgrant
  refine ⟨e, s, ttlMs, happlied, hgrants, ?_⟩
  cases hexpiry : PostgresSchedulerLease.validExpiry ttlMs s with
  | error e =>
    rw [hexpiry] at hvalid
    cases hvalid
  | ok expiresAt' =>
    rw [hexpiry] at hvalid
    exact congrArg Except.ok (Option.some.inj hvalid)

theorem lease_faulty {α : Type} (r : Except JsError α × LeaseWorld) :
    (i.faulty r w).2.lease = if i.applied then r.2 else w.lease := by
  rw [SchedulerInput.faulty, SchedulerInput.applied]
  cases i.fault with
  | none => rfl
  | some f => cases hf : f.applied <;> simp [hf]

/-- **The leases after a call.** -/
theorem lease_exec : (SchedulerOp.exec exec o i w).2.lease = ((applied? ⟨w, o, i⟩).map w.lease.step).getD w.lease := by
  have hlease : ∀ {α : Type} {r : Except JsError α × LeaseWorld} {e : LeaseEvent}, r.2 = w.lease.step e →
      (i.faulty r w).2.lease = ((if i.applied then some e else none).map w.lease.step).getD w.lease := by
    intro α r e hr
    rw [lease_faulty, hr]
    split <;> rfl
  have hnone : ((if i.applied then none else none : Option LeaseEvent).map w.lease.step).getD w.lease = w.lease := by
    split <;> rfl
  cases o with
  | acquire | renew | release => exact hlease rfl
  | _ => exact hnone.symm

theorem clock_exec : (SchedulerOp.exec exec o i w).2.lease.clock = w.lease.clock := by
  rw [lease_exec, applied?]
  split
  · cases o <;> rfl
  · rfl

theorem granted_of_answer {ownerId name : String} {ttlMs : Js.Number}
    (h : (SchedulerOp.exec exec (.acquire ownerId name ttlMs) i w).1 = .ok true) :
    i.fault = none ∧ w.lease.grants ownerId name (.acquire ownerId name ttlMs) = some (w.lease.clock, ttlMs) := by
  rw [SchedulerOp.exec, SchedulerInput.faulty] at h
  split at h
  · next hfault =>
    refine ⟨hfault, if_pos ⟨rfl, rfl, ?_⟩⟩
    rw [answer, map_some_eq_ok]
    exact h
  · cases h

end Calls

section Expiries

variable {ttlMs : Js.Number} {s s' e e' : Timestamp}

theorem expiry_mono (hs : s ≤ s') (h : PostgresSchedulerLease.validExpiry ttlMs s = .ok e)
    (h' : PostgresSchedulerLease.validExpiry ttlMs s' = .ok e') : e ≤ e' := by
  obtain ⟨interval, hinterval, rfl⟩ := validExpiry_eq_ok h
  obtain ⟨interval', hinterval', rfl⟩ := validExpiry_eq_ok h'
  rw [hinterval] at hinterval'
  cases hinterval'
  have hnominal : ((s : Int) + interval).toNat ≤ ((s' : Int) + interval).toNat :=
    Int.toNat_le_toNat (Int.add_le_add_right (Int.ofNat_le.mpr hs) interval)
  rw [Postgres.toMillis, Postgres.toMillis]
  exact Nat.mul_le_mul_right 1000 (Nat.div_le_div_right (Nat.add_le_add_right hnominal 500))

theorem grants_cases {w : LeaseWorld} {ownerId name : String} {call : LeaseEvent} {ttlMs : Js.Number}
    (h : w.grants ownerId name call = some (s, ttlMs)) : s = w.clock ∧
      (call = .acquire ownerId name ttlMs ∨ call = .renew ownerId name ttlMs) := by
  cases call with
  | acquire ownerId' name' ttlMs' =>
    rw [grants] at h
    split at h
    · next hgranted =>
      obtain ⟨rfl, rfl, -⟩ := hgranted
      cases h
      exact ⟨rfl, .inl rfl⟩
    · cases h
  | renew ownerId' name' ttlMs' =>
    rw [grants] at h
    split at h
    · next hgranted =>
      obtain ⟨rfl, rfl, -⟩ := hgranted
      cases h
      exact ⟨rfl, .inr rfl⟩
    · cases h
  | release | tick => cases h

end Expiries

/-! ## The row of an instance that holds the lease -/

section Held

variable {Op : Type} {Res : Op → Type} {σ ι τ δ : Type} (S : System Op Res JsError σ ι τ δ)
  (schedulers : String → Scheduler Res)

/-- Instances acquire and renew only the lease of their class, for its time. -/
def OwnLease : SchedulerOp Op → Prop
  | .acquire ownerId name ttlMs => name = (schedulers ownerId).NAME ∧ ttlMs = (schedulers ownerId).LEASE_TTL_MS
  | .renew ownerId name ttlMs => name = (schedulers ownerId).NAME ∧ ttlMs = (schedulers ownerId).LEASE_TTL_MS
  | _ => True

/-- While an instance holds its lease, every grant that has not run out keeps the row its own. -/
structure LeasesHeld (past : List (SchedulerMoment Op ι σ)) (w : SchedulerWorld σ) : Prop where
  own : ∀ m ∈ past, OwnLease schedulers m.op
  clock : ∀ m ∈ past, m.state.lease.clock ≤ w.lease.clock
  held : ∀ ownerId φ, schedulerPhase S schedulers ownerId past = some φ → φ.Holding →
    ∀ m ∈ past, ∀ e, grantedUntil? ownerId (schedulers ownerId).NAME m = some e → w.lease.clock < e →
      ∃ lease, w.lease.leases.get (schedulers ownerId).NAME = some lease ∧ lease.ownerId = ownerId ∧
        e ≤ lease.expiresAt

variable {S schedulers} {past : List (SchedulerMoment Op ι σ)} {w : SchedulerWorld σ} {o : SchedulerOp Op}
  {i : SchedulerInput ι} {ownerId : String} {φ ψ : RunPhase}

theorem ownLease_of_allowed (hflags : FlagsAgree S schedulers past w)
    (hallowed : (runTurns schedulers).Allowed (SchedulerOp.exec S.exec) past ⟨w, o, i⟩) : OwnLease schedulers o := by
  have hmove : ∀ id, o.ownerId? = some id → ∃ φ ψ, RunMove schedulers S.exec id i w φ o ψ := by
    intro id hid
    obtain ⟨φ, ψ, hφ, hnext, -⟩ := hallowed id hid
    exact ⟨φ, ψ, moved_of_next (hflags id φ hφ).executing hid hnext⟩
  cases o with
  | acquire id name ttlMs =>
    obtain ⟨φ, ψ, hmove⟩ := hmove id rfl
    cases hmove with
    | acquire | decline => exact ⟨rfl, rfl⟩
  | renew id name ttlMs =>
    obtain ⟨φ, ψ, hmove⟩ := hmove id rfl
    cases hmove with
    | renew => exact ⟨rfl, rfl⟩
  | _ => trivial

/-- The statement of a grant is for the lease time of the class. -/
theorem ttl_of_grants {m : SchedulerMoment Op ι σ} (hown : OwnLease schedulers m.op) {e : LeaseEvent}
    (happlied : applied? m = some e) {name : String} {s : Timestamp} {ttlMs : Js.Number}
    (hgrants : m.state.lease.grants ownerId name e = some (s, ttlMs)) :
    s = m.state.lease.clock ∧ name = (schedulers ownerId).NAME ∧ ttlMs = (schedulers ownerId).LEASE_TTL_MS := by
  obtain ⟨hs, hcall⟩ := grants_cases hgrants
  refine ⟨hs, ?_⟩
  rw [applied?] at happlied
  split at happlied
  · cases hop : m.op with
    | acquire | renew =>
      rw [hop] at hown happlied
      obtain rfl := Option.some.inj happlied
      rcases hcall with hcall | hcall <;> cases hcall
      exact hown
    | release =>
      rw [hop] at happlied
      obtain rfl := Option.some.inj happlied
      rcases hcall with hcall | hcall <;> cases hcall
    | _ =>
      rw [hop] at happlied
      cases happlied
  · cases happlied

/-- A call that leaves its instance with the lease was made with the lease and keeps it, or acquires it. -/
theorem holding_before (hmove : RunMove schedulers S.exec ownerId i w φ o ψ) (hψ : ψ.Holding) :
    φ.Holding ∧ (∀ name, o.statement? ≠ some (.release ownerId name)) ∨
      i.fault = none ∧ ∃ ttlMs, o = .acquire ownerId (schedulers ownerId).NAME ttlMs ∧
        w.lease.grants ownerId (schedulers ownerId).NAME (.acquire ownerId (schedulers ownerId).NAME ttlMs) =
          some (w.lease.clock, ttlMs) := by
  cases hmove with
  | acquire h =>
    obtain ⟨hfault, hgrants⟩ := granted_of_answer h
    exact .inr ⟨hfault, _, rfl, hgrants⟩
  | start | stop | renewal | renew | stay => exact .inl ⟨hψ, fun name h => by cases h⟩
  | startLeaseRenewal | work | stopLeaseRenewal => exact .inl ⟨by decide, fun name h => by cases h⟩
  | enter | decline | giveUp | release | leave => exact absurd hψ (by decide)

/-- **One call**: what a grant has made the instance's own stays its own. -/
theorem LeasesHeld.call (hflags : FlagsAgree S schedulers past w) (h : LeasesHeld S schedulers past w)
    (hallowed : (runTurns schedulers).Allowed (SchedulerOp.exec S.exec) past ⟨w, o, i⟩) :
    LeasesHeld S schedulers (past ++ [⟨w, o, i⟩]) (SchedulerOp.exec S.exec o i w).2 := by
  have hown := ownLease_of_allowed hflags hallowed
  have howns : ∀ m ∈ past ++ [⟨w, o, i⟩], OwnLease schedulers m.op := by
    intro m hm
    rcases List.mem_append.mp hm with hm | hm
    · exact h.own m hm
    · rw [List.mem_singleton.mp hm]
      exact hown
  refine ⟨howns, ?_, ?_⟩
  · intro m hm
    rw [clock_exec]
    rcases List.mem_append.mp hm with hm | hm
    · exact h.clock m hm
    · rw [List.mem_singleton.mp hm]
  · intro ownerId ψ hψ hholding m hm e hgranted hlasts
    rw [clock_exec] at hlasts
    obtain ⟨call, s, ttlMs, happlied, hgrants, hvalid⟩ := grantedUntil_eq_some hgranted
    obtain ⟨hs, -, httl⟩ := ttl_of_grants (howns m hm) happlied hgrants
    have hclock : s ≤ w.lease.clock := by
      rw [hs]
      rcases List.mem_append.mp hm with hm | hm
      · exact h.clock m hm
      · rw [List.mem_singleton.mp hm]
    rw [lease_exec]
    -- a grant by the call itself is the latest, and the others end no later
    cases hnow : (applied? (⟨w, o, i⟩ : SchedulerMoment Op ι σ)).bind
        fun e => w.lease.grants ownerId (schedulers ownerId).NAME e with
    | some new =>
      obtain ⟨s', ttlMs'⟩ := new
      obtain ⟨call', happlied', hgrants'⟩ := Option.bind_eq_some_iff.mp hnow
      obtain ⟨e', hvalid', hgranted'⟩ := step_grants hgrants'
      obtain ⟨hs', -, httl'⟩ := ttl_of_grants (m := ⟨w, o, i⟩) hown happlied' hgrants'
      obtain ⟨lease, hget, howner, hexpires⟩ := hgranted'.row
      rw [happlied']
      refine ⟨lease, hget, howner, ?_⟩
      rw [hexpires]
      rw [httl] at hvalid
      rw [httl'] at hvalid'
      exact expiry_mono (hclock.trans_eq hs'.symm) hvalid hvalid'
    | none =>
      have hpast : m ∈ past := by
        rcases List.mem_append.mp hm with hm | hm
        · exact hm
        · obtain rfl := List.mem_singleton.mp hm
          rw [happlied, Option.bind_some] at hnow
          rw [hnow] at hgrants
          cases hgrants
      obtain ⟨hheld, hrelease⟩ : (∃ φ, schedulerPhase S schedulers ownerId past = some φ ∧ φ.Holding) ∧
          ∀ name, o.statement? ≠ some (.release ownerId name) := by
        rcases moved_or_same hflags hallowed hψ with ⟨hid, hφ⟩ | ⟨-, φ, hφ, hmove⟩
        · refine ⟨⟨ψ, hφ, hholding⟩, fun name hstatement => hid ?_⟩
          cases o with
          | release => cases hstatement; rfl
          | _ => cases hstatement
        · rcases holding_before hmove hholding with ⟨hheld, hrelease⟩ | ⟨hfault, ttl, rfl, hacquired⟩
          · exact ⟨⟨φ, hφ, hheld⟩, hrelease⟩
          · have happ : applied? (⟨w, .acquire ownerId (schedulers ownerId).NAME ttl, i⟩ : SchedulerMoment Op ι σ) =
                some (.acquire ownerId (schedulers ownerId).NAME ttl) := by
              rw [applied?, SchedulerInput.applied, hfault]
              rfl
            rw [happ, Option.bind_some, hacquired] at hnow
            cases hnow
      obtain ⟨φ, hφ, hheld⟩ := hheld
      obtain ⟨lease, hget, howner, hexpires⟩ := h.held ownerId φ hφ hheld m hpast e hgranted hlasts
      refine ⟨lease, ?_, howner, hexpires⟩
      cases happ : applied? (⟨w, o, i⟩ : SchedulerMoment Op ι σ) with
      | none => exact hget
      | some call' =>
        rw [happ, Option.bind_some] at hnow
        refine step_keeps hget howner (Nat.lt_of_lt_of_le hlasts hexpires) ?_ hnow
        rintro rfl
        rw [applied?] at happ
        split at happ
        · exact hrelease _ happ
        · cases happ

variable (S schedulers) in
/-- **Every run of the system.** -/
theorem guards_leases : Guards (runTurns schedulers) (schedulerSystem S schedulers)
    (fun past w => FlagsAgree S schedulers past w ∧ LeasesHeld S schedulers past w) SchedulerTask.ownerId := by
  refine (guards_flags S schedulers).and (fun past w o i hflags h hallowed => h.call hflags hallowed) ?_
  intro past w d hflags h
  cases d with
  | other d => exact ⟨h.own, h.clock, h.held⟩
  | tick elapsed =>
    refine ⟨h.own, fun m hm => (h.clock m hm).trans (Nat.le_add_right ..), ?_⟩
    intro ownerId φ hφ hholding m hm e hgranted hlasts
    exact h.held ownerId φ hφ hholding m hm e hgranted (Nat.lt_of_le_of_lt (Nat.le_add_right ..) hlasts)

end Held

/-! ## The rows -/

section Rows

/-- **Where a row comes from**: it was there and was not released, or the owner acquired or renewed it. -/
theorem row_step {w : LeaseWorld} {e : LeaseEvent} {name : String} {lease : SchedulerLease}
    (h : (w.step e).leases.get name = some lease) :
    w.leases.get name = some lease ∧ e ≠ .release lease.ownerId name ∨
      ∃ ttlMs, PostgresSchedulerLease.validExpiry ttlMs w.clock = .ok lease.expiresAt ∧
        w.answer e = .ok (some true) ∧
        (e = .acquire lease.ownerId name ttlMs ∨ e = .renew lease.ownerId name ttlMs ∧
          ∃ old, w.leases.get name = some old ∧ old.ownerId = lease.ownerId) := by
  cases e with
  | tick elapsed => exact .inl ⟨h, fun he => by cases he⟩
  | release ownerId name' =>
    rw [step, release_spec, Option.filter_eq_some_iff] at h
    obtain ⟨hget, hkept⟩ := h
    refine .inl ⟨hget, ?_⟩
    intro he
    cases he
    simp [name_of_get hget] at hkept
  | acquire ownerId name' ttlMs =>
    rw [step] at h
    cases hvalid : PostgresSchedulerLease.validExpiry ttlMs w.clock with
    | error e =>
      rw [PostgresSchedulerLease.acquire, hvalid] at h
      exact .inl ⟨h, fun he => by cases he⟩
    | ok expiresAt =>
      rcases acquire_spec w.leases ownerId name' hvalid with ⟨-, -, hsame⟩ | ⟨-, htrue, hgranted⟩
      · exact .inl ⟨(hsame name).symm.trans h, fun he => by cases he⟩
      · by_cases hname : name = name'
        · subst hname
          obtain ⟨lease', hget, rfl, rfl⟩ := hgranted.row
          obtain rfl : lease' = lease := Option.some.inj (hget.symm.trans h)
          exact .inr ⟨ttlMs, hvalid, map_some_eq_ok.mpr htrue, .inl rfl⟩
        · exact .inl ⟨(hgranted.others name hname).symm.trans h, fun he => by cases he⟩
  | renew ownerId name' ttlMs =>
    rw [step] at h
    cases hvalid : PostgresSchedulerLease.validExpiry ttlMs w.clock with
    | error e =>
      rw [PostgresSchedulerLease.renew, hvalid] at h
      exact .inl ⟨h, fun he => by cases he⟩
    | ok expiresAt =>
      rcases renew_spec w.leases ownerId name' hvalid with ⟨⟨old, hold, howner, -⟩, htrue, hgranted⟩ | ⟨-, -, hsame⟩
      · by_cases hname : name = name'
        · subst hname
          obtain ⟨lease', hget, rfl, rfl⟩ := hgranted.row
          obtain rfl : lease' = lease := Option.some.inj (hget.symm.trans h)
          exact .inr ⟨ttlMs, hvalid, map_some_eq_ok.mpr htrue, .inr ⟨rfl, old, hold, howner⟩⟩
        · exact .inl ⟨(hgranted.others name hname).symm.trans h, fun he => by cases he⟩
      · exact .inl ⟨(hsame name).symm.trans h, fun he => by cases he⟩

variable {Op : Type} {Res : Op → Type} {σ ι τ δ : Type} (S : System Op Res JsError σ ι τ δ)
  (schedulers : String → Scheduler Res)

/-- The acquisition or the release of the instance failed, applied or not. -/
def LeaseCallFailed (ownerId : String) (m : SchedulerMoment Op ι σ) : Prop :=
  m.input.fault ≠ none ∧
    ((∃ name ttlMs, m.op = .acquire ownerId name ttlMs) ∨ ∃ name, m.op = .release ownerId name)

/-- A row is one of an instance of its class, for no more than its lease time from now on, and the instance
holds its lease, or one of its calls has failed. -/
structure RowsHeld (past : List (SchedulerMoment Op ι σ)) (w : SchedulerWorld σ) : Prop where
  named : ∀ name lease, w.lease.leases.get name = some lease → name = (schedulers lease.ownerId).NAME
  lasts : ∀ name lease, w.lease.leases.get name = some lease → ∃ s, s ≤ w.lease.clock ∧
    PostgresSchedulerLease.validExpiry (schedulers lease.ownerId).LEASE_TTL_MS s = .ok lease.expiresAt
  held : ∀ name lease, w.lease.leases.get name = some lease → ∀ φ,
    schedulerPhase S schedulers lease.ownerId past = some φ →
      φ.Holding ∨ ∃ m ∈ past, LeaseCallFailed lease.ownerId m

variable {S schedulers} {past : List (SchedulerMoment Op ι σ)} {w : SchedulerWorld σ} {o : SchedulerOp Op}
  {i : SchedulerInput ι} {ownerId : String} {φ ψ : RunPhase}

theorem op_of_applied {e : LeaseEvent} (h : applied? (⟨w, o, i⟩ : SchedulerMoment Op ι σ) = some e) :
    o.statement? = some e := by
  rw [applied?] at h
  split at h
  · exact h
  · cases h

/-- An instance that has the lease and whose call does not fail has it after the call, unless that applies the
release. -/
theorem holding_after (hmove : RunMove schedulers S.exec ownerId i w φ o ψ) (hφ : φ.Holding) :
    ψ.Holding ∨ LeaseCallFailed ownerId (⟨w, o, i⟩ : SchedulerMoment Op ι σ) ∨
      applied? (⟨w, o, i⟩ : SchedulerMoment Op ι σ) = some (.release ownerId (schedulers ownerId).NAME) := by
  cases hmove with
  | release =>
    right
    cases hfault : i.fault with
    | none => exact .inr (if_pos (by rw [SchedulerInput.applied, hfault]; rfl))
    | some f => exact .inl ⟨by rw [hfault]; exact fun h => (by cases h), .inr ⟨_, rfl⟩⟩
  | start | stop | renewal | renew | stay => exact .inl hφ
  | startLeaseRenewal | work | stopLeaseRenewal => exact .inl (by decide)
  | enter | acquire | decline | giveUp | leave => exact absurd hφ (by decide)

/-- **One call.** -/
theorem RowsHeld.call (hflags : FlagsAgree S schedulers past w) (h : RowsHeld S schedulers past w)
    (hallowed : (runTurns schedulers).Allowed (SchedulerOp.exec S.exec) past ⟨w, o, i⟩) :
    RowsHeld S schedulers (past ++ [⟨w, o, i⟩]) (SchedulerOp.exec S.exec o i w).2 := by
  have hown := ownLease_of_allowed hflags hallowed
  -- a row after the call was there and is not released, or is the one that the call has granted
  have hrow : ∀ name lease, (SchedulerOp.exec S.exec o i w).2.lease.leases.get name = some lease →
      (w.lease.leases.get name = some lease ∧
        applied? (⟨w, o, i⟩ : SchedulerMoment Op ι σ) ≠ some (.release lease.ownerId name)) ∨
      ∃ ttlMs, PostgresSchedulerLease.validExpiry ttlMs w.lease.clock = .ok lease.expiresAt ∧
        (o = .acquire lease.ownerId name ttlMs ∧
            w.lease.answer (.acquire lease.ownerId name ttlMs) = .ok (some true) ∨
          o = .renew lease.ownerId name ttlMs ∧
            ∃ old, w.lease.leases.get name = some old ∧ old.ownerId = lease.ownerId) := by
    intro name lease hget
    rw [lease_exec] at hget
    cases happ : applied? (⟨w, o, i⟩ : SchedulerMoment Op ι σ) with
    | none =>
      rw [happ] at hget
      exact .inl ⟨hget, fun h => by cases h⟩
    | some e =>
      rw [happ] at hget
      have hstatement := op_of_applied happ
      rcases row_step hget with ⟨hold, hkept⟩ | ⟨ttlMs, hvalid, htrue, hcall⟩
      · exact .inl ⟨hold, fun he => hkept (Option.some.inj he)⟩
      · refine .inr ⟨ttlMs, hvalid, ?_⟩
        rcases hcall with rfl | ⟨rfl, hold⟩
        · refine .inl ⟨?_, htrue⟩
          cases o with
          | acquire => cases hstatement; rfl
          | _ => cases hstatement
        · refine .inr ⟨?_, hold⟩
          cases o with
          | renew => cases hstatement; rfl
          | _ => cases hstatement
  refine ⟨?_, ?_, ?_⟩
  · intro name lease hget
    rcases hrow name lease hget with ⟨hold, -⟩ | ⟨ttlMs, -, ⟨rfl, -⟩ | ⟨rfl, -⟩⟩
    · exact h.named name lease hold
    · exact hown.1
    · exact hown.1
  · intro name lease hget
    rw [clock_exec]
    rcases hrow name lease hget with ⟨hold, -⟩ | ⟨ttlMs, hvalid, ⟨rfl, -⟩ | ⟨rfl, -⟩⟩
    · exact h.lasts name lease hold
    · exact ⟨w.lease.clock, le_rfl, hown.2 ▸ hvalid⟩
    · exact ⟨w.lease.clock, le_rfl, hown.2 ▸ hvalid⟩
  · intro name lease hget ψ hψ
    have hbefore : ∀ {id}, (∃ m ∈ past, LeaseCallFailed id m) → ∃ m ∈ past ++ [⟨w, o, i⟩], LeaseCallFailed id m :=
      fun ⟨m, hm, hfailed⟩ => ⟨m, List.mem_append_left _ hm, hfailed⟩
    rcases moved_or_same hflags hallowed hψ with ⟨hid, hφ⟩ | ⟨-, φ, hφ, hmove⟩
    · rcases hrow name lease hget with ⟨hold, -⟩ | ⟨ttlMs, -, ⟨rfl, -⟩ | ⟨rfl, -⟩⟩
      · exact (h.held name lease hold ψ hφ).imp_right hbefore
      · exact absurd rfl hid
      · exact absurd rfl hid
    · rcases hrow name lease hget with ⟨hold, hkept⟩ | ⟨ttlMs, -, ⟨rfl, htrue⟩ | ⟨rfl, old, hold, howner⟩⟩
      · rcases h.held name lease hold φ hφ with hholding | hfailed
        · rcases holding_after hmove hholding with hψ | hfailed | hreleased
          · exact .inl hψ
          · exact .inr ⟨_, List.mem_append_right _ (List.mem_singleton_self _), hfailed⟩
          · rw [← h.named name lease hold] at hreleased
            exact absurd hreleased hkept
        · exact .inr (hbefore hfailed)
      · cases hmove with
        | acquire => exact .inl (by decide)
        | decline hdeclined =>
          -- the lease was granted, so the answer was lost
          refine .inr ⟨_, List.mem_append_right _ (List.mem_singleton_self _), ?_, .inl ⟨_, _, rfl⟩⟩
          intro hfault
          refine hdeclined ?_
          rw [SchedulerOp.exec, SchedulerInput.faulty, hfault]
          exact map_some_eq_ok.mp htrue
      · cases hmove with
        | renew =>
          have hheld := h.held _ old hold
          rw [howner] at hheld
          exact (hheld _ hφ).imp_right hbefore

variable (S schedulers) in
/-- **Every run of the system.** -/
theorem guards_rows : Guards (runTurns schedulers) (schedulerSystem S schedulers)
    (fun past w => FlagsAgree S schedulers past w ∧ RowsHeld S schedulers past w) SchedulerTask.ownerId := by
  refine (guards_flags S schedulers).and (fun past w o i hflags h hallowed => h.call hflags hallowed) ?_
  intro past w d hflags h
  cases d with
  | other d => exact ⟨h.named, h.lasts, h.held⟩
  | tick elapsed =>
    refine ⟨h.named, fun name lease hget => ?_, h.held⟩
    obtain ⟨s, hs, hvalid⟩ := h.lasts name lease hget
    exact ⟨s, hs.trans (Nat.le_add_right ..), hvalid⟩

end Rows

/-! ## Runs -/

section Runs

variable {Op : Type} {Res : Op → Type} {σ ι τ δ : Type} (S : System Op Res JsError σ ι τ δ)
  (schedulers : String → Scheduler Res)

/-- A grant to an instance that lasts at the end of a run. -/
def Current (work : σ) (clock : Timestamp) (es : List (SchedulerEvent τ ι δ)) (ownerId : String)
    (expiresAt : Timestamp) : Prop :=
  (∃ m ∈ schedulerMoments S schedulers work clock es,
      grantedUntil? ownerId (schedulers ownerId).NAME m = some expiresAt) ∧
    (schedulerWorld S schedulers work clock es).lease.clock < expiresAt

/-- The instance is in a run that has acquired the lease and has not released it. -/
def HoldsLease (work : σ) (clock : Timestamp) (es : List (SchedulerEvent τ ι δ)) (ownerId : String) : Prop :=
  ∃ φ, schedulerPhase S schedulers ownerId (schedulerMoments S schedulers work clock es) = some φ ∧ φ.Holding

/-- **The holder of a lease is alone**: after any calls of any number of instances, failed ones and stopped
ones included, an instance that is in a run under the lease, and one of whose acquisitions and renewals lasts,
owns the row for at least so long.  No other owner acquires or renews the name, and another instance of the
class that is in a run under the lease has no grant that lasts. -/
theorem holder_is_alone (work : σ) (clock : Timestamp) (es : List (SchedulerEvent τ ι δ)) (ownerId : String)
    (expiresAt : Timestamp) (hholds : HoldsLease S schedulers work clock es ownerId)
    (hcurrent : Current S schedulers work clock es ownerId expiresAt) :
    (∃ lease, (schedulerWorld S schedulers work clock es).lease.leases.get (schedulers ownerId).NAME = some lease ∧
      lease.ownerId = ownerId ∧ expiresAt ≤ lease.expiresAt) ∧
    (∀ other ttlMs, other ≠ ownerId →
      (schedulerWorld S schedulers work clock es).lease.answer (.acquire other (schedulers ownerId).NAME ttlMs) ≠
          .ok (some true) ∧
        (schedulerWorld S schedulers work clock es).lease.answer (.renew other (schedulers ownerId).NAME ttlMs) ≠
          .ok (some true)) ∧
    ∀ other, other ≠ ownerId → (schedulers other).NAME = (schedulers ownerId).NAME →
      HoldsLease S schedulers work clock es other → ∀ until', ¬ Current S schedulers work clock es other until' := by
  have hfresh : LeasesHeld S schedulers ([] : List (SchedulerMoment Op ι σ)) (.fresh work clock) :=
    ⟨fun m hm => (by cases hm), fun m hm => (by cases hm), fun _ _ _ _ m hm => (by cases hm)⟩
  obtain ⟨-, -, hheld⟩ := (guards_leases S schedulers).after
    ⟨flagsAgree_fresh work clock, hfresh⟩ es
  have hrow : ∀ id until', HoldsLease S schedulers work clock es id → Current S schedulers work clock es id until' →
      ∃ lease, (schedulerWorld S schedulers work clock es).lease.leases.get (schedulers id).NAME = some lease ∧
        lease.ownerId = id ∧ until' ≤ lease.expiresAt := by
    rintro id until' ⟨φ, hφ, hholding⟩ ⟨⟨m, hm, hgranted⟩, hlasts⟩
    exact hheld.held id φ hφ hholding m hm until' hgranted hlasts
  obtain ⟨lease, hget, howner, hexpires⟩ := hrow ownerId expiresAt hholds hcurrent
  refine ⟨⟨lease, hget, howner, hexpires⟩, ?_, ?_⟩
  · intro other ttlMs hother
    exact refused_of_bars hget ⟨fun h => hother (h.symm.trans howner), Nat.lt_of_lt_of_le hcurrent.2 hexpires⟩ ttlMs
  · intro other hother hname hholds' until' hcurrent'
    obtain ⟨lease', hget', howner', -⟩ := hrow other until' hholds' hcurrent'
    rw [hname, hget] at hget'
    obtain rfl := Option.some.inj hget'
    exact hother (howner'.symm.trans howner)

section Samples

/-- Instances of the expiration scheduler in the default deployment. -/
def expirationSchedulers (_ : String) : Scheduler Call.Res := ExpirationScheduler

/-- Program `pid` makes its next `n` calls, none of which fails. -/
def unhindered (pid n : Nat) : List (SchedulerEvent Task Input Shift) :=
  stepping pid (fun _ => { work := {} }) n

/-- Two instances are started, the timer of the first fires, and its run gets as far as its cycle. -/
def firstHolds : List (SchedulerEvent Task Input Shift) :=
  .spawn (.start "a") :: unhindered 0 1 ++ .spawn (.start "b") :: unhindered 1 1 ++
    .spawn (.interval "a") :: unhindered 2 3

/-- Its lease is not renewed, and the second takes over while the cycle of the first goes on. -/
def secondHolds : List (SchedulerEvent Task Input Shift) :=
  firstHolds ++ .shift (.tick 60000000) :: .spawn (.interval "b") :: unhindered 3 3

theorem secondHolds_phases :
    schedulerPhase Deployment.defaults.system expirationSchedulers "a"
        (schedulerMoments Deployment.defaults.system expirationSchedulers .sample 0 secondHolds) = some .processing ∧
      schedulerPhase Deployment.defaults.system expirationSchedulers "b"
        (schedulerMoments Deployment.defaults.system expirationSchedulers .sample 0 secondHolds) = some .processing := by
  decide +kernel

theorem secondHolds_current : Current Deployment.defaults.system expirationSchedulers .sample 0 secondHolds "b"
    120000000 := by
  have hgrant : ((schedulerMoments Deployment.defaults.system expirationSchedulers .sample 0 secondHolds).any
      fun m => grantedUntil? "b" ExpirationScheduler.NAME m = some 120000000) = true := by decide +kernel
  obtain ⟨m, hm, hgranted⟩ := List.any_eq_true.mp hgrant
  exact ⟨⟨m, hm, of_decide_eq_true hgranted⟩, by decide +kernel⟩

/-- Both are in their cycles, and the lease of the first has run out. -/
theorem holder_is_alone_second :
    HoldsLease Deployment.defaults.system expirationSchedulers .sample 0 secondHolds "a" ∧
      ∀ until', ¬ Current Deployment.defaults.system expirationSchedulers .sample 0 secondHolds "a" until' :=
  have hfirst : HoldsLease Deployment.defaults.system expirationSchedulers .sample 0 secondHolds "a" :=
    ⟨_, secondHolds_phases.1, .inr (.inl rfl)⟩
  ⟨hfirst, (holder_is_alone Deployment.defaults.system expirationSchedulers .sample 0 secondHolds "b" 120000000
    ⟨_, secondHolds_phases.2, .inr (.inl rfl)⟩ secondHolds_current).2.2 "a" (by decide) rfl hfirst⟩

end Samples

theorem rowsHeld (work : σ) (clock : Timestamp) (es : List (SchedulerEvent τ ι δ)) :
    RowsHeld S schedulers (schedulerMoments S schedulers work clock es) (schedulerWorld S schedulers work clock es) := by
  have hfresh : RowsHeld S schedulers ([] : List (SchedulerMoment Op ι σ)) (.fresh work clock) :=
    ⟨fun _ _ h => (by cases h), fun _ _ h => (by cases h), fun _ _ h => (by cases h)⟩
  exact ((guards_rows S schedulers).after ⟨flagsAgree_fresh work clock, hfresh⟩ es).2.2

theorem exists_phase (work : σ) (clock : Timestamp) (es : List (SchedulerEvent τ ι δ)) (ownerId : String) :
    ∃ φ, schedulerPhase S schedulers ownerId (schedulerMoments S schedulers work clock es) = some φ :=
  ((guards_flags S schedulers).after (flagsAgree_fresh work clock) es).1 ownerId

/-- **What is left behind**: after any calls, every row is one of an instance of its class, and the instance is
in a run under the lease, or one of its acquisitions or releases has failed. -/
theorem lease_left_behind (work : σ) (clock : Timestamp) (es : List (SchedulerEvent τ ι δ)) (name : String)
    (lease : SchedulerLease)
    (h : (schedulerWorld S schedulers work clock es).lease.leases.get name = some lease) :
    name = (schedulers lease.ownerId).NAME ∧
      (HoldsLease S schedulers work clock es lease.ownerId ∨
        ∃ m ∈ schedulerMoments S schedulers work clock es, LeaseCallFailed lease.ownerId m) := by
  have hrows := rowsHeld S schedulers work clock es
  obtain ⟨φ, hφ⟩ := exists_phase S schedulers work clock es lease.ownerId
  exact ⟨hrows.named name lease h, (hrows.held name lease h φ hφ).imp_left fun hholding => ⟨φ, hφ, hholding⟩⟩

/-- The first instance has acquired the lease, but the answer is lost. -/
def answerLost : List (SchedulerEvent Task Input Shift) :=
  .spawn (.start "a") :: unhindered 0 1 ++ .spawn (.interval "a") :: unhindered 1 1 ++
    [.step 1 { fault := some ⟨"Connection terminated", true⟩, work := {} }] ++ unhindered 1 2

theorem answerLost_row :
    (schedulerWorld Deployment.defaults.system expirationSchedulers .sample 0 answerLost).lease.leases.get
      "expiration-scheduler" = some ⟨"expiration-scheduler", "a", 60000000, 0⟩ := by decide +kernel

/-- A row of an instance whose run is over. -/
theorem lease_left_behind_first :
    schedulerPhase Deployment.defaults.system expirationSchedulers "a"
        (schedulerMoments Deployment.defaults.system expirationSchedulers .sample 0 answerLost) = some .idle ∧
      (HoldsLease Deployment.defaults.system expirationSchedulers .sample 0 answerLost "a" ∨
        ∃ m ∈ schedulerMoments Deployment.defaults.system expirationSchedulers .sample 0 answerLost,
          LeaseCallFailed "a" m) :=
  ⟨by decide +kernel,
    (lease_left_behind Deployment.defaults.system expirationSchedulers .sample 0 answerLost _ _ answerLost_row).2⟩

end Runs

end TransactionSimulator
