import TransactionSimulator.Domain.StateMachine

/-!
# Leases of the schedulers

`PostgresSchedulerLease`: a row of `SchedulerLease` names the owner of a lease and the time at which it
expires.  Each method is one SQL statement, evaluated at one reading of the database's clock, `NOW()`.  The
clock counts microseconds and the column keeps milliseconds, so a lease ends at its nominal end rounded
to a millisecond, up to half a millisecond before or after it.

* `acquire_spec`, `renew_spec`, `release_spec`: what the statements do to the row of a name.
* `latest`: the latest grant to an owner; `Upheld`: while it lasts, the row is the owner's.
* `leases_exclusive`: one owner at a time, over every sequence of calls.
-/

namespace TransactionSimulator

open Relational

/-- A time of the database: microseconds since 2000-01-01, in UTC. -/
abbrev Timestamp := Nat

namespace Postgres

/-- A double, rounded to an integer, ties to even (`rint`). -/
def rint (q : Rat) : Int := q.num.sign * Js.Number.nearest q.num.natAbs q.den

/-- `factor * INTERVAL '1 millisecond'` in microseconds. -/
def milliseconds (factor : Js.Number) : Except JsError Int :=
  match Js.Number.mul (.finite 1000) factor with
  | .finite product =>
    if -(2 ^ 63) ≤ rint product ∧ rint product < 2 ^ 63 then .ok (rint product)
    else .error (.prisma "P2010" "interval out of range")
  | _ => .error (.prisma "P2010" "interval out of range")

/-- The times from here on cannot be represented. -/
def timestampEnd : Timestamp := 9223371331200000000

/-- A time as a column of type `TIMESTAMP(3)` keeps it. -/
def toMillis (time : Timestamp) : Timestamp := (time + 500) / 1000 * 1000

end Postgres

structure SchedulerLease where
  name : String
  ownerId : String
  expiresAt : Timestamp
  updatedAt : Timestamp
  deriving DecidableEq, Repr

abbrev SchedulerLeases := Table SchedulerLease String fun lease => [lease.name]

namespace PostgresSchedulerLease

def assertTtl (ttlMs : Js.Number) : Except JsError Unit :=
  match ttlMs with
  | .finite ttl => if ttl ≤ 0 then .error (.error "Scheduler lease TTL must be greater than zero") else .ok ()
  | _ => .error (.error "Scheduler lease TTL must be greater than zero")

/-- `NOW() + (ttlMs * INTERVAL '1 millisecond')`, as `expiresAt` keeps it. -/
def expiry (ttlMs : Js.Number) (now : Timestamp) : Except JsError Timestamp :=
  match Postgres.milliseconds ttlMs with
  | .error e => .error e
  | .ok interval =>
    if (now : Int) + interval < Postgres.timestampEnd then .ok (Postgres.toMillis (now + interval).toNat)
    else .error (.prisma "P2010" "timestamp out of range")

/-- The check of `acquire` and `renew`, and the expiry that they write. -/
def validExpiry (ttlMs : Js.Number) (now : Timestamp) : Except JsError Timestamp := do
  assertTtl ttlMs
  expiry ttlMs now

/-- `INSERT … ON CONFLICT ("name") DO UPDATE … WHERE … RETURNING "name"`. -/
def acquire (ownerId name : String) (ttlMs : Js.Number) (now : Timestamp) (leases : SchedulerLeases) :
    Except JsError Bool × SchedulerLeases :=
  match validExpiry ttlMs now with
  | .error e => (.error e, leases)
  | .ok expiresAt =>
    match leases.insert { name, ownerId, expiresAt, updatedAt := Postgres.toMillis now } with
    | some leases => (.ok true, leases)
    | none =>
      match leases.updateMany
          (fun lease => lease.name = name && (lease.expiresAt ≤ now || lease.ownerId = ownerId))
          (fun lease => { lease with ownerId, expiresAt, updatedAt := Postgres.toMillis now }) with
      | some (leases, count) => (.ok (count = 1), leases)
      | none => (.error (.prisma "P2010" "duplicate key value"), leases)

/-- `UPDATE … SET … WHERE … RETURNING "name"`. -/
def renew (ownerId name : String) (ttlMs : Js.Number) (now : Timestamp) (leases : SchedulerLeases) :
    Except JsError Bool × SchedulerLeases :=
  match validExpiry ttlMs now with
  | .error e => (.error e, leases)
  | .ok expiresAt =>
    match leases.updateMany
        (fun lease => lease.name = name && lease.ownerId = ownerId && now < lease.expiresAt)
        (fun lease => { lease with expiresAt, updatedAt := Postgres.toMillis now }) with
    | some (leases, count) => (.ok (count = 1), leases)
    | none => (.error (.prisma "P2010" "duplicate key value"), leases)

/-- `DELETE … WHERE …`. -/
def release (ownerId name : String) (leases : SchedulerLeases) : SchedulerLeases :=
  leases.deleteMany fun lease => lease.name = name && lease.ownerId = ownerId

end PostgresSchedulerLease

/-! ## What the statements do to the row of a name -/

/-- The lease is another owner's and lasts. -/
def SchedulerLease.Bars (lease : SchedulerLease) (ownerId : String) (now : Timestamp) : Prop :=
  lease.ownerId ≠ ownerId ∧ now < lease.expiresAt

section Statements

variable {leases : SchedulerLeases} {ownerId name : String} {ttlMs : Js.Number} {now expiresAt : Timestamp}

theorem name_of_get {lease : SchedulerLease} (h : leases.get name = some lease) : lease.name = name := by
  have hkey := (leases.get_eq_some_iff.mp h).2
  exact (List.mem_singleton.mp hkey).symm

/-- **An update under a condition that names the row**: it writes that row, or none. -/
theorem updated_cases {leases' : SchedulerLeases} {cond : SchedulerLease → Bool}
    {data : SchedulerLease → SchedulerLease} {n : Nat} (h : leases.updateMany cond data = some (leases', n))
    (hdata : ∀ lease, (data lease).name = lease.name) (hcond : ∀ lease, cond lease = true → lease.name = name) :
    (∃ lease, leases.get name = some lease ∧ cond lease = true ∧ n = 1 ∧
      leases'.get name = some (data lease) ∧ ∀ other, other ≠ name → leases'.get other = leases.get other) ∨
    ((∀ lease, leases.get name = some lease → cond lease = false) ∧ n = 0 ∧
      ∀ other, leases'.get other = leases.get other) := by
  have hget : ∀ other, leases'.get other =
      (leases.get other).map fun lease => if cond lease then data lease else lease :=
    fun other => Table.get_updateMany h (by simp [hdata])
  have hcount : n = if (leases.get name).any cond then 1 else 0 := by
    rw [(Table.updateMany_eq_some h).2, leases.countP_eq_of_key (k := name) fun lease hc => by
      simp [hcond lease hc]]
  have hothers : ∀ other, other ≠ name → leases'.get other = leases.get other := by
    intro other hother
    rw [hget]
    cases hrow : leases.get other with
    | none => rfl
    | some lease =>
      have hfalse : ¬ cond lease = true := by
        intro hc
        exact hother ((name_of_get hrow).symm.trans (hcond lease hc))
      rw [Option.map_some, if_neg hfalse]
  cases hrow : leases.get name with
  | none =>
    refine .inr ⟨fun lease h => (by cases h), by simp [hcount, hrow], ?_⟩
    intro other
    by_cases hother : other = name
    · rw [hget, hother, hrow]
      rfl
    · exact hothers other hother
  | some lease =>
    cases hc : cond lease with
    | true =>
      refine .inl ⟨lease, rfl, hc, by simp [hcount, hrow, hc], ?_, hothers⟩
      rw [hget, hrow, Option.map_some, if_pos hc]
    | false =>
      refine .inr ⟨?_, by simp [hcount, hrow, hc], ?_⟩
      · intro lease' h'
        rw [← Option.some.inj h']
        exact hc
      · intro other
        by_cases hother : other = name
        · rw [hget, hother, hrow, Option.map_some, hc]
          rfl
        · exact hothers other hother

/-- The row of the name is the owner's until the expiry, and no other row was written. -/
structure Granted (leases leases' : SchedulerLeases) (ownerId name : String) (expiresAt : Timestamp) : Prop where
  row : ∃ lease, leases'.get name = some lease ∧ lease.ownerId = ownerId ∧ lease.expiresAt = expiresAt
  others : ∀ other, other ≠ name → leases'.get other = leases.get other

open PostgresSchedulerLease

/-- **A lease is acquired** unless another owner's lasts. -/
theorem acquire_spec (leases : SchedulerLeases) (ownerId name : String) (h : validExpiry ttlMs now = .ok expiresAt) :
    ((∃ lease, leases.get name = some lease ∧ lease.Bars ownerId now) ∧
      (acquire ownerId name ttlMs now leases).1 = .ok false ∧
      ∀ other, (acquire ownerId name ttlMs now leases).2.get other = leases.get other) ∨
    ((∀ lease, leases.get name = some lease → ¬ lease.Bars ownerId now) ∧
      (acquire ownerId name ttlMs now leases).1 = .ok true ∧
      Granted leases (acquire ownerId name ttlMs now leases).2 ownerId name expiresAt) := by
  rw [acquire, h]
  dsimp only
  split
  · next leases' hinsert =>
    have hfree : leases.get name = none := Table.get_of_insert hinsert (by simp)
    refine .inr ⟨?_, rfl, ⟨⟨⟨name, ownerId, expiresAt, Postgres.toMillis now⟩, ?_, rfl, rfl⟩, ?_⟩⟩
    · intro lease hget
      rw [hfree] at hget
      cases hget
    · rw [Table.get_insert hinsert, hfree, if_pos (by simp)]
      rfl
    · intro other hother
      rw [Table.get_insert hinsert, if_neg (by simpa using hother), Option.or_none]
  · next hinsert =>
    obtain ⟨leases', n, hupdate⟩ := leases.updateMany_isSome
      (fun lease => lease.name = name && (lease.expiresAt ≤ now || lease.ownerId = ownerId))
      (fun lease => { lease with ownerId, expiresAt, updatedAt := Postgres.toMillis now }) (fun _ _ => rfl)
    have hcond : ∀ lease : SchedulerLease, (decide (lease.name = name) && (decide (lease.expiresAt ≤ now) ||
        decide (lease.ownerId = ownerId))) = true → lease.name = name := by
      intro lease hc
      simp only [Bool.and_eq_true, decide_eq_true_eq] at hc
      exact hc.1
    -- the insertion was refused, so the row is there
    obtain ⟨lease, hget⟩ : ∃ lease, leases.get name = some lease := by
      cases hget : leases.get name with
      | some lease => exact ⟨lease, rfl⟩
      | none =>
        obtain ⟨_, hsome⟩ := leases.insert_isSome
          (r := { name, ownerId, expiresAt, updatedAt := Postgres.toMillis now }) (by simpa using hget)
        rw [hinsert] at hsome
        cases hsome
    rw [hupdate]
    rcases updated_cases hupdate (fun _ => rfl) hcond with ⟨_, hrow, hc, rfl, hrow', hothers⟩ | ⟨hc, rfl, hothers⟩
    · refine .inr ⟨?_, rfl, ⟨⟨_, hrow', rfl, rfl⟩, hothers⟩⟩
      intro lease' hlease' hbars
      rw [hrow, Option.some.injEq] at hlease'
      rw [hlease'] at hc
      simp only [hbars.1, decide_false, Bool.or_false, Bool.and_eq_true, decide_eq_true_eq] at hc
      exact absurd hc.2 (Nat.not_le.mpr hbars.2)
    · refine .inl ⟨⟨lease, hget, ?_⟩, rfl, hothers⟩
      have hfalse := hc lease hget
      simpa [SchedulerLease.Bars, name_of_get hget, and_comm] using hfalse

/-- **A lease is renewed** by its owner while it lasts. -/
theorem renew_spec (leases : SchedulerLeases) (ownerId name : String) (h : validExpiry ttlMs now = .ok expiresAt) :
    ((∃ lease, leases.get name = some lease ∧ lease.ownerId = ownerId ∧ now < lease.expiresAt) ∧
      (renew ownerId name ttlMs now leases).1 = .ok true ∧
      Granted leases (renew ownerId name ttlMs now leases).2 ownerId name expiresAt) ∨
    ((∀ lease, leases.get name = some lease → ¬ (lease.ownerId = ownerId ∧ now < lease.expiresAt)) ∧
      (renew ownerId name ttlMs now leases).1 = .ok false ∧
      ∀ other, (renew ownerId name ttlMs now leases).2.get other = leases.get other) := by
  obtain ⟨leases', n, hupdate⟩ := leases.updateMany_isSome
    (fun lease => lease.name = name && lease.ownerId = ownerId && now < lease.expiresAt)
    (fun lease => { lease with expiresAt, updatedAt := Postgres.toMillis now }) (fun _ _ => rfl)
  have hcond : ∀ lease : SchedulerLease, (decide (lease.name = name) && decide (lease.ownerId = ownerId) &&
      decide (now < lease.expiresAt)) = true →
      lease.name = name ∧ lease.ownerId = ownerId ∧ now < lease.expiresAt := by
    intro lease hc
    simpa [and_assoc] using hc
  rw [renew, h]
  dsimp only
  rw [hupdate]
  rcases updated_cases hupdate (fun _ => rfl) (fun lease hc => (hcond lease hc).1) with
    ⟨lease, hrow, hc, rfl, hrow', hothers⟩ | ⟨hc, rfl, hothers⟩
  · obtain ⟨-, howner, hlasts⟩ := hcond lease hc
    exact .inl ⟨⟨lease, hrow, howner, hlasts⟩, rfl, ⟨⟨_, hrow', howner, rfl⟩, hothers⟩⟩
  · refine .inr ⟨?_, rfl, hothers⟩
    intro lease hget howns
    have hfalse := hc lease hget
    simp [name_of_get hget, howns.1, howns.2] at hfalse

/-- **A release** deletes the row of the name if it is the owner's. -/
theorem release_spec (other : String) : (release ownerId name leases).get other =
    (leases.get other).filter fun lease => !(decide (lease.name = name) && decide (lease.ownerId = ownerId)) := by
  refine Option.ext fun lease => ?_
  rw [Table.get_eq_some_iff, release, Table.mem_deleteMany, Option.filter_eq_some_iff, Table.get_eq_some_iff]
  simp only [Bool.not_eq_true']
  tauto

end Statements

/-! ## Any sequence of calls -/

/-- The leases and the clock of the database. -/
structure LeaseWorld where
  leases : SchedulerLeases
  clock : Timestamp

/-- A call by an owner, or the passing of time. -/
inductive LeaseEvent
  | acquire (ownerId name : String) (ttlMs : Js.Number)
  | renew (ownerId name : String) (ttlMs : Js.Number)
  | release (ownerId name : String)
  | tick (elapsed : Nat)
  deriving DecidableEq

namespace LeaseWorld

open PostgresSchedulerLease

/-- What the call answers; `release` returns nothing. -/
def answer (w : LeaseWorld) : LeaseEvent → Except JsError (Option Bool)
  | .acquire ownerId name ttlMs => (PostgresSchedulerLease.acquire ownerId name ttlMs w.clock w.leases).1.map some
  | .renew ownerId name ttlMs => (PostgresSchedulerLease.renew ownerId name ttlMs w.clock w.leases).1.map some
  | .release _ _ => .ok none
  | .tick _ => .ok none

/-- What the call leaves. -/
def step (w : LeaseWorld) : LeaseEvent → LeaseWorld
  | .acquire ownerId name ttlMs =>
    { w with leases := (PostgresSchedulerLease.acquire ownerId name ttlMs w.clock w.leases).2 }
  | .renew ownerId name ttlMs =>
    { w with leases := (PostgresSchedulerLease.renew ownerId name ttlMs w.clock w.leases).2 }
  | .release ownerId name => { w with leases := PostgresSchedulerLease.release ownerId name w.leases }
  | .tick elapsed => { w with clock := w.clock + elapsed }

/-- The state after some calls. -/
def after (w : LeaseWorld) (es : List LeaseEvent) : LeaseWorld := es.foldl step w

/-- The call is a successful `acquire` or `renew` of the name by the owner. -/
def grants (w : LeaseWorld) (ownerId name : String) : LeaseEvent → Option (Timestamp × Js.Number)
  | .acquire ownerId' name' ttlMs =>
    if ownerId' = ownerId ∧ name' = name ∧ w.answer (.acquire ownerId' name' ttlMs) = .ok (some true) then
      some (w.clock, ttlMs)
    else none
  | .renew ownerId' name' ttlMs =>
    if ownerId' = ownerId ∧ name' = name ∧ w.answer (.renew ownerId' name' ttlMs) = .ok (some true) then
      some (w.clock, ttlMs)
    else none
  | _ => none

/-- **The latest grant**: the time and the TTL of the owner's latest successful `acquire` or `renew` of the
name, unless the owner has released the name since; `grant` is the one before. -/
def latest (ownerId name : String) (w : LeaseWorld) (grant : Option (Timestamp × Js.Number)) :
    List LeaseEvent → Option (Timestamp × Js.Number)
  | [] => grant
  | e :: es =>
    latest ownerId name (w.step e)
      (if e = .release ownerId name then none else (w.grants ownerId name e).or grant) es

/-- **While a grant lasts, the row of the name is the owner's.** -/
def Upheld (w : LeaseWorld) (ownerId name : String) (grant : Option (Timestamp × Js.Number)) : Prop :=
  ∀ s ttlMs, grant = some (s, ttlMs) → ∃ expiresAt, validExpiry ttlMs s = .ok expiresAt ∧
    (w.clock < expiresAt → ∃ lease, w.leases.get name = some lease ∧ lease.ownerId = ownerId ∧
      lease.expiresAt = expiresAt)

variable {w : LeaseWorld} {ownerId name : String} {grant : Option (Timestamp × Js.Number)}

theorem map_some_eq_ok {r : Except JsError Bool} : r.map some = .ok (some true) ↔ r = .ok true := by
  cases r with
  | error e => exact iff_of_false (fun h => by cases h) fun h => by cases h
  | ok b => exact ⟨fun h => by cases h; rfl, fun h => by cases h; rfl⟩

/-- A grant makes the row the owner's. -/
theorem step_grants {e : LeaseEvent} {s : Timestamp} {ttlMs : Js.Number}
    (h : w.grants ownerId name e = some (s, ttlMs)) :
    ∃ expiresAt, validExpiry ttlMs s = .ok expiresAt ∧
      Granted w.leases (w.step e).leases ownerId name expiresAt := by
  cases e with
  | acquire ownerId' name' ttlMs' =>
    rw [grants] at h
    split at h
    · next hgranted =>
      obtain ⟨rfl, rfl, hanswer⟩ := hgranted
      cases h
      rw [answer, map_some_eq_ok] at hanswer
      cases hvalid : validExpiry ttlMs w.clock with
      | error e =>
        rw [PostgresSchedulerLease.acquire, hvalid] at hanswer
        cases hanswer
      | ok expiresAt =>
        rcases acquire_spec w.leases ownerId' name' hvalid with ⟨-, hfalse, -⟩ | ⟨-, -, hgranted⟩
        · rw [hanswer] at hfalse
          cases hfalse
        · exact ⟨expiresAt, rfl, hgranted⟩
    · cases h
  | renew ownerId' name' ttlMs' =>
    rw [grants] at h
    split at h
    · next hgranted =>
      obtain ⟨rfl, rfl, hanswer⟩ := hgranted
      cases h
      rw [answer, map_some_eq_ok] at hanswer
      cases hvalid : validExpiry ttlMs w.clock with
      | error e =>
        rw [PostgresSchedulerLease.renew, hvalid] at hanswer
        cases hanswer
      | ok expiresAt =>
        rcases renew_spec w.leases ownerId' name' hvalid with ⟨-, -, hgranted⟩ | ⟨-, hfalse, -⟩
        · exact ⟨expiresAt, rfl, hgranted⟩
        · rw [hanswer] at hfalse
          cases hfalse
    · cases h
  | release | tick => cases h

/-- A call that is neither a release nor a grant leaves the owner's row as it was. -/
theorem step_keeps {e : LeaseEvent} {lease : SchedulerLease} (hget : w.leases.get name = some lease)
    (howner : lease.ownerId = ownerId) (hlasts : w.clock < lease.expiresAt)
    (hrelease : e ≠ .release ownerId name) (hgrants : w.grants ownerId name e = none) :
    (w.step e).leases.get name = some lease := by
  cases e with
  | acquire ownerId' name' ttlMs =>
    rw [step]
    cases hvalid : validExpiry ttlMs w.clock with
    | error e =>
      rw [PostgresSchedulerLease.acquire, hvalid]
      exact hget
    | ok expiresAt =>
      rcases acquire_spec w.leases ownerId' name' hvalid with ⟨-, -, hsame⟩ | ⟨hfree, htrue, hgranted⟩
      · exact (hsame name).trans hget
      · by_cases hname : name = name'
        · subst hname
          -- the row bars every other owner, and a success of its own would be a grant
          have hown : ownerId' = ownerId := by
            by_contra hother
            exact hfree lease hget ⟨fun h => hother (h.symm.trans howner), hlasts⟩
          rw [grants, if_pos ⟨hown, rfl, map_some_eq_ok.mpr htrue⟩] at hgrants
          cases hgrants
        · exact (hgranted.others name hname).trans hget
  | renew ownerId' name' ttlMs =>
    rw [step]
    cases hvalid : validExpiry ttlMs w.clock with
    | error e =>
      rw [PostgresSchedulerLease.renew, hvalid]
      exact hget
    | ok expiresAt =>
      rcases renew_spec w.leases ownerId' name' hvalid with ⟨⟨lease', hget', hown, -⟩, htrue, hgranted⟩ | ⟨-, -, hsame⟩
      · by_cases hname : name = name'
        · subst hname
          rw [hget, Option.some.injEq] at hget'
          have hown' : ownerId' = ownerId := by rw [← hown, ← hget', howner]
          rw [grants, if_pos ⟨hown', rfl, map_some_eq_ok.mpr htrue⟩] at hgrants
          cases hgrants
        · exact (hgranted.others name hname).trans hget
      · exact (hsame name).trans hget
  | release ownerId' name' =>
    rw [step, release_spec, hget]
    have hother : ¬ (lease.name = name' ∧ lease.ownerId = ownerId') := by
      intro h
      rw [name_of_get hget, howner] at h
      exact hrelease (by rw [h.1, h.2])
    simpa using not_and_or.mp hother
  | tick elapsed => exact hget

/-- **One call.** -/
theorem Upheld.step (h : w.Upheld ownerId name grant) (e : LeaseEvent) :
    (w.step e).Upheld ownerId name
      (if e = .release ownerId name then none else (w.grants ownerId name e).or grant) := by
  intro s ttlMs hgrant
  split at hgrant
  · cases hgrant
  next hrelease =>
    cases hgrants : w.grants ownerId name e with
    | some new =>
      rw [hgrants, Option.some_or, Option.some.injEq] at hgrant
      rw [hgrant] at hgrants
      obtain ⟨expiresAt, hvalid, hgranted⟩ := step_grants hgrants
      exact ⟨expiresAt, hvalid, fun _ => hgranted.row⟩
    | none =>
      rw [hgrants, Option.none_or] at hgrant
      obtain ⟨expiresAt, hvalid, hrow⟩ := h s ttlMs hgrant
      refine ⟨expiresAt, hvalid, ?_⟩
      intro hlasts
      have hbefore : w.clock < expiresAt := by
        cases e with
        | tick elapsed =>
          exact Nat.lt_of_le_of_lt (Nat.le_add_right w.clock elapsed) hlasts
        | _ => exact hlasts
      obtain ⟨lease, hget, howner, hexpires⟩ := hrow hbefore
      exact ⟨lease, step_keeps hget howner (hexpires ▸ hbefore) hrelease hgrants, howner, hexpires⟩

/-- **Any sequence of calls.** -/
theorem Upheld.after (h : w.Upheld ownerId name grant) (es : List LeaseEvent) :
    (w.after es).Upheld ownerId name (latest ownerId name w grant es) := by
  induction es generalizing w grant with
  | nil => exact h
  | cons e es ih => exact ih (h.step e)

theorem validExpiry_eq_ok {ttlMs : Js.Number} {s expiresAt : Timestamp} (h : validExpiry ttlMs s = .ok expiresAt) :
    ∃ interval, Postgres.milliseconds ttlMs = .ok interval ∧ expiresAt = Postgres.toMillis (s + interval).toNat := by
  rw [validExpiry] at h
  cases hassert : assertTtl ttlMs with
  | error e =>
    rw [hassert] at h
    cases h
  | ok u =>
    rw [hassert] at h
    replace h : expiry ttlMs s = .ok expiresAt := h
    rw [expiry] at h
    split at h
    · cases h
    next interval hinterval =>
      split at h
      · exact ⟨interval, hinterval, (Except.ok.inj h).symm⟩
      · cases h

/-- A lease of another owner that lasts refuses the owner. -/
theorem refused_of_bars {lease : SchedulerLease} (hget : w.leases.get name = some lease)
    (hbars : lease.Bars ownerId w.clock) (ttlMs : Js.Number) :
    w.answer (.acquire ownerId name ttlMs) ≠ .ok (some true) ∧
      w.answer (.renew ownerId name ttlMs) ≠ .ok (some true) := by
  rw [answer, answer, ne_eq, ne_eq, map_some_eq_ok, map_some_eq_ok]
  cases hvalid : validExpiry ttlMs w.clock with
  | error e =>
    rw [PostgresSchedulerLease.acquire, PostgresSchedulerLease.renew, hvalid]
    exact ⟨fun h => (by cases h), fun h => (by cases h)⟩
  | ok expiresAt =>
    constructor
    · rcases acquire_spec w.leases ownerId name hvalid with ⟨-, hfalse, -⟩ | ⟨hfree, -, -⟩
      · simp [hfalse]
      · exact absurd hbars (hfree lease hget)
    · rcases renew_spec w.leases ownerId name hvalid with ⟨⟨lease', hget', howner, -⟩, -, -⟩ | ⟨-, hfalse, -⟩
      · rw [hget, Option.some.injEq] at hget'
        rw [← hget'] at howner
        exact absurd howner hbars.1
      · simp [hfalse]

/-- `acquire` succeeds exactly when the expiry can be represented and no lease of another owner lasts. -/
theorem acquired_iff (ttlMs : Js.Number) : w.answer (.acquire ownerId name ttlMs) = .ok (some true) ↔
    (∃ expiresAt, validExpiry ttlMs w.clock = .ok expiresAt) ∧
      ∀ lease, w.leases.get name = some lease → ¬ lease.Bars ownerId w.clock := by
  rw [answer, map_some_eq_ok]
  cases hvalid : validExpiry ttlMs w.clock with
  | error e =>
    rw [PostgresSchedulerLease.acquire, hvalid]
    exact iff_of_false (fun h => by cases h) fun h => by obtain ⟨⟨_, h⟩, -⟩ := h; cases h
  | ok expiresAt =>
    rcases acquire_spec w.leases ownerId name hvalid with ⟨⟨lease, hget, hbars⟩, hfalse, -⟩ | ⟨hfree, htrue, -⟩
    · rw [hfalse]
      exact iff_of_false (fun h => by cases h) fun h => h.2 lease hget hbars
    · exact iff_of_true htrue ⟨⟨expiresAt, rfl⟩, hfree⟩

theorem release_keeps {lease : SchedulerLease} {held : String} (hget : w.leases.get held = some lease)
    (hother : lease.ownerId ≠ ownerId) : (w.step (.release ownerId name)).leases.get held = some lease := by
  rw [step, release_spec, hget]
  simp [hother]

/-- **One owner at a time.**  After any calls, for every owner and every name: while the latest grant to the
owner, at `s` and for `interval` microseconds, lasts until `s + interval` rounded to a millisecond, the row of
the name is the owner's and no other owner acquires or renews it; `acquire` succeeds if the expiry can be
represented and no lease of another owner lasts; a release leaves the leases of the other owners. -/
theorem leases_exclusive (w : LeaseWorld) (es : List LeaseEvent) (ownerId name : String) :
    (∀ s ttlMs, latest ownerId name w none es = some (s, ttlMs) →
      ∃ interval, Postgres.milliseconds ttlMs = .ok interval ∧
        ((w.after es).clock < Postgres.toMillis (s + interval).toNat →
          (∃ lease, (w.after es).leases.get name = some lease ∧ lease.ownerId = ownerId) ∧
          ∀ other, other ≠ ownerId → ∀ ttlMs', (w.after es).answer (.acquire other name ttlMs') ≠ .ok (some true) ∧
            (w.after es).answer (.renew other name ttlMs') ≠ .ok (some true))) ∧
    (∀ ttlMs expiresAt, validExpiry ttlMs (w.after es).clock = .ok expiresAt →
      (∀ lease, (w.after es).leases.get name = some lease → ¬ lease.Bars ownerId (w.after es).clock) →
      (w.after es).answer (.acquire ownerId name ttlMs) = .ok (some true)) ∧
    (∀ held lease, (w.after es).leases.get held = some lease → lease.ownerId ≠ ownerId →
      ((w.after es).step (.release ownerId name)).leases.get held = some lease) := by
  refine ⟨?_, ?_, ?_⟩
  · intro s ttlMs hlatest
    have hnone : w.Upheld ownerId name none := fun _ _ h => by cases h
    obtain ⟨expiresAt, hvalid, hrow⟩ := hnone.after es s ttlMs hlatest
    obtain ⟨interval, hinterval, hexpires⟩ := validExpiry_eq_ok hvalid
    refine ⟨interval, hinterval, ?_⟩
    intro hlasts
    rw [← hexpires] at hlasts
    obtain ⟨lease, hget, howner, hlease⟩ := hrow hlasts
    refine ⟨⟨lease, hget, howner⟩, ?_⟩
    intro other hother
    exact refused_of_bars hget ⟨fun h => hother (h.symm.trans howner), hlease.symm ▸ hlasts⟩
  · intro ttlMs expiresAt hvalid hfree
    exact (acquired_iff ttlMs).mpr ⟨⟨expiresAt, hvalid⟩, hfree⟩
  · intro held lease hget hother
    exact release_keeps hget hother

/-- **The column rounds the expiry**: a lease of one millisecond granted 400 microseconds after a full
millisecond ends 600 microseconds later, and another owner acquires it then. -/
theorem lease_ends_early :
    ¬ ∀ (w : LeaseWorld) (es : List LeaseEvent) (ownerId name : String) (s ttl : Nat),
      latest ownerId name w none es = some (s, .finite ttl) → (w.after es).clock < s + 1000 * ttl →
        ∀ other, other ≠ ownerId → (w.after es).answer (.acquire other name (.finite 1)) ≠ .ok (some true) := by
  intro h
  refine h ⟨.empty, 400⟩ [.acquire "A" "outbox-relay" (.finite 1), .tick 600] "A" "outbox-relay" 400 1
    (by decide +kernel) (by decide +kernel) "B" (by decide) (by decide +kernel)

end LeaseWorld

end TransactionSimulator
