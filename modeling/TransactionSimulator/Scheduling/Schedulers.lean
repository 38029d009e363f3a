import TransactionSimulator.Lib.Turns
import TransactionSimulator.Outbox.Relay
import TransactionSimulator.System
import TransactionSimulator.Workers.Drift

/-!
# The schedulers

`ExpirationScheduler`, `SubmissionRecoveryScheduler`, `PendingRecoveryScheduler`, `OutboxRelayScheduler` and
`BalanceDriftScheduler` are one class with five names, lease times and cycles.  An instance has a lease object of
its own and is named here by the owner id of that object.

What a method does between two of its `await`s is one call here; its flags and timers are read and written by
those calls only.  A timer that is set may fire at any time, and what it starts runs among the rest.
-/

namespace TransactionSimulator

open Concurrent

/-! ## Flags and timers -/

/-- The fields of an instance; a timer is there or not. -/
structure SchedulerFlags where
  timer : Bool := false
  running : Bool := false
  executing : Bool := false
  leaseRenewTimer : Bool := false
  deriving DecidableEq, Repr

namespace SchedulerFlags

def start (flags : SchedulerFlags) : SchedulerFlags :=
  if flags.running then flags else { flags with running := true, timer := true }

def stop (flags : SchedulerFlags) : SchedulerFlags :=
  if flags.running then { flags with running := false, timer := false, leaseRenewTimer := false } else flags

/-- The beginning of `run`, and whether it goes on. -/
def enter (flags : SchedulerFlags) : Bool × SchedulerFlags :=
  if !flags.running || flags.executing then (false, flags) else (true, { flags with executing := true })

/-- The callback of `timer`. -/
def interval (flags : SchedulerFlags) : Bool × SchedulerFlags :=
  if flags.timer then flags.enter else (false, flags)

def stopLeaseRenewal (flags : SchedulerFlags) : SchedulerFlags := { flags with leaseRenewTimer := false }

def startLeaseRenewal (flags : SchedulerFlags) : SchedulerFlags :=
  { flags.stopLeaseRenewal with leaseRenewTimer := true }

/-- The end of `run`. -/
def leave (flags : SchedulerFlags) : SchedulerFlags := { flags with executing := false }

end SchedulerFlags

/-! ## Calls -/

section Calls

variable {Op : Type} (R : Op → Type) {σ ι : Type}

/-- What the methods of the instance `ownerId` do between two awaits, its lease calls, the calls of its cycle,
and the calls of all others. -/
inductive SchedulerOp (Op : Type)
  | start (ownerId : String)
  | stop (ownerId : String)
  | interval (ownerId : String)
  | acquire (ownerId name : String) (ttlMs : Js.Number)
  | startLeaseRenewal (ownerId : String)
  | work (ownerId : String) (o : Op)
  | stopLeaseRenewal (ownerId : String)
  | release (ownerId name : String)
  | leave (ownerId : String)
  | renewal (ownerId : String)
  | renew (ownerId name : String) (ttlMs : Js.Number)
  | other (o : Op)

@[reducible] def SchedulerOp.Res : SchedulerOp Op → Type
  | start _ => Unit
  | stop _ => Unit
  | interval _ => Bool
  | acquire _ _ _ => Bool
  | startLeaseRenewal _ => Unit
  | work _ o => R o
  | stopLeaseRenewal _ => Unit
  | release _ _ => Unit
  | leave _ => Unit
  | renewal _ => Bool
  | renew _ _ _ => Bool
  | other o => R o

/-- What the cycles work on, the leases, and the instances. -/
structure SchedulerWorld (σ : Type) where
  work : σ
  lease : LeaseWorld
  flags : String → SchedulerFlags

/-- A fault of the database at a lease call, and what a call of a cycle is given. -/
structure SchedulerInput (ι : Type) where
  fault : Option Fault := none
  work : ι

def SchedulerWorld.setFlags (w : SchedulerWorld σ) (ownerId : String) (flags : SchedulerFlags) : SchedulerWorld σ :=
  { w with flags := Function.update w.flags ownerId flags }

/-- A statement that may fail, before or after it was applied. -/
def SchedulerInput.faulty {α : Type} (i : SchedulerInput ι) (r : Except JsError α × LeaseWorld)
    (w : SchedulerWorld σ) : Except JsError α × SchedulerWorld σ :=
  match i.fault with
  | none => (r.1, { w with lease := r.2 })
  | some f => (.error (.error f.message), if f.applied then { w with lease := r.2 } else w)

variable {R} in
def SchedulerOp.exec (exec : (o : Op) → ι → σ → Except JsError (R o) × σ) :
    (o : SchedulerOp Op) → SchedulerInput ι → SchedulerWorld σ → Except JsError (o.Res R) × SchedulerWorld σ
  | start ownerId, _, w => (.ok (), w.setFlags ownerId (w.flags ownerId).start)
  | stop ownerId, _, w => (.ok (), w.setFlags ownerId (w.flags ownerId).stop)
  | interval ownerId, _, w => (.ok (w.flags ownerId).interval.1, w.setFlags ownerId (w.flags ownerId).interval.2)
  | acquire ownerId name ttlMs, i, w =>
    i.faulty ((PostgresSchedulerLease.acquire ownerId name ttlMs w.lease.clock w.lease.leases).1,
      w.lease.step (.acquire ownerId name ttlMs)) w
  | startLeaseRenewal ownerId, _, w => (.ok (), w.setFlags ownerId (w.flags ownerId).startLeaseRenewal)
  | work _ o, i, w => ((exec o i.work w.work).1, { w with work := (exec o i.work w.work).2 })
  | stopLeaseRenewal ownerId, _, w => (.ok (), w.setFlags ownerId (w.flags ownerId).stopLeaseRenewal)
  | release ownerId name, i, w => i.faulty (.ok (), w.lease.step (.release ownerId name)) w
  | leave ownerId, _, w => (.ok (), w.setFlags ownerId (w.flags ownerId).leave)
  | renewal ownerId, _, w => (.ok (w.flags ownerId).leaseRenewTimer, w)
  | renew ownerId name ttlMs, i, w =>
    i.faulty ((PostgresSchedulerLease.renew ownerId name ttlMs w.lease.clock w.lease.leases).1,
      w.lease.step (.renew ownerId name ttlMs)) w
  | other o, i, w => ((exec o i.work w.work).1, { w with work := (exec o i.work w.work).2 })

end Calls

/-! ## The class -/

section Programs

variable {Op : Type} {Res : Op → Type}

abbrev SchedulerProgram (Res : Op → Type) (α : Type) := Prog (SchedulerOp Op) (SchedulerOp.Res Res) JsError α

/-- The calls of a cycle. -/
def working {α : Type} (ownerId : String) : Prog Op Res JsError α → SchedulerProgram Res α
  | .pure a => .pure a
  | .throw e => .throw e
  | .call o k => .call (SchedulerOp.work ownerId o) fun r => working ownerId (k r)

/-- The calls of a program that is no scheduler's. -/
def aside {α : Type} : Prog Op Res JsError α → SchedulerProgram Res α
  | .pure a => .pure a
  | .throw e => .throw e
  | .call o k => .call (SchedulerOp.other o) fun r => aside (k r)

/-- One of the classes; `cycle` is what `run` does under the lease. -/
structure Scheduler (Res : Op → Type) where
  NAME : String
  LEASE_TTL_MS : Js.Number
  cycle : Prog Op Res JsError Unit

namespace Scheduler

variable (scheduler : Scheduler Res) (ownerId : String)

def start : SchedulerProgram Res Unit := .perform (SchedulerOp.start ownerId)

/-- `stop` does not wait for a run. -/
def stop : SchedulerProgram Res Unit := .perform (SchedulerOp.stop ownerId)

/-- The part of `run` under the lease. -/
def process : SchedulerProgram Res Unit :=
  tryCatch (do
    Prog.perform (SchedulerOp.startLeaseRenewal ownerId)
    working ownerId scheduler.cycle) fun _ => return ()

/-- The `finally` of `run`. -/
def settle : (leaseAcquired : Bool) → SchedulerProgram Res Unit
  | true => do
    Prog.perform (SchedulerOp.stopLeaseRenewal ownerId)
    tryCatch (Prog.perform (SchedulerOp.release ownerId scheduler.NAME)) fun _ => return ()
    Prog.perform (SchedulerOp.leave ownerId)
  | false => do
    Prog.perform (SchedulerOp.stopLeaseRenewal ownerId)
    Prog.perform (SchedulerOp.leave ownerId)

def run : SchedulerProgram Res Unit := do
  if ← Prog.perform (SchedulerOp.interval ownerId) then
    if ← tryCatch (Prog.perform (SchedulerOp.acquire ownerId scheduler.NAME scheduler.LEASE_TTL_MS)) fun _ =>
        return false then
      scheduler.process ownerId
      scheduler.settle ownerId true
    else scheduler.settle ownerId false

/-- The callback of `leaseRenewTimer`. -/
def renewLease : SchedulerProgram Res Unit := do
  if ← Prog.perform (SchedulerOp.renewal ownerId) then
    tryCatch (Prog.perform (SchedulerOp.renew ownerId scheduler.NAME scheduler.LEASE_TTL_MS)).void fun _ => return ()

end Scheduler

end Programs

/-! ## The five of them -/

def CONFIRMATION_TIMEOUT_MS : Nat := 5 * 60 * 1000

def ExpirationScheduler : Scheduler Call.Res where
  NAME := "expiration-scheduler"
  LEASE_TTL_MS := .finite 60000
  cycle := do
    let now ← prisma.now
    (ExpirationProcessor.processExpiredTransactions (now - CONFIRMATION_TIMEOUT_MS)).void

def SubmissionRecoveryScheduler : Scheduler Call.Res where
  NAME := "submission-recovery-scheduler"
  LEASE_TTL_MS := .finite 60000
  cycle := SubmissionRecoveryProcessor.processSubmittedTransactions

def PendingRecoveryScheduler (processor : PendingRecoveryProcessor) : Scheduler Call.Res where
  NAME := "pending-recovery-scheduler"
  LEASE_TTL_MS := .finite 60000
  cycle := processor.processOrphanedPending

def OutboxRelayScheduler : Scheduler RelayOp.Res where
  NAME := OutboxRelayScheduler.NAME
  LEASE_TTL_MS := OutboxRelayScheduler.LEASE_TTL_MS
  cycle := Prog.void OutboxEventService.relay

/-- The scheduler of a sweep. -/
def BalanceDriftScheduler (sweep : DriftProgram Unit) : Scheduler DriftOp.Res where
  NAME := "balance-drift-scheduler"
  LEASE_TTL_MS := .finite 60000
  cycle := sweep

/-! ## Instances among the others -/

section System

variable {Op : Type} {Res : Op → Type} {σ ι τ δ : Type}

/-- A method of an instance, the callback of one of its timers, or something else. -/
inductive SchedulerTask (τ : Type)
  | start (ownerId : String)
  | stop (ownerId : String)
  | interval (ownerId : String)
  | renewLease (ownerId : String)
  | task (t : τ)

/-- The clock of the database runs, or the surroundings of the others move. -/
inductive SchedulerShift (δ : Type)
  | tick (elapsed : Nat)
  | other (d : δ)

/-- Any number of instances, in one process or in many, among the programs of a system; `schedulers` says
which class an instance has. -/
def schedulerSystem (S : System Op Res JsError σ ι τ δ) (schedulers : String → Scheduler Res) :
    System (SchedulerOp Op) (SchedulerOp.Res Res) JsError (SchedulerWorld σ) (SchedulerInput ι) (SchedulerTask τ)
      (SchedulerShift δ) where
  exec := SchedulerOp.exec S.exec
  prog
    | .start ownerId => Scheduler.start ownerId
    | .stop ownerId => Scheduler.stop ownerId
    | .interval ownerId => (schedulers ownerId).run ownerId
    | .renewLease ownerId => (schedulers ownerId).renewLease ownerId
    | .task t => aside (S.prog t)
  shift
    | .tick elapsed, w => { w with lease := w.lease.step (.tick elapsed) }
    | .other d, w => { w with work := S.shift d w.work }

/-- No instance has been started and there are no leases. -/
def SchedulerWorld.fresh (work : σ) (clock : Timestamp) : SchedulerWorld σ where
  work := work
  lease := ⟨.empty, clock⟩
  flags := fun _ => {}

end System

end TransactionSimulator
