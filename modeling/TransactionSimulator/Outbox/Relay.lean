import TransactionSimulator.Lib.Json
import TransactionSimulator.Scheduling.Lease
import TransactionSimulator.World

/-!
# The outbox relay

`OutboxEventService.relay` with the repository and the queue under it, and `OutboxRelayScheduler`, which
runs it under a lease.  A relay reads unpublished events, adds a job for each of them, and marks them
published; the three are calls of their own, and any number of relays may run at once.

New events are committed by others, with any time of creation; the jobs are consumed by others.  The world
keeps a record of the jobs that were created.
-/

namespace TransactionSimulator

open Concurrent Queueing Relational Texts

abbrev OutboxEvents := Table (OutboxRow Json) String fun e => [e.id]

structure OutboxRelayJob where
  outboxEventId : String
  aggregateId : String
  type : String
  payload : Json

structure RelayWorld where
  events : OutboxEvents
  queue : JobQueue OutboxRelayJob
  leases : SchedulerLeases
  clock : Timestamp
  created : List (Job OutboxRelayJob)

/-- What the relay and its scheduler await. -/
inductive RelayOp
  | now
  | findMany (take : Nat)
  | addBulk (jobs : List (OutboxRelayJob × JobOptions))
  | updateMany (ids : List String) (publishedAt : Date)
  | acquire (ownerId name : String) (ttlMs : Js.Number)
  | renew (ownerId name : String) (ttlMs : Js.Number)
  | release (ownerId name : String)

@[reducible] def RelayOp.Res : RelayOp → Type
  | now => Date
  | findMany _ => List (OutboxRow Json)
  | addBulk _ => Unit
  | updateMany _ _ => Unit
  | acquire _ _ _ => Bool
  | renew _ _ _ => Bool
  | release _ _ => Unit

/-- All that the outside decides at a call: a fault of the database or of the queue, and the time that the
clock of the process shows. -/
structure RelayInput where
  fault : Option Fault := none
  date : Date := 0

instance : Inhabited RelayInput := ⟨{}⟩

/-- `published: true, publishedAt`. -/
def OutboxRow.publish {π : Type} (publishedAt : Date) (e : OutboxRow π) : OutboxRow π :=
  { e with published := true, publishedAt := some publishedAt }

/-- `updateMany` on the rows of the ids. -/
def RelayWorld.publish (w : RelayWorld) (ids : List String) (publishedAt : Date) : RelayWorld :=
  match w.events.updateMany (fun e => e.id ∈ ids) (OutboxRow.publish publishedAt) with
  | some (events, _) => { w with events }
  | none => w

def RelayOp.effect (i : RelayInput) (w : RelayWorld) : (o : RelayOp) → Except JsError o.Res × RelayWorld
  | now => (.ok i.date, w)
  | findMany take => (.ok (w.events.findMany (fun e => !e.published) (fun e => some e.createdAt) take), w)
  | addBulk jobs =>
    (.ok (), { w with queue := (w.queue.addBulk jobs).1, created := w.created ++ (w.queue.addBulk jobs).2 })
  | updateMany ids publishedAt => (.ok (), w.publish ids publishedAt)
  | acquire ownerId name ttlMs =>
    ((PostgresSchedulerLease.acquire ownerId name ttlMs w.clock w.leases).1,
      { w with leases := (PostgresSchedulerLease.acquire ownerId name ttlMs w.clock w.leases).2 })
  | renew ownerId name ttlMs =>
    ((PostgresSchedulerLease.renew ownerId name ttlMs w.clock w.leases).1,
      { w with leases := (PostgresSchedulerLease.renew ownerId name ttlMs w.clock w.leases).2 })
  | release ownerId name => (.ok (), { w with leases := PostgresSchedulerLease.release ownerId name w.leases })

/-- The calls that leave the process, and can fail. -/
def RelayOp.isRemote : RelayOp → Bool
  | now => false
  | _ => true

def RelayOp.exec (o : RelayOp) (i : RelayInput) (w : RelayWorld) : Except JsError o.Res × RelayWorld :=
  match if o.isRemote then i.fault else none with
  | none => o.effect i w
  | some f => (.error (.error f.message), if f.applied then (o.effect i w).2 else w)

abbrev RelayProgram (α : Type) := Prog RelayOp RelayOp.Res JsError α

/-! ## The relay -/

namespace OutboxEventRepository

def claimUnpublished (limit : Nat) : RelayProgram (List (OutboxRow Json)) := Prog.perform (RelayOp.findMany limit)

def markPublished (ids : List String) : RelayProgram Unit := do
  if ids.length = 0 then return ()
  let publishedAt ← Prog.perform RelayOp.now
  Prog.perform (RelayOp.updateMany ids publishedAt)

end OutboxEventRepository

/-- The `defaultJobOptions` of the queue, and the id of the job. -/
def outboxRelayQueue (jobId : String) : JobOptions where
  jobId := some jobId
  attempts := 5
  backoffDelay := 2000
  removeOnComplete := true
  removeOnFail := false

/-- The data of the job of an event. -/
def OutboxRow.relayJob (event : OutboxRow Json) : OutboxRelayJob where
  outboxEventId := event.id
  aggregateId := event.aggregateId
  type := event.type
  payload := event.payload

namespace OutboxEventService

def relay (limit : Nat := 50) : RelayProgram Nat := do
  let events ← OutboxEventRepository.claimUnpublished limit
  if events.length = 0 then return 0
  Prog.perform (RelayOp.addBulk (events.map fun event => (event.relayJob, outboxRelayQueue event.id)))
  let publishedIds := events.map fun e => e.id
  OutboxEventRepository.markPublished publishedIds
  return publishedIds.length

end OutboxEventService

namespace OutboxRelayScheduler

def NAME : String := "outbox-relay-scheduler"

def LEASE_TTL_MS : Js.Number := .finite 30000

/-- `run` of the instance `ownerId`; the flags `running` and `executing`, which only keep an instance from
running twice at once, are left to whoever starts it. -/
def run (ownerId : String) : RelayProgram Unit := do
  let leaseAcquired ← tryCatch (Prog.perform (RelayOp.acquire ownerId NAME LEASE_TTL_MS)) fun _ => return false
  if leaseAcquired then
    tryCatch (Prog.void OutboxEventService.relay) fun _ => return ()
    tryCatch (Prog.perform (RelayOp.release ownerId NAME)) fun _ => return ()

/-- A tick of the timer that `run` starts once it has the lease. -/
def renewLease (ownerId : String) : RelayProgram Unit :=
  tryCatch (Prog.void (Prog.perform (RelayOp.renew ownerId NAME LEASE_TTL_MS))) fun _ => return ()

end OutboxRelayScheduler

/-! ## Relays among the others -/

inductive RelayTask
  | relay (limit : Nat)
  | run (ownerId : String)
  | renewLease (ownerId : String)
  deriving DecidableEq, Repr

/-- What goes on around the relays: events are committed, jobs are consumed, the clock of the database runs. -/
inductive RelayShift
  | commit (id aggregateId type : String) (payload : Json) (createdAt : Date)
  | take (jobId : String)
  | complete (jobId : String)
  | fail (jobId : String)
  | stall (jobId : String)
  | tick (elapsed : Nat)

/-- `createInTransaction`, committed. -/
def newOutboxEvent (id aggregateId type : String) (payload : Json) (createdAt : Date) : OutboxRow Json :=
  { id, aggregateId, type, payload, published := false, createdAt }

def RelayWorld.shift (w : RelayWorld) : RelayShift → RelayWorld
  | .commit id aggregateId type payload createdAt =>
    { w with events := (w.events.insert (newOutboxEvent id aggregateId type payload createdAt)).getD w.events }
  | .take jobId => { w with queue := w.queue.take jobId }
  | .complete jobId => { w with queue := w.queue.complete jobId }
  | .fail jobId => { w with queue := w.queue.fail jobId }
  | .stall jobId => { w with queue := w.queue.stall 1 jobId }
  | .tick elapsed => { w with clock := w.clock + elapsed }

/-- Relays with and without the lease, any number of them at once. -/
def relaySystem : System RelayOp RelayOp.Res JsError RelayWorld RelayInput RelayTask RelayShift where
  exec := RelayOp.exec
  prog
    | .relay limit => (OutboxEventService.relay limit).void
    | .run ownerId => OutboxRelayScheduler.run ownerId
    | .renewLease ownerId => OutboxRelayScheduler.renewLease ownerId
  shift d w := w.shift d

abbrev RelayEvent := Event RelayTask RelayInput RelayShift

abbrev RelayConfig := Config RelayOp RelayOp.Res JsError RelayWorld

/-- No event has been published and no job was created. -/
structure RelayWorld.Fresh (w : RelayWorld) : Prop where
  events : ∀ e ∈ w.events.rows, e.published = false
  queue : w.queue.jobs.rows = []
  created : w.created = []

def RelayWorld.start (w : RelayWorld) : RelayConfig := ⟨w, []⟩

/-- The job of the event was created. -/
def RelayWorld.Enqueued (w : RelayWorld) (e : OutboxRow Json) : Prop :=
  ∃ j ∈ w.created, j.id = e.id ∧ j.data = e.relayJob

end TransactionSimulator
