import TransactionSimulator.System

/-!
# Re-enqueueing submitted transactions

A submission-recovery pass adds a job for every SUBMITTED transaction under an id that the
transaction determines.  `requeued_iff` says when this leaves a transaction without a job with
one: exactly if the queue holds no job under that id yet, and a job that has failed for good is
held too.
-/

namespace TransactionSimulator

open Concurrent Prog Queueing TransactionStatus

/-- The calls of a submission-recovery pass. -/
def RecoveryCall : Call → Prop
  | .stmt (.transactionFindMany _ _ _) => True
  | .emit _ => True
  | .queueAdd data opts => opts = recoveryJobOptions data.transactionId
  | _ => False

theorem recoveryCall_pass :
    All RecoveryCall SubmissionRecoveryProcessor.processSubmittedTransactions := by
  refine All.perform_bind trivial ?_
  intro transactions
  refine All.forEach ?_ _
  intro transaction
  refine All.tryCatch (All.perform_bind rfl fun _ => all_perform trivial) ?_
  exact fun _ => all_perform trivial

/-- A call of the pass changes the queue only by an addition under the id of a transaction. -/
theorem queue_of_recoveryCall {o : Call} (ho : RecoveryCall o) (i : Input) (w : World) :
    (exec o i w).2.queue = w.queue ∨ ∃ data : TransactionConfirmationJob,
      (exec o i w).2.queue = w.queue.add data (recoveryJobOptions data.transactionId) := by
  rcases exec_snd_cases o i w with he | he
  · exact .inl (by rw [he])
  · rw [he]
    cases o with
    | stmt s => exact .inl rfl
    | emit => exact .inl rfl
    | queueAdd data opts =>
      have hopts : opts = recoveryJobOptions data.transactionId := ho
      subst hopts
      exact .inr ⟨data, rfl⟩
    | _ => exact ho.elim

/-- The id under which the pass enqueues a transaction. -/
def recoveryJobId (transactionId : String) : String := "confirm-" ++ transactionId

theorem recoveryJobId_inj {a b : String} (h : recoveryJobId a = recoveryJobId b) : a = b := by
  have hl := congrArg String.toList h
  simp only [recoveryJobId, String.toList_append, List.append_cancel_left_eq] at hl
  exact String.toList_inj.mp hl

theorem mem_add_recovery {q : JobQueue TransactionConfirmationJob}
    {data : TransactionConfirmationJob} {j : Job TransactionConfirmationJob} :
    j ∈ (q.add data (recoveryJobOptions data.transactionId)).jobs.rows ↔ j ∈ q.jobs.rows ∨
      (j = { id := recoveryJobId data.transactionId, data,
             opts := recoveryJobOptions data.transactionId } ∧
        q.jobs.get (recoveryJobId data.transactionId) = none) :=
  JobQueue.mem_add

section Pass

variable {id : String}

/-- A job that may still be attempted is there for the transaction. -/
def Queued (id : String) (w : World) : Prop :=
  ∃ j ∈ w.queue.jobs.rows, j.data.transactionId = id ∧ j.live = true

/-- Once the id is held by a job that is not live, no addition of the pass helps. -/
theorem blocked_call {o : Call} (ho : RecoveryCall o) (i : Input) (w : World)
    (h : w.queue.jobs.get (recoveryJobId id) ≠ none ∧ ¬ Queued id w) :
    (exec o i w).2.queue.jobs.get (recoveryJobId id) ≠ none ∧ ¬ Queued id (exec o i w).2 := by
  obtain ⟨hheld, hnot⟩ := h
  rw [Queued]
  rcases queue_of_recoveryCall ho i w with he | ⟨data, he⟩
  · rw [he]
    exact ⟨hheld, hnot⟩
  · rw [he]
    constructor
    · intro hnone
      rw [Relational.Table.get_eq_none_iff] at hnone
      obtain ⟨j, hj⟩ := Option.ne_none_iff_exists'.mp hheld
      obtain ⟨hmem, hkey⟩ := w.queue.jobs.get_eq_some_iff.mp hj
      exact hnone j (mem_add_recovery.mpr (.inl hmem)) hkey
    · rintro ⟨j, hj, hid, hlive⟩
      rcases mem_add_recovery.mp hj with hj | ⟨rfl, hfree⟩
      · exact hnot ⟨j, hj, hid, hlive⟩
      · rw [show data.transactionId = id from hid] at hfree
        exact hheld hfree

/-- While only live jobs of the transaction are under its id, this stays so. -/
def OnlyLive (id : String) (w : World) : Prop :=
  ∀ j ∈ w.queue.jobs.rows, j.id = recoveryJobId id → j.data.transactionId = id ∧ j.live = true

theorem onlyLive_call {o : Call} (ho : RecoveryCall o) (i : Input) (w : World)
    (h : OnlyLive id w) : OnlyLive id (exec o i w).2 := by
  intro j hj hid
  rcases queue_of_recoveryCall ho i w with he | ⟨data, he⟩
  · rw [he] at hj
    exact h j hj hid
  · rw [he] at hj
    rcases mem_add_recovery.mp hj with hj | ⟨rfl, _⟩
    · exact h j hj hid
    · exact ⟨recoveryJobId_inj hid, rfl⟩

theorem queued_call {o : Call} (ho : RecoveryCall o) (i : Input) (w : World)
    (h : Queued id w) : Queued id (exec o i w).2 := by
  obtain ⟨j, hj, hid, hlive⟩ := h
  rcases queue_of_recoveryCall ho i w with he | ⟨data, he⟩
  · exact ⟨j, by rw [he]; exact hj, hid, hlive⟩
  · exact ⟨j, by rw [he]; exact mem_add_recovery.mpr (.inl hj), hid, hlive⟩

theorem queued_of_add {tenantId : String} {i : Input} (hi : i.fault = none) {w : World}
    (h : OnlyLive id w) :
    Queued id (exec (.queueAdd ⟨id, tenantId⟩ (recoveryJobOptions id)) i w).2 := by
  rw [exec_of_fault_none hi]
  show ∃ j ∈ (w.queue.add ⟨id, tenantId⟩ (recoveryJobOptions id)).jobs.rows, _
  cases hg : w.queue.jobs.get (recoveryJobId id) with
  | none => exact ⟨_, mem_add_recovery.mpr (.inr ⟨rfl, hg⟩), rfl, rfl⟩
  | some j =>
    obtain ⟨hmem, hkey⟩ := w.queue.jobs.get_eq_some_iff.mp hg
    obtain ⟨hid, hlive⟩ := h j hmem (List.mem_singleton.mp hkey).symm
    exact ⟨j, mem_add_recovery.mpr (.inl hmem), hid, hlive⟩

end Pass

/-- **When a submission-recovery pass gives a transaction a job again.**  Let the transaction have
no job that may still be attempted, and let the pass reach it with an addition that does not
throw.  It has such a job afterwards exactly if the queue held no job under its recovery id
before the pass: a job that failed for good and was kept is in the way. -/
theorem requeued_iff (w : World) (t : Transaction) (inp : Nat → Input)
    (hidle : ∀ j ∈ w.queue.jobs.rows, j.data.transactionId = t.id → j.live = false)
    (hadd : ∃ m ∈ SubmissionRecoveryProcessor.processSubmittedTransactions.trace exec inp w,
      m.op = .queueAdd ⟨t.id, t.tenantId⟩ (recoveryJobOptions t.id) ∧ m.input.fault = none) :
    (∃ j ∈ (SubmissionRecoveryProcessor.processSubmittedTransactions.run exec inp
        w).2.queue.jobs.rows, j.data.transactionId = t.id ∧ j.live = true) ↔
      w.queue.jobs.get ("confirm-" ++ t.id) = none := by
  have hidle' : ¬ Queued t.id w := by
    rintro ⟨j, hj, hid, hlive⟩
    rw [hidle j hj hid] at hlive
    cases hlive
  constructor
  · intro hqueued
    by_contra hheld
    exact (recoveryCall_pass.run_inv (fun o ho i w => blocked_call ho i w) ⟨hheld, hidle'⟩).2 hqueued
  · intro hfree
    have honly : OnlyLive t.id w := by
      intro j hj hid
      have hnot := (w.queue.jobs.get_eq_none_iff.mp hfree) j hj
      exact absurd (List.mem_singleton.mpr hid.symm) hnot
    obtain ⟨m, hm, hop, hfault⟩ := hadd
    obtain ⟨hstate, _⟩ := recoveryCall_pass.trace_inv (fun o ho i w => onlyLive_call ho i w) honly hm
    refine recoveryCall_pass.run_of_mem_trace (fun o ho i w => queued_call ho i w) hm ?_
    rw [hop]
    exact queued_of_add hfault hstate

/-- The transfer is recorded, but the request is lost before it enqueues the confirmation. -/
def unqueuedTransfer : List SystemEvent := sampleTransfer.dropLast ++ [.crash 0]

/-- A recovery pass enqueues it, and all five attempts are answered `pending`. -/
def exhaustedRecovery : List SystemEvent :=
  unqueuedTransfer ++ .spawn .processSubmittedTransactions :: steps 1 [{}, {}, {}] ++
    (List.range 5).flatMap fun n => .spawn (.confirmationJob "confirm-tx") ::
      steps (n + 2) [{}, {}, { reply := .transaction ⟨"0x01", none, 0, .pending, none⟩ }, {}]

/-- The transaction is SUBMITTED, has no job that may still be attempted, and the next pass reaches
it without an error; still it has no such job afterwards. -/
theorem exhaustedRecovery_not_requeued :
    ∃ t ∈ (World.sample.start.after Deployment.defaults.system
        exhaustedRecovery).world.db.transactions.rows,
      t.status = SUBMITTED ∧ t.txHash.isSome = true ∧
      (∀ j ∈ (World.sample.start.after Deployment.defaults.system
        exhaustedRecovery).world.queue.jobs.rows, j.data.transactionId = t.id → j.live = false) ∧
      (∀ n, ((fun _ => {} : Nat → Input) n).fault = none) ∧
      t ∈ (World.sample.start.after Deployment.defaults.system
        exhaustedRecovery).world.db.transactions.findMany TransactionRepository.isSubmittedCandidate
          (fun t => t.submittedAt) 100 ∧
      ¬ ∃ j ∈ (SubmissionRecoveryProcessor.processSubmittedTransactions.run exec (fun _ => {})
          (World.sample.start.after Deployment.defaults.system
            exhaustedRecovery).world).2.queue.jobs.rows,
        j.data.transactionId = t.id ∧ j.live = true := by
  refine ⟨.sample, ?_, rfl, rfl, ?_, fun _ => rfl, ?_, ?_⟩
  all_goals decide +kernel

/-- The first pass after the request was lost enqueues the transaction. -/
theorem requeued_iff_unqueuedTransfer :
    ∃ j ∈ (SubmissionRecoveryProcessor.processSubmittedTransactions.run exec (fun _ => {})
        (World.sample.start.after Deployment.defaults.system
          unqueuedTransfer).world).2.queue.jobs.rows,
      j.data.transactionId = "tx" ∧ j.live = true := by
  refine (requeued_iff (World.sample.start.after Deployment.defaults.system
    unqueuedTransfer).world .sample (fun _ => {}) (by decide) ?_).mpr (by decide)
  refine ⟨⟨(World.sample.start.after Deployment.defaults.system unqueuedTransfer).world,
    .queueAdd ⟨"tx", "tenant"⟩ (recoveryJobOptions "tx"), {}⟩, ?_, rfl, rfl⟩
  exact .tail _ (.head _)

end TransactionSimulator
