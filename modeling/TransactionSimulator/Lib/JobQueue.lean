import TransactionSimulator.Lib.Table

/-!
# A job queue with retries

The part of a Redis-backed job queue that its users rely on.  A job is added under an id of the
caller's choice or under the next number; an id that the queue still holds, in whatever state,
makes the addition do nothing.  A worker takes a job that is waiting or whose delay is over,
and the attempt ends the job, delays it for another attempt, or, when the attempts are used up,
fails it for good.  A job whose worker disappears is stalled: it is put back until it has
stalled too often.  The options of a job say whether it stays in the queue once it is completed
or failed.
-/

namespace Queueing

open Relational

inductive JobState
  | waiting
  | delayed
  | active
  | completed
  | failed
  deriving DecidableEq, Repr

structure JobOptions where
  jobId : Option String := none
  attempts : Nat
  backoffDelay : Nat
  removeOnComplete : Bool
  removeOnFail : Bool
  deriving DecidableEq, Repr

structure Job (δ : Type) where
  id : String
  data : δ
  opts : JobOptions
  attemptsMade : Nat := 0
  stalledCounter : Nat := 0
  state : JobState := .waiting
  deriving DecidableEq, Repr

/-- Jobs by id, and the number that the next job without an id of its own gets. -/
structure JobQueue (δ : Type) where
  jobs : Table (Job δ) String fun j => [j.id]
  nextId : Nat

/-- A job that an attempt may still be made of, or is being made of. -/
def Job.live {δ : Type} (j : Job δ) : Bool :=
  j.state = .waiting || j.state = .delayed || j.state = .active

namespace JobQueue

variable {δ : Type}

def empty : JobQueue δ := ⟨.empty, 1⟩

/-- The job that an addition puts into the queue if its id is free. -/
def newJob (q : JobQueue δ) (data : δ) (opts : JobOptions) : Job δ :=
  { id := opts.jobId.getD (toString q.nextId), data, opts }

/-- Adds a job; nothing happens if the queue holds its id. -/
def add (q : JobQueue δ) (data : δ) (opts : JobOptions) : JobQueue δ :=
  { jobs := (q.jobs.insert (q.newJob data opts)).getD q.jobs
    nextId := if opts.jobId.isNone then q.nextId + 1 else q.nextId }

/-- Adds jobs in turn, and names those that were new. -/
def addBulk (q : JobQueue δ) : List (δ × JobOptions) → JobQueue δ × List (Job δ)
  | [] => (q, [])
  | (data, opts) :: jobs =>
    let rest := (q.add data opts).addBulk jobs
    (rest.1, if (q.jobs.get (q.newJob data opts).id).isNone then q.newJob data opts :: rest.2 else rest.2)

/-- Rewrites the job under `id` if it satisfies `cond`. -/
def modify (q : JobQueue δ) (id : String) (cond : Job δ → Bool) (data : Job δ → Job δ) :
    JobQueue δ :=
  match q.jobs.updateMany (fun j => j.id = id && cond j) data with
  | some (t, _) => { q with jobs := t }
  | none => q

def remove (q : JobQueue δ) (id : String) : JobQueue δ :=
  { q with jobs := q.jobs.deleteMany fun j => j.id = id }

/-- A worker takes the job. -/
def take (q : JobQueue δ) (id : String) : JobQueue δ :=
  q.modify id (fun j => j.state = .waiting || j.state = .delayed) fun j =>
    { j with state := .active }

/-- The attempt succeeded. -/
def complete (q : JobQueue δ) (id : String) : JobQueue δ :=
  match q.jobs.get id with
  | some j =>
    if j.state = .active then
      if j.opts.removeOnComplete then q.remove id
      else q.modify id (fun _ => true) fun j => { j with state := .completed }
    else q
  | none => q

/-- The attempt failed: there is another one after a delay, or the job has failed for good. -/
def fail (q : JobQueue δ) (id : String) : JobQueue δ :=
  match q.jobs.get id with
  | some j =>
    if j.state = .active then
      if j.attemptsMade + 1 < j.opts.attempts then
        q.modify id (fun _ => true) fun j =>
          { j with attemptsMade := j.attemptsMade + 1, state := .delayed }
      else if j.opts.removeOnFail then q.remove id
      else q.modify id (fun _ => true) fun j =>
          { j with attemptsMade := j.attemptsMade + 1, state := .failed }
    else q
  | none => q

/-- The worker of an active job disappeared: the job waits again, or has failed for good once it
has stalled more than `maxStalledCount` times. -/
def stall (q : JobQueue δ) (maxStalledCount : Nat) (id : String) : JobQueue δ :=
  match q.jobs.get id with
  | some j =>
    if j.state = .active then
      if j.stalledCounter + 1 ≤ maxStalledCount then
        q.modify id (fun _ => true) fun j =>
          { j with stalledCounter := j.stalledCounter + 1, state := .waiting }
      else if j.opts.removeOnFail then q.remove id
      else q.modify id (fun _ => true) fun j =>
          { j with stalledCounter := j.stalledCounter + 1, state := .failed }
    else q
  | none => q

/-! ## Which jobs an operation can leave behind -/

/-- A job of the queue after an addition was there before, or is the new job and its id was
free. -/
theorem mem_add {q : JobQueue δ} {data : δ} {opts : JobOptions} {j : Job δ} :
    j ∈ (q.add data opts).jobs.rows ↔
      j ∈ q.jobs.rows ∨ (j = q.newJob data opts ∧ q.jobs.get (q.newJob data opts).id = none) := by
  rw [add]
  cases hi : q.jobs.insert (q.newJob data opts) with
  | none =>
    have htaken : q.jobs.get (q.newJob data opts).id ≠ none := by
      intro hfree
      obtain ⟨t', ht'⟩ := q.jobs.insert_isSome (r := q.newJob data opts) (by simpa using hfree)
      rw [ht'] at hi
      cases hi
    simp [htaken]
  | some t' =>
    have hfree := Table.get_of_insert hi (k := (q.newJob data opts).id) (by simp)
    simp [Table.insert_rows hi, hfree]

theorem mem_modify {q : JobQueue δ} {id : String} {cond : Job δ → Bool} {data : Job δ → Job δ}
    {j : Job δ} (h : j ∈ (q.modify id cond data).jobs.rows) :
    j ∈ q.jobs.rows ∨ ∃ i ∈ q.jobs.rows, i.id = id ∧ cond i = true ∧ j = data i := by
  rw [modify] at h
  split at h
  · next t n hu =>
    simp only [(Table.updateMany_eq_some hu).1, Table.mem_written] at h
    obtain ⟨i, hi, hj⟩ := h
    split at hj
    · next hc =>
      simp only [Bool.and_eq_true, decide_eq_true_eq] at hc
      exact .inr ⟨i, hi, hc.1, hc.2, hj.symm⟩
    · exact .inl (hj ▸ hi)
  · exact .inl h

theorem mem_remove {q : JobQueue δ} {id : String} {j : Job δ}
    (h : j ∈ (q.remove id).jobs.rows) : j ∈ q.jobs.rows :=
  (Table.mem_deleteMany.mp h).1

/-! ## Which ids an operation leaves -/

section Ids

variable {q : JobQueue δ} {id : String} {j : Job δ}

theorem isSome_get_modify {cond : Job δ → Bool} {data : Job δ → Job δ} (hdata : ∀ j, (data j).id = j.id)
    (k : String) : ((q.modify id cond data).jobs.get k).isSome = (q.jobs.get k).isSome := by
  rw [modify]
  split
  · next t n hupdate => rw [Table.get_updateMany hupdate (by simp [hdata]), Option.isSome_map]
  · rfl

theorem get_remove_of_ne {k : String} (hk : k ≠ id) : (q.remove id).jobs.get k = q.jobs.get k := by
  refine Option.ext fun j => ?_
  rw [Table.get_eq_some_iff, Table.get_eq_some_iff, remove, Table.mem_deleteMany, List.mem_singleton]
  constructor
  · intro h
    exact ⟨h.1.1, h.2⟩
  · intro h
    refine ⟨⟨h.1, ?_⟩, h.2⟩
    rw [← h.2]
    exact decide_eq_false hk

theorem isSome_get_take (k : String) : ((q.take id).jobs.get k).isSome = (q.jobs.get k).isSome :=
  isSome_get_modify (by simp) k

/-- Only the job that is completed may leave. -/
theorem isSome_get_complete {k : String} (hk : k ≠ id) :
    ((q.complete id).jobs.get k).isSome = (q.jobs.get k).isSome := by
  rw [complete]
  split
  · split
    · split
      · rw [get_remove_of_ne hk]
      · exact isSome_get_modify (by simp) k
    · rfl
  · rfl

/-- A failed job that is to be kept is kept. -/
theorem isSome_get_fail {k : String} (hkeep : ∀ j, q.jobs.get id = some j → j.opts.removeOnFail = false) :
    ((q.fail id).jobs.get k).isSome = (q.jobs.get k).isSome := by
  rw [fail]
  split
  · next j hj =>
    split
    · split
      · exact isSome_get_modify (by simp) k
      · rw [if_neg (by simp [hkeep j hj])]
        exact isSome_get_modify (by simp) k
    · rfl
  · rfl

theorem isSome_get_stall {k : String} {n : Nat} (hkeep : ∀ j, q.jobs.get id = some j → j.opts.removeOnFail = false) :
    ((q.stall n id).jobs.get k).isSome = (q.jobs.get k).isSome := by
  rw [stall]
  split
  · next j hj =>
    split
    · split
      · exact isSome_get_modify (by simp) k
      · rw [if_neg (by simp [hkeep j hj])]
        exact isSome_get_modify (by simp) k
    · rfl
  · rfl

end Ids

/-! ## Which jobs stay the jobs they were -/

/-- Every job of `q'` is one of `q`, in whatever state. -/
def Within (q q' : JobQueue δ) : Prop :=
  ∀ j ∈ q'.jobs.rows, ∃ i ∈ q.jobs.rows, i.id = j.id ∧ i.data = j.data ∧ i.opts = j.opts

section Within

variable {q : JobQueue δ} {id : String}

theorem Within.refl (q : JobQueue δ) : q.Within q := fun j hj => ⟨j, hj, rfl, rfl, rfl⟩

theorem within_remove : q.Within (q.remove id) := fun j hj => ⟨j, mem_remove hj, rfl, rfl, rfl⟩

theorem within_modify {cond : Job δ → Bool} {data : Job δ → Job δ}
    (hdata : ∀ j, (data j).id = j.id ∧ (data j).data = j.data ∧ (data j).opts = j.opts) :
    q.Within (q.modify id cond data) := by
  intro j hj
  rcases mem_modify hj with hj | ⟨i, hi, -, -, rfl⟩
  · exact ⟨j, hj, rfl, rfl, rfl⟩
  · exact ⟨i, hi, (hdata i).1.symm, (hdata i).2.1.symm, (hdata i).2.2.symm⟩

theorem within_take : q.Within (q.take id) := within_modify fun _ => ⟨rfl, rfl, rfl⟩

theorem within_complete : q.Within (q.complete id) := by
  rw [complete]
  split
  · split
    · split
      · exact within_remove
      · exact within_modify fun _ => ⟨rfl, rfl, rfl⟩
    · exact .refl q
  · exact .refl q

theorem within_fail : q.Within (q.fail id) := by
  rw [fail]
  split
  · split
    · split
      · exact within_modify fun _ => ⟨rfl, rfl, rfl⟩
      · split
        · exact within_remove
        · exact within_modify fun _ => ⟨rfl, rfl, rfl⟩
    · exact .refl q
  · exact .refl q

theorem within_stall {n : Nat} : q.Within (q.stall n id) := by
  rw [stall]
  split
  · split
    · split
      · exact within_modify fun _ => ⟨rfl, rfl, rfl⟩
      · split
        · exact within_remove
        · exact within_modify fun _ => ⟨rfl, rfl, rfl⟩
    · exact .refl q
  · exact .refl q

end Within

/-! ## Additions in bulk -/

/-- A job of the queue was there before or is new. -/
theorem mem_addBulk {q : JobQueue δ} {jobs : List (δ × JobOptions)} {j : Job δ} :
    j ∈ (q.addBulk jobs).1.jobs.rows ↔ j ∈ q.jobs.rows ∨ j ∈ (q.addBulk jobs).2 := by
  induction jobs generalizing q with
  | nil => simp [addBulk]
  | cons job jobs ih =>
    obtain ⟨data, opts⟩ := job
    simp only [addBulk, ih, mem_add]
    cases hfree : q.jobs.get (q.newJob data opts).id with
    | none => simp [or_assoc]
    | some i => simp

theorem get_of_get_add {q : JobQueue δ} {data : δ} {opts : JobOptions} {id : String}
    (h : (q.add data opts).jobs.get id = none) : q.jobs.get id = none := by
  rw [Table.get_eq_none_iff] at h ⊢
  intro j hj
  exact h j (mem_add.mpr (.inl hj))

theorem get_add_ne_none (q : JobQueue δ) (data : δ) (opts : JobOptions) :
    (q.add data opts).jobs.get (q.newJob data opts).id ≠ none := by
  intro h
  have hfree := get_of_get_add h
  rw [Table.get_eq_none_iff] at h
  exact h _ (mem_add.mpr (.inr ⟨rfl, hfree⟩)) (by simp)

theorem newJob_of_jobId {q : JobQueue δ} {data : δ} {opts : JobOptions} {id : String} (h : opts.jobId = some id) :
    q.newJob data opts = { id, data, opts } := by
  rw [newJob, h, Option.getD_some]

section Bulk

variable {q : JobQueue δ} {jobs : List (δ × JobOptions)}

/-- A new job is one of those that were asked for, and its id was free. -/
theorem of_mem_addBulk (hids : ∀ job ∈ jobs, job.2.jobId.isSome) {j : Job δ} (h : j ∈ (q.addBulk jobs).2) :
    q.jobs.get j.id = none ∧
      ∃ job ∈ jobs, job.2.jobId = some j.id ∧ j = { id := j.id, data := job.1, opts := job.2 } := by
  induction jobs generalizing q with
  | nil => simp [addBulk] at h
  | cons job jobs ih =>
    obtain ⟨data, opts⟩ := job
    obtain ⟨id, hid⟩ := Option.isSome_iff_exists.mp (hids _ List.mem_cons_self)
    replace hid : opts.jobId = some id := hid
    have hrest : j ∈ ((q.add data opts).addBulk jobs).2 → q.jobs.get j.id = none ∧
        ∃ job ∈ (data, opts) :: jobs, job.2.jobId = some j.id ∧
          j = { id := j.id, data := job.1, opts := job.2 } := by
      intro hj
      obtain ⟨hfree, job, hjob, hnew⟩ := ih (fun job hjob => hids job (.tail _ hjob)) hj
      exact ⟨get_of_get_add hfree, job, .tail _ hjob, hnew⟩
    simp only [addBulk, newJob_of_jobId hid] at h
    split at h
    · next hfree =>
      rcases List.mem_cons.mp h with rfl | h
      · exact ⟨by simpa using hfree, (data, opts), .head _, hid, rfl⟩
      · exact hrest h
    · exact hrest h

/-- Every id that was asked for is held afterwards. -/
theorem get_addBulk_ne_none {job : δ × JobOptions} (hjob : job ∈ jobs) {id : String} (hid : job.2.jobId = some id) :
    (q.addBulk jobs).1.jobs.get id ≠ none := by
  induction jobs generalizing q with
  | nil => cases hjob
  | cons job' jobs ih =>
    rcases List.mem_cons.mp hjob with rfl | hjob
    · intro hnone
      refine get_add_ne_none q job.1 job.2 ?_
      rw [newJob_of_jobId hid]
      rw [Table.get_eq_none_iff] at hnone ⊢
      intro j hj
      have hkept : j ∈ (((q.add job.1 job.2).addBulk jobs).1).jobs.rows := mem_addBulk.mpr (.inl hj)
      exact hnone j hkept
    · exact ih hjob

/-- **No id is new twice.** -/
theorem countP_addBulk_le (hids : ∀ job ∈ jobs, job.2.jobId.isSome) (id : String) :
    (q.addBulk jobs).2.countP (fun j => j.id = id) ≤ if q.jobs.get id = none then 1 else 0 := by
  induction jobs generalizing q with
  | nil => simp [addBulk]
  | cons job jobs ih =>
    obtain ⟨data, opts⟩ := job
    obtain ⟨id', hid⟩ := Option.isSome_iff_exists.mp (hids _ List.mem_cons_self)
    replace hid : opts.jobId = some id' := hid
    have hrest := ih (q := q.add data opts) fun job hjob => hids job (.tail _ hjob)
    have hheld := get_add_ne_none q data opts
    rw [newJob_of_jobId hid] at hheld
    have hmono : (if (q.add data opts).jobs.get id = none then 1 else 0) ≤ if q.jobs.get id = none then 1 else 0 := by
      split
      · next hnone => rw [if_pos (get_of_get_add hnone)]
      · exact Nat.zero_le _
    simp only [addBulk, newJob_of_jobId hid]
    split
    · next hfree =>
      rw [List.countP_cons]
      by_cases hsame : id' = id
      · -- the id is taken by this job, so none of the others is new under it
        subst hsame
        rw [if_neg hheld] at hrest
        rw [Option.isNone_iff_eq_none] at hfree
        rw [if_pos hfree, if_pos (decide_eq_true rfl)]
        omega
      · simp only [hsame, decide_false, Bool.false_eq_true, if_false]
        omega
    · omega

end Bulk

end JobQueue

end Queueing
