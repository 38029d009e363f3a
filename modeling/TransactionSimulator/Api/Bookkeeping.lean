import TransactionSimulator.Api.Idempotency

/-!
# What the guard reports

The guard completes its row inside the `try` that also covers the handler, and the `catch` marks the row
failed and throws on.  So the row is failed, and the caller sees an error, if the handler threw or if the
completion of the row was refused after the handler had returned.  The row keeps an expiry that no lookup
reads: a row that is not completed refuses its key for good.

* `course_withIdempotency`: what a call of the guard can do, from its lookup to its end.
* `truthful_iff`: a handler that returned is not reported as failed, unless its completion is refused.
* `expired_iff`: after its expiry a row is replayed if it is completed, and else it refuses.
-/

namespace TransactionSimulator

open Concurrent Relational Texts

namespace Guard

open Prog (wp wp_bind wp_perform wp_tryCatch wp_mono among traceAmong run_among_of_wp)

theorem exec_of_fault {o : GuardOp} {i : GuardInput} {f : Fault} (hs : o.isStatement = true)
    (hf : i.fault = some f) (w : GuardWorld) : (o.exec i w).1 = .error (.error f.message) := by
  rw [GuardOp.exec, if_pos hs, hf]

theorem exec_of_fault_none (o : GuardOp) {i : GuardInput} (hf : i.fault = none) (w : GuardWorld) :
    o.exec i w = o.effect i w := by
  rw [GuardOp.exec, hf, ite_self]

/-! ## The completion of a row -/

/-- What `markCompleted` writes. -/
def completion (transactionId : String) (response : Json) : IdempotencyKeyUpdateInput :=
  { transactionId := some transactionId, response := some response, status := .COMPLETED }

/-- When `markCompleted` is refused: a fault of the database, no row, or another row for the transaction. -/
def CompletionFails (m : GuardMoment) : Prop :=
  ∃ id transactionId response, m.op = .update id (completion transactionId response) ∧
    (m.input.fault ≠ none ∨ m.state.keys.get (.id id) = none ∨
      ∃ r, m.state.keys.get (.transactionId transactionId) = some r ∧ r.id ≠ id)

/-- The row is completed unless another row has its transaction. -/
theorem completion_keys {t : IdempotencyTable} {id transactionId : String} {response : Json} {r : IdempotencyKey}
    (hrow : t.get (.id id) = some r) :
    (∀ s ∈ t.rows, s ≠ r → List.Disjoint ((completion transactionId response).apply r).keys s.keys) ↔
      ∀ s, t.get (.transactionId transactionId) = some s → s.id = id := by
  obtain ⟨hmem, hid⟩ := t.get_eq_some_iff.mp hrow
  have hnew : ((completion transactionId response).apply r).keys =
      [.id r.id, .tenantId_key r.tenantId r.key, .transactionId transactionId] := rfl
  constructor
  · intro h s hs
    obtain ⟨hs, hkey⟩ := t.get_eq_some_iff.mp hs
    by_contra hne
    have hother : s ≠ r := by
      intro heq
      rw [heq] at hne
      exact hne (IdempotencyKey.id_mem_keys.mp hid).symm
    exact h s hs hother (by rw [hnew]; simp) hkey
  · intro h s hs hother k hk hks
    rw [hnew] at hk
    simp only [List.mem_cons, List.not_mem_nil, or_false] at hk
    rcases hk with rfl | rfl | rfl
    · exact hother (t.eq_of_mem_keys hs hmem hks (by simp))
    · exact hother (t.eq_of_mem_keys hs hmem hks (by simp))
    · have hsid := h s (t.get_eq_some_iff.mpr ⟨hs, hks⟩)
      exact hother (t.eq_of_mem_keys hs hmem (k := .id id) (by simp [hsid]) hid)

/-- The statement without a fault. -/
theorem completed_iff (t : IdempotencyTable) (id transactionId : String) (response : Json) :
    (∃ r, (updateIdempotencyKey t id (completion transactionId response)).1 = .ok r) ↔
      t.get (.id id) ≠ none ∧ ∀ r, t.get (.transactionId transactionId) = some r → r.id = id := by
  rw [updateIdempotencyKey]
  cases hrow : t.get (.id id) with
  | none => exact iff_of_false (fun h => by obtain ⟨r, h⟩ := h; cases h) fun h => h.1 rfl
  | some r =>
    have hkeys : (∃ t' n, t.updateMany (fun r => r.id = id) (completion transactionId response).apply =
        some (t', n)) ↔ ∀ r, t.get (.transactionId transactionId) = some r → r.id = id := by
      rw [t.updateMany_isSome_iff (k := .id id) (by simp [eq_comm]) hrow, completion_keys hrow]
    dsimp only
    split
    · next t' n hupdate => exact iff_of_true ⟨_, rfl⟩ ⟨by simp, hkeys.mp ⟨t', n, hupdate⟩⟩
    · next hupdate =>
      refine iff_of_false (fun h => by obtain ⟨r, h⟩ := h; cases h) fun h => ?_
      obtain ⟨t', n, hsome⟩ := hkeys.mpr h.2
      rw [hupdate] at hsome
      cases hsome

/-- **When `markCompleted` fails.** -/
theorem completion_fails_iff (i : GuardInput) (w : GuardWorld) (id transactionId : String) (response : Json) :
    CompletionFails ⟨w, .update id (completion transactionId response), i⟩ ↔
      ∃ e, (GuardOp.exec (.update id (completion transactionId response)) i w).1 = .error e := by
  constructor
  · intro h
    obtain ⟨id', transactionId', response', hop, h⟩ := h
    obtain ⟨rfl, hcompletion⟩ := GuardOp.update.inj hop
    obtain ⟨rfl, rfl⟩ : transactionId = transactionId' ∧ response = response' := by
      simpa [completion] using hcompletion
    cases hfault : i.fault with
    | some f => exact ⟨_, exec_of_fault rfl hfault w⟩
    | none =>
      rw [exec_of_fault_none _ hfault]
      cases hresult : (updateIdempotencyKey w.keys id (completion transactionId response)).1 with
      | error e => exact ⟨e, hresult⟩
      | ok r =>
        obtain ⟨hrow, hothers⟩ := (completed_iff w.keys id transactionId response).mp ⟨r, hresult⟩
        rcases h with h | h | ⟨s, hs, hne⟩
        · exact absurd hfault h
        · exact absurd h hrow
        · exact absurd (hothers s hs) hne
  · intro h
    obtain ⟨e, he⟩ := h
    refine ⟨id, transactionId, response, rfl, ?_⟩
    by_contra hnot
    simp only [not_or, not_not, not_exists, not_and] at hnot
    obtain ⟨hfault, hrow, hothers⟩ := hnot
    obtain ⟨r, hr⟩ := (completed_iff w.keys id transactionId response).mpr ⟨hrow, hothers⟩
    rw [exec_of_fault_none _ hfault] at he
    exact absurd (hr.symm.trans he) (by simp)

/-! ## The course of a call -/

/-- The calls before the handler. -/
def Preliminary (m : GuardMoment) : Prop :=
  match m.op with
  | .now | .findUnique _ _ => True
  | .create data => data.status = .PROCESSING
  | _ => False

/-- An update that sets the status. -/
def Marks (status : IdempotencyStatus) (m : GuardMoment) : Prop :=
  ∃ id data, m.op = .update id data ∧ data.status = status

/-- **What a call of the guard can do**: it ends without a handler; the handler throws and the row is marked
failed; the handler returns and the row, if there is one, is completed; or the handler returns, the
completion fails, and the row is marked failed. -/
inductive Course (call : GuardedCall) : List GuardMoment → Except JsError IdempotentResult → Prop
  | refused {pre r} (hpre : ∀ m ∈ pre, Preliminary m) : Course call pre r
  | threw {pre post w₁ i₁ w₂ i₂ e e'} (hpre : ∀ m ∈ pre, Preliminary m)
      (houtcome : i₂.outcome = .error e) (hpost : ∀ m ∈ post, Marks .FAILED m) :
      Course call (pre ++ ⟨w₁, .startHandler call, i₁⟩ :: ⟨w₂, .awaitHandler call, i₂⟩ :: post) (.error e')
  | completed {pre post w₁ i₁ w₂ i₂ a result} (hpre : ∀ m ∈ pre, Preliminary m) (houtcome : i₂.outcome = .ok a)
      (hpost : ∀ m ∈ post, Marks .COMPLETED m ∧ ¬ CompletionFails m) :
      Course call (pre ++ ⟨w₁, .startHandler call, i₁⟩ :: ⟨w₂, .awaitHandler call, i₂⟩ :: post) (.ok result)
  | misreported {pre post w₁ i₁ w₂ i₂ a m e} (hpre : ∀ m ∈ pre, Preliminary m) (houtcome : i₂.outcome = .ok a)
      (hfails : CompletionFails m) (hpost : ∀ m ∈ post, Marks .FAILED m) :
      Course call (pre ++ ⟨w₁, .startHandler call, i₁⟩ :: ⟨w₂, .awaitHandler call, i₂⟩ :: m :: post) (.error e)

section Course

variable {R : GuardWorld → GuardWorld → Prop} {call : GuardedCall} {w : GuardWorld}

theorem wp_handler (call : GuardedCall)
    {Q : List GuardMoment → Except JsError (String × Json) → GuardWorld → Prop}
    (hQ : ∀ w₁ i₁ w₂ i₂ w', Q [⟨w₁, .startHandler call, i₁⟩, ⟨w₂, .awaitHandler call, i₂⟩] i₂.outcome w') :
    wp GuardOp.exec R (fun _ _ => True) (handler call) Q w := by
  refine wp_bind.mpr (wp_perform.mpr ?_)
  intro w₁ _ i₁
  refine ⟨trivial, wp_perform.mpr ?_⟩
  intro w₂ _ i₂
  refine ⟨trivial, ?_⟩
  have houtcome : (GuardOp.effect i₂ w₂ (.awaitHandler call)).1 = i₂.outcome := by
    rw [GuardOp.effect]
    cases i₂.outcome <;> rfl
  rw [GuardOp.exec_of_not_isStatement rfl, houtcome]
  exact hQ w₁ i₁ w₂ i₂ _

/-- After the insertion of the row. -/
theorem wp_acquired (call : GuardedCall) (id : String) (pre : List GuardMoment) (hpre : ∀ m ∈ pre, Preliminary m) :
    wp GuardOp.exec R (fun _ _ => True)
      (tryCatch
        (do
          let (transactionId, response) ← handler call
          let _ ← IdempotencyService.markCompleted id transactionId response
          return ⟨response, false⟩)
        fun error => do
          let _ ← IdempotencyService.markFailed id (some (.obj [("error", .str error.message)]))
          throw error : GuardProgram IdempotentResult)
      (fun tr r _ => Course call (pre ++ tr) r) w := by
  -- whatever the update answers, the error is thrown
  have hfailed : ∀ (error : JsError) (tr : List GuardMoment) (v : GuardWorld),
      (∀ post e, (∀ m ∈ post, Marks .FAILED m) → Course call (pre ++ (tr ++ post)) (.error e)) →
      wp GuardOp.exec R (fun _ _ => True)
        (do
          let _ ← IdempotencyService.markFailed id (some (.obj [("error", .str error.message)]))
          throw error : GuardProgram IdempotentResult) (fun tr' r _ => Course call (pre ++ (tr ++ tr')) r) v := by
    intro error tr v hcourse
    refine wp_bind.mpr (wp_perform.mpr ?_)
    intro w₁ _ i₁
    refine ⟨trivial, ?_⟩
    cases (GuardOp.exec (.update id { response := some (.obj [("error", .str error.message)]), status := .FAILED })
        i₁ w₁).1 with
    | ok r => exact hcourse _ error (by simp [Marks])
    | error e => exact hcourse _ e (by simp [Marks])
  refine wp_tryCatch.mpr (wp_bind.mpr (wp_handler call ?_))
  intro w₁ i₁ w₂ i₂ w'
  cases houtcome : i₂.outcome with
  | error e =>
    refine hfailed e _ w' ?_
    intro post e' hpost
    exact .threw hpre houtcome hpost
  | ok a =>
    refine wp_bind.mpr (wp_perform.mpr ?_)
    intro w₃ _ i₃
    refine ⟨trivial, ?_⟩
    have hiff := completion_fails_iff i₃ w₃ id a.1 a.2
    rw [completion] at hiff
    cases hresult : (GuardOp.exec (.update id
        { transactionId := some a.1, response := some a.2, status := .COMPLETED }) i₃ w₃).1 with
    | ok r =>
      rw [hresult] at hiff
      refine .completed hpre houtcome ?_
      intro m hm
      obtain rfl := List.mem_singleton.mp hm
      refine ⟨⟨id, _, rfl, rfl⟩, fun h => ?_⟩
      obtain ⟨e, he⟩ := hiff.mp h
      cases he
    | error e =>
      refine hfailed e _ _ ?_
      intro post e' hpost
      exact .misreported hpre houtcome (hiff.mpr ⟨e, hresult⟩) hpost

/-- **A call of the guard takes one of the courses.** -/
theorem wp_withIdempotency (call : GuardedCall) :
    wp GuardOp.exec R (fun _ _ => True) (withIdempotency call (handler call)) (fun tr r _ => Course call tr r) w := by
  unfold withIdempotency
  split
  · have hnone : ∀ m ∈ ([] : List GuardMoment), Preliminary m := by simp
    refine wp_bind.mpr (wp_handler call ?_)
    intro w₁ i₁ w₂ i₂ w'
    cases houtcome : i₂.outcome with
    | ok a => exact .completed hnone houtcome (by simp)
    | error e => exact .threw hnone houtcome (by simp)
  · refine wp_bind.mpr (wp_perform.mpr ?_)
    intro w₁ _ i₁
    refine ⟨trivial, ?_⟩
    cases (GuardOp.exec (.findUnique call.tenantId (call.idempotencyKey.getD "")) i₁ w₁).1 with
    | error e => exact .refused (by simp [Preliminary])
    | ok found =>
      cases found with
      | some existing =>
        dsimp only
        cases replay call.requestHash existing with
        | ok result => exact .refused (by simp [Preliminary])
        | error e => exact .refused (by simp [Preliminary])
      | none =>
        refine wp_bind.mpr (wp_bind.mpr (wp_perform.mpr ?_))
        intro w₂ _ i₂
        refine ⟨trivial, ?_⟩
        rw [GuardOp.exec_of_not_isStatement rfl]
        refine wp_perform.mpr ?_
        intro w₃ _ i₃
        refine ⟨trivial, ?_⟩
        let data : IdempotencyKeyCreateInput := ⟨call.tenantId, call.idempotencyKey.getD "", call.requestHash,
          .PROCESSING, w₂.clock + call.ttlMs.getD DEFAULT_TTL_MS⟩
        cases (GuardOp.exec (.create data) i₃ w₃).1 with
        | error e => exact .refused (by simp [Preliminary])
        | ok acquired =>
          exact wp_acquired call acquired.id [⟨w₁, .findUnique call.tenantId (call.idempotencyKey.getD ""), i₁⟩,
            ⟨w₂, .now, i₂⟩, ⟨w₃, .create data, i₃⟩] (by simp [Preliminary, data])

end Course

/-- **Every run of a call among others.** -/
theorem course_withIdempotency (call : GuardedCall) (w : GuardWorld)
    (inp : Nat → (GuardWorld → GuardWorld) × GuardInput) :
    Course call (traceAmong GuardOp.exec (withIdempotency call (handler call)) inp w)
      (Prog.run (among GuardOp.exec) (withIdempotency call (handler call)) inp w).1 := by
  refine run_among_of_wp (P := fun _ => True) (R := fun _ _ => True) (Q := fun tr r _ => Course call tr r)
    (Prog.wp_restrict (wp_withIdempotency call)) (fun _ => trivial) ?_
  intro n v
  exact .single trivial

/-! ## What the caller and the row are told -/

/-- The handler threw. -/
def Threw (tr : List GuardMoment) : Prop :=
  ∃ m ∈ tr, ∃ call e, m.op = .awaitHandler call ∧ m.input.outcome = .error e

/-- The handler returned. -/
def HandlerReturned (tr : List GuardMoment) : Prop :=
  ∃ m ∈ tr, ∃ call a, m.op = .awaitHandler call ∧ m.input.outcome = .ok a

/-- The handler was started. -/
def HandlerStarted (tr : List GuardMoment) : Prop := ∃ m ∈ tr, ∃ call, m.op = .startHandler call

/-- A call stores a row that is failed. -/
def StoresFailed (m : GuardMoment) : Prop :=
  ∃ r ∈ (m.op.exec m.input m.state).2.keys.rows, r.status = .FAILED ∧ r ∉ m.state.keys.rows

/-- **A handler that returned is not reported as failed**: the row is stored failed, and a call that has
started its handler throws, only if the handler threw. -/
structure Truthful (tr : List GuardMoment) (r : Except JsError IdempotentResult) : Prop where
  failed : ∀ m ∈ tr, StoresFailed m → Threw tr
  throws : HandlerStarted tr → ∀ e, r = .error e → Threw tr
  returned : HandlerReturned tr → (∀ m ∈ tr, ¬ StoresFailed m) ∧ ∃ result, r = .ok result

/-- Only an update that marks the row failed, or an insertion of a failed row, stores one. -/
theorem storesFailed_op {m : GuardMoment} (h : StoresFailed m) :
    (∃ data, m.op = .create data ∧ data.status = .FAILED) ∨ Marks .FAILED m := by
  obtain ⟨w, o, i⟩ := m
  obtain ⟨r, hr, hstatus, hnew⟩ := h
  by_contra hnot
  rw [not_or] at hnot
  have hold : ∀ r ∈ (o.exec i w).2.keys.rows, r.status = .FAILED → r ∈ w.keys.rows := by
    refine GuardOp.exec_snd (P := fun w w' => ∀ r ∈ w'.keys.rows, r.status = .FAILED → r ∈ w.keys.rows)
      (fun r hr _ => hr) ?_
    intro r hr hstatus
    cases o with
    | create data =>
      rcases createIdempotencyKey_rows w.keys i.uuid data with heq | heq
      · simpa only [GuardOp.effect, heq] using hr
      · simp only [GuardOp.effect, heq, List.mem_append, List.mem_singleton] at hr
        rcases hr with hr | rfl
        · exact hr
        · exact absurd ⟨data, rfl, hstatus⟩ hnot.1
    | update id data =>
      rcases updateIdempotencyKey_rows w.keys id data with heq | heq
      · simpa only [GuardOp.effect, heq] using hr
      · simp only [GuardOp.effect, heq, Table.mem_written] at hr
        obtain ⟨s, hs, rfl⟩ := hr
        split at hstatus
        · exact absurd ⟨id, data, rfl, hstatus⟩ hnot.2
        · next hid =>
          rw [if_neg hid]
          exact hs
    | awaitHandler call =>
      simp only [GuardOp.effect] at hr
      split at hr <;> exact hr
    | _ => exact hr
  exact hnew (hold r hr hstatus)

theorem Marks.not_storesFailed {m : GuardMoment} (h : Marks .COMPLETED m) : ¬ StoresFailed m := by
  intro hfailed
  obtain ⟨id, data, hop, hstatus⟩ := h
  rcases storesFailed_op hfailed with ⟨data', hop', -⟩ | ⟨id', data', hop', hstatus'⟩
  · rw [hop] at hop'
    cases hop'
  · rw [hop] at hop'
    cases hop'
    rw [hstatus] at hstatus'
    cases hstatus'

theorem not_storesFailed {m : GuardMoment} (hcreate : ∀ data, m.op ≠ .create data)
    (hupdate : ∀ id data, m.op ≠ .update id data) : ¬ StoresFailed m := by
  intro hfailed
  rcases storesFailed_op hfailed with ⟨data, hop, -⟩ | ⟨id, data, hop, -⟩
  · exact hcreate data hop
  · exact hupdate id data hop

theorem CompletionFails.marks {m : GuardMoment} (h : CompletionFails m) : Marks .COMPLETED m := by
  obtain ⟨id, transactionId, response, hop, -⟩ := h
  exact ⟨id, _, hop, rfl⟩

/-- A call before the handler neither starts nor awaits it, and marks no row. -/
theorem Preliminary.apart {m : GuardMoment} (h : Preliminary m) :
    (∀ call, m.op ≠ .startHandler call) ∧ (∀ call, m.op ≠ .awaitHandler call) ∧ (∀ status, ¬ Marks status m) ∧
      ¬ StoresFailed m := by
  obtain ⟨w, o, i⟩ := m
  have hmarks : ∀ status, ¬ Marks status ⟨w, o, i⟩ := by
    intro status hmarks
    obtain ⟨id, data, hop, -⟩ := hmarks
    simp only at hop
    rw [hop] at h
    exact h
  refine ⟨?_, ?_, hmarks, ?_⟩
  · intro call hop
    simp only at hop
    rw [hop] at h
    exact h
  · intro call hop
    simp only at hop
    rw [hop] at h
    exact h
  · intro hfailed
    rcases storesFailed_op hfailed with ⟨data, hop, hstatus⟩ | hfailed
    · simp only at hop
      rw [hop] at h
      exact absurd (h.symm.trans hstatus) (by simp)
    · exact hmarks _ hfailed

/-- The handler is awaited once, so its outcome is the outcome of that call. -/
theorem await_of_mem {call call' : GuardedCall} {pre post : List GuardMoment} {w₁ w₂ : GuardWorld}
    {i₁ i₂ : GuardInput} {m : GuardMoment} (hpre : ∀ m ∈ pre, Preliminary m)
    (hpost : ∀ m ∈ post, ∃ status, Marks status m)
    (hm : m ∈ pre ++ ⟨w₁, .startHandler call, i₁⟩ :: ⟨w₂, .awaitHandler call, i₂⟩ :: post)
    (hop : m.op = .awaitHandler call') : m.input = i₂ := by
  simp only [List.mem_append, List.mem_cons] at hm
  rcases hm with hm | rfl | rfl | hm
  · exact absurd hop ((hpre m hm).apart.2.1 call')
  · cases hop
  · rfl
  · obtain ⟨status, id, data, hop', -⟩ := hpost m hm
    rw [hop] at hop'
    cases hop'

/-- **One course.** -/
theorem Course.truthful {call : GuardedCall} {tr : List GuardMoment} {r : Except JsError IdempotentResult}
    (h : Course call tr r) : Truthful tr r ↔ ∀ m ∈ tr, ¬ CompletionFails m := by
  cases h with
  | refused hpre =>
    refine iff_of_true ⟨?_, ?_, ?_⟩ ?_
    · intro m hm hfailed
      exact absurd hfailed (hpre m hm).apart.2.2.2
    · intro hstarted
      obtain ⟨m, hm, call', hop⟩ := hstarted
      exact absurd hop ((hpre m hm).apart.1 call')
    · intro hreturned
      obtain ⟨m, hm, call', a, hop, -⟩ := hreturned
      exact absurd hop ((hpre m hm).apart.2.1 call')
    · intro m hm hfails
      exact (hpre m hm).apart.2.2.1 _ hfails.marks
  | @threw pre post w₁ i₁ w₂ i₂ e e' hpre houtcome hpost =>
    have hthrew : Threw (pre ++ ⟨w₁, .startHandler call, i₁⟩ :: ⟨w₂, .awaitHandler call, i₂⟩ :: post) :=
      ⟨⟨w₂, .awaitHandler call, i₂⟩, by simp, call, e, rfl, houtcome⟩
    refine iff_of_true ⟨fun _ _ _ => hthrew, fun _ _ _ => hthrew, ?_⟩ ?_
    · intro hreturned
      obtain ⟨m, hm, call', a, hop, hok⟩ := hreturned
      rw [await_of_mem hpre (fun m hm => ⟨_, hpost m hm⟩) hm hop, houtcome] at hok
      cases hok
    · intro m hm hfails
      obtain ⟨id, transactionId, response, hop, -⟩ := hfails
      simp only [List.mem_append, List.mem_cons] at hm
      rcases hm with hm | rfl | rfl | hm
      · exact (hpre m hm).apart.2.2.1 .COMPLETED ⟨id, _, hop, rfl⟩
      · cases hop
      · cases hop
      · obtain ⟨id', data, hop', hstatus⟩ := hpost m hm
        rw [hop] at hop'
        cases hop'
        cases hstatus
  | @completed pre post w₁ i₁ w₂ i₂ a result hpre houtcome hpost =>
    have hnot : ∀ m ∈ pre ++ ⟨w₁, .startHandler call, i₁⟩ :: ⟨w₂, .awaitHandler call, i₂⟩ :: post,
        ¬ StoresFailed m ∧ ¬ CompletionFails m := by
      intro m hm
      simp only [List.mem_append, List.mem_cons] at hm
      rcases hm with hm | rfl | rfl | hm
      · exact ⟨(hpre m hm).apart.2.2.2, fun hfails => (hpre m hm).apart.2.2.1 _ hfails.marks⟩
      · exact ⟨not_storesFailed (by simp) (by simp), fun hfails => by obtain ⟨_, _, _, hop, _⟩ := hfails; cases hop⟩
      · exact ⟨not_storesFailed (by simp) (by simp), fun hfails => by obtain ⟨_, _, _, hop, _⟩ := hfails; cases hop⟩
      · exact ⟨(hpost m hm).1.not_storesFailed, (hpost m hm).2⟩
    refine iff_of_true ⟨?_, ?_, ?_⟩ fun m hm => (hnot m hm).2
    · intro m hm hfailed
      exact absurd hfailed (hnot m hm).1
    · intro _ e he
      cases he
    · exact fun _ => ⟨fun m hm => (hnot m hm).1, result, rfl⟩
  | @misreported pre post w₁ i₁ w₂ i₂ a m e hpre houtcome hfails hpost =>
    refine iff_of_false ?_ fun h => h m (by simp) hfails
    intro h
    obtain ⟨m', hm', call', e', hop, herror⟩ := h.throws ⟨⟨w₁, .startHandler call, i₁⟩, by simp, call, rfl⟩ e rfl
    have hmarks : ∀ m' ∈ m :: post, ∃ status, Marks status m' := by
      intro m' hm'
      rcases List.mem_cons.mp hm' with rfl | hm'
      · exact ⟨_, hfails.marks⟩
      · exact ⟨_, hpost m' hm'⟩
    rw [await_of_mem hpre hmarks hm' hop, houtcome] at herror
    cases herror

/-- **When the guard reports truthfully.**  Whatever the calls of the guard answer and however the others
move the state in between, the row is stored failed and the call throws only if the handler threw, exactly if
no completion of the row fails. -/
theorem truthful_iff (call : GuardedCall) (w : GuardWorld) (inp : Nat → (GuardWorld → GuardWorld) × GuardInput) :
    Truthful (traceAmong GuardOp.exec (withIdempotency call (handler call)) inp w)
      (Prog.run (among GuardOp.exec) (withIdempotency call (handler call)) inp w).1 ↔
    ∀ m ∈ traceAmong GuardOp.exec (withIdempotency call (handler call)) inp w, ¬ CompletionFails m :=
  (course_withIdempotency call w inp).truthful

/-- The database refuses the completion after the handler has returned: the row is marked failed, and the
caller gets the error. -/
theorem completion_lost : ¬ ∀ (call : GuardedCall) (w : GuardWorld)
    (inp : Nat → (GuardWorld → GuardWorld) × GuardInput),
    Truthful (traceAmong GuardOp.exec (withIdempotency call (handler call)) inp w)
      (Prog.run (among GuardOp.exec) (withIdempotency call (handler call)) inp w).1 := by
  intro h
  let inp : Nat → (GuardWorld → GuardWorld) × GuardInput
    | 2 => (id, { uuid := "a" })
    | 4 => (id, { outcome := .ok ("tx", .str "created") })
    | 5 => (id, { fault := some ⟨"connection lost", false⟩ })
    | _ => (id, {})
  have htruthful := h .sample .sample inp
  rw [(course_withIdempotency _ _ inp).truthful] at htruthful
  refine htruthful _ (List.mem_of_getElem? (i := 5) rfl) ⟨"a", "tx", .str "created", rfl, .inl ?_⟩
  simp [inp]

/-! ## After the expiry -/

/-- The call is answered from the row under its key, or the guard goes on to acquire the key for it as for a
first call. -/
def Honoured (call : GuardedCall) (row : Option IdempotencyKey) (tr : List GuardMoment)
    (r : Except JsError IdempotentResult) : Prop :=
  (∃ existing, row = some existing ∧ existing.status = .COMPLETED ∧
    r = .ok ⟨existing.response.getD .null, true⟩) ∨
  ∃ m ∈ tr, ∃ data, m.op = .create data ∧ data.tenantId = call.tenantId ∧ call.idempotencyKey = some data.key

/-- The guard after its lookup. -/
def lookedUp (call : GuardedCall) (key : String) : Option IdempotencyKey → GuardProgram IdempotentResult
  | some existing => Prog.ofExcept (replay call.requestHash existing)
  | none =>
    (IdempotencyService.acquire call.tenantId key call.requestHash (call.ttlMs.getD DEFAULT_TTL_MS)).bind
      fun acquired => tryCatch
        (do
          let (transactionId, response) ← handler call
          let _ ← IdempotencyService.markCompleted acquired.id transactionId response
          return ⟨response, false⟩)
        fun error => do
          let _ ← IdempotencyService.markFailed acquired.id (some (.obj [("error", .str error.message)]))
          throw error

theorem withIdempotency_eq {call : GuardedCall} {key : String} (hcall : call.idempotencyKey = some key)
    (hkey : key ≠ "") : withIdempotency call (handler call) =
      (Prog.perform (GuardOp.findUnique call.tenantId key)).bind (lookedUp call key) := by
  have htruthy : ¬ Js.isFalsy call.idempotencyKey = true := by
    simpa [Js.isFalsy, hcall] using hkey
  unfold withIdempotency
  rw [if_neg htruthy, hcall, Option.getD_some]
  refine congrArg (Prog.bind _) (funext fun found => ?_)
  cases found <;> rfl

/-- The guard from its lookup on. -/
theorem honoured_iff {call : GuardedCall} {key : String} (hcall : call.idempotencyKey = some key) (hkey : key ≠ "")
    (w : GuardWorld) {inp : Nat → (GuardWorld → GuardWorld) × GuardInput}
    (hlookup : (inp 0).1 = id ∧ (inp 0).2.fault = none)
    (hsame : ∀ r, w.keys.get (.tenantId_key call.tenantId key) = some r → r.requestHash = call.requestHash) :
    Honoured call (w.keys.get (.tenantId_key call.tenantId key))
      (traceAmong GuardOp.exec (withIdempotency call (handler call)) inp w)
      (Prog.run (among GuardOp.exec) (withIdempotency call (handler call)) inp w).1 ↔
    ∀ r, w.keys.get (.tenantId_key call.tenantId key) = some r → r.status = .COMPLETED := by
  have hfind : among GuardOp.exec (.findUnique call.tenantId key) (inp 0) w =
      (.ok (w.keys.get (.tenantId_key call.tenantId key)), w) := by
    rw [among, hlookup.1, exec_of_fault_none _ hlookup.2]
    rfl
  obtain ⟨hrun, htrace⟩ := Prog.run_perform_bind (f := lookedUp call key) hfind
  rw [withIdempotency_eq hcall hkey, traceAmong, hrun, htrace]
  cases hrow : w.keys.get (.tenantId_key call.tenantId key) with
  | none =>
    refine iff_of_true (.inr ?_) fun r h => by cases h
    exact ⟨_, .tail _ (.tail _ (.head _)), _, rfl, rfl, hcall⟩
  | some existing =>
    by_cases hstatus : existing.status = .COMPLETED
    · have hreplay : replay call.requestHash existing = .ok ⟨existing.response.getD .null, true⟩ := by
        simp [replay, hsame existing hrow, hstatus]
      rw [lookedUp, hreplay]
      refine iff_of_true (.inl ⟨existing, rfl, hstatus, rfl⟩) ?_
      intro r hr
      cases hr
      exact hstatus
    · obtain ⟨e, hreplay⟩ : ∃ e, replay call.requestHash existing = .error e := by
        rw [replay, if_neg (not_not.mpr (hsame existing hrow))]
        cases h : existing.status with
        | COMPLETED => exact absurd h hstatus
        | PROCESSING => exact ⟨_, rfl⟩
        | FAILED => exact ⟨_, rfl⟩
      rw [lookedUp, hreplay]
      refine iff_of_false ?_ fun h => hstatus (h existing rfl)
      intro h
      rcases h with ⟨existing', heq, hcompleted, -⟩ | ⟨m, hm, data, hop, -⟩
      · rw [Option.some.inj heq] at hstatus
        exact hstatus hcompleted
      · obtain rfl := List.mem_singleton.mp hm
        cases hop

/-- **When an expired row lets its key go.**  Whatever calls of the guard were made, with whatever faults and
crashes: a call with the payload of the row, whose lookup is made after the row's expiry, is answered from
the row or treated as a first call exactly if the row, where there is one, is completed. -/
theorem expired_iff {tenantId key : String} (hkey : key ≠ "") (w₀ : GuardWorld)
    (es : List (Event GuardedCall GuardInput Nat)) {call : GuardedCall} (hcall : call.under tenantId key = true)
    {inp : Nat → (GuardWorld → GuardWorld) × GuardInput} (hlookup : (inp 0).1 = id ∧ (inp 0).2.fault = none)
    (hrow : ∀ r, (w₀.start.after guardSystem es).world.keys.get (.tenantId_key tenantId key) = some r →
      r.requestHash = call.requestHash ∧ r.expiresAt < (w₀.start.after guardSystem es).world.clock) :
    Honoured call ((w₀.start.after guardSystem es).world.keys.get (.tenantId_key tenantId key))
      (traceAmong GuardOp.exec (withIdempotency call (handler call)) inp (w₀.start.after guardSystem es).world)
      (Prog.run (among GuardOp.exec) (withIdempotency call (handler call)) inp
        (w₀.start.after guardSystem es).world).1 ↔
    ∀ r, (w₀.start.after guardSystem es).world.keys.get (.tenantId_key tenantId key) = some r →
      r.status = .COMPLETED := by
  simp only [GuardedCall.under, Bool.and_eq_true, decide_eq_true_eq] at hcall
  obtain ⟨rfl, hcall⟩ := hcall
  exact honoured_iff hcall hkey _ hlookup fun r hr => (hrow r hr).1

end Guard

/-- Inputs of a call that the database answers, with nobody else moving. -/
def answered (_ : Nat) : (GuardWorld → GuardWorld) × GuardInput := (id, { uuid := "c" })

/-- The row is completed, and a day passes. -/
def racedYesterday : List (Event GuardedCall GuardInput Nat) := raced ++ [.shift (DEFAULT_TTL_MS + 1)]

/-- A call completes the row; a day later another one is answered from it. -/
theorem Guard.expired_iff_replayed :
    (GuardWorld.sample.start.after guardSystem racedYesterday).world.clock = DEFAULT_TTL_MS + 1 ∧
    Guard.Honoured .sample
      ((GuardWorld.sample.start.after guardSystem racedYesterday).world.keys.get (.tenantId_key "tenant" "key"))
      (Prog.traceAmong GuardOp.exec (withIdempotency .sample (handler .sample)) answered
        (GuardWorld.sample.start.after guardSystem racedYesterday).world)
      (Prog.run (Prog.among GuardOp.exec) (withIdempotency .sample (handler .sample)) answered
        (GuardWorld.sample.start.after guardSystem racedYesterday).world).1 := by
  have hstored : ((GuardWorld.sample.start.after guardSystem racedYesterday).world.keys.get
      (.tenantId_key "tenant" "key")).map (fun r => (r.requestHash, r.expiresAt, r.status)) =
      some ("hash", DEFAULT_TTL_MS, .COMPLETED) := by decide +kernel
  refine ⟨by decide +kernel, (Guard.expired_iff (by decide) _ racedYesterday (by decide) ⟨rfl, rfl⟩ ?_).mpr ?_⟩
  · intro r hr
    rw [hr, Option.map_some, Option.some.injEq, Prod.mk.injEq, Prod.mk.injEq] at hstored
    refine ⟨hstored.1, ?_⟩
    rw [hstored.2.1]
    decide +kernel
  · intro r hr
    rw [hr, Option.map_some, Option.some.injEq, Prod.mk.injEq, Prod.mk.injEq] at hstored
    exact hstored.2.2

/-- The server stops while the handler runs: the row stays in progress. -/
def abandoned : List (Event GuardedCall GuardInput Nat) :=
  [.spawn .sample, .step 0 {}, .step 0 {}, .step 0 { uuid := "a" }, .step 0 {}, .crash 0,
    .shift (DEFAULT_TTL_MS + 1)]

/-- A day after a call that never ended, its key is still refused. -/
theorem Guard.expired_refused : ¬ ∀ (w₀ : GuardWorld) (es : List (Event GuardedCall GuardInput Nat))
    (call : GuardedCall) (inp : Nat → (GuardWorld → GuardWorld) × GuardInput),
    w₀.Fresh "tenant" "key" → call.under "tenant" "key" = true → (inp 0).1 = id ∧ (inp 0).2.fault = none →
    (∀ r, (w₀.start.after guardSystem es).world.keys.get (.tenantId_key "tenant" "key") = some r →
      r.requestHash = call.requestHash ∧ r.expiresAt < (w₀.start.after guardSystem es).world.clock) →
    Guard.Honoured call ((w₀.start.after guardSystem es).world.keys.get (.tenantId_key "tenant" "key"))
      (Prog.traceAmong GuardOp.exec (withIdempotency call (handler call)) inp (w₀.start.after guardSystem es).world)
      (Prog.run (Prog.among GuardOp.exec) (withIdempotency call (handler call)) inp
        (w₀.start.after guardSystem es).world).1 := by
  intro h
  have hstored : ((GuardWorld.sample.start.after guardSystem abandoned).world.keys.get
      (.tenantId_key "tenant" "key")).map (fun r => (r.requestHash, r.expiresAt, r.status)) =
      some ("hash", DEFAULT_TTL_MS, .PROCESSING) := by decide +kernel
  have hrow : ∀ r, (GuardWorld.sample.start.after guardSystem abandoned).world.keys.get
      (.tenantId_key "tenant" "key") = some r → r.requestHash = "hash" ∧ r.expiresAt = DEFAULT_TTL_MS ∧
        r.status = .PROCESSING := by
    intro r hr
    rw [hr, Option.map_some, Option.some.injEq, Prod.mk.injEq, Prod.mk.injEq] at hstored
    exact hstored
  have hhonoured := h .sample abandoned .sample answered GuardWorld.sample_fresh (by decide) ⟨rfl, rfl⟩ ?_
  · obtain ⟨r, hr, -⟩ := Option.map_eq_some_iff.mp hstored
    have hcompleted := (Guard.honoured_iff (rfl : GuardedCall.sample.idempotencyKey = some "key") (by decide) _ ⟨rfl, rfl⟩
      fun r hr => (hrow r hr).1).mp hhonoured r hr
    rw [(hrow r hr).2.2] at hcompleted
    cases hcompleted
  · intro r hr
    refine ⟨(hrow r hr).1, ?_⟩
    rw [(hrow r hr).2.1]
    decide +kernel

end TransactionSimulator
