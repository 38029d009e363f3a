import TransactionSimulator.Blockchain.RpcAttempts
import TransactionSimulator.Lib.Parallel

/-!
# What is counted of the calls

A call that returns is counted as a request, a call that throws is not: `instrumentRpc` counts it under the label
`status` of the failures, which those do not have.  `executeRpc` counts it as a failure after that.

* `wp_counted`: a counter grows with the increments that `prom-client` accepts.
* `countsTrue_iff`: the counters tell the true ratio of errors exactly if there is none.
-/

namespace TransactionSimulator

open Concurrent Prog Retry

/-! ## Counters -/

theorem sum_counted (labels : Labels) (series : Series) (label : Option (String × String)) :
    (series.counted labels).sum label =
      series.sum label + if (label.all fun l => labels.contains l) = true then 1 else 0 := by
  induction series with
  | nil =>
    rw [Series.counted]
    exact Nat.add_comm _ _
  | cons s series ih =>
    obtain ⟨l, n⟩ := s
    rw [Series.counted]
    split
    · next hl =>
      rw [Series.sum, Series.sum, hl]
      split <;> omega
    · rw [Series.sum, Series.sum, ih, Nat.add_assoc]

/-- An increment of the counter that is accepted, under labels among which is this one. -/
def countsUnder (counter : RpcCounter) (label : Option (String × String)) : RpcOp → Bool
  | .inc c labels =>
    decide (c = counter) && (labels.all fun l => counter.labelNames.contains l.1) &&
      label.all fun l => labels.contains l
  | _ => false

section Counts

variable {α β : Type} {outcomes : Nat → Nat → RaceEnd α} {w : RpcWorld}

theorem sum_exec (o : RpcOp) (clock : Rat) (counter : RpcCounter) (label : Option (String × String)) :
    ((o.exec outcomes clock w).2.metrics.series counter).sum label =
      (w.metrics.series counter).sum label + if countsUnder counter label o = true then 1 else 0 := by
  cases o with
  | inc c labels =>
    simp only [RpcOp.exec, RpcCounter.inc, countsUnder]
    cases hfind : labels.find? fun l => !c.labelNames.contains l.1 with
    | some l =>
      have hundeclared : labels.all (fun l => c.labelNames.contains l.1) = false := by
        rw [List.all_eq_false]
        exact ⟨l, List.mem_of_find?_eq_some hfind, by simpa using List.find?_some hfind⟩
      by_cases hc : c = counter
      · subst hc
        simp only [hundeclared, Bool.and_false, Bool.false_and, Bool.false_eq_true, if_false, Nat.add_zero]
      · simp [hc]
    | none =>
      have hdeclared : labels.all (fun l => c.labelNames.contains l.1) = true := by
        rw [List.all_eq_true]
        intro l hl
        have hnot := List.find?_eq_none.mp hfind l hl
        simpa using hnot
      by_cases hc : c = counter
      · subst hc
        simp only [hdeclared, if_pos, decide_true, Bool.true_and]
        exact sum_counted labels _ label
      · simp [hc, Ne.symm hc]
  | attempt | observeDuration | now | setTimeout | log => rfl

theorem attempts_exec (o : RpcOp) (clock : Rat) (call : Nat) :
    (o.exec outcomes clock w).2.attempts call = w.attempts call + if o = .attempt call then 1 else 0 := by
  cases o with
  | attempt c =>
    by_cases hc : c = call
    · subst hc
      simp [RpcOp.exec]
    · simp [RpcOp.exec, hc, Ne.symm hc]
  | inc c labels =>
    simp only [RpcOp.exec]
    cases c.inc labels (w.metrics.series c) <;> rfl
  | observeDuration | now | setTimeout | log => rfl

/-- **What a program counts** is what its calls do. -/
theorem wp_counted (p : RpcProgram α β) :
    wp (RpcOp.exec outcomes) Alone (fun _ _ => True) p (fun tr _ w' =>
      (∀ counter label, (w'.metrics.series counter).sum label =
        (w.metrics.series counter).sum label + (tr.map Moment.op).countP (countsUnder counter label)) ∧
      ∀ call, w'.attempts call = w.attempts call + (tr.map Moment.op).count (.attempt call)) w := by
  induction p generalizing w with
  | pure a => exact ⟨fun _ _ => rfl, fun _ => rfl⟩
  | throw e => exact ⟨fun _ _ => rfl, fun _ => rfl⟩
  | call o k ih =>
    intro w₁ hw clock
    rw [eq_of_alone hw]
    refine ⟨trivial, wp_mono ?_ (ih _)⟩
    rintro tr r w₂ ⟨hsum, hattempts⟩
    constructor
    · intro counter label
      rw [hsum, sum_exec, List.map_cons, List.countP_cons, Nat.add_assoc, Nat.add_comm (List.countP _ _)]
    · intro call
      rw [hattempts, attempts_exec, List.map_cons, List.count_cons, Nat.add_assoc, Nat.add_comm (List.count _ _)]
      simp only [beq_iff_eq]

end Counts

/-! ## One call -/

section Calls

variable {α : Type} {outcomes : Nat → Nat → RaceEnd α} {w : RpcWorld}

/-- Some attempt that may be made resolves in time, and those before it fail with errors that are retried. -/
def Succeeds (config : RpcConfig) (outcomes : Nat → RaceEnd α) : Prop :=
  ∃ k, 1 ≤ k ∧ k ≤ config.maxRetries + 1 ∧ (∃ a, outcomes k = .resolved a) ∧
    ∀ i, 1 ≤ i → i < k → ∃ error, attemptOutcome (outcomes i) = .error error ∧ shouldRetry error = true

theorem succeeds_iff {config : RpcConfig} {call k : Nat}
    (hlast : IsLast shouldRetry (seen outcomes call) 0 config.maxRetries k) :
    Succeeds config (outcomes call) ↔ ∃ a, seen outcomes call k = .ok a := by
  constructor
  · rintro ⟨j, hj, hmax, ⟨a, ha⟩, hbefore⟩
    have hok : seen outcomes call j = .ok a := by rw [seen, ha]; rfl
    have hle : k ≤ j := hlast.2 ⟨by omega, .inl (by rw [hok]; rfl)⟩
    rcases Nat.eq_or_lt_of_le hle with rfl | hlt
    · exact ⟨a, hok⟩
    · obtain ⟨error, herror, hretry⟩ := hbefore k (by have := hlast.1.1; omega) hlt
      rcases hlast.1.2 with hstops | hall
      · rw [seen, herror, stops, hretry] at hstops
        cases hstops
      · omega
  · rintro ⟨a, ha⟩
    refine ⟨k, by have := hlast.1.1; omega, ?_, ⟨a, ?_⟩, fun i hi hk => hlast.retried hi hk⟩
    · exact hlast.2 ⟨by omega, .inr (by omega)⟩
    · cases hrace : outcomes call k with
      | resolved b =>
        rw [seen, hrace] at ha
        cases ha
        rfl
      | rejected | timedOut =>
        rw [seen, hrace] at ha
        cases ha

/-- The loop counts retries only. -/
theorem countP_loopOps {counter : RpcCounter} (h : counter ≠ .rpcRetriesTotal) (label : Option (String × String))
    (method : String) (call : Nat) (l : List (RetryCall Thrown)) :
    (l.flatMap (loopOps method call)).countP (countsUnder counter label) = 0 := by
  rw [List.countP_eq_zero]
  intro o ho
  obtain ⟨c, -, hc⟩ := List.mem_flatMap.mp ho
  cases c with
  | fn | setTimeout =>
    rw [List.mem_singleton.mp hc]
    exact Bool.false_ne_true
  | onRetry error attempt nextDelay =>
    rcases List.mem_cons.mp hc with rfl | hc
    · simp [countsUnder, Ne.symm h]
    · rw [List.mem_singleton.mp hc]
      exact Bool.false_ne_true

theorem count_attempt_loopOps {call c : Nat} (h : c ≠ call) (method : String) (l : List (RetryCall Thrown)) :
    (l.flatMap (loopOps method call)).count (.attempt c) = 0 := by
  rw [List.count_eq_zero]
  intro ho
  obtain ⟨made, -, hmade⟩ := List.mem_flatMap.mp ho
  cases made <;> simp_all [loopOps]

def isError : Except Thrown α → Bool
  | .ok _ => false
  | .error _ => true

/-- What a call adds: to the requests, to those with an error, to the failures. -/
structure Adds (w w' : RpcWorld) (requests errors failures : Nat) : Prop where
  requests : (w'.metrics.series .rpcRequestsTotal).sum none = (w.metrics.series .rpcRequestsTotal).sum none + requests
  errors : (w'.metrics.series .rpcRequestsTotal).sum (some ("status", "error")) =
    (w.metrics.series .rpcRequestsTotal).sum (some ("status", "error")) + errors
  failures : (w'.metrics.series .rpcFailuresTotal).sum none = (w.metrics.series .rpcFailuresTotal).sum none + failures

theorem Adds.trans {w₁ w₂ : RpcWorld} {a b c a' b' c' : Nat} (h : Adds w w₁ a b c) (h' : Adds w₁ w₂ a' b' c') :
    Adds w w₂ (a + a') (b + b') (c + c') where
  requests := by rw [h'.requests, h.requests, Nat.add_assoc]
  errors := by rw [h'.errors, h.errors, Nat.add_assoc]
  failures := by rw [h'.failures, h.failures, Nat.add_assoc]

/-- **A call** that returns is a request; a call that throws is a failure, and no request. -/
theorem wp_executeRpc_adds (outcomes : Nat → Nat → RaceEnd α) (config : RpcConfig) (method : String) (call : Nat)
    (hw : w.attempts call = 0) :
    wp (RpcOp.exec outcomes) Alone (fun _ _ => True) (executeRpc config method call)
      (fun _ r w' => (isError r = false ↔ Succeeds config (outcomes call)) ∧
        Adds w w' (if isError r = true then 0 else 1) 0 (if isError r = true then 1 else 0) ∧
        ∀ c, c ≠ call → w'.attempts c = w.attempts c) w := by
  refine wp_mono ?_ (wp_and (wp_counted _) (wp_executeRpc outcomes config method call hw))
  rintro tr r w' ⟨⟨hsum, hattempts⟩, k, seconds, hlast, hr, -, hops⟩
  have hloop : ∀ counter label, counter ≠ .rpcRetriesTotal → (tr.map Moment.op).countP (countsUnder counter label) =
      (instrumentOps method seconds r ++ failureOps method r).countP (countsUnder counter label) := by
    intro counter label hcounter
    rw [hops, List.append_assoc, List.countP_append, List.countP_cons_of_neg Bool.false_ne_true,
      countP_loopOps hcounter, Nat.zero_add]
  refine ⟨?_, ?_, ?_⟩
  · rw [succeeds_iff hlast, ← hr]
    cases r with
    | ok a => exact iff_of_true rfl ⟨a, rfl⟩
    | error error => exact iff_of_false (by simp [isError]) (by simp)
  · refine ⟨?_, ?_, ?_⟩
    · rw [hsum, hloop _ _ (by decide)]
      cases r with
      | ok a => simp [instrumentOps, failureOps, countsUnder, RpcCounter.labelNames, isError]
      | error error =>
        obtain ⟨e, rfl⟩ := exists_rpcError_of_attemptOutcome hr.symm
        simp [instrumentOps, failureOps, countsUnder, isError]
    · rw [hsum, hloop _ _ (by decide)]
      cases r with
      | ok a => simp [instrumentOps, failureOps, countsUnder]
      | error error =>
        obtain ⟨e, rfl⟩ := exists_rpcError_of_attemptOutcome hr.symm
        simp [instrumentOps, failureOps, countsUnder]
    · rw [hsum, hloop _ _ (by decide)]
      cases r with
      | ok a => simp [instrumentOps, failureOps, countsUnder, isError]
      | error error =>
        obtain ⟨e, rfl⟩ := exists_rpcError_of_attemptOutcome hr.symm
        simp [instrumentOps, failureOps, countsUnder, RpcCounter.labelNames, isError]
  · intro c hc
    have hnone : (tr.map Moment.op).count (.attempt c) = 0 := by
      have hend : (instrumentOps method seconds r ++ failureOps method r).count (.attempt c) = 0 := by
        cases r with
        | ok a => simp [instrumentOps, failureOps]
        | error error =>
          obtain ⟨e, rfl⟩ := exists_rpcError_of_attemptOutcome hr.symm
          simp [instrumentOps, failureOps]
      rw [hops, List.append_assoc, List.count_append, hend, List.count_cons_of_ne (by simp), count_attempt_loopOps hc]
    rw [hattempts, hnone, Nat.add_zero]

/-! ## Every sequence of calls -/

/-- A call for each of the methods, one after the other. -/
def callsFor (α : Type) (config : RpcConfig) (methods : List String) (start : Nat) : List (RpcProgram α α) :=
  (methods.zipIdx start).map fun m => executeRpc config m.1 m.2

theorem wp_callsFor (outcomes : Nat → Nat → RaceEnd α) (config : RpcConfig) (methods : List String) (start : Nat)
    (hw : ∀ call, start ≤ call → w.attempts call = 0) :
    wp (RpcOp.exec outcomes) Alone (fun _ _ => True) (Prog.outcomes (callsFor α config methods start))
      (fun _ r w' => ∃ rs : List (Except Thrown α), r = .ok rs ∧ rs.length = methods.length ∧
        ((∀ r' ∈ rs, isError r' = false) ↔ ∀ j < methods.length, Succeeds config (outcomes (start + j))) ∧
        Adds w w' (rs.countP fun r' => !isError r') 0 (rs.countP isError)) w := by
  induction methods generalizing start w with
  | nil => exact ⟨[], rfl, rfl, by simp, rfl, rfl, rfl⟩
  | cons method methods ih =>
    rw [callsFor, List.zipIdx_cons, List.map_cons, ← callsFor, Prog.outcomes, wp_bind]
    have hcall : wp (RpcOp.exec outcomes) Alone (fun _ _ => True) (executeRpc config method start).outcome
        (fun _ r w' => ∃ r', r = .ok r' ∧ (isError r' = false ↔ Succeeds config (outcomes start)) ∧
          Adds w w' (if isError r' = true then 0 else 1) 0 (if isError r' = true then 1 else 0) ∧
          ∀ c, c ≠ start → w'.attempts c = w.attempts c) w := by
      rw [outcome, wp_tryCatch, wp_bind]
      refine wp_mono ?_ (wp_executeRpc_adds outcomes config method start (hw start le_rfl))
      intro tr r w₁ hend
      cases r with
      | ok a => exact ⟨_, rfl, hend⟩
      | error error => exact ⟨_, rfl, hend⟩
    refine wp_mono ?_ hcall
    rintro tr r w₁ ⟨r', rfl, hsucceeds, hadds, hsame⟩
    dsimp only
    rw [wp_bind]
    refine wp_mono ?_ (ih (start + 1) fun call hcall => by rw [hsame call (by omega), hw call (by omega)])
    rintro tr' r w₂ ⟨rs, rfl, hlength, hall, hadds'⟩
    refine ⟨r' :: rs, rfl, by rw [List.length_cons, List.length_cons, hlength], ?_, ?_⟩
    · rw [List.forall_mem_cons, hsucceeds, hall, List.length_cons]
      constructor
      · rintro ⟨hfirst, hrest⟩ j hj
        cases j with
        | zero => exact hfirst
        | succ j =>
          have hj' := hrest j (by omega)
          rwa [show start + 1 + j = start + (j + 1) by omega] at hj'
      · intro h
        refine ⟨h 0 (by omega), ?_⟩
        intro j hj
        have hj' := h (j + 1) (by omega)
        rwa [show start + (j + 1) = start + 1 + j by omega] at hj'
    · have hsum := hadds.trans hadds'
      rw [List.countP_cons, List.countP_cons]
      cases herror : isError r' with
      | false =>
        rw [herror] at hsum
        simpa [Nat.add_comm] using hsum
      | true =>
        rw [herror] at hsum
        simpa [Nat.add_comm] using hsum

/-- The counters tell how many of these calls there were, and how many of them threw. -/
structure CountsTrue (rs : List (Except Thrown α)) (metrics : RpcMetrics) : Prop where
  requests : (metrics.series .rpcRequestsTotal).sum none = rs.length
  errors : (metrics.series .rpcRequestsTotal).sum (some ("status", "error")) = rs.countP isError
  failures : (metrics.series .rpcFailuresTotal).sum none = rs.countP isError

/-- **Every sequence of calls**: the counters tell the truth exactly if no call throws. -/
theorem countsTrue_iff (outcomes : Nat → Nat → RaceEnd α) (config : RpcConfig) (methods : List String)
    (inp : Nat → Rat) :
    ∃ rs, (run (RpcOp.exec outcomes) (Prog.outcomes (callsFor α config methods 0)) inp {}).1 = .ok rs ∧
      rs.length = methods.length ∧
      (CountsTrue rs (run (RpcOp.exec outcomes) (Prog.outcomes (callsFor α config methods 0)) inp {}).2.metrics ↔
        ∀ call < methods.length, Succeeds config (outcomes call)) := by
  obtain ⟨rs, hr, hlength, hall, hadds⟩ := run_of_wp (wp_callsFor outcomes config methods 0 (w := {}) fun _ _ => rfl) inp
  refine ⟨rs, hr, hlength, ?_⟩
  have hnone : (∀ r ∈ rs, isError r = false) ↔ rs.countP isError = 0 := by
    simp only [List.countP_eq_zero, Bool.not_eq_true]
  have htotal : rs.countP (fun r => !isError r) + rs.countP isError = rs.length := by
    rw [List.length_eq_countP_add_countP isError, Nat.add_comm]
    simp only [Bool.not_eq_true, Bool.decide_eq_false]
  have hzero : ∀ (counter : RpcCounter) (label : Option (String × String)),
      (({} : RpcWorld).metrics.series counter).sum label = 0 := fun _ _ => rfl
  obtain ⟨hrequests, herrors, hfailures⟩ := hadds
  rw [hzero, Nat.zero_add] at hrequests herrors hfailures
  simp only [Nat.zero_add] at hall
  rw [← hall, hnone]
  constructor
  · intro h
    rw [← h.errors, herrors]
  · intro h
    exact ⟨by rw [hrequests]; omega, by rw [herrors, h], hfailures⟩

end Calls

/-- A call that reverts: nothing is counted as a request. -/
theorem reverted_call_uncounted :
    ∃ rs, (run (RpcOp.exec fun _ _ => (.rejected (.error "execution reverted") : RaceEnd Unit))
        (Prog.outcomes (callsFor Unit {} ["eth_call"] 0)) (fun _ => 0) {}).1 = .ok rs ∧ rs.length = 1 ∧
      ¬ CountsTrue rs (run (RpcOp.exec fun _ _ => (.rejected (.error "execution reverted") : RaceEnd Unit))
        (Prog.outcomes (callsFor Unit {} ["eth_call"] 0)) (fun _ => 0) {}).2.metrics := by
  refine ⟨[.error (.rpcError ⟨.reverted, "execution reverted"⟩)], by decide +kernel, rfl, ?_⟩
  intro h
  exact absurd h.requests (by decide +kernel)

end TransactionSimulator
