import TransactionSimulator.Blockchain.RpcExecutor

/-!
# The attempts of a call

* `wp_executeRpc`: every call that `executeRpc` makes, in order, and what it ends with.
* `attempts_and_pauses`: `retry` for every function, and `executeRpc` as a use of it.
-/

namespace TransactionSimulator

open Concurrent Prog Retry

section Executor

variable {α : Type} {outcomes : Nat → Nat → RaceEnd α} {config : RpcConfig} {method : String} {call : Nat}
  {w : RpcWorld}

/-- The calls that the parts of the loop make. -/
def loopOps (method : String) (call : Nat) : RetryCall Thrown → List RpcOp
  | .fn => [.attempt call]
  | .onRetry error attempt nextDelay =>
    [.inc .rpcRetriesTotal [("method", method)], .log (.retrying method attempt nextDelay error.reason error.text)]
  | .setTimeout ms => [.setTimeout ms]

/-- What `prom-client` throws at the label `status` of the failures. -/
def undeclaredStatus : Thrown := .error "Added label \"status\" is not included in initial labelset"

/-- What `instrumentRpc` calls after its function. -/
def instrumentOps (method : String) (seconds : Rat) : Except Thrown α → List RpcOp
  | .ok _ =>
    [.inc .rpcRequestsTotal [("method", method), ("status", "success")], .now,
      .observeDuration [("method", method)] seconds]
  | .error _ =>
    [.inc .rpcFailuresTotal [("method", method), ("status", "error")], .log (.metricIncrementFailed undeclaredStatus),
      .now, .observeDuration [("method", method)] seconds]

/-- What `executeRpc` calls after that. -/
def failureOps (method : String) : Except Thrown α → List RpcOp
  | .error (.rpcError e) =>
    [.inc .rpcFailuresTotal [("method", method), ("reason", e.reason)],
      .log (.failed method e.reason e.retryable e.message)]
  | _ => []

/-- The outcomes of the attempts, as the loop sees them. -/
def seen (outcomes : Nat → Nat → RaceEnd α) (call : Nat) (k : Nat) : Except Thrown α :=
  attemptOutcome (outcomes call k)

theorem exists_rpcError_of_attemptOutcome {settled : RaceEnd α} {error : Thrown}
    (h : attemptOutcome settled = .error error) : ∃ e, error = .rpcError e := by
  rw [attemptOutcome] at h
  split at h
  · cases h
  · cases h
    exact ⟨_, rfl⟩

theorem wp_alone_perform {o : RpcOp} {Q : List (Moment RpcOp Rat RpcWorld) → Except Thrown (o.Res α) → RpcWorld → Prop}
    (h : ∀ clock, Q [⟨w, o, clock⟩] (o.exec outcomes clock w).1 (o.exec outcomes clock w).2) :
    wp (RpcOp.exec outcomes) Alone (fun _ _ => True) (perform o) Q w := by
  rw [wp_perform]
  intro w₁ hw clock
  rw [eq_of_alone hw]
  exact ⟨trivial, h clock⟩

theorem plays_attempts (outcomes : Nat → Nat → RaceEnd α) (method : String) (call : Nat) :
    Plays (RpcOp.exec outcomes) (attemptRpc call) (onRpcRetry method) (fun ms => perform (RpcOp.setTimeout ms))
      (seen outcomes call) (fun w => w.attempts call) (loopOps method call) where
  fn w := by
    rw [attemptRpc, bind_eq, wp_bind]
    refine wp_alone_perform ?_
    intro clock
    refine wp_ofExcept.mpr ⟨rfl, rfl, ?_⟩
    exact if_pos rfl
  onRetry error attempt nextDelay w := by
    rw [onRpcRetry, recordRpcRetry, bind_eq, wp_bind]
    refine wp_alone_perform ?_
    intro clock
    refine wp_alone_perform ?_
    intro clock'
    exact ⟨rfl, rfl, rfl⟩
  setTimeout ms w := wp_alone_perform fun _ => ⟨rfl, rfl, rfl⟩

theorem wp_incrementMetric_requests (method : String) :
    wp (RpcOp.exec outcomes) Alone (fun _ _ => True)
      (RpcCounter.rpcRequestsTotal.incrementMetric [("method", method), ("status", "success")])
      (fun tr r w' => tr.map Moment.op = [.inc .rpcRequestsTotal [("method", method), ("status", "success")]] ∧
        r = .ok () ∧ w'.attempts = w.attempts) w := by
  rw [RpcCounter.incrementMetric, tryCatch_eq, wp_tryCatch]
  exact wp_alone_perform fun _ => ⟨rfl, rfl, rfl⟩

theorem wp_incrementMetric_failures (method : String) :
    wp (RpcOp.exec outcomes) Alone (fun _ _ => True)
      (RpcCounter.rpcFailuresTotal.incrementMetric [("method", method), ("status", "error")])
      (fun tr r w' => tr.map Moment.op = [.inc .rpcFailuresTotal [("method", method), ("status", "error")],
          .log (.metricIncrementFailed undeclaredStatus)] ∧
        r = .ok () ∧ w'.attempts = w.attempts) w := by
  rw [RpcCounter.incrementMetric, tryCatch_eq, wp_tryCatch]
  refine wp_alone_perform fun _ => ?_
  exact wp_alone_perform fun _ => ⟨rfl, rfl, rfl⟩

theorem wp_recordRpcFailure (method reason : String) :
    wp (RpcOp.exec outcomes) Alone (fun _ _ => True) (recordRpcFailure method reason)
      (fun tr r w' => tr.map Moment.op = [.inc .rpcFailuresTotal [("method", method), ("reason", reason)]] ∧
        r = .ok () ∧ w'.attempts = w.attempts) w :=
  wp_alone_perform fun _ => ⟨rfl, rfl, rfl⟩

/-- What a function calls, and what `instrumentRpc` adds to it. -/
theorem wp_instrumentRpc {fn : RpcProgram α α} (F : List RpcOp → Except Thrown α → (Nat → Nat) → Prop)
    (method : String) (call : Nat)
    (h : ∀ w, w.attempts call = 0 → wp (RpcOp.exec outcomes) Alone (fun _ _ => True) fn
      (fun tr r w' => F (tr.map Moment.op) r w'.attempts) w) (hw : w.attempts call = 0) :
    wp (RpcOp.exec outcomes) Alone (fun _ _ => True) (instrumentRpc method fn)
      (fun tr r w' => ∃ ops seconds, F ops r w'.attempts ∧
        tr.map Moment.op = .now :: ops ++ instrumentOps method seconds r) w := by
  rw [instrumentRpc, bind_eq, wp_bind]
  refine wp_alone_perform fun start => ?_
  refine wp_tryFinally ?_
  have hlast : ∀ w₁ : RpcWorld, wp (RpcOp.exec outcomes) Alone (fun _ _ => True)
      (do
        let finish ← perform RpcOp.now
        perform (RpcOp.observeDuration [("method", method)] ((finish - start) / 1000)))
      (fun tr r w' => ∃ seconds, tr.map Moment.op = [.now, .observeDuration [("method", method)] seconds] ∧
        r = .ok () ∧ w'.attempts = w₁.attempts) w₁ := by
    intro w₁
    rw [bind_eq, wp_bind]
    refine wp_alone_perform fun finish => ?_
    exact wp_alone_perform fun _ => ⟨_, rfl, rfl, rfl⟩
  rw [tryCatch_eq, wp_tryCatch, bind_eq, wp_bind]
  refine wp_mono ?_ (h w hw)
  intro tr r w₁ hF
  cases r with
  | ok a =>
    dsimp only
    rw [bind_eq, wp_bind]
    refine wp_mono ?_ (wp_incrementMetric_requests method)
    rintro tr' r w₂ ⟨hops, rfl, hsame⟩
    simp only [pure_eq, wp]
    refine wp_mono ?_ (hlast w₂)
    rintro tr'' r w₃ ⟨seconds, hops', rfl, hsame'⟩
    rw [← hsame, ← hsame'] at hF
    refine ⟨_, seconds, hF, ?_⟩
    simp [hops, hops', instrumentOps, Except.bind]
  | error error =>
    dsimp only
    rw [bind_eq, wp_bind]
    refine wp_mono ?_ (wp_incrementMetric_failures method)
    rintro tr' r w₂ ⟨hops, rfl, hsame⟩
    simp only [throw_eq, wp]
    refine wp_mono ?_ (hlast w₂)
    rintro tr'' r w₃ ⟨seconds, hops', rfl, hsame'⟩
    rw [← hsame, ← hsame'] at hF
    refine ⟨_, seconds, hF, ?_⟩
    simp [hops, hops', instrumentOps, Except.bind]

/-- **A call**: the clock is read, the loop runs, and its outcome is counted. -/
theorem wp_executeRpc (outcomes : Nat → Nat → RaceEnd α) (config : RpcConfig) (method : String) (call : Nat) (hw : w.attempts call = 0) :
    wp (RpcOp.exec outcomes) Alone (fun _ _ => True) (executeRpc config method call)
      (fun tr r w' => ∃ k seconds, IsLast shouldRetry (seen outcomes call) 0 config.maxRetries k ∧
        r = seen outcomes call k ∧ w'.attempts call = k ∧
        tr.map Moment.op = .now :: (callsUpTo (seen outcomes call) config.retryDelayMs (.finite 2) 0 k).flatMap
          (loopOps method call) ++ instrumentOps method seconds r ++ failureOps method r) w := by
  rw [executeRpc, tryCatch_eq, wp_tryCatch]
  refine wp_mono ?_ (wp_instrumentRpc (fun ops r attempts =>
    ∃ k, IsLast shouldRetry (seen outcomes call) 0 config.maxRetries k ∧
      ops = (callsUpTo (seen outcomes call) config.retryDelayMs (.finite 2) 0 k).flatMap (loopOps method call) ∧
      r = seen outcomes call k ∧ attempts call = k) method call
    (fun w hw => wp_retry (plays_attempts outcomes method call)
      ⟨config.maxRetries, config.retryDelayMs, some (.finite 2)⟩ shouldRetry hw) hw)
  rintro tr r w₁ ⟨ops, seconds, ⟨k, hlast, rfl, hr, htries⟩, hops⟩
  cases r with
  | ok a => exact ⟨k, seconds, hlast, hr, htries, by simp [hops, failureOps]⟩
  | error error =>
    obtain ⟨e, rfl⟩ := exists_rpcError_of_attemptOutcome hr.symm
    dsimp only
    rw [bind_eq, wp_bind]
    refine wp_mono ?_ (wp_recordRpcFailure method e.reason)
    rintro tr' r w₂ ⟨hops', rfl, hsame⟩
    dsimp only
    rw [bind_eq, wp_bind]
    refine wp_alone_perform fun _ => ?_
    refine ⟨k, seconds, hlast, hr, ?_, ?_⟩
    · rw [← htries, ← hsame]
      rfl
    · simp [hops, hops', failureOps]

/-! ## The calls counted -/

/-- The pauses that are made. -/
def pauseOf : RpcOp → Option Nat
  | .setTimeout ms => some ms
  | _ => none

theorem counts_loopOps (method : String) (call : Nat) (l : List (RetryCall Thrown)) :
    (l.flatMap (loopOps method call)).count (.attempt call) = l.countP RetryCall.isFn ∧
      (l.flatMap (loopOps method call)).filterMap pauseOf = l.filterMap RetryCall.pause := by
  induction l with
  | nil => exact ⟨rfl, rfl⟩
  | cons c l ih =>
    rw [List.flatMap_cons, List.count_append, List.filterMap_append, ih.1, ih.2, List.countP_cons, List.filterMap_cons]
    cases c with
    | fn =>
      refine ⟨?_, rfl⟩
      simp only [loopOps, List.count_singleton_self, RetryCall.isFn, if_pos]
      omega
    | onRetry => exact ⟨by simp [loopOps, RetryCall.isFn], rfl⟩
    | setTimeout => exact ⟨by simp [loopOps, RetryCall.isFn], rfl⟩

/-- What a call to a node does when its `k`-th attempt is the last one. -/
structure Executed (outcomes : Nat → RaceEnd α) (config : RpcConfig) (call k : Nat) (r : Except Thrown α)
    (ops : List RpcOp) : Prop where
  outcome : r = attemptOutcome (outcomes k)
  thrown : ∀ error, r = .error error → ∃ e, error = .rpcError e
  attempts : ops.count (.attempt call) = k
  pauses : ops.filterMap pauseOf =
    (List.range' 1 (k - 1)).map fun i => (delay config.retryDelayMs (.finite 2) i).timeout
  retried : ∀ i, 1 ≤ i → i < k → ∃ e, attemptOutcome (outcomes i) = .error (.rpcError e) ∧ e.retryable = true

theorem executed_of_ops {k : Nat} {seconds : Rat} {r : Except Thrown α} {ops : List RpcOp}
    (hlast : IsLast shouldRetry (seen outcomes call) 0 config.maxRetries k) (hr : r = seen outcomes call k)
    (hops : ops = .now :: (callsUpTo (seen outcomes call) config.retryDelayMs (.finite 2) 0 k).flatMap
      (loopOps method call) ++ instrumentOps method seconds r ++ failureOps method r) :
    Executed (outcomes call) config call k r ops := by
  obtain ⟨hcalls, -, hpauses⟩ := counts_callsUpTo config.retryDelayMs (.finite 2) hlast.1.1
    fun i hi hk => (hlast.retried hi hk).imp fun _ h => h.1
  obtain ⟨hattempts, hsleeps⟩ := counts_loopOps method call
    (callsUpTo (seen outcomes call) config.retryDelayMs (.finite 2) 0 k)
  have hend : (instrumentOps method seconds r ++ failureOps method r).count (.attempt call) = 0 ∧
      (instrumentOps method seconds r ++ failureOps method r).filterMap pauseOf = [] := by
    cases r with
    | ok a => exact ⟨by simp [instrumentOps, failureOps], rfl⟩
    | error error =>
      cases error with
      | rpcError e => exact ⟨by simp [instrumentOps, failureOps], rfl⟩
      | error | other => exact ⟨by simp [instrumentOps, failureOps], rfl⟩
  refine ⟨hr, ?_, ?_, ?_, ?_⟩
  · intro error herror
    rw [herror] at hr
    exact exists_rpcError_of_attemptOutcome hr.symm
  · rw [hops, List.append_assoc, List.count_append, hend.1, List.count_cons_of_ne (by simp), hattempts, hcalls,
      Nat.add_zero]
  · rw [hops, List.append_assoc, List.filterMap_append, hend.2, List.filterMap_cons_none rfl, hsleeps, hpauses,
      List.append_nil]
  · intro i hi hk
    obtain ⟨error, herror, hretry⟩ := hlast.retried hi hk
    obtain ⟨e, rfl⟩ := exists_rpcError_of_attemptOutcome herror
    exact ⟨e, herror, hretry⟩

/-- **Every call to a node.** -/
theorem run_executeRpc (outcomes : Nat → Nat → RaceEnd α) (config : RpcConfig) (method : String) (call : Nat)
    (metrics : RpcMetrics) (inp : Nat → Rat) :
    ∃ k, IsLast shouldRetry (seen outcomes call) 0 config.maxRetries k ∧
      Executed (outcomes call) config call k (run (RpcOp.exec outcomes) (executeRpc config method call) inp { metrics }).1
        ((trace (RpcOp.exec outcomes) (executeRpc config method call) inp { metrics }).map Moment.op) := by
  obtain ⟨k, seconds, hlast, hr, -, hops⟩ := run_of_wp
    (wp_executeRpc outcomes config method call (w := { metrics }) rfl) inp
  exact ⟨k, hlast, executed_of_ops hlast hr hops⟩

end Executor

/-- **`retry` and `executeRpc`**, for every sequence of outcomes.  The delays come from multiplying by the factor,
one factor after the other; while no product is rounded, they are the powers of it, and those that the timer takes
as they are, the pauses. -/
theorem attempts_and_pauses {ε α β : Type} (outcomes : Nat → Except ε α) (options : RetryOptions)
    (retryable : ε → Bool) (inp : Nat → Unit) (rpcOutcomes : Nat → Nat → RaceEnd β) (config : RpcConfig)
    (method : String) (call : Nat) (metrics : RpcMetrics) (clock : Nat → Rat) :
    (∃ k, IsLast retryable outcomes 0 options.retries k ∧
      (run (RetryCall.exec outcomes) (retrying α options retryable) inp 0).1 = outcomes k ∧
      Retried outcomes options.delay (options.factor.getD (.finite 2)) k
        ((trace (RetryCall.exec outcomes) (retrying α options retryable) inp 0).map Moment.op)) ∧
    (∀ (d f : Rat) (i : Nat), (∀ j < i, Js.Number.ofRat (d * f ^ j) = .finite (d * f ^ j)) → 1 ≤ i →
      delay (.finite d) (.finite f) i = .finite (d * f ^ (i - 1)) ∧
        ∀ ms : Nat, d * f ^ (i - 1) = ms → 1 ≤ ms → ms < 2 ^ 31 → (delay (.finite d) (.finite f) i).timeout = ms) ∧
    ∃ k, IsLast shouldRetry (seen rpcOutcomes call) 0 config.maxRetries k ∧
      Executed (rpcOutcomes call) config call k
        (run (RpcOp.exec rpcOutcomes) (executeRpc config method call) clock { metrics }).1
        ((trace (RpcOp.exec rpcOutcomes) (executeRpc config method call) clock { metrics }).map Moment.op) := by
  refine ⟨run_retrying outcomes options retryable inp, ?_, run_executeRpc rpcOutcomes config method call metrics clock⟩
  intro d f i hexact hi
  have hdelay := delay_of_exact hexact hi
  refine ⟨hdelay, ?_⟩
  intro ms hms hpos hmax
  rw [hdelay, hms]
  exact Js.Number.timeout_natCast hpos hmax

/-- A delay of more than `2 ^ 31 - 1` milliseconds is none: the timer fires after one. -/
theorem pause_overflows :
    ((trace (RetryCall.exec fun _ => (.error () : Except Unit Unit))
      (retrying Unit ⟨1, .finite 3000000000, some (.finite 2)⟩ fun _ => true) (fun _ => ()) 0).map
        Moment.op).filterMap RetryCall.pause ≠
      (List.range' 1 1).map fun i => 3000000000 * 2 ^ (i - 1) := by
  decide +kernel

end TransactionSimulator
