import TransactionSimulator.Blockchain.Retry

/-!
# Calls to a node

`rpc.errors.ts`, `rpc.classifier.ts`, `rpc.metrics.ts`, `rpc.instrumentation.ts` and `rpc.executor.ts`.  Each
attempt of a call races with a timer; what it ends with is decided outside.  The counters are part of the state,
the clock is read from the inputs.
-/

namespace TransactionSimulator

open Concurrent

/-! ## Errors -/

/-- The subclasses of `RpcError`. -/
inductive RpcErrorClass
  | timeout
  | network
  | rateLimit
  | unavailable
  | reverted
  | invalidRequest
  | unknown
  deriving DecidableEq, Repr

structure RpcError where
  errorClass : RpcErrorClass
  message : String
  deriving DecidableEq, Repr

namespace RpcError

def retryable (error : RpcError) : Bool :=
  match error.errorClass with
  | .timeout | .network | .rateLimit | .unavailable => true
  | .reverted | .invalidRequest | .unknown => false

def reason (error : RpcError) : String :=
  match error.errorClass with
  | .timeout => "timeout"
  | .network => "network"
  | .rateLimit => "rate_limit"
  | .unavailable => "unavailable"
  | .reverted => "reverted"
  | .invalidRequest => "invalid_request"
  | .unknown => "unknown"

end RpcError

/-- What can be thrown: an `RpcError`, another `Error` with its message, anything else with its text. -/
inductive Thrown
  | rpcError (error : RpcError)
  | error (message : String)
  | other (text : String)
  deriving DecidableEq, Repr

/-- `error.message`, or `String(error)`. -/
def Thrown.text : Thrown → String
  | .rpcError e => e.message
  | .error message => message
  | .other text => text

/-- `error.reason`, or `unknown`. -/
def Thrown.reason : Thrown → String
  | .rpcError e => e.reason
  | _ => "unknown"

def classifyRpcError : Thrown → RpcError
  | .rpcError error => error
  | .other text => ⟨.unknown, text⟩
  | .error errorMessage =>
    let message := Js.toLowerCase errorMessage
    if ["timeout", "timed out", "abort"].any (Js.includes message) then ⟨.timeout, errorMessage⟩
    else if ["network", "socket", "fetch failed", "failed to fetch", "econnreset", "econnrefused", "enetunreach",
        "ehostunreach"].any (Js.includes message) then ⟨.network, errorMessage⟩
    else if ["429", "rate limit", "too many requests"].any (Js.includes message) then ⟨.rateLimit, errorMessage⟩
    else if ["503", "502", "504", "service unavailable", "temporarily unavailable"].any (Js.includes message) then
      ⟨.unavailable, errorMessage⟩
    else if ["execution reverted", "reverted", "revert"].any (Js.includes message) then ⟨.reverted, errorMessage⟩
    else if ["invalid params", "invalid argument", "invalid request", "parse error", "method not found"].any
        (Js.includes message) then ⟨.invalidRequest, errorMessage⟩
    else ⟨.unknown, errorMessage⟩

def shouldRetry : Thrown → Bool
  | .rpcError error => error.retryable
  | _ => false

/-! ## Metrics -/

abbrev Labels := List (String × String)

/-- The values of a counter: one for each set of labels that has been counted. -/
abbrev Series := List (Labels × Nat)

namespace Series

/-- The values after one more under these labels. -/
def counted (labels : Labels) : Series → Series
  | [] => [(labels, 1)]
  | (l, n) :: series => if l = labels then (l, n + 1) :: series else (l, n) :: counted labels series

/-- The sum of the values with this label; without a label, of all. -/
def sum : Series → Option (String × String) → Nat
  | [], _ => 0
  | (labels, n) :: series, label => (if (label.all fun l => labels.contains l) = true then n else 0) + sum series label

end Series

inductive RpcCounter
  | rpcRequestsTotal
  | rpcFailuresTotal
  | rpcRetriesTotal
  deriving DecidableEq, Repr

namespace RpcCounter

def labelNames : RpcCounter → List String
  | rpcRequestsTotal => ["method", "status"]
  | rpcFailuresTotal => ["method", "reason"]
  | rpcRetriesTotal => ["method"]

/-- `inc(labels)` of `prom-client` throws at a label name that was not declared, and changes nothing then. -/
def inc (counter : RpcCounter) (labels : Labels) (series : Series) : Except Thrown Series :=
  match labels.find? fun label => !counter.labelNames.contains label.1 with
  | some label => .error (.error ("Added label \"" ++ label.1 ++ "\" is not included in initial labelset"))
  | none => .ok (series.counted labels)

end RpcCounter

/-- The counters and the observed durations. -/
structure RpcMetrics where
  series : RpcCounter → Series := fun _ => []
  rpcDurationSeconds : List (Labels × Rat) := []

/-! ## Calls -/

/-- The end of the race between an attempt and its timer. -/
inductive RaceEnd (α : Type)
  | resolved (a : α)
  | rejected (error : Thrown)
  | timedOut
  deriving DecidableEq, Repr

inductive RpcLog
  | retrying (method : String) (attempt : Nat) (nextDelayMs : Js.Number) (reason error : String)
  | failed (method reason : String) (retryable : Bool) (error : String)
  | metricIncrementFailed (error : Thrown)
  deriving DecidableEq

inductive RpcOp
  | attempt (call : Nat)
  | inc (counter : RpcCounter) (labels : Labels)
  | observeDuration (labels : Labels) (seconds : Rat)
  | now
  | setTimeout (ms : Nat)
  | log (entry : RpcLog)
  deriving DecidableEq

@[reducible] def RpcOp.Res (α : Type) : RpcOp → Type
  | attempt _ => RaceEnd α
  | now => Rat
  | _ => Unit

/-- The metrics, and how many attempts each call has made.  A process starts with none. -/
structure RpcWorld where
  metrics : RpcMetrics := {}
  attempts : Nat → Nat := fun _ => 0

section Exec

variable {α : Type}

/-- The `k`-th attempt of a call ends with `outcomes call k`; the input of `now` is the clock. -/
def RpcOp.exec (outcomes : Nat → Nat → RaceEnd α) (o : RpcOp) (clock : Rat) (w : RpcWorld) :
    Except Thrown (o.Res α) × RpcWorld :=
  match o with
  | attempt call =>
    (.ok (outcomes call (w.attempts call + 1)),
      { w with attempts := fun c => if c = call then w.attempts call + 1 else w.attempts c })
  | inc counter labels =>
    match counter.inc labels (w.metrics.series counter) with
    | .ok series =>
      (.ok (), { w with metrics :=
        { w.metrics with series := fun c => if c = counter then series else w.metrics.series c } })
    | .error e => (.error e, w)
  | observeDuration labels seconds =>
    (.ok (), { w with metrics :=
      { w.metrics with rpcDurationSeconds := w.metrics.rpcDurationSeconds ++ [(labels, seconds)] } })
  | now => (.ok clock, w)
  | setTimeout _ => (.ok (), w)
  | log _ => (.ok (), w)

abbrev RpcProgram (α β : Type) := Prog RpcOp (RpcOp.Res α) Thrown β

/-- `incrementMetric` of one of these counters. -/
def RpcCounter.incrementMetric (metric : RpcCounter) (labels : Labels) : RpcProgram α Unit :=
  tryCatch (Prog.perform (RpcOp.inc metric labels)) fun error =>
    Prog.perform (RpcOp.log (.metricIncrementFailed error))

def recordRpcRetry (method : String) : RpcProgram α Unit :=
  Prog.perform (RpcOp.inc .rpcRetriesTotal [("method", method)])

def recordRpcFailure (method reason : String) : RpcProgram α Unit :=
  Prog.perform (RpcOp.inc .rpcFailuresTotal [("method", method), ("reason", reason)])

def instrumentRpc (method : String) (fn : RpcProgram α α) : RpcProgram α α := do
  let start ← Prog.perform RpcOp.now
  Prog.tryFinally
    (tryCatch (do
      let result ← fn
      RpcCounter.rpcRequestsTotal.incrementMetric [("method", method), ("status", "success")]
      return result) fun error => do
      RpcCounter.rpcFailuresTotal.incrementMetric [("method", method), ("status", "error")]
      throw error)
    (do
      let finish ← Prog.perform RpcOp.now
      Prog.perform (RpcOp.observeDuration [("method", method)] ((finish - start) / 1000)))

/-- `withTimeout`, when the race is over. -/
def withTimeout : RaceEnd α → Except Thrown α
  | .resolved a => .ok a
  | .rejected error => .error error
  | .timedOut => .error (.rpcError ⟨.timeout, "RPC request timed out"⟩)

/-- What an attempt ends with: an error is classified. -/
def attemptOutcome (settled : RaceEnd α) : Except Thrown α :=
  match withTimeout settled with
  | .ok a => .ok a
  | .error error => .error (.rpcError (classifyRpcError error))

/-- `RPC_MAX_RETRIES` and `RPC_RETRY_DELAY_MS`. -/
structure RpcConfig where
  maxRetries : Nat := 3
  retryDelayMs : Js.Number := .finite 500

def attemptRpc (call : Nat) : RpcProgram α α := do
  let settled ← Prog.perform (RpcOp.attempt call)
  Prog.ofExcept (attemptOutcome settled)

/-- `onRetry` of `executeRpc`. -/
def onRpcRetry (method : String) (error : Thrown) (attempt : Nat) (nextDelay : Js.Number) : RpcProgram α Unit := do
  recordRpcRetry method
  Prog.perform (RpcOp.log (.retrying method attempt nextDelay error.reason error.text))

def executeRpc (config : RpcConfig) (method : String) (call : Nat) : RpcProgram α α :=
  tryCatch
    (instrumentRpc method
      (retry (attemptRpc call) (onRpcRetry method) (fun ms => Prog.perform (RpcOp.setTimeout ms))
        ⟨config.maxRetries, config.retryDelayMs, some (.finite 2)⟩ shouldRetry))
    fun error =>
      match error with
      | .rpcError e => do
        recordRpcFailure method e.reason
        Prog.perform (RpcOp.log (.failed method e.reason e.retryable e.message))
        throw error
      | _ => throw error

end Exec

end TransactionSimulator
