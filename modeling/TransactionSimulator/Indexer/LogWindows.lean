import TransactionSimulator.Domain.StateMachine
import TransactionSimulator.Lib.Prog
import TransactionSimulator.Lib.Regex

/-!
# Scanning logs in windows

`log-windows.ts` and `indexer-config.ts`.  The loop of `scanLogWindows` is cut in two:
`fetchWindow` halves the window until the provider accepts it, `scanFrom` goes from window to
window.  Both recursions are on a bound that the loop has: a window size is halved at most as
often as it has units, and a scan makes at most `maxWindows` windows.
-/

namespace TransactionSimulator

open Concurrent Texts

/-! ## Which errors ask for a smaller window -/

/-- `RATE_LIMIT_PATTERN`, on a text in lower case with a space at either end. -/
def RATE_LIMIT_PATTERN : Regex :=
  .oneOf [
    .inOrder [.text "rate", .opt (.char fun c => c ≠ '\n' && c ≠ '\r'), .text "limit"],
    .text "too many requests",
    .inOrder [.text "request", .opt (.text "s"), .text " ", .oneOf [.text "count", .text "per"]],
    .text "throttl",
    .inOrder [.char fun c => !Regex.isWord c, .text "429", .char fun c => !Regex.isWord c]]

/-- `RANGE_LIMIT_PATTERN`, on a text in lower case. -/
def RANGE_LIMIT_PATTERN : Regex :=
  .oneOf [
    .text "block range",
    .inOrder [.text "range ", .opt (.text "is "), .text "too ",
      .oneOf [.text "large", .text "wide", .text "big"]],
    .inOrder [.oneOf [.text "exceed", .text "exceeds", .text "exceeded"],
      .upTo (.char (· ≠ '.')) 40,
      .oneOf [.text "range", .text "limit", .text "results", .text "size"]],
    .inOrder [.text "more than ", .plus .digit, .text " results"],
    .inOrder [.text "too many ", .oneOf [.text "results", .text "logs"]],
    .text "response size",
    .inOrder [.text "query ", .oneOf [.text "returned", .text "exceeds"]],
    .text "limit exceeded",
    .inOrder [.text "max", .opt (.text "imum"), .text " ", .opt (.text "block "), .text "range"],
    .inOrder [.text "log", .opt (.text "s"), .text " ", .oneOf [.text "response", .text "result"],
      .opt (.text "s"), .text " ", .opt (.text "is "), .text "too"]]

def isRateLimitError (error : JsError) : Bool :=
  RATE_LIMIT_PATTERN.search (" " ++ Js.toLowerCase error.message ++ " ")

def isBlockRangeLimitError (error : JsError) : Bool :=
  if isRateLimitError error then false
  else RANGE_LIMIT_PATTERN.search (Js.toLowerCase error.message)

/-! ## The scan -/

structure ScanLogWindowsResult where
  lastProcessed : Option Int
  complete : Bool
  windows : Nat
  maxRange : Int
  deriving DecidableEq, Repr

/-- The last block of a window of `size` blocks that starts at `start`. -/
def windowEnd (start size finish : Int) : Int :=
  if start + size - 1 < finish then start + size - 1 else finish

section Scan

variable {Op : Type} {Res : Op → Type} {TLog : Type}
  (fetch : Int → Int → Prog Op Res JsError (List TLog))
  (onWindow : List TLog → Int → Int → Prog Op Res JsError Unit)
  (onShrink : Int → JsError → Prog Op Res JsError Unit)

/-- The logs of the window that starts at `start`, its last block, and the size in force. -/
def fetchWindow (start finish : Int) : Nat → Int → Prog Op Res JsError (List TLog × Int × Int)
  | 0, size => do
    let logs ← fetch start (windowEnd start size finish)
    return (logs, windowEnd start size finish, size)
  | fuel + 1, size =>
    tryCatch (do
      let logs ← fetch start (windowEnd start size finish)
      return (logs, windowEnd start size finish, size)) fun error =>
      if decide (1 < size) && isBlockRangeLimitError error then do
        onShrink (size / 2) error
        fetchWindow start finish fuel (size / 2)
      else throw error

def scanFrom (finish : Int) : Nat → Int → Int → Nat → Option Int →
    Prog Op Res JsError ScanLogWindowsResult
  | 0, start, size, windows, lastProcessed =>
    return ⟨lastProcessed, decide (finish < start), windows, size⟩
  | remaining + 1, start, size, windows, lastProcessed =>
    if start ≤ finish then do
      let (logs, last, size') ← fetchWindow fetch onShrink start finish size.toNat size
      onWindow logs start last
      scanFrom finish remaining (last + 1) size' (windows + 1) (some last)
    else return ⟨lastProcessed, decide (finish < start), windows, size⟩

def scanLogWindows (start finish maxRange : Int) (maxWindows : Nat) :
    Prog Op Res JsError ScanLogWindowsResult :=
  scanFrom fetch onWindow onShrink finish maxWindows start maxRange 0 none

end Scan

/-! ## Configuration -/

structure EvmIndexerConfig where
  startBlock : Nat
  confirmations : Nat
  maxBlockRange : Nat
  maxWindowsPerRun : Nat
  deriving DecidableEq, Repr

def DEFAULT_MAX_BLOCK_RANGE : Nat := 2000

def DEFAULT_MAX_WINDOWS_PER_RUN : Nat := 25

def parseInteger (env : String → Option String) (name : String) (fallback minimum : Nat) :
    Except JsError Nat :=
  let raw := (env name).map Js.trim
  if Js.isFalsy raw then .ok fallback
  else
    let text := raw.getD ""
    if !(Js.isDigits text) || Js.bigInt text < minimum then
      .error (.error ("Invalid " ++ name ++ " \"" ++ text ++ "\": expected an integer >= " ++
        toString minimum))
    else .ok (Js.bigInt text)

def loadEvmIndexerConfig (env : String → Option String) : Except JsError EvmIndexerConfig := do
  let maxWindowsPerRun ← parseInteger env "EVM_INDEX_MAX_WINDOWS_PER_RUN"
    DEFAULT_MAX_WINDOWS_PER_RUN 1
  let startBlock ← parseInteger env "EVM_INDEX_START_BLOCK" 0 0
  let confirmations ← parseInteger env "EVM_INDEX_CONFIRMATIONS" 0 0
  let maxBlockRange ← parseInteger env "EVM_LOGS_MAX_BLOCK_RANGE" DEFAULT_MAX_BLOCK_RANGE 1
  return ⟨startBlock, confirmations, maxBlockRange, Js.number maxWindowsPerRun⟩

theorem le_parseInteger {env : String → Option String} {name : String} {fallback minimum n : Nat}
    (h : parseInteger env name fallback minimum = .ok n) (hfallback : minimum ≤ fallback) :
    minimum ≤ n := by
  simp only [parseInteger] at h
  split at h
  · cases h
    exact hfallback
  split at h
  · cases h
  · next hvalid =>
    cases h
    simp only [Bool.or_eq_true, decide_eq_true_eq, not_or] at hvalid
    omega

/-- A configuration that is accepted lets a run make a window, and a window has a block. -/
theorem one_le_of_config {env : String → Option String} {config : EvmIndexerConfig}
    (h : loadEvmIndexerConfig env = .ok config) :
    1 ≤ config.maxBlockRange ∧ 1 ≤ config.maxWindowsPerRun := by
  unfold loadEvmIndexerConfig at h
  cases hwindows : parseInteger env "EVM_INDEX_MAX_WINDOWS_PER_RUN" DEFAULT_MAX_WINDOWS_PER_RUN 1 with
  | error e => rw [hwindows] at h; cases h
  | ok windows =>
  cases hstart : parseInteger env "EVM_INDEX_START_BLOCK" 0 0 with
  | error e => rw [hwindows, hstart] at h; cases h
  | ok startBlock =>
  cases hconf : parseInteger env "EVM_INDEX_CONFIRMATIONS" 0 0 with
  | error e => rw [hwindows, hstart, hconf] at h; cases h
  | ok confirmations =>
  cases hrange : parseInteger env "EVM_LOGS_MAX_BLOCK_RANGE" DEFAULT_MAX_BLOCK_RANGE 1 with
  | error e => rw [hwindows, hstart, hconf, hrange] at h; cases h
  | ok range =>
    rw [hwindows, hstart, hconf, hrange] at h
    cases h
    exact ⟨le_parseInteger hrange (by decide), Js.number_pos (le_parseInteger hwindows (by decide))⟩

end TransactionSimulator
