import Mathlib.Data.String.Basic
import TransactionSimulator.Blockchain.TokenBalance
import TransactionSimulator.Blockchain.WalletAddress
import TransactionSimulator.Lib.Paging
import TransactionSimulator.Lib.Parallel
import TransactionSimulator.Repositories

/-!
# The drift sweep

`BalanceReconciliationService.reconcile` compares a snapshot with the chain, and `BalanceDriftProcessor.sweep`
does so for every snapshot, at the block of the cursor of its token.

The checks of a batch run at once; a schedule says whose call comes next.  The loops of the sweep depend on
numbers of the configuration that nothing checks, so each is followed for a number of rounds.
-/

namespace TransactionSimulator

open Concurrent Relational

/-! ## Reconciliation -/

inductive BalanceReconciliationStatus
  | MATCH
  | MISMATCH
  | STALE_OBSERVATION
  deriving DecidableEq, Repr

/-- The sweep always names a block. -/
structure BalanceReconciliationRequest where
  walletId : String
  walletAddress : String
  walletChainId : Nat
  tokenId : String
  blockchain : Blockchain
  assetIdentifier : Option String
  blockNumber : Nat
  deriving DecidableEq, Repr

structure BalanceReconciliationResult where
  status : BalanceReconciliationStatus
  blockchain : Blockchain
  walletId : String
  tokenId : String
  persisted : Option TokenBalance
  chain : TokenBalance
  deriving DecidableEq, Repr

/-- `Errors.walletTokenChainMismatch`. -/
def walletTokenChainMismatch (walletChainId : Nat) (tokenBlockchain : Blockchain) : JsError :=
  .appError 400 "WALLET_TOKEN_CHAIN_MISMATCH"
    ("Wallet (chainId " ++ toString walletChainId ++ ") is not on the same chain as the " ++
      tokenBlockchain.name ++ " token")
    [("walletChainId", toString walletChainId), ("tokenBlockchain", tokenBlockchain.name)]

namespace BalanceReconciliationService

/-- How a snapshot compares with what the chain says. -/
def status : Option TokenBalance → TokenBalance → BalanceReconciliationStatus
  | none, _ => .MISMATCH
  | some persisted, chain =>
    if chain.blockNumber < persisted.blockNumber then .STALE_OBSERVATION
    else if persisted.balance = chain.balance then .MATCH
    else .MISMATCH

/-- The snapshot is read first, then the chain; the two reads are answered with `persisted` and `chain`. -/
def reconcile (env : ProcessEnv) (registry : BlockchainAdapterRegistry)
    (persisted : Except JsError (Option TokenBalance)) (chain : Except JsError TokenBalance)
    (request : BalanceReconciliationRequest) : Except JsError BalanceReconciliationResult := do
  if (← blockchainForChainId env request.walletChainId) ≠ some request.blockchain then
    throw (walletTokenChainMismatch request.walletChainId request.blockchain)
  else
    let _ ← registry.get request.blockchain
    let persisted ← persisted
    let chain ← chain
    return { status := status persisted chain, blockchain := request.blockchain,
             walletId := request.walletId, tokenId := request.tokenId, persisted, chain }

end BalanceReconciliationService

/-! ## The state and the calls -/

inductive BalanceCheckResult
  | match
  | drift
  | stale_observation
  | unverified
  deriving DecidableEq, Repr

def BALANCE_CHECK_RESULTS : List BalanceCheckResult := [.match, .drift, .stale_observation, .unverified]

/-- `Object.values(Blockchain)`. -/
def Blockchain.values : List Blockchain := [.EVM, .BITCOIN, .SOLANA]

abbrev ResultCounts := BalanceCheckResult → Nat

def emptyCounts : ResultCounts := fun _ => 0

structure BalanceDriftSweepSummary where
  checked : Nat := 0
  byBlockchain : Blockchain → Option ResultCounts := fun _ => none

/-- The count of a chain and a result; without an entry, `emptyCounts()`. -/
def BalanceDriftSweepSummary.count (summary : BalanceDriftSweepSummary) (blockchain : Blockchain) :
    ResultCounts :=
  (summary.byBlockchain blockchain).getD emptyCounts

inductive SnapshotKey
  | id (id : String)
  | walletToken (walletId tokenId : String)
  deriving DecidableEq

def SnapshotForReconciliation.keys (row : SnapshotForReconciliation) : List SnapshotKey :=
  [.id row.id, .walletToken row.walletId row.tokenId]

/-- The snapshots, and the two gauges of the sweep.  Ids are generated, so none is the empty text. -/
structure DriftWorld where
  snapshots : Table SnapshotForReconciliation SnapshotKey SnapshotForReconciliation.keys
  named : ∀ row ∈ snapshots.rows, row.id ≠ ""
  balanceReconciliationSnapshots : Blockchain → ResultCounts
  balanceReconciliationLastSweepTimestamp : Option Rat

inductive DriftLog
  | no_cursor (walletId tokenId : String)
  | detected (walletId tokenId symbol : String) (blockchain : Blockchain) (frontier : Nat)
      (persisted : Option TokenBalance) (chain : TokenBalance)
  | check_failed (walletId tokenId : String) (blockchain : Blockchain) (error : String)
  | completed (summary : BalanceDriftSweepSummary)

inductive DriftOp
  | findMany (afterId : Option String) (take : Int)
  | findByTokenId (tokenId : String)
  | reconcile (request : BalanceReconciliationRequest)
  | log (entry : DriftLog)
  | setSnapshots (blockchain : Blockchain) (result : BalanceCheckResult) (value : Nat)
  | setLastSweepTimestamp

@[reducible] def DriftOp.Res : DriftOp → Type
  | findMany _ _ => List SnapshotForReconciliation
  | findByTokenId _ => Option TokenEventCursor
  | reconcile _ => BalanceReconciliationResult
  | log _ => Unit
  | setSnapshots _ _ _ => Unit
  | setLastSweepTimestamp => Unit

/-- What the outside decides at a call: the cursor as the listener has it then, what the two reads of a
reconciliation are answered, the clock, and whether a query fails. -/
structure DriftInput where
  env : ProcessEnv := fun _ => none
  registry : BlockchainAdapterRegistry := blockchainAdapterRegistry
  cursor : Option TokenEventCursor := none
  persisted : Except JsError (Option TokenBalance) := .ok none
  chain : Except JsError TokenBalance := .ok ⟨0, 0⟩
  now : Date := 0
  fault : Option String := none

instance : Inhabited DriftInput := ⟨{}⟩

namespace DriftWorld

/-- `findMany` with `orderBy: { id: 'asc' }`.  Behind a row, `skip: 1` leaves the row itself out; a negative
`take` counts back from it; behind a row that does not exist there is nothing. -/
def page (w : DriftWorld) (afterId : Option String) (take : Int) : List SnapshotForReconciliation :=
  if afterId.all fun id => (w.snapshots.get (.id id)).isSome then
    if 0 ≤ take then Paging.next (fun row => row.id) w.snapshots.rows afterId take.toNat
    else Paging.previous (fun row => row.id) w.snapshots.rows afterId take.natAbs
  else []

end DriftWorld

/-- An array has less than `2 ^ 32` elements.  Logging and setting a gauge do not fail. -/
def DriftOp.exec (o : DriftOp) (i : DriftInput) (w : DriftWorld) : Except JsError o.Res × DriftWorld :=
  match o with
  | findMany afterId take =>
    match i.fault with
    | some message => (.error (.error message), w)
    | none =>
      if 2 ^ 32 ≤ (w.page afterId take).length then (.error (.error "Invalid array length"), w)
      else (.ok (w.page afterId take), w)
  | findByTokenId _ =>
    match i.fault with
    | some message => (.error (.error message), w)
    | none => (.ok i.cursor, w)
  | reconcile request =>
    (BalanceReconciliationService.reconcile i.env i.registry i.persisted i.chain request, w)
  | log _ => (.ok (), w)
  | setSnapshots blockchain result value =>
    (.ok (), { w with balanceReconciliationSnapshots := fun chain r =>
      if chain = blockchain ∧ r = result then value else w.balanceReconciliationSnapshots chain r })
  | setLastSweepTimestamp => (.ok (), { w with balanceReconciliationLastSweepTimestamp := some (i.now / 1000) })

abbrev DriftProgram (α : Type) := Prog DriftOp DriftOp.Res JsError α

/-- `(afterId ? …)` drops the empty text. -/
def BalanceRepository.findPageForReconciliation (afterId : Option String) (take : Js.Number) :
    DriftProgram (List SnapshotForReconciliation) := do
  let take ← Prog.ofExcept (TransactionRepository.intArgument take)
  Prog.perform (DriftOp.findMany (if Js.isFalsy afterId then none else afterId) take)

/-! ## The processor -/

structure BalanceDriftProcessor where
  pageSize : Js.Number := .finite 200
  concurrency : Js.Number := .finite 5

/-- `Number(process.env.BALANCE_DRIFT_PAGE_SIZE ?? 200)`, and so on. -/
def createBalanceDriftProcessor (env : ProcessEnv) : BalanceDriftProcessor where
  pageSize := ((env "BALANCE_DRIFT_PAGE_SIZE").map Js.toNumber).getD (.finite 200)
  concurrency := ((env "BALANCE_DRIFT_CONCURRENCY").map Js.toNumber).getD (.finite 5)

/-- The cursors that a sweep has read; `none` for a token that has no frontier. -/
abbrev FrontierCache := List (String × Option Nat)

/-- Whose turn it is while the cursors of a batch are read, and while its rows are checked. -/
structure BatchTurns where
  frontiers : List Nat := []
  checks : List Nat := []

namespace BalanceDriftProcessor

/-- A cursor at 0 is no frontier. -/
def frontierOf (cursor : Option TokenEventCursor) : Option Nat :=
  (cursor.filter fun c => 0 < c.lastProcessedBlock).map fun c => c.lastProcessedBlock

/-- The entry that `resolveFrontier` adds to the cache. -/
def resolveFrontier (cache : FrontierCache) (tokenId : String) : DriftProgram FrontierCache := do
  if (cache.lookup tokenId).isSome then return []
  else
    let cursor ← Prog.perform (DriftOp.findByTokenId tokenId)
    return [(tokenId, frontierOf cursor)]

def checkOne (row : SnapshotForReconciliation) (frontier : Option Nat) : DriftProgram BalanceCheckResult :=
  match frontier with
  | none => do
    Prog.perform (DriftOp.log (.no_cursor row.walletId row.tokenId))
    return .unverified
  | some frontier =>
    tryCatch (do
      let result ← Prog.perform (DriftOp.reconcile
        { walletId := row.walletId, walletAddress := row.address, walletChainId := row.chainId,
          tokenId := row.tokenId, blockchain := row.blockchain, assetIdentifier := row.contractAddress,
          blockNumber := frontier })
      match result.status with
      | .MATCH => return .match
      | .STALE_OBSERVATION => return .stale_observation
      | .MISMATCH =>
        Prog.perform (DriftOp.log (.detected row.walletId row.tokenId row.symbol row.blockchain frontier
          result.persisted result.chain))
        return .drift) fun error => do
      Prog.perform (DriftOp.log (.check_failed row.walletId row.tokenId row.blockchain error.message))
      return .unverified

def tally (summary : BalanceDriftSweepSummary) (blockchain : Blockchain) (result : BalanceCheckResult) :
    BalanceDriftSweepSummary where
  checked := summary.checked + 1
  byBlockchain chain :=
    if chain = blockchain then
      some fun r => summary.count blockchain r + if r = result then 1 else 0
    else summary.byBlockchain chain

/-- One batch: first the cursors of its tokens, then its rows. -/
def checkBatch (turns : BatchTurns) (batch : List SnapshotForReconciliation) (frontier : FrontierCache)
    (summary : BalanceDriftSweepSummary) : DriftProgram (FrontierCache × BalanceDriftSweepSummary) := do
  let tokenIds := (batch.map fun row => row.tokenId).eraseDups
  let resolved ← Prog.promiseAll turns.frontiers (tokenIds.map (resolveFrontier frontier))
  let frontier := frontier ++ resolved.flatten
  let results ← Prog.promiseAll turns.checks
    (batch.map fun row => checkOne row (frontier.lookup row.tokenId).join)
  return (frontier, (batch.zip results).foldl
    (fun summary checked => tally summary checked.1.blockchain checked.2) summary)

/-- The loop over the batches of a page from `i` on; `none` if it has more than `rounds` of them. -/
def checkBatches (processor : BalanceDriftProcessor) (turns : Nat → BatchTurns)
    (page : List SnapshotForReconciliation) :
    (rounds : Nat) → (i : Js.Number) → FrontierCache → BalanceDriftSweepSummary →
      DriftProgram (Option (FrontierCache × BalanceDriftSweepSummary))
  | 0, _, _, _ => return none
  | rounds + 1, i, frontier, summary => do
    if i.lt (.finite page.length) then
      let (frontier, summary) ← checkBatch (turns 0) (Js.slice page i (i.add processor.concurrency))
        frontier summary
      checkBatches processor (fun n => turns (n + 1)) page rounds (i.add processor.concurrency) frontier summary
    else return some (frontier, summary)

/-- The loop over the pages from `afterId` on; `none` if one of the loops has more than `rounds` rounds. -/
def sweepPages (processor : BalanceDriftProcessor) (turns : Nat → Nat → BatchTurns) (rounds : Nat) :
    (pages : Nat) → (afterId : Option String) → FrontierCache → BalanceDriftSweepSummary →
      DriftProgram (Option BalanceDriftSweepSummary)
  | 0, _, _, _ => return none
  | pages + 1, afterId, frontier, summary => do
    let page ← BalanceRepository.findPageForReconciliation afterId processor.pageSize
    if page.isEmpty then return some summary
    else
      match ← processor.checkBatches (turns 0) page rounds (.finite 0) frontier summary with
      | none => return none
      | some (frontier, summary) =>
        if (Js.Number.finite page.length).lt processor.pageSize then return some summary
        else
          sweepPages processor (fun n => turns (n + 1)) rounds pages (page.getLast?.map fun row => row.id)
            frontier summary

def publish (summary : BalanceDriftSweepSummary) : DriftProgram Unit := do
  Prog.forEach (fun (series : Blockchain × BalanceCheckResult) =>
      Prog.perform (DriftOp.setSnapshots series.1 series.2 (summary.count series.1 series.2)))
    (Blockchain.values.flatMap fun blockchain => BALANCE_CHECK_RESULTS.map fun result => (blockchain, result))
  Prog.perform DriftOp.setLastSweepTimestamp
  Prog.perform (DriftOp.log (.completed summary))

def sweep (processor : BalanceDriftProcessor) (turns : Nat → Nat → BatchTurns) (rounds : Nat) :
    DriftProgram (Option BalanceDriftSweepSummary) := do
  match ← processor.sweepPages turns rounds rounds none [] {} with
  | none => return none
  | some summary =>
    publish summary
    return some summary

end BalanceDriftProcessor

end TransactionSimulator
