import TransactionSimulator.Blockchain.WalletAddress
import TransactionSimulator.Indexer.LogWindows

/-!
# The event listener

`TransferEventService.handleTransferEvent` and `processTokenEvents`.  A listener process is
named; the variables of its module (`processingTokens`, `learnedMaxBlockRange`) are kept under
that name.
-/

namespace TransactionSimulator

open Concurrent

namespace TransferEventService

/-- `requireContractAddress`. -/
def requireContractAddress (contractAddress : Option String) : Except JsError String :=
  if Js.isFalsy contractAddress then
    .error (.error "Token contract address is required for EVM token operations")
  else .ok (contractAddress.getD "")

/-- `BalanceSyncService.sync` with the EVM balance reader. -/
def sync (wallet : Wallet) (tokenId tokenAddress : String) (blockNumber : Nat) :
    Program Unit := do
  let balance ← Prog.perform (Call.balanceOf tokenAddress wallet.address blockNumber)
  let _ ← BalanceRepository.upsert wallet.id tokenId balance blockNumber

def syncWalletBalance (env : ProcessEnv) (address tokenId tokenAddress : String)
    (blockNumber : Nat) : Program Unit := do
  let chainId ← Prog.ofExcept (getEvmChainId env)
  match ← WalletRepository.findByAddress env chainId address with
  | none => return ()
  | some wallet => sync wallet tokenId tokenAddress blockNumber

/-- `TransferRepository.create` unless the event has a row. -/
def record (token : Token) (log : TransferLog) (blockNumber : Nat) : Program Unit := do
  match ← TransferRepository.findByTransactionHashAndLogIndex log.transactionHash log.logIndex with
  | some _ => Prog.perform (Call.emit (.log "SKIPPING EXISTING TRANSFER"))
  | none =>
    let _ ← TransferRepository.create
      { tokenId := token.id, fromAddress := log.fromAddress, toAddress := log.toAddress,
        amount := log.value, transactionHash := log.transactionHash, logIndex := log.logIndex,
        blockNumber := blockNumber }

def handleTransferEvent (env : ProcessEnv) (log : TransferLog) (blockNumber : Nat) :
    Program Unit := do
  match ← TokenRepository.findByContractAddress log.address with
  | none => throw (.error "Token not registered")
  | some token =>
    record token log blockNumber
    let contract ← Prog.ofExcept (requireContractAddress token.contractAddress)
    syncWalletBalance env (Js.toLowerCase log.fromAddress) token.id contract blockNumber
    syncWalletBalance env (Js.toLowerCase log.toAddress) token.id contract blockNumber

end TransferEventService

namespace EventListener

/-- `onWindow`: every log, then the cursor. -/
def onWindow (env : ProcessEnv) (token : Token) (logs : List (TransferLog × Nat))
    (_start last : Int) : Program Unit := do
  Prog.forEach (fun log => TransferEventService.handleTransferEvent env log.1 log.2) logs
  let _ ← TokenEventCursorRepository.markSuccess token.id last.toNat

/-- `fromBlock`: a cursor at 0 is fresh, any other one is started a block early. -/
def fromBlock (config : EvmIndexerConfig) (cursor : TokenEventCursor) : Int :=
  if cursor.lastProcessedBlock = 0 then config.startBlock else cursor.lastProcessedBlock - 1

/-- The part of `processTokenEvents` that runs once the cursor is loaded. -/
def indexFrom (listener : String) (env : ProcessEnv) (config : EvmIndexerConfig) (token : Token)
    (cursor : TokenEventCursor) : Program Unit := do
  let currentBlock ← Prog.perform Call.getBlockNumber
  let indexableHead : Int := currentBlock - config.confirmations
  if indexableHead < fromBlock config cursor then return ()
  else
    let learned ← Prog.perform (Call.learnedMaxBlockRange listener)
    let _ ← scanLogWindows
      (fun start last =>
        Prog.perform (Call.getLogs token.contractAddress start last))
      (onWindow env token)
      (fun newRange _ => Prog.perform (Call.learnMaxBlockRange listener newRange))
      (fromBlock config cursor) indexableHead (learned.getD config.maxBlockRange)
      config.maxWindowsPerRun

/-- The `try` block of `processTokenEvents`, with the part of its `catch` block that records the
failure on a cursor that was loaded. -/
def processToken (listener : String) (env : ProcessEnv) (databaseTokenId : String) :
    Program Unit := do
  match ← prisma.stmt (.tokenFindUnique databaseTokenId) with
  | none => throw (.error ("Token " ++ databaseTokenId ++ " not found"))
  | some token =>
    if token.blockchain ≠ .EVM then return ()
    else
      let config ← Prog.ofExcept (loadEvmIndexerConfig env)
      let cursor ← TokenEventCursorRepository.getOrCreate databaseTokenId
      tryCatch (indexFrom listener env config token cursor) fun error => do
        tryCatch (do let _ ← TokenEventCursorRepository.markFailure databaseTokenId)
          fun _ => return ()
        throw error

def processTokenEvents (listener : String) (env : ProcessEnv) (databaseTokenId : String) :
    Program Unit := do
  let added ← Prog.perform (Call.processingAdd listener databaseTokenId)
  if added then
    Prog.tryFinally (processToken listener env databaseTokenId)
      (Prog.perform (Call.processingDelete listener databaseTokenId))
  else return ()

end EventListener

end TransactionSimulator
