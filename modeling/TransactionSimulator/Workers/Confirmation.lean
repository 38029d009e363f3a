import TransactionSimulator.Services.Transfer

/-!
# The confirmation worker

`ConfirmationProcessor` and the queue worker that calls it for a job.
-/

namespace TransactionSimulator

open Concurrent TransactionStatus

namespace ConfirmationProcessor

def logStaleConfirmation : Program Unit :=
  .perform (Call.emit (.log "transaction.confirmation.stale"))

/-- `throw new Error(…)` for a row that has disappeared. -/
def notFound {α : Type} (transactionId : String) : Program α :=
  throw (.error ("Transaction " ++ transactionId ++ " not found"))

/-- After a conflict the row is read again; `false` if it has reached a terminal status.
`claims`: a row that is already CONFIRMING counts as claimed. -/
def rereadAfterConflict (tx : Transaction) (error : JsError) (claims : Bool) : Program Bool := do
  match ← TransactionRepository.findById tx.id tx.tenantId with
  | none => notFound tx.id
  | some (current, _) =>
    if current.status.isTerminal then
      logStaleConfirmation
      return false
    else if claims && current.status = CONFIRMING then return true
    else throw error

/-- Another worker may have claimed the transaction already; then this one may go on. -/
def handleStaleConfirmation (tx : Transaction) (error : JsError) : Program Bool :=
  rereadAfterConflict tx error true

def claimConfirmation (tx : Transaction) : Program Bool :=
  tryCatch (do
    let _ ← TransactionRepository.markConfirming tx.id
    return true) fun error =>
    match error with
    | .transactionStateConflict _ _ => handleStaleConfirmation tx error
    | _ => throw error

/-- The payload of the event that goes with a confirmation. -/
def confirmedPayload (confirmed : Transaction) : ConfirmedPayload where
  transactionId := confirmed.id
  tenantId := confirmed.tenantId
  tokenId := confirmed.tokenId
  txHash := confirmed.txHash
  blockNumber := confirmed.blockNumber.map toString
  amount := toString confirmed.amount
  confirmedAt := confirmed.confirmedAt.map Js.toISOString

/-- The body of the database transaction: the row and its outbox event, both or neither. -/
def persistBody (tx : Transaction) (blockchainTransaction : BlockchainTransaction) : TxM Unit := do
  match blockchainTransaction.blockNumber with
  | none =>
    throw (.error ("Confirmed transaction " ++ tx.txHash.getD "" ++ " has no block number"))
  | some blockNumber =>
    let confirmed ← TransactionRepository.confirm txClient (tx.txHash.getD "")
      (some (Js.number blockNumber)) blockchainTransaction.gasUsed
    let _ ← OutboxEventRepository.createInTransaction txClient confirmed.id
      "transaction.confirmed" (confirmedPayload confirmed)

def persistConfirmation (tx : Transaction) (blockchainTransaction : BlockchainTransaction) :
    Program Unit :=
  tryCatch (Prog.perform (Call.transaction (persistBody tx blockchainTransaction))) fun error =>
    match error with
    | .transactionStateConflict _ _ => do
      -- a terminal row ends the call without an error, any other status throws
      let _ ← rereadAfterConflict tx error false
    | _ => throw error

def handleSuccessfulTransaction (tx : Transaction) (blockchainTransaction : BlockchainTransaction) :
    Program Unit := do
  let claimed ← claimConfirmation tx
  if claimed then
    persistConfirmation tx blockchainTransaction
    incrementMetric "transactions_confirmed_total" tx.tenantId tx.tokenId
    Prog.perform (Call.emit (.log "transaction.confirmed"))
  else return ()

def markTransactionFailed (tx : Transaction) : Program Bool :=
  tryCatch (do
    let _ ← TransactionRepository.markFailed tx.id "FAILED"
    return true) fun error =>
    match error with
    | .transactionStateConflict _ _ => rereadAfterConflict tx error false
    | _ => throw error

def handleRevertedTransaction (tx : Transaction) : Program Unit := do
  let failed ← markTransactionFailed tx
  if failed then
    incrementMetric "transactions_reverted_total" tx.tenantId tx.tokenId
    Prog.perform (Call.emit (.log "transaction.reverted"))
  else return ()

/-- Errors that only say that the transaction is not there yet. -/
def isNotConfirmedYet : JsError → Bool
  | .transactionPending _ => true
  | error => Js.includes error.message "could not be found" ||
      Js.includes error.message "No such mempool or blockchain transaction"

def handleConfirmationError (tx : Transaction) (error : JsError) : Program Unit :=
  if isNotConfirmedYet error then throw error
  else do
    incrementMetric "transactions_failed_total" tx.tenantId tx.tokenId
    Prog.perform (Call.emit (.log "transaction.confirmation.failed"))
    throw error

def getBlockchainTransaction (registry : BlockchainAdapterRegistry) (tx : Transaction)
    (token : Token) : Program BlockchainTransaction := do
  let adapter ← Prog.ofExcept (registry.get token.blockchain)
  Prog.perform (Call.getTransaction adapter.chain (tx.txHash.getD ""))

def confirmTransaction (registry : BlockchainAdapterRegistry) (tx : Transaction) (token : Token) :
    Program Unit :=
  tryCatch (do
    let blockchainTransaction ← getBlockchainTransaction registry tx token
    match blockchainTransaction.status with
    | .confirmed => handleSuccessfulTransaction tx blockchainTransaction
    | .failed => handleRevertedTransaction tx
    | .pending => throw (.transactionPending (tx.txHash.getD ""))) fun error =>
    handleConfirmationError tx error

def processTransaction (registry : BlockchainAdapterRegistry) (transactionId tenantId : String) :
    Program Unit := do
  match ← TransactionRepository.findById transactionId tenantId with
  | none => notFound transactionId
  | some (transaction, token) =>
    if Js.isFalsy transaction.txHash then return ()
    else confirmTransaction registry transaction token

end ConfirmationProcessor

/-- The queue worker's attempt of a job: the processor decides whether the job is completed or
the attempt has failed. -/
def confirmationQueueWorker (registry : BlockchainAdapterRegistry) (jobId : String) :
    Program Unit := do
  match ← Prog.perform (Call.queueTake jobId) with
  | none => return ()
  | some data =>
    let succeeded ← tryCatch (do
      ConfirmationProcessor.processTransaction registry data.transactionId data.tenantId
      return true) fun _ => return false
    if succeeded then Prog.perform (Call.queueComplete jobId)
    else Prog.perform (Call.queueFail jobId)

end TransactionSimulator
