import TransactionSimulator.Workers.Confirmation

/-!
# The scheduled passes over the ledger

`ExpirationProcessor`, `SubmissionRecoveryProcessor` and `PendingRecoveryProcessor`.
-/

namespace TransactionSimulator

open Concurrent Queueing TransactionStatus

namespace ExpirationProcessor

def expire (transaction : Transaction) : Program Unit :=
  tryCatch (do
    let _ ← TransactionRepository.expire transaction.id "Transaction confirmation timeout exceeded"
    Prog.perform (Call.emit (.log "transaction.expired"))) fun error =>
    match error with
    | .transactionStateConflict _ _ => Prog.perform (Call.emit (.log "transaction.expiration.stale"))
    | _ => do
      Prog.perform (Call.emit (.log "transaction.expiration.failed"))
      throw error

def processExpiredTransactions (expirationBefore : Date) : Program Nat := do
  let transactions ← TransactionRepository.findExpiredCandidates expirationBefore
  Prog.forEach expire transactions
  return transactions.length

end ExpirationProcessor

/-- The options of a confirmation job that a recovery pass adds: the id is determined by the
transaction, so that two passes do not enqueue it twice. -/
def recoveryJobOptions (transactionId : String) : JobOptions :=
  { jobId := some ("confirm-" ++ transactionId), attempts := 5, backoffDelay := 5000,
    removeOnComplete := true, removeOnFail := false }

namespace SubmissionRecoveryProcessor

def recover (transaction : Transaction) : Program Unit :=
  tryCatch (do
    addConfirmationJob transaction (recoveryJobOptions transaction.id)
    Prog.perform (Call.emit (.log "transaction.submission.recovery.enqueued"))) fun _ =>
    Prog.perform (Call.emit (.log "transaction.submission.recovery.failed"))

def processSubmittedTransactions : Program Unit := do
  let transactions ← TransactionRepository.findSubmittedCandidates
  Prog.forEach recover transactions

end SubmissionRecoveryProcessor

/-- The constructor arguments of `PendingRecoveryProcessor`, in milliseconds. -/
structure PendingRecoveryProcessor where
  graceMs : Nat
  failAfterMs : Nat
  listenerStalenessMs : Nat

namespace PendingRecoveryProcessor

def isEventListenerHealthy (processor : PendingRecoveryProcessor) (tokenId : String) :
    Program Bool := do
  match ← TokenEventCursorRepository.findByTokenId tokenId with
  | none => return false
  | some cursor =>
    match cursor.lastSuccessfulSync with
    | none => return false
    | some lastSuccessfulSync =>
      let now ← prisma.now
      return decide ((now : Int) - lastSuccessfulSync ≤ processor.listenerStalenessMs)

def adopt (transaction : Transaction) (txHash : String) : Program Unit := do
  let _ ← TransactionRepository.markSubmitted transaction.id txHash
  addConfirmationJob transaction (recoveryJobOptions transaction.id)
  Prog.perform (Call.emit (.log "transaction.pending.recovery.adopted"))

def fail (transaction : Transaction) : Program Unit := do
  let _ ← TransactionRepository.markFailed transaction.id
    ("Orphaned in PENDING: no matching on-chain transfer found after the recovery window. " ++
      "Likely a process crash before submission completed.")
  Prog.perform (Call.emit (.log "transaction.pending.recovery.failed_no_evidence"))

def recoverOne (processor : PendingRecoveryProcessor)
    (orphan : Transaction × Wallet × Wallet) : Program Unit :=
  let (transaction, fromWallet, toWallet) := orphan
  tryCatch (do
    match ← TransferRepository.findMatchingTransfer transaction.tokenId fromWallet.address
        toWallet.address transaction.amount transaction.createdAt with
    | some found => adopt transaction found.transactionHash
    | none =>
      let now ← prisma.now
      if (now : Int) - transaction.createdAt < processor.failAfterMs then return ()
      else
        let listenerHealthy ← processor.isEventListenerHealthy transaction.tokenId
        if listenerHealthy then fail transaction
        else
          Prog.perform
            (Call.emit (.log "transaction.pending.recovery.deferred.listener_stale"))) fun _ =>
    Prog.perform (Call.emit (.log "transaction.pending.recovery.failed"))

def processOrphanedPending (processor : PendingRecoveryProcessor) : Program Unit := do
  let now ← prisma.now
  let candidates ← TransactionRepository.findOrphanedPendingCandidates
    ((now : Int) - processor.graceMs)
  Prog.forEach processor.recoverOne candidates

end PendingRecoveryProcessor

end TransactionSimulator
