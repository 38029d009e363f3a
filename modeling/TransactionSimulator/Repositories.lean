import TransactionSimulator.World

/-!
# Repositories

The classes of `repositories/` that the modelled services use.  `transition` and `confirm` take
the client they are given, `tx ?? prisma` in the source.
-/

namespace TransactionSimulator

open Concurrent TransactionStatus

namespace TransactionRepository

section Client

variable {m : Type → Type} [Monad m] [MonadExcept JsError m]

/-- What both transition functions do once their update has matched no row: the row is gone, or
is in another status than the update asked for. -/
def rejectTransition (client : Client m) (transactionId : String)
    (expected : Transaction → TransactionStatus) : m Transaction := do
  match ← client.stmt (.transactionFindUnique (.id transactionId)) with
  | none => throw (.error ("Transaction " ++ transactionId ++ " not found"))
  | some transaction => throw (.transactionStateConflict transactionId (expected transaction))

def transition (client : Client m) (transactionId : String) (source target : TransactionStatus)
    (data : TransactionUpdateInput) : m Transaction := do
  match TransactionStateMachine.assertTransition source target with
  | .error e => throw e
  | .ok () =>
    let count ← client.stmt
      (.transactionUpdateMany transactionId [source] { data with status := some target })
    if count = 1 then
      client.stmt (.transactionFindUniqueOrThrow (.id transactionId))
    else
      -- the error names the status the caller expected
      rejectTransition client transactionId fun _ => source

/-- `for (const source of from) assertTransition(source, to)`. -/
def assertTransitions (sources : List TransactionStatus) (target : TransactionStatus) :
    Except JsError Unit :=
  sources.forM fun source => TransactionStateMachine.assertTransition source target

def transitionFromAny (client : Client m) (transactionId : String)
    (sources : List TransactionStatus) (target : TransactionStatus)
    (data : TransactionUpdateInput) : m Transaction := do
  match assertTransitions sources target with
  | .error e => throw e
  | .ok () =>
    let count ← client.stmt
      (.transactionUpdateMany transactionId sources { data with status := some target })
    if count = 1 then
      client.stmt (.transactionFindUniqueOrThrow (.id transactionId))
    else
      -- here the error names the status the row is in
      rejectTransition client transactionId fun transaction => transaction.status

def confirm (client : Client m) (txHash : String) (blockNumber gasUsed : Option Nat) :
    m Transaction := do
  match ← client.stmt (.transactionFindUnique (.txHash txHash)) with
  | none => throw (.error ("Transaction with hash " ++ txHash ++ " not found"))
  | some transaction =>
    let confirmedAt ← client.now
    transition client transaction.id CONFIRMING CONFIRMED
      { blockNumber := some blockNumber, gasUsed := some gasUsed, confirmedAt := some confirmedAt }

end Client

def create (data : TransactionCreateInput) : Program Transaction :=
  prisma.stmt (.transactionCreate data)

def markSubmitted (transactionId txHash : String) : Program Transaction := do
  let submittedAt ← prisma.now
  transition prisma transactionId PENDING SUBMITTED
    { txHash := some txHash, submittedAt := some submittedAt }

def markConfirming (transactionId : String) : Program Transaction := do
  let confirmationStartedAt ← prisma.now
  transition prisma transactionId SUBMITTED CONFIRMING
    { confirmationStartedAt := some confirmationStartedAt }

def markFailed (id reason : String) : Program Transaction := do
  let failedAt ← prisma.now
  transitionFromAny prisma id [PENDING, CONFIRMING] FAILED
    { failureReason := some reason, failedAt := some failedAt }

def expire (transactionId reason : String) : Program Transaction := do
  let failedAt ← prisma.now
  transition prisma transactionId CONFIRMING EXPIRED
    { failureReason := some reason, failedAt := some failedAt }

def findById (id tenantId : String) : Program (Option (Transaction × Token)) :=
  prisma.stmt (.transactionFindById id tenantId)

/-- `findById` with the wallets that it includes too. -/
def findByIdWithAll (id tenantId : String) : Program (Option TransactionWithAll) :=
  prisma.stmt (.transactionFindByIdWithAll id tenantId)

/-- Prisma takes 64-bit integers for `skip` and `take`, and drops the fraction of a number. -/
def intArgument (n : Js.Number) : Except JsError Int :=
  match n.trunc? with
  | some i => if fitsBigInt i then .ok i else .error invalidArgument
  | none => .error invalidArgument

theorem trunc?_of_intArgument {n : Js.Number} {i : Int} (h : intArgument n = .ok i) : n.trunc? = some i := by
  rw [intArgument] at h
  split at h
  · next j hj =>
    split at h
    · rw [hj, Except.ok.inj h]
    · cases h
  · cases h

/-- The rows from `(page - 1) * limit` on, as many as `limit` says. -/
def pageArguments (page limit : Js.Number) : Except JsError (Int × Int) := do
  let skip ← intArgument ((page.sub (.finite 1)).mul limit)
  let take ← intArgument limit
  return (skip, take)

def findAll (tenantId : String) (page limit : Js.Number) : Program (List TransactionWithAll) := do
  let (skip, take) ← Prog.ofExcept (pageArguments page limit)
  prisma.stmt (.transactionFindPage tenantId skip take)

/-- The `where` of `findExpiredCandidates`. -/
def isExpiredCandidate (expirationBefore : Date) (t : Transaction) : Bool :=
  t.status = CONFIRMING && t.confirmationStartedAt.any fun startedAt => startedAt ≤ expirationBefore

def findExpiredCandidates (expirationBefore : Date) (limit : Nat := 100) :
    Program (List Transaction) :=
  prisma.stmt (.transactionFindMany (isExpiredCandidate expirationBefore)
    (fun t => t.confirmationStartedAt) limit)

/-- The `where` of `findSubmittedCandidates`. -/
def isSubmittedCandidate (t : Transaction) : Bool := t.status = SUBMITTED && t.txHash.isSome

def findSubmittedCandidates (limit : Nat := 100) : Program (List Transaction) :=
  prisma.stmt (.transactionFindMany isSubmittedCandidate (fun t => t.submittedAt) limit)

/-- The `where` of `findOrphanedPendingCandidates`. -/
def isOrphanedPendingCandidate (olderThan : Int) (t : Transaction) : Bool :=
  t.status = PENDING && decide ((t.createdAt : Int) ≤ olderThan)

def findOrphanedPendingCandidates (olderThan : Int) (limit : Nat := 100) :
    Program (List (Transaction × Wallet × Wallet)) :=
  prisma.stmt (.transactionFindManyWithWallets (isOrphanedPendingCandidate olderThan)
    (fun t => some t.createdAt) limit)

end TransactionRepository

namespace OutboxEventRepository

/-- `createInTransaction`; `OutboxEventService` passes its arguments on. -/
def createInTransaction {m : Type → Type} (tx : Client m) (aggregateId type : String)
    (payload : ConfirmedPayload) : m OutboxEvent :=
  tx.stmt (.outboxEventCreate { aggregateId, type, payload, published := false })

end OutboxEventRepository

namespace TransferRepository

def create (data : TokenTransferCreateInput) : Program TokenTransfer :=
  prisma.stmt (.tokenTransferUpsert data)

def findByTransactionHashAndLogIndex (transactionHash : String) (logIndex : Nat) :
    Program (Option TokenTransfer) :=
  prisma.stmt (.tokenTransferFindUnique transactionHash logIndex)

/-- The `where` of `findMatchingTransfer`: texts are compared as they are spelled. -/
def matchesTransfer (tokenId fromAddress toAddress : String) (amount : Int) (notBefore : Date)
    (t : TokenTransfer) : Bool :=
  t.tokenId = tokenId && t.fromAddress = fromAddress && t.toAddress = toAddress &&
    t.amount = amount && decide (notBefore ≤ t.createdAt)

def findMatchingTransfer (tokenId fromAddress toAddress : String) (amount : Int)
    (notBefore : Date) : Program (Option TokenTransfer) :=
  prisma.stmt (.tokenTransferFindFirst
    (matchesTransfer tokenId fromAddress toAddress amount notBefore))

end TransferRepository

namespace TokenEventCursorRepository

def getOrCreate (tokenId : String) : Program TokenEventCursor :=
  prisma.stmt (.tokenEventCursorUpsert tokenId)

def markSuccess (tokenId : String) (blockNumber : Nat) : Program TokenEventCursor := do
  let now ← prisma.now
  prisma.stmt (.tokenEventCursorUpdate tokenId
    { lastProcessedBlock := some blockNumber, lastSuccessfulSync := some now,
      failureCount := fun _ => 0 })

def markFailure (tokenId : String) : Program TokenEventCursor := do
  let now ← prisma.now
  prisma.stmt (.tokenEventCursorUpdate tokenId
    { lastFailedSync := some now, failureCount := (· + 1) })

def findByTokenId (tokenId : String) : Program (Option TokenEventCursor) :=
  prisma.stmt (.tokenEventCursorFindUnique tokenId)

end TokenEventCursorRepository

namespace TokenRepository

def findById (id : String) : Program (Option Token) := prisma.stmt (.tokenFindUnique id)

/-- The lookup of an event's contract, an EVM one: case is ignored. -/
def findByContractAddress (contractAddress : String) : Program (Option Token) :=
  prisma.stmt (.tokenFindFirst fun t => t.contractAddress.any fun a =>
    Js.toLowerCase a = Js.toLowerCase contractAddress)

end TokenRepository

namespace BalanceRepository

def upsert (walletId tokenId : String) (balance blockNumber : Nat) : Program BalanceSnapshot := do
  let updated ← prisma.stmt (.balanceSnapshotUpdateMany walletId tokenId balance blockNumber)
  if updated > 0 then
    prisma.stmt (.balanceSnapshotFindUniqueOrThrow walletId tokenId)
  else
    tryCatch (prisma.stmt (.balanceSnapshotCreate walletId tokenId balance blockNumber))
      fun error =>
        match error with
        | .prisma "P2002" _ => prisma.stmt (.balanceSnapshotFindUniqueOrThrow walletId tokenId)
        | _ => throw error

def findByWallet (walletId : String) : Program (List (BalanceSnapshot × Token)) :=
  prisma.stmt (.balanceSnapshotFindByWallet walletId)

end BalanceRepository

end TransactionSimulator
