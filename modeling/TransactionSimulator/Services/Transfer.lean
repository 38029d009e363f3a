import TransactionSimulator.Repositories

/-!
# Submitting a transfer

`LedgerService` and `TransferService.transfer`, with the lookups of `TokenService` and
`WalletService` that it makes first.
-/

namespace TransactionSimulator

open Concurrent Queueing

/-- `dto/transfer.ts`. -/
structure TransferRequest where
  tenantId : String
  userId : String
  tokenId : String
  fromWalletId : String
  toWalletId : String
  amount : Int
  deriving DecidableEq, Repr

def incrementMetric (name tenantId tokenId : String) : Program Unit :=
  .perform (Call.emit (.metric name tenantId tokenId))

/-- The `defaultJobOptions` of `transactionConfirmationQueue`. -/
def defaultJobOptions (backoffDelayMs : Nat) : JobOptions :=
  { attempts := 5, backoffDelay := backoffDelayMs, removeOnComplete := true, removeOnFail := false }

/-- `transactionConfirmationQueue.add(JOBS.CONFIRM_TRANSACTION, data, opts)`. -/
def addConfirmationJob (transaction : Transaction) (opts : JobOptions) : Program Unit :=
  .perform (Call.queueAdd ⟨transaction.id, transaction.tenantId⟩ opts)

namespace TokenService

def getToken (id : String) : Program Token := do
  match ← TokenRepository.findById id with
  | none => throw (Errors.tokenNotFound (some id))
  | some token => return token

end TokenService

namespace WalletService

def getWalletById (id : String) : Program (Option Wallet) := prisma.stmt (.walletFindUnique id)

def getCustodyStatus (walletId : String) : Program WalletCustodyStatus := do
  match ← prisma.stmt (.walletFindUnique walletId) with
  | none => throw (Errors.walletNotFound (some walletId))
  | some wallet => return ⟨wallet.custodyType, wallet.hasCustodyKey⟩

end WalletService

namespace LedgerService

def createPending (request : TransferRequest) (fromWallet toWallet : Wallet) :
    Program Transaction := do
  let transaction ← TransactionRepository.create
    { tenantId := request.tenantId, tokenId := request.tokenId, fromWalletId := fromWallet.id,
      toWalletId := toWallet.id, amount := request.amount, status := .PENDING }
  incrementMetric "transactions_created_total" transaction.tenantId transaction.tokenId
  return transaction

def markSubmitted (id txHash : String) : Program Transaction :=
  TransactionRepository.markSubmitted id txHash

def markFailed (id reason : String) : Program Transaction :=
  TransactionRepository.markFailed id reason

end LedgerService

namespace TransferService

/-- The checks before anything is written: the token, the two wallets, and the adapter that can
sign for the sending wallet. -/
def prepare (registry : BlockchainAdapterRegistry) (request : TransferRequest) :
    Program (Token × Wallet × Wallet) := do
  let token ← TokenService.getToken request.tokenId
  match ← WalletService.getWalletById request.fromWalletId with
  | none => throw (Errors.walletNotFound none)
  | some fromWallet =>
    if fromWallet.tenantId ≠ request.tenantId || fromWallet.ownerId ≠ request.userId then
      throw (Errors.walletNotFound none)
    else
      match ← WalletService.getWalletById request.toWalletId with
      | none => throw (Errors.walletNotFound none)
      | some toWallet =>
        let adapter ← Prog.ofExcept (registry.get token.blockchain)
        let custody ← WalletService.getCustodyStatus fromWallet.id
        if adapter.canSign custody then return (token, fromWallet, toWallet)
        else throw (Errors.walletNotCustodial (some fromWallet.id))

/-- The rest of the `try` block once the ledger row exists: broadcast, record the hash, enqueue
the confirmation job. -/
def submit (backoffDelayMs : Nat) (request : TransferRequest) (token : Token)
    (fromWallet toWallet : Wallet) (transaction : Transaction) : Program Transaction := do
  let hash ← Prog.perform (Call.submitTransfer token.blockchain
    { tenantId := request.tenantId, walletId := fromWallet.id, toAddress := toWallet.address,
      amount := request.amount, assetIdentifier := token.contractAddress })
  incrementMetric "transactions_submitted_total" transaction.tenantId transaction.tokenId
  let submitted ← LedgerService.markSubmitted transaction.id hash
  addConfirmationJob submitted (defaultJobOptions backoffDelayMs)
  return submitted

def transfer (registry : BlockchainAdapterRegistry) (backoffDelayMs : Nat)
    (request : TransferRequest) : Program Transaction := do
  let (token, fromWallet, toWallet) ← prepare registry request
  -- `createPending` stands in the `try` block too, but `transactionId` is not set before it has
  -- returned, so the `catch` block throws its error on
  let transaction ← LedgerService.createPending request fromWallet toWallet
  tryCatch (submit backoffDelayMs request token fromWallet toWallet transaction) fun error =>
    if transaction.id = "" then throw error
    else LedgerService.markFailed transaction.id error.message

end TransferService

end TransactionSimulator
