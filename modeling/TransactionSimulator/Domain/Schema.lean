import TransactionSimulator.Js
import TransactionSimulator.Lib.Table

/-!
# The rows of the database

The models of `prisma/schema.prisma` that the modelled code reads and writes, with the columns
it uses.  The unique columns of a model are the keys of its row (`Transaction.keys` and so on).
-/

namespace TransactionSimulator

inductive TransactionStatus
  | PENDING
  | SUBMITTED
  | CONFIRMING
  | CONFIRMED
  | FAILED
  | EXPIRED
  deriving DecidableEq, Repr

def TransactionStatus.name : TransactionStatus → String
  | PENDING => "PENDING"
  | SUBMITTED => "SUBMITTED"
  | CONFIRMING => "CONFIRMING"
  | CONFIRMED => "CONFIRMED"
  | FAILED => "FAILED"
  | EXPIRED => "EXPIRED"

inductive Blockchain
  | EVM
  | BITCOIN
  | SOLANA
  deriving DecidableEq, Repr

inductive CustodyType
  | CUSTODIAL
  | EXTERNAL
  | LOCAL
  | KMS
  deriving DecidableEq, Repr

inductive Role
  | ADMIN
  | USER
  | SERVICE
  deriving DecidableEq, Repr

structure Transaction where
  id : String
  tenantId : String
  tokenId : String
  fromWalletId : String
  toWalletId : String
  txHash : Option String
  amount : Int
  gasUsed : Option Nat
  blockNumber : Option Nat
  status : TransactionStatus
  createdAt : Date
  submittedAt : Option Date
  confirmationStartedAt : Option Date
  confirmedAt : Option Date
  failureReason : Option String
  failedAt : Option Date
  deriving DecidableEq, Repr

/-- `id` and, where it is set, `txHash` are unique. -/
inductive TransactionKey
  | id (id : String)
  | txHash (hash : String)
  deriving DecidableEq, Repr

def Transaction.keys (t : Transaction) : List TransactionKey :=
  .id t.id :: (t.txHash.map TransactionKey.txHash).toList

/-- `hasCustodyKey`: a `WalletCustodyKey` row belongs to the wallet. -/
structure Wallet where
  id : String
  tenantId : String
  ownerId : String
  chainId : Nat
  address : String
  custodyType : CustodyType
  hasCustodyKey : Bool
  deriving DecidableEq, Repr

inductive WalletKey
  | id (id : String)
  | address (address : String)
  deriving DecidableEq, Repr

def Wallet.keys (w : Wallet) : List WalletKey := [.id w.id, .address w.address]

structure Token where
  id : String
  symbol : String
  contractAddress : Option String
  blockchain : Blockchain
  deriving DecidableEq, Repr

inductive TokenKey
  | id (id : String)
  | contractAddress (address : String)
  deriving DecidableEq, Repr

def Token.keys (t : Token) : List TokenKey :=
  .id t.id :: (t.contractAddress.map TokenKey.contractAddress).toList

structure TokenTransfer where
  id : String
  tokenId : String
  fromAddress : String
  toAddress : String
  amount : Int
  transactionHash : String
  logIndex : Nat
  blockNumber : Nat
  createdAt : Date
  deriving DecidableEq, Repr

inductive TokenTransferKey
  | id (id : String)
  | transactionHash_logIndex (hash : String) (logIndex : Nat)
  deriving DecidableEq, Repr

def TokenTransfer.keys (t : TokenTransfer) : List TokenTransferKey :=
  [.id t.id, .transactionHash_logIndex t.transactionHash t.logIndex]

structure TokenEventCursor where
  tokenId : String
  lastProcessedBlock : Nat
  lastSuccessfulSync : Option Date
  lastFailedSync : Option Date
  failureCount : Nat
  deriving DecidableEq, Repr

structure BalanceSnapshot where
  id : String
  walletId : String
  tokenId : String
  balance : Nat
  blockNumber : Nat
  deriving DecidableEq, Repr

inductive BalanceSnapshotKey
  | id (id : String)
  | walletId_tokenId (walletId tokenId : String)
  deriving DecidableEq, Repr

def BalanceSnapshot.keys (b : BalanceSnapshot) : List BalanceSnapshotKey :=
  [.id b.id, .walletId_tokenId b.walletId b.tokenId]

/-- The payload of a `transaction.confirmed` event, a JSON object of texts and nulls. -/
structure ConfirmedPayload where
  transactionId : String
  tenantId : String
  tokenId : String
  txHash : Option String
  blockNumber : Option String
  amount : String
  confirmedAt : Option String
  deriving DecidableEq, Repr

/-- A row of `OutboxEvent`; the column `payload` keeps any JSON value, the row keeps a value of `π`. -/
structure OutboxRow (π : Type) where
  id : String
  aggregateId : String
  type : String
  payload : π
  published : Bool
  publishedAt : Option Date := none
  createdAt : Date
  deriving DecidableEq, Repr

/-- An event as `ConfirmationProcessor` writes it. -/
abbrev OutboxEvent := OutboxRow ConfirmedPayload

@[simp] theorem Transaction.id_mem_keys {t : Transaction} {id : String} :
    TransactionKey.id id ∈ t.keys ↔ id = t.id := by
  simp [Transaction.keys]

@[simp] theorem Transaction.txHash_mem_keys {t : Transaction} {hash : String} :
    TransactionKey.txHash hash ∈ t.keys ↔ t.txHash = some hash := by
  simp [Transaction.keys]

@[simp] theorem Wallet.id_mem_keys {w : Wallet} {id : String} :
    WalletKey.id id ∈ w.keys ↔ id = w.id := by
  simp [Wallet.keys]

@[simp] theorem Token.id_mem_keys {t : Token} {id : String} :
    TokenKey.id id ∈ t.keys ↔ id = t.id := by
  simp [Token.keys]

@[simp] theorem TokenTransfer.event_mem_keys {t : TokenTransfer} {hash : String} {logIndex : Nat} :
    TokenTransferKey.transactionHash_logIndex hash logIndex ∈ t.keys ↔
      hash = t.transactionHash ∧ logIndex = t.logIndex := by
  simp [TokenTransfer.keys]

end TransactionSimulator
