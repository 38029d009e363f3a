import TransactionSimulator.Domain.StateMachine

/-!
# The database

`Db` holds the tables; a wallet refers to a tenant and to a user that exist, a ledger row to a token
and to two wallets.  `Stmt`
lists the Prisma statements that the modelled code issues, each of them atomic, and `Stmt.exec`
says what a statement answers and leaves behind.  A statement that breaks a unique or a foreign
key constraint, or whose numbers do not fit their columns, throws and changes nothing.

The same repository code runs against `prisma` and, inside `prisma.$transaction`, against the
transaction's client; `Client` is what the two have in common.  `TxM` is the body of a
transaction, run on the tables directly.
-/

namespace TransactionSimulator

open Relational

/-- The tables; of the tenants and the users, which no modelled process writes, only the ids count. -/
structure Db where
  transactions : Table Transaction TransactionKey Transaction.keys
  wallets : Table Wallet WalletKey Wallet.keys
  tokens : Table Token TokenKey Token.keys
  tokenTransfers : Table TokenTransfer TokenTransferKey TokenTransfer.keys
  tokenEventCursors : Table TokenEventCursor String fun c => [c.tokenId]
  balanceSnapshots : Table BalanceSnapshot BalanceSnapshotKey BalanceSnapshot.keys
  outboxEvents : Table OutboxEvent String fun e => [e.id]
  tenants : List String
  users : List String
  owners : ∀ w ∈ wallets.rows, w.tenantId ∈ tenants ∧ w.ownerId ∈ users
  references : ∀ t ∈ transactions.rows, (tokens.get (.id t.tokenId)).isSome ∧
    (wallets.get (.id t.fromWalletId)).isSome ∧ (wallets.get (.id t.toWalletId)).isSome

/-! ## Inputs of the statements -/

/-- What `createPending` writes; the other columns start as null. -/
structure TransactionCreateInput where
  tenantId : String
  tokenId : String
  fromWalletId : String
  toWalletId : String
  amount : Int
  status : TransactionStatus
  deriving DecidableEq, Repr

/-- A `BigInt` column holds a signed 64-bit integer. -/
def fitsBigInt (n : Int) : Bool := n.toNat < 2 ^ 63 && (-n).toNat ≤ 2 ^ 63

theorem fitsBigInt_iff {n : Int} : fitsBigInt n = true ↔ -2 ^ 63 ≤ n ∧ n < 2 ^ 63 := by
  simp only [fitsBigInt, Bool.and_eq_true, decide_eq_true_eq]
  omega

/-- The same for a column that may be null. -/
def fitsNullable (n : Option Nat) : Bool := n.all fun n : Nat => fitsBigInt n

/-- An `Int` column holds a signed 32-bit integer. -/
def fitsInt (n : Int) : Bool := n.toNat < 2 ^ 31 && (-n).toNat ≤ 2 ^ 31

/-- The columns an update sets; `none` leaves a column as it is. -/
structure TransactionUpdateInput where
  status : Option TransactionStatus := none
  txHash : Option String := none
  submittedAt : Option Date := none
  confirmationStartedAt : Option Date := none
  blockNumber : Option (Option Nat) := none
  gasUsed : Option (Option Nat) := none
  confirmedAt : Option Date := none
  failureReason : Option String := none
  failedAt : Option Date := none
  deriving DecidableEq, Repr

def TransactionUpdateInput.apply (data : TransactionUpdateInput) (t : Transaction) : Transaction :=
  { t with
    status := data.status.getD t.status
    txHash := data.txHash <|> t.txHash
    submittedAt := data.submittedAt <|> t.submittedAt
    confirmationStartedAt := data.confirmationStartedAt <|> t.confirmationStartedAt
    blockNumber := data.blockNumber.getD t.blockNumber
    gasUsed := data.gasUsed.getD t.gasUsed
    confirmedAt := data.confirmedAt <|> t.confirmedAt
    failureReason := data.failureReason <|> t.failureReason
    failedAt := data.failedAt <|> t.failedAt }

/-- The block number and the gas fit their columns. -/
def TransactionUpdateInput.fits (data : TransactionUpdateInput) : Bool :=
  data.blockNumber.all fitsNullable && data.gasUsed.all fitsNullable

structure WalletCreateInput where
  tenantId : String
  ownerId : String
  chainId : Nat
  address : String
  custodyType : CustodyType := .EXTERNAL
  hasCustodyKey : Bool := false
  deriving DecidableEq, Repr

structure TokenTransferCreateInput where
  tokenId : String
  fromAddress : String
  toAddress : String
  amount : Int
  transactionHash : String
  logIndex : Nat
  blockNumber : Nat
  deriving DecidableEq, Repr

def TokenTransferCreateInput.fits (data : TokenTransferCreateInput) : Bool :=
  fitsBigInt data.amount && fitsInt data.logIndex && fitsBigInt data.blockNumber

/-- The columns an update of a cursor sets; `failureCount` is set to 0 or incremented. -/
structure TokenEventCursorUpdateInput where
  lastProcessedBlock : Option Nat := none
  lastSuccessfulSync : Option Date := none
  lastFailedSync : Option Date := none
  failureCount : Nat → Nat := id

def TokenEventCursorUpdateInput.apply (data : TokenEventCursorUpdateInput)
    (c : TokenEventCursor) : TokenEventCursor :=
  { c with
    lastProcessedBlock := data.lastProcessedBlock.getD c.lastProcessedBlock
    lastSuccessfulSync := data.lastSuccessfulSync <|> c.lastSuccessfulSync
    lastFailedSync := data.lastFailedSync <|> c.lastFailedSync
    failureCount := data.failureCount c.failureCount }

def TokenEventCursorUpdateInput.fits (data : TokenEventCursorUpdateInput) : Bool :=
  fitsNullable data.lastProcessedBlock

/-- The columns of a snapshot fit. -/
def snapshotFits (balance blockNumber : Nat) : Bool := fitsBigInt balance && fitsBigInt blockNumber

structure OutboxEventCreateInput where
  aggregateId : String
  type : String
  payload : ConfirmedPayload
  published : Bool
  deriving DecidableEq, Repr

/-! ## Statements -/

/-- The statements, in the order of the tables. -/
inductive Stmt
  | transactionCreate (data : TransactionCreateInput)
  | transactionUpdateMany (id : String) (status : List TransactionStatus)
      (data : TransactionUpdateInput)
  | transactionFindUnique (key : TransactionKey)
  | transactionFindUniqueOrThrow (key : TransactionKey)
  | transactionFindById (id tenantId : String)
  | transactionFindByIdWithAll (id tenantId : String)
  | transactionFindPage (tenantId : String) (skip take : Int)
  | transactionFindMany (cond : Transaction → Bool) (orderBy : Transaction → Option Date)
      (take : Nat)
  | transactionFindManyWithWallets (cond : Transaction → Bool)
      (orderBy : Transaction → Option Date) (take : Nat)
  | walletCreate (data : WalletCreateInput)
  | walletFindUnique (id : String)
  | walletFindFirst (cond : Wallet → Bool)
  | walletFindMany (cond : Wallet → Bool)
  | tokenFindUnique (id : String)
  | tokenFindFirst (cond : Token → Bool)
  | tokenTransferUpsert (data : TokenTransferCreateInput)
  | tokenTransferFindUnique (transactionHash : String) (logIndex : Nat)
  | tokenTransferFindFirst (cond : TokenTransfer → Bool)
  | tokenEventCursorUpsert (tokenId : String)
  | tokenEventCursorUpdate (tokenId : String) (data : TokenEventCursorUpdateInput)
  | tokenEventCursorFindUnique (tokenId : String)
  | balanceSnapshotUpdateMany (walletId tokenId : String) (balance blockNumber : Nat)
  | balanceSnapshotCreate (walletId tokenId : String) (balance blockNumber : Nat)
  | balanceSnapshotFindUnique (walletId tokenId : String)
  | balanceSnapshotFindUniqueOrThrow (walletId tokenId : String)
  | balanceSnapshotFindByWallet (walletId : String)
  | balanceSnapshotFindPage (afterId : Option String) (take : Nat)
  | outboxEventCreate (data : OutboxEventCreateInput)

/-- A row of the ledger with the rows it refers to. -/
structure TransactionWithAll where
  transaction : Transaction
  token : Token
  fromWallet : Wallet
  toWallet : Wallet
  deriving DecidableEq, Repr

/-- What the drift sweep reads of a snapshot, its wallet and its token. -/
structure SnapshotForReconciliation where
  id : String
  walletId : String
  tokenId : String
  address : String
  chainId : Nat
  blockchain : Blockchain
  contractAddress : Option String
  symbol : String
  deriving DecidableEq, Repr

/-- What a statement answers. -/
@[reducible] def Stmt.Res : Stmt → Type
  | transactionCreate _ => Transaction
  | transactionUpdateMany _ _ _ => Nat
  | transactionFindUnique _ => Option Transaction
  | transactionFindUniqueOrThrow _ => Transaction
  | transactionFindById _ _ => Option (Transaction × Token)
  | transactionFindByIdWithAll _ _ => Option TransactionWithAll
  | transactionFindPage _ _ _ => List TransactionWithAll
  | transactionFindMany _ _ _ => List Transaction
  | transactionFindManyWithWallets _ _ _ => List (Transaction × Wallet × Wallet)
  | walletCreate _ => Wallet
  | walletFindUnique _ => Option Wallet
  | walletFindFirst _ => Option Wallet
  | walletFindMany _ => List Wallet
  | tokenFindUnique _ => Option Token
  | tokenFindFirst _ => Option Token
  | tokenTransferUpsert _ => TokenTransfer
  | tokenTransferFindUnique _ _ => Option TokenTransfer
  | tokenTransferFindFirst _ => Option TokenTransfer
  | tokenEventCursorUpsert _ => TokenEventCursor
  | tokenEventCursorUpdate _ _ => TokenEventCursor
  | tokenEventCursorFindUnique _ => Option TokenEventCursor
  | balanceSnapshotUpdateMany _ _ _ _ => Nat
  | balanceSnapshotCreate _ _ _ _ => BalanceSnapshot
  | balanceSnapshotFindUnique _ _ => Option BalanceSnapshot
  | balanceSnapshotFindUniqueOrThrow _ _ => BalanceSnapshot
  | balanceSnapshotFindByWallet _ => List (BalanceSnapshot × Token)
  | balanceSnapshotFindPage _ _ => List SnapshotForReconciliation
  | outboxEventCreate _ => OutboxEvent

/-- The error codes of Prisma that a statement can end with. -/
def uniqueViolation : JsError := .prisma "P2002" "Unique constraint failed"

def foreignKeyViolation : JsError := .prisma "P2003" "Foreign key constraint violated"

def recordNotFound : JsError := .prisma "P2025" "No record was found for a query"

/-- The error of a number that its column cannot hold; it has no code. -/
def valueOutOfRange : JsError := .error "Unable to fit integer value into the column"

/-- The error of a query whose arguments Prisma refuses. -/
def invalidArgument : JsError := .error "Invalid value for argument"

/-- What the database itself supplies to a statement: its clock and a fresh `uuid()`. -/
structure StmtEnv where
  now : Date
  uuid : String

/-! ## The ledger table -/

namespace Db

theorem references_updateMany {db : Db} {cond : Transaction → Bool}
    {data : TransactionUpdateInput} {t : Table Transaction TransactionKey Transaction.keys}
    {n : Nat} (h : db.transactions.updateMany cond data.apply = some (t, n)) :
    ∀ r ∈ t.rows, (db.tokens.get (.id r.tokenId)).isSome ∧
      (db.wallets.get (.id r.fromWalletId)).isSome ∧
      (db.wallets.get (.id r.toWalletId)).isSome := by
  intro r hr
  rw [(Table.updateMany_eq_some h).1, Table.mem_written] at hr
  obtain ⟨s, hs, rfl⟩ := hr
  split
  · exact db.references s hs
  · exact db.references s hs

/-- `transaction.updateMany` with `where: { id, status: { in: status } }`. -/
def updateTransactions (db : Db) (id : String) (status : List TransactionStatus)
    (data : TransactionUpdateInput) : Except JsError Nat × Db :=
  if !data.fits then (.error valueOutOfRange, db)
  else match h : db.transactions.updateMany (fun t => t.id = id && status.contains t.status)
      data.apply with
  | some (t, n) => (.ok n, { db with transactions := t, references := references_updateMany h })
  | none => (.error uniqueViolation, db)

/-- The row that `transaction.create` writes. -/
def newTransaction (env : StmtEnv) (data : TransactionCreateInput) : Transaction where
  id := env.uuid
  tenantId := data.tenantId
  tokenId := data.tokenId
  fromWalletId := data.fromWalletId
  toWalletId := data.toWalletId
  txHash := none
  amount := data.amount
  gasUsed := none
  blockNumber := none
  status := data.status
  createdAt := env.now
  submittedAt := none
  confirmationStartedAt := none
  confirmedAt := none
  failureReason := none
  failedAt := none

def createTransaction (db : Db) (env : StmtEnv) (data : TransactionCreateInput) :
    Except JsError Transaction × Db :=
  if !fitsBigInt data.amount then (.error valueOutOfRange, db)
  else if hfk : data.tenantId ∈ db.tenants ∧ (db.tokens.get (.id data.tokenId)).isSome ∧
      (db.wallets.get (.id data.fromWalletId)).isSome ∧
      (db.wallets.get (.id data.toWalletId)).isSome then
    match h : db.transactions.insert (newTransaction env data) with
    | some t =>
      (.ok (newTransaction env data),
        { db with
          transactions := t
          references := by
            intro r hr
            rw [Table.insert_rows h, List.mem_append, List.mem_singleton] at hr
            rcases hr with hr | rfl
            · exact db.references r hr
            · exact hfk.2 })
    | none => (.error uniqueViolation, db)
  else (.error foreignKeyViolation, db)

/-- `findById`: the row of the tenant, with its token. -/
def findTransactionById (db : Db) (id tenantId : String) : Option (Transaction × Token) :=
  match db.transactions.get (.id id) with
  | some t => if t.tenantId = tenantId then (db.tokens.get (.id t.tokenId)).map (t, ·) else none
  | none => none

def withWallets (db : Db) (t : Transaction) : Option (Transaction × Wallet × Wallet) :=
  match db.wallets.get (.id t.fromWalletId), db.wallets.get (.id t.toWalletId) with
  | some fromWallet, some toWallet => some (t, fromWallet, toWallet)
  | _, _ => none

/-- `include: { token: true, fromWallet: true, toWallet: true }`. -/
def withAll (db : Db) (t : Transaction) : Option TransactionWithAll :=
  match db.tokens.get (.id t.tokenId), db.wallets.get (.id t.fromWalletId),
      db.wallets.get (.id t.toWalletId) with
  | some token, some fromWallet, some toWallet => some ⟨t, token, fromWallet, toWallet⟩
  | _, _, _ => none

/-- The rows of a tenant, the newest first. -/
def newestTransactions (db : Db) (tenantId : String) : List Transaction :=
  (db.transactions.rows.filter fun t => t.tenantId = tenantId).insertionSort
    fun a b => b.createdAt ≤ a.createdAt

/-- `skip` and `take` of a query: a negative `take` counts from the end. -/
def page {α : Type} (skip take : Int) (xs : List α) : Except JsError (List α) :=
  if skip < 0 then .error invalidArgument
  else if 0 ≤ take then .ok ((xs.drop skip.toNat).take take.toNat)
  else .ok ((xs.reverse.drop skip.toNat).take (-take).toNat).reverse

/-! ## The other tables -/

/-- The row that `wallet.create` writes. -/
def newWalletRow (env : StmtEnv) (data : WalletCreateInput) : Wallet where
  id := env.uuid
  tenantId := data.tenantId
  ownerId := data.ownerId
  chainId := data.chainId
  address := data.address
  custodyType := data.custodyType
  hasCustodyKey := data.hasCustodyKey

def createWallet (db : Db) (env : StmtEnv) (data : WalletCreateInput) :
    Except JsError Wallet × Db :=
  if !fitsInt data.chainId then (.error valueOutOfRange, db)
  else if hfk : data.tenantId ∈ db.tenants ∧ data.ownerId ∈ db.users then
    match h : db.wallets.insert (newWalletRow env data) with
    | some t =>
      (.ok (newWalletRow env data),
        { db with
          wallets := t
          owners := by
            intro r hr
            rw [Table.insert_rows h, List.mem_append, List.mem_singleton] at hr
            rcases hr with hr | rfl
            · exact db.owners r hr
            · exact hfk
          references := by
            have hkeep : ∀ k, (db.wallets.get k).isSome → (t.get k).isSome := by
              intro k hk
              rw [Table.get_insert h, Option.isSome_or]
              simp [hk]
            intro r hr
            obtain ⟨htoken, hfrom, hto⟩ := db.references r hr
            exact ⟨htoken, hkeep _ hfrom, hkeep _ hto⟩ })
    | none => (.error uniqueViolation, db)
  else (.error foreignKeyViolation, db)

/-- `upsert` with `update: {}`: the row of the event if there is one, else a new row. -/
def upsertTokenTransfer (db : Db) (env : StmtEnv) (data : TokenTransferCreateInput) :
    Except JsError TokenTransfer × Db :=
  if !data.fits then (.error valueOutOfRange, db)
  else match db.tokenTransfers.get (.transactionHash_logIndex data.transactionHash data.logIndex) with
  | some t => (.ok t, db)
  | none =>
    let row : TokenTransfer :=
      { id := env.uuid, tokenId := data.tokenId, fromAddress := data.fromAddress,
        toAddress := data.toAddress, amount := data.amount,
        transactionHash := data.transactionHash, logIndex := data.logIndex,
        blockNumber := data.blockNumber, createdAt := env.now }
    match db.tokenTransfers.insert row with
    | some t => (.ok row, { db with tokenTransfers := t })
    | none => (.error uniqueViolation, db)

def upsertTokenEventCursor (db : Db) (tokenId : String) : Except JsError TokenEventCursor × Db :=
  match db.tokenEventCursors.get tokenId with
  | some c => (.ok c, db)
  | none =>
    let row : TokenEventCursor := ⟨tokenId, 0, none, none, 0⟩
    match db.tokenEventCursors.insert row with
    | some t => (.ok row, { db with tokenEventCursors := t })
    | none => (.error uniqueViolation, db)

def updateTokenEventCursor (db : Db) (tokenId : String) (data : TokenEventCursorUpdateInput) :
    Except JsError TokenEventCursor × Db :=
  if !data.fits then (.error valueOutOfRange, db)
  else match db.tokenEventCursors.get tokenId with
  | none => (.error recordNotFound, db)
  | some c =>
    match db.tokenEventCursors.updateMany (fun c => c.tokenId = tokenId) data.apply with
    | some (t, _) => (.ok (data.apply c), { db with tokenEventCursors := t })
    | none => (.error uniqueViolation, db)

def updateBalanceSnapshots (db : Db) (walletId tokenId : String) (balance blockNumber : Nat) :
    Except JsError Nat × Db :=
  if !snapshotFits balance blockNumber then (.error valueOutOfRange, db)
  else match db.balanceSnapshots.updateMany
      (fun b => b.walletId = walletId && b.tokenId = tokenId && decide (b.blockNumber < blockNumber))
      (fun b => { b with balance, blockNumber }) with
  | some (t, n) => (.ok n, { db with balanceSnapshots := t })
  | none => (.error uniqueViolation, db)

def createBalanceSnapshot (db : Db) (env : StmtEnv) (walletId tokenId : String)
    (balance blockNumber : Nat) : Except JsError BalanceSnapshot × Db :=
  let row : BalanceSnapshot := { id := env.uuid, walletId, tokenId, balance, blockNumber }
  if !snapshotFits balance blockNumber then (.error valueOutOfRange, db)
  else match db.balanceSnapshots.insert row with
  | some t => (.ok row, { db with balanceSnapshots := t })
  | none => (.error uniqueViolation, db)

/-- The snapshots of a wallet with their tokens, by symbol. -/
def snapshotsOfWallet (db : Db) (walletId : String) : List (BalanceSnapshot × Token) :=
  ((db.balanceSnapshots.rows.filter fun b => b.walletId = walletId).filterMap fun b =>
    (db.tokens.get (.id b.tokenId)).map (b, ·)).insertionSort fun a b => a.2.symbol ≤ b.2.symbol

/-- The fields that `findPageForReconciliation` selects. -/
def forReconciliation (db : Db) (b : BalanceSnapshot) : Option SnapshotForReconciliation :=
  match db.wallets.get (.id b.walletId), db.tokens.get (.id b.tokenId) with
  | some wallet, some token =>
    some ⟨b.id, b.walletId, b.tokenId, wallet.address, wallet.chainId, token.blockchain,
      token.contractAddress, token.symbol⟩
  | _, _ => none

/-- The next snapshots by id. -/
def snapshotPage (db : Db) (afterId : Option String) (take : Nat) :
    List SnapshotForReconciliation :=
  (((db.balanceSnapshots.rows.filter fun b => afterId.all fun id => id < b.id).insertionSort
    fun a b => a.id ≤ b.id).take take).filterMap db.forReconciliation

def createOutboxEvent (db : Db) (env : StmtEnv) (data : OutboxEventCreateInput) :
    Except JsError OutboxEvent × Db :=
  let row : OutboxEvent :=
    { id := env.uuid, aggregateId := data.aggregateId, type := data.type, payload := data.payload,
      published := data.published, createdAt := env.now }
  match db.outboxEvents.insert row with
  | some t => (.ok row, { db with outboxEvents := t })
  | none => (.error uniqueViolation, db)

end Db

/-- A row that has to be there. -/
def orThrow {α : Type} : Option α → Except JsError α
  | some a => .ok a
  | none => .error recordNotFound

/-- One statement, run to its end. -/
def Stmt.exec (env : StmtEnv) (db : Db) : (s : Stmt) → Except JsError s.Res × Db
  | transactionCreate data => db.createTransaction env data
  | transactionUpdateMany id status data => db.updateTransactions id status data
  | transactionFindUnique key => (.ok (db.transactions.get key), db)
  | transactionFindUniqueOrThrow key => (orThrow (db.transactions.get key), db)
  | transactionFindById id tenantId => (.ok (db.findTransactionById id tenantId), db)
  | transactionFindByIdWithAll id tenantId =>
    (.ok (((db.transactions.get (.id id)).filter fun t => t.tenantId = tenantId).bind db.withAll), db)
  | transactionFindPage tenantId skip take =>
    ((Db.page skip take (db.newestTransactions tenantId)).map fun ts => ts.filterMap db.withAll, db)
  | transactionFindMany cond orderBy take => (.ok (db.transactions.findMany cond orderBy take), db)
  | transactionFindManyWithWallets cond orderBy take =>
    (.ok ((db.transactions.findMany cond orderBy take).filterMap db.withWallets), db)
  | walletCreate data => db.createWallet env data
  | walletFindUnique id => (.ok (db.wallets.get (.id id)), db)
  | walletFindFirst cond => (.ok (db.wallets.rows.find? cond), db)
  | walletFindMany cond => (.ok (db.wallets.rows.filter cond), db)
  | tokenFindUnique id => (.ok (db.tokens.get (.id id)), db)
  | tokenFindFirst cond => (.ok (db.tokens.rows.find? cond), db)
  | tokenTransferUpsert data => db.upsertTokenTransfer env data
  | tokenTransferFindUnique hash logIndex =>
    if fitsInt logIndex then (.ok (db.tokenTransfers.get (.transactionHash_logIndex hash logIndex)), db)
    else (.error valueOutOfRange, db)
  | tokenTransferFindFirst cond =>
    (.ok (db.tokenTransfers.findFirst cond fun t => some t.createdAt), db)
  | tokenEventCursorUpsert tokenId => db.upsertTokenEventCursor tokenId
  | tokenEventCursorUpdate tokenId data => db.updateTokenEventCursor tokenId data
  | tokenEventCursorFindUnique tokenId => (.ok (db.tokenEventCursors.get tokenId), db)
  | balanceSnapshotUpdateMany walletId tokenId balance blockNumber =>
    db.updateBalanceSnapshots walletId tokenId balance blockNumber
  | balanceSnapshotCreate walletId tokenId balance blockNumber =>
    db.createBalanceSnapshot env walletId tokenId balance blockNumber
  | balanceSnapshotFindUnique walletId tokenId =>
    (.ok (db.balanceSnapshots.get (.walletId_tokenId walletId tokenId)), db)
  | balanceSnapshotFindUniqueOrThrow walletId tokenId =>
    (orThrow (db.balanceSnapshots.get (.walletId_tokenId walletId tokenId)), db)
  | balanceSnapshotFindByWallet walletId => (.ok (db.snapshotsOfWallet walletId), db)
  | balanceSnapshotFindPage afterId take => (.ok (db.snapshotPage afterId take), db)
  | outboxEventCreate data => db.createOutboxEvent env data

/-! ## What a statement leaves alone -/

inductive TableName
  | transactions
  | wallets
  | tokenTransfers
  | tokenEventCursors
  | balanceSnapshots
  | outboxEvents
  deriving DecidableEq, Repr

/-- The table that the statement writes, if it writes one. -/
def Stmt.target : Stmt → Option TableName
  | transactionCreate _ | transactionUpdateMany _ _ _ => some .transactions
  | walletCreate _ => some .wallets
  | tokenTransferUpsert _ => some .tokenTransfers
  | tokenEventCursorUpsert _ | tokenEventCursorUpdate _ _ => some .tokenEventCursors
  | balanceSnapshotUpdateMany _ _ _ _ | balanceSnapshotCreate _ _ _ _ => some .balanceSnapshots
  | outboxEventCreate _ => some .outboxEvents
  | _ => none

/-- The two databases differ in the table `target` at most. -/
structure Db.SameBut (target : Option TableName) (db db' : Db) : Prop where
  transactions : target ≠ some .transactions → db'.transactions = db.transactions
  wallets : target ≠ some .wallets → db'.wallets = db.wallets
  tokens : db'.tokens = db.tokens
  tokenTransfers : target ≠ some .tokenTransfers → db'.tokenTransfers = db.tokenTransfers
  tokenEventCursors : target ≠ some .tokenEventCursors → db'.tokenEventCursors = db.tokenEventCursors
  balanceSnapshots : target ≠ some .balanceSnapshots → db'.balanceSnapshots = db.balanceSnapshots
  outboxEvents : target ≠ some .outboxEvents → db'.outboxEvents = db.outboxEvents
  tenants : db'.tenants = db.tenants
  users : db'.users = db.users

theorem Db.SameBut.refl (target : Option TableName) (db : Db) : Db.SameBut target db db :=
  ⟨fun _ => rfl, fun _ => rfl, rfl, fun _ => rfl, fun _ => rfl, fun _ => rfl, fun _ => rfl, rfl, rfl⟩

/-- **A statement writes its own table only.** -/
theorem Stmt.exec_sameBut (s : Stmt) (env : StmtEnv) (db : Db) :
    Db.SameBut s.target db (s.exec env db).2 := by
  cases s with
  | transactionCreate data =>
    simp only [Stmt.exec, Db.createTransaction]
    split
    · exact .refl _ _
    split
    · split
      · exact ⟨fun h => absurd rfl h, fun _ => rfl, rfl, fun _ => rfl, fun _ => rfl, fun _ => rfl,
          fun _ => rfl, rfl, rfl⟩
      · exact .refl _ _
    · exact .refl _ _
  | transactionUpdateMany id status data =>
    simp only [Stmt.exec, Db.updateTransactions]
    split
    · exact .refl _ _
    split
    · exact ⟨fun h => absurd rfl h, fun _ => rfl, rfl, fun _ => rfl, fun _ => rfl, fun _ => rfl,
        fun _ => rfl, rfl, rfl⟩
    · exact .refl _ _
  | walletCreate data =>
    simp only [Stmt.exec, Db.createWallet]
    split
    · exact .refl _ _
    split
    · split
      · exact ⟨fun _ => rfl, fun h => absurd rfl h, rfl, fun _ => rfl, fun _ => rfl, fun _ => rfl,
          fun _ => rfl, rfl, rfl⟩
      · exact .refl _ _
    · exact .refl _ _
  | tokenTransferUpsert data =>
    simp only [Stmt.exec, Db.upsertTokenTransfer]
    split
    · exact .refl _ _
    split
    · exact .refl _ _
    split
    · exact ⟨fun _ => rfl, fun _ => rfl, rfl, fun h => absurd rfl h, fun _ => rfl, fun _ => rfl,
        fun _ => rfl, rfl, rfl⟩
    · exact .refl _ _
  | tokenEventCursorUpsert tokenId =>
    simp only [Stmt.exec, Db.upsertTokenEventCursor]
    split
    · exact .refl _ _
    split
    · exact ⟨fun _ => rfl, fun _ => rfl, rfl, fun _ => rfl, fun h => absurd rfl h, fun _ => rfl,
        fun _ => rfl, rfl, rfl⟩
    · exact .refl _ _
  | tokenEventCursorUpdate tokenId data =>
    simp only [Stmt.exec, Db.updateTokenEventCursor]
    split
    · exact .refl _ _
    split
    · exact .refl _ _
    split
    · exact ⟨fun _ => rfl, fun _ => rfl, rfl, fun _ => rfl, fun h => absurd rfl h, fun _ => rfl,
        fun _ => rfl, rfl, rfl⟩
    · exact .refl _ _
  | balanceSnapshotUpdateMany walletId tokenId balance blockNumber =>
    simp only [Stmt.exec, Db.updateBalanceSnapshots]
    split
    · exact .refl _ _
    split
    · exact ⟨fun _ => rfl, fun _ => rfl, rfl, fun _ => rfl, fun _ => rfl, fun h => absurd rfl h,
        fun _ => rfl, rfl, rfl⟩
    · exact .refl _ _
  | balanceSnapshotCreate walletId tokenId balance blockNumber =>
    simp only [Stmt.exec, Db.createBalanceSnapshot]
    split
    · exact .refl _ _
    split
    · exact ⟨fun _ => rfl, fun _ => rfl, rfl, fun _ => rfl, fun _ => rfl, fun h => absurd rfl h,
        fun _ => rfl, rfl, rfl⟩
    · exact .refl _ _
  | outboxEventCreate data =>
    simp only [Stmt.exec, Db.createOutboxEvent]
    split
    · exact ⟨fun _ => rfl, fun _ => rfl, rfl, fun _ => rfl, fun _ => rfl, fun _ => rfl,
        fun h => absurd rfl h, rfl, rfl⟩
    · exact .refl _ _
  | tokenTransferFindUnique hash logIndex =>
    simp only [Stmt.exec]
    split
    · exact .refl _ _
    · exact .refl _ _
  | _ => exact .refl _ _

/-! ## Creation of a wallet -/

namespace Db

/-- The outcomes of `wallet.create`. -/
inductive WalletCreated (db : Db) (env : StmtEnv) (data : WalletCreateInput) :
    Except JsError Wallet × Db → Prop
  | done {table : Table Wallet WalletKey Wallet.keys}
      (rows : table.rows = db.wallets.rows ++ [newWalletRow env data]) (owners) (references) :
      WalletCreated db env data
        (.ok (newWalletRow env data), { db with wallets := table, owners, references })
  | refused (e : JsError) : WalletCreated db env data (.error e, db)

theorem createWallet_spec (db : Db) (env : StmtEnv) (data : WalletCreateInput) :
    WalletCreated db env data (db.createWallet env data) := by
  rw [createWallet]
  split
  · exact .refused _
  split
  · split
    · next t h => exact .done (Table.insert_rows h) _ _
    · exact .refused _
  · exact .refused _

theorem createWallet_prefix (db : Db) (env : StmtEnv) (data : WalletCreateInput) :
    db.wallets.rows <+: (db.createWallet env data).2.wallets.rows := by
  have hspec := db.createWallet_spec env data
  generalize db.createWallet env data = r at hspec
  cases hspec with
  | done rows owners references =>
    show db.wallets.rows <+: _
    rw [rows]
    exact List.prefix_append _ _
  | refused e => exact List.prefix_rfl

theorem mem_createWallet {db : Db} {env : StmtEnv} {data : WalletCreateInput} {x : Wallet}
    (h : x ∈ (db.createWallet env data).2.wallets.rows) :
    x ∈ db.wallets.rows ∨ x = newWalletRow env data := by
  have hspec := db.createWallet_spec env data
  generalize db.createWallet env data = r at hspec h
  cases hspec with
  | done rows owners references =>
    simp only [rows, List.mem_append, List.mem_singleton] at h
    exact h
  | refused e => exact .inl h

/-- A wallet whose chain fits and whose tenant, owner, id and address suit the tables is created. -/
theorem createWallet_of_fits {db : Db} (env : StmtEnv) {data : WalletCreateInput}
    (hfits : fitsInt data.chainId = true) (hfk : data.tenantId ∈ db.tenants ∧ data.ownerId ∈ db.users)
    (hid : ∀ x ∈ db.wallets.rows, x.id ≠ env.uuid)
    (haddress : ∀ x ∈ db.wallets.rows, x.address ≠ data.address) :
    (db.createWallet env data).1 = .ok (newWalletRow env data) ∧
      (db.createWallet env data).2.wallets.rows = db.wallets.rows ++ [newWalletRow env data] := by
  obtain ⟨t, ht⟩ := db.wallets.insert_isSome (r := newWalletRow env data) fun k hk => by
    rw [Table.get_eq_none_iff]
    intro x hx hkx
    simp only [Wallet.keys, newWalletRow, List.mem_cons, List.not_mem_nil, or_false] at hk hkx
    rcases hk with rfl | rfl
    · rcases hkx with h | h
      · exact hid x hx (WalletKey.id.inj h).symm
      · cases h
    · rcases hkx with h | h
      · cases h
      · exact haddress x hx (WalletKey.address.inj h).symm
  rw [createWallet, if_neg (by simp [hfits]), dif_pos hfk]
  split
  · next t' ht' => exact ⟨rfl, Table.insert_rows ht'⟩
  · next hnone =>
    rw [ht] at hnone
    cases hnone

theorem createWallet_of_not_fits {db : Db} (env : StmtEnv) {data : WalletCreateInput}
    (h : ¬ (fitsInt data.chainId = true ∧ data.tenantId ∈ db.tenants ∧ data.ownerId ∈ db.users)) :
    (∃ e, (db.createWallet env data).1 = .error e) ∧ (db.createWallet env data).2 = db := by
  rw [createWallet]
  split
  · exact ⟨⟨_, rfl⟩, rfl⟩
  next hfits =>
  rw [dif_neg (fun hfk => h ⟨by simpa using hfits, hfk⟩)]
  exact ⟨⟨_, rfl⟩, rfl⟩

end Db

/-! ## Clients -/

/-- The body of `prisma.$transaction(async (tx) => …)`, on the tables it sees. -/
def TxM (α : Type) : Type := StmtEnv → Db → Except JsError α × Db

instance : Monad TxM where
  pure a := fun _ db => (.ok a, db)
  bind x f := fun env db =>
    match x env db with
    | (.ok a, db') => f a env db'
    | (.error e, db') => (.error e, db')

instance : MonadExcept JsError TxM where
  throw e := fun _ db => (.error e, db)
  tryCatch x h := fun env db =>
    match x env db with
    | (.ok a, db') => (.ok a, db')
    | (.error e, db') => h e env db'

/-- What repository code needs of the client it is given: statements, and `new Date()`. -/
structure Client (m : Type → Type) where
  stmt : (s : Stmt) → m s.Res
  now : m Date

/-- The client that `prisma.$transaction` hands to its body. -/
def txClient : Client TxM where
  stmt s := fun env db => s.exec env db
  now := fun env db => (.ok env.now, db)

namespace TxM

variable {α β : Type} (env : StmtEnv) (db : Db)

theorem bind_apply (x : TxM α) (f : α → TxM β) :
    (x >>= f) env db = match x env db with
      | (.ok a, db') => f a env db'
      | (.error e, db') => (.error e, db') := rfl

@[simp] theorem pure_apply (a : α) : (pure a : TxM α) env db = (.ok a, db) := rfl

@[simp] theorem throw_apply (e : JsError) : (throw e : TxM α) env db = (.error e, db) := rfl

@[simp] theorem stmt_apply (s : Stmt) : txClient.stmt s env db = s.exec env db := rfl

@[simp] theorem now_apply : txClient.now env db = (.ok env.now, db) := rfl

end TxM

end TransactionSimulator
