import TransactionSimulator.Ledger.Model
import TransactionSimulator.System

/-!
# What each process may write

A process is given rights (`Task.rights`), and `Permitted` says which calls need which right.
`permitted_prog` checks the programs against the table: every call that a task can make, whatever
it is answered, is covered by the rights of the task.  A table that no right of a task covers is
then left alone by it, without a look at its program.
-/

namespace TransactionSimulator

open Concurrent Prog TransactionStatus Ledger

/-- What a process may change. -/
inductive Right
  | write (k : Kind)
  | wallet
  | index
  | balance
  | queue
  deriving DecidableEq, Repr

/-- The updates of the ledger that the repository issues, by the kind of the write. -/
inductive Writes : Kind → List TransactionStatus → TransactionUpdateInput → Prop
  | submit (hash : String) (at_ : Date) :
      Writes .submit [PENDING]
        { status := some SUBMITTED, txHash := some hash, submittedAt := some at_ }
  | claim (at_ : Date) :
      Writes .claim [SUBMITTED] { status := some CONFIRMING, confirmationStartedAt := some at_ }
  | fail (reason : String) (at_ : Date) :
      Writes .fail [PENDING, CONFIRMING]
        { status := some FAILED, failureReason := some reason, failedAt := some at_ }
  | expire (reason : String) (at_ : Date) :
      Writes .expire [CONFIRMING]
        { status := some EXPIRED, failureReason := some reason, failedAt := some at_ }

/-- The counter and the line that report a confirmation. -/
def Emission.confirms : Emission → Bool
  | .metric name _ _ => name = "transactions_confirmed_total"
  | .log message => message = "transaction.confirmed"

/-- The call is covered by the rights `A`.  What a call writes is restricted as well where all
callers agree on it: rows start PENDING, a transaction persists a confirmation, and an address
is stored in the normal form of its chain. -/
def Permitted (env : ProcessEnv) (A : List Right) : Call → Prop
  | .stmt (.transactionCreate data) => .write .create ∈ A ∧ data.status = PENDING
  | .stmt (.transactionUpdateMany _ status data) => ∃ k, .write k ∈ A ∧ Writes k status data
  | .stmt (.walletCreate data) =>
    .wallet ∈ A ∧ ∃ raw, normalizeWalletAddress env data.chainId raw = .ok data.address
  | .stmt (.tokenTransferUpsert _) => .index ∈ A
  | .stmt (.tokenEventCursorUpsert _) => .index ∈ A
  | .stmt (.tokenEventCursorUpdate _ _) => .index ∈ A
  | .stmt (.balanceSnapshotUpdateMany _ _ _ _) => .balance ∈ A
  | .stmt (.balanceSnapshotCreate _ _ _ _) => .balance ∈ A
  | .stmt (.outboxEventCreate _) => False
  | .transaction body => .write .confirm ∈ A ∧
      ∃ tx result, body = ConfirmationProcessor.persistBody tx result
  | .emit e => e.confirms = true → .write .confirm ∈ A
  | .queueAdd _ _ | .queueTake _ | .queueComplete _ | .queueFail _ | .queueStall _ _ => .queue ∈ A
  | .processingAdd _ _ | .processingDelete _ _ | .learnMaxBlockRange _ _ => .index ∈ A
  | _ => True

/-- The rights of each process. -/
def Task.rights : Task → List Right
  | .transfer _ => [.write .create, .write .submit, .write .fail, .queue]
  | .processTransaction _ _ => [.write .claim, .write .confirm, .write .fail]
  | .confirmationJob _ => [.write .claim, .write .confirm, .write .fail, .queue]
  | .stalledJob _ => [.queue]
  | .processExpiredTransactions _ => [.write .expire]
  | .processSubmittedTransactions => [.queue]
  | .processOrphanedPending => [.write .submit, .write .fail, .queue]
  | .createWallet _ _ => [.wallet]
  | .createCustodialWallet _ => [.wallet]
  | .processTokenEvents _ _ => [.index, .balance]

section Programs

variable {env : ProcessEnv} {A : List Right}

theorem permitted_emit (e : Emission) (h : e.confirms = false) :
    All (Permitted env A) (perform (Call.emit e) : Program Unit) :=
  all_perform fun hconfirms => by rw [h] at hconfirms; cases hconfirms

theorem permitted_incrementMetric (name tenantId tokenId : String)
    (h : name ≠ "transactions_confirmed_total") :
    All (Permitted env A) (incrementMetric name tenantId tokenId) :=
  permitted_emit _ (decide_eq_false h)

theorem permitted_report (hk : .write .confirm ∈ A) (e : Emission) :
    All (Permitted env A) (perform (Call.emit e) : Program Unit) :=
  all_perform fun _ => hk

theorem permitted_ofExcept {α : Type} (r : Except JsError α) :
    All (Permitted env A) (Prog.ofExcept r : Program α) := by
  cases r <;> exact trivial

/-! ## Repositories -/

theorem permitted_rejectTransition (id : String) (expected : Transaction → TransactionStatus) :
    All (Permitted env A) (TransactionRepository.rejectTransition prisma id expected) := by
  refine All.perform_bind trivial ?_
  intro r
  cases r <;> exact trivial

theorem permitted_transition {k : Kind} (hk : .write k ∈ A) (id : String)
    (source target : TransactionStatus) {data : TransactionUpdateInput}
    (hw : Writes k [source] { data with status := some target }) :
    All (Permitted env A) (TransactionRepository.transition prisma id source target data) := by
  unfold TransactionRepository.transition
  split
  · exact trivial
  · refine All.perform_bind ⟨k, hk, hw⟩ ?_
    intro count
    split
    · exact all_perform trivial
    · exact permitted_rejectTransition _ _

theorem permitted_markSubmitted (hk : .write .submit ∈ A) (id hash : String) :
    All (Permitted env A) (TransactionRepository.markSubmitted id hash) := by
  refine All.perform_bind trivial ?_
  intro now
  exact permitted_transition hk id _ _ (.submit hash now)

theorem permitted_markConfirming (hk : .write .claim ∈ A) (id : String) :
    All (Permitted env A) (TransactionRepository.markConfirming id) := by
  refine All.perform_bind trivial ?_
  intro now
  exact permitted_transition hk id _ _ (.claim now)

theorem permitted_expire (hk : .write .expire ∈ A) (id reason : String) :
    All (Permitted env A) (TransactionRepository.expire id reason) := by
  refine All.perform_bind trivial ?_
  intro now
  exact permitted_transition hk id _ _ (.expire reason now)

theorem permitted_markFailed (hk : .write .fail ∈ A) (id reason : String) :
    All (Permitted env A) (TransactionRepository.markFailed id reason) := by
  refine All.perform_bind trivial ?_
  intro now
  unfold TransactionRepository.transitionFromAny
  split
  · exact trivial
  · refine All.perform_bind ⟨.fail, hk, .fail reason now⟩ ?_
    intro count
    split
    · exact all_perform trivial
    · exact permitted_rejectTransition _ _

/-! ## Submission -/

theorem permitted_prepare (registry : BlockchainAdapterRegistry) (request : TransferRequest) :
    All (Permitted env A) (TransferService.prepare registry request) := by
  refine All.bind (All.perform_bind trivial ?_) ?_
  · intro token
    cases token <;> exact trivial
  intro token
  refine All.perform_bind trivial ?_
  intro fromWallet
  split
  · exact trivial
  split
  · exact trivial
  refine All.perform_bind trivial ?_
  intro toWallet
  split
  · exact trivial
  refine All.bind (permitted_ofExcept _) ?_
  intro adapter
  refine All.bind (All.perform_bind trivial ?_) ?_
  · intro wallet
    cases wallet <;> exact trivial
  intro custody
  split <;> exact trivial

theorem permitted_submit (hsubmit : .write .submit ∈ A) (hqueue : .queue ∈ A)
    (backoffDelayMs : Nat) (request : TransferRequest) (token : Token) (fromWallet toWallet : Wallet)
    (transaction : Transaction) : All (Permitted env A)
      (TransferService.submit backoffDelayMs request token fromWallet toWallet transaction) := by
  refine All.perform_bind trivial ?_
  intro hash
  refine All.bind (permitted_incrementMetric _ _ _ (by simp)) ?_
  intro _
  refine All.bind (permitted_markSubmitted hsubmit _ _) ?_
  intro submitted
  refine All.perform_bind hqueue ?_
  intro _
  exact trivial

theorem permitted_transfer (hcreate : .write .create ∈ A) (hsubmit : .write .submit ∈ A)
    (hfail : .write .fail ∈ A) (hqueue : .queue ∈ A) (registry : BlockchainAdapterRegistry)
    (backoffDelayMs : Nat) (request : TransferRequest) :
    All (Permitted env A) (TransferService.transfer registry backoffDelayMs request) := by
  refine All.bind (permitted_prepare _ _) ?_
  intro prepared
  refine All.bind ?_ ?_
  · refine All.perform_bind ⟨hcreate, rfl⟩ ?_
    intro transaction
    refine All.bind (permitted_incrementMetric _ _ _ (by simp)) ?_
    intro _
    exact trivial
  · intro transaction
    refine All.tryCatch (permitted_submit hsubmit hqueue _ _ _ _ _ _) ?_
    intro error
    split
    · exact trivial
    · exact permitted_markFailed hfail _ _

/-! ## Confirmation -/

theorem permitted_rereadAfterConflict (tx : Transaction) (error : JsError) (claims : Bool) :
    All (Permitted env A) (ConfirmationProcessor.rereadAfterConflict tx error claims) := by
  refine All.perform_bind trivial ?_
  intro found
  split
  · exact trivial
  split
  · refine All.bind (permitted_emit _ rfl) ?_
    intro _
    exact trivial
  split <;> exact trivial

theorem permitted_claimConfirmation (hk : .write .claim ∈ A) (tx : Transaction) :
    All (Permitted env A) (ConfirmationProcessor.claimConfirmation tx) := by
  refine All.tryCatch (All.bind (permitted_markConfirming hk _) fun _ => trivial) ?_
  intro error
  split
  · exact permitted_rereadAfterConflict _ _ _
  · exact trivial

theorem permitted_persistConfirmation (hk : .write .confirm ∈ A) (tx : Transaction)
    (result : BlockchainTransaction) :
    All (Permitted env A) (ConfirmationProcessor.persistConfirmation tx result) := by
  refine All.tryCatch (all_perform ⟨hk, tx, result, rfl⟩) ?_
  intro error
  split
  · exact All.bind (permitted_rereadAfterConflict _ _ _) fun _ => trivial
  · exact trivial

theorem permitted_handleRevertedTransaction (hk : .write .fail ∈ A) (tx : Transaction) :
    All (Permitted env A) (ConfirmationProcessor.handleRevertedTransaction tx) := by
  refine All.bind ?_ ?_
  · refine All.tryCatch (All.bind (permitted_markFailed hk _ _) fun _ => trivial) ?_
    intro error
    split
    · exact permitted_rereadAfterConflict _ _ _
    · exact trivial
  · intro failed
    split
    · exact All.bind (permitted_incrementMetric _ _ _ (by simp)) fun _ => permitted_emit _ rfl
    · exact trivial

theorem permitted_handleConfirmationError (tx : Transaction) (error : JsError) :
    All (Permitted env A) (ConfirmationProcessor.handleConfirmationError tx error) := by
  unfold ConfirmationProcessor.handleConfirmationError
  split
  · exact trivial
  · refine All.bind (permitted_incrementMetric _ _ _ (by simp)) ?_
    intro _
    exact All.bind (permitted_emit _ rfl) fun _ => trivial

theorem permitted_processTransaction (hclaim : .write .claim ∈ A) (hconfirm : .write .confirm ∈ A)
    (hfail : .write .fail ∈ A) (registry : BlockchainAdapterRegistry)
    (transactionId tenantId : String) : All (Permitted env A)
      (ConfirmationProcessor.processTransaction registry transactionId tenantId) := by
  refine All.perform_bind trivial ?_
  intro found
  split
  · exact trivial
  split
  · exact trivial
  refine All.tryCatch ?_ fun error => permitted_handleConfirmationError _ error
  refine All.bind ?_ ?_
  · exact All.bind (permitted_ofExcept _) fun _ => all_perform trivial
  intro result
  split
  · refine All.bind (permitted_claimConfirmation hclaim _) ?_
    intro claimed
    split
    · refine All.bind (permitted_persistConfirmation hconfirm _ _) ?_
      intro _
      exact All.bind (permitted_report hconfirm _) fun _ => permitted_report hconfirm _
    · exact trivial
  · exact permitted_handleRevertedTransaction hfail _
  · exact trivial

theorem permitted_confirmationQueueWorker (hclaim : .write .claim ∈ A)
    (hconfirm : .write .confirm ∈ A) (hfail : .write .fail ∈ A) (hqueue : .queue ∈ A)
    (registry : BlockchainAdapterRegistry) (jobId : String) :
    All (Permitted env A) (confirmationQueueWorker registry jobId) := by
  refine All.perform_bind hqueue ?_
  intro data
  split
  · exact trivial
  refine All.bind ?_ ?_
  · refine All.tryCatch (All.bind ?_ fun _ => trivial) fun _ => trivial
    exact permitted_processTransaction hclaim hconfirm hfail _ _ _
  · intro succeeded
    split <;> exact all_perform hqueue

/-! ## The scheduled passes -/

theorem permitted_processExpiredTransactions (hk : .write .expire ∈ A) (expirationBefore : Date) :
    All (Permitted env A) (ExpirationProcessor.processExpiredTransactions expirationBefore) := by
  refine All.perform_bind trivial ?_
  intro transactions
  refine All.bind (All.forEach ?_ _) fun _ => trivial
  intro transaction
  refine All.tryCatch (All.bind (permitted_expire hk _ _) fun _ => permitted_emit _ rfl) ?_
  intro error
  split
  · exact permitted_emit _ rfl
  · exact All.bind (permitted_emit _ rfl) fun _ => trivial

theorem permitted_processSubmittedTransactions (hqueue : .queue ∈ A) :
    All (Permitted env A) SubmissionRecoveryProcessor.processSubmittedTransactions := by
  refine All.perform_bind trivial ?_
  intro transactions
  refine All.forEach ?_ _
  intro transaction
  refine All.tryCatch (All.perform_bind hqueue fun _ => permitted_emit _ rfl) ?_
  exact fun _ => permitted_emit _ rfl

theorem permitted_adopt (hsubmit : .write .submit ∈ A) (hqueue : .queue ∈ A)
    (transaction : Transaction) (txHash : String) :
    All (Permitted env A) (PendingRecoveryProcessor.adopt transaction txHash) := by
  refine All.bind (permitted_markSubmitted hsubmit _ _) ?_
  intro _
  exact All.perform_bind hqueue fun _ => permitted_emit _ rfl

theorem permitted_isEventListenerHealthy (processor : PendingRecoveryProcessor) (tokenId : String) :
    All (Permitted env A) (processor.isEventListenerHealthy tokenId) := by
  refine All.perform_bind trivial ?_
  intro cursor
  split
  · exact trivial
  split
  · exact trivial
  · exact All.perform_bind trivial fun _ => trivial

theorem permitted_fail (hfail : .write .fail ∈ A) (transaction : Transaction) :
    All (Permitted env A) (PendingRecoveryProcessor.fail transaction) :=
  All.bind (permitted_markFailed hfail _ _) fun _ => permitted_emit _ rfl

theorem permitted_recoverOne (hsubmit : .write .submit ∈ A) (hfail : .write .fail ∈ A)
    (hqueue : .queue ∈ A) (processor : PendingRecoveryProcessor)
    (orphan : Transaction × Wallet × Wallet) :
    All (Permitted env A) (processor.recoverOne orphan) := by
  refine All.tryCatch ?_ fun _ => permitted_emit _ rfl
  refine All.perform_bind trivial ?_
  intro found
  split
  · exact permitted_adopt hsubmit hqueue _ _
  refine All.perform_bind trivial ?_
  intro now
  split
  · exact trivial
  refine All.bind (permitted_isEventListenerHealthy _ _) ?_
  intro healthy
  split
  · exact permitted_fail hfail _
  · exact permitted_emit _ rfl

theorem permitted_processOrphanedPending (hsubmit : .write .submit ∈ A) (hfail : .write .fail ∈ A)
    (hqueue : .queue ∈ A) (processor : PendingRecoveryProcessor) :
    All (Permitted env A) processor.processOrphanedPending := by
  refine All.perform_bind trivial ?_
  intro now
  refine All.perform_bind trivial ?_
  intro candidates
  exact All.forEach (permitted_recoverOne hsubmit hfail hqueue processor) _

/-! ## Wallets -/

theorem permitted_create (hw : .wallet ∈ A) (data : WalletRequest) (address : String) :
    All (Permitted env A) (WalletRepository.create env data address) := by
  unfold WalletRepository.create
  cases h : normalizeWalletAddress env data.chainId address with
  | error e => exact trivial
  | ok normalized => exact all_perform ⟨hw, address, h⟩

theorem permitted_createCustodial (hw : .wallet ∈ A) (data : WalletRequest) (address : String) :
    All (Permitted env A) (WalletRepository.createCustodial env data address) := by
  unfold WalletRepository.createCustodial
  cases h : normalizeWalletAddress env data.chainId address with
  | error e => exact trivial
  | ok normalized => exact all_perform ⟨hw, address, h⟩

theorem permitted_findByAddress (chainId : Nat) (address : String) :
    All (Permitted env A) (WalletRepository.findByAddress env chainId address) := by
  refine All.bind (permitted_ofExcept _) ?_
  intro insensitive
  split <;> exact all_perform trivial

theorem permitted_createWallet (hw : .wallet ∈ A) (lib : AddressLibraries) (data : WalletRequest)
    (address : String) :
    All (Permitted env A) (WalletService.createWallet env lib data address) := by
  refine All.bind (permitted_ofExcept _) ?_
  intro valid
  split
  · refine All.bind (permitted_findByAddress _ _) ?_
    intro found
    split
    · exact trivial
    · exact permitted_create hw _ _
  · exact trivial

theorem permitted_createCustodialWallet (hw : .wallet ∈ A) (registry : BlockchainAdapterRegistry)
    (data : WalletRequest) :
    All (Permitted env A) (CustodialWalletService.createCustodialWallet env registry data) := by
  refine All.bind (permitted_ofExcept _) ?_
  intro blockchain
  split
  · exact trivial
  refine All.bind (permitted_ofExcept _) ?_
  intro adapter
  split
  · exact All.perform_bind trivial fun _ => permitted_createCustodial hw _ _
  · exact trivial

/-! ## The event listener -/

theorem permitted_syncWalletBalance (hb : .balance ∈ A) (address tokenId tokenAddress : String)
    (blockNumber : Nat) : All (Permitted env A)
      (TransferEventService.syncWalletBalance env address tokenId tokenAddress blockNumber) := by
  refine All.bind (permitted_ofExcept _) ?_
  intro chainId
  refine All.bind (permitted_findByAddress _ _) ?_
  intro wallet
  split
  · exact trivial
  refine All.perform_bind trivial ?_
  intro balance
  refine All.bind (All.perform_bind hb ?_) fun _ => trivial
  intro updated
  split
  · exact all_perform trivial
  · refine All.tryCatch (all_perform hb) ?_
    intro error
    split
    · exact all_perform trivial
    · exact trivial

theorem permitted_handleTransferEvent (hi : .index ∈ A) (hb : .balance ∈ A) (log : TransferLog)
    (blockNumber : Nat) :
    All (Permitted env A) (TransferEventService.handleTransferEvent env log blockNumber) := by
  refine All.perform_bind trivial ?_
  intro token
  split
  · exact trivial
  refine All.bind ?_ ?_
  · refine All.perform_bind trivial ?_
    intro found
    split
    · exact permitted_emit _ rfl
    · exact All.perform_bind hi fun _ => trivial
  intro _
  refine All.bind (permitted_ofExcept _) ?_
  intro contract
  refine All.bind (permitted_syncWalletBalance hb _ _ _ _) ?_
  exact fun _ => permitted_syncWalletBalance hb _ _ _ _

/-- A window is fetched with the calls of the functions it is given. -/
theorem all_fetchWindow {Op : Type} {Res : Op → Type} {P : Op → Prop} {TLog : Type}
    {fetch : Int → Int → Prog Op Res JsError (List TLog)}
    {onShrink : Int → JsError → Prog Op Res JsError Unit} (hf : ∀ a b, All P (fetch a b))
    (hs : ∀ n e, All P (onShrink n e)) (start finish : Int) (fuel : Nat) (size : Int) :
    All P (fetchWindow fetch onShrink start finish fuel size) := by
  induction fuel generalizing size with
  | zero => exact All.bind (hf _ _) fun _ => trivial
  | succ fuel ih =>
    refine All.tryCatch (All.bind (hf _ _) fun _ => trivial) ?_
    intro error
    split
    · exact All.bind (hs _ _) fun _ => ih _
    · exact trivial

/-- A scan makes the calls of the functions it is given. -/
theorem all_scanLogWindows {Op : Type} {Res : Op → Type} {P : Op → Prop} {TLog : Type}
    {fetch : Int → Int → Prog Op Res JsError (List TLog)}
    {onWindow : List TLog → Int → Int → Prog Op Res JsError Unit}
    {onShrink : Int → JsError → Prog Op Res JsError Unit} (hf : ∀ a b, All P (fetch a b))
    (hw : ∀ logs a b, All P (onWindow logs a b)) (hs : ∀ n e, All P (onShrink n e))
    (start finish maxRange : Int) (maxWindows : Nat) :
    All P (scanLogWindows fetch onWindow onShrink start finish maxRange maxWindows) := by
  have hscan : ∀ remaining start size windows lastProcessed,
      All P (scanFrom fetch onWindow onShrink finish remaining start size windows lastProcessed) := by
    intro remaining
    induction remaining with
    | zero =>
      intro start size windows lastProcessed
      exact trivial
    | succ remaining ih =>
      intro start size windows lastProcessed
      unfold scanFrom
      split
      · refine All.bind (all_fetchWindow hf hs _ _ _ _) ?_
        intro window
        exact All.bind (hw _ _ _) fun _ => ih _ _ _ _
      · exact trivial
  exact hscan _ _ _ _ _

theorem permitted_processTokenEvents (hi : .index ∈ A) (hb : .balance ∈ A)
    (listener databaseTokenId : String) :
    All (Permitted env A) (EventListener.processTokenEvents listener env databaseTokenId) := by
  refine All.perform_bind hi ?_
  intro added
  split
  swap
  · exact trivial
  refine All.bind (All.tryCatch (All.bind ?_ fun _ => trivial) fun _ => trivial) ?_
  swap
  · exact fun r => All.perform_bind hi fun _ => permitted_ofExcept _
  refine All.perform_bind trivial ?_
  intro token
  split
  · exact trivial
  split
  · exact trivial
  refine All.bind (permitted_ofExcept _) ?_
  intro config
  refine All.perform_bind hi ?_
  intro cursor
  refine All.tryCatch ?_ ?_
  · refine All.perform_bind trivial ?_
    intro currentBlock
    dsimp only
    split
    · exact trivial
    refine All.perform_bind trivial ?_
    intro learned
    refine All.bind (all_scanLogWindows ?_ ?_ ?_ _ _ _ _) fun _ => trivial
    · exact fun _ _ => all_perform trivial
    · intro logs first last
      refine All.bind (All.forEach ?_ _) ?_
      · exact fun log => permitted_handleTransferEvent hi hb _ _
      · intro _
        refine All.bind (All.perform_bind trivial ?_) fun _ => trivial
        exact fun _ => all_perform hi
    · exact fun _ _ => all_perform hi
  · intro error
    refine All.bind (All.tryCatch ?_ fun _ => trivial) fun _ => trivial
    refine All.bind (All.perform_bind trivial ?_) fun _ => trivial
    exact fun _ => all_perform hi

end Programs

/-- **Every program keeps to the rights of its task.** -/
theorem permitted_prog (D : Deployment) (t : Task) :
    All (Permitted D.processEnv t.rights) (D.prog t) := by
  cases t with
  | transfer request =>
    refine All.bind (permitted_transfer ?_ ?_ ?_ ?_ _ _ _) fun _ => trivial
    all_goals simp [Task.rights]
  | processTransaction id tenantId =>
    refine permitted_processTransaction ?_ ?_ ?_ _ _ _
    all_goals simp [Task.rights]
  | confirmationJob jobId =>
    refine permitted_confirmationQueueWorker ?_ ?_ ?_ ?_ _ _
    all_goals simp [Task.rights]
  | stalledJob jobId => exact all_perform (List.mem_singleton_self _)
  | processExpiredTransactions expirationBefore =>
    exact All.bind (permitted_processExpiredTransactions (by simp [Task.rights]) _) fun _ => trivial
  | processSubmittedTransactions => exact permitted_processSubmittedTransactions (by simp [Task.rights])
  | processOrphanedPending =>
    refine permitted_processOrphanedPending ?_ ?_ ?_ _
    all_goals simp [Task.rights]
  | createWallet data address =>
    exact All.bind (permitted_createWallet (by simp [Task.rights]) _ _ _) fun _ => trivial
  | createCustodialWallet data =>
    exact All.bind (permitted_createCustodialWallet (by simp [Task.rights]) _ _) fun _ => trivial
  | processTokenEvents listener tokenId =>
    exact permitted_processTokenEvents (by simp [Task.rights]) (by simp [Task.rights]) _ _

/-- A call that some process may make. -/
def Issued (D : Deployment) (o : Call) : Prop := ∃ A, Permitted D.processEnv A o

/-- **Every call of a run is one that some process may make.** -/
theorem issued_moment (D : Deployment) (w : World) {es : List SystemEvent} {e : SystemEvent}
    {m : Moment Call Input World} (h : (w.start.after D.system es).moment e = some m) :
    Issued D m.op :=
  all_moments (fun t => (permitted_prog D t).mono fun _ ho => ⟨t.rights, ho⟩) w h

end TransactionSimulator
