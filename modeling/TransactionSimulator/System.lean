import TransactionSimulator.Indexer.EventListener
import TransactionSimulator.Workers.Recovery

/-!
# The running system

The processes of a deployment as a pool of programs: requests of the API, workers of the
confirmation queue, the scheduled passes and the event listeners.  Any number of each may run at
once, and each may be cut off between any two of its calls.
-/

namespace TransactionSimulator

open Concurrent Queueing

/-- What a deployment fixes: its adapters, its environment and the settings of its workers. -/
structure Deployment where
  registry : BlockchainAdapterRegistry
  processEnv : ProcessEnv
  libraries : AddressLibraries
  pendingRecovery : PendingRecoveryProcessor
  backoffDelayMs : Nat
  maxStalledCount : Nat

/-- What can be started. -/
inductive Task
  | transfer (request : TransferRequest)
  | processTransaction (transactionId tenantId : String)
  | confirmationJob (jobId : String)
  | stalledJob (jobId : String)
  | processExpiredTransactions (expirationBefore : Date)
  | processSubmittedTransactions
  | processOrphanedPending
  | createWallet (data : WalletRequest) (address : String)
  | createCustodialWallet (data : WalletRequest)
  | processTokenEvents (listener tokenId : String)

def Deployment.prog (D : Deployment) : Task → Program Unit
  | .transfer request => (TransferService.transfer D.registry D.backoffDelayMs request).void
  | .processTransaction transactionId tenantId =>
    ConfirmationProcessor.processTransaction D.registry transactionId tenantId
  | .confirmationJob jobId => confirmationQueueWorker D.registry jobId
  | .stalledJob jobId => .perform (Call.queueStall D.maxStalledCount jobId)
  | .processExpiredTransactions expirationBefore =>
    (ExpirationProcessor.processExpiredTransactions expirationBefore).void
  | .processSubmittedTransactions => SubmissionRecoveryProcessor.processSubmittedTransactions
  | .processOrphanedPending => D.pendingRecovery.processOrphanedPending
  | .createWallet data address =>
    (WalletService.createWallet D.processEnv D.libraries data address).void
  | .createCustodialWallet data =>
    (CustodialWalletService.createCustodialWallet D.processEnv D.registry data).void
  | .processTokenEvents listener tokenId =>
    EventListener.processTokenEvents listener D.processEnv tokenId

/-- What moves without a program: time passes, a block is mined, a listener starts anew. -/
inductive Shift
  | tick (milliseconds : Nat)
  | mine (logs : List TransferLog)
  | restart (listener : String)

def World.shift : Shift → World → World
  | .tick milliseconds, w => { w with clock := w.clock + milliseconds }
  | .mine logs, w => { w with chain := w.chain ++ [⟨w.clock, logs⟩] }
  | .restart listener, w => w.setListener listener {}

def Deployment.system (D : Deployment) : System Call Call.Res JsError World Input Task Shift where
  exec := exec
  prog := D.prog
  shift := World.shift

/-- What can happen in the running system. -/
abbrev SystemEvent := Event Task Input Shift

/-- What is left of every program, and the world. -/
abbrev SystemState := Config Call Call.Res JsError World

/-- A system that has not processed anything: there are tokens and wallets, and the chain has its
first block and may have grown. -/
structure World.Initial (w : World) : Prop where
  genesis : w.chain ≠ []
  transactions : w.db.transactions.rows = []
  tokenTransfers : w.db.tokenTransfers.rows = []
  tokenEventCursors : w.db.tokenEventCursors.rows = []
  outboxEvents : w.db.outboxEvents.rows = []
  jobs : w.queue.jobs.rows = []
  answers : w.answers = []
  broadcasts : w.broadcasts = []
  listeners : ∀ name, w.listeners name = {}

/-- The system before anything has been started in it. -/
def World.start (w : World) : SystemState := ⟨w, []⟩

/-! ## A small deployment

One token and two wallets under the default settings; concrete runs start here. -/

/-- The settings that `confirmation.queue.runner.ts` falls back to. -/
def PendingRecoveryProcessor.defaults : PendingRecoveryProcessor := ⟨120000, 900000, 60000⟩

def Deployment.defaults : Deployment where
  registry := blockchainAdapterRegistry
  processEnv := fun _ => none
  libraries := ⟨fun address => address.length = 42, fun _ => false⟩
  pendingRecovery := .defaults
  backoffDelayMs := 5000
  maxStalledCount := 1

def Token.sample : Token := ⟨"token", "USDX", some "0x5fbdb2315678afecb367f032d93f642f64180aa3", .EVM⟩

/-- A custodial wallet, under the lower-case spelling of its address. -/
def Wallet.sender : Wallet :=
  ⟨"sender", "tenant", "user", 31337, "0x5aaeb6053f3e94c9b9a09f33669435e7ef1beaed", .CUSTODIAL, true⟩

def Wallet.receiver : Wallet :=
  ⟨"receiver", "tenant", "user", 31337, "0xfb6916095ca1df60bb79ce92ce3ea74c37c5d359", .EXTERNAL,
    false⟩

def Db.sample : Db where
  transactions := .empty
  wallets := ⟨[.sender, .receiver], by decide⟩
  tokens := ⟨[.sample], by decide⟩
  tokenTransfers := .empty
  tokenEventCursors := .empty
  balanceSnapshots := .empty
  outboxEvents := .empty
  tenants := ["tenant"]
  users := ["user"]
  owners := by decide
  references := by simp [Relational.Table.empty]

def World.sample : World where
  db := .sample
  queue := .empty
  clock := 1000000
  chain := [⟨0, []⟩]
  answers := []
  broadcasts := []
  emissions := []
  listeners := fun _ => {}

theorem World.sample_initial : World.sample.Initial :=
  ⟨by decide, rfl, rfl, rfl, rfl, rfl, rfl, rfl, fun _ => rfl⟩

/-- The same system on another chain. -/
def World.onChain (chain : Chain) : World := { World.sample with chain }

theorem World.onChain_initial {chain : Chain} (h : chain ≠ []) : (World.onChain chain).Initial :=
  ⟨h, rfl, rfl, rfl, rfl, rfl, rfl, rfl, fun _ => rfl⟩

/-- A transfer of the token between the two wallets, its addresses in checksum case. -/
def TransferLog.sample : TransferLog where
  address := "0x5FbDB2315678afecb367f032d93F642f64180aa3"
  fromAddress := "0x5aAeb6053F3E94C9b9A09f33669435E7Ef1BeAed"
  toAddress := "0xfB6916095ca1df60bB79Ce92cE3Ea74c37c5d359"
  value := 7
  transactionHash := "0x01"
  logIndex := 0

def TransferRequest.sample : TransferRequest := ⟨"tenant", "user", "token", "sender", "receiver", 7⟩

/-- The inputs of a program between whose calls the others do nothing. -/
def alone (inputs : List Input) (n : Nat) : List SystemEvent × Input := ([], inputs.getD n {})

/-- The program `pid` makes its next calls, one for each input. -/
def steps (pid : Nat) (inputs : List Input) : List SystemEvent := inputs.map (.step pid)

/-- A system on a chain whose newest block has a transfer. -/
def World.withTransfer : World := .onChain [⟨0, []⟩, ⟨0, [.sample]⟩]

/-- A listener records the transfer. -/
def catchUp : List SystemEvent :=
  .spawn (.processTokenEvents "listener" "token") ::
    steps 0 (List.replicate 13 { uuid := "a", reply := .balance 7 } ++
      List.replicate 12 { uuid := "b", reply := .balance 7 })

/-- The inputs under which `TransferService.transfer` creates the row `id` and is handed `hash`
for its broadcast; what follows is the update, the second reading and the enqueueing. -/
def transferInputs (id hash : String) : List Input :=
  [{}, {}, {}, {}, { uuid := id }, {}, { reply := .submission hash }, {}, {}, {}, {}, {}]

/-- A request that is served without a fault. -/
def sampleTransfer : List SystemEvent :=
  .spawn (.transfer .sample) :: steps 0 (transferInputs "tx" "0x01")

/-- The row that `sampleTransfer` leaves. -/
def Transaction.sample : Transaction where
  id := "tx"
  tenantId := "tenant"
  tokenId := "token"
  fromWalletId := "sender"
  toWalletId := "receiver"
  txHash := some "0x01"
  amount := 7
  gasUsed := none
  blockNumber := none
  status := .SUBMITTED
  createdAt := 1000000
  submittedAt := some 1000000
  confirmationStartedAt := none
  confirmedAt := none
  failureReason := none
  failedAt := none

end TransactionSimulator
