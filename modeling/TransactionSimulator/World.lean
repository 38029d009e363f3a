import TransactionSimulator.Database
import TransactionSimulator.Lib.JobQueue
import TransactionSimulator.Lib.Pool

/-!
# The world around the programs

Everything the modelled processes share or talk to: the database, the confirmation queue, the
clock, the EVM chain with its `Transfer` logs, and the adapters of the chains.  `Call` lists the
calls the code awaits; each is one atomic step.  `exec` runs a call on the world.

What an adapter answers is not computed: it comes with the call (`Reply`) and is written down
(`World.answers`, `World.broadcasts`), so that a statement can speak of what a chain has
answered so far.  A call may also fail (`Fault`): it throws, and a statement or a queue
operation may have taken effect nevertheless.
-/

namespace TransactionSimulator

open Relational Queueing Concurrent

/-! ## Chains and adapters -/

/-- `ConfirmationStatus` of `blockchain-adapter.ts`. -/
inductive ConfirmationStatus
  | pending
  | confirmed
  | failed
  deriving DecidableEq, Repr

structure BlockchainTransaction where
  txHash : String
  blockNumber : Option Nat
  confirmations : Nat
  status : ConfirmationStatus
  gasUsed : Option Nat
  deriving DecidableEq, Repr

/-- The request that `TransferService` hands to an adapter. -/
structure AdapterTransferRequest where
  tenantId : String
  walletId : String
  toAddress : String
  amount : Int
  assetIdentifier : Option String
  deriving DecidableEq, Repr

structure WalletCustodyStatus where
  custodyType : CustodyType
  hasCustodyKey : Bool
  deriving DecidableEq, Repr

/-- An adapter: the chain it serves, which wallets the platform can sign for there, and whether
it implements `createCustodialWallet`. -/
structure BlockchainAdapter where
  chain : Blockchain
  canSign : WalletCustodyStatus → Bool
  createsCustodialWallets : Bool

def evmAdapter : BlockchainAdapter where
  chain := .EVM
  canSign wallet := wallet.custodyType = .CUSTODIAL && wallet.hasCustodyKey
  createsCustodialWallets := true

def bitcoinAdapter : BlockchainAdapter where
  chain := .BITCOIN
  canSign _ := true
  createsCustodialWallets := false

def solanaAdapter : BlockchainAdapter where
  chain := .SOLANA
  canSign wallet := wallet.custodyType = .CUSTODIAL && wallet.hasCustodyKey
  createsCustodialWallets := true

def Blockchain.name : Blockchain → String
  | EVM => "EVM"
  | BITCOIN => "BITCOIN"
  | SOLANA => "SOLANA"

/-- `BlockchainAdapterRegistry`. -/
structure BlockchainAdapterRegistry where
  adapters : List BlockchainAdapter

def BlockchainAdapterRegistry.get (registry : BlockchainAdapterRegistry) (chain : Blockchain) :
    Except JsError BlockchainAdapter :=
  match registry.adapters.find? fun candidate => candidate.chain = chain with
  | some adapter => .ok adapter
  | none => .error (.error ("No blockchain adapter registered for chain: " ++ chain.name))

/-- The registry of `blockchain-adapters.ts`. -/
def blockchainAdapterRegistry : BlockchainAdapterRegistry :=
  ⟨[evmAdapter, bitcoinAdapter, solanaAdapter]⟩

/-- An ERC-20 `Transfer` log, with its addresses spelled as the RPC client delivers them. -/
structure TransferLog where
  address : String
  fromAddress : String
  toAddress : String
  value : Nat
  transactionHash : String
  logIndex : Nat
  deriving DecidableEq, Repr

structure Block where
  minedAt : Date
  logs : List TransferLog
  deriving DecidableEq, Repr

/-- The EVM chain, without reorganisations: blocks are only ever appended. -/
abbrev Chain := List Block

namespace Chain

/-- The number of the newest block. -/
def head (chain : Chain) : Nat := chain.length - 1

/-- The number of the newest block as of a time; `-1` before the first one. -/
def headAt (chain : Chain) (time : Int) : Int :=
  (chain.countP fun b => decide ((b.minedAt : Int) ≤ time) : Int) - 1

/-- The contract that emitted the log is the one asked for; without an address, any is. -/
def emittedBy (address : Option String) (l : TransferLog) : Bool :=
  address.all fun a => Js.toLowerCase l.address = Js.toLowerCase a

/-- The logs of one block that pass the filter, with the number of the block. -/
def logsOf (chain : Chain) (address : Option String) (number : Nat) : List (TransferLog × Nat) :=
  match chain[number]? with
  | some b => (b.logs.filter (emittedBy address)).map (·, number)
  | none => []

/-- `eth_getLogs` over an inclusive range of blocks. -/
def getLogs (chain : Chain) (address : Option String) (fromBlock toBlock : Int) :
    List (TransferLog × Nat) :=
  ((List.range chain.length).filter fun n : Nat => fromBlock ≤ n && n ≤ toBlock).flatMap
    (chain.logsOf address)

end Chain

/-! ## The world -/

/-- `TransactionConfirmationJob`. -/
structure TransactionConfirmationJob where
  transactionId : String
  tenantId : String
  deriving DecidableEq, Repr

/-- An answer of `adapter.getTransaction`. -/
structure Answer where
  chain : Blockchain
  txHash : String
  result : BlockchainTransaction
  deriving DecidableEq, Repr

/-- A transfer that `adapter.submitTransfer` broadcast, and the hash it returned. -/
structure Broadcast where
  chain : Blockchain
  request : AdapterTransferRequest
  txHash : String
  deriving DecidableEq, Repr

/-- The module variables of an event-listener process: `processingTokens` and
`learnedMaxBlockRange`. -/
structure ListenerMemory where
  processingTokens : List String := []
  learnedMaxBlockRange : Option Int := none

/-- A counter that was incremented, or a line of the transaction log. -/
inductive Emission
  | metric (name tenantId tokenId : String)
  | log (message : String)
  deriving DecidableEq, Repr

structure World where
  db : Db
  queue : JobQueue TransactionConfirmationJob
  clock : Date
  chain : Chain
  answers : List Answer
  broadcasts : List Broadcast
  emissions : List Emission
  listeners : String → ListenerMemory

/-! ## Calls -/

inductive Call
  | stmt (s : Stmt)
  | transaction (body : TxM Unit)
  | now
  | emit (e : Emission)
  | queueAdd (data : TransactionConfirmationJob) (opts : JobOptions)
  | queueTake (jobId : String)
  | queueComplete (jobId : String)
  | queueFail (jobId : String)
  | queueStall (maxStalledCount : Nat) (jobId : String)
  | getTransaction (chain : Blockchain) (txHash : String)
  | submitTransfer (chain : Blockchain) (request : AdapterTransferRequest)
  | generateWallet (chain : Blockchain)
  | getBlockNumber
  | getLogs (address : Option String) (fromBlock toBlock : Int)
  | balanceOf (assetIdentifier walletAddress : String) (blockNumber : Nat)
  | nativeBalance (chain : Blockchain) (walletAddress : String) (blockNumber : Nat)
  | processingAdd (listener tokenId : String)
  | processingDelete (listener tokenId : String)
  | learnedMaxBlockRange (listener : String)
  | learnMaxBlockRange (listener : String) (range : Int)

@[reducible] def Call.Res : Call → Type
  | stmt s => s.Res
  | transaction _ => Unit
  | now => Date
  | emit _ => Unit
  | queueAdd _ _ => Unit
  | queueTake _ => Option TransactionConfirmationJob
  | queueComplete _ => Unit
  | queueFail _ => Unit
  | queueStall _ _ => Unit
  | getTransaction _ _ => BlockchainTransaction
  | submitTransfer _ _ => String
  | generateWallet _ => String
  | getBlockNumber => Nat
  | getLogs _ _ _ => List (TransferLog × Nat)
  | balanceOf _ _ _ => Nat
  | nativeBalance _ _ _ => Nat × Nat
  | processingAdd _ _ => Bool
  | processingDelete _ _ => Unit
  | learnedMaxBlockRange _ => Option Int
  | learnMaxBlockRange _ _ => Unit

/-- What the outside answers to a call that leaves the modelled processes. -/
inductive Reply
  | none
  | transaction (result : BlockchainTransaction)
  | submission (txHash : String)
  | address (address : String)
  | balance (balance : Nat)
  | observation (balance blockNumber : Nat)
  deriving DecidableEq, Repr

/-- A call that throws; `applied`: a write took effect all the same. -/
structure Fault where
  message : String
  applied : Bool := false
  deriving DecidableEq, Repr

/-- All that the outside decides at a call. -/
structure Input where
  fault : Option Fault := Option.none
  uuid : String := ""
  reply : Reply := .none
  deriving DecidableEq, Repr

instance : Inhabited Input := ⟨{}⟩

/-- The error of an outside call that was not answered. -/
def noReply : JsError := .error "request failed"

def World.setListener (w : World) (listener : String) (memory : ListenerMemory) : World :=
  { w with listeners := fun name => if name = listener then memory else w.listeners name }

/-- A call that does not fail. -/
def Call.effect (i : Input) (w : World) : (o : Call) → Except JsError o.Res × World
  | stmt s =>
    ((s.exec ⟨w.clock, i.uuid⟩ w.db).1, { w with db := (s.exec ⟨w.clock, i.uuid⟩ w.db).2 })
  | transaction body =>
    -- an error rolls back
    match body ⟨w.clock, i.uuid⟩ w.db with
    | (.ok a, db) => (.ok a, { w with db })
    | (.error e, _) => (.error e, w)
  | now => (.ok w.clock, w)
  | emit e => (.ok (), { w with emissions := e :: w.emissions })
  | queueAdd data opts => (.ok (), { w with queue := w.queue.add data opts })
  | queueTake jobId =>
    match w.queue.jobs.get jobId with
    | some j =>
      if j.state = .waiting || j.state = .delayed then
        (.ok (some j.data), { w with queue := w.queue.take jobId })
      else (.ok Option.none, w)
    | Option.none => (.ok Option.none, w)
  | queueComplete jobId => (.ok (), { w with queue := w.queue.complete jobId })
  | queueFail jobId => (.ok (), { w with queue := w.queue.fail jobId })
  | queueStall maxStalledCount jobId =>
    (.ok (), { w with queue := w.queue.stall maxStalledCount jobId })
  | getTransaction chain txHash =>
    match i.reply with
    | .transaction result =>
      (.ok result, { w with answers := ⟨chain, txHash, result⟩ :: w.answers })
    | _ => (.error noReply, w)
  | submitTransfer chain request =>
    match i.reply with
    | .submission txHash =>
      (.ok txHash, { w with broadcasts := ⟨chain, request, txHash⟩ :: w.broadcasts })
    | _ => (.error noReply, w)
  | generateWallet _ =>
    match i.reply with
    | .address address => (.ok address, w)
    | _ => (.error noReply, w)
  | getBlockNumber => (.ok w.chain.head, w)
  | getLogs address fromBlock toBlock => (.ok (w.chain.getLogs address fromBlock toBlock), w)
  | balanceOf _ _ _ =>
    match i.reply with
    | .balance balance => (.ok balance, w)
    | _ => (.error noReply, w)
  | nativeBalance _ _ _ =>
    -- the node says at which block it looked
    match i.reply with
    | .observation balance blockNumber => (.ok (balance, blockNumber), w)
    | _ => (.error noReply, w)
  | processingAdd listener tokenId =>
    let memory := w.listeners listener
    if memory.processingTokens.contains tokenId then (.ok false, w)
    else
      (.ok true, w.setListener listener
        { memory with processingTokens := tokenId :: memory.processingTokens })
  | processingDelete listener tokenId =>
    let memory := w.listeners listener
    (.ok (), w.setListener listener
      { memory with processingTokens := memory.processingTokens.filter (· ≠ tokenId) })
  | learnedMaxBlockRange listener => (.ok (w.listeners listener).learnedMaxBlockRange, w)
  | learnMaxBlockRange listener range =>
    (.ok (), w.setListener listener
      { w.listeners listener with learnedMaxBlockRange := some range })

/-- Calls that stay inside the process and cannot fail. -/
def Call.inProcess : Call → Bool
  | now | emit _ | processingAdd _ _ | processingDelete _ _ | learnedMaxBlockRange _
  | learnMaxBlockRange _ _ => true
  | _ => false

/-- Calls that a lost answer leaves undecided: the write may have happened. -/
def Call.durable : Call → Bool
  | stmt _ | transaction _ | queueAdd _ _ | queueTake _ | queueComplete _ | queueFail _
  | queueStall _ _ => true
  | _ => false

/-- A call under its input. -/
def exec (o : Call) (i : Input) (w : World) : Except JsError o.Res × World :=
  match if o.inProcess then none else i.fault with
  | none => o.effect i w
  | some f =>
    (.error (.error f.message), if f.applied && o.durable then (o.effect i w).2 else w)

/-- The programs of the modelled processes. -/
abbrev Program (α : Type) := Prog Call Call.Res JsError α

/-- The client `prisma` of `database/prisma.ts`. -/
def prisma : Client Program where
  stmt s := .perform (Call.stmt s)
  now := .perform Call.now

/-! ## What one call can do -/

/-- **A fact about the world before and after a call** follows if it holds of a call that does
nothing and of a call that takes effect. -/
theorem exec_snd {P : World → World → Prop} {o : Call} {i : Input} {w : World} (hrefl : P w w)
    (heff : P w (o.effect i w).2) : P w (exec o i w).2 := by
  rw [exec]
  split
  · exact heff
  · dsimp only
    split
    · exact heff
    · exact hrefl

theorem exec_snd_cases (o : Call) (i : Input) (w : World) :
    (exec o i w).2 = w ∨ (exec o i w).2 = (o.effect i w).2 :=
  exec_snd (P := fun w w' => w' = w ∨ w' = (o.effect i w).2) (.inl rfl) (.inr rfl)

theorem exec_cases (o : Call) (i : Input) (w : World) :
    exec o i w = o.effect i w ∨ ∃ message, exec o i w = (.error (.error message), w) ∨
      exec o i w = (.error (.error message), (o.effect i w).2) := by
  rw [exec]
  split
  · exact .inl rfl
  · next f _ =>
    refine .inr ⟨f.message, ?_⟩
    cases f.applied && o.durable
    · exact .inl rfl
    · exact .inr rfl

theorem exec_ok {o : Call} {i : Input} {w : World} {a : o.Res} (h : (exec o i w).1 = .ok a) :
    exec o i w = o.effect i w := by
  rw [exec] at h ⊢
  split at h
  · rfl
  · cases h

theorem exec_of_fault_none {o : Call} {i : Input} {w : World} (h : i.fault = none) :
    exec o i w = o.effect i w := by
  rw [exec, h, ite_self]

theorem exec_of_inProcess {o : Call} {i : Input} {w : World} (h : o.inProcess = true) :
    exec o i w = o.effect i w := by
  rw [exec, if_pos h]

end TransactionSimulator
