import Mathlib.Data.Rat.Floor
import Mathlib.Tactic.Positivity
import TransactionSimulator.World

/-!
# Balances as the adapters read them

`getTokenBalance` of the three adapters, over the calls that they send to their node.  Blocks may be
produced before each call; a call is answered for the chain as it is then.

Solana tells the balance and the slot in one answer.  The EVM adapter, if no block is asked for, reads the
balance first and the block number after it; the Bitcoin adapter reads the height first and the outputs after
it.  What they return is a balance of another block if the wallet's balance has moved in between.

* `tokenBalance_observed_iff`: the requests whose balance is that of the block returned with it.
-/

namespace TransactionSimulator

open Concurrent

/-! ## The chain -/

/-- What the wallets have after a block: balances of contracts, outputs in satoshis, lamports. -/
structure BlockState where
  tokenBalance : (contract walletAddress : String) → Nat
  unspent : (walletAddress : String) → List Nat
  lamports : (walletAddress : String) → Nat

/-- The wallet's balance of an asset. -/
def BlockState.balance (s : BlockState) (chain : Blockchain) (assetIdentifier : Option String)
    (walletAddress : String) : Nat :=
  match chain with
  | .EVM => s.tokenBalance (assetIdentifier.getD "") walletAddress
  | .BITCOIN => (s.unspent walletAddress).sum
  | .SOLANA => s.lamports walletAddress

/-- The blocks of a chain, by their number, height or slot. -/
structure ChainHistory where
  genesis : BlockState
  blocks : List BlockState

namespace ChainHistory

def tip (c : ChainHistory) : Nat := c.blocks.length

def latest (c : ChainHistory) : BlockState := c.blocks.getLastD c.genesis

def at? (c : ChainHistory) (blockNumber : Int) : Option BlockState :=
  if blockNumber < 0 then none else (c.genesis :: c.blocks)[blockNumber.toNat]?

/-- More blocks are produced. -/
def mined (c : ChainHistory) (blocks : List BlockState) : ChainHistory := { c with blocks := c.blocks ++ blocks }

theorem at?_tip (c : ChainHistory) : c.at? c.tip = some c.latest := by
  rw [at?, if_neg (by omega), Int.toNat_natCast, tip, latest, List.getLastD_eq_getLast?]
  induction c.blocks using List.reverseRecOn with
  | nil => rfl
  | append_singleton blocks s => simp

theorem at?_mined {c : ChainHistory} {blockNumber : Int} {s : BlockState} (h : c.at? blockNumber = some s)
    (blocks : List BlockState) : (c.mined blocks).at? blockNumber = some s := by
  rw [at?] at h ⊢
  split at h
  · cases h
  · next hneg =>
    rw [if_neg hneg, mined, ← List.cons_append, List.getElem?_append_left (List.getElem?_eq_some_iff.mp h).1]
    exact h

end ChainHistory

/-! ## Calls -/

inductive BalanceRpc
  | readContract (address walletAddress : String) (blockNumber : Option Int)
  | getBlockNumber
  | getblockchaininfo
  | listunspent (walletAddress : String)
  | getBalanceAndContext (walletAddress : String) (minContextSlot : Option Int)
  deriving DecidableEq, Repr

/-- The amounts of outputs are in BTC. -/
@[reducible] def BalanceRpc.Res : BalanceRpc → Type
  | readContract _ _ _ => Nat
  | getBlockNumber => Nat
  | getblockchaininfo => Nat
  | listunspent _ => List Rat
  | getBalanceAndContext _ _ => Nat × Nat

/-- The blocks that are produced before a call, and whether the call fails. -/
structure RpcInput where
  blocks : List BlockState := []
  fault : Option String := none

instance : Inhabited RpcInput := ⟨{}⟩

/-- What the node answers, for the chain as it is. -/
def BalanceRpc.answer (c : ChainHistory) : (o : BalanceRpc) → Except JsError o.Res
  | readContract address walletAddress none => .ok (c.latest.tokenBalance address walletAddress)
  | readContract address walletAddress (some blockNumber) =>
    match c.at? blockNumber with
    | some s => .ok (s.tokenBalance address walletAddress)
    | none => .error (.error "block not found")
  | getBlockNumber => .ok c.tip
  | getblockchaininfo => .ok c.tip
  | listunspent walletAddress => .ok ((c.latest.unspent walletAddress).map fun n : Nat => (n : Rat) / 100000000)
  | getBalanceAndContext walletAddress minContextSlot =>
    if minContextSlot.any fun slot => (c.tip : Int) < slot then .error (.error "Minimum context slot has not been reached")
    else .ok (c.latest.lamports walletAddress, c.tip)

def BalanceRpc.exec (o : BalanceRpc) (i : RpcInput) (c : ChainHistory) : Except JsError o.Res × ChainHistory :=
  match i.fault with
  | none => (o.answer (c.mined i.blocks), c.mined i.blocks)
  | some message => (.error (.error message), c.mined i.blocks)

abbrev BalanceProgram (α : Type) := Prog BalanceRpc BalanceRpc.Res JsError α

/-! ## The adapters -/

structure TokenBalanceRequest where
  assetIdentifier : Option String := none
  walletAddress : String
  blockNumber : Option Int := none
  deriving DecidableEq, Repr

/-- A balance and the position at which it was observed. -/
structure TokenBalance where
  balance : Int
  blockNumber : Int
  deriving DecidableEq, Repr

def EvmAdapter.getTokenBalance (request : TokenBalanceRequest) : BalanceProgram TokenBalance := do
  if Js.isFalsy request.assetIdentifier then
    throw (.error "EVM token balance requires an asset contract address")
  else
    let balance ← Prog.perform (BalanceRpc.readContract (request.assetIdentifier.getD "")
      request.walletAddress request.blockNumber)
    match request.blockNumber with
    | some blockNumber => return ⟨(balance : Nat), blockNumber⟩
    | none =>
      let blockNumber ← Prog.perform BalanceRpc.getBlockNumber
      return ⟨(balance : Nat), (blockNumber : Nat)⟩

/-- `Number(amount.toFixed(8))`. -/
def fixed8 (amount : Rat) : Rat := round (amount * 100000000) / 100000000

def btcToSatoshis (amount : Rat) : Except JsError Int :=
  if amount < 0 then .error (.error "Bitcoin RPC returned an invalid BTC amount")
  else .ok (round (fixed8 amount * 100000000))

def BitcoinAdapter.getTokenBalance (request : TokenBalanceRequest) : BalanceProgram TokenBalance := do
  if Js.isFalsy request.assetIdentifier then
    let observedBlock ← Prog.perform BalanceRpc.getblockchaininfo
    if request.blockNumber.any fun blockNumber => ((observedBlock : Nat) : Int) < blockNumber then
      throw (.error ("Requested Bitcoin observation at height " ++ toString (request.blockNumber.getD 0) ++
        " is ahead of chain tip " ++ toString (observedBlock : Nat)))
    else
      let utxos ← Prog.perform (BalanceRpc.listunspent request.walletAddress)
      let balance ← Prog.ofExcept ((utxos : List Rat).foldlM
        (fun total amount => do return total + (← btcToSatoshis amount)) 0)
      return ⟨balance, (observedBlock : Nat)⟩
  else throw (.error "Bitcoin balance reads support the native BTC asset only")

def toSafeSolanaSlot (blockNumber : Int) : Except JsError Int :=
  if blockNumber < 0 || 2 ^ 53 ≤ blockNumber then
    .error (.error "Solana observation slot exceeds JavaScript safe integer range")
  else .ok blockNumber

/-- `PublicKey` of `@solana/web3.js` reads some texts. -/
def SolanaAdapter.getTokenBalance (isPublicKey : String → Bool) (request : TokenBalanceRequest) :
    BalanceProgram TokenBalance := do
  if Js.isFalsy request.assetIdentifier then
    let minContextSlot ← Prog.ofExcept (request.blockNumber.mapM toSafeSolanaSlot)
    if isPublicKey request.walletAddress then
      let (value, slot) ← Prog.perform
        (BalanceRpc.getBalanceAndContext request.walletAddress minContextSlot)
      return ⟨(value : Nat), (slot : Nat)⟩
    else throw (.error "Invalid public key input")
  else throw (.error "Solana balance reads support the native SOL asset only")

/-- `getTokenBalance` of the adapter.  All three adapters have it. -/
def BlockchainAdapter.getTokenBalance (adapter : BlockchainAdapter) (isPublicKey : String → Bool)
    (request : TokenBalanceRequest) : BalanceProgram TokenBalance :=
  match adapter.chain with
  | .EVM => EvmAdapter.getTokenBalance request
  | .BITCOIN => BitcoinAdapter.getTokenBalance request
  | .SOLANA => SolanaAdapter.getTokenBalance isPublicKey request

/-! ## Amounts -/

/-- **An amount of satoshis is read back from BTC.** -/
theorem btcToSatoshis_div (n : Nat) : btcToSatoshis ((n : Rat) / 100000000) = .ok n := by
  have hmul : (n : Rat) / 100000000 * 100000000 = (n : Int) := by
    rw [div_mul_cancel₀ _ (by norm_num)]
    norm_cast
  have hfixed : fixed8 ((n : Rat) / 100000000) = (n : Rat) / 100000000 := by
    rw [fixed8, hmul, round_intCast, Int.cast_natCast]
  rw [btcToSatoshis, if_neg (by rw [not_lt]; positivity), hfixed, hmul, round_intCast]

/-- **The outputs add up to the balance.** -/
theorem sum_satoshis (amounts : List Nat) (total : Int) :
    (amounts.map fun n : Nat => (n : Rat) / 100000000).foldlM
      (fun total amount => do return total + (← btcToSatoshis amount)) total =
        (.ok (total + (amounts.sum : Nat)) : Except JsError Int) := by
  induction amounts generalizing total with
  | nil => simp; rfl
  | cons n amounts ih =>
    rw [List.map_cons, List.foldlM_cons, btcToSatoshis_div]
    show List.foldlM _ (total + (n : Int)) _ = _
    rw [ih, List.sum_cons]
    push_cast
    rw [add_assoc]

/-! ## What is observed -/

section Observations

variable {isPublicKey : String → Bool} {adapter : BlockchainAdapter} {request : TokenBalanceRequest}
  {c c' : ChainHistory} {inp : Nat → RpcInput}

/-- What the adapter returns is the wallet's balance at the position that it returns with it. -/
def ObservedThere (isPublicKey : String → Bool) (adapter : BlockchainAdapter) (request : TokenBalanceRequest)
    (c : ChainHistory) (inp : Nat → RpcInput) : Prop :=
  ∀ observed, ((adapter.getTokenBalance isPublicKey request).run BalanceRpc.exec inp c).1 = .ok observed →
    ∃ s, ((adapter.getTokenBalance isPublicKey request).run BalanceRpc.exec inp c).2.at?
        observed.blockNumber = some s ∧
      observed.balance = s.balance adapter.chain request.assetIdentifier request.walletAddress

/-- The balance and the position are read by two calls, the first of which is answered at `c`. -/
def TokenBalanceRequest.readsTwice (request : TokenBalanceRequest) (chain : Blockchain) (c : ChainHistory) :
    Bool :=
  match chain with
  | .EVM => !Js.isFalsy request.assetIdentifier && request.blockNumber.isNone
  | .BITCOIN =>
    Js.isFalsy request.assetIdentifier && !(request.blockNumber.any fun blockNumber => (c.tip : Int) < blockNumber)
  | .SOLANA => false

/-- If there are two reads, the blocks produced between them leave the wallet's balance as it is. -/
def UnmovedBetween (chain : Blockchain) (request : TokenBalanceRequest) (c : ChainHistory)
    (inp : Nat → RpcInput) : Prop :=
  request.readsTwice chain (c.mined (inp 0).blocks) = true → (inp 0).fault = none → (inp 1).fault = none →
    ((c.mined (inp 0).blocks).mined (inp 1).blocks).latest.balance chain request.assetIdentifier
        request.walletAddress =
      (c.mined (inp 0).blocks).latest.balance chain request.assetIdentifier request.walletAddress

theorem observedThere_of_error {e : JsError}
    (h : ((adapter.getTokenBalance isPublicKey request).run BalanceRpc.exec inp c).1 = .error e) :
    ObservedThere isPublicKey adapter request c inp := by
  intro observed hok
  rw [h] at hok
  cases hok

theorem observedThere_iff_of_run {observed : TokenBalance} {s : BlockState}
    (h : (adapter.getTokenBalance isPublicKey request).run BalanceRpc.exec inp c = (.ok observed, c'))
    (hs : c'.at? observed.blockNumber = some s) :
    ObservedThere isPublicKey adapter request c inp ↔
      observed.balance = s.balance adapter.chain request.assetIdentifier request.walletAddress := by
  rw [ObservedThere, h]
  constructor
  · intro hall
    obtain ⟨s', hs', hbalance⟩ := hall observed rfl
    rw [hs, Option.some.injEq] at hs'
    rw [hs']
    exact hbalance
  · rintro hbalance observed' ⟨⟩
    exact ⟨s, hs, hbalance⟩

theorem BalanceRpc.exec_of_fault {o : BalanceRpc} {i : RpcInput} {message : String}
    (h : i.fault = some message) : o.exec i c = (.error (.error message), c.mined i.blocks) := by
  rw [BalanceRpc.exec, h]

theorem BalanceRpc.exec_of_none {o : BalanceRpc} {i : RpcInput} (h : i.fault = none) :
    o.exec i c = (o.answer (c.mined i.blocks), c.mined i.blocks) := by
  rw [BalanceRpc.exec, h]

theorem run_of_failed {α : Type} {o : BalanceRpc} {f : o.Res → BalanceProgram α} {e : JsError}
    (h : (o.exec (inp 0) c).1 = .error e) :
    (((Prog.perform o).bind f).run BalanceRpc.exec inp c).1 = .error e := by
  simp only [Prog.perform, Prog.bind, Prog.run, h]

theorem iff_of_first_failed {o : BalanceRpc} {f : o.Res → BalanceProgram TokenBalance} {message : String}
    (hprog : adapter.getTokenBalance isPublicKey request = (Prog.perform o).bind f)
    (h₀ : (inp 0).fault = some message) :
    ObservedThere isPublicKey adapter request c inp ↔ UnmovedBetween adapter.chain request c inp := by
  refine iff_of_true (observedThere_of_error (e := .error message) ?_) ?_
  · rw [hprog]
    exact run_of_failed (by rw [BalanceRpc.exec_of_fault h₀])
  · intro _ hnone
    rw [h₀] at hnone
    cases hnone

theorem iff_of_second_failed {o o' : BalanceRpc} {f : o.Res → BalanceProgram TokenBalance}
    {g : o'.Res → BalanceProgram TokenBalance} {a : o.Res} {message : String}
    (hprog : adapter.getTokenBalance isPublicKey request = (Prog.perform o).bind f)
    (hfirst : o.exec (inp 0) c = (.ok a, c')) (hrest : f a = (Prog.perform o').bind g)
    (h₁ : (inp 1).fault = some message) :
    ObservedThere isPublicKey adapter request c inp ↔ UnmovedBetween adapter.chain request c inp := by
  refine iff_of_true (observedThere_of_error (e := .error message) ?_) ?_
  · rw [hprog, (Prog.run_perform_bind hfirst).1, hrest]
    exact run_of_failed (by rw [BalanceRpc.exec_of_fault h₁])
  · intro _ _ hnone
    rw [h₁] at hnone
    cases hnone

theorem unmovedBetween_iff (htwice : request.readsTwice adapter.chain (c.mined (inp 0).blocks) = true)
    (h₀ : (inp 0).fault = none) (h₁ : (inp 1).fault = none) :
    UnmovedBetween adapter.chain request c inp ↔
      ((c.mined (inp 0).blocks).mined (inp 1).blocks).latest.balance adapter.chain request.assetIdentifier
          request.walletAddress =
        (c.mined (inp 0).blocks).latest.balance adapter.chain request.assetIdentifier
          request.walletAddress :=
  ⟨fun h => h htwice h₀ h₁, fun h _ _ _ => h⟩

theorem unmovedBetween_of_once
    (htwice : request.readsTwice adapter.chain (c.mined (inp 0).blocks) = false) :
    UnmovedBetween adapter.chain request c inp := by
  intro h
  rw [htwice] at h
  cases h

/-- **The EVM adapter at a block**: one read. -/
theorem evm_at_block (hchain : adapter.chain = .EVM) (hasset : Js.isFalsy request.assetIdentifier = false)
    {blockNumber : Int} (hblock : request.blockNumber = some blockNumber) :
    ObservedThere isPublicKey adapter request c inp := by
  have hprog : adapter.getTokenBalance isPublicKey request =
      (Prog.perform (BalanceRpc.readContract (request.assetIdentifier.getD "") request.walletAddress
        (some blockNumber))).bind fun balance => .pure ⟨(balance : Nat), blockNumber⟩ := by
    rw [BlockchainAdapter.getTokenBalance, hchain]
    dsimp only
    rw [EvmAdapter.getTokenBalance, if_neg (by simp [hasset]), hblock]
    rfl
  have honce : request.readsTwice adapter.chain (c.mined (inp 0).blocks) = false := by
    simp [TokenBalanceRequest.readsTwice, hchain, hblock]
  cases h₀ : (inp 0).fault with
  | some message => exact (iff_of_first_failed hprog h₀).mpr (unmovedBetween_of_once honce)
  | none =>
    cases hs : (c.mined (inp 0).blocks).at? blockNumber with
    | none =>
      refine observedThere_of_error (e := .error "block not found") ?_
      rw [hprog]
      exact run_of_failed (by rw [BalanceRpc.exec_of_none h₀, BalanceRpc.answer, hs])
    | some s =>
      have hanswer : (BalanceRpc.readContract (request.assetIdentifier.getD "") request.walletAddress
          (some blockNumber)).exec (inp 0) c =
          (.ok (s.tokenBalance (request.assetIdentifier.getD "") request.walletAddress),
            c.mined (inp 0).blocks) := by
        rw [BalanceRpc.exec_of_none h₀, BalanceRpc.answer, hs]
      have hrun : (adapter.getTokenBalance isPublicKey request).run BalanceRpc.exec inp c =
          (.ok ⟨(s.tokenBalance (request.assetIdentifier.getD "") request.walletAddress : Nat), blockNumber⟩,
            c.mined (inp 0).blocks) := by
        rw [hprog]
        exact (Prog.run_perform_bind hanswer).1
      rw [observedThere_iff_of_run hrun hs, hchain]
      rfl

/-- **The EVM adapter at the latest block**: the balance of the first read, the block number of the
second. -/
theorem evm_latest (hchain : adapter.chain = .EVM) (hasset : Js.isFalsy request.assetIdentifier = false)
    (hblock : request.blockNumber = none) :
    ObservedThere isPublicKey adapter request c inp ↔ UnmovedBetween adapter.chain request c inp := by
  have hprog : adapter.getTokenBalance isPublicKey request =
      (Prog.perform (BalanceRpc.readContract (request.assetIdentifier.getD "") request.walletAddress none)).bind
        fun balance => (Prog.perform BalanceRpc.getBlockNumber).bind fun blockNumber =>
          .pure ⟨(balance : Nat), (blockNumber : Nat)⟩ := by
    rw [BlockchainAdapter.getTokenBalance, hchain]
    dsimp only
    rw [EvmAdapter.getTokenBalance, if_neg (by simp [hasset]), hblock]
    rfl
  have htwice : request.readsTwice adapter.chain (c.mined (inp 0).blocks) = true := by
    simp [TokenBalanceRequest.readsTwice, hchain, hasset, hblock]
  cases h₀ : (inp 0).fault with
  | some message => exact iff_of_first_failed hprog h₀
  | none =>
    have hfirst : (BalanceRpc.readContract (request.assetIdentifier.getD "") request.walletAddress none).exec
        (inp 0) c = (.ok ((c.mined (inp 0).blocks).latest.tokenBalance (request.assetIdentifier.getD "")
          request.walletAddress), c.mined (inp 0).blocks) := by
      rw [BalanceRpc.exec_of_none h₀, BalanceRpc.answer]
    cases h₁ : (inp 1).fault with
    | some message => exact iff_of_second_failed hprog hfirst rfl h₁
    | none =>
      have hsecond : BalanceRpc.getBlockNumber.exec (inp 1) (c.mined (inp 0).blocks) =
          (.ok ((c.mined (inp 0).blocks).mined (inp 1).blocks).tip,
            (c.mined (inp 0).blocks).mined (inp 1).blocks) := by
        rw [BalanceRpc.exec_of_none h₁, BalanceRpc.answer]
      have hrun : (adapter.getTokenBalance isPublicKey request).run BalanceRpc.exec inp c =
          (.ok ⟨((c.mined (inp 0).blocks).latest.tokenBalance (request.assetIdentifier.getD "")
            request.walletAddress : Nat), ((c.mined (inp 0).blocks).mined (inp 1).blocks).tip⟩,
            (c.mined (inp 0).blocks).mined (inp 1).blocks) := by
        rw [hprog, (Prog.run_perform_bind hfirst).1]
        exact (Prog.run_perform_bind hsecond).1
      rw [observedThere_iff_of_run hrun (ChainHistory.at?_tip _), unmovedBetween_iff htwice h₀ h₁, hchain]
      exact Int.natCast_inj.trans eq_comm

/-- **The Bitcoin adapter**: the height of the first read, the outputs of the second. -/
theorem bitcoin_tip (hchain : adapter.chain = .BITCOIN)
    (hasset : Js.isFalsy request.assetIdentifier = true) :
    ObservedThere isPublicKey adapter request c inp ↔ UnmovedBetween adapter.chain request c inp := by
  have hprog : ∃ f, adapter.getTokenBalance isPublicKey request =
      (Prog.perform BalanceRpc.getblockchaininfo).bind f ∧
      (∀ n : Nat, (request.blockNumber.any fun blockNumber => (n : Int) < blockNumber) = true →
        ∃ e, f n = .throw e) ∧
      ∀ n : Nat, (request.blockNumber.any fun blockNumber => (n : Int) < blockNumber) = false →
        f n = (Prog.perform (BalanceRpc.listunspent request.walletAddress)).bind fun utxos =>
          (Prog.ofExcept ((utxos : List Rat).foldlM
            (fun total amount => do return total + (← btcToSatoshis amount)) 0)).bind fun balance =>
              .pure ⟨balance, (n : Nat)⟩ := by
    rw [BlockchainAdapter.getTokenBalance, hchain]
    dsimp only
    rw [BitcoinAdapter.getTokenBalance, if_pos hasset]
    refine ⟨_, rfl, ?_, ?_⟩
    · intro n hahead
      rw [if_pos hahead]
      exact ⟨_, rfl⟩
    · intro n hahead
      rw [if_neg (by simp [hahead])]
      rfl
  obtain ⟨f, hprog, hahead, hreached⟩ := hprog
  cases h₀ : (inp 0).fault with
  | some message => exact iff_of_first_failed hprog h₀
  | none =>
    have hfirst : BalanceRpc.getblockchaininfo.exec (inp 0) c =
        (.ok (c.mined (inp 0).blocks).tip, c.mined (inp 0).blocks) := by
      rw [BalanceRpc.exec_of_none h₀, BalanceRpc.answer]
    cases hany : request.blockNumber.any fun blockNumber => ((c.mined (inp 0).blocks).tip : Int) < blockNumber with
    | true =>
      obtain ⟨e, he⟩ := hahead _ hany
      refine iff_of_true (observedThere_of_error (e := e) ?_) (unmovedBetween_of_once ?_)
      · rw [hprog, (Prog.run_perform_bind hfirst).1, he]
        rfl
      · rw [hchain, TokenBalanceRequest.readsTwice, hany, Bool.not_true, Bool.and_false]
    | false =>
      have hrest := hreached _ hany
      cases h₁ : (inp 1).fault with
      | some message => exact iff_of_second_failed hprog hfirst hrest h₁
      | none =>
        have htwice : request.readsTwice adapter.chain (c.mined (inp 0).blocks) = true := by
          rw [hchain, TokenBalanceRequest.readsTwice, hany, hasset, Bool.not_false, Bool.and_true]
        have hsecond : (BalanceRpc.listunspent request.walletAddress).exec (inp 1) (c.mined (inp 0).blocks) =
            (.ok ((((c.mined (inp 0).blocks).mined (inp 1).blocks).latest.unspent request.walletAddress).map
              fun n : Nat => (n : Rat) / 100000000), (c.mined (inp 0).blocks).mined (inp 1).blocks) := by
          rw [BalanceRpc.exec_of_none h₁, BalanceRpc.answer]
        have hrun : (adapter.getTokenBalance isPublicKey request).run BalanceRpc.exec inp c =
            (.ok ⟨((((c.mined (inp 0).blocks).mined (inp 1).blocks).latest.unspent
              request.walletAddress).sum : Nat), (c.mined (inp 0).blocks).tip⟩,
              (c.mined (inp 0).blocks).mined (inp 1).blocks) := by
          rw [hprog, (Prog.run_perform_bind hfirst).1, hrest, (Prog.run_perform_bind hsecond).1, sum_satoshis,
            Int.zero_add]
          rfl
        rw [observedThere_iff_of_run hrun (ChainHistory.at?_mined (ChainHistory.at?_tip _) _),
          unmovedBetween_iff htwice h₀ h₁, hchain]
        exact Int.natCast_inj

/-- **The Solana adapter**: one read. -/
theorem solana_slot (hchain : adapter.chain = .SOLANA) :
    ObservedThere isPublicKey adapter request c inp := by
  have hprog : adapter.getTokenBalance isPublicKey request = SolanaAdapter.getTokenBalance isPublicKey request := by
    rw [BlockchainAdapter.getTokenBalance, hchain]
  rw [SolanaAdapter.getTokenBalance] at hprog
  cases hasset : Js.isFalsy request.assetIdentifier with
  | false =>
    refine observedThere_of_error (e := .error "Solana balance reads support the native SOL asset only") ?_
    rw [hprog, if_neg (by simp [hasset])]
    rfl
  | true =>
    rw [if_pos hasset] at hprog
    cases hslot : request.blockNumber.mapM toSafeSolanaSlot with
    | error e =>
      refine observedThere_of_error (e := e) ?_
      rw [hprog, hslot]
      rfl
    | ok minContextSlot =>
      rw [hslot] at hprog
      cases hkey : isPublicKey request.walletAddress with
      | false =>
        refine observedThere_of_error (e := .error "Invalid public key input") ?_
        rw [hprog, hkey]
        rfl
      | true =>
        have hcall : adapter.getTokenBalance isPublicKey request =
            (Prog.perform (BalanceRpc.getBalanceAndContext request.walletAddress minContextSlot)).bind
              fun result => .pure ⟨(result.1 : Nat), (result.2 : Nat)⟩ := by
          rw [hprog, hkey]
          rfl
        cases h₀ : (inp 0).fault with
        | some message =>
          refine observedThere_of_error (e := .error message) ?_
          rw [hcall]
          exact run_of_failed (by rw [BalanceRpc.exec_of_fault h₀])
        | none =>
          cases hany : minContextSlot.any fun slot => ((c.mined (inp 0).blocks).tip : Int) < slot with
          | true =>
            refine observedThere_of_error (e := .error "Minimum context slot has not been reached") ?_
            rw [hcall]
            exact run_of_failed (by rw [BalanceRpc.exec_of_none h₀, BalanceRpc.answer, if_pos hany])
          | false =>
            have hanswer : (BalanceRpc.getBalanceAndContext request.walletAddress minContextSlot).exec (inp 0) c =
                (.ok ((c.mined (inp 0).blocks).latest.lamports request.walletAddress,
                  (c.mined (inp 0).blocks).tip), c.mined (inp 0).blocks) := by
              rw [BalanceRpc.exec_of_none h₀, BalanceRpc.answer, if_neg (by simp [hany])]
            have hrun : (adapter.getTokenBalance isPublicKey request).run BalanceRpc.exec inp c =
                (.ok ⟨((c.mined (inp 0).blocks).latest.lamports request.walletAddress : Nat),
                  (c.mined (inp 0).blocks).tip⟩, c.mined (inp 0).blocks) := by
              rw [hcall]
              exact (Prog.run_perform_bind hanswer).1
            rw [observedThere_iff_of_run hrun (ChainHistory.at?_tip _), hchain]
            rfl

/-- **Every adapter, every request, every production of blocks**: the returned balance is the wallet's at the
returned position, exactly unless blocks that move it are produced between two reads. -/
theorem tokenBalance_observed_iff (isPublicKey : String → Bool) (adapter : BlockchainAdapter) (request : TokenBalanceRequest)
    (c : ChainHistory) (inp : Nat → RpcInput) :
    ObservedThere isPublicKey adapter request c inp ↔ UnmovedBetween adapter.chain request c inp := by
  cases hchain : adapter.chain with
  | EVM =>
    rw [← hchain]
    cases hasset : Js.isFalsy request.assetIdentifier with
    | true =>
      refine iff_of_true (observedThere_of_error
        (e := .error "EVM token balance requires an asset contract address") ?_) (unmovedBetween_of_once ?_)
      · rw [BlockchainAdapter.getTokenBalance, hchain]
        dsimp only
        rw [EvmAdapter.getTokenBalance, if_pos hasset]
        rfl
      · rw [hchain, TokenBalanceRequest.readsTwice, hasset, Bool.not_true, Bool.false_and]
    | false =>
      cases hblock : request.blockNumber with
      | some blockNumber =>
        refine iff_of_true (evm_at_block hchain hasset hblock) (unmovedBetween_of_once ?_)
        rw [hchain, TokenBalanceRequest.readsTwice, hblock, Option.isNone_some, Bool.and_false]
      | none => exact evm_latest hchain hasset hblock
  | BITCOIN =>
    rw [← hchain]
    cases hasset : Js.isFalsy request.assetIdentifier with
    | true => exact bitcoin_tip hchain hasset
    | false =>
      refine iff_of_true (observedThere_of_error
        (e := .error "Bitcoin balance reads support the native BTC asset only") ?_) (unmovedBetween_of_once ?_)
      · rw [BlockchainAdapter.getTokenBalance, hchain]
        dsimp only
        rw [BitcoinAdapter.getTokenBalance, if_neg (by simp [hasset])]
        rfl
      · rw [hchain, TokenBalanceRequest.readsTwice, hasset, Bool.false_and]
  | SOLANA =>
    rw [← hchain]
    refine iff_of_true (solana_slot hchain) (unmovedBetween_of_once ?_)
    rw [hchain, TokenBalanceRequest.readsTwice]

end Observations

/-! ## A transfer between two reads -/

section Samples

/-- Every wallet has this much of everything. -/
def evenState (n : Nat) : BlockState := ⟨fun _ _ => n, fun _ => [n], fun _ => n⟩

/-- Nothing is left in the block that is produced before the second call. -/
def emptied : Nat → RpcInput
  | 1 => { blocks := [evenState 0] }
  | _ => {}

/-- The EVM adapter returns the old balance with the new block, the Bitcoin adapter the new balance with the
old height. -/
theorem balance_moved_between :
    ¬ (∀ isPublicKey adapter request c inp, ObservedThere isPublicKey adapter request c inp) ∧
      ((evmAdapter.getTokenBalance (fun _ => true) ⟨some "token", "wallet", none⟩).run BalanceRpc.exec emptied
        ⟨evenState 5, []⟩).1 = .ok ⟨5, 1⟩ ∧
      ((bitcoinAdapter.getTokenBalance (fun _ => true) ⟨none, "wallet", none⟩).run BalanceRpc.exec emptied
        ⟨evenState 5, []⟩).1 = .ok ⟨0, 0⟩ := by
  refine ⟨?_, by decide +kernel, by decide +kernel⟩
  intro h
  have hunmoved : UnmovedBetween .EVM ⟨some "token", "wallet", none⟩ ⟨evenState 5, []⟩ emptied :=
    (evm_latest rfl (by decide) rfl).mp (h (fun _ => true) evmAdapter _ _ _)
  exact absurd (hunmoved rfl rfl rfl) (by decide)

end Samples

end TransactionSimulator
