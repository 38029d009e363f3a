import TransactionSimulator.Services.Transfer

/-!
# Wallet addresses and wallet registration

`evm/chain.ts`, `wallet-address.ts`, and the two services that create wallet rows.  The address
checks of `viem` and `@solana/web3.js` are parameters (`AddressLibraries`).
-/

namespace TransactionSimulator

open Concurrent

/-- `process.env`. -/
abbrev ProcessEnv := String → Option String

/-- The address checks that come from packages: `isAddress` of viem, and whether a text decodes
to a point of the curve (`PublicKey.isOnCurve(new PublicKey(address))`). -/
structure AddressLibraries where
  isAddress : String → Bool
  isOnCurve : String → Bool

def ANVIL_CHAIN_ID : Nat := 31337

def BITCOIN_REGTEST_CHAIN_ID : Nat := 18444

def SOLANA_LOCALNET_CHAIN_ID : Nat := 900

/-- The configured EVM chain; a malformed or reserved `EVM_CHAIN_ID` throws. -/
def getEvmChainId (env : ProcessEnv) : Except JsError Nat :=
  let raw := (env "EVM_CHAIN_ID").map Js.trim
  if Js.isFalsy raw then .ok ANVIL_CHAIN_ID
  else
    let text := raw.getD ""
    let chainId := Js.bigInt text
    if !(Js.isDigits text) || text.toList.head? = some '0' || 2 ^ 53 ≤ chainId then
      .error (.error ("Invalid EVM_CHAIN_ID \"" ++ text ++ "\": expected a positive integer"))
    else if chainId = BITCOIN_REGTEST_CHAIN_ID || chainId = SOLANA_LOCALNET_CHAIN_ID then
      .error (.error ("Invalid EVM_CHAIN_ID " ++ toString chainId ++
        ": collides with a reserved non-EVM chain id"))
    else .ok chainId

def isEvmChainId (env : ProcessEnv) (chainId : Nat) : Except JsError Bool := do
  let evmChainId ← getEvmChainId env
  return chainId = evmChainId

def blockchainForChainId (env : ProcessEnv) (chainId : Nat) : Except JsError (Option Blockchain) := do
  if ← isEvmChainId env chainId then return some .EVM
  else if chainId = BITCOIN_REGTEST_CHAIN_ID then return some .BITCOIN
  else if chainId = SOLANA_LOCALNET_CHAIN_ID then return some .SOLANA
  else return none

/-- `/^bcrt1/i`. -/
def hasBech32Start (address : String) : Bool :=
  (address.toList.take 5).map Char.toLower = "bcrt1".toList

def isCaseInsensitiveWalletAddress (env : ProcessEnv) (chainId : Nat) (address : String) :
    Except JsError Bool := do
  if ← isEvmChainId env chainId then return true
  else if chainId = BITCOIN_REGTEST_CHAIN_ID then return hasBech32Start address
  else return false

def normalizeWalletAddress (env : ProcessEnv) (chainId : Nat) (address : String) :
    Except JsError String := do
  if ← isCaseInsensitiveWalletAddress env chainId address then return Js.toLowerCase address
  else return address

/-- `/^bcrt1[ac-hj-np-z02-9]{8,87}$/i` or `/^[mn2][1-9A-HJ-NP-Za-km-z]{25,39}$/`. -/
def isBitcoinRegtestAddress (address : String) : Bool :=
  let chars := address.toList
  (hasBech32Start address && 8 ≤ (chars.drop 5).length && (chars.drop 5).length ≤ 87 &&
    (chars.drop 5).all fun c => "acdefghjklmnpqrstuvwxyz023456789".toList.contains c.toLower) ||
  (["m", "n", "2"].contains (String.ofList (chars.take 1)) && 25 ≤ (chars.drop 1).length &&
    (chars.drop 1).length ≤ 39 && (chars.drop 1).all fun c =>
      "123456789ABCDEFGHJKLMNPQRSTUVWXYZabcdefghijkmnopqrstuvwxyz".toList.contains c)

def isValidWalletAddress (env : ProcessEnv) (lib : AddressLibraries) (chainId : Nat)
    (address : String) : Except JsError Bool := do
  if ← isEvmChainId env chainId then return lib.isAddress address
  else if chainId = BITCOIN_REGTEST_CHAIN_ID then return isBitcoinRegtestAddress address
  else if chainId = SOLANA_LOCALNET_CHAIN_ID then return address ≠ "" && lib.isOnCurve address
  else return false

/-- The fields of a registration that both services take. -/
structure WalletRequest where
  tenantId : String
  ownerId : String
  chainId : Nat
  deriving DecidableEq, Repr

namespace WalletRepository

def create (env : ProcessEnv) (data : WalletRequest) (address : String) : Program Wallet := do
  let normalized ← Prog.ofExcept (normalizeWalletAddress env data.chainId address)
  prisma.stmt (.walletCreate
    { tenantId := data.tenantId, ownerId := data.ownerId, chainId := data.chainId,
      address := normalized })

def createCustodial (env : ProcessEnv) (data : WalletRequest) (address : String) :
    Program Wallet := do
  let normalized ← Prog.ofExcept (normalizeWalletAddress env data.chainId address)
  prisma.stmt (.walletCreate
    { tenantId := data.tenantId, ownerId := data.ownerId, chainId := data.chainId,
      address := normalized, custodyType := .CUSTODIAL, hasCustodyKey := true })

def findByAddress (env : ProcessEnv) (chainId : Nat) (address : String) :
    Program (Option Wallet) := do
  let insensitive ← Prog.ofExcept (isCaseInsensitiveWalletAddress env chainId address)
  if insensitive then
    prisma.stmt (.walletFindFirst fun w => Js.toLowerCase w.address = Js.toLowerCase address)
  else prisma.stmt (.walletFindFirst fun w => w.address = address)

end WalletRepository

def WalletService.createWallet (env : ProcessEnv) (lib : AddressLibraries) (data : WalletRequest)
    (address : String) : Program Wallet := do
  let valid ← Prog.ofExcept (isValidWalletAddress env lib data.chainId address)
  if valid then
    match ← WalletRepository.findByAddress env data.chainId address with
    | some _ => throw (.appError 409 "WALLET_ALREADY_EXISTS" "Wallet already registered" [])
    | none => WalletRepository.create env data address
  else throw (.appError 400 "INVALID_WALLET_ADDRESS" "Invalid wallet address" [])

/-- The key pair is generated, encrypted and stored in one go; only its address is modelled. -/
def CustodialWalletService.createCustodialWallet (env : ProcessEnv)
    (registry : BlockchainAdapterRegistry) (data : WalletRequest) : Program Wallet := do
  match ← Prog.ofExcept (blockchainForChainId env data.chainId) with
  | none =>
    throw (.appError 400 "UNSUPPORTED_CHAIN" ("Unsupported chainId " ++ toString data.chainId)
      [("chainId", toString data.chainId)])
  | some blockchain =>
    let adapter ← Prog.ofExcept (registry.get blockchain)
    if adapter.createsCustodialWallets then
      let address ← Prog.perform (Call.generateWallet adapter.chain)
      WalletRepository.createCustodial env data address
    else
      throw (.appError 400 "UNSUPPORTED_CHAIN_CAPABILITY"
        (blockchain.name ++ " does not support custodial wallet creation")
        [("capability", "custodial wallet creation"), ("chain", blockchain.name)])

end TransactionSimulator
