import TransactionSimulator.Blockchain.WalletAddress
import TransactionSimulator.Lib.Bytes

/-!
# Custody of keys

`envelope.ts`, `CustodialWalletService`, the two signer services, and the tables of wallets and custody
keys, with the bytes that are stored.  The cipher, the key libraries of the two chains and the key
management service are parameters.
-/

namespace TransactionSimulator

open Concurrent Relational

/-! ## Libraries -/

/-- `Keypair` of `@solana/web3.js`. -/
structure Keypair where
  secretKey : List UInt8
  /-- In base58. -/
  publicKey : String
  deriving DecidableEq, Repr

/-- Whatever the two key libraries and the cipher do. -/
structure CustodyLibraries where
  /-- AES-256-GCM: the ciphertext and the tag. -/
  encrypt : (key iv plaintext : List UInt8) → List UInt8 × List UInt8
  decrypt : (key iv tag ciphertext : List UInt8) → Option (List UInt8)
  /-- `generatePrivateKey` of viem. -/
  generatePrivateKey : (entropy : Nat → UInt8) → String
  /-- The address of `privateKeyToAccount`. -/
  privateKeyToAddress : (privateKey : String) → Except JsError String
  /-- `Keypair.generate`. -/
  generateKeypair : (entropy : Nat → UInt8) → Keypair
  fromSecretKey : (secretKey : List UInt8) → Except JsError Keypair
  /-- What `toString('utf-8')` makes of bytes that are not the encoding of a text. -/
  replaced : List UInt8 → String

/-- What is known of them.  The cipher keeps the length and has tags of 16 bytes; what is encrypted is
decrypted again.  A generated private key is not empty; a generated key pair is read back from its secret
key, and no other is read from nothing. -/
structure CustodyLibraries.Lawful (lib : CustodyLibraries) : Prop where
  length_ciphertext : ∀ key iv plaintext, (lib.encrypt key iv plaintext).1.length = plaintext.length
  length_tag : ∀ key iv plaintext, (lib.encrypt key iv plaintext).2.length = 16
  decrypt_encrypt : ∀ key iv plaintext,
    lib.decrypt key iv (lib.encrypt key iv plaintext).2 (lib.encrypt key iv plaintext).1 = some plaintext
  generatePrivateKey_ne : ∀ entropy, lib.generatePrivateKey entropy ≠ ""
  fromSecretKey_generated : ∀ entropy,
    lib.fromSecretKey (lib.generateKeypair entropy).secretKey = .ok (lib.generateKeypair entropy)
  fromSecretKey_nil : ∀ keypair, lib.fromSecretKey [] ≠ .ok keypair

/-! ## The tables -/

/-- A row of the table `Wallet`. -/
structure StoredWallet where
  id : String
  tenantId : String
  ownerId : String
  chainId : Nat
  address : String
  custodyType : CustodyType
  deriving DecidableEq, Repr

def StoredWallet.keys (x : StoredWallet) : List WalletKey := [.id x.id, .address x.address]

structure WalletCustodyKey where
  id : String
  walletId : String
  encryptedKey : List UInt8
  kmsKeyId : String
  deriving DecidableEq, Repr

inductive CustodyKeyUnique
  | id (id : String)
  | walletId (walletId : String)
  deriving DecidableEq, Repr

def WalletCustodyKey.keys (k : WalletCustodyKey) : List CustodyKeyUnique := [.id k.id, .walletId k.walletId]

structure CustodyWorld where
  wallets : Table StoredWallet WalletKey StoredWallet.keys
  custodyKeys : Table WalletCustodyKey CustodyKeyUnique WalletCustodyKey.keys
  /-- The foreign key of `WalletCustodyKey`. -/
  references : ∀ k ∈ custodyKeys.rows, (wallets.get (.id k.walletId)).isSome

/-- What is given for a new wallet, with its normal address. -/
structure StoredWalletInput where
  tenantId : String
  ownerId : String
  chainId : Nat
  address : String
  deriving DecidableEq, Repr

def newWallet (id : String) (data : StoredWalletInput) (custodyType : CustodyType) : StoredWallet :=
  ⟨id, data.tenantId, data.ownerId, data.chainId, data.address, custodyType⟩

/-- `wallet.create`. -/
def CustodyWorld.create (w : CustodyWorld) (row : StoredWallet) : Except JsError StoredWallet × CustodyWorld :=
  match h : w.wallets.insert row with
  | some t =>
    (.ok row,
      { w with
        wallets := t
        references := by
          intro k hk
          rw [Table.get_insert h, Option.isSome_or, w.references k hk]
          rfl })
  | none => (.error uniqueViolation, w)

/-- `wallet.create` with a nested key: both rows or neither. -/
def CustodyWorld.createCustodial (w : CustodyWorld) (row : StoredWallet) (key : WalletCustodyKey)
    (hkey : key.walletId = row.id) : Except JsError StoredWallet × CustodyWorld :=
  match h : w.wallets.insert row, h' : w.custodyKeys.insert key with
  | some wallets, some custodyKeys =>
    (.ok row,
      { wallets := wallets
        custodyKeys := custodyKeys
        references := by
          intro k hk
          rw [Table.get_insert h, Option.isSome_or, Bool.or_eq_true]
          rw [Table.insert_rows h'] at hk
          rcases List.mem_append.mp hk with hk | hk
          · exact .inl (w.references k hk)
          · right
            rw [List.mem_singleton.mp hk, hkey, if_pos (by simp [StoredWallet.keys])]
            rfl })
  | _, _ => (.error uniqueViolation, w)

/-- Somebody writes other bytes into the key of a wallet. -/
structure Tampering where
  walletId : String
  encryptedKey : List UInt8
  deriving DecidableEq, Repr

def CustodyWorld.tampered (w : CustodyWorld) (t : Tampering) : CustodyWorld :=
  { w with
    custodyKeys :=
      ⟨w.custodyKeys.written (fun k => k.walletId = t.walletId)
        (fun k => { k with encryptedKey := t.encryptedKey }), by
        rw [Table.written, List.pairwise_map]
        refine w.custodyKeys.unique.imp ?_
        intro a b hab
        split <;> split <;> exact hab⟩
    references := by
      intro k hk
      obtain ⟨s, hs, rfl⟩ := Table.mem_written.mp hk
      split <;> exact w.references s hs }

/-! ## Calls -/

inductive CustodyOp
  | randomBytes (n : Nat)
  | generatePrivateKey
  | generateKeypair
  | encrypt (key iv plaintext : List UInt8)
  | kmsEncrypt (keyId : String) (plaintext : List UInt8)
  | kmsDecrypt (ciphertext : List UInt8) (keyId : String)
  | walletCreate (data : StoredWalletInput)
  | walletCreateCustodial (data : StoredWalletInput) (encryptedKey : List UInt8) (kmsKeyId : String)
  | walletFindFirst (cond : StoredWallet → Bool)
  | walletFindFirstWithCustody (id tenantId : String)

@[reducible] def CustodyOp.Res : CustodyOp → Type
  | randomBytes _ => List UInt8
  | generatePrivateKey => String
  | generateKeypair => Keypair
  | encrypt _ _ _ => List UInt8 × List UInt8
  | kmsEncrypt _ _ => Option (List UInt8)
  | kmsDecrypt _ _ => Option (List UInt8)
  | walletCreate _ => StoredWallet
  | walletCreateCustodial _ _ _ => StoredWallet
  | walletFindFirst _ => Option StoredWallet
  | walletFindFirstWithCustody _ _ => Option (StoredWallet × Option WalletCustodyKey)

/-- All that the outside decides at a call: a fault of the database, the `uuid()` of new rows, random
bytes, the answer of the key management service. -/
structure CustodyInput where
  fault : Option Fault := none
  uuid : String := ""
  keyUuid : String := ""
  entropy : Nat → UInt8 := fun _ => 0
  kms : Option (List UInt8) := none

instance : Inhabited CustodyInput := ⟨{}⟩

section Calls

variable (lib : CustodyLibraries)

def CustodyOp.effect (i : CustodyInput) (w : CustodyWorld) :
    (o : CustodyOp) → Except JsError o.Res × CustodyWorld
  | randomBytes n => (.ok (List.ofFn fun k : Fin n => i.entropy k), w)
  | generatePrivateKey => (.ok (lib.generatePrivateKey i.entropy), w)
  | generateKeypair => (.ok (lib.generateKeypair i.entropy), w)
  | encrypt key iv plaintext => (.ok (lib.encrypt key iv plaintext), w)
  | kmsEncrypt _ _ => (.ok i.kms, w)
  | kmsDecrypt _ _ => (.ok i.kms, w)
  | walletCreate data => w.create (newWallet i.uuid data .EXTERNAL)
  | walletCreateCustodial data encryptedKey kmsKeyId =>
    w.createCustodial (newWallet i.uuid data .CUSTODIAL) ⟨i.keyUuid, i.uuid, encryptedKey, kmsKeyId⟩ rfl
  | walletFindFirst cond => (.ok (w.wallets.rows.find? cond), w)
  | walletFindFirstWithCustody id tenantId =>
    (.ok ((w.wallets.rows.find? fun x => x.id = id && x.tenantId = tenantId).map fun x =>
      (x, w.custodyKeys.get (.walletId x.id))), w)

/-- The calls that stay inside the process. -/
def CustodyOp.inProcess : CustodyOp → Bool
  | randomBytes _ | generatePrivateKey | generateKeypair | encrypt _ _ _ => true
  | _ => false

def CustodyOp.exec (o : CustodyOp) (i : CustodyInput) (w : CustodyWorld) :
    Except JsError o.Res × CustodyWorld :=
  match if o.inProcess then none else i.fault with
  | none => o.effect lib i w
  | some f => (.error (.error f.message), if f.applied then (o.effect lib i w).2 else w)

end Calls

abbrev CustodyProgram (α : Type) := Prog CustodyOp CustodyOp.Res JsError α

/-! ## The envelope -/

section Envelope

variable (lib : CustodyLibraries) (env : ProcessEnv)

def isLocalProvider : Bool := env "KMS_PROVIDER" = some "local"

def getWalletKmsKeyId : Except JsError String :=
  let configured := (env "KMS_KEY_ID").map Js.trim
  if !Js.isFalsy configured then .ok (configured.getD "")
  else if isLocalProvider env then .ok "local"
  else .error (.error ("KMS_KEY_ID is not set. It is required to create custodial wallets whenever " ++
    "KMS_PROVIDER is not \"local\" (e.g. a KMS key ARN or alias)."))

def parseLocalMasterKey (raw : Option String) : Except JsError (List UInt8) :=
  let value := (raw.map Js.trim).getD ""
  if value = "" then
    .error (.error ("LOCAL_KMS_MASTER_KEY is not set. Add a 64-char hex string (32 bytes) to your " ++
      ".env.test (or .env for local dev) — required whenever KMS_PROVIDER=local."))
  else if value.length = 64 && value.toList.all fun c => (Bytes.hexValue c).isSome then
    .ok (Bytes.ofHex value)
  else
    .error (.error ("LOCAL_KMS_MASTER_KEY must be exactly 64 hex characters (32 bytes), got " ++
      toString value.length ++ " characters. Check for a stray quote, trailing newline, or \"0x\" prefix " ++
      "in your .env file."))

def getLocalMasterKey : Except JsError (List UInt8) := parseLocalMasterKey (env "LOCAL_KMS_MASTER_KEY")

/-- The layout: 12 bytes `iv`, 16 bytes tag, the ciphertext. -/
def encryptLocal (privateKey : String) : CustodyProgram (List UInt8) := do
  let iv ← Prog.perform (CustodyOp.randomBytes 12)
  let key ← Prog.ofExcept (getLocalMasterKey env)
  let (ciphertext, authTag) ← Prog.perform (CustodyOp.encrypt key iv (Bytes.utf8 privateKey))
  return iv ++ authTag ++ ciphertext

/-- `toString('utf-8')`. -/
def textOf (bytes : List UInt8) : String := (Bytes.text? bytes).getD (lib.replaced bytes)

def decryptLocal (blob : List UInt8) : Except JsError String := do
  let iv := blob.take 12
  let authTag := (blob.drop 12).take 16
  let ciphertext := blob.drop 28
  let key ← getLocalMasterKey env
  match lib.decrypt key iv authTag ciphertext with
  | some plaintext => return textOf lib plaintext
  | none => throw (.error "Unsupported state or unable to authenticate data")

def encryptWalletKey (privateKey kmsKeyId : String) : CustodyProgram (List UInt8) := do
  if isLocalProvider env then encryptLocal env privateKey
  else
    match ← Prog.perform (CustodyOp.kmsEncrypt kmsKeyId (Bytes.utf8 privateKey)) with
    | some ciphertextBlob => return ciphertextBlob
    | none => throw (.error "Key encryption failed")

def decryptWalletKey (ciphertext : List UInt8) (kmsKeyId : String) : CustodyProgram String := do
  if isLocalProvider env then Prog.ofExcept (decryptLocal lib env ciphertext)
  else
    match ← Prog.perform (CustodyOp.kmsDecrypt ciphertext kmsKeyId) with
    | some plaintext => return textOf lib plaintext
    | none => throw (.error "Key decryption failed")

end Envelope

/-! ## Wallets -/

structure CustodialWalletMaterial where
  address : String
  secret : String
  deriving DecidableEq, Repr

section Material

variable (lib : CustodyLibraries)

def EvmAdapter.createCustodialWallet : CustodyProgram CustodialWalletMaterial := do
  let privateKey ← Prog.perform CustodyOp.generatePrivateKey
  let address ← Prog.ofExcept (lib.privateKeyToAddress privateKey)
  return { address := address, secret := privateKey }

def SolanaAdapter.createCustodialWallet : CustodyProgram CustodialWalletMaterial := do
  let keypair ← Prog.perform CustodyOp.generateKeypair
  return { address := keypair.publicKey, secret := Bytes.toHex keypair.secretKey }

/-- The method `createCustodialWallet` of an adapter that has it. -/
def BlockchainAdapter.createCustodialWallet (adapter : BlockchainAdapter) :
    Option (CustodyProgram CustodialWalletMaterial) :=
  if adapter.createsCustodialWallets then
    match adapter.chain with
    | .EVM => some (EvmAdapter.createCustodialWallet lib)
    | .SOLANA => some SolanaAdapter.createCustodialWallet
    | .BITCOIN => none
  else none

end Material

namespace CustodyRepository

variable (env : ProcessEnv)

/-- The columns of a new wallet. -/
def walletInput (data : WalletRequest) (address : String) : Except JsError StoredWalletInput := do
  let normalized ← normalizeWalletAddress env data.chainId address
  return ⟨data.tenantId, data.ownerId, data.chainId, normalized⟩

def create (data : WalletRequest) (address : String) : CustodyProgram StoredWallet := do
  let input ← Prog.ofExcept (walletInput env data address)
  Prog.perform (CustodyOp.walletCreate input)

def createCustodial (data : WalletRequest) (address : String) (encryptedKey : List UInt8)
    (kmsKeyId : String) : CustodyProgram StoredWallet := do
  let input ← Prog.ofExcept (walletInput env data address)
  Prog.perform (CustodyOp.walletCreateCustodial input encryptedKey kmsKeyId)

def findByIdForTenantWithCustody (id tenantId : String) :
    CustodyProgram (Option (StoredWallet × Option WalletCustodyKey)) :=
  .perform (CustodyOp.walletFindFirstWithCustody id tenantId)

def findByAddress (chainId : Nat) (address : String) : CustodyProgram (Option StoredWallet) := do
  let insensitive ← Prog.ofExcept (isCaseInsensitiveWalletAddress env chainId address)
  if insensitive then
    Prog.perform (CustodyOp.walletFindFirst fun x => Js.toLowerCase x.address = Js.toLowerCase address)
  else Prog.perform (CustodyOp.walletFindFirst fun x => x.address = address)

end CustodyRepository

/-- `WalletService.createWallet`, over the two tables. -/
def registerWallet (env : ProcessEnv) (addresses : AddressLibraries) (data : WalletRequest)
    (address : String) : CustodyProgram StoredWallet := do
  let valid ← Prog.ofExcept (isValidWalletAddress env addresses data.chainId address)
  if valid then
    match ← CustodyRepository.findByAddress env data.chainId address with
    | some _ => throw (.appError 409 "WALLET_ALREADY_EXISTS" "Wallet already registered" [])
    | none => CustodyRepository.create env data address
  else throw (.appError 400 "INVALID_WALLET_ADDRESS" "Invalid wallet address" [])

/-- `CustodialWalletService.createCustodialWallet`, over the two tables. -/
def provisionWallet (lib : CustodyLibraries) (env : ProcessEnv) (registry : BlockchainAdapterRegistry)
    (data : WalletRequest) : CustodyProgram StoredWallet := do
  match ← Prog.ofExcept (blockchainForChainId env data.chainId) with
  | none =>
    throw (.appError 400 "UNSUPPORTED_CHAIN" ("Unsupported chainId " ++ toString data.chainId)
      [("chainId", toString data.chainId)])
  | some blockchain =>
    let adapter ← Prog.ofExcept (registry.get blockchain)
    match adapter.createCustodialWallet lib with
    | none =>
      throw (.appError 400 "UNSUPPORTED_CHAIN_CAPABILITY"
        (blockchain.name ++ " does not support custodial wallet creation")
        [("capability", "custodial wallet creation"), ("chain", blockchain.name)])
    | some createCustodialWallet =>
      let kmsKeyId ← Prog.ofExcept (getWalletKmsKeyId env)
      let material ← createCustodialWallet
      let encryptedKey ← encryptWalletKey env material.secret kmsKeyId
      CustodyRepository.createCustodial env data material.address encryptedKey kmsKeyId

/-! ## Signers -/

/-- The client of viem, with the account that it signs for. -/
structure WalletClient where
  privateKey : String
  address : String
  deriving DecidableEq, Repr

section Signers

variable (lib : CustodyLibraries) (env : ProcessEnv)

def getWalletClient (privateKey : String) : Except JsError WalletClient := do
  if privateKey = "" then throw (.error "Private key required")
  else
    let address ← lib.privateKeyToAddress privateKey
    return ⟨privateKey, address⟩

/-- What both signers do first: the stored key, decrypted. -/
def decryptedKey (walletId tenantId : String) : CustodyProgram String := do
  match ← CustodyRepository.findByIdForTenantWithCustody walletId tenantId with
  | none => throw (Errors.walletNotFound none)
  | some (wallet, custodyKey) =>
    match wallet.custodyType, custodyKey with
    | .CUSTODIAL, some key => decryptWalletKey lib env key.encryptedKey key.kmsKeyId
    | _, _ => throw (Errors.walletNotCustodial none)

def SignerService.getWalletClientFor (walletId tenantId : String) : CustodyProgram WalletClient := do
  let privateKey ← decryptedKey lib env walletId tenantId
  Prog.ofExcept (getWalletClient lib privateKey)

def SolanaSignerService.getKeypairFor (walletId tenantId : String) : CustodyProgram Keypair := do
  let secretKeyHex ← decryptedKey lib env walletId tenantId
  Prog.ofExcept (lib.fromSecretKey (Bytes.ofHex secretKeyHex))

end Signers

/-! ## The system -/

inductive CustodyTask
  | createWallet (data : WalletRequest) (address : String)
  | createCustodialWallet (data : WalletRequest)
  | signEvm (walletId tenantId : String)
  | signSolana (walletId tenantId : String)
  deriving DecidableEq

/-- An installation: its libraries, environment and adapters. -/
structure CustodyPlatform where
  lib : CustodyLibraries
  addresses : AddressLibraries
  env : ProcessEnv
  registry : BlockchainAdapterRegistry

/-- Each call in a process of its own; stored keys may be tampered with. -/
def CustodyPlatform.system (P : CustodyPlatform) :
    System CustodyOp CustodyOp.Res JsError CustodyWorld CustodyInput CustodyTask Tampering where
  exec := CustodyOp.exec P.lib
  prog
    | .createWallet data address => (registerWallet P.env P.addresses data address).void
    | .createCustodialWallet data => (provisionWallet P.lib P.env P.registry data).void
    | .signEvm walletId tenantId => (SignerService.getWalletClientFor P.lib P.env walletId tenantId).void
    | .signSolana walletId tenantId => (SolanaSignerService.getKeypairFor P.lib P.env walletId tenantId).void
  shift t w := w.tampered t

abbrev CustodyEvent := Event CustodyTask CustodyInput Tampering

/-- No wallets. -/
def CustodyWorld.empty : CustodyWorld := ⟨.empty, .empty, nofun⟩

end TransactionSimulator
