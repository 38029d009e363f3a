import TransactionSimulator.Auth.Sessions
import TransactionSimulator.Lib.Base64
import TransactionSimulator.System

/-!
# Proofs of wallet ownership

`WalletOwnershipService` and the routes `POST /wallets/challenge` and `POST /wallets`, among the other
processes.  A challenge is not stored: it carries its claims and their MAC.  The MAC, the texts of JSON
values and the check of a signature are parameters.
-/

namespace TransactionSimulator

open Concurrent Texts

/-- `REQUIRE_WALLET_OWNERSHIP_PROOF`, read strictly. -/
def isOwnershipProofRequired (env : ProcessEnv) : Except JsError Bool :=
  let value := (env "REQUIRE_WALLET_OWNERSHIP_PROOF").getD ""
  let raw := Js.toLowerCase (Js.trim value)
  if raw = "" || raw = "false" || raw = "0" then .ok false
  else if raw = "true" || raw = "1" then .ok true
  else
    .error (.error ("Invalid REQUIRE_WALLET_OWNERSHIP_PROOF \"" ++ value ++ "\": expected true or false"))

namespace Errors

def ownershipProofRequired : JsError :=
  .appError 400 "OWNERSHIP_PROOF_REQUIRED"
    ("Proof of wallet ownership is required: request a challenge, sign it with the wallet, " ++
      "and send challenge and signature") []

def invalidOwnershipChallenge : JsError :=
  .appError 400 "INVALID_OWNERSHIP_CHALLENGE" "Ownership challenge is invalid or has expired" []

def invalidOwnershipSignature : JsError :=
  .appError 403 "INVALID_OWNERSHIP_SIGNATURE" "Signature does not prove control of this address" []

def unsupportedChain (chainId : Nat) : JsError :=
  .appError 400 "UNSUPPORTED_CHAIN" ("Unsupported chainId " ++ toString chainId)
    [("chainId", toString chainId)]

def unsupportedChainCapability (capability chain : String) : JsError :=
  .appError 400 "UNSUPPORTED_CHAIN_CAPABILITY" (chain ++ " does not support " ++ capability)
    [("capability", capability), ("chain", chain)]

def invalidWalletAddress : JsError :=
  .appError 400 "INVALID_WALLET_ADDRESS" "Invalid wallet address" []

end Errors

/-! ## Claims -/

structure ChallengeClaims where
  v : Rat
  tid : String
  uid : String
  cid : Rat
  addr : String
  nonce : String
  iat : Rat
  exp : Rat
  deriving DecidableEq, Repr

def CHALLENGE_VERSION : Rat := 1

def CHALLENGE_TTL_MS : Nat := 5 * 60 * 1000

def MAX_CHALLENGE_LENGTH : Nat := 2048

def KEY_LABEL : String := "wallet-ownership-challenge:v1"

namespace ChallengeClaims

/-- The claims as an object. -/
def json (claims : ChallengeClaims) : Json :=
  .obj [("v", .num claims.v), ("tid", .str claims.tid), ("uid", .str claims.uid), ("cid", .num claims.cid),
    ("addr", .str claims.addr), ("nonce", .str claims.nonce), ("iat", .num claims.iat), ("exp", .num claims.exp)]

/-- The claims of a value that is `wellFormed`. -/
def ofJson? (value : Json) : Option ChallengeClaims := do
  let v ← (value.field? "v").bind Json.num?
  let tid ← (value.field? "tid").bind Json.str?
  let uid ← (value.field? "uid").bind Json.str?
  let cid ← (value.field? "cid").bind Json.num?
  let addr ← (value.field? "addr").bind Json.str?
  let nonce ← (value.field? "nonce").bind Json.str?
  let iat ← (value.field? "iat").bind Json.num?
  let exp ← (value.field? "exp").bind Json.num?
  if v = CHALLENGE_VERSION && cid.isInt then return ⟨v, tid, uid, cid, addr, nonce, iat, exp⟩ else none

end ChallengeClaims

structure OwnershipSubject where
  tenantId : String
  userId : String
  chainId : Nat
  address : String
  deriving DecidableEq, Repr

structure IssuedChallenge where
  message : String
  challenge : String
  expiresAt : String
  deriving DecidableEq, Repr

/-- The claims of a new challenge, for the normal form of the address. -/
def OwnershipSubject.claims (subject : OwnershipSubject) (addr nonce : String) (issuedAt : Date) :
    ChallengeClaims where
  v := CHALLENGE_VERSION
  tid := subject.tenantId
  uid := subject.userId
  cid := subject.chainId
  addr := addr
  nonce := nonce
  iat := issuedAt
  exp := (issuedAt + CHALLENGE_TTL_MS : Nat)

/-- `new Date(time).toISOString()`, from 1970 on. -/
def isoText (time : Rat) : Except JsError String :=
  if 0 ≤ time ∧ time ≤ MAX_DATE then .ok (Js.toISOString time.floor.toNat)
  else .error (.error "Invalid time value")

def buildOwnershipMessage (claims : ChallengeClaims) : Except JsError String := do
  let issuedAt ← isoText claims.iat
  let expiresAt ← isoText claims.exp
  return "\n".intercalate
    ["Link this wallet to the Blockchain Transaction Simulator.",
      "",
      "Address: " ++ claims.addr,
      "Chain ID: " ++ toString claims.cid.num,
      "Nonce: " ++ claims.nonce,
      "Issued At: " ++ issuedAt,
      "Expires At: " ++ expiresAt,
      "",
      "Signing only proves you control this address. It sends no transaction and costs no gas."]

/-! ## Calls -/

/-- The calls of the other programs, and two of the routes: random bytes, and the answer to a request. -/
inductive OwnershipOp
  | call (o : Call)
  | randomBytes
  | reply (subject : OwnershipSubject) (issued : IssuedChallenge)

@[reducible] def OwnershipOp.Res : OwnershipOp → Type
  | call o => o.Res
  | randomBytes => Fin 16 → UInt8
  | reply _ _ => Unit

structure OwnershipInput where
  input : Input := {}
  bytes : Fin 16 → UInt8 := fun _ => 0

instance : Inhabited OwnershipInput := ⟨{}⟩

def OwnershipOp.exec : (o : OwnershipOp) → OwnershipInput → World → Except JsError o.Res × World
  | call o, i, w => TransactionSimulator.exec o i.input w
  | randomBytes, i, w => (.ok i.bytes, w)
  | reply _ _, _, w => (.ok (), w)

abbrev OwnershipProgram (α : Type) := Prog OwnershipOp OwnershipOp.Res JsError α

/-- A program that makes only the calls of the other programs. -/
def calling {α : Type} : Program α → OwnershipProgram α
  | .pure a => .pure a
  | .throw e => .throw e
  | .call o k => .call (OwnershipOp.call o) fun r => calling (k r)

/-- `Date.now()`. -/
def ownershipNow : OwnershipProgram Date := .perform (OwnershipOp.call .now)

/-! ## The service -/

structure OwnershipLibraries where
  /-- HMAC-SHA256. -/
  hmac : (key message : List UInt8) → List UInt8
  /-- `JSON.stringify`. -/
  stringify : Json → String
  /-- `JSON.parse`. -/
  parse : (text : String) → Except JsError Json
  /-- `Buffer.from(text, 'base64url')`. -/
  fromBase64url : (text : String) → List UInt8
  /-- What `toString('utf8')` makes of bytes that are not the encoding of a text. -/
  replaced : List UInt8 → String
  /-- `verifyMessage` of viem. -/
  verifyMessage : (address message signature : String) → Except JsError Bool

/-- What is known of them: what was written is read back. -/
structure OwnershipLibraries.Lawful (lib : OwnershipLibraries) : Prop where
  fromBase64url_written : ∀ bytes, lib.fromBase64url (Bytes.toBase64url bytes) = bytes
  parse_stringify : ∀ (subject : OwnershipSubject) addr nonce issuedAt,
    lib.parse (lib.stringify (subject.claims addr nonce issuedAt).json) =
      .ok (subject.claims addr nonce issuedAt).json

/-- A deployment, its libraries and its secret. -/
structure OwnershipPlatform where
  deployment : Deployment
  lib : OwnershipLibraries
  JWT_SECRET : String

/-- `adapter.verifyOwnership`: only `EvmAdapter` has it, and there an error is a refusal. -/
def BlockchainAdapter.verifyOwnership? (lib : OwnershipLibraries) (adapter : BlockchainAdapter) :
    Option ((address message signature : String) → Bool) :=
  match adapter.chain with
  | .EVM => some fun address message signature => (lib.verifyMessage address message signature).toOption.getD false
  | _ => none

namespace WalletOwnershipService

variable (O : OwnershipPlatform)

def key : List UInt8 := O.lib.hmac (Bytes.utf8 O.JWT_SECRET) (Bytes.utf8 KEY_LABEL)

def mac (payload : String) : List UInt8 := O.lib.hmac (key O) (Bytes.utf8 payload)

def payloadOf (claims : ChallengeClaims) : String :=
  Bytes.toBase64url (Bytes.utf8 (O.lib.stringify claims.json))

/-- `seal`. -/
def sealed (claims : ChallengeClaims) : String :=
  payloadOf O claims ++ "." ++ Bytes.toBase64url (mac O (payloadOf O claims))

def textOf (bytes : List UInt8) : String := (Bytes.text? bytes).getD (O.lib.replaced bytes)

/-- The part of `open` before it looks at the clock. -/
def readClaims (token : String) : Except JsError ChallengeClaims :=
  if MAX_CHALLENGE_LENGTH < Js.length token then .error Errors.invalidOwnershipChallenge
  else
    match Js.split token '.' with
    | [payload, presentedMac] =>
      let expected := mac O payload
      let presented := O.lib.fromBase64url presentedMac
      if presented.length ≠ expected.length || presented ≠ expected then
        .error Errors.invalidOwnershipChallenge
      else
        match O.lib.parse (textOf O (O.lib.fromBase64url payload)) with
        | .error _ => .error Errors.invalidOwnershipChallenge
        | .ok .null => .error (.error "Cannot read properties of null (reading 'v')")
        | .ok value =>
          match ChallengeClaims.ofJson? value with
          | none => .error Errors.invalidOwnershipChallenge
          | some claims => .ok claims
    | _ => .error Errors.invalidOwnershipChallenge

/-- `open`. -/
def opened (token : String) : OwnershipProgram ChallengeClaims := do
  let claims ← Prog.ofExcept (readClaims O token)
  let now ← ownershipNow
  if claims.exp ≤ now then throw Errors.invalidOwnershipChallenge else return claims

/-- The challenge with these claims. -/
def challengeOf (claims : ChallengeClaims) : Except JsError IssuedChallenge := do
  let message ← buildOwnershipMessage claims
  let expiresAt ← isoText claims.exp
  return { message, challenge := sealed O claims, expiresAt }

def issueChallenge (subject : OwnershipSubject) : OwnershipProgram IssuedChallenge := do
  let env := O.deployment.processEnv
  match ← Prog.ofExcept (blockchainForChainId env subject.chainId) with
  | none => throw (Errors.unsupportedChain subject.chainId)
  | some blockchain =>
    let adapter ← Prog.ofExcept (O.deployment.registry.get blockchain)
    match adapter.verifyOwnership? O.lib with
    | none => throw (Errors.unsupportedChainCapability "ownership verification" blockchain.name)
    | some _ =>
      let valid ← Prog.ofExcept
        (isValidWalletAddress env O.deployment.libraries subject.chainId subject.address)
      if valid then
        let issuedAt ← ownershipNow
        let addr ← Prog.ofExcept (normalizeWalletAddress env subject.chainId subject.address)
        let bytes ← Prog.perform OwnershipOp.randomBytes
        Prog.ofExcept (challengeOf O (subject.claims addr (Bytes.toHex (List.ofFn bytes)) issuedAt))
      else throw Errors.invalidWalletAddress

/-- The part of `assertOwnership` behind the switch: the proof is checked. -/
def checkProof (blockchain : Blockchain) (subject : OwnershipSubject) (proof : Option (String × String)) :
    OwnershipProgram Unit := do
  let adapter ← Prog.ofExcept (O.deployment.registry.get blockchain)
  match adapter.verifyOwnership? O.lib with
  | none => throw (Errors.unsupportedChainCapability "ownership verification" blockchain.name)
  | some verifyOwnership =>
    match proof with
    | none => throw Errors.ownershipProofRequired
    | some (challenge, signature) =>
      let claims ← opened O challenge
      let addr ← Prog.ofExcept
        (normalizeWalletAddress O.deployment.processEnv subject.chainId subject.address)
      let matchesRequest :=
        claims.tid = subject.tenantId && claims.uid = subject.userId && claims.cid = subject.chainId &&
          claims.addr = addr
      if matchesRequest then
        let message ← Prog.ofExcept (buildOwnershipMessage claims)
        if verifyOwnership claims.addr message signature then return ()
        else throw Errors.invalidOwnershipSignature
      else throw Errors.invalidOwnershipChallenge

def assertOwnership (subject : OwnershipSubject) (challenge signature : Option String) :
    OwnershipProgram Unit := do
  let env := O.deployment.processEnv
  match ← Prog.ofExcept (blockchainForChainId env subject.chainId) with
  -- the registration itself rejects an unknown chain
  | none => return ()
  | some blockchain =>
    let required ← Prog.ofExcept (isOwnershipProofRequired env)
    let proof := challenge.bind fun challenge => signature.map fun signature => (challenge, signature)
    if !required && proof.isNone then return ()
    else checkProof O blockchain subject proof

end WalletOwnershipService

/-! ## The routes -/

/-- What `createWalletSchema` lets through. -/
structure CreateWalletBody where
  chainId : Nat
  address : String
  challenge : Option String
  signature : Option String
  nonempty : challenge ≠ some "" ∧ signature ≠ some ""
  together : challenge.isNone = signature.isNone

section Routes

variable (O : OwnershipPlatform)

/-- `POST /wallets/challenge` of an authenticated user. -/
def postChallenge (user : User) (chainId : Nat) (address : String) : OwnershipProgram Unit := do
  let subject : OwnershipSubject := ⟨user.tenantId, user.id, chainId, address⟩
  let challenge ← WalletOwnershipService.issueChallenge O subject
  Prog.perform (OwnershipOp.reply subject challenge)

/-- `POST /wallets` of an authenticated user.  The proof comes first. -/
def postWallet (user : User) (body : CreateWalletBody) : OwnershipProgram Wallet := do
  WalletOwnershipService.assertOwnership O ⟨user.tenantId, user.id, body.chainId, body.address⟩ body.challenge
    body.signature
  calling (WalletService.createWallet O.deployment.processEnv O.deployment.libraries
    ⟨user.tenantId, user.id, body.chainId⟩ body.address)

/-- A request, or one of the other tasks. -/
inductive OwnershipTask
  | postChallenge (user : User) (chainId : Nat) (address : String)
  | postWallet (user : User) (body : CreateWalletBody)
  | task (t : Task)

def ownershipSystem : System OwnershipOp OwnershipOp.Res JsError World OwnershipInput OwnershipTask Shift where
  exec := OwnershipOp.exec
  prog
    | .postChallenge user chainId address => postChallenge O user chainId address
    | .postWallet user body => (postWallet O user body).void
    | .task t => calling (O.deployment.prog t)
  shift := World.shift

end Routes

abbrev OwnershipEvent := Event OwnershipTask OwnershipInput Shift

abbrev OwnershipMoment := Moment OwnershipOp OwnershipInput World

end TransactionSimulator
