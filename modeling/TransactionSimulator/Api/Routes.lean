import TransactionSimulator.Api.Http
import TransactionSimulator.Services.Queries

/-!
# The routes of transactions and wallets

`transaction.routes.ts` and `wallet.routes.ts` with their validators.
-/

namespace TransactionSimulator

open Concurrent Texts

/-! ## Transactions -/

/-- What `transferSchema` makes of a body. -/
structure TransferBody where
  tokenId : String
  fromWalletId : String
  toWalletId : String
  amount : Nat
  deriving DecidableEq, Repr

/-- The field `amount`: digits, converted, and not zero. -/
def amountSchema (value : Option Json) : Parsed Nat := do
  let s ← zodString "amount" value
  if !Js.isDigits s then .error [("amount", "Amount must be a positive integer")]
  else if 0 < Js.bigInt s then return Js.bigInt s
  else .error [("amount", "Amount must be greater than zero")]

def transferSchema (body : Json) : Parsed TransferBody := do
  let ((tokenId, fromWalletId), (toWalletId, amount)) ← zodObject body
    (Parsed.both
      (Parsed.both (zodUuid "tokenId" (body.field? "tokenId"))
        (zodUuid "fromWalletId" (body.field? "fromWalletId")))
      (Parsed.both (zodUuid "toWalletId" (body.field? "toWalletId"))
        (amountSchema (body.field? "amount"))))
  return { tokenId, fromWalletId, toWalletId, amount }

namespace TransactionRoutes

variable (verifyToken : String → Option User)

/-- The transfer that a user asks for with a body. -/
def transferRequest (user : User) (body : TransferBody) : TransferRequest where
  tenantId := user.tenantId
  userId := user.id
  tokenId := body.tokenId
  fromWalletId := body.fromWalletId
  toWalletId := body.toWalletId
  amount := body.amount

/-- `POST /transactions`.  The header `Idempotency-Key` is not read. -/
def post (registry : BlockchainAdapterRegistry) (backoffDelayMs : Nat) (request : HttpRequest) :
    Program (HttpReply Transaction) :=
  route request (preHandler verifyToken request [.USER, .ADMIN]) (transferSchema request.body)
    fun user body => do
      let transaction ← TransferService.transfer registry backoffDelayMs (transferRequest user body)
      return successResponse request transaction 201

/-- `Number(value ?? fallback)`. -/
def queryNumber (value : Option String) (fallback : Nat) : Js.Number :=
  value.elim (.finite fallback) Js.toNumber

/-- `GET /transactions`. -/
def list (request : HttpRequest) : Program (HttpReply (List TransactionWithAll)) :=
  route request (preHandler verifyToken request [.USER, .ADMIN]) (.ok ())
    fun user _ => do
      let transactions ← TransactionService.list user.tenantId (queryNumber request.page 1)
        (queryNumber request.limit 20)
      return successResponse request transactions

/-- `GET /transactions/:id`.  A row of another tenant is not found. -/
def getById (request : HttpRequest) : Program (HttpReply TransactionWithAll) :=
  route request (preHandler verifyToken request [.USER, .ADMIN]) (zodUuid "id" (some (.str request.param)))
    fun user id => do
      match ← TransactionService.getById id user.tenantId with
      | none => return ⟨404, .failure "NOT_FOUND" "Transaction not found" [] request.id none⟩
      | some transaction => return successResponse request transaction

end TransactionRoutes

/-! ## Wallets -/

namespace WalletRoutes

variable (verifyToken : String → Option User)

/-- `GET /wallets`. -/
def list (request : HttpRequest) : Program (HttpReply (List Wallet)) :=
  route request (preHandler verifyToken request [.USER, .ADMIN]) (.ok ())
    fun user _ => do
      let wallets ← WalletService.getUserWallets user.id
      return successResponse request wallets

/-- `GET /wallets/:id`. -/
def getById (request : HttpRequest) : Program (HttpReply Wallet) :=
  route request (preHandler verifyToken request [.USER, .ADMIN]) (zodUuid "id" (some (.str request.param)))
    fun user id => do
      let wallet ← WalletService.getWallet id user.id user.tenantId user.role
      return successResponse request wallet

/-- `GET /wallets/:id/balances`: any role, and any id.  The rows hold `bigint`s, which the reply does not
serialize. -/
def getBalances (request : HttpRequest) : Program (HttpReply (List (BalanceSnapshot × Token))) :=
  route request (authenticate verifyToken request) (.ok ())
    fun user _ => do
      let _ ← WalletService.getWallet request.param user.id user.tenantId user.role
      let balances ← BalanceService.getWalletBalances request.param
      if balances.isEmpty then return successResponse request balances
      else throw (.error "Do not know how to serialize a BigInt")

end WalletRoutes

end TransactionSimulator
