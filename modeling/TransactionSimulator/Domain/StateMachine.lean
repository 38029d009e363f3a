import TransactionSimulator.Domain.Schema

/-!
# Errors and the transaction state machine

`common/errors` and `domain/transaction/transaction-state-machine.ts`.
-/

namespace TransactionSimulator

/-- The errors the code throws and tells apart.  `prisma` is a `PrismaClientKnownRequestError`,
`error` any other `Error`. -/
inductive JsError
  | transactionStateConflict (transactionId : String) (expectedStatus : TransactionStatus)
  | invalidTransactionTransition (source target : TransactionStatus)
  | transactionPending (txHash : String)
  | appError (statusCode : Nat) (code message : String) (details : List (String × String))
  | prisma (code message : String)
  | error (message : String)
  deriving DecidableEq, Repr

/-- `error.message`. -/
def JsError.message : JsError → String
  | .transactionStateConflict transactionId expectedStatus =>
    "Transaction " ++ transactionId ++ " is no longer in " ++ expectedStatus.name ++ " state"
  | .invalidTransactionTransition source target =>
    "Invalid transaction state transition: " ++ source.name ++ " -> " ++ target.name
  | .transactionPending txHash => "Transaction " ++ txHash ++ " is still pending confirmation"
  | .appError _ _ message _ => message
  | .prisma _ message => message
  | .error message => message

namespace Errors

/-- `walletId ? { walletId } : undefined`. -/
def idDetails (field : String) (id : Option String) : List (String × String) :=
  if Js.isFalsy id then [] else [(field, id.getD "")]

def walletNotFound (walletId : Option String) : JsError :=
  .appError 404 "WALLET_NOT_FOUND" "Wallet not found" (idDetails "walletId" walletId)

def walletNotCustodial (walletId : Option String) : JsError :=
  .appError 409 "WALLET_NOT_CUSTODIAL" "Wallet not custodial" (idDetails "walletId" walletId)

def tokenNotFound (tokenId : Option String) : JsError :=
  .appError 404 "TOKEN_NOT_FOUND" "Token not found" (idDetails "tokenId" tokenId)

end Errors

namespace TransactionStateMachine

open TransactionStatus

/-- `ALLOWED_TRANSITIONS`. -/
def allowedTransitions : TransactionStatus → List TransactionStatus
  | PENDING => [SUBMITTED, FAILED]
  | SUBMITTED => [CONFIRMING, EXPIRED]
  | CONFIRMING => [CONFIRMED, FAILED, EXPIRED]
  | CONFIRMED => []
  | FAILED => []
  | EXPIRED => []

def canTransition (source target : TransactionStatus) : Bool :=
  (allowedTransitions source).contains target

def assertTransition (source target : TransactionStatus) : Except JsError Unit :=
  if canTransition source target then .ok ()
  else .error (.invalidTransactionTransition source target)

def canExpire (status : TransactionStatus) : Bool := status = SUBMITTED || status = CONFIRMING

end TransactionStateMachine

/-- `isTerminal` of the confirmation processor. -/
def TransactionStatus.isTerminal (status : TransactionStatus) : Bool :=
  status = .CONFIRMED || status = .FAILED || status = .EXPIRED

theorem TransactionStatus.isTerminal_iff {status : TransactionStatus} :
    status.isTerminal = true ↔ TransactionStateMachine.allowedTransitions status = [] := by
  cases status <;> decide

end TransactionSimulator
