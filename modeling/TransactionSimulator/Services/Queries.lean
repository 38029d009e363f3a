import TransactionSimulator.Services.Transfer

/-!
# What users read

`TransactionService`, and the reads of `WalletService` and `BalanceService`.
-/

namespace TransactionSimulator

open Concurrent

namespace TransactionService

def getById (id tenantId : String) : Program (Option TransactionWithAll) :=
  TransactionRepository.findByIdWithAll id tenantId

def list (tenantId : String) (page limit : Js.Number) : Program (List TransactionWithAll) :=
  TransactionRepository.findAll tenantId page limit

end TransactionService

namespace WalletService

/-- The lookup is by the owner alone; the tenant is not asked for. -/
def getUserWallets (userId : String) : Program (List Wallet) :=
  prisma.stmt (.walletFindMany fun wallet => wallet.ownerId = userId)

/-- A wallet that is there is refused differently from one that is not. -/
def getWallet (id userId tenantId : String) (role : Role) : Program Wallet := do
  match ← getWalletById id with
  | none => throw (.appError 404 "WALLET_NOT_FOUND" "Wallet not found" [])
  | some wallet =>
    if wallet.tenantId ≠ tenantId || (wallet.ownerId ≠ userId && role ≠ .ADMIN) then
      throw (.appError 403 "FORBIDDEN" "You do not have access to this wallet" [])
    else return wallet

end WalletService

def BalanceService.getWalletBalances (walletId : String) : Program (List (BalanceSnapshot × Token)) :=
  BalanceRepository.findByWallet walletId

end TransactionSimulator
