import TransactionSimulator.Ledger.Acceptance

/-!
# In which order a transfer request acts

A request is checked, written to the ledger, broadcast, recorded as submitted and enqueued, in this order.
One that a check refuses, or whose row cannot be created, leaves nothing behind; and each later call is made
only after the earlier ones have succeeded, whatever fails and whatever others do between the calls.

* `Rejected`: the checks.  `wp_transfer_untouched`: a request that is rejected.
* `Justified`: what has to have happened before a call.  `wp_transfer_justified`: every call is justified.
* `transfer_in_order`: both, for every run.
-/

namespace TransactionSimulator

open Concurrent Prog Relational TransactionStatus

/-- A check before the row of the ledger refuses the request. -/
inductive Rejected (registry : BlockchainAdapterRegistry) (db : Db) (request : TransferRequest) : Prop
  | noToken (h : db.tokens.get (.id request.tokenId) = none)
  | noSender (h : db.wallets.get (.id request.fromWalletId) = none)
  | foreignSender {wallet : Wallet} (found : db.wallets.get (.id request.fromWalletId) = some wallet)
      (h : wallet.tenantId ≠ request.tenantId ∨ wallet.ownerId ≠ request.userId)
  | noReceiver (h : db.wallets.get (.id request.toWalletId) = none)
  | noAdapter {token : Token} {e : JsError} (found : db.tokens.get (.id request.tokenId) = some token)
      (h : registry.get token.blockchain = .error e)
  | cannotSign {token : Token} {wallet : Wallet} {adapter : BlockchainAdapter}
      (foundToken : db.tokens.get (.id request.tokenId) = some token)
      (found : db.wallets.get (.id request.fromWalletId) = some wallet)
      (serves : registry.get token.blockchain = .ok adapter)
      (h : adapter.canSign ⟨wallet.custodyType, wallet.hasCustodyKey⟩ = false)

/-- What a request does is not there: neither rows nor broadcasts nor jobs. -/
structure Untouched (w w' : World) : Prop where
  transactions : w'.db.transactions = w.db.transactions
  chain : w'.chain = w.chain
  broadcasts : w'.broadcasts = w.broadcasts
  queue : w'.queue = w.queue

/-- The creation of the row failed: the statement was refused, or did not reach the database. -/
def CreateFails (tr : List (Moment Call Input World)) : Prop :=
  ∃ w data i e, ⟨w, .stmt (.transactionCreate data), i⟩ ∈ tr ∧
    (∀ f, i.fault = some f → f.applied = false) ∧ (exec (.stmt (.transactionCreate data)) i w).1 = .error e

/-- The call was made, and answered `a`. -/
def Gave (tr : List (Moment Call Input World)) (o : Call) (a : o.Res) : Prop :=
  ∃ w i, ⟨w, o, i⟩ ∈ tr ∧ (exec o i w).1 = .ok a

/-- What the request names was found: the token, the caller's own wallet and the receiving wallet. -/
structure Found (request : TransferRequest) (tr : List (Moment Call Input World)) (token : Token)
    (fromWallet toWallet : Wallet) : Prop where
  token : Gave tr (.stmt (.tokenFindUnique request.tokenId)) (some token)
  sender : Gave tr (.stmt (.walletFindUnique request.fromWalletId)) (some fromWallet)
  tenant : fromWallet.tenantId = request.tenantId
  owner : fromWallet.ownerId = request.userId
  receiver : Gave tr (.stmt (.walletFindUnique request.toWalletId)) (some toWallet)

/-- The PENDING row of the request was committed. -/
structure Committed (request : TransferRequest) (tr : List (Moment Call Input World)) (t : Transaction) :
    Prop where
  made : ∃ w data i, ⟨w, .stmt (.transactionCreate data), i⟩ ∈ tr ∧
    (exec (.stmt (.transactionCreate data)) i w).1 = .ok t ∧
    t ∈ (exec (.stmt (.transactionCreate data)) i w).2.db.transactions.rows
  status : t.status = PENDING
  tenantId : t.tenantId = request.tenantId
  tokenId : t.tokenId = request.tokenId
  fromWalletId : t.fromWalletId = request.fromWalletId
  toWalletId : t.toWalletId = request.toWalletId
  amount : t.amount = request.amount

/-- The adapter is asked for the transfer of the row: on the chain of its token, out of its sending wallet, to the
address of its receiving wallet. -/
structure Pays (t : Transaction) (token : Token) (fromWallet toWallet : Wallet) (chain : Blockchain)
    (sent : AdapterTransferRequest) : Prop where
  chain : chain = token.blockchain
  assetIdentifier : sent.assetIdentifier = token.contractAddress
  tenantId : sent.tenantId = t.tenantId
  sender : fromWallet.id = t.fromWalletId
  walletId : sent.walletId = fromWallet.id
  receiver : toWallet.id = t.toWalletId
  toAddress : sent.toAddress = toWallet.address
  amount : sent.amount = t.amount

/-- The update that records the hash of a broadcast. -/
@[reducible] def recording (id hash : String) (submittedAt : Date) : Stmt :=
  .transactionUpdateMany id [PENDING]
    { status := some SUBMITTED, txHash := some hash, submittedAt := some submittedAt }

/-- **What has to have happened before a call**: before a broadcast, the row was committed that it pays; before a
job is added, the hash that the broadcast returned was recorded in that row. -/
def Justified (request : TransferRequest) (past : List (Moment Call Input World))
    (m : Moment Call Input World) : Prop :=
  match m.op with
  | .submitTransfer chain sent => ∃ t token fromWallet toWallet, Committed request past t ∧
      Found request past token fromWallet toWallet ∧ Pays t token fromWallet toWallet chain sent
  | .queueAdd job _ => ∃ t chain sent hash submittedAt, Committed request past t ∧
      Gave past (.submitTransfer chain sent) hash ∧ Gave past (.stmt (recording t.id hash submittedAt)) 1 ∧
      job.transactionId = t.id
  | _ => True

/-! ## A request that is rejected -/

section Rejections

variable {registry : BlockchainAdapterRegistry} {request : TransferRequest} {w : World}

theorem Rejected.not_resolves {db : Db} (h : Rejected registry db request) {token : Token}
    {fromWallet toWallet : Wallet} : ¬ Resolves registry db request token fromWallet toWallet := by
  intro hr
  obtain ⟨adapter, hadapter, hsign⟩ := hr.signs
  cases h with
  | noToken h => rw [hr.tokenRow] at h; cases h
  | noSender h => rw [hr.fromRow] at h; cases h
  | foreignSender found h =>
    rw [hr.fromRow, Option.some.injEq] at found
    rw [← found] at h
    exact h.elim (fun h => h hr.tenant) fun h => h hr.owner
  | noReceiver h => rw [hr.toRow] at h; cases h
  | noAdapter found h =>
    rw [hr.tokenRow, Option.some.injEq] at found
    rw [← found, hadapter] at h
    cases h
  | cannotSign foundToken found serves h =>
    rw [hr.tokenRow, Option.some.injEq] at foundToken
    rw [hr.fromRow, Option.some.injEq] at found
    rw [← foundToken, hadapter, Except.ok.injEq] at serves
    rw [← found, ← serves, hsign] at h
    cases h

theorem exec_of_prepares {o : Call} (h : Prepares o) (i : Input) (w : World) : (exec o i w).2 = w := by
  refine exec_snd (P := fun w w' => w' = w) rfl ?_
  cases o with
  | stmt s =>
    cases s with
    | tokenFindUnique | walletFindUnique => rfl
    | _ => exact h.elim
  | _ => exact h.elim

/-- The checks, when nobody else moves. -/
theorem wp_prepare_alone (registry : BlockchainAdapterRegistry) (request : TransferRequest) (w : World) :
    wp exec Alone (fun _ _ => True) (TransferService.prepare registry request)
      (fun tr r w' => (∀ m ∈ tr, Prepares m.op) ∧ w' = w ∧
        ∀ a, r = .ok a → Resolves registry w.db request a.1 a.2.1 a.2.2) w := by
  have hsafe : Safe exec Alone (fun w w' => w' = w) (TransferService.prepare registry request) w :=
    (prepares_prepare registry request).safe (fun _ ho i w => exec_of_prepares ho i w) w
  have hreading : Reading w (TransferService.prepare registry request) _ := reading_prepare
  have hresolves : wp exec Alone Books (TransferService.prepare registry request) _ w :=
    wp_weaken (fun _ _ h => h.elim) (fun _ _ h => h) (hreading w (Books.refl w))
  have hstable : Stable Alone (fun w w' : World => w' = w) (fun w' => w' = w) :=
    ⟨fun _ _ h => h.elim, fun _ _ h hw => h.trans hw⟩
  have hall := (prepares_prepare registry request).wp_trace (wp_keeps hstable (wp_of_safe hsafe hresolves) rfl)
  refine wp_weaken (fun _ _ h => h) (fun _ _ _ => trivial) (wp_mono ?_ hall)
  intro tr r w' h
  exact ⟨h.1, h.2.2, fun a ha => (h.2.1 a ha).2⟩

/-- A creation that failed wrote nothing. -/
theorem exec_create_failed {data : TransactionCreateInput} {i : Input} {w : World} {e : JsError}
    (hfault : ∀ f, i.fault = some f → f.applied = false)
    (h : (exec (.stmt (.transactionCreate data)) i w).1 = .error e) :
    (exec (.stmt (.transactionCreate data)) i w).2 = w := by
  cases hf : i.fault with
  | some f => simp [exec, Call.inProcess, hf, hfault f hf]
  | none =>
    have heffect := exec_of_fault_none (o := .stmt (.transactionCreate data)) (w := w) hf
    rw [heffect] at h ⊢
    have hdb : (w.db.createTransaction ⟨w.clock, i.uuid⟩ data).2 = w.db := by
      have herror : (w.db.createTransaction ⟨w.clock, i.uuid⟩ data).1 = .error e := h
      have hspec := Db.createTransaction_spec w.db ⟨w.clock, i.uuid⟩ data
      revert herror
      generalize w.db.createTransaction ⟨w.clock, i.uuid⟩ data = outcome at hspec ⊢
      intro herror
      cases hspec with
      | done => cases herror
      | refused => rfl
    show { w with db := (w.db.createTransaction ⟨w.clock, i.uuid⟩ data).2 } = w
    rw [hdb]

/-- After the creation of its row a request creates no other. -/
theorem rest_creates_nothing (backoffDelayMs : Nat) (request : TransferRequest) (token : Token)
    (fromWallet toWallet : Wallet) (transaction : Transaction) :
    All (fun o => ∀ data, o ≠ .stmt (.transactionCreate data))
      ((TransferService.submit backoffDelayMs request token fromWallet toWallet transaction).tryCatch
        fun error => if transaction.id = "" then .throw error
          else LedgerService.markFailed transaction.id error.message) := by
  refine All.tryCatch (submit_creates_nothing backoffDelayMs request token fromWallet toWallet transaction) ?_
  intro error
  split
  · exact trivial
  · rw [markFailed_eq]
    refine All.perform_bind (by simp) ?_
    intro failedAt
    refine (quiet_updateThen _ _ _ _).mono ?_
    intro o hq data ho
    rw [ho] at hq
    exact hq

/-- **A request that is rejected, or whose row cannot be created, throws and leaves nothing behind.** -/
theorem wp_transfer_untouched (registry : BlockchainAdapterRegistry) (backoffDelayMs : Nat)
    (request : TransferRequest) (w : World) :
    wp exec Alone (fun _ _ => True) (TransferService.transfer registry backoffDelayMs request)
      (fun tr r w' => Rejected registry w.db request ∨ CreateFails tr →
        (∃ e, r = .error e) ∧ Untouched w w') w := by
  refine wp_bind.mpr (wp_mono ?_ (wp_prepare_alone registry request w))
  intro tr r w₁ h
  obtain ⟨hreads, hw₁, hresolves⟩ := h
  subst hw₁
  have hnone : ¬ CreateFails tr := by
    intro h
    obtain ⟨_, _, _, _, hm, _⟩ := h
    exact hreads _ hm
  cases r with
  | error e => exact fun _ => ⟨⟨e, rfl⟩, rfl, rfl, rfl, rfl⟩
  | ok prepared =>
    obtain ⟨token, fromWallet, toWallet⟩ := prepared
    have hnot : ¬ Rejected registry w₁.db request := fun h => h.not_resolves (hresolves _ rfl)
    refine wp_bind.mpr (wp_bind.mpr (wp_perform.mpr ?_))
    intro w₂ hpath i
    rw [eq_of_alone hpath]
    refine ⟨trivial, ?_⟩
    cases hcreate : (exec (.stmt (.transactionCreate _)) i w₁).1 with
    | error e =>
      intro h
      refine ⟨⟨e, rfl⟩, ?_⟩
      rcases h with h | h
      · exact absurd h hnot
      · obtain ⟨v, data, j, e', hm, hfault, herror⟩ := h
        rcases List.mem_append.mp hm with hm | hm
        · exact absurd ⟨v, data, j, e', hm, hfault, herror⟩ hnone
        · rw [List.mem_singleton] at hm
          cases hm
          rw [exec_create_failed hfault herror]
          exact ⟨rfl, rfl, rfl, rfl⟩
    | ok transaction =>
      refine wp_bind.mpr (wp_perform.mpr ?_)
      intro w₃ _ j
      refine ⟨trivial, ?_⟩
      show wp _ _ _ (Prog.tryCatch _ _) _ _
      refine wp_mono ?_ ((rest_creates_nothing backoffDelayMs request token fromWallet toWallet
        transaction).wp_trace (wp_any _ _))
      intro tr' r w₄ hrest h
      rcases h with h | h
      · exact absurd h hnot
      · obtain ⟨v, data, k, e, hm, hfault, herror⟩ := h
        rcases List.mem_append.mp hm with hm | hm
        · exact absurd ⟨v, data, k, e, hm, hfault, herror⟩ hnone
        rcases List.mem_append.mp hm with hm | hm
        · rcases List.mem_append.mp hm with hm | hm
          · rw [List.mem_singleton] at hm
            cases hm
            rw [herror] at hcreate
            cases hcreate
          · rw [List.append_nil, List.mem_singleton] at hm
            cases hm
        · exact absurd rfl (hrest.1 _ hm data)

end Rejections

/-! ## Every call is justified -/

section Order

variable {request : TransferRequest} {tr tr' past : List (Moment Call Input World)}

theorem Gave.mono {o : Call} {a : o.Res} (h : Gave tr o a) (hsub : tr ⊆ tr') : Gave tr' o a := by
  obtain ⟨w, i, hm, ha⟩ := h
  exact ⟨w, i, hsub hm, ha⟩

theorem Found.mono {token : Token} {fromWallet toWallet : Wallet} (h : Found request tr token fromWallet toWallet)
    (hsub : tr ⊆ tr') : Found request tr' token fromWallet toWallet :=
  { h with token := h.token.mono hsub, sender := h.sender.mono hsub, receiver := h.receiver.mono hsub }

theorem Committed.mono {t : Transaction} (h : Committed request tr t) (hsub : tr ⊆ tr') :
    Committed request tr' t := by
  obtain ⟨w, data, i, hm, hmade⟩ := h.made
  exact { h with made := ⟨w, data, i, hsub hm, hmade⟩ }

/-- The calls of which nothing is asked. -/
def Plain : Call → Prop
  | .submitTransfer _ _ => False
  | .queueAdd _ _ => False
  | _ => True

theorem justified_of_plain {m : Moment Call Input World} (h : Plain m.op) (past) : Justified request past m := by
  obtain ⟨w, o, i⟩ := m
  cases o with
  | submitTransfer | queueAdd => exact h.elim
  | _ => exact trivial

theorem throughout_of_plain (h : ∀ m ∈ tr, Plain m.op) : Throughout (Justified request) past tr :=
  throughout_of_forall fun m hm past => justified_of_plain (h m hm) past

theorem plain_updateThen (id : String) (status : List TransactionStatus) (data : TransactionUpdateInput)
    (expected : Transaction → TransactionStatus) : All Plain (updateThen id status data expected) := by
  refine All.perform_bind trivial ?_
  intro count
  split
  · exact all_perform trivial
  · refine All.perform_bind trivial ?_
    intro row
    cases row <;> exact trivial

theorem plain_of_prepares {o : Call} (h : Prepares o) : Plain o := by
  cases o with
  | submitTransfer | queueAdd => exact h.elim
  | _ => exact trivial

theorem id_of_walletFindUnique {id : String} {i : Input} {w : World} {wallet : Wallet}
    (h : (exec (.stmt (.walletFindUnique id)) i w).1 = .ok (some wallet)) : wallet.id = id := by
  have heffect := exec_ok h
  rw [heffect] at h
  have hkey := (w.db.wallets.get_eq_some_iff.mp (Except.ok.inj h)).2
  rw [Wallet.id_mem_keys] at hkey
  exact hkey.symm

/-- What the checks have found, whatever others do between them. -/
theorem wp_prepare_gave (registry : BlockchainAdapterRegistry) (request : TransferRequest) (w : World) :
    wp exec (fun _ _ => True) (fun _ _ => True) (TransferService.prepare registry request)
      (fun tr r _ => (∀ m ∈ tr, Prepares m.op) ∧ ∀ a, r = .ok a → Found request tr a.1 a.2.1 a.2.2 ∧
        a.2.1.id = request.fromWalletId ∧ a.2.2.id = request.toWalletId) w := by
  refine (prepares_prepare registry request).wp_trace ?_
  refine wp_bind.mpr (wp_bind.mpr (wp_perform.mpr ?_))
  intro w₁ _ i₁
  refine ⟨trivial, ?_⟩
  cases htoken : (exec (.stmt (.tokenFindUnique request.tokenId)) i₁ w₁).1 with
  | error e => exact fun a ha => by cases ha
  | ok found =>
    cases found with
    | none => exact fun a ha => by cases ha
    | some token =>
      refine wp_bind.mpr (wp_perform.mpr ?_)
      intro w₂ _ i₂
      refine ⟨trivial, ?_⟩
      cases hfrom : (exec (.stmt (.walletFindUnique request.fromWalletId)) i₂ w₂).1 with
      | error e => exact fun a ha => by cases ha
      | ok found =>
        cases found with
        | none => exact fun a ha => by cases ha
        | some fromWallet =>
          dsimp only
          split
          · exact fun a ha => by cases ha
          next hown =>
            simp only [ne_eq, Bool.or_eq_true, decide_eq_true_eq, not_or, not_not] at hown
            refine wp_bind.mpr (wp_perform.mpr ?_)
            intro w₃ _ i₃
            refine ⟨trivial, ?_⟩
            cases hto : (exec (.stmt (.walletFindUnique request.toWalletId)) i₃ w₃).1 with
            | error e => exact fun a ha => by cases ha
            | ok found =>
              cases found with
              | none => exact fun a ha => by cases ha
              | some toWallet =>
                refine wp_bind.mpr (wp_mono ?_ (wp_any _ _))
                intro tr₄ r w₄ _
                cases r with
                | error e => exact fun a ha => by cases ha
                | ok adapter =>
                  refine wp_bind.mpr (wp_mono ?_ (wp_any _ _))
                  intro tr₅ r w₅ _
                  cases r with
                  | error e => exact fun a ha => by cases ha
                  | ok custody =>
                    dsimp only
                    split
                    · intro a ha
                      rw [← Except.ok.inj ha]
                      refine ⟨?_, id_of_walletFindUnique hfrom, id_of_walletFindUnique hto⟩
                      exact ⟨⟨w₁, i₁, by simp, htoken⟩, ⟨w₂, i₂, by simp, hfrom⟩, hown.1, hown.2, w₃, i₃, by simp, hto⟩
                    · exact fun a ha => by cases ha

/-- Recording the hash, whatever others do. -/
theorem wp_markSubmitted_gave (id hash : String) (w : World) :
    wp exec (fun _ _ => True) (fun _ _ => True) (LedgerService.markSubmitted id hash)
      (fun tr r _ => (∀ m ∈ tr, Plain m.op) ∧ ∀ t, r = .ok t → t.id = id ∧
        ∃ submittedAt, Gave tr (.stmt (recording id hash submittedAt)) 1) w := by
  have hplain : All Plain (LedgerService.markSubmitted id hash) := by
    rw [markSubmitted_eq]
    exact All.perform_bind trivial fun _ => plain_updateThen _ _ _ _
  refine hplain.wp_trace ?_
  rw [markSubmitted_eq]
  refine wp_bind.mpr (wp_perform.mpr ?_)
  intro w₁ _ i
  rw [exec_of_inProcess rfl]
  refine ⟨trivial, ?_⟩
  refine wp_bind.mpr (wp_perform.mpr ?_)
  intro w₂ _ j
  refine ⟨trivial, ?_⟩
  cases hupdate : (exec (.stmt (recording id hash w₁.clock)) j w₂).1 with
  | error e => exact fun t ht => by cases ht
  | ok count =>
    dsimp only
    split
    · next hcount =>
      refine wp_perform.mpr ?_
      intro w₃ _ k
      refine ⟨trivial, ?_⟩
      intro t ht
      have heffect := exec_ok ht
      rw [heffect] at ht
      have hget : orThrow (w₃.db.transactions.get (.id id)) = .ok t := ht
      have hrow : w₃.db.transactions.get (.id id) = some t := by
        cases hr : w₃.db.transactions.get (.id id) with
        | none => rw [hr] at hget; cases hget
        | some s => rw [hr] at hget; rw [Except.ok.inj hget]
      refine ⟨Db.id_of_get hrow, w₁.clock, w₂, j, by simp, ?_⟩
      rw [hupdate, hcount]
    · refine wp_bind.mpr (wp_perform.mpr ?_)
      intro w₃ _ k
      refine ⟨trivial, ?_⟩
      cases (exec (.stmt (.transactionFindUnique (.id id))) k w₃).1 with
      | error e => exact fun t ht => by cases ht
      | ok row => cases row <;> exact fun t ht => by cases ht

/-- What the adapter is asked to send. -/
def adapterRequest (request : TransferRequest) (token : Token) (fromWallet toWallet : Wallet) :
    AdapterTransferRequest :=
  { tenantId := request.tenantId, walletId := fromWallet.id, toAddress := toWallet.address,
    amount := request.amount, assetIdentifier := token.contractAddress }

/-- The broadcast, its recording and the job, after the row is committed. -/
theorem wp_submit_justified (backoffDelayMs : Nat) {token : Token} {fromWallet toWallet : Wallet}
    {transaction : Transaction} (hfrom : fromWallet.id = request.fromWalletId) (hto : toWallet.id = request.toWalletId)
    (hfound : Found request past token fromWallet toWallet) (hrow : Committed request past transaction) (w : World) :
    wp exec (fun _ _ => True) (fun _ _ => True)
      (TransferService.submit backoffDelayMs request token fromWallet toWallet transaction)
      (fun tr _ _ => Throughout (Justified request) past tr) w := by
  refine wp_bind.mpr (wp_perform.mpr ?_)
  intro w₁ _ i
  refine ⟨trivial, ?_⟩
  have hsubmit : Justified request past ⟨w₁, .submitTransfer token.blockchain
      (adapterRequest request token fromWallet toWallet), i⟩ :=
    ⟨transaction, token, fromWallet, toWallet, hrow, hfound, rfl, rfl, hrow.tenantId.symm,
      hfrom.trans hrow.fromWalletId.symm, rfl, hto.trans hrow.toWalletId.symm, rfl, hrow.amount.symm⟩
  cases hhash : (exec (.submitTransfer token.blockchain (adapterRequest request token fromWallet toWallet))
      i w₁).1 with
  | error e => 
    unfold adapterRequest at hhash
    rw [hhash]
    exact ⟨hsubmit, trivial⟩
  | ok hash =>
    unfold adapterRequest at hhash
    rw [hhash]
    refine wp_bind.mpr (wp_perform.mpr ?_)
    intro w₂ _ j
    rw [exec_of_inProcess rfl]
    refine ⟨trivial, wp_bind.mpr (wp_mono ?_ (wp_markSubmitted_gave transaction.id hash _))⟩
    intro tr r w₃ h
    obtain ⟨hplain, hrecorded⟩ := h
    cases r with
    | error e => exact ⟨hsubmit, trivial, throughout_of_plain hplain⟩
    | ok submitted =>
      obtain ⟨hid, submittedAt, hgave⟩ := hrecorded submitted rfl
      refine wp_bind.mpr (wp_perform.mpr ?_)
      intro w₄ _ k
      refine ⟨trivial, ?_⟩
      have hjob : ∀ past', past ⊆ past' → tr ⊆ past' →
          ⟨w₁, .submitTransfer token.blockchain (adapterRequest request token fromWallet toWallet), i⟩ ∈ past' →
          Justified request past' ⟨w₄, .queueAdd ⟨submitted.id, submitted.tenantId⟩
            (defaultJobOptions backoffDelayMs), k⟩ := by
        intro past' hpast htr hm
        exact ⟨transaction, _, _, hash, submittedAt, hrow.mono hpast, ⟨w₁, i, hm, hhash⟩, hgave.mono htr, hid⟩
      have hall : Throughout (Justified request) past
          (⟨w₁, .submitTransfer token.blockchain (adapterRequest request token fromWallet toWallet), i⟩ ::
            ⟨w₂, .emit (.metric "transactions_submitted_total" transaction.tenantId transaction.tokenId), j⟩ ::
            (tr ++ [⟨w₄, .queueAdd ⟨submitted.id, submitted.tenantId⟩ (defaultJobOptions backoffDelayMs), k⟩])) := by
        refine ⟨hsubmit, trivial, throughout_append.mpr ⟨throughout_of_plain hplain, hjob _ ?_ ?_ ?_, trivial⟩⟩
        · simp
        · exact List.subset_append_right _ _
        · simp
      cases (exec (.queueAdd _ _) k w₄).1 with
      | error e => exact hall
      | ok _ => exact hall

/-- After an error the row is marked as failed, and nothing else happens. -/
theorem wp_rest_justified (backoffDelayMs : Nat) {token : Token} {fromWallet toWallet : Wallet}
    {transaction : Transaction} (hfrom : fromWallet.id = request.fromWalletId) (hto : toWallet.id = request.toWalletId)
    (hfound : Found request past token fromWallet toWallet) (hrow : Committed request past transaction) (w : World) :
    wp exec (fun _ _ => True) (fun _ _ => True)
      ((TransferService.submit backoffDelayMs request token fromWallet toWallet transaction).tryCatch
        fun error => if transaction.id = "" then .throw error
          else LedgerService.markFailed transaction.id error.message)
      (fun tr _ _ => Throughout (Justified request) past tr) w := by
  refine wp_tryCatch.mpr (wp_mono ?_ (wp_submit_justified backoffDelayMs hfrom hto hfound hrow w))
  intro tr r w₁ h
  cases r with
  | ok a => exact h
  | error e =>
    have hplain : All Plain (if transaction.id = "" then Prog.throw e
        else LedgerService.markFailed transaction.id e.message : Program Transaction) := by
      split
      · exact trivial
      · rw [markFailed_eq]
        exact All.perform_bind trivial fun _ => plain_updateThen _ _ _ _
    refine wp_mono ?_ (hplain.wp_trace (wp_any _ w₁))
    intro tr' _ _ h'
    exact throughout_append.mpr ⟨h, throughout_of_plain h'.1⟩

/-- The row that a creation returned is there, as it was asked for. -/
theorem committed_of_exec {fromWallet toWallet : Wallet} {i : Input} {w : World} {t : Transaction}
    (hfrom : fromWallet.id = request.fromWalletId) (hto : toWallet.id = request.toWalletId)
    (h : (exec (.stmt (.transactionCreate (pendingRow request fromWallet toWallet))) i w).1 = .ok t)
    (hm : ⟨w, .stmt (.transactionCreate (pendingRow request fromWallet toWallet)), i⟩ ∈ tr) :
    Committed request tr t := by
  have heffect := exec_ok h
  have hok : (w.db.createTransaction ⟨w.clock, i.uuid⟩ (pendingRow request fromWallet toWallet)).1 = .ok t := by
    rw [heffect] at h
    exact h
  have hrow : t = Db.newTransaction ⟨w.clock, i.uuid⟩ (pendingRow request fromWallet toWallet) ∧
      t ∈ (w.db.createTransaction ⟨w.clock, i.uuid⟩ (pendingRow request fromWallet toWallet)).2.transactions.rows := by
    have hspec := Db.createTransaction_spec w.db ⟨w.clock, i.uuid⟩ (pendingRow request fromWallet toWallet)
    revert hok
    generalize w.db.createTransaction ⟨w.clock, i.uuid⟩ _ = outcome at hspec ⊢
    intro hok
    cases hspec with
    | done free rows references =>
      have ht := (Except.ok.inj hok).symm
      refine ⟨ht, ?_⟩
      rw [Db.mem_transactions, ht]
      exact (rows _).trans (if_pos rfl)
    | refused => cases hok
  obtain ⟨ht, hmem⟩ := hrow
  refine { made := ⟨w, _, i, hm, h, ?_⟩, status := ?_, tenantId := ?_, tokenId := ?_, fromWalletId := ?_,
           toWalletId := ?_, amount := ?_ }
  · rw [heffect]
    exact hmem
  all_goals rw [ht]
  · rfl
  · rfl
  · rfl
  · exact hfrom
  · exact hto
  · rfl

/-- **Every call of a request is justified**, and at most one of them is a broadcast. -/
theorem wp_transfer_justified (registry : BlockchainAdapterRegistry) (backoffDelayMs : Nat)
    (request : TransferRequest) (w : World) :
    wp exec (fun _ _ => True) (fun _ _ => True) (TransferService.transfer registry backoffDelayMs request)
      (fun tr _ _ => Throughout (Justified request) [] tr ∧ tr.countP (fun m => m.op.isSubmission) ≤ 1) w := by
  refine wp_bind.mpr (wp_mono ?_ (wp_prepare_gave registry request w))
  intro tr r w₁ h
  obtain ⟨hreads, hgave⟩ := h
  have hplain : Throughout (Justified request) [] tr :=
    throughout_of_plain fun m hm => plain_of_prepares (hreads m hm)
  have hcount : tr.countP (fun m => m.op.isSubmission) = 0 := by
    rw [List.countP_eq_zero]
    intro m hm
    simp [(not_acts_of_prepares (hreads m hm)).2]
  cases r with
  | error e => exact ⟨hplain, by omega⟩
  | ok prepared =>
    obtain ⟨token, fromWallet, toWallet⟩ := prepared
    obtain ⟨hfound, hfrom, hto⟩ := hgave _ rfl
    refine wp_bind.mpr (wp_bind.mpr (wp_perform.mpr ?_))
    intro w₂ _ i
    refine ⟨trivial, ?_⟩
    cases hcreate : (exec (.stmt (.transactionCreate (pendingRow request fromWallet toWallet))) i w₂).1 with
    | error e =>
      unfold pendingRow at hcreate
      rw [hcreate]
      refine ⟨throughout_append.mpr ⟨hplain, trivial, trivial⟩, ?_⟩
      rw [List.countP_append, hcount]
      simp [Call.isSubmission]
    | ok transaction =>
      have hrow : Committed request
          (tr ++ [⟨w₂, .stmt (.transactionCreate (pendingRow request fromWallet toWallet)), i⟩]) transaction :=
        committed_of_exec hfrom hto hcreate (by simp)
      unfold pendingRow at hcreate hrow
      rw [hcreate]
      refine wp_bind.mpr (wp_perform.mpr ?_)
      intro w₃ _ j
      refine ⟨trivial, ?_⟩
      rw [exec_of_inProcess rfl]
      show wp exec _ _ (Prog.tryCatch _ _) _ _
      let emitted : Moment Call Input World :=
        ⟨w₃, .emit (.metric "transactions_created_total" transaction.tenantId transaction.tokenId), j⟩
      have hrow' := hrow.mono (List.subset_append_left _ [emitted])
      refine wp_mono ?_ (wp_and (wp_rest_justified backoffDelayMs hfrom hto (hfound.mono (by simp)) hrow' _)
        (countP_submit backoffDelayMs token fromWallet toWallet transaction _))
      intro tr' _ _ h
      obtain ⟨hjustified, honce⟩ := h
      refine ⟨?_, ?_⟩
      · simpa [throughout_append, Throughout, Justified, hplain] using hjustified
      · rw [List.countP_append, hcount, List.countP_append]
        simpa [Call.isSubmission] using honce

end Order

/-- **In which order a transfer request acts**, for every state of the database and every request.  A
request that a check refuses, or whose row cannot be created, throws and leaves the ledger, the chain and
the queue as they were; and in every run, whatever fails and whatever others do between its calls, at most
one transfer is handed to an adapter, and every call is justified by the calls before it. -/
theorem transfer_in_order (registry : BlockchainAdapterRegistry) (backoffDelayMs : Nat)
    (request : TransferRequest) (w : World) :
    (∀ inp, Rejected registry w.db request ∨
        CreateFails ((TransferService.transfer registry backoffDelayMs request).trace exec inp w) →
      (∃ e, ((TransferService.transfer registry backoffDelayMs request).run exec inp w).1 = .error e) ∧
      Untouched w ((TransferService.transfer registry backoffDelayMs request).run exec inp w).2) ∧
    ∀ inp : Nat → (World → World) × Input,
      (traceAmong exec (TransferService.transfer registry backoffDelayMs request) inp w).countP
        (fun m => m.op.isSubmission) ≤ 1 ∧
      ∀ pre m post, traceAmong exec (TransferService.transfer registry backoffDelayMs request) inp w =
        pre ++ m :: post → Justified request pre m := by
  refine ⟨?_, ?_⟩
  · intro inp h
    exact run_of_wp (wp_transfer_untouched registry backoffDelayMs request w) inp h
  · intro inp
    have hmoves : ∀ n v, Relation.ReflTransGen (fun _ _ : World => True) v ((inp n).1 v) :=
      fun n v => .single trivial
    have hrun := run_among_of_wp (P := fun _ => True) (wp_restrict
      (wp_transfer_justified registry backoffDelayMs request w)) (fun _ => trivial) hmoves
    refine ⟨hrun.2, ?_⟩
    intro pre m post htr
    exact hrun.1.at htr

/-- The calls of a request that is served. -/
def servedTransfer : List (Moment Call Input World) :=
  traceAmong exec (TransferService.transfer blockchainAdapterRegistry 5000 .sample)
    (fun n => (id, (transferInputs "tx" "0x01").getD n {})) .sample

/-- Its transfer and its job are justified. -/
theorem transfer_in_order_sample :
    (∃ pre m post chain sent, servedTransfer = pre ++ m :: post ∧ m.op = .submitTransfer chain sent ∧
      Justified .sample pre m) ∧
    ∃ pre m post job opts, servedTransfer = pre ++ m :: post ∧ m.op = .queueAdd job opts ∧
      Justified .sample pre m := by
  have hjustified := ((transfer_in_order blockchainAdapterRegistry 5000 .sample .sample).2
    fun n => (id, (transferInputs "tx" "0x01").getD n {})).2
  have hsent : Call.submitTransfer .EVM (adapterRequest .sample .sample .sender .receiver) ∈
      servedTransfer.map Moment.op := List.mem_of_getElem? (i := 6) rfl
  have hadded : Call.queueAdd ⟨"tx", "tenant"⟩ (defaultJobOptions 5000) ∈ servedTransfer.map Moment.op :=
    List.mem_of_getElem? (i := 11) rfl
  obtain ⟨m, hm, hop⟩ := List.mem_map.mp hsent
  obtain ⟨m', hm', hop'⟩ := List.mem_map.mp hadded
  obtain ⟨pre, post, hsplit⟩ := List.append_of_mem hm
  obtain ⟨pre', post', hsplit'⟩ := List.append_of_mem hm'
  exact ⟨⟨pre, m, post, _, _, hsplit, hop, hjustified pre m post hsplit⟩,
    pre', m', post', _, _, hsplit', hop', hjustified pre' m' post' hsplit'⟩

end TransactionSimulator
