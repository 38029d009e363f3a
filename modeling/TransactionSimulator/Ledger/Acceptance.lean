import Mathlib.Data.Fintype.EquivFin
import TransactionSimulator.Ledger.Submission

/-!
# Which transfer requests are accepted

`TransferService.transfer` reads the token and the two wallets, checks whose the sending wallet is
and asks the adapter of the token's chain whether it can sign.  A request that passes is written to
the ledger and broadcast.  `Accepted` says which requests pass; the chains on which the wallets live
do not occur in it.

* `wp_transfer_acts`, `canMake_submission`: what is written and broadcast, and that it can be.
* `chainsAgree_iff`: when only requests on one chain are.
-/

namespace TransactionSimulator

open Concurrent Prog Relational

/-- The rows that a request names, and its own checks on them. -/
structure Resolves (registry : BlockchainAdapterRegistry) (db : Db) (request : TransferRequest)
    (token : Token) (fromWallet toWallet : Wallet) : Prop where
  tokenRow : db.tokens.get (.id request.tokenId) = some token
  fromRow : db.wallets.get (.id request.fromWalletId) = some fromWallet
  toRow : db.wallets.get (.id request.toWalletId) = some toWallet
  tenant : fromWallet.tenantId = request.tenantId
  owner : fromWallet.ownerId = request.userId
  signs : ∃ adapter, registry.get token.blockchain = .ok adapter ∧
    adapter.canSign ⟨fromWallet.custodyType, fromWallet.hasCustodyKey⟩ = true

/-- The request passes all checks, and its amount fits into the column. -/
def Accepted (registry : BlockchainAdapterRegistry) (db : Db) (request : TransferRequest) : Prop :=
  (∃ token fromWallet toWallet, Resolves registry db request token fromWallet toWallet) ∧
    fitsBigInt request.amount = true

/-- Both wallets live on the chain of the token. -/
def ChainsAgree (env : ProcessEnv) (db : Db) (request : TransferRequest) : Prop :=
  ∃ token fromWallet toWallet, db.tokens.get (.id request.tokenId) = some token ∧
    db.wallets.get (.id request.fromWalletId) = some fromWallet ∧
    db.wallets.get (.id request.toWalletId) = some toWallet ∧
    blockchainForChainId env fromWallet.chainId = .ok (some token.blockchain) ∧
    blockchainForChainId env toWallet.chainId = .ok (some token.blockchain)

/-- The call hands a transfer to an adapter. -/
def Call.isSubmission : Call → Bool
  | .submitTransfer _ _ => true
  | _ => false

/-- The call adds a row to the ledger, or hands a transfer to an adapter. -/
def Acts (m : Moment Call Input World) : Prop :=
  (∃ data, m.op = .stmt (.transactionCreate data) ∧
    (exec m.op m.input m.state).2.db.transactions.rows ≠ m.state.db.transactions.rows) ∨
  m.op.isSubmission = true

/-! ## Tokens and wallets stay -/

/-- The tables that a request reads are the same. -/
def Books (w w' : World) : Prop := w'.db.tokens = w.db.tokens ∧ w'.db.wallets = w.db.wallets

theorem Books.refl (w : World) : Books w w := ⟨rfl, rfl⟩

theorem Books.trans {w w' w'' : World} (h : Books w w') (h' : Books w' w'') : Books w w'' :=
  ⟨h'.1.trans h.1, h'.2.trans h.2⟩

theorem Books.star {w w' : World} (h : Relation.ReflTransGen Books w w') : Books w w' := by
  induction h with
  | refl => exact .refl w
  | tail _ hs ih => exact ih.trans hs

/-- A process that may register no wallet and persist no confirmation. -/
theorem books_of_permitted {env : ProcessEnv} {A : List Right} {o : Call} (h : Permitted env A o)
    (hwallet : .wallet ∉ A) (hconfirm : .write .confirm ∉ A) (i : Input) (w : World) :
    Books w (exec o i w).2 := by
  refine exec_snd (P := Books) (.refl w) ?_
  cases o with
  | stmt s =>
    have hsame := s.exec_sameBut ⟨w.clock, i.uuid⟩ w.db
    refine ⟨hsame.tokens, hsame.wallets ?_⟩
    cases s with
    | walletCreate data => exact absurd h.1 hwallet
    | _ => simp [Stmt.target]
  | transaction body => exact absurd h.1 hconfirm
  | queueTake =>
    simp only [Call.effect]
    split
    · split <;> exact .refl w
    · exact .refl w
  | getTransaction | submitTransfer | generateWallet | balanceOf | nativeBalance =>
    simp only [Call.effect]
    split <;> exact .refl w
  | processingAdd =>
    simp only [Call.effect]
    split <;> exact .refl w
  | _ => exact .refl w

section Request

variable {registry : BlockchainAdapterRegistry} {request : TransferRequest}

/-- The program reads while others leave the tokens and wallets of `w₀` alone, and what it returns
satisfies `F`. -/
def Reading {α : Type} (w₀ : World) (p : Program α) (F : α → Prop) : Prop :=
  ∀ w, Books w₀ w → Yields exec Books Books p (fun a w' => Books w₀ w' ∧ F a) w

variable {w₀ : World}

theorem Reading.bind {α β : Type} {p : Program α} {f : α → Program β} {F : α → Prop} {H : β → Prop}
    (hp : Reading w₀ p F) (hf : ∀ a, F a → Reading w₀ (f a) H) : Reading w₀ (p.bind f) H := by
  intro w hw
  refine Yields.bind (hp w hw) ?_
  intro a w' h
  exact hf a h.2 w' h.1

theorem reading_throw {α : Type} {F : α → Prop} (e : JsError) :
    Reading w₀ (.throw e : Program α) F :=
  fun _ _ _ h => by cases h

theorem reading_pure {α : Type} {F : α → Prop} {a : α} (h : F a) : Reading w₀ (.pure a : Program α) F := by
  intro w hw b hb
  cases hb
  exact ⟨hw, h⟩

theorem reading_ofExcept {α : Type} (r : Except JsError α) :
    Reading w₀ (Prog.ofExcept r) (fun a => r = .ok a) := by
  cases r with
  | ok a => exact reading_pure (F := fun b => Except.ok a = Except.ok b) rfl
  | error e => exact reading_throw e

/-- Reading one row: the answer is what the tables say. -/
theorem reading_stmt {s : Stmt} (h : ∀ env db, (s.exec env db).2 = db) {F : s.Res → Prop}
    (hF : ∀ w i a, Books w₀ w → (s.exec ⟨w.clock, i⟩ w.db).1 = .ok a → F a) :
    Reading w₀ (prisma.stmt s) F := by
  intro w hw
  refine wp_perform.mpr ?_
  intro w₁ hpath i
  have hsame : (exec (.stmt s) i w₁).2 = w₁ := by
    refine exec_snd (P := fun w w' => w' = w) rfl ?_
    simp only [Call.effect, h]
  have hw₁ : Books w₀ w₁ := hw.trans (.star hpath)
  rw [hsame]
  refine ⟨.refl w₁, ?_⟩
  intro a ha
  rw [exec_ok ha] at ha
  exact ⟨hw₁, hF w₁ i.uuid a hw₁ ha⟩

theorem reading_tokenFindUnique (id : String) :
    Reading w₀ (prisma.stmt (.tokenFindUnique id)) (fun found => found = w₀.db.tokens.get (.id id)) := by
  refine reading_stmt (fun _ _ => rfl) ?_
  intro w _ a hw ha
  rw [← hw.1]
  exact (Except.ok.inj ha).symm

theorem reading_walletFindUnique (id : String) :
    Reading w₀ (prisma.stmt (.walletFindUnique id)) (fun found => found = w₀.db.wallets.get (.id id)) := by
  refine reading_stmt (fun _ _ => rfl) ?_
  intro w _ a hw ha
  rw [← hw.2]
  exact (Except.ok.inj ha).symm

/-- **The checks of a request**: what passes them resolves. -/
theorem reading_prepare : Reading w₀ (TransferService.prepare registry request)
    (fun a => Resolves registry w₀.db request a.1 a.2.1 a.2.2) := by
  refine Reading.bind (F := fun token => w₀.db.tokens.get (.id request.tokenId) = some token) ?_ ?_
  · refine Reading.bind (reading_tokenFindUnique request.tokenId) ?_
    intro found hfound
    cases found with
    | none => exact reading_throw _
    | some token =>
      exact reading_pure (F := fun token => w₀.db.tokens.get (.id request.tokenId) = some token)
        hfound.symm
  intro token htoken
  refine Reading.bind (reading_walletFindUnique request.fromWalletId) ?_
  intro found hfrom
  cases found with
  | none => exact reading_throw _
  | some fromWallet =>
    dsimp only
    split
    · exact reading_throw _
    next hown =>
      simp only [ne_eq, Bool.or_eq_true, decide_eq_true_eq, not_or, not_not] at hown
      refine Reading.bind (reading_walletFindUnique request.toWalletId) ?_
      intro found hto
      cases found with
      | none => exact reading_throw _
      | some toWallet =>
        refine Reading.bind (reading_ofExcept _) ?_
        intro adapter hadapter
        -- the wallet is read once more, for its custody
        have hid : fromWallet.id = request.fromWalletId := by
          have hkey := ((w₀.db.wallets.get_eq_some_iff).mp hfrom.symm).2
          rw [Wallet.id_mem_keys] at hkey
          exact hkey.symm
        refine Reading.bind (F := fun custody : WalletCustodyStatus => custody =
          ⟨fromWallet.custodyType, fromWallet.hasCustodyKey⟩) ?_ ?_
        · refine Reading.bind (reading_walletFindUnique fromWallet.id) ?_
          intro found hfound
          rw [hid, ← hfrom] at hfound
          rw [hfound]
          exact reading_pure (F := fun custody : WalletCustodyStatus => custody =
            ⟨fromWallet.custodyType, fromWallet.hasCustodyKey⟩) rfl
        · intro custody hcustody
          split
          · next hsign =>
            rw [hcustody] at hsign
            exact reading_pure (F := fun a : Token × Wallet × Wallet =>
              Resolves registry w₀.db request a.1 a.2.1 a.2.2) ⟨htoken, hfrom.symm, hto.symm, hown.1,
                hown.2, adapter, hadapter, hsign⟩
          · exact reading_throw _

/-! ## What is written and broadcast -/

/-- The row that `createPending` asks for. -/
def pendingRow (request : TransferRequest) (fromWallet toWallet : Wallet) : TransactionCreateInput :=
  { tenantId := request.tenantId, tokenId := request.tokenId, fromWalletId := fromWallet.id,
    toWalletId := toWallet.id, amount := request.amount, status := .PENDING }

/-- An amount that does not fit is never written. -/
theorem exec_create_of_not_fits {data : TransactionCreateInput} (h : fitsBigInt data.amount ≠ true)
    (i : Input) (w : World) :
    (∃ e, (exec (.stmt (.transactionCreate data)) i w).1 = .error e) ∧
      (exec (.stmt (.transactionCreate data)) i w).2 = w := by
  have heffect : (Call.stmt (.transactionCreate data)).effect i w = (.error valueOutOfRange, w) := by
    simp [Call.effect, Stmt.exec, Db.createTransaction, h]
  rcases exec_cases (.stmt (.transactionCreate data)) i w with he | ⟨message, he | he⟩
  · rw [he, heffect]
    exact ⟨⟨_, rfl⟩, rfl⟩
  · rw [he]
    exact ⟨⟨_, rfl⟩, rfl⟩
  · rw [he, heffect]
    exact ⟨⟨_, rfl⟩, rfl⟩

theorem not_acts_of_prepares {m : Moment Call Input World} (h : Prepares m.op) :
    ¬ Acts m ∧ m.op.isSubmission = false := by
  obtain ⟨w, o, i⟩ := m
  cases o with
  | stmt s =>
    cases s with
    | tokenFindUnique | walletFindUnique =>
      refine ⟨?_, rfl⟩
      intro hacts
      rcases hacts with ⟨_, hop, -⟩ | hop <;> cases hop
    | _ => exact h.elim
  | _ => exact h.elim

theorem not_submission_of_quiet {o : Call} (h : Quiet o) : o.isSubmission = false := by
  cases o with
  | submitTransfer => exact h.elim
  | _ => rfl

/-- A transfer is handed to an adapter at most once. -/
theorem countP_submit {R : World → World → Prop} (backoffDelayMs : Nat) (token : Token)
    (fromWallet toWallet : Wallet) (transaction : Transaction) (w : World) :
    wp exec R (fun _ _ => True)
      ((TransferService.submit backoffDelayMs request token fromWallet toWallet transaction).tryCatch
        fun error => if transaction.id = "" then .throw error
          else LedgerService.markFailed transaction.id error.message)
      (fun tr _ _ => tr.countP (fun m => m.op.isSubmission) ≤ 1) w := by
  intro w₁ _ i
  refine ⟨trivial, ?_⟩
  refine wp_mono ?_ (All.wp_trace (P := fun o => o.isSubmission = false) (All.tryCatch (All.bind ?_ ?_) ?_)
    (All.safe (P := fun _ => True) (fun _ _ _ _ => trivial) (all_true _) _))
  · intro tr _ _ h
    have hnone : tr.countP (fun m => m.op.isSubmission) = 0 := by
      rw [List.countP_eq_zero]
      intro m hm
      simp [h.1 m hm]
    show List.countP _ (_ :: tr) ≤ 1
    rw [List.countP_cons, hnone]
    split <;> omega
  · cases (exec (.submitTransfer token.blockchain _) i w₁).1 <;> exact trivial
  · intro hash
    refine All.perform_bind rfl ?_
    intro _
    refine All.bind ((quiet_markSubmitted _ _).mono fun _ => not_submission_of_quiet) ?_
    intro submitted
    exact All.perform_bind rfl fun _ => trivial
  · intro error
    split
    · exact trivial
    · rw [markFailed_eq]
      exact All.perform_bind rfl fun _ => (quiet_updateThen _ _ _ _).mono fun _ => not_submission_of_quiet

/-- **What a request writes and broadcasts**, while others leave the tokens and wallets alone: nothing
unless it is accepted, and at most one broadcast. -/
theorem wp_transfer_acts (registry : BlockchainAdapterRegistry) (backoffDelayMs : Nat)
    (request : TransferRequest) {w : World} (hw : Books w₀ w) :
    wp exec Books Books (TransferService.transfer registry backoffDelayMs request)
      (fun tr _ _ => (Found Acts tr → Accepted registry w₀.db request) ∧
        tr.countP (fun m => m.op.isSubmission) ≤ 1) w := by
  have hsafe : Safe exec Books Books (TransferService.transfer registry backoffDelayMs request) w := by
    refine All.safe (P := Permitted (fun _ => none) [.write .create, .write .submit, .write .fail, .queue])
      ?_ (permitted_transfer (by simp) (by simp) (by simp) (by simp) _ _ _) w
    intro o ho i w
    exact books_of_permitted ho (by decide) (by decide) i w
  refine wp_of_safe (H := fun _ _ => True) hsafe ?_
  have hreading : Reading w₀ (TransferService.prepare registry request) _ := reading_prepare
  have hprepare := wp_weaken (H := fun _ _ => True) (fun w w' (h : Books w w') => h) (fun _ _ _ => trivial)
    ((prepares_prepare registry request).wp_trace (hreading w hw))
  refine wp_bind.mpr (wp_mono ?_ hprepare)
  intro tr r w₁ h
  obtain ⟨hreads, hresolves⟩ := h
  have hquiet : ¬ Found Acts tr := by
    intro h
    obtain ⟨m, hm, h⟩ := h
    exact (not_acts_of_prepares (hreads m hm)).1 h
  have hcount : tr.countP (fun m => m.op.isSubmission) = 0 := by
    rw [List.countP_eq_zero]
    intro m hm
    simp [(not_acts_of_prepares (hreads m hm)).2]
  cases r with
  | error e => exact ⟨fun h => absurd h hquiet, by omega⟩
  | ok prepared =>
    obtain ⟨token, fromWallet, toWallet⟩ := prepared
    have hrows := (hresolves _ rfl).2
    refine wp_bind.mpr (wp_bind.mpr (wp_perform.mpr ?_))
    intro w₂ _ i
    refine ⟨trivial, ?_⟩
    by_cases hfits : fitsBigInt request.amount = true
    · have haccepted : Accepted registry w₀.db request := ⟨⟨_, _, _, hrows⟩, hfits⟩
      cases (exec (.stmt (.transactionCreate _)) i w₂).1 with
      | error e =>
        refine ⟨fun _ => haccepted, ?_⟩
        rw [List.countP_append, hcount]
        simp [Call.isSubmission]
      | ok transaction =>
        refine wp_bind.mpr (wp_perform.mpr ?_)
        intro w₃ _ j
        rw [exec_of_inProcess rfl]
        refine ⟨trivial, ?_⟩
        simp only [Call.effect, pure_eq, wp]
        refine wp_mono ?_ (countP_submit backoffDelayMs token fromWallet toWallet transaction _)
        intro tr' _ _ h
        refine ⟨fun _ => haccepted, ?_⟩
        rw [List.countP_append, hcount, List.countP_append]
        simpa [Call.isSubmission] using h
    · have hrefused : fitsBigInt (pendingRow request fromWallet toWallet).amount ≠ true := hfits
      obtain ⟨⟨e, he⟩, hsame⟩ := exec_create_of_not_fits hrefused i w₂
      cases hcreate : (exec (.stmt (.transactionCreate _)) i w₂).1 with
      | ok transaction => cases hcreate.symm.trans he
      | error e' =>
        refine ⟨?_, ?_⟩
        · intro hacts
          simp only [found_append, found_cons, found_nil, or_false] at hacts
          rcases hacts with h | ⟨_, hop, hnew⟩ | hop
          · exact absurd h hquiet
          · exact absurd (congrArg (fun w : World => w.db.transactions.rows) hsame) hnew
          · cases hop
        · rw [List.countP_append, hcount]
          simp [Call.isSubmission]

/-! ## An accepted request is written and broadcast -/

theorem can_find {s : Stmt} {a : s.Res} {w : World} {Q : Except JsError s.Res → World → Prop}
    (h : s.exec ⟨w.clock, ""⟩ w.db = (.ok a, w.db)) (hQ : Q (.ok a) w) :
    Can exec (fun _ _ _ => True) (prisma.stmt s) Q w := by
  refine can_perform.mpr ⟨{}, trivial, ?_⟩
  have heffect : (Call.stmt s).effect {} w = (.ok a, w) := by
    simp only [Call.effect, h]
  rw [exec_of_fault_none rfl, heffect]
  exact hQ

theorem can_prepare {w : World} {token : Token} {fromWallet toWallet : Wallet}
    (h : Resolves registry w.db request token fromWallet toWallet) :
    Can exec (fun _ _ _ => True) (TransferService.prepare registry request)
      (fun r w' => r = .ok (token, fromWallet, toWallet) ∧ w' = w) w := by
  obtain ⟨adapter, hadapter, hsign⟩ := h.signs
  have hid : fromWallet.id = request.fromWalletId := by
    have hkey := ((w.db.wallets.get_eq_some_iff).mp h.fromRow).2
    rw [Wallet.id_mem_keys] at hkey
    exact hkey.symm
  unfold TransferService.prepare TokenService.getToken
  refine can_bind.mpr (can_bind.mpr (can_find (by simp only [Stmt.exec, h.tokenRow]; rfl) ?_))
  refine can_bind.mpr (can_find (by simp only [Stmt.exec, h.fromRow]; rfl) ?_)
  dsimp only
  rw [if_neg (by simp [h.tenant, h.owner])]
  refine can_bind.mpr (can_find (by simp only [Stmt.exec, h.toRow]; rfl) ?_)
  dsimp only
  rw [hadapter]
  refine can_bind.mpr (can_ofExcept.mpr (can_bind.mpr (can_bind.mpr
    (can_find (by simp only [Stmt.exec, hid, h.fromRow]; rfl) ?_))))
  show Can exec _ (if adapter.canSign ⟨fromWallet.custodyType, fromWallet.hasCustodyKey⟩ = true then _
    else _) _ w
  rw [if_pos hsign]
  exact ⟨rfl, rfl⟩

theorem exists_unused (ids : List String) : ∃ id, id ∉ ids := by
  obtain ⟨id, hid⟩ := Infinite.exists_notMem_finset ids.toFinset
  exact ⟨id, by simpa using hid⟩

/-- **An accepted request can be broadcast.** -/
theorem canMake_submission (backoffDelayMs : Nat) {w : World} (h : Accepted registry w.db request) :
    CanMake exec (fun _ _ _ => True) (fun m => m.op.isSubmission = true)
      (TransferService.transfer registry backoffDelayMs request) w := by
  obtain ⟨⟨token, fromWallet, toWallet, hrows⟩, hfits⟩ := h
  refine Can.bind_make ((can_prepare hrows).mono ?_)
  intro r w₁ h
  obtain ⟨rfl, rfl⟩ := h
  refine ⟨_, rfl, ?_⟩
  obtain ⟨uuid, huuid⟩ := exists_unused (w₁.db.transactions.rows.map Transaction.id)
  have hids : fromWallet.id = request.fromWalletId ∧ toWallet.id = request.toWalletId := by
    have hfrom := ((w₁.db.wallets.get_eq_some_iff).mp hrows.fromRow).2
    have hto := ((w₁.db.wallets.get_eq_some_iff).mp hrows.toRow).2
    rw [Wallet.id_mem_keys] at hfrom hto
    exact ⟨hfrom.symm, hto.symm⟩
  obtain ⟨table, hinsert⟩ := w₁.db.transactions.insert_isSome
    (r := Db.newTransaction ⟨w₁.clock, uuid⟩ (pendingRow request fromWallet toWallet)) (by
      intro k hk
      simp only [Transaction.keys, Db.newTransaction, Option.map_none, Option.toList_none,
        List.mem_singleton] at hk
      subst hk
      rw [Table.get_eq_none_iff]
      intro t ht hid
      rw [Transaction.id_mem_keys] at hid
      exact huuid (hid ▸ List.mem_map_of_mem ht))
  have htenant : request.tenantId ∈ w₁.db.tenants := by
    have howners := w₁.db.owners fromWallet ((w₁.db.wallets.get_eq_some_iff).mp hrows.fromRow).1
    rw [hrows.tenant] at howners
    exact howners.1
  have hcreate : ∃ t w₂, (Call.stmt (.transactionCreate (pendingRow request fromWallet toWallet))).effect
      { uuid } w₁ = (.ok t, w₂) := by
    have hkeys : (pendingRow request fromWallet toWallet).tenantId ∈ w₁.db.tenants ∧
        (w₁.db.tokens.get (.id (pendingRow request fromWallet toWallet).tokenId)).isSome ∧
        (w₁.db.wallets.get (.id (pendingRow request fromWallet toWallet).fromWalletId)).isSome ∧
        (w₁.db.wallets.get (.id (pendingRow request fromWallet toWallet).toWalletId)).isSome := by
      simp only [pendingRow]
      rw [hids.1, hids.2, hrows.tokenRow, hrows.fromRow, hrows.toRow]
      exact ⟨htenant, rfl, rfl, rfl⟩
    obtain ⟨db, hdb⟩ : ∃ db, w₁.db.createTransaction ⟨w₁.clock, uuid⟩
        (pendingRow request fromWallet toWallet) = (.ok (Db.newTransaction ⟨w₁.clock, uuid⟩
          (pendingRow request fromWallet toWallet)), db) := by
      rw [Db.createTransaction, if_neg (by simp [pendingRow, hfits]), dif_pos hkeys]
      split
      · exact ⟨_, rfl⟩
      · next hnone =>
        rw [hinsert] at hnone
        cases hnone
    refine ⟨Db.newTransaction ⟨w₁.clock, uuid⟩ (pendingRow request fromWallet toWallet), { w₁ with db }, ?_⟩
    simp only [Call.effect, Stmt.exec, hdb]
  obtain ⟨t, w₂, hcreate⟩ := hcreate
  refine Can.bind_make ?_
  change Can exec _ ((perform (Call.stmt (.transactionCreate (pendingRow request fromWallet toWallet)))).bind
    _) _ w₁
  refine can_bind.mpr (can_perform.mpr ⟨{ uuid }, trivial, ?_⟩)
  rw [exec_of_fault_none rfl, hcreate]
  refine can_bind.mpr (can_perform.mpr ⟨{}, trivial, ?_⟩)
  rw [exec_of_inProcess rfl]
  refine ⟨t, rfl, ?_⟩
  exact CanMake.tryCatch _ (CanMake.bind _ (canMake_perform (i := {}) trivial rfl))

end Request

/-- **When only requests on one chain are written or broadcast.**  In any state, whatever fails: exactly
if the request is not accepted, or its wallets live on the chain of its token. -/
theorem chainsAgree_iff (env : ProcessEnv) (registry : BlockchainAdapterRegistry) (backoffDelayMs : Nat)
    (request : TransferRequest) (w : World) :
    (∀ inp, ∀ m ∈ (TransferService.transfer registry backoffDelayMs request).trace exec inp w,
      Acts m → ChainsAgree env w.db request) ↔
    (Accepted registry w.db request → ChainsAgree env w.db request) := by
  constructor
  · intro hall haccepted
    obtain ⟨inp, m, hm, hsubmission⟩ := (canMake_submission backoffDelayMs haccepted).run
    exact hall inp m hm (.inr hsubmission)
  · intro h inp m hm hacts
    have hrun := run_of_wp (wp_transfer_acts registry backoffDelayMs request (Books.refl w)) inp
    exact h (hrun.1 ⟨m, hm, hacts⟩)

/-- The sample system with a token of the Bitcoin chain; both wallets live on the EVM chain. -/
def World.withBitcoin : World :=
  { World.sample with db :=
    { Db.sample with
      tokens := ⟨[.sample, ⟨"bitcoin", "BTC", none, .BITCOIN⟩], by decide⟩
      references := by simp [Db.sample, Relational.Table.empty] } }

def TransferRequest.bitcoin : TransferRequest := ⟨"tenant", "user", "bitcoin", "sender", "receiver", 7⟩

/-- The adapter of the Bitcoin chain is handed the EVM address of the receiver. -/
theorem bitcoin_acts :
    (∃ m ∈ (TransferService.transfer blockchainAdapterRegistry 5000 .bitcoin).trace exec
      (fun n => (transferInputs "tx" "0x01").getD n {}) .withBitcoin, Acts m) ∧
    ¬ ChainsAgree (fun _ => none) World.withBitcoin.db .bitcoin := by
  refine ⟨?_, ?_⟩
  · have hany : ((TransferService.transfer blockchainAdapterRegistry 5000 .bitcoin).trace exec
        (fun n => (transferInputs "tx" "0x01").getD n {}) .withBitcoin).any
        (fun m => m.op.isSubmission) = true := by
      decide +kernel
    obtain ⟨m, hm, hsubmission⟩ := List.any_eq_true.mp hany
    exact ⟨m, hm, .inr hsubmission⟩
  · intro h
    obtain ⟨token, fromWallet, _, htoken, hfrom, -, hchain, -⟩ := h
    have hbitcoin : token.blockchain = .BITCOIN := by
      have hget : World.withBitcoin.db.tokens.get (.id TransferRequest.bitcoin.tokenId) =
          some ⟨"bitcoin", "BTC", none, .BITCOIN⟩ := by decide
      rw [hget, Option.some.injEq] at htoken
      rw [← htoken]
    have hsender : fromWallet = .sender := by
      have hget : World.withBitcoin.db.wallets.get (.id TransferRequest.bitcoin.fromWalletId) =
          some .sender := by decide
      rw [hget, Option.some.injEq] at hfrom
      exact hfrom.symm
    rw [hsender, hbitcoin] at hchain
    exact absurd hchain (by decide)

end TransactionSimulator
