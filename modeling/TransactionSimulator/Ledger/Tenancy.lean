import TransactionSimulator.Ledger.Statements
import TransactionSimulator.Rights

/-!
# Whose rows are whose

A wallet is registered by its owner, under the tenant of the owner, and a ledger row is created under the
tenant of the sending wallet.  Neither changes afterwards.

* `Tenancy`: the invariant.  `Proper` says when a call may be made, `keeps_exec` that the invariant is kept.
* `respects_tenancy`, `tenancy_after`: every task makes only such calls, so the invariant holds in every
  state that is reached.
-/

namespace TransactionSimulator

open Concurrent Prog Relational

/-- Wallets belong to the tenants of their owners, and ledger rows to the tenants of their senders. -/
structure Tenancy (tenantOf : String → String) (w : World) : Prop where
  owner : ∀ wallet ∈ w.db.wallets.rows, wallet.tenantId = tenantOf wallet.ownerId
  sender : ∀ id t, w.db.transactions.get (.id id) = some t →
    ∃ wallet ∈ w.db.wallets.rows, wallet.id = t.fromWalletId ∧ wallet.tenantId = t.tenantId

/-- Wallets stay, and the tenancy is kept. -/
structure Keeps (tenantOf : String → String) (w w' : World) : Prop where
  wallets : ∀ wallet ∈ w.db.wallets.rows, wallet ∈ w'.db.wallets.rows
  tenancy : Tenancy tenantOf w → Tenancy tenantOf w'

/-- A call that keeps the tenancy: a wallet is registered for its owner, a row is created for the tenant of
its sender. -/
def Proper (tenantOf : String → String) (w : World) : Call → Prop
  | .stmt (.walletCreate data) => data.tenantId = tenantOf data.ownerId
  | .stmt (.transactionCreate data) => ∃ wallet ∈ w.db.wallets.rows, wallet.id = data.fromWalletId ∧
      wallet.tenantId = data.tenantId
  | .transaction body => ∃ tx result, body = ConfirmationProcessor.persistBody tx result
  | _ => True

section Calls

variable {tenantOf : String → String} {w w' w'' : World}

theorem Keeps.refl (w : World) : Keeps tenantOf w w := ⟨fun _ h => h, fun h => h⟩

theorem Keeps.trans (h : Keeps tenantOf w w') (h' : Keeps tenantOf w' w'') : Keeps tenantOf w w'' :=
  ⟨fun wallet hw => h'.wallets wallet (h.wallets wallet hw), fun hw => h'.tenancy (h.tenancy hw)⟩

theorem Keeps.star (h : Relation.ReflTransGen (Keeps tenantOf) w w') : Keeps tenantOf w w' := by
  induction h with
  | refl => exact .refl w
  | tail _ hs ih => exact ih.trans hs

/-- What is new is proper, and what is old keeps its tenant and its sender. -/
theorem Keeps.mk_of (hwallets : ∀ wallet ∈ w.db.wallets.rows, wallet ∈ w'.db.wallets.rows)
    (howner : ∀ wallet ∈ w'.db.wallets.rows, wallet ∈ w.db.wallets.rows ∨
      wallet.tenantId = tenantOf wallet.ownerId)
    (hsender : ∀ id t', w'.db.transactions.get (.id id) = some t' →
      (∃ t, w.db.transactions.get (.id id) = some t ∧ t'.tenantId = t.tenantId ∧
        t'.fromWalletId = t.fromWalletId) ∨
      ∃ wallet ∈ w.db.wallets.rows, wallet.id = t'.fromWalletId ∧ wallet.tenantId = t'.tenantId) :
    Keeps tenantOf w w' := by
  refine ⟨hwallets, fun hw => ⟨?_, ?_⟩⟩
  · intro wallet hmem
    rcases howner wallet hmem with h | h
    · exact hw.owner wallet h
    · exact h
  · intro id t' ht'
    rcases hsender id t' ht' with ⟨t, ht, htenant, hfrom⟩ | ⟨wallet, hmem, hid, htenant⟩
    · obtain ⟨wallet, hmem, hid, hwallet⟩ := hw.sender id t ht
      exact ⟨wallet, hwallets wallet hmem, hid.trans hfrom.symm, hwallet.trans htenant.symm⟩
    · exact ⟨wallet, hwallets wallet hmem, hid, htenant⟩

theorem Keeps.of_same (hwallets : w'.db.wallets = w.db.wallets)
    (htransactions : w'.db.transactions = w.db.transactions) : Keeps tenantOf w w' := by
  refine Keeps.mk_of ?_ ?_ ?_
  · rw [hwallets]
    exact fun _ h => h
  · rw [hwallets]
    exact fun _ h => .inl h
  · rw [htransactions]
    exact fun id t ht => .inl ⟨t, ht, rfl, rfl⟩

/-- A call that rewrites one row of the ledger, apart from its tenant and its sender. -/
theorem Keeps.of_row (hwallets : w'.db.wallets = w.db.wallets) {id : String} {t t' : Transaction}
    (ht : w.db.transactions.get (.id id) = some t)
    (hrows : ∀ i, w'.db.transactions.get (.id i) = if i = id then some t'
      else w.db.transactions.get (.id i))
    (htenant : t'.tenantId = t.tenantId) (hfrom : t'.fromWalletId = t.fromWalletId) :
    Keeps tenantOf w w' := by
  refine Keeps.mk_of ?_ ?_ ?_
  · rw [hwallets]
    exact fun _ h => h
  · rw [hwallets]
    exact fun _ h => .inl h
  · intro i s hs
    rw [hrows] at hs
    by_cases hi : i = id
    · rw [if_pos hi, Option.some.injEq] at hs
      rw [← hs, hi]
      exact .inl ⟨t, ht, htenant, hfrom⟩
    · rw [if_neg hi] at hs
      exact .inl ⟨s, hs, rfl, rfl⟩

theorem keeps_stmt {s : Stmt} (h : Proper tenantOf w (.stmt s)) (i : Input) :
    Keeps tenantOf w ((Call.stmt s).effect i w).2 := by
  have hsame := s.exec_sameBut ⟨w.clock, i.uuid⟩ w.db
  cases s with
  | walletCreate data =>
    refine Keeps.mk_of ?_ ?_ ?_
    · exact fun wallet hmem => (w.db.createWallet_prefix _ data).subset hmem
    · intro wallet hmem
      rcases Db.mem_createWallet hmem with hmem | rfl
      · exact .inl hmem
      · exact .inr h
    · have htransactions : ((Call.stmt (.walletCreate data)).effect i w).2.db.transactions =
          w.db.transactions := hsame.transactions (by simp [Stmt.target])
      rw [htransactions]
      exact fun id t ht => .inl ⟨t, ht, rfl, rfl⟩
  | transactionCreate data =>
    have hspec := w.db.createTransaction_spec ⟨w.clock, i.uuid⟩ data
    simp only [Call.effect, Stmt.exec]
    generalize w.db.createTransaction ⟨w.clock, i.uuid⟩ data = r at hspec
    cases hspec with
    | refused e => exact .of_same rfl rfl
    | done free rows references =>
      refine Keeps.mk_of (fun _ hmem => hmem) (fun _ hmem => .inl hmem) ?_
      intro id t ht
      rw [rows] at ht
      split at ht
      · rw [← Option.some.inj ht]
        exact .inr h
      · exact .inl ⟨t, ht, rfl, rfl⟩
  | transactionUpdateMany id status data =>
    have hspec := w.db.updateTransactions_spec id status data
    simp only [Call.effect, Stmt.exec]
    generalize w.db.updateTransactions id status data = r at hspec
    cases hspec with
    | missed hs => exact .of_same rfl rfl
    | refused | outOfRange => exact .of_same rfl rfl
    | matched found hs free rows references => exact .of_row rfl found rows rfl rfl
  | _ => exact .of_same (hsame.wallets (by simp [Stmt.target])) (hsame.transactions (by simp [Stmt.target]))

/-- **A proper call keeps the tenancy.** -/
theorem keeps_exec {o : Call} (h : Proper tenantOf w o) (i : Input) :
    Keeps tenantOf w (exec o i w).2 := by
  refine exec_snd (P := Keeps tenantOf) (.refl w) ?_
  cases o with
  | stmt s => exact keeps_stmt h i
  | transaction body =>
    obtain ⟨tx, result, rfl⟩ := h
    have hspec := persistBody_spec tx result ⟨w.clock, i.uuid⟩ w.db
    simp only [Call.effect]
    generalize ConfirmationProcessor.persistBody tx result ⟨w.clock, i.uuid⟩ w.db = r at hspec
    cases hspec with
    | done hblock found hs rows hevents references =>
      exact .of_row rfl (Db.get_txHash.mp found).1 rows rfl rfl
    | noBlock | notFound | conflict | outOfRange | duplicate => exact .refl w
  | queueTake =>
    simp only [Call.effect]
    split
    · split <;> exact .of_same rfl rfl
    · exact .of_same rfl rfl
  | getTransaction | submitTransfer | generateWallet | balanceOf | nativeBalance =>
    simp only [Call.effect]
    split <;> exact .of_same rfl rfl
  | processingAdd =>
    simp only [Call.effect]
    split <;> exact .of_same rfl rfl
  | _ => exact .of_same rfl rfl

end Calls

/-! ## Tasks -/

section Tasks

variable {tenantOf : String → String} {w : World}

theorem proper_of_permitted {env : ProcessEnv} {A : List Right} {o : Call} (h : Permitted env A o)
    (hwallet : .wallet ∉ A) (hcreate : .write .create ∉ A) (w : World) : Proper tenantOf w o := by
  cases o with
  | stmt s =>
    cases s with
    | walletCreate data => exact absurd h.1 hwallet
    | transactionCreate data => exact absurd h.1 hcreate
    | _ => exact trivial
  | transaction body => exact h.2
  | _ => exact trivial

theorem safe_of_proper {α : Type} {p : Program α} (h : All (fun o => ∀ w, Proper tenantOf w o) p) (w : World) :
    Safe exec (Keeps tenantOf) (Keeps tenantOf) p w :=
  All.safe (P := fun o => ∀ w, Proper tenantOf w o) (fun _ ho i w => keeps_exec (ho w) i) h w

theorem proper_createWallet {env : ProcessEnv} (lib : AddressLibraries) {data : WalletRequest}
    (h : data.tenantId = tenantOf data.ownerId) (address : String) :
    All (fun o => ∀ w, Proper tenantOf w o) (WalletService.createWallet env lib data address) := by
  have hofExcept : ∀ {α : Type} (r : Except JsError α),
      All (fun o => ∀ w, Proper tenantOf w o) (Prog.ofExcept r : Program α) := by
    intro α r
    cases r <;> exact trivial
  refine All.bind (hofExcept _) ?_
  intro valid
  split
  · refine All.bind (All.bind (hofExcept _) ?_) ?_
    · intro insensitive
      split <;> exact all_perform fun _ => trivial
    · intro found
      split
      · exact trivial
      · exact All.bind (hofExcept _) fun normalized => all_perform fun _ => h
  · exact trivial

theorem proper_createCustodialWallet {env : ProcessEnv} (registry : BlockchainAdapterRegistry)
    {data : WalletRequest} (h : data.tenantId = tenantOf data.ownerId) :
    All (fun o => ∀ w, Proper tenantOf w o)
      (CustodialWalletService.createCustodialWallet env registry data) := by
  have hofExcept : ∀ {α : Type} (r : Except JsError α),
      All (fun o => ∀ w, Proper tenantOf w o) (Prog.ofExcept r : Program α) := by
    intro α r
    cases r <;> exact trivial
  refine All.bind (hofExcept _) ?_
  intro blockchain
  split
  · exact trivial
  refine All.bind (hofExcept _) ?_
  intro adapter
  split
  · exact All.perform_bind (fun _ => trivial) fun address =>
      All.bind (hofExcept _) fun normalized => all_perform fun _ => h
  · exact trivial

/-- The wallet that a request sends from is there, under the tenant of the request. -/
def Sends (request : TransferRequest) (fromWallet : Wallet) (w : World) : Prop :=
  fromWallet ∈ w.db.wallets.rows ∧ fromWallet.tenantId = request.tenantId

theorem stable_sends (request : TransferRequest) (fromWallet : Wallet) :
    Stable (Keeps tenantOf) (Keeps tenantOf) (Sends request fromWallet) :=
  ⟨fun _ _ h hw => ⟨h.wallets _ hw.1, hw.2⟩, fun _ _ h hw => ⟨h.wallets _ hw.1, hw.2⟩⟩

theorem yields_prepare (registry : BlockchainAdapterRegistry) (request : TransferRequest) (w : World) :
    Yields exec (Keeps tenantOf) (Keeps tenantOf) (TransferService.prepare registry request)
      (fun a w' => Sends request a.2.1 w') w := by
  have hreads : ∀ {α : Type} {p : Program α}, (∀ env, All (Permitted env []) p) → ∀ w,
      Safe exec (Keeps tenantOf) (Keeps tenantOf) p w := by
    intro α p h w
    refine safe_of_proper ((h fun _ => none).mono ?_) w
    intro o ho w
    exact proper_of_permitted ho (by simp) (by simp) w
  refine Yields.bind (F := fun _ _ => True) ?_ ?_
  · refine (hreads ?_ w).yields stable_true trivial
    intro env
    refine All.perform_bind trivial ?_
    intro found
    cases found <;> exact trivial
  intro token w₁ _
  refine Yields.bind (F := fun found w' => ∀ fromWallet, found = some fromWallet →
    fromWallet ∈ w'.db.wallets.rows) ?_ ?_
  · refine wp_perform.mpr ?_
    intro w₂ _ i
    refine ⟨keeps_exec (o := .stmt (.walletFindUnique request.fromWalletId)) trivial i, ?_⟩
    intro found hfound fromWallet hsome
    have heffect := exec_ok hfound
    rw [heffect] at hfound ⊢
    have hget : w₂.db.wallets.get (.id request.fromWalletId) = some fromWallet := by
      rw [← hsome]
      exact Except.ok.inj hfound
    exact (w₂.db.wallets.get_eq_some_iff.mp hget).1
  intro found w₂ hfound
  cases found with
  | none => exact fun a ha => by cases ha
  | some fromWallet =>
    dsimp only
    split
    · exact fun a ha => by cases ha
    · next hown =>
      simp only [ne_eq, Bool.or_eq_true, decide_eq_true_eq, not_or, not_not] at hown
      have hsends : Sends request fromWallet w₂ := ⟨hfound fromWallet rfl, hown.1⟩
      refine Yields.bind (F := fun _ w' => Sends request fromWallet w') ?_ ?_
      · refine (hreads ?_ w₂).yields (stable_sends request fromWallet) hsends
        intro env
        exact all_perform (o := Call.stmt (.walletFindUnique request.toWalletId)) trivial
      intro found w₃ hsends₃
      cases found with
      | none => exact fun a ha => by cases ha
      | some toWallet =>
        dsimp only
        refine Yields.bind (F := fun _ w' => Sends request fromWallet w') ?_ ?_
        · exact (hreads (fun _ => permitted_ofExcept _) w₃).yields (stable_sends request fromWallet) hsends₃
        intro adapter w₄ hsends₄
        refine Yields.bind (F := fun _ w' => Sends request fromWallet w') ?_ ?_
        · refine (hreads ?_ w₄).yields (stable_sends request fromWallet) hsends₄
          intro env
          refine All.perform_bind trivial ?_
          intro wallet
          cases wallet <;> exact trivial
        intro custody w₅ hsends₅
        split
        · intro a ha
          cases ha
          exact hsends₅
        · exact fun a ha => by cases ha

theorem safe_transfer (registry : BlockchainAdapterRegistry) (backoffDelayMs : Nat) (request : TransferRequest)
    (w : World) :
    Safe exec (Keeps tenantOf) (Keeps tenantOf) (TransferService.transfer registry backoffDelayMs request) w := by
  refine Safe.bind_wp (yields_prepare registry request w) ?_
  intro a w₁ hsends
  obtain ⟨token, fromWallet, toWallet⟩ := a
  have hrest : ∀ {α : Type} {p : Program α}, (∀ env, All (Permitted env [.write .submit, .write .fail, .queue]) p) →
      ∀ w, Safe exec (Keeps tenantOf) (Keeps tenantOf) p w := by
    intro α p h w
    refine safe_of_proper ((h fun _ => none).mono ?_) w
    intro o ho w
    exact proper_of_permitted ho (by simp) (by simp) w
  refine Safe.bind (F := fun _ => True) stable_true ?_ trivial ?_
  · refine Safe.bind (F := fun _ => True) stable_true ?_ trivial ?_
    · refine safe_perform ?_
      intro w₂ hpath i
      obtain ⟨hmem, htenant⟩ := (stable_sends request fromWallet).star hpath hsends
      exact keeps_exec (o := .stmt (.transactionCreate _)) ⟨fromWallet, hmem, rfl, htenant⟩ i
    · intro transaction w₂ _
      refine hrest ?_ w₂
      intro env
      refine All.bind (permitted_incrementMetric _ _ _ (by simp)) ?_
      intro _
      exact trivial
  · intro transaction w₂ _
    refine hrest ?_ w₂
    intro env
    refine All.tryCatch (permitted_submit (by simp) (by simp) _ _ _ _ _ _) ?_
    intro error
    split
    · exact trivial
    · exact permitted_markFailed (by simp) _ _

/-- Wallets are registered by users, under their own tenants. -/
def Belongs (tenantOf : String → String) : SystemEvent → Prop
  | .spawn (.createWallet data _) => data.tenantId = tenantOf data.ownerId
  | .spawn (.createCustodialWallet data) => data.tenantId = tenantOf data.ownerId
  | _ => True

variable (tenantOf) in
/-- **Every task keeps the tenancy.** -/
theorem respects_tenancy (D : Deployment) :
    Respects D.system (Keeps tenantOf) (Keeps tenantOf) (Tenancy tenantOf) (Belongs tenantOf) where
  refl := .refl
  sub _ _ h := h
  keeps _ _ hw h := h.tenancy hw
  shift d _ w _ := by cases d <;> exact .of_same rfl rfl
  task t ht w _ := by
    have hrights : .wallet ∉ t.rights → .write .create ∉ t.rights →
        Safe exec (Keeps tenantOf) (Keeps tenantOf) (D.prog t) w := by
      intro hwallet hcreate
      refine safe_of_proper ((permitted_prog D t).mono ?_) w
      intro o ho w
      exact proper_of_permitted ho hwallet hcreate w
    cases t with
    | transfer request =>
      exact Safe.bind (F := fun _ => True) stable_true (safe_transfer _ _ _ w) trivial fun _ _ _ => trivial
    | createWallet data address =>
      refine safe_of_proper (All.bind (proper_createWallet _ ht _) ?_) w
      intro _
      exact trivial
    | createCustodialWallet data =>
      refine safe_of_proper (All.bind (proper_createCustodialWallet _ ht) ?_) w
      intro _
      exact trivial
    | _ => exact hrights (by simp [Task.rights]) (by simp [Task.rights])

end Tasks

/-- The state is reached by a deployment that started without ledger rows, and whose wallets are registered
by users under their own tenants. -/
def Reachable (tenantOf : String → String) (w : World) : Prop :=
  ∃ (D : Deployment) (w₀ : World) (es : List SystemEvent), w₀.Initial ∧
    (∀ wallet ∈ w₀.db.wallets.rows, wallet.tenantId = tenantOf wallet.ownerId) ∧
    (∀ e ∈ es, Belongs tenantOf e) ∧ w = (w₀.start.after D.system es).world

/-- **The tenancy holds in every reachable state.** -/
theorem Reachable.tenancy {tenantOf : String → String} {w : World} (h : Reachable tenantOf w) :
    Tenancy tenantOf w := by
  obtain ⟨D, w₀, es, hinitial, howner, hes, rfl⟩ := h
  refine (Healthy.after (respects_tenancy tenantOf D) (Healthy.init ⟨howner, ?_⟩) hes).2.inv
  intro id t ht
  have hmem := (w₀.db.transactions.get_eq_some_iff.mp ht).1
  rw [hinitial.transactions] at hmem
  cases hmem

end TransactionSimulator
