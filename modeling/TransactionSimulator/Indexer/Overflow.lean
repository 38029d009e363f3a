import TransactionSimulator.Balances.Snapshot
import TransactionSimulator.Indexer.Completeness
import TransactionSimulator.Indexer.Cursor

/-!
# Values that do not fit into a column

An amount or a balance on the chain has 256 bits, a `BigInt` column has 64.  A log whose numbers do
not fit cannot be stored; the listener gives the window up and starts with it again in its next run.

* `Storable`: the values of a log fit.  `Stored`: its row and the snapshots of its wallets are there.
* `under_handleTransferEvent`: one log is stored exactly if it is storable.
* `storable_iff`: what follows for a run after the other.
-/

namespace TransactionSimulator

open Concurrent Prog Relational

/-- Nothing fails: calls are answered, balances are what the chain says, and ids are new. -/
structure Answers (bal : String → String → Nat → Nat) (o : Call) (i : Input) (w : World) : Prop where
  fault : i.fault = none
  balance : ∀ asset address n, o = .balanceOf asset address n → i.reply = .balance (bal asset address n)
  transfers : ∀ r ∈ w.db.tokenTransfers.rows, r.id ≠ i.uuid
  snapshots : ∀ b ∈ w.db.balanceSnapshots.rows, b.id ≠ i.uuid

/-- The balance of the wallet at the address, if there is one, and the block fit into their columns. -/
def Fits (bal : String → String → Nat → Nat) (w : World) (contract address : String) (n : Nat) : Prop :=
  ∀ wallet, w.walletOf address = some wallet → snapshotFits (bal contract wallet.address n) n = true

/-- The amount, the index of the log and the block fit into the columns of its row. -/
def RowFits (log : TransferLog) (n : Nat) : Prop :=
  (fitsBigInt log.value && fitsInt log.logIndex && fitsBigInt n) = true

/-- The index of the log can be looked up, and its row is there or fits. -/
def Recordable (w : World) (log : TransferLog) (n : Nat) : Prop :=
  fitsInt log.logIndex = true ∧ (w.index.Recorded log ∨ RowFits log n)

/-- The values that handling the log writes fit into their columns. -/
structure Storable (bal : String → String → Nat → Nat) (w : World) (log : TransferLog) (n : Nat) :
    Prop where
  row : Recordable w log n
  balances : ∀ token contract, w.tokenOf log.address = some token →
    token.contractAddress = some contract → ∀ address ∈ [log.fromAddress, log.toAddress],
    Fits bal w contract address n

/-- The log has its row, and its wallets have snapshots at its block or a later one. -/
structure Stored (token : Token) (log : TransferLog) (n : Nat) (w : World) : Prop where
  row : w.index.Recorded log
  snapshots : ∀ address ∈ [log.fromAddress, log.toAddress], ∀ wallet, w.walletOf address = some wallet →
    Reached n (w.observation wallet.id token.id)

/-! ## What handling a log leaves alone -/

/-- A row for the log may be added, snapshots are moved forward only, and the rest stays. -/
structure Kept (log : TransferLog) (n : Nat) (w w' : World) : Prop where
  chain : w'.chain = w.chain
  tokens : w'.db.tokens = w.db.tokens
  wallets : w'.db.wallets = w.db.wallets
  cursors : w'.db.tokenEventCursors = w.db.tokenEventCursors
  listeners : w'.listeners = w.listeners
  transfers : ∀ r ∈ w.db.tokenTransfers.rows, r ∈ w'.db.tokenTransfers.rows
  added : ∀ r ∈ w'.db.tokenTransfers.rows, r ∈ w.db.tokenTransfers.rows ∨
    r.transactionHash = log.transactionHash ∧ r.logIndex = log.logIndex ∧ RowFits log n
  snapshots : ∀ walletId tokenId m, Reached m (w.observation walletId tokenId) →
    Reached m (w'.observation walletId tokenId)

section Retains

variable {log : TransferLog} {n : Nat}

theorem Kept.refl (w : World) : Kept log n w w :=
  ⟨rfl, rfl, rfl, rfl, rfl, fun _ h => h, fun _ h => .inl h, fun _ _ _ h => h⟩

theorem Kept.trans {w w' w'' : World} (h : Kept log n w w') (h' : Kept log n w' w'') : Kept log n w w'' where
  chain := h'.chain.trans h.chain
  tokens := h'.tokens.trans h.tokens
  wallets := h'.wallets.trans h.wallets
  cursors := h'.cursors.trans h.cursors
  listeners := h'.listeners.trans h.listeners
  transfers r hr := h'.transfers r (h.transfers r hr)
  added r hr := (h'.added r hr).elim (h.added r) .inr
  snapshots walletId tokenId n hn := h'.snapshots walletId tokenId n (h.snapshots walletId tokenId n hn)

variable (log n) in
/-- The call leaves the rest alone. -/
def Retains (o : Call) : Prop := ∀ i w, Kept log n w (exec o i w).2

/-- A statement on neither of the two tables: it only reads. -/
theorem retains_read {s : Stmt} (h : s.target = none) : Retains log n (.stmt s) := by
  intro i w
  refine exec_snd (P := Kept log n) (.refl w) ?_
  have hsame := s.exec_sameBut ⟨w.clock, i.uuid⟩ w.db
  rw [h] at hsame
  have htransfers := hsame.tokenTransfers (by simp)
  refine ⟨rfl, hsame.tokens, hsame.wallets (by simp), hsame.tokenEventCursors (by simp), rfl, ?_, ?_, ?_⟩
  · intro r hr
    rw [Call.effect, htransfers]
    exact hr
  · intro r hr
    rw [Call.effect, htransfers] at hr
    exact .inl hr
  · intro walletId tokenId n hn
    rw [World.observation, Db.snapshot, Call.effect, hsame.balanceSnapshots (by simp)]
    exact hn

theorem retains_upsertTransfer (tokenId : String) (n : Nat) :
    Retains log n (.stmt (.tokenTransferUpsert (transferOf tokenId log n))) := by
  intro i w
  refine exec_snd (P := Kept log n) (.refl w) ?_
  have hu := w.db.upsertTokenTransfer_spec ⟨w.clock, i.uuid⟩ (transferOf tokenId log n)
  simp only [Call.effect, Stmt.exec]
  generalize w.db.upsertTokenTransfer ⟨w.clock, i.uuid⟩ (transferOf tokenId log n) = result at hu
  cases hu with
  | found row => exact .refl w
  | done row fits =>
    refine ⟨rfl, rfl, rfl, rfl, rfl, ?_, ?_, fun _ _ _ h => h⟩
    · intro r hr
      show r ∈ Table.rows _
      rw [Table.insert_rows row]
      exact List.mem_append_left _ hr
    · intro r hr
      change r ∈ Table.rows _ at hr
      rw [Table.insert_rows row, List.mem_append, List.mem_singleton] at hr
      rcases hr with hr | rfl
      · exact .inl hr
      · exact .inr ⟨rfl, rfl, fits⟩
  | refused e => exact .refl w

/-- A snapshot that takes the place of an older one or of none. -/
theorem kept_of_get {w : World} {walletId tokenId : String} {b : BalanceSnapshot}
    {table : Table BalanceSnapshot BalanceSnapshotKey BalanceSnapshot.keys}
    (hget : ∀ x t, table.get (.walletId_tokenId x t) =
      if x = walletId ∧ t = tokenId then some b else w.db.snapshot x t)
    (hlater : ∀ b', w.db.snapshot walletId tokenId = some b' → b'.blockNumber ≤ b.blockNumber) :
    Kept log n w { w with db := { w.db with balanceSnapshots := table } } := by
  refine ⟨rfl, rfl, rfl, rfl, rfl, fun _ h => h, fun _ h => .inl h, ?_⟩
  intro x t n hn
  rw [World.observation, Db.snapshot, hget]
  by_cases hpair : x = walletId ∧ t = tokenId
  · rw [if_pos hpair]
    obtain ⟨o, ho, hle⟩ := hn
    obtain ⟨b', hb', rfl⟩ := Option.map_eq_some_iff.mp ho
    rw [hpair.1, hpair.2] at hb'
    have hblock := hlater b' hb'
    exact ⟨b.observation, rfl, hle.trans hblock⟩
  · rw [if_neg hpair]
    exact hn

theorem retains_updateSnapshot (walletId tokenId : String) (balance blockNumber : Nat) :
    Retains log n (.stmt (.balanceSnapshotUpdateMany walletId tokenId balance blockNumber)) := by
  intro i w
  refine exec_snd (P := Kept log n) (.refl w) ?_
  have hu := w.db.updateBalanceSnapshots_spec walletId tokenId balance blockNumber
  simp only [Call.effect, Stmt.exec]
  generalize w.db.updateBalanceSnapshots walletId tokenId balance blockNumber = result at hu
  cases hu with
  | @moved b _ row older get =>
    refine kept_of_get get ?_
    intro b' hb'
    rw [row, Option.some.injEq] at hb'
    rw [← hb']
    exact older.le
  | unmoved current => exact .refl w
  | refused range => exact .refl w

theorem retains_createSnapshot (walletId tokenId : String) (balance blockNumber : Nat) :
    Retains log n (.stmt (.balanceSnapshotCreate walletId tokenId balance blockNumber)) := by
  intro i w
  refine exec_snd (P := Kept log n) (.refl w) ?_
  have hu := w.db.createBalanceSnapshot_spec ⟨w.clock, i.uuid⟩ walletId tokenId balance blockNumber
  simp only [Call.effect, Stmt.exec]
  generalize w.db.createBalanceSnapshot ⟨w.clock, i.uuid⟩ walletId tokenId balance blockNumber =
    result at hu
  cases hu with
  | done free get =>
    refine kept_of_get get ?_
    intro b' hb'
    rw [free] at hb'
    cases hb'
  | taken keys => exact .refl w
  | refused range => exact .refl w

theorem retains_emit (e : Emission) : Retains log n (.emit e) := by
  intro i w
  rw [exec_of_inProcess rfl]
  exact ⟨rfl, rfl, rfl, rfl, rfl, fun _ h => h, fun _ h => .inl h, fun _ _ _ h => h⟩

theorem retains_balanceOf (asset address : String) (n : Nat) :
    Retains log n (.balanceOf asset address n) := by
  intro i w
  refine exec_snd (P := Kept log n) (.refl w) ?_
  simp only [Call.effect]
  split <;> exact .refl w

theorem retains_upsert (walletId tokenId : String) (balance blockNumber : Nat) :
    All (Retains log n) (BalanceRepository.upsert walletId tokenId balance blockNumber) := by
  refine All.perform_bind (retains_updateSnapshot _ _ _ _) ?_
  intro updated
  split
  · exact all_perform (retains_read rfl)
  · refine All.tryCatch (all_perform (retains_createSnapshot _ _ _ _)) ?_
    intro e
    split
    · exact all_perform (retains_read rfl)
    · exact trivial

theorem retains_syncWalletBalance (env : ProcessEnv) (address tokenId contract : String) (n : Nat) :
    All (Retains log n) (TransferEventService.syncWalletBalance env address tokenId contract n) := by
  have hfind : ∀ chainId, All (Retains log n) (WalletRepository.findByAddress env chainId address) := by
    intro chainId
    refine All.bind ?_ ?_
    · cases isCaseInsensitiveWalletAddress env chainId address <;> exact trivial
    intro insensitive
    split <;> exact all_perform (retains_read rfl)
  refine All.bind ?_ ?_
  · cases getEvmChainId env <;> exact trivial
  intro chainId
  refine All.bind (hfind chainId) ?_
  intro found
  split
  · exact trivial
  · refine All.perform_bind (retains_balanceOf _ _ _) ?_
    intro balance
    exact All.bind (retains_upsert _ _ _ _) fun _ => trivial

theorem retains_record (token : Token) (n : Nat) :
    All (Retains log n) (TransferEventService.record token log n) := by
  refine All.perform_bind (retains_read rfl) ?_
  intro found
  split
  · exact all_perform (retains_emit _)
  · exact All.perform_bind (retains_upsertTransfer token.id n) fun _ => trivial

theorem retains_handleTransferEvent (env : ProcessEnv) (n : Nat) :
    All (Retains log n) (TransferEventService.handleTransferEvent env log n) := by
  refine All.perform_bind (retains_read rfl) ?_
  intro found
  split
  · exact trivial
  next token =>
    refine All.bind (retains_record token n) ?_
    intro _
    refine All.bind ?_ ?_
    · cases TransferEventService.requireContractAddress token.contractAddress <;> exact trivial
    intro contract
    exact All.bind (retains_syncWalletBalance _ _ _ _ _) fun _ => retains_syncWalletBalance _ _ _ _ _

theorem Under.kept {α : Type} {A : Call → Input → World → Prop} {p : Program α} {w : World}
    {Q : Except JsError α → World → Prop} (h : Under exec A p Q w) (hp : All (Retains log n) p) :
    Under exec A p (fun r w' => Q r w' ∧ Kept log n w w') w :=
  h.and (hp.under (I := Kept log n w) (fun _ ho i _ hw => hw.trans (ho i _)) (.refl w))

end Retains

/-! ## One log -/

/-- The program returns and leaves `F` if `C` holds, and throws otherwise. -/
def Decided {α : Type} (C : Prop) (F : World → Prop) (r : Except JsError α) (w : World) : Prop :=
  (C → (∃ a, r = .ok a) ∧ F w) ∧ (¬ C → ∃ e, r = .error e)

/-- Two programs of which the second runs only after the first has returned. -/
theorem Decided.bind {α β : Type} {A : Call → Input → World → Prop} {C D : Prop} {F H : World → Prop}
    {p : Program α} {q : α → Program β} {w : World} (hp : Under exec A p (Decided C F) w)
    (hq : ∀ a w', F w' → Under exec A (q a) (Decided D H) w') :
    Under exec A (p.bind q) (Decided (C ∧ D) H) w := by
  rw [under_bind]
  refine hp.mono ?_
  intro r w' h
  by_cases hC : C
  · obtain ⟨⟨a, rfl⟩, hF⟩ := h.1 hC
    refine (hq a w' hF).mono ?_
    intro r' w'' h'
    exact ⟨fun hCD => h'.1 hCD.2, fun hCD => h'.2 fun hD => hCD ⟨hC, hD⟩⟩
  · obtain ⟨e, rfl⟩ := h.2 hC
    exact ⟨fun hCD => absurd hCD.1 hC, fun _ => ⟨e, rfl⟩⟩

section Log

variable {bal : String → String → Nat → Nat} {w : World} {log : TransferLog}

/-- The snapshot of a wallet is written exactly if the balance fits. -/
theorem under_upsert (walletId tokenId : String) (balance n : Nat) :
    Under exec (Answers bal) (BalanceRepository.upsert walletId tokenId balance n)
      (Decided (snapshotFits balance n = true) fun w' => Reached n (w'.observation walletId tokenId)) w := by
  have hread : ∀ w₁ : World, Reached n (w₁.observation walletId tokenId) → Under exec (Answers bal)
      (prisma.stmt (.balanceSnapshotFindUniqueOrThrow walletId tokenId))
      (fun r w' => (∃ a, r = .ok a) ∧ Reached n (w'.observation walletId tokenId)) w₁ := by
    intro w₁ hreached
    refine under_perform.mpr ?_
    intro i hi
    rw [exec_of_fault_none hi.fault]
    obtain ⟨o, ho, hle⟩ := hreached
    obtain ⟨b, hb, rfl⟩ := Option.map_eq_some_iff.mp ho
    refine ⟨⟨b, ?_⟩, b.observation, ho, hle⟩
    show orThrow (w₁.db.snapshot walletId tokenId) = .ok b
    rw [hb]
    rfl
  unfold BalanceRepository.upsert
  refine under_bind.mpr (under_perform.mpr ?_)
  intro i hi
  rw [exec_of_fault_none hi.fault]
  by_cases hfits : snapshotFits balance n = true
  swap
  · have hrefused : (Call.stmt (.balanceSnapshotUpdateMany walletId tokenId balance n)).effect i w =
        (.error valueOutOfRange, w) := by
      simp [Call.effect, Stmt.exec, Db.updateBalanceSnapshots, hfits]
    rw [hrefused]
    exact ⟨fun h => absurd h hfits, fun _ => ⟨_, rfl⟩⟩
  have hdecided : ∀ {p : Program BalanceSnapshot} {w₁ : World}, Under exec (Answers bal) p
      (fun r w' => (∃ a, r = .ok a) ∧ Reached n (w'.observation walletId tokenId)) w₁ →
      Under exec (Answers bal) p (Decided (snapshotFits balance n = true)
        fun w' => Reached n (w'.observation walletId tokenId)) w₁ :=
    fun h => h.mono fun r w' h => ⟨fun _ => h, fun hnot => absurd hfits hnot⟩
  have hu := w.db.updateBalanceSnapshots_spec walletId tokenId balance n
  simp only [Call.effect, Stmt.exec]
  generalize w.db.updateBalanceSnapshots walletId tokenId balance n = result at hu
  cases hu with
  | @moved b table row older get =>
    refine hdecided (hread _ ⟨⟨balance, n⟩, ?_, le_rfl⟩)
    rw [World.observation, Db.snapshot, get, if_pos ⟨rfl, rfl⟩]
    rfl
  | refused range =>
    rw [hfits] at range
    cases range
  | unmoved current =>
    refine hdecided (under_tryCatch.mpr (under_perform.mpr ?_))
    intro j hj
    rw [exec_of_fault_none hj.fault]
    have hc := w.db.createBalanceSnapshot_spec ⟨w.clock, j.uuid⟩ walletId tokenId balance n
    simp only [Call.effect, Stmt.exec]
    generalize w.db.createBalanceSnapshot ⟨w.clock, j.uuid⟩ walletId tokenId balance n = result at hc
    cases hc with
    | done free get =>
      refine ⟨⟨_, rfl⟩, ⟨balance, n⟩, ?_, le_rfl⟩
      rw [World.observation, Db.snapshot, get, if_pos ⟨rfl, rfl⟩]
      rfl
    | refused range =>
      rw [hfits] at range
      cases range
    | taken keys =>
      refine hread w ?_
      cases hrow : w.db.snapshot walletId tokenId with
      | none =>
        obtain ⟨b, hb, hid⟩ := keys hrow
        exact absurd hid (hj.snapshots b hb)
      | some b =>
        have hblock := current b hrow
        exact ⟨b.observation, by rw [World.observation, hrow]; rfl, hblock⟩

theorem under_findByAddress {env : ProcessEnv} {chainId : Nat} (hchain : getEvmChainId env = .ok chainId)
    (address : String) :
    Under exec (Answers bal) (WalletRepository.findByAddress env chainId (Js.toLowerCase address))
      (fun r w' => r = .ok (w.walletOf address) ∧ w' = w) w := by
  rw [findByAddress_evm hchain]
  refine under_perform.mpr ?_
  intro i hi
  rw [exec_of_fault_none hi.fault]
  exact ⟨rfl, rfl⟩

variable (bal) in
/-- The balance of a party is written exactly if it fits; a party without a wallet is passed over. -/
theorem under_syncWalletBalance {env : ProcessEnv} {chainId : Nat}
    (hchain : getEvmChainId env = .ok chainId) (address tokenId contract : String) (n : Nat) :
    Under exec (Answers bal)
      (TransferEventService.syncWalletBalance env (Js.toLowerCase address) tokenId contract n)
      (Decided (Fits bal w contract address n) fun w' => ∀ wallet, w.walletOf address = some wallet →
        Reached n (w'.observation wallet.id tokenId)) w := by
  unfold TransferEventService.syncWalletBalance
  rw [hchain]
  refine under_bind.mpr (under_ofExcept.mpr (under_bind.mpr ((under_findByAddress hchain address).mono ?_)))
  intro r w₁ h
  obtain ⟨rfl, rfl⟩ := h
  unfold Fits
  cases hwallet : w₁.walletOf address with
  | none => exact ⟨fun _ => ⟨⟨(), rfl⟩, fun _ h => by cases h⟩, fun h => absurd (fun _ h => by cases h) h⟩
  | some wallet =>
    refine under_bind.mpr (under_perform.mpr ?_)
    intro i hi
    have hanswer : (Call.balanceOf contract wallet.address n).effect i w₁ =
        (.ok (bal contract wallet.address n), w₁) := by
      simp only [Call.effect, hi.balance _ _ _ rfl]
    rw [exec_of_fault_none hi.fault, hanswer]
    refine under_bind.mpr ((under_upsert wallet.id tokenId (bal contract wallet.address n) n).mono ?_)
    intro r w₂ h
    by_cases hfits : snapshotFits (bal contract wallet.address n) n = true
    · obtain ⟨⟨a, rfl⟩, hreached⟩ := h.1 hfits
      refine ⟨fun _ => ⟨⟨(), rfl⟩, ?_⟩, fun hnot => absurd ?_ hnot⟩
      · intro wallet' hsame
        cases hsame
        exact hreached
      · intro wallet' hsame
        cases hsame
        exact hfits
    · obtain ⟨e, rfl⟩ := h.2 hfits
      exact ⟨fun h => absurd (h wallet rfl) hfits, fun _ => ⟨e, rfl⟩⟩

theorem upsertTokenTransfer_of_insert {db : Db} {env : StmtEnv} {data : TokenTransferCreateInput}
    {table : Table TokenTransfer TokenTransferKey TokenTransfer.keys}
    (hfits : data.fits = true)
    (hrow : db.tokenTransfers.get (.transactionHash_logIndex data.transactionHash data.logIndex) = none)
    (hinsert : db.tokenTransfers.insert (newTransfer env data) = some table) :
    db.upsertTokenTransfer env data =
      (.ok (newTransfer env data), { db with tokenTransfers := table }) := by
  rw [Db.upsertTokenTransfer, if_neg (by simp [hfits]), hrow]
  simp only [newTransfer] at hinsert
  simp only [hinsert]
  rfl

/-- The row of a log is written exactly if it fits; a log that has a row is passed over. -/
theorem under_record (token : Token) (n : Nat) :
    Under exec (Answers bal) (TransferEventService.record token log n)
      (Decided (Recordable w log n) fun w' => w'.index.Recorded log) w := by
  unfold TransferEventService.record
  refine under_bind.mpr (under_perform.mpr ?_)
  intro i hi
  rw [exec_of_fault_none hi.fault]
  by_cases hindexFits : fitsInt log.logIndex = true
  swap
  · -- the index cannot even be looked up
    have hrefused : (Call.stmt (.tokenTransferFindUnique log.transactionHash log.logIndex)).effect i w =
        (.error valueOutOfRange, w) := by
      simp [Call.effect, Stmt.exec, hindexFits]
    rw [hrefused]
    exact ⟨fun h => absurd h.1 hindexFits, fun _ => ⟨_, rfl⟩⟩
  have hfound : (Call.stmt (.tokenTransferFindUnique log.transactionHash log.logIndex)).effect i w =
      (.ok (w.db.tokenTransfers.get (.transactionHash_logIndex log.transactionHash log.logIndex)), w) := by
    simp [Call.effect, Stmt.exec, hindexFits]
  rw [hfound]
  cases hrow : w.db.tokenTransfers.get (.transactionHash_logIndex log.transactionHash log.logIndex) with
  | some r =>
    have hrecorded : w.index.Recorded log := by
      obtain ⟨hmem, hkey⟩ := (w.db.tokenTransfers.get_eq_some_iff).mp hrow
      rw [TokenTransfer.event_mem_keys] at hkey
      exact ⟨r, hmem, hkey.1.symm, hkey.2.symm⟩
    refine under_perform.mpr ?_
    intro j _
    rw [exec_of_inProcess rfl]
    exact ⟨fun _ => ⟨⟨(), rfl⟩, hrecorded⟩, fun hnot => absurd ⟨hindexFits, .inl hrecorded⟩ hnot⟩
  | none =>
    have hnot : ¬ w.index.Recorded log := by
      intro h
      obtain ⟨r, hmem, hhash, hindex⟩ := h
      refine (Table.get_eq_none_iff _).mp hrow r hmem ?_
      rw [TokenTransfer.event_mem_keys]
      exact ⟨hhash.symm, hindex.symm⟩
    change Under exec (Answers bal)
      ((perform (Call.stmt (.tokenTransferUpsert (transferOf token.id log n)))).bind fun _ => .pure ()) _ w
    refine under_bind.mpr (under_perform.mpr ?_)
    intro j hj
    rw [exec_of_fault_none hj.fault]
    by_cases hfits : (transferOf token.id log n).fits = true
    · obtain ⟨table, hinsert⟩ := w.db.tokenTransfers.insert_isSome
        (r := newTransfer ⟨w.clock, j.uuid⟩ (transferOf token.id log n)) (by
          intro k hk
          simp only [TokenTransfer.keys, List.mem_cons, List.not_mem_nil, or_false] at hk
          rcases hk with rfl | rfl
          · rw [Table.get_eq_none_iff]
            intro r hr hid
            refine hj.transfers r hr ?_
            simpa [TokenTransfer.keys, newTransfer, eq_comm] using hid
          · exact hrow)
      have hdone : (Call.stmt (.tokenTransferUpsert (transferOf token.id log n))).effect j w =
          (.ok (newTransfer ⟨w.clock, j.uuid⟩ (transferOf token.id log n)),
            { w with db := { w.db with tokenTransfers := table } }) := by
        have hnew : w.db.upsertTokenTransfer ⟨w.clock, j.uuid⟩ (transferOf token.id log n) =
            (.ok (newTransfer ⟨w.clock, j.uuid⟩ (transferOf token.id log n)),
              { w.db with tokenTransfers := table }) :=
          upsertTokenTransfer_of_insert hfits hrow hinsert
        simp only [Call.effect, Stmt.exec, hnew]
      rw [hdone]
      refine ⟨fun _ => ⟨⟨(), rfl⟩, ?_⟩, fun h => absurd ⟨hindexFits, .inr hfits⟩ h⟩
      show ∃ r ∈ table.rows, r.transactionHash = log.transactionHash ∧ r.logIndex = log.logIndex
      rw [Table.insert_rows hinsert]
      exact ⟨_, List.mem_append_right _ (List.mem_singleton_self _), rfl, rfl⟩
    · have hrefused : (Call.stmt (.tokenTransferUpsert (transferOf token.id log n))).effect j w =
          (.error valueOutOfRange, w) := by
        simp [Call.effect, Stmt.exec, Db.upsertTokenTransfer, hfits]
      rw [hrefused]
      exact ⟨fun h => (h.2.elim hnot hfits).elim, fun _ => ⟨_, rfl⟩⟩

theorem Kept.tokenOf {w' : World} (h : Kept log n w w') (address : String) :
    w'.tokenOf address = w.tokenOf address := by
  rw [World.tokenOf, h.tokens, World.tokenOf]

theorem Kept.walletOf {w' : World} (h : Kept log n w w') (address : String) :
    w'.walletOf address = w.walletOf address := by
  rw [World.walletOf, h.wallets, World.walletOf]

theorem Kept.fits {w' : World} (h : Kept log n w w') (contract address : String) (n : Nat) :
    Fits bal w' contract address n ↔ Fits bal w contract address n := by
  rw [Fits, h.walletOf, Fits]

theorem Kept.recorded {w' : World} (h : Kept log n w w') {l : TransferLog} (hl : w.index.Recorded l) :
    w'.index.Recorded l := by
  obtain ⟨r, hr, hkey⟩ := hl
  exact ⟨r, h.transfers r hr, hkey⟩

/-- **One log is stored exactly if it is storable**, and otherwise handling it fails. -/
theorem under_handleTransferEvent {env : ProcessEnv} {chainId : Nat}
    (hchain : getEvmChainId env = .ok chainId) {token : Token} {contract : String}
    (htoken : w.tokenOf log.address = some token) (hcontract : token.contractAddress = some contract)
    (hne : contract ≠ "") (n : Nat) :
    Under exec (Answers bal) (TransferEventService.handleTransferEvent env log n)
      (fun r w' => Decided (Storable bal w log n) (Stored token log n) r w' ∧ Kept log n w w') w := by
  refine Under.kept ?_ (retains_handleTransferEvent env n)
  unfold TransferEventService.handleTransferEvent
  refine under_bind.mpr (under_perform.mpr ?_)
  intro i hi
  rw [exec_of_fault_none hi.fault]
  have hfound : (Call.stmt (.tokenFindFirst fun t => t.contractAddress.any fun a =>
      Js.toLowerCase a = Js.toLowerCase log.address)).effect i w = (.ok (some token), w) := by
    simp only [Call.effect, Stmt.exec]
    rw [← htoken]
    rfl
  rw [hfound]
  have hrequire : TransferEventService.requireContractAddress token.contractAddress = .ok contract := by
    rw [hcontract]
    simp [TransferEventService.requireContractAddress, Js.isFalsy, hne]
  have hsync : ∀ w₁ address, Kept log n w w₁ → Under exec (Answers bal)
      (TransferEventService.syncWalletBalance env (Js.toLowerCase address) token.id contract n)
      (Decided (Fits bal w contract address n) fun w' => Kept log n w₁ w' ∧ ∀ wallet,
        w.walletOf address = some wallet → Reached n (w'.observation wallet.id token.id)) w₁ := by
    intro w₁ address hkept
    have h := under_syncWalletBalance bal (w := w₁) hchain address token.id contract n
    rw [hkept.fits, hkept.walletOf] at h
    have hretains : All (Retains log n) (TransferEventService.syncWalletBalance env
        (Js.toLowerCase address) token.id contract n) := retains_syncWalletBalance _ _ _ _ _
    refine (Under.kept h hretains).mono ?_
    intro r w₂ h
    exact ⟨fun hfits => ⟨(h.1.1 hfits).1, h.2, (h.1.1 hfits).2⟩, h.1.2⟩
  have hrecord : Under exec (Answers bal) (TransferEventService.record token log n)
      (Decided (Recordable w log n)
        fun w' => Kept log n w w' ∧ w'.index.Recorded log) w := by
    refine (Under.kept (under_record token n) (retains_record token n)).mono ?_
    intro r w₁ h
    exact ⟨fun hamount => ⟨(h.1.1 hamount).1, h.2, (h.1.1 hamount).2⟩, h.1.2⟩
  have hall : Under exec (Answers bal) ((TransferEventService.record token log n).bind fun _ =>
      (Prog.ofExcept (TransferEventService.requireContractAddress token.contractAddress)).bind fun contract =>
      (TransferEventService.syncWalletBalance env (Js.toLowerCase log.fromAddress) token.id contract
        n).bind fun _ =>
      TransferEventService.syncWalletBalance env (Js.toLowerCase log.toAddress) token.id contract n)
      (Decided (Recordable w log n ∧
        Fits bal w contract log.fromAddress n ∧ Fits bal w contract log.toAddress n)
        (Stored token log n)) w := by
    refine Decided.bind hrecord ?_
    intro _ w₁ h₁
    rw [hrequire]
    refine under_bind.mpr (under_ofExcept.mpr (Decided.bind (hsync w₁ log.fromAddress h₁.1) ?_))
    intro _ w₂ h₂
    refine (hsync w₂ log.toAddress (h₁.1.trans h₂.1)).mono ?_
    intro r w₃ h₃
    refine ⟨fun hto => ⟨(h₃.1 hto).1, ?_⟩, h₃.2⟩
    obtain ⟨hkept, hreached⟩ := (h₃.1 hto).2
    have hall := h₁.1.trans (h₂.1.trans hkept)
    refine ⟨(h₂.1.trans hkept).recorded h₁.2, ?_⟩
    intro address haddress wallet hwallet
    rw [hall.walletOf] at hwallet
    simp only [List.mem_cons, List.not_mem_nil, or_false] at haddress
    rcases haddress with rfl | rfl
    · exact hkept.snapshots _ _ _ (h₂.2 wallet hwallet)
    · exact hreached wallet hwallet
  have hstorable : Storable bal w log n ↔ Recordable w log n ∧
      Fits bal w contract log.fromAddress n ∧ Fits bal w contract log.toAddress n := by
    constructor
    · intro h
      exact ⟨h.row, h.balances token contract htoken hcontract _ (by simp),
        h.balances token contract htoken hcontract _ (by simp)⟩
    · intro h
      refine ⟨h.1, ?_⟩
      intro token' contract' htoken' hcontract' address haddress
      rw [htoken, Option.some.injEq] at htoken'
      rw [← htoken', hcontract, Option.some.injEq] at hcontract'
      simp only [List.mem_cons, List.not_mem_nil, or_false] at haddress
      subst hcontract'
      rcases haddress with rfl | rfl
      · exact h.2.1
      · exact h.2.2
  rw [hstorable]
  exact hall

end Log

/-! ## A window -/

/-- Every row was written for a log of the chain whose amount fits. -/
def World.RowsFit (w : World) : Prop :=
  ∀ r ∈ w.db.tokenTransfers.rows, ∃ l n, w.chain.Mined l n ∧ r.transactionHash = l.transactionHash ∧
    r.logIndex = l.logIndex ∧ RowFits l n

/-- The worlds in which the runs of one listener leave a world that has not been indexed. -/
structure Follows (w₀ w : World) : Prop where
  chain : w.chain = w₀.chain
  tokens : w.db.tokens = w₀.db.tokens
  wallets : w.db.wallets = w₀.db.wallets
  rows : w.RowsFit

theorem Follows.kept {w₀ w w' : World} (h : Follows w₀ w) {log : TransferLog} {n : Nat}
    (hmined : w₀.chain.Mined log n) (hkept : Kept log n w w') : Follows w₀ w' where
  chain := hkept.chain.trans h.chain
  tokens := hkept.tokens.trans h.tokens
  wallets := hkept.wallets.trans h.wallets
  rows := by
    intro r hr
    rw [hkept.chain]
    rcases hkept.added r hr with hr | ⟨hhash, hindex, hfits⟩
    · exact h.rows r hr
    · exact ⟨log, n, by rwa [h.chain], hhash, hindex, hfits⟩

/-- A world that has no rows yet, on a chain whose logs have different names and whose height fits into its
column. -/
structure Unindexed (w : World) : Prop where
  rows : w.db.tokenTransfers.rows = []
  unique : w.chain.UniqueLogs
  low : w.chain.head < 2 ^ 63

/-- Whether a log is storable does not change. -/
theorem storable_of_follows {bal : String → String → Nat → Nat} {w₀ w : World} (h₀ : Unindexed w₀)
    (h : Follows w₀ w) {log : TransferLog} {n : Nat} (hmined : w₀.chain.Mined log n) :
    Storable bal w log n ↔ Storable bal w₀ log n := by
  have hnone : ¬ w₀.index.Recorded log := by
    intro hr
    obtain ⟨r, hr, -⟩ := hr
    change r ∈ w₀.db.tokenTransfers.rows at hr
    rw [h₀.rows] at hr
    cases hr
  have hamount : w.index.Recorded log → RowFits log n := by
    intro hr
    obtain ⟨r, hr, hhash, hindex⟩ := hr
    obtain ⟨l, m, hl, hhash', hindex', hfits⟩ := h.rows r hr
    rw [h.chain] at hl
    obtain ⟨rfl, rfl⟩ := h₀.unique log n l m hmined hl (hhash.symm.trans hhash')
      (hindex.symm.trans hindex')
    exact hfits
  have htoken : ∀ address, w.tokenOf address = w₀.tokenOf address := by
    intro address
    rw [World.tokenOf, h.tokens, World.tokenOf]
  have hfits : ∀ contract address, Fits bal w contract address n ↔ Fits bal w₀ contract address n := by
    intro contract address
    rw [Fits, World.walletOf, h.wallets, Fits, World.walletOf]
  constructor
  · intro hs
    refine ⟨⟨hs.row.1, .inr (hs.row.2.elim hamount id)⟩, ?_⟩
    intro token contract ht hc address ha
    rw [← hfits]
    exact hs.balances token contract (by rwa [htoken]) hc address ha
  · intro hs
    refine ⟨⟨hs.row.1, .inr (hs.row.2.elim (fun hr => absurd hr hnone) id)⟩, ?_⟩
    intro token contract ht hc address ha
    rw [hfits]
    exact hs.balances token contract (by rwa [← htoken]) hc address ha

/-- The token is registered with a contract. -/
structure Registered (w : World) (token : Token) (contract : String) : Prop where
  row : w.db.tokens.get (.id token.id) = some token
  evm : token.blockchain = .EVM
  address : token.contractAddress = some contract
  nonempty : contract ≠ ""

theorem toLowerCase_eq_empty {s : String} : Js.toLowerCase s = "" ↔ s = "" := by
  rw [Js.toLowerCase, ← String.toList_inj, String.toList_ofList, ← String.toList_inj]
  simp

/-- The listener finds a token for each log of its own. -/
theorem Registered.tokenOf {w : World} {token : Token} {contract : String}
    (h : Registered w token contract) {log : TransferLog}
    (hlog : Chain.emittedBy token.contractAddress log = true) :
    ∃ t c, w.tokenOf log.address = some t ∧ t.contractAddress = some c ∧ c ≠ "" := by
  rw [h.address] at hlog
  have hlower : Js.toLowerCase log.address = Js.toLowerCase contract := by
    simpa [Chain.emittedBy] using hlog
  have hmem := ((w.db.tokens.get_eq_some_iff).mp h.row).1
  have hsome : (w.tokenOf log.address).isSome := by
    rw [World.tokenOf, List.find?_isSome]
    exact ⟨token, hmem, by simp [h.address, hlower]⟩
  obtain ⟨t, ht⟩ := Option.isSome_iff_exists.mp hsome
  have hfound := List.find?_some ht
  rw [Option.any_eq_true] at hfound
  obtain ⟨c, hc, heq⟩ := hfound
  refine ⟨t, c, ht, hc, ?_⟩
  intro hempty
  rw [hempty, decide_eq_true_eq, hlower] at heq
  exact h.nonempty (toLowerCase_eq_empty.mp heq.symm)

/-- The parts of the world that handling logs leaves alone. -/
structure Steady (w w' : World) : Prop where
  cursors : w'.db.tokenEventCursors = w.db.tokenEventCursors
  listeners : w'.listeners = w.listeners

section Window

variable {bal : String → String → Nat → Nat} {env : ProcessEnv} {chainId : Nat} {token : Token}
  {contract : String} {w₀ w : World}

variable (bal) in
/-- The block has a log of the token that is not storable. -/
def Blocked (w₀ : World) (token : Token) (n : Nat) : Prop :=
  ∃ l, w₀.chain.Mined l n ∧ Chain.emittedBy token.contractAddress l = true ∧ ¬ Storable bal w₀ l n

/-- The logs of a window are handled to the end exactly if all are storable. -/
theorem under_logs (hchain : getEvmChainId env = .ok chainId) (h₀ : Unindexed w₀)
    (htoken : Registered w₀ token contract) (logs : List (TransferLog × Nat))
    (hlogs : ∀ l ∈ logs, w₀.chain.Mined l.1 l.2 ∧ Chain.emittedBy token.contractAddress l.1 = true)
    (hw : Follows w₀ w) :
    Under exec (Answers bal)
      (Prog.forEach (fun log => TransferEventService.handleTransferEvent env log.1 log.2) logs)
      (fun r w' => Decided (∀ l ∈ logs, Storable bal w₀ l.1 l.2) (fun _ => True) r w' ∧
        Follows w₀ w' ∧ Steady w w') w := by
  induction logs generalizing w with
  | nil => exact ⟨⟨fun _ => ⟨⟨(), rfl⟩, trivial⟩, fun h => absurd (by simp) h⟩, hw, rfl, rfl⟩
  | cons l logs ih =>
    obtain ⟨⟨hmined, hemitted⟩, hrest⟩ := List.forall_mem_cons.mp hlogs
    obtain ⟨t, c, ht, hc, hne⟩ := htoken.tokenOf hemitted
    have ht' : w.tokenOf l.1.address = some t := by
      rw [World.tokenOf, hw.tokens]
      exact ht
    refine under_bind.mpr ((under_handleTransferEvent hchain ht' hc hne l.2).mono ?_)
    intro r w₁ h
    obtain ⟨hdecided, hkept⟩ := h
    rw [storable_of_follows h₀ hw hmined] at hdecided
    have hw₁ := hw.kept hmined hkept
    by_cases hstorable : Storable bal w₀ l.1 l.2
    · obtain ⟨⟨a, rfl⟩, -⟩ := hdecided.1 hstorable
      refine (ih hrest hw₁).mono ?_
      intro r w₂ h
      obtain ⟨hdecided, hw₂, hsteady⟩ := h
      refine ⟨⟨fun hall => hdecided.1 (List.forall_mem_cons.mp hall).2, ?_⟩, hw₂,
        hsteady.cursors.trans hkept.cursors, hsteady.listeners.trans hkept.listeners⟩
      intro hnot
      exact hdecided.2 fun hall => hnot (List.forall_mem_cons.mpr ⟨hstorable, hall⟩)
    · obtain ⟨e, rfl⟩ := hdecided.2 hstorable
      exact ⟨⟨fun hall => absurd (List.forall_mem_cons.mp hall).1 hstorable, fun _ => ⟨e, rfl⟩⟩, hw₁,
        hkept.cursors, hkept.listeners⟩

theorem Follows.setCursors {table : Table TokenEventCursor String fun c => [c.tokenId]}
    (h : Follows w₀ w) : Follows w₀ { w with db := { w.db with tokenEventCursors := table } } :=
  ⟨h.chain, h.tokens, h.wallets, h.rows⟩

theorem Follows.setListener (h : Follows w₀ w) (listener : String) (memory : ListenerMemory) :
    Follows w₀ (w.setListener listener memory) :=
  ⟨h.chain, h.tokens, h.wallets, h.rows⟩

theorem follows_updateCursor (h : Follows w₀ w) (tokenId : String) (data : TokenEventCursorUpdateInput)
    (i : Input) : Follows w₀ (exec (.stmt (.tokenEventCursorUpdate tokenId data)) i w).2 ∧
      (exec (.stmt (.tokenEventCursorUpdate tokenId data)) i w).2.listeners = w.listeners := by
  refine exec_snd (P := fun w w' => Follows w₀ w' ∧ w'.listeners = w.listeners) ⟨h, rfl⟩ ?_
  have hu := w.db.updateTokenEventCursor_spec tokenId data
  simp only [Call.effect, Stmt.exec]
  generalize w.db.updateTokenEventCursor tokenId data = result at hu
  cases hu with
  | done row get => exact ⟨h.setCursors, trivial⟩
  | refused e => exact ⟨h, trivial⟩

/-- A window moves the cursor to its end exactly if all its logs are storable. -/
theorem under_window (hchain : getEvmChainId env = .ok chainId) (h₀ : Unindexed w₀)
    (htoken : Registered w₀ token contract) (hw : Follows w₀ w) {c : Nat}
    (hc : w.cursorOf token.id = some c) (pos last : Int) (hlow : last < 2 ^ 63) :
    Under exec (Answers bal)
      (EventListener.onWindow env token (w.chain.getLogs token.contractAddress pos last) pos last)
      (fun r w' => Follows w₀ w' ∧ w'.listeners = w.listeners ∧
        ((∀ n : Nat, pos ≤ n → (n : Int) ≤ last → ¬ Blocked bal w₀ token n) →
          r = .ok () ∧ w'.cursorOf token.id = some last.toNat) ∧
        ((∃ n : Nat, pos ≤ n ∧ (n : Int) ≤ last ∧ Blocked bal w₀ token n) →
          (∃ e, r = .error e) ∧ w'.cursorOf token.id = some c)) w := by
  have hlogs : ∀ l, l ∈ w.chain.getLogs token.contractAddress pos last ↔
      (pos ≤ l.2 ∧ (l.2 : Int) ≤ last) ∧ w₀.chain.Mined l.1 l.2 ∧
        Chain.emittedBy token.contractAddress l.1 = true := by
    intro l
    rw [Chain.mem_getLogs, hw.chain]
    constructor
    · intro h
      obtain ⟨n, -, hpos, hn, hl⟩ := h
      obtain ⟨hmined, hemitted, rfl⟩ := Chain.mem_logsOf.mp hl
      exact ⟨⟨hpos, hn⟩, hmined, hemitted⟩
    · intro h
      obtain ⟨⟨hpos, hn⟩, hmined, hemitted⟩ := h
      have hlt : l.2 < w₀.chain.length := by
        obtain ⟨b, hb, -⟩ := hmined
        exact (List.getElem?_eq_some_iff.mp hb).1
      exact ⟨l.2, hlt, hpos, hn,
        Chain.mem_logsOf.mpr ⟨hmined, hemitted, rfl⟩⟩
  have hgood : (∀ l ∈ w.chain.getLogs token.contractAddress pos last, Storable bal w₀ l.1 l.2) ↔
      ¬ ∃ n : Nat, pos ≤ n ∧ (n : Int) ≤ last ∧ Blocked bal w₀ token n := by
    constructor
    · intro hall hbad
      obtain ⟨n, hpos, hn, l, hmined, hemitted, hnot⟩ := hbad
      exact hnot (hall (l, n) ((hlogs (l, n)).mpr ⟨⟨hpos, hn⟩, hmined, hemitted⟩))
    · intro hnone l hl
      obtain ⟨⟨hpos, hn⟩, hmined, hemitted⟩ := (hlogs l).mp hl
      by_contra hnot
      exact hnone ⟨l.2, hpos, hn, l.1, hmined, hemitted, hnot⟩
  unfold EventListener.onWindow
  refine under_bind.mpr ((under_logs hchain h₀ htoken _ (fun l hl => ((hlogs l).mp hl).2) hw).mono ?_)
  intro r w₁ h
  obtain ⟨hdecided, hw₁, hsteady⟩ := h
  have hc₁ : w₁.cursorOf token.id = some c := by
    rw [World.cursorOf, World.index, hsteady.cursors]
    exact hc
  rw [hgood] at hdecided
  by_cases hbad : ∃ n : Nat, pos ≤ n ∧ (n : Int) ≤ last ∧ Blocked bal w₀ token n
  · obtain ⟨e, rfl⟩ := hdecided.2 (not_not.mpr hbad)
    refine ⟨hw₁, hsteady.listeners, ?_, fun _ => ⟨⟨e, rfl⟩, hc₁⟩⟩
    intro hnone
    obtain ⟨n, hpos, hn, hblocked⟩ := hbad
    exact absurd hblocked (hnone n hpos hn)
  · obtain ⟨⟨a, rfl⟩, -⟩ := hdecided.1 hbad
    have hmark : Under exec (Answers bal) (TokenEventCursorRepository.markSuccess token.id last.toNat)
        (fun _ w' => Follows w₀ w' ∧ w'.listeners = w₁.listeners) w₁ := by
      refine under_bind.mpr (under_perform.mpr ?_)
      intro i _
      rw [exec_of_inProcess rfl]
      refine under_perform.mpr ?_
      intro j _
      exact follows_updateCursor hw₁ _ _ j
    refine under_bind.mpr (((ends_markSuccess (fun _ _ _ h => h.fault) (by omega)
      (by rw [hc₁]; rfl)).and hmark).mono ?_)
    intro r w₂ h
    obtain ⟨⟨⟨a, rfl⟩, hmoved⟩, hw₂, hlisteners⟩ := h
    exact ⟨hw₂, hlisteners.trans hsteady.listeners, fun _ => ⟨rfl, hmoved⟩, fun h => absurd h hbad⟩

/-- What a scan from `pos` to `finish` does to a cursor at `c`. -/
structure Scanned {α : Type} (B : Nat → Prop) (pos finish size : Int) (remaining c : Nat)
    (r : Except JsError α) (c' : Nat) : Prop where
  clear : (∀ n : Nat, pos ≤ n → (n : Int) ≤ finish → ¬ B n) → (∃ a, r = .ok a) ∧
    c' = if 0 < remaining ∧ pos ≤ finish then (scanEnd pos finish size remaining).toNat else c
  stopped : ∀ n : Nat, B n → pos ≤ n → (n : Int) ≤ finish →
    c' < n ∨ c' = c ∧ ((∃ a, r = .ok a) → remaining = 0)
  bound : (c : Int) ≤ finish → (c' : Int) ≤ finish

theorem Scanned.congr {α β : Type} {B : Nat → Prop} {pos finish size : Int} {remaining c c' : Nat}
    {r : Except JsError α} {r' : Except JsError β} (h : Scanned B pos finish size remaining c r c')
    (hr : (∃ a, r = .ok a) ↔ ∃ b, r' = .ok b) : Scanned B pos finish size remaining c r' c' where
  clear hnone := by
    rw [← hr]
    exact h.clear hnone
  stopped n hB hn hfinish := by
    rw [← hr]
    exact h.stopped n hB hn hfinish
  bound := h.bound

/-- **A scan** moves the cursor to its end, or leaves it below the first block that is not storable. -/
theorem under_scan (hchain : getEvmChainId env = .ok chainId) (h₀ : Unindexed w₀)
    (htoken : Registered w₀ token contract) (listener : String) {finish size : Int} (hlow : finish < 2 ^ 63)
    (hsize : 1 ≤ size) (remaining : Nat) {pos : Int} (hpos : 0 ≤ pos) (windows : Nat) (lastProcessed : Option Int)
    (hw : Follows w₀ w) {c : Nat} (hc : w.cursorOf token.id = some c) :
    Under exec (Answers bal)
      (scanFrom (fun first last => perform (Call.getLogs token.contractAddress first last))
        (EventListener.onWindow env token)
        (fun newRange _ => perform (Call.learnMaxBlockRange listener newRange)) finish remaining pos
        size windows lastProcessed)
      (fun r w' => Follows w₀ w' ∧ w'.listeners = w.listeners ∧ ∃ c', w'.cursorOf token.id = some c' ∧
        Scanned (Blocked bal w₀ token) pos finish size remaining c r c') w := by
  induction remaining generalizing pos windows lastProcessed w c with
  | zero =>
    refine ⟨hw, rfl, c, hc, fun _ => ⟨⟨_, rfl⟩, ?_⟩, fun n _ _ _ => .inr ⟨rfl, fun _ => rfl⟩, id⟩
    rw [if_neg (by omega)]
  | succ remaining ih =>
    unfold scanFrom
    by_cases hle : pos ≤ finish
    swap
    · rw [if_neg hle]
      refine ⟨hw, rfl, c, hc, fun _ => ⟨⟨_, rfl⟩, ?_⟩, fun n _ _ _ => by omega, id⟩
      rw [if_neg (by omega)]
    rw [if_pos hle]
    refine under_bind.mpr ((under_fetchWindow listener token (fun _ _ _ h => h.fault) pos finish _
      size).mono ?_)
    intro r w₁ h
    obtain ⟨rfl, rfl⟩ := h
    have hend : pos ≤ windowEnd pos size finish ∧ windowEnd pos size finish ≤ finish := by
      unfold windowEnd
      split <;> omega
    have hsucc : scanEnd pos finish size (remaining + 1) = _ := scanEnd_succ hsize
    generalize windowEnd pos size finish = last at hend hsucc
    refine under_bind.mpr ((under_window hchain h₀ htoken hw hc pos last (by omega)).mono ?_)
    intro r w₂ h
    obtain ⟨hw₂, hlisteners, hclear, hblocked⟩ := h
    by_cases hbad : ∃ n : Nat, pos ≤ n ∧ (n : Int) ≤ last ∧ Blocked bal w₀ token n
    · obtain ⟨⟨e, rfl⟩, hc₂⟩ := hblocked hbad
      refine ⟨hw₂, hlisteners, c, hc₂, ?_, ?_, id⟩
      · intro hnone
        obtain ⟨n, hn, hlast, hB⟩ := hbad
        exact absurd hB (hnone n hn (by omega))
      · intro n _ _ _
        exact .inr ⟨rfl, fun h => by obtain ⟨a, h⟩ := h; cases h⟩
    · have hnone : ∀ n : Nat, pos ≤ n → (n : Int) ≤ last → ¬ Blocked bal w₀ token n :=
        fun n hn hlast hB => hbad ⟨n, hn, hlast, hB⟩
      obtain ⟨rfl, hc₂⟩ := hclear hnone
      refine (ih (by omega) _ _ hw₂ hc₂).mono ?_
      intro r w₃ h
      obtain ⟨hw₃, hlisteners', c', hc', hscanned⟩ := h
      refine ⟨hw₃, hlisteners'.trans hlisteners, c', hc', ?_, ?_, ?_⟩
      · intro hall
        obtain ⟨hok, hc'⟩ := hscanned.clear fun n hn hfinish => hall n (by omega) hfinish
        refine ⟨hok, ?_⟩
        have hhere : 0 < remaining + 1 ∧ pos ≤ finish := ⟨by omega, hle⟩
        rw [hc', if_pos hhere, hsucc]
        by_cases hmore : 0 < remaining ∧ last + 1 ≤ finish
        · rw [if_pos hmore, if_pos hmore]
        · rw [if_neg hmore, if_neg hmore]
      · intro n hB hn hfinish
        by_cases hlast : (n : Int) ≤ last
        · exact absurd hB (hnone n hn hlast)
        · rcases hscanned.stopped n hB (by omega) hfinish with hlt | ⟨heq, -⟩
          · exact .inl hlt
          · exact .inl (by omega)
      · intro _
        exact hscanned.bound (by omega)

end Window

/-! ## A run after the other -/

/-- The block at which a run with its cursor at `c` starts. -/
def EvmIndexerConfig.scanStart (config : EvmIndexerConfig) (c : Nat) : Int :=
  if c = 0 then config.startBlock else c - 1

section Runs

variable {bal : String → String → Nat → Nat} {env : ProcessEnv} {config : EvmIndexerConfig}
  {chainId : Nat} {listener : String} {token : Token} {contract : String} {w₀ w : World}

/-- The listener does not work on the token, and asks for windows of `size` blocks. -/
structure Idle (config : EvmIndexerConfig) (listener : String) (token : Token) (size : Int)
    (w : World) : Prop where
  idle : token.id ∉ (w.listeners listener).processingTokens
  size : (w.listeners listener).learnedMaxBlockRange.getD config.maxBlockRange = size

/-- What a run does to a cursor at `c`. -/
def Ran {α : Type} (B : Nat → Prop) (config : EvmIndexerConfig) (finish size : Int) (c : Nat)
    (r : Except JsError α) (c' : Nat) : Prop :=
  config.scanStart c ≤ finish →
    Scanned B (config.scanStart c) finish size config.maxWindowsPerRun c r c'

/-- The cursor is opened where it is, or created at the block 0. -/
theorem under_getOrCreate (hw : Follows w₀ w) (tokenId : String) :
    Under exec (Answers bal) (TokenEventCursorRepository.getOrCreate tokenId)
      (fun r w' => Follows w₀ w' ∧ w'.listeners = w.listeners ∧ ∃ cursor, r = .ok cursor ∧
        cursor.lastProcessedBlock = (w.cursorOf tokenId).getD 0 ∧
        w'.cursorOf tokenId = some cursor.lastProcessedBlock) w := by
  refine under_perform.mpr ?_
  intro i hi
  rw [exec_of_fault_none hi.fault]
  cases hget : w.db.tokenEventCursors.get tokenId with
  | some c =>
    have hcursor : w.cursorOf tokenId = some c.lastProcessedBlock := by
      rw [World.cursorOf, show w.index.cursor tokenId = some c from hget, Option.map_some]
    rw [effect_openCursor hget, hcursor]
    exact ⟨hw, rfl, c, rfl, rfl, rfl⟩
  | none =>
    have hcursor : w.cursorOf tokenId = none := by
      rw [World.cursorOf, show w.index.cursor tokenId = none from hget, Option.map_none]
    obtain ⟨table, hinsert⟩ := w.db.tokenEventCursors.insert_isSome
      (r := ⟨tokenId, 0, none, none, 0⟩) (by simpa using hget)
    have heffect : (Call.stmt (.tokenEventCursorUpsert tokenId)).effect i w =
        (.ok ⟨tokenId, 0, none, none, 0⟩, { w with db := { w.db with tokenEventCursors := table } }) := by
      simp only [Call.effect, Stmt.exec, Db.upsertTokenEventCursor, hget, hinsert]
    rw [heffect, hcursor]
    refine ⟨hw.setCursors, rfl, _, rfl, rfl, ?_⟩
    show (table.get tokenId).map TokenEventCursor.lastProcessedBlock = _
    rw [Table.get_insert hinsert, hget]
    simp

theorem under_indexing (hchain : getEvmChainId env = .ok chainId) (h₀ : Unindexed w₀)
    (htoken : Registered w₀ token contract) {size : Int} (hsize : 1 ≤ size) (hw : Follows w₀ w)
    (hidle : (w.listeners listener).learnedMaxBlockRange.getD config.maxBlockRange = size)
    {cursor : TokenEventCursor} (hc : w.cursorOf token.id = some cursor.lastProcessedBlock) :
    Under exec (Answers bal) (EventListener.indexFrom listener env config token cursor)
      (fun r w' => Follows w₀ w' ∧ w'.listeners = w.listeners ∧ ∃ c', w'.cursorOf token.id = some c' ∧
        Ran (Blocked bal w₀ token) config (config.indexable w₀.chain.head) size
          cursor.lastProcessedBlock r c') w := by
  have hstart : EventListener.fromBlock config cursor = config.scanStart cursor.lastProcessedBlock := rfl
  unfold EventListener.indexFrom
  refine under_bind.mpr (under_perform.mpr ?_)
  intro i hi
  rw [exec_of_fault_none hi.fault]
  show Under exec (Answers bal) (if ((w.chain.head : Int) - config.confirmations <
    EventListener.fromBlock config cursor) then _ else _) _ w
  rw [hstart, hw.chain]
  by_cases hbehind : (w₀.chain.head : Int) - config.confirmations <
      config.scanStart cursor.lastProcessedBlock
  · rw [if_pos hbehind]
    refine ⟨hw, rfl, _, hc, ?_⟩
    intro hle
    rw [EvmIndexerConfig.indexable] at hle
    omega
  · rw [if_neg hbehind]
    refine under_bind.mpr (under_perform.mpr ?_)
    intro j _
    rw [exec_of_inProcess rfl]
    show Under exec (Answers bal) (Prog.bind (scanLogWindows _ _ _ _ _
      ((w.listeners listener).learnedMaxBlockRange.getD config.maxBlockRange) _) _) _ w
    rw [hidle]
    have hpos : 0 ≤ config.scanStart cursor.lastProcessedBlock := by
      unfold EvmIndexerConfig.scanStart
      split <;> omega
    have hlow : (w₀.chain.head : Int) - config.confirmations < 2 ^ 63 := by
      have hhead := h₀.low
      omega
    refine under_bind.mpr ((under_scan hchain h₀ htoken listener hlow hsize _ hpos 0 none hw hc).mono ?_)
    intro r w₁ h
    obtain ⟨hw₁, hlisteners, c', hc', hscanned⟩ := h
    cases r with
    | error e => exact ⟨hw₁, hlisteners, c', hc', fun _ => hscanned.congr (by simp)⟩
    | ok a => exact ⟨hw₁, hlisteners, c', hc', fun _ => hscanned.congr (by simp)⟩

theorem under_processing (hconfig : loadEvmIndexerConfig env = .ok config)
    (hchain : getEvmChainId env = .ok chainId) (h₀ : Unindexed w₀) (htoken : Registered w₀ token contract)
    {size : Int} (hsize : 1 ≤ size) (hw : Follows w₀ w)
    (hlearned : (w.listeners listener).learnedMaxBlockRange.getD config.maxBlockRange = size) :
    Under exec (Answers bal) (EventListener.processToken listener env token.id)
      (fun r w' => Follows w₀ w' ∧ w'.listeners = w.listeners ∧ ∃ c', w'.cursorOf token.id = some c' ∧
        Ran (Blocked bal w₀ token) config (config.indexable w₀.chain.head) size
          ((w.cursorOf token.id).getD 0) r c') w := by
  unfold EventListener.processToken
  refine under_bind.mpr (under_perform.mpr ?_)
  intro i hi
  have hfound : (Call.stmt (.tokenFindUnique token.id)).effect i w = (.ok (some token), w) := by
    simp only [Call.effect, Stmt.exec, hw.tokens, htoken.row]
  rw [exec_of_fault_none hi.fault, hfound]
  dsimp only
  rw [if_neg (by simp [htoken.evm]), hconfig]
  refine under_bind.mpr (under_ofExcept.mpr (under_bind.mpr ((under_getOrCreate hw token.id).mono ?_)))
  intro r w₁ h
  obtain ⟨hw₁, hlisteners, cursor, rfl, hblock, hc⟩ := h
  rw [← hlisteners] at hlearned
  rw [← hblock]
  refine under_tryCatch.mpr ((under_indexing hchain h₀ htoken hsize hw₁ hlearned hc).mono ?_)
  intro r w₂ h
  obtain ⟨hw₂, hlisteners', c', hc', hran⟩ := h
  cases r with
  | ok _ => exact ⟨hw₂, hlisteners'.trans hlisteners, c', hc', hran⟩
  | error e =>
    have hmark : Under exec (Answers bal) (TokenEventCursorRepository.markFailure token.id)
        (fun _ w' => Follows w₀ w' ∧ w'.listeners = w₂.listeners) w₂ := by
      refine under_bind.mpr (under_perform.mpr ?_)
      intro i _
      rw [exec_of_inProcess rfl]
      refine under_perform.mpr ?_
      intro j _
      exact follows_updateCursor hw₂ _ _ j
    refine under_bind.mpr (under_tryCatch.mpr (under_bind.mpr
      (((under_markFailure token.id).and hmark).mono ?_)))
    intro r w₃ h
    obtain ⟨hkept, hw₃, hlisteners''⟩ := h
    have hend : Follows w₀ w₃ ∧ w₃.listeners = w.listeners ∧ ∃ c', w₃.cursorOf token.id = some c' ∧
        Ran (Blocked bal w₀ token) config (config.indexable w₀.chain.head) size
          cursor.lastProcessedBlock (Except.error e : Except JsError Unit) c' :=
      ⟨hw₃, hlisteners''.trans (hlisteners'.trans hlisteners), c', hkept.trans hc', hran⟩
    cases r <;> exact hend

/-- **One run.** -/
theorem under_run (hconfig : loadEvmIndexerConfig env = .ok config)
    (hchain : getEvmChainId env = .ok chainId) (h₀ : Unindexed w₀) (htoken : Registered w₀ token contract)
    {size : Int} (hsize : 1 ≤ size) (hw : Follows w₀ w) (hidle : Idle config listener token size w) :
    Under exec (Answers bal) (EventListener.processTokenEvents listener env token.id)
      (fun r w' => Follows w₀ w' ∧ Idle config listener token size w' ∧ ∃ c',
        w'.cursorOf token.id = some c' ∧ Ran (Blocked bal w₀ token) config
          (config.indexable w₀.chain.head) size ((w.cursorOf token.id).getD 0) r c') w := by
  unfold EventListener.processTokenEvents
  refine under_bind.mpr (under_perform.mpr ?_)
  intro i _
  rw [exec_of_inProcess rfl, effect_processingAdd hidle.idle]
  generalize hmemory : ({ w.listeners listener with
    processingTokens := token.id :: (w.listeners listener).processingTokens } : ListenerMemory) = memory
  have hown : (w.setListener listener memory).listeners listener = memory := by
    simp [World.setListener]
  have hlearned : ((w.setListener listener memory).listeners listener).learnedMaxBlockRange.getD
      config.maxBlockRange = size := by
    rw [hown, ← hmemory]
    exact hidle.size
  refine under_tryFinally.mpr ((under_processing hconfig hchain h₀ htoken hsize
    (hw.setListener listener memory) hlearned).mono ?_)
  intro r w₁ h
  obtain ⟨hw₁, hlisteners, c', hc', hran⟩ := h
  refine under_perform.mpr ?_
  intro j _
  rw [exec_of_inProcess rfl]
  refine ⟨hw₁.setListener _ _, ⟨?_, ?_⟩, c', hc', hran⟩
  · simp [Call.effect, World.setListener]
  · rw [← hlearned, ← hlisteners]
    simp [Call.effect, World.setListener]

/-- The loop of `event-listener.worker.ts`, for one token: an error of a run is logged. -/
def runs (listener : String) (env : ProcessEnv) (tokenId : String) (k : Nat) : Program Unit :=
  Prog.forEach (fun _ => Prog.tryCatch (EventListener.processTokenEvents listener env tokenId)
    fun _ => .pure ()) (List.replicate k ())

/-- Where the cursor is after some runs: at the head if they were enough, and below every block that
is not storable. -/
structure CaughtUp (B : Nat → Prop) (config : EvmIndexerConfig) (finish : Int) (k c : Nat) : Prop where
  bound : (c : Int) ≤ finish
  moved : (∀ n : Nat, config.startBlock ≤ n → (n : Int) ≤ finish → ¬ B n) →
    min finish k ≤ c ∧ (config.startBlock < c ∨ c = 0)
  stopped : ∀ n : Nat, B n → config.startBlock ≤ n → (n : Int) ≤ finish → c < n ∨ c = 0

section Progress

variable {B : Nat → Prop} {finish size : Int} {k c c' : Nat} {r : Except JsError Unit}

theorem CaughtUp.scanStart_le (h : CaughtUp B config finish k c) (hstart : config.startBlock < finish) :
    config.scanStart c ≤ finish := by
  have hbound := h.bound
  unfold EvmIndexerConfig.scanStart
  split <;> omega

/-- A run over storable blocks gets three blocks further, or to the head. -/
theorem CaughtUp.clear (hstart : config.startBlock < finish)
    (hwindows : 3 ≤ config.maxWindowsPerRun * size) (h : CaughtUp B config finish k c)
    (hran : Ran B config finish size c r c')
    (hnone : ∀ n : Nat, config.startBlock ≤ n → (n : Int) ≤ finish → ¬ B n) :
    (∃ a, r = .ok a) ∧ (c' : Int) = min (config.scanStart c + config.maxWindowsPerRun * size - 1) finish ∧
      config.startBlock ≤ config.scanStart c := by
  have hle := h.scanStart_le hstart
  have hfrom : config.startBlock ≤ config.scanStart c := by
    have hmoved := (h.moved hnone).2
    unfold EvmIndexerConfig.scanStart
    split <;> omega
  obtain ⟨hok, hc'⟩ := (hran hle).clear fun n hn hfinish => hnone n (by omega) hfinish
  have hpos : 0 < config.maxWindowsPerRun := by
    by_contra hzero
    have hnone : (config.maxWindowsPerRun : Int) = 0 := by omega
    rw [hnone] at hwindows
    omega
  rw [if_pos ⟨hpos, hle⟩, scanEnd] at hc'
  exact ⟨hok, by omega, hfrom⟩

/-- One more run. -/
theorem CaughtUp.ran (hstart : config.startBlock < finish)
    (hwindows : 3 ≤ config.maxWindowsPerRun * size) (h : CaughtUp B config finish k c)
    (hran : Ran B config finish size c r c') : CaughtUp B config finish (k + 1) c' := by
  have hscanned := hran (h.scanStart_le hstart)
  refine ⟨hscanned.bound h.bound, ?_, ?_⟩
  · intro hnone
    have hmoved := h.moved hnone
    obtain ⟨-, hc', hfrom⟩ := h.clear hstart hwindows hran hnone
    have hscan : (c : Int) - 1 ≤ config.scanStart c := by
      unfold EvmIndexerConfig.scanStart
      split <;> omega
    omega
  · intro n hB hn hfinish
    have hbelow := h.stopped n hB hn hfinish
    have hscan : config.scanStart c ≤ n := by
      unfold EvmIndexerConfig.scanStart
      split <;> omega
    rcases hscanned.stopped n hB hscan hfinish with hlt | ⟨heq, -⟩
    · exact .inl hlt
    · rw [heq]
      exact hbelow

/-- **The last of enough runs ends at the head exactly if every block is storable.** -/
theorem CaughtUp.last_iff (hstart : config.startBlock < finish)
    (hwindows : 3 ≤ config.maxWindowsPerRun * size) (h : CaughtUp B config finish k c)
    (hk : finish ≤ k) (hran : Ran B config finish size c r c') :
    ((∃ a, r = .ok a) ∧ (c' : Int) = finish) ↔
      ∀ n : Nat, config.startBlock ≤ n → (n : Int) ≤ finish → ¬ B n := by
  constructor
  · intro hend n hn hfinish hB
    have hnext := (h.ran hstart hwindows hran).stopped n hB hn hfinish
    omega
  · intro hnone
    have hmoved := h.moved hnone
    obtain ⟨hok, hc', -⟩ := h.clear hstart hwindows hran hnone
    refine ⟨hok, ?_⟩
    have hscan : (c : Int) - 1 ≤ config.scanStart c := by
      unfold EvmIndexerConfig.scanStart
      split <;> omega
    omega

end Progress

/-- The runs before the last one. -/
theorem under_runs (hconfig : loadEvmIndexerConfig env = .ok config)
    (hchain : getEvmChainId env = .ok chainId) (h₀ : Unindexed w₀) (htoken : Registered w₀ token contract)
    {size : Int} (hsize : 1 ≤ size) (hstart : config.startBlock < config.indexable w₀.chain.head)
    (hwindows : 3 ≤ config.maxWindowsPerRun * size) (k : Nat) {j : Nat} (hw : Follows w₀ w)
    (hidle : Idle config listener token size w)
    (hc : CaughtUp (Blocked bal w₀ token) config (config.indexable w₀.chain.head) j
      ((w.cursorOf token.id).getD 0)) :
    Under exec (Answers bal) (runs listener env token.id k)
      (fun r w' => r = .ok () ∧ Follows w₀ w' ∧ Idle config listener token size w' ∧
        CaughtUp (Blocked bal w₀ token) config (config.indexable w₀.chain.head) (j + k)
          ((w'.cursorOf token.id).getD 0)) w := by
  induction k generalizing j w with
  | zero => exact ⟨rfl, hw, hidle, hc⟩
  | succ k ih =>
    refine under_bind.mpr (under_tryCatch.mpr ((under_run hconfig hchain h₀ htoken hsize hw hidle).mono ?_))
    intro r w₁ h
    obtain ⟨hw₁, hidle₁, c', hc', hran⟩ := h
    have hnext := hc.ran hstart hwindows hran
    have hrest : Under exec (Answers bal) (runs listener env token.id k) _ w₁ :=
      ih (j := j + 1) hw₁ hidle₁ (by rw [hc']; exact hnext)
    rw [show j + 1 + k = j + (k + 1) from by omega] at hrest
    cases r <;> exact hrest

end Runs

/-- **When an event can be stored, and when it stops the indexing of its token.**  Nothing fails and
balances are read right.  One log is handled without an error, and its row and the snapshots of its
wallets are there afterwards, exactly if the values of its row (unless it has one already) and of the
snapshots fit into their columns.  Of enough runs of a listener the last ends without an error at the
indexable head exactly if that is so for all logs from the first block to index on. -/
theorem stored_iff (bal : String → String → Nat → Nat) (env : ProcessEnv) (config : EvmIndexerConfig)
    (hconfig : loadEvmIndexerConfig env = .ok config) (chainId : Nat)
    (hchain : getEvmChainId env = .ok chainId) :
    (∀ (w : World) (log : TransferLog) (n : Nat) (token : Token) (contract : String) (inp : Nat → Input),
      w.tokenOf log.address = some token → token.contractAddress = some contract → contract ≠ "" →
      (∀ m ∈ (TransferEventService.handleTransferEvent env log n).trace exec inp w,
        Answers bal m.op m.input m.state) →
      (((TransferEventService.handleTransferEvent env log n).run exec inp w).1 = .ok () ∧
          Stored token log n ((TransferEventService.handleTransferEvent env log n).run exec inp w).2 ↔
        Storable bal w log n)) ∧
    ∀ (w : World) (listener : String) (token : Token) (contract : String) (size : Int) (k : Nat)
      (inp : Nat → Input), Unindexed w → Registered w token contract → w.cursorOf token.id = none →
      Idle config listener token size w → 1 ≤ size → 3 ≤ config.maxWindowsPerRun * size →
      config.startBlock < config.indexable w.chain.head → config.indexable w.chain.head ≤ k →
      (∀ m ∈ ((runs listener env token.id k).bind fun _ =>
          EventListener.processTokenEvents listener env token.id).trace exec inp w,
        Answers bal m.op m.input m.state) →
      ((((runs listener env token.id k).bind fun _ =>
          EventListener.processTokenEvents listener env token.id).run exec inp w).1 = .ok () ∧
          (((runs listener env token.id k).bind fun _ =>
            EventListener.processTokenEvents listener env token.id).run exec inp w).2.cursorOf token.id =
            some (config.indexable w.chain.head).toNat ↔
        ∀ (n : Nat) (l : TransferLog), config.startBlock ≤ n → (n : Int) ≤ config.indexable w.chain.head →
          w.chain.Mined l n → Chain.emittedBy token.contractAddress l = true → Storable bal w l n) := by
  refine ⟨?_, ?_⟩
  · intro w log n token contract inp htoken hcontract hne hinp
    have hrun := (under_handleTransferEvent hchain htoken hcontract hne n).run inp hinp
    constructor
    · intro hok
      by_contra hnot
      obtain ⟨e, he⟩ := hrun.1.2 hnot
      rw [he] at hok
      cases hok.1
    · intro hstorable
      obtain ⟨⟨⟨⟩, hok⟩, hstored⟩ := hrun.1.1 hstorable
      exact ⟨hok, hstored⟩
  · intro w listener token contract size k inp h₀ htoken hnew hidle hsize hwindows hstart hk hinp
    have hfollows : Follows w w := ⟨rfl, rfl, rfl, by intro r hr; rw [h₀.rows] at hr; cases hr⟩
    have hbegin : CaughtUp (Blocked bal w token) config (config.indexable w.chain.head) 0
        ((w.cursorOf token.id).getD 0) := by
      rw [hnew]
      exact ⟨by simp; omega, fun _ => ⟨by simp, .inr rfl⟩, fun _ _ _ _ => .inr rfl⟩
    have hall : Under exec (Answers bal) ((runs listener env token.id k).bind fun _ =>
        EventListener.processTokenEvents listener env token.id)
        (fun r w' => (r = .ok () ∧
          w'.cursorOf token.id = some (config.indexable w.chain.head).toNat) ↔
          ∀ n : Nat, config.startBlock ≤ n → (n : Int) ≤ config.indexable w.chain.head →
            ¬ Blocked bal w token n) w := by
      refine under_bind.mpr ((under_runs hconfig hchain h₀ htoken hsize hstart hwindows k hfollows hidle
        hbegin).mono ?_)
      intro r w₁ h
      obtain ⟨rfl, hw₁, hidle₁, hcaught⟩ := h
      refine (under_run hconfig hchain h₀ htoken hsize hw₁ hidle₁).mono ?_
      intro r w₂ h
      obtain ⟨-, -, c', hc', hran⟩ := h
      rw [← hcaught.last_iff hstart hwindows (by omega) hran, hc', Option.some.injEq]
      have hbound := (hcaught.ran hstart hwindows hran).bound
      constructor
      · intro h
        exact ⟨⟨(), h.1⟩, by omega⟩
      · intro h
        obtain ⟨⟨⟨⟩, hok⟩, hc'⟩ := h
        exact ⟨hok, by omega⟩
    rw [hall.run inp hinp]
    constructor
    · intro hclear n l hn hfinish hmined hemitted
      by_contra hnot
      exact hclear n hn hfinish ⟨l, hmined, hemitted, hnot⟩
    · intro hstorable n hn hfinish hblocked
      obtain ⟨l, hmined, hemitted, hnot⟩ := hblocked
      exact hnot (hstorable n l hn hfinish hmined hemitted)

/-- The inputs of a run in which nothing fails: every id is new and every balance is 7. -/
def plainInputs (n : Nat) : Input :=
  { uuid := String.ofList (List.replicate n 'a'), reply := .balance 7 }

/-- A transfer of 9223372036854775808 units, which is less than ten whole units of a token with 18
decimals. -/
def TransferLog.large : TransferLog := { TransferLog.sample with value := 2 ^ 63 }

/-- The amount is one that a contract can transfer, nothing fails, and the event is not stored. -/
theorem large_not_stored : TransferLog.large.value < 2 ^ 256 ∧
    ((TransferEventService.handleTransferEvent (fun _ => none) .large 1).run exec plainInputs
      .sample).1 = .error valueOutOfRange ∧
    ((TransferEventService.handleTransferEvent (fun _ => none) .large 1).run exec plainInputs
      .sample).2.db.tokenTransfers.rows = [] := by
  decide +kernel

/-- Two runs on a chain with a transfer of 7 units: the cursor is at the head. -/
theorem stored_iff_withTransfer :
    (((runs "listener" (fun _ => none) "token" 1).bind fun _ =>
      EventListener.processTokenEvents "listener" (fun _ => none) "token").run exec plainInputs
      .withTransfer).1 = .ok () ∧
    (((runs "listener" (fun _ => none) "token" 1).bind fun _ =>
      EventListener.processTokenEvents "listener" (fun _ => none) "token").run exec plainInputs
      .withTransfer).2.cursorOf "token" = some 1 := by
  have hmined : ∀ l n, World.withTransfer.chain.Mined l n → l = .sample ∧ n = 1 := by
    intro l n h
    obtain ⟨b, hb, hl⟩ := h
    match n with
    | 0 =>
      cases hb
      cases hl
    | 1 =>
      cases hb
      exact ⟨List.mem_singleton.mp hl, rfl⟩
    | n + 2 => cases hb
  have hanswers : ∀ m ∈ ((runs "listener" (fun _ => none) "token" 1).bind fun _ =>
      EventListener.processTokenEvents "listener" (fun _ => none) "token").trace exec plainInputs
      .withTransfer, (∀ r ∈ m.state.db.tokenTransfers.rows, r.id ≠ m.input.uuid) ∧
        ∀ b ∈ m.state.db.balanceSnapshots.rows, b.id ≠ m.input.uuid := by
    decide +kernel
  refine ((stored_iff (fun _ _ _ => 7) (fun _ => none) ⟨0, 0, 2000, 25⟩ (by decide) 31337 (by decide)).2
    .withTransfer "listener" .sample "0x5fbdb2315678afecb367f032d93f642f64180aa3" 2000 1 plainInputs
    ⟨rfl, ?_, by decide⟩ ⟨rfl, rfl, rfl, by decide⟩ rfl ⟨by decide, rfl⟩ (by decide) (by decide) (by decide)
    (by decide) ?_).mpr ?_
  · intro l n l' n' hl hl' _ _
    obtain ⟨rfl, rfl⟩ := hmined l n hl
    obtain ⟨rfl, rfl⟩ := hmined l' n' hl'
    exact ⟨rfl, rfl⟩
  · intro m hm
    obtain ⟨k, hk⟩ := input_of_mem_trace hm
    obtain ⟨htransfers, hsnapshots⟩ := hanswers m hm
    exact ⟨by rw [hk]; rfl, fun _ _ _ _ => by rw [hk]; rfl, htransfers, hsnapshots⟩
  · intro n l _ _ hl _
    obtain ⟨rfl, rfl⟩ := hmined l n hl
    refine ⟨⟨by decide, .inr (by rw [RowFits]; decide)⟩, ?_⟩
    intro _ _ _ _ _ _ _ _
    show snapshotFits 7 1 = true
    decide

end TransactionSimulator
