import TransactionSimulator.Indexer.Model
import TransactionSimulator.Ledger.Statements
import TransactionSimulator.Rights

/-!
# The running system refines the index

`World.index` reads the index off the world.  Only event listeners write it; every other process
leaves it alone because it has no right to write it.  A listener is followed through its scan
(`safe_processTokenEvents`): it moves the cursor of its token only after it has recorded the logs
of a window that follows on what was covered before, while other listeners may write between its
calls.

* `respects_index`: every call of a run is a progress of the index.
* `indexSound_after`: the index is sound in every reachable state.
-/

namespace TransactionSimulator

open Concurrent Prog Relational

def World.index (w : World) : Index where
  chain := w.chain
  contract tokenId := (w.db.tokens.get (.id tokenId)).map Token.contractAddress
  transfers := w.db.tokenTransfers.rows
  cursor tokenId := w.db.tokenEventCursors.get tokenId
  learned listener := (w.listeners listener).learnedMaxBlockRange

/-- The worlds before and after a progress of the index. -/
def Indexing (start : Nat) (w w' : World) : Prop := Index.Progress start w.index w'.index

/-! ## What a listener looks up -/

/-- The token whose contract has the address. -/
def World.tokenOf (w : World) (address : String) : Option Token :=
  w.db.tokens.rows.find? fun t => t.contractAddress.any fun a =>
    Js.toLowerCase a = Js.toLowerCase address

/-- The wallet that is looked up for a party of a log. -/
def World.walletOf (w : World) (address : String) : Option Wallet :=
  w.db.wallets.rows.find? fun x => Js.toLowerCase x.address = Js.toLowerCase address

theorem findByAddress_evm {env : ProcessEnv} {chainId : Nat} (hchain : getEvmChainId env = .ok chainId)
    (address : String) : WalletRepository.findByAddress env chainId (Js.toLowerCase address) =
      prisma.stmt (.walletFindFirst fun x => Js.toLowerCase x.address = Js.toLowerCase address) := by
  have hinsensitive : isCaseInsensitiveWalletAddress env chainId (Js.toLowerCase address) = .ok true := by
    have hevm : isEvmChainId env chainId = .ok true := by
      rw [isEvmChainId, hchain]
      show Except.ok (decide (chainId = chainId)) = _
      simp
    rw [isCaseInsensitiveWalletAddress, hevm]
    rfl
  rw [WalletRepository.findByAddress, hinsensitive, Js.toLowerCase_toLowerCase]
  rfl

/-! ## Calls that leave the index alone -/

/-- The statements that write the index. -/
def Stmt.onIndex : Stmt → Bool
  | .tokenTransferUpsert _ | .tokenEventCursorUpsert _ | .tokenEventCursorUpdate _ _ => true
  | _ => false

theorem Stmt.exec_index {s : Stmt} (h : s.onIndex = false) (env : StmtEnv) (db : Db) :
    (s.exec env db).2.tokenTransfers = db.tokenTransfers ∧
      (s.exec env db).2.tokenEventCursors = db.tokenEventCursors ∧
      (s.exec env db).2.tokens = db.tokens := by
  have hsame := s.exec_sameBut env db
  refine ⟨hsame.tokenTransfers ?_, hsame.tokenEventCursors ?_, hsame.tokens⟩
  all_goals
    cases s with
    | tokenTransferUpsert | tokenEventCursorUpsert | tokenEventCursorUpdate => cases h
    | _ => simp [Stmt.target]

theorem index_stmt {s : Stmt} (h : s.onIndex = false) (i : Input) (w : World) :
    ((Call.stmt s).effect i w).2.index = w.index := by
  obtain ⟨ht, hc, hk⟩ := Stmt.exec_index h ⟨w.clock, i.uuid⟩ w.db
  simp only [Call.effect, World.index]
  rw [ht, hc, hk]

/-- **A call that needs no right to the index** leaves it as it is. -/
theorem index_of_permitted {env : ProcessEnv} {A : List Right} {o : Call} (h : Permitted env A o)
    (hA : .index ∉ A) (i : Input) (w : World) : (exec o i w).2.index = w.index := by
  refine exec_snd (P := fun w w' => w'.index = w.index) rfl ?_
  cases o with
  | stmt s =>
    by_cases hs : s.onIndex = false
    · exact index_stmt hs i w
    · cases s with
      | tokenTransferUpsert | tokenEventCursorUpsert | tokenEventCursorUpdate => exact absurd h hA
      | _ => exact absurd rfl hs
  | transaction body =>
    obtain ⟨_, tx, result, rfl⟩ := h
    have hp := persistBody_spec tx result ⟨w.clock, i.uuid⟩ w.db
    simp only [Call.effect]
    generalize ConfirmationProcessor.persistBody tx result ⟨w.clock, i.uuid⟩ w.db = r at hp
    cases hp <;> rfl
  | processingAdd | processingDelete | learnMaxBlockRange => exact absurd h hA
  | queueTake =>
    simp only [Call.effect]
    split
    · split <;> rfl
    · rfl
  | getTransaction | submitTransfer | generateWallet | balanceOf | nativeBalance =>
    simp only [Call.effect]
    split <;> rfl
  | _ => rfl

theorem indexing_of_permitted {start : Nat} {env : ProcessEnv} {A : List Right} {o : Call}
    (h : Permitted env A o) (hA : .index ∉ A) (i : Input) (w : World) :
    Indexing start w (exec o i w).2 := by
  rw [Indexing, index_of_permitted h hA]
  exact .refl _ _

theorem indexing_stmt {start : Nat} {s : Stmt} (h : s.onIndex = false) (i : Input) (w : World) :
    Indexing start w (exec (.stmt s) i w).2 := by
  refine exec_snd (P := Indexing start) (.refl _ _) ?_
  rw [Indexing, index_stmt h]
  exact .refl _ _

/-! ## Calls that write it -/

section Writes

variable {start : Nat} {w : World}

/-- The contract of the token emitted the log in the block `n`. -/
structure World.Emitted (w : World) (tokenId : String) (l : TransferLog) (n : Nat) : Prop where
  mined : w.chain.Mined l n
  emits : w.index.Emits tokenId l

/-- The row of a log. -/
def transferOf (tokenId : String) (l : TransferLog) (blockNumber : Nat) : TokenTransferCreateInput :=
  { tokenId, fromAddress := l.fromAddress, toAddress := l.toAddress, amount := l.value,
    transactionHash := l.transactionHash, logIndex := l.logIndex, blockNumber }

theorem index_insert {t : Table TokenTransfer TokenTransferKey TokenTransfer.keys}
    {r : TokenTransfer} (h : w.db.tokenTransfers.insert r = some t) :
    World.index { w with db := { w.db with tokenTransfers := t } } =
      { w.index with transfers := w.index.transfers ++ [r] } := by
  show Index.mk _ _ t.rows _ _ = _
  rw [Table.insert_rows h]
  rfl

/-- A cursor, in the table and in the index. -/
theorem index_putCursor {t : Table TokenEventCursor String fun c => [c.tokenId]}
    {c : TokenEventCursor} {tokenId : String}
    (h : ∀ id, t.get id = if id = tokenId then some c else w.db.tokenEventCursors.get id) :
    World.index { w with db := { w.db with tokenEventCursors := t } } =
      { w.index with cursor := Function.update w.index.cursor tokenId (some c) } := by
  have hcursor : (fun id => t.get id) = Function.update w.index.cursor tokenId (some c) := by
    funext id
    rw [h, Function.update_apply]
    rfl
  show Index.mk _ _ _ _ _ = _
  rw [hcursor]
  rfl

/-- The row that the upsert writes. -/
def newTransfer (env : StmtEnv) (data : TokenTransferCreateInput) : TokenTransfer where
  id := env.uuid
  tokenId := data.tokenId
  fromAddress := data.fromAddress
  toAddress := data.toAddress
  amount := data.amount
  transactionHash := data.transactionHash
  logIndex := data.logIndex
  blockNumber := data.blockNumber
  createdAt := env.now

/-- What the upsert of a row can come to. -/
inductive Upserted (db : Db) (env : StmtEnv) (data : TokenTransferCreateInput) :
    Except JsError TokenTransfer × Db → Prop
  | found {t : TokenTransfer}
      (row : db.tokenTransfers.get (.transactionHash_logIndex data.transactionHash data.logIndex) =
        some t) : Upserted db env data (.ok t, db)
  | done {table : Table TokenTransfer TokenTransferKey TokenTransfer.keys}
      (row : db.tokenTransfers.insert (newTransfer env data) = some table)
      (fits : data.fits = true) :
      Upserted db env data (.ok (newTransfer env data), { db with tokenTransfers := table })
  | refused (e : JsError) : Upserted db env data (.error e, db)

theorem Db.upsertTokenTransfer_spec (db : Db) (env : StmtEnv) (data : TokenTransferCreateInput) :
    Upserted db env data (db.upsertTokenTransfer env data) := by
  rw [Db.upsertTokenTransfer]
  split
  · exact .refused _
  next hfits =>
    split
    · next row => exact .found row
    · dsimp only
      split
      · next row => exact .done row (by simpa using hfits)
      · exact .refused _

/-- The upsert of a row for a log: the log has a row afterwards, unless it is refused. -/
theorem indexing_upsert (start : Nat) {tokenId : String} {l : TransferLog} {blockNumber : Nat}
    (hl : w.Emitted tokenId l blockNumber) (i : Input) :
    Indexing start w
      ((Call.stmt (.tokenTransferUpsert (transferOf tokenId l blockNumber))).effect i w).2 ∧
    ∀ r, ((Call.stmt (.tokenTransferUpsert (transferOf tokenId l blockNumber))).effect i w).1 = .ok r →
      ((Call.stmt (.tokenTransferUpsert (transferOf tokenId l blockNumber))).effect i
        w).2.index.Recorded l := by
  have hu := w.db.upsertTokenTransfer_spec ⟨w.clock, i.uuid⟩ (transferOf tokenId l blockNumber)
  simp only [Call.effect, Stmt.exec]
  generalize w.db.upsertTokenTransfer ⟨w.clock, i.uuid⟩ (transferOf tokenId l blockNumber) = r at hu
  cases hu with
  | found row =>
    refine ⟨.refl _ _, fun _ _ => ?_⟩
    obtain ⟨hmem, hkey⟩ := (w.db.tokenTransfers.get_eq_some_iff).mp row
    rw [TokenTransfer.event_mem_keys] at hkey
    exact ⟨_, hmem, hkey.1.symm, hkey.2.symm⟩
  | done row =>
    have hindex := index_insert row
    refine ⟨?_, fun _ _ => ?_⟩
    · rw [Indexing, hindex]
      exact .record ⟨l, blockNumber, hl.mined, hl.emits, rfl, rfl, rfl, rfl, rfl, rfl⟩
    · rw [hindex]
      exact ⟨_, List.mem_append_right _ (List.mem_singleton_self _), rfl, rfl⟩
  | refused e => exact ⟨.refl _ _, fun _ h => by cases h⟩

/-- The cursor that `getOrCreate` returns is there, and is fresh if it was not there before. -/
theorem indexing_openCursor (start : Nat) (tokenId : String) (i : Input) :
    Indexing start w ((Call.stmt (.tokenEventCursorUpsert tokenId)).effect i w).2 ∧
    ∀ c, ((Call.stmt (.tokenEventCursorUpsert tokenId)).effect i w).1 = .ok c →
      ((Call.stmt (.tokenEventCursorUpsert tokenId)).effect i w).2.index.cursor tokenId = some c := by
  simp only [Call.effect, Stmt.exec, Db.upsertTokenEventCursor]
  cases hc : w.db.tokenEventCursors.get tokenId with
  | some c =>
    refine ⟨.refl _ _, ?_⟩
    rintro c' h
    cases h
    exact hc
  | none =>
    dsimp only
    cases hi : w.db.tokenEventCursors.insert ⟨tokenId, 0, none, none, 0⟩ with
    | none => exact ⟨.refl _ _, fun _ h => by cases h⟩
    | some t =>
      have hget : ∀ id, t.get id = if id = tokenId then some ⟨tokenId, 0, none, none, 0⟩
          else w.db.tokenEventCursors.get id := by
        intro id
        rw [Table.get_insert hi]
        by_cases hid : id = tokenId
        · simp [hid, hc]
        · simp [hid]
      have hindex := index_putCursor hget
      refine ⟨?_, ?_⟩
      · rw [Indexing, hindex]
        exact .putCursor (.inr (.inl ⟨rfl, rfl⟩))
      · intro c h
        cases h
        rw [hindex]
        exact Function.update_self _ _ _

/-- What the update of a cursor can come to. -/
inductive CursorUpdated (db : Db) (tokenId : String) (data : TokenEventCursorUpdateInput) :
    Except JsError TokenEventCursor × Db → Prop
  | done {c : TokenEventCursor} {table : Table TokenEventCursor String fun c => [c.tokenId]}
      (row : db.tokenEventCursors.get tokenId = some c)
      (get : ∀ id, table.get id = if id = tokenId then some (data.apply c)
        else db.tokenEventCursors.get id) (fits : data.fits = true) :
      CursorUpdated db tokenId data (.ok (data.apply c), { db with tokenEventCursors := table })
  | refused (e : JsError) : CursorUpdated db tokenId data (.error e, db)

theorem Db.updateTokenEventCursor_spec (db : Db) (tokenId : String)
    (data : TokenEventCursorUpdateInput) :
    CursorUpdated db tokenId data (db.updateTokenEventCursor tokenId data) := by
  rw [Db.updateTokenEventCursor]
  split
  · exact .refused _
  next hfits =>
  cases hc : db.tokenEventCursors.get tokenId with
  | none => exact .refused _
  | some c =>
    dsimp only
    cases hu : db.tokenEventCursors.updateMany (fun c => c.tokenId = tokenId) data.apply with
    | none => exact .refused _
    | some result =>
      obtain ⟨t, n⟩ := result
      refine .done hc ?_ (by simpa using hfits)
      intro id
      rw [Table.get_updateMany hu (fun _ => Iff.rfl)]
      by_cases hid : id = tokenId
      · have hkey := ((db.tokenEventCursors.get_eq_some_iff).mp hc).2
        rw [List.mem_singleton] at hkey
        simp [hid, hc, ← hkey]
      · rw [if_neg hid]
        cases hg : db.tokenEventCursors.get id with
        | none => rfl
        | some c' =>
          have hkey := ((db.tokenEventCursors.get_eq_some_iff).mp hg).2
          rw [List.mem_singleton] at hkey
          simp [← hkey, hid]

/-- An update of a cursor that leaves it where it is, or moves it to a block up to which the index
is complete. -/
theorem indexing_updateCursor {tokenId : String} {data : TokenEventCursorUpdateInput}
    (h : ∀ c, Index.SamePlace c (data.apply c) ∨
      w.index.Covers tokenId start ((data.apply c).lastProcessedBlock + 1)) (i : Input) :
    Indexing start w ((Call.stmt (.tokenEventCursorUpdate tokenId data)).effect i w).2 := by
  have hu := w.db.updateTokenEventCursor_spec tokenId data
  simp only [Call.effect, Stmt.exec]
  generalize w.db.updateTokenEventCursor tokenId data = r at hu
  cases hu with
  | @done c _ row get =>
    rw [Indexing, index_putCursor get]
    refine .putCursor ?_
    rcases h c with hsame | hcovers
    · exact .inl ⟨c, row, hsame⟩
    · exact .inr (.inr hcovers)
  | refused e => exact .refl _ _

/-- A listener writes its own memory: no size that it learns is below 1. -/
theorem indexing_setListener {listener : String} {memory : ListenerMemory}
    (h : ∀ range, memory.learnedMaxBlockRange = some range →
      (w.listeners listener).learnedMaxBlockRange = some range ∨ 1 ≤ range) :
    Indexing start w (w.setListener listener memory) := by
  show Index.Progress start w.index { w.index with
    learned := fun name => ((w.setListener listener memory).listeners name).learnedMaxBlockRange }
  refine .learn ?_
  intro name range hr
  by_cases hname : name = listener
  · subst hname
    simp only [World.setListener, if_true] at hr
    exact h range hr
  · simp only [World.setListener, if_neg hname] at hr
    exact .inl hr

end Writes

/-! ## A listener -/

section Listener

variable {start : Nat} {w : World}

theorem stable_index {F : Index → Prop}
    (hF : ∀ x x', Index.Progress start x x' → F x → F x') :
    Stable (Indexing start) (Indexing start) fun w => F w.index :=
  ⟨fun _ _ h => hF _ _ h, fun _ _ h => hF _ _ h⟩

theorem stable_recorded (start : Nat) (l : TransferLog) :
    Stable (Indexing start) (Indexing start) fun w => w.index.Recorded l :=
  stable_index (F := fun x => x.Recorded l) fun _ _ h hl => hl.progress h

theorem stable_covers (start : Nat) (tokenId : String) (b : Nat) :
    Stable (Indexing start) (Indexing start) fun w => w.index.Covers tokenId start b :=
  stable_index (F := fun x => x.Covers tokenId start b) fun _ _ h hc => hc.progress h

theorem stable_contract (start : Nat) (token : Token) :
    Stable (Indexing start) (Indexing start)
      fun w => w.index.contract token.id = some token.contractAddress :=
  stable_index (F := fun x => x.contract token.id = some token.contractAddress)
    fun _ _ h hx => by rw [h.contract, hx]

theorem stable_mined (start : Nat) (l : TransferLog) (n : Nat) :
    Stable (Indexing start) (Indexing start) fun w => w.chain.Mined l n :=
  stable_index (F := fun x => x.chain.Mined l n) fun _ _ h hl => h.mined hl

theorem stable_emitted (start : Nat) (tokenId : String) (l : TransferLog) (n : Nat) :
    Stable (Indexing start) (Indexing start) fun w => w.Emitted tokenId l n := by
  have hstep : ∀ w w' : World, Indexing start w w' → w.Emitted tokenId l n →
      w'.Emitted tokenId l n :=
    fun w w' h hl => ⟨h.mined hl.mined, hl.emits.progress h⟩
  exact ⟨hstep, hstep⟩

theorem safe_offIndex {α : Type} {env : ProcessEnv} {A : List Right} {p : Program α}
    (h : All (Permitted env A) p) (hA : .index ∉ A) (w : World) :
    Safe exec (Indexing start) (Indexing start) p w :=
  h.safe (fun _ ho i w => indexing_of_permitted ho hA i w) w

theorem yields_create {tokenId : String} {l : TransferLog} {blockNumber : Nat}
    (hl : w.Emitted tokenId l blockNumber) :
    Yields exec (Indexing start) (Indexing start)
      (TransferRepository.create (transferOf tokenId l blockNumber))
      (fun _ w' => w'.index.Recorded l) w := by
  refine wp_perform.mpr ?_
  intro w₁ hw₁ i
  have hemitted := (stable_emitted start tokenId l blockNumber).star hw₁ hl
  obtain ⟨hprogress, hrecorded⟩ := indexing_upsert start hemitted i
  refine ⟨exec_snd (P := Indexing start) (.refl _ _) hprogress, ?_⟩
  intro row hok
  have heff := exec_ok hok
  rw [heff] at hok ⊢
  exact hrecorded row hok

theorem transferFind_ok {transactionHash : String} {logIndex : Nat} {i : Input} {found : Option TokenTransfer}
    (h : ((Call.stmt (.tokenTransferFindUnique transactionHash logIndex)).effect i w).1 = .ok found) :
    found = w.db.tokenTransfers.get (.transactionHash_logIndex transactionHash logIndex) ∧
      ((Call.stmt (.tokenTransferFindUnique transactionHash logIndex)).effect i w).2 = w := by
  revert h
  simp only [Call.effect, Stmt.exec]
  split
  · intro h
    exact ⟨(Except.ok.inj h).symm, rfl⟩
  · intro h
    cases h

/-- **Recording a log of the chain**: if it does not throw, the log has a row. -/
theorem yields_record {token : Token} {l : TransferLog} {blockNumber : Nat}
    (hl : w.Emitted token.id l blockNumber) :
    Yields exec (Indexing start) (Indexing start)
      (TransferEventService.record token l blockNumber) (fun _ w' => w'.index.Recorded l) w := by
  refine Yields.bind (F := fun found w' =>
    w'.Emitted token.id l blockNumber ∧ (found.isSome → w'.index.Recorded l)) ?_ ?_
  · refine wp_perform.mpr ?_
    intro w₁ hw₁ i
    refine ⟨indexing_stmt rfl i w₁, ?_⟩
    intro found hok
    have heff := exec_ok hok
    obtain ⟨hrow, hstay⟩ := transferFind_ok (heff ▸ hok)
    rw [heff, hstay]
    refine ⟨(stable_emitted start token.id l blockNumber).star hw₁ hl, ?_⟩
    intro hsome
    obtain ⟨t, rfl⟩ := Option.isSome_iff_exists.mp hsome
    obtain ⟨hmem, hkey⟩ := (w₁.db.tokenTransfers.get_eq_some_iff).mp hrow.symm
    rw [TokenTransfer.event_mem_keys] at hkey
    exact ⟨t, hmem, hkey.1.symm, hkey.2.symm⟩
  · rintro found w₁ ⟨hemitted, hfound⟩
    cases found with
    | some t =>
      refine Safe.yields (stable_recorded start l) (safe_perform ?_) (hfound rfl)
      exact fun w₂ _ i => .refl _ _
    | none =>
      refine Yields.bind (yields_create hemitted) ?_
      exact fun _ w₂ h _ _ => h

/-- The token that the lookup by contract finds for a log is one whose contract emitted it. -/
theorem emits_of_findFirst {token : Token} {l : TransferLog}
    (h : w.db.tokens.rows.find? (fun t => t.contractAddress.any fun a =>
      Js.toLowerCase a = Js.toLowerCase l.address) = some token) :
    w.index.Emits token.id l := by
  have hcond := List.find?_some h
  have hmem := List.mem_of_find?_eq_some h
  have hget : w.db.tokens.get (.id token.id) = some token :=
    (w.db.tokens.get_eq_some_iff).mpr ⟨hmem, by simp⟩
  obtain ⟨address, haddress, heq⟩ := (Option.any_eq_true _ _).mp hcond
  rw [decide_eq_true_eq] at heq
  refine ⟨address, ?_, heq.symm⟩
  show Option.map Token.contractAddress _ = _
  rw [hget, Option.map_some, haddress]

theorem yields_findByContractAddress {l : TransferLog} {n : Nat} (hl : w.chain.Mined l n) :
    Yields exec (Indexing start) (Indexing start)
      (TokenRepository.findByContractAddress l.address)
      (fun found w' => ∀ token, found = some token → w'.Emitted token.id l n) w := by
  refine wp_perform.mpr ?_
  intro w₁ hw₁ i
  refine ⟨indexing_stmt rfl i w₁, ?_⟩
  intro found hok token hfound
  have heff := exec_ok hok
  rw [heff] at hok ⊢
  subst hfound
  exact ⟨(stable_mined start l n).star hw₁ hl, emits_of_findFirst (Except.ok.inj hok)⟩

/-- **Handling a log**: it is recorded, then the two balances are read again. -/
theorem yields_handleTransferEvent (env : ProcessEnv) {l : TransferLog} {blockNumber : Nat}
    (hl : w.chain.Mined l blockNumber) :
    Yields exec (Indexing start) (Indexing start)
      (TransferEventService.handleTransferEvent env l blockNumber)
      (fun _ w' => w'.index.Recorded l) w := by
  refine Yields.bind (yields_findByContractAddress hl) ?_
  intro found w₁ hfound
  split
  · exact fun _ h => by cases h
  next token =>
    refine Yields.bind (yields_record (hfound token rfl)) ?_
    intro _ w₂ hrecorded
    refine Safe.yields (stable_recorded start l) ?_ hrecorded
    -- the rest may write balances only
    have hrest : All (Permitted env [.balance]) (Prog.bind (Prog.ofExcept
        (TransferEventService.requireContractAddress token.contractAddress)) fun contract =>
        Prog.bind (TransferEventService.syncWalletBalance env (Js.toLowerCase l.fromAddress) token.id
          contract blockNumber) fun _ =>
        TransferEventService.syncWalletBalance env (Js.toLowerCase l.toAddress) token.id contract
          blockNumber) := by
      refine All.bind (permitted_ofExcept _) ?_
      intro contract
      refine All.bind (permitted_syncWalletBalance (by simp) _ _ _ _) ?_
      exact fun _ => permitted_syncWalletBalance (by simp) _ _ _ _
    exact safe_offIndex hrest (by simp) w₂

/-- Where a scan of the token stands that goes up to the block `finish` and has come to the block
`pos`: everything before is covered. -/
structure Scanning (start : Nat) (token : Token) (finish pos : Int) (w : World) : Prop where
  contract : w.index.contract token.id = some token.contractAddress
  mined : finish < w.chain.length
  nonneg : 0 ≤ pos
  covers : w.index.Covers token.id start pos.toNat

theorem stable_scanning (token : Token) (finish pos : Int) :
    Stable (Indexing start) (Indexing start) (Scanning start token finish pos) := by
  have hstep : ∀ w w' : World, Indexing start w w' → Scanning start token finish pos w →
      Scanning start token finish pos w' := by
    intro w w' h hs
    refine ⟨?_, ?_, hs.nonneg, hs.covers.progress h⟩
    · rw [h.contract]
      exact hs.contract
    · have hlen : w.chain.length ≤ w'.chain.length := h.chain.length_le
      have hmined := hs.mined
      omega
  exact ⟨hstep, hstep⟩

/-- The logs of the token in the blocks from `pos` to `last`, all of them mined. -/
structure Window (token : Token) (logs : List (TransferLog × Nat)) (pos last : Int) (w : World) :
    Prop where
  mined : last < w.chain.length
  inside : ∀ l ∈ logs, pos ≤ l.2 ∧ Chain.emittedBy token.contractAddress l.1 = true
  logged : ∀ l ∈ logs, w.chain.Mined l.1 l.2
  complete : ∀ n : Nat, pos ≤ n → (n : Int) ≤ last →
    ∀ l ∈ w.chain.logsOf token.contractAddress n, l ∈ logs

theorem stable_window (start : Nat) (token : Token) (logs : List (TransferLog × Nat))
    (pos last : Int) :
    Stable (Indexing start) (Indexing start) (Window token logs pos last) := by
  have hstep : ∀ w w' : World, Indexing start w w' → Window token logs pos last w →
      Window token logs pos last w' := by
    intro w w' h hw
    have hmined := hw.mined
    refine ⟨?_, hw.inside, ?_, ?_⟩
    · have hlen : w.chain.length ≤ w'.chain.length := h.chain.length_le
      omega
    · exact fun l hl => (stable_mined start l.1 l.2).rely _ _ h (hw.logged l hl)
    · intro n hpos hlast l hl
      have hsame : w'.chain.logsOf token.contractAddress n = w.chain.logsOf token.contractAddress n :=
        h.logsOf (x := w.index) (by
          show n < w.chain.length
          omega) _
      rw [hsame] at hl
      exact hw.complete n hpos hlast l hl
  exact ⟨hstep, hstep⟩

/-- What a window with all its logs recorded adds to what is covered. -/
theorem Scanning.next {token : Token} {logs : List (TransferLog × Nat)} {finish pos last : Int}
    (hs : Scanning start token finish pos w) (hw : Window token logs pos last w)
    (hpos : pos ≤ last) (hrecorded : ∀ l ∈ logs, w.index.Recorded l.1) :
    Scanning start token finish (last + 1) w := by
  have hnonneg := hs.nonneg
  have hmined := hw.mined
  refine ⟨hs.contract, hs.mined, by omega, hs.covers.extend ?_ ?_⟩
  · show (last + 1).toNat ≤ w.chain.length
    omega
  · intro contract hcontract n hn hlast l hl
    rw [hs.contract, Option.some.injEq] at hcontract
    rw [← hcontract] at hl
    exact hrecorded l (hw.complete n (by omega) (by omega) l hl)

/-- **One window**: its logs are recorded, then the cursor moves to its last block. -/
theorem yields_onWindow (env : ProcessEnv) {token : Token} {logs : List (TransferLog × Nat)}
    {finish pos last : Int} (hs : Scanning start token finish pos w)
    (hw : Window token logs pos last w) (hpos : pos ≤ last) :
    Yields exec (Indexing start) (Indexing start) (EventListener.onWindow env token logs pos last)
      (fun _ w' => Scanning start token finish (last + 1) w') w := by
  have hI : Stable (Indexing start) (Indexing start) fun w =>
      Scanning start token finish pos w ∧ Window token logs pos last w :=
    (stable_scanning token finish pos).and (stable_window start token logs pos last)
  have hloop : Yields exec (Indexing start) (Indexing start)
      (Prog.forEach (fun log => TransferEventService.handleTransferEvent env log.1 log.2) logs)
      (fun _ w' => ∀ l ∈ logs, w'.index.Recorded l.1) w := by
    refine Yields.forEach (fun l : TransferLog × Nat => stable_recorded start l.1) hI ?_ ⟨hs, hw⟩
    exact fun l hl w hw => yields_handleTransferEvent env (hw.2.logged l hl)
  refine Yields.bind (hloop.keeps hI ⟨hs, hw⟩) ?_
  rintro _ w₁ ⟨hrecorded, hs₁, hw₁⟩
  have hnext := hs₁.next hw₁ hpos hrecorded
  refine Safe.yields (stable_scanning token finish (last + 1)) ?_ hnext
  -- the cursor moves over what is covered
  refine Safe.bind stable_true ?_ trivial fun _ _ _ => trivial
  refine Safe.bind (stable_scanning token finish (last + 1)) ?_ hnext ?_
  · exact safe_perform fun w₂ _ i => .refl _ _
  · intro now w₂ hnext₂
    refine safe_perform ?_
    intro w₃ hw₃ i
    refine exec_snd (P := Indexing start) (.refl _ _) (indexing_updateCursor ?_ i)
    intro c
    have hcovers := ((stable_scanning token finish (last + 1)).star hw₃ hnext₂).covers
    have hlast : last.toNat + 1 = (last + 1).toNat := by
      have hnonneg := hs.nonneg
      omega
    refine .inr ?_
    show w₃.index.Covers token.id start (last.toNat + 1)
    rw [hlast]
    exact hcovers

theorem windowEnd_bounds {pos size finish : Int} (hsize : 1 ≤ size) (hpos : pos ≤ finish) :
    pos ≤ windowEnd pos size finish ∧ windowEnd pos size finish ≤ finish := by
  unfold windowEnd
  split <;> omega

/-- What a window is that has been fetched: the size in force, its bounds and its logs. -/
structure Fetched (token : Token) (finish pos : Int) (r : List (TransferLog × Nat) × Int × Int)
    (w : World) : Prop where
  size : 1 ≤ r.2.2
  first : pos ≤ r.2.1
  last : r.2.1 ≤ finish
  window : Window token r.1 pos r.2.1 w

theorem yields_fetch {token : Token} {finish pos size : Int} (hs : Scanning start token finish pos w)
    (hsize : 1 ≤ size) (hpos : pos ≤ finish) :
    Yields exec (Indexing start) (Indexing start)
      (Prog.bind (perform (Call.getLogs token.contractAddress pos (windowEnd pos size finish)))
        fun logs => .pure (logs, windowEnd pos size finish, size))
      (Fetched token finish pos) w := by
  obtain ⟨hfirst, hlast⟩ := windowEnd_bounds hsize hpos
  generalize windowEnd pos size finish = last at hfirst hlast
  refine Yields.bind (F := fun logs w' => Window token logs pos last w') ?_ ?_
  · refine wp_perform.mpr ?_
    intro w₁ hw₁ i
    refine ⟨exec_snd (P := Indexing start) (.refl _ _) (.refl _ _), ?_⟩
    intro logs hok
    have heff := exec_ok hok
    rw [heff] at hok ⊢
    have hmined := ((stable_scanning token finish pos).star hw₁ hs).mined
    have hlogs : w₁.chain.getLogs token.contractAddress pos last = logs := Except.ok.inj hok
    subst hlogs
    refine ⟨?_, ?_, ?_, ?_⟩
    · show last < w₁.chain.length
      omega
    · intro l hl
      obtain ⟨n, -, hpos, -, hn⟩ := Chain.mem_getLogs.mp hl
      obtain ⟨-, hemitted, hnumber⟩ := Chain.mem_logsOf.mp hn
      rw [hnumber]
      exact ⟨hpos, hemitted⟩
    · intro l hl
      obtain ⟨n, -, -, -, hn⟩ := Chain.mem_getLogs.mp hl
      obtain ⟨hl, -, hnumber⟩ := Chain.mem_logsOf.mp hn
      rw [hnumber]
      exact hl
    · intro n hn hn' l hl
      exact Chain.mem_getLogs.mpr ⟨n, by omega, hn, hn', hl⟩
  · exact fun logs w₁ hwindow _ h => by
      cases h
      exact ⟨hsize, hfirst, hlast, hwindow⟩

/-- **Fetching a window**: it may be halved until the provider accepts it, but it never becomes
empty. -/
theorem yields_fetchWindow (listener : String) {token : Token} {finish pos : Int}
    (hpos : pos ≤ finish) (fuel : Nat) {size : Int} (hsize : 1 ≤ size)
    (hs : Scanning start token finish pos w) :
    Yields exec (Indexing start) (Indexing start)
      (fetchWindow (fun first last => perform (Call.getLogs token.contractAddress first last))
        (fun newRange _ => perform (Call.learnMaxBlockRange listener newRange)) pos finish fuel size)
      (Fetched token finish pos) w := by
  induction fuel generalizing size w with
  | zero => exact yields_fetch hs hsize hpos
  | succ fuel ih =>
    refine Yields.tryCatch (stable_scanning token finish pos) (yields_fetch hs hsize hpos) hs ?_
    intro error w₁ hs₁
    by_cases hshrink : (decide (1 < size) && isBlockRangeLimitError error) = true
    · rw [if_pos hshrink]
      have hlarge : 1 < size := by
        rw [Bool.and_eq_true, decide_eq_true_eq] at hshrink
        exact hshrink.1
      have hhalf : 1 ≤ size / 2 := by omega
      refine Yields.bind (Safe.yields (stable_scanning token finish pos) ?_ hs₁) ?_
      · refine safe_perform ?_
        intro w₂ _ i
        rw [exec_of_inProcess rfl]
        refine indexing_setListener ?_
        rintro range h
        cases h
        exact .inr hhalf
      · exact fun _ w₂ hs₂ => ih hhalf hs₂
    · rw [if_neg hshrink]
      exact fun _ h => by cases h

/-- **A scan**: each window follows on what is covered. -/
theorem safe_scanFrom (listener : String) (env : ProcessEnv) {token : Token} {finish : Int}
    (remaining : Nat) {pos size : Int} (windows : Nat) (lastProcessed : Option Int)
    (hsize : 1 ≤ size) (hs : Scanning start token finish pos w) :
    Safe exec (Indexing start) (Indexing start)
      (scanFrom (fun first last => perform (Call.getLogs token.contractAddress first last))
        (EventListener.onWindow env token)
        (fun newRange _ => perform (Call.learnMaxBlockRange listener newRange)) finish remaining pos
        size windows lastProcessed) w := by
  induction remaining generalizing pos size windows lastProcessed w with
  | zero => exact trivial
  | succ remaining ih =>
    unfold scanFrom
    by_cases hpos : pos ≤ finish
    · rw [if_pos hpos]
      refine Safe.bind_wp ((yields_fetchWindow listener hpos _ hsize hs).keeps
        (stable_scanning token finish pos) hs) ?_
      rintro ⟨logs, last, size'⟩ w₁ ⟨hfetched, hs₁⟩
      refine Safe.bind_wp (yields_onWindow env hs₁ hfetched.window hfetched.first) ?_
      exact fun _ w₂ hs₂ => ih _ _ hfetched.size hs₂
    · rw [if_neg hpos]
      exact trivial

/-- A token with its cursor, in a sound index. -/
structure Loaded (start : Nat) (token : Token) (cursor : TokenEventCursor) (w : World) : Prop where
  sound : w.index.Sound start
  contract : w.index.contract token.id = some token.contractAddress
  place : Index.Fresh cursor ∨ w.index.Covers token.id start (cursor.lastProcessedBlock + 1)

theorem stable_loaded (start : Nat) (token : Token) (cursor : TokenEventCursor) :
    Stable (Indexing start) (Indexing start) (Loaded start token cursor) := by
  have hstep : ∀ w w' : World, Indexing start w w' → Loaded start token cursor w →
      Loaded start token cursor w' := by
    intro w w' h hl
    refine ⟨hl.sound.progress h, ?_, hl.place.imp_right fun hc => hc.progress h⟩
    rw [h.contract]
    exact hl.contract
  exact ⟨hstep, hstep⟩

theorem stable_mined_below (finish : Int) :
    Stable (Indexing start) (Indexing start) fun w => finish < w.chain.length := by
  have hstep : ∀ w w' : World, Indexing start w w' → finish < w.chain.length →
      finish < w'.chain.length := by
    intro w w' h hlt
    have hlen : w.chain.length ≤ w'.chain.length := h.chain.length_le
    omega
  exact ⟨hstep, hstep⟩

/-- **Where a scan starts**: a cursor at 0 starts at the first block to index, any other one a
block before its own. -/
theorem Loaded.scanning {config : EvmIndexerConfig} {token : Token} {cursor : TokenEventCursor}
    {finish : Int} (hl : Loaded config.startBlock token cursor w) (hmined : finish < w.chain.length)
    (hfinish : EventListener.fromBlock config cursor ≤ finish) :
    Scanning config.startBlock token finish (EventListener.fromBlock config cursor) w := by
  unfold EventListener.fromBlock at hfinish ⊢
  by_cases hzero : cursor.lastProcessedBlock = 0
  · rw [if_pos hzero] at hfinish ⊢
    refine ⟨hl.contract, hmined, by omega, Index.covers_start ?_⟩
    show config.startBlock ≤ w.chain.length
    omega
  · rw [if_neg hzero] at hfinish ⊢
    refine ⟨hl.contract, hmined, by omega, ?_⟩
    rcases hl.place with hfresh | hcovers
    · exact absurd hfresh.1 hzero
    · exact hcovers.mono (by omega)

theorem stable_indexSound : Stable (Indexing start) (Indexing start) fun w => w.index.Sound start :=
  stable_index (F := Index.Sound start) fun _ _ h hx => hx.progress h

/-- The head of the chain is mined. -/
theorem yields_getBlockNumber (hsound : w.index.Sound start) :
    Yields exec (Indexing start) (Indexing start) (perform Call.getBlockNumber)
      (fun (currentBlock : Nat) w' => currentBlock < w'.chain.length) w := by
  refine wp_perform.mpr ?_
  intro w₁ hw₁ i
  refine ⟨exec_snd (P := Indexing start) (.refl _ _) (.refl _ _), ?_⟩
  intro (currentBlock : Nat) hok
  have heff := exec_ok hok
  rw [heff] at hok ⊢
  have hhead : w₁.chain.head = currentBlock := Except.ok.inj hok
  have hpos : 0 < w₁.chain.length := List.length_pos_iff.mpr (stable_indexSound.star hw₁ hsound).genesis
  show currentBlock < w₁.chain.length
  rw [Chain.head] at hhead
  omega

/-- The window size that a listener starts with is positive. -/
theorem yields_learnedMaxBlockRange (listener : String) {maxBlockRange : Int} (hrange : 1 ≤ maxBlockRange)
    (hsound : w.index.Sound start) :
    Yields exec (Indexing start) (Indexing start) (perform (Call.learnedMaxBlockRange listener))
      (fun (learned : Option Int) _ => 1 ≤ learned.getD maxBlockRange) w := by
  refine wp_perform.mpr ?_
  intro w₁ hw₁ i
  rw [exec_of_inProcess rfl]
  refine ⟨.refl _ _, ?_⟩
  intro learned hok
  have hlearned : (w₁.listeners listener).learnedMaxBlockRange = learned := Except.ok.inj hok
  cases learned with
  | none => exact hrange
  | some range => exact (stable_indexSound.star hw₁ hsound).learned listener range hlearned

theorem safe_indexFrom (listener : String) (env : ProcessEnv) {config : EvmIndexerConfig}
    (hrange : 1 ≤ config.maxBlockRange) {token : Token} {cursor : TokenEventCursor}
    (hl : Loaded config.startBlock token cursor w) :
    Safe exec (Indexing config.startBlock) (Indexing config.startBlock)
      (EventListener.indexFrom listener env config token cursor) w := by
  have hloaded := stable_loaded config.startBlock token cursor
  refine Safe.bind_wp ((yields_getBlockNumber hl.sound).keeps hloaded hl) ?_
  rintro currentBlock w₁ ⟨hhead, hl₁⟩
  by_cases hfinish : (currentBlock : Int) - config.confirmations <
      EventListener.fromBlock config cursor
  · rw [if_pos hfinish]
    exact trivial
  rw [if_neg hfinish]
  have hmined : (currentBlock : Int) - config.confirmations < w₁.chain.length := by omega
  have hmax : (1 : Int) ≤ config.maxBlockRange := by omega
  refine Safe.bind_wp ((yields_learnedMaxBlockRange listener hmax hl₁.sound).keeps
    (hloaded.and (stable_mined_below _)) ⟨hl₁, hmined⟩) ?_
  rintro learned w₂ ⟨hsize, hl₂, hmined₂⟩
  refine Safe.bind stable_true (safe_scanFrom listener env _ _ _ hsize ?_) trivial
    fun _ _ _ => trivial
  exact hl₂.scanning hmined₂ (by omega)

/-- A token that is found has its row. -/
theorem yields_tokenFindUnique (start : Nat) (tokenId : String) (w : World) :
    Yields exec (Indexing start) (Indexing start) (prisma.stmt (.tokenFindUnique tokenId))
      (fun found w' => ∀ token : Token, found = some token →
        token.id = tokenId ∧ w'.db.tokens.get (.id token.id) = some token) w := by
  refine wp_perform.mpr ?_
  intro w₁ _ i
  refine ⟨indexing_stmt rfl i w₁, ?_⟩
  intro found hok
  have heff := exec_ok hok
  rw [heff] at hok ⊢
  rintro token rfl
  have hget : w₁.db.tokens.get (.id tokenId) = some token := Except.ok.inj hok
  have hid := ((w₁.db.tokens.get_eq_some_iff).mp hget).2
  rw [Token.id_mem_keys] at hid
  subst hid
  exact ⟨rfl, hget⟩

theorem World.contract_of_get {token : Token} (h : w.db.tokens.get (.id token.id) = some token) :
    w.index.contract token.id = some token.contractAddress := by
  show (w.db.tokens.get (.id token.id)).map Token.contractAddress = _
  rw [h, Option.map_some]

/-- The cursor of a token, created if it is not there. -/
theorem yields_getOrCreate {token : Token} (hsound : w.index.Sound start)
    (hcontract : w.index.contract token.id = some token.contractAddress) :
    Yields exec (Indexing start) (Indexing start) (TokenEventCursorRepository.getOrCreate token.id)
      (Loaded start token) w := by
  refine wp_perform.mpr ?_
  intro w₁ hw₁ i
  obtain ⟨hprogress, hcursor⟩ := indexing_openCursor (w := w₁) start token.id i
  refine ⟨exec_snd (P := Indexing start) (.refl _ _) hprogress, ?_⟩
  intro cursor hok
  have heff := exec_ok hok
  rw [heff] at hok ⊢
  have hsound₁ := (stable_indexSound.star hw₁ hsound).progress hprogress
  refine ⟨hsound₁, ?_, hsound₁.cursors _ _ (hcursor cursor hok)⟩
  rw [hprogress.contract]
  exact (stable_contract start token).star hw₁ hcontract

theorem safe_markFailure (tokenId : String) (w : World) :
    Safe exec (Indexing start) (Indexing start) (TokenEventCursorRepository.markFailure tokenId) w := by
  refine Safe.bind stable_true ?_ trivial ?_
  · exact safe_perform fun w₁ _ i => .refl _ _
  · intro now w₁ _
    refine safe_perform ?_
    intro w₂ _ i
    exact exec_snd (P := Indexing start) (.refl _ _)
      (indexing_updateCursor (fun c => .inl ⟨rfl, rfl⟩) i)

theorem safe_processToken (listener : String) {env : ProcessEnv} (tokenId : String)
    (hstart : ∀ config, loadEvmIndexerConfig env = .ok config → config.startBlock = start)
    (hsound : w.index.Sound start) :
    Safe exec (Indexing start) (Indexing start) (EventListener.processToken listener env tokenId)
      w := by
  refine Safe.bind_wp ((yields_tokenFindUnique start tokenId w).keeps stable_indexSound hsound) ?_
  rintro found w₁ ⟨hfound, hsound₁⟩
  split
  · exact trivial
  next token =>
    obtain ⟨rfl, hrow⟩ := hfound token rfl
    split
    · exact trivial
    cases hconfig : loadEvmIndexerConfig env with
    | error e => exact trivial
    | ok config =>
      obtain rfl := hstart config hconfig
      show Safe exec _ _ (Prog.bind (TokenEventCursorRepository.getOrCreate token.id) _) w₁
      refine Safe.bind_wp (yields_getOrCreate hsound₁ (World.contract_of_get hrow)) ?_
      intro cursor w₂ hl
      refine Safe.tryCatch stable_true ?_ trivial ?_
      · exact safe_indexFrom listener env (one_le_of_config hconfig).1 hl
      · intro error w₃ _
        refine Safe.bind stable_true (Safe.tryCatch stable_true ?_ trivial fun _ _ _ => trivial)
          trivial fun _ _ _ => trivial
        exact Safe.bind stable_true (safe_markFailure _ w₃) trivial fun _ _ _ => trivial

/-- The tokens that a listener works on are its own; what it has learned stays. -/
theorem indexing_processing {listener tokenId : String} {o : Call}
    (ho : o = .processingAdd listener tokenId ∨ o = .processingDelete listener tokenId) (i : Input)
    (w : World) : Indexing start w (exec o i w).2 := by
  have hmemory : ∀ tokens : List String, Indexing start w
      (w.setListener listener { w.listeners listener with processingTokens := tokens }) :=
    fun tokens => indexing_setListener fun _ h => .inl h
  rcases ho with rfl | rfl
  · rw [exec_of_inProcess rfl]
    simp only [Call.effect]
    split
    · exact .refl _ _
    · exact hmemory _
  · rw [exec_of_inProcess rfl]
    exact hmemory _

/-- **A listener** only makes progress of the index. -/
theorem safe_processTokenEvents (listener : String) {env : ProcessEnv} (tokenId : String)
    (hstart : ∀ config, loadEvmIndexerConfig env = .ok config → config.startBlock = start)
    (hsound : w.index.Sound start) :
    Safe exec (Indexing start) (Indexing start)
      (EventListener.processTokenEvents listener env tokenId) w := by
  refine Safe.bind stable_indexSound (safe_perform fun w₁ _ i => ?_) hsound ?_
  · exact indexing_processing (.inl rfl) i w₁
  intro added w₁ hsound₁
  split
  swap
  · exact trivial
  refine Safe.bind stable_true (Safe.tryCatch stable_true ?_ trivial fun _ _ _ => trivial) trivial ?_
  · exact Safe.bind stable_true (safe_processToken listener tokenId hstart hsound₁) trivial
      fun _ _ _ => trivial
  · intro r w₂ _
    refine Safe.bind stable_true (safe_perform fun w₃ _ i => ?_) trivial ?_
    · exact indexing_processing (.inr rfl) i w₃
    · intro _ w₃ _
      cases r <;> exact trivial

end Listener

/-! ## Whole runs -/

/-- The first block to index. -/
def Deployment.startBlock (D : Deployment) : Nat :=
  match loadEvmIndexerConfig D.processEnv with
  | .ok config => config.startBlock
  | .error _ => 0

theorem Deployment.startBlock_eq {D : Deployment} {config : EvmIndexerConfig}
    (h : loadEvmIndexerConfig D.processEnv = .ok config) : D.startBlock = config.startBlock := by
  rw [Deployment.startBlock, h]

/-- Every task makes progress of the index: listeners because of what they do, the others because
they have no right to it. -/
theorem safe_onIndex (D : Deployment) (t : Task) {w : World}
    (hw : w.index.Sound D.startBlock) :
    Safe exec (Indexing D.startBlock) (Indexing D.startBlock) (D.prog t) w := by
  cases t with
  | processTokenEvents listener tokenId =>
    exact safe_processTokenEvents listener tokenId (fun _ h => (D.startBlock_eq h).symm) hw
  | _ => exact safe_offIndex (permitted_prog D _) (by simp [Task.rights]) w

theorem respects_index (D : Deployment) :
    Respects D.system (Indexing D.startBlock) (Indexing D.startBlock)
      (fun w => w.index.Sound D.startBlock) fun _ => True where
  refl w := .refl _ _
  sub w w' h := h
  keeps w w' hw h := hw.progress h
  task t _ w hw := safe_onIndex D t hw
  shift d _ w _ := by
    cases d with
    | tick milliseconds => exact .refl _ _
    | mine logs => exact .mine _
    | restart listener => exact indexing_setListener fun _ h => by cases h

theorem World.Initial.indexSound {w : World} (h : w.Initial) (start : Nat) :
    w.index.Sound start where
  genesis := h.genesis
  observed r hr := by
    rw [show w.index.transfers = [] from h.tokenTransfers] at hr
    cases hr
  cursors tokenId c hc := by
    have hmem := ((w.db.tokenEventCursors.get_eq_some_iff).mp hc).1
    rw [h.tokenEventCursors] at hmem
    cases hmem
  learned listener range hr := by
    rw [show w.index.learned listener = none by simp [World.index, h.listeners]] at hr
    cases hr

/-- **A run is a path of progress of the index**, and what is left of every program at its end is
safe. -/
theorem index_path (D : Deployment) {w : World} (h : w.Initial) (es : List SystemEvent) :
    Relation.ReflTransGen (Indexing D.startBlock) w (w.start.after D.system es).world ∧
      Healthy D.system (Indexing D.startBlock) (Indexing D.startBlock)
        (fun w => w.index.Sound D.startBlock) (w.start.after D.system es) := by
  have hinit : Healthy D.system (Indexing D.startBlock) (Indexing D.startBlock)
      (fun w => w.index.Sound D.startBlock) w.start := Healthy.init (h.indexSound _)
  exact hinit.after (respects_index D) fun _ _ => trivial

theorem contract_after (D : Deployment) {w : World} (h : w.Initial) (es : List SystemEvent)
    {token : Token} (htoken : w.db.tokens.get (.id token.id) = some token) :
    (w.start.after D.system es).world.index.contract token.id = some token.contractAddress := by
  exact (stable_contract D.startBlock token).star (index_path D h es).1 (World.contract_of_get htoken)

/-- **The index is sound in every reachable state.** -/
theorem indexSound_after (D : Deployment) {w : World} (h : w.Initial) (es : List SystemEvent) :
    (w.start.after D.system es).world.index.Sound D.startBlock :=
  (index_path D h es).2.inv

end TransactionSimulator
