import TransactionSimulator.Indexer.Refinement

/-!
# Where a run of the listener leaves its cursor

One run of `processTokenEvents` in a single process, from any cursor, chain head and window size.
A run starts a block before its cursor and writes the cursor after every window, so it is the size
of the first windows that decides whether the cursor is ever carried back to where it was.
-/

namespace TransactionSimulator

open Concurrent Prog

/-- The block at which the cursor of the token stands. -/
def World.cursorOf (w : World) (tokenId : String) : Option Nat :=
  (w.index.cursor tokenId).map TokenEventCursor.lastProcessedBlock

/-! ## Calls that leave the cursors alone -/

/-- The call moves no cursor. -/
def KeepsCursor (o : Call) : Prop := ∀ i w, (exec o i w).2.index.cursor = w.index.cursor

theorem keepsCursor_of_permitted {env : ProcessEnv} {A : List Right} {o : Call}
    (h : Permitted env A o) (hA : .index ∉ A) : KeepsCursor o := by
  intro i w
  rw [index_of_permitted h hA]

theorem keepsCursor_upsert (data : TokenTransferCreateInput) :
    KeepsCursor (.stmt (.tokenTransferUpsert data)) := by
  intro i w
  refine exec_snd (P := fun w w' => w'.index.cursor = w.index.cursor) rfl ?_
  funext tokenId
  have hsame := (Stmt.exec_sameBut (.tokenTransferUpsert data) ⟨w.clock, i.uuid⟩ w.db).tokenEventCursors
    (by simp [Stmt.target])
  exact congrArg (fun t => Relational.Table.get t tokenId) hsame

/-- Handling a log moves no cursor. -/
theorem keepsCursor_handleTransferEvent (env : ProcessEnv) (log : TransferLog) (blockNumber : Nat) :
    All KeepsCursor (TransferEventService.handleTransferEvent env log blockNumber) := by
  have hread : ∀ s : Stmt, s.onIndex = false → KeepsCursor (.stmt s) := by
    intro s hs i w
    refine exec_snd (P := fun w w' => w'.index.cursor = w.index.cursor) rfl ?_
    rw [index_stmt hs]
  refine All.perform_bind (hread _ rfl) ?_
  intro token
  split
  · exact trivial
  next token =>
    refine All.bind ?_ ?_
    · refine All.perform_bind (hread _ rfl) ?_
      intro found
      split
      · exact all_perform fun _ _ => rfl
      · exact All.perform_bind (keepsCursor_upsert _) fun _ => trivial
    intro _
    have hrest : All (Permitted env [.balance]) (Prog.bind (Prog.ofExcept
        (TransferEventService.requireContractAddress token.contractAddress)) fun contract =>
        Prog.bind (TransferEventService.syncWalletBalance env (Js.toLowerCase log.fromAddress) token.id
          contract blockNumber) fun _ =>
        TransferEventService.syncWalletBalance env (Js.toLowerCase log.toAddress) token.id contract
          blockNumber) := by
      refine All.bind (permitted_ofExcept _) ?_
      intro contract
      refine All.bind (permitted_syncWalletBalance (by simp) _ _ _ _) ?_
      exact fun _ => permitted_syncWalletBalance (by simp) _ _ _ _
    exact hrest.mono fun _ ho => keepsCursor_of_permitted ho (by simp)

theorem under_keepsCursor {α : Type} {A : Call → Input → World → Prop} {p : Program α}
    (h : All KeepsCursor p) {tokenId : String} {c : Option Nat} {w : World}
    (hw : w.cursorOf tokenId = c) : Under exec A p (fun _ w' => w'.cursorOf tokenId = c) w := by
  refine h.under (I := fun w : World => w.cursorOf tokenId = c) ?_ hw
  intro o ho i w hw
  rw [World.cursorOf, ho i w]
  exact hw

/-! ## Calls that write a cursor -/

/-- The update of a cursor that succeeds. -/
theorem cursorOf_update {tokenId : String} {data : TokenEventCursorUpdateInput} {i : Input} {w : World}
    {c : TokenEventCursor} (h : (exec (.stmt (.tokenEventCursorUpdate tokenId data)) i w).1 = .ok c) :
    (exec (.stmt (.tokenEventCursorUpdate tokenId data)) i w).2.cursorOf tokenId =
      (w.cursorOf tokenId).map fun n => data.lastProcessedBlock.getD n := by
  have heff := exec_ok h
  rw [heff] at h ⊢
  have hu := w.db.updateTokenEventCursor_spec tokenId data
  simp only [Call.effect, Stmt.exec] at h ⊢
  generalize w.db.updateTokenEventCursor tokenId data = r at hu h
  cases hu with
  | done row get => simp [World.cursorOf, World.index, get, row, TokenEventCursorUpdateInput.apply]
  | refused e => cases h

theorem exec_update_ok {tokenId : String} {data : TokenEventCursorUpdateInput} {i : Input} {w : World}
    (hfits : data.fits = true) (hi : i.fault = none) (h : (w.cursorOf tokenId).isSome) :
    ∃ c, (exec (.stmt (.tokenEventCursorUpdate tokenId data)) i w).1 = .ok c := by
  rw [World.cursorOf, Option.isSome_map] at h
  obtain ⟨c, hc⟩ := Option.isSome_iff_exists.mp h
  obtain ⟨t, n, ht⟩ := w.db.tokenEventCursors.updateMany_isSome (fun c => c.tokenId = tokenId)
    data.apply fun _ _ => rfl
  have hget : w.db.tokenEventCursors.get tokenId = some c := hc
  rw [exec_of_fault_none hi]
  refine ⟨data.apply c, ?_⟩
  simp [Call.effect, Stmt.exec, Db.updateTokenEventCursor, hfits, hget, ht]

/-- An update that does not set the block leaves the cursor where it is, whatever becomes of it. -/
theorem cursorOf_update_none {tokenId : String} {data : TokenEventCursorUpdateInput}
    (hdata : data.lastProcessedBlock = none) (i : Input) (w : World) :
    (exec (.stmt (.tokenEventCursorUpdate tokenId data)) i w).2.cursorOf tokenId =
      w.cursorOf tokenId := by
  refine exec_snd (P := fun w w' => w'.cursorOf tokenId = w.cursorOf tokenId) rfl ?_
  have hu := w.db.updateTokenEventCursor_spec tokenId data
  simp only [Call.effect, Stmt.exec]
  generalize w.db.updateTokenEventCursor tokenId data = r at hu
  cases hu with
  | done row get =>
    simp [World.cursorOf, World.index, get, row, TokenEventCursorUpdateInput.apply, hdata]
  | refused e => rfl

theorem effect_openCursor {tokenId : String} {i : Input} {w : World} {c : TokenEventCursor}
    (h : w.db.tokenEventCursors.get tokenId = some c) :
    (Call.stmt (.tokenEventCursorUpsert tokenId)).effect i w = (.ok c, w) := by
  simp only [Call.effect, Stmt.exec, Db.upsertTokenEventCursor, h]

theorem exec_openCursor {tokenId : String} {i : Input} {w : World} {c : TokenEventCursor}
    (h : w.db.tokenEventCursors.get tokenId = some c) :
    (exec (.stmt (.tokenEventCursorUpsert tokenId)) i w).2 = w ∧
      ∀ c', (exec (.stmt (.tokenEventCursorUpsert tokenId)) i w).1 = .ok c' → c' = c := by
  have heff := effect_openCursor (i := i) h
  refine ⟨exec_snd (P := fun w w' => w' = w) rfl (by rw [heff]), ?_⟩
  intro c' hok
  rw [exec_ok hok, heff] at hok
  exact (Except.ok.inj hok).symm

/-! ## A scan that nothing disturbs -/

/-- The call does not fail. -/
def Undisturbed (_ : Call) (i : Input) (_ : World) : Prop := i.fault = none

section Scan

variable {A : Call → Input → World → Prop} {w : World} (listener : String) (env : ProcessEnv)
  (token : Token)

theorem under_getLogs (hA : ∀ o i w, A o i w → i.fault = none) (pos last size : Int) :
    Under exec A
      (Prog.bind (perform (Call.getLogs token.contractAddress pos last))
        fun logs => .pure (logs, last, size) : Program (List (TransferLog × Nat) × Int × Int))
      (fun r w' => w' = w ∧ r = .ok (w.chain.getLogs token.contractAddress pos last, last, size)) w := by
  rw [under_bind, under_perform]
  intro i hi
  rw [exec_of_fault_none (hA _ _ _ hi)]
  exact ⟨rfl, rfl⟩

/-- The provider accepts the window at the first attempt. -/
theorem under_fetchWindow (hA : ∀ o i w, A o i w → i.fault = none) (pos finish : Int) (fuel : Nat)
    (size : Int) :
    Under exec A
      (fetchWindow (fun first last => perform (Call.getLogs token.contractAddress first last))
        (fun newRange _ => perform (Call.learnMaxBlockRange listener newRange)) pos finish fuel size)
      (fun r w' => w' = w ∧ r = .ok (w.chain.getLogs token.contractAddress pos
        (windowEnd pos size finish), windowEnd pos size finish, size)) w := by
  cases fuel with
  | zero => exact under_getLogs token hA pos _ size
  | succ fuel =>
    refine under_tryCatch.mpr ((under_getLogs token hA pos (windowEnd pos size finish) size).mono ?_)
    intro r w' h
    obtain ⟨hw, rfl⟩ := h
    exact ⟨hw, rfl⟩

/-- The cursor is moved, unless its update is refused. -/
theorem under_markSuccess (tokenId : String) (blockNumber : Nat) :
    Under exec A (TokenEventCursorRepository.markSuccess tokenId blockNumber)
      (fun r w' => ∀ a, r = .ok a →
        w'.cursorOf tokenId = (w.cursorOf tokenId).map fun _ => blockNumber) w := by
  unfold TokenEventCursorRepository.markSuccess
  refine under_bind.mpr (under_perform.mpr ?_)
  intro i _
  rw [exec_of_inProcess rfl]
  refine under_perform.mpr ?_
  intro j _ c hok
  rw [cursorOf_update hok]
  rfl

/-- A cursor that is there is moved to a block that fits, if nothing fails. -/
theorem ends_markSuccess (hA : ∀ o i w, A o i w → i.fault = none) {tokenId : String} {blockNumber : Nat}
    (hlow : blockNumber < 2 ^ 63) (hcursor : (w.cursorOf tokenId).isSome) :
    Under exec A (TokenEventCursorRepository.markSuccess tokenId blockNumber)
      (fun r w' => (∃ a, r = .ok a) ∧ w'.cursorOf tokenId = some blockNumber) w := by
  unfold TokenEventCursorRepository.markSuccess
  refine under_bind.mpr (under_perform.mpr ?_)
  intro i _
  rw [exec_of_inProcess rfl]
  refine under_perform.mpr ?_
  intro j hj
  have hfits : TokenEventCursorUpdateInput.fits ⟨some blockNumber, some w.clock, none, fun _ => 0⟩ = true := by
    rw [TokenEventCursorUpdateInput.fits, fitsNullable, Option.all_some, fitsBigInt_iff]
    omega
  obtain ⟨a, hok⟩ := exec_update_ok hfits (hA _ _ _ hj) hcursor
  obtain ⟨c, hc⟩ := Option.isSome_iff_exists.mp hcursor
  refine ⟨⟨a, hok⟩, (cursorOf_update hok).trans ?_⟩
  rw [hc]
  rfl

/-- A window that is handled to its end leaves the cursor at its last block. -/
theorem under_onWindow (logs : List (TransferLog × Nat)) (pos last : Int) :
    Under exec A (EventListener.onWindow env token logs pos last)
      (fun r w' => ∀ a, r = .ok a →
        w'.cursorOf token.id = (w.cursorOf token.id).map fun _ => last.toNat) w := by
  have hlogs : All KeepsCursor
      (Prog.forEach (fun log => TransferEventService.handleTransferEvent env log.1 log.2) logs) := by
    refine All.forEach ?_ logs
    intro log
    exact keepsCursor_handleTransferEvent env log.1 log.2
  have hkept : Under exec A (Prog.forEach
      (fun log => TransferEventService.handleTransferEvent env log.1 log.2) logs)
      (fun _ w' => w'.cursorOf token.id = w.cursorOf token.id) w := under_keepsCursor hlogs rfl
  refine under_bind.mpr (hkept.mono ?_)
  intro r w₁ hw₁
  cases r with
  | error e => exact fun a h => by cases h
  | ok _ =>
    refine under_bind.mpr ((under_markSuccess token.id last.toNat).mono ?_)
    intro r w₂ hw₂
    cases r with
    | error e => exact fun a h => by cases h
    | ok c =>
      intro _ _
      rw [hw₂ c rfl, hw₁]

/-- The last block of `remaining` windows of one size, from `pos` on but not beyond `finish`. -/
def scanEnd (pos finish size : Int) (remaining : Nat) : Int :=
  min (pos + remaining * size - 1) finish

theorem scanEnd_succ {pos finish size : Int} {remaining : Nat} (hsize : 1 ≤ size) :
    scanEnd pos finish size (remaining + 1) =
      if 0 < remaining ∧ windowEnd pos size finish + 1 ≤ finish then
        scanEnd (windowEnd pos size finish + 1) finish size remaining
      else windowEnd pos size finish := by
  have hprod : ((remaining + 1 : Nat) : Int) * size = remaining * size + size := by
    rw [Int.natCast_add, Int.add_mul]
    omega
  have hnonneg : 0 ≤ (remaining : Int) * size := Int.mul_nonneg (by omega) (by omega)
  have hwindow : windowEnd pos size finish = min (pos + size - 1) finish := by
    unfold windowEnd
    split <;> omega
  simp only [scanEnd, hprod]
  generalize windowEnd pos size finish = last at hwindow
  by_cases hmore : 0 < remaining ∧ last + 1 ≤ finish
  · rw [if_pos hmore]
    omega
  · rw [if_neg hmore]
    by_cases hzero : remaining = 0
    · have hnone : (remaining : Int) * size = 0 := by
        rw [hzero]
        simp
      omega
    · omega

/-- **A scan that is not disturbed and ends without an error** leaves the cursor where its windows
end. -/
theorem under_scanFrom {finish pos size : Int} {remaining : Nat} (windows : Nat)
    (lastProcessed : Option Int) (hsize : 1 ≤ size) (hcursor : (w.cursorOf token.id).isSome) :
    Under exec Undisturbed
      (scanFrom (fun first last => perform (Call.getLogs token.contractAddress first last))
        (EventListener.onWindow env token)
        (fun newRange _ => perform (Call.learnMaxBlockRange listener newRange)) finish remaining pos
        size windows lastProcessed)
      (fun r w' => ∀ a, r = .ok a → w'.cursorOf token.id =
        if 0 < remaining ∧ pos ≤ finish then some (scanEnd pos finish size remaining).toNat
        else w.cursorOf token.id) w := by
  induction remaining generalizing pos windows lastProcessed w with
  | zero =>
    intro _ _
    rw [if_neg (by omega)]
  | succ remaining ih =>
    unfold scanFrom
    by_cases hpos : pos ≤ finish
    · rw [if_pos hpos]
      refine under_bind.mpr ((under_fetchWindow listener token (fun _ _ _ h => h) pos finish _ size).mono ?_)
      intro r w₁ h
      obtain ⟨rfl, rfl⟩ := h
      refine under_bind.mpr ((under_onWindow env token _ pos _).mono ?_)
      intro r w₂ hw₂
      cases r with
      | error e => exact fun a h => by cases h
      | ok _ =>
        obtain ⟨c, hc⟩ := Option.isSome_iff_exists.mp hcursor
        have hmoved := hw₂ _ rfl
        rw [hc, Option.map_some] at hmoved
        refine (ih _ _ (by rw [hmoved]; rfl)).mono ?_
        intro r w₃ hw₃ a ha
        have hhere : 0 < remaining + 1 ∧ pos ≤ finish := ⟨by omega, hpos⟩
        rw [hw₃ a ha, hmoved, if_pos hhere, scanEnd_succ hsize]
        by_cases hmore : 0 < remaining ∧ windowEnd pos size finish + 1 ≤ finish
        · rw [if_pos hmore, if_pos hmore]
        · rw [if_neg hmore, if_neg hmore]
    · rw [if_neg hpos]
      intro _ _
      rw [if_neg (by omega)]

end Scan

/-! ## A run -/

/-- The cursor of the token is at the block `c`, the chain at the block `currentBlock`, and the
listener would ask for windows of `size` blocks. -/
structure Positioned (config : EvmIndexerConfig) (listener tokenId : String) (c : Nat) (size : Int)
    (currentBlock : Nat) (w : World) : Prop where
  cursor : w.cursorOf tokenId = some c
  head : w.chain.head = currentBlock
  size : (w.listeners listener).learnedMaxBlockRange.getD config.maxBlockRange = size

/-- The listener is about to resume the token. -/
structure Resumes (config : EvmIndexerConfig) (listener : String) (token : Token) (c : Nat)
    (size : Int) (currentBlock : Nat) (w : World) : Prop
    extends Positioned config listener token.id c size currentBlock w where
  registered : w.db.tokens.get (.id token.id) = some token
  evm : token.blockchain = .EVM
  idle : token.id ∉ (w.listeners listener).processingTokens

/-- The last block that may be indexed. -/
def EvmIndexerConfig.indexable (config : EvmIndexerConfig) (currentBlock : Nat) : Int :=
  currentBlock - config.confirmations

section Run

variable {A : Call → Input → World → Prop} {env : ProcessEnv} {config : EvmIndexerConfig}
  {listener : String} {token : Token} {c : Nat} {size : Int} {currentBlock : Nat} {w : World}

theorem exec_tokenFindUnique (id : String) (i : Input) (w : World) :
    (exec (.stmt (.tokenFindUnique id)) i w).2 = w ∧
      ∀ r, (exec (.stmt (.tokenFindUnique id)) i w).1 = .ok r → r = w.db.tokens.get (.id id) := by
  refine ⟨exec_snd (P := fun w w' => w' = w) rfl rfl, ?_⟩
  intro r hok
  rw [exec_ok hok] at hok
  exact (Except.ok.inj hok).symm

theorem under_markFailure (tokenId : String) :
    Under exec A (TokenEventCursorRepository.markFailure tokenId)
      (fun _ w' => w'.cursorOf tokenId = w.cursorOf tokenId) w := by
  unfold TokenEventCursorRepository.markFailure
  refine under_bind.mpr (under_perform.mpr ?_)
  intro i _
  rw [exec_of_inProcess rfl]
  refine under_perform.mpr ?_
  intro j _
  exact cursorOf_update_none rfl j w

/-- The part of a run that has the token: before the cursor is loaded nothing moves it, and after
the scan nothing does. -/
theorem under_processToken {Q : Except JsError Unit → Option Nat → Prop}
    (hconfig : loadEvmIndexerConfig env = .ok config)
    (hw : Positioned config listener token.id c size currentBlock w)
    (htoken : w.db.tokens.get (.id token.id) = some token) (hevm : token.blockchain = .EVM)
    (hfail : ∀ e, Q (.error e) (some c))
    (hindex : ∀ cursor, cursor.lastProcessedBlock = c →
      Under exec A (EventListener.indexFrom listener env config token cursor)
        (fun r w' => Q r (w'.cursorOf token.id)) w) :
    Under exec A (EventListener.processToken listener env token.id)
      (fun r w' => Q r (w'.cursorOf token.id)) w := by
  unfold EventListener.processToken
  refine under_bind.mpr (under_perform.mpr ?_)
  intro i _
  obtain ⟨hsame, hfound⟩ := exec_tokenFindUnique token.id i w
  rw [hsame]
  cases hok : (exec (.stmt (.tokenFindUnique token.id)) i w).1 with
  | error e =>
    show Q (.error e) (w.cursorOf token.id)
    rw [hw.cursor]
    exact hfail e
  | ok found =>
    have hrow := hfound found hok
    rw [htoken] at hrow
    subst hrow
    dsimp only
    rw [if_neg (by simp [hevm]), hconfig]
    refine under_bind.mpr (under_ofExcept.mpr ?_)
    obtain ⟨cursor, hget, hblock⟩ := Option.map_eq_some_iff.mp hw.cursor
    refine under_bind.mpr (under_perform.mpr ?_)
    intro j _
    obtain ⟨hsame, hopened⟩ := exec_openCursor (i := j) hget
    rw [hsame]
    cases hok : (exec (.stmt (.tokenEventCursorUpsert token.id)) j w).1 with
    | error e =>
      show Q (.error e) (w.cursorOf token.id)
      rw [hw.cursor]
      exact hfail e
    | ok opened =>
      obtain rfl := hopened opened hok
      refine under_tryCatch.mpr ((hindex opened hblock).mono ?_)
      intro r w₁ hQ
      cases r with
      | ok _ => exact hQ
      | error e =>
        -- the error is noted, whether or not that succeeds, and thrown on
        refine under_bind.mpr (under_tryCatch.mpr (under_bind.mpr ((under_markFailure token.id).mono ?_)))
        intro r w₂ hkept
        cases r <;>
        · show Q (.error e) (w₂.cursorOf token.id)
          rw [hkept]
          exact hQ

theorem effect_processingAdd {i : Input} (h : token.id ∉ (w.listeners listener).processingTokens) :
    (Call.processingAdd listener token.id).effect i w =
      (.ok true, w.setListener listener { w.listeners listener with
        processingTokens := token.id :: (w.listeners listener).processingTokens }) := by
  simp only [Call.effect]
  rw [if_neg (by simpa using h)]

theorem Positioned.processing (hw : Positioned config listener token.id c size currentBlock w)
    (tokens : List String) : Positioned config listener token.id c size currentBlock
      (w.setListener listener { w.listeners listener with processingTokens := tokens }) := by
  refine ⟨hw.cursor, hw.head, ?_⟩
  simp only [World.setListener, if_true]
  exact hw.size

/-- **A whole run** does to the cursor what its scan does. -/
theorem under_processTokenEvents {Q : Except JsError Unit → Option Nat → Prop}
    (hconfig : loadEvmIndexerConfig env = .ok config)
    (hw : Resumes config listener token c size currentBlock w)
    (hfail : ∀ e, Q (.error e) (some c))
    (hindex : ∀ cursor w₁, cursor.lastProcessedBlock = c →
      Positioned config listener token.id c size currentBlock w₁ →
      Under exec A (EventListener.indexFrom listener env config token cursor)
        (fun r w' => Q r (w'.cursorOf token.id)) w₁) :
    Under exec A (EventListener.processTokenEvents listener env token.id)
      (fun r w' => Q r (w'.cursorOf token.id)) w := by
  unfold EventListener.processTokenEvents
  refine under_bind.mpr (under_perform.mpr ?_)
  intro i _
  rw [exec_of_inProcess rfl, effect_processingAdd hw.idle]
  have hpositioned := hw.toPositioned.processing (token.id :: (w.listeners listener).processingTokens)
  refine under_tryFinally.mpr ((under_processToken hconfig hpositioned hw.registered hw.evm hfail
    fun cursor hcursor => hindex cursor _ hcursor hpositioned).mono ?_)
  intro r w₁ hQ
  refine under_perform.mpr ?_
  intro j _
  rw [exec_of_inProcess rfl]
  exact hQ

/-- Where the windows of an undisturbed run end that starts a block before the cursor `c`. -/
def leavesAt (c : Nat) (head size : Int) (maxWindows : Nat) : Nat :=
  if head < c - 1 then c else (scanEnd (c - 1) head size maxWindows).toNat

theorem under_indexFrom (hc : 0 < c) (hsize : 1 ≤ size) (hwindows : 1 ≤ config.maxWindowsPerRun)
    {cursor : TokenEventCursor} (hcursor : cursor.lastProcessedBlock = c)
    (hw : Positioned config listener token.id c size currentBlock w) :
    Under exec Undisturbed (EventListener.indexFrom listener env config token cursor)
      (fun r w' => r = .ok () → w'.cursorOf token.id = some (leavesAt c
        (config.indexable currentBlock) size config.maxWindowsPerRun)) w := by
  have hfrom : EventListener.fromBlock config cursor = c - 1 := by
    unfold EventListener.fromBlock
    rw [hcursor, if_neg (by omega)]
  unfold EventListener.indexFrom
  refine under_bind.mpr (under_perform.mpr ?_)
  intro i hi
  rw [exec_of_fault_none hi]
  show Under exec Undisturbed (if ((w.chain.head : Int) - config.confirmations <
    EventListener.fromBlock config cursor) then _ else _) _ w
  rw [hfrom, hw.head, leavesAt, EvmIndexerConfig.indexable]
  by_cases hbehind : (currentBlock : Int) - config.confirmations < c - 1
  · rw [if_pos hbehind, if_pos hbehind]
    exact fun _ => hw.cursor
  · rw [if_neg hbehind, if_neg hbehind]
    refine under_bind.mpr (under_perform.mpr ?_)
    intro j _
    rw [exec_of_inProcess rfl]
    show Under exec Undisturbed (Prog.bind (scanLogWindows _ _ _ _ _
      ((w.listeners listener).learnedMaxBlockRange.getD config.maxBlockRange) _) _) _ w
    rw [hw.size]
    refine under_bind.mpr ((under_scanFrom listener env token 0 none hsize
      (by rw [hw.cursor]; rfl)).mono ?_)
    intro r w₁ hend
    cases r with
    | error e => exact fun h => by cases h
    | ok a =>
      intro _
      rw [hend a rfl, if_pos ⟨by omega, by omega⟩]

/-- A run that finds the head more than one block behind the cursor does nothing. -/
theorem under_indexFrom_behind (hc : 0 < c) (hbehind : config.indexable currentBlock + 1 < c)
    {cursor : TokenEventCursor} (hcursor : cursor.lastProcessedBlock = c)
    (hw : Positioned config listener token.id c size currentBlock w) :
    Under exec A (EventListener.indexFrom listener env config token cursor)
      (fun _ w' => w'.cursorOf token.id = some c) w := by
  have hfrom : EventListener.fromBlock config cursor = c - 1 := by
    unfold EventListener.fromBlock
    rw [hcursor, if_neg (by omega)]
  unfold EventListener.indexFrom
  refine under_bind.mpr (under_perform.mpr ?_)
  intro i _
  have hsame : (exec .getBlockNumber i w).2 = w := exec_snd (P := fun w w' => w' = w) rfl rfl
  rw [hsame]
  cases hok : (exec .getBlockNumber i w).1 with
  | error e => exact hw.cursor
  | ok block =>
    rw [exec_ok hok] at hok
    obtain rfl : w.chain.head = block := Except.ok.inj hok
    rw [EvmIndexerConfig.indexable, ← hw.head] at hbehind
    dsimp only
    rw [hfrom, if_pos (by omega)]
    exact hw.cursor

end Run

/-! ## A run that leaves the cursor lower -/

section Lowered

variable {config : EvmIndexerConfig} {listener : String} {token : Token} {c : Nat}
  {currentBlock : Nat} {w : World}

/-- Any input. -/
abbrev anyInput (_ : Call) (_ : Input) (_ : World) : Prop := True

/-- A provider may insist until the window is a single block. -/
theorem can_fetchWindow {pos finish : Int} (hpos : pos ≤ finish) (fuel : Nat) {size : Int}
    (hsize : 1 ≤ size) (hfuel : size.toNat ≤ fuel) :
    Can exec anyInput
      (fetchWindow (fun first last => perform (Call.getLogs token.contractAddress first last))
        (fun newRange _ => perform (Call.learnMaxBlockRange listener newRange)) pos finish fuel size)
      (fun r w' => r = .ok (w.chain.getLogs token.contractAddress pos pos, pos, 1) ∧ w'.db = w.db ∧
        w'.chain = w.chain) w := by
  induction fuel generalizing size w with
  | zero => omega
  | succ fuel ih =>
    refine can_tryCatch.mpr (can_bind.mpr (can_perform.mpr ?_))
    by_cases hone : size = 1
    · subst hone
      have hlast : windowEnd pos 1 finish = pos := by
        unfold windowEnd
        split <;> omega
      refine ⟨{}, trivial, ?_⟩
      rw [exec_of_fault_none rfl, hlast]
      exact ⟨rfl, rfl, rfl⟩
    · refine ⟨{ fault := some { message := "block range" } }, trivial, ?_⟩
      show Can exec anyInput (if (decide (1 < size) && isBlockRangeLimitError (.error "block range")) =
        true then _ else _) _ w
      have hrange : isBlockRangeLimitError (.error "block range") = true := by decide
      rw [hrange, Bool.and_true, if_pos (by simp; omega)]
      refine can_bind.mpr (can_perform.mpr ⟨{}, trivial, ?_⟩)
      rw [exec_of_inProcess rfl]
      have hhalf : 1 ≤ size / 2 := by omega
      have hless : (size / 2).toNat ≤ fuel := by omega
      exact ih (w := w.setListener listener _) hhalf hless

/-- The first window is a single block, and nothing comes after it. -/
theorem can_scanFrom (env : ProcessEnv) {finish pos size : Int} {remaining : Nat} (hpos : pos ≤ finish)
    (hlow : pos < 2 ^ 63) (hsize : 1 ≤ size) (hcursor : (w.cursorOf token.id).isSome)
    (hempty : w.chain.getLogs token.contractAddress pos pos = []) :
    Can exec anyInput
      (scanFrom (fun first last => perform (Call.getLogs token.contractAddress first last))
        (EventListener.onWindow env token)
        (fun newRange _ => perform (Call.learnMaxBlockRange listener newRange)) finish (remaining + 1)
        pos size 0 none)
      (fun _ w' => w'.cursorOf token.id = some pos.toNat) w := by
  unfold scanFrom
  rw [if_pos hpos]
  refine can_bind.mpr ((can_fetchWindow hpos _ hsize le_rfl).mono ?_)
  intro r w₁ h
  obtain ⟨rfl, hdb, hchain⟩ := h
  rw [hempty]
  refine can_bind.mpr ?_
  -- the window is empty, and the cursor is moved to it
  have hmarked : Can exec anyInput (EventListener.onWindow env token [] pos pos)
      (fun r w' => r = .ok () ∧ w'.cursorOf token.id = some pos.toNat) w₁ := by
    have hcursor₁ : (w₁.cursorOf token.id).isSome := by
      rw [World.cursorOf, World.index, hdb]
      exact hcursor
    have hwindow : Under exec Undisturbed (EventListener.onWindow env token [] pos pos)
        (fun r w' => r = .ok () ∧ w'.cursorOf token.id = some pos.toNat) w₁ := by
      refine under_bind.mpr (under_bind.mpr ((ends_markSuccess (fun _ _ _ h => h) (by omega) hcursor₁).mono ?_))
      intro r w' h
      obtain ⟨⟨a, rfl⟩, hmoved⟩ := h
      exact ⟨rfl, hmoved⟩
    exact (hwindow.can fun _ _ => ⟨{}, rfl⟩).weaken fun _ _ _ _ => trivial
  refine hmarked.mono ?_
  intro r w₂ h
  obtain ⟨rfl, hmoved⟩ := h
  show Can exec anyInput (scanFrom _ _ _ finish remaining (pos + 1) 1 _ _) _ w₂
  cases remaining with
  | zero => exact hmoved
  | succ remaining =>
    unfold scanFrom
    by_cases hnext : pos + 1 ≤ finish
    · -- the next window is refused
      rw [if_pos hnext]
      refine can_bind.mpr (can_tryCatch.mpr (can_bind.mpr (can_perform.mpr ?_)))
      exact ⟨{ fault := some { message := "timeout" } }, trivial, hmoved⟩
    · rw [if_neg hnext]
      exact hmoved

theorem can_processToken {env : ProcessEnv} {size : Int} {d : Nat}
    (hconfig : loadEvmIndexerConfig env = .ok config)
    (hw : Positioned config listener token.id c size currentBlock w)
    (htoken : w.db.tokens.get (.id token.id) = some token) (hevm : token.blockchain = .EVM)
    (hindex : ∀ cursor, cursor.lastProcessedBlock = c →
      Can exec anyInput (EventListener.indexFrom listener env config token cursor)
        (fun _ w' => w'.cursorOf token.id = some d) w) :
    Can exec anyInput (EventListener.processToken listener env token.id)
      (fun _ w' => w'.cursorOf token.id = some d) w := by
  unfold EventListener.processToken
  have hfound : (Call.stmt (.tokenFindUnique token.id)).effect {} w = (.ok (some token), w) := by
    simp only [Call.effect, Stmt.exec, htoken]
  refine can_bind.mpr (can_perform.mpr ⟨{}, trivial, ?_⟩)
  rw [exec_of_fault_none rfl, hfound]
  dsimp only
  rw [if_neg (by simp [hevm]), hconfig]
  refine can_bind.mpr (can_ofExcept.mpr ?_)
  obtain ⟨cursor, hget, hblock⟩ := Option.map_eq_some_iff.mp hw.cursor
  refine can_bind.mpr (can_perform.mpr ⟨{}, trivial, ?_⟩)
  rw [exec_of_fault_none rfl, effect_openCursor hget]
  refine can_tryCatch.mpr ((hindex cursor hblock).mono ?_)
  intro r w₁ hd
  cases r with
  | ok _ => exact hd
  | error e =>
    have hnoted := ((under_markFailure (A := anyInput) (w := w₁) token.id).can fun _ _ => ⟨{}, trivial⟩)
    refine can_bind.mpr (can_tryCatch.mpr (can_bind.mpr (hnoted.mono ?_)))
    intro r w₂ hkept
    rw [hd] at hkept
    cases r <;> exact hkept

/-- A run can leave the cursor where its scan can leave it. -/
theorem can_processTokenEvents {env : ProcessEnv} {size : Int} {d : Nat}
    (hconfig : loadEvmIndexerConfig env = .ok config)
    (hw : Resumes config listener token c size currentBlock w)
    (hindex : ∀ cursor w₁, cursor.lastProcessedBlock = c →
      Positioned config listener token.id c size currentBlock w₁ → w₁.chain = w.chain →
      Can exec anyInput (EventListener.indexFrom listener env config token cursor)
        (fun _ w' => w'.cursorOf token.id = some d) w₁) :
    Can exec anyInput (EventListener.processTokenEvents listener env token.id)
      (fun _ w' => w'.cursorOf token.id = some d) w := by
  unfold EventListener.processTokenEvents
  refine can_bind.mpr (can_perform.mpr ⟨{}, trivial, ?_⟩)
  rw [exec_of_inProcess rfl, effect_processingAdd hw.idle]
  have hpositioned := hw.toPositioned.processing (token.id :: (w.listeners listener).processingTokens)
  refine can_tryFinally ((can_processToken hconfig hpositioned hw.registered hw.evm
    fun cursor hcursor => hindex cursor _ hcursor hpositioned rfl).mono ?_)
  intro r w₁ hd
  refine can_perform.mpr ⟨{}, trivial, ?_⟩
  rw [exec_of_inProcess rfl]
  exact ⟨rfl, hd⟩

/-- A run that has anything to scan can leave the cursor a block lower. -/
theorem can_indexFrom {env : ProcessEnv} {size : Int} (hc : 0 < c) (hlow : c < 2 ^ 63) (hsize : 1 ≤ size)
    (hwindows : 1 ≤ config.maxWindowsPerRun) (hscans : ¬ config.indexable currentBlock + 1 < c)
    {cursor : TokenEventCursor} (hcursor : cursor.lastProcessedBlock = c)
    (hw : Positioned config listener token.id c size currentBlock w)
    (hempty : w.chain.getLogs token.contractAddress (c - 1) (c - 1) = []) :
    Can exec anyInput (EventListener.indexFrom listener env config token cursor)
      (fun _ w' => w'.cursorOf token.id = some (c - 1)) w := by
  have hfrom : EventListener.fromBlock config cursor = c - 1 := by
    unfold EventListener.fromBlock
    rw [hcursor, if_neg (by omega)]
  rw [EvmIndexerConfig.indexable] at hscans
  unfold EventListener.indexFrom
  refine can_bind.mpr (can_perform.mpr ⟨{}, trivial, ?_⟩)
  rw [exec_of_fault_none rfl]
  show Can exec anyInput (if ((w.chain.head : Int) - config.confirmations <
    EventListener.fromBlock config cursor) then _ else _) _ w
  rw [hfrom, hw.head, if_neg (by omega)]
  refine can_bind.mpr (can_perform.mpr ⟨{}, trivial, ?_⟩)
  rw [exec_of_inProcess rfl]
  show Can exec anyInput (Prog.bind (scanLogWindows _ _ _ _ _
    ((w.listeners listener).learnedMaxBlockRange.getD config.maxBlockRange) _) _) _ w
  rw [hw.size]
  obtain ⟨windows, hw'⟩ : ∃ n, config.maxWindowsPerRun = n + 1 := ⟨_, (Nat.sub_add_cancel hwindows).symm⟩
  rw [scanLogWindows, hw']
  refine can_bind.mpr ((can_scanFrom env (by omega) (by omega) hsize (by rw [hw.cursor]; rfl) hempty).mono ?_)
  intro r w₁ hd
  have hlow : ((c : Int) - 1).toNat = c - 1 := by omega
  rw [hlow] at hd
  cases r <;> exact hd

end Lowered

/-! ## Exactly when the cursor advances -/

/-- The sample system with a cursor at `c`, a chain of empty blocks up to `currentBlock`, and
listeners that have learned the window size `size`. -/
def World.resuming (c : Nat) (size : Int) (currentBlock : Nat) : World :=
  { World.onChain (List.replicate (currentBlock + 1) ⟨0, []⟩) with
    db := { Db.sample with tokenEventCursors := ⟨[⟨"token", c, none, none, 0⟩], by simp⟩ }
    listeners := fun _ => { learnedMaxBlockRange := some size } }

theorem resumes_resuming (config : EvmIndexerConfig) (listener : String) (c : Nat) (size : Int)
    (currentBlock : Nat) :
    Resumes config listener .sample c size currentBlock (World.resuming c size currentBlock) where
  cursor := rfl
  head := by simp [World.resuming, World.onChain, Chain.head]
  size := rfl
  registered := rfl
  evm := rfl
  idle := by simp [World.resuming]

theorem getLogs_resuming (address : Option String) (c : Nat) (size : Int) (currentBlock : Nat)
    (first last : Int) :
    (World.resuming c size currentBlock).chain.getLogs address first last = [] := by
  rw [Chain.getLogs, List.flatMap_eq_nil_iff]
  intro n _
  rw [Chain.logsOf]
  split
  · next b hb =>
    have hmem := List.mem_of_getElem? hb
    rw [show (World.resuming c size currentBlock).chain = List.replicate (currentBlock + 1) ⟨0, []⟩ from
      rfl, List.mem_replicate] at hmem
    rw [hmem.2]
    rfl
  · rfl

/-- The cursor of the token is not lower than `c` afterwards, and higher if the run ends without an
error while the indexable head is above it. -/
def Advances (tokenId : String) (c : Nat) (head : Int) (r : Except JsError Unit) (w : World) : Prop :=
  ∃ c', w.cursorOf tokenId = some c' ∧ c ≤ c' ∧ (r = .ok () → (c : Int) < head → c < c')

/-- **When a run of the listener advances its cursor.**  Whatever fails in it, every run from the
cursor `c`, a number that its column holds, advances exactly if the indexable head is more than a block
behind the cursor, so that there is nothing to scan: otherwise the provider may insist on a window of
one block, which the run writes to the cursor, and fail then.  A run in which no call fails and that ends
without an error advances exactly if, besides, the head is at the cursor or above it and the windows of
the run together reach back to the cursor, and beyond it where the head is beyond. -/
theorem advances_iff (env : ProcessEnv) (config : EvmIndexerConfig)
    (hconfig : loadEvmIndexerConfig env = .ok config) (listener : String) (c : Nat) (hc : 0 < c)
    (hlow : c < 2 ^ 63) (size : Int) (hsize : 1 ≤ size) (currentBlock : Nat) :
    ((∀ token w inp, Resumes config listener token c size currentBlock w →
        Advances token.id c (config.indexable currentBlock)
          ((EventListener.processTokenEvents listener env token.id).run exec inp w).1
          ((EventListener.processTokenEvents listener env token.id).run exec inp w).2) ↔
      config.indexable currentBlock + 1 < c) ∧
    ∀ token w inp, Resumes config listener token c size currentBlock w →
      (∀ m ∈ (EventListener.processTokenEvents listener env token.id).trace exec inp w,
        m.input.fault = none) →
      ((EventListener.processTokenEvents listener env token.id).run exec inp w).1 = .ok () →
      (Advances token.id c (config.indexable currentBlock) (.ok ())
          ((EventListener.processTokenEvents listener env token.id).run exec inp w).2 ↔
        config.indexable currentBlock + 1 < c ∨
          c ≤ config.indexable currentBlock ∧ 2 ≤ config.maxWindowsPerRun * size ∧
            (c < config.indexable currentBlock → 3 ≤ config.maxWindowsPerRun * size)) := by
  obtain ⟨-, hwindows⟩ := one_le_of_config hconfig
  refine ⟨⟨?_, ?_⟩, ?_⟩
  · intro hall
    by_contra hscans
    have hlowered : Can exec anyInput (EventListener.processTokenEvents listener env Token.sample.id)
        (fun _ w' => w'.cursorOf Token.sample.id = some (c - 1))
        (World.resuming c size currentBlock) := by
      refine can_processTokenEvents hconfig (resumes_resuming config listener c size currentBlock) ?_
      intro cursor w₁ hcursor hw₁ hchain
      refine can_indexFrom hc hlow hsize hwindows hscans hcursor hw₁ ?_
      rw [hchain]
      exact getLogs_resuming _ _ _ _ _ _
    obtain ⟨inp, -, hend⟩ := hlowered.run
    obtain ⟨c', hc', hle, -⟩ := hall .sample _ inp (resumes_resuming config listener c size currentBlock)
    rw [hend, Option.some.injEq] at hc'
    omega
  · intro hbehind token w inp hw
    have hrun := (under_processTokenEvents (A := anyInput) (Q := fun _ d => d = some c) hconfig hw
      (fun _ => rfl) fun cursor w₁ hcursor hw₁ => under_indexFrom_behind hc hbehind hcursor hw₁).run inp
      fun _ _ => trivial
    exact ⟨c, hrun, le_rfl, fun _ h => by omega⟩
  · intro token w inp hw hfaults hok
    have hrun := (under_processTokenEvents (A := Undisturbed)
      (Q := fun r d => r = .ok () → d = some (leavesAt c (config.indexable currentBlock) size
        config.maxWindowsPerRun)) hconfig hw (fun _ h => by cases h)
      fun cursor w₁ hcursor hw₁ => under_indexFrom hc hsize hwindows hcursor hw₁).run inp hfaults
      hok
    have hproduct : 0 < (config.maxWindowsPerRun : Int) * size := Int.mul_pos (by omega) (by omega)
    simp only [Advances, hrun, Option.some.injEq, exists_eq_left', true_implies, leavesAt, scanEnd]
    generalize (config.maxWindowsPerRun : Int) * size = total at hproduct
    generalize config.indexable currentBlock = head
    by_cases hbehind : head < c - 1
    · rw [if_pos hbehind]
      omega
    · rw [if_neg hbehind]
      omega

/-- A run of one process that finds the head a block behind its cursor: nothing fails, and the
cursor is left at the head. -/
theorem lowered_cursor :
    Resumes ⟨0, 0, 2000, 25⟩ "listener" .sample 2 2000 1 (World.resuming 2 2000 1) ∧
    ((EventListener.processTokenEvents "listener" (fun _ => none) Token.sample.id).run exec
      (fun _ => {}) (World.resuming 2 2000 1)).1 = .ok () ∧
    ¬ Advances Token.sample.id 2 ((⟨0, 0, 2000, 25⟩ : EvmIndexerConfig).indexable 1) (.ok ())
      ((EventListener.processTokenEvents "listener" (fun _ => none) Token.sample.id).run exec
        (fun _ => {}) (World.resuming 2 2000 1)).2 := by
  have hrun : ((EventListener.processTokenEvents "listener" (fun _ => none) Token.sample.id).run exec
      (fun _ => {}) (World.resuming 2 2000 1)).1 = .ok () ∧
    ((EventListener.processTokenEvents "listener" (fun _ => none) Token.sample.id).run exec
      (fun _ => {}) (World.resuming 2 2000 1)).2.cursorOf Token.sample.id = some 1 := by
    decide +kernel
  refine ⟨resumes_resuming _ _ _ _ _, hrun.1, ?_⟩
  intro h
  obtain ⟨c', hc', hle, -⟩ := h
  rw [hrun.2, Option.some.injEq] at hc'
  omega

/-- With the default settings a run that nothing disturbs moves its cursor on to the head. -/
theorem advances_iff_defaults :
    Advances Token.sample.id 1 ((⟨0, 0, 2000, 25⟩ : EvmIndexerConfig).indexable 3) (.ok ())
      ((EventListener.processTokenEvents "listener" (fun _ => none) Token.sample.id).run exec
        (fun _ => {}) (World.resuming 1 2000 3)).2 := by
  refine ((advances_iff (fun _ => none) ⟨0, 0, 2000, 25⟩ (by decide) "listener" 1 (by decide) (by decide) 2000
    (by decide) 3).2 .sample _ (fun _ => {}) (resumes_resuming _ _ _ _ _) ?_ (by decide +kernel)).mpr
    (.inr (by decide))
  intro m hm
  obtain ⟨n, hn⟩ := input_of_mem_trace hm
  rw [hn]

end TransactionSimulator
