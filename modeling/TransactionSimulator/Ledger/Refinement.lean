import TransactionSimulator.Ledger.Statements
import TransactionSimulator.Rights

/-!
# The running system refines the ledger

`World.ledger` reads the ledger off the world.  Every call that a process makes is one change of
the ledger, of a kind that the process may make (`Task.kinds`), and backed by an answer of the
chain where the kind needs one.  For most processes this follows from their rights alone.  The
confirmation worker has to be followed through its conflicts (`safe_processTransaction`): what
it writes rests on what it has read and been answered before, while others write between.

* `respects_ledger`: the refinement, one call at a time.
* `ledger_path`, `sound_after`: whole runs.
-/

namespace TransactionSimulator

open Concurrent Prog Relational TransactionStatus Ledger

def World.ledger (w : World) : Ledger where
  row id := w.db.transactions.get (.id id)
  events := w.db.outboxEvents.rows
  answers := w.answers
  chainOf tokenId := (w.db.tokens.get (.id tokenId)).map Token.blockchain

theorem World.ledger_id {w : World} {id : String} {t : Transaction} (h : w.ledger.row id = some t) :
    t.id = id := Db.id_of_get h

/-! ## Calls that leave the ledger alone -/

/-- The statements that write rows or events. -/
def Stmt.onLedger : Stmt → Bool
  | .transactionCreate _ | .transactionUpdateMany _ _ _ | .outboxEventCreate _ => true
  | _ => false

theorem Stmt.exec_frame {s : Stmt} (h : s.onLedger = false) (env : StmtEnv) (db : Db) :
    (s.exec env db).2.transactions = db.transactions ∧
      (s.exec env db).2.outboxEvents = db.outboxEvents ∧ (s.exec env db).2.tokens = db.tokens := by
  have hsame := s.exec_sameBut env db
  refine ⟨hsame.transactions ?_, hsame.outboxEvents ?_, hsame.tokens⟩
  all_goals
    cases s with
    | transactionCreate | transactionUpdateMany | outboxEventCreate => cases h
    | _ => simp [Stmt.target]

theorem ledger_stmt {s : Stmt} (h : s.onLedger = false) (i : Input) (w : World) :
    ((Call.stmt s).effect i w).2.ledger = w.ledger := by
  obtain ⟨ht, he, hk⟩ := Stmt.exec_frame h ⟨w.clock, i.uuid⟩ w.db
  simp only [Call.effect, World.ledger]
  rw [ht, he, hk]

/-- The calls that are neither statements nor questions to a chain. -/
def Call.offLedger : Call → Bool
  | .stmt _ | .transaction _ | .getTransaction _ _ => false
  | _ => true

theorem ledger_offLedger {o : Call} (h : o.offLedger = true) (i : Input) (w : World) :
    (o.effect i w).2.ledger = w.ledger := by
  cases o with
  | stmt | transaction | getTransaction => cases h
  | queueTake =>
    simp only [Call.effect]
    split
    · split <;> rfl
    · rfl
  | submitTransfer | generateWallet | balanceOf | nativeBalance =>
    simp only [Call.effect]
    split <;> rfl
  | processingAdd =>
    simp only [Call.effect]
    split <;> rfl
  | _ => rfl

/-! ## Calls that write it -/

variable {K : List Kind} {w : World}

/-- A write of a row, in the tables and in the ledger. -/
theorem ledger_put {t : Transaction} {table : Table Transaction TransactionKey Transaction.keys}
    (rows : ∀ i, table.get (.id i) = if i = t.id then some t else w.db.transactions.get (.id i))
    (references) (events : Table OutboxEvent String fun e => [e.id]) :
    World.ledger { w with db := { w.db with
      transactions := table, outboxEvents := events, references } }
      = { w.ledger.put t with events := events.rows } := by
  have hrow : (fun id => table.get (.id id)) = (w.ledger.put t).row := by
    funext i
    rw [put_row]
    exact rows i
  show Ledger.mk _ _ _ _ = _
  rw [hrow]
  rfl

/-- **The update of a row** is a step of the kind that its data and its condition make. -/
theorem change_update {k : Kind} (hk : k ∈ K) (hne : k ≠ .confirm) {id : String}
    {status : List TransactionStatus} {data : TransactionUpdateInput}
    (h : ∀ t, w.ledger.row id = some t → t.status ∈ status →
      Moves k t (data.apply t) ∧ w.ledger.Evidence t k) (i : Input) :
    Change K w.ledger ((Call.stmt (.transactionUpdateMany id status data)).effect i w).2.ledger := by
  have hu := w.db.updateTransactions_spec id status data
  simp only [Call.effect, Stmt.exec]
  generalize w.db.updateTransactions id status data = r at hu
  cases hu with
  | missed | refused | outOfRange => exact .refl _
  | @matched t table found hs free rows references =>
    obtain ⟨moves, evidence⟩ := h t found hs
    have hid : t.id = id := Db.id_of_get found
    subst hid
    have hput := ledger_put (t := data.apply t) rows references w.db.outboxEvents
    rw [hput]
    exact .step hk (.move hne found moves evidence)

theorem change_create (hk : Kind.create ∈ K) {data : TransactionCreateInput}
    (hs : data.status = PENDING) (i : Input) :
    Change K w.ledger ((Call.stmt (.transactionCreate data)).effect i w).2.ledger := by
  have hc := w.db.createTransaction_spec ⟨w.clock, i.uuid⟩ data
  simp only [Call.effect, Stmt.exec]
  generalize w.db.createTransaction ⟨w.clock, i.uuid⟩ data = r at hc
  cases hc with
  | refused => exact .refl _
  | done free rows references =>
    have hput := ledger_put (t := Db.newTransaction ⟨w.clock, i.uuid⟩ data) rows references
      w.db.outboxEvents
    rw [hput]
    exact .step hk (.create free ⟨hs, rfl, rfl, rfl, rfl, rfl, rfl, rfl⟩)

/-- **The transaction that confirms** is a confirmation of the row under the hash, if the chain
has answered for that row what the transaction writes. -/
theorem change_persist (hk : Kind.confirm ∈ K) {tx : Transaction} {result : BlockchainTransaction}
    (h : ∀ t, w.db.transactions.get (.txHash (tx.txHash.getD "")) = some t →
      w.ledger.Answered t result) (hconf : result.status = .confirmed) (i : Input) :
    Change K w.ledger
      ((Call.transaction (ConfirmationProcessor.persistBody tx result)).effect i w).2.ledger := by
  have hp := persistBody_spec tx result ⟨w.clock, i.uuid⟩ w.db
  simp only [Call.effect]
  generalize ConfirmationProcessor.persistBody tx result ⟨w.clock, i.uuid⟩ w.db = r at hp
  cases hp with
  | noBlock | notFound | conflict | outOfRange | duplicate => exact .refl _
  | @done t blockNumber table events hblock found hs rows hevents references =>
    have hput := ledger_put
      (t := confirmedRow t (Js.number blockNumber) result.gasUsed w.clock) rows references events
    rw [hput, hevents]
    refine .step hk (.confirm (Db.get_txHash.mp found).1 (.confirm _ _ _ hs) ?_ (h t found) hconf
      ?_ rfl)
    · exact ⟨rfl, rfl, rfl⟩
    · rw [hblock]
      rfl

/-! ## Processes that follow their rights -/

theorem Writes.moves {k : Kind} {status : List TransactionStatus} {data : TransactionUpdateInput}
    (h : Writes k status data) {t : Transaction} (hs : t.status ∈ status) :
    Moves k t (data.apply t) := by
  cases h with
  | submit hash at_ => exact .submit hash at_ (List.mem_singleton.mp hs)
  | claim at_ => exact .claim at_ (List.mem_singleton.mp hs)
  | fail reason at_ => exact .fail reason at_ (by simpa using hs)
  | expire reason at_ => exact .expire reason at_ (List.mem_singleton.mp hs)

theorem Writes.ne_confirm {k : Kind} {status : List TransactionStatus}
    {data : TransactionUpdateInput} (h : Writes k status data) : k ≠ .confirm := by
  cases h <;> decide

theorem Writes.evidence {k : Kind} {status : List TransactionStatus}
    {data : TransactionUpdateInput} (h : Writes k status data) (hk : k ≠ .claim) (l : Ledger)
    (t : Transaction) : l.Evidence t k := by
  cases h with
  | claim => exact absurd rfl hk
  | submit | fail | expire => exact trivial

/-- **A call that the rights cover** is a change of the ledger, where no right needs an answer. -/
theorem change_of_permitted {env : ProcessEnv} {A : List Right} {o : Call}
    (h : Permitted env A o) (hA : ∀ k, .write k ∈ A → k ∈ K) (hclaim : .write .claim ∉ A)
    (hconfirm : .write .confirm ∉ A) (i : Input) (w : World) :
    Change K w.ledger (exec o i w).2.ledger := by
  refine exec_snd (P := fun w w' => Change K w.ledger w'.ledger) (.refl _) ?_
  cases o with
  | stmt s =>
    by_cases hs : s.onLedger = false
    · rw [ledger_stmt hs]
      exact .refl _
    · cases s with
      | transactionCreate data => exact change_create (hA _ h.1) h.2 i
      | transactionUpdateMany id status data =>
        obtain ⟨k, hk, hw⟩ := h
        have hne : k ≠ .claim := by
          rintro rfl
          exact hclaim hk
        refine change_update (hA k hk) hw.ne_confirm ?_ i
        exact fun t _ hs => ⟨hw.moves hs, hw.evidence hne _ t⟩
      | outboxEventCreate => exact h.elim
      | _ => exact absurd rfl hs
  | transaction body => exact absurd h.1 hconfirm
  | getTransaction chain txHash =>
    simp only [Call.effect]
    split
    · exact .answer _ _
    · exact .refl _
  | _ =>
    rw [ledger_offLedger rfl]
    exact .refl _

/-- The kinds of all writes. -/
def allKinds : List Kind := [.create, .submit, .claim, .confirm, .revert, .fail, .expire]

theorem mem_allKinds (k : Kind) : k ∈ allKinds := by cases k <;> decide

/-- The worlds before and after a change of the ledger of one of the kinds `K`. -/
def Moved (K : List Kind) (w w' : World) : Prop := Change K w.ledger w'.ledger

theorem moved_stmt {s : Stmt} (h : s.onLedger = false) (i : Input) (w : World) :
    Moved K w (exec (Call.stmt s) i w).2 := by
  refine exec_snd (.refl _) ?_
  rw [Moved, ledger_stmt h]
  exact .refl _

theorem safe_reads {α : Type} {p : Program α} (h : ∀ env, All (Permitted env []) p) (w : World) :
    Safe exec (Moved allKinds) (Moved K) p w :=
  (h fun _ => none).safe
    (fun _ ho i w => change_of_permitted ho (by simp) (by simp) (by simp) i w) w

/-! ## The confirmation worker -/

/-- The row that `tx` was read from still has the hash that it had. -/
def Bound (tx : Transaction) (l : Ledger) : Prop :=
  ∃ t, l.row tx.id = some t ∧ t.status ≠ PENDING ∧ t.txHash = tx.txHash ∧ t.tokenId = tx.tokenId

theorem Bound.change {tx : Transaction} {l l' : Ledger} (h : Change K l l') (hb : Bound tx l) :
    Bound tx l' := by
  obtain ⟨t, ht, hp, hhash, htoken⟩ := hb
  have hr := h.row tx.id
  rw [ht] at hr
  generalize hr' : l'.row tx.id = r' at hr
  cases hr with
  | same => exact ⟨t, hr', hp, hhash, htoken⟩
  | @moved k _ t' hk moves =>
    refine ⟨t', hr', moves.ne_pending, ?_, ?_⟩
    · rw [moves.txHash hp, hhash]
    · rw [moves.frame.2.2.1, htoken]

/-- What the worker knows once the adapter has answered: the row has the hash it asked about. -/
structure Backed (tx : Transaction) (result : BlockchainTransaction) (w : World) : Prop where
  bound : Bound tx w.ledger
  answered : w.ledger.Answered tx result

theorem Answered.change {l l' : Ledger} (h : Change K l l') {t : Transaction}
    {result : BlockchainTransaction} (ha : l.Answered t result) : l'.Answered t result := by
  obtain ⟨a, ha, hchain, hrest⟩ := ha
  refine ⟨a, h.answers ha, ?_, hrest⟩
  rw [h.chainOf]
  exact hchain

theorem stable_backed (tx : Transaction) (result : BlockchainTransaction) :
    Stable (Moved allKinds) (Moved K) (Backed tx result) where
  rely _ _ h hb := ⟨hb.bound.change h, Answered.change h hb.answered⟩
  guarantee _ _ h hb := ⟨hb.bound.change h, Answered.change h hb.answered⟩

theorem Backed.row {tx : Transaction} {result : BlockchainTransaction} (h : Backed tx result w)
    {t : Transaction} (ht : w.ledger.row tx.id = some t) : w.ledger.Answered t result := by
  obtain ⟨s, hs, _, hhash, htoken⟩ := h.bound
  rw [ht, Option.some.injEq] at hs
  subst hs
  obtain ⟨a, ha, hchain, htx, hresult⟩ := h.answered
  refine ⟨a, ha, ?_, ?_, hresult⟩
  · rw [htoken]
    exact hchain
  · rw [hhash]
    exact htx

/-- The row under the hash that the worker asked about is the row it read. -/
theorem Backed.row_of_hash {tx : Transaction} {result : BlockchainTransaction}
    (h : Backed tx result w) {t : Transaction}
    (ht : w.db.transactions.get (.txHash (tx.txHash.getD "")) = some t) :
    w.ledger.row tx.id = some t := by
  obtain ⟨s, hs, _, hhash, _⟩ := h.bound
  obtain ⟨a, _, _, htx, _⟩ := h.answered
  have hsome : w.db.transactions.get (.txHash (tx.txHash.getD "")) = some s := by
    rw [Db.get_txHash]
    refine ⟨(Db.id_of_get hs).symm ▸ hs, ?_⟩
    rw [hhash, htx]
    rfl
  rw [ht, Option.some.injEq] at hsome
  rw [hsome]
  exact hs

theorem safe_update {F : World → Prop} (hF : Stable (Moved allKinds) (Moved K) F) (hw : F w)
    {k : Kind} (hk : k ∈ K) (hne : k ≠ .confirm) {id : String} {status : List TransactionStatus}
    {data : TransactionUpdateInput} (h : ∀ w, F w → ∀ t, w.ledger.row id = some t →
      t.status ∈ status → Moves k t (data.apply t) ∧ w.ledger.Evidence t k) :
    Safe exec (Moved allKinds) (Moved K)
      (perform (Call.stmt (.transactionUpdateMany id status data))) w := by
  refine safe_perform ?_
  intro w₁ hw₁ i
  refine exec_snd (.refl _) ?_
  exact change_update hk hne (h w₁ (hF.star hw₁ hw)) i

theorem stable_sound : Stable (Moved allKinds) (Moved K) fun w => Sound w.ledger :=
  ⟨fun _ _ h hw => hw.change h, fun _ _ h hw => hw.change h⟩

theorem safe_now (w : World) : Safe exec (Moved allKinds) (Moved K) prisma.now w := by
  refine safe_reads ?_ w
  exact fun _ => all_perform trivial

theorem safe_afterUpdate (count : Nat) (id : String)
    (expected : Transaction → TransactionStatus) (w : World) :
    Safe exec (Moved allKinds) (Moved K)
      (if count = 1 then prisma.stmt (.transactionFindUniqueOrThrow (.id id))
        else TransactionRepository.rejectTransition prisma id expected) w := by
  refine safe_reads ?_ w
  intro env
  split
  · exact all_perform trivial
  · exact permitted_rejectTransition _ _

section Worker

variable {tx : Transaction} {result : BlockchainTransaction}

theorem safe_rereadAfterConflict (error : JsError) (claims : Bool) (w : World) :
    Safe exec (Moved allKinds) (Moved K)
      (ConfirmationProcessor.rereadAfterConflict tx error claims) w :=
  safe_reads (fun _ => permitted_rereadAfterConflict tx error claims) w

theorem safe_markConfirming (hk : Kind.claim ∈ K) (hconf : result.status = .confirmed)
    (hb : Backed tx result w) : Safe exec (Moved allKinds) (Moved K)
      (TransactionRepository.markConfirming tx.id) w := by
  refine Safe.bind (stable_backed tx result) (safe_now w) hb ?_
  intro now w' hb'
  refine Safe.bind stable_true ?_ trivial fun count w'' _ => safe_afterUpdate count _ _ w''
  refine safe_update (stable_backed tx result) hb' hk (by decide) ?_
  intro w₁ hb₁ t ht hs
  exact ⟨.claim now (List.mem_singleton.mp hs), result, hb₁.row ht, hconf⟩

theorem safe_claimConfirmation (hk : Kind.claim ∈ K) (hconf : result.status = .confirmed)
    (hb : Backed tx result w) : Safe exec (Moved allKinds) (Moved K)
      (ConfirmationProcessor.claimConfirmation tx) w := by
  refine Safe.tryCatch stable_true ?_ trivial ?_
  · exact Safe.bind stable_true (safe_markConfirming hk hconf hb) trivial fun _ _ _ => trivial
  · intro error w' _
    split
    · exact safe_rereadAfterConflict _ _ _
    · exact trivial

theorem safe_persistConfirmation (hk : Kind.confirm ∈ K) (hconf : result.status = .confirmed)
    (hb : Backed tx result w) : Safe exec (Moved allKinds) (Moved K)
      (ConfirmationProcessor.persistConfirmation tx result) w := by
  refine Safe.tryCatch stable_true ?_ trivial ?_
  · refine safe_perform ?_
    intro w₁ hw₁ i
    have hb₁ := (stable_backed tx result).star (G := Moved K) hw₁ hb
    refine exec_snd (.refl _) ?_
    exact change_persist hk (fun t ht => hb₁.row (hb₁.row_of_hash ht)) hconf i
  · intro error w' _
    split
    · exact Safe.bind stable_true (safe_rereadAfterConflict _ _ _) trivial fun _ _ _ => trivial
    · exact trivial

theorem safe_offLedger {o : Call} (h : o.offLedger = true) (w : World) :
    Safe exec (Moved allKinds) (Moved K) (perform o) w := by
  refine safe_perform ?_
  intro w₁ _ i
  refine exec_snd (.refl _) ?_
  rw [Moved, ledger_offLedger h]
  exact .refl _

theorem safe_handleSuccessfulTransaction (hclaim : Kind.claim ∈ K) (hconfirm : Kind.confirm ∈ K)
    (hconf : result.status = .confirmed) (hb : Backed tx result w) :
    Safe exec (Moved allKinds) (Moved K)
      (ConfirmationProcessor.handleSuccessfulTransaction tx result) w := by
  refine Safe.bind (stable_backed tx result) (safe_claimConfirmation hclaim hconf hb) hb ?_
  intro claimed w' hb'
  split
  · refine Safe.bind stable_true (safe_persistConfirmation hconfirm hconf hb') trivial ?_
    intro _ w'' _
    exact Safe.bind stable_true (safe_offLedger rfl w'') trivial fun _ w₃ _ => safe_offLedger rfl w₃
  · exact trivial

theorem safe_handleRevertedTransaction (hk : Kind.revert ∈ K) (hfail : result.status = .failed)
    (hb : Backed tx result w) : Safe exec (Moved allKinds) (Moved K)
      (ConfirmationProcessor.handleRevertedTransaction tx) w := by
  refine Safe.bind stable_true (Safe.tryCatch stable_true ?_ trivial ?_) trivial ?_
  · refine Safe.bind stable_true ?_ trivial fun _ _ _ => trivial
    refine Safe.bind (stable_backed tx result) (safe_now w) hb ?_
    intro now w' hb'
    refine Safe.bind stable_true ?_ trivial fun count w'' _ => safe_afterUpdate count _ _ w''
    refine safe_update (stable_backed tx result) hb' hk (by decide) ?_
    intro w₁ hb₁ t ht hs
    exact ⟨.revert "FAILED" now (by simpa using hs), result, hb₁.row ht, hfail⟩
  · intro error w' _
    split
    · exact safe_rereadAfterConflict _ _ _
    · exact trivial
  · intro failed w' _
    refine safe_reads ?_ w'
    intro env
    split
    · exact All.bind (permitted_incrementMetric _ _ _ (by simp)) fun _ => permitted_emit _ rfl
    · exact trivial

theorem chain_of_get {registry : BlockchainAdapterRegistry} {chain : Blockchain}
    {adapter : BlockchainAdapter} (h : registry.get chain = .ok adapter) :
    adapter.chain = chain := by
  rw [BlockchainAdapterRegistry.get] at h
  split at h
  · next found hfind =>
    cases h
    simpa using List.find?_some hfind
  · cases h

/-- What the worker knows once it has read a row with a hash, and the row's token. -/
structure Read (tx : Transaction) (token : Token) (w : World) : Prop where
  bound : Bound tx w.ledger
  chain : w.ledger.chainOf tx.tokenId = some token.blockchain

theorem stable_read (tx : Transaction) (token : Token) :
    Stable (Moved allKinds) (Moved K) (Read tx token) where
  rely _ _ h hr := ⟨hr.bound.change h, by rw [h.chainOf]; exact hr.chain⟩
  guarantee _ _ h hr := ⟨hr.bound.change h, by rw [h.chainOf]; exact hr.chain⟩

/-- After the adapter has answered, its answer is on record for the row. -/
theorem wp_getBlockchainTransaction (registry : BlockchainAdapterRegistry) {token : Token}
    (hash : String) (hhash : tx.txHash = some hash) (hr : Read tx token w) :
    wp exec (Moved allKinds) (Moved K)
      (ConfirmationProcessor.getBlockchainTransaction registry tx token)
      (fun _ r w' => ∀ result, r = .ok result → Backed tx result w') w := by
  unfold ConfirmationProcessor.getBlockchainTransaction
  cases hget : registry.get token.blockchain with
  | error e =>
    intro result h
    cases h
  | ok adapter =>
    refine wp_perform.mpr ?_
    intro w₁ hw₁ i
    have hr₁ := (stable_read tx token).star (G := Moved K) hw₁ hr
    have hmoved : Moved K w₁ (exec (Call.getTransaction adapter.chain (tx.txHash.getD "")) i w₁).2 := by
      refine exec_snd (.refl _) ?_
      simp only [Call.effect]
      split
      · exact .answer _ _
      · exact .refl _
    refine ⟨hmoved, ?_⟩
    intro result hok
    refine ⟨hr₁.bound.change hmoved, ?_⟩
    have heff := exec_ok hok
    rw [heff] at hok ⊢
    simp only [Call.effect] at hok ⊢
    split at hok
    · cases hok
      refine ⟨_, List.mem_cons_self, ?_, ?_, rfl⟩
      · rw [chain_of_get hget]
        exact hr₁.chain
      · rw [hhash]
        rfl
    · cases hok

/-- **The confirmation worker refines the ledger**: whatever others write between its calls, each
of its calls is a claim, a confirmation or a revert that an answer of the chain backs. -/
theorem safe_processTransaction (hclaim : Kind.claim ∈ K) (hconfirm : Kind.confirm ∈ K)
    (hrevert : Kind.revert ∈ K) (registry : BlockchainAdapterRegistry) (id tenantId : String)
    (hw : Sound w.ledger) : Safe exec (Moved allKinds) (Moved K)
      (ConfirmationProcessor.processTransaction registry id tenantId) w := by
  refine Safe.bind_wp (F := fun found w' => ∀ tx token, found = some (tx, token) →
    tx.txHash.isSome → Read tx token w') ?_ ?_
  · refine wp_perform.mpr ?_
    intro w₁ hw₁ i
    have hw₁ := (stable_sound (K := K)).star hw₁ hw
    refine ⟨moved_stmt rfl i w₁, ?_⟩
    intro found hok tx token hfound hhash
    have heff := exec_ok hok
    rw [heff] at hok ⊢
    cases hok
    rw [Db.findTransactionById_eq_some] at hfound
    obtain ⟨hrow, _, htoken⟩ := hfound
    obtain ⟨h, H⟩ := hw₁.history id tx hrow
    refine ⟨⟨tx, ?_, H.ne_pending_of_txHash hhash, rfl, rfl⟩, ?_⟩
    · rw [hw₁.ids id tx hrow]
      exact hrow
    · show (w₁.db.tokens.get (.id tx.tokenId)).map Token.blockchain = _
      rw [htoken]
      rfl
  · intro found w₁ hread
    split
    · exact trivial
    · next tx token =>
      split
      · exact trivial
      · next hfalsy =>
        cases hhash : tx.txHash with
        | none =>
          rw [hhash] at hfalsy
          exact absurd rfl hfalsy
        | some hash =>
          have hr := hread tx token rfl (by rw [hhash]; rfl)
          refine Safe.tryCatch stable_true ?_ trivial ?_
          · refine Safe.bind_wp (wp_getBlockchainTransaction registry hash hhash hr) ?_
            intro result w₂ hb
            split
            · next hs => exact safe_handleSuccessfulTransaction hclaim hconfirm hs hb
            · next hs => exact safe_handleRevertedTransaction hrevert hs hb
            · exact trivial
          · intro error w₂ _
            exact safe_reads (fun _ => permitted_handleConfirmationError _ error) w₂

theorem safe_confirmationQueueWorker (hclaim : Kind.claim ∈ K) (hconfirm : Kind.confirm ∈ K)
    (hrevert : Kind.revert ∈ K) (registry : BlockchainAdapterRegistry) (jobId : String)
    (hw : Sound w.ledger) : Safe exec (Moved allKinds) (Moved K)
      (confirmationQueueWorker registry jobId) w := by
  refine Safe.bind stable_sound (safe_offLedger rfl w) hw ?_
  intro data w' hw'
  split
  · exact trivial
  refine Safe.bind stable_true (Safe.tryCatch stable_true ?_ trivial fun _ _ _ => trivial) trivial ?_
  · refine Safe.bind stable_true ?_ trivial fun _ _ _ => trivial
    exact safe_processTransaction hclaim hconfirm hrevert registry _ _ hw'
  · intro succeeded w'' _
    split <;> exact safe_offLedger rfl w''

end Worker

/-! ## The system -/

/-- The kinds of writes that a task makes. -/
def Task.kinds : Task → List Kind
  | .transfer _ => [.create, .submit, .fail]
  | .processTransaction _ _ | .confirmationJob _ => [.claim, .confirm, .revert]
  | .processExpiredTransactions _ => [.expire]
  | .processOrphanedPending => [.submit, .fail]
  | _ => []

theorem safe_of_rights (D : Deployment) {t : Task} (hA : ∀ k, .write k ∈ t.rights → k ∈ K)
    (hclaim : .write .claim ∉ t.rights) (hconfirm : .write .confirm ∉ t.rights) (w : World) :
    Safe exec (Moved allKinds) (Moved K) (D.prog t) w :=
  (permitted_prog D t).safe (fun _ ho i w => change_of_permitted ho hA hclaim hconfirm i w) w

/-- **Every task makes only changes of its kinds.** -/
theorem safe_task (D : Deployment) (t : Task) (hK : ∀ k ∈ t.kinds, k ∈ K) (hw : Sound w.ledger) :
    Safe exec (Moved allKinds) (Moved K) (D.prog t) w := by
  cases t with
  | processTransaction id tenantId =>
    exact safe_processTransaction (hK _ (by simp [Task.kinds])) (hK _ (by simp [Task.kinds]))
      (hK _ (by simp [Task.kinds])) D.registry id tenantId hw
  | confirmationJob jobId =>
    exact safe_confirmationQueueWorker (hK _ (by simp [Task.kinds])) (hK _ (by simp [Task.kinds]))
      (hK _ (by simp [Task.kinds])) D.registry jobId hw
  | transfer | processExpiredTransactions | processOrphanedPending =>
    refine safe_of_rights D ?_ (by simp [Task.rights]) (by simp [Task.rights]) w
    intro k hk
    apply hK
    simpa [Task.rights, Task.kinds] using hk
  | _ =>
    refine safe_of_rights D ?_ ?_ ?_ w
    all_goals simp [Task.rights]

/-- The events that start only tasks whose writes are of the kinds `K`. -/
def Limited (K : List Kind) : SystemEvent → Prop
  | .spawn t => ∀ k ∈ t.kinds, k ∈ K
  | _ => True

theorem limited_allKinds (e : SystemEvent) : Limited allKinds e := by
  cases e with
  | spawn t => exact fun k _ => mem_allKinds k
  | step | crash | shift => exact trivial

/-- **The system refines the ledger.** -/
theorem respects_ledger (D : Deployment) (K : List Kind) :
    Respects D.system (Moved allKinds) (Moved K) (fun w => Sound w.ledger) (Limited K) where
  refl w := .refl _
  sub w w' h := h.mono fun k _ => mem_allKinds k
  keeps w w' hw h := hw.change h
  task t ht w hw := safe_task D t ht hw
  shift d _ w _ := by
    cases d <;> exact .refl _

theorem World.Initial.sound {w : World} (h : w.Initial) : Sound w.ledger := by
  refine Sound.init ?_ h.outboxEvents
  intro id
  show w.db.transactions.get (.id id) = none
  rw [Table.get_eq_none_iff, h.transactions]
  simp

theorem healthy_start (D : Deployment) (K : List Kind) {w : World} (hw : Sound w.ledger) :
    Healthy D.system (Moved allKinds) (Moved K) (fun w => Sound w.ledger) w.start :=
  Healthy.init hw

theorem healthy_after (D : Deployment) {w : World} (h : w.Initial) (es : List SystemEvent) :
    Healthy D.system (Moved allKinds) (Moved allKinds) (fun w => Sound w.ledger)
      (w.start.after D.system es) :=
  ((healthy_start D allKinds h.sound).after (respects_ledger D allKinds)
    fun e _ => limited_allKinds e).2

/-- **The ledger is sound in every reachable state.** -/
theorem sound_after (D : Deployment) {w : World} (h : w.Initial) (es : List SystemEvent) :
    Sound (w.start.after D.system es).world.ledger :=
  (healthy_after D h es).inv

end TransactionSimulator
