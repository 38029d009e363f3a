import TransactionSimulator.Ledger.Model

/-!
# What the ledger statements do

One specification for each statement that writes the ledger: the update of a row
(`Db.updateTransactions_spec`), its creation (`Db.createTransaction_spec`), and the transaction
that confirms a row and announces it (`persistBody_spec`).  Each lists the outcomes of the
statement; what comes later argues by cases on them and never looks at the tables again.
-/

namespace TransactionSimulator

open Relational TransactionStatus

namespace Db

theorem mem_transactions {db : Db} {t : Transaction} :
    t ∈ db.transactions.rows ↔ db.transactions.get (.id t.id) = some t := by
  rw [Table.get_eq_some_iff]
  simp

theorem id_of_get {db : Db} {id : String} {t : Transaction}
    (h : db.transactions.get (.id id) = some t) : t.id = id := by
  rw [Table.get_eq_some_iff, Transaction.id_mem_keys] at h
  exact h.2.symm

theorem get_txHash {db : Db} {hash : String} {t : Transaction} :
    db.transactions.get (.txHash hash) = some t ↔
      db.transactions.get (.id t.id) = some t ∧ t.txHash = some hash := by
  rw [Table.get_eq_some_iff, Transaction.txHash_mem_keys, mem_transactions]

/-! ## Updates -/

/-- No other row than `id` has the hash that the update writes. -/
def HashFree (db : Db) (id : String) (data : TransactionUpdateInput) : Prop :=
  ∀ hash, data.txHash = some hash → ∀ s, db.transactions.get (.txHash hash) = some s → s.id = id

/-- The outcomes of `transaction.updateMany({ where: { id, status: { in } }, data })`. -/
inductive Updated (db : Db) (id : String) (status : List TransactionStatus)
    (data : TransactionUpdateInput) : Except JsError Nat × Db → Prop
  | matched {t : Transaction} {table : Table Transaction TransactionKey Transaction.keys}
      (found : db.transactions.get (.id id) = some t) (hs : t.status ∈ status)
      (free : db.HashFree id data)
      (rows : ∀ i, table.get (.id i) = if i = id then some (data.apply t)
        else db.transactions.get (.id i)) (references) (fits : data.fits = true) :
      Updated db id status data (.ok 1, { db with transactions := table, references })
  | missed (hs : ∀ t, db.transactions.get (.id id) = some t → t.status ∉ status) :
      Updated db id status data (.ok 0, db)
  | refused {t : Transaction} (found : db.transactions.get (.id id) = some t)
      (hs : t.status ∈ status) (taken : ¬ db.HashFree id data) :
      Updated db id status data (.error uniqueViolation, db)
  | outOfRange (large : data.fits = false) :
      Updated db id status data (.error valueOutOfRange, db)

@[simp] theorem apply_id (data : TransactionUpdateInput) (t : Transaction) :
    (data.apply t).id = t.id := rfl

/-- A table that refuses the update has another row with the hash. -/
theorem hashFree_of_some {db : Db} {id : String} {status : List TransactionStatus}
    {data : TransactionUpdateInput} {table : Table Transaction TransactionKey Transaction.keys}
    {n : Nat} {t : Transaction} (found : db.transactions.get (.id id) = some t)
    (hs : t.status ∈ status)
    (h : db.transactions.updateMany (fun t => t.id = id && status.contains t.status) data.apply
      = some (table, n)) : db.HashFree id data := by
  intro hash hdata s hsome
  rw [get_txHash] at hsome
  by_contra hne
  have hrows := (Table.updateMany_eq_some h).1
  -- both rows are in the new table and both have the hash
  have hmem : data.apply t ∈ table.rows := by
    rw [hrows, Table.mem_written]
    refine ⟨t, mem_transactions.mpr ((id_of_get found).symm ▸ found), ?_⟩
    rw [if_pos (by simp [id_of_get found, hs])]
  have hmem' : s ∈ table.rows := by
    rw [hrows, Table.mem_written]
    refine ⟨s, mem_transactions.mpr hsome.1, ?_⟩
    rw [if_neg (by simp [hne])]
  have heq := table.eq_of_mem_keys hmem hmem' (k := .txHash hash)
    (by simp [TransactionUpdateInput.apply, hdata]) (by simp [hsome.2])
  apply hne
  rw [← heq, apply_id]
  exact id_of_get found

/-- Where a written row has its hash from. -/
theorem txHash_written {id hash : String} {status : List TransactionStatus}
    {data : TransactionUpdateInput} {t : Transaction}
    (h : TransactionKey.txHash hash ∈
      (if (decide (t.id = id) && status.contains t.status) = true then data.apply t else t).keys) :
    t.txHash = some hash ∨ (t.id = id ∧ data.txHash = some hash) := by
  split at h
  · next hc =>
    simp only [Bool.and_eq_true, decide_eq_true_eq] at hc
    rw [Transaction.txHash_mem_keys] at h
    cases hd : data.txHash with
    | none =>
      simp only [TransactionUpdateInput.apply, hd] at h
      exact .inl h
    | some other =>
      simp only [TransactionUpdateInput.apply, hd] at h
      exact .inr ⟨hc.1, h⟩
  · exact .inl (Transaction.txHash_mem_keys.mp h)

/-- An update that leaves every hash alone, or writes a free one, goes through. -/
theorem updateMany_of_hashFree {db : Db} {id : String} (status : List TransactionStatus)
    {data : TransactionUpdateInput} (free : db.HashFree id data) :
    ∃ table n, db.transactions.updateMany (fun t => t.id = id && status.contains t.status)
      data.apply = some (table, n) := by
  have hu : (db.transactions.written (fun t => t.id = id && status.contains t.status)
      data.apply).Pairwise fun a b => List.Disjoint a.keys b.keys := by
    rw [Table.written, List.pairwise_map]
    refine List.Pairwise.imp_of_mem ?_ db.transactions.unique
    intro a b ha hb hab
    rw [mem_transactions] at ha hb
    have hid : a.id ≠ b.id := by
      intro he
      exact hab (a := .id a.id) (by simp) (by simp [he])
    intro k hka hkb
    cases k with
    | id i =>
      have hka' : i = a.id := by split at hka <;> simpa using hka
      have hkb' : i = b.id := by split at hkb <;> simpa using hkb
      exact hid (hka'.symm.trans hkb')
    | txHash hash =>
      rcases txHash_written hka with hta | ⟨hia, hda⟩ <;>
        rcases txHash_written hkb with htb | ⟨hib, hdb⟩
      · exact hab (a := .txHash hash) (by simp [hta]) (by simp [htb])
      · exact hid ((free hash hdb a (get_txHash.mpr ⟨ha, hta⟩)).trans hib.symm)
      · exact hid (hia.trans (free hash hda b (get_txHash.mpr ⟨hb, htb⟩)).symm)
      · exact hid (hia.trans hib.symm)
  exact ⟨_, _, dif_pos hu⟩

/-- **The update of a row**: it matches the row and goes through, matches none, or is refused
because another row has the hash or a number does not fit. -/
theorem updateTransactions_spec (db : Db) (id : String) (status : List TransactionStatus)
    (data : TransactionUpdateInput) :
    Updated db id status data (db.updateTransactions id status data) := by
  rw [updateTransactions]
  split
  · next large => exact .outOfRange (by simpa using large)
  next hfits =>
  have fits : data.fits = true := by simpa using hfits
  have hkey : ∀ i r, TransactionKey.id i ∈ (data.apply r).keys ↔ TransactionKey.id i ∈ r.keys := by
    intro i r
    rw [Transaction.id_mem_keys, Transaction.id_mem_keys, apply_id]
  have hcond : ∀ r : Transaction, (decide (r.id = id) && status.contains r.status) = true →
      TransactionKey.id id ∈ r.keys := by
    intro r hr
    simp only [Bool.and_eq_true, decide_eq_true_eq] at hr
    rw [Transaction.id_mem_keys, hr.1]
  have hcount := db.transactions.countP_eq_of_key hcond
  by_cases hmatch : ∃ t, db.transactions.get (.id id) = some t ∧ t.status ∈ status
  · obtain ⟨t, found, hs⟩ := hmatch
    by_cases free : db.HashFree id data
    · obtain ⟨table, n, hu⟩ := updateMany_of_hashFree status free
      have hn : n = 1 := by
        rw [(Table.updateMany_eq_some hu).2, hcount, found]
        simp [id_of_get found, hs]
      subst hn
      have hrows : ∀ i, table.get (.id i) = if i = id then some (data.apply t)
          else db.transactions.get (.id i) := by
        intro i
        rw [Table.get_updateMany hu (hkey i)]
        by_cases hi : i = id
        · rw [if_pos hi, hi, found]
          simp [id_of_get found, hs]
        · rw [if_neg hi]
          cases hg : db.transactions.get (.id i) with
          | none => rfl
          | some r => simp [id_of_get hg, hi]
      split
      · next table' n' hu' =>
        rw [hu] at hu'
        cases hu'
        exact .matched found hs free hrows _ fits
      · next hu' =>
        rw [hu] at hu'
        cases hu'
    · split
      · next hu => exact absurd (hashFree_of_some found hs hu) free
      · exact .refused found hs free
  · have hmiss : ∀ t, db.transactions.get (.id id) = some t → t.status ∉ status :=
      fun t ht hs => hmatch ⟨t, ht, hs⟩
    have hno : ∀ r ∈ db.transactions.rows, ¬ (decide (r.id = id) && status.contains r.status) = true := by
      intro r hr hc
      simp only [Bool.and_eq_true, decide_eq_true_eq, List.contains_iff_mem] at hc
      rw [mem_transactions, hc.1] at hr
      exact hmiss r hr hc.2
    have hu := db.transactions.updateMany_of_forall_not data.apply hno
    split
    · next table n hu' =>
      rw [hu] at hu'
      cases hu'
      exact .missed hmiss
    · next hu' =>
      rw [hu] at hu'
      cases hu'

/-! ## Creation -/

/-- The outcomes of `transaction.create`. -/
inductive Created (db : Db) (env : StmtEnv) (data : TransactionCreateInput) :
    Except JsError Transaction × Db → Prop
  | done {table : Table Transaction TransactionKey Transaction.keys}
      (free : db.transactions.get (.id env.uuid) = none)
      (rows : ∀ i, table.get (.id i) = if i = env.uuid then some (newTransaction env data)
        else db.transactions.get (.id i)) (references) :
      Created db env data
        (.ok (newTransaction env data), { db with transactions := table, references })
  | refused (e : JsError) : Created db env data (.error e, db)

theorem createTransaction_spec (db : Db) (env : StmtEnv) (data : TransactionCreateInput) :
    Created db env data (db.createTransaction env data) := by
  rw [createTransaction]
  split
  · exact .refused _
  split
  · split
    · next table hi =>
      have free := Table.get_of_insert hi (k := .id env.uuid) (by simp [newTransaction])
      refine .done free ?_ _
      intro i
      rw [Table.get_insert hi]
      by_cases he : i = env.uuid
      · rw [if_pos he, he, free]
        simp [newTransaction]
      · rw [if_neg he]
        simp [newTransaction, he]
    · exact .refused _
  · exact .refused _

/-! ## Lookup with the token -/

theorem findTransactionById_eq_some {db : Db} {id tenantId : String} {t : Transaction}
    {token : Token} :
    db.findTransactionById id tenantId = some (t, token) ↔
      db.transactions.get (.id id) = some t ∧ t.tenantId = tenantId ∧
        db.tokens.get (.id t.tokenId) = some token := by
  rw [findTransactionById]
  cases db.transactions.get (.id id) with
  | none => simp
  | some s =>
    by_cases hs : s.tenantId = tenantId
    · simp only [hs, if_true, Option.map_eq_some_iff, Prod.mk.injEq, Option.some.injEq]
      constructor
      · rintro ⟨a, ha, rfl, rfl⟩
        exact ⟨rfl, hs, ha⟩
      · rintro ⟨rfl, _, ha⟩
        exact ⟨token, ha, rfl, rfl⟩
    · simp only [hs, if_false, Option.some.injEq]
      constructor
      · intro h
        cases h
      · rintro ⟨rfl, h, _⟩
        exact absurd h hs

theorem findTransactionById_of_get {db : Db} {id : String} {t : Transaction}
    (h : db.transactions.get (.id id) = some t) :
    ∃ token, db.findTransactionById id t.tenantId = some (t, token) := by
  have href := (db.references t (mem_transactions.mpr ((id_of_get h).symm ▸ h))).1
  obtain ⟨token, htoken⟩ := Option.isSome_iff_exists.mp href
  exact ⟨token, findTransactionById_eq_some.mpr ⟨h, rfl, htoken⟩⟩

end Db

/-! ## The transaction that confirms -/

/-- The row as `confirm` leaves it. -/
def confirmedRow (t : Transaction) (blockNumber : Nat) (gasUsed : Option Nat) (now : Date) :
    Transaction :=
  { t with
    status := CONFIRMED, blockNumber := some blockNumber, gasUsed, confirmedAt := some now }

/-- The event as `createInTransaction` writes it. -/
def confirmedEvent (t : Transaction) (env : StmtEnv) : OutboxEvent where
  id := env.uuid
  aggregateId := t.id
  type := "transaction.confirmed"
  payload := ConfirmationProcessor.confirmedPayload t
  published := false
  createdAt := env.now

/-- The outcomes of the transaction that persists a confirmation. -/
inductive Persisted (db : Db) (env : StmtEnv) (hash : String) (result : BlockchainTransaction) :
    Except JsError Unit × Db → Prop
  | done {t : Transaction} {blockNumber : Nat}
      {table : Table Transaction TransactionKey Transaction.keys}
      {events : Table OutboxEvent String fun e => [e.id]}
      (hblock : result.blockNumber = some blockNumber)
      (found : db.transactions.get (.txHash hash) = some t) (hs : t.status = CONFIRMING)
      (rows : ∀ i, table.get (.id i) =
        if i = t.id then some (confirmedRow t (Js.number blockNumber) result.gasUsed env.now)
        else db.transactions.get (.id i))
      (hevents : events.rows = db.outboxEvents.rows ++
        [confirmedEvent (confirmedRow t (Js.number blockNumber) result.gasUsed env.now) env])
      (references) :
      Persisted db env hash result
        (.ok (), { db with transactions := table, outboxEvents := events, references })
  | noBlock (hblock : result.blockNumber = none) (e : JsError) (db' : Db) :
      Persisted db env hash result (.error e, db')
  | notFound (found : db.transactions.get (.txHash hash) = none) (e : JsError) (db' : Db) :
      Persisted db env hash result (.error e, db')
  | conflict {t : Transaction} (found : db.transactions.get (.txHash hash) = some t)
      (hs : t.status ≠ CONFIRMING) (db' : Db) :
      Persisted db env hash result (.error (.transactionStateConflict t.id CONFIRMING), db')
  | outOfRange {blockNumber : Nat} (hblock : result.blockNumber = some blockNumber)
      (large : fitsBigInt (Js.number blockNumber) = false ∨ fitsNullable result.gasUsed = false) (e : JsError) (db' : Db) :
      Persisted db env hash result (.error e, db')
  | duplicate (taken : db.outboxEvents.get env.uuid ≠ none) (e : JsError) (db' : Db) :
      Persisted db env hash result (.error e, db')

/-- `transition` inside a transaction, once the table of transitions allows it. -/
theorem transition_tx {source target : TransactionStatus}
    (h : TransactionStateMachine.canTransition source target = true) (id : String)
    (data : TransactionUpdateInput) (env : StmtEnv) (db : Db) :
    TransactionRepository.transition txClient id source target data env db =
      match db.updateTransactions id [source] { data with status := some target } with
      | (.ok n, db') =>
        if n = 1 then (orThrow (db'.transactions.get (.id id)), db')
        else match db'.transactions.get (.id id) with
          | none => (.error (.error ("Transaction " ++ id ++ " not found")), db')
          | some _ => (.error (.transactionStateConflict id source), db')
      | (.error e, db') => (.error e, db') := by
  have hassert : TransactionStateMachine.assertTransition source target = .ok () := if_pos h
  unfold TransactionRepository.transition
  rw [hassert]
  show (txClient.stmt _ >>= _) env db = _
  rw [TxM.bind_apply, TxM.stmt_apply]
  simp only [Stmt.exec]
  rcases db.updateTransactions id [source] _ with ⟨_ | n, db'⟩
  · rfl
  · dsimp only
    by_cases hn : n = 1
    · rw [if_pos hn, if_pos hn]
      rfl
    · rw [if_neg hn, if_neg hn]
      unfold TransactionRepository.rejectTransition
      rw [TxM.bind_apply, TxM.stmt_apply]
      simp only [Stmt.exec]
      cases db'.transactions.get (.id id) <;> rfl

/-- **The transaction that confirms**: the row and its event together, or an error. -/
theorem persistBody_spec (tx : Transaction) (result : BlockchainTransaction) (env : StmtEnv)
    (db : Db) : Persisted db env (tx.txHash.getD "") result
      (ConfirmationProcessor.persistBody tx result env db) := by
  unfold ConfirmationProcessor.persistBody
  cases hblock : result.blockNumber with
  | none => exact .noBlock hblock _ _
  | some blockNumber =>
    dsimp only
    rw [TxM.bind_apply]
    unfold TransactionRepository.confirm
    rw [TxM.bind_apply, TxM.stmt_apply]
    simp only [Stmt.exec]
    cases found : db.transactions.get (.txHash (tx.txHash.getD "")) with
    | none => exact .notFound found _ _
    | some t =>
      dsimp only
      rw [TxM.bind_apply, TxM.now_apply]
      dsimp only
      rw [transition_tx (by decide)]
      have hget := (Db.get_txHash.mp found).1
      have hu := db.updateTransactions_spec t.id [CONFIRMING]
        { status := some CONFIRMED, blockNumber := some (some (Js.number blockNumber)),
          gasUsed := some result.gasUsed, confirmedAt := some env.now }
      generalize db.updateTransactions t.id [CONFIRMING] _ = r at hu
      cases hu with
      | missed hs =>
        dsimp only
        rw [if_neg (by decide), hget]
        exact .conflict found (by simpa using hs t hget) _
      | refused _ _ taken =>
        exact absurd (fun hash h => by cases h) taken
      | outOfRange large =>
        exact .outOfRange hblock (Bool.and_eq_false_iff.mp large) _ _
      | matched found' hs free rows references =>
        rw [hget, Option.some.injEq] at found'
        subst found'
        dsimp only
        rw [if_pos rfl, rows, if_pos rfl]
        dsimp only [orThrow]
        rw [TxM.bind_apply]
        unfold OutboxEventRepository.createInTransaction
        rw [TxM.stmt_apply]
        simp only [Stmt.exec, Db.createOutboxEvent]
        cases hi : db.outboxEvents.insert _ with
        | none =>
          refine .duplicate ?_ _ _
          intro hfree
          obtain ⟨t', ht'⟩ := db.outboxEvents.insert_isSome
            (r := confirmedEvent (confirmedRow t (Js.number blockNumber) result.gasUsed env.now) env)
            (by simpa [confirmedEvent] using hfree)
          exact absurd (hi.symm.trans ht') (by simp)
        | some events =>
          exact .done hblock found (by simpa using hs) rows (Table.insert_rows hi) references

end TransactionSimulator
