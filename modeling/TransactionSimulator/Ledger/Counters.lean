import TransactionSimulator.Ledger.Lifecycle

/-!
# The counter of confirmations

A worker reports a confirmation, by a counter and a line of the log, after the transaction that
confirms the row.  A worker whose transaction comes too late, because another worker or an expiry
pass has ended the row, returns from it all the same, and reports the confirmation too.

* `Outcome`: how the calls of a program may come out.  `reporting_prog`: those of every task do.
* `confirmedRows_eq`: the confirmed rows, counted by their events.
* `confirmed_counted`: the reports of a run count its confirmations, if no transaction comes too
  late.
-/

namespace TransactionSimulator

open Concurrent Prog Relational TransactionStatus Ledger

/-! ## What is counted -/

/-- An increment of the counter of confirmations. -/
def Emission.countsConfirmed : Emission → Bool
  | .metric name _ _ => name = "transactions_confirmed_total"
  | _ => false

/-- The line of the log that says that a transaction has been confirmed. -/
def Emission.logsConfirmed : Emission → Bool
  | .log message => message = "transaction.confirmed"
  | _ => false

/-- The increments of the counter so far. -/
def World.countedConfirmations (w : World) : Nat := w.emissions.countP (·.countsConfirmed)

/-- The lines of the log so far. -/
def World.loggedConfirmations (w : World) : Nat := w.emissions.countP (·.logsConfirmed)

/-- The rows that have moved from CONFIRMING to CONFIRMED: there is no other way there, and none
back. -/
def World.confirmedRows (w : World) : Nat :=
  w.db.transactions.rows.countP fun t => t.status = CONFIRMED

def Call.isTransaction : Call → Bool
  | .transaction _ => true
  | _ => false

/-- What the call emits. -/
def Call.emitted : Call → List Emission
  | .emit e => [e]
  | _ => []

def Call.countsConfirmed (o : Call) : Bool := o.emitted.any (·.countsConfirmed)

def Call.logsConfirmed (o : Call) : Bool := o.emitted.any (·.logsConfirmed)

/-- The call is a transaction, and succeeds. -/
def Commits (m : Moment Call Input World) : Bool :=
  m.op.isTransaction && (exec m.op m.input m.state).1.isOk

/-- A transaction that throws has not taken effect. -/
def Acknowledged (m : Moment Call Input World) : Prop :=
  m.op.isTransaction = true → ∀ f, m.input.fault = some f → f.applied = false

/-- A transaction that is to confirm a row finds the row CONFIRMING. -/
def InTime (m : Moment Call Input World) : Prop :=
  ∀ tx result, m.op = .transaction (ConfirmationProcessor.persistBody tx result) →
    ∀ t, m.state.db.transactions.get (.txHash (tx.txHash.getD "")) = some t → t.status = CONFIRMING

/-- The program goes on after each transaction that succeeds, by two calls at least: it is neither
lost there nor still on its way. -/
def Reported : List (Moment Call Input World) → Prop
  | [] => True
  | m :: tr => (Commits m = true → 2 ≤ tr.length) ∧ Reported tr

instance Reported.decidable : (tr : List (Moment Call Input World)) → Decidable (Reported tr)
  | [] => .isTrue trivial
  | m :: tr =>
    have := Reported.decidable tr
    inferInstanceAs (Decidable ((Commits m = true → 2 ≤ tr.length) ∧ Reported tr))

/-! ## The calls of a program -/

/-- A call that neither confirms a row nor reports a confirmation. -/
def Call.Aside (o : Call) : Prop :=
  o.isTransaction = false ∧ o.countsConfirmed = false ∧ o.logsConfirmed = false

/-- A call as it was made, of which the same is true. -/
def Apart (m : Moment Call Input World) : Prop :=
  Commits m = false ∧ m.op.countsConfirmed = false ∧ m.op.logsConfirmed = false

theorem Call.Aside.apart {m : Moment Call Input World} (h : m.op.Aside) : Apart m :=
  ⟨by rw [Commits, h.1, Bool.false_and], h.2⟩

/-- How the calls of a program come out: no confirmation and no report of one; a confirmation that
is reported at once, by one increment and one line; or a transaction that comes too late. -/
inductive Outcome : List (Moment Call Input World) → Prop
  | apart {tr : List (Moment Call Input World)} (h : ∀ m ∈ tr, Apart m) : Outcome tr
  | reported {pre post : List (Moment Call Input World)} {c n l : Moment Call Input World}
      (hpre : ∀ m ∈ pre, Apart m) (hc : Commits c = true) (hn : n.op.countsConfirmed = true)
      (hl : l.op.logsConfirmed = true) (hpost : ∀ m ∈ post, Apart m) :
      Outcome (pre ++ c :: n :: l :: post)
  | late {pre post : List (Moment Call Input World)} {m : Moment Call Input World}
      (hpre : ∀ m ∈ pre, Apart m) (hm : ¬ InTime m) : Outcome (pre ++ m :: post)

section Outcome

variable {tr tr' : List (Moment Call Input World)}

theorem outcome_late {m : Moment Call Input World} (h : ¬ InTime m) : Outcome (m :: tr) :=
  .late (List.forall_mem_nil _) h

theorem outcome_reported {c n l : Moment Call Input World} (hc : Commits c = true)
    (hn : n.op.countsConfirmed = true) (hl : l.op.logsConfirmed = true) : Outcome [c, n, l] :=
  .reported (List.forall_mem_nil _) hc hn hl (List.forall_mem_nil _)

theorem Outcome.prepend (htr : ∀ m ∈ tr, Apart m) (h : Outcome tr') : Outcome (tr ++ tr') := by
  cases h with
  | apart h => exact .apart fun m hm => (List.mem_append.mp hm).elim (htr m) (h m)
  | reported hpre hc hn hl hpost =>
    rw [← List.append_assoc]
    exact .reported (fun m hm => (List.mem_append.mp hm).elim (htr m) (hpre m)) hc hn hl hpost
  | late hpre hm =>
    rw [← List.append_assoc]
    exact .late (fun m hm => (List.mem_append.mp hm).elim (htr m) (hpre m)) hm

theorem Outcome.append (h : Outcome tr) (htr' : ∀ m ∈ tr', Apart m) : Outcome (tr ++ tr') := by
  cases h with
  | apart h => exact .apart fun m hm => (List.mem_append.mp hm).elim (h m) (htr' m)
  | reported hpre hc hn hl hpost =>
    rw [List.append_assoc]
    exact .reported hpre hc hn hl fun m hm => (List.mem_append.mp hm).elim (hpost m) (htr' m)
  | late hpre hm =>
    rw [List.append_assoc]
    exact .late hpre hm

theorem Reported.after {pre rest : List (Moment Call Input World)} {m : Moment Call Input World}
    (h : Reported (pre ++ m :: rest)) (hm : Commits m = true) : 2 ≤ rest.length := by
  induction pre with
  | nil => exact h.1 hm
  | cons _ pre ih => exact ih h.2

theorem counts_apart (h : ∀ m ∈ tr, Apart m) : tr.countP Commits = 0 ∧
    tr.countP (fun m => m.op.countsConfirmed) = 0 ∧
    tr.countP (fun m => m.op.logsConfirmed) = 0 := by
  simp only [List.countP_eq_zero, Bool.not_eq_true]
  exact ⟨fun m hm => (h m hm).1, fun m hm => (h m hm).2.1, fun m hm => (h m hm).2.2⟩

theorem commits_of_reports {m : Moment Call Input World}
    (h : m.op.countsConfirmed = true ∨ m.op.logsConfirmed = true) : Commits m = false := by
  rw [Commits]
  cases hop : m.op with
  | transaction body =>
    rw [hop] at h
    rcases h with h | h <;> cases h
  | _ => rfl

theorem not_counts_of_logs {o : Call} (h : o.logsConfirmed = true) : o.countsConfirmed = false := by
  cases o with
  | emit e =>
    cases e with
    | metric name tenantId tokenId => cases h
    | log message => rfl
  | _ => cases h

theorem not_reports_of_commits {m : Moment Call Input World} (h : Commits m = true) :
    m.op.countsConfirmed = false ∧ m.op.logsConfirmed = false := by
  constructor
  · by_contra hn
    rw [commits_of_reports (.inl (by simpa using hn))] at h
    cases h
  · by_contra hl
    rw [commits_of_reports (.inr (by simpa using hl))] at h
    cases h

/-- The calls so far of a program whose transactions come in time, and that has got round to its
reports: as many reports of each kind as confirmations. -/
theorem Outcome.counts (h : Outcome (tr ++ tr')) (hin : ∀ m ∈ tr, InTime m) (hr : Reported tr) :
    tr.countP (fun m => m.op.countsConfirmed) = tr.countP Commits ∧
      tr.countP (fun m => m.op.logsConfirmed) = tr.countP Commits := by
  have hapart : (∀ m ∈ tr, Apart m) → tr.countP (fun m => m.op.countsConfirmed) =
      tr.countP Commits ∧ tr.countP (fun m => m.op.logsConfirmed) = tr.countP Commits := by
    intro hall
    obtain ⟨hc, hn, hl⟩ := counts_apart hall
    rw [hc, hn, hl]
    exact ⟨rfl, rfl⟩
  generalize hwhole : tr ++ tr' = whole at h
  cases h with
  | apart h =>
    refine hapart fun m hm => h m ?_
    rw [← hwhole]
    exact List.mem_append_left _ hm
  | @late pre post m hpre hm =>
    rcases List.append_eq_append_iff.mp hwhole with ⟨rest, rfl, -⟩ | ⟨rest, rfl, hrest⟩
    · exact hapart fun m hm => hpre m (List.mem_append_left _ hm)
    · cases rest with
      | nil =>
        rw [List.append_nil] at hapart ⊢
        exact hapart hpre
      | cons m' rest =>
        -- the late transaction would be one of the calls so far
        obtain ⟨rfl, -⟩ := List.cons.inj hrest
        exact absurd (hin m (by simp)) hm
  | @reported pre post c n l hpre hc hn hl hpost =>
    rcases List.append_eq_append_iff.mp hwhole with ⟨rest, rfl, -⟩ | ⟨rest, rfl, hrest⟩
    · exact hapart fun m hm => hpre m (List.mem_append_left _ hm)
    · cases rest with
      | nil =>
        rw [List.append_nil] at hapart ⊢
        exact hapart hpre
      | cons c' rest =>
        have hlen : 2 ≤ rest.length := by
          rw [(List.cons.inj hrest).1] at hc
          exact hr.after hc
        obtain _ | ⟨n', _ | ⟨l', rest⟩⟩ := rest
        · simp at hlen
        · simp at hlen
        simp only [List.cons_append, List.cons.injEq] at hrest
        obtain ⟨rfl, rfl, rfl, rfl⟩ := hrest
        obtain ⟨hc₁, hn₁, hl₁⟩ := counts_apart hpre
        have hrest : ∀ m ∈ rest, Apart m := fun m hm => hpost m (List.mem_append_left _ hm)
        obtain ⟨hc₂, hn₂, hl₂⟩ := counts_apart hrest
        have hlogs : n.op.logsConfirmed = false := by
          by_contra h
          rw [not_counts_of_logs (by simpa using h)] at hn
          cases hn
        simp [hc, hn, hl, hc₁, hn₁, hl₁, hc₂, hn₂, hl₂, hlogs, not_counts_of_logs hl,
          commits_of_reports (.inl hn), commits_of_reports (.inr hl), not_reports_of_commits hc]

end Outcome

/-- The calls of the program come out in one of these ways, whatever the others do. -/
def Reporting {α : Type} (p : Program α) : Prop :=
  ∀ w, wp exec (fun _ _ => True) (fun _ _ => True) p (fun tr _ _ => Outcome tr) w

section Reporting

variable {α β : Type} {p : Program α}

theorem wp_apart (h : All Call.Aside p) (w : World) :
    wp exec (fun _ _ => True) (fun _ _ => True) p (fun tr _ _ => ∀ m ∈ tr, Apart m) w :=
  wp_mono (fun _ _ _ h m hm => (h.1 m hm).apart) (h.wp_trace (wp_any p w))

theorem reporting_of_all (h : All Call.Aside p) : Reporting p :=
  fun w => wp_mono (fun _ _ _ => .apart) (wp_apart h w)

theorem Reporting.after {f : α → Program β} (hp : All Call.Aside p) (hf : ∀ a, Reporting (f a)) :
    Reporting (p.bind f) := by
  intro w
  refine wp_bind.mpr (wp_mono ?_ (wp_apart hp w))
  intro tr r w' htr
  cases r with
  | ok a => exact wp_mono (fun _ _ _ h => h.prepend htr) (hf a w')
  | error e => exact .apart htr

theorem Reporting.bind {f : α → Program β} (hp : Reporting p) (hf : ∀ a, All Call.Aside (f a)) :
    Reporting (p.bind f) := by
  intro w
  refine wp_bind.mpr (wp_mono ?_ (hp w))
  intro tr r w' htr
  cases r with
  | ok a => exact wp_mono (fun _ _ _ h => htr.append h) (wp_apart (hf a) w')
  | error e => exact htr

theorem Reporting.tryCatch {h : JsError → Program α} (hp : Reporting p) (hh : ∀ e, All Call.Aside (h e)) :
    Reporting (p.tryCatch h) := by
  intro w
  refine wp_tryCatch.mpr (wp_mono ?_ (hp w))
  intro tr r w' htr
  cases r with
  | ok a => exact htr
  | error e => exact wp_mono (fun _ _ _ h => htr.append h) (wp_apart (hh e) w')

end Reporting

/-- A process without the right to confirm makes no call that counts here. -/
theorem aside_of_permitted {env : ProcessEnv} {A : List Right} (hA : .write .confirm ∉ A) {o : Call}
    (h : Permitted env A o) : o.Aside := by
  cases o with
  | transaction body => exact absurd h.1 hA
  | emit e =>
    have hnot : e.confirms = false := by
      by_contra hc
      exact hA (h (by simpa using hc))
    cases e with
    | metric name tenantId tokenId => exact ⟨rfl, (Bool.or_false _).trans hnot, rfl⟩
    | log message => exact ⟨rfl, rfl, (Bool.or_false _).trans hnot⟩
  | _ => exact ⟨rfl, rfl, rfl⟩

/-- The body of the transaction answers with a conflict only where the row is not CONFIRMING. -/
theorem persistBody_conflict {tx : Transaction} {result : BlockchainTransaction} {env : StmtEnv}
    {db : Db} {id : String} {expected : TransactionStatus}
    (h : (ConfirmationProcessor.persistBody tx result env db).1 =
      .error (.transactionStateConflict id expected)) :
    ∃ t, db.transactions.get (.txHash (tx.txHash.getD "")) = some t ∧ t.status ≠ CONFIRMING := by
  have hspec := persistBody_spec tx result env db
  unfold ConfirmationProcessor.persistBody at h
  cases hblock : result.blockNumber with
  | none =>
    rw [hblock] at h
    cases h
  | some blockNumber =>
    rw [hblock] at h
    dsimp only at h
    rw [TxM.bind_apply] at h
    unfold TransactionRepository.confirm at h
    rw [TxM.bind_apply, TxM.stmt_apply] at h
    simp only [Stmt.exec] at h
    cases found : db.transactions.get (.txHash (tx.txHash.getD "")) with
    | none =>
      rw [found] at h
      cases h
    | some t =>
      refine ⟨t, rfl, ?_⟩
      intro hs
      rw [found] at h
      dsimp only at h
      rw [TxM.bind_apply, TxM.now_apply] at h
      dsimp only at h
      rw [transition_tx (by decide)] at h
      have hget := (Db.get_txHash.mp found).1
      have hu := db.updateTransactions_spec t.id [CONFIRMING]
        { status := some CONFIRMED, blockNumber := some (some (Js.number blockNumber)),
          gasUsed := some result.gasUsed, confirmedAt := some env.now }
      generalize db.updateTransactions t.id [CONFIRMING] _ = r at h hu
      cases hu with
      | missed hmiss => exact hmiss t hget (List.mem_singleton.mpr hs)
      | refused _ _ taken => exact taken fun hash h => by cases h
      | outOfRange large => cases h
      | matched found' _ _ rows _ =>
        -- the row is updated; what can still fail is the insertion of the event
        rw [hget, Option.some.injEq] at found'
        subst found'
        dsimp only at h
        rw [if_pos rfl, rows, if_pos rfl] at h
        dsimp only [orThrow] at h
        rw [TxM.bind_apply] at h
        unfold OutboxEventRepository.createInTransaction at h
        rw [TxM.stmt_apply] at h
        simp only [Stmt.exec, Db.createOutboxEvent] at h
        cases hi : db.outboxEvents.insert _ with
        | none =>
          rw [hi] at h
          cases h
        | some events =>
          rw [hi] at h
          cases h

/-- A transaction that answers with a conflict comes too late. -/
theorem late_of_conflict {tx : Transaction} {result : BlockchainTransaction} {i : Input} {w : World}
    {id : String} {expected : TransactionStatus}
    (h : (exec (.transaction (ConfirmationProcessor.persistBody tx result)) i w).1 =
      .error (.transactionStateConflict id expected)) :
    ¬ InTime ⟨w, .transaction (ConfirmationProcessor.persistBody tx result), i⟩ := by
  intro hin
  rcases exec_cases (.transaction (ConfirmationProcessor.persistBody tx result)) i w with
    he | ⟨message, he | he⟩
  · rw [he] at h
    simp only [Call.effect] at h
    have hbody : (ConfirmationProcessor.persistBody tx result ⟨w.clock, i.uuid⟩ w.db).1 =
        .error (.transactionStateConflict id expected) := by
      generalize ConfirmationProcessor.persistBody tx result ⟨w.clock, i.uuid⟩ w.db = r at h
      obtain ⟨e | a, db'⟩ := r
      · exact h
      · cases h
    obtain ⟨t, found, hs⟩ := persistBody_conflict hbody
    exact hs (hin tx result rfl t found)
  · rw [he] at h
    cases h
  · rw [he] at h
    cases h

/-! ## The programs -/

theorem aside_of_rights {α : Type} (env : ProcessEnv) (A : List Right) (hA : .write .confirm ∉ A)
    {p : Program α}
    (h : All (Permitted env A) p) : All Call.Aside p :=
  h.mono fun _ => aside_of_permitted hA

/-- **The transaction and its reports**: the reports follow the transaction at once. -/
theorem reporting_report (tx : Transaction) (result : BlockchainTransaction) :
    Reporting ((ConfirmationProcessor.persistConfirmation tx result).bind fun _ =>
      (incrementMetric "transactions_confirmed_total" tx.tenantId tx.tokenId).bind fun _ =>
        .perform (Call.emit (.log "transaction.confirmed"))) := by
  intro w
  refine wp_bind.mpr (wp_tryCatch.mpr (wp_perform.mpr ?_))
  intro w₁ _ i
  refine ⟨trivial, ?_⟩
  cases hr : (exec (.transaction (ConfirmationProcessor.persistBody tx result)) i w₁).1 with
  | ok a =>
    refine wp_bind.mpr (wp_perform.mpr ?_)
    intro w₂ _ j
    refine ⟨trivial, ?_⟩
    rw [exec_of_inProcess rfl]
    refine wp_perform.mpr ?_
    intro w₃ _ k
    refine ⟨trivial, ?_⟩
    refine outcome_reported ?_ rfl rfl
    simp [Commits, Call.isTransaction, hr, Except.isOk, Except.toBool]
  | error e =>
    have hapart : Apart ⟨w₁, .transaction (ConfirmationProcessor.persistBody tx result), i⟩ := by
      refine ⟨?_, rfl, rfl⟩
      simp [Commits, Call.isTransaction, hr, Except.isOk, Except.toBool]
    by_cases hconflict : ∃ id expected, e = .transactionStateConflict id expected
    · -- whatever follows, this transaction was late
      obtain ⟨id, expected, rfl⟩ := hconflict
      refine wp_mono ?_ (wp_any _ _)
      intro tr r w₂ _
      cases r with
      | ok a =>
        refine wp_mono ?_ (wp_any _ _)
        intro tr' r' w₃ _
        exact outcome_late (late_of_conflict hr)
      | error e => exact outcome_late (late_of_conflict hr)
    · cases e with
      | transactionStateConflict id expected => exact absurd ⟨id, expected, rfl⟩ hconflict
      | _ => exact .apart (by simpa using hapart)

theorem reporting_processTransaction (registry : BlockchainAdapterRegistry)
    (transactionId tenantId : String) :
    Reporting (ConfirmationProcessor.processTransaction registry transactionId tenantId) := by
  refine Reporting.after (all_perform ⟨rfl, rfl, rfl⟩) ?_
  intro found
  split
  · exact reporting_of_all trivial
  split
  · exact reporting_of_all trivial
  refine Reporting.tryCatch ?_ ?_
  · refine Reporting.after ?_ ?_
    · exact All.bind (aside_of_rights (fun _ => none) [] (by simp) (permitted_ofExcept _))
        fun _ => all_perform ⟨rfl, rfl, rfl⟩
    intro result
    split
    · refine Reporting.after (aside_of_rights (fun _ => none) [.write .claim] (by simp)
        (permitted_claimConfirmation (by simp) _)) ?_
      intro claimed
      split
      · exact reporting_report _ _
      · exact reporting_of_all trivial
    · exact reporting_of_all (aside_of_rights (fun _ => none) [.write .fail] (by simp)
        (permitted_handleRevertedTransaction (by simp) _))
    · exact reporting_of_all trivial
  · intro error
    exact aside_of_rights (fun _ => none) [] (by simp)
      (permitted_handleConfirmationError _ error)

theorem reporting_confirmationQueueWorker (registry : BlockchainAdapterRegistry) (jobId : String) :
    Reporting (confirmationQueueWorker registry jobId) := by
  refine Reporting.after (all_perform ⟨rfl, rfl, rfl⟩) ?_
  intro data
  split
  · exact reporting_of_all trivial
  refine Reporting.bind ?_ ?_
  · refine Reporting.tryCatch ?_ fun _ => trivial
    exact (reporting_processTransaction _ _ _).bind fun _ => trivial
  · intro succeeded
    split <;> exact all_perform ⟨rfl, rfl, rfl⟩

/-- **The calls of every task come out in one of these ways.** -/
theorem reporting_prog (D : Deployment) (t : Task) : Reporting (D.prog t) := by
  have haside : .write .confirm ∉ t.rights → Reporting (D.prog t) :=
    fun hA => reporting_of_all (aside_of_rights _ _ hA (permitted_prog D t))
  cases t with
  | processTransaction id tenantId => exact reporting_processTransaction _ _ _
  | confirmationJob jobId => exact reporting_confirmationQueueWorker _ _
  | _ => exact haside (by simp [Task.rights])

/-! ## One call -/

/-- The events that announce a confirmation. -/
def World.confirmedEvents (w : World) : Nat :=
  w.db.outboxEvents.rows.countP fun e => e.type = "transaction.confirmed"

/-- **Each confirmed row has its one event, and each event its row**: there are as many of either. -/
theorem confirmedRows_eq {w : World} (h : Sound w.ledger) : w.confirmedRows = w.confirmedEvents := by
  have hperm : ((w.db.transactions.rows.filter fun t => t.status = CONFIRMED).map (·.id)).Perm
      ((w.db.outboxEvents.rows.filter fun e => e.type = "transaction.confirmed").map
        (·.aggregateId)) := by
    rw [List.perm_iff_count]
    intro id
    have hevents : ((w.db.outboxEvents.rows.filter fun e => e.type = "transaction.confirmed").map
        (·.aggregateId)).count id = (w.ledger.confirmations id).length := by
      rw [List.count, List.countP_map, List.countP_filter, Ledger.confirmations,
        ← List.countP_eq_length_filter]
      refine List.countP_congr ?_
      intro e _
      simp [and_comm]
    have hrows : ((w.db.transactions.rows.filter fun t => t.status = CONFIRMED).map (·.id)).count id =
        if (w.ledger.row id).any (fun t => t.id = id && t.status = CONFIRMED) then 1 else 0 := by
      rw [List.count, List.countP_map, List.countP_filter]
      refine (w.db.transactions.countP_eq_of_key (k := .id id) ?_).trans rfl
      intro t ht
      obtain ⟨hid, -⟩ : t.id = id ∧ t.status = CONFIRMED := by simpa using ht
      simp [hid]
    rw [hevents, hrows]
    rcases h.announced id with ⟨t, e, hrow, hs, hone, -⟩ | ⟨hnot, hnone⟩
    · rw [hrow, hone, Option.any_some, h.ids id t hrow, hs]
      simp
    · cases hrow : w.ledger.row id with
      | none => simp [hnone]
      | some t => simp [hnone, hnot t hrow]
  have hlen := hperm.length_eq
  rw [List.length_map, List.length_map] at hlen
  rw [World.confirmedRows, World.confirmedEvents, List.countP_eq_length_filter, hlen,
    List.countP_eq_length_filter]

/-- **A transaction that succeeds adds one event of a confirmation**, and no other call adds any. -/
theorem confirmedEvents_exec {D : Deployment} {m : Moment Call Input World} (h : Issued D m.op)
    (hack : Acknowledged m) : (exec m.op m.input m.state).2.confirmedEvents =
      m.state.confirmedEvents + (Commits m).toNat := by
  obtain ⟨w, o, i⟩ := m
  obtain ⟨A, h⟩ := h
  have hledger : ∀ {w' : World}, w'.ledger = w.ledger → w'.confirmedEvents = w.confirmedEvents :=
    fun he => congrArg (fun l : Ledger =>
      l.events.countP fun e : OutboxEvent => e.type = "transaction.confirmed") he
  cases o with
  | transaction body =>
    obtain ⟨-, tx, result, rfl⟩ := h
    have hp := persistBody_spec tx result ⟨w.clock, i.uuid⟩ w.db
    cases hf : i.fault with
    | none =>
      dsimp only [Commits]
      rw [exec_of_fault_none hf]
      simp only [Call.effect]
      generalize ConfirmationProcessor.persistBody tx result ⟨w.clock, i.uuid⟩ w.db = r at hp
      cases hp with
      | noBlock | notFound | conflict | outOfRange | duplicate => rfl
      | done hblock found hs rows hevents references =>
        dsimp only [World.confirmedEvents]
        rw [hevents, List.countP_append]
        rfl
    | some f =>
      have hnot := hack rfl f hf
      have he : exec (.transaction (ConfirmationProcessor.persistBody tx result)) i w =
          (.error (.error f.message), w) := by
        rw [exec, if_neg (by simp [Call.inProcess]), hf]
        simp [hnot]
      dsimp only [Commits]
      rw [he]
      rfl
  | stmt s =>
    have hs : s.target ≠ some .outboxEvents := by
      intro ht
      cases s with
      | outboxEventCreate => exact h
      | _ => simp [Stmt.target] at ht
    have hsame := (s.exec_sameBut ⟨w.clock, i.uuid⟩ w.db).outboxEvents hs
    refine exec_snd (P := fun w w' => w'.confirmedEvents = w.confirmedEvents) rfl ?_
    simp only [Call.effect, World.confirmedEvents, hsame]
  | getTransaction =>
    refine exec_snd (P := fun w w' => w'.confirmedEvents = w.confirmedEvents) rfl ?_
    simp only [Call.effect]
    split <;> rfl
  | _ => exact hledger (exec_snd (P := fun w w' => w'.ledger = w.ledger) rfl (ledger_offLedger rfl i w))

theorem emissions_exec (o : Call) (i : Input) (w : World) :
    (exec o i w).2.emissions = o.emitted ++ w.emissions := by
  cases o with
  | emit e =>
    rw [exec_of_inProcess rfl]
    rfl
  | transaction body =>
    refine exec_snd (P := fun w w' => w'.emissions = w.emissions) rfl ?_
    simp only [Call.effect]
    generalize body ⟨w.clock, i.uuid⟩ w.db = r
    obtain ⟨e | a, db⟩ := r <;> rfl
  | queueTake =>
    refine exec_snd (P := fun w w' => w'.emissions = w.emissions) rfl ?_
    simp only [Call.effect]
    split
    · split <;> rfl
    · rfl
  | getTransaction | submitTransfer | generateWallet | balanceOf | nativeBalance | processingAdd =>
    refine exec_snd (P := fun w w' => w'.emissions = w.emissions) rfl ?_
    simp only [Call.effect]
    split <;> rfl
  | _ => exact exec_snd (P := fun w w' => w'.emissions = w.emissions) rfl rfl

theorem countP_emissions_exec (p : Emission → Bool) (o : Call) (i : Input) (w : World) :
    (exec o i w).2.emissions.countP p = w.emissions.countP p + (o.emitted.any p).toNat := by
  rw [emissions_exec, List.countP_append, Nat.add_comm]
  congr 1
  cases o with
  | emit e => cases h : p e <;> simp [Call.emitted, h]
  | _ => rfl

/-! ## Runs -/

theorem respects_nothing (D : Deployment) :
    Respects D.system (fun _ _ => True) (fun _ _ => True) (fun _ => True) fun _ => True where
  refl _ := trivial
  sub _ _ _ := trivial
  keeps _ _ _ _ := trivial
  task t _ w _ := wp_any (D.prog t) w
  shift _ _ _ _ := trivial

/-- The calls of every program of a run are the first part of what may come out. -/
theorem outcome_callsOf (D : Deployment) (w : World) (es : List SystemEvent) {pid : Nat}
    (hpid : pid < (w.start.after D.system es).procs.length) :
    ∃ tr, Outcome (w.start.callsOf D.system pid es ++ tr) := by
  rw [length_procs_after] at hpid
  obtain ⟨t, ht⟩ : ∃ t, (spawned es)[pid]? = some t :=
    ⟨_, List.getElem?_eq_getElem (by simpa [World.start] using hpid)⟩
  have h := calls_of_wp (F := fun _ tr => ∃ tr', Outcome (tr ++ tr')) (respects_nothing D)
    (fun _ tr tr' ⟨rest, h⟩ => ⟨tr' ++ rest, by rwa [← List.append_assoc]⟩)
    (fun t _ w _ => wp_mono (fun _ _ _ h => ⟨[], by rwa [List.append_nil]⟩) (reporting_prog D t w))
    (Healthy.init trivial) (Tracked.init w) (by simp) (fun e (_ : e ∈ es) => trivial) pid t
    (by simpa using ht)
  simpa [World.start] using h

/-- **The reports count the confirmations.**  In a run in which every transaction that is to confirm
a row finds it CONFIRMING and no transaction that throws has taken effect, and in which every program
gets from its confirmation to its reports: the counter has been incremented, and the line logged, as
often as rows have been confirmed. -/
theorem confirmed_counted (D : Deployment) (w : World) (hw : w.Initial) (es : List SystemEvent)
    (hin : ∀ m ∈ w.start.moments D.system es, InTime m)
    (hack : ∀ m ∈ w.start.moments D.system es, Acknowledged m)
    (hreported : ∀ pid < (w.start.after D.system es).procs.length,
      Reported (w.start.callsOf D.system pid es)) :
    (w.start.after D.system es).world.countedConfirmations =
        w.countedConfirmations + (w.start.after D.system es).world.confirmedRows ∧
      (w.start.after D.system es).world.loggedConfirmations =
        w.loggedConfirmations + (w.start.after D.system es).world.confirmedRows := by
  have hcommits : (w.start.after D.system es).world.confirmedRows =
      (w.start.moments D.system es).countP Commits := by
    rw [confirmedRows_eq (sound_after D hw es)]
    have hmeasure := measure_after (S := D.system) (c := w.start) es
      (f := World.confirmedEvents) (P := Commits) ?_ ?_
    · have hnone : w.start.world.confirmedEvents = 0 := by
        show w.db.outboxEvents.rows.countP _ = 0
        rw [hw.outboxEvents]
        rfl
      rw [hmeasure, hnone, Nat.zero_add]
    · intro m hm
      obtain ⟨fs, e, gs, -, he⟩ := Config.mem_moments_iff.mp hm
      exact confirmedEvents_exec (issued_moment D w he) (hack m hm)
    · intro d v
      cases d <;> rfl
  have hcounted := measure_after (S := D.system) (c := w.start) es
    (f := World.countedConfirmations) (P := fun m => m.op.countsConfirmed)
    (fun m _ => countP_emissions_exec _ m.op m.input m.state) (fun d v => by cases d <;> rfl)
  have hlogged := measure_after (S := D.system) (c := w.start) es
    (f := World.loggedConfirmations) (P := fun m => m.op.logsConfirmed)
    (fun m _ => countP_emissions_exec _ m.op m.input m.state) (fun d v => by cases d <;> rfl)
  -- program by program: as many reports as confirmations
  have hpid : ∀ pid ∈ Finset.range (w.start.after D.system es).procs.length,
      (w.start.callsOf D.system pid es).countP (fun m => m.op.countsConfirmed) =
          (w.start.callsOf D.system pid es).countP Commits ∧
        (w.start.callsOf D.system pid es).countP (fun m => m.op.logsConfirmed) =
          (w.start.callsOf D.system pid es).countP Commits := by
    intro pid hpid
    have hlt := Finset.mem_range.mp hpid
    obtain ⟨tr, htr⟩ := outcome_callsOf D w es hlt
    exact htr.counts (fun m hm => hin m (mem_moments_of_mem_callsOf hm)) (hreported pid hlt)
  rw [countP_moments _ le_rfl] at hcommits hcounted hlogged
  rw [hcounted, hlogged, hcommits]
  exact ⟨congrArg _ (Finset.sum_congr rfl fun pid h => (hpid pid h).1),
    congrArg _ (Finset.sum_congr rfl fun pid h => (hpid pid h).2)⟩

/-- The transfer, and one attempt of the confirmation worker to its end. -/
def reportedConfirmation : List SystemEvent := sampleConfirmation ++ steps 1 [{}, {}]

theorem confirmed_counted_sample :
    (World.sample.start.after Deployment.defaults.system
      reportedConfirmation).world.confirmedRows = 1 ∧
    (World.sample.start.after Deployment.defaults.system
      reportedConfirmation).world.countedConfirmations = 1 := by
  have hrows : (World.sample.start.after Deployment.defaults.system
      reportedConfirmation).world.confirmedRows = 1 := by decide +kernel
  have hin : ∀ m ∈ World.sample.start.moments Deployment.defaults.system reportedConfirmation,
      m.op.isTransaction = true → ∀ t ∈ m.state.db.transactions.rows, t.status = CONFIRMING := by
    decide +kernel
  have hack : ∀ m ∈ World.sample.start.moments Deployment.defaults.system reportedConfirmation,
      m.input.fault = none := by
    decide +kernel
  have h := (confirmed_counted .defaults .sample World.sample_initial reportedConfirmation ?_ ?_
    (by decide +kernel)).1
  · rw [hrows] at h
    exact ⟨hrows, h⟩
  · intro m hm tx result hop t ht
    refine hin m hm (by rw [hop]; rfl) t ?_
    exact ((Table.get_eq_some_iff _).mp ht).1
  · intro m hm _ f hf
    rw [hack m hm] at hf
    cases hf

/-- Two workers have the chain's answer for one row; the second goes on with the claim of the first,
and its transaction comes after the one that confirms the row. -/
def raceForConfirmation : List SystemEvent :=
  sampleTransfer ++ .spawn (.processTransaction "tx" "tenant") ::
    .spawn (.processTransaction "tx" "tenant") ::
    (steps 1 [{}, { reply := .transaction ⟨"0x01", some 3, 1, .confirmed, some 21000⟩ }, {}, {}, {}] ++
      steps 2 [{}, { reply := .transaction ⟨"0x01", some 3, 1, .confirmed, some 21000⟩ }, {}, {}, {}, {}] ++
      steps 1 [{ uuid := "event" }, {}, {}] ++ steps 2 [{}, {}, {}, {}, {}])

/-- One row is confirmed, and counted and logged twice, in a run without a fault or a crash in which
every program returns. -/
theorem confirmed_counted_twice :
    World.sample.Initial ∧
    (World.sample.start.after Deployment.defaults.system raceForConfirmation).Returned ∧
    (∀ m ∈ World.sample.start.moments Deployment.defaults.system raceForConfirmation,
      m.input.fault = none) ∧
    (World.sample.start.after Deployment.defaults.system
      raceForConfirmation).world.confirmedRows = 1 ∧
    (World.sample.start.after Deployment.defaults.system
      raceForConfirmation).world.countedConfirmations = 2 ∧
    (World.sample.start.after Deployment.defaults.system
      raceForConfirmation).world.loggedConfirmations = 2 :=
  ⟨World.sample_initial, by decide +kernel⟩

end TransactionSimulator
