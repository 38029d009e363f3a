import TransactionSimulator.Ledger.Refinement

/-!
# The life of a row, over whole runs

* `statusHistory`: the statuses that a row shows in the states a run passes through.
* `history_statusHistory`: this is the history that made the row.
* `row_lifecycle`: what follows for its status and its columns.
* `outbox_correspondence`: the CONFIRMED rows and the events that announce them.
* `confirmed_by_one_answer`: where the block and the gas of a CONFIRMED row come from.
-/

namespace TransactionSimulator

open Concurrent TransactionStatus TransactionStateMachine Ledger

/-- The history with the status that is seen next, unless it is the last one again. -/
def recordStatus (h : List TransactionStatus) : Option TransactionStatus → List TransactionStatus
  | none => h
  | some s => if h.getLast? = some s then h else h ++ [s]

/-- The statuses of the row `id` along a run, each listed once while it lasts. -/
def statusHistory (D : Deployment) (w : World) (es : List SystemEvent) (id : String) :
    List TransactionStatus :=
  (w.start.worlds D.system es).foldl
    (fun h w => recordStatus h ((w.db.transactions.get (.id id)).map (·.status))) []

theorem statusHistory_snoc (D : Deployment) (w : World) (es : List SystemEvent)
    (e : SystemEvent) (id : String) :
    statusHistory D w (es ++ [e]) id = recordStatus (statusHistory D w es id)
      (((w.start.after D.system (es ++ [e])).world.db.transactions.get (.id id)).map (·.status)) := by
  rw [statusHistory, Config.worlds_append_singleton, List.foldl_append, Config.after_append]
  rfl

/-- What the recorded history is for the row that the run has left. -/
def Records (r : Option Transaction) (h : List TransactionStatus) : Prop :=
  match r with
  | none => h = []
  | some t => History t h

/-- One change of a row, recorded. -/
theorem Records.change {K : List Kind} {l : Ledger} {id : String} {r r' : Option Transaction}
    {h : List TransactionStatus} (hr : RowChange K l id r r') (hh : Records r h) :
    Records r' (recordStatus h (r'.map (·.status))) := by
  cases hr with
  | same =>
    cases r with
    | none => exact hh
    | some t =>
      show History t (if h.getLast? = some t.status then h else h ++ [t.status])
      rw [if_pos hh.getLast_eq]
      exact hh
  | @created t hk fresh =>
    have hnil : h = [] := hh
    subst hnil
    show History t [t.status]
    rw [fresh.status]
    exact .created fresh
  | @moved k t t' hk moves =>
    have hne : ¬ h.getLast? = some t'.status := by
      rw [History.getLast_eq hh, Option.some.injEq]
      intro he
      have hcan := moves.canTransition
      rw [he] at hcan
      revert hcan
      cases t'.status <;> decide
    show History t' (if h.getLast? = some t'.status then h else h ++ [t'.status])
    rw [if_neg hne]
    exact .moved hh moves

/-- **The recorded history of a row is the history that made it.** -/
theorem records_statusHistory (D : Deployment) {w : World} (hw : w.Initial)
    (es : List SystemEvent) (id : String) :
    Records ((w.start.after D.system es).world.db.transactions.get (.id id))
      (statusHistory D w es id) := by
  induction es using List.reverseRecOn with
  | nil =>
    have hnone : w.db.transactions.get (.id id) = none := by
      rw [Relational.Table.get_eq_none_iff, hw.transactions]
      simp
    show Records (w.db.transactions.get (.id id)) (recordStatus [] ((w.db.transactions.get
      (.id id)).map (·.status)))
    rw [hnone]
    rfl
  | append_singleton es e ih =>
    rw [statusHistory_snoc, Config.after_append]
    have hpool := healthy_after D hw es
    have hstep := (hpool.apply (respects_ledger D allKinds) (limited_allKinds e)).1
    exact Records.change (hstep.row id) ih

/-- A row in a terminal status is never written again. -/
theorem terminal_stays (D : Deployment) {w : World} (hw : w.Initial) (es fs : List SystemEvent)
    {t : Transaction} (ht : t ∈ (w.start.after D.system es).world.db.transactions.rows)
    (hs : t.status.isTerminal = true) :
    t ∈ (w.start.after D.system (es ++ fs)).world.db.transactions.rows := by
  rw [Config.after_append]
  have hpath := ((healthy_after D hw es).after (respects_ledger D allKinds)
    fun e (_ : e ∈ fs) => limited_allKinds e).1
  rw [Db.mem_transactions] at ht ⊢
  refine inv_of_path (I := fun w => w.ledger.row t.id = some t) ?_ ht hpath
  intro v v' hv h
  have hr := h.row t.id
  rw [hv] at hr
  generalize v'.ledger.row t.id = r' at hr
  cases hr with
  | same => rfl
  | moved hk moves =>
    have hnot := moves.not_terminal
    rw [hs] at hnot
    cases hnot

/-- **The lifecycle of every row, in every reachable state.**  Its history is a path of the table
of transitions from PENDING to its status, with no terminal status before the end; once it is
terminal it is never written again; and its columns tell where it has been. -/
theorem row_lifecycle (D : Deployment) (w : World) (hw : w.Initial) (es : List SystemEvent)
    (t : Transaction) (ht : t ∈ (w.start.after D.system es).world.db.transactions.rows) :
    (statusHistory D w es t.id).head? = some PENDING ∧
    (statusHistory D w es t.id).IsChain (fun a b => canTransition a b = true) ∧
    (statusHistory D w es t.id).getLast? = some t.status ∧
    (statusHistory D w es t.id).countP (·.isTerminal) ≤ 1 ∧
    (t.status.isTerminal = true → ∀ fs,
      t ∈ (w.start.after D.system (es ++ fs)).world.db.transactions.rows) ∧
    (t.txHash.isSome ↔ SUBMITTED ∈ statusHistory D w es t.id) ∧
    (t.submittedAt.isSome ↔ SUBMITTED ∈ statusHistory D w es t.id) ∧
    (t.confirmationStartedAt.isSome ↔ CONFIRMING ∈ statusHistory D w es t.id) ∧
    (t.blockNumber.isSome ↔ t.status = CONFIRMED) ∧
    (t.confirmedAt.isSome ↔ t.status = CONFIRMED) ∧
    (t.failedAt.isSome ↔ t.status = FAILED ∨ t.status = EXPIRED) ∧
    (t.failureReason.isSome ↔ t.status = FAILED ∨ t.status = EXPIRED) := by
  have H : History t (statusHistory D w es t.id) := by
    have hrec := records_statusHistory D hw es t.id
    rw [Db.mem_transactions.mp ht] at hrec
    exact hrec
  have hcount : (statusHistory D w es t.id).countP (·.isTerminal) ≤ 1 := by
    rw [H.terminal_count]
    split <;> omega
  exact ⟨H.head_eq, H.isChain, H.getLast_eq, hcount, fun hs fs => terminal_stays D hw es fs ht hs,
    H.submitted_iff.1, H.submitted_iff.2, H.confirming_iff, H.confirmed_iff.1, H.confirmed_iff.2,
    H.failed_iff.1, H.failed_iff.2⟩

theorem rows_sampleTransfer : (World.sample.start.after Deployment.defaults.system
    sampleTransfer).world.db.transactions.rows = [.sample] := by
  decide

theorem row_lifecycle_sampleTransfer :
    Transaction.sample ∈ (World.sample.start.after Deployment.defaults.system
      sampleTransfer).world.db.transactions.rows ∧
    statusHistory .defaults .sample sampleTransfer "tx" = [PENDING, SUBMITTED] ∧
    (Transaction.sample.txHash.isSome ↔
      SUBMITTED ∈ statusHistory .defaults .sample sampleTransfer "tx") := by
  have hmem : Transaction.sample ∈ (World.sample.start.after Deployment.defaults.system
      sampleTransfer).world.db.transactions.rows := by
    rw [rows_sampleTransfer]
    exact List.mem_singleton_self _
  have h := row_lifecycle .defaults .sample World.sample_initial sampleTransfer .sample hmem
  exact ⟨hmem, by decide, h.2.2.2.2.2.1⟩

/-! ## The outbox -/

/-- **The CONFIRMED rows and the `transaction.confirmed` events correspond one to one**, in every
reachable state: a CONFIRMED row has exactly one event, which carries its columns, and every such
event belongs to a CONFIRMED row. -/
theorem outbox_correspondence (D : Deployment) (w : World) (hw : w.Initial)
    (es : List SystemEvent) :
    (∀ t ∈ (w.start.after D.system es).world.db.transactions.rows, t.status = CONFIRMED →
      ∃ e, (w.start.after D.system es).world.db.outboxEvents.rows.filter
          (fun e => e.type = "transaction.confirmed" && e.aggregateId = t.id) = [e] ∧
        e.payload.transactionId = t.id ∧ e.payload.tenantId = t.tenantId ∧
        e.payload.tokenId = t.tokenId ∧ e.payload.txHash = t.txHash ∧
        e.payload.blockNumber = t.blockNumber.map toString ∧
        e.payload.amount = toString t.amount ∧
        e.payload.confirmedAt = t.confirmedAt.map Js.toISOString) ∧
    (∀ e ∈ (w.start.after D.system es).world.db.outboxEvents.rows,
      e.type = "transaction.confirmed" →
      ∃ t ∈ (w.start.after D.system es).world.db.transactions.rows,
        t.status = CONFIRMED ∧ e.aggregateId = t.id) := by
  have hsound := sound_after D hw es
  generalize (w.start.after D.system es).world = v at hsound
  constructor
  · intro t ht hs
    have hrow : v.ledger.row t.id = some t := Db.mem_transactions.mp ht
    rcases hsound.announced t.id with ⟨s, e, hsome, _, hevents, hann⟩ | ⟨hnot, _⟩
    · rw [hrow, Option.some.injEq] at hsome
      subst hsome
      have hp := hann.payload
      refine ⟨e, hevents, ?_⟩
      rw [hp]
      exact ⟨rfl, rfl, rfl, rfl, rfl, rfl, rfl⟩
    · exact absurd hs (hnot t hrow)
  · intro e he htype
    have hmem : e ∈ v.ledger.confirmations e.aggregateId := by
      rw [confirmations, List.mem_filter]
      exact ⟨he, by simp [htype]⟩
    rcases hsound.announced e.aggregateId with ⟨t, _, hrow, hs, _, _⟩ | ⟨_, hnil⟩
    · have hid : t.id = e.aggregateId := hsound.ids _ t hrow
      refine ⟨t, Db.mem_transactions.mpr ?_, hs, hid.symm⟩
      rw [hid]
      exact hrow
    · rw [hnil] at hmem
      cases hmem

/-- The transfer, and one attempt of the confirmation worker that is answered `confirmed`. -/
def sampleConfirmation : List SystemEvent :=
  sampleTransfer ++ .spawn (.processTransaction "tx" "tenant") ::
    steps 1 [{}, { reply := .transaction ⟨"0x01", some 3, 1, .confirmed, some 21000⟩ }, {}, {}, {},
      { uuid := "event" }]

theorem outbox_correspondence_sampleConfirmation :
    World.sample.Initial ∧
    (World.sample.start.after Deployment.defaults.system
      sampleConfirmation).world.db.transactions.rows.map (·.status) = [CONFIRMED] ∧
    (∀ e ∈ (World.sample.start.after Deployment.defaults.system
        sampleConfirmation).world.db.outboxEvents.rows, e.type = "transaction.confirmed" →
      ∃ t ∈ (World.sample.start.after Deployment.defaults.system
        sampleConfirmation).world.db.transactions.rows,
        t.status = CONFIRMED ∧ e.aggregateId = t.id) :=
  ⟨World.sample_initial, by decide,
    (outbox_correspondence .defaults .sample World.sample_initial sampleConfirmation).2⟩

/-! ## Confirmations and answers -/

theorem attested_after (D : Deployment) {w : World} (hw : w.Initial) (es : List SystemEvent) :
    Attested (w.start.after D.system es).world.ledger := by
  have hpath := ((healthy_start D allKinds hw.sound).after (respects_ledger D allKinds)
    fun e (_ : e ∈ es) => limited_allKinds e).1
  have hinit : Attested w.ledger := by
    refine Attested.init ?_
    intro id
    show w.db.transactions.get (.id id) = none
    rw [Relational.Table.get_eq_none_iff, hw.transactions]
    simp
  exact inv_of_path (I := fun w : World => Attested w.ledger) (fun _ _ hv h => hv.change h) hinit hpath

/-- **The block and the gas of a CONFIRMED row come from one answer**, in every reachable state: the adapter
of its token's chain gave it for the hash of the row, with the status `confirmed`; and the row stays as it is
whatever happens afterwards. -/
theorem confirmed_by_one_answer (D : Deployment) (w : World) (hw : w.Initial) (es : List SystemEvent)
    (hblocks : ∀ a ∈ (w.start.after D.system es).world.answers, ∀ n, a.result.blockNumber = some n → n < 2 ^ 53)
    (t : Transaction) (ht : t ∈ (w.start.after D.system es).world.db.transactions.rows)
    (hs : t.status = CONFIRMED) :
    (∃ a ∈ (w.start.after D.system es).world.answers, ∃ token,
      (w.start.after D.system es).world.db.tokens.get (.id t.tokenId) = some token ∧ a.chain = token.blockchain ∧
      t.txHash = some a.txHash ∧ a.result.status = .confirmed ∧
      t.blockNumber = a.result.blockNumber ∧ t.gasUsed = a.result.gasUsed) ∧
    ∀ fs, ∀ t' ∈ (w.start.after D.system (es ++ fs)).world.db.transactions.rows, t'.id = t.id →
      t'.status = CONFIRMED ∧ t'.blockNumber = t.blockNumber ∧ t'.gasUsed = t.gasUsed := by
  constructor
  · have hrow := Db.mem_transactions.mp ht
    obtain ⟨result, ⟨a, ha, hchain, htx, hresult⟩, hconfirmed, hblock, hgas⟩ :=
      attested_after D hw es t.id t hrow hs
    obtain ⟨token, htoken, hblockchain⟩ := Option.map_eq_some_iff.mp hchain
    refine ⟨a, ha, token, htoken, hblockchain.symm, htx, hresult ▸ hconfirmed, ?_, hresult ▸ hgas⟩
    rw [hblock, ← hresult]
    cases hn : a.result.blockNumber with
    | none => rfl
    | some n =>
      rw [Option.map_some, Js.number_of_lt (hblocks a ha n hn)]
  · intro fs t' ht' hid
    have hstays := terminal_stays D hw es fs ht (by rw [hs]; rfl)
    have hsame : t' = t := by
      have hget := Db.mem_transactions.mp hstays
      have hget' := Db.mem_transactions.mp ht'
      rw [hid, hget, Option.some.injEq] at hget'
      exact hget'.symm
    rw [hsame]
    exact ⟨hs, rfl, rfl⟩

/-- The row that `sampleConfirmation` leaves has the block of the answer. -/
theorem confirmed_by_one_answer_sample :
    ∃ t ∈ (World.sample.start.after Deployment.defaults.system sampleConfirmation).world.db.transactions.rows,
      t.status = CONFIRMED ∧
      ∃ a ∈ (World.sample.start.after Deployment.defaults.system sampleConfirmation).world.answers,
        t.txHash = some a.txHash ∧ t.blockNumber = a.result.blockNumber := by
  have hblocks : ∀ a ∈ (World.sample.start.after Deployment.defaults.system sampleConfirmation).world.answers,
      ∀ n, a.result.blockNumber = some n → n < 2 ^ 53 := by
    have hanswers : (World.sample.start.after Deployment.defaults.system sampleConfirmation).world.answers =
        [⟨.EVM, "0x01", ⟨"0x01", some 3, 1, .confirmed, some 21000⟩⟩] := by decide
    rw [hanswers]
    intro a ha n hn
    rw [List.mem_singleton.mp ha, Option.some.injEq] at hn
    omega
  have hrows : (World.sample.start.after Deployment.defaults.system
      sampleConfirmation).world.db.transactions.rows.any (fun t => t.status = CONFIRMED) = true := by decide
  obtain ⟨t, ht, hs⟩ := List.any_eq_true.mp hrows
  have hs : t.status = CONFIRMED := by simpa using hs
  obtain ⟨a, ha, _, _, _, htx, _, hblock, _⟩ :=
    (confirmed_by_one_answer .defaults .sample World.sample_initial sampleConfirmation hblocks t ht hs).1
  exact ⟨t, ht, hs, a, ha, htx, hblock⟩

end TransactionSimulator
