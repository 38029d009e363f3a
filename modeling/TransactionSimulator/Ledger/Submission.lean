import TransactionSimulator.Ledger.Transitions

/-!
# What a transfer request leaves after its broadcast

Once `adapter.submitTransfer` has returned a hash, money moves.  `transfer_keeps_iff` says when
the request then ends as it should, neither throwing nor failing its row: exactly if the hash is
recorded in a row that is still PENDING, the row is read again and the confirmation is enqueued.
Any error on the way leads to the `catch` block, which throws or fails the row.
-/

namespace TransactionSimulator

open Concurrent Prog Relational TransactionStatus Ledger

/-- The broadcast: the adapter returned a hash. -/
def Broadcasts (m : Moment Call Input World) : Prop :=
  ∃ chain request hash, m.op = .submitTransfer chain request ∧ m.input.fault = none ∧
    m.input.reply = .submission hash

/-- After the broadcast, the call goes wrong: the update, the second reading or the enqueueing
fails, or the update does not find the row as it asks for or its hash free. -/
def GoesWrong (m : Moment Call Input World) : Prop :=
  match m.op with
  | .stmt (.transactionUpdateMany id status data) => m.input.fault ≠ none ∨
      ¬ ∃ t, m.state.ledger.row id = some t ∧ t.status ∈ status ∧ m.state.db.HashFree id data
  | .stmt (.transactionFindUniqueOrThrow _) => m.input.fault ≠ none
  | .queueAdd _ _ => m.input.fault ≠ none
  | _ => False

/-- The request has not thrown, and neither what it returns nor the row it created is FAILED. -/
def KeepsTransfer (tr : List (Moment Call Input World)) (r : Except JsError Transaction)
    (w : World) : Prop :=
  (∃ t, r = .ok t ∧ t.status ≠ FAILED) ∧
    ∀ m ∈ tr, ∀ data, m.op = .stmt (.transactionCreate data) →
      ∀ t, w.ledger.row m.input.uuid = some t → t.status ≠ FAILED

/-! ## Calls that may fail -/

section Faults

variable {K : List Kind} {w : World}

theorem exec_stmt_cases (s : Stmt) (i : Input) (w : World) :
    (i.fault ≠ none ∧ ∃ e, (exec (.stmt s) i w).1 = .error e) ∨
      (i.fault = none ∧ exec (.stmt s) i w = (Call.stmt s).effect i w) := by
  cases hf : i.fault with
  | none => exact .inr ⟨rfl, exec_of_fault_none hf⟩
  | some f =>
    refine .inl ⟨by simp, .error f.message, ?_⟩
    rw [exec, hf]
    rfl

/-- A row that no write of the kinds `K` can move stays. -/
theorem row_of_path {w' : World} (h : Relation.ReflTransGen (Moved K) w w') {id : String}
    {t : Transaction} (ht : w.ledger.row id = some t) (hK : ∀ k ∈ K, ∀ t', ¬ Moves k t t') :
    w'.ledger.row id = some t := by
  induction h with
  | refl => exact ht
  | @tail v v' _ hs ih =>
    have hr := hs.row id
    rw [ih] at hr
    generalize hr' : v'.ledger.row id = r' at hr
    cases hr with
    | same => rfl
    | moved hk moves => exact absurd moves (hK _ hk _)

/-- **A transition whose calls may fail.**  If it returns, nothing has gone wrong, and it returns
the row that it has written, which is still there; else something has. -/
theorem wp_updateThen_faults {id : String} {status : List TransactionStatus}
    {data : TransactionUpdateInput} {expected : Transaction → TransactionStatus} (hfits : data.fits = true)
    (hK : ∀ k ∈ K, ∀ t t', ¬ Moves k (data.apply t) t') :
    wp exec (Moved K) (fun _ _ => True) (updateThen id status data expected)
      (fun tr r w' => match r with
        | .ok t => ¬ Found GoesWrong tr ∧ (∃ s, t = data.apply s) ∧ w'.ledger.row id = some t
        | .error _ => Found GoesWrong tr) w := by
  refine wp_bind.mpr (wp_perform.mpr ?_)
  intro w₁ _ i
  refine ⟨trivial, ?_⟩
  rcases exec_stmt_cases (.transactionUpdateMany id status data) i w₁ with
    ⟨hfault, e, he⟩ | ⟨hfault, he⟩
  · -- the update fails
    rw [he]
    exact found_cons.mpr (.inl (.inl hfault))
  rw [he]
  have hu := w₁.db.updateTransactions_spec id status data
  simp only [Call.effect, Stmt.exec]
  generalize w₁.db.updateTransactions id status data = r at hu
  cases hu with
  | refused found hs taken =>
    refine found_cons.mpr (.inl (.inr ?_))
    rintro ⟨_, _, _, free⟩
    exact taken free
  | outOfRange large =>
    rw [hfits] at large
    cases large
  | missed hmiss =>
    have hwrong : GoesWrong ⟨w₁, .stmt (.transactionUpdateMany id status data), i⟩ := by
      refine .inr ?_
      rintro ⟨t, ht, hs, _⟩
      exact hmiss t ht hs
    refine wp_bind.mpr (wp_perform.mpr ?_)
    intro w₂ _ j
    refine ⟨trivial, ?_⟩
    cases (exec (.stmt (.transactionFindUnique (.id id))) j w₂).1 with
    | error e => exact found_cons.mpr (.inl hwrong)
    | ok row => cases row <;> exact found_cons.mpr (.inl hwrong)
  | @matched t table found hs free rows references =>
    refine wp_perform.mpr ?_
    intro w₂ hw₂ j
    refine ⟨trivial, ?_⟩
    have hright : ¬ GoesWrong ⟨w₁, .stmt (.transactionUpdateMany id status data), i⟩ := by
      rintro (hf | hnot)
      · exact hf hfault
      · exact hnot ⟨t, found, hs, free⟩
    have hrow : w₂.ledger.row id = some (data.apply t) := by
      refine row_of_path hw₂ ?_ fun k hk t' => hK k hk t t'
      exact (rows id).trans (if_pos rfl)
    rcases exec_stmt_cases (.transactionFindUniqueOrThrow (.id id)) j w₂ with
      ⟨hfault', e, he'⟩ | ⟨hfault', he'⟩
    · rw [he']
      exact found_cons.mpr (.inr (found_cons.mpr (.inl hfault')))
    · rw [he']
      have hread : (Call.stmt (.transactionFindUniqueOrThrow (.id id))).effect j w₂ =
          (.ok (data.apply t), w₂) := by
        show (orThrow (w₂.ledger.row id), w₂) = _
        rw [hrow]
        rfl
      rw [hread]
      refine ⟨?_, ⟨t, rfl⟩, hrow⟩
      rw [List.singleton_append, found_cons, found_cons]
      rintro (h | h | h)
      · exact hright h
      · exact h hfault'
      · exact found_nil h

end Faults

/-! ## The parts of a request -/

/-- The calls that neither create a row nor broadcast. -/
def Quiet : Call → Prop
  | .submitTransfer _ _ => False
  | .stmt (.transactionCreate _) => False
  | _ => True

theorem not_broadcasts_of_quiet {tr : List (Moment Call Input World)}
    (h : ∀ m ∈ tr, Quiet m.op) : ¬ Found Broadcasts tr := by
  rintro ⟨m, hm, chain, request, hash, hop, _⟩
  have hq := h m hm
  rw [hop] at hq
  exact hq

theorem quiet_updateThen (id : String) (status : List TransactionStatus)
    (data : TransactionUpdateInput) (expected : Transaction → TransactionStatus) :
    All Quiet (updateThen id status data expected) := by
  refine All.perform_bind trivial ?_
  intro count
  split
  · exact all_perform trivial
  · refine All.perform_bind trivial ?_
    intro row
    cases row <;> exact trivial

theorem markSubmitted_eq (id hash : String) :
    LedgerService.markSubmitted id hash = prisma.now >>= fun submittedAt =>
      updateThen id [PENDING]
        { status := some SUBMITTED, txHash := some hash, submittedAt := some submittedAt }
        fun _ => PENDING := rfl

theorem markFailed_eq (id reason : String) :
    LedgerService.markFailed id reason = prisma.now >>= fun failedAt =>
      updateThen id [PENDING, CONFIRMING]
        { status := some FAILED, failureReason := some reason, failedAt := some failedAt }
        fun t => t.status := rfl

theorem quiet_markSubmitted (id hash : String) : All Quiet (LedgerService.markSubmitted id hash) := by
  rw [markSubmitted_eq]
  exact All.perform_bind trivial fun _ => quiet_updateThen _ _ _ _

/-- The kinds of writes of the transfers and the pending-recovery passes that run at once. -/
def submitting : List Kind := [.create, .submit, .fail]

/-- The `catch` block: if it returns, it returns a FAILED row. -/
theorem wp_markFailed (id reason : String) (w : World) :
    wp exec (Moved submitting) (fun _ _ => True) (LedgerService.markFailed id reason)
      (fun tr r _ => (∀ m ∈ tr, Quiet m.op) ∧ ∀ t, r = .ok t → t.status = FAILED) w := by
  have hquiet : All Quiet (LedgerService.markFailed id reason) := by
    rw [markFailed_eq]
    exact All.perform_bind trivial fun _ => quiet_updateThen _ _ _ _
  refine hquiet.wp_trace ?_
  rw [markFailed_eq]
  refine wp_bind.mpr (wp_perform.mpr ?_)
  intro w₁ _ _
  refine ⟨trivial, wp_mono ?_ (wp_updateThen_faults rfl ?_)⟩
  · intro tr r w' h t hr
    subst hr
    obtain ⟨_, ⟨s, rfl⟩, _⟩ := h
    rfl
  · intro k _ t t' moves
    have hopen := moves.not_terminal
    cases hopen

theorem submitted_stays {t : Transaction} (ht : t.status = SUBMITTED) :
    ∀ k ∈ submitting, ∀ t', ¬ Moves k t t' := by
  intro k hk t' moves
  cases moves with
  | submit _ _ h => rw [h] at ht; cases ht
  | fail _ _ h => rcases h with h | h <;> rw [h] at ht <;> cases ht
  | claim | confirm | revert | expire => exact absurd hk (by decide)

/-- The row is SUBMITTED, and so is what the request returns. -/
def Recorded (id : String) (t : Transaction) (w : World) : Prop :=
  t.status = SUBMITTED ∧ w.ledger.row id = some t

/-- Recording the hash. -/
theorem wp_markSubmitted (id hash : String) (w : World) :
    wp exec (Moved submitting) (fun _ _ => True) (LedgerService.markSubmitted id hash)
      (fun tr r w' => (∀ m ∈ tr, Quiet m.op) ∧ match r with
        | .ok t => ¬ Found GoesWrong tr ∧ Recorded id t w'
        | .error _ => Found GoesWrong tr) w := by
  refine (quiet_markSubmitted id hash).wp_trace ?_
  rw [markSubmitted_eq]
  refine wp_bind.mpr (wp_perform.mpr ?_)
  intro w₁ _ i
  refine ⟨trivial, wp_mono ?_ (wp_updateThen_faults rfl ?_)⟩
  · intro tr r w' h
    cases r with
    | error e => exact found_append.mpr (.inr h)
    | ok t =>
      obtain ⟨hright, ⟨s, rfl⟩, hrow⟩ := h
      refine ⟨?_, rfl, hrow⟩
      rw [List.singleton_append, found_cons]
      rintro (hw | hw)
      · exact hw
      · exact hright hw
  · exact fun k hk t t' => submitted_stays rfl k hk t'

/-- A row is created once, before. -/
theorem submit_creates_nothing (backoffDelayMs : Nat) (request : TransferRequest) (token : Token)
    (fromWallet toWallet : Wallet) (transaction : Transaction) :
    All (fun o => ∀ data, o ≠ .stmt (.transactionCreate data))
      (TransferService.submit backoffDelayMs request token fromWallet toWallet transaction) := by
  refine All.perform_bind (by simp) ?_
  intro hash
  refine All.perform_bind (by simp) ?_
  intro _
  refine All.bind ((quiet_markSubmitted _ _).mono ?_) ?_
  · rintro o hq data rfl
    exact hq
  · intro submitted
    exact All.perform_bind (by simp) fun _ => trivial

/-- Whatever the adapter does, it is a broadcast exactly if it returns a hash. -/
theorem submitTransfer_cases (chain : Blockchain) (request : AdapterTransferRequest) (i : Input)
    (w : World) :
    (∃ e, (exec (.submitTransfer chain request) i w).1 = .error e ∧
      ¬ Broadcasts ⟨w, .submitTransfer chain request, i⟩) ∨
    ∃ hash, (exec (.submitTransfer chain request) i w).1 = .ok hash := by
  cases hr : (exec (.submitTransfer chain request) i w).1 with
  | ok hash => exact .inr ⟨hash, rfl⟩
  | error e =>
    refine .inl ⟨e, rfl, ?_⟩
    rintro ⟨_, _, hash, _, hfault, hreply⟩
    rw [exec_of_fault_none hfault] at hr
    simp only [Call.effect] at hr
    rw [show i.reply = _ from hreply] at hr
    cases hr

/-- **The part of a request after its row is created.**  If it returns, nothing has gone wrong and
the row is SUBMITTED; if it throws after the broadcast, something has gone wrong. -/
theorem wp_submit (backoffDelayMs : Nat) (request : TransferRequest) (token : Token)
    (fromWallet toWallet : Wallet) (transaction : Transaction) (w : World) :
    wp exec (Moved submitting) (fun _ _ => True)
      (TransferService.submit backoffDelayMs request token fromWallet toWallet transaction)
      (fun tr r w' => match r with
        | .ok t => ¬ Found GoesWrong tr ∧ Recorded transaction.id t w'
        | .error _ => Found Broadcasts tr → Found GoesWrong tr) w := by
  refine wp_bind.mpr (wp_perform.mpr ?_)
  intro w₁ _ i
  refine ⟨trivial, ?_⟩
  rcases submitTransfer_cases token.blockchain _ i w₁ with ⟨e, he, hnot⟩ | ⟨hash, hok⟩
  · rw [he]
    intro hfound
    rw [found_cons] at hfound
    rcases hfound with h | h
    · exact absurd h hnot
    · exact absurd h found_nil
  rw [hok]
  refine wp_bind.mpr (wp_perform.mpr ?_)
  intro w₂ _ _
  refine ⟨trivial, wp_bind.mpr (wp_mono ?_ (wp_markSubmitted transaction.id hash _))⟩
  rintro tr r w₃ ⟨_, hr⟩
  cases r with
  | error e => exact fun _ => found_cons.mpr (.inr (found_cons.mpr (.inr hr)))
  | ok t =>
    obtain ⟨hright, hrecorded⟩ := hr
    refine wp_bind.mpr (wp_perform.mpr ?_)
    intro w₄ hw₄ j
    refine ⟨trivial, ?_⟩
    cases hf : j.fault with
    | some f =>
      have hexec : (exec (.queueAdd ⟨t.id, t.tenantId⟩ (defaultJobOptions backoffDelayMs)) j w₄).1 =
          .error (.error f.message) := by
        rw [exec, hf]
        rfl
      rw [hexec]
      intro _
      have hwrong : GoesWrong ⟨w₄, .queueAdd ⟨t.id, t.tenantId⟩ (defaultJobOptions backoffDelayMs),
          j⟩ := by
        show j.fault ≠ none
        simp [hf]
      simp [hwrong]
    | none =>
      rw [exec_of_fault_none hf]
      have hrow₄ := row_of_path hw₄ hrecorded.2 (submitted_stays hrecorded.1)
      refine ⟨?_, hrecorded.1, hrow₄⟩
      have hright₄ : ¬ GoesWrong ⟨w₄, .queueAdd ⟨t.id, t.tenantId⟩
          (defaultJobOptions backoffDelayMs), j⟩ := fun h => h hf
      simp only [List.singleton_append, found_cons, found_append, found_nil, or_false, not_or]
      exact ⟨id, id, hright, hright₄⟩

/-- The `try` block with its `catch` block: either nothing goes wrong and the row is SUBMITTED, or
the request throws or returns a FAILED row, and if it has broadcast, something has gone wrong. -/
theorem wp_submit_or_fail (backoffDelayMs : Nat) (request : TransferRequest) (token : Token)
    (fromWallet toWallet : Wallet) (transaction : Transaction) (w : World) :
    wp exec (Moved submitting) (fun _ _ => True)
      ((TransferService.submit backoffDelayMs request token fromWallet toWallet transaction).tryCatch
        fun error => if transaction.id = "" then .throw error
          else LedgerService.markFailed transaction.id error.message)
      (fun tr r w' => (∀ m ∈ tr, ∀ data, m.op ≠ .stmt (.transactionCreate data)) ∧
        ((¬ Found GoesWrong tr ∧ ∃ t, r = .ok t ∧ Recorded transaction.id t w') ∨
          ((Found Broadcasts tr → Found GoesWrong tr) ∧ ¬ ∃ t, r = .ok t ∧ t.status ≠ FAILED))) w := by
  refine wp_tryCatch.mpr (wp_mono ?_ ((submit_creates_nothing backoffDelayMs request token fromWallet
    toWallet transaction).wp_trace (wp_submit backoffDelayMs request token fromWallet toWallet
      transaction w)))
  rintro tr r w₁ ⟨hcreate, hr⟩
  cases r with
  | ok t => exact ⟨hcreate, .inl ⟨hr.1, t, rfl, hr.2⟩⟩
  | error e =>
    dsimp only
    split
    · refine ⟨by simpa using hcreate, .inr ⟨by simpa using hr, ?_⟩⟩
      rintro ⟨t, ht, _⟩
      cases ht
    · refine wp_mono ?_ (wp_markFailed transaction.id e.message w₁)
      rintro tr' r w₂ ⟨hquiet, hfailed⟩
      refine ⟨?_, .inr ⟨?_, ?_⟩⟩
      · intro m hm data hop
        rcases List.mem_append.mp hm with hm | hm
        · exact hcreate m hm data hop
        · have hq := hquiet m hm
          rw [hop] at hq
          exact hq
      · intro hfound
        rcases found_append.mp hfound with h | h
        · exact found_append.mpr (.inl (hr h))
        · exact absurd h (not_broadcasts_of_quiet hquiet)
      · rintro ⟨t, ht, hne⟩
        exact hne (hfailed t ht)

/-- The readings before anything is written. -/
def Prepares : Call → Prop
  | .stmt (.tokenFindUnique _) | .stmt (.walletFindUnique _) => True
  | _ => False

theorem prepares_prepare (registry : BlockchainAdapterRegistry) (request : TransferRequest) :
    All Prepares (TransferService.prepare registry request) := by
  refine All.bind (All.perform_bind trivial ?_) ?_
  · intro token
    cases token <;> exact trivial
  intro token
  refine All.perform_bind trivial ?_
  intro fromWallet
  split
  · exact trivial
  split
  · exact trivial
  refine All.perform_bind trivial ?_
  intro toWallet
  split
  · exact trivial
  refine All.bind ?_ ?_
  · cases registry.get token.blockchain <;> exact trivial
  intro adapter
  refine All.bind (All.perform_bind trivial ?_) ?_
  · intro wallet
    cases wallet <;> exact trivial
  intro custody
  split <;> exact trivial

/-- A reading is none of the calls that the result is about. -/
theorem of_prepares {m : Moment Call Input World} (h : Prepares m.op) :
    ¬ Broadcasts m ∧ ¬ GoesWrong m ∧ ∀ data, m.op ≠ .stmt (.transactionCreate data) := by
  obtain ⟨w, o, i⟩ := m
  cases o with
  | stmt s =>
    cases s with
    | tokenFindUnique | walletFindUnique =>
      refine ⟨?_, id, fun _ h => by cases h⟩
      rintro ⟨_, _, _, hop, _⟩
      cases hop
    | _ => exact h.elim
  | _ => exact h.elim

theorem id_of_create {data : TransactionCreateInput} {i : Input} {w : World} {t : Transaction}
    (h : (exec (.stmt (.transactionCreate data)) i w).1 = .ok t) : t.id = i.uuid := by
  rw [exec_ok h] at h
  have hc := w.db.createTransaction_spec ⟨w.clock, i.uuid⟩ data
  simp only [Call.effect, Stmt.exec] at h
  generalize w.db.createTransaction ⟨w.clock, i.uuid⟩ data = r at hc h
  cases hc with
  | refused => cases h
  | done =>
    cases h
    rfl

/-- The outcome of a request from that of its parts: the readings, the creation of the row `id`
with its metric, and the rest. -/
theorem keepsTransfer_iff {tr tr' : List (Moment Call Input World)} (m₁ m₂ : Moment Call Input World)
    {r : Except JsError Transaction} {w : World} {data : TransactionCreateInput} {e : Emission}
    (hreads : ∀ m ∈ tr, Prepares m.op) (hcreate : m₁.op = .stmt (.transactionCreate data))
    (hemit : m₂.op = .emit e)
    (hnone : ∀ m ∈ tr', ∀ data, m.op ≠ .stmt (.transactionCreate data))
    (hr : (¬ Found GoesWrong tr' ∧ ∃ t, r = .ok t ∧ Recorded m₁.input.uuid t w) ∨
      ((Found Broadcasts tr' → Found GoesWrong tr') ∧ ¬ ∃ t, r = .ok t ∧ t.status ≠ FAILED))
    (hfound : Found Broadcasts (tr ++ m₁ :: m₂ :: tr')) :
    KeepsTransfer (tr ++ m₁ :: m₂ :: tr') r w ↔ ¬ Found GoesWrong (tr ++ m₁ :: m₂ :: tr') := by
  have hfound' : Found Broadcasts tr' := by
    simp only [found_append, found_cons] at hfound
    rcases hfound with ⟨m, hm, h⟩ | ⟨_, _, _, hop, _⟩ | ⟨_, _, _, hop, _⟩ | h
    · exact absurd h (of_prepares (hreads m hm)).1
    · rw [hcreate] at hop
      cases hop
    · rw [hemit] at hop
      cases hop
    · exact h
  have hwrong : Found GoesWrong (tr ++ m₁ :: m₂ :: tr') ↔ Found GoesWrong tr' := by
    simp only [found_append, found_cons]
    constructor
    · rintro (⟨m, hm, h⟩ | h | h | h)
      · exact absurd h (of_prepares (hreads m hm)).2.1
      · rw [GoesWrong, hcreate] at h
        exact h.elim
      · rw [GoesWrong, hemit] at h
        exact h.elim
      · exact h
    · exact fun h => .inr (.inr (.inr h))
  rw [hwrong]
  rcases hr with ⟨hright, t, rfl, hstatus, hrow⟩ | ⟨hlost, hnot⟩
  · refine iff_of_true ⟨⟨t, rfl, by simp [hstatus]⟩, ?_⟩ hright
    -- the only row that the request created is the one that it returns
    intro m hm d hop t' ht'
    have hm₁ : m = m₁ := by
      rcases List.mem_append.mp hm with hm | hm
      · exact absurd hop ((of_prepares (hreads m hm)).2.2 d)
      rcases List.mem_cons.mp hm with hm | hm
      · exact hm
      rcases List.mem_cons.mp hm with rfl | hm
      · rw [hemit] at hop
        cases hop
      · exact absurd hop (hnone m hm d)
    rw [hm₁, hrow, Option.some.injEq] at ht'
    rw [← ht', hstatus]
    decide
  · exact iff_of_false (fun h => hnot h.1) (not_not.mpr (hlost hfound'))

/-- **A whole request.** -/
theorem wp_transfer (registry : BlockchainAdapterRegistry) (backoffDelayMs : Nat)
    (request : TransferRequest) (w : World) :
    wp exec (Moved submitting) (fun _ _ => True)
      (TransferService.transfer registry backoffDelayMs request)
      (fun tr r w' => Found Broadcasts tr → (KeepsTransfer tr r w' ↔ ¬ Found GoesWrong tr)) w := by
  have hprepare : wp exec (Moved submitting) (fun _ _ => True)
      (TransferService.prepare registry request)
      (fun tr _ _ => (∀ m ∈ tr, Prepares m.op) ∧ True) w := by
    refine (prepares_prepare registry request).wp_trace ?_
    exact (prepares_prepare registry request).safe (fun _ _ _ _ => trivial) w
  refine wp_bind.mpr (wp_mono ?_ hprepare)
  rintro tr r w₁ ⟨hreads, _⟩
  have hbefore : ¬ Found Broadcasts tr := by
    rintro ⟨m, hm, h⟩
    exact (of_prepares (hreads m hm)).1 h
  cases r with
  | error e => exact fun h => absurd h hbefore
  | ok prepared =>
    obtain ⟨token, fromWallet, toWallet⟩ := prepared
    refine wp_bind.mpr (wp_bind.mpr (wp_perform.mpr ?_))
    intro w₂ _ i
    refine ⟨trivial, ?_⟩
    have hcreates : ∀ data, ¬ Broadcasts ⟨w₂, .stmt (.transactionCreate data), i⟩ := by
      rintro data ⟨_, _, _, hop, _⟩
      cases hop
    cases hcreate : (exec (.stmt (.transactionCreate _)) i w₂).1 with
    | error e =>
      intro hfound
      simp only [found_append, found_cons, found_nil, or_false] at hfound
      exact absurd hfound (not_or.mpr ⟨hbefore, hcreates _⟩)
    | ok transaction =>
      have hid := id_of_create hcreate
      refine wp_bind.mpr (wp_perform.mpr ?_)
      intro w₃ _ j
      refine ⟨trivial, ?_⟩
      show wp _ _ _ (Prog.tryCatch _ _) _ _
      refine wp_mono ?_ (wp_submit_or_fail backoffDelayMs request token fromWallet toWallet transaction _)
      rintro tr' r w₄ ⟨hnone, hr⟩ hfound
      rw [hid] at hr
      exact keepsTransfer_iff ⟨w₂, _, i⟩ ⟨w₃, _, j⟩ hreads rfl rfl hnone hr hfound

/-- **When a transfer that was broadcast is kept.**  Let a request run in any reachable state, with
any of its calls failing, while other requests and recovery passes run between its calls, and let
the adapter return a hash.  The request neither throws nor returns a FAILED transaction nor leaves
its row FAILED, exactly if afterwards nothing goes wrong: the update finds the row PENDING and the
hash free, and neither it nor the second reading nor the enqueueing fails. -/
theorem transfer_keeps_iff (D : Deployment) (w : World) (hw : w.Initial) (es : List SystemEvent)
    (request : TransferRequest) (inp : Nat → List SystemEvent × Input)
    (hinp : ∀ n, ∀ e ∈ (inp n).1, Limited submitting e)
    (hbroadcast : Found Broadcasts (ownTrace D.system
      (TransferService.transfer D.registry D.backoffDelayMs request) inp
      (w.start.after D.system es).world.start)) :
    KeepsTransfer
      (ownTrace D.system (TransferService.transfer D.registry D.backoffDelayMs request) inp
        (w.start.after D.system es).world.start)
      ((TransferService.transfer D.registry D.backoffDelayMs request).run (interleave D.system) inp
        (w.start.after D.system es).world.start).1
      ((TransferService.transfer D.registry D.backoffDelayMs request).run (interleave D.system) inp
        (w.start.after D.system es).world.start).2.world ↔
    ∀ m ∈ ownTrace D.system (TransferService.transfer D.registry D.backoffDelayMs request) inp
      (w.start.after D.system es).world.start, ¬ GoesWrong m := by
  have hpermitted : All (Permitted (fun _ => none) [.write .create, .write .submit, .write .fail, .queue])
      (TransferService.transfer D.registry D.backoffDelayMs request) :=
    permitted_transfer (by simp) (by simp) (by simp) (by simp) _ _ _
  have hsafe : Safe exec (Moved submitting) (Moved allKinds)
      (TransferService.transfer D.registry D.backoffDelayMs request)
      (w.start.after D.system es).world :=
    hpermitted.safe (fun _ ho i v => change_of_permitted ho (fun k _ => mem_allKinds k) (by simp)
      (by simp) i v) _
  have hrun := run_interleave_of_wp (respects_ledger D submitting)
    (healthy_start D submitting (sound_after D hw es))
    (wp_of_safe hsafe (wp_transfer D.registry D.backoffDelayMs request _)) hinp
  have hfound : ∀ tr : List (Moment Call Input World),
      (¬ Found GoesWrong tr) ↔ ∀ m ∈ tr, ¬ GoesWrong m := by
    intro tr
    simp [Found]
  rw [← hfound]
  exact hrun hbroadcast

/-- The transfer is broadcast, and the update that records its hash fails. -/
def unrecorded : List Input :=
  (transferInputs "tx" "0x01").set 9 { fault := some { message := "connection lost" } }

theorem unrecorded_broadcasts (inputs : List Input)
    (h : inputs = transferInputs "tx" "0x01" ∨ inputs = unrecorded) :
    Found Broadcasts (ownTrace Deployment.defaults.system
      (TransferService.transfer Deployment.defaults.registry Deployment.defaults.backoffDelayMs .sample)
      (alone inputs) World.sample.start) := by
  rcases h with rfl | rfl
  all_goals
    refine ⟨_, List.mem_of_getElem? (i := 6) rfl, .EVM, _, "0x01", rfl, rfl, rfl⟩

/-- The adapter has returned a hash, and still the request returns a FAILED transaction. -/
theorem unrecorded_fails :
    Found Broadcasts (ownTrace Deployment.defaults.system
      (TransferService.transfer Deployment.defaults.registry Deployment.defaults.backoffDelayMs .sample)
      (alone unrecorded) World.sample.start) ∧
    ¬ KeepsTransfer (ownTrace Deployment.defaults.system
      (TransferService.transfer Deployment.defaults.registry Deployment.defaults.backoffDelayMs .sample)
      (alone unrecorded) World.sample.start)
      ((TransferService.transfer Deployment.defaults.registry Deployment.defaults.backoffDelayMs
        .sample).run (interleave Deployment.defaults.system) (alone unrecorded) World.sample.start).1
      ((TransferService.transfer Deployment.defaults.registry Deployment.defaults.backoffDelayMs
        .sample).run (interleave Deployment.defaults.system) (alone unrecorded)
        World.sample.start).2.world := by
  refine ⟨unrecorded_broadcasts _ (.inr rfl), ?_⟩
  rintro ⟨⟨t, ht, hne⟩, _⟩
  have hfailed : ((TransferService.transfer Deployment.defaults.registry
      Deployment.defaults.backoffDelayMs .sample).run (interleave Deployment.defaults.system)
      (alone unrecorded) World.sample.start).1.map (·.status) = .ok FAILED := by
    decide
  rw [ht] at hfailed
  exact hne (by simpa [Except.map] using hfailed)

/-- A request that is served without a fault keeps its transfer. -/
theorem transfer_keeps_iff_sample :
    KeepsTransfer (ownTrace Deployment.defaults.system
      (TransferService.transfer Deployment.defaults.registry Deployment.defaults.backoffDelayMs .sample)
      (alone (transferInputs "tx" "0x01")) World.sample.start)
      ((TransferService.transfer Deployment.defaults.registry Deployment.defaults.backoffDelayMs
        .sample).run (interleave Deployment.defaults.system) (alone (transferInputs "tx" "0x01"))
        World.sample.start).1
      ((TransferService.transfer Deployment.defaults.registry Deployment.defaults.backoffDelayMs
        .sample).run (interleave Deployment.defaults.system) (alone (transferInputs "tx" "0x01"))
        World.sample.start).2.world := by
  refine (transfer_keeps_iff .defaults .sample World.sample_initial [] .sample
    (alone (transferInputs "tx" "0x01")) (fun _ _ h => by cases h)
    (unrecorded_broadcasts _ (.inl rfl))).mpr ?_
  iterate 9 refine List.forall_mem_cons.mpr ⟨id, ?_⟩
  refine List.forall_mem_cons.mpr ⟨?_, ?_⟩
  · rintro (hfault | hnot)
    · exact hfault rfl
    · refine hnot ⟨_, rfl, .head _, ?_⟩
      intro hash hhash s hs
      cases hhash
      cases hs
  refine List.forall_mem_cons.mpr ⟨fun h => h rfl, ?_⟩
  refine List.forall_mem_cons.mpr ⟨fun h => h rfl, ?_⟩
  intro m hm
  cases hm

end TransactionSimulator
