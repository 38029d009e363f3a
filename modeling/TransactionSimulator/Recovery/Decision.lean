import TransactionSimulator.Ledger.Submission
import TransactionSimulator.Recovery.Evidence

/-!
# What pending recovery decides

`recoverOne` adopts the first transfer that matches a pending transaction, fails the transaction if there is
none after the recovery window, or leaves it for the next pass.  The match is looked up in the transfers
alone, while the hash of a transaction is unique among the transactions: if another one holds the hash of
the match, the update is refused, the error is swallowed, and the transaction stays PENDING.

* `ends_recoverOne`: the outcomes, where no call fails and only the clock moves.
* `recoverOne_decides_iff`: when the transaction is decided.
-/

namespace TransactionSimulator

open Concurrent Prog Relational TransactionStatus Ledger

/-! ## The clock -/

/-- Only the clock moves, and not beyond the deadline. -/
def Ticking (deadline : Date) (w w' : World) : Prop :=
  ∃ clock, w.clock ≤ clock ∧ clock ≤ deadline ∧ w' = { w with clock }

theorem ticking_star {deadline : Date} {w w' : World} (h : Relation.ReflTransGen (Ticking deadline) w w')
    (hclock : w.clock ≤ deadline) : ∃ clock, w.clock ≤ clock ∧ clock ≤ deadline ∧ w' = { w with clock } := by
  induction h with
  | refl => exact ⟨w.clock, Nat.le_refl _, hclock, rfl⟩
  | tail _ hs ih =>
    obtain ⟨clock, hle, hdeadline, rfl⟩ := ih
    obtain ⟨clock', hle', hdeadline', rfl⟩ := hs
    exact ⟨clock', Nat.le_trans hle hle', hdeadline', rfl⟩

/-- What `isEventListenerHealthy` answers at a given time. -/
def PendingRecoveryProcessor.healthyAt (processor : PendingRecoveryProcessor) (db : Db) (tokenId : String)
    (now : Date) : Bool :=
  ((db.tokenEventCursors.get tokenId).bind TokenEventCursor.lastSuccessfulSync).any fun lastSuccessfulSync =>
    decide ((now : Int) - lastSuccessfulSync ≤ processor.listenerStalenessMs)

theorem PendingRecoveryProcessor.healthyAt_of_le {processor : PendingRecoveryProcessor} {db : Db}
    {tokenId : String} {now now' : Date} (hle : now ≤ now')
    (h : processor.healthyAt db tokenId now' = true) : processor.healthyAt db tokenId now = true := by
  rw [healthyAt, Option.any_eq_true] at h ⊢
  obtain ⟨lastSuccessfulSync, hsync, hrecent⟩ := h
  have hle' : (now : Int) ≤ now' := Int.ofNat_le.mpr hle
  rw [decide_eq_true_eq] at hrecent
  exact ⟨lastSuccessfulSync, hsync, by rw [decide_eq_true_eq]; omega⟩

/-! ## One transaction -/

/-- No other transaction than `id` holds the hash. -/
def World.HashOnly (w : World) (hash id : String) : Prop :=
  ∀ s ∈ w.db.transactions.rows, s.txHash = some hash → s.id = id

theorem World.hashOnly_iff {w : World} {hash id : String} {data : TransactionUpdateInput}
    (h : data.txHash = some hash) : w.HashOnly hash id ↔ w.db.HashFree id data := by
  constructor
  · intro honly hash' hhash s hs
    rw [h, Option.some.injEq] at hhash
    rw [← hhash, Db.get_txHash] at hs
    exact honly s (Db.mem_transactions.mpr hs.1) hs.2
  · intro hfree s hs hhash
    exact hfree hash h s (Db.get_txHash.mpr ⟨Db.mem_transactions.mp hs, hhash⟩)

/-- What a recovery pass reads and does not write. -/
structure Beside (deadline : Date) (w w' : World) : Prop where
  wallets : w'.db.wallets = w.db.wallets
  tokenTransfers : w'.db.tokenTransfers = w.db.tokenTransfers
  tokenEventCursors : w'.db.tokenEventCursors = w.db.tokenEventCursors
  clock : w.clock ≤ w'.clock ∧ w'.clock ≤ deadline

/-- The row has moved on, to the status and with the hash, and no other row was written. -/
structure MovedTo (w w' : World) (id : String) (status : TransactionStatus) (txHash : Option String) :
    Prop where
  row : ∃ t, w'.ledger.row id = some t ∧ t.status = status ∧ t.txHash = txHash
  others : ∀ other, other ≠ id → w'.ledger.row other = w.ledger.row other

/-- **The outcomes for a pending transaction.** -/
inductive Decision (processor : PendingRecoveryProcessor) (deadline : Date) (t : Transaction) (a b : Wallet)
    (w w' : World) : Prop
  | adopted {r : TokenTransfer} (found : w.evidence t a b = some r) (free : w.HashOnly r.transactionHash t.id)
      (moved : MovedTo w w' t.id SUBMITTED (some r.transactionHash))
  | taken {r : TokenTransfer} (found : w.evidence t a b = some r)
      (taken : ¬ w.HashOnly r.transactionHash t.id) (same : ∀ id, w'.ledger.row id = w.ledger.row id)
  | failed {clock : Date} (none : w.evidence t a b = none) (hclock : w.clock ≤ clock)
      (healthy : processor.healthyAt w.db t.tokenId clock = true) (moved : MovedTo w w' t.id FAILED t.txHash)
  | kept {clock : Date} (none : w.evidence t a b = none) (hclock : w.clock ≤ clock ∧ clock ≤ deadline)
      (why : (clock : Int) - t.createdAt < processor.failAfterMs ∨
        processor.healthyAt w.db t.tokenId clock = false)
      (same : ∀ id, w'.ledger.row id = w.ledger.row id)

section RecoverOne

variable {P : Input → Prop} {deadline : Date} {w : World}

theorem ends_isEventListenerHealthy (hP : Faultless P) (processor : PendingRecoveryProcessor)
    (tokenId : String) (hclock : w.clock ≤ deadline) :
    Ends exec P (Ticking deadline) (processor.isEventListenerHealthy tokenId)
      (fun r w' => ∃ clock, w.clock ≤ clock ∧ clock ≤ deadline ∧ w' = { w with clock } ∧
        r = .ok (processor.healthyAt w.db tokenId clock)) w := by
  refine Ends.bind (F := fun found w₁ => w.db.tokenEventCursors.get tokenId = found ∧
    ∃ clock, w.clock ≤ clock ∧ clock ≤ deadline ∧ w₁ = { w with clock }) ?_ ?_
  · refine ends_stmt hP ?_
    intro w₁ hw₁ i _
    obtain ⟨clock, hle, hdeadline, rfl⟩ := ticking_star hw₁ hclock
    exact ⟨_, rfl, rfl, clock, hle, hdeadline, rfl⟩
  intro found w₁ hfound
  obtain ⟨hcursor, clock, hle, hdeadline, rfl⟩ := hfound
  cases found with
  | none =>
    refine ⟨clock, hle, hdeadline, rfl, ?_⟩
    simp [PendingRecoveryProcessor.healthyAt, hcursor]
  | some cursor =>
    dsimp only
    split
    · next hsync =>
      refine ⟨clock, hle, hdeadline, rfl, ?_⟩
      simp [PendingRecoveryProcessor.healthyAt, hcursor, hsync]
    · next sync hsync =>
      refine ends_bind.mpr (ends_now ?_)
      intro w₂ hw₂
      obtain ⟨clock', hle', hdeadline', rfl⟩ := ticking_star hw₂ hdeadline
      refine ⟨clock', Nat.le_trans hle hle', hdeadline', rfl, ?_⟩
      simp [PendingRecoveryProcessor.healthyAt, hcursor, hsync]

theorem movedTo_of_rows {w' : World} {t : Transaction} {id : String} {data : TransactionUpdateInput}
    {status : TransactionStatus} {txHash : Option String}
    (hrows : ∀ i, w'.ledger.row i = if i = id then some (data.apply t) else w.ledger.row i)
    (hstatus : (data.apply t).status = status) (hhash : (data.apply t).txHash = txHash) :
    MovedTo w w' id status txHash := by
  refine ⟨⟨data.apply t, (hrows id).trans (if_pos rfl), hstatus, hhash⟩, ?_⟩
  intro other hother
  exact (hrows other).trans (if_neg hother)

/-- A transition of a row that is there, while only the clock moves: it goes through, or another row holds
the hash. -/
theorem ends_update_ticking (hP : Faultless P) {id : String} {status : List TransactionStatus}
    {data : TransactionUpdateInput} {expected : Transaction → TransactionStatus} {t : Transaction}
    (hfits : data.fits = true) (hrow : w.ledger.row id = some t) (hstatus : t.status ∈ status) (hclock : w.clock ≤ deadline) :
    Ends exec P (Ticking deadline) (updateThen id status data expected) (fun r w' => Beside deadline w w' ∧
      ((w.db.HashFree id data ∧ (∃ t', r = .ok t') ∧
          ∀ i, w'.ledger.row i = if i = id then some (data.apply t) else w.ledger.row i) ∨
        (¬ w.db.HashFree id data ∧ (∃ e, r = .error e) ∧ ∀ i, w'.ledger.row i = w.ledger.row i))) w := by
  refine ends_updateThen hP hfits ?_ ?_ ?_
  · intro w₁ hw₁ s found _ free table references rows w₂ hw₂
    obtain ⟨clock₁, hle₁, hdeadline₁, rfl⟩ := ticking_star hw₁ hclock
    obtain ⟨clock₂, hle₂, hdeadline₂, rfl⟩ := ticking_star hw₂ hdeadline₁
    have hs : s = t := by
      rw [show w.ledger.row id = some s from found, Option.some.injEq] at hrow
      exact hrow
    rw [hs] at rows
    refine ⟨⟨rfl, rfl, rfl, Nat.le_trans hle₁ hle₂, hdeadline₂⟩, .inl ⟨free, ⟨data.apply t, ?_⟩, rows⟩⟩
    have hread : table.get (.id id) = some (data.apply t) := (rows id).trans (if_pos rfl)
    exact congrArg orThrow hread
  · intro w₁ hw₁ hmissed
    obtain ⟨clock₁, hle₁, hdeadline₁, rfl⟩ := ticking_star hw₁ hclock
    exact absurd hstatus (hmissed t hrow)
  · intro w₁ hw₁ s _ _ taken
    obtain ⟨clock₁, hle₁, hdeadline₁, rfl⟩ := ticking_star hw₁ hclock
    exact ⟨⟨rfl, rfl, rfl, hle₁, hdeadline₁⟩, .inr ⟨taken, ⟨_, rfl⟩, fun _ => rfl⟩⟩

/-- **What `recoverOne` does to a pending transaction**, where no call fails and only the clock moves. -/
theorem ends_recoverOne (hP : Faultless P) (processor : PendingRecoveryProcessor) {t : Transaction}
    (a b : Wallet) (hrow : w.ledger.row t.id = some t) (hpending : t.status = PENDING)
    (hclock : w.clock ≤ deadline) :
    Ends exec P (Ticking deadline) (processor.recoverOne (t, a, b))
      (fun r w' => r = .ok () ∧ Beside deadline w w' ∧ Decision processor deadline t a b w w') w := by
  refine ends_tryCatch.mpr (Ends.bind (F := fun found w₁ => w.evidence t a b = found ∧
    ∃ clock₁, w.clock ≤ clock₁ ∧ clock₁ ≤ deadline ∧ w₁ = { w with clock := clock₁ }) ?_ ?_)
  · refine ends_stmt hP ?_
    intro w₁ hw₁ i _
    obtain ⟨clock₁, hle₁, hdeadline₁, rfl⟩ := ticking_star hw₁ hclock
    exact ⟨_, rfl, rfl, clock₁, hle₁, hdeadline₁, rfl⟩
  intro found w₁ hfound
  obtain ⟨hevidence, clock₁, hle₁, hdeadline₁, rfl⟩ := hfound
  cases found with
  | some r =>
    refine ends_bind.mpr (ends_bind.mpr (ends_now ?_))
    intro w₂ hw₂
    obtain ⟨clock₂, hle₂, hdeadline₂, rfl⟩ := ticking_star hw₂ hdeadline₁
    have hle : w.clock ≤ clock₂ := Nat.le_trans hle₁ hle₂
    show Ends exec P _ (TransactionRepository.transition prisma t.id _ _ _) _ _
    rw [transition_eq (by decide)]
    have hin : t.status ∈ [PENDING] := by simp [hpending]
    refine Ends.mono ?_ (ends_update_ticking hP rfl hrow hin hdeadline₂)
    intro r' w₃ h
    obtain ⟨hbeside, ⟨hfree, ⟨t', rfl⟩, hrows⟩ | ⟨htaken, ⟨e, rfl⟩, hrows⟩⟩ := h
    · refine ends_bind.mpr (ends_call hP ?_)
      intro w₄ hw₄ j _
      obtain ⟨clock₄, hle₄, hdeadline₄, rfl⟩ := ticking_star hw₄ hbeside.clock.2
      refine ends_emit ?_
      intro w₅ hw₅
      obtain ⟨clock₅, hle₅, hdeadline₅, rfl⟩ := ticking_star hw₅ hdeadline₄
      refine ⟨rfl, ⟨hbeside.wallets, hbeside.tokenTransfers, hbeside.tokenEventCursors, ?_, hdeadline₅⟩,
        .adopted hevidence ((World.hashOnly_iff rfl).mpr hfree) (movedTo_of_rows hrows rfl rfl)⟩
      exact Nat.le_trans (Nat.le_trans (Nat.le_trans hle hbeside.clock.1) hle₄) hle₅
    · refine ends_emit ?_
      intro w₄ hw₄
      obtain ⟨clock₄, hle₄, hdeadline₄, rfl⟩ := ticking_star hw₄ hbeside.clock.2
      refine ⟨rfl, ⟨hbeside.wallets, hbeside.tokenTransfers, hbeside.tokenEventCursors, ?_, hdeadline₄⟩,
        .taken hevidence (fun h => htaken ((World.hashOnly_iff rfl).mp h)) hrows⟩
      exact Nat.le_trans (Nat.le_trans hle hbeside.clock.1) hle₄
  | none =>
    refine ends_bind.mpr (ends_now ?_)
    intro w₂ hw₂
    obtain ⟨clock₂, hle₂, hdeadline₂, rfl⟩ := ticking_star hw₂ hdeadline₁
    have hle : w.clock ≤ clock₂ := Nat.le_trans hle₁ hle₂
    dsimp only
    split
    · next hyoung =>
      exact ⟨rfl, ⟨rfl, rfl, rfl, hle, hdeadline₂⟩, .kept hevidence ⟨hle, hdeadline₂⟩ (.inl hyoung) fun _ => rfl⟩
    · next hold =>
      refine ends_bind.mpr ((ends_isEventListenerHealthy hP processor t.tokenId hdeadline₂).mono ?_)
      intro r w₃ h
      obtain ⟨clock₃, hle₃, hdeadline₃, rfl, rfl⟩ := h
      have hle' : w.clock ≤ clock₃ := Nat.le_trans hle hle₃
      dsimp only
      split
      · next hhealthy =>
        refine ends_bind.mpr (ends_bind.mpr (ends_now ?_))
        intro w₄ hw₄
        obtain ⟨clock₄, hle₄, hdeadline₄, rfl⟩ := ticking_star hw₄ hdeadline₃
        show Ends exec P _ (TransactionRepository.transitionFromAny prisma t.id _ _ _) _ _
        rw [transitionFromAny_eq (by decide)]
        have hin : t.status ∈ [PENDING, CONFIRMING] := by simp [hpending]
        refine Ends.mono ?_ (ends_update_ticking hP rfl hrow hin hdeadline₄)
        intro r w₅ h
        obtain ⟨hbeside, ⟨-, ⟨t', rfl⟩, hrows⟩ | ⟨htaken, -⟩⟩ := h
        · refine ends_emit ?_
          intro w₆ hw₆
          obtain ⟨clock₆, hle₆, hdeadline₆, rfl⟩ := ticking_star hw₆ hbeside.clock.2
          refine ⟨rfl, ⟨hbeside.wallets, hbeside.tokenTransfers, hbeside.tokenEventCursors, ?_, hdeadline₆⟩,
            .failed hevidence hle' hhealthy (movedTo_of_rows hrows rfl rfl)⟩
          exact Nat.le_trans (Nat.le_trans (Nat.le_trans hle' hle₄) hbeside.clock.1) hle₆
        · exact absurd (fun hash h => by cases h) htaken
      · next hstale =>
        refine ends_emit ?_
        intro w₄ hw₄
        obtain ⟨clock₄, hle₄, hdeadline₄, rfl⟩ := ticking_star hw₄ hdeadline₃
        exact ⟨rfl, ⟨rfl, rfl, rfl, Nat.le_trans hle' hle₄, hdeadline₄⟩,
          .kept hevidence ⟨hle', hdeadline₃⟩ (.inr (Bool.eq_false_iff.mpr hstale)) fun _ => rfl⟩

end RecoverOne

/-- The transaction is decided: SUBMITTED with the hash of a matching transfer that no other transaction
holds, or FAILED. -/
def Recovered (w w' : World) (t : Transaction) (a b : Wallet) : Prop :=
  ∃ t', w'.ledger.row t.id = some t' ∧ ((t'.status = SUBMITTED ∧ ∃ r ∈ w.db.tokenTransfers.rows,
    TransferRepository.matchesTransfer t.tokenId a.address b.address t.amount t.createdAt r = true ∧
    t'.txHash = some r.transactionHash ∧ w'.HashOnly r.transactionHash t.id) ∨ t'.status = FAILED)

theorem World.hashOnly_of_row {w : World} {t : Transaction} {id hash : String}
    (hrow : w.ledger.row id = some t) (hhash : t.txHash = some hash) : w.HashOnly hash id := by
  intro s hs hs'
  have hid : t.id = id := World.ledger_id hrow
  have ht : t ∈ w.db.transactions.rows := Db.mem_transactions.mpr (hid.symm ▸ hrow)
  rw [w.db.transactions.eq_of_mem_keys hs ht (k := .txHash hash) (by simp [hs']) (by simp [hhash]), hid]

theorem World.evidence_matches {w : World} {t : Transaction} {a b : Wallet} {r : TokenTransfer}
    (h : w.evidence t a b = some r) : r ∈ w.db.tokenTransfers.rows ∧
      TransferRepository.matchesTransfer t.tokenId a.address b.address t.amount t.createdAt r = true :=
  w.db.tokenTransfers.mem_sorted.mp (List.mem_of_mem_head? h)

/-- An old transaction with a healthy listener is decided unless its evidence is taken. -/
theorem Decision.recovered_iff {processor : PendingRecoveryProcessor} {deadline : Date} {t : Transaction}
    {a b : Wallet} {w w' : World} (h : Decision processor deadline t a b w w')
    (hrow : w.ledger.row t.id = some t) (hpending : t.status = PENDING)
    (hold : processor.failAfterMs ≤ (w.clock : Int) - t.createdAt)
    (hhealthy : processor.healthyAt w.db t.tokenId deadline = true) :
    Recovered w w' t a b ↔ ∀ r, w.evidence t a b = some r → w.HashOnly r.transactionHash t.id := by
  have hstays : (∀ id, w'.ledger.row id = w.ledger.row id) → ¬ Recovered w w' t a b := by
    intro hsame hdecided
    obtain ⟨t', ht', hstatus⟩ := hdecided
    rw [hsame, hrow, Option.some.injEq] at ht'
    rw [← ht', hpending] at hstatus
    rcases hstatus with ⟨h, -⟩ | h <;> cases h
  cases h with
  | adopted found free moved =>
    obtain ⟨t', ht', hstatus, hhash⟩ := moved.row
    obtain ⟨hmem, hmatch⟩ := World.evidence_matches found
    refine iff_of_true ⟨t', ht', .inl ⟨hstatus, _, hmem, hmatch, hhash, World.hashOnly_of_row ht' hhash⟩⟩ ?_
    intro r hr
    rw [found, Option.some.injEq] at hr
    exact hr ▸ free
  | taken found taken same =>
    exact iff_of_false (hstays same) fun h => taken (h _ found)
  | failed none _ _ moved =>
    obtain ⟨t', ht', hstatus, -⟩ := moved.row
    refine iff_of_true ⟨t', ht', .inr hstatus⟩ ?_
    intro r hr
    rw [none] at hr
    cases hr
  | kept none hclock why same =>
    rcases why with hyoung | hstale
    · have hle : (w.clock : Int) ≤ _ := Int.ofNat_le.mpr hclock.1
      omega
    · rw [processor.healthyAt_of_le hclock.2 hhealthy] at hstale
      cases hstale

/-- **When recovery decides.**  A transaction is PENDING and older than the recovery window, its listener is
healthy until the deadline, no call fails and nobody else writes: `recoverOne` leaves it SUBMITTED with
the hash of a matching transfer, or FAILED, exactly if no other transaction holds the hash of the first
matching transfer. -/
theorem recoverOne_decides_iff (processor : PendingRecoveryProcessor) (w : World) (t : Transaction)
    (a b : Wallet) (ht : t ∈ w.db.transactions.rows) (hpending : t.status = PENDING)
    (hold : processor.failAfterMs ≤ (w.clock : Int) - t.createdAt) (deadline : Date)
    (hdeadline : w.clock ≤ deadline) (hhealthy : processor.healthyAt w.db t.tokenId deadline = true)
    (inp : Nat → (World → World) × Input) (hinp : ∀ n, (inp n).2.fault = none)
    (hothers : ∀ n v, Relation.ReflTransGen (Ticking deadline) v ((inp n).1 v)) :
    Recovered w ((processor.recoverOne (t, a, b)).run (among exec) inp w).2 t a b ↔
      ∀ r, w.evidence t a b = some r → w.HashOnly r.transactionHash t.id := by
  have hrow : w.ledger.row t.id = some t := Db.mem_transactions.mp ht
  have hrun := run_among_of_wp (Q := fun _ r w' => r = .ok () ∧ Beside deadline w w' ∧
    Decision processor deadline t a b w w') (ends_recoverOne (P := fun i => i.fault = none) (fun _ h => h)
      processor a b hrow hpending hdeadline) hinp hothers
  exact hrun.2.2.recovered_iff hrow hpending hold hhealthy

/-- Of two equal transfers the first was broadcast and recorded, and the process was lost before it broadcast
the second; the listener has recorded the transfer of the first since. -/
def World.twoAlike : World :=
  { World.sample with
    db := { Db.sample with
      transactions := ⟨[{ Transaction.sample with id := "first" }, .lost], by decide⟩
      tokenTransfers := ⟨[.lost Wallet.sender.address Wallet.receiver.address], by decide⟩
      tokenEventCursors := ⟨[⟨"token", 5, some 1900000, none, 0⟩], by decide⟩
      references := by decide }
    clock := 1900000 }

/-- **The second transaction stays PENDING**: it is old enough, its listener is healthy and a transfer
matches. -/
theorem twoAlike_stays :
    Transaction.lost ∈ World.twoAlike.db.transactions.rows ∧ Transaction.lost.status = PENDING ∧
    (PendingRecoveryProcessor.defaults.failAfterMs : Int) ≤
      (World.twoAlike.clock : Int) - Transaction.lost.createdAt ∧
    PendingRecoveryProcessor.defaults.healthyAt World.twoAlike.db "token" World.twoAlike.clock = true ∧
    ¬ Recovered .twoAlike ((PendingRecoveryProcessor.defaults.recoverOne (.lost, .sender, .receiver)).run
      (among exec) (fun _ => (id, {})) .twoAlike).2 .lost .sender .receiver := by
  refine ⟨by decide, by decide, by decide, by decide, ?_⟩
  have hrow : ((PendingRecoveryProcessor.defaults.recoverOne (.lost, .sender, .receiver)).run
      (among exec) (fun _ => (id, {})) .twoAlike).2.ledger.row Transaction.lost.id = some .lost := by
    decide +kernel
  intro h
  obtain ⟨t, ht, hstatus⟩ := h
  rw [hrow, Option.some.injEq] at ht
  rw [← ht] at hstatus
  rcases hstatus with ⟨h, -⟩ | h <;> cases h

/-- Without the first transaction the second is adopted. -/
def World.oneLost : World :=
  { World.twoAlike with
    db := { World.twoAlike.db with transactions := ⟨[.lost], by decide⟩, references := by decide } }

theorem recoverOne_decides_iff_oneLost :
    Recovered .oneLost ((PendingRecoveryProcessor.defaults.recoverOne (.lost, .sender, .receiver)).run
      (among exec) (fun _ => (id, {})) .oneLost).2 .lost .sender .receiver := by
  refine (recoverOne_decides_iff .defaults .oneLost .lost .sender .receiver (by decide) rfl (by decide) 1900000
    (by decide) (by decide) (fun _ => (id, {})) (fun _ => rfl) fun _ _ => .refl).mpr ?_
  intro r _ s hs _
  rw [List.mem_singleton.mp hs]

end TransactionSimulator
