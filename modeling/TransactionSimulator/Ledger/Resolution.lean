import TransactionSimulator.Ledger.Lifecycle
import TransactionSimulator.Ledger.Transitions

/-!
# What an attempt of the confirmation worker ends with

The outcome of `processTransaction` when no call fails, for each answer of the chain and each
status the row may have been left in, while others write between its calls.

* `reverted_iff`: an answer `failed` makes the row FAILED exactly if the worker's update finds it
  CONFIRMING; a row that is still SUBMITTED then makes the attempt throw.
* `confirmation_converges`: after any attempts, however they ended, one more on which the chain
  answers `confirmed` leaves the row CONFIRMED; an attempt on a terminal row writes nothing.
-/

namespace TransactionSimulator

open Concurrent Prog Relational TransactionStatus TransactionStateMachine Ledger

/-- The inputs without a fault on which the adapter answers `result`. -/
def Answering (result : BlockchainTransaction) (i : Input) : Prop :=
  i.fault = none ∧ i.reply = .transaction result

/-! ## A row among others -/

/-- The row that `tx` was read from is in one of the statuses `S`, under the same hash. -/
def Standing (S : List TransactionStatus) (tx : Transaction) (w : World) : Prop :=
  ∃ t, w.ledger.row tx.id = some t ∧ t.status ∈ S ∧ t.txHash = tx.txHash ∧ t.tenantId = tx.tenantId

/-- The others write what they write, but do not bring the row into one of the statuses `B`. -/
def Spares (B : List TransactionStatus) (id : String) (w w' : World) : Prop :=
  Moved allKinds w w' ∧
    ∀ t', w'.ledger.row id = some t' → t'.status ∈ B → w.ledger.row id = some t'

/-- From a status of `S` a transition leads to another one of `S`, or to one of `B`. -/
def Closed (B S : List TransactionStatus) : Prop :=
  ∀ a ∈ S, a ≠ PENDING ∧ ∀ b ∈ allowedTransitions a, b ∈ B ∨ b ∈ S

instance (B S : List TransactionStatus) : Decidable (Closed B S) := by
  unfold Closed
  infer_instance

theorem closed_terminal {B : List TransactionStatus} {a : TransactionStatus}
    (h : a.isTerminal = true) : Closed B [a] := by
  intro b hb
  rw [List.mem_singleton] at hb
  subst hb
  refine ⟨?_, ?_⟩
  · rintro rfl
    cases h
  · rw [TransactionStatus.isTerminal_iff.mp h]
    simp

section Standing

variable {B S : List TransactionStatus} {tx : Transaction} {w w' : World}

theorem Standing.spares (hS : Closed B S) (h : Spares B tx.id w w') (hw : Standing S tx w) :
    Standing S tx w' := by
  obtain ⟨t, ht, hs, hhash, htenant⟩ := hw
  have hr := h.1.row tx.id
  have hB := h.2
  generalize hr' : w'.ledger.row tx.id = r' at hr
  rw [ht] at hr
  cases hr with
  | same => exact ⟨t, hr', hs, hhash, htenant⟩
  | @moved k _ t' _ moves _ =>
    obtain ⟨hp, hclosed⟩ := hS _ hs
    have hnext : t'.status ∈ allowedTransitions t.status := by
      simpa [canTransition] using moves.canTransition
    refine ⟨t', hr', ?_, (moves.txHash hp).trans hhash, moves.frame.2.1.trans htenant⟩
    rcases hclosed _ hnext with hb | hmem
    · -- a row that comes into `B` was there before
      have hold := hB t' hr' hb
      rw [ht, Option.some.injEq] at hold
      rw [← hold]
      exact hs
    · exact hmem

variable {R : World → World → Prop} (hR : ∀ v v', R v v' → Spares B tx.id v v')
include hR

theorem Standing.star (hS : Closed B S) (h : Relation.ReflTransGen R w w')
    (hw : Standing S tx w) : Standing S tx w' := by
  induction h with
  | refl => exact hw
  | tail _ hs ih => exact ih.spares hS (hR _ _ hs)

end Standing

/-- The row of the status `a` has since moved as the others let it. -/
def Since (B : List TransactionStatus) (a : TransactionStatus) (tx : Transaction) (w : World) :
    Prop :=
  ∀ S, Closed B S → a ∈ S → Standing S tx w

section Calls

variable {B S : List TransactionStatus} {tx : Transaction} {w : World}
  {P : Input → Prop} {R G : World → World → Prop}
  (hP : Faultless P) (hR : ∀ v v', R v v' → Spares B tx.id v v')
  (hG : ∀ v v' : World, v'.db = v.db → G v v')

theorem since_of_row {t : Transaction} (ht : w.ledger.row tx.id = some t)
    (hhash : t.txHash = tx.txHash) (htenant : t.tenantId = tx.tenantId) :
    Since B t.status tx w := fun _ _ hs => ⟨t, ht, hs, hhash, htenant⟩

include hR in
theorem Since.star {a : TransactionStatus} {w' : World} (h : Relation.ReflTransGen R w w')
    (hw : Since B a tx w) : Since B a tx w' := fun S hS ha => (hw S hS ha).star hR hS h

include hG in
theorem wp_emit {e : Emission}
    {Q : List (Moment Call { i // P i } World) → Except JsError Unit → World → Prop}
    (h : ∀ w₁, Relation.ReflTransGen R w w₁ → ∀ i, Q [⟨w₁, .emit e, i⟩] (.ok ())
      { w₁ with emissions := e :: w₁.emissions }) :
    wp (restrict exec P) R G (perform (Call.emit e)) Q w :=
  wp_perform.mpr fun w₁ hw₁ i => ⟨hG _ _ rfl, h w₁ hw₁ i⟩

include hG in
theorem wp_now
    {Q : List (Moment Call { i // P i } World) → Except JsError Date → World → Prop}
    (h : ∀ w₁, Relation.ReflTransGen R w w₁ → ∀ i, Q [⟨w₁, .now, i⟩] (.ok w₁.clock) w₁) :
    wp (restrict exec P) R G prisma.now Q w :=
  wp_perform.mpr fun w₁ hw₁ i => ⟨hG _ _ rfl, h w₁ hw₁ i⟩

include hP hR hG in
/-- The row is read as it is at that moment. -/
theorem wp_findById (hS : Closed B S) (hw : Standing S tx w)
    {Q : List (Moment Call { i // P i } World) → Except JsError (Option (Transaction × Token)) →
      World → Prop}
    (h : ∀ w₁, Relation.ReflTransGen R w w₁ → ∀ t token i, w₁.ledger.row tx.id = some t →
      t.status ∈ S → t.txHash = tx.txHash → t.tenantId = tx.tenantId →
      Q [⟨w₁, .stmt (.transactionFindById tx.id tx.tenantId), i⟩] (.ok (some (t, token))) w₁) :
    wp (restrict exec P) R G (TransactionRepository.findById tx.id tx.tenantId) Q w := by
  refine wp_call hP ?_
  intro w₁ hw₁ i
  obtain ⟨t, ht, hs, hhash, htenant⟩ := hw.star hR hS hw₁
  obtain ⟨token, hfound⟩ := Db.findTransactionById_of_get ht
  rw [htenant] at hfound
  refine ⟨hG _ _ rfl, ?_⟩
  simp only [Call.effect, Stmt.exec, hfound]
  exact h w₁ hw₁ t token i ht hs hhash htenant

include hP hR hG in
/-- What the second reading after a conflict makes of the status that it finds. -/
theorem wp_rereadAfterConflict (hS : Closed B S) (hw : Standing S tx w) (error : JsError)
    (claims : Bool) :
    wp (restrict exec P) R G (ConfirmationProcessor.rereadAfterConflict tx error claims)
      (fun _ r w' => ∃ a ∈ S, Since B a tx w' ∧
        r = if a.isTerminal then .ok false
          else if claims && a = CONFIRMING then .ok true else .error error) w := by
  refine wp_bind.mpr (wp_findById hP hR hG hS hw ?_)
  intro w₁ _ t token _ ht hs hhash htenant
  have hsince : Since B t.status tx w₁ := since_of_row ht hhash htenant
  dsimp only
  by_cases hterm : t.status.isTerminal = true
  · rw [if_pos hterm]
    refine wp_bind.mpr (wp_emit hG ?_)
    intro w₂ hw₂ _
    have hsince₂ := hsince.star hR hw₂
    refine ⟨t.status, hs, hsince₂, ?_⟩
    rw [if_pos hterm]
  · rw [if_neg hterm]
    by_cases hclaims : (claims && decide (t.status = CONFIRMING)) = true
    · rw [if_pos hclaims]
      refine ⟨t.status, hs, hsince, ?_⟩
      rw [if_neg hterm, if_pos hclaims]
    · rw [if_neg hclaims]
      refine ⟨t.status, hs, hsince, ?_⟩
      rw [if_neg hterm, if_neg hclaims]

theorem since_written {t : Transaction} {data : TransactionUpdateInput}
    {table : Table Transaction TransactionKey Transaction.keys} {references}
    (rows : ∀ i, table.get (.id i) = if i = tx.id then some (data.apply t) else w.ledger.row i)
    (hdata : data.txHash = none) (hhash : t.txHash = tx.txHash) (htenant : t.tenantId = tx.tenantId) :
    Since B (data.apply t).status tx (w.withTransactions table references) := by
  refine since_of_row (t := data.apply t) ?_ ?_ htenant
  · exact (rows tx.id).trans (if_pos rfl)
  · rw [← hhash]
    simp only [TransactionUpdateInput.apply, hdata]
    rfl

theorem Since.orThrow {a : TransactionStatus} {w : World} (h : Since B a tx w) (hS : Closed B S)
    (ha : a ∈ S) : ∃ t, orThrow (w.ledger.row tx.id) = .ok t := by
  obtain ⟨t, ht, _⟩ := h S hS ha
  exact ⟨t, by rw [ht]; rfl⟩

theorem Standing.rejection (expected : Transaction → TransactionStatus) (h : Standing S tx w) :
    ∃ a, rejection tx.id expected (w.ledger.row tx.id) = .transactionStateConflict tx.id a := by
  obtain ⟨t, ht, _⟩ := h
  exact ⟨expected t, by rw [ht]; rfl⟩

include hP hR hG in
/-- **The claim.**  A SUBMITTED row is CONFIRMING afterwards; a row that others have claimed or
resolved is left alone, and the worker goes on unless it is resolved. -/
theorem wp_claimConfirmation {T : List TransactionStatus} (hS : Closed B S) (hT : Closed B T)
    (hsub : ∀ a ∈ S, a = SUBMITTED ∨ a ∈ T)
    (hend : ∀ a ∈ T, a.isTerminal = true ∨ a = CONFIRMING)
    (hwrite : SUBMITTED ∈ S → CONFIRMING ∈ T ∧
      ∀ v table references, G v (World.withTransactions v table references))
    (hw : Standing S tx w) :
    wp (restrict exec P) R G (ConfirmationProcessor.claimConfirmation tx)
      (fun _ r w' => ∃ a ∈ T, Since B a tx w' ∧ r = .ok (!a.isTerminal)) w := by
  refine wp_tryCatch.mpr (wp_bind.mpr (wp_bind.mpr (wp_now hG ?_)))
  intro w₁ hw₁ _
  have hw₁ := hw.star hR hS hw₁
  show wp _ _ _ (TransactionRepository.transition prisma tx.id _ _ _) _ _
  rw [transition_eq (by decide)]
  refine wp_updateThen hP (fun v => hG v v rfl) rfl ?_ ?_ ?_
  · intro w₂ hw₂ t ht hs _ table references rows
    obtain ⟨s, hrow, hsS, hhash, htenant⟩ := hw₁.star hR hS hw₂
    rw [ht, Option.some.injEq] at hrow
    subst hrow
    rw [List.mem_singleton] at hs
    rw [hs] at hsS
    obtain ⟨hmem, hall⟩ := hwrite hsS
    refine ⟨hall _ _ _, ?_⟩
    intro w₃ hw₃ _ _
    have hsince := (since_written rows rfl hhash htenant).star hR hw₃
    obtain ⟨t', ht'⟩ := hsince.orThrow hT hmem
    rw [ht']
    exact ⟨CONFIRMING, hmem, hsince, rfl⟩
  · intro w₂ hw₂ hmiss w₃ hw₃ _ _
    have hw₂' : Standing T tx w₂ := by
      obtain ⟨t, ht, hs, hrest⟩ := hw₁.star hR hS hw₂
      refine ⟨t, ht, ?_, hrest⟩
      rcases hsub _ hs with hsub | hmem
      · exact absurd (List.mem_singleton.mpr hsub) (hmiss t ht)
      · exact hmem
    have hw₃' := hw₂'.star hR hT hw₃
    obtain ⟨a, hconflict⟩ := hw₃'.rejection fun _ => SUBMITTED
    rw [hconflict]
    refine wp_mono ?_ (wp_rereadAfterConflict hP hR hG hT hw₃' _ true)
    rintro tr r w' ⟨a, ha, hsince, hr⟩
    refine ⟨a, ha, hsince, hr.trans ?_⟩
    rcases hend a ha with hterm | rfl
    · simp [hterm]
    · rfl
  · intro w₂ _ _ _ _ htaken _
    exact absurd (fun hash h => by cases h) htaken

/-- The call is the update to FAILED, and finds the row CONFIRMING. -/
def FindsConfirming {ι : Type} (id : String) (m : Moment Call ι World) : Prop :=
  ∃ status data t, m.op = .stmt (.transactionUpdateMany id status data) ∧
    data.status = some FAILED ∧ m.state.ledger.row id = some t ∧ t.status = CONFIRMING

theorem not_found_of_permitted {ι : Type} {id : String} {tr : List (Moment Call ι World)}
    (h : ∀ m ∈ tr, Permitted (fun _ => none) [] m.op) : ¬ Found (FindsConfirming id) tr := by
  rintro ⟨m, hm, status, data, t, hop, _⟩
  have hperm := h m hm
  rw [hop] at hperm
  obtain ⟨k, hk, _⟩ := hperm
  cases hk

/-- How a write to FAILED ends: it finds the row CONFIRMING and goes through, or it does not; then
the attempt is over if the row is terminal, and throws otherwise. -/
def Reverts {ι α : Type} (B S : List TransactionStatus) (tx : Transaction) (yes no : α)
    (tr : List (Moment Call ι World)) (r : Except JsError α) (w : World) : Prop :=
  (Found (FindsConfirming tx.id) tr ∧ CONFIRMING ∈ S ∧ r = .ok yes ∧ Since B FAILED tx w) ∨
    (¬ Found (FindsConfirming tx.id) tr ∧ (∃ a ∈ S, a ≠ CONFIRMING) ∧ ∃ a ∈ S, Since B a tx w ∧
      ((a.isTerminal = true ∧ r = .ok no) ∨ (a.isTerminal = false ∧ ∃ e, r = .error e)))

include hP hR hG in
theorem wp_markTransactionFailed (hS : Closed B S) (hwrite : CONFIRMING ∈ S →
      ∀ v table references, G v (World.withTransactions v table references))
    (hw : Standing S tx w) :
    wp (restrict exec P) R G (ConfirmationProcessor.markTransactionFailed tx)
      (Reverts B S tx true false) w := by
  refine wp_tryCatch.mpr (wp_bind.mpr (wp_bind.mpr (wp_now hG ?_)))
  intro w₁ hw₁ _
  have hw₁ := hw.star hR hS hw₁
  show wp _ _ _ (TransactionRepository.transitionFromAny prisma tx.id _ _ _) _ _
  rw [transitionFromAny_eq (by decide)]
  refine wp_updateThen hP (fun v => hG v v rfl) rfl ?_ ?_ ?_
  · intro w₂ hw₂ t ht hs _ table references rows
    obtain ⟨s, hrow, hsS, hhash, htenant⟩ := hw₁.star hR hS hw₂
    rw [ht, Option.some.injEq] at hrow
    subst hrow
    have hconfirming : t.status = CONFIRMING := by
      rcases List.mem_cons.mp hs with hp | hc
      · exact absurd hp (hS _ hsS).1
      · exact List.mem_singleton.mp hc
    rw [hconfirming] at hsS
    refine ⟨hwrite hsS _ _ _, ?_⟩
    intro w₃ hw₃ i _
    have hsince := (since_written rows rfl hhash htenant).star hR hw₃
    obtain ⟨t', ht'⟩ := hsince.orThrow (closed_terminal rfl) (List.mem_singleton_self FAILED)
    rw [ht']
    refine .inl ⟨?_, hsS, rfl, hsince⟩
    exact ⟨_, List.mem_cons_of_mem _ List.mem_cons_self, _, _, t, rfl, rfl, ht, hconfirming⟩
  · intro w₂ hw₂ hmiss w₃ hw₃ _ _
    have hw₂' := hw₁.star hR hS hw₂
    have hother : ∃ a ∈ S, a ≠ CONFIRMING := by
      obtain ⟨t, ht, hs, _⟩ := hw₂'
      exact ⟨t.status, hs, fun hc => hmiss t ht (by simp [hc])⟩
    have hw₃' := hw₂'.star hR hS hw₃
    obtain ⟨a, hconflict⟩ := hw₃'.rejection fun t => t.status
    rw [hconflict]
    have hreread := wp_rereadAfterConflict hP hR hG hS hw₃' (.transactionStateConflict tx.id a) false
    have hreads : All (Permitted (fun _ => none) []) (ConfirmationProcessor.rereadAfterConflict tx
        (.transactionStateConflict tx.id a) false) := permitted_rereadAfterConflict tx _ false
    refine wp_mono ?_ (hreads.wp_trace hreread)
    rintro tr r w' ⟨hperm, a, ha, hsince, hr⟩
    refine .inr ⟨?_, hother, a, ha, hsince, ?_⟩
    · -- the only update of the trace is the one that missed
      rw [found_append]
      rintro (hfound | hfound)
      · simp only [List.singleton_append, found_cons, found_nil, or_false] at hfound
        obtain ⟨_, _, _, hop, _⟩ | ⟨_, _, t, hop, _, ht, hc⟩ | ⟨_, _, _, hop, _⟩ := hfound
        · cases hop
        · exact hmiss t ht (by simp [hc])
        · cases hop
      · exact not_found_of_permitted hperm hfound
    · cases hterm : a.isTerminal with
      | true => exact .inl ⟨rfl, by rw [hr, hterm]; rfl⟩
      | false => exact .inr ⟨rfl, _, by rw [hr, hterm]; rfl⟩
  · intro w₂ _ _ _ _ htaken _
    exact absurd (fun hash h => by cases h) htaken

include hP hR hG in
theorem wp_handleRevertedTransaction (hS : Closed B S)
    (hwrite : CONFIRMING ∈ S →
      ∀ v table references, G v (World.withTransactions v table references))
    (hw : Standing S tx w) :
    wp (restrict exec P) R G (ConfirmationProcessor.handleRevertedTransaction tx)
      (Reverts B S tx () ()) w := by
  refine wp_bind.mpr (wp_mono ?_ (wp_markTransactionFailed hP hR hG hS hwrite hw))
  rintro tr r w₁ (⟨hfound, hmem, rfl, hsince⟩ | ⟨hfound, hother, a, ha, hsince, hr⟩)
  · refine wp_bind.mpr (wp_emit hG ?_)
    intro w₂ hw₂ _
    refine wp_emit hG ?_
    intro w₃ hw₃ _
    have hsince₂ := hsince.star hR hw₂
    have hsince₃ := Since.star hR hw₃ hsince₂
    refine .inl ⟨?_, hmem, rfl, hsince₃⟩
    rw [found_append]
    exact .inl hfound
  · rcases hr with ⟨hterm, rfl⟩ | ⟨hterm, e, rfl⟩
    · refine .inr ⟨?_, hother, a, ha, hsince, .inl ⟨hterm, rfl⟩⟩
      rw [List.append_nil]
      exact hfound
    · exact .inr ⟨hfound, hother, a, ha, hsince, .inr ⟨hterm, e, rfl⟩⟩

theorem registry_get (chain : Blockchain) :
    ∃ adapter, blockchainAdapterRegistry.get chain = .ok adapter := by
  cases chain <;> exact ⟨_, rfl⟩

include hG in
/-- **The beginning of an attempt**: it reads the row and, if the row has a hash, asks the chain. -/
theorem wp_processTransaction {result : BlockchainTransaction} (hP : ∀ i, P i → Answering result i)
    (hR : ∀ v v', R v v' → Spares B tx.id v v') (hS : Closed B S) (hw : Standing S tx w)
    {F : World → Prop} (hF : Stable R (fun v v' => v'.db = v.db) F) (hFw : F w)
    {Q : List (Moment Call { i // P i } World) → Except JsError Unit → World → Prop}
    (hnone : Js.isFalsy tx.txHash = true → ∀ w₁, Standing S tx w₁ → ∀ m₁ : Moment _ _ _,
      ¬ FindsConfirming tx.id m₁ → Q [m₁] (.ok ()) w₁)
    (hsome : Js.isFalsy tx.txHash = false → ∀ w₁ t, t.id = tx.id → t.txHash = tx.txHash →
      t.tenantId = tx.tenantId → Standing S t w₁ → F w₁ → ∀ m₁ m₂ : Moment _ _ _,
      ¬ FindsConfirming tx.id m₁ → ¬ FindsConfirming tx.id m₂ →
      wp (restrict exec P) R G (match result.status with
        | .confirmed => ConfirmationProcessor.handleSuccessfulTransaction t result
        | .failed => ConfirmationProcessor.handleRevertedTransaction t
        | .pending => .throw (.transactionPending (t.txHash.getD "")))
        (fun tr r w' => match r with
          | .ok a => Q (m₁ :: m₂ :: tr) (.ok a) w'
          | .error e => wp (restrict exec P) R G (ConfirmationProcessor.handleConfirmationError t e)
            (fun tr' => Q (m₁ :: m₂ :: tr ++ tr')) w') w₁) :
    wp (restrict exec P) R G
      (ConfirmationProcessor.processTransaction blockchainAdapterRegistry tx.id tx.tenantId) Q w := by
  have hP' : Faultless P := fun i hi => (hP i hi).1
  refine wp_bind.mpr (wp_findById hP' hR hG hS hw ?_)
  intro w₁ hw₁ t token i ht hs hhash htenant
  have hfind : ¬ FindsConfirming tx.id (⟨w₁, .stmt (.transactionFindById tx.id tx.tenantId), i⟩ :
      Moment Call { i // P i } World) := by
    rintro ⟨_, _, _, hop, _⟩
    cases hop
  have hid : t.id = tx.id := World.ledger_id ht
  show wp _ _ _ (if Js.isFalsy t.txHash then _ else _) _ _
  rw [hhash]
  cases hfalsy : Js.isFalsy tx.txHash with
  | true => exact hnone hfalsy w₁ ⟨t, ht, hs, hhash, htenant⟩ _ hfind
  | false =>
    refine wp_tryCatch.mpr (wp_bind.mpr ?_)
    unfold ConfirmationProcessor.getBlockchainTransaction
    obtain ⟨adapter, hadapter⟩ := registry_get token.blockchain
    rw [hadapter]
    refine wp_call hP' ?_
    intro w₂ hw₂ j
    have hR' : ∀ v v', R v v' → Spares B t.id v v' := by
      rw [hid]
      exact hR
    have hstand : Standing S t w₁ := ⟨t, hid ▸ ht, hs, rfl, rfl⟩
    have hstand₂ := hstand.star hR' hS hw₂
    have hanswered : Standing S t
        { w₂ with answers := ⟨adapter.chain, t.txHash.getD "", result⟩ :: w₂.answers } := hstand₂
    have hget : ¬ FindsConfirming tx.id (⟨w₂, .getTransaction adapter.chain (t.txHash.getD ""), j⟩ :
        Moment Call { i // P i } World) := by
      rintro ⟨_, _, _, hop, _⟩
      cases hop
    refine ⟨?_, ?_⟩
    · refine hG _ _ ?_
      simp only [Call.effect, (hP j.1 j.2).2]
    · simp only [Call.effect, (hP j.1 j.2).2]
      have hFw₂ := hF.guarantee w₂
        { w₂ with answers := ⟨adapter.chain, t.txHash.getD "", result⟩ :: w₂.answers } rfl
        (hF.star (hw₁.trans hw₂) hFw)
      refine wp_mono ?_ (hsome hfalsy _ t hid hhash htenant hanswered hFw₂ _ _ hfind hget)
      intro tr r w' h
      cases r <;> exact h

include hG in
/-- The handler of an attempt's errors only reads, and throws on. -/
theorem wp_handleConfirmationError (e : JsError) :
    wp (restrict exec P) R G (ConfirmationProcessor.handleConfirmationError tx e)
      (fun tr r _ => (∀ m ∈ tr, Permitted (fun _ => none) [] m.op) ∧ r = .error e) w := by
  refine All.wp_trace (permitted_handleConfirmationError tx e) ?_
  unfold ConfirmationProcessor.handleConfirmationError
  split
  · exact rfl
  · refine wp_bind.mpr (wp_emit hG ?_)
    intro w₁ _ _
    refine wp_bind.mpr (wp_emit hG ?_)
    intro w₂ _ _
    exact rfl

end Calls

/-! ## A transaction that failed on its chain -/

/-- The attempt has not thrown, and the row is FAILED. -/
def Fails (id : String) (outcome : Except JsError Unit × World) : Prop :=
  outcome.1 = .ok () ∧ ∃ t, outcome.2.ledger.row id = some t ∧ t.status = FAILED

/-- How an attempt ends that is answered `failed`, for a row that has no terminal status. -/
theorem wp_processTransaction_failed {B S : List TransactionStatus} {tx : Transaction} {w : World}
    {R : World → World → Prop} {result : BlockchainTransaction} (hfailed : result.status = .failed)
    (hR : ∀ v v', R v v' → Spares B tx.id v v') (hS : Closed B S)
    (hopen : ∀ a ∈ S, a.isTerminal = false) (hw : Standing S tx w) :
    wp (restrict exec (Answering result)) R (fun _ _ => True)
      (ConfirmationProcessor.processTransaction blockchainAdapterRegistry tx.id tx.tenantId)
      (fun tr r w' =>
        (Found (FindsConfirming tx.id) tr ∧ (Js.isFalsy tx.txHash = false ∧ CONFIRMING ∈ S) ∧
          Fails tx.id (r, w')) ∨
        (¬ Found (FindsConfirming tx.id) tr ∧
          (Js.isFalsy tx.txHash = true ∨ ∃ a ∈ S, a ≠ CONFIRMING) ∧ ¬ Fails tx.id (r, w'))) w := by
  have hP : Faultless (Answering result) := fun i hi => hi.1
  have hG : ∀ v v' : World, v'.db = v.db → True := fun _ _ _ => trivial
  refine wp_processTransaction hG (fun _ h => h) hR hS hw stable_true trivial ?_ ?_
  · intro hfalsy w₁ hw₁ m₁ hm₁
    refine .inr ⟨by simp [hm₁], .inl hfalsy, ?_⟩
    rintro ⟨_, t, ht, hs⟩
    obtain ⟨t', ht', hs', _⟩ := hw₁
    rw [ht, Option.some.injEq] at ht'
    rw [← ht', hs] at hs'
    cases hopen _ hs'
  · intro hfalsy w₁ t hid hhash htenant hw₁ _ m₁ m₂ hm₁ hm₂
    rw [hfailed]
    rw [← hid] at hR hm₁ hm₂ ⊢
    refine wp_mono ?_ (wp_handleRevertedTransaction hP hR hG hS (fun _ _ _ _ => trivial) hw₁)
    rintro tr r w₂ (⟨hfound, hmem, rfl, hsince⟩ | ⟨hfound, hother, a, ha, _, hr⟩)
    · obtain ⟨t', ht', hs', _⟩ := hsince [FAILED] (closed_terminal rfl) (by simp)
      exact .inl ⟨by simp [hfound], ⟨hfalsy, hmem⟩, rfl, t', ht', List.mem_singleton.mp hs'⟩
    · rcases hr with ⟨hterm, _⟩ | ⟨_, e, rfl⟩
      · rw [hopen a ha] at hterm
        cases hterm
      · refine wp_mono ?_ (wp_handleConfirmationError hG e)
        rintro tr' r w' ⟨hperm, rfl⟩
        refine .inr ⟨?_, .inr hother, ?_⟩
        · simp [hm₁, hm₂, hfound, not_found_of_permitted hperm]
        · rintro ⟨h, _⟩
          cases h

/-- The terminal statuses. -/
def terminalStatuses : List TransactionStatus := [CONFIRMED, FAILED, EXPIRED]

/-- **When an answer `failed` fails the row.**  The row is SUBMITTED or CONFIRMING, no call fails
and nobody else resolves the row: the attempt ends without an error and leaves it FAILED exactly
if its update finds it CONFIRMING.  That is so for a row which is CONFIRMING from the start, and
while nobody else writes for no other. -/
theorem reverted_iff (w : World) (t : Transaction) (ht : t ∈ w.db.transactions.rows)
    (hs : t.status = SUBMITTED ∨ t.status = CONFIRMING) (result : BlockchainTransaction)
    (hfailed : result.status = .failed) (inp : Nat → (World → World) × Input)
    (hinp : ∀ n, (inp n).2.fault = none ∧ (inp n).2.reply = .transaction result)
    (hothers : ∀ n v, Relation.ReflTransGen (Spares terminalStatuses t.id) v ((inp n).1 v)) :
    (Fails t.id ((ConfirmationProcessor.processTransaction blockchainAdapterRegistry t.id
        t.tenantId).run (among exec) inp w) ↔
      Found (FindsConfirming t.id) (traceAmong exec (ConfirmationProcessor.processTransaction
        blockchainAdapterRegistry t.id t.tenantId) inp w)) ∧
    (t.status = CONFIRMING → Js.isFalsy t.txHash = false →
      Fails t.id ((ConfirmationProcessor.processTransaction blockchainAdapterRegistry t.id
        t.tenantId).run (among exec) inp w)) ∧
    ((∀ n, (inp n).1 = id) →
      (Fails t.id ((ConfirmationProcessor.processTransaction blockchainAdapterRegistry t.id
        t.tenantId).run (among exec) inp w) ↔
        t.status = CONFIRMING ∧ Js.isFalsy t.txHash = false)) := by
  have hrow : w.ledger.row t.id = some t := Db.mem_transactions.mp ht
  -- the trace as it is seen from outside
  have hmap : ∀ tr : List (Moment Call { i // Answering result i } World),
      Found (FindsConfirming t.id) (tr.map fun m => (⟨m.state, m.op, m.input.1⟩ :
        Moment Call Input World)) ↔ Found (FindsConfirming t.id) tr := by
    intro tr
    simp [Found, FindsConfirming]
  have hrun : ∀ B S (R : World → World → Prop), (∀ v v', R v v' → Spares B t.id v v') →
      Closed B S → (∀ a ∈ S, a.isTerminal = false) → t.status ∈ S →
      (∀ n v, Relation.ReflTransGen R v ((inp n).1 v)) → _ := fun B S R hR hS hopen hmem hmoves =>
    run_among_of_wp (Q := fun tr r w' =>
        (Found (FindsConfirming t.id) tr ∧ (Js.isFalsy t.txHash = false ∧ CONFIRMING ∈ S) ∧
          Fails t.id (r, w')) ∨
        (¬ Found (FindsConfirming t.id) tr ∧
          (Js.isFalsy t.txHash = true ∨ ∃ a ∈ S, a ≠ CONFIRMING) ∧ ¬ Fails t.id (r, w')))
      (wp_mono (fun tr r w' h => by
        rw [hmap]
        exact h) (wp_processTransaction_failed hfailed hR hS hopen ⟨t, hrow, hmem, rfl, rfl⟩))
      hinp hmoves
  have hspares : ∀ v v', Spares terminalStatuses t.id v v' → Spares terminalStatuses t.id v v' :=
    fun _ _ h => h
  have hboth := hrun terminalStatuses [SUBMITTED, CONFIRMING] _ hspares (by decide) (by decide)
    (by simpa using hs) hothers
  refine ⟨?_, ?_, ?_⟩
  · rcases hboth with ⟨hfound, _, hfails⟩ | ⟨hfound, _, hfails⟩
    · exact iff_of_true hfails hfound
    · exact iff_of_false hfails hfound
  · intro hconfirming hfalsy
    have h := hrun terminalStatuses [CONFIRMING] _ hspares (by decide) (by decide)
      (by simpa using hconfirming) hothers
    rcases h with ⟨_, _, hfails⟩ | ⟨_, hwhy, _⟩
    · exact hfails
    · simp [hfalsy] at hwhy
  · intro halone
    have hnone : ∀ v v', Alone v v' → Spares [CONFIRMING, EXPIRED, CONFIRMED, FAILED] t.id v v' :=
      fun _ _ h => h.elim
    have hclosed : Closed [CONFIRMING, EXPIRED, CONFIRMED, FAILED] [t.status] := by
      rcases hs with hs | hs <;> rw [hs] <;> decide
    have hopen : ∀ a ∈ [t.status], a.isTerminal = false := by
      rcases hs with hs | hs <;> rw [hs] <;> decide
    have h := hrun _ [t.status] Alone hnone hclosed hopen (by simp) (by
      intro n v
      rw [halone n]
      exact .refl)
    rcases h with ⟨_, ⟨hfalsy, hmem⟩, hfails⟩ | ⟨_, hwhy, hfails⟩
    · exact iff_of_true hfails ⟨(List.mem_singleton.mp hmem).symm, hfalsy⟩
    · refine iff_of_false hfails ?_
      rintro ⟨hconfirming, hfalsy⟩
      simp [hfalsy, hconfirming] at hwhy

/-- The adapter's answer for a transaction that reverted. -/
def revertedAnswer : BlockchainTransaction := ⟨"0x01", some 3, 1, .failed, some 21000⟩

/-- The transaction is SUBMITTED and its chain answers `failed`, but the attempt throws and the row
stays as it is. -/
theorem submitted_revert_throws :
    Transaction.sample ∈ (World.sample.start.after Deployment.defaults.system
      sampleTransfer).world.db.transactions.rows ∧
    ¬ Fails "tx" ((ConfirmationProcessor.processTransaction blockchainAdapterRegistry "tx"
      "tenant").run (among exec) (fun _ => (id, { reply := .transaction revertedAnswer }))
      (World.sample.start.after Deployment.defaults.system sampleTransfer).world) := by
  refine ⟨by decide, ?_⟩
  rintro ⟨hok, _⟩
  exact absurd hok (by decide)

/-- A worker has claimed the transaction and is lost. -/
def claimedTransfer : List SystemEvent :=
  sampleTransfer ++ .spawn (.processTransaction "tx" "tenant") ::
    steps 1 [{}, { reply := .transaction ⟨"0x01", some 3, 1, .confirmed, some 21000⟩ }, {}, {}] ++
    [.crash 1]

def claimedTransaction : Transaction :=
  { Transaction.sample with status := CONFIRMING, confirmationStartedAt := some 1000000 }

theorem reverted_iff_claimedTransfer :
    Fails "tx" ((ConfirmationProcessor.processTransaction blockchainAdapterRegistry "tx"
      "tenant").run (among exec) (fun _ => (id, { reply := .transaction revertedAnswer }))
      (World.sample.start.after Deployment.defaults.system claimedTransfer).world) :=
  (reverted_iff (World.sample.start.after Deployment.defaults.system claimedTransfer).world
    claimedTransaction (by decide) (.inr rfl) revertedAnswer rfl _ (fun _ => ⟨rfl, rfl⟩)
    fun _ _ => .refl).2.1 rfl rfl

/-! ## A transaction that its chain confirmed -/

/-- No event of the outbox has one of the ids `U`. -/
def Unused (U : String → Prop) (w : World) : Prop := ∀ e ∈ w.db.outboxEvents.rows, ¬ U e.id

/-- The others neither fail nor expire the row, and use none of the ids `U` for an event. -/
def Assists (U : String → Prop) (id : String) (w w' : World) : Prop :=
  Spares [FAILED, EXPIRED] id w w' ∧ (Unused U w → Unused U w')

/-- The statuses of a row on its way to CONFIRMED. -/
def onTheWay : List TransactionStatus := [SUBMITTED, CONFIRMING, CONFIRMED]

/-- The inputs of an attempt that is answered `result` and draws its ids from `U`. -/
def Drawing (U : String → Prop) (result : BlockchainTransaction) (i : Input) : Prop :=
  Answering result i ∧ U i.uuid

section Confirmed

variable {U : String → Prop} {result : BlockchainTransaction} {tx : Transaction} {w : World}

theorem stable_unused (id : String) :
    Stable (Assists U id) (fun v v' => v'.db.outboxEvents = v.db.outboxEvents) (Unused U) where
  rely _ _ h hw := h.2 hw
  guarantee _ _ h hw := by
    rw [Unused, h]
    exact hw

/-- A block number that a double holds fits, and so does less gas than `2 ^ 63`. -/
theorem not_outOfRange {blockNumber : Nat} (hlow : blockNumber < 2 ^ 53) {gasUsed : Option Nat}
    (hgas : ∀ gas, gasUsed = some gas → gas < 2 ^ 63) :
    ¬ (fitsBigInt (Js.number blockNumber) = false ∨ fitsNullable gasUsed = false) := by
  have hnumber : fitsBigInt (Js.number blockNumber) = true := by
    rw [Js.number_of_lt hlow, fitsBigInt_iff]
    omega
  have hgasUsed : fitsNullable gasUsed = true := by
    cases gasUsed with
    | none => rfl
    | some gas =>
      have hlt := hgas gas rfl
      rw [fitsNullable, Option.all_some, fitsBigInt_iff]
      omega
  simp [hnumber, hgasUsed]

/-- **Persisting a confirmation** of a row that is claimed, by this worker or by another, or that
is confirmed already. -/
theorem wp_persistConfirmation {blockNumber : Nat} (hblock : result.blockNumber = some blockNumber)
    (hlow : blockNumber < 2 ^ 53) (hgas : ∀ gas, result.gasUsed = some gas → gas < 2 ^ 63) {hash : String} (hhash : tx.txHash = some hash)
    (hw : Standing [CONFIRMING, CONFIRMED] tx w) (hunused : Unused U w) :
    wp (restrict exec (Drawing U result)) (Assists U tx.id) (fun _ _ => True)
      (ConfirmationProcessor.persistConfirmation tx result)
      (fun _ r w' => r = .ok () ∧ Since [FAILED, EXPIRED] CONFIRMED tx w') w := by
  have hP : Faultless (Drawing U result) := fun i hi => hi.1.1
  have hR : ∀ v v', Assists U tx.id v v' → Spares [FAILED, EXPIRED] tx.id v v' := fun _ _ h => h.1
  refine wp_tryCatch.mpr (wp_call hP ?_)
  intro w₁ hw₁ i
  refine ⟨trivial, ?_⟩
  obtain ⟨s, hrow, hs, hshash, htenant⟩ := hw.star hR (by decide) hw₁
  have hunused₁ := (stable_unused tx.id).star hw₁ hunused
  have hfound : w₁.db.transactions.get (.txHash (tx.txHash.getD "")) = some s := by
    rw [Db.get_txHash, World.ledger_id hrow, hshash, hhash]
    exact ⟨hrow, rfl⟩
  have hp := persistBody_spec tx result ⟨w₁.clock, i.1.uuid⟩ w₁.db
  simp only [Call.effect]
  generalize ConfirmationProcessor.persistBody tx result ⟨w₁.clock, i.1.uuid⟩ w₁.db = r at hp
  cases hp with
  | noBlock hnone =>
    rw [hblock] at hnone
    cases hnone
  | notFound hnone =>
    rw [hfound] at hnone
    cases hnone
  | outOfRange hsame large =>
    rw [hblock, Option.some.injEq] at hsame
    subst hsame
    exact absurd large (not_outOfRange hlow hgas)
  | duplicate taken =>
    obtain ⟨e, he⟩ := Option.ne_none_iff_exists'.mp taken
    obtain ⟨hmem, hkey⟩ := w₁.db.outboxEvents.get_eq_some_iff.mp he
    refine absurd i.2.2 ?_
    rw [show i.1.uuid = e.id from List.mem_singleton.mp hkey]
    exact hunused₁ e hmem
  | @done t n table events _ found _ rows _ references =>
    rw [hfound, Option.some.injEq] at found
    subst found
    refine ⟨trivial, since_of_row (t := confirmedRow s (Js.number n) result.gasUsed w₁.clock) ?_ hshash
      htenant⟩
    have hnew := rows s.id
    rw [if_pos rfl, World.ledger_id hrow] at hnew
    exact hnew
  | conflict found hne =>
    rw [hfound, Option.some.injEq] at found
    subst found
    have hconfirmed : Standing [CONFIRMED] tx w₁ := by
      refine ⟨s, hrow, ?_, hshash, htenant⟩
      rcases List.mem_cons.mp hs with hc | hc
      · exact absurd hc hne
      · exact hc
    refine wp_bind.mpr (wp_mono ?_
      (wp_rereadAfterConflict hP hR (fun _ _ _ => trivial) (by decide) hconfirmed _ false))
    rintro tr r w' ⟨a, ha, hsince, rfl⟩
    rw [List.mem_singleton] at ha
    subst ha
    exact ⟨rfl, hsince⟩

/-- **An attempt that is answered `confirmed`**, for a row that is on its way. -/
theorem wp_processTransaction_confirmed {blockNumber : Nat} (hconf : result.status = .confirmed)
    (hblock : result.blockNumber = some blockNumber) (hlow : blockNumber < 2 ^ 53)
    (hgas : ∀ gas, result.gasUsed = some gas → gas < 2 ^ 63) (hfalsy : Js.isFalsy tx.txHash = false)
    (hw : Standing onTheWay tx w) (hunused : Unused U w) :
    wp (restrict exec (Drawing U result)) (Assists U tx.id) (fun _ _ => True)
      (ConfirmationProcessor.processTransaction blockchainAdapterRegistry tx.id tx.tenantId)
      (fun _ r w' => r = .ok () ∧ ∃ t, w'.ledger.row tx.id = some t ∧ t.status = CONFIRMED) w := by
  have hP : Faultless (Drawing U result) := fun i hi => hi.1.1
  have hG : ∀ v v' : World, v'.db = v.db → True := fun _ _ _ => trivial
  have hstable : Stable (Assists U tx.id) (fun v v' => v'.db = v.db) (Unused U) :=
    ⟨(stable_unused tx.id).rely, fun v v' h => (stable_unused tx.id).guarantee v v' (by rw [h])⟩
  refine wp_processTransaction hG (fun _ h => h.1) (fun _ _ h => h.1) (by decide) hw hstable hunused
    ?_ ?_
  · intro hnone
    rw [hfalsy] at hnone
    cases hnone
  · intro _ w₁ t hid hhash htenant hw₁ hunused₁ m₁ m₂ _ _
    rw [hconf, ← hid]
    obtain ⟨hash, hsome⟩ : ∃ hash, t.txHash = some hash := by
      rw [hhash]
      cases hh : tx.txHash with
      | none =>
        rw [hh] at hfalsy
        cases hfalsy
      | some hash => exact ⟨hash, rfl⟩
    have hR : ∀ v v', Assists U t.id v v' → Spares [FAILED, EXPIRED] t.id v v' := fun _ _ h => h.1
    have hclaim := wp_claimConfirmation (T := [CONFIRMING, CONFIRMED])
      (G := fun v v' => v'.db.outboxEvents = v.db.outboxEvents) hP hR (fun v v' h => by rw [h])
      (by decide) (by decide) (by decide) (by decide)
      (fun _ => ⟨by decide, fun _ _ _ => rfl⟩) hw₁
    have hclaim := wp_weaken (fun _ _ h => h) (H := fun _ _ => True) (fun _ _ _ => trivial)
      (wp_keeps (stable_unused t.id) hclaim hunused₁)
    have hdone : ∀ w', Since [FAILED, EXPIRED] CONFIRMED t w' →
        ∃ s, w'.ledger.row t.id = some s ∧ s.status = CONFIRMED := by
      intro w' hsince
      obtain ⟨s, hs, hmem, _⟩ := hsince [CONFIRMED] (by decide) (by simp)
      exact ⟨s, hs, List.mem_singleton.mp hmem⟩
    refine wp_bind.mpr (wp_mono ?_ hclaim)
    rintro tr r w₂ ⟨⟨a, ha, hsince, rfl⟩, hunused₂⟩
    rcases List.mem_cons.mp ha with rfl | ha
    · -- claimed, by this worker or by another
      have hclaimed := hsince [CONFIRMING, CONFIRMED] (by decide) (by simp)
      refine wp_bind.mpr (wp_mono ?_ (wp_persistConfirmation hblock hlow hgas hsome hclaimed hunused₂))
      rintro tr' r w₃ ⟨rfl, hsince₃⟩
      refine wp_bind.mpr (wp_emit hG ?_)
      intro w₄ hw₄ _
      have hsince₄ := hsince₃.star hR hw₄
      refine wp_emit hG ?_
      intro w₅ hw₅ _
      have hsince₅ := Since.star hR hw₅ hsince₄
      exact ⟨rfl, hdone _ hsince₅⟩
    · -- another worker has confirmed the row
      rw [List.mem_singleton] at ha
      subst ha
      exact ⟨rfl, hdone _ hsince⟩

end Confirmed

/-- **An attempt on a terminal row**, answered `confirmed` or `failed`: it does not throw, and none
of its calls writes anything. -/
theorem wp_processTransaction_terminal {tx : Transaction} {w : World}
    {result : BlockchainTransaction}
    (hresult : result.status = .confirmed ∨ result.status = .failed)
    (hrow : w.ledger.row tx.id = some tx) (hterm : tx.status.isTerminal = true) :
    wp (restrict exec (Answering result)) (Moved allKinds) (fun v v' => v'.db = v.db)
      (ConfirmationProcessor.processTransaction blockchainAdapterRegistry tx.id tx.tenantId)
      (fun _ r _ => r = .ok ()) w := by
  have hP : Faultless (Answering result) := fun i hi => hi.1
  have hG : ∀ v v' : World, v'.db = v.db → v'.db = v.db := fun _ _ h => h
  have hR : ∀ v v', Moved allKinds v v' → Spares [] tx.id v v' :=
    fun _ _ h => ⟨h, fun _ _ hmem => by cases hmem⟩
  have hS : Closed [] [tx.status] := closed_terminal hterm
  refine wp_processTransaction hG (fun _ h => h) hR hS ⟨tx, hrow, by simp, rfl, rfl⟩ stable_true
    trivial ?_ ?_
  · intro _ _ _ _ _
    rfl
  · intro _ w₁ t hid _ _ hw₁ _ m₁ m₂ _ _
    rw [← hid] at hR
    rcases hresult with hconf | hfailed
    · rw [hconf]
      have hclaim := wp_claimConfirmation (T := [tx.status]) hP hR hG hS hS
        (fun a ha => .inr ha) (by simpa using .inl hterm)
        (fun hmem => by
          rw [← List.mem_singleton.mp hmem] at hterm
          cases hterm) hw₁
      refine wp_bind.mpr (wp_mono ?_ hclaim)
      rintro tr r w₂ ⟨a, ha, _, rfl⟩
      rw [List.mem_singleton.mp ha, hterm]
      rfl
    · rw [hfailed]
      have hnot : CONFIRMING ∉ [tx.status] := by
        intro hmem
        rw [← List.mem_singleton.mp hmem] at hterm
        cases hterm
      refine wp_mono ?_ (wp_handleRevertedTransaction hP hR hG hS (fun hmem => absurd hmem hnot) hw₁)
      rintro tr r w₂ (⟨_, hmem, _⟩ | ⟨_, _, a, ha, _, ⟨_, rfl⟩ | ⟨hopen, _⟩⟩)
      · exact absurd hmem hnot
      · rfl
      · rw [List.mem_singleton.mp ha, hterm] at hopen
        cases hopen

/-- What attempts of confirmation workers leave of a row that is SUBMITTED or CONFIRMING: it is on
its way, unless the chain answered `failed` for it. -/
theorem onTheWay_of_path {t : Transaction} {w w' : World}
    (h : Relation.ReflTransGen (Moved [.claim, .confirm, .revert]) w w')
    (hw : Standing onTheWay t w) (hbound : Bound t w.ledger) :
    Standing onTheWay t w' ∨ w'.ledger.AnsweredWith t .failed := by
  suffices hboth : (Standing onTheWay t w' ∧ Bound t w'.ledger) ∨
      w'.ledger.AnsweredWith t .failed from hboth.imp_left And.left
  induction h with
  | refl => exact .inl ⟨hw, hbound⟩
  | @tail v v' _ hs ih =>
    rcases ih with ⟨hstand, hb⟩ | hanswered
    · obtain ⟨s, hrow, hstatus, hhash, htenant⟩ := hstand
      have hr := hs.row t.id
      rw [hrow] at hr
      generalize hr' : v'.ledger.row t.id = r' at hr
      cases hr with
      | same => exact .inl ⟨⟨s, hr', hstatus, hhash, htenant⟩, hb.change hs⟩
      | @moved k _ s' hk moves evidence =>
        have hb' := hb.change hs
        have hstand' : s'.status ∈ onTheWay → Standing onTheWay t v' := by
          intro hmem
          refine ⟨s', hr', hmem, (moves.txHash ?_).trans hhash, moves.frame.2.1.trans htenant⟩
          rintro hp
          rw [hp] at hstatus
          exact absurd hstatus (by decide)
        cases moves with
        | claim | confirm => exact .inl ⟨hstand' (by simp [onTheWay]), hb'⟩
        | revert =>
          obtain ⟨s₀, hrow₀, _, _, htoken⟩ := hb
          rw [hrow, Option.some.injEq] at hrow₀
          rw [← hrow₀] at htoken
          exact .inr (evidence.change hs htoken.symm hhash.symm)
        | submit | fail | expire => exact absurd hk (by decide)
    · exact .inr (hanswered.change hs rfl rfl)

/-- **Confirmation retries converge.**  Take a transaction of any reachable state.

If it is SUBMITTED or CONFIRMING, let confirmation workers run for a while: each may be cut off
anywhere and any of its calls may fail.  Unless the chain answers `failed` for it meanwhile, one
more attempt that is answered `confirmed` with a block number below `2 ^ 53` and gas below `2 ^ 63`
and whose calls do not fail ends without an error and leaves the row CONFIRMED, even while others
that neither fail nor expire the row write between its calls.

If it is terminal, an attempt answered `confirmed` or `failed` ends without an error, and none of
its calls changes the database. -/
theorem confirmation_converges (D : Deployment) (w : World) (hw : w.Initial)
    (es : List SystemEvent) (t : Transaction)
    (ht : t ∈ (w.start.after D.system es).world.db.transactions.rows) :
    (t.status = SUBMITTED ∨ t.status = CONFIRMING → t.txHash ≠ some "" →
      ∀ fs : List SystemEvent, (∀ e ∈ fs, Limited [.claim, .confirm, .revert] e) →
      ¬ ((w.start.after D.system es).world.start.after D.system fs).world.ledger.AnsweredWith t
        .failed →
      ∀ (result : BlockchainTransaction) (blockNumber : Nat), result.status = .confirmed →
      result.blockNumber = some blockNumber → blockNumber < 2 ^ 53 →
      (∀ gas, result.gasUsed = some gas → gas < 2 ^ 63) →
      ∀ (U : String → Prop) (inp : Nat → (World → World) × Input),
      Unused U ((w.start.after D.system es).world.start.after D.system fs).world →
      (∀ n, Drawing U result (inp n).2) →
      (∀ n v, Relation.ReflTransGen (Assists U t.id) v ((inp n).1 v)) →
      ((ConfirmationProcessor.processTransaction blockchainAdapterRegistry t.id t.tenantId).run
        (among exec) inp
        ((w.start.after D.system es).world.start.after D.system fs).world).1 = .ok () ∧
      ∃ t', ((ConfirmationProcessor.processTransaction blockchainAdapterRegistry t.id t.tenantId).run
        (among exec) inp
        ((w.start.after D.system es).world.start.after D.system fs).world).2.ledger.row t.id =
          some t' ∧ t'.status = CONFIRMED) ∧
    (t.status.isTerminal = true → ∀ (result : BlockchainTransaction),
      result.status = .confirmed ∨ result.status = .failed →
      ∀ inp : Nat → (World → World) × Input, (∀ n, Answering result (inp n).2) →
      (∀ n v, Relation.ReflTransGen (Moved allKinds) v ((inp n).1 v)) →
      ((ConfirmationProcessor.processTransaction blockchainAdapterRegistry t.id t.tenantId).run
        (among exec) inp (w.start.after D.system es).world).1 = .ok () ∧
      ∀ m ∈ traceAmong exec (ConfirmationProcessor.processTransaction blockchainAdapterRegistry t.id
        t.tenantId) inp (w.start.after D.system es).world,
        (exec m.op m.input m.state).2.db = m.state.db) := by
  have hrow : (w.start.after D.system es).world.ledger.row t.id = some t := Db.mem_transactions.mp ht
  have hsound := sound_after D hw es
  constructor
  · intro hs hempty fs hfs hanswered result blockNumber hconf hblock hlow hgas U inp hunused hinp hmoves
    obtain ⟨h, H⟩ := hsound.history t.id t hrow
    have hopen : t.status ≠ PENDING ∧ t.status ≠ FAILED := by
      rcases hs with hs | hs <;> rw [hs] <;> decide
    have hsome := H.submitted_iff.1.mpr (H.submitted_mem hopen.1 hopen.2)
    have hfalsy : Js.isFalsy t.txHash = false := by
      obtain ⟨hash, hhash⟩ := Option.isSome_iff_exists.mp hsome
      rw [hhash] at hempty ⊢
      simpa [Js.isFalsy] using hempty
    have hmem : t.status ∈ onTheWay := by
      rcases hs with hs | hs <;> rw [hs] <;> decide
    have hpath := ((healthy_start D [.claim, .confirm, .revert] hsound).after
      (respects_ledger D [.claim, .confirm, .revert]) hfs).1
    have hstand := (onTheWay_of_path hpath ⟨t, hrow, hmem, rfl, rfl⟩
      ⟨t, hrow, hopen.1, rfl, rfl⟩).resolve_right hanswered
    exact run_among_of_wp (Q := fun _ r w' => r = .ok () ∧
        ∃ t', w'.ledger.row t.id = some t' ∧ t'.status = CONFIRMED)
      (wp_processTransaction_confirmed hconf hblock hlow hgas hfalsy hstand hunused) hinp hmoves
  · intro hterm result hresult inp hinp hmoves
    have hwp := wp_guarantee (wp_processTransaction_terminal hresult hrow hterm)
    have hrun := run_among_of_wp (Q := fun tr r _ => r = .ok () ∧
        ∀ m ∈ tr, (exec m.op m.input m.state).2.db = m.state.db)
      (wp_mono (fun tr r w' h => ⟨h.2, by simpa [restrict] using h.1⟩) hwp) hinp hmoves
    exact hrun

/-- The adapter's answer for a transaction that was mined. -/
def confirmedAnswer : BlockchainTransaction := ⟨"0x01", some 3, 1, .confirmed, some 21000⟩

/-- An attempt that claims the row and is then lost. -/
def lostAttempt : List SystemEvent :=
  .spawn (.processTransaction "tx" "tenant") ::
    steps 0 [{}, { reply := .transaction confirmedAnswer }, {}, {}] ++ [.crash 0]

theorem confirmation_converges_lostAttempt :
    ((ConfirmationProcessor.processTransaction blockchainAdapterRegistry "tx" "tenant").run
      (among exec) (fun _ => (id, { uuid := "event", reply := .transaction confirmedAnswer }))
      ((World.sample.start.after Deployment.defaults.system sampleTransfer).world.start.after
        Deployment.defaults.system lostAttempt).world).1 = .ok () := by
  have h := (confirmation_converges .defaults .sample World.sample_initial sampleTransfer .sample
    (by decide)).1 (.inl rfl) (by decide) lostAttempt
  refine (h ?_ ?_ confirmedAnswer 3 rfl rfl (by decide) ?_ (· = "event") _ ?_ (fun _ => ⟨⟨rfl, rfl⟩, rfl⟩)
    fun _ _ => .refl).1
  · simp [lostAttempt, steps, Limited, Task.kinds]
  · rintro ⟨result, ⟨a, ha, _, _, rfl⟩, hs⟩
    have hall : ∀ a ∈ ((World.sample.start.after Deployment.defaults.system
        sampleTransfer).world.start.after Deployment.defaults.system lostAttempt).world.answers,
        a.result.status ≠ .failed := by
      decide
    exact hall a ha hs
  · intro gas hgas
    cases hgas
    decide
  · intro e he
    have hnone : ((World.sample.start.after Deployment.defaults.system
        sampleTransfer).world.start.after Deployment.defaults.system
        lostAttempt).world.db.outboxEvents.rows = [] := by
      decide
    rw [hnone] at he
    cases he

/-- An answer whose gas has 64 bits. -/
def heavyAnswer : BlockchainTransaction := { confirmedAnswer with gasUsed := some (2 ^ 63) }

/-- The column of the gas holds no such number: the attempt throws, and the row is not CONFIRMED. -/
theorem heavy_not_confirmed :
    ((ConfirmationProcessor.processTransaction blockchainAdapterRegistry "tx" "tenant").run exec
      (fun _ => { uuid := "event", reply := .transaction heavyAnswer })
      (World.sample.start.after Deployment.defaults.system sampleTransfer).world).1 ≠ .ok () ∧
    (((ConfirmationProcessor.processTransaction blockchainAdapterRegistry "tx" "tenant").run exec
      (fun _ => { uuid := "event", reply := .transaction heavyAnswer })
      (World.sample.start.after Deployment.defaults.system sampleTransfer).world).2.ledger.row "tx").map
      (fun t => t.status) = some CONFIRMING := by
  decide +kernel

end TransactionSimulator
