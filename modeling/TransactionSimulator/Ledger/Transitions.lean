import TransactionSimulator.Ledger.Refinement

/-!
# Transitions without faults

What `transition` and `transitionFromAny` end with when no call fails, while others may write
between their calls: the row if the update matched it, an error that says why if it did not.
-/

namespace TransactionSimulator

open Concurrent Prog Relational TransactionStatus Ledger

/-- The inputs under which no call fails. -/
def Faultless (P : Input → Prop) : Prop := ∀ i, P i → i.fault = none

section Calls

variable {P : Input → Prop} {R G : World → World → Prop} {w : World}

theorem wp_call (hP : Faultless P) {o : Call}
    {Q : List (Moment Call { i // P i } World) → Except JsError o.Res → World → Prop}
    (h : ∀ w₁, Relation.ReflTransGen R w w₁ → ∀ i : { i // P i }, G w₁ (o.effect i.1 w₁).2 ∧
      Q [⟨w₁, o, i⟩] (o.effect i.1 w₁).1 (o.effect i.1 w₁).2) :
    wp (restrict exec P) R G (perform o) Q w := by
  refine wp_perform.mpr ?_
  intro w₁ hw₁ i
  rw [restrict, exec_of_fault_none (hP i.1 i.2)]
  exact h w₁ hw₁ i

theorem ends_call (hP : Faultless P) {o : Call} {Q : Except JsError o.Res → World → Prop}
    (h : ∀ w₁, Relation.ReflTransGen R w w₁ → ∀ i, P i → Q (o.effect i w₁).1 (o.effect i w₁).2) :
    Ends exec P R (perform o) Q w :=
  wp_call hP fun w₁ hw₁ i => ⟨trivial, h w₁ hw₁ i.1 i.2⟩

theorem ends_stmt (hP : Faultless P) {s : Stmt} {Q : Except JsError s.Res → World → Prop}
    (h : ∀ w₁, Relation.ReflTransGen R w w₁ → ∀ i, P i →
      Q (s.exec ⟨w₁.clock, i.uuid⟩ w₁.db).1
        { w₁ with db := (s.exec ⟨w₁.clock, i.uuid⟩ w₁.db).2 }) :
    Ends exec P R (prisma.stmt s) Q w := ends_call hP h

theorem ends_now {Q : Except JsError Date → World → Prop}
    (h : ∀ w₁, Relation.ReflTransGen R w w₁ → Q (.ok w₁.clock) w₁) :
    Ends exec P R prisma.now Q w :=
  ends_perform fun w₁ hw₁ _ _ => h w₁ hw₁

theorem ends_emit {e : Emission} {Q : Except JsError Unit → World → Prop}
    (h : ∀ w₁, Relation.ReflTransGen R w w₁ →
      Q (.ok ()) { w₁ with emissions := e :: w₁.emissions }) :
    Ends exec P R (perform (Call.emit e)) Q w :=
  ends_perform fun w₁ hw₁ _ _ => h w₁ hw₁

end Calls

/-- What both transition functions do once the table of transitions allows the move. -/
def updateThen (id : String) (status : List TransactionStatus) (data : TransactionUpdateInput)
    (expected : Transaction → TransactionStatus) : Program Transaction := do
  let count ← prisma.stmt (.transactionUpdateMany id status data)
  if count = 1 then prisma.stmt (.transactionFindUniqueOrThrow (.id id))
  else TransactionRepository.rejectTransition prisma id expected

/-- The error with which a transition is rejected. -/
def rejection (id : String) (expected : Transaction → TransactionStatus) :
    Option Transaction → JsError
  | none => .error ("Transaction " ++ id ++ " not found")
  | some t => .transactionStateConflict id (expected t)

/-- The world with its ledger table replaced. -/
def World.withTransactions (w : World)
    (table : Table Transaction TransactionKey Transaction.keys)
    (references : ∀ t ∈ table.rows, (w.db.tokens.get (.id t.tokenId)).isSome ∧
      (w.db.wallets.get (.id t.fromWalletId)).isSome ∧
      (w.db.wallets.get (.id t.toWalletId)).isSome) : World :=
  { w with db := { w.db with transactions := table, references } }

/-- **A transition without faults.**  Between the update and the reading that follows it others
may write. -/
theorem wp_updateThen {P : Input → Prop} (hP : Faultless P) {R G : World → World → Prop}
    (hG : ∀ v, G v v) {w : World} {id : String} {status : List TransactionStatus}
    {data : TransactionUpdateInput} {expected : Transaction → TransactionStatus}
    {Q : List (Moment Call { i // P i } World) → Except JsError Transaction → World → Prop}
    (hfits : data.fits = true)
    (hmatched : ∀ w₁, Relation.ReflTransGen R w w₁ → ∀ t, w₁.ledger.row id = some t →
      t.status ∈ status → w₁.db.HashFree id data → ∀ table references,
      (∀ i, table.get (.id i) = if i = id then some (data.apply t) else w₁.ledger.row i) →
      G w₁ (w₁.withTransactions table references) ∧
      ∀ w₂, Relation.ReflTransGen R (w₁.withTransactions table references) w₂ → ∀ i j,
      Q [⟨w₁, .stmt (.transactionUpdateMany id status data), i⟩,
        ⟨w₂, .stmt (.transactionFindUniqueOrThrow (.id id)), j⟩]
        (orThrow (w₂.ledger.row id)) w₂)
    (hmissed : ∀ w₁, Relation.ReflTransGen R w w₁ →
      (∀ t, w₁.ledger.row id = some t → t.status ∉ status) →
      ∀ w₂, Relation.ReflTransGen R w₁ w₂ → ∀ i j,
      Q [⟨w₁, .stmt (.transactionUpdateMany id status data), i⟩,
        ⟨w₂, .stmt (.transactionFindUnique (.id id)), j⟩]
        (.error (rejection id expected (w₂.ledger.row id))) w₂)
    (hrefused : ∀ w₁, Relation.ReflTransGen R w w₁ → ∀ t, w₁.ledger.row id = some t →
      t.status ∈ status → ¬ w₁.db.HashFree id data → ∀ i,
      Q [⟨w₁, .stmt (.transactionUpdateMany id status data), i⟩] (.error uniqueViolation) w₁) :
    wp (restrict exec P) R G (updateThen id status data expected) Q w := by
  refine wp_bind.mpr (wp_call hP ?_)
  intro w₁ hw₁ i
  have hu := w₁.db.updateTransactions_spec id status data
  simp only [Call.effect, Stmt.exec]
  generalize w₁.db.updateTransactions id status data = r at hu
  cases hu with
  | refused found hs taken => exact ⟨hG w₁, hrefused w₁ hw₁ _ found hs taken i⟩
  | outOfRange large =>
    rw [hfits] at large
    cases large
  | missed hs =>
    refine ⟨hG w₁, wp_bind.mpr (wp_call hP ?_)⟩
    intro w₂ hw₂ j
    have hQ := hmissed w₁ hw₁ hs w₂ hw₂ i j
    refine ⟨hG w₂, ?_⟩
    simp only [Call.effect, Stmt.exec]
    cases hrow : w₂.db.transactions.get (.id id) with
    | none =>
      rw [show w₂.ledger.row id = none from hrow] at hQ
      exact hQ
    | some t =>
      rw [show w₂.ledger.row id = some t from hrow] at hQ
      exact hQ
  | matched found hs free rows references =>
    obtain ⟨hg, hQ⟩ := hmatched w₁ hw₁ _ found hs free _ references rows
    refine ⟨hg, wp_call hP ?_⟩
    intro w₂ hw₂ j
    exact ⟨hG w₂, hQ w₂ hw₂ i j⟩

/-- The same, apart from the calls that were made. -/
theorem ends_updateThen {P : Input → Prop} (hP : Faultless P) {R : World → World → Prop}
    {w : World} {id : String} {status : List TransactionStatus} {data : TransactionUpdateInput}
    {expected : Transaction → TransactionStatus} {Q : Except JsError Transaction → World → Prop}
    (hfits : data.fits = true)
    (hmatched : ∀ w₁, Relation.ReflTransGen R w w₁ → ∀ t, w₁.ledger.row id = some t →
      t.status ∈ status → w₁.db.HashFree id data → ∀ table references,
      (∀ i, table.get (.id i) = if i = id then some (data.apply t) else w₁.ledger.row i) →
      ∀ w₂, Relation.ReflTransGen R (w₁.withTransactions table references) w₂ →
      Q (orThrow (w₂.ledger.row id)) w₂)
    (hmissed : ∀ w₁, Relation.ReflTransGen R w w₁ →
      (∀ t, w₁.ledger.row id = some t → t.status ∉ status) →
      ∀ w₂, Relation.ReflTransGen R w₁ w₂ →
      Q (.error (rejection id expected (w₂.ledger.row id))) w₂)
    (hrefused : ∀ w₁, Relation.ReflTransGen R w w₁ → ∀ t, w₁.ledger.row id = some t →
      t.status ∈ status → ¬ w₁.db.HashFree id data → Q (.error uniqueViolation) w₁) :
    Ends exec P R (updateThen id status data expected) Q w := by
  refine wp_updateThen hP (fun _ => trivial) hfits ?_ ?_ ?_
  · intro w₁ hw₁ t ht hs free table references rows
    exact ⟨trivial, fun w₂ hw₂ _ _ => hmatched w₁ hw₁ t ht hs free table references rows w₂ hw₂⟩
  · intro w₁ hw₁ hs w₂ hw₂ _ _
    exact hmissed w₁ hw₁ hs w₂ hw₂
  · intro w₁ hw₁ t ht hs taken _
    exact hrefused w₁ hw₁ t ht hs taken

theorem transition_eq {source target : TransactionStatus}
    (h : TransactionStateMachine.canTransition source target = true) (id : String)
    (data : TransactionUpdateInput) :
    TransactionRepository.transition prisma id source target data =
      updateThen id [source] { data with status := some target } fun _ => source := by
  have hassert : TransactionStateMachine.assertTransition source target = .ok () := if_pos h
  unfold TransactionRepository.transition
  rw [hassert]
  rfl

theorem transitionFromAny_eq {sources : List TransactionStatus} {target : TransactionStatus}
    (h : TransactionRepository.assertTransitions sources target = .ok ()) (id : String)
    (data : TransactionUpdateInput) :
    TransactionRepository.transitionFromAny prisma id sources target data =
      updateThen id sources { data with status := some target } fun t => t.status := by
  unfold TransactionRepository.transitionFromAny
  rw [h]
  rfl

end TransactionSimulator
