import TransactionSimulator.Lib.Sweep
import TransactionSimulator.Recovery.Decision

/-!
# How far recovery passes come

A pass looks at the 100 oldest orphaned transactions.  One that cannot be decided stays where it is: its
listener is not healthy, or the transfer that matches it is taken.  A hundred of these in front keep
every later transaction from being looked at.

* `World.orphans`: the orphaned transactions in the order of the passes.
* `ends_processOrphanedPending`: a pass is a sweep over the oldest of them (`Sweeping.Sweep`).
* `orphans_failed_iff`: when all that should be failed are failed.
-/

namespace TransactionSimulator

open Concurrent Prog Relational TransactionStatus Ledger Sweeping

/-- The pending transactions created up to a time, the oldest first. -/
def World.orphans (w : World) (olderThan : Int) : List Transaction :=
  w.db.transactions.sorted (TransactionRepository.isOrphanedPendingCandidate olderThan)
    fun t => some t.createdAt

/-- The hash that recovery would adopt for a transaction. -/
def World.claimOf (w : World) (t : Transaction) : Option String :=
  ((w.db.withWallets t).bind fun orphan => w.evidence orphan.1 orphan.2.1 orphan.2.2).map
    TokenTransfer.transactionHash

/-- The hashes that transactions hold. -/
def World.heldHashes (w : World) : Set String := { hash | ∃ id t, w.ledger.row id = some t ∧ t.txHash = some hash }

/-- No pending transaction has a hash. -/
def World.PendingUnhashed (w : World) : Prop :=
  ∀ id t, w.ledger.row id = some t → t.status = PENDING → t.txHash = none

/-- **In every reachable state** the pending transactions have no hash. -/
theorem pendingUnhashed_after (D : Deployment) {w : World} (hw : w.Initial) (es : List SystemEvent) :
    (w.start.after D.system es).world.PendingUnhashed := by
  intro id t ht hpending
  obtain ⟨h, hhistory⟩ := (sound_after D hw es).history id t ht
  cases hhash : t.txHash with
  | none => rfl
  | some hash => exact absurd hpending (hhistory.ne_pending_of_txHash (by rw [hhash]; rfl))

theorem World.hashOnly_iff_not_held {w : World} {t : Transaction} {hash : String}
    (hrow : w.ledger.row t.id = some t) (hnone : t.txHash = none) :
    w.HashOnly hash t.id ↔ hash ∉ w.heldHashes := by
  constructor
  · intro honly hheld
    obtain ⟨id, s, hs, hhash⟩ := hheld
    have hid : s.id = id := World.ledger_id hs
    have hsame := honly s (Db.mem_transactions.mpr (hid.symm ▸ hs)) hhash
    rw [hid] at hsame
    rw [hsame, hrow, Option.some.injEq] at hs
    rw [← hs, hnone] at hhash
    cases hhash
  · intro hnot s hs hhash
    exact absurd ⟨s.id, s, Db.mem_transactions.mp hs, hhash⟩ hnot

/-- The hashes after one row that had none has moved on. -/
theorem MovedTo.heldHashes {w w' : World} {t : Transaction} {status : TransactionStatus}
    {txHash : Option String} (h : MovedTo w w' t.id status txHash) (hrow : w.ledger.row t.id = some t)
    (hnone : t.txHash = none) : w'.heldHashes = w.heldHashes ∪ { hash | txHash = some hash } := by
  obtain ⟨t', ht', -, hhash'⟩ := h.row
  ext hash
  constructor
  · intro hheld
    obtain ⟨id, s, hs, hhash⟩ := hheld
    by_cases hid : id = t.id
    · rw [hid, ht', Option.some.injEq] at hs
      rw [← hs, hhash'] at hhash
      exact .inr hhash
    · rw [h.others id hid] at hs
      exact .inl ⟨id, s, hs, hhash⟩
  · intro hheld
    rcases hheld with ⟨id, s, hs, hhash⟩ | hhash
    · have hid : id ≠ t.id := by
        intro hid
        rw [hid, hrow, Option.some.injEq] at hs
        rw [← hs, hnone] at hhash
        cases hhash
      exact ⟨id, s, (h.others id hid).trans hs, hhash⟩
    · exact ⟨t.id, t', ht', hhash'.trans hhash⟩

theorem World.heldHashes_congr {w w' : World} (h : ∀ id, w'.ledger.row id = w.ledger.row id) :
    w'.heldHashes = w.heldHashes := by
  simp only [World.heldHashes, h]

theorem Beside.claimOf {deadline : Date} {w w' : World} (h : Beside deadline w w') (t : Transaction) :
    w'.claimOf t = w.claimOf t := by
  simp only [World.claimOf, World.evidence, Db.withWallets, h.wallets, h.tokenTransfers]

theorem Beside.healthyAt {deadline : Date} {w w' : World} (h : Beside deadline w w')
    (processor : PendingRecoveryProcessor) (tokenId : String) (now : Date) :
    processor.healthyAt w'.db tokenId now = processor.healthyAt w.db tokenId now := by
  simp only [PendingRecoveryProcessor.healthyAt, h.tokenEventCursors]

theorem Beside.trans {deadline : Date} {w w' w'' : World} (h : Beside deadline w w')
    (h' : Beside deadline w' w'') : Beside deadline w w'' :=
  ⟨h'.wallets.trans h.wallets, h'.tokenTransfers.trans h.tokenTransfers,
    h'.tokenEventCursors.trans h.tokenEventCursors, Nat.le_trans h.clock.1 h'.clock.1, h'.clock.2⟩

/-! ## The order of the rows -/

/-- The rows are in the same places. -/
def SameOrder (w w' : World) : Prop :=
  w'.db.transactions.rows.map Transaction.id = w.db.transactions.rows.map Transaction.id

/-- A process that creates no transaction and confirms none. -/
theorem sameOrder_of_permitted {env : ProcessEnv} {A : List Right} {o : Call} (h : Permitted env A o)
    (hcreate : .write .create ∉ A) (hconfirm : .write .confirm ∉ A) (i : Input) (w : World) :
    SameOrder w (exec o i w).2 := by
  refine exec_snd (P := SameOrder) rfl ?_
  cases o with
  | stmt s =>
    have hsame := s.exec_sameBut ⟨w.clock, i.uuid⟩ w.db
    cases s with
    | transactionCreate data => exact absurd h.1 hcreate
    | transactionUpdateMany id status data =>
      simp only [Call.effect, Stmt.exec, Db.updateTransactions]
      split
      · rfl
      split
      · next table n hupdate =>
        show table.rows.map Transaction.id = _
        rw [(Table.updateMany_eq_some hupdate).1, Table.written, List.map_map]
        refine List.map_congr_left ?_
        intro t _
        show (if _ then data.apply t else t).id = t.id
        split <;> rfl
      · rfl
    | _ => exact congrArg (List.map Transaction.id ·.rows) (hsame.transactions (by simp [Stmt.target]))
  | transaction body => exact absurd h.1 hconfirm
  | queueTake =>
    simp only [Call.effect]
    split
    · split <;> rfl
    · rfl
  | getTransaction | submitTransfer | generateWallet | balanceOf | nativeBalance | processingAdd =>
    simp only [Call.effect]
    split <;> rfl
  | _ => rfl

/-- The orphans that remain are those whose rows are as they were. -/
theorem orphans_of_sameOrder {w w' : World} (horder : SameOrder w w')
    (hrows : ∀ t ∈ w.db.transactions.rows, w'.ledger.row t.id = some t ∨
      ∃ t', w'.ledger.row t.id = some t' ∧ t'.status ≠ PENDING) (olderThan : Int) :
    w'.orphans olderThan = (w.orphans olderThan).filter fun t => w'.ledger.row t.id = some t := by
  have hlist : w'.db.transactions.rows = w.db.transactions.rows.filterMap fun t => w'.ledger.row t.id := by
    calc w'.db.transactions.rows
        = w'.db.transactions.rows.filterMap (fun t => w'.ledger.row t.id) := by
          rw [List.filterMap_congr (g := some), List.filterMap_some]
          intro t ht
          exact Db.mem_transactions.mp ht
      _ = (w'.db.transactions.rows.map Transaction.id).filterMap w'.ledger.row := by
          rw [List.filterMap_map]
          rfl
      _ = w.db.transactions.rows.filterMap (fun t => w'.ledger.row t.id) := by
          rw [horder, List.filterMap_map]
          rfl
  have hfilter : w'.db.transactions.rows.filter (TransactionRepository.isOrphanedPendingCandidate olderThan) =
      (w.db.transactions.rows.filter (TransactionRepository.isOrphanedPendingCandidate olderThan)).filter
        fun t => w'.ledger.row t.id = some t := by
    rw [hlist, List.filter_filterMap, List.filter_filter, ← List.filterMap_eq_filter]
    refine List.filterMap_congr ?_
    intro t ht
    rcases hrows t ht with hsame | ⟨t', ht', hstatus⟩
    · simp [hsame, Option.guard, Option.filter]
    · have hne : t' ≠ t ∨ t.status ≠ PENDING := by
        by_cases h : t' = t
        · exact .inr (h ▸ hstatus)
        · exact .inl h
      have hcand : TransactionRepository.isOrphanedPendingCandidate olderThan t' = false := by
        simp [TransactionRepository.isOrphanedPendingCandidate, hstatus]
      rw [ht', Option.filter, hcand]
      rcases hne with hne | hne
      · simp [Option.guard, ht', hne]
      · simp [Option.guard, TransactionRepository.isOrphanedPendingCandidate, hne]
  rw [World.orphans, Table.sorted, hfilter, ← filter_insertionSort]
  rfl

/-! ## A pass -/

/-- The listener of the transaction's token is not healthy. -/
def PendingRecoveryProcessor.Unwatched (processor : PendingRecoveryProcessor) (w : World) (t : Transaction) :
    Prop :=
  processor.healthyAt w.db t.tokenId w.clock = false

/-- What does not change while the passes run, from the state `w` on. -/
structure Settled (processor : PendingRecoveryProcessor) (deadline : Date) (w : World) : Prop where
  unhashed : w.PendingUnhashed
  clock : w.clock ≤ deadline
  health : ∀ tokenId, processor.healthyAt w.db tokenId w.clock = true →
    processor.healthyAt w.db tokenId deadline = true

section Visits

variable {processor : PendingRecoveryProcessor} {deadline : Date} {w w₀ v v' : World} {c : Int}
  {x : Transaction} {a b : Wallet} {l : List Transaction}

/-- The visit of one transaction, seen from the start. -/
structure VisitsOne (processor : PendingRecoveryProcessor) (w₀ : World) (c : Int) (v v' : World)
    (x : Transaction) : Prop where
  held : v'.heldHashes = v.heldHashes ∪ keysOf w₀.claimOf [x]
  others : ∀ id, id ≠ x.id → v'.ledger.row id = v.ledger.row id
  row : v'.ledger.row x.id = some x ∨ ∃ x', v'.ledger.row x.id = some x' ∧ x'.status ≠ PENDING ∧
    (w₀.claimOf x = none → x'.status = FAILED)
  kept : x.createdAt ≤ c → (v'.ledger.row x.id = some x ↔
    Held w₀.claimOf (processor.Unwatched w₀) v.heldHashes x)

theorem MovedTo.ne {status : TransactionStatus} {txHash : Option String}
    (h : MovedTo v v' x.id status txHash) (hne : x.status ≠ status) : v'.ledger.row x.id ≠ some x := by
  intro hrow
  obtain ⟨t', ht', hstatus, -⟩ := h.row
  rw [ht', Option.some.injEq] at hrow
  exact hne (hrow ▸ hstatus)

/-- **One decision is one visit** of a sweep. -/
theorem Decision.visitsOne (h : Decision processor deadline x a b v v') (hset : Settled processor deadline w₀)
    (hbeside : Beside deadline w₀ v) (hwallets : w₀.db.withWallets x = some (x, a, b))
    (hrow : v.ledger.row x.id = some x) (hpending : x.status = PENDING) (hnone : x.txHash = none)
    (hc : c ≤ (w₀.clock : Int) - processor.failAfterMs) : VisitsOne processor w₀ c v v' x := by
  have hclaim : w₀.claimOf x = (v.evidence x a b).map TokenTransfer.transactionHash := by
    rw [← hbeside.claimOf x, World.claimOf, Db.withWallets, hbeside.wallets]
    rw [Db.withWallets] at hwallets
    rw [hwallets]
    rfl
  cases h with
  | adopted found free moved =>
    rw [found] at hclaim
    refine ⟨?_, moved.others, .inr ?_, fun _ => iff_of_false (moved.ne (by simp [hpending])) ?_⟩
    · rw [moved.heldHashes hrow hnone]
      simp [keysOf, hclaim]
    · obtain ⟨x', hx', hstatus, -⟩ := moved.row
      refine ⟨x', hx', by simp [hstatus], ?_⟩
      intro hclaim'
      rw [hclaim] at hclaim'
      cases hclaim'
    · rw [World.hashOnly_iff_not_held hrow hnone] at free
      simpa [Held, hclaim] using free
  | taken found taken same =>
    rw [found] at hclaim
    rw [World.hashOnly_iff_not_held hrow hnone, not_not] at taken
    refine ⟨?_, fun id _ => same id, .inl ((same _).trans hrow),
      fun _ => iff_of_true ((same _).trans hrow) (by simpa [Held, hclaim] using taken)⟩
    rw [World.heldHashes_congr same, eq_comm, Set.union_eq_left]
    intro hash hhash
    obtain ⟨y, hy, hkey⟩ := hhash
    rw [List.mem_singleton.mp hy, hclaim] at hkey
    rw [← Option.some.inj hkey]
    exact taken
  | failed none hclock healthy moved =>
    rw [none] at hclaim
    refine ⟨?_, moved.others, .inr ?_, fun _ => iff_of_false (moved.ne (by simp [hpending])) ?_⟩
    · rw [moved.heldHashes hrow hnone]
      simp [keysOf, hclaim, hnone]
    · obtain ⟨x', hx', hstatus, -⟩ := moved.row
      exact ⟨x', hx', by simp [hstatus], fun _ => hstatus⟩
    · rw [hbeside.healthyAt] at healthy
      have hstart := processor.healthyAt_of_le (Nat.le_trans hbeside.clock.1 hclock) healthy
      simp [Held, hclaim, PendingRecoveryProcessor.Unwatched, hstart]
  | kept none hclock why same =>
    rw [none] at hclaim
    refine ⟨?_, fun id _ => same id, .inl ((same _).trans hrow), fun hold => iff_of_true ((same _).trans hrow) ?_⟩
    · rw [World.heldHashes_congr same]
      simp [keysOf, hclaim]
    · rcases why with hyoung | hstale
      · have hle : (v.clock : Int) ≤ _ := Int.ofNat_le.mpr hclock.1
        have hle' : (w₀.clock : Int) ≤ v.clock := Int.ofNat_le.mpr hbeside.clock.1
        omega
      · simp only [Held, hclaim, Option.map_none, PendingRecoveryProcessor.Unwatched]
        rw [hbeside.healthyAt] at hstale
        by_contra hhealthy
        rw [Bool.not_eq_false] at hhealthy
        rw [processor.healthyAt_of_le hclock.2 (hset.health _ hhealthy)] at hstale
        cases hstale

/-- The visits of a list of transactions, from `w` to `v`. -/
structure Visits (processor : PendingRecoveryProcessor) (w₀ : World) (c : Int) (w v : World)
    (l : List Transaction) : Prop where
  held : v.heldHashes = w.heldHashes ∪ keysOf w₀.claimOf l
  others : ∀ t, w.ledger.row t.id = some t → t ∉ l → v.ledger.row t.id = some t
  row : ∀ t ∈ l, v.ledger.row t.id = some t ∨ ∃ t', v.ledger.row t.id = some t' ∧ t'.status ≠ PENDING ∧
    (w₀.claimOf t = none → t'.status = FAILED)
  kept : ∀ t ∈ l, t.createdAt ≤ c → (v.ledger.row t.id = some t ↔
    t ∈ left w₀.claimOf (processor.Unwatched w₀) w.heldHashes (l.filter fun t => t.createdAt ≤ c))

theorem visits_nil (w : World) : Visits processor w₀ c w w [] where
  held := by simp
  others t ht _ := ht
  row t ht := by cases ht
  kept t ht := by cases ht

/-- One more visit; before an old transaction only old ones were visited. -/
theorem Visits.snoc (h : Visits processor w₀ c w v l) (hone : VisitsOne processor w₀ c v v' x)
    (hl : ∀ t ∈ l, w.ledger.row t.id = some t) (hx : w.ledger.row x.id = some x) (hnew : x ∉ l)
    (hsorted : ∀ t ∈ l, t.createdAt ≤ x.createdAt) : Visits processor w₀ c w v' (l ++ [x]) := by
  -- rows of `w` with one id are one row
  have hid : ∀ t, w.ledger.row t.id = some t → t ≠ x → t.id ≠ x.id := by
    intro t ht hne he
    rw [he, hx, Option.some.injEq] at ht
    exact hne ht.symm
  have hne : ∀ t ∈ l, t ≠ x := fun t ht he => hnew (he ▸ ht)
  have hstays : ∀ t ∈ l, v'.ledger.row t.id = v.ledger.row t.id :=
    fun t ht => hone.others _ (hid t (hl t ht) (hne t ht))
  refine ⟨?_, ?_, ?_, ?_⟩
  · rw [hone.held, h.held, keysOf_append, Set.union_assoc]
  · intro t ht hnot
    rw [List.mem_append, not_or, List.mem_singleton] at hnot
    rw [hone.others _ (hid t ht hnot.2)]
    exact h.others t ht hnot.1
  · intro t ht
    rcases List.mem_append.mp ht with ht | ht
    · rw [hstays t ht]
      exact h.row t ht
    · rw [List.mem_singleton.mp ht]
      exact hone.row
  · intro t ht hold
    rw [List.filter_append, left_append, List.mem_append]
    rcases List.mem_append.mp ht with ht | ht
    · rw [hstays t ht, h.kept t ht hold]
      refine ⟨.inl, fun h => h.resolve_right ?_⟩
      intro hmem
      have hmem' := (List.mem_filter.mp ((left_sublist _ _).subset hmem)).1
      exact hne t ht (List.mem_singleton.mp hmem')
    · rw [List.mem_singleton.mp ht] at hold ⊢
      have hall : l.filter (fun t => decide ((t.createdAt : Int) ≤ c)) = l := by
        rw [List.filter_eq_self]
        intro t ht
        have hle : (t.createdAt : Int) ≤ x.createdAt := Int.ofNat_le.mpr (hsorted t ht)
        simp only [decide_eq_true_eq]
        omega
      have hlast : [x].filter (fun t => decide ((t.createdAt : Int) ≤ c)) = [x] := by
        simp [hold]
      rw [hall, hlast, ← h.held, hone.kept hold]
      constructor
      · intro hheld
        refine .inr ?_
        rw [left, if_pos hheld]
        exact List.mem_cons_self
      · intro hmem
        rcases hmem with hmem | hmem
        · exact absurd ((left_sublist _ _).subset hmem) hnew
        · by_contra hheld
          rw [left, if_neg hheld] at hmem
          cases hmem

variable {P : Input → Prop}

/-- The outcomes for a pending transaction, with the order of the rows. -/
theorem ends_recoverOne_sameOrder (hP : Faultless P) (processor : PendingRecoveryProcessor) (a b : Wallet)
    (hrow : w.ledger.row x.id = some x) (hpending : x.status = PENDING) (hclock : w.clock ≤ deadline) :
    Ends exec P (Ticking deadline) (processor.recoverOne (x, a, b)) (fun r w' => (r = .ok () ∧
      Beside deadline w w' ∧ Decision processor deadline x a b w w') ∧ SameOrder w w') w := by
  have hsafe : Safe (restrict exec P) (Ticking deadline) SameOrder (processor.recoverOne (x, a, b)) w := by
    refine All.safe (P := Permitted (fun _ => none) [.write .submit, .write .fail, .queue]) ?_
      (permitted_recoverOne (by simp) (by simp) (by simp) processor (x, a, b)) w
    intro o ho i w
    exact sameOrder_of_permitted ho (by decide) (by decide) i.1 w
  have hstable : Stable (Ticking deadline) SameOrder fun v => SameOrder w v := by
    refine ⟨?_, fun v v' h hv => h.trans hv⟩
    intro v v' h hv
    obtain ⟨clock, -, -, rfl⟩ := h
    exact hv
  have hends := wp_keeps hstable (wp_of_safe hsafe (ends_recoverOne hP processor a b hrow hpending hclock)) rfl
  exact wp_weaken (fun _ _ h => h) (fun _ _ _ => trivial) hends

/-- **The loop of a pass** over pending transactions, the oldest first. -/
theorem ends_forEach_recoverOne (hP : Faultless P) (hset : Settled processor deadline w₀)
    (hbeside : Beside deadline w₀ w) (hunhashed : w.PendingUnhashed)
    (hc : c ≤ (w₀.clock : Int) - processor.failAfterMs) {xs : List (Transaction × Wallet × Wallet)}
    (hxs : ∀ o ∈ xs, w.ledger.row o.1.id = some o.1 ∧ o.1.status = PENDING ∧ w₀.db.withWallets o.1 = some o)
    (hnodup : (xs.map Prod.fst).Nodup)
    (hsorted : (xs.map Prod.fst).Pairwise fun s t => s.createdAt ≤ t.createdAt) :
    Ends exec P (Ticking deadline) (Prog.forEach processor.recoverOne xs) (fun r w' => r = .ok () ∧
      Beside deadline w w' ∧ SameOrder w w' ∧ Visits processor w₀ c w w' (xs.map Prod.fst)) w := by
  let F : List (Transaction × Wallet × Wallet) → World → Prop := fun rest v =>
    ∃ done, xs = done ++ rest ∧ Beside deadline w v ∧ SameOrder w v ∧
      Visits processor w₀ c w v (done.map Prod.fst)
  have hround : ∀ o rest v, F (o :: rest) v → Ends exec P (Ticking deadline) (processor.recoverOne o)
      (fun r v' => ∃ u, r = .ok u ∧ F rest v') v := by
    intro o rest v hF
    obtain ⟨done, hsplit, hbeside', horder, hvisits⟩ := hF
    obtain ⟨x, a, b⟩ := o
    obtain ⟨hrow, hpending, hwallets⟩ := hxs (x, a, b) (by simp [hsplit])
    rw [hsplit, List.map_append, List.map_cons] at hnodup hsorted
    have hnew : x ∉ done.map Prod.fst := by
      intro hmem
      exact (List.nodup_append.mp hnodup).2.2 x hmem x (by simp) rfl
    have hbefore : ∀ t ∈ done.map Prod.fst, t.createdAt ≤ x.createdAt :=
      fun t ht => (List.pairwise_append.mp hsorted).2.2 t ht x (by simp)
    have hdone : ∀ t ∈ done.map Prod.fst, w.ledger.row t.id = some t := by
      intro t ht
      obtain ⟨o, ho, rfl⟩ := List.mem_map.mp ht
      exact (hxs o (by simp [hsplit, ho])).1
    have hrow' := hvisits.others x hrow hnew
    refine (ends_recoverOne_sameOrder hP processor a b hrow' hpending hbeside'.clock.2).mono ?_
    intro r v' h
    obtain ⟨⟨rfl, hbeside'', hdecision⟩, horder'⟩ := h
    have hone := hdecision.visitsOne hset (hbeside.trans hbeside') hwallets hrow' hpending
      (hunhashed _ _ hrow hpending) hc
    refine ⟨(), rfl, done ++ [(x, a, b)], by simp [hsplit], hbeside'.trans hbeside'', horder'.trans horder, ?_⟩
    rw [List.map_append]
    exact hvisits.snoc hone hdone hrow hnew hbefore
  have hstart : F xs w :=
    ⟨[], rfl, ⟨rfl, rfl, rfl, Nat.le_refl _, hbeside.clock.2⟩, rfl, visits_nil w⟩
  refine (Ends.forEach hround hstart).mono ?_
  intro r w' h
  obtain ⟨hr, done, hdone, hbeside', horder, hvisits⟩ := h
  rw [List.append_nil] at hdone
  exact ⟨hr, hbeside', horder, hdone ▸ hvisits⟩

/-! ### The page of a pass -/

theorem World.mem_orphans {d : Int} {t : Transaction} : t ∈ w.orphans d ↔
    w.ledger.row t.id = some t ∧ t.status = PENDING ∧ (t.createdAt : Int) ≤ d := by
  rw [World.orphans, Table.mem_sorted, Db.mem_transactions]
  simp only [TransactionRepository.isOrphanedPendingCandidate, Bool.and_eq_true, decide_eq_true_eq]
  rfl

theorem World.nodup_orphans (w : World) (d : Int) : (w.orphans d).Nodup := by
  have hrows : w.db.transactions.rows.Nodup := by
    refine w.db.transactions.unique.imp ?_
    intro s t hdisjoint he
    exact hdisjoint (a := .id s.id) (by simp) (by simp [he])
  exact (List.perm_insertionSort _ _).nodup_iff.mpr (hrows.filter _)

theorem World.sorted_orphans (w : World) (d : Int) :
    (w.orphans d).Pairwise fun s t => s.createdAt ≤ t.createdAt :=
  List.pairwise_insertionSort (fun s t : Transaction => Table.ascNullsLast (some s.createdAt) (some t.createdAt)) _

/-- The oldest orphans come first. -/
theorem World.orphans_split (w : World) {d : Int} (hc : c ≤ d) :
    w.orphans d = w.orphans c ++ (w.orphans d).filter fun t => !decide ((t.createdAt : Int) ≤ c) := by
  have hold : (w.orphans d).filter (fun t => decide ((t.createdAt : Int) ≤ c)) = w.orphans c := by
    rw [World.orphans, Table.sorted, filter_insertionSort, List.filter_filter]
    refine congrArg (List.insertionSort _) (List.filter_congr ?_)
    intro t _
    rw [Bool.eq_iff_iff]
    simp only [TransactionRepository.isOrphanedPendingCandidate, Bool.and_eq_true, decide_eq_true_eq]
    constructor
    · intro h
      exact ⟨h.2.1, h.1⟩
    · intro h
      exact ⟨h.2, h.1, h.2.trans hc⟩
  rw [← hold]
  refine (filter_append_filter_not ?_ (w.sorted_orphans d)).symm
  intro s t hle ht
  have hle' : (s.createdAt : Int) ≤ t.createdAt := Int.ofNat_le.mpr hle
  rw [decide_eq_true_eq] at ht ⊢
  omega

/-- What the page of a pass holds of the oldest orphans. -/
theorem World.filter_page (w : World) {d : Int} (hc : c ≤ d) :
    ((w.orphans d).take 100).filter (fun t => decide ((t.createdAt : Int) ≤ c)) = (w.orphans c).take 100 := by
  have hold : ((w.orphans c).take 100).filter (fun t => decide ((t.createdAt : Int) ≤ c)) =
      (w.orphans c).take 100 := by
    rw [List.filter_eq_self]
    intro t ht
    rw [decide_eq_true_eq]
    exact (World.mem_orphans.mp (List.mem_of_mem_take ht)).2.2
  rw [w.orphans_split hc, List.take_append, List.filter_append, hold, List.append_right_eq_self,
    List.filter_eq_nil_iff]
  intro t ht
  have hyoung := (List.mem_filter.mp (List.mem_of_mem_take ht)).2
  simpa using hyoung

/-- What a pass leaves. -/
structure Swept (processor : PendingRecoveryProcessor) (w₀ : World) (c : Int) (w w' : World) : Prop where
  sweep : Sweep w₀.claimOf (processor.Unwatched w₀) 100 w.heldHashes (w.orphans c) w'.heldHashes (w'.orphans c)
  failed : ∀ t ∈ w.orphans c, t ∉ w'.orphans c → w₀.claimOf t = none →
    ∃ t', w'.ledger.row t.id = some t' ∧ t'.status = FAILED
  others : ∀ t, w.ledger.row t.id = some t → t.status ≠ PENDING → w'.ledger.row t.id = some t
  unhashed : w'.PendingUnhashed

/-- **The visits of a page are a sweep** over the oldest orphans. -/
theorem Visits.swept {d : Int} (h : Visits processor w₀ c w v ((w.orphans d).take 100)) (hc : c ≤ d)
    (horder : SameOrder w v) (hunhashed : w.PendingUnhashed) : Swept processor w₀ c w v := by
  have hpage : ∀ t ∈ (w.orphans d).take 100, w.ledger.row t.id = some t ∧ t.status = PENDING ∧
      (t.createdAt : Int) ≤ d := fun t ht => World.mem_orphans.mp (List.mem_of_mem_take ht)
  have hothers : ∀ t, w.ledger.row t.id = some t → t.status ≠ PENDING → v.ledger.row t.id = some t := by
    intro t ht hstatus
    exact h.others t ht fun hmem => hstatus (hpage t hmem).2.1
  have hrows : ∀ t ∈ w.db.transactions.rows, v.ledger.row t.id = some t ∨
      ∃ t', v.ledger.row t.id = some t' ∧ t'.status ≠ PENDING := by
    intro t ht
    by_cases hmem : t ∈ (w.orphans d).take 100
    · rcases h.row t hmem with hsame | ⟨t', ht', hstatus, -⟩
      · exact .inl hsame
      · exact .inr ⟨t', ht', hstatus⟩
    · exact .inl (h.others t (Db.mem_transactions.mp ht) hmem)
  have horphans := orphans_of_sameOrder horder hrows c
  have hold : ∀ t ∈ w.orphans c, (t ∈ (w.orphans d).take 100 ↔ t ∈ (w.orphans c).take 100) := by
    intro t ht
    rw [← w.filter_page hc, List.mem_filter, decide_eq_true_eq]
    exact ⟨fun hmem => ⟨hmem, (World.mem_orphans.mp ht).2.2⟩, And.left⟩
  refine ⟨⟨?_, ?_, ?_⟩, ?_, hothers, ?_⟩
  · -- of the first hundred those are left that a sweep leaves, and the rest is not touched
    rw [horphans]
    conv_lhs => rw [← List.take_append_drop 100 (w.orphans c)]
    rw [List.filter_append]
    congr 1
    · rw [left_eq_filter _ ((w.nodup_orphans c).sublist (List.take_sublist _ _))]
      refine List.filter_congr ?_
      intro t ht
      have hmem := List.mem_of_mem_take ht
      have hkept := h.kept t ((hold t hmem).mpr ht) (World.mem_orphans.mp hmem).2.2
      rw [w.filter_page hc, left_eq_filter _ ((w.nodup_orphans c).sublist (List.take_sublist _ _)),
        List.mem_filter] at hkept
      simp only [ht, true_and, decide_eq_true_eq] at hkept
      exact decide_eq_decide.mpr hkept
    · rw [List.filter_eq_self]
      intro t ht
      have hmem := List.mem_of_mem_drop ht
      rw [decide_eq_true_eq]
      refine h.others t (World.mem_orphans.mp hmem).1 ?_
      rw [hold t hmem]
      intro htake
      exact List.disjoint_take_drop (w.nodup_orphans c) (Nat.le_refl 100) htake ht
  · rw [h.held]
    refine Set.union_subset_union_right _ (keysOf_mono ?_)
    intro t ht
    exact (hold t (List.mem_of_mem_take ht)).mpr ht
  · intro x hx hash hkey hheld
    have hlong : 100 ≤ (w.orphans c).length := by
      by_contra hshort
      rw [List.drop_of_length_le (by omega)] at hx
      cases hx
    have hpage' : (w.orphans d).take 100 = (w.orphans c).take 100 := by
      rw [w.orphans_split hc, List.take_append_of_le_length hlong]
    rw [h.held, hpage'] at hheld
    exact hheld
  · intro t ht hgone hclaim
    have hrow := (World.mem_orphans.mp ht)
    have hchanged : v.ledger.row t.id ≠ some t := fun hsame => hgone (World.mem_orphans.mpr ⟨hsame, hrow.2⟩)
    have hmem : t ∈ (w.orphans d).take 100 := by
      by_contra hmem
      exact hchanged (h.others t hrow.1 hmem)
    rcases h.row t hmem with hsame | ⟨t', ht', -, hfailed⟩
    · exact absurd hsame hchanged
    · exact ⟨t', ht', hfailed hclaim⟩
  · intro id t ht hpending
    have hid : t.id = id := World.ledger_id ht
    have hmem : t.id ∈ w.db.transactions.rows.map Transaction.id := by
      rw [← horder]
      exact List.mem_map_of_mem (Db.mem_transactions.mpr (hid.symm ▸ ht))
    obtain ⟨s, hs, hsid⟩ := List.mem_map.mp hmem
    rw [← hid, ← hsid] at ht
    rcases hrows s hs with hsame | ⟨t', ht', hstatus⟩
    · rw [hsame, Option.some.injEq] at ht
      exact ht ▸ hunhashed s.id s (Db.mem_transactions.mp hs) (ht ▸ hpending)
    · rw [ht', Option.some.injEq] at ht
      exact absurd (ht ▸ hpending) hstatus

theorem withWallets_of_row {t : Transaction} (h : w.ledger.row t.id = some t) :
    ∃ a b, w.db.withWallets t = some (t, a, b) := by
  obtain ⟨-, hfrom, hto⟩ := w.db.references t (Db.mem_transactions.mpr h)
  obtain ⟨a, ha⟩ := Option.isSome_iff_exists.mp hfrom
  obtain ⟨b, hb⟩ := Option.isSome_iff_exists.mp hto
  exact ⟨a, b, by rw [Db.withWallets, ha, hb]⟩

theorem map_fst_withWallets {l : List Transaction} (hl : ∀ t ∈ l, w.ledger.row t.id = some t) :
    (l.filterMap w.db.withWallets).map Prod.fst = l := by
  rw [List.map_filterMap, List.filterMap_congr (g := some), List.filterMap_some]
  intro t ht
  obtain ⟨a, b, hwallets⟩ := withWallets_of_row (hl t ht)
  rw [hwallets]
  rfl

/-- **A pass is a sweep.** -/
theorem ends_processOrphanedPending (hP : Faultless P) (hset : Settled processor deadline w₀)
    (hbeside : Beside deadline w₀ w) (hunhashed : w.PendingUnhashed)
    (hfail : c ≤ (w₀.clock : Int) - processor.failAfterMs) (hgrace : c ≤ (w₀.clock : Int) - processor.graceMs) :
    Ends exec P (Ticking deadline) processor.processOrphanedPending
      (fun r w' => r = .ok () ∧ Beside deadline w w' ∧ Swept processor w₀ c w w') w := by
  refine ends_bind.mpr (ends_now ?_)
  intro w₁ hw₁
  obtain ⟨clock₁, hle₁, hdeadline₁, rfl⟩ := ticking_star hw₁ hbeside.clock.2
  refine ends_bind.mpr (ends_stmt hP ?_)
  intro w₂ hw₂ i _
  obtain ⟨clock₂, hle₂, hdeadline₂, rfl⟩ := ticking_star hw₂ hdeadline₁
  have hc : c ≤ (clock₁ : Int) - processor.graceMs := by
    have hle : (w₀.clock : Int) ≤ clock₁ := Int.ofNat_le.mpr (Nat.le_trans hbeside.clock.1 hle₁)
    omega
  have hrows : ∀ t ∈ (w.orphans ((clock₁ : Int) - processor.graceMs)).take 100, w.ledger.row t.id = some t :=
    fun t ht => (World.mem_orphans.mp (List.mem_of_mem_take ht)).1
  have hbeside' : Beside deadline w { w with clock := clock₂ } :=
    ⟨rfl, rfl, rfl, Nat.le_trans hle₁ hle₂, hdeadline₂⟩
  show Ends exec P (Ticking deadline) (Prog.forEach processor.recoverOne
    (((w.orphans ((clock₁ : Int) - processor.graceMs)).take 100).filterMap w.db.withWallets)) _
    { w with clock := clock₂ }
  refine (ends_forEach_recoverOne hP hset (hbeside.trans hbeside') hunhashed hfail ?_ ?_ ?_).mono ?_
  · intro o ho
    obtain ⟨t, ht, hwallets⟩ := List.mem_filterMap.mp ho
    obtain ⟨a, b, hwallets'⟩ := withWallets_of_row (hrows t ht)
    have ho' : o = (t, a, b) := Option.some.inj (hwallets.symm.trans hwallets')
    subst ho'
    refine ⟨hrows t ht, (World.mem_orphans.mp (List.mem_of_mem_take ht)).2.1, ?_⟩
    rw [Db.withWallets, ← hbeside.wallets]
    exact hwallets'
  · rw [map_fst_withWallets hrows]
    exact (w.nodup_orphans _).sublist (List.take_sublist _ _)
  · rw [map_fst_withWallets hrows]
    exact (w.sorted_orphans _).sublist (List.take_sublist _ _)
  · intro r w' h
    obtain ⟨hr, hbeside'', horder, hvisits⟩ := h
    rw [map_fst_withWallets hrows] at hvisits
    refine ⟨hr, hbeside'.trans hbeside'', ?_⟩
    have hvisits' : Visits processor w₀ c w w' ((w.orphans ((clock₁ : Int) - processor.graceMs)).take 100) :=
      ⟨hvisits.held, hvisits.others, hvisits.row, hvisits.kept⟩
    exact hvisits'.swept hc horder hunhashed

/-! ## Pass after pass -/

/-- A number of passes, one after the other. -/
def PendingRecoveryProcessor.passes (processor : PendingRecoveryProcessor) (n : Nat) : Program Unit :=
  Prog.forEach (fun _ => processor.processOrphanedPending) (List.range n)

/-- The transaction is FAILED. -/
def World.Failed (w : World) (id : String) : Prop := ∃ t, w.ledger.row id = some t ∧ t.status = FAILED

/-- **One transaction, pass after pass.**  It has no match and its listener is healthy.  After more passes
than there are orphans before it, it is failed exactly if fewer than a hundred of these are left. -/
theorem ends_passes (hP : Faultless P) (hset : Settled processor deadline w₀)
    (hfail : c ≤ (w₀.clock : Int) - processor.failAfterMs) (hgrace : c ≤ (w₀.clock : Int) - processor.graceMs)
    {t : Transaction} {before after : List Transaction} (horphans : w₀.orphans c = before ++ t :: after)
    (hclaim : w₀.claimOf t = none) (hwatched : ¬ processor.Unwatched w₀ t) {n : Nat} (hn : before.length < n) :
    Ends exec P (Ticking deadline) (processor.passes n) (fun _ w' => w'.Failed t.id ↔
      (left w₀.claimOf (processor.Unwatched w₀) w₀.heldHashes before).length < 100) w₀ := by
  let stuck := left w₀.claimOf (processor.Unwatched w₀) w₀.heldHashes before
  -- the transaction is failed, or it waits, and every pass brings it forward
  let F : List Nat → World → Prop := fun rest w => Beside deadline w₀ w ∧ w.PendingUnhashed ∧
    ((w.Failed t.id ∧ stuck.length < 100) ∨ ∃ front, w.orphans c = front ++ t :: after ∧
      left w₀.claimOf (processor.Unwatched w₀) w.heldHashes front = stuck ∧
      (stuck.length < 100 → front.length + n ≤ before.length + rest.length))
  have hround : ∀ x rest w, F (x :: rest) w → Ends exec P (Ticking deadline) processor.processOrphanedPending
      (fun r w' => ∃ u, r = .ok u ∧ F rest w') w := by
    intro x rest w hF
    obtain ⟨hbeside, hunhashed, hwhere⟩ := hF
    refine (ends_processOrphanedPending hP hset hbeside hunhashed hfail hgrace).mono ?_
    intro r w' h
    obtain ⟨hr, hbeside', hswept⟩ := h
    refine ⟨(), hr, hbeside.trans hbeside', hswept.unhashed, ?_⟩
    rcases hwhere with ⟨⟨t', ht', hfailed⟩, hfew⟩ | ⟨front, hfront, hleft, hforward⟩
    · refine .inl ⟨⟨t', ?_, hfailed⟩, hfew⟩
      have hid : t'.id = t.id := World.ledger_id ht'
      rw [← hid] at ht' ⊢
      exact hswept.others t' ht' (by simp [hfailed])
    · have hmem : t ∈ w.orphans c := by simp [hfront]
      by_cases hreached : front.length < 100
      · refine .inl ⟨hswept.failed t hmem ?_ hclaim, ?_⟩
        · exact hswept.sweep.reached hfront (w.nodup_orphans c) hreached hclaim hwatched
        · rw [← hleft]
          exact Nat.lt_of_le_of_lt (left_sublist _ _).length_le hreached
      · obtain ⟨front', hfront', hleft', hless⟩ := hswept.sweep.unreached hfront (by omega)
        refine .inr ⟨front', hfront', hleft'.trans hleft, ?_⟩
        intro hfew
        have hshorter := hless (hleft ▸ hfew)
        have hlength := hforward hfew
        rw [List.length_cons] at hlength
        omega
  have hstart : F (List.range n) w₀ := by
    refine ⟨⟨rfl, rfl, rfl, Nat.le_refl _, hset.clock⟩, hset.unhashed, .inr ⟨before, horphans, rfl, ?_⟩⟩
    intro _
    rw [List.length_range]
  refine (Ends.forEach hround hstart).mono ?_
  intro r w' h
  obtain ⟨-, -, -, hwhere⟩ := h
  rcases hwhere with ⟨hfailed, hfew⟩ | ⟨front, hfront, -, hforward⟩
  · exact iff_of_true hfailed hfew
  · refine iff_of_false ?_ ?_
    · intro hfailed
      obtain ⟨t', ht', hstatus⟩ := hfailed
      obtain ⟨hrow, hpending, -⟩ := World.mem_orphans.mp (show t ∈ w'.orphans c by simp [hfront])
      rw [hrow, Option.some.injEq] at ht'
      rw [← ht', hpending] at hstatus
      cases hstatus
    · intro hfew
      have hlength := hforward hfew
      rw [List.length_nil] at hlength
      omega

end Visits

/-- The orphaned transactions that the passes come to before a given one. -/
def World.orphansBefore (w : World) (olderThan : Int) (t : Transaction) : List Transaction :=
  (w.orphans olderThan).takeWhile fun s => s.id ≠ t.id

open Classical in
/-- **The number of transactions before it that a pass cannot decide**: the hash of the transfer that matches
is held by a transaction or matches an earlier orphan too, or none matches and the listener is not
healthy. -/
noncomputable def PendingRecoveryProcessor.stuckBefore (processor : PendingRecoveryProcessor) (w : World)
    (t : Transaction) : Nat :=
  (w.orphansBefore ((w.clock : Int) - processor.graceMs) t).countP fun s =>
    Remains w.claimOf (processor.Unwatched w) w.heldHashes
      (w.orphansBefore ((w.clock : Int) - processor.graceMs) t) s

/-- An orphaned transaction that should be failed: it is older than the recovery window, no transfer matches
it, and its listener is healthy. -/
structure Hopeless (processor : PendingRecoveryProcessor) (w : World) (t : Transaction) : Prop where
  orphan : t ∈ w.orphans ((w.clock : Int) - processor.graceMs)
  old : processor.failAfterMs ≤ (w.clock : Int) - t.createdAt
  unmatched : w.claimOf t = none
  healthy : processor.healthyAt w.db t.tokenId w.clock = true

/-- One transaction that should be failed. -/
theorem ends_passes_hopeless {P : Input → Prop} (hP : Faultless P) {processor : PendingRecoveryProcessor}
    {deadline : Date} {w : World} (hset : Settled processor deadline w) {t : Transaction}
    (h : Hopeless processor w t) :
    Ends exec P (Ticking deadline) (processor.passes (w.orphans ((w.clock : Int) - processor.graceMs)).length)
      (fun _ w' => w'.Failed t.id ↔ processor.stuckBefore w t < 100) w := by
  obtain ⟨hrow, hpending, hcreated⟩ := World.mem_orphans.mp h.orphan
  -- the orphans that are as old as the window
  obtain ⟨c, hc⟩ : ∃ c, c = min ((w.clock : Int) - processor.graceMs) ((w.clock : Int) - processor.failAfterMs) :=
    ⟨_, rfl⟩
  have hgrace : c ≤ (w.clock : Int) - processor.graceMs := by omega
  have hfail : c ≤ (w.clock : Int) - processor.failAfterMs := by omega
  have hmem : t ∈ w.orphans c := by
    have hold := h.old
    exact World.mem_orphans.mpr ⟨hrow, hpending, by omega⟩
  obtain ⟨before, after, hsplit⟩ := List.append_of_mem hmem
  have hall := w.orphans_split hgrace
  rw [hsplit, List.append_assoc, List.cons_append] at hall
  have hbefore : w.orphansBefore ((w.clock : Int) - processor.graceMs) t = before := by
    have hne : ∀ s ∈ before, (decide (s.id ≠ t.id)) = true := by
      intro s hs
      rw [decide_eq_true_eq]
      intro hid
      obtain ⟨hs', -⟩ := World.mem_orphans.mp (show s ∈ w.orphans c by simp [hsplit, hs])
      rw [hid, hrow, Option.some.injEq] at hs'
      have hnodup := w.nodup_orphans c
      rw [hsplit, List.nodup_append] at hnodup
      exact hnodup.2.2 s hs t (by simp) hs'.symm
    rw [World.orphansBefore, hall, List.takeWhile_append_of_pos hne, List.takeWhile_cons]
    simp
  have hlength : before.length < (w.orphans ((w.clock : Int) - processor.graceMs)).length := by
    rw [hall, List.length_append, List.length_cons]
    omega
  have hnodup : before.Nodup := by
    have hnodup := w.nodup_orphans c
    rw [hsplit] at hnodup
    exact (List.nodup_append.mp hnodup).1
  have hwatched : ¬ processor.Unwatched w t := by simp [PendingRecoveryProcessor.Unwatched, h.healthy]
  refine (ends_passes hP hset hfail hgrace hsplit h.unmatched hwatched hlength).mono ?_
  intro _ w' hiff
  rw [hiff, left_eq_filter _ hnodup, PendingRecoveryProcessor.stuckBefore, hbefore, List.countP_eq_length_filter]

/-- **When recovery passes fail all that should be failed.**  No call fails, nobody else writes, and the
listeners stay healthy or not: after as many passes as there are orphaned transactions, each one that is
older than the window, has no match and a healthy listener is FAILED exactly if fewer than a hundred
transactions before each of them cannot be decided. -/
theorem orphans_failed_iff (processor : PendingRecoveryProcessor) (deadline : Date) (w : World)
    (hset : Settled processor deadline w) (inp : Nat → (World → World) × Input)
    (hinp : ∀ n, (inp n).2.fault = none)
    (hothers : ∀ n v, Relation.ReflTransGen (Ticking deadline) v ((inp n).1 v)) :
    (∀ t, Hopeless processor w t → ((processor.passes (w.orphans ((w.clock : Int) -
        processor.graceMs)).length).run (among exec) inp w).2.Failed t.id) ↔
      ∀ t, Hopeless processor w t → processor.stuckBefore w t < 100 := by
  refine forall_congr' fun t => forall_congr' fun h => ?_
  exact run_among_of_wp (Q := fun _ _ (w' : World) => w'.Failed t.id ↔ processor.stuckBefore w t < 100)
    (ends_passes_hopeless (P := fun i => i.fault = none) (fun _ h => h) hset h) hinp hothers

/-- A hundred orphans of a chain without a listener, all older than the lost transaction. -/
def crowd : List Transaction :=
  (List.range 100).map fun n =>
    { Transaction.lost with id := String.ofList (List.replicate n 'x'), tokenId := "bitcoin", createdAt := 0 }

theorem crowd_id {t : Transaction} (h : t ∈ crowd) : t.id ≠ Transaction.lost.id := by
  obtain ⟨n, -, rfl⟩ := List.mem_map.mp h
  intro hid
  have hlist : List.replicate n 'x' = ['t', 'x'] := String.ofList_injective hid
  have hmem : 't' ∈ List.replicate n 'x' := by simp [hlist]
  exact absurd (List.eq_of_mem_replicate hmem) (by decide)

theorem crowd_unique : (crowd ++ [Transaction.lost]).Pairwise fun s t => List.Disjoint s.keys t.keys := by
  have hdisjoint : ∀ {s t : Transaction}, s.txHash = none → s.id ≠ t.id → List.Disjoint s.keys t.keys := by
    intro s t hnone hid k hs ht
    simp only [Transaction.keys, hnone, Option.map_none, Option.toList_none, List.mem_singleton] at hs
    rw [hs, Transaction.id_mem_keys] at ht
    exact hid ht
  refine List.pairwise_append.mpr ⟨?_, List.pairwise_singleton _ _, ?_⟩
  · refine List.pairwise_map.mpr (List.pairwise_lt_range.imp ?_)
    intro m n hlt
    refine hdisjoint rfl ?_
    intro hid
    have hlength := congrArg List.length (String.ofList_injective hid)
    rw [List.length_replicate, List.length_replicate] at hlength
    omega
  · intro s hs t ht
    have hid := crowd_id hs
    obtain ⟨n, -, rfl⟩ := List.mem_map.mp hs
    rw [List.mem_singleton.mp ht]
    exact hdisjoint rfl hid

theorem crowd_tokens : [Token.sample, ⟨"bitcoin", "BTC", none, .BITCOIN⟩].Pairwise fun s t =>
    List.Disjoint s.keys t.keys := by decide

def World.crowded : World :=
  { World.sample with
    db := { Db.sample with
      tokens := ⟨[.sample, ⟨"bitcoin", "BTC", none, .BITCOIN⟩], crowd_tokens⟩
      transactions := ⟨crowd ++ [.lost], crowd_unique⟩
      tokenEventCursors := World.twoAlike.db.tokenEventCursors
      references := by
        intro t ht
        rcases List.mem_append.mp ht with ht | ht
        · obtain ⟨n, -, rfl⟩ := List.mem_map.mp ht
          exact ⟨rfl, rfl, rfl⟩
        · rw [List.mem_singleton.mp ht]
          exact ⟨rfl, rfl, rfl⟩ }
    clock := 1900000 }

theorem crowded_settled : Settled .defaults 1900000 .crowded where
  unhashed := by
    intro id t ht _
    have hmem : t ∈ crowd ++ [.lost] := (Table.get_eq_some_iff _).mp ht |>.1
    rcases List.mem_append.mp hmem with hmem | hmem
    · obtain ⟨n, -, rfl⟩ := List.mem_map.mp hmem
      rfl
    · rw [List.mem_singleton.mp hmem]
      rfl
  clock := Nat.le_refl _
  health := fun _ h => h

/-- The passes come to the crowd first. -/
theorem crowded_orphans : World.crowded.orphans 1780000 = crowd ++ [.lost] := by
  have hfilter : (crowd ++ [Transaction.lost]).filter
      (TransactionRepository.isOrphanedPendingCandidate 1780000) = crowd ++ [.lost] := by
    rw [List.filter_eq_self]
    intro t ht
    rcases List.mem_append.mp ht with ht | ht
    · obtain ⟨n, -, rfl⟩ := List.mem_map.mp ht
      rfl
    · rw [List.mem_singleton.mp ht]
      rfl
  show List.insertionSort _ ((crowd ++ [Transaction.lost]).filter _) = _
  rw [hfilter]
  refine List.Pairwise.insertionSort_eq (List.pairwise_append.mpr ⟨?_, List.pairwise_singleton _ _, ?_⟩)
  · refine List.pairwise_map.mpr (List.pairwise_lt_range.imp ?_)
    exact fun _ => Nat.le_refl 0
  · intro s hs t ht
    obtain ⟨n, -, rfl⟩ := List.mem_map.mp hs
    exact Nat.zero_le _

theorem crowded_hopeless : Hopeless .defaults .crowded .lost where
  orphan := by
    show _ ∈ World.crowded.orphans 1780000
    simp [crowded_orphans]
  old := by decide
  unmatched := by decide
  healthy := by decide

/-- All of the crowd are stuck. -/
theorem crowded_stuckBefore : PendingRecoveryProcessor.defaults.stuckBefore .crowded .lost = 100 := by
  have hbefore : World.crowded.orphansBefore ((World.crowded.clock : Int) -
      PendingRecoveryProcessor.defaults.graceMs) .lost = crowd := by
    show (World.crowded.orphans 1780000).takeWhile _ = crowd
    rw [crowded_orphans, List.takeWhile_append_of_pos fun t ht => by simpa using crowd_id ht]
    simp
  rw [PendingRecoveryProcessor.stuckBefore, hbefore]
  have hall : ∀ s ∈ crowd, Remains World.crowded.claimOf (PendingRecoveryProcessor.defaults.Unwatched .crowded)
      World.crowded.heldHashes crowd s := by
    intro s hs
    obtain ⟨n, -, rfl⟩ := List.mem_map.mp hs
    rfl
  rw [List.countP_eq_length.mpr fun s hs => by simpa using hall s hs]
  rfl

/-- **The lost transaction is not failed**, however often the passes run. -/
theorem crowded_not_failed :
    Settled .defaults 1900000 .crowded ∧ Hopeless .defaults .crowded .lost ∧
    ¬ ((PendingRecoveryProcessor.defaults.passes (World.crowded.orphans ((World.crowded.clock : Int) -
        PendingRecoveryProcessor.defaults.graceMs)).length).run (among exec) (fun _ => (id, {}))
      .crowded).2.Failed Transaction.lost.id := by
  refine ⟨crowded_settled, crowded_hopeless, ?_⟩
  have hends := ends_passes_hopeless (P := fun i => i.fault = none) (fun _ h => h) crowded_settled
    crowded_hopeless
  intro hfailed
  have hrun := run_among_of_wp (Q := fun _ _ (w' : World) => w'.Failed Transaction.lost.id →
      PendingRecoveryProcessor.defaults.stuckBefore .crowded .lost < 100)
    (hends.mono fun _ _ => Iff.mp) (fun _ => rfl) (fun _ _ => .refl) hfailed
  rw [crowded_stuckBefore] at hrun
  exact absurd hrun (by decide)

/-- Without the crowd it is failed. -/
def World.uncrowded : World :=
  { World.crowded with
    db := { World.crowded.db with transactions := World.oneLost.db.transactions, references := by decide } }

theorem orphans_failed_iff_uncrowded : Hopeless .defaults .uncrowded .lost ∧
    ((PendingRecoveryProcessor.defaults.passes (World.uncrowded.orphans ((World.uncrowded.clock : Int) -
        PendingRecoveryProcessor.defaults.graceMs)).length).run (among exec) (fun _ => (id, {}))
      .uncrowded).2.Failed Transaction.lost.id := by
  have hset : Settled .defaults 1900000 .uncrowded := by
    refine ⟨?_, Nat.le_refl _, fun _ h => h⟩
    intro id t ht _
    have hmem : t ∈ [Transaction.lost] := (Table.get_eq_some_iff _).mp ht |>.1
    rw [List.mem_singleton.mp hmem]
    rfl
  have hopeless : Hopeless .defaults .uncrowded .lost := ⟨by decide, by decide, by decide, by decide⟩
  refine ⟨hopeless, (orphans_failed_iff .defaults 1900000 .uncrowded hset (fun _ => (id, {})) (fun _ => rfl)
    fun _ _ => .refl).mpr ?_ .lost hopeless⟩
  intro t ht
  have hmem : t ∈ World.uncrowded.orphans 1780000 := ht.orphan
  have horphans : World.uncrowded.orphans 1780000 = [.lost] := by decide
  rw [horphans, List.mem_singleton] at hmem
  have hbefore : World.uncrowded.orphansBefore ((World.uncrowded.clock : Int) -
      PendingRecoveryProcessor.defaults.graceMs) .lost = [] := by decide
  rw [hmem, PendingRecoveryProcessor.stuckBefore, hbefore]
  decide

end TransactionSimulator
