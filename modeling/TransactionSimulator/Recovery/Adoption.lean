import TransactionSimulator.Recovery.Decision

/-!
# The age of the evidence

Pending recovery asks for transfers that have been recorded since the transaction was created.  A
listener that lags behind records transfers of older blocks, which cannot come from the request.

* `recoverOne_hashes`: every hash that `recoverOne` writes is the hash of the row it was given.
* `adopted_since_iff`: when the block of that row is no older than the transaction.
-/

namespace TransactionSimulator

open Concurrent Prog Relational TransactionStatus

/-- The block of the recorded transfer was mined no earlier than at the given time. -/
def World.minedSince (w : World) (time : Date) (r : TokenTransfer) : Bool :=
  w.chain[r.blockNumber]?.any fun block => time ≤ block.minedAt

/-- The transfers that match the transaction and have been recorded since it was created, in the order
of their recording. -/
def World.candidates (w : World) (t : Transaction) (a b : Wallet) : List TokenTransfer :=
  w.db.tokenTransfers.sorted
    (TransferRepository.matchesTransfer t.tokenId a.address b.address t.amount t.createdAt)
    fun r => some r.createdAt

/-- Each candidate of an older block comes after one whose block is no older than the transaction. -/
def World.Forestalled (w : World) (t : Transaction) (a b : Wallet) : Prop :=
  ∀ pre r post, w.candidates t a b = pre ++ r :: post → w.minedSince t.createdAt r = false →
    ∃ r' ∈ pre, w.minedSince t.createdAt r' = true

/-- Where nothing of an older block has been recorded since the transaction was created, there is
nothing to forestall. -/
theorem forestalled_of_forall {w : World} {t : Transaction} {a b : Wallet}
    (h : ∀ r ∈ w.db.tokenTransfers.rows, t.createdAt ≤ r.createdAt →
      w.minedSince t.createdAt r = true) : w.Forestalled t a b := by
  intro pre r post heq hold
  have hr : r ∈ w.candidates t a b := by
    rw [heq]
    simp
  obtain ⟨hmem, hmatch⟩ := (w.db.tokenTransfers.mem_sorted).mp hr
  have hsince : t.createdAt ≤ r.createdAt := by
    simp only [TransferRepository.matchesTransfer, Bool.and_eq_true, decide_eq_true_eq] at hmatch
    exact hmatch.2
  rw [h r hmem hsince] at hold
  cases hold

/-- **The first candidate** is no older than the transaction exactly if the older ones are
forestalled. -/
theorem evidence_since_iff {w : World} {t : Transaction} {a b : Wallet} {r : TokenTransfer}
    (h : w.evidence t a b = some r) :
    w.minedSince t.createdAt r = true ↔ w.Forestalled t a b := by
  have hhead : (w.candidates t a b).head? = some r := h
  obtain ⟨rest, hrest⟩ := List.head?_eq_some_iff.mp hhead
  constructor
  · intro hr pre s post heq hs
    cases pre with
    | nil =>
      rw [hrest] at heq
      obtain ⟨rfl, -⟩ := List.cons.inj heq
      rw [hr] at hs
      cases hs
    | cons p pre =>
      rw [hrest] at heq
      obtain ⟨rfl, -⟩ := List.cons.inj heq
      exact ⟨r, List.mem_cons_self, hr⟩
  · intro hforestalled
    by_contra hr
    obtain ⟨_, hnil, _⟩ := hforestalled [] r rest hrest (by simpa using hr)
    cases hnil

/-! ## The hashes that the pass writes -/

/-- An update that gives the row `id` the hash. -/
def WritesHash (id hash : String) (o : Call) : Prop :=
  ∃ status data, o = .stmt (.transactionUpdateMany id status data) ∧ data.txHash = some hash

/-- The lookup that `recoverOne` makes. -/
def evidenceLookup (t : Transaction) (a b : Wallet) : Stmt :=
  .tokenTransferFindFirst
    (TransferRepository.matchesTransfer t.tokenId a.address b.address t.amount t.createdAt)

/-- The pass asks for evidence for the transaction, and is given the row. -/
structure Given (t : Transaction) (a b : Wallet) (m : Moment Call Input World) (r : TokenTransfer) :
    Prop where
  asks : m.op = .stmt (evidenceLookup t a b)
  answered : (exec (.stmt (evidenceLookup t a b)) m.input m.state).1 = .ok (some r)

theorem Given.found {t : Transaction} {a b : Wallet} {m : Moment Call Input World} {r : TokenTransfer}
    (h : Given t a b m r) : m.state.evidence t a b = some r := by
  have hok := h.answered
  rw [exec_ok h.answered] at hok
  exact Except.ok.inj hok

theorem given_of_evidence {t : Transaction} {a b : Wallet} {m : Moment Call Input World}
    {r : TokenTransfer} (hasks : m.op = .stmt (evidenceLookup t a b)) (hfault : m.input.fault = none)
    (hfound : m.state.evidence t a b = some r) : Given t a b m r := by
  refine ⟨hasks, ?_⟩
  rw [exec_of_fault_none hfault]
  exact congrArg Except.ok hfound

theorem not_writesHash {env : ProcessEnv} {A : List Right} (hA : .write .submit ∉ A) {o : Call}
    (h : Permitted env A o) (id hash : String) : ¬ WritesHash id hash o := by
  rintro ⟨status, data, rfl, hdata⟩
  obtain ⟨k, hk, hw⟩ := h
  cases hw with
  | submit => exact hA hk
  | claim | fail | expire => cases hdata

/-- To adopt a transfer writes its hash and no other. -/
theorem writes_adopt (transaction : Transaction) (txHash : String) :
    All (fun o => ∀ id hash, WritesHash id hash o → id = transaction.id ∧ hash = txHash)
      (PendingRecoveryProcessor.adopt transaction txHash) := by
  have hother : ∀ {o : Call}, (∀ id status data, o ≠ .stmt (.transactionUpdateMany id status data)) →
      ∀ id hash, WritesHash id hash o → id = transaction.id ∧ hash = txHash := by
    rintro o ho id hash ⟨status, data, rfl, -⟩
    exact absurd rfl (ho id status data)
  refine All.bind ?_ ?_
  · refine All.perform_bind (hother (by simp)) ?_
    intro submittedAt
    rw [transition_eq (by decide)]
    refine All.perform_bind ?_ ?_
    · rintro id hash ⟨status, data, heq, hdata⟩
      cases heq
      exact ⟨rfl, (Option.some.inj hdata).symm⟩
    intro count
    split
    · exact all_perform (hother (by simp))
    · refine All.perform_bind (hother (by simp)) ?_
      intro found
      cases found <;> exact trivial
  · intro _
    exact All.perform_bind (hother (by simp)) fun _ => all_perform (hother (by simp))

/-- Every hash that the calls write is that of a row that they were given for the transaction. -/
def Sourced (t : Transaction) (a b : Wallet) (tr : List (Moment Call Input World)) : Prop :=
  ∀ u ∈ tr, ∀ id hash, WritesHash id hash u.op →
    id = t.id ∧ ∃ m ∈ tr, ∃ r, Given t a b m r ∧ r.transactionHash = hash

theorem wp_no_hash {α : Type} {A : List Right} {R : World → World → Prop} {p : Program α}
    (hp : All (Permitted (fun _ => none) A) p) (hA : .write .submit ∉ A) (w : World) :
    wp exec R (fun _ _ => True) p
      (fun tr _ _ => ∀ u ∈ tr, ∀ id hash, ¬ WritesHash id hash u.op) w :=
  wp_mono (fun _ _ _ h u hu => not_writesHash hA (h.1 u hu)) (hp.wp_trace (wp_any _ w))

section Sourced

variable {t : Transaction} {a b : Wallet} {tr tr' : List (Moment Call Input World)}

theorem sourced_of_no_hash (h : ∀ u ∈ tr, ∀ id hash, ¬ WritesHash id hash u.op) : Sourced t a b tr :=
  fun u hu id hash hwrites => absurd hwrites (h u hu id hash)

theorem Sourced.append (h : Sourced t a b tr) (h' : ∀ u ∈ tr', ∀ id hash, ¬ WritesHash id hash u.op) :
    Sourced t a b (tr ++ tr') := by
  intro u hu id hash hwrites
  rcases List.mem_append.mp hu with hu | hu
  · obtain ⟨hid, m, hm, hgiven⟩ := h u hu id hash hwrites
    exact ⟨hid, m, List.mem_append_left _ hm, hgiven⟩
  · exact absurd hwrites (h' u hu id hash)

end Sourced

/-- **Every hash that `recoverOne` writes** is the hash of the row that it was given for the
transaction. -/
theorem recoverOne_hashes (processor : PendingRecoveryProcessor) (t : Transaction) (a b : Wallet)
    {R : World → World → Prop} (w : World) :
    wp exec R (fun _ _ => True) (processor.recoverOne (t, a, b)) (fun tr _ _ => Sourced t a b tr) w := by
  have hlookup : ∀ id hash, ¬ WritesHash id hash (.stmt (evidenceLookup t a b)) := by
    rintro id hash ⟨status, data, heq, -⟩
    cases heq
  have hlog : All (Permitted (fun _ => none) [])
      (perform (Call.emit (.log "transaction.pending.recovery.failed")) : Program Unit) :=
    permitted_emit _ rfl
  refine wp_tryCatch.mpr (wp_mono (Q := fun tr _ _ => Sourced t a b tr) ?_ ?_)
  · intro tr r v htr
    cases r with
    | ok _ => exact htr
    | error e => exact wp_mono (fun _ _ _ => htr.append) (wp_no_hash hlog (by simp) v)
  refine wp_bind.mpr (wp_perform.mpr ?_)
  intro w₁ _ i
  refine ⟨trivial, ?_⟩
  have hnothing : ∀ {tr : List (Moment Call Input World)},
      (∀ u ∈ tr, ∀ id hash, ¬ WritesHash id hash u.op) →
      Sourced t a b (⟨w₁, .stmt (evidenceLookup t a b), i⟩ :: tr) :=
    fun h => sourced_of_no_hash (List.forall_mem_cons.mpr ⟨hlookup, h⟩)
  split
  · next found hanswer =>
    cases found with
    | some r =>
      refine wp_mono ?_ ((writes_adopt t r.transactionHash).wp_trace (wp_any _ _))
      rintro tr _ _ ⟨hwrites, -⟩ u hu id hash huhash
      rcases List.mem_cons.mp hu with rfl | hu
      · exact absurd huhash (hlookup id hash)
      · obtain ⟨hid, rfl⟩ := hwrites u hu id hash huhash
        exact ⟨hid, _, List.mem_cons_self, r, ⟨rfl, hanswer⟩, rfl⟩
    | none =>
      -- without evidence the row is left alone or failed
      refine wp_mono (fun _ _ _ => hnothing) (wp_no_hash (A := [.write .fail]) ?_ (by simp) _)
      refine All.perform_bind trivial ?_
      intro now
      split
      · exact trivial
      refine All.bind (permitted_isEventListenerHealthy _ _) ?_
      intro healthy
      split
      · exact permitted_fail (by simp) _
      · exact permitted_emit _ rfl
  · exact hnothing (List.forall_mem_nil _)

/-! ## Runs -/

/-- **The age of an adopted transfer.**  Let pending recovery take up a transaction in any reachable
state, among whatever else happens.  Every hash it writes is that of a row it was given for the
transaction.  Such a row carries a transfer of its block, and the block was mined no earlier than the
transaction was created exactly if at the lookup every older candidate was forestalled. -/
theorem adopted_since_iff (D : Deployment) (w : World) (hw : w.Initial) (es : List SystemEvent)
    (t : Transaction) (a b : Wallet) (inp : Nat → List SystemEvent × Input) :
    (∀ u ∈ ownTrace D.system (D.pendingRecovery.recoverOne (t, a, b)) inp (w.start.after D.system es),
      ∀ id hash, WritesHash id hash u.op → id = t.id ∧
        ∃ m ∈ ownTrace D.system (D.pendingRecovery.recoverOne (t, a, b)) inp
          (w.start.after D.system es), ∃ r, Given t a b m r ∧ r.transactionHash = hash) ∧
    (∀ m ∈ ownTrace D.system (D.pendingRecovery.recoverOne (t, a, b)) inp (w.start.after D.system es),
      ∀ r, Given t a b m r → ∃ l block, m.state.chain[r.blockNumber]? = some block ∧ l ∈ block.logs ∧
        r.Carries l r.blockNumber ∧ (t.createdAt ≤ block.minedAt ↔ m.state.Forestalled t a b)) := by
  have hhealthy := (index_path D hw es).2
  have hall : All (Permitted D.processEnv [.write .submit, .write .fail, .queue])
      (D.pendingRecovery.recoverOne (t, a, b)) :=
    permitted_recoverOne (by simp) (by simp) (by simp) _ _
  have hwp := wp_moments stable_indexSound (wp_of_safe
    (safe_offIndex hall (by simp) (w.start.after D.system es).world)
    (recoverOne_hashes D.pendingRecovery t a b _)) hhealthy.inv
  obtain ⟨hsound, hsourced⟩ := run_interleave_of_wp (respects_index D) hhealthy hwp
    fun n e (_ : e ∈ (inp n).1) => trivial
  refine ⟨hsourced, ?_⟩
  intro m hm r hgiven
  have hmem : r ∈ m.state.candidates t a b := by
    have hhead : (m.state.candidates t a b).head? = some r := hgiven.found
    exact List.mem_of_head? hhead
  obtain ⟨hrow, -⟩ := (m.state.db.tokenTransfers.mem_sorted).mp hmem
  obtain ⟨l, n, ⟨block, hblock, hl⟩, -, hcarries⟩ := (hsound m hm).observed r hrow
  obtain rfl := hcarries.blockNumber
  refine ⟨l, block, hblock, hl, hcarries, ?_⟩
  have hsince : m.state.minedSince t.createdAt r = true ↔ t.createdAt ≤ block.minedAt := by
    have hblock' : m.state.chain[r.blockNumber]? = some block := hblock
    rw [World.minedSince, hblock', Option.any_some, decide_eq_true_eq]
  rw [← hsince]
  exact evidence_since_iff hgiven.found

/-- The evidence of `lostRequest` is of a block that was mined after the request. -/
theorem adopted_since_iff_lostRequest :
    ∃ block, (World.unregistered.start.after Deployment.defaults.system (lostRequest
        "0xde709f2102306220921060314715629080e2fb77"
        "0x27b1fdb04752bbc536007a920d24acb045561c26")).world.chain[1]? = some block ∧
      Transaction.lost.createdAt ≤ block.minedAt := by
  have hfound : (World.unregistered.start.after Deployment.defaults.system (lostRequest
        "0xde709f2102306220921060314715629080e2fb77"
        "0x27b1fdb04752bbc536007a920d24acb045561c26")).world.evidence .lost
        (.senderAt "0xde709f2102306220921060314715629080e2fb77")
        (.receiverAt "0x27b1fdb04752bbc536007a920d24acb045561c26") = some (.lost
        "0xde709f2102306220921060314715629080e2fb77"
        "0x27b1fdb04752bbc536007a920d24acb045561c26") := by
    decide +kernel
  have hfresh : ∀ r ∈ (World.unregistered.start.after Deployment.defaults.system (lostRequest
        "0xde709f2102306220921060314715629080e2fb77"
        "0x27b1fdb04752bbc536007a920d24acb045561c26")).world.db.tokenTransfers.rows,
      Transaction.lost.createdAt ≤ r.createdAt → (World.unregistered.start.after
        Deployment.defaults.system (lostRequest "0xde709f2102306220921060314715629080e2fb77"
          "0x27b1fdb04752bbc536007a920d24acb045561c26")).world.minedSince Transaction.lost.createdAt r =
        true := by
    decide +kernel
  have h := (adopted_since_iff .defaults .unregistered World.unregistered_initial (lostRequest
    "0xde709f2102306220921060314715629080e2fb77" "0x27b1fdb04752bbc536007a920d24acb045561c26") .lost
    (.senderAt "0xde709f2102306220921060314715629080e2fb77")
    (.receiverAt "0x27b1fdb04752bbc536007a920d24acb045561c26") fun _ => ([], {})).2
  generalize World.unregistered.start.after Deployment.defaults.system (lostRequest
    "0xde709f2102306220921060314715629080e2fb77" "0x27b1fdb04752bbc536007a920d24acb045561c26") = c
    at hfound hfresh h
  obtain ⟨_, block, hblock, _, _, hiff⟩ := h ⟨c.world, .stmt (evidenceLookup _ _ _), {}⟩ (.head _) _
    (given_of_evidence rfl rfl hfound)
  exact ⟨block, hblock, hiff.mpr (forestalled_of_forall hfresh)⟩

/-! ## A listener that lags behind

A transfer between two wallets is mined.  Later the same transfer is requested, and the process is lost
before the broadcast.  Then the listener catches up, and a recovery pass runs. -/

def laggingListener (fromAddress toAddress : String) : List SystemEvent :=
  .spawn (.createCustodialWallet ⟨"tenant", "user", 31337⟩) ::
    steps 0 [{ reply := .address fromAddress }, { uuid := "sender" }] ++
  .spawn (.createWallet ⟨"tenant", "user", 31337⟩ toAddress) ::
    steps 1 [{}, { uuid := "receiver" }] ++
  [.shift (.mine [{ TransferLog.sample with fromAddress, toAddress }]), .shift (.tick 1000)] ++
  .spawn (.transfer .sample) :: steps 2 ((transferInputs "tx" "0x02").take 6) ++
  [.crash 2, .shift (.tick 200000)] ++
  .spawn (.processTokenEvents "listener" "token") ::
    steps 3 (List.replicate 13 { uuid := "a", reply := .balance 7 } ++
      List.replicate 12 { uuid := "b", reply := .balance 7 })

/-- **An older transfer is adopted**: the pass gives the request, which was never broadcast, the hash
of a transfer of a block that was mined before the request. -/
theorem laggingListener_adopted :
    World.unregistered.Initial ∧
    (World.unregistered.start.after Deployment.defaults.system (laggingListener
        "0xde709f2102306220921060314715629080e2fb77"
        "0x27b1fdb04752bbc536007a920d24acb045561c26")).world.db.transactions.rows.map
      (fun t => (t.status, t.txHash, t.createdAt)) = [(PENDING, none, 1001000)] ∧
    (World.unregistered.start.after Deployment.defaults.system (laggingListener
        "0xde709f2102306220921060314715629080e2fb77"
        "0x27b1fdb04752bbc536007a920d24acb045561c26" ++ recoveryPass)).world.db.transactions.rows.map
      (fun t => (t.status, t.txHash, t.createdAt)) = [(SUBMITTED, some "0x01", 1001000)] ∧
    (World.unregistered.start.after Deployment.defaults.system (laggingListener
        "0xde709f2102306220921060314715629080e2fb77"
        "0x27b1fdb04752bbc536007a920d24acb045561c26" ++ recoveryPass)).world.db.tokenTransfers.rows.map
      (fun r => (r.transactionHash, r.blockNumber)) = [("0x01", 1)] ∧
    (World.unregistered.start.after Deployment.defaults.system (laggingListener
        "0xde709f2102306220921060314715629080e2fb77"
        "0x27b1fdb04752bbc536007a920d24acb045561c26" ++ recoveryPass)).world.chain.map (·.minedAt) =
      [0, 1000000] :=
  ⟨World.unregistered_initial, by decide +kernel⟩

end TransactionSimulator
