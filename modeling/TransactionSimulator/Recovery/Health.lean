import TransactionSimulator.Indexer.Refinement

/-!
# The health check of pending recovery

Before a recovery pass takes the absence of a transfer for evidence, it asks whether the event
listener has been successful lately (`isEventListenerHealthy`).  Every window that a listener
persists counts as a success, also one in the middle of a long catch-up, so a cursor can be fresh
and far behind the chain at once.

* `wp_isEventListenerHealthy`: what a positive answer rests on, while the listeners go on.
* `healthy_sound`: it can be relied upon if the cursor has also come far enough.
-/

namespace TransactionSimulator

open Concurrent Prog Relational TransactionStatus

/-- The newest block that may be indexed as of `age` milliseconds ago. -/
def World.indexableHead (w : World) (config : EvmIndexerConfig) (age : Nat) : Int :=
  w.chain.headAt ((w.clock : Int) - age) - config.confirmations

/-- From the first block to index up to the block `last`, every log of the token has a row. -/
def World.IndexedTo (w : World) (config : EvmIndexerConfig) (token : Token) (last : Int) : Prop :=
  ∀ n : Nat, config.startBlock ≤ n → (n : Int) ≤ last →
    ∀ l ∈ w.chain.logsOf token.contractAddress n, ∃ r ∈ w.db.tokenTransfers.rows,
      r.transactionHash = l.1.transactionHash ∧ r.logIndex = l.1.logIndex

theorem indexedTo_of_covers {w : World} {config : EvmIndexerConfig} {token : Token} {b : Nat}
    (hcontract : w.index.contract token.id = some token.contractAddress)
    (h : w.index.Covers token.id config.startBlock (b + 1)) {last : Int} (hlast : last ≤ b) :
    w.IndexedTo config token last := by
  intro n hstart hn l hl
  exact h.2 _ hcontract n hstart (by omega) l hl

/-! ## The check -/

/-- The check as it was made: the cursor `c` was read at `m`, the clock at `n`, and the answer was
that the listener is healthy. -/
structure Trusts (processor : PendingRecoveryProcessor) (tokenId : String) (c : TokenEventCursor)
    (m n : Moment Call Input World) : Prop where
  read : m.op = .stmt (.tokenEventCursorFindUnique tokenId)
  found : m.state.db.tokenEventCursors.get tokenId = some c
  clock : n.op = .now
  recent : ∃ sync, c.lastSuccessfulSync = some sync ∧
    (n.state.clock : Int) - sync ≤ processor.listenerStalenessMs

section Check

variable {start : Nat} {w : World}

/-- **A positive answer**: the cursor that was read has been moved, so the index is complete up
to it. -/
theorem wp_isEventListenerHealthy (processor : PendingRecoveryProcessor) (tokenId : String)
    (hsound : w.index.Sound start) :
    wp exec (Indexing start) (Indexing start) (processor.isEventListenerHealthy tokenId)
      (fun tr r w' => r = .ok true → ∃ c m n, tr = [m, n] ∧ n.state = w' ∧
        Trusts processor tokenId c m n ∧
          w'.index.Covers tokenId start (c.lastProcessedBlock + 1)) w := by
  refine wp_bind.mpr (wp_perform.mpr ?_)
  intro w₁ hw₁ i
  refine ⟨indexing_stmt rfl i w₁, ?_⟩
  have hsound₁ := stable_indexSound.star hw₁ hsound
  split
  swap
  · exact fun h => by cases h
  next found hok =>
    have heff := exec_ok hok
    rw [heff] at hok ⊢
    have hget : w₁.db.tokenEventCursors.get tokenId = found := Except.ok.inj hok
    cases found with
    | none => exact fun h => by cases h
    | some c =>
      dsimp only
      split
      · exact fun h => by cases h
      next sync hsync =>
        refine wp_bind.mpr (wp_perform.mpr ?_)
        intro w₂ hw₂ i'
        rw [exec_of_inProcess rfl]
        refine ⟨.refl _ _, ?_⟩
        intro hhealthy
        have hrecent : (w₂.clock : Int) - sync ≤ processor.listenerStalenessMs := by
          simpa using hhealthy
        -- a fresh cursor has no success yet
        have hcovers : w₁.index.Covers tokenId start (c.lastProcessedBlock + 1) := by
          rcases hsound₁.cursors tokenId c hget with hfresh | hcovers
          · rw [hfresh.2] at hsync
            cases hsync
          · exact hcovers
        refine ⟨c, _, _, rfl, rfl, ⟨rfl, hget, rfl, sync, hsync, hrecent⟩, ?_⟩
        exact (stable_covers start tokenId _).star hw₂ hcovers

/-! ## The transactions that are failed on its word -/

/-- An update to FAILED. -/
def MarksFailed (o : Call) : Prop :=
  ∃ id status data, o = .stmt (.transactionUpdateMany id status data) ∧ data.status = some FAILED

theorem not_marksFailed {env : ProcessEnv} {A : List Right} (hA : .write .fail ∉ A) {o : Call}
    (h : Permitted env A o) : ¬ MarksFailed o := by
  rintro ⟨id, status, data, rfl, hdata⟩
  obtain ⟨k, hk, hw⟩ := h
  cases hw with
  | fail => exact hA hk
  | submit | claim | expire => cases hdata

/-- Each update to FAILED in the trace comes after a positive answer, and finds the index complete
up to the cursor that was read for it. -/
def Vouched (processor : PendingRecoveryProcessor) (tokenId : String) (start : Nat)
    (tr : List (Moment Call Input World)) : Prop :=
  ∀ u ∈ tr, MarksFailed u.op → ∃ c m n before after, tr = before ++ m :: n :: after ∧ u ∈ after ∧
    Trusts processor tokenId c m n ∧ u.state.index.Covers tokenId start (c.lastProcessedBlock + 1)

section Vouched

variable {processor : PendingRecoveryProcessor} {tokenId : String}
  {tr tr' : List (Moment Call Input World)}

theorem vouched_of_forall_not (h : ∀ m ∈ tr, ¬ MarksFailed m.op) :
    Vouched processor tokenId start tr :=
  fun u hu hfails => absurd hfails (h u hu)

theorem Vouched.append (h : Vouched processor tokenId start tr) (h' : ∀ m ∈ tr', ¬ MarksFailed m.op) :
    Vouched processor tokenId start (tr ++ tr') := by
  intro u hu hfails
  rcases List.mem_append.mp hu with hu | hu
  · obtain ⟨c, m, n, before, after, rfl, hmem, hrest⟩ := h u hu hfails
    exact ⟨c, m, n, before, after ++ tr', by simp, List.mem_append_left _ hmem, hrest⟩
  · exact absurd hfails (h' u hu)

theorem Vouched.prepend (h : Vouched processor tokenId start tr)
    (h' : ∀ m ∈ tr', ¬ MarksFailed m.op) : Vouched processor tokenId start (tr' ++ tr) := by
  intro u hu hfails
  rcases List.mem_append.mp hu with hu | hu
  · exact absurd hfails (h' u hu)
  · obtain ⟨c, m, n, before, after, rfl, hmem, hrest⟩ := h u hu hfails
    exact ⟨c, m, n, tr' ++ before, after, by simp, hmem, hrest⟩

theorem wp_vouched {α : Type} {env : ProcessEnv} {A : List Right} {p : Program α}
    (h : All (Permitted env A) p) (hindex : .index ∉ A) (hfail : .write .fail ∉ A) (w : World) :
    wp exec (Indexing start) (Indexing start) p
      (fun tr _ _ => Vouched processor tokenId start tr) w := by
  refine wp_mono ?_ (h.wp_trace (safe_offIndex h hindex w))
  rintro tr r w' ⟨hall, -⟩
  exact vouched_of_forall_not fun m hm => not_marksFailed hfail (hall m hm)

/-- A call that writes nothing, and what follows it. -/
theorem wp_vouched_bind {β : Type} {o : Call} (ho : Permitted (fun _ => none) [] o)
    {f : o.Res → Program β} (hsound : w.index.Sound start)
    (hf : ∀ a w', w'.index.Sound start → wp exec (Indexing start) (Indexing start) (f a)
      (fun tr _ _ => Vouched processor tokenId start tr) w') :
    wp exec (Indexing start) (Indexing start) ((perform o).bind f)
      (fun tr _ _ => Vouched processor tokenId start tr) w := by
  refine wp_bind.mpr ?_
  have hall : All (Permitted (fun _ => none) []) (perform o : Program o.Res) := all_perform ho
  refine wp_mono ?_ (wp_keeps stable_indexSound
    (hall.wp_trace (safe_offIndex hall (by simp) w)) hsound)
  rintro tr r w' ⟨⟨hcalls, -⟩, hsound'⟩
  have hnone : ∀ m ∈ tr, ¬ MarksFailed m.op := fun m hm => not_marksFailed (by simp) (hcalls m hm)
  cases r with
  | ok a => exact wp_mono (fun _ _ _ h => h.prepend hnone) (hf a w' hsound')
  | error e => exact vouched_of_forall_not hnone

end Vouched

/-- **Pending recovery fails a transaction only on a positive answer.** -/
theorem wp_recoverOne (processor : PendingRecoveryProcessor) (orphan : Transaction × Wallet × Wallet)
    (hsound : w.index.Sound start) :
    wp exec (Indexing start) (Indexing start) (processor.recoverOne orphan)
      (fun tr _ _ => Vouched processor orphan.1.tokenId start tr) w := by
  obtain ⟨transaction, fromWallet, toWallet⟩ := orphan
  refine wp_tryCatch.mpr (wp_mono (Q := fun tr _ _ => Vouched processor transaction.tokenId start tr)
    ?_ (wp_vouched_bind ?_ hsound ?_))
  · -- the handler of an error only logs it
    intro tr r w' hvouched
    cases r with
    | ok a => exact hvouched
    | error e =>
      have hlog : All (Permitted (fun _ => none) [])
          (perform (Call.emit (.log "transaction.pending.recovery.failed")) : Program Unit) :=
        permitted_emit _ rfl
      refine wp_mono ?_ (hlog.wp_trace (safe_offIndex hlog (by simp) w'))
      rintro tr' r' w'' ⟨hcalls, -⟩
      exact hvouched.append fun m hm => not_marksFailed (by simp) (hcalls m hm)
  · exact trivial
  intro found w₁ hsound₁
  split
  next transfer =>
    have hadopt : All (Permitted (fun _ => none) [.write .submit, .queue])
        (PendingRecoveryProcessor.adopt transaction transfer.transactionHash) :=
      permitted_adopt (by simp) (by simp) _ _
    exact wp_vouched hadopt (by simp) (by simp) w₁
  refine wp_vouched_bind ?_ hsound₁ ?_
  · exact trivial
  intro now w₂ hsound₂
  split
  · exact vouched_of_forall_not (by simp)
  have hcheck : All (Permitted (fun _ => none) [])
      (processor.isEventListenerHealthy transaction.tokenId) := permitted_isEventListenerHealthy _ _
  refine wp_bind.mpr (wp_mono ?_ (hcheck.wp_trace
    (wp_isEventListenerHealthy processor transaction.tokenId hsound₂)))
  rintro tr r w₃ ⟨hcalls, hpositive⟩
  have hnone : ∀ m ∈ tr, ¬ MarksFailed m.op := fun m hm => not_marksFailed (by simp) (hcalls m hm)
  cases r with
  | error e => exact vouched_of_forall_not hnone
  | ok healthy =>
    cases healthy with
    | false =>
      have hlog : All (Permitted (fun _ => none) []) (perform (Call.emit
          (.log "transaction.pending.recovery.deferred.listener_stale")) : Program Unit) :=
        permitted_emit _ rfl
      exact wp_mono (fun _ _ _ h => h.prepend hnone) (wp_vouched hlog (by simp) (by simp) w₃)
    | true =>
      obtain ⟨c, m, n, rfl, -, htrusts, hcovers⟩ := hpositive rfl
      have hall : All (Permitted (fun _ => none) [.write .fail])
          (PendingRecoveryProcessor.fail transaction) := permitted_fail (by simp) _
      refine wp_mono ?_ (wp_moments (stable_covers start transaction.tokenId _)
        (safe_offIndex hall (by simp) w₃) hcovers)
      rintro tr' r' w₄ ⟨hstates, -⟩ u hu hfails
      rcases List.mem_append.mp hu with hu | hu
      · exact absurd hfails (hnone u hu)
      · exact ⟨c, m, n, [], tr', rfl, hu, htrusts, hstates u hu⟩

end Check

/-! ## When the answer can be relied upon -/

/-- The check for a token, made among the running processes. -/
def Deployment.healthCheck (D : Deployment) (tokenId : String)
    (inp : Nat → List SystemEvent × Input) (c : SystemState) : Except JsError Bool × SystemState :=
  (D.pendingRecovery.isEventListenerHealthy tokenId).run (interleave D.system) inp c

/-- **The health check is sound if the cursor has come far enough.**  Where it answers that the
listener is healthy, let `c` be the cursor that it read: if this cursor has reached the block that
was the newest to index when the staleness began, all logs up to that block have their rows.  So
have they when pending recovery fails a transaction on its word. -/
theorem healthy_sound (D : Deployment) (w : World) (hw : w.Initial) (config : EvmIndexerConfig)
    (hconfig : loadEvmIndexerConfig D.processEnv = .ok config) (es : List SystemEvent) (token : Token)
    (htoken : w.db.tokens.get (.id token.id) = some token)
    (inp : Nat → List SystemEvent × Input) :
    ((D.healthCheck token.id inp (w.start.after D.system es)).1 = .ok true →
      ∃ c m n, ownTrace D.system (D.pendingRecovery.isEventListenerHealthy token.id) inp
          (w.start.after D.system es) = [m, n] ∧
        n.state = (D.healthCheck token.id inp (w.start.after D.system es)).2.world ∧
        Trusts D.pendingRecovery token.id c m n ∧
        (n.state.indexableHead config D.pendingRecovery.listenerStalenessMs ≤ c.lastProcessedBlock →
          n.state.IndexedTo config token
            (n.state.indexableHead config D.pendingRecovery.listenerStalenessMs))) ∧
    ∀ orphan : Transaction × Wallet × Wallet, orphan.1.tokenId = token.id →
      ∀ u ∈ ownTrace D.system (D.pendingRecovery.recoverOne orphan) inp (w.start.after D.system es),
        MarksFailed u.op → ∃ c m n before after,
          ownTrace D.system (D.pendingRecovery.recoverOne orphan) inp (w.start.after D.system es) =
            before ++ m :: n :: after ∧ u ∈ after ∧ Trusts D.pendingRecovery token.id c m n ∧
          (n.state.indexableHead config D.pendingRecovery.listenerStalenessMs ≤
              c.lastProcessedBlock →
            u.state.IndexedTo config token
              (n.state.indexableHead config D.pendingRecovery.listenerStalenessMs)) := by
  have hhealthy := (index_path D hw es).2
  have hcontract := contract_after D hw es htoken
  have hinp : ∀ n, ∀ e ∈ (inp n).1, True := fun _ _ _ => trivial
  have hkept := stable_contract D.startBlock token
  have hstart := Deployment.startBlock_eq hconfig
  constructor
  · intro hok
    obtain ⟨hstates, hpositive⟩ := run_interleave_of_wp (respects_index D) hhealthy (wp_moments hkept
      (wp_isEventListenerHealthy D.pendingRecovery token.id hhealthy.inv) hcontract) hinp
    obtain ⟨c, m, n, htr, hn, htrusts, hcovers⟩ := hpositive hok
    refine ⟨c, m, n, htr, hn, htrusts, ?_⟩
    rw [← hn, hstart] at hcovers
    exact indexedTo_of_covers (hstates n (by simp [htr])) hcovers
  · intro orphan hid u hu hfails
    obtain ⟨hstates, hvouched⟩ := run_interleave_of_wp (respects_index D) hhealthy (wp_moments hkept
      (wp_recoverOne D.pendingRecovery orphan hhealthy.inv) hcontract) hinp
    obtain ⟨c, m, n, before, after, htr, hmem, htrusts, hcovers⟩ := hvouched u hu hfails
    rw [hid] at htrusts hcovers
    rw [hstart] at hcovers
    exact ⟨c, m, n, before, after, htr, hmem, htrusts,
      indexedTo_of_covers (hstates u hu) hcovers⟩

/-- A deployment that fetches one block at a time and one window in a run. -/
def Deployment.slow : Deployment :=
  { Deployment.defaults with
    processEnv := fun name =>
      if name = "EVM_LOGS_MAX_BLOCK_RANGE" || name = "EVM_INDEX_MAX_WINDOWS_PER_RUN" then some "1"
      else none }

/-- A system on a chain of three old blocks, the last of which has a transfer. -/
def World.withBacklog : World := .onChain [⟨0, []⟩, ⟨0, []⟩, ⟨0, [.sample]⟩]

/-- A listener starts, and is cut off after the first block. -/
def catchingUp : List SystemEvent :=
  .spawn (.processTokenEvents "listener" "token") :: steps 0 (List.replicate 10 {})

/-- The listener is healthy, and a transfer older than the staleness has no row. -/
theorem catchingUp_healthy :
    World.withBacklog.Initial ∧ loadEvmIndexerConfig Deployment.slow.processEnv = .ok ⟨0, 0, 1, 1⟩ ∧
    (Deployment.slow.healthCheck Token.sample.id (alone [])
      (World.withBacklog.start.after Deployment.slow.system catchingUp)).1 = .ok true ∧
    ¬ (Deployment.slow.healthCheck Token.sample.id (alone [])
      (World.withBacklog.start.after Deployment.slow.system catchingUp)).2.world.IndexedTo
        ⟨0, 0, 1, 1⟩ .sample ((Deployment.slow.healthCheck Token.sample.id (alone [])
          (World.withBacklog.start.after Deployment.slow.system
            catchingUp)).2.world.indexableHead ⟨0, 0, 1, 1⟩
              Deployment.slow.pendingRecovery.listenerStalenessMs) := by
  refine ⟨World.onChain_initial (by simp), by decide, by decide +kernel, ?_⟩
  intro h
  obtain ⟨r, hr, -⟩ := h 2 (by decide) (by decide +kernel) (.sample, 2) (by decide +kernel)
  have hnone : (Deployment.slow.healthCheck Token.sample.id (alone [])
      (World.withBacklog.start.after Deployment.slow.system
        catchingUp)).2.world.db.tokenTransfers.rows = [] := by
    decide +kernel
  rw [hnone] at hr
  cases hr

theorem healthCheck_reads (D : Deployment) (tokenId : String) (inputs : List Input)
    (c : SystemState) :
    (ownTrace D.system (D.pendingRecovery.isEventListenerHealthy tokenId) (alone inputs)
      c).head?.map (·.state) = some c.world := rfl

theorem healthy_sound_catchUp :
    (Deployment.defaults.healthCheck Token.sample.id (alone [])
      (World.withTransfer.start.after Deployment.defaults.system catchUp)).2.world.IndexedTo
        ⟨0, 0, 2000, 25⟩ .sample 1 := by
  have hcaught : (Deployment.defaults.healthCheck Token.sample.id (alone [])
        (World.withTransfer.start.after Deployment.defaults.system catchUp)).1 = .ok true ∧
      (Deployment.defaults.healthCheck Token.sample.id (alone [])
        (World.withTransfer.start.after Deployment.defaults.system catchUp)).2.world.indexableHead
          ⟨0, 0, 2000, 25⟩ Deployment.defaults.pendingRecovery.listenerStalenessMs = 1 ∧
      (World.withTransfer.start.after Deployment.defaults.system
        catchUp).world.db.tokenEventCursors.get Token.sample.id =
          some ⟨"token", 1, some 1000000, none, 0⟩ := by
    decide +kernel
  obtain ⟨hok, hhead, hcursor⟩ := hcaught
  obtain ⟨c, m, n, htr, hn, htrusts, h⟩ := (healthy_sound .defaults .withTransfer
    (World.onChain_initial (by simp)) ⟨0, 0, 2000, 25⟩ (by decide) catchUp .sample (by decide)
    (alone [])).1 hok
  have hfound := htrusts.found
  have hfirst := healthCheck_reads .defaults Token.sample.id []
    (World.withTransfer.start.after Deployment.defaults.system catchUp)
  rw [htr] at hfirst
  rw [show m.state = _ from Option.some.inj hfirst, hcursor, Option.some.injEq] at hfound
  rw [← hn] at hhead ⊢
  rw [hhead, ← hfound] at h
  exact h (by decide)

end TransactionSimulator
