import TransactionSimulator.Workers.Batches

/-!
# The account of a sweep

`Account tr done cursors summary` says what a sweep has done with its calls `tr`: which snapshots it has
checked, and by which call, which cursors it has read, and what it has counted.

* `wp_checkOne`, `wp_resolveFrontier`: one check and one cursor.
* `wp_checkBatch`, `wp_checkBatches`: a batch, and the batches of a page, lead from one account to the next.
-/

namespace TransactionSimulator

open Concurrent Relational Prog

abbrev DriftMoment := Moment DriftOp DriftInput DriftWorld

namespace BalanceDriftProcessor

/-! ## What the calls are about -/

/-- The snapshot that a call settles. -/
def check? : DriftOp → Option (String × String)
  | .reconcile request => some (request.walletId, request.tokenId)
  | .log (.no_cursor walletId tokenId) => some (walletId, tokenId)
  | _ => none

/-- The token whose cursor a call reads. -/
def read? : DriftOp → Option String
  | .findByTokenId tokenId => some tokenId
  | _ => none

/-- The call that settles a snapshot against this frontier. -/
def checkOf (row : SnapshotForReconciliation) : Option Nat → DriftOp
  | none => .log (.no_cursor row.walletId row.tokenId)
  | some frontier =>
    .reconcile
      { walletId := row.walletId, walletAddress := row.address, walletChainId := row.chainId,
        tokenId := row.tokenId, blockchain := row.blockchain, assetIdentifier := row.contractAddress,
        blockNumber := frontier }

/-- How a reconciliation counts; one that throws is no drift. -/
def verdictOf : Except JsError BalanceReconciliationResult → BalanceCheckResult
  | .error _ => .unverified
  | .ok result =>
    match result.status with
    | .MATCH => .match
    | .STALE_OBSERVATION => .stale_observation
    | .MISMATCH => .drift

/-- How the snapshot counts that a call settles. -/
def verdict (m : DriftMoment) : BalanceCheckResult :=
  match m.op with
  | .reconcile request =>
    verdictOf (BalanceReconciliationService.reconcile m.input.env m.input.registry m.input.persisted
      m.input.chain request)
  | _ => .unverified

/-- The call reads the cursor of a token and finds this frontier. -/
def CursorRead (tokenId : String) (frontier : Option Nat) (m : DriftMoment) : Prop :=
  m.op = .findByTokenId tokenId ∧ m.input.fault = none ∧ frontierOf m.input.cursor = frontier

/-- What a call compares a snapshot with has been read before. -/
def Known (past : List DriftMoment) (m : DriftMoment) : Prop :=
  ∀ row frontier, m.op = checkOf row frontier → ∃ m' ∈ past, CursorRead row.tokenId frontier m'

@[simp] theorem check?_checkOf (row : SnapshotForReconciliation) (frontier : Option Nat) :
    check? (checkOf row frontier) = some (row.walletId, row.tokenId) := by
  cases frontier <;> rfl

@[simp] theorem read?_checkOf (row : SnapshotForReconciliation) (frontier : Option Nat) :
    read? (checkOf row frontier) = none := by
  cases frontier <;> rfl

/-- Two checks that are one call are about the same token and frontier. -/
theorem checkOf_inj {row row' : SnapshotForReconciliation} {frontier frontier' : Option Nat}
    (h : checkOf row frontier = checkOf row' frontier') : row.tokenId = row'.tokenId ∧ frontier = frontier' := by
  cases frontier with
  | none =>
    cases frontier' with
    | none =>
      simp only [checkOf, DriftOp.log.injEq, DriftLog.no_cursor.injEq] at h
      exact ⟨h.2, rfl⟩
    | some frontier' => cases h
  | some frontier =>
    cases frontier' with
    | none => cases h
    | some frontier' =>
      simp only [checkOf, DriftOp.reconcile.injEq, BalanceReconciliationRequest.mk.injEq] at h
      exact ⟨h.2.2.2.1, congrArg some h.2.2.2.2.2.2⟩

theorem known_of_check?_eq_none {past : List DriftMoment} {m : DriftMoment} (h : check? m.op = none) :
    Known past m := by
  intro row frontier hop
  rw [hop, check?_checkOf] at h
  cases h

/-! ## One check and one cursor -/

variable {R : DriftWorld → DriftWorld → Prop} {w : DriftWorld}

/-- The calls of the sweep leave the state as it is, until it publishes. -/
def Still (w w' : DriftWorld) : Prop := w' = w

/-- The call of a check, and what it logs of it. -/
structure Checked (row : SnapshotForReconciliation) (frontier : Option Nat) (own : List DriftMoment)
    (m : DriftMoment) : Prop where
  calls : ∃ logs : List DriftMoment, own = m :: logs ∧ ∀ l ∈ logs, check? l.op = none ∧ read? l.op = none
  check : m.op = checkOf row frontier

theorem wp_logged (entry : DriftLog) (result : BalanceCheckResult) :
    wp DriftOp.exec R Still ((Prog.perform (DriftOp.log entry)).bind fun _ => .pure result)
      (fun tr r _ => (∃ l : DriftMoment, tr = [l] ∧ l.op = .log entry) ∧ r = .ok result) w := by
  rw [wp_bind, wp_perform]
  intro w₁ _ i
  exact ⟨rfl, ⟨_, rfl, rfl⟩, rfl⟩

theorem wp_checkOne (row : SnapshotForReconciliation) (frontier : Option Nat) :
    wp DriftOp.exec R Still (checkOne row frontier)
      (fun own r _ => ∃ m, Checked row frontier own m ∧ r = .ok (verdict m)) w := by
  cases frontier with
  | none =>
    simp only [checkOne, bind_eq, pure_eq]
    rw [wp_bind, wp_perform]
    intro w₁ _ i
    refine ⟨rfl, ⟨w₁, _, i⟩, ⟨⟨[], rfl, by simp⟩, rfl⟩, rfl⟩
  | some frontier =>
    simp only [checkOne, bind_eq, pure_eq, tryCatch_eq]
    rw [wp_tryCatch, wp_bind, wp_perform]
    intro w₁ _ i
    refine ⟨rfl, ?_⟩
    cases hr : BalanceReconciliationService.reconcile i.env i.registry i.persisted i.chain
        { walletId := row.walletId, walletAddress := row.address, walletChainId := row.chainId,
          tokenId := row.tokenId, blockchain := row.blockchain, assetIdentifier := row.contractAddress,
          blockNumber := frontier } with
    | error error =>
      have hverdict : verdict ⟨w₁, DriftOp.reconcile _, i⟩ = .unverified := congrArg verdictOf hr
      simp only [DriftOp.exec, hr]
      refine wp_mono ?_ (wp_logged _ _)
      rintro _ _ _ ⟨⟨l, rfl, hl⟩, rfl⟩
      exact ⟨_, ⟨⟨[l], rfl, by simp [hl, check?, read?]⟩, rfl⟩, by rw [hverdict]⟩
    | ok result =>
      have hverdict : verdict ⟨w₁, DriftOp.reconcile _, i⟩ = verdictOf (.ok result) := congrArg verdictOf hr
      simp only [verdictOf] at hverdict
      simp only [DriftOp.exec, hr]
      cases hstatus : result.status with
      | MATCH =>
        rw [hstatus] at hverdict
        exact ⟨_, ⟨⟨[], rfl, by simp⟩, rfl⟩, by rw [hverdict]⟩
      | STALE_OBSERVATION =>
        rw [hstatus] at hverdict
        exact ⟨_, ⟨⟨[], rfl, by simp⟩, rfl⟩, by rw [hverdict]⟩
      | MISMATCH =>
        rw [hstatus] at hverdict
        refine wp_mono ?_ (wp_logged _ _)
        rintro _ _ _ ⟨⟨l, rfl, hl⟩, rfl⟩
        exact ⟨_, ⟨⟨[l], rfl, by simp [hl, check?, read?]⟩, rfl⟩, by rw [hverdict]⟩

/-- A query of the trace has failed. -/
def Faulted (tr : List DriftMoment) : Prop := ∃ m ∈ tr, m.input.fault ≠ none

/-- A cursor is read unless the cache has it, and what is read is cached. -/
structure Resolved (cache : FrontierCache) (tokenId : String) (own : List DriftMoment)
    (entries : FrontierCache) : Prop where
  reads : own.filterMap (fun m => read? m.op) = [tokenId].filter fun t => (cache.lookup t).isNone
  keys : entries.map (fun e => e.1) = [tokenId].filter fun t => (cache.lookup t).isNone
  checks : ∀ m ∈ own, check? m.op = none
  known : ∀ e ∈ entries, ∃ m ∈ own, CursorRead e.1 e.2 m

theorem wp_resolveFrontier (cache : FrontierCache) (tokenId : String) :
    wp DriftOp.exec R Still (resolveFrontier cache tokenId)
      (fun own r _ => (∀ entries, r = .ok entries → Resolved cache tokenId own entries) ∧
        ∀ e, r = .error e → Faulted own) w := by
  rw [resolveFrontier]
  split
  · next hsome =>
    refine ⟨?_, nofun⟩
    rintro _ ⟨⟩
    have hnone : [tokenId].filter (fun t => (cache.lookup t).isNone) = [] := by
      rw [List.filter_singleton, Option.isNone_eq_false_iff.mpr hsome]
      rfl
    exact ⟨hnone.symm, hnone.symm, by simp, by simp⟩
  · next hnone =>
    simp only [bind_eq, pure_eq]
    rw [wp_bind, wp_perform]
    intro w₁ _ i
    have hkeep : [tokenId].filter (fun t => (cache.lookup t).isNone) = [tokenId] := by
      rw [Bool.not_eq_true, Option.isSome_eq_false_iff] at hnone
      rw [List.filter_singleton, hnone]
      rfl
    cases hfault : i.fault with
    | some message =>
      simp only [DriftOp.exec, hfault]
      refine ⟨rfl, nofun, ?_⟩
      rintro e -
      exact ⟨_, List.mem_singleton_self _, by simp [hfault]⟩
    | none =>
      simp only [DriftOp.exec, hfault]
      refine ⟨rfl, ?_, nofun⟩
      rintro _ ⟨⟩
      refine ⟨hkeep.symm, hkeep.symm, by simp [check?], ?_⟩
      intro e he
      rw [List.mem_singleton.mp he]
      exact ⟨_, List.mem_singleton_self _, rfl, hfault, rfl⟩

/-! ## Accounts -/

/-- What a sweep has done with its calls: the snapshots that it has checked, each with the call that settles
it, the cursors that it has read, and what it has counted. -/
structure Account (tr : List DriftMoment) (done : List (SnapshotForReconciliation × DriftMoment))
    (cursors : FrontierCache) (summary : BalanceDriftSweepSummary) : Prop where
  checks : (tr.filter fun m => (check? m.op).isSome).Perm (done.map fun d => d.2)
  each : ∀ d ∈ done, ∃ frontier, d.2.op = checkOf d.1 frontier
  reads : (tr.filterMap fun m => read? m.op).Perm (cursors.map fun c => c.1)
  once : (cursors.map fun c => c.1).Nodup
  read : ∀ c ∈ cursors, ∃ m ∈ tr, CursorRead c.1 c.2 m
  known : Throughout Known [] tr
  checked : summary.checked = done.length
  counts : ∀ blockchain result, summary.count blockchain result =
    done.countP fun d => d.1.blockchain = blockchain ∧ verdict d.2 = result

theorem account_nil : Account [] [] [] {} where
  checks := .nil
  each _ hd := absurd hd List.not_mem_nil
  reads := .nil
  once := .nil
  read _ hc := absurd hc List.not_mem_nil
  known := trivial
  checked := rfl
  counts := fun _ _ => rfl

section Accounts

variable {tr tr' : List DriftMoment} {done : List (SnapshotForReconciliation × DriftMoment)}
  {cursors : FrontierCache} {summary : BalanceDriftSweepSummary} {batch : List SnapshotForReconciliation}

/-- Calls that neither check nor read change nothing. -/
theorem Account.quiet (h : Account tr done cursors summary)
    (hquiet : ∀ m ∈ tr', check? m.op = none ∧ read? m.op = none) : Account (tr ++ tr') done cursors summary where
  checks := by
    have hnil : tr'.filter (fun m => (check? m.op).isSome) = [] := by
      rw [List.filter_eq_nil_iff]
      intro m hm
      rw [(hquiet m hm).1]
      exact Bool.false_ne_true
    rw [List.filter_append, hnil, List.append_nil]
    exact h.checks
  each := h.each
  reads := by
    have hnil : tr'.filterMap (fun m => read? m.op) = [] :=
      List.filterMap_eq_nil_iff.mpr fun m hm => (hquiet m hm).2
    rw [List.filterMap_append, hnil, List.append_nil]
    exact h.reads
  once := h.once
  read := fun c hc => (h.read c hc).imp fun m hm => ⟨List.mem_append_left _ hm.1, hm.2⟩
  known := throughout_append.mpr ⟨h.known, throughout_of_forall fun m hm _ =>
    known_of_check?_eq_none (hquiet m hm).1⟩
  checked := h.checked
  counts := h.counts

/-! ### The cursors of a batch -/

theorem nodup_eraseDups {α : Type} [BEq α] [LawfulBEq α] (l : List α) : l.eraseDups.Nodup := by
  induction hn : l.length using Nat.strongRecOn generalizing l with
  | ind n ih =>
    cases l with
    | nil => exact .nil
    | cons a l =>
      rw [List.eraseDups_cons, List.nodup_cons]
      constructor
      · rw [List.mem_eraseDups]
        simp
      · have hlt : (l.filter fun b => !b == a).length < n := by
          have hle := List.length_filter_le (fun b => !b == a) l
          rw [List.length_cons] at hn
          omega
        exact ih _ hlt _ rfl

theorem flatten_singletons {α : Type} (p : α → Bool) (l : List α) :
    (l.map fun a => [a].filter p).flatten = l.filter p := by
  induction l with
  | nil => rfl
  | cons a l ih => rw [List.map_cons, List.flatten_cons, ih, ← List.filter_append, List.singleton_append]

/-- What was read at once has been added to the cache. -/
theorem Account.resolved {tokenIds : List String} {entries : List FrontierCache}
    {all : List (String × List DriftMoment × Except JsError FrontierCache)}
    (h : Account tr done cursors summary) (hnodup : tokenIds.Nodup)
    (hall : Joined (fun t own r => (∀ entries, r = .ok entries → Resolved cursors t own entries) ∧
      ∀ e, r = .error e → Faulted own) tokenIds tr' all)
    (hok : all.map (fun d => d.2.2) = entries.map .ok) :
    Account (tr ++ tr') done (cursors ++ entries.flatten) summary ∧
      ∀ t ∈ tokenIds, t ∈ (cursors ++ entries.flatten).map fun c => c.1 := by
  let found (d : String × List DriftMoment × Except JsError FrontierCache) : FrontierCache :=
    d.2.2.toOption.getD []
  have hentries : entries = all.map found := by
    have hmap := congrArg (List.map fun r : Except JsError FrontierCache => r.toOption.getD []) hok
    rw [List.map_map, List.map_map] at hmap
    rw [← List.map_id entries]
    exact hmap.symm
  have hresolved : ∀ d ∈ all, Resolved cursors d.1 d.2.1 (found d) := by
    intro d hd
    have hmem : d.2.2 ∈ entries.map Except.ok := hok ▸ List.mem_map_of_mem hd
    obtain ⟨e, -, he⟩ := List.mem_map.mp hmem
    have hfound : found d = e := by
      show d.2.2.toOption.getD [] = e
      rw [← he]
      rfl
    rw [hfound]
    exact (hall.each d hd).1 e he.symm
  have hkeys : entries.flatten.map (fun c => c.1) = tokenIds.filter fun t => (cursors.lookup t).isNone := by
    rw [hentries, List.map_flatten, List.map_map, ← flatten_singletons, ← hall.tasks, List.map_map]
    exact congrArg List.flatten (List.map_congr_left fun d hd => (hresolved d hd).keys)
  have hreads : (tr'.filterMap fun m => read? m.op).Perm
      (tokenIds.filter fun t => (cursors.lookup t).isNone) := by
    refine (hall.filterMap_perm _).trans (.of_eq ?_)
    rw [← flatten_singletons, ← hall.tasks, List.map_map]
    exact congrArg List.flatten (List.map_congr_left fun d hd => (hresolved d hd).reads)
  have hchecks : ∀ m ∈ tr', check? m.op = none := by
    intro m hm
    obtain ⟨d, hd, hm⟩ := hall.mem_calls.mp hm
    exact (hresolved d hd).checks m hm
  refine ⟨⟨?_, h.each, ?_, ?_, ?_, ?_, h.checked, h.counts⟩, ?_⟩
  · have hnil : tr'.filter (fun m => (check? m.op).isSome) = [] := by
      rw [List.filter_eq_nil_iff]
      intro m hm
      rw [hchecks m hm]
      exact Bool.false_ne_true
    rw [List.filter_append, hnil, List.append_nil]
    exact h.checks
  · rw [List.filterMap_append, List.map_append, hkeys]
    exact h.reads.append hreads
  · rw [List.map_append, hkeys]
    refine List.nodup_append'.mpr ⟨h.once, hnodup.filter _, ?_⟩
    -- what is read now was not in the cache
    intro t ht ht'
    obtain ⟨c, hc, rfl⟩ := List.mem_map.mp ht
    have hnone := Option.isNone_iff_eq_none.mp (List.mem_filter.mp ht').2
    rw [List.lookup_eq_none_iff] at hnone
    simpa using hnone c hc
  · intro c hc
    rcases List.mem_append.mp hc with hc | hc
    · exact (h.read c hc).imp fun m hm => ⟨List.mem_append_left _ hm.1, hm.2⟩
    · rw [hentries, List.mem_flatten] at hc
      obtain ⟨l, hl, hc⟩ := hc
      obtain ⟨d, hd, rfl⟩ := List.mem_map.mp hl
      obtain ⟨m, hm, hread⟩ := (hresolved d hd).known c hc
      exact ⟨m, List.mem_append_right _ (hall.mem_calls.mpr ⟨d, hd, hm⟩), hread⟩
  · exact throughout_append.mpr ⟨h.known, throughout_of_forall fun m hm _ =>
      known_of_check?_eq_none (hchecks m hm)⟩
  · intro t ht
    rw [List.map_append, List.mem_append, hkeys, List.mem_filter]
    cases hlookup : cursors.lookup t with
    | none => exact .inr ⟨ht, rfl⟩
    | some frontier =>
      left
      obtain ⟨l₁, l₂, rfl, -⟩ := List.lookup_eq_some_iff.mp hlookup
      simp

/-! ### The checks of a batch -/

theorem count_tally (blockchain b : Blockchain) (result r : BalanceCheckResult) :
    (tally summary blockchain result).count b r =
      summary.count b r + if blockchain = b ∧ result = r then 1 else 0 := by
  rw [BalanceDriftSweepSummary.count, tally]
  by_cases hb : b = blockchain
  · subst hb
    simp only [if_true, Option.getD_some, true_and]
    by_cases hr : r = result
    · rw [if_pos hr, if_pos hr.symm]
    · rw [if_neg hr, if_neg (Ne.symm hr)]
  · simp only [if_neg hb, if_neg (show ¬ (blockchain = b ∧ result = r) from fun h => hb h.1.symm), Nat.add_zero]
    rfl

theorem checked_foldl_tally (l : List (SnapshotForReconciliation × BalanceCheckResult)) :
    (l.foldl (fun s c => tally s c.1.blockchain c.2) summary).checked = summary.checked + l.length := by
  induction l generalizing summary with
  | nil => rfl
  | cons c l ih =>
    rw [List.foldl_cons, ih, tally, List.length_cons]
    dsimp only
    omega

theorem count_foldl_tally (l : List (SnapshotForReconciliation × BalanceCheckResult)) (b : Blockchain)
    (r : BalanceCheckResult) :
    (l.foldl (fun s c => tally s c.1.blockchain c.2) summary).count b r =
      summary.count b r + l.countP fun c => c.1.blockchain = b ∧ c.2 = r := by
  induction l generalizing summary with
  | nil => rfl
  | cons c l ih =>
    rw [List.foldl_cons, ih, count_tally, List.countP_cons]
    simp only [decide_eq_true_eq]
    omega

/-- The calls of the checks of a batch. -/
theorem exists_moments (cursor : SnapshotForReconciliation → Option Nat)
    {all : List (SnapshotForReconciliation × List DriftMoment × Except JsError BalanceCheckResult)}
    (h : ∀ d ∈ all, ∃ m, Checked d.1 (cursor d.1) d.2.1 m ∧ d.2.2 = .ok (verdict m)) :
    ∃ ms : List DriftMoment, ms.length = all.length ∧
      (all.map fun d => d.2.1.filter fun m => (check? m.op).isSome).flatten = ms ∧
      (all.map fun d => d.2.1.filterMap fun m => read? m.op).flatten = [] ∧
      all.map (fun d => d.2.2) = ms.map (fun m => .ok (verdict m)) ∧
      ∀ c ∈ (all.map fun d => d.1).zip ms, c.2.op = checkOf c.1 (cursor c.1) := by
  induction all with
  | nil => exact ⟨[], rfl, rfl, rfl, rfl, by simp⟩
  | cons d all ih =>
    obtain ⟨m, hm, hd⟩ := h d List.mem_cons_self
    obtain ⟨ms, hlen, hchecks, hreads, hoc, hops⟩ := ih fun d hd => h d (List.mem_cons_of_mem _ hd)
    obtain ⟨logs, hown, hlogs⟩ := hm.calls
    have hlogs₁ : logs.filter (fun m => (check? m.op).isSome) = [] := by
      rw [List.filter_eq_nil_iff]
      intro l hl
      rw [(hlogs l hl).1]
      exact Bool.false_ne_true
    have hlogs₂ : logs.filterMap (fun m => read? m.op) = [] :=
      List.filterMap_eq_nil_iff.mpr fun l hl => (hlogs l hl).2
    refine ⟨m :: ms, by rw [List.length_cons, List.length_cons, hlen], ?_, ?_, ?_, ?_⟩
    · rw [List.map_cons, List.flatten_cons, hchecks, hown, List.filter_cons_of_pos (by simp [hm.check]), hlogs₁,
        List.singleton_append]
    · rw [List.map_cons, List.flatten_cons, hreads, hown, List.filterMap_cons_none (by simp [hm.check]), hlogs₂,
        List.append_nil]
    · rw [List.map_cons, List.map_cons, hoc, hd]
    · rw [List.map_cons, List.zip_cons_cons]
      exact List.forall_mem_cons.mpr ⟨hm.check, hops⟩

/-- What was checked at once has been counted. -/
theorem Account.counted {results : List BalanceCheckResult}
    {all : List (SnapshotForReconciliation × List DriftMoment × Except JsError BalanceCheckResult)}
    (h : Account tr done cursors summary) (hread : ∀ row ∈ batch, row.tokenId ∈ cursors.map fun c => c.1)
    (hall : Joined (fun (row : SnapshotForReconciliation) own r =>
      ∃ m, Checked row (cursors.lookup row.tokenId).join own m ∧ r = .ok (verdict m)) batch tr' all)
    (hok : all.map (fun d => d.2.2) = results.map .ok) :
    ∃ ms : List DriftMoment, ms.length = batch.length ∧
      Account (tr ++ tr') (done ++ batch.zip ms) cursors
        ((batch.zip results).foldl (fun s c => tally s c.1.blockchain c.2) summary) := by
  obtain ⟨ms, hlen, hchecks, hreads, hoc, hops⟩ :=
    exists_moments (fun row => (cursors.lookup row.tokenId).join) hall.each
  have hbatch : batch.length = all.length := by rw [← hall.tasks, List.length_map]
  rw [hall.tasks] at hops
  have hperm : (tr'.filter fun m => (check? m.op).isSome).Perm ms := by
    have hperm := hall.calls.filter fun m => (check? m.op).isSome
    rw [List.filter_flatten, List.map_map] at hperm
    exact hperm.trans (.of_eq hchecks)
  have hnone : tr'.filterMap (fun m => read? m.op) = [] := by
    have hperm := hall.filterMap_perm fun m => read? m.op
    rw [hreads] at hperm
    exact hperm.eq_nil
  have hresults : results = ms.map verdict := by
    rw [hok] at hoc
    have hinj : Function.Injective (Except.ok : BalanceCheckResult → Except JsError BalanceCheckResult) :=
      fun _ _ h => Except.ok.inj h
    refine (List.map_injective_iff.mpr hinj) ?_
    rw [hoc, List.map_map]
    rfl
  have hzip : (batch.zip ms).map (fun d => d.2) = ms := List.map_snd_zip (by omega)
  refine ⟨ms, by omega, ?_, ?_, ?_, h.once, ?_, ?_, ?_, ?_⟩
  · rw [List.filter_append, List.map_append, hzip]
    exact h.checks.append hperm
  · intro d hd
    rcases List.mem_append.mp hd with hd | hd
    · exact h.each d hd
    · exact ⟨_, hops d hd⟩
  · rw [List.filterMap_append, hnone, List.append_nil]
    exact h.reads
  · exact fun c hc => (h.read c hc).imp fun m hm => ⟨List.mem_append_left _ hm.1, hm.2⟩
  · refine throughout_append.mpr ⟨h.known, throughout_of_since ?_⟩
    intro m hm since row frontier hop
    -- the call is one of the checks of the batch, and its cursor is in the cache
    have hcheck : m ∈ tr'.filter fun m => (check? m.op).isSome :=
      List.mem_filter.mpr ⟨hm, by rw [hop, check?_checkOf]; rfl⟩
    rw [hperm.mem_iff, ← hzip] at hcheck
    obtain ⟨d, hd, rfl⟩ := List.mem_map.mp hcheck
    obtain ⟨htoken, hfrontier⟩ := checkOf_inj ((hops d hd).symm.trans hop)
    obtain ⟨c, hc, hkey⟩ := List.mem_map.mp (hread d.1 (List.of_mem_zip hd).1)
    obtain ⟨found, hfound⟩ : ∃ found, cursors.lookup d.1.tokenId = some found := by
      rw [← Option.isSome_iff_exists, List.lookup_isSome_iff]
      exact ⟨c, hc, by rw [hkey]; exact beq_self_eq_true _⟩
    obtain ⟨l₁, l₂, rfl, -⟩ := List.lookup_eq_some_iff.mp hfound
    obtain ⟨m', hm', hread'⟩ := h.read (d.1.tokenId, found) (by simp)
    refine ⟨m', List.mem_append_left _ hm', ?_⟩
    rw [hfound, Option.join_some] at hfrontier
    rw [← htoken, ← hfrontier]
    exact hread'
  · rw [checked_foldl_tally, h.checked, List.length_append, List.length_zip, List.length_zip, hresults,
      List.length_map]
  · intro b r
    rw [count_foldl_tally, h.counts, List.countP_append, hresults, List.zip_map_right, List.countP_map]
    rfl

end Accounts

/-! ## Batches -/

section Batches

variable {tr : List DriftMoment} {done : List (SnapshotForReconciliation × DriftMoment)}
  {cursors : FrontierCache} {summary : BalanceDriftSweepSummary} {batch page : List SnapshotForReconciliation}

theorem Faulted.of_mem {own tr : List DriftMoment} (h : Faulted own) (hsub : ∀ m ∈ own, m ∈ tr) : Faulted tr :=
  h.imp fun m hm => ⟨hsub m hm.1, hm.2⟩

/-- **A batch** leads from one account to the next, or a query of it has failed. -/
theorem wp_checkBatch (hR : ∀ w w', Still w w' → R w w') (turns : BatchTurns)
    (h : Account tr done cursors summary) :
    wp DriftOp.exec R Still (checkBatch turns batch cursors summary)
      (fun tr' r _ => (∀ out, r = .ok out → ∃ ms : List DriftMoment, ms.length = batch.length ∧
        Account (tr ++ tr') (done ++ batch.zip ms) out.1 out.2) ∧ ∀ e, r = .error e → Faulted tr') w := by
  simp only [checkBatch, bind_eq, pure_eq]
  refine wp_bind.mpr (wp_mono ?_ (wp_promiseAll_map hR turns.frontiers fun t _ => wp_resolveFrontier cursors t))
  rintro tr₁ r w₁ ⟨all, hall, hr⟩
  cases hset : settled (all.map fun d => d.2.2) with
  | error e =>
    rw [hset] at hr
    subst hr
    obtain ⟨d, hd, hde⟩ := List.mem_map.mp (mem_of_settled_eq_error hset)
    refine ⟨nofun, fun _ _ => ((hall.each d hd).2 e hde).of_mem ?_⟩
    exact fun m hm => hall.mem_calls.mpr ⟨d, hd, hm⟩
  | ok entries =>
    rw [hset] at hr
    subst hr
    obtain ⟨hacc, hread⟩ := h.resolved (nodup_eraseDups _) hall (settled_eq_ok hset)
    have hrows : ∀ row ∈ batch, row.tokenId ∈ (cursors ++ entries.flatten).map fun c => c.1 := by
      intro row hrow
      exact hread _ (List.mem_eraseDups.mpr (List.mem_map_of_mem hrow))
    refine wp_bind.mpr (wp_mono ?_ (wp_promiseAll_map hR turns.checks fun row _ =>
      wp_checkOne row ((cursors ++ entries.flatten).lookup row.tokenId).join))
    rintro tr₂ r w₂ ⟨all', hall', hr⟩
    cases hset' : settled (all'.map fun d => d.2.2) with
    | error e =>
      -- no check throws
      obtain ⟨d, hd, hde⟩ := List.mem_map.mp (mem_of_settled_eq_error hset')
      obtain ⟨m, -, hm⟩ := hall'.each d hd
      rw [hde] at hm
      cases hm
    | ok results =>
      rw [hset'] at hr
      subst hr
      obtain ⟨ms, hlen, hacc'⟩ := hacc.counted hrows hall' (settled_eq_ok hset')
      refine ⟨?_, nofun⟩
      rintro _ ⟨⟩
      rw [List.append_nil, ← List.append_assoc]
      exact ⟨ms, hlen, hacc'⟩

/-- What the batches of a page come to: all of them have been checked, if there are not too many. -/
structure Batched (batched : Option (List (List SnapshotForReconciliation))) (tr tr' : List DriftMoment)
    (done : List (SnapshotForReconciliation × DriftMoment))
    (r : Except JsError (Option (FrontierCache × BalanceDriftSweepSummary))) : Prop where
  failed : ∀ e, r = .error e → Faulted tr'
  endless : r = .ok none → batched = none
  ended : ∀ cursors summary, r = .ok (some (cursors, summary)) →
    ∃ (bs : List (List SnapshotForReconciliation)) (ms : List DriftMoment), batched = some bs ∧
      ms.length = bs.flatten.length ∧ Account (tr ++ tr') (done ++ bs.flatten.zip ms) cursors summary

/-- **The batches of a page.** -/
theorem wp_checkBatches (hR : ∀ w w', Still w w' → R w w') (processor : BalanceDriftProcessor)
    (turns : Nat → BatchTurns) (rounds : Nat) (i : Js.Number) (h : Account tr done cursors summary) :
    wp DriftOp.exec R Still (processor.checkBatches turns page rounds i cursors summary)
      (fun tr' r _ => Batched (batches processor.concurrency page rounds i) tr tr' done r) w := by
  induction rounds generalizing turns i tr done cursors summary w with
  | zero => exact ⟨(fun _ h => by cases h), fun _ => rfl, (fun _ _ h => by cases h)⟩
  | succ rounds ih =>
    rw [checkBatches, batches]
    split
    · simp only [bind_eq]
      refine wp_bind.mpr (wp_mono ?_ (wp_checkBatch hR (turns 0) h))
      rintro tr₁ r w₁ ⟨hok, herror⟩
      cases r with
      | error e => exact ⟨fun _ _ => herror e rfl, (fun h => by cases h), (fun _ _ h => by cases h)⟩
      | ok out =>
        obtain ⟨ms, hlen, hacc⟩ := hok out rfl
        refine wp_mono ?_ (ih (fun n => turns (n + 1)) (i.add processor.concurrency) hacc)
        rintro tr₂ r w₂ hrest
        refine ⟨?_, ?_, ?_⟩
        · exact fun e he => (hrest.failed e he).of_mem fun m hm => List.mem_append_right _ hm
        · intro hr
          rw [hrest.endless hr, Option.map_none]
        · intro cursors' summary' hr
          obtain ⟨bs, ms', hbs, hlen', hacc'⟩ := hrest.ended cursors' summary' hr
          refine ⟨_ :: bs, ms ++ ms', by rw [hbs, Option.map_some], ?_, ?_⟩
          · rw [List.length_append, List.flatten_cons, List.length_append, hlen, hlen']
          · rw [List.flatten_cons, List.zip_append hlen.symm, ← List.append_assoc, ← List.append_assoc]
            exact hacc'
    · refine ⟨(fun _ h => by cases h), (fun h => by cases h), ?_⟩
      rintro _ _ ⟨⟩
      refine ⟨[], [], rfl, rfl, ?_⟩
      rw [List.append_nil, List.flatten_nil, List.zip_nil_left, List.append_nil]
      exact h

end Batches

end BalanceDriftProcessor

end TransactionSimulator
