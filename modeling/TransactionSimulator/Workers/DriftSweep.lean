import TransactionSimulator.Workers.Checks

/-!
# A sweep while snapshots are inserted

The others insert snapshots between any two calls of the sweep.  A sweep whose settings are integers from 1
on checks every snapshot that was there at its start exactly once, reads each cursor at most once and before
the snapshots of its token are compared, and publishes what it has counted.

* `Sofar`: what the pages up to a snapshot have brought, kept by `wp_sweepPages`.
* `wp_publish`: the gauges after a sweep.
* `sweep_ends`: what a sweep comes to, whether it returns or fails.
* `sweep_checks_once`, `sweep_reconciles`: a sweep that returns, and that it does return.
-/

namespace TransactionSimulator

open Concurrent Relational Prog

/-- The others insert snapshots, and nothing else. -/
structure Grows (w w' : DriftWorld) : Prop where
  rows : ∀ row ∈ w.snapshots.rows, row ∈ w'.snapshots.rows
  gauges : w'.balanceReconciliationSnapshots = w.balanceReconciliationSnapshots
  timestamp : w'.balanceReconciliationLastSweepTimestamp = w.balanceReconciliationLastSweepTimestamp

theorem Grows.refl (w : DriftWorld) : Grows w w := ⟨fun _ h => h, rfl, rfl⟩

namespace DriftWorld

variable {w : DriftWorld} {row row' : SnapshotForReconciliation}

theorem eq_of_key (key : SnapshotKey) (hrow : row ∈ w.snapshots.rows) (hrow' : row' ∈ w.snapshots.rows)
    (h : key ∈ row.keys) (h' : key ∈ row'.keys) : row = row' := by
  have hget := w.snapshots.get_eq_some_iff.mpr ⟨hrow, h⟩
  rw [w.snapshots.get_eq_some_iff.mpr ⟨hrow', h'⟩, Option.some.injEq] at hget
  exact hget.symm

theorem eq_of_pair (hrow : row ∈ w.snapshots.rows) (hrow' : row' ∈ w.snapshots.rows)
    (h : (row.walletId, row.tokenId) = (row'.walletId, row'.tokenId)) : row = row' := by
  refine eq_of_key (.walletToken row.walletId row.tokenId) hrow hrow'
    (List.mem_cons_of_mem _ (List.mem_singleton_self _)) ?_
  rw [(Prod.mk.inj h).1, (Prod.mk.inj h).2]
  exact List.mem_cons_of_mem _ (List.mem_singleton_self _)

theorem keyed (w : DriftWorld) : Paging.Keyed (fun row => row.id) w.snapshots.rows := by
  intro a ha b hb h
  have hid : a.id = b.id := h
  refine eq_of_key (.id a.id) ha hb List.mem_cons_self ?_
  rw [hid]
  exact List.mem_cons_self

theorem nodup_rows (w : DriftWorld) : w.snapshots.rows.Nodup :=
  w.snapshots.nodup_rows fun _ => List.cons_ne_nil _ _

/-- The rows behind a row that exists, or before it. -/
theorem page_eq {afterId : Option String} (hanchor : ∀ k ∈ afterId, ∃ row ∈ w.snapshots.rows, row.id = k)
    (take : Int) :
    w.page (if Js.isFalsy afterId then none else afterId) take =
      if 0 ≤ take then Paging.next (fun row => row.id) w.snapshots.rows afterId take.toNat
      else Paging.previous (fun row => row.id) w.snapshots.rows afterId take.natAbs := by
  have hfalsy : (if Js.isFalsy afterId then none else afterId) = afterId := by
    cases afterId with
    | none => exact ite_self _
    | some k =>
      obtain ⟨row, hrow, rfl⟩ := hanchor k rfl
      exact if_neg fun hempty => w.named row hrow (by simpa [Js.isFalsy] using hempty)
  have hall : (afterId.all fun id => (w.snapshots.get (.id id)).isSome) = true := by
    cases afterId with
    | none => rfl
    | some k =>
      obtain ⟨row, hrow, rfl⟩ := hanchor k rfl
      rw [Option.all_some, w.snapshots.get_eq_some_iff.mpr ⟨hrow, List.mem_cons_self⟩]
      rfl
  rw [hfalsy, DriftWorld.page, if_pos hall]

end DriftWorld

namespace BalanceDriftProcessor

/-! ## Pages -/

/-- What the pages up to `afterId` have brought: every row up to there that was there at the start, and no
row twice. -/
structure Sofar (start : DriftWorld) (afterId : Option String) (done : List SnapshotForReconciliation)
    (w : DriftWorld) : Prop where
  grown : ∀ row ∈ start.snapshots.rows, row ∈ w.snapshots.rows
  nodup : done.Nodup
  mem : ∀ row ∈ done, row ∈ w.snapshots.rows ∧ ∃ k ∈ afterId, row.id ≤ k
  covers : ∀ k ∈ afterId, ∀ row ∈ start.snapshots.rows, row.id ≤ k → row ∈ done
  anchor : ∀ k ∈ afterId, ∃ row ∈ w.snapshots.rows, row.id = k

theorem sofar_start (w : DriftWorld) : Sofar w none [] w :=
  ⟨fun _ h => h, .nil, fun _ h => absurd h List.not_mem_nil, nofun, nofun⟩

section Sofar

variable {start w w' : DriftWorld} {afterId : Option String} {done : List SnapshotForReconciliation} {n : Nat}

theorem Sofar.of_rows (h : Sofar start afterId done w)
    (hrows : ∀ row ∈ w.snapshots.rows, row ∈ w'.snapshots.rows) : Sofar start afterId done w' where
  grown := fun row hrow => hrows row (h.grown row hrow)
  nodup := h.nodup
  mem := fun row hrow => ⟨hrows row (h.mem row hrow).1, (h.mem row hrow).2⟩
  covers := h.covers
  anchor := fun k hk => (h.anchor k hk).imp fun row hrow => ⟨hrows row hrow.1, hrow.2⟩

theorem Sofar.page_eq (h : Sofar start afterId done w) (n : Nat) :
    w.page (if Js.isFalsy afterId then none else afterId) n =
      Paging.next (fun row => row.id) w.snapshots.rows afterId n := by
  rw [w.page_eq h.anchor, if_pos (Int.natCast_nonneg n), Int.toNat_natCast]

theorem Sofar.done_or_behind (h : Sofar start afterId done w) {row : SnapshotForReconciliation}
    (hrow : row ∈ start.snapshots.rows) : row ∈ done ∨ ∀ k ∈ afterId, k < row.id := by
  cases afterId with
  | none => exact .inr nofun
  | some k =>
    rcases lt_or_ge k row.id with hlt | hle
    · exact .inr fun k' hk' => by cases hk'; exact hlt
    · exact .inl (h.covers k rfl row hrow hle)

/-- **The last page.** -/
theorem Sofar.last (h : Sofar start afterId done w)
    (hlen : (Paging.next (fun row => row.id) w.snapshots.rows afterId n).length < n) :
    ∀ row ∈ start.snapshots.rows, row ∈ done ++ Paging.next (fun row => row.id) w.snapshots.rows afterId n := by
  intro row hrow
  rw [List.mem_append]
  rcases h.done_or_behind hrow with hdone | hbehind
  · exact .inl hdone
  · right
    rcases Paging.mem_next_or_behind (n := n) (h.grown row hrow) hbehind with hmem | ⟨hfull, -⟩
    · exact hmem
    · exact absurd hfull.ge (Nat.not_le.mpr hlen)

/-- **One page more.** -/
theorem Sofar.next (h : Sofar start afterId done w) {last : SnapshotForReconciliation}
    (hlast : (Paging.next (fun row => row.id) w.snapshots.rows afterId n).getLast? = some last) :
    Sofar start (some last.id) (done ++ Paging.next (fun row => row.id) w.snapshots.rows afterId n) w where
  grown := h.grown
  nodup := by
    refine List.nodup_append'.mpr ⟨h.nodup, Paging.nodup_next w.nodup_rows, ?_⟩
    intro row hdone hpage
    obtain ⟨k, hk, hle⟩ := (h.mem row hdone).2
    have hlt := (Paging.mem_of_mem_next hpage).2 k hk
    exact absurd hlt (not_lt.mpr hle)
  mem := by
    intro row hrow
    rcases List.mem_append.mp hrow with hrow | hrow
    · obtain ⟨hmem, k, hk, hle⟩ := h.mem row hrow
      have hlt := (Paging.mem_of_mem_next (List.mem_of_getLast? hlast)).2 k hk
      exact ⟨hmem, _, rfl, hle.trans (le_of_lt hlt)⟩
    · exact ⟨(Paging.mem_of_mem_next hrow).1, _, rfl, Paging.le_getLast_next hlast row hrow⟩
  covers := by
    intro k hk row hrow hle
    cases hk
    rw [List.mem_append]
    rcases h.done_or_behind hrow with hdone | hbehind
    · exact .inl hdone
    · exact .inr ((Paging.mem_next_iff w.keyed hlast (h.grown row hrow) hbehind).mpr hle)
  anchor := by
    intro k hk
    cases hk
    exact ⟨last, (Paging.mem_of_mem_next (List.mem_of_getLast? hlast)).1, rfl⟩

theorem Sofar.length_le (h : Sofar start afterId done w) : done.length ≤ w.snapshots.rows.length :=
  (h.nodup.subperm fun row hrow => (h.mem row hrow).1).length_le

end Sofar

/-- Every row of the start has been checked, and no row twice. -/
structure Exhaustive (start : DriftWorld) (done : List SnapshotForReconciliation) (w : DriftWorld) : Prop where
  nodup : done.Nodup
  mem : ∀ row ∈ done, row ∈ w.snapshots.rows
  all : ∀ row ∈ start.snapshots.rows, row ∈ done

theorem Exhaustive.of_rows {start w w' : DriftWorld} {done : List SnapshotForReconciliation}
    (h : Exhaustive start done w) (hrows : ∀ row ∈ w.snapshots.rows, row ∈ w'.snapshots.rows) :
    Exhaustive start done w' :=
  ⟨h.nodup, fun row hrow => hrows row (h.mem row hrow), h.all⟩

section Pages

variable {processor : BalanceDriftProcessor} {pageSize concurrency : Nat} {start w : DriftWorld}
  {tr : List DriftMoment} {done : List (SnapshotForReconciliation × DriftMoment)} {cursors : FrontierCache}
  {summary : BalanceDriftSweepSummary} {afterId : Option String}

/-- A query fails: the database does, or the size of a page is rejected, or a page is too long for an array. -/
def Unanswered (pageSize : Nat) (tr : List DriftMoment) (w : DriftWorld) : Prop :=
  Faulted tr ∨ 2 ^ 63 ≤ pageSize ∨ 2 ^ 32 ≤ min pageSize w.snapshots.rows.length

theorem Unanswered.of_mem {own : List DriftMoment} (h : Unanswered pageSize own w) (hsub : ∀ m ∈ own, m ∈ tr) :
    Unanswered pageSize tr w :=
  h.imp_left fun h => h.of_mem hsub

/-- What the pages come to. -/
structure Paged (pageSize : Nat) (start : DriftWorld) (pages rounds : Nat) (tr : List DriftMoment)
    (done : List (SnapshotForReconciliation × DriftMoment)) (tr' : List DriftMoment)
    (r : Except JsError (Option BalanceDriftSweepSummary)) (w' : DriftWorld) : Prop where
  failed : ∀ e, r = .error e → Unanswered pageSize tr' w'
  endless : r = .ok none → pages + done.length ≤ w'.snapshots.rows.length ∨ rounds ≤ w'.snapshots.rows.length
  ended : ∀ summary, r = .ok (some summary) →
    ∃ (done' : List (SnapshotForReconciliation × DriftMoment)) (cursors : FrontierCache),
      Account (tr ++ tr') done' cursors summary ∧ Exhaustive start (done'.map fun d => d.1) w'

/-- A query answers with a page of the rows that are there, or fails. -/
theorem exec_findMany (afterId : Option String) (take : Int) (i : DriftInput) (w : DriftWorld) :
    (DriftOp.exec (DriftOp.findMany afterId take) i w).2 = w ∧
      (∀ page, (DriftOp.exec (DriftOp.findMany afterId take) i w).1 = .ok page →
        page = w.page afterId take ∧ page.length < 2 ^ 32) ∧
      ∀ e, (DriftOp.exec (DriftOp.findMany afterId take) i w).1 = .error e →
        i.fault ≠ none ∨ 2 ^ 32 ≤ (w.page afterId take).length := by
  rw [DriftOp.exec]
  split
  · next hfault =>
    refine ⟨rfl, (fun _ h => by cases h), fun _ _ => .inl ?_⟩
    rw [hfault]
    exact Option.some_ne_none _
  · split
    · next hlen => exact ⟨rfl, (fun _ h => by cases h), fun _ _ => .inr hlen⟩
    · next hlen =>
      refine ⟨rfl, ?_, (fun _ h => by cases h)⟩
      rintro _ ⟨⟩
      exact ⟨rfl, Nat.not_le.mp hlen⟩

/-- A page, or no page: the query has failed. -/
theorem wp_findPage (h : Sofar start afterId (done.map fun d => d.1) w) (n : Nat) :
    wp DriftOp.exec Grows Still (BalanceRepository.findPageForReconciliation afterId (.finite n))
      (fun tr r w' => (∀ m ∈ tr, check? m.op = none ∧ read? m.op = none) ∧
        (∀ page, r = .ok page → Sofar start afterId (done.map fun d => d.1) w' ∧
          page = Paging.next (fun row => row.id) w'.snapshots.rows afterId n ∧ page.length < 2 ^ 32) ∧
        ∀ e, r = .error e → Unanswered n tr w') w := by
  have hint : (Js.Number.finite n).trunc? = some (n : Int) := Js.Number.trunc?_natCast n
  simp only [BalanceRepository.findPageForReconciliation, TransactionRepository.intArgument, hint, bind_eq]
  split
  · refine wp_bind.mpr (wp_ofExcept.mpr (wp_perform.mpr ?_))
    intro w₁ hw₁ i
    have hrows : ∀ row ∈ w.snapshots.rows, row ∈ w₁.snapshots.rows := by
      induction hw₁ with
      | refl => exact fun _ hrow => hrow
      | tail _ hs ih => exact fun row hrow => hs.rows row (ih row hrow)
    have h₁ := h.of_rows hrows
    obtain ⟨hstill, hanswer, hfails⟩ := exec_findMany (if Js.isFalsy afterId then none else afterId) n i w₁
    refine ⟨hstill, by simp [check?, read?], ?_, ?_⟩
    · intro page hpage
      obtain ⟨rfl, hlen⟩ := hanswer page hpage
      rw [hstill]
      exact ⟨h₁, h₁.page_eq n, hlen⟩
    · intro e he
      rw [hstill]
      rcases hfails e he with hfault | hlong
      · exact .inl ⟨_, List.mem_singleton_self _, hfault⟩
      · rw [h₁.page_eq n, Paging.length_next] at hlong
        exact .inr (.inr (hlong.trans (min_le_min_left n List.countP_le_length)))
  · next hunfit =>
    refine wp_bind.mpr (wp_ofExcept.mpr ⟨by simp, (fun _ h => by cases h), fun _ _ => .inr (.inl ?_)⟩)
    by_contra hlt
    exact hunfit (fitsBigInt_iff.mpr ⟨by omega, by omega⟩)

theorem still_grows (w w' : DriftWorld) (h : Still w w') : Grows w w' := by
  rw [show w' = w from h]
  exact Grows.refl w

theorem sofar_stable (start : DriftWorld) (afterId : Option String) (done : List SnapshotForReconciliation) :
    Stable Grows Still (Sofar start afterId done) where
  rely _ _ hw h := h.of_rows hw.rows
  guarantee _ _ hw h := h.of_rows (still_grows _ _ hw).rows

/-- The batches of a page check every row of it once. -/
theorem wp_pageBatches (hconcurrency : processor.concurrency = .finite concurrency) (hstep : 1 ≤ concurrency)
    (turns : Nat → BatchTurns) (rounds : Nat) {page : List SnapshotForReconciliation}
    (hacc : Account tr done cursors summary) (hlen : page.length < 2 ^ 32)
    (h : Sofar start afterId ((done.map fun d => d.1) ++ page) w) :
    wp DriftOp.exec Grows Still (processor.checkBatches turns page rounds (.finite 0) cursors summary)
      (fun tr' r w' => (∀ e, r = .error e → Faulted tr') ∧ (r = .ok none → rounds ≤ w'.snapshots.rows.length) ∧
        ∀ cursors summary, r = .ok (some (cursors, summary)) →
          ∃ ms : List DriftMoment, ms.length = page.length ∧
            Account (tr ++ tr') (done ++ page.zip ms) cursors summary ∧
            Sofar start afterId ((done ++ page.zip ms).map fun d => d.1) w') w := by
  refine wp_mono ?_ (wp_keeps (sofar_stable _ _ _)
    (wp_checkBatches still_grows processor turns rounds (.finite 0) hacc) h)
  rintro tr' r w' ⟨hbatched, h'⟩
  rw [hconcurrency, show (0 : Rat) = ((0 : Nat) : Rat) from Nat.cast_zero.symm] at hbatched
  refine ⟨hbatched.failed, ?_, ?_⟩
  · intro hr
    have hrounds := length_le_of_batches_eq_none hstep (by omega) (hbatched.endless hr)
    have hle := h'.length_le
    rw [List.length_append] at hle
    omega
  · intro cursors' summary' hr
    obtain ⟨bs, ms, hbs, hms, hacc'⟩ := hbatched.ended cursors' summary' hr
    have hflat := flatten_batches (by omega) hbs
    rw [List.drop_zero] at hflat
    rw [hflat] at hms hacc'
    refine ⟨ms, hms, hacc', ?_⟩
    rw [List.map_append, List.map_fst_zip hms.ge]
    exact h'

/-- **The pages of a sweep.** -/
theorem wp_sweepPages (hsize : processor.pageSize = .finite pageSize) (hpage : 1 ≤ pageSize)
    (hconcurrency : processor.concurrency = .finite concurrency) (hstep : 1 ≤ concurrency)
    (turns : Nat → Nat → BatchTurns) (rounds pages : Nat) (hacc : Account tr done cursors summary)
    (h : Sofar start afterId (done.map fun d => d.1) w) :
    wp DriftOp.exec Grows Still (processor.sweepPages turns rounds pages afterId cursors summary)
      (Paged pageSize start pages rounds tr done) w := by
  induction pages generalizing turns afterId tr done cursors summary w with
  | zero =>
    refine ⟨nofun, fun _ => .inl ?_, nofun⟩
    have hle := h.length_le
    rw [List.length_map] at hle
    omega
  | succ pages ih =>
    rw [sweepPages, hsize]
    simp only [bind_eq]
    refine wp_bind.mpr (wp_mono ?_ (wp_findPage h pageSize))
    rintro tr₁ r w₁ ⟨hquiet, hr, hfails⟩
    cases r with
    | error e => exact ⟨fun _ _ => hfails e rfl, nofun, nofun⟩
    | ok page =>
      obtain ⟨h₁, hpage_eq, hlen⟩ := hr page rfl
      have hacc₁ := hacc.quiet hquiet
      dsimp only
      split
      · -- no page is left
        next hempty =>
        refine ⟨nofun, nofun, ?_⟩
        rintro _ ⟨⟩
        refine ⟨done, cursors, ?_, h₁.nodup, fun row hrow => (h₁.mem row hrow).1, ?_⟩
        · rw [List.append_nil]
          exact hacc₁
        · have hnil := List.isEmpty_iff.mp hempty
          have hlast := h₁.last (n := pageSize) (by rw [← hpage_eq, hnil]; exact hpage)
          rw [← hpage_eq, hnil, List.append_nil] at hlast
          exact hlast
      · next hempty =>
        rw [List.isEmpty_iff] at hempty
        obtain ⟨last, hlast⟩ : ∃ last, page.getLast? = some last :=
          ⟨_, List.getLast?_eq_some_getLast hempty⟩
        have hnext := h₁.next (hpage_eq ▸ hlast)
        rw [← hpage_eq] at hnext
        refine wp_bind.mpr (wp_mono ?_ (wp_pageBatches hconcurrency hstep (turns 0) rounds hacc₁ hlen hnext))
        rintro tr₂ r w₂ ⟨hfaulted, hnone, hsome⟩
        cases r with
        | error e =>
          refine ⟨fun _ _ => .inl ((hfaulted e rfl).of_mem ?_), nofun, nofun⟩
          exact fun m hm => List.mem_append_right _ hm
        | ok out =>
          cases out with
          | none => exact ⟨nofun, fun _ => .inr (hnone rfl), nofun⟩
          | some out =>
            obtain ⟨ms, hms, hacc₂, h₂⟩ := hsome out.1 out.2 rfl
            dsimp only
            split
            · -- the page is not full
              next hshort =>
              rw [lt_natCast, decide_eq_true_eq] at hshort
              refine ⟨nofun, nofun, ?_⟩
              rintro _ ⟨⟩
              refine ⟨done ++ page.zip ms, out.1, ?_, h₂.nodup, fun row hrow => (h₂.mem row hrow).1, ?_⟩
              · rw [List.append_nil, ← List.append_assoc]
                exact hacc₂
              · have hall := h₁.last (hpage_eq ▸ hshort)
                rw [← hpage_eq] at hall
                rw [List.map_append, List.map_fst_zip hms.ge]
                exact hall
            · rw [hlast, Option.map_some]
              refine wp_mono ?_ (ih (fun n => turns (n + 1)) hacc₂ h₂)
              rintro tr₃ r w₃ hrest
              refine ⟨?_, ?_, ?_⟩
              · intro e he
                refine (hrest.failed e he).of_mem fun m hm => ?_
                exact List.mem_append_right _ (List.mem_append_right _ hm)
              · intro hr
                have hpos := List.length_pos_iff.mpr hempty
                have hlen' : (done ++ page.zip ms).length = done.length + page.length := by
                  rw [List.length_append, List.length_zip, hms, Nat.min_self]
                have hpages := hrest.endless hr
                omega
              · rw [← List.append_assoc, ← List.append_assoc]
                exact hrest.ended

end Pages

/-! ## Publishing -/

/-- A step that leaves the snapshots as they are. -/
def Gauged (w w' : DriftWorld) : Prop := w'.snapshots = w.snapshots

theorem gauges_eq {w w' : DriftWorld} (h : Relation.ReflTransGen Grows w w') :
    w'.balanceReconciliationSnapshots = w.balanceReconciliationSnapshots := by
  induction h with
  | refl => rfl
  | tail _ hs ih => rw [hs.gauges, ih]

theorem timestamp_eq {w w' : DriftWorld} (h : Relation.ReflTransGen Grows w w') :
    w'.balanceReconciliationLastSweepTimestamp = w.balanceReconciliationLastSweepTimestamp := by
  induction h with
  | refl => rfl
  | tail _ hs ih => rw [hs.timestamp, ih]

/-- The gauges of these series are set, and no other. -/
theorem wp_setSnapshots (summary : BalanceDriftSweepSummary) (series : List (Blockchain × BalanceCheckResult))
    (w : DriftWorld) :
    wp DriftOp.exec Grows Gauged
      (Prog.forEach (fun s => Prog.perform (DriftOp.setSnapshots s.1 s.2 (summary.count s.1 s.2))) series)
      (fun tr r w' => r = .ok () ∧ (∀ m ∈ tr, check? m.op = none ∧ read? m.op = none) ∧
        ∀ b r, w'.balanceReconciliationSnapshots b r =
          if (b, r) ∈ series then summary.count b r else w.balanceReconciliationSnapshots b r) w := by
  induction series generalizing w with
  | nil => exact ⟨rfl, by simp, by simp⟩
  | cons s series ih =>
    rw [Prog.forEach]
    refine wp_bind.mpr (wp_perform.mpr ?_)
    intro w₁ hw₁ i
    refine ⟨rfl, wp_mono ?_ (ih _)⟩
    rintro tr r w' ⟨rfl, hquiet, hset⟩
    refine ⟨rfl, List.forall_mem_cons.mpr ⟨⟨rfl, rfl⟩, hquiet⟩, ?_⟩
    intro b r
    rw [hset b r]
    by_cases hmem : (b, r) ∈ series
    · rw [if_pos hmem, if_pos (List.mem_cons_of_mem _ hmem)]
    · rw [if_neg hmem]
      by_cases hs : (b, r) = s
      · subst hs
        rw [if_pos List.mem_cons_self]
        exact if_pos ⟨rfl, rfl⟩
      · rw [if_neg (by simp [hs, hmem]), ← gauges_eq hw₁]
        exact if_neg fun h => hs (Prod.ext h.1 h.2)

/-- **Publishing** sets every gauge. -/
theorem wp_publish (summary : BalanceDriftSweepSummary) (w : DriftWorld) :
    wp DriftOp.exec Grows Gauged (publish summary)
      (fun tr r w' => r = .ok () ∧ (∀ m ∈ tr, check? m.op = none ∧ read? m.op = none) ∧
        w'.balanceReconciliationSnapshots = summary.count ∧
        w'.balanceReconciliationLastSweepTimestamp ≠ none) w := by
  simp only [publish, bind_eq]
  refine wp_bind.mpr (wp_mono ?_ (wp_setSnapshots summary _ w))
  rintro tr₁ _ w₁ ⟨rfl, hquiet, hset⟩
  have hall : w₁.balanceReconciliationSnapshots = summary.count := by
    funext b r
    rw [hset b r]
    refine if_pos ?_
    cases b <;> cases r <;> decide
  refine wp_bind.mpr (wp_perform.mpr fun w₂ hw₂ i => ⟨rfl, wp_perform.mpr fun w₃ hw₃ j => ⟨rfl, rfl, ?_, ?_, ?_⟩⟩)
  · intro m hm
    rcases List.mem_append.mp hm with hm | hm
    · exact hquiet m hm
    · rcases List.mem_cons.mp hm with rfl | hm
      · exact ⟨rfl, rfl⟩
      · rw [List.mem_singleton.mp hm]
        exact ⟨rfl, rfl⟩
  · show w₃.balanceReconciliationSnapshots = summary.count
    rw [gauges_eq hw₃]
    exact (gauges_eq hw₂).trans hall
  · show w₃.balanceReconciliationLastSweepTimestamp ≠ none
    rw [timestamp_eq hw₃]
    exact Option.some_ne_none _

end BalanceDriftProcessor

/-! ## The whole sweep -/

/-- All counts of a summary. -/
def BalanceDriftSweepSummary.total (summary : BalanceDriftSweepSummary) : Nat :=
  Blockchain.values.foldl
    (fun n blockchain => BALANCE_CHECK_RESULTS.foldl (fun n result => n + summary.count blockchain result) n) 0

/-- What a sweep with the calls `tr` has done that returned its summary. -/
structure Reconciled (start : DriftWorld) (tr : List DriftMoment) (summary : BalanceDriftSweepSummary)
    (w : DriftWorld) : Prop where
  checks : ∃ (done : List (SnapshotForReconciliation × DriftMoment)) (cursors : FrontierCache),
    BalanceDriftProcessor.Account tr done cursors summary ∧
      BalanceDriftProcessor.Exhaustive start (done.map fun d => d.1) w
  once : ∀ row ∈ start.snapshots.rows,
    (tr.filter fun m => BalanceDriftProcessor.check? m.op = some (row.walletId, row.tokenId)).length = 1
  reads : (tr.filterMap fun m => BalanceDriftProcessor.read? m.op).Nodup
  known : Throughout BalanceDriftProcessor.Known [] tr
  total : summary.checked = summary.total
  published : w.balanceReconciliationSnapshots = summary.count
  stamped : w.balanceReconciliationLastSweepTimestamp ≠ none

section Reconciled

open BalanceDriftProcessor

variable {start w : DriftWorld} {tr : List DriftMoment} {summary : BalanceDriftSweepSummary}
  {done : List (SnapshotForReconciliation × DriftMoment)} {cursors : FrontierCache}

theorem total_countP {α : Type} (chain : α → Blockchain) (result : α → BalanceCheckResult) (l : List α) :
    Blockchain.values.foldl (fun n b => BALANCE_CHECK_RESULTS.foldl
      (fun n r => n + l.countP fun a => chain a = b ∧ result a = r) n) 0 = l.length := by
  induction l with
  | nil => rfl
  | cons a l ih =>
    simp only [Blockchain.values, BALANCE_CHECK_RESULTS, List.foldl_cons, List.foldl_nil] at ih ⊢
    simp only [List.countP_cons, List.length_cons]
    cases chain a <;> cases result a <;>
      simp only [reduceCtorEq, false_and, and_false, and_self, decide_true, decide_false, if_true, if_false,
        Bool.false_eq_true] <;> omega

theorem total_of_account (h : Account tr done cursors summary) : summary.checked = summary.total := by
  rw [h.checked, ← total_countP (fun d => d.1.blockchain) (fun d => verdict d.2) done,
    BalanceDriftSweepSummary.total]
  simp only [h.counts]

/-- A row that has been checked has been checked by one call. -/
theorem once_of_account (h : Account tr done cursors summary) (hcovered : Exhaustive start (done.map fun d => d.1) w)
    {row : SnapshotForReconciliation} (hrow : row ∈ start.snapshots.rows) :
    (tr.filter fun m => check? m.op = some (row.walletId, row.tokenId)).length = 1 := by
  have hsub : tr.filter (fun m => check? m.op = some (row.walletId, row.tokenId)) =
      (tr.filter fun m => (check? m.op).isSome).filter fun m => check? m.op = some (row.walletId, row.tokenId) := by
    rw [List.filter_filter]
    refine List.filter_congr fun m _ => ?_
    by_cases hm : check? m.op = some (row.walletId, row.tokenId) <;> simp [hm]
  have hkey : ∀ d ∈ done, (check? d.2.op = some (row.walletId, row.tokenId) ↔ d.1 = row) := by
    intro d hd
    obtain ⟨frontier, hop⟩ := h.each d hd
    rw [hop, check?_checkOf, Option.some.injEq]
    constructor
    · exact DriftWorld.eq_of_pair (hcovered.mem d.1 (List.mem_map_of_mem hd))
        (hcovered.mem row (hcovered.all row hrow))
    · rintro rfl
      rfl
  rw [hsub, (h.checks.filter _).length_eq, List.filter_map, List.length_map, ← List.countP_eq_length_filter]
  have hcount : done.countP ((fun m : DriftMoment => decide (check? m.op = some (row.walletId, row.tokenId))) ∘
      fun d => d.2) = (done.map fun d => d.1).count row := by
    rw [List.count, List.countP_map]
    refine List.countP_congr fun d hd => ?_
    simp only [Function.comp_apply, decide_eq_true_eq, beq_iff_eq]
    exact hkey d hd
  rw [hcount]
  exact List.count_eq_one_of_mem hcovered.nodup (hcovered.all row hrow)

theorem covered_stable (start : DriftWorld) (done : List SnapshotForReconciliation) :
    Stable Grows Gauged (Exhaustive start done) where
  rely _ _ hw h := h.of_rows hw.rows
  guarantee _ _ hw h := h.of_rows fun row hrow => by rwa [show _ = _ from hw]

/-- The gauges show what they showed at the start. -/
def Unpublished (start w : DriftWorld) : Prop :=
  w.balanceReconciliationSnapshots = start.balanceReconciliationSnapshots ∧
    w.balanceReconciliationLastSweepTimestamp = start.balanceReconciliationLastSweepTimestamp

theorem unpublished_stable (start : DriftWorld) : Stable Grows Still (Unpublished start) where
  rely _ _ hw h := ⟨hw.gauges.trans h.1, hw.timestamp.trans h.2⟩
  guarantee _ _ hw h :=
    have hgrows := still_grows _ _ hw
    ⟨hgrows.gauges.trans h.1, hgrows.timestamp.trans h.2⟩

/-- What a sweep comes to. -/
structure SweepEnd (pageSize : Nat) (start : DriftWorld) (rounds : Nat) (tr : List DriftMoment)
    (r : Except JsError (Option BalanceDriftSweepSummary)) (w : DriftWorld) : Prop where
  failed : ∀ e, r = .error e → Unanswered pageSize tr w
  swept : ∀ summary, r = .ok (some summary) → Reconciled start tr summary w
  endless : r = .ok none → rounds ≤ w.snapshots.rows.length
  silent : (∀ summary, r ≠ .ok (some summary)) → Unpublished start w

theorem wp_sweep {processor : BalanceDriftProcessor} {pageSize concurrency : Nat}
    (hsize : processor.pageSize = .finite pageSize) (hpage : 1 ≤ pageSize)
    (hconcurrency : processor.concurrency = .finite concurrency) (hstep : 1 ≤ concurrency)
    (turns : Nat → Nat → BatchTurns) (rounds : Nat) (start : DriftWorld) :
    wp DriftOp.exec Grows Gauged (processor.sweep turns rounds) (SweepEnd pageSize start rounds) start := by
  have hstill : ∀ w w', Still w w' → Gauged w w' := by
    rintro w _ rfl
    rfl
  have hpages := wp_sweepPages hsize hpage hconcurrency hstep turns rounds rounds account_nil (sofar_start start)
  simp only [BalanceDriftProcessor.sweep, bind_eq]
  refine wp_bind.mpr (wp_mono ?_ (wp_weaken (fun _ _ h => h) hstill (wp_keeps (unpublished_stable start) hpages ⟨rfl, rfl⟩)))
  rintro tr₁ r w₁ ⟨hpaged, hgauges⟩
  cases r with
  | error e => exact ⟨fun _ _ => hpaged.failed e rfl, nofun, nofun, fun _ => hgauges⟩
  | ok out =>
    cases out with
    | none =>
      refine ⟨nofun, nofun, fun _ => ?_, fun _ => by exact hgauges⟩
      rcases hpaged.endless rfl with hle | hle
      · exact (Nat.le_add_right _ _).trans hle
      · exact hle
    | some summary =>
      obtain ⟨done, cursors, hacc, hcovered⟩ := hpaged.ended summary rfl
      refine wp_bind.mpr (wp_mono ?_ (wp_keeps (covered_stable _ _) (wp_publish summary w₁) hcovered))
      rintro tr₂ _ w₂ ⟨⟨rfl, hquiet, hset, hstamped⟩, hcovered₂⟩
      refine ⟨nofun, ?_, nofun, fun h => absurd rfl (h summary)⟩
      rintro _ ⟨⟩
      have hacc₂ := hacc.quiet hquiet
      rw [List.nil_append] at hacc₂
      rw [List.append_nil]
      exact ⟨⟨done, cursors, hacc₂, hcovered₂⟩, fun row hrow => once_of_account hacc₂ hcovered₂ hrow,
        hacc₂.reads.nodup_iff.mpr hacc₂.once, hacc₂.known, total_of_account hacc₂, hset, hstamped⟩

theorem sweep_ends {processor : BalanceDriftProcessor} {pageSize concurrency : Nat}
    (hsize : processor.pageSize = .finite pageSize) (hpage : 1 ≤ pageSize)
    (hconcurrency : processor.concurrency = .finite concurrency) (hstep : 1 ≤ concurrency)
    (turns : Nat → Nat → BatchTurns) (rounds : Nat) {inp : Nat → (DriftWorld → DriftWorld) × DriftInput}
    (hgrows : ∀ n v, Grows v ((inp n).1 v)) (start : DriftWorld) :
    SweepEnd pageSize start rounds (traceAmong DriftOp.exec (processor.sweep turns rounds) inp start)
      (run (among DriftOp.exec) (processor.sweep turns rounds) inp start).1
      (run (among DriftOp.exec) (processor.sweep turns rounds) inp start).2 :=
  run_among_of_wp (P := fun _ => True)
    (wp_restrict (wp_sweep hsize hpage hconcurrency hstep turns rounds start)) (fun _ => trivial)
    fun n v => .single (hgrows n v)

/-- **A sweep whose settings are integers from 1 on.**  If it returns, it has checked every snapshot that was
there throughout exactly once, and publishes what it counts; it does not go on for ever; and as long as it has
not returned, it has not published. -/
theorem sweep_checks_once {processor : BalanceDriftProcessor} {pageSize concurrency : Nat}
    (hsize : processor.pageSize = .finite pageSize) (hpage : 1 ≤ pageSize)
    (hconcurrency : processor.concurrency = .finite concurrency) (hstep : 1 ≤ concurrency)
    (turns : Nat → Nat → BatchTurns) (rounds : Nat) {inp : Nat → (DriftWorld → DriftWorld) × DriftInput}
    (hgrows : ∀ n v, Grows v ((inp n).1 v)) (start : DriftWorld) :
    (∀ summary, (run (among DriftOp.exec) (processor.sweep turns rounds) inp start).1 = .ok (some summary) →
      Reconciled start (traceAmong DriftOp.exec (processor.sweep turns rounds) inp start) summary
        (run (among DriftOp.exec) (processor.sweep turns rounds) inp start).2) ∧
    ((run (among DriftOp.exec) (processor.sweep turns rounds) inp start).1 = .ok none →
      rounds ≤ (run (among DriftOp.exec) (processor.sweep turns rounds) inp start).2.snapshots.rows.length) ∧
    ((∀ summary, (run (among DriftOp.exec) (processor.sweep turns rounds) inp start).1 ≠ .ok (some summary)) →
      Unpublished start (run (among DriftOp.exec) (processor.sweep turns rounds) inp start).2) := by
  obtain ⟨-, hswept, hendless, hsilent⟩ := sweep_ends hsize hpage hconcurrency hstep turns rounds hgrows start
  exact ⟨hswept, hendless, hsilent⟩

/-- **A sweep whose queries are answered returns**, as soon as it may have more rounds than there are rows; and
whatever it returns accounts for every snapshot that was there throughout. -/
theorem sweep_reconciles {processor : BalanceDriftProcessor} {pageSize concurrency : Nat}
    (hsize : processor.pageSize = .finite pageSize) (hpage : 1 ≤ pageSize)
    (hconcurrency : processor.concurrency = .finite concurrency) (hstep : 1 ≤ concurrency)
    (turns : Nat → Nat → BatchTurns) (rounds : Nat) {inp : Nat → (DriftWorld → DriftWorld) × DriftInput}
    (hgrows : ∀ n v, Grows v ((inp n).1 v)) (start : DriftWorld) :
    (∀ summary, (run (among DriftOp.exec) (processor.sweep turns rounds) inp start).1 = .ok (some summary) →
      Reconciled start (traceAmong DriftOp.exec (processor.sweep turns rounds) inp start) summary
        (run (among DriftOp.exec) (processor.sweep turns rounds) inp start).2) ∧
    ((∀ n, (inp n).2.fault = none) → pageSize < 2 ^ 63 →
      (run (among DriftOp.exec) (processor.sweep turns rounds) inp start).2.snapshots.rows.length <
        min rounds (2 ^ 32) →
      ∃ summary, (run (among DriftOp.exec) (processor.sweep turns rounds) inp start).1 = .ok (some summary)) := by
  have hend := sweep_ends hsize hpage hconcurrency hstep turns rounds hgrows start
  refine ⟨hend.swept, fun hquiet hfits hrows => ?_⟩
  obtain ⟨hrounds, hlong⟩ := Nat.lt_min.mp hrows
  cases hr : (run (among DriftOp.exec) (processor.sweep turns rounds) inp start).1 with
  | error e =>
    exfalso
    rcases hend.failed e hr with ⟨m, hm, hfault⟩ | hunfit | htoo
    · obtain ⟨n, hn⟩ := input_of_mem_traceAmong hm
      exact hfault (hn ▸ hquiet n)
    · exact absurd hunfit (Nat.not_le.mpr hfits)
    · exact absurd (htoo.trans (Nat.min_le_right _ _)) (Nat.not_le.mpr hlong)
  | ok out =>
    cases out with
    | none => exact absurd (hend.endless hr) (Nat.not_le.mpr hrounds)
    | some summary => exact ⟨summary, rfl⟩

theorem eq_ok_some_of_map {α β : Type} {f : α → β} {b : β} {r : Except JsError (Option α)}
    (h : r.toOption.join.map f = some b) : ∃ a, r = .ok (some a) ∧ f a = b := by
  cases r with
  | error e => cases h
  | ok out =>
    cases out with
    | none => cases h
    | some a => exact ⟨a, rfl, Option.some.inj h⟩

def snapshotOf (id tokenId : String) : SnapshotForReconciliation where
  id := id
  walletId := id
  tokenId := tokenId
  address := "0x"
  chainId := 31337
  blockchain := .EVM
  contractAddress := none
  symbol := "USDT"

/-- Three snapshots, of two tokens. -/
def threeSnapshots : DriftWorld where
  snapshots := ⟨[snapshotOf "a" "t", snapshotOf "b" "u", snapshotOf "c" "t"], by decide⟩
  named := by decide
  balanceReconciliationSnapshots := fun _ => emptyCounts
  balanceReconciliationLastSweepTimestamp := none

/-- Somebody inserts a fourth snapshot. -/
def insertFourth (w : DriftWorld) : DriftWorld :=
  if h : (w.snapshots.insert (snapshotOf "d" "u")).isSome = true then
    { w with
      snapshots := (w.snapshots.insert (snapshotOf "d" "u")).get h
      named := by
        rw [Table.insert_rows (Option.some_get h).symm]
        exact List.forall_mem_append.mpr ⟨w.named, by decide⟩ }
  else w

theorem grows_insertFourth (w : DriftWorld) : Grows w (insertFourth w) := by
  rw [insertFourth]
  split
  · next h =>
    refine ⟨fun row hrow => ?_, rfl, rfl⟩
    show row ∈ ((w.snapshots.insert (snapshotOf "d" "u")).get h).rows
    rw [Table.insert_rows (Option.some_get h).symm]
    exact List.mem_append_left _ hrow
  · exact Grows.refl w

/-- The cursors are at block 7, where snapshot and chain agree; the fourth snapshot comes before the fifth call. -/
def sweepInputs (n : Nat) : (DriftWorld → DriftWorld) × DriftInput :=
  (if n = 4 then insertFourth else id,
    { cursor := some ⟨"t", 7, none, none, 0⟩, persisted := .ok (some ⟨5, 7⟩), chain := .ok ⟨5, 7⟩ })

theorem grows_sweepInputs (n : Nat) (v : DriftWorld) : Grows v ((sweepInputs n).1 v) := by
  rw [sweepInputs]
  dsimp only
  split
  · exact grows_insertFourth v
  · exact Grows.refl v

/-- Pages of two and batches of one; also the snapshot that is inserted while the sweep runs is checked. -/
theorem sweep_checks_once_three : ∃ summary,
    (run (among DriftOp.exec) (BalanceDriftProcessor.sweep ⟨.finite 2, .finite 1⟩ (fun _ _ => {}) 5)
      sweepInputs threeSnapshots).1 = .ok (some summary) ∧ summary.count .EVM .match = 4 ∧
    Reconciled threeSnapshots
      (traceAmong DriftOp.exec (BalanceDriftProcessor.sweep ⟨.finite 2, .finite 1⟩ (fun _ _ => {}) 5)
        sweepInputs threeSnapshots) summary
      (run (among DriftOp.exec) (BalanceDriftProcessor.sweep ⟨.finite 2, .finite 1⟩ (fun _ _ => {}) 5)
        sweepInputs threeSnapshots).2 := by
  have hmatched : (run (among DriftOp.exec) (BalanceDriftProcessor.sweep ⟨.finite 2, .finite 1⟩ (fun _ _ => {}) 5)
      sweepInputs threeSnapshots).1.toOption.join.map (fun summary => summary.count .EVM .match) = some 4 := by
    decide +kernel
  obtain ⟨summary, hsummary, hcount⟩ := eq_ok_some_of_map hmatched
  have h := @sweep_checks_once ⟨.finite 2, .finite 1⟩ 2 1 rfl (by decide) rfl (by decide) (fun _ _ => {}) 5
    sweepInputs grows_sweepInputs threeSnapshots
  exact ⟨summary, hsummary, hcount, h.1 summary hsummary⟩

/-- The same sweep returns, and accounts for all of them. -/
theorem sweep_reconciles_three : ∃ summary,
    (run (among DriftOp.exec) (BalanceDriftProcessor.sweep ⟨.finite 2, .finite 1⟩ (fun _ _ => {}) 5)
      sweepInputs threeSnapshots).1 = .ok (some summary) ∧
    Reconciled threeSnapshots
      (traceAmong DriftOp.exec (BalanceDriftProcessor.sweep ⟨.finite 2, .finite 1⟩ (fun _ _ => {}) 5)
        sweepInputs threeSnapshots) summary
      (run (among DriftOp.exec) (BalanceDriftProcessor.sweep ⟨.finite 2, .finite 1⟩ (fun _ _ => {}) 5)
        sweepInputs threeSnapshots).2 := by
  have h := @sweep_reconciles ⟨.finite 2, .finite 1⟩ 2 1 rfl (by decide) rfl (by decide) (fun _ _ => {}) 5
    sweepInputs grows_sweepInputs threeSnapshots
  obtain ⟨summary, hsummary⟩ := h.2 (fun _ => rfl) (by decide) (by decide +kernel)
  exact ⟨summary, hsummary, h.1 summary hsummary⟩

/-- **Not every integer is a page size**: the query rejects `2 ^ 63`, and no sweep returns. -/
theorem oversized_page_rejected : ¬ ∃ rounds summary,
    (run (among DriftOp.exec) (BalanceDriftProcessor.sweep ⟨.finite (2 ^ 63 : Nat), .finite 1⟩ (fun _ _ => {}) rounds)
      (fun _ => (id, {})) threeSnapshots).1 = .ok (some summary) := by
  have hrejected : TransactionRepository.intArgument (.finite (2 ^ 63 : Nat)) = .error invalidArgument := by
    rw [TransactionRepository.intArgument, Js.Number.trunc?_natCast]
    exact if_neg (by decide)
  rintro ⟨rounds, summary, h⟩
  cases rounds with
  | zero => cases h
  | succ rounds =>
    simp only [BalanceDriftProcessor.sweep, sweepPages, BalanceRepository.findPageForReconciliation,
      hrejected] at h
    cases h

end Reconciled

end TransactionSimulator
