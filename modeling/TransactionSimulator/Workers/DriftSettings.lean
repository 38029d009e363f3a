import TransactionSimulator.Workers.DriftSweep

/-!
# The settings of a sweep

Nothing checks the numbers that a sweep is configured with.  `plan` is the sweep without its calls: the rows
that it checks, in their order, if its loops end.

* `wp_sweepPages_plan`: the sweep checks what is planned.
* `plan_of_reaches`: steps that reach the end of a page lead through the whole table, by pages forwards or
  backwards.
* `sweeps_settle_iff`, `sweep_settles_iff`: which settings let a sweep end that has checked everything before it
  publishes.
-/

namespace TransactionSimulator

open Concurrent Relational Prog

namespace BalanceDriftProcessor

/-- The page behind `afterId` in a sweep. -/
def pageAt (w : DriftWorld) (take : Int) (afterId : Option String) : List SnapshotForReconciliation :=
  w.page (if Js.isFalsy afterId then none else afterId) take

/-- The rows that a sweep checks, in their order; `none` if one of its loops has more than `rounds` rounds. -/
def plan (processor : BalanceDriftProcessor) (w : DriftWorld) (take : Int) (rounds : Nat) :
    (pages : Nat) → (afterId : Option String) → Option (List SnapshotForReconciliation)
  | 0, _ => none
  | pages + 1, afterId =>
    let page := pageAt w take afterId
    if page.isEmpty then some []
    else
      (batches processor.concurrency page rounds (.finite 0)).bind fun bs =>
        if (Js.Number.finite page.length).lt processor.pageSize then some bs.flatten
        else (plan processor w take rounds pages (page.getLast?.map fun row => row.id)).map (bs.flatten ++ ·)

variable {processor : BalanceDriftProcessor} {w : DriftWorld} {take : Int} {rounds pages : Nat}
  {afterId : Option String}

/-! ## The sweep checks what is planned -/

section Plan

variable {tr : List DriftMoment} {done : List (SnapshotForReconciliation × DriftMoment)} {cursors : FrontierCache}
  {summary : BalanceDriftSweepSummary}

/-- What the pages come to, by the plan. -/
structure Planned (planned : Option (List SnapshotForReconciliation)) (tr : List DriftMoment)
    (done : List (SnapshotForReconciliation × DriftMoment)) (tr' : List DriftMoment)
    (r : Except JsError (Option BalanceDriftSweepSummary)) : Prop where
  failed : ∀ e, r = .error e → Faulted tr'
  endless : r = .ok none → planned = none
  ended : ∀ summary, r = .ok (some summary) →
    ∃ (rows : List SnapshotForReconciliation) (ms : List DriftMoment) (cursors : FrontierCache),
      planned = some rows ∧ ms.length = rows.length ∧ Account (tr ++ tr') (done ++ rows.zip ms) cursors summary

theorem length_pageAt_le (hanchor : ∀ k ∈ afterId, ∃ row ∈ w.snapshots.rows, row.id = k) (take : Int) :
    (pageAt w take afterId).length ≤ w.snapshots.rows.length := by
  rw [pageAt, w.page_eq hanchor]
  split
  · rw [Paging.length_next]
    exact (Nat.min_le_right _ _).trans List.countP_le_length
  · rw [Paging.length_previous]
    exact (Nat.min_le_right _ _).trans List.countP_le_length

theorem length_pageAt_le_min (hanchor : ∀ k ∈ afterId, ∃ row ∈ w.snapshots.rows, row.id = k) (take : Int) :
    (pageAt w take afterId).length ≤ min take.natAbs w.snapshots.rows.length := by
  have hle := length_pageAt_le hanchor take
  rw [Nat.le_min]
  refine ⟨?_, hle⟩
  rw [pageAt, w.page_eq hanchor]
  split
  · rw [Paging.length_next]
    omega
  · rw [Paging.length_previous]
    omega

theorem mem_of_mem_pageAt (hanchor : ∀ k ∈ afterId, ∃ row ∈ w.snapshots.rows, row.id = k)
    {row : SnapshotForReconciliation} (h : row ∈ pageAt w take afterId) : row ∈ w.snapshots.rows := by
  rw [pageAt, w.page_eq hanchor] at h
  split at h
  · exact (Paging.mem_of_mem_next h).1
  · exact (Paging.mem_of_mem_previous h).1

theorem eq_of_still {w w' : DriftWorld} (h : Relation.ReflTransGen Still w w') : w' = w := by
  induction h with
  | refl => rfl
  | tail _ hs ih => exact Eq.trans hs ih

/-- A page of a table that nobody changes. -/
theorem wp_pageAt (htake : TransactionRepository.intArgument processor.pageSize = .ok take)
    (hanchor : ∀ k ∈ afterId, ∃ row ∈ w.snapshots.rows, row.id = k)
    (hsmall : min take.natAbs w.snapshots.rows.length < 2 ^ 32) :
    wp DriftOp.exec Still Still (BalanceRepository.findPageForReconciliation afterId processor.pageSize)
      (fun tr r w' => w' = w ∧ (∀ m ∈ tr, check? m.op = none ∧ read? m.op = none) ∧
        (r = .ok (pageAt w take afterId) ∨ (∃ e, r = .error e) ∧ Faulted tr)) w := by
  simp only [BalanceRepository.findPageForReconciliation, htake, bind_eq]
  refine wp_bind.mpr (wp_ofExcept.mpr (wp_perform.mpr ?_))
  intro w₁ hw₁ i
  obtain rfl := eq_of_still hw₁
  have hlen := length_pageAt_le_min hanchor take
  rw [DriftOp.exec]
  cases hfault : i.fault with
  | some message =>
    exact ⟨rfl, rfl, by simp [check?, read?], .inr ⟨⟨_, rfl⟩, _, List.mem_singleton_self _, by simp [hfault]⟩⟩
  | none =>
    have hfits : ¬ 2 ^ 32 ≤ (pageAt w₁ take afterId).length := by omega
    rw [pageAt] at hfits ⊢
    dsimp only
    rw [if_neg hfits]
    exact ⟨rfl, rfl, by simp [check?, read?], .inl rfl⟩

theorem same_stable (w : DriftWorld) : Stable Still Still fun w' => w' = w where
  rely _ _ hw h := Eq.trans hw h
  guarantee _ _ hw h := Eq.trans hw h

/-- **The sweep checks what is planned.** -/
theorem wp_sweepPages_plan (htake : TransactionRepository.intArgument processor.pageSize = .ok take)
    (hsmall : min take.natAbs w.snapshots.rows.length < 2 ^ 32) (turns : Nat → Nat → BatchTurns) (rounds pages : Nat)
    (hanchor : ∀ k ∈ afterId, ∃ row ∈ w.snapshots.rows, row.id = k) (hacc : Account tr done cursors summary) :
    wp DriftOp.exec Still Still (processor.sweepPages turns rounds pages afterId cursors summary)
      (fun tr' r w' => w' = w ∧ Planned (plan processor w take rounds pages afterId) tr done tr' r) w := by
  induction pages generalizing turns afterId tr done cursors summary with
  | zero => exact ⟨rfl, (fun _ h => by cases h), fun _ => rfl, (fun _ h => by cases h)⟩
  | succ pages ih =>
    rw [sweepPages, plan]
    simp only [bind_eq]
    refine wp_bind.mpr (wp_mono ?_ (wp_pageAt htake hanchor hsmall))
    rintro tr₁ r w₁ ⟨hw₁, hquiet, rfl | ⟨⟨e, rfl⟩, hfaulted⟩⟩ <;> obtain rfl : w = w₁ := hw₁.symm
    · have hacc₁ := hacc.quiet hquiet
      have hmem : ∀ row ∈ pageAt w take afterId, row ∈ w.snapshots.rows := fun _ h => mem_of_mem_pageAt hanchor h
      generalize pageAt w take afterId = page at hmem ⊢
      dsimp only
      split
      · refine ⟨rfl, (fun _ h => by cases h), (fun h => by cases h), ?_⟩
        rintro _ ⟨⟩
        refine ⟨[], [], cursors, rfl, rfl, ?_⟩
        rw [List.append_nil, List.zip_nil_left, List.append_nil]
        exact hacc₁
      · refine wp_bind.mpr (wp_mono ?_ (wp_keeps (same_stable w)
          (wp_checkBatches (fun _ _ h => h) processor (turns 0) rounds (.finite 0) hacc₁) rfl))
        rintro tr₂ r w₂ ⟨hbatched, hw₂⟩
        obtain rfl : w = w₂ := hw₂.symm
        cases r with
        | error e => exact ⟨rfl, fun _ _ => (hbatched.failed e rfl).of_mem fun m hm => List.mem_append_right _ hm,
            (fun h => by cases h), (fun _ h => by cases h)⟩
        | ok out =>
          cases out with
          | none =>
            refine ⟨rfl, (fun _ h => by cases h), fun _ => ?_, (fun _ h => by cases h)⟩
            rw [hbatched.endless rfl, Option.bind_none]
          | some out =>
            obtain ⟨bs, ms, hbs, hms, hacc₂⟩ := hbatched.ended out.1 out.2 rfl
            rw [hbs, Option.bind_some]
            dsimp only
            split
            · refine ⟨rfl, (fun _ h => by cases h), (fun h => by cases h), ?_⟩
              rintro _ ⟨⟩
              refine ⟨_, ms, out.1, rfl, hms, ?_⟩
              rw [List.append_nil, ← List.append_assoc]
              exact hacc₂
            · have hanchor' : ∀ k ∈ page.getLast?.map (fun row => row.id), ∃ row ∈ w.snapshots.rows, row.id = k := by
                intro k hk
                obtain ⟨row, hrow, rfl⟩ := Option.map_eq_some_iff.mp hk
                exact ⟨row, hmem row (List.mem_of_getLast? hrow), rfl⟩
              refine wp_mono ?_ (ih (fun n => turns (n + 1)) hanchor' hacc₂)
              rintro tr₃ r w₃ ⟨hw₃, hrest⟩
              obtain rfl : w = w₃ := hw₃.symm
              refine ⟨rfl, ?_, ?_, ?_⟩
              · exact fun e he => (hrest.failed e he).of_mem fun m hm =>
                  List.mem_append_right _ (List.mem_append_right _ hm)
              · intro hr
                rw [hrest.endless hr, Option.map_none]
              · intro summary' hr
                obtain ⟨rows, ms', cursors', hrows, hms', hacc₃⟩ := hrest.ended summary' hr
                refine ⟨bs.flatten ++ rows, ms ++ ms', cursors', by rw [hrows, Option.map_some], ?_, ?_⟩
                · rw [List.length_append, List.length_append, hms, hms']
                · rw [List.zip_append hms.symm, ← List.append_assoc, ← List.append_assoc, ← List.append_assoc]
                  exact hacc₃
    · exact ⟨rfl, fun _ _ => hfaulted, (fun h => by cases h), (fun _ h => by cases h)⟩

end Plan

/-! ## Steps that reach the end -/

/-- The sums of a step come to this length. -/
def Reaches (concurrency : Js.Number) (length : Nat) : Prop :=
  concurrency ≠ .nan ∧ ∃ j, (stepped concurrency (.finite 0) j).lt (.finite length) = false

theorem lt_of_le {i : Js.Number} {m n : Nat} (h : i.lt (.finite m) = true) (hmn : m ≤ n) :
    i.lt (.finite n) = true := by
  cases i with
  | nan => cases h
  | infinity negative => exact h
  | finite q =>
    rw [Js.Number.lt, decide_eq_true_eq] at h ⊢
    exact lt_of_lt_of_le h (by exact_mod_cast hmn)

/-- A step that reaches a length takes every element of a page that is no longer. -/
theorem batches_of_reaches {concurrency : Js.Number} {length j : Nat} (hnan : concurrency ≠ .nan)
    (hj : (stepped concurrency (.finite 0) j).lt (.finite length) = false) {α : Type} {page : List α}
    (hlen : page.length ≤ length) (hrounds : j < rounds) :
    ∃ bs, batches concurrency page rounds (.finite 0) = some bs ∧ ∀ x ∈ page, x ∈ bs.flatten := by
  cases hbs : batches concurrency page rounds (.finite 0) with
  | none =>
    have hlt := lt_of_le (batches_eq_none_iff.mp hbs j hrounds) hlen
    rw [hj] at hlt
    cases hlt
  | some bs =>
    refine ⟨bs, rfl, ?_⟩
    intro x hx
    refine mem_flatten_batches hnan (.inl ⟨0, rfl⟩) hbs ?_
    have hplace := place_natCast page.length 0
    rw [Nat.cast_zero, Nat.zero_min] at hplace
    rw [hplace]
    exact hx

/-- A step that is no number takes nothing. -/
theorem batches_nan {α : Type} {page : List α} {bs : List (List α)}
    (h : batches .nan page rounds (.finite 0) = some bs) : bs.flatten = [] := by
  have hnan : (Js.Number.finite 0).add .nan = .nan := rfl
  cases rounds with
  | zero => cases h
  | succ rounds =>
    rw [batches] at h
    split at h
    · rw [hnan, Option.map_eq_some_iff] at h
      obtain ⟨bs, hbs, rfl⟩ := h
      cases rounds with
      | zero => cases hbs
      | succ rounds =>
        rw [batches, if_neg (by exact Bool.false_ne_true), Option.some.injEq] at hbs
        rw [← hbs, List.flatten_cons, List.flatten_nil, List.append_nil, Js.slice]
        exact List.drop_eq_nil_of_le (by rw [List.length_take]; exact Nat.min_le_left _ _ |>.trans (Nat.zero_le _))
    · cases h
      rfl

/-! ## Pages forwards and backwards -/

/-- The row is still to come: it is behind the last row, or before it. -/
def Ahead (take : Int) (afterId : Option String) (row : SnapshotForReconciliation) : Bool :=
  afterId.all fun k => if 0 ≤ take then k < row.id else row.id < k

section Ahead

variable {row last : SnapshotForReconciliation}

theorem ahead_of_mem_pageAt (hanchor : ∀ k ∈ afterId, ∃ row ∈ w.snapshots.rows, row.id = k)
    (h : row ∈ pageAt w take afterId) : Ahead take afterId row = true := by
  rw [pageAt, w.page_eq hanchor] at h
  cases afterId with
  | none => rfl
  | some k =>
    rw [Ahead, Option.all_some]
    split at h
    · next hpos =>
      rw [if_pos hpos]
      exact decide_eq_true ((Paging.mem_of_mem_next h).2 k rfl)
    · next hneg =>
      rw [if_neg hneg]
      exact decide_eq_true ((Paging.mem_of_mem_previous h).2 k rfl)

/-- A page that is not full is the last. -/
theorem mem_pageAt_of_short (hanchor : ∀ k ∈ afterId, ∃ row ∈ w.snapshots.rows, row.id = k)
    (hshort : (pageAt w take afterId).length < take.natAbs) (hrow : row ∈ w.snapshots.rows)
    (hahead : Ahead take afterId row = true) : row ∈ pageAt w take afterId := by
  rw [pageAt, w.page_eq hanchor] at hshort ⊢
  by_cases hpos : 0 ≤ take
  · rw [if_pos hpos] at hshort ⊢
    have hbehind : ∀ k ∈ afterId, k < row.id := by
      rintro k rfl
      rw [Ahead, Option.all_some, if_pos hpos] at hahead
      exact of_decide_eq_true hahead
    rcases Paging.mem_next_or_behind (n := take.toNat) hrow hbehind with hmem | ⟨hfull, -⟩
    · exact hmem
    · have hlt : (Paging.next (fun row => row.id) w.snapshots.rows afterId take.toNat).length < take.toNat := by
        omega
      exact absurd hfull.ge (Nat.not_le.mpr hlt)
  · rw [if_neg hpos] at hshort ⊢
    refine Paging.mem_previous_of_lt hshort hrow ?_
    rintro k rfl
    rw [Ahead, Option.all_some, if_neg hpos] at hahead
    exact of_decide_eq_true hahead

theorem mem_pageAt_of_le (hanchor : ∀ k ∈ afterId, ∃ row ∈ w.snapshots.rows, row.id = k) (hpos : 0 ≤ take)
    (hle : w.snapshots.rows.length ≤ take.toNat) (hrow : row ∈ w.snapshots.rows)
    (hahead : Ahead take afterId row = true) : row ∈ pageAt w take afterId := by
  rw [pageAt, w.page_eq hanchor, if_pos hpos]
  refine Paging.mem_next_of_le hle hrow ?_
  rintro k rfl
  rw [Ahead, Option.all_some, if_pos hpos] at hahead
  exact of_decide_eq_true hahead

/-- **A row that is still to come** is on the page or comes after it. -/
theorem mem_pageAt_or_ahead (hanchor : ∀ k ∈ afterId, ∃ row ∈ w.snapshots.rows, row.id = k)
    (hlast : (pageAt w take afterId).getLast? = some last) (hrow : row ∈ w.snapshots.rows)
    (hahead : Ahead take afterId row = true) :
    row ∈ pageAt w take afterId ∨ Ahead take (some last.id) row = true := by
  rw [pageAt, w.page_eq hanchor] at hlast ⊢
  rw [Ahead, Option.all_some]
  by_cases hpos : 0 ≤ take
  · rw [if_pos hpos] at hlast ⊢
    have hbehind : ∀ k ∈ afterId, k < row.id := by
      rintro k rfl
      rw [Ahead, Option.all_some, if_pos hpos] at hahead
      exact of_decide_eq_true hahead
    rcases lt_or_ge last.id row.id with hlt | hle
    · right
      rw [if_pos hpos]
      exact decide_eq_true hlt
    · exact .inl ((Paging.mem_next_iff w.keyed hlast hrow hbehind).mpr hle)
  · rw [if_neg hpos] at hlast ⊢
    have hbefore : ∀ k ∈ afterId, row.id < k := by
      rintro k rfl
      rw [Ahead, Option.all_some, if_neg hpos] at hahead
      exact of_decide_eq_true hahead
    rcases (Paging.le_getLast_previous hlast hrow hbefore).lt_or_eq with hlt | heq
    · right
      rw [if_neg hpos]
      exact decide_eq_true hlt
    · have hmem := List.mem_of_getLast? hlast
      rw [w.keyed row hrow last (Paging.mem_of_mem_previous hmem).1 heq]
      exact .inl hmem

/-- After a page, fewer rows are still to come. -/
theorem countP_ahead_lt (hanchor : ∀ k ∈ afterId, ∃ row ∈ w.snapshots.rows, row.id = k)
    (hlast : (pageAt w take afterId).getLast? = some last) :
    w.snapshots.rows.countP (Ahead take (some last.id)) < w.snapshots.rows.countP (Ahead take afterId) := by
  have hmem := List.mem_of_getLast? hlast
  have hahead := ahead_of_mem_pageAt hanchor hmem
  have himp : ∀ row, Ahead take (some last.id) row = true → Ahead take afterId row = true := by
    intro row hrow
    cases afterId with
    | none => rfl
    | some k =>
      rw [Ahead, Option.all_some] at hrow hahead ⊢
      by_cases hpos : 0 ≤ take
      · rw [if_pos hpos] at hrow hahead ⊢
        exact decide_eq_true ((of_decide_eq_true hahead).trans (of_decide_eq_true hrow))
      · rw [if_neg hpos] at hrow hahead ⊢
        exact decide_eq_true ((of_decide_eq_true hrow).trans (of_decide_eq_true hahead))
  have hself : Ahead take (some last.id) last = false := by
    rw [Ahead, Option.all_some]
    by_cases hpos : 0 ≤ take
    · rw [if_pos hpos]
      exact decide_eq_false (lt_irrefl _)
    · rw [if_neg hpos]
      exact decide_eq_false (lt_irrefl _)
  have hfilter : w.snapshots.rows.countP (Ahead take (some last.id)) =
      (w.snapshots.rows.filter (Ahead take afterId)).countP (Ahead take (some last.id)) := by
    rw [List.countP_filter]
    refine List.countP_congr fun row _ => ?_
    rw [Bool.and_eq_true]
    exact ⟨fun h => ⟨h, himp row h⟩, fun h => h.1⟩
  rw [hfilter, List.countP_eq_length_filter (p := Ahead take afterId), List.countP_lt_length_iff]
  exact ⟨last, List.mem_filter.mpr ⟨mem_of_mem_pageAt hanchor hmem, hahead⟩, hself⟩

end Ahead

/-! ## Sizes with a fraction -/

/-- The size of a page is positive and has a fraction, which the query drops: no page is as long as it says. -/
def Fractional (processor : BalanceDriftProcessor) (take : Int) : Prop :=
  (Js.Number.finite take).lt processor.pageSize = true

theorem nonneg_of_fractional (htake : TransactionRepository.intArgument processor.pageSize = .ok take)
    (h : Fractional processor take) : 0 ≤ take := by
  replace htake := TransactionRepository.trunc?_of_intArgument htake
  rw [Fractional] at h
  cases hsize : processor.pageSize with
  | nan | infinity =>
    rw [hsize] at htake
    cases htake
  | finite q =>
    rw [hsize, Js.Number.trunc?, Option.some.injEq] at htake
    rw [hsize, Js.Number.lt, decide_eq_true_eq] at h
    by_cases hneg : q < 0
    · rw [if_pos hneg] at htake
      rw [← htake] at h
      exact absurd Rat.le_ceil (Rat.not_le.mpr h)
    · rw [if_neg hneg] at htake
      rw [← htake]
      exact Rat.le_floor_iff.mpr (by exact_mod_cast Rat.not_lt.mp hneg)

/-- A page that ends the sweep is not full, or the size has a fraction. -/
theorem lt_or_fractional (htake : TransactionRepository.intArgument processor.pageSize = .ok take) {n : Nat}
    (h : (Js.Number.finite n).lt processor.pageSize = true) :
    (n : Int) < take ∨ (n : Int) = take ∧ Fractional processor take := by
  replace htake := TransactionRepository.trunc?_of_intArgument htake
  cases hsize : processor.pageSize with
  | nan | infinity =>
    rw [hsize] at htake
    cases htake
  | finite q =>
    rw [hsize, Js.Number.trunc?, Option.some.injEq] at htake
    rw [hsize, Js.Number.lt, decide_eq_true_eq] at h
    have hneg : ¬ q < 0 := Rat.not_lt.mpr (Rat.le_trans Rat.natCast_nonneg (Rat.le_of_lt h))
    rw [if_neg hneg] at htake
    have hle : (n : Int) ≤ take := by
      rw [← htake]
      refine Rat.le_floor_iff.mpr ?_
      rw [Rat.intCast_natCast]
      exact Rat.le_of_lt h
    rcases hle.lt_or_eq with hlt | heq
    · exact .inl hlt
    · refine .inr ⟨heq, ?_⟩
      rw [Fractional, ← heq, Rat.intCast_natCast, hsize]
      exact decide_eq_true h

/-- With such a size every page ends the sweep. -/
theorem lt_of_fractional (h : Fractional processor take) {n : Nat} (hn : (n : Int) ≤ take) :
    (Js.Number.finite n).lt processor.pageSize = true := by
  rw [Fractional] at h
  cases hsize : processor.pageSize with
  | nan =>
    rw [hsize] at h
    cases h
  | infinity negative =>
    rw [hsize] at h
    exact h
  | finite q =>
    rw [hsize, Js.Number.lt, decide_eq_true_eq] at h
    rw [Js.Number.lt, decide_eq_true_eq]
    exact lt_of_le_of_lt (by exact_mod_cast hn) h

/-- **Steps that reach the end of the first page lead through the table**: every row that is still to come is
planned. -/
theorem plan_of_reaches (hsize : TransactionRepository.intArgument processor.pageSize = .ok take) (htake : take ≠ 0)
    (hfull : Fractional processor take → w.snapshots.rows.length ≤ take.natAbs) (hnan : processor.concurrency ≠ .nan) {j : Nat}
    (hj : (stepped processor.concurrency (.finite 0) j).lt
      (.finite (min take.natAbs w.snapshots.rows.length : Nat)) = false) (hrounds : j < rounds)
    (hanchor : ∀ k ∈ afterId, ∃ row ∈ w.snapshots.rows, row.id = k)
    (hpages : w.snapshots.rows.countP (Ahead take afterId) < pages) :
    ∃ rows, plan processor w take rounds pages afterId = some rows ∧
      ∀ row ∈ w.snapshots.rows, Ahead take afterId row = true → row ∈ rows := by
  induction pages generalizing afterId with
  | zero => exact absurd hpages (Nat.not_lt_zero _)
  | succ pages ih =>
    have hshort : (pageAt w take afterId).length < take.natAbs → ∀ row ∈ w.snapshots.rows,
        Ahead take afterId row = true → row ∈ pageAt w take afterId :=
      fun hlt row hrow hahead => mem_pageAt_of_short hanchor hlt hrow hahead
    have hlong : 0 ≤ take → w.snapshots.rows.length ≤ take.toNat → ∀ row ∈ w.snapshots.rows,
        Ahead take afterId row = true → row ∈ pageAt w take afterId :=
      fun hpos hle row hrow hahead => mem_pageAt_of_le hanchor hpos hle hrow hahead
    have hcut : ∀ last, (pageAt w take afterId).getLast? = some last → ∀ row ∈ w.snapshots.rows,
        Ahead take afterId row = true → row ∈ pageAt w take afterId ∨ Ahead take (some last.id) row = true :=
      fun last hlast row hrow hahead => mem_pageAt_or_ahead hanchor hlast hrow hahead
    have hcount : ∀ last, (pageAt w take afterId).getLast? = some last →
        w.snapshots.rows.countP (Ahead take (some last.id)) < w.snapshots.rows.countP (Ahead take afterId) :=
      fun last hlast => countP_ahead_lt hanchor hlast
    have hmem : ∀ row ∈ pageAt w take afterId, row ∈ w.snapshots.rows := fun _ h => mem_of_mem_pageAt hanchor h
    have hlen := length_pageAt_le_min hanchor take
    rw [plan]
    generalize pageAt w take afterId = page at hshort hlong hcut hcount hmem hlen ⊢
    obtain ⟨bs, hbs, hall⟩ := batches_of_reaches hnan hj hlen hrounds
    by_cases hempty : page.isEmpty = true
    · rw [if_pos hempty]
      have hnil := List.isEmpty_iff.mp hempty
      have hpos : page.length < take.natAbs := by
        rw [hnil, List.length_nil]
        omega
      refine ⟨[], rfl, fun row hrow hahead => ?_⟩
      rw [← hnil]
      exact hshort hpos row hrow hahead
    · rw [if_neg hempty, hbs, Option.bind_some]
      obtain ⟨last, hlast⟩ : ∃ last, page.getLast? = some last :=
        ⟨_, List.getLast?_eq_some_getLast fun hnil => hempty (List.isEmpty_iff.mpr hnil)⟩
      split
      · next hends =>
        refine ⟨_, rfl, ?_⟩
        intro row hrow hahead
        rcases lt_or_fractional hsize hends with hlt | ⟨heq, hfrac⟩
        · exact hall row (hshort (by omega) row hrow hahead)
        · have hle := hfull hfrac
          exact hall row (hlong (by omega) (by omega) row hrow hahead)
      · have hanchor' : ∀ k ∈ some last.id, ∃ row ∈ w.snapshots.rows, row.id = k := by
          rintro k ⟨⟩
          exact ⟨last, hmem last (List.mem_of_getLast? hlast), rfl⟩
        have hfewer := hcount last hlast
        obtain ⟨rows, hrows, hrest⟩ := ih hanchor' (by omega)
        rw [hlast, Option.map_some, hrows, Option.map_some]
        refine ⟨_, rfl, ?_⟩
        intro row hrow hahead
        rw [List.mem_append]
        rcases hcut last hlast row hrow hahead with hpage | hbehind
        · exact .inl (hall row hpage)
        · exact .inr (hrest row hrow hbehind)

/-! ## Settings that are of no use -/

/-- A step that is no number checks nothing. -/
theorem plan_nan (hnan : processor.concurrency = .nan) :
    plan processor w take rounds pages afterId = none ∨ plan processor w take rounds pages afterId = some [] := by
  induction pages generalizing afterId with
  | zero => exact .inl rfl
  | succ pages ih =>
    rw [plan, hnan]
    split
    · exact .inr rfl
    · cases hbs : batches .nan (pageAt w take afterId) rounds (.finite 0) with
      | none => exact .inl rfl
      | some bs =>
        rw [Option.bind_some, batches_nan hbs]
        split
        · exact .inr rfl
        · rcases @ih ((pageAt w take afterId).getLast?.map fun row => row.id) with hnone | hnil
          · exact .inl (by rw [hnone, Option.map_none])
          · exact .inr (by rw [hnil, Option.map_some, List.append_nil])

theorem length_pageAt_none (take : Int) :
    (pageAt w take none).length = min take.natAbs w.snapshots.rows.length := by
  rw [pageAt, w.page_eq (by nofun)]
  split
  · rw [Paging.length_next, List.countP_eq_length.mpr (by simp)]
    omega
  · rw [Paging.length_previous, List.countP_eq_length.mpr (by simp)]

theorem exists_not_mem_pageAt (hlt : take.natAbs < w.snapshots.rows.length) :
    ∃ row ∈ w.snapshots.rows, row ∉ pageAt w take none := by
  by_contra hno
  simp only [not_exists, not_and, not_not] at hno
  have hle := (w.nodup_rows.subperm fun row hrow => hno row hrow).length_le
  rw [length_pageAt_none] at hle
  omega

/-- **Pages of no rows, steps that do not reach the end of a page, and a first page that is taken for the last
one** leave a snapshot out if they end. -/
theorem plan_of_useless (hsize : TransactionRepository.intArgument processor.pageSize = .ok take)
    (hrows : w.snapshots.rows ≠ [])
    (h : take = 0 ∨ ¬ Reaches processor.concurrency (min take.natAbs w.snapshots.rows.length) ∨
      Fractional processor take ∧ take.natAbs < w.snapshots.rows.length) :
    plan processor w take rounds pages none = none ∨
      ∃ rows, plan processor w take rounds pages none = some rows ∧ (∀ row ∈ rows, row ∈ w.snapshots.rows) ∧
        ∃ row ∈ w.snapshots.rows, row ∉ rows := by
  have hlen := length_pageAt_none (w := w) take
  have hpos := List.length_pos_iff.mpr hrows
  have hnothing : plan processor w take rounds pages none = some [] →
      ∃ rows, plan processor w take rounds pages none = some rows ∧ (∀ row ∈ rows, row ∈ w.snapshots.rows) ∧
        ∃ row ∈ w.snapshots.rows, row ∉ rows := by
    intro hnil
    obtain ⟨row, hrow⟩ := List.exists_mem_of_ne_nil _ hrows
    exact ⟨[], hnil, fun _ h => absurd h List.not_mem_nil, row, hrow, List.not_mem_nil⟩
  by_cases hnan : processor.concurrency = .nan
  · exact (plan_nan hnan).imp_right hnothing
  · cases pages with
    | zero => exact .inl rfl
    | succ pages =>
      rcases h with rfl | hnever | ⟨hfrac, hlt⟩
      · refine .inr (hnothing ?_)
        rw [plan]
        refine if_pos (List.isEmpty_iff_length_eq_zero.mpr ?_)
        rw [hlen]
        exact Nat.zero_min _
      · by_cases htake : take = 0
        · refine .inr (hnothing ?_)
          rw [plan]
          refine if_pos (List.isEmpty_iff_length_eq_zero.mpr ?_)
          rw [hlen, htake]
          exact Nat.zero_min _
        · left
          have hnonempty : ¬ (pageAt w take none).isEmpty = true := by
            rw [List.isEmpty_iff_length_eq_zero, hlen]
            omega
          have hbs : batches processor.concurrency (pageAt w take none) rounds (.finite 0) = none := by
            rw [batches_eq_none_iff, hlen]
            intro j _
            by_contra hj
            exact hnever ⟨hnan, j, Bool.eq_false_iff.mpr hj⟩
          rw [plan, if_neg hnonempty, hbs, Option.bind_none]
      · have hnonneg := nonneg_of_fractional hsize hfrac
        have hanchor : ∀ k ∈ (none : Option String), ∃ row ∈ w.snapshots.rows, row.id = k := by nofun
        obtain ⟨row, hrow, hout⟩ := exists_not_mem_pageAt hlt
        rw [plan]
        by_cases hempty : (pageAt w take none).isEmpty = true
        · right
          exact ⟨[], if_pos hempty, fun _ h => absurd h List.not_mem_nil, row, hrow, List.not_mem_nil⟩
        · rw [if_neg hempty]
          cases hbs : batches processor.concurrency (pageAt w take none) rounds (.finite 0) with
          | none => exact .inl rfl
          | some bs =>
            right
            have hends : (Js.Number.finite (pageAt w take none).length).lt processor.pageSize = true :=
              lt_of_fractional hfrac (by omega)
            rw [Option.bind_some, if_pos hends]
            exact ⟨_, rfl, fun row hrow => mem_of_mem_pageAt hanchor (mem_of_mem_batches hbs hrow), row, hrow,
              fun hmem => hout (mem_of_mem_batches hbs hmem)⟩

/-! ## The whole sweep -/

/-- A sweep that ends: it has checked every snapshot if it publishes, and has not published if it fails. -/
def Settles (processor : BalanceDriftProcessor) (turns : Nat → Nat → BatchTurns) (inp : Nat → DriftInput)
    (w : DriftWorld) : Prop :=
  ∃ rounds, (run DriftOp.exec (processor.sweep turns rounds) inp w).1 ≠ .ok none ∧
    (∀ e, (run DriftOp.exec (processor.sweep turns rounds) inp w).1 = .error e →
      Unpublished w (run DriftOp.exec (processor.sweep turns rounds) inp w).2) ∧
    ∀ summary, (run DriftOp.exec (processor.sweep turns rounds) inp w).1 = .ok (some summary) →
      ∀ row ∈ w.snapshots.rows, ∃ m ∈ trace DriftOp.exec (processor.sweep turns rounds) inp w,
        check? m.op = some (row.walletId, row.tokenId)

/-- There is nothing to check, or the size of a page is rejected, or the first page is too long for an array, or
it is not empty, the steps reach the end of it, and it holds everything if the size has a fraction. -/
def Usable (processor : BalanceDriftProcessor) (snapshots : Nat) : Prop :=
  snapshots = 0 ∨ (∀ take, TransactionRepository.intArgument processor.pageSize ≠ .ok take) ∨
    ∃ take, TransactionRepository.intArgument processor.pageSize = .ok take ∧
      (2 ^ 32 ≤ min take.natAbs snapshots ∨ take ≠ 0 ∧
        Reaches processor.concurrency (min take.natAbs snapshots) ∧
        (Fractional processor take → snapshots ≤ take.natAbs))

theorem wp_sweep_plan (htake : TransactionRepository.intArgument processor.pageSize = .ok take)
    (hsmall : min take.natAbs w.snapshots.rows.length < 2 ^ 32) (turns : Nat → Nat → BatchTurns) (rounds : Nat) :
    wp DriftOp.exec Still Gauged (processor.sweep turns rounds)
      (fun tr r w' => (∀ e, r = .error e → w' = w) ∧
        Planned (plan processor w take rounds rounds none) [] [] tr r) w := by
  have hstill : ∀ w w', Still w w' → Gauged w w' := by
    rintro w _ rfl
    rfl
  simp only [BalanceDriftProcessor.sweep, bind_eq]
  refine wp_bind.mpr (wp_mono ?_ (wp_weaken (fun _ _ h => h) hstill
    (wp_sweepPages_plan htake hsmall turns rounds rounds (fun _ h => by cases h) account_nil)))
  rintro tr₁ r w₁ ⟨hw₁, hplanned⟩
  cases r with
  | error e =>
    exact ⟨fun _ _ => hw₁, fun _ _ => hplanned.failed e rfl, (fun h => by cases h), (fun _ h => by cases h)⟩
  | ok out =>
    cases out with
    | none =>
      exact ⟨(fun _ h => by cases h), (fun _ h => by cases h), fun _ => hplanned.endless rfl, (fun _ h => by cases h)⟩
    | some summary =>
      obtain ⟨rows, ms, cursors, hrows, hms, hacc⟩ := hplanned.ended summary rfl
      refine wp_bind.mpr (wp_mono ?_ (wp_weaken still_grows (fun _ _ h => h) (wp_publish summary w₁)))
      rintro tr₂ _ w₂ ⟨rfl, hquiet, -⟩
      refine ⟨(fun _ h => by cases h), (fun _ h => by cases h), (fun h => by cases h), ?_⟩
      rintro _ ⟨⟩
      refine ⟨rows, ms, cursors, hrows, hms, ?_⟩
      rw [List.append_nil, ← List.append_assoc]
      exact hacc.quiet hquiet

theorem sweep_rejected (h : ∀ take, TransactionRepository.intArgument processor.pageSize ≠ .ok take)
    (turns : Nat → Nat → BatchTurns) (inp : Nat → DriftInput) (w : DriftWorld) :
    ∃ e, run DriftOp.exec (processor.sweep turns 1) inp w = (.error e, w) := by
  cases htake : TransactionRepository.intArgument processor.pageSize with
  | ok take => exact absurd htake (h take)
  | error e =>
    simp only [BalanceDriftProcessor.sweep, sweepPages, BalanceRepository.findPageForReconciliation, htake]
    exact ⟨e, rfl⟩

/-- A first page that is too long for an array ends the sweep. -/
theorem sweep_too_long (htake : TransactionRepository.intArgument processor.pageSize = .ok take)
    (hlong : 2 ^ 32 ≤ min take.natAbs w.snapshots.rows.length) (turns : Nat → Nat → BatchTurns)
    (inp : Nat → DriftInput) : ∃ e, run DriftOp.exec (processor.sweep turns 1) inp w = (.error e, w) := by
  have hpage : wp DriftOp.exec Still Still (BalanceRepository.findPageForReconciliation none processor.pageSize)
      (fun _ r w' => (∃ e, r = .error e) ∧ w' = w) w := by
    simp only [BalanceRepository.findPageForReconciliation, htake, bind_eq]
    refine wp_bind.mpr (wp_ofExcept.mpr (wp_perform.mpr ?_))
    intro w₁ hw₁ i
    obtain rfl := eq_of_still hw₁
    rw [← length_pageAt_none, pageAt] at hlong
    rw [DriftOp.exec]
    cases i.fault with
    | some message => exact ⟨rfl, ⟨_, rfl⟩, rfl⟩
    | none =>
      dsimp only
      rw [if_pos hlong]
      exact ⟨rfl, ⟨_, rfl⟩, rfl⟩
  have hsweep : wp DriftOp.exec Still Still (processor.sweep turns 1)
      (fun _ r w' => (∃ e, r = .error e) ∧ w' = w) w := by
    simp only [BalanceDriftProcessor.sweep, sweepPages, bind_eq]
    refine wp_bind.mpr (wp_bind.mpr (wp_mono ?_ hpage))
    rintro tr _ w' ⟨⟨e, rfl⟩, hw'⟩
    exact ⟨⟨e, rfl⟩, hw'⟩
  obtain ⟨⟨e, he⟩, hw⟩ := run_of_wp hsweep inp
  exact ⟨e, Prod.ext he hw⟩

/-- The sweep comes to what is planned, unless a query fails. -/
theorem run_planned (htake : TransactionRepository.intArgument processor.pageSize = .ok take)
    (hsmall : min take.natAbs w.snapshots.rows.length < 2 ^ 32) (turns : Nat → Nat → BatchTurns)
    (inp : Nat → DriftInput) (rounds : Nat) :
    ((∃ e, run DriftOp.exec (processor.sweep turns rounds) inp w = (.error e, w)) ∧ ∃ n, (inp n).fault ≠ none) ∨
      ((run DriftOp.exec (processor.sweep turns rounds) inp w).1 = .ok none ∧
        plan processor w take rounds rounds none = none) ∨
      ∃ (summary : BalanceDriftSweepSummary) (rows : List SnapshotForReconciliation),
        (run DriftOp.exec (processor.sweep turns rounds) inp w).1 = .ok (some summary) ∧
        plan processor w take rounds rounds none = some rows ∧
        ∀ key, (∃ m ∈ trace DriftOp.exec (processor.sweep turns rounds) inp w, check? m.op = some key) ↔
          ∃ row ∈ rows, key = (row.walletId, row.tokenId) := by
  obtain ⟨hkept, hplanned⟩ := run_of_wp (wp_sweep_plan (w := w) htake hsmall turns rounds) inp
  have hfaulted : Faulted (trace DriftOp.exec (processor.sweep turns rounds) inp w) → ∃ n, (inp n).fault ≠ none := by
    rintro ⟨m, hm, hfault⟩
    obtain ⟨n, hn⟩ := input_of_mem_trace hm
    exact ⟨n, hn ▸ hfault⟩
  generalize trace DriftOp.exec (processor.sweep turns rounds) inp w = tr at hplanned hfaulted ⊢
  generalize run DriftOp.exec (processor.sweep turns rounds) inp w = out at hkept hplanned ⊢
  obtain ⟨r, w'⟩ := out
  cases r with
  | error e =>
    obtain rfl := hkept e rfl
    exact .inl ⟨⟨e, rfl⟩, hfaulted (hplanned.failed e rfl)⟩
  | ok out =>
    cases out with
    | none => exact .inr (.inl ⟨rfl, hplanned.endless rfl⟩)
    | some summary =>
      obtain ⟨rows, ms, cursors, hrows, hms, hacc⟩ := hplanned.ended summary rfl
      rw [List.nil_append, List.nil_append] at hacc
      refine .inr (.inr ⟨summary, rows, rfl, hrows, ?_⟩)
      intro key
      constructor
      · rintro ⟨m, hm, hkey⟩
        have hmem : m ∈ tr.filter fun m => (check? m.op).isSome :=
          List.mem_filter.mpr ⟨hm, by rw [hkey]; rfl⟩
        rw [hacc.checks.mem_iff] at hmem
        obtain ⟨d, hd, rfl⟩ := List.mem_map.mp hmem
        obtain ⟨frontier, hop⟩ := hacc.each d hd
        rw [hop, check?_checkOf, Option.some.injEq] at hkey
        exact ⟨d.1, (List.of_mem_zip hd).1, hkey.symm⟩
      · rintro ⟨row, hrow, rfl⟩
        have hfst : (rows.zip ms).map (fun d => d.1) = rows := List.map_fst_zip hms.ge
        rw [← hfst] at hrow
        obtain ⟨d, hd, rfl⟩ := List.mem_map.mp hrow
        obtain ⟨frontier, hop⟩ := hacc.each d hd
        have hmem := hacc.checks.mem_iff.mpr (List.mem_map_of_mem hd)
        exact ⟨d.2, (List.mem_filter.mp hmem).1, by rw [hop, check?_checkOf]⟩

/-- Nothing to check, or pages and steps of use: every snapshot is planned. -/
theorem plan_of_usable (htake : TransactionRepository.intArgument processor.pageSize = .ok take)
    (h : w.snapshots.rows.length = 0 ∨ take ≠ 0 ∧
      Reaches processor.concurrency (min take.natAbs w.snapshots.rows.length) ∧
      (Fractional processor take → w.snapshots.rows.length ≤ take.natAbs)) :
    ∃ rounds rows, plan processor w take rounds rounds none = some rows ∧ ∀ row ∈ w.snapshots.rows, row ∈ rows := by
  rcases h with hnone | ⟨hne, ⟨hnan, j, hj⟩, hfull⟩
  · have hlen := length_pageAt_none (w := w) take
    rw [hnone, Nat.min_zero, List.length_eq_zero_iff] at hlen
    refine ⟨1, [], ?_, ?_⟩
    · rw [plan, hlen]
      rfl
    · rw [List.length_eq_zero_iff.mp hnone]
      simp
  · have hcount : w.snapshots.rows.countP (Ahead take none) ≤ w.snapshots.rows.length := List.countP_le_length
    have hplan : ∃ rows, plan processor w take (j + w.snapshots.rows.length + 1)
        (j + w.snapshots.rows.length + 1) none = some rows ∧
        ∀ row ∈ w.snapshots.rows, Ahead take none row = true → row ∈ rows :=
      plan_of_reaches htake hne hfull hnan hj (by omega) (by nofun) (by omega)
    obtain ⟨rows, hrows, hall⟩ := hplan
    exact ⟨_, rows, hrows, fun row hrow => hall row hrow rfl⟩

theorem settles_of_error {turns : Nat → Nat → BatchTurns} {inp : Nat → DriftInput} {rounds : Nat} {e : JsError}
    (h : run DriftOp.exec (processor.sweep turns rounds) inp w = (.error e, w)) : Settles processor turns inp w := by
  refine ⟨rounds, ?_, ?_, ?_⟩
  · rw [h]
    exact fun hr => by cases hr
  · intro _ _
    rw [h]
    exact ⟨rfl, rfl⟩
  · intro summary hr
    rw [h] at hr
    cases hr

/-- **Usable settings**, whether a query fails or not. -/
theorem settles_of_usable (h : Usable processor w.snapshots.rows.length) (turns : Nat → Nat → BatchTurns)
    (inp : Nat → DriftInput) : Settles processor turns inp w := by
  by_cases hrejected : ∀ take, TransactionRepository.intArgument processor.pageSize ≠ .ok take
  · exact settles_of_error (sweep_rejected hrejected turns inp w).choose_spec
  · simp only [ne_eq, not_forall, not_not] at hrejected
    obtain ⟨take, htake⟩ := hrejected
    rcases Nat.lt_or_ge (min take.natAbs w.snapshots.rows.length) (2 ^ 32) with hsmall | hlong
    · have huse : w.snapshots.rows.length = 0 ∨ take ≠ 0 ∧
          Reaches processor.concurrency (min take.natAbs w.snapshots.rows.length) ∧
          (Fractional processor take → w.snapshots.rows.length ≤ take.natAbs) := by
        rcases h with hnone | hno | ⟨take', htake', h⟩
        · exact .inl hnone
        · exact absurd htake (hno take)
        · rw [htake, Except.ok.injEq] at htake'
          subst htake'
          exact .inr (h.resolve_left (Nat.not_le.mpr hsmall))
      obtain ⟨rounds, rows, hplan, hall⟩ := plan_of_usable htake huse
      rcases run_planned htake hsmall turns inp rounds with ⟨⟨e, he⟩, -⟩ | ⟨-, hnone⟩ | ⟨summary, rows', hr, hplan', hchecks⟩
      · exact settles_of_error he
      · rw [hplan] at hnone
        cases hnone
      · rw [hplan, Option.some.injEq] at hplan'
        subst hplan'
        refine ⟨rounds, ?_, ?_, fun _ _ row hrow => (hchecks _).mpr ⟨row, hall row hrow, rfl⟩⟩
        · rw [hr]
          exact fun h => by cases h
        · intro e he
          rw [hr] at he
          cases he
    · exact settles_of_error (sweep_too_long htake hlong turns inp).choose_spec

/-- **A run without a failing query that settles** has usable settings. -/
theorem usable_of_settles {turns : Nat → Nat → BatchTurns} {inp : Nat → DriftInput}
    (hquiet : ∀ n, (inp n).fault = none) (h : Settles processor turns inp w) :
    Usable processor w.snapshots.rows.length := by
  obtain ⟨rounds, hends, -, hall⟩ := h
  by_contra hunusable
  obtain ⟨hsome, hunusable⟩ := not_or.mp hunusable
  obtain ⟨haccepted, huseless⟩ := not_or.mp hunusable
  simp only [ne_eq, not_forall, not_not] at haccepted
  obtain ⟨take, htake⟩ := haccepted
  have hrows : w.snapshots.rows ≠ [] := fun hnil => hsome (List.length_eq_zero_iff.mpr hnil)
  have hsmall : min take.natAbs w.snapshots.rows.length < 2 ^ 32 :=
    Nat.not_le.mp fun hlong => huseless ⟨take, htake, .inl hlong⟩
  have huseless' : take = 0 ∨ ¬ Reaches processor.concurrency (min take.natAbs w.snapshots.rows.length) ∨
      Fractional processor take ∧ take.natAbs < w.snapshots.rows.length := by
    by_contra hno
    rw [not_or, not_or, not_not, not_and, Nat.not_lt] at hno
    exact huseless ⟨take, htake, .inr hno⟩
  rcases run_planned htake hsmall turns inp rounds with ⟨-, n, hfault⟩ | ⟨hnone, -⟩ | ⟨summary, rows, hr, hplan, hchecks⟩
  · exact hfault (hquiet n)
  · exact hends hnone
  · rcases @plan_of_useless processor w take rounds rounds htake hrows huseless' with
      hnone | ⟨rows', hplan', hmem, row, hrow, hout⟩
    · rw [hplan] at hnone
      cases hnone
    · rw [hplan, Option.some.injEq] at hplan'
      subst hplan'
      -- the check of this snapshot is the check of a snapshot that is planned
      obtain ⟨row', hrow', hkey⟩ := (hchecks _).mp (hall summary hr row hrow)
      have hsame := DriftWorld.eq_of_pair hrow (hmem row' hrow') hkey
      exact hout (hsame ▸ hrow')

/-- **Which settings let every sweep end that has checked every snapshot before it publishes**: those that leave
nothing to check or that the query does not answer, and those whose pages hold rows and whose steps reach the end
of a page; a size with a fraction is good for one page. -/
theorem sweeps_settle_iff (processor : BalanceDriftProcessor) (w : DriftWorld) :
    (∀ turns inp, Settles processor turns inp w) ↔ Usable processor w.snapshots.rows.length :=
  ⟨fun hsettles => usable_of_settles (fun _ => rfl) (hsettles (fun _ _ => {}) fun _ => {}),
    fun husable turns inp => settles_of_usable husable turns inp⟩

/-- A concurrency that is no number: the sweep publishes without a check. -/
theorem five_not_settled :
    ¬ ∀ turns inp, Settles (createBalanceDriftProcessor fun name =>
      if name = "BALANCE_DRIFT_CONCURRENCY" then some "five" else none) turns inp threeSnapshots := by
  intro hsettles
  have hnan : (createBalanceDriftProcessor fun name =>
      if name = "BALANCE_DRIFT_CONCURRENCY" then some "five" else none).concurrency = .nan := by decide +kernel
  have hsize : TransactionRepository.intArgument (createBalanceDriftProcessor fun name =>
      if name = "BALANCE_DRIFT_CONCURRENCY" then some "five" else none).pageSize = .ok 200 := by decide +kernel
  rcases usable_of_settles (fun _ => rfl) (hsettles (fun _ _ => {}) fun _ => {}) with hempty | hrejected | ⟨take, htake, hlong | ⟨_, hreaches, _⟩⟩
  · cases hempty
  · exact hrejected 200 hsize
  · rw [hsize, Except.ok.injEq] at htake
    subst htake
    exact absurd hlong (by decide)
  · exact hreaches.1 hnan

/-- **One sweep decides it**, however its calls interleave, if its queries are answered. -/
theorem sweep_settles_iff (processor : BalanceDriftProcessor) (turns : Nat → Nat → BatchTurns)
    {inp : Nat → DriftInput} (hquiet : ∀ n, (inp n).fault = none) (w : DriftWorld) :
    Settles processor turns inp w ↔ Usable processor w.snapshots.rows.length :=
  ⟨usable_of_settles hquiet, fun husable => settles_of_usable husable turns inp⟩

/-- Pages of two and a half rows: the first one is taken for the last. -/
theorem sweep_settles_iff_fraction :
    ¬ Settles ⟨.finite (5 / 2), .finite 5⟩ (fun _ _ => {}) (fun _ => {}) threeSnapshots := by
  have hsize : TransactionRepository.intArgument (.finite (5 / 2)) = .ok 2 := by decide +kernel
  have hfraction : Fractional ⟨.finite (5 / 2), .finite 5⟩ 2 := by
    rw [Fractional]
    decide +kernel
  intro hsettles
  rcases (sweep_settles_iff _ _ (fun _ => rfl) _).mp hsettles with hempty | hrejected | ⟨take, htake, hlong | ⟨-, -, hwhole⟩⟩
  · cases hempty
  · exact hrejected 2 hsize
  · rw [hsize, Except.ok.injEq] at htake
    subst htake
    exact absurd hlong (by decide)
  · rw [hsize, Except.ok.injEq] at htake
    subst htake
    exact absurd (hwhole hfraction) (by decide)

end BalanceDriftProcessor

end TransactionSimulator
