import TransactionSimulator.Indexer.Scan

/-!
# Requests after a rejection

A request that the provider rejects for its range is followed by one on half of the window size.  The window
may be cut off by the end of the scan, so that half of its size still asks for the same blocks.

* `Halves`: how the sizes and the starts of the requests follow on one another.
* `narrows_iff`: every request after a rejection covers fewer blocks than the rejected one, exactly if half of
  the size in force never reaches beyond the end of the scan.
-/

namespace TransactionSimulator

open Concurrent Prog

section

variable {TLog : Type}

namespace ScanCall

/-- The first block of a request. -/
def first : ScanCall TLog → Int
  | fetch start _ => start
  | _ => 0

/-- How many blocks a request covers. -/
def blocks : ScanCall TLog → Int
  | fetch start last => last - start + 1
  | _ => 0

end ScanCall

variable {ι σ : Type} (exec : (o : ScanCall TLog) → ι → σ → Except JsError o.Res × σ) (finish : Int)

/-- A request that is rejected for its range. -/
def rejected (m : Moment (ScanCall TLog) ι σ) : Bool :=
  match m.op with
  | .fetch start last =>
    match (exec (.fetch start last) m.input m.state).1 with
    | .error e => isBlockRangeLimitError e
    | .ok _ => false
  | _ => false

/-- Each request after a rejected one covers fewer blocks. -/
def Narrows (tr : List (Moment (ScanCall TLog) ι σ)) : Prop :=
  tr.Pairwise fun m m' => rejected exec m = true → m'.op.isFetch = true → m'.op.blocks < m.op.blocks

instance (tr : List (Moment (ScanCall TLog) ι σ)) : Decidable (Narrows exec tr) :=
  inferInstanceAs (Decidable (tr.Pairwise _))

/-- Whenever a request is rejected and another one follows, half of the size in force, `maxRange` halved once
for each rejection so far, does not reach beyond the end of the scan. -/
def HalfInside (maxRange : Int) (tr : List (Moment (ScanCall TLog) ι σ)) : Prop :=
  ∀ pre m post, tr = pre ++ m :: post → rejected exec m = true → Found (fun m' => m'.op.isFetch = true) post →
    m.op.first + maxRange / 2 ^ (pre.countP (rejected exec) + 1) - 1 < finish

/-- The requests of a scan: each is the window of the size in force; after a rejection comes the call of
`onShrink`, and if there is anything after it, a request from the same block on half of the size. -/
def Halves : Int → List (Moment (ScanCall TLog) ι σ) → Prop
  | _, [] => True
  | size, m :: tr =>
    (∀ start last, m.op = .fetch start last → start ≤ finish ∧ last = windowEnd start size finish) ∧
      if rejected exec m = true then
        (∀ m' ∈ tr, m'.op.isFetch = false) ∨
          1 < size ∧ Halves (size / 2) tr ∧ ∃ m' ∈ tr, m'.op = .fetch m.op.first (windowEnd m.op.first (size / 2) finish)
      else Halves size tr

variable {exec finish} {m : Moment (ScanCall TLog) ι σ} {tr : List (Moment (ScanCall TLog) ι σ)} {size start : Int}

/-! ## The two ways to say it -/

theorem blocks_windowEnd (start size finish : Int) :
    (ScanCall.fetch start (windowEnd start size finish) : ScanCall TLog).blocks = min size (finish - start + 1) := by
  simp only [ScanCall.blocks, windowEnd]
  split <;> omega

theorem isFetch_of_rejected (h : rejected exec m = true) :
    ∃ start last, m.op = .fetch start last := by
  obtain ⟨s, o, i⟩ := m
  cases o with
  | fetch start last => exact ⟨start, last, rfl⟩
  | onWindow | onShrink => cases h

/-- No request covers more blocks than the size that was in force before it. -/
theorem Halves.blocks_le (h : Halves exec finish size tr) {m' : Moment (ScanCall TLog) ι σ} (hm : m' ∈ tr)
    (hfetch : m'.op.isFetch = true) : m'.op.blocks ≤ size := by
  induction tr generalizing size with
  | nil => cases hm
  | cons m tr ih =>
    obtain ⟨hwindow, hrest⟩ := h
    rcases List.mem_cons.mp hm with rfl | hm
    · obtain ⟨s, o, i⟩ := m'
      cases o with
      | fetch start last =>
        obtain ⟨-, rfl⟩ := hwindow start last rfl
        rw [blocks_windowEnd]
        exact min_le_left _ _
      | onWindow | onShrink => cases hfetch
    · split at hrest
      · rcases hrest with hnone | ⟨hsize, hhalf, -⟩
        · rw [hnone m' hm] at hfetch
          cases hfetch
        · have hle := ih hhalf hm
          omega
      · exact ih hrest hm

theorem halfInside_cons : HalfInside exec finish size (m :: tr) ↔
    (rejected exec m = true → Found (fun m' => m'.op.isFetch = true) tr → m.op.first + size / 2 - 1 < finish) ∧
      HalfInside exec finish (if rejected exec m = true then size / 2 else size) tr := by
  constructor
  · intro h
    refine ⟨fun hm hfound => h [] m tr rfl hm hfound, ?_⟩
    intro pre m' post htr hm' hfound
    have hat := h (m :: pre) m' post (by rw [htr, List.cons_append]) hm' hfound
    rw [List.countP_cons] at hat
    split
    · next hm =>
      rw [if_pos hm] at hat
      rwa [Int.ediv_ediv_of_nonneg (by decide), ← pow_succ']
    · next hm =>
      rw [if_neg hm] at hat
      exact hat
  · rintro ⟨hfirst, hrest⟩ pre m' post htr hm' hfound
    cases pre with
    | nil =>
      obtain ⟨rfl, rfl⟩ := List.cons.inj htr
      exact hfirst hm' hfound
    | cons m₀ pre =>
      obtain ⟨rfl, htail⟩ := List.cons.inj htr
      have hat := hrest pre m' post htail hm' hfound
      rw [List.countP_cons]
      split
      · next hm =>
        rwa [if_pos hm, Int.ediv_ediv_of_nonneg (by decide), ← pow_succ'] at hat
      · next hm =>
        rwa [if_neg hm] at hat

theorem found_isFetch_iff : Found (fun m' => m'.op.isFetch = true) tr ↔ ¬ ∀ m' ∈ tr, m'.op.isFetch = false := by
  simp only [Found, not_forall, Bool.not_eq_false, exists_prop]

/-- **Request by request**: where half of the size in force is inside, and only there, what follows covers fewer
blocks. -/
theorem Halves.narrows_iff_halfInside (h : Halves exec finish size tr) : Narrows exec tr ↔ HalfInside exec finish size tr := by
  induction tr generalizing size with
  | nil =>
    refine iff_of_true .nil ?_
    intro pre m post htr
    simp at htr
  | cons m tr ih =>
    obtain ⟨hwindow, hrest⟩ := h
    rw [Narrows, List.pairwise_cons, ← Narrows, halfInside_cons]
    by_cases hm : rejected exec m = true
    · rw [if_pos hm] at hrest ⊢
      obtain ⟨start, last, hop⟩ := isFetch_of_rejected hm
      obtain ⟨hstart, rfl⟩ := hwindow start last hop
      have hblocks : m.op.blocks = min size (finish - start + 1) := by rw [hop, blocks_windowEnd]
      have hfirst : m.op.first = start := by rw [hop]; rfl
      rcases hrest with hnone | ⟨hsize, hhalf, m', hm', hnext⟩
      · -- nothing is requested any more
        have hnarrows : Narrows exec tr :=
          List.Pairwise.imp_of_mem (R := fun _ _ => True) (fun _ hm' _ _ hfetch => by
            rw [hnone _ hm'] at hfetch
            cases hfetch) (List.pairwise_of_forall fun _ _ => trivial)
        refine iff_of_true ⟨?_, hnarrows⟩ ⟨?_, ?_⟩
        · intro m' hm' _ hfetch
          rw [hnone m' hm'] at hfetch
          cases hfetch
        · exact fun _ hfound => absurd hnone (found_isFetch_iff.mp hfound)
        · rintro pre m' post rfl - ⟨m'', hm'', hfetch⟩
          rw [hnone m'' (by simp [hm''])] at hfetch
          cases hfetch
      · rw [hfirst] at hnext ⊢
        refine and_congr ?_ (ih hhalf)
        constructor
        · intro hall _ _
          have hless := hall m' hm' hm (by rw [hnext]; rfl)
          rw [hnext, blocks_windowEnd, hblocks] at hless
          omega
        · intro hinside m'' hm'' _ hfetch
          have hlt := hinside hm ⟨m'', hm'', hfetch⟩
          have hle := hhalf.blocks_le hm'' hfetch
          omega
    · rw [if_neg hm] at hrest ⊢
      refine and_congr ?_ (ih hrest)
      exact iff_of_true (fun _ _ hrej => absurd hrej hm) fun hrej => absurd hrej hm

/-! ## The scan -/

/-- What `fetchWindow` does before a rest `tr'` of the scan, which begins if a window was fetched. -/
def FetchHalves (exec : (o : ScanCall TLog) → ι → σ → Except JsError o.Res × σ) (start finish size : Int)
    (tr : List (Moment (ScanCall TLog) ι σ)) (r : Except JsError (List TLog × Int × Int)) : Prop :=
  (∃ m ∈ tr, m.op = .fetch start (windowEnd start size finish)) ∧
    match r with
    | .ok (_, _, size') => ∀ tr', Halves exec finish size' tr' → Halves exec finish size (tr ++ tr')
    | .error _ => Halves exec finish size tr

variable {w : σ}

/-- One attempt. -/
theorem wp_fetch_halves :
    wp exec Alone (fun _ _ => True)
      ((perform (ScanCall.fetch start (windowEnd start size finish))).bind fun logs =>
        .pure (logs, windowEnd start size finish, size))
      (fun tr r _ => ∃ m, tr = [m] ∧ m.op = .fetch start (windowEnd start size finish) ∧
        (rejected exec m = true ↔ ∃ e, r = .error e ∧ isBlockRangeLimitError e = true) ∧
        ∀ logs last size', r = .ok (logs, last, size') → size' = size) w := by
  rw [wp_bind, wp_perform]
  intro w₁ _ i
  refine ⟨trivial, ?_⟩
  cases hr : (exec (.fetch start (windowEnd start size finish)) i w₁).1 with
  | error e =>
    refine ⟨_, rfl, rfl, ?_, fun _ _ _ h => by cases h⟩
    simp [rejected, hr]
  | ok logs =>
    refine ⟨_, rfl, rfl, ?_, ?_⟩
    · simp [rejected, hr]
    · intro logs' last size' h
      cases h
      rfl

theorem request_of_op (hstart : start ≤ finish) (hop : m.op = .fetch start (windowEnd start size finish)) :
    (∀ start' last, m.op = .fetch start' last → start' ≤ finish ∧ last = windowEnd start' size finish) := by
  intro start' last hop'
  rw [hop'] at hop
  cases hop
  exact ⟨hstart, rfl⟩

theorem fetchHalves_of_accepted (hstart : start ≤ finish) (hop : m.op = .fetch start (windowEnd start size finish))
    (hm : ¬ rejected exec m = true) (logs : List TLog) (last : Int) :
    FetchHalves exec start finish size [m] (.ok (logs, last, size)) := by
  refine ⟨⟨m, List.mem_singleton_self _, hop⟩, ?_⟩
  intro tr' htr'
  refine ⟨request_of_op hstart hop, ?_⟩
  rw [if_neg hm]
  exact htr'

/-- Calls that are no requests. -/
theorem Halves.cons_of_not_fetch (h : Halves exec finish size tr) (hm : m.op.isFetch = false) :
    Halves exec finish size (m :: tr) := by
  have hrejected : ¬ rejected exec m = true := by
    intro hrej
    obtain ⟨start, last, hop⟩ := isFetch_of_rejected hrej
    rw [hop] at hm
    cases hm
  refine ⟨?_, ?_⟩
  · intro start last hop
    rw [hop] at hm
    cases hm
  · rw [if_neg hrejected]
    exact h

/-- **A window is fetched**: the size is halved after each rejection. -/
theorem wp_fetchWindow_halves (hstart : start ≤ finish) (fuel : Nat) (hfuel : size.toNat ≤ fuel) :
    wp exec Alone (fun _ _ => True)
      (fetchWindow (fun first last => perform (ScanCall.fetch first last))
        (fun newRange error => perform (ScanCall.onShrink newRange error)) start finish fuel size)
      (fun tr r _ => FetchHalves exec start finish size tr r) w := by
  induction fuel generalizing size w with
  | zero =>
    refine wp_mono ?_ wp_fetch_halves
    rintro tr r w₁ ⟨m, rfl, hop, hrejected, hsize⟩
    cases r with
    | ok fetched =>
      obtain ⟨logs, last, size'⟩ := fetched
      cases hsize logs last size' rfl
      exact fetchHalves_of_accepted hstart hop (by simp [hrejected]) logs last
    | error e =>
      refine ⟨⟨m, List.mem_singleton_self _, hop⟩, ?_⟩
      refine ⟨request_of_op hstart hop, ?_⟩
      split
      · exact .inl (by simp)
      · exact trivial
  | succ fuel ih =>
    rw [fetchWindow, tryCatch_eq, wp_tryCatch]
    refine wp_mono ?_ wp_fetch_halves
    rintro tr r w₁ ⟨m, rfl, hop, hrejected, hsize⟩
    cases r with
    | ok fetched =>
      obtain ⟨logs, last, size'⟩ := fetched
      cases hsize logs last size' rfl
      exact fetchHalves_of_accepted hstart hop (by simp [hrejected]) logs last
    | error e =>
      dsimp only
      have hlast : ∀ tr' : List (Moment (ScanCall TLog) ι σ), (∀ m' ∈ tr', m'.op.isFetch = false) →
          Halves exec finish size tr' → Halves exec finish size ([m] ++ tr') := by
        intro tr' hnone htr'
        refine ⟨request_of_op hstart hop, ?_⟩
        split
        · exact .inl hnone
        · exact htr'
      by_cases hretry : (decide (1 < size) && isBlockRangeLimitError e) = true
      · rw [if_pos hretry, bind_eq, wp_bind, wp_perform]
        intro w₂ _ i
        refine ⟨trivial, ?_⟩
        rw [Bool.and_eq_true, decide_eq_true_eq] at hretry
        have hrej : rejected exec m = true := hrejected.mpr ⟨e, rfl, hretry.2⟩
        cases (exec (.onShrink (size / 2) e) i w₂).1 with
        | error e' =>
          refine ⟨⟨m, List.mem_append_left _ (List.mem_singleton_self _), hop⟩, hlast _ ?_ ?_⟩
          · intro m' hm'
            rw [List.mem_singleton.mp hm']
            rfl
          · exact Halves.cons_of_not_fetch trivial rfl
        | ok a =>
          refine wp_mono ?_ (ih (by omega))
          rintro tr' r w₃ ⟨⟨m', hm', hnext⟩, hrest⟩
          have hfirst : m.op.first = start := by rw [hop]; rfl
          refine ⟨⟨m, List.mem_append_left _ (List.mem_singleton_self _), hop⟩, ?_⟩
          have hafter : ∀ tr'', Halves exec finish (size / 2) (tr' ++ tr'') →
              Halves exec finish size ([m] ++ (⟨w₂, .onShrink (size / 2) e, i⟩ :: tr') ++ tr'') := by
            intro tr'' htr''
            refine ⟨request_of_op hstart hop, ?_⟩
            rw [if_pos hrej]
            refine .inr ⟨hretry.1, Halves.cons_of_not_fetch htr'' rfl, m', ?_, ?_⟩
            · exact List.mem_cons_of_mem _ (List.mem_append_left _ hm')
            · rw [hfirst, hnext]
          cases r with
          | ok fetched =>
            intro tr'' htr''
            exact hafter tr'' (hrest tr'' htr'')
          | error e' =>
            have hend := hafter [] (by rwa [List.append_nil])
            rwa [List.append_nil] at hend
      · rw [if_neg hretry]
        refine ⟨⟨m, List.mem_append_left _ (List.mem_singleton_self _), hop⟩, ?_⟩
        exact hlast [] (by simp) trivial

/-- **A scan**: its requests follow on one another. -/
theorem wp_scanFrom_halves (remaining : Nat) (windows : Nat) (lastProcessed : Option Int) :
    wp exec Alone (fun _ _ => True)
      (scanFrom (fun first last => perform (ScanCall.fetch first last))
        (fun logs first last => perform (ScanCall.onWindow logs first last))
        (fun newRange error => perform (ScanCall.onShrink newRange error)) finish remaining start size
        windows lastProcessed)
      (fun tr _ _ => Halves exec finish size tr) w := by
  induction remaining generalizing start size windows lastProcessed w with
  | zero => exact trivial
  | succ remaining ih =>
    unfold scanFrom
    by_cases hstart : start ≤ finish
    swap
    · rw [if_neg hstart]
      exact trivial
    rw [if_pos hstart, bind_eq, wp_bind]
    refine wp_mono ?_ (wp_fetchWindow_halves hstart size.toNat le_rfl)
    rintro tr r w₁ ⟨-, hend⟩
    cases r with
    | error e => exact hend
    | ok fetched =>
      obtain ⟨logs, last, size'⟩ := fetched
      dsimp only at hend ⊢
      rw [bind_eq, wp_bind, wp_perform]
      intro w₂ _ i
      refine ⟨trivial, ?_⟩
      cases (exec (.onWindow logs start last) i w₂).1 with
      | error e => exact hend _ (Halves.cons_of_not_fetch trivial rfl)
      | ok a =>
        refine wp_mono ?_ (ih (windows + 1) (some last))
        intro tr' r w₃ hrest
        exact hend _ (hrest.cons_of_not_fetch rfl)

/-- **Every scan**: each request after a rejection covers fewer blocks than the rejected one, exactly if half of
the size in force ends before the end of the scan whenever a request is rejected and another one follows. -/
theorem narrows_iff (start finish maxRange : Int) (maxWindows : Nat) (inp : Nat → ι) (w : σ) :
    Narrows exec (trace exec (scan TLog start finish maxRange maxWindows) inp w) ↔
      HalfInside exec finish maxRange (trace exec (scan TLog start finish maxRange maxWindows) inp w) := by
  have hhalves : Halves exec finish maxRange (trace exec (scan TLog start finish maxRange maxWindows) inp w) :=
    run_of_wp (wp_scanFrom_halves maxWindows 0 none) inp
  exact hhalves.narrows_iff_halfInside

/-- A provider that takes no request of this size. -/
def noBlocks (o : ScanCall Int) (_ _ : Unit) : Except JsError o.Res × Unit :=
  match o with
  | .fetch _ _ => (.error (.error "block range is too large"), ())
  | .onWindow _ _ _ => (.ok (), ())
  | .onShrink _ _ => (.ok (), ())

/-- The last block alone, with a window of four blocks: it is requested three times. -/
theorem request_repeated :
    ¬ Narrows noBlocks (trace noBlocks (scan Int 9 9 4 1) (fun _ => ()) ()) ∧
      (trace noBlocks (scan Int 9 9 4 1) (fun _ => ()) ()).filterMap
        (fun m => if m.op.isFetch then some (m.op.first, m.op.blocks) else none) = [(9, 1), (9, 1), (9, 1)] := by
  constructor <;> decide +kernel

end

end TransactionSimulator
