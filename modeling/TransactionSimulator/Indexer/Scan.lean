import TransactionSimulator.Indexer.LogWindows

/-!
# What a scan does with the functions it is given

`scanLogWindows` on its own: `fetch`, `onWindow` and `onShrink` are calls, and may answer or fail in
any way.

* `Tiles`: windows that follow on one another within the range that was asked for.
* `wp_fetchWindow`: a window size is halved as often as it has binary digits, not counting the first.
* `wp_scanFrom`: what one window adds, the windows after it go on with.
* `scans_range`: the windows, the calls and the result of every scan.
-/

namespace TransactionSimulator

open Concurrent Prog

/-- The calls of a scan. -/
inductive ScanCall (TLog : Type)
  | fetch (start last : Int)
  | onWindow (logs : List TLog) (start last : Int)
  | onShrink (newRange : Int) (error : JsError)

/-- A window as it is handed to `onWindow`. -/
structure LogWindow (TLog : Type) where
  logs : List TLog
  start : Int
  last : Int
  deriving DecidableEq, Repr

section

variable {TLog : Type}

namespace ScanCall

@[reducible] def Res : ScanCall TLog → Type
  | fetch _ _ => List TLog
  | onWindow _ _ _ => Unit
  | onShrink _ _ => Unit

def isFetch : ScanCall TLog → Bool
  | fetch _ _ => true
  | _ => false

def window : ScanCall TLog → Option (LogWindow TLog)
  | onWindow logs start last => some ⟨logs, start, last⟩
  | _ => none

end ScanCall

/-- `scanLogWindows` with calls for its functions. -/
def scan (TLog : Type) (start finish maxRange : Int) (maxWindows : Nat) :
    Prog (ScanCall TLog) ScanCall.Res JsError ScanLogWindowsResult :=
  scanLogWindows (fun first last => perform (ScanCall.fetch first last))
    (fun logs first last => perform (ScanCall.onWindow logs first last))
    (fun newRange error => perform (ScanCall.onShrink newRange error)) start finish maxRange maxWindows

/-! ## Windows -/

/-- The windows follow on one another from `start` on; none is empty, goes beyond `finish` or has
more than `maxRange` blocks. -/
def Tiles (finish maxRange : Int) : Int → List (LogWindow TLog) → Prop
  | _, [] => True
  | start, x :: xs =>
    x.start = start ∧ x.start ≤ x.last ∧ x.last ≤ finish ∧ x.last - x.start < maxRange ∧
      Tiles finish maxRange (x.last + 1) xs

/-- The block after the last window. -/
def nextBlock (start : Int) (xs : List (LogWindow TLog)) : Int :=
  (xs.getLast?.map fun x => x.last + 1).getD start

variable {finish maxRange start : Int} {xs ys : List (LogWindow TLog)}

theorem nextBlock_cons (x : LogWindow TLog) :
    nextBlock start (x :: xs) = nextBlock (x.last + 1) xs := by
  cases xs with
  | nil => rfl
  | cons y ys =>
    rw [nextBlock, nextBlock, List.getLast?_cons_cons, List.getLast?_cons]
    rfl

theorem Tiles.mono {size : Int} (h : Tiles finish size start xs) (hsize : size ≤ maxRange) :
    Tiles finish maxRange start xs := by
  induction xs generalizing start with
  | nil => exact trivial
  | cons x xs ih =>
    obtain ⟨hstart, hfull, hinside, hrange, hrest⟩ := h
    exact ⟨hstart, hfull, hinside, by omega, ih hrest⟩

theorem Tiles.initial (h : Tiles finish maxRange start xs) (hys : ys <+: xs) :
    Tiles finish maxRange start ys := by
  induction ys generalizing start xs with
  | nil => exact trivial
  | cons y ys ih =>
    obtain ⟨zs, rfl⟩ := hys
    obtain ⟨hstart, hfull, hinside, hrange, hrest⟩ := h
    exact ⟨hstart, hfull, hinside, hrange, ih hrest ⟨zs, rfl⟩⟩

theorem Tiles.le_start (h : Tiles finish maxRange start xs) {x : LogWindow TLog} (hx : x ∈ xs) :
    start ≤ x.start := by
  induction xs generalizing start with
  | nil => cases hx
  | cons y ys ih =>
    obtain ⟨hstart, hfull, -, -, hrest⟩ := h
    rcases List.mem_cons.mp hx with rfl | hx
    · exact hstart.ge
    · have hlater := ih hrest hx
      omega

theorem Tiles.disjoint (h : Tiles finish maxRange start xs) :
    xs.Pairwise fun x y => x.last < y.start := by
  induction xs generalizing start with
  | nil => exact .nil
  | cons x xs ih =>
    obtain ⟨-, -, -, -, hrest⟩ := h
    refine .cons ?_ (ih hrest)
    intro y hy
    have hlater := hrest.le_start hy
    omega

theorem Tiles.le_nextBlock (h : Tiles finish maxRange start xs) : start ≤ nextBlock start xs := by
  induction xs generalizing start with
  | nil => exact le_rfl
  | cons x xs ih =>
    obtain ⟨hstart, hfull, -, -, hrest⟩ := h
    have hlater := ih hrest
    rw [nextBlock_cons]
    omega

/-- The blocks of the windows are those from `start` to before the next one. -/
theorem Tiles.mem_iff (h : Tiles finish maxRange start xs) (b : Int) :
    (∃ x ∈ xs, x.start ≤ b ∧ b ≤ x.last) ↔ start ≤ b ∧ b < nextBlock start xs := by
  induction xs generalizing start with
  | nil =>
    constructor
    · rintro ⟨x, hx, -⟩
      cases hx
    · rintro ⟨hle, hlt⟩
      exact absurd hlt (not_lt.mpr hle)
  | cons x xs ih =>
    obtain ⟨hstart, hfull, -, -, hrest⟩ := h
    have hnext := hrest.le_nextBlock
    rw [nextBlock_cons, List.exists_mem_cons_iff, ih hrest]
    omega

/-- **The windows cover the range** iff the block after them is beyond it. -/
theorem Tiles.covers_iff (h : Tiles finish maxRange start xs) :
    finish < nextBlock start xs ↔
      ∀ b, start ≤ b → b ≤ finish → ∃ x ∈ xs, x.start ≤ b ∧ b ≤ x.last := by
  constructor
  · intro hlt b hstart hfinish
    exact (h.mem_iff b).mpr ⟨hstart, by omega⟩
  · intro hall
    by_contra hle
    have hin := (h.mem_iff (nextBlock start xs)).mp (hall _ h.le_nextBlock (by omega))
    omega

/-! ## Calls -/

variable {ι σ : Type} (exec : (o : ScanCall TLog) → ι → σ → Except JsError o.Res × σ)

/-- The windows that are handed to `onWindow`. -/
def windowsOf (tr : List (Moment (ScanCall TLog) ι σ)) : List (LogWindow TLog) :=
  tr.filterMap fun m => m.op.window

/-- The windows for which `onWindow` returns. -/
def handledOf (tr : List (Moment (ScanCall TLog) ι σ)) : List (LogWindow TLog) :=
  tr.filterMap fun m => if (exec m.op m.input m.state).1.isOk then m.op.window else none

def fetchesOf (tr : List (Moment (ScanCall TLog) ι σ)) : Nat := tr.countP fun m => m.op.isFetch

/-- The call before a call of `onWindow` has fetched the logs of exactly its window. -/
def Fed (past : List (Moment (ScanCall TLog) ι σ)) (m : Moment (ScanCall TLog) ι σ) : Prop :=
  ∀ logs first last, m.op = .onWindow logs first last →
    ∃ s i, past.getLast? = some ⟨s, .fetch first last, i⟩ ∧
      (exec (.fetch first last) i s).1 = .ok logs

/-- What a scan does. -/
structure ScansRange (start finish maxRange : Int) (maxWindows : Nat)
    (tr : List (Moment (ScanCall TLog) ι σ)) (r : Except JsError ScanLogWindowsResult) : Prop where
  fetches : fetchesOf tr ≤ maxWindows + Nat.log2 maxRange.toNat
  tiles : Tiles finish maxRange start (windowsOf tr)
  disjoint : (windowsOf tr).Pairwise fun x y => x.last < y.start
  fed : Throughout (Fed exec) [] tr
  handled : handledOf exec tr <+: windowsOf tr
  returned : ∀ result, r = .ok result →
    handledOf exec tr = windowsOf tr ∧
      result.lastProcessed = (windowsOf tr).getLast?.map LogWindow.last ∧
      result.windows = (windowsOf tr).length ∧
      (result.complete = true ↔ ∀ b, start ≤ b → b ≤ finish →
        ∃ x ∈ windowsOf tr, x.start ≤ b ∧ b ≤ x.last)
  thrown : ∀ e, r = .error e → Tiles finish maxRange start (handledOf exec tr)

/-! ## A window is fetched -/

variable {exec}

theorem windowsOf_append (tr tr' : List (Moment (ScanCall TLog) ι σ)) :
    windowsOf (tr ++ tr') = windowsOf tr ++ windowsOf tr' := List.filterMap_append

theorem handledOf_append (tr tr' : List (Moment (ScanCall TLog) ι σ)) :
    handledOf exec (tr ++ tr') = handledOf exec tr ++ handledOf exec tr' := List.filterMap_append

theorem fetchesOf_append (tr tr' : List (Moment (ScanCall TLog) ι σ)) :
    fetchesOf (tr ++ tr') = fetchesOf tr + fetchesOf tr' := List.countP_append

/-- No window is handed on. -/
def NoWindow (tr : List (Moment (ScanCall TLog) ι σ)) : Prop := ∀ m ∈ tr, m.op.window = none

theorem NoWindow.windowsOf {tr : List (Moment (ScanCall TLog) ι σ)} (h : NoWindow tr) : windowsOf tr = [] :=
  List.filterMap_eq_nil_iff.mpr h

theorem NoWindow.handledOf {tr : List (Moment (ScanCall TLog) ι σ)} (h : NoWindow tr) :
    handledOf exec tr = [] := by
  refine List.filterMap_eq_nil_iff.mpr ?_
  intro m hm
  rw [h m hm, ite_self]

theorem NoWindow.fed {tr : List (Moment (ScanCall TLog) ι σ)} (h : NoWindow tr)
    (past : List (Moment (ScanCall TLog) ι σ)) : Throughout (Fed exec) past tr := by
  refine throughout_of_forall ?_
  intro m hm past logs first last hop
  have hnone := h m hm
  rw [hop] at hnone
  cases hnone

/-- What `fetchWindow` does, and what it returns. -/
structure FetchEnd (exec : (o : ScanCall TLog) → ι → σ → Except JsError o.Res × σ)
    (start finish size : Int) (tr : List (Moment (ScanCall TLog) ι σ))
    (r : Except JsError (List TLog × Int × Int)) : Prop where
  noWindow : NoWindow tr
  fetches : fetchesOf tr ≤ 1 + Nat.log2 size.toNat
  fetched : ∀ logs last size', r = .ok (logs, last, size') →
    (∃ pre s i, tr = pre ++ [⟨s, .fetch start last, i⟩] ∧ (exec (.fetch start last) i s).1 = .ok logs) ∧
      start ≤ last ∧ last ≤ finish ∧ last - start < size ∧ 1 ≤ size' ∧ size' ≤ size ∧
      fetchesOf tr + Nat.log2 size'.toNat ≤ 1 + Nat.log2 size.toNat

variable {w : σ}

/-- One attempt. -/
theorem wp_fetch {size : Int} (hsize : 1 ≤ size) (hstart : start ≤ finish) :
    wp exec Alone (fun _ _ => True)
      ((perform (ScanCall.fetch start (windowEnd start size finish))).bind fun logs =>
        .pure (logs, windowEnd start size finish, size))
      (fun tr r _ => fetchesOf tr = 1 ∧ FetchEnd exec start finish size tr r) w := by
  rw [wp_bind, wp_perform]
  intro w₁ _ i
  refine ⟨trivial, ?_⟩
  have hnone : NoWindow [(⟨w₁, .fetch start (windowEnd start size finish), i⟩ :
      Moment (ScanCall TLog) ι σ)] := by
    intro m hm
    rw [List.mem_singleton.mp hm]
    rfl
  have hlast : start ≤ windowEnd start size finish ∧ windowEnd start size finish ≤ finish ∧
      windowEnd start size finish - start < size := by
    unfold windowEnd
    split <;> omega
  cases hr : (exec (.fetch start (windowEnd start size finish)) i w₁).1 with
  | error e => exact ⟨rfl, hnone, Nat.le_add_right 1 _, fun _ _ _ h => by cases h⟩
  | ok logs =>
    refine ⟨rfl, hnone, Nat.le_add_right 1 _, ?_⟩
    intro logs' last size' h
    cases h
    exact ⟨⟨[], w₁, i, rfl, hr⟩, hlast.1, hlast.2.1, hlast.2.2, hsize, le_rfl, le_rfl⟩

theorem log2_half {size : Int} (h : 1 < size) :
    Nat.log2 size.toNat = Nat.log2 (size / 2).toNat + 1 := by
  have hhalf : (size / 2).toNat = size.toNat / 2 := by omega
  rw [Nat.log2_def, if_pos (by omega), hhalf]

theorem NoWindow.append {tr tr' : List (Moment (ScanCall TLog) ι σ)} (h : NoWindow tr) (h' : NoWindow tr') :
    NoWindow (tr ++ tr') := by
  intro m hm
  rcases List.mem_append.mp hm with hm | hm
  · exact h m hm
  · exact h' m hm

/-- After a failed attempt, what follows on half the size. -/
theorem FetchEnd.retry {size : Int} {tr shrink tr' : List (Moment (ScanCall TLog) ι σ)}
    {r : Except JsError (List TLog × Int × Int)} (hsize : 1 < size) (htr : NoWindow tr)
    (hone : fetchesOf tr = 1) (hshrink : NoWindow shrink) (hnone : fetchesOf shrink = 0)
    (h : FetchEnd exec start finish (size / 2) tr' r) :
    FetchEnd exec start finish size (tr ++ (shrink ++ tr')) r := by
  have hlog := log2_half hsize
  have hcount : fetchesOf (tr ++ (shrink ++ tr')) = 1 + fetchesOf tr' := by
    rw [fetchesOf_append, fetchesOf_append, hone, hnone, Nat.zero_add]
  have hfetches := h.fetches
  refine ⟨htr.append (hshrink.append h.noWindow), by omega, ?_⟩
  intro logs last size' hr
  obtain ⟨⟨pre, s, i, htr', hok⟩, hstart, hlast, hrange, hone', hle, hbound⟩ := h.fetched logs last size' hr
  refine ⟨⟨tr ++ (shrink ++ pre), s, i, ?_, hok⟩, hstart, hlast, by omega, hone', by omega, by omega⟩
  rw [htr', List.append_assoc, List.append_assoc]

/-- **A window size is halved at most as often as it has binary digits after the first.** -/
theorem wp_fetchWindow (hstart : start ≤ finish) (fuel : Nat) {size : Int} (hsize : 1 ≤ size) :
    wp exec Alone (fun _ _ => True)
      (fetchWindow (fun first last => perform (ScanCall.fetch first last))
        (fun newRange error => perform (ScanCall.onShrink newRange error)) start finish fuel size)
      (fun tr r _ => FetchEnd exec start finish size tr r) w := by
  induction fuel generalizing size w with
  | zero => exact wp_mono (fun _ _ _ h => h.2) (wp_fetch hsize hstart)
  | succ fuel ih =>
    rw [fetchWindow, tryCatch_eq, wp_tryCatch]
    refine wp_mono ?_ (wp_fetch hsize hstart)
    rintro tr r w₁ ⟨hone, hend⟩
    cases r with
    | ok a => exact hend
    | error e =>
      dsimp only
      by_cases hretry : (decide (1 < size) && isBlockRangeLimitError e) = true
      · rw [if_pos hretry, bind_eq, wp_bind, wp_perform]
        intro w₂ _ i
        refine ⟨trivial, ?_⟩
        have hbig : 1 < size := by
          rw [Bool.and_eq_true, decide_eq_true_eq] at hretry
          exact hretry.1
        have hshrink : NoWindow [(⟨w₂, .onShrink (size / 2) e, i⟩ : Moment (ScanCall TLog) ι σ)] := by
          intro m hm
          rw [List.mem_singleton.mp hm]
          rfl
        cases (exec (.onShrink (size / 2) e) i w₂).1 with
        | error e' =>
          refine ⟨hend.noWindow.append hshrink, ?_, fun _ _ _ h => by cases h⟩
          rw [fetchesOf_append]
          exact hend.fetches
        | ok a =>
          refine wp_mono ?_ (ih (by omega))
          intro tr' r w₃ hrest
          exact hrest.retry hbig hend.noWindow hone hshrink rfl
      · rw [if_neg hretry]
        show FetchEnd exec start finish size (tr ++ []) (.error e)
        rw [List.append_nil]
        exact hend

/-! ## The scan goes on -/

/-- What `scanFrom` does from the block `start` on, and what it returns. -/
structure ScanEnd (exec : (o : ScanCall TLog) → ι → σ → Except JsError o.Res × σ)
    (start finish size : Int) (remaining windows : Nat) (lastProcessed : Option Int)
    (tr : List (Moment (ScanCall TLog) ι σ)) (r : Except JsError ScanLogWindowsResult) : Prop where
  fetches : fetchesOf tr ≤ remaining + Nat.log2 size.toNat
  tiles : Tiles finish size start (windowsOf tr)
  fed : ∀ past, Throughout (Fed exec) past tr
  handled : handledOf exec tr <+: windowsOf tr
  returned : ∀ result, r = .ok result →
    handledOf exec tr = windowsOf tr ∧
      result.lastProcessed = ((windowsOf tr).getLast?.map LogWindow.last).or lastProcessed ∧
      result.windows = windows + (windowsOf tr).length ∧
      (result.complete = true ↔ finish < nextBlock start (windowsOf tr))

theorem scanEnd_nil {size : Int} (remaining windows : Nat) (lastProcessed : Option Int) :
    ScanEnd exec start finish size remaining windows lastProcessed []
      (.ok ⟨lastProcessed, decide (finish < start), windows, size⟩) := by
  refine ⟨Nat.zero_le _, trivial, fun _ => trivial, List.prefix_rfl, ?_⟩
  intro result hr
  cases hr
  exact ⟨rfl, rfl, rfl, decide_eq_true_iff⟩

/-- A scan whose first window is not fetched. -/
theorem FetchEnd.scanEnd {size : Int} {tr : List (Moment (ScanCall TLog) ι σ)} {e : JsError}
    (h : FetchEnd exec start finish size tr (.error e)) (remaining windows : Nat)
    (lastProcessed : Option Int) :
    ScanEnd exec start finish size (remaining + 1) windows lastProcessed tr (.error e) where
  fetches := by
    have hfetches := h.fetches
    omega
  tiles := by
    rw [h.noWindow.windowsOf]
    exact trivial
  fed := h.noWindow.fed
  handled := by
    rw [h.noWindow.handledOf]
    exact List.nil_prefix
  returned _ hr := by cases hr

theorem FetchEnd.fed {size last size' : Int} {logs : List TLog} {tr : List (Moment (ScanCall TLog) ι σ)}
    (h : FetchEnd exec start finish size tr (.ok (logs, last, size')))
    (past : List (Moment (ScanCall TLog) ι σ)) (s : σ) (i : ι) :
    Fed exec (past ++ tr) ⟨s, .onWindow logs start last, i⟩ := by
  intro logs' first last' hop
  cases hop
  obtain ⟨⟨pre, s', i', rfl, hok⟩, -⟩ := h.fetched _ _ _ rfl
  refine ⟨s', i', ?_, hok⟩
  rw [← List.append_assoc, List.getLast?_append, List.getLast?_singleton]
  rfl

/-- A window that `onWindow` refuses ends the scan. -/
theorem FetchEnd.refused {size last size' : Int} {logs : List TLog}
    {tr : List (Moment (ScanCall TLog) ι σ)} {s : σ} {i : ι} {e : JsError}
    (h : FetchEnd exec start finish size tr (.ok (logs, last, size')))
    (he : (exec (.onWindow logs start last) i s).1 = .error e) (remaining windows : Nat)
    (lastProcessed : Option Int) :
    ScanEnd exec start finish size (remaining + 1) windows lastProcessed
      (tr ++ [⟨s, .onWindow logs start last, i⟩]) (.error e) := by
  obtain ⟨-, hstart, hlast, hrange, -, -, -⟩ := h.fetched _ _ _ rfl
  refine ⟨?_, ?_, ?_, ?_, fun _ hr => by cases hr⟩
  · have hfetches := h.fetches
    rw [fetchesOf_append]
    show fetchesOf tr + 0 ≤ _
    omega
  · rw [windowsOf_append, h.noWindow.windowsOf]
    exact ⟨rfl, hstart, hlast, hrange, trivial⟩
  · intro past
    rw [throughout_append]
    exact ⟨h.noWindow.fed past, h.fed past s i, trivial⟩
  · rw [handledOf_append, h.noWindow.handledOf]
    simp [handledOf, he, Except.isOk, Except.toBool]

/-- A window that `onWindow` has handled; the scan goes on after it. -/
theorem FetchEnd.then {size last size' : Int} {logs : List TLog}
    {tr tr' : List (Moment (ScanCall TLog) ι σ)} {s : σ} {i : ι} {remaining windows : Nat}
    {lastProcessed : Option Int} {r : Except JsError ScanLogWindowsResult}
    (h : FetchEnd exec start finish size tr (.ok (logs, last, size')))
    (hok : (exec (.onWindow logs start last) i s).1 = .ok ())
    (hrest : ScanEnd exec (last + 1) finish size' remaining (windows + 1) (some last) tr' r) :
    ScanEnd exec start finish size (remaining + 1) windows lastProcessed
      (tr ++ ⟨s, .onWindow logs start last, i⟩ :: tr') r := by
  obtain ⟨-, hstart, hlast, hrange, -, hsize, hbound⟩ := h.fetched _ _ _ rfl
  have hwindows : windowsOf (tr ++ ⟨s, .onWindow logs start last, i⟩ :: tr') =
      ⟨logs, start, last⟩ :: windowsOf tr' := by
    rw [windowsOf_append, h.noWindow.windowsOf]
    rfl
  have hhandled : handledOf exec (tr ++ ⟨s, .onWindow logs start last, i⟩ :: tr') =
      ⟨logs, start, last⟩ :: handledOf exec tr' := by
    rw [handledOf_append, h.noWindow.handledOf]
    simp [handledOf, hok, Except.isOk, Except.toBool, ScanCall.window]
  refine ⟨?_, ?_, ?_, ?_, ?_⟩
  · have hfetches := hrest.fetches
    rw [fetchesOf_append]
    show fetchesOf tr + fetchesOf tr' ≤ _
    omega
  · rw [hwindows]
    exact ⟨rfl, hstart, hlast, hrange, hrest.tiles.mono hsize⟩
  · intro past
    rw [throughout_append]
    exact ⟨h.noWindow.fed past, h.fed past s i, hrest.fed _⟩
  · rw [hwindows, hhandled]
    exact (List.prefix_cons_inj _).mpr hrest.handled
  · intro result hr
    obtain ⟨hall, hprocessed, hcount, hcomplete⟩ := hrest.returned result hr
    rw [hwindows, hhandled, nextBlock_cons]
    refine ⟨by rw [hall], ?_, ?_, hcomplete⟩
    · rw [hprocessed]
      cases hxs : windowsOf tr' with
      | nil => rfl
      | cons x xs => simp [List.getLast?_cons]
    · rw [hcount, List.length_cons]
      omega

/-- **A scan**: what one window adds, the windows after it go on with. -/
theorem wp_scanFrom (remaining : Nat) {size : Int} (hsize : 1 ≤ size) (windows : Nat)
    (lastProcessed : Option Int) :
    wp exec Alone (fun _ _ => True)
      (scanFrom (fun first last => perform (ScanCall.fetch first last))
        (fun logs first last => perform (ScanCall.onWindow logs first last))
        (fun newRange error => perform (ScanCall.onShrink newRange error)) finish remaining start size
        windows lastProcessed)
      (fun tr r _ => ScanEnd exec start finish size remaining windows lastProcessed tr r) w := by
  induction remaining generalizing start size windows lastProcessed w with
  | zero => exact scanEnd_nil 0 windows lastProcessed
  | succ remaining ih =>
    unfold scanFrom
    by_cases hstart : start ≤ finish
    swap
    · rw [if_neg hstart]
      exact scanEnd_nil _ windows lastProcessed
    rw [if_pos hstart, bind_eq, wp_bind]
    refine wp_mono ?_ (wp_fetchWindow hstart size.toNat hsize)
    intro tr r w₁ hend
    cases r with
    | error e => exact hend.scanEnd remaining windows lastProcessed
    | ok fetched =>
      obtain ⟨logs, last, size'⟩ := fetched
      obtain ⟨-, -, -, -, hsize', -⟩ := hend.fetched _ _ _ rfl
      dsimp only
      rw [bind_eq, wp_bind, wp_perform]
      intro w₂ _ i
      refine ⟨trivial, ?_⟩
      cases hr : (exec (.onWindow logs start last) i w₂).1 with
      | error e => exact hend.refused hr remaining windows lastProcessed
      | ok a =>
        refine wp_mono ?_ (ih hsize' (windows + 1) (some last))
        intro tr' r w₃ hrest
        exact hend.then hr hrest

/-- **What every scan does**: it ends; it fetches at most as often as it may make windows and the
window size may be halved; its windows tile the range from its first block on. -/
theorem scans_range (start finish : Int) {maxRange : Int} (hrange : 1 ≤ maxRange) (maxWindows : Nat)
    (inp : Nat → ι) (w : σ) :
    ScansRange exec start finish maxRange maxWindows
      (trace exec (scan TLog start finish maxRange maxWindows) inp w)
      (run exec (scan TLog start finish maxRange maxWindows) inp w).1 := by
  have hend : ScanEnd exec start finish maxRange maxWindows 0 none
      (trace exec (scan TLog start finish maxRange maxWindows) inp w)
      (run exec (scan TLog start finish maxRange maxWindows) inp w).1 :=
    run_of_wp (wp_scanFrom maxWindows hrange 0 none) inp
  refine ⟨hend.fetches, hend.tiles, hend.tiles.disjoint, hend.fed [], hend.handled, ?_, ?_⟩
  · intro result hr
    obtain ⟨hall, hprocessed, hcount, hcomplete⟩ := hend.returned result hr
    refine ⟨hall, ?_, ?_, hcomplete.trans hend.tiles.covers_iff⟩
    · rw [hprocessed, Option.or_none]
    · rw [hcount, Nat.zero_add]
  · exact fun e _ => hend.tiles.initial hend.handled

/-- A provider that takes two blocks at a time; the logs of a block are its number. -/
def twoBlocks (o : ScanCall Int) (_ _ : Unit) : Except JsError o.Res × Unit :=
  match o with
  | .fetch start last =>
    if start + 1 < last then (.error (.error "block range is too large"), ())
    else (.ok [start, last], ())
  | .onWindow _ _ _ => (.ok (), ())
  | .onShrink _ _ => (.ok (), ())

/-- Three windows after one halving. -/
theorem scans_range_twoBlocks :
    windowsOf (trace twoBlocks (scan Int 5 9 4 3) (fun _ => ()) ()) =
        [⟨[5, 6], 5, 6⟩, ⟨[7, 8], 7, 8⟩, ⟨[9, 9], 9, 9⟩] ∧
      ScansRange twoBlocks 5 9 4 3 (trace twoBlocks (scan Int 5 9 4 3) (fun _ => ()) ())
        (run twoBlocks (scan Int 5 9 4 3) (fun _ => ()) ()).1 :=
  ⟨by decide +kernel, scans_range 5 9 (by decide) 3 (fun _ => ()) ()⟩

end

end TransactionSimulator
