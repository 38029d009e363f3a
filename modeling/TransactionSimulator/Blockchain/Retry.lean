import Mathlib.Order.Bounds.Basic
import TransactionSimulator.Js
import TransactionSimulator.Lib.Prog

/-!
# Trying again

`retry.ts`: a function is called until it succeeds, fails with an error that is not retried, or has been called
once more than `retries` says.  Between two calls come the callback and a pause.

* `IsLast`: the call that is the last one, counted from 1.
* `wp_retryFrom`: calls, callbacks and pauses in their order, for any programs that stand for the three.
* `Retry.delay_of_exact`: the delays are the first one times a power of the factor, as long as no product is rounded.
-/

namespace TransactionSimulator

open Concurrent

structure RetryOptions where
  retries : Nat
  delay : Js.Number
  factor : Option Js.Number := none

section Retry

variable {Op : Type} {Res : Op → Type} {ε α : Type} (fn : Prog Op Res ε α)
  (onRetry : ε → Nat → Js.Number → Prog Op Res ε Unit) (setTimeout : Nat → Prog Op Res ε Unit)

def sleep (ms : Js.Number) : Prog Op Res ε Unit := setTimeout ms.timeout

/-- The loop, when `left` is `options.retries - attempt`. -/
def retryFrom (factor : Js.Number) (shouldRetry : ε → Bool) :
    (left attempt : Nat) → (delay : Js.Number) → Prog Op Res ε α
  | 0, _, _ => tryCatch fn fun error => throw error
  | left + 1, attempt, delay =>
    tryCatch fn fun error =>
      if shouldRetry error then do
        onRetry error (attempt + 1) delay
        sleep setTimeout delay
        retryFrom factor shouldRetry left (attempt + 1) (delay.mul factor)
      else throw error

def retry (options : RetryOptions) (shouldRetry : ε → Bool) : Prog Op Res ε α :=
  retryFrom fn onRetry setTimeout (options.factor.getD (.finite 2)) shouldRetry options.retries 0 options.delay

end Retry

/-! ## What is called, and when -/

/-- The calls that a loop makes to its surroundings. -/
inductive RetryCall (ε : Type)
  | fn
  | onRetry (error : ε) (attempt : Nat) (nextDelay : Js.Number)
  | setTimeout (ms : Nat)
  deriving DecidableEq

namespace RetryCall

variable {ε : Type}

def isFn : RetryCall ε → Bool
  | fn => true
  | _ => false

/-- The number that the callback is told. -/
def number : RetryCall ε → Option Nat
  | onRetry _ attempt _ => some attempt
  | _ => none

/-- The milliseconds that are waited. -/
def pause : RetryCall ε → Option Nat
  | setTimeout ms => some ms
  | _ => none

end RetryCall

namespace Retry

variable {ε α : Type}

/-- Nothing is tried after this outcome. -/
def stops (shouldRetry : ε → Bool) : Except ε α → Bool
  | .ok _ => true
  | .error error => !shouldRetry error

/-- The `k`-th call is the first one that stops the loop or is the last one allowed, of those after the first
`attempt` calls. -/
def IsLast (shouldRetry : ε → Bool) (outcomes : Nat → Except ε α) (attempt left k : Nat) : Prop :=
  IsLeast {k | attempt + 1 ≤ k ∧ (stops shouldRetry (outcomes k) = true ∨ k = attempt + left + 1)} k

/-- What `sleep` is given after the `i`-th call: the delay, multiplied by the factor after each call before. -/
def delay (d factor : Js.Number) (i : Nat) : Js.Number := (fun x => Js.Number.mul x factor)^[i - 1] d

/-- A call that is followed by another one. -/
def followed (outcomes : Nat → Except ε α) (d factor : Js.Number) (i : Nat) : List (RetryCall ε) :=
  match outcomes i with
  | .ok _ => [.fn]
  | .error error => [.fn, .onRetry error i (delay d factor i), .setTimeout (delay d factor i).timeout]

/-- Everything from the call `attempt + 1` up to the call `k`. -/
def callsUpTo (outcomes : Nat → Except ε α) (d factor : Js.Number) (attempt k : Nat) : List (RetryCall ε) :=
  (List.range' (attempt + 1) (k - (attempt + 1))).flatMap (followed outcomes d factor) ++ [.fn]

variable {shouldRetry : ε → Bool} {outcomes : Nat → Except ε α} {d factor : Js.Number} {attempt left k : Nat}

theorem delay_succ (h : 1 ≤ attempt) : delay d factor (attempt + 1) = (delay d factor attempt).mul factor := by
  obtain ⟨i, rfl⟩ := Nat.exists_eq_add_of_le' h
  rw [delay, delay, Nat.add_sub_cancel, Nat.add_sub_cancel, Function.iterate_succ_apply']

/-- **Exact delays**: without rounding, the delay is the first one times a power of the factor. -/
theorem delay_of_exact {q r : Rat} {i : Nat}
    (h : ∀ j < i, Js.Number.ofRat (q * r ^ j) = .finite (q * r ^ j)) (hi : 1 ≤ i) :
    delay (.finite q) (.finite r) i = .finite (q * r ^ (i - 1)) := by
  induction i with
  | zero => cases hi
  | succ i ih =>
    rcases Nat.eq_zero_or_pos i with rfl | hpos
    · rw [Nat.zero_add, Nat.sub_self, pow_zero, mul_one]
      rfl
    · rw [delay_succ hpos, ih (fun j hj => h j (by omega)) hpos, Js.Number.mul, mul_assoc, ← pow_succ,
        Nat.sub_add_cancel hpos, Nat.add_sub_cancel]
      exact h i (Nat.lt_succ_self i)

theorem isLast_of_stops (h : stops shouldRetry (outcomes (attempt + 1)) = true) :
    IsLast shouldRetry outcomes attempt left (attempt + 1) :=
  ⟨⟨le_rfl, .inl h⟩, fun _ hj => hj.1⟩

theorem isLast_zero : IsLast shouldRetry outcomes attempt 0 (attempt + 1) :=
  ⟨⟨le_rfl, .inr rfl⟩, fun _ hj => hj.1⟩

theorem IsLast.next (h : IsLast shouldRetry outcomes (attempt + 1) left k)
    (hretry : stops shouldRetry (outcomes (attempt + 1)) = false) :
    IsLast shouldRetry outcomes attempt (left + 1) k := by
  obtain ⟨⟨hle, hlast⟩, hleast⟩ := h
  refine ⟨⟨by omega, hlast.imp_right fun hk => by omega⟩, ?_⟩
  rintro j ⟨hj, hstop⟩
  rcases Nat.eq_or_lt_of_le hj with rfl | hlt
  · rcases hstop with hstop | hstop
    · rw [hretry] at hstop
      cases hstop
    · omega
  · exact hleast ⟨hlt, hstop.imp_right fun hk => by omega⟩

theorem callsUpTo_self : callsUpTo outcomes d factor attempt (attempt + 1) = [.fn] := by
  rw [callsUpTo, Nat.sub_self]
  rfl

theorem callsUpTo_next {error : ε} (herror : outcomes (attempt + 1) = .error error) (h : attempt + 2 ≤ k) :
    callsUpTo outcomes d factor attempt k = .fn :: .onRetry error (attempt + 1) (delay d factor (attempt + 1)) ::
      .setTimeout (delay d factor (attempt + 1)).timeout :: callsUpTo outcomes d factor (attempt + 1) k := by
  have hlength : k - (attempt + 1) = k - (attempt + 2) + 1 := by omega
  rw [callsUpTo, hlength, List.range'_succ, List.flatMap_cons, followed, herror]
  rfl

end Retry

open Prog Retry

section Runs

variable {Op : Type} {Res : Op → Type} {ε α σ ι : Type} {exec : (o : Op) → ι → σ → Except ε (Res o) × σ}
  {fn : Prog Op Res ε α} {onRetry : ε → Nat → Js.Number → Prog Op Res ε Unit}
  {setTimeout : Nat → Prog Op Res ε Unit} {shouldRetry : ε → Bool} {outcomes : Nat → Except ε α}
  {d factor : Js.Number} {tries : σ → Nat} {made : RetryCall ε → List Op}

/-- The three programs of a loop make the calls `made`, and the `tries w + 1`-st call of `fn` has its outcome. -/
structure Plays (exec : (o : Op) → ι → σ → Except ε (Res o) × σ) (fn : Prog Op Res ε α)
    (onRetry : ε → Nat → Js.Number → Prog Op Res ε Unit) (setTimeout : Nat → Prog Op Res ε Unit)
    (outcomes : Nat → Except ε α) (tries : σ → Nat) (made : RetryCall ε → List Op) : Prop where
  fn : ∀ w, wp exec Alone (fun _ _ => True) fn
    (fun tr r w' => tr.map Moment.op = made .fn ∧ r = outcomes (tries w + 1) ∧ tries w' = tries w + 1) w
  onRetry : ∀ error attempt nextDelay w, wp exec Alone (fun _ _ => True) (onRetry error attempt nextDelay)
    (fun tr r w' => tr.map Moment.op = made (.onRetry error attempt nextDelay) ∧ r = .ok () ∧ tries w' = tries w) w
  setTimeout : ∀ ms w, wp exec Alone (fun _ _ => True) (setTimeout ms)
    (fun tr r w' => tr.map Moment.op = made (.setTimeout ms) ∧ r = .ok () ∧ tries w' = tries w) w

/-- **The loop**: the calls up to the last one, in their order, and its outcome. -/
theorem wp_retryFrom (h : Plays exec fn onRetry setTimeout outcomes tries made) (left attempt : Nat) {w : σ}
    (htries : tries w = attempt) :
    wp exec Alone (fun _ _ => True)
      (retryFrom fn onRetry setTimeout factor shouldRetry left attempt (delay d factor (attempt + 1)))
      (fun tr r w' => ∃ k, IsLast shouldRetry outcomes attempt left k ∧
        tr.map Moment.op = (callsUpTo outcomes d factor attempt k).flatMap made ∧ r = outcomes k ∧ tries w' = k) w := by
  induction left generalizing attempt w with
  | zero =>
    rw [retryFrom, tryCatch_eq, wp_tryCatch]
    refine wp_mono ?_ (h.fn w)
    rintro tr r w' ⟨hmade, hr, htries'⟩
    rw [htries] at hr htries'
    cases r with
    | ok a => exact ⟨attempt + 1, isLast_zero, by rw [hmade, callsUpTo_self, List.flatMap_singleton], hr, htries'⟩
    | error error =>
      refine ⟨attempt + 1, isLast_zero, ?_, hr, htries'⟩
      rw [List.append_nil, hmade, callsUpTo_self, List.flatMap_singleton]
  | succ left ih =>
    rw [retryFrom, tryCatch_eq, wp_tryCatch]
    refine wp_mono ?_ (h.fn w)
    rintro tr r w₁ ⟨hmade, hr, htries₁⟩
    rw [htries] at hr htries₁
    cases r with
    | ok a =>
      have hstops : stops shouldRetry (outcomes (attempt + 1)) = true := by rw [← hr]; rfl
      exact ⟨attempt + 1, isLast_of_stops hstops, by rw [hmade, callsUpTo_self, List.flatMap_singleton], hr, htries₁⟩
    | error error =>
      dsimp only
      cases hretry : shouldRetry error with
      | false =>
        have hstops : stops shouldRetry (outcomes (attempt + 1)) = true := by rw [← hr, stops, hretry]; rfl
        rw [if_neg Bool.false_ne_true]
        refine ⟨attempt + 1, isLast_of_stops hstops, ?_, hr, htries₁⟩
        rw [List.append_nil, hmade, callsUpTo_self, List.flatMap_singleton]
      | true =>
        have hgoes : stops shouldRetry (outcomes (attempt + 1)) = false := by rw [← hr, stops, hretry]; rfl
        rw [if_pos rfl, bind_eq, wp_bind]
        refine wp_mono ?_ (h.onRetry error (attempt + 1) (delay d factor (attempt + 1)) w₁)
        rintro tr' r w₂ ⟨hmade', rfl, htries₂⟩
        dsimp only
        rw [bind_eq, wp_bind]
        rw [sleep]
        refine wp_mono ?_ (h.setTimeout (delay d factor (attempt + 1)).timeout w₂)
        rintro tr'' r w₃ ⟨hmade'', rfl, htries₃⟩
        dsimp only
        rw [← delay_succ (Nat.le_add_left 1 attempt)]
        refine wp_mono ?_ (ih (attempt + 1) (by rw [htries₃, htries₂, htries₁]))
        rintro rest r w₄ ⟨k, hlast, hrest, hrk, hk⟩
        refine ⟨k, hlast.next hgoes, ?_, hrk, hk⟩
        rw [List.map_append, List.map_append, List.map_append, hmade, hmade', hmade'', hrest,
          callsUpTo_next hr.symm hlast.1.1, List.flatMap_cons, List.flatMap_cons, List.flatMap_cons]

/-- **`retry`**, from its first call on. -/
theorem wp_retry (h : Plays exec fn onRetry setTimeout outcomes tries made) (options : RetryOptions)
    (shouldRetry : ε → Bool) {w : σ} (hw : tries w = 0) :
    wp exec Alone (fun _ _ => True) (retry fn onRetry setTimeout options shouldRetry)
      (fun tr r w' => ∃ k, IsLast shouldRetry outcomes 0 options.retries k ∧
        tr.map Moment.op =
          (callsUpTo outcomes options.delay (options.factor.getD (.finite 2)) 0 k).flatMap made ∧
        r = outcomes k ∧ tries w' = k) w :=
  wp_retryFrom h options.retries 0 hw

end Runs

/-! ## The loop on its own -/

section Loop

variable {ε α : Type} {shouldRetry : ε → Bool} {outcomes : Nat → Except ε α} {d factor : Js.Number} {left k : Nat}

theorem Retry.IsLast.retried (h : IsLast shouldRetry outcomes 0 left k) {i : Nat} (hi : 1 ≤ i) (hk : i < k) :
    ∃ error, outcomes i = .error error ∧ shouldRetry error = true := by
  have hgoes : ¬ stops shouldRetry (outcomes i) = true := fun hstops => absurd (h.2 ⟨by omega, .inl hstops⟩) (by omega)
  cases hout : outcomes i with
  | ok a =>
    rw [hout] at hgoes
    exact absurd rfl hgoes
  | error error =>
    rw [hout, stops, Bool.not_eq_true, Bool.not_eq_false'] at hgoes
    exact ⟨error, rfl, hgoes⟩

/-- What is counted of the calls: `k` of the function, and a callback and a pause after each but the last. -/
theorem counts_callsUpTo (d factor : Js.Number) (hk : 1 ≤ k) (h : ∀ i, 1 ≤ i → i < k → ∃ error, outcomes i = .error error) :
    (callsUpTo outcomes d factor 0 k).countP RetryCall.isFn = k ∧
      (callsUpTo outcomes d factor 0 k).filterMap RetryCall.number = List.range' 1 (k - 1) ∧
      (callsUpTo outcomes d factor 0 k).filterMap RetryCall.pause =
        (List.range' 1 (k - 1)).map (fun i => (delay d factor i).timeout) := by
  have hfollowed : ∀ l : List Nat, (∀ i ∈ l, ∃ error, outcomes i = .error error) →
      (l.flatMap (followed outcomes d factor)).countP RetryCall.isFn = l.length ∧
      (l.flatMap (followed outcomes d factor)).filterMap RetryCall.number = l ∧
      (l.flatMap (followed outcomes d factor)).filterMap RetryCall.pause =
        l.map (fun i => (delay d factor i).timeout) := by
    intro l hl
    induction l with
    | nil => exact ⟨rfl, rfl, rfl⟩
    | cons i l ih =>
      obtain ⟨error, herror⟩ := hl i (by simp)
      obtain ⟨hcount, hnumber, hpause⟩ := ih fun j hj => hl j (by simp [hj])
      rw [List.flatMap_cons, followed, herror, List.countP_append, List.filterMap_append, List.filterMap_append,
        hcount, hnumber, hpause, List.length_cons, Nat.add_comm]
      exact ⟨rfl, rfl, rfl⟩
  obtain ⟨hcount, hnumber, hpause⟩ := hfollowed (List.range' 1 (k - 1)) fun i hi => by
    rw [List.mem_range'_1] at hi
    exact h i hi.1 (by omega)
  rw [callsUpTo, Nat.zero_add, List.countP_append, List.filterMap_append, List.filterMap_append, hcount, hnumber,
    hpause, List.length_range']
  exact ⟨by simp only [List.countP_singleton, RetryCall.isFn, if_pos]; omega, List.append_nil _, List.append_nil _⟩

namespace RetryCall

@[reducible] def Res (α : Type) : RetryCall ε → Type
  | fn => α
  | _ => Unit

/-- The function has its outcomes one after the other; the state is the number of its calls. -/
def exec (outcomes : Nat → Except ε α) (o : RetryCall ε) (_ : Unit) (n : Nat) : Except ε (o.Res α) × Nat :=
  match o with
  | fn => (outcomes (n + 1), n + 1)
  | onRetry _ _ _ => (.ok (), n)
  | setTimeout _ => (.ok (), n)

end RetryCall

/-- `retry` with calls for its functions. -/
def retrying (α : Type) (options : RetryOptions) (shouldRetry : ε → Bool) :
    Prog (RetryCall ε) (RetryCall.Res α) ε α :=
  retry (perform RetryCall.fn) (fun error attempt nextDelay => perform (RetryCall.onRetry error attempt nextDelay))
    (fun ms => perform (RetryCall.setTimeout ms)) options shouldRetry

theorem plays_exec (outcomes : Nat → Except ε α) :
    Plays (RetryCall.exec outcomes) (perform RetryCall.fn)
      (fun error attempt nextDelay => perform (RetryCall.onRetry error attempt nextDelay)) (fun ms => perform (RetryCall.setTimeout ms))
      outcomes id fun c => [c] where
  fn w := by
    rw [wp_perform]
    intro w₁ hw _
    rw [eq_of_alone hw]
    exact ⟨trivial, rfl, rfl, rfl⟩
  onRetry error attempt nextDelay w := by
    rw [wp_perform]
    intro w₁ hw _
    rw [eq_of_alone hw]
    exact ⟨trivial, rfl, rfl, rfl⟩
  setTimeout ms w := by
    rw [wp_perform]
    intro w₁ hw _
    rw [eq_of_alone hw]
    exact ⟨trivial, rfl, rfl, rfl⟩

/-- What a loop has called when it ends after the `k`-th call of its function. -/
structure Retried (outcomes : Nat → Except ε α) (d factor : Js.Number) (k : Nat) (ops : List (RetryCall ε)) : Prop where
  calls : ops.countP RetryCall.isFn = k
  callbacks : ops.filterMap RetryCall.number = List.range' 1 (k - 1)
  pauses : ops.filterMap RetryCall.pause = (List.range' 1 (k - 1)).map fun i => (delay d factor i).timeout
  order : ops = callsUpTo outcomes d factor 0 k

/-- **Every loop**: it ends with the outcome of its last call. -/
theorem run_retrying (outcomes : Nat → Except ε α) (options : RetryOptions) (shouldRetry : ε → Bool)
    (inp : Nat → Unit) :
    ∃ k, IsLast shouldRetry outcomes 0 options.retries k ∧
      (run (RetryCall.exec outcomes) (retrying α options shouldRetry) inp 0).1 = outcomes k ∧
      Retried outcomes options.delay (options.factor.getD (.finite 2)) k
        ((trace (RetryCall.exec outcomes) (retrying α options shouldRetry) inp 0).map Moment.op) := by
  obtain ⟨k, hlast, hops, hr, -⟩ := run_of_wp
    (wp_retry (plays_exec outcomes) options shouldRetry (w := 0) rfl) inp
  rw [List.flatMap_singleton'] at hops
  have hcounts := counts_callsUpTo options.delay (options.factor.getD (.finite 2)) hlast.1.1
    fun i hi hk => (hlast.retried hi hk).imp fun _ h => h.1
  refine ⟨k, hlast, hr, ?_⟩
  rw [← hops] at hcounts
  exact ⟨hcounts.1, hcounts.2.1, hcounts.2.2, hops⟩

end Loop

end TransactionSimulator
