import Mathlib.Logic.Relation

/-!
# Programs of atomic calls

A program `Prog Op Res ε α` is a tree of calls.  A node names the call `o : Op` it makes and
says how it goes on with the answer, a value of `Res o` or an error of `ε`; a leaf returns a
value or throws.  What a call does to the shared state is given apart from the program, by
`exec : (o : Op) → ι → σ → Except ε (Res o) × σ`, where the input `ι` is whatever the outside
world decides at that moment (a fault, a remote answer).  One call is one atomic step.

* `Prog.run`, `Prog.trace`: the program run to its end on a stream of inputs, and the moments at
  which it made its calls.
* `Prog.wp R G p Q w`: started in `w`, while the others move the state along `R` between any two
  of its calls, every call of `p` is a step of `G`, and if `p` ends, it ends with `Q` of its own
  trace, its result and the state.  `wp_bind` and `wp_tryCatch` cut a program into its parts.
* `Prog.All P p`: every call that `p` can make satisfies `P`, whatever it is answered.
-/

namespace Concurrent

/-- A program: it returns, throws, or makes a call and goes on with the answer. -/
inductive Prog (Op : Type) (Res : Op → Type) (ε α : Type) : Type
  | pure (a : α)
  | throw (e : ε)
  | call (o : Op) (k : Except ε (Res o) → Prog Op Res ε α)

/-- A call as it was made: the state it found, the call and the input. -/
structure Moment (Op ι σ : Type) where
  state : σ
  op : Op
  input : ι

/-- Some call of the trace is one of those that `N` picks out. -/
def Found {Op ι σ : Type} (N : Moment Op ι σ → Prop) (tr : List (Moment Op ι σ)) : Prop :=
  ∃ m ∈ tr, N m

@[simp] theorem found_nil {Op ι σ : Type} {N : Moment Op ι σ → Prop} : ¬ Found N [] := by
  simp [Found]

@[simp] theorem found_cons {Op ι σ : Type} {N : Moment Op ι σ → Prop} {m : Moment Op ι σ}
    {tr : List (Moment Op ι σ)} : Found N (m :: tr) ↔ N m ∨ Found N tr := by
  simp [Found]

@[simp] theorem found_append {Op ι σ : Type} {N : Moment Op ι σ → Prop}
    {tr tr' : List (Moment Op ι σ)} : Found N (tr ++ tr') ↔ Found N tr ∨ Found N tr' := by
  simp only [Found, List.mem_append, or_and_right, exists_or]

/-- No call that `N` picks out is made before one that `A` picks out. -/
def Preceded {Op ι σ : Type} (N A : Moment Op ι σ → Prop) : List (Moment Op ι σ) → Prop
  | [] => True
  | m :: tr => ¬ N m ∧ (A m ∨ Preceded N A tr)

theorem Preceded.of_append {Op ι σ : Type} {N A : Moment Op ι σ → Prop} {tr tr' : List (Moment Op ι σ)}
    (h : Preceded N A (tr ++ tr')) : Preceded N A tr := by
  induction tr with
  | nil => exact trivial
  | cons m tr ih => exact ⟨h.1, h.2.imp_right ih⟩

theorem Preceded.found {Op ι σ : Type} {N A : Moment Op ι σ → Prop} {tr : List (Moment Op ι σ)}
    (h : Preceded N A tr) (hN : Found N tr) : Found A tr := by
  induction tr with
  | nil => exact absurd hN found_nil
  | cons m tr ih =>
    rw [found_cons] at hN ⊢
    rcases hN with hN | hN
    · exact absurd hN h.1
    · exact h.2.imp_right fun hrest => ih hrest hN

/-- Every call of the trace is made with what `J` asks of the calls before it, `past` and those of the trace. -/
def Throughout {Op ι σ : Type} (J : List (Moment Op ι σ) → Moment Op ι σ → Prop) :
    List (Moment Op ι σ) → List (Moment Op ι σ) → Prop
  | _, [] => True
  | past, m :: tr => J past m ∧ Throughout J (past ++ [m]) tr

section Throughout

variable {Op ι σ : Type} {J : List (Moment Op ι σ) → Moment Op ι σ → Prop}
  {past tr tr' : List (Moment Op ι σ)}

theorem throughout_append :
    Throughout J past (tr ++ tr') ↔ Throughout J past tr ∧ Throughout J (past ++ tr) tr' := by
  induction tr generalizing past with
  | nil => simp [Throughout]
  | cons m tr ih => simp [Throughout, ih, and_assoc]

theorem throughout_of_forall (h : ∀ m ∈ tr, ∀ past, J past m) : Throughout J past tr := by
  induction tr generalizing past with
  | nil => exact trivial
  | cons m tr ih => exact ⟨h m (by simp) past, ih fun m' hm' => h m' (by simp [hm'])⟩

/-- What the calls before the trace have brought about is there at each of its calls. -/
theorem throughout_of_since (h : ∀ m ∈ tr, ∀ since, J (past ++ since) m) : Throughout J past tr := by
  induction tr generalizing past with
  | nil => exact trivial
  | cons m tr ih =>
    have hm := h m (by simp) []
    rw [List.append_nil] at hm
    refine ⟨hm, ih ?_⟩
    intro m' hm' since
    rw [List.append_assoc]
    exact h m' (by simp [hm']) _

theorem Throughout.at (h : Throughout J [] tr) {pre post : List (Moment Op ι σ)} {m : Moment Op ι σ}
    (htr : tr = pre ++ m :: post) : J pre m := by
  rw [htr, throughout_append] at h
  exact h.2.1

end Throughout

namespace Prog

variable {Op : Type} {Res : Op → Type} {ε α β : Type}

/-- Sequencing: an error of the first part ends the whole. -/
def bind : Prog Op Res ε α → (α → Prog Op Res ε β) → Prog Op Res ε β
  | .pure a, f => f a
  | .throw e, _ => .throw e
  | .call o k, f => .call o fun r => (k r).bind f

/-- `try … catch`: the handler takes over at the error. -/
def tryCatch : Prog Op Res ε α → (ε → Prog Op Res ε α) → Prog Op Res ε α
  | .pure a, _ => .pure a
  | .throw e, h => h e
  | .call o k, h => .call o fun r => (k r).tryCatch h

instance : Monad (Prog Op Res ε) where
  pure := .pure
  bind := Prog.bind

instance : MonadExcept ε (Prog Op Res ε) where
  throw := .throw
  tryCatch := Prog.tryCatch

/-- One call whose answer is the result. -/
def perform (o : Op) : Prog Op Res ε (Res o) :=
  .call o fun
    | .ok a => .pure a
    | .error e => .throw e

/-- What `throw new Error(…)` does with a check that failed. -/
def ofExcept : Except ε α → Prog Op Res ε α
  | .ok a => .pure a
  | .error e => .throw e

/-- `try … finally`: the last part runs in any case, then the outcome of the first stands. -/
def tryFinally (p : Prog Op Res ε α) (last : Prog Op Res ε Unit) : Prog Op Res ε α :=
  ((p.bind fun a => .pure (Except.ok a)).tryCatch fun e => .pure (Except.error e)).bind fun r =>
    last.bind fun _ => ofExcept r

/-- The program without its result. -/
def void (p : Prog Op Res ε α) : Prog Op Res ε Unit := p.bind fun _ => .pure ()

/-- The program has come to its end and returned. -/
def returned : Prog Op Res ε α → Bool
  | .pure _ => true
  | _ => false

/-- The loop `for (const x of xs) await f(x)`. -/
def forEach {γ : Type} (f : γ → Prog Op Res ε Unit) : List γ → Prog Op Res ε Unit
  | [] => .pure ()
  | x :: xs => (f x).bind fun _ => forEach f xs

@[simp] theorem pure_eq (a : α) : (Pure.pure a : Prog Op Res ε α) = .pure a := rfl

@[simp] theorem bind_eq (p : Prog Op Res ε α) (f : α → Prog Op Res ε β) : p >>= f = p.bind f := rfl

@[simp] theorem throw_eq (e : ε) : (MonadExcept.throw e : Prog Op Res ε α) = .throw e := rfl

@[simp] theorem tryCatch_eq (p : Prog Op Res ε α) (h : ε → Prog Op Res ε α) :
    MonadExcept.tryCatch p h = p.tryCatch h := rfl

theorem bind_bind {γ : Type} (p : Prog Op Res ε α) (f : α → Prog Op Res ε β) (g : β → Prog Op Res ε γ) :
    (p.bind f).bind g = p.bind fun a => (f a).bind g := by
  induction p with
  | pure a => rfl
  | throw e => rfl
  | call o k ih => exact congrArg (Prog.call o) (funext ih)

/-! ## Runs -/

section Runs

variable {σ ι : Type} (exec : (o : Op) → ι → σ → Except ε (Res o) × σ)

/-- The program run to its end, one input for each call. -/
def run : Prog Op Res ε α → (Nat → ι) → σ → Except ε α × σ
  | .pure a, _, w => (.ok a, w)
  | .throw e, _, w => (.error e, w)
  | .call o k, inp, w =>
    run (k (exec o (inp 0) w).1) (fun n => inp (n + 1)) (exec o (inp 0) w).2

/-- The calls that the run makes, in order. -/
def trace : Prog Op Res ε α → (Nat → ι) → σ → List (Moment Op ι σ)
  | .pure _, _, _ => []
  | .throw _, _, _ => []
  | .call o k, inp, w =>
    ⟨w, o, inp 0⟩ :: trace (k (exec o (inp 0) w).1) (fun n => inp (n + 1)) (exec o (inp 0) w).2

variable {exec} in
theorem run_perform {o : Op} {inp : Nat → ι} {w : σ} :
    run exec (perform o) inp w = exec o (inp 0) w := by
  rw [perform, run]
  obtain ⟨r, w'⟩ := exec o (inp 0) w
  cases r <;> rfl

/-- The program makes the calls `os` and goes on as `q`. -/
structure Leads (p : Prog Op Res ε α) (inp : Nat → ι) (w : σ) (os : List Op) (q : Prog Op Res ε α) (inp' : Nat → ι)
    (w' : σ) : Prop where
  run : run exec p inp w = run exec q inp' w'
  trace : (trace exec p inp w).map Moment.op = os ++ (trace exec q inp' w').map Moment.op

section Leads

variable {exec} {p q r : Prog Op Res ε α} {inp inp' inp'' : Nat → ι} {w w' w'' : σ} {os os' : List Op}

theorem Leads.trans (h : Leads exec p inp w os q inp' w') (h' : Leads exec q inp' w' os' r inp'' w'') :
    Leads exec p inp w (os ++ os') r inp'' w'' where
  run := h.run.trans h'.run
  trace := by rw [h.trace, h'.trace, List.append_assoc]

theorem leads_call {o : Op} {a : Except ε (Res o)} (inp : Nat → ι) (h : exec o (inp 0) w = (a, w'))
    (k : Except ε (Res o) → Prog Op Res ε α) :
    Leads exec (.call o k) inp w [o] (k a) (fun n => inp (n + 1)) w' := by
  constructor
  · rw [Prog.run, h]
  · rw [Prog.trace, h, List.map_cons]
    rfl

end Leads

variable {exec} in
theorem run_perform_bind {o : Op} {f : Res o → Prog Op Res ε α} {inp : Nat → ι} {w w' : σ} {a : Res o}
    (h : exec o (inp 0) w = (.ok a, w')) :
    run exec ((perform o).bind f) inp w = run exec (f a) (fun n => inp (n + 1)) w' ∧
      trace exec ((perform o).bind f) inp w = ⟨w, o, inp 0⟩ :: trace exec (f a) (fun n => inp (n + 1)) w' := by
  simp only [perform, bind, run, trace, h, and_self]

variable {exec} in
theorem run_void_snd {p : Prog Op Res ε α} {inp : Nat → ι} {w : σ} :
    (run exec p.void inp w).2 = (run exec p inp w).2 := by
  induction p generalizing inp w with
  | pure a => rfl
  | throw e => rfl
  | call o k ih => exact ih _

variable {exec} in
/-- A run that returns got an answer to its first call. -/
theorem run_perform_bind_ok {o : Op} {f : Res o → Prog Op Res ε α} {inp : Nat → ι} {w : σ} {b : α}
    (h : (run exec ((perform o).bind f) inp w).1 = .ok b) :
    ∃ a, (exec o (inp 0) w).1 = .ok a ∧
      (run exec (f a) (fun n => inp (n + 1)) (exec o (inp 0) w).2).1 = .ok b := by
  cases hexec : (exec o (inp 0) w).1 with
  | ok a =>
    refine ⟨a, rfl, ?_⟩
    rw [(run_perform_bind (Prod.ext hexec rfl)).1] at h
    exact h
  | error e =>
    simp only [perform, bind, run, hexec] at h
    cases h

/-! ## Weakest preconditions under interference -/

variable (R G : σ → σ → Prop)

/-- Every call of the program is a step of `G`, and its end satisfies `Q`, whatever the inputs
are and however the others move the state along `R` before each call. -/
def wp : Prog Op Res ε α → (List (Moment Op ι σ) → Except ε α → σ → Prop) → σ → Prop
  | .pure a, Q, w => Q [] (.ok a) w
  | .throw e, Q, w => Q [] (.error e) w
  | .call o k, Q, w => ∀ w₁, Relation.ReflTransGen R w w₁ → ∀ i,
      G w₁ (exec o i w₁).2 ∧
        wp (k (exec o i w₁).1) (fun tr => Q (⟨w₁, o, i⟩ :: tr)) (exec o i w₁).2

/-- The part of `wp` that is about the calls alone. -/
def Safe (p : Prog Op Res ε α) (w : σ) : Prop := wp exec R G p (fun _ _ _ => True) w

variable {exec R G}
variable {Q Q' : List (Moment Op ι σ) → Except ε α → σ → Prop} {w w' : σ}

theorem wp_mono {p : Prog Op Res ε α} (hQ : ∀ tr r w, Q tr r w → Q' tr r w)
    (h : wp exec R G p Q w) : wp exec R G p Q' w := by
  induction p generalizing Q Q' w with
  | pure a => exact hQ _ _ _ h
  | throw e => exact hQ _ _ _ h
  | call o k ih =>
    intro w₁ hw i
    exact ⟨(h w₁ hw i).1, ih _ (fun tr r w => hQ _ r w) (h w₁ hw i).2⟩

/-- Less interference, a weaker guarantee. -/
theorem wp_weaken {R' H : σ → σ → Prop} (hR : ∀ w w', R' w w' → R w w')
    (hG : ∀ w w', G w w' → H w w') {p : Prog Op Res ε α} (h : wp exec R G p Q w) :
    wp exec R' H p Q w := by
  induction p generalizing Q w with
  | pure a => exact h
  | throw e => exact h
  | call o k ih =>
    intro w₁ hw i
    obtain ⟨hg, hk⟩ := h w₁ (Relation.ReflTransGen.mono hR _ _ hw) i
    exact ⟨hG _ _ hg, ih _ hk⟩

theorem wp_bind {p : Prog Op Res ε α} {f : α → Prog Op Res ε β}
    {Q : List (Moment Op ι σ) → Except ε β → σ → Prop} :
    wp exec R G (p.bind f) Q w ↔ wp exec R G p (fun tr r w' => match r with
      | .ok a => wp exec R G (f a) (fun tr' => Q (tr ++ tr')) w'
      | .error e => Q tr (.error e) w') w := by
  induction p generalizing Q w with
  | pure a => rfl
  | throw e => rfl
  | call o k ih =>
    simp only [bind, wp]
    refine forall_congr' fun w₁ => forall_congr' fun hw => forall_congr' fun i => ?_
    rw [ih]
    rfl

theorem wp_tryCatch {p : Prog Op Res ε α} {h : ε → Prog Op Res ε α} :
    wp exec R G (p.tryCatch h) Q w ↔ wp exec R G p (fun tr r w' => match r with
      | .ok a => Q tr (.ok a) w'
      | .error e => wp exec R G (h e) (fun tr' => Q (tr ++ tr')) w') w := by
  induction p generalizing Q w with
  | pure a => rfl
  | throw e => rfl
  | call o k ih =>
    simp only [tryCatch, wp]
    refine forall_congr' fun w₁ => forall_congr' fun hw => forall_congr' fun i => ?_
    rw [ih]
    rfl

theorem wp_perform {o : Op} {Q : List (Moment Op ι σ) → Except ε (Res o) → σ → Prop} :
    wp exec R G (perform o) Q w ↔ ∀ w₁, Relation.ReflTransGen R w w₁ → ∀ i,
      G w₁ (exec o i w₁).2 ∧ Q [⟨w₁, o, i⟩] (exec o i w₁).1 (exec o i w₁).2 := by
  simp only [perform, wp]
  refine forall_congr' fun w₁ => forall_congr' fun hw => forall_congr' fun i => ?_
  cases (exec o i w₁).1 <;> rfl

theorem wp_ofExcept {r : Except ε α} : wp exec R G (ofExcept r) Q w ↔ Q [] r w := by
  cases r <;> rfl

theorem wp_ofExcept_bind {r : Except ε α} {f : α → Prog Op Res ε β}
    {Q : List (Moment Op ι σ) → Except ε β → σ → Prop} (hok : ∀ a, r = .ok a → wp exec R G (f a) Q w)
    (herror : ∀ e, r = .error e → Q [] (.error e) w) : wp exec R G ((ofExcept r).bind f) Q w := by
  cases r with
  | ok a => exact hok a rfl
  | error e => exact herror e rfl

/-- The last part of `try … finally` runs where the first has ended, and hands its outcome on. -/
theorem wp_tryFinally {p : Prog Op Res ε α} {last : Prog Op Res ε Unit}
    (h : wp exec R G p (fun tr r w' =>
      wp exec R G last (fun tr' r' => Q (tr ++ tr') (r'.bind fun _ => r)) w') w) :
    wp exec R G (p.tryFinally last) Q w := by
  rw [tryFinally, wp_bind, wp_tryCatch, wp_bind]
  refine wp_mono ?_ h
  intro tr r w' hlast
  have hend : wp exec R G (last.bind fun _ => ofExcept r) (fun tr' => Q (tr ++ tr')) w' := by
    refine wp_bind.mpr (wp_mono ?_ hlast)
    intro tr' r' w'' hQ
    cases r' with
    | ok _ => exact wp_ofExcept.mpr (by rwa [List.append_nil])
    | error e => exact hQ
  cases r with
  | ok a =>
    simp only [wp, List.append_nil]
    exact hend
  | error e =>
    simp only [wp, List.append_nil]
    exact hend

/-- The end of a program whose result is dropped. -/
theorem wp_void {p : Prog Op Res ε α} {Q : List (Moment Op ι σ) → Except ε Unit → σ → Prop}
    (h : wp exec R G p (fun tr r => Q tr (r.map fun _ => ())) w) : wp exec R G p.void Q w := by
  rw [void, wp_bind]
  refine wp_mono ?_ h
  intro tr r w' hQ
  cases r with
  | ok a =>
    rw [wp, List.append_nil]
    exact hQ
  | error e => exact hQ

/-- What a program started in `w` may rely on, it may rely on wherever the others have moved
the state before its next call. -/
theorem Safe.stable {p : Prog Op Res ε α} (h : Safe exec R G p w)
    (hw : Relation.ReflTransGen R w w') : Safe exec R G p w' := by
  cases p with
  | pure a => exact trivial
  | throw e => exact trivial
  | call o k => exact fun w₁ hw₁ i => h w₁ (hw.trans hw₁) i

/-- A program may be started wherever the others have moved the state, if they keep its end. -/
theorem wp_moved {p : Prog Op Res ε α} (hQ : ∀ tr r w w', R w w' → Q tr r w → Q tr r w')
    (h : wp exec R G p Q w) (hw : Relation.ReflTransGen R w w') : wp exec R G p Q w' := by
  have hstar : ∀ tr r, Q tr r w → Q tr r w' := by
    intro tr r hend
    induction hw with
    | refl => exact hend
    | tail _ hs ih => exact hQ _ _ _ _ hs ih
  cases p with
  | pure a => exact hstar _ _ h
  | throw e => exact hstar _ _ h
  | call o k => exact fun w₁ hw₁ i => h w₁ (hw.trans hw₁) i

theorem wp_of_safe {H : σ → σ → Prop} {p : Prog Op Res ε α} (h : Safe exec R G p w)
    (hQ : wp exec R H p Q w) : wp exec R G p Q w := by
  induction p generalizing Q w with
  | pure a => exact hQ
  | throw e => exact hQ
  | call o k ih =>
    intro w₁ hw i
    exact ⟨(h w₁ hw i).1, ih _ (h w₁ hw i).2 (hQ w₁ hw i).2⟩

theorem wp_exec {H : σ → σ → Prop} (hH : ∀ o i w, H w (exec o i w).2) {p : Prog Op Res ε α}
    (h : wp exec R G p Q w) : wp exec R (fun w w' => G w w' ∧ H w w') p Q w := by
  induction p generalizing Q w with
  | pure a => exact h
  | throw e => exact h
  | call o k ih =>
    intro w₁ hw i
    exact ⟨⟨(h w₁ hw i).1, hH o i w₁⟩, ih _ (h w₁ hw i).2⟩

theorem Safe.and {H : σ → σ → Prop} {p : Prog Op Res ε α} (h : Safe exec R G p w)
    (h' : Safe exec R H p w) : Safe exec R (fun w w' => G w w' ∧ H w w') p w := by
  induction p generalizing w with
  | pure a => exact trivial
  | throw e => exact trivial
  | call o k ih =>
    intro w₁ hw i
    exact ⟨⟨(h w₁ hw i).1, (h' w₁ hw i).1⟩, ih _ (h w₁ hw i).2 (h' w₁ hw i).2⟩

theorem wp_and {p : Prog Op Res ε α} (h : wp exec R G p Q w) (h' : wp exec R G p Q' w) :
    wp exec R G p (fun tr r w' => Q tr r w' ∧ Q' tr r w') w := by
  induction p generalizing Q Q' w with
  | pure a => exact ⟨h, h'⟩
  | throw e => exact ⟨h, h'⟩
  | call o k ih =>
    intro w₁ hw i
    exact ⟨(h w₁ hw i).1, ih _ (h w₁ hw i).2 (h' w₁ hw i).2⟩

/-- A program whose first part ends, if it does not throw, where the second is safe. -/
theorem Safe.bind_wp {F : α → σ → Prop} {p : Prog Op Res ε α} {f : α → Prog Op Res ε β}
    (hp : wp exec R G p (fun _ r w' => ∀ a, r = .ok a → F a w') w)
    (hf : ∀ a w', F a w' → Safe exec R G (f a) w') : Safe exec R G (p.bind f) w := by
  rw [Safe, wp_bind]
  refine wp_mono ?_ hp
  intro tr r w' hF
  cases r with
  | ok a => exact hf a w' (hF a rfl)
  | error e => exact trivial

/-- A fact that neither the others nor the program's own steps undo. -/
structure Stable (R G : σ → σ → Prop) (F : σ → Prop) : Prop where
  rely : ∀ w w', R w w' → F w → F w'
  guarantee : ∀ w w', G w w' → F w → F w'

theorem Stable.star {F : σ → Prop} (hF : Stable R G F) (h : Relation.ReflTransGen R w w')
    (hw : F w) : F w' := by
  induction h with
  | refl => exact hw
  | tail _ hs ih => exact hF.rely _ _ hs ih

theorem stable_true : Stable R G fun _ => True :=
  ⟨fun _ _ _ _ => trivial, fun _ _ _ _ => trivial⟩

theorem Stable.and {F H : σ → Prop} (hF : Stable R G F) (hH : Stable R G H) :
    Stable R G fun w => F w ∧ H w :=
  ⟨fun _ _ h hw => ⟨hF.rely _ _ h hw.1, hH.rely _ _ h hw.2⟩,
    fun _ _ h hw => ⟨hF.guarantee _ _ h hw.1, hH.guarantee _ _ h hw.2⟩⟩

/-- **A stable fact holds at the end.** -/
theorem wp_keeps {F : σ → Prop} (hF : Stable R G F) {p : Prog Op Res ε α}
    (h : wp exec R G p Q w) (hw : F w) : wp exec R G p (fun tr r w' => Q tr r w' ∧ F w') w := by
  induction p generalizing Q w with
  | pure a => exact ⟨h, hw⟩
  | throw e => exact ⟨h, hw⟩
  | call o k ih =>
    intro w₁ hw₁ i
    obtain ⟨hg, hk⟩ := h w₁ hw₁ i
    exact ⟨hg, ih _ hk (hF.guarantee _ _ hg (hF.star hw₁ hw))⟩

theorem Safe.keeps {F : σ → Prop} (hF : Stable R G F) {p : Prog Op Res ε α}
    (h : Safe exec R G p w) (hw : F w) : wp exec R G p (fun _ _ w' => F w') w :=
  wp_mono (fun _ _ _ h => h.2) (wp_keeps hF h hw)

/-- A stable fact holds at every call. -/
theorem wp_moments {F : σ → Prop} (hF : Stable R G F) {p : Prog Op Res ε α}
    (h : wp exec R G p Q w) (hw : F w) :
    wp exec R G p (fun tr r w' => (∀ m ∈ tr, F m.state) ∧ Q tr r w') w := by
  induction p generalizing Q w with
  | pure a => exact ⟨by simp, h⟩
  | throw e => exact ⟨by simp, h⟩
  | call o k ih =>
    intro w₁ hw₁ i
    obtain ⟨hg, hk⟩ := h w₁ hw₁ i
    have hF₁ := hF.star hw₁ hw
    refine ⟨hg, wp_mono ?_ (ih _ hk (hF.guarantee _ _ hg hF₁))⟩
    rintro tr r w' ⟨hall, hQ⟩
    exact ⟨List.forall_mem_cons.mpr ⟨hF₁, hall⟩, hQ⟩

/-- Each call of the trace is a step of `G`. -/
theorem wp_guarantee {p : Prog Op Res ε α} (h : wp exec R G p Q w) :
    wp exec R G p (fun tr r w' =>
      (∀ m ∈ tr, G m.state (exec m.op m.input m.state).2) ∧ Q tr r w') w := by
  induction p generalizing Q w with
  | pure a => exact ⟨by simp, h⟩
  | throw e => exact ⟨by simp, h⟩
  | call o k ih =>
    intro w₁ hw₁ i
    obtain ⟨hg, hk⟩ := h w₁ hw₁ i
    refine ⟨hg, wp_mono ?_ (ih _ hk)⟩
    rintro tr r w' ⟨hall, hQ⟩
    exact ⟨List.forall_mem_cons.mpr ⟨hg, hall⟩, hQ⟩

theorem Safe.bind {F : σ → Prop} (hF : Stable R G F) {p : Prog Op Res ε α}
    {f : α → Prog Op Res ε β} (hp : Safe exec R G p w) (hw : F w)
    (hf : ∀ a w', F w' → Safe exec R G (f a) w') : Safe exec R G (p.bind f) w :=
  .bind_wp (F := fun _ => F) (wp_mono (fun _ _ _ h _ _ => h) (hp.keeps hF hw)) hf

theorem Safe.tryCatch {F : σ → Prop} (hF : Stable R G F) {p : Prog Op Res ε α}
    {h : ε → Prog Op Res ε α} (hp : Safe exec R G p w) (hw : F w)
    (hh : ∀ e w', F w' → Safe exec R G (h e) w') : Safe exec R G (p.tryCatch h) w := by
  rw [Safe, wp_tryCatch]
  refine wp_mono ?_ (hp.keeps hF hw)
  intro tr r w' hw'
  cases r with
  | ok a => exact trivial
  | error e => exact hh e w' hw'

/-- A loop is safe if each round is, wherever a stable fact holds. -/
theorem Safe.forEach {γ : Type} {F : σ → Prop} (hF : Stable R G F) {f : γ → Prog Op Res ε Unit}
    {xs : List γ} (hf : ∀ x ∈ xs, ∀ w, F w → Safe exec R G (f x) w) (hw : F w) :
    Safe exec R G (Prog.forEach f xs) w := by
  induction xs generalizing w with
  | nil => exact trivial
  | cons x xs ih =>
    refine Safe.bind hF (hf x (by simp) w hw) hw ?_
    intro _ w' hw'
    exact ih (fun y hy => hf y (List.mem_cons_of_mem _ hy)) hw'

/-- Every call of the program is a step of `G`, and what it returns, if it does not throw, satisfies
`F` in the state it leaves. -/
def Yields (exec : (o : Op) → ι → σ → Except ε (Res o) × σ) (R G : σ → σ → Prop)
    (p : Prog Op Res ε α) (F : α → σ → Prop) (w : σ) : Prop :=
  wp exec R G p (fun _ r w' => ∀ a, r = .ok a → F a w') w

theorem Yields.safe {F : α → σ → Prop} {p : Prog Op Res ε α} (h : Yields exec R G p F w) :
    Safe exec R G p w :=
  wp_mono (fun _ _ _ _ => trivial) h

theorem Yields.mono {F H : α → σ → Prop} {p : Prog Op Res ε α} (hF : ∀ a w', F a w' → H a w')
    (h : Yields exec R G p F w) : Yields exec R G p H w :=
  wp_mono (fun _ _ _ h a ha => hF a _ (h a ha)) h

theorem Yields.bind {F : α → σ → Prop} {H : β → σ → Prop} {p : Prog Op Res ε α}
    {f : α → Prog Op Res ε β} (hp : Yields exec R G p F w)
    (hf : ∀ a w', F a w' → Yields exec R G (f a) H w') : Yields exec R G (p.bind f) H w := by
  rw [Yields, wp_bind]
  refine wp_mono ?_ hp
  intro tr r w' hF
  cases r with
  | ok a => exact hf a w' (hF a rfl)
  | error e => exact fun b hb => by cases hb

theorem Safe.yields {F : σ → Prop} (hF : Stable R G F) {p : Prog Op Res ε α}
    (h : Safe exec R G p w) (hw : F w) : Yields exec R G p (fun _ => F) w :=
  wp_mono (fun _ _ _ h _ _ => h) (h.keeps hF hw)

theorem Yields.keeps {F : α → σ → Prop} {I : σ → Prop} (hI : Stable R G I) {p : Prog Op Res ε α}
    (h : Yields exec R G p F w) (hw : I w) :
    Yields exec R G p (fun a w' => F a w' ∧ I w') w :=
  wp_mono (fun _ _ _ h a ha => ⟨h.1 a ha, h.2⟩) (wp_keeps hI h hw)

/-- A handler may rely on a stable fact. -/
theorem Yields.tryCatch {F : α → σ → Prop} {I : σ → Prop} (hI : Stable R G I)
    {p : Prog Op Res ε α} {h : ε → Prog Op Res ε α} (hp : Yields exec R G p F w) (hw : I w)
    (hh : ∀ e w', I w' → Yields exec R G (h e) F w') : Yields exec R G (p.tryCatch h) F w := by
  rw [Yields, wp_tryCatch]
  refine wp_mono ?_ (wp_keeps hI hp hw)
  rintro tr r w' ⟨hF, hw'⟩
  cases r with
  | ok a => exact hF
  | error e => exact hh e w' hw'

/-- A loop each round of which brings about a stable fact. -/
theorem Yields.forEach {γ : Type} {F : γ → σ → Prop} (hF : ∀ x, Stable R G (F x)) {I : σ → Prop}
    (hI : Stable R G I) {f : γ → Prog Op Res ε Unit} {xs : List γ}
    (hf : ∀ x ∈ xs, ∀ w, I w → Yields exec R G (f x) (fun _ => F x) w) (hw : I w) :
    Yields exec R G (Prog.forEach f xs) (fun _ w' => ∀ x ∈ xs, F x w') w := by
  induction xs generalizing w with
  | nil => exact fun _ _ x hx => by cases hx
  | cons x xs ih =>
    refine Yields.bind ((hf x (by simp) w hw).keeps hI hw) ?_
    rintro _ w₁ ⟨hx, hw₁⟩
    refine ((ih (fun y hy => hf y (List.mem_cons_of_mem _ hy)) hw₁).keeps (hF x) hx).mono ?_
    rintro _ w₂ ⟨hxs, hx⟩
    exact List.forall_mem_cons.mpr ⟨hx, hxs⟩

theorem safe_perform {o : Op} (h : ∀ w₁, Relation.ReflTransGen R w w₁ → ∀ i,
    G w₁ (exec o i w₁).2) : Safe exec R G (perform o) w := by
  rw [Safe, wp_perform]
  exact fun w₁ hw i => ⟨h w₁ hw i, trivial⟩

/-- **What `wp` promises of the run on any inputs**, when nobody else moves. -/
theorem run_of_wp {p : Prog Op Res ε α} (h : wp exec R G p Q w) (inp : Nat → ι) :
    Q (trace exec p inp w) (run exec p inp w).1 (run exec p inp w).2 := by
  induction p generalizing Q w inp with
  | pure a => exact h
  | throw e => exact h
  | call o k ih => exact ih _ (h w .refl (inp 0)).2 _

/-! ### Runs on inputs of one kind, and runs among others -/

/-- The calls under inputs that satisfy `P` only. -/
def restrict (exec : (o : Op) → ι → σ → Except ε (Res o) × σ) (P : ι → Prop) (o : Op)
    (i : { i // P i }) (w : σ) : Except ε (Res o) × σ :=
  exec o i.1 w

/-- A call before which the others have moved the state, by the function that comes with the
input. -/
def among (exec : (o : Op) → ι → σ → Except ε (Res o) × σ) (o : Op) (i : (σ → σ) × ι) (w : σ) :
    Except ε (Res o) × σ :=
  exec o i.2 (i.1 w)

/-- Among others that move along `R`, on inputs that all satisfy `P`, the program ends with `Q`
of its result and the state. -/
def Ends (exec : (o : Op) → ι → σ → Except ε (Res o) × σ) (P : ι → Prop) (R : σ → σ → Prop)
    (p : Prog Op Res ε α) (Q : Except ε α → σ → Prop) (w : σ) : Prop :=
  wp (restrict exec P) R (fun _ _ => True) p (fun _ => Q) w

section Ends

variable {P : ι → Prop} {Q Q' : Except ε α → σ → Prop}

theorem Ends.mono {p : Prog Op Res ε α} (hQ : ∀ r w, Q r w → Q' r w)
    (h : Ends exec P R p Q w) : Ends exec P R p Q' w :=
  wp_mono (fun _ => hQ) h

theorem ends_bind {p : Prog Op Res ε α} {f : α → Prog Op Res ε β} {Q : Except ε β → σ → Prop} :
    Ends exec P R (p.bind f) Q w ↔ Ends exec P R p (fun r w' => match r with
      | .ok a => Ends exec P R (f a) Q w'
      | .error e => Q (.error e) w') w := wp_bind

theorem ends_tryCatch {p : Prog Op Res ε α} {h : ε → Prog Op Res ε α} :
    Ends exec P R (p.tryCatch h) Q w ↔ Ends exec P R p (fun r w' => match r with
      | .ok a => Q (.ok a) w'
      | .error e => Ends exec P R (h e) Q w') w := wp_tryCatch

theorem ends_perform {o : Op} {Q : Except ε (Res o) → σ → Prop}
    (h : ∀ w₁, Relation.ReflTransGen R w w₁ → ∀ i, P i → Q (exec o i w₁).1 (exec o i w₁).2) :
    Ends exec P R (perform o) Q w :=
  wp_perform.mpr fun w₁ hw i => ⟨trivial, h w₁ hw i.1 i.2⟩

theorem Ends.bind {p : Prog Op Res ε α} {f : α → Prog Op Res ε β} {F : α → σ → Prop}
    {Q : Except ε β → σ → Prop}
    (hp : Ends exec P R p (fun r w' => ∃ a, r = .ok a ∧ F a w') w)
    (hf : ∀ a w', F a w' → Ends exec P R (f a) Q w') : Ends exec P R (p.bind f) Q w := by
  rw [ends_bind]
  refine hp.mono ?_
  rintro r w' ⟨a, rfl, hF⟩
  exact hf a w' hF

theorem Ends.forEach {γ : Type} {f : γ → Prog Op Res ε Unit} {F : List γ → σ → Prop} {xs : List γ}
    (hf : ∀ x xs w, F (x :: xs) w → Ends exec P R (f x) (fun r w' => ∃ a, r = .ok a ∧ F xs w') w)
    (hw : F xs w) :
    Ends exec P R (Prog.forEach f xs) (fun r w' => r = .ok () ∧ F [] w') w := by
  induction xs generalizing w with
  | nil => exact ⟨rfl, hw⟩
  | cons x xs ih => exact Ends.bind (F := fun _ => F xs) (hf x xs w hw) fun _ w' hw' => ih hw'

/-- **A run alone.** -/
theorem Ends.run {p : Prog Op Res ε α} (h : Ends exec P R p Q w) {inp : Nat → ι}
    (hP : ∀ n, P (inp n)) : Q (run exec p inp w).1 (run exec p inp w).2 := by
  induction p generalizing w inp with
  | pure a => exact h
  | throw e => exact h
  | call o k ih => exact ih _ (h w .refl ⟨inp 0, hP 0⟩).2 fun n => hP (n + 1)

end Ends

/-- The calls of a run among others, in the states in which they were made. -/
def traceAmong (exec : (o : Op) → ι → σ → Except ε (Res o) × σ) (p : Prog Op Res ε α)
    (inp : Nat → (σ → σ) × ι) (w : σ) : List (Moment Op ι σ) :=
  (trace (among exec) p inp w).map fun m => ⟨m.input.1 m.state, m.op, m.input.2⟩

theorem wp_restrict {P : ι → Prop} {p : Prog Op Res ε α} (h : wp exec R G p Q w) :
    wp (restrict exec P) R G p (fun tr => Q (tr.map fun m => ⟨m.state, m.op, m.input.1⟩)) w := by
  induction p generalizing Q w with
  | pure a => exact h
  | throw e => exact h
  | call o k ih => exact fun w₁ hw i => ⟨(h w₁ hw i.1).1, ih _ (h w₁ hw i.1).2⟩

/-- **A run among others** that move along `R`, on inputs that all satisfy `P`. -/
theorem run_among_of_wp {P : ι → Prop} {Q : List (Moment Op ι σ) → Except ε α → σ → Prop}
    {p : Prog Op Res ε α}
    (h : wp (restrict exec P) R G p
      (fun tr => Q (tr.map fun m => ⟨m.state, m.op, m.input.1⟩)) w)
    {inp : Nat → (σ → σ) × ι} (hP : ∀ n, P (inp n).2)
    (hR : ∀ n v, Relation.ReflTransGen R v ((inp n).1 v)) :
    Q (traceAmong exec p inp w) (run (among exec) p inp w).1 (run (among exec) p inp w).2 := by
  induction p generalizing Q w inp with
  | pure a => exact h
  | throw e => exact h
  | call o k ih =>
    obtain ⟨_, hk⟩ := h _ (hR 0 w) ⟨(inp 0).2, hP 0⟩
    exact ih _ (Q := fun tr => Q (⟨_, _, _⟩ :: tr)) hk (fun n => hP (n + 1)) fun n => hR (n + 1)

/-! ### Runs alone, on inputs that an environment allows

`A o i w` says that the environment may answer the call `o` in the state `w` with the input `i`. -/

variable {A : Op → ι → σ → Prop}

/-- Every run on allowed inputs ends with `Q` of its result and the state. -/
def Under (exec : (o : Op) → ι → σ → Except ε (Res o) × σ) (A : Op → ι → σ → Prop) :
    Prog Op Res ε α → (Except ε α → σ → Prop) → σ → Prop
  | .pure a, Q, w => Q (.ok a) w
  | .throw e, Q, w => Q (.error e) w
  | .call o k, Q, w => ∀ i, A o i w → Under exec A (k (exec o i w).1) Q (exec o i w).2

/-- Some run on allowed inputs ends with `Q` of its result and the state. -/
def Can (exec : (o : Op) → ι → σ → Except ε (Res o) × σ) (A : Op → ι → σ → Prop) :
    Prog Op Res ε α → (Except ε α → σ → Prop) → σ → Prop
  | .pure a, Q, w => Q (.ok a) w
  | .throw e, Q, w => Q (.error e) w
  | .call o k, Q, w => ∃ i, A o i w ∧ Can exec A (k (exec o i w).1) Q (exec o i w).2

section Allowed

variable {Q Q' : Except ε α → σ → Prop}

theorem Under.mono {p : Prog Op Res ε α} (hQ : ∀ r w, Q r w → Q' r w) (h : Under exec A p Q w) :
    Under exec A p Q' w := by
  induction p generalizing w with
  | pure a => exact hQ _ _ h
  | throw e => exact hQ _ _ h
  | call o k ih => exact fun i hi => ih _ (h i hi)

theorem Under.and {p : Prog Op Res ε α} (h : Under exec A p Q w) (h' : Under exec A p Q' w) :
    Under exec A p (fun r w' => Q r w' ∧ Q' r w') w := by
  induction p generalizing w with
  | pure a => exact ⟨h, h'⟩
  | throw e => exact ⟨h, h'⟩
  | call o k ih => exact fun i hi => ih _ (h i hi) (h' i hi)

theorem under_bind {p : Prog Op Res ε α} {f : α → Prog Op Res ε β} {Q : Except ε β → σ → Prop} :
    Under exec A (p.bind f) Q w ↔ Under exec A p (fun r w' => match r with
      | .ok a => Under exec A (f a) Q w'
      | .error e => Q (.error e) w') w := by
  induction p generalizing w with
  | pure a => rfl
  | throw e => rfl
  | call o k ih => exact forall_congr' fun i => forall_congr' fun _ => ih _

theorem under_tryCatch {p : Prog Op Res ε α} {h : ε → Prog Op Res ε α} :
    Under exec A (p.tryCatch h) Q w ↔ Under exec A p (fun r w' => match r with
      | .ok a => Q (.ok a) w'
      | .error e => Under exec A (h e) Q w') w := by
  induction p generalizing w with
  | pure a => rfl
  | throw e => rfl
  | call o k ih => exact forall_congr' fun i => forall_congr' fun _ => ih _

theorem under_perform {o : Op} {Q : Except ε (Res o) → σ → Prop} :
    Under exec A (perform o) Q w ↔ ∀ i, A o i w → Q (exec o i w).1 (exec o i w).2 := by
  refine forall_congr' fun i => forall_congr' fun _ => ?_
  cases (exec o i w).1 <;> rfl

theorem under_ofExcept {r : Except ε α} : Under exec A (ofExcept r) Q w ↔ Q r w := by
  cases r <;> rfl

theorem under_congr {p : Prog Op Res ε α} (h : ∀ r w, Q r w ↔ Q' r w) :
    Under exec A p Q w ↔ Under exec A p Q' w :=
  ⟨.mono fun r w => (h r w).mp, .mono fun r w => (h r w).mpr⟩

/-- The last part of `try … finally` runs where the first has ended, and hands its outcome on. -/
theorem under_tryFinally {p : Prog Op Res ε α} {last : Prog Op Res ε Unit} :
    Under exec A (p.tryFinally last) Q w ↔ Under exec A p (fun r w' =>
      Under exec A last (fun r' w'' => match r' with
        | .ok _ => Q r w''
        | .error e => Q (.error e) w'') w') w := by
  have hend : ∀ (r : Except ε α) (w' : σ), Under exec A (last.bind fun _ => ofExcept r) Q w' ↔
      Under exec A last (fun r' w'' => match r' with
        | .ok _ => Q r w''
        | .error e => Q (.error e) w'') w' := by
    intro r w'
    rw [under_bind]
    refine under_congr ?_
    intro r' w''
    cases r' with
    | ok _ => exact under_ofExcept
    | error e => exact Iff.rfl
  rw [tryFinally, under_bind, under_tryCatch, under_bind]
  refine under_congr ?_
  intro r w'
  cases r with
  | ok a => exact hend _ _
  | error e => exact hend _ _

/-- A program that ends with a value, and the rest started there. -/
theorem Under.bind {p : Prog Op Res ε α} {f : α → Prog Op Res ε β} {F : α → σ → Prop}
    {Q : Except ε β → σ → Prop} (hp : Under exec A p (fun r w' => ∀ a, r = .ok a → F a w') w)
    (herror : ∀ e w', Q (.error e) w') (hf : ∀ a w', F a w' → Under exec A (f a) Q w') :
    Under exec A (p.bind f) Q w := by
  rw [under_bind]
  refine hp.mono ?_
  intro r w' hF
  cases r with
  | ok a => exact hf a w' (hF a rfl)
  | error e => exact herror e w'

theorem Can.mono {p : Prog Op Res ε α} (hQ : ∀ r w, Q r w → Q' r w) (h : Can exec A p Q w) :
    Can exec A p Q' w := by
  induction p generalizing w with
  | pure a => exact hQ _ _ h
  | throw e => exact hQ _ _ h
  | call o k ih =>
    obtain ⟨i, hi, hk⟩ := h
    exact ⟨i, hi, ih _ hk⟩

theorem Can.weaken {B : Op → ι → σ → Prop} (hA : ∀ o i w, A o i w → B o i w) {p : Prog Op Res ε α}
    (h : Can exec A p Q w) : Can exec B p Q w := by
  induction p generalizing w with
  | pure a => exact h
  | throw e => exact h
  | call o k ih =>
    obtain ⟨i, hi, hk⟩ := h
    exact ⟨i, hA o i w hi, ih _ hk⟩

theorem can_bind {p : Prog Op Res ε α} {f : α → Prog Op Res ε β} {Q : Except ε β → σ → Prop} :
    Can exec A (p.bind f) Q w ↔ Can exec A p (fun r w' => match r with
      | .ok a => Can exec A (f a) Q w'
      | .error e => Q (.error e) w') w := by
  induction p generalizing w with
  | pure a => rfl
  | throw e => rfl
  | call o k ih => exact exists_congr fun i => and_congr_right fun _ => ih _

theorem can_tryCatch {p : Prog Op Res ε α} {h : ε → Prog Op Res ε α} :
    Can exec A (p.tryCatch h) Q w ↔ Can exec A p (fun r w' => match r with
      | .ok a => Q (.ok a) w'
      | .error e => Can exec A (h e) Q w') w := by
  induction p generalizing w with
  | pure a => rfl
  | throw e => rfl
  | call o k ih => exact exists_congr fun i => and_congr_right fun _ => ih _

theorem can_tryFinally {p : Prog Op Res ε α} {last : Prog Op Res ε Unit}
    (h : Can exec A p (fun r w' => Can exec A last (fun r' w'' => r' = .ok () ∧ Q r w'') w') w) :
    Can exec A (p.tryFinally last) Q w := by
  have hend : ∀ (r : Except ε α) (w' : σ), Can exec A last (fun r' w'' => r' = .ok () ∧ Q r w'') w' →
      Can exec A (last.bind fun _ => ofExcept r) Q w' := by
    intro r w' hlast
    rw [can_bind]
    refine hlast.mono ?_
    intro r' w'' hr
    obtain ⟨rfl, hQ⟩ := hr
    cases r <;> exact hQ
  rw [tryFinally, can_bind, can_tryCatch, can_bind]
  refine h.mono ?_
  intro r w' hlast
  cases r with
  | ok a => exact hend _ _ hlast
  | error e => exact hend _ _ hlast

theorem can_perform {o : Op} {Q : Except ε (Res o) → σ → Prop} :
    Can exec A (perform o) Q w ↔ ∃ i, A o i w ∧ Q (exec o i w).1 (exec o i w).2 := by
  refine exists_congr fun i => and_congr_right fun _ => ?_
  cases (exec o i w).1 <;> rfl

theorem Under.can {p : Prog Op Res ε α} (hA : ∀ o w, ∃ i, A o i w) (h : Under exec A p Q w) :
    Can exec A p Q w := by
  induction p generalizing w with
  | pure a => exact h
  | throw e => exact h
  | call o k ih =>
    obtain ⟨i, hi⟩ := hA o w
    exact ⟨i, hi, ih _ (h i hi)⟩

theorem can_ofExcept {r : Except ε α} : Can exec A (ofExcept r) Q w ↔ Q r w := by
  cases r <;> rfl

/-- **What `Under` promises of a run.** -/
theorem Under.run {p : Prog Op Res ε α} (h : Under exec A p Q w) (inp : Nat → ι)
    (hA : ∀ m ∈ trace exec p inp w, A m.op m.input m.state) :
    Q (run exec p inp w).1 (run exec p inp w).2 := by
  induction p generalizing w inp with
  | pure a => exact h
  | throw e => exact h
  | call o k ih =>
    obtain ⟨hfirst, hrest⟩ := List.forall_mem_cons.mp hA
    exact ih _ (h _ hfirst) _ hrest

/-- The calls of a run are made on its inputs. -/
theorem input_of_mem_trace {p : Prog Op Res ε α} {inp : Nat → ι} {m : Moment Op ι σ}
    (h : m ∈ trace exec p inp w) : ∃ n, m.input = inp n := by
  induction p generalizing w inp with
  | pure a => cases h
  | throw e => cases h
  | call o k ih =>
    rcases List.mem_cons.mp h with rfl | h
    · exact ⟨0, rfl⟩
    · obtain ⟨n, hn⟩ := ih _ h
      exact ⟨n + 1, hn⟩

theorem input_of_mem_traceAmong {p : Prog Op Res ε α} {inp : Nat → (σ → σ) × ι} {m : Moment Op ι σ}
    (h : m ∈ traceAmong exec p inp w) : ∃ n, m.input = (inp n).2 := by
  obtain ⟨m', hm', rfl⟩ := List.mem_map.mp h
  obtain ⟨n, hn⟩ := input_of_mem_trace hm'
  exact ⟨n, by rw [hn]⟩

/-- **What `Can` promises: a run.** -/
theorem Can.run [Inhabited ι] {p : Prog Op Res ε α} (h : Can exec A p Q w) :
    ∃ inp, (∀ m ∈ trace exec p inp w, A m.op m.input m.state) ∧
      Q (run exec p inp w).1 (run exec p inp w).2 := by
  induction p generalizing w with
  | pure a => exact ⟨fun _ => default, by simp [trace], h⟩
  | throw e => exact ⟨fun _ => default, by simp [trace], h⟩
  | call o k ih =>
    obtain ⟨i, hi, hk⟩ := h
    obtain ⟨inp, hA, hQ⟩ := ih _ hk
    let inputs : Nat → ι
      | 0 => i
      | n + 1 => inp n
    exact ⟨inputs, List.forall_mem_cons.mpr ⟨hi, hA⟩, hQ⟩

/-- Some run on allowed inputs makes a call that `N` picks out. -/
def CanMake (exec : (o : Op) → ι → σ → Except ε (Res o) × σ) (A : Op → ι → σ → Prop)
    (N : Moment Op ι σ → Prop) : Prog Op Res ε α → σ → Prop
  | .pure _, _ => False
  | .throw _, _ => False
  | .call o k, w =>
    ∃ i, A o i w ∧ (N ⟨w, o, i⟩ ∨ CanMake exec A N (k (exec o i w).1) (exec o i w).2)

variable {N : Moment Op ι σ → Prop}

theorem CanMake.bind {p : Prog Op Res ε α} (f : α → Prog Op Res ε β) (h : CanMake exec A N p w) :
    CanMake exec A N (p.bind f) w := by
  induction p generalizing w with
  | pure a => exact h.elim
  | throw e => exact h.elim
  | call o k ih =>
    obtain ⟨i, hi, hk⟩ := h
    exact ⟨i, hi, hk.imp_right (ih _)⟩

theorem CanMake.tryCatch {p : Prog Op Res ε α} (handler : ε → Prog Op Res ε α)
    (h : CanMake exec A N p w) : CanMake exec A N (p.tryCatch handler) w := by
  induction p generalizing w with
  | pure a => exact h.elim
  | throw e => exact h.elim
  | call o k ih =>
    obtain ⟨i, hi, hk⟩ := h
    exact ⟨i, hi, hk.imp_right (ih _)⟩

/-- The first part can end where the second can make the call. -/
theorem Can.bind_make {p : Prog Op Res ε α} {f : α → Prog Op Res ε β}
    (h : Can exec A p (fun r w' => ∃ a, r = .ok a ∧ CanMake exec A N (f a) w') w) :
    CanMake exec A N (p.bind f) w := by
  induction p generalizing w with
  | pure a =>
    obtain ⟨_, ha, hf⟩ := h
    cases ha
    exact hf
  | throw e =>
    obtain ⟨_, he, -⟩ := h
    cases he
  | call o k ih =>
    obtain ⟨i, hi, hk⟩ := h
    exact ⟨i, hi, .inr (ih _ hk)⟩

theorem canMake_perform {o : Op} {i : ι} (hi : A o i w) (h : N ⟨w, o, i⟩) :
    CanMake exec A N (perform o) w :=
  ⟨i, hi, .inl h⟩

/-- **What `CanMake` promises: a run with such a call.** -/
theorem CanMake.run [Inhabited ι] {p : Prog Op Res ε α} (h : CanMake exec A N p w) :
    ∃ inp, Found N (trace exec p inp w) := by
  induction p generalizing w with
  | pure a => exact h.elim
  | throw e => exact h.elim
  | call o k ih =>
    obtain ⟨i, -, hN | hk⟩ := h
    · exact ⟨fun _ => i, found_cons.mpr (.inl hN)⟩
    · obtain ⟨inp, hfound⟩ := ih _ hk
      let inputs : Nat → ι
        | 0 => i
        | n + 1 => inp n
      exact ⟨inputs, found_cons.mpr (.inr hfound)⟩

end Allowed

/-- Nobody else moves. -/
def Alone (_ _ : σ) : Prop := False

theorem eq_of_alone (h : Relation.ReflTransGen Alone w w') : w' = w := by
  cases h with
  | refl => rfl
  | tail _ hs => exact hs.elim

end Runs

/-! ## The calls a program can make -/

/-- Every call that the program can make satisfies `P`. -/
def All (P : Op → Prop) : Prog Op Res ε α → Prop
  | .pure _ => True
  | .throw _ => True
  | .call o k => P o ∧ ∀ r, All P (k r)

variable {P : Op → Prop}

theorem All.mono {P' : Op → Prop} (hP : ∀ o, P o → P' o) {p : Prog Op Res ε α} (h : All P p) :
    All P' p := by
  induction p with
  | pure a => exact trivial
  | throw e => exact trivial
  | call o k ih => exact ⟨hP o h.1, fun r => ih r (h.2 r)⟩

theorem all_true (p : Prog Op Res ε α) : All (fun _ => True) p := by
  induction p with
  | pure a => exact trivial
  | throw e => exact trivial
  | call o k ih => exact ⟨trivial, ih⟩

theorem All.bind {p : Prog Op Res ε α} {f : α → Prog Op Res ε β} (hp : All P p)
    (hf : ∀ a, All P (f a)) : All P (p.bind f) := by
  induction p with
  | pure a => exact hf a
  | throw e => exact trivial
  | call o k ih => exact ⟨hp.1, fun r => ih r (hp.2 r)⟩

theorem All.tryCatch {p : Prog Op Res ε α} {h : ε → Prog Op Res ε α} (hp : All P p)
    (hh : ∀ e, All P (h e)) : All P (p.tryCatch h) := by
  induction p with
  | pure a => exact trivial
  | throw e => exact hh e
  | call o k ih => exact ⟨hp.1, fun r => ih r (hp.2 r)⟩

theorem all_perform {o : Op} (h : P o) : All P (perform o : Prog Op Res ε (Res o)) := by
  refine ⟨h, fun r => ?_⟩
  cases r <;> exact trivial

theorem All.perform_bind {o : Op} {f : Res o → Prog Op Res ε β} (ho : P o) (hf : ∀ a, All P (f a)) :
    All P ((perform o).bind f) :=
  All.bind (all_perform ho) hf

theorem all_ofExcept (r : Except ε α) : All P (ofExcept r : Prog Op Res ε α) := by
  cases r <;> exact trivial

theorem All.ofExcept_bind {r : Except ε α} {f : α → Prog Op Res ε β} (hf : ∀ a, r = .ok a → All P (f a)) :
    All P ((ofExcept r).bind f) := by
  cases r with
  | ok a => exact hf a rfl
  | error e => exact trivial

theorem All.forEach {γ : Type} {f : γ → Prog Op Res ε Unit} (hf : ∀ x, All P (f x)) :
    ∀ xs, All P (forEach f xs)
  | [] => trivial
  | x :: xs => (hf x).bind fun _ => All.forEach hf xs

theorem All.safe {σ ι : Type} {exec : (o : Op) → ι → σ → Except ε (Res o) × σ}
    {R G : σ → σ → Prop} (hP : ∀ o, P o → ∀ i w, G w (exec o i w).2) {p : Prog Op Res ε α}
    (h : All P p) (w : σ) : Safe exec R G p w := by
  induction p generalizing w with
  | pure a => exact trivial
  | throw e => exact trivial
  | call o k ih => exact fun w₁ _ i => ⟨hP o h.1 i w₁, ih _ (h.2 _) _⟩

/-- What nobody guarantees and nobody relies on. -/
abbrev Anything {σ : Type} (_ _ : σ) : Prop := True

theorem wp_any {σ ι : Type} {exec : (o : Op) → ι → σ → Except ε (Res o) × σ} {R : σ → σ → Prop}
    (p : Prog Op Res ε α) (w : σ) : wp exec R (fun _ _ => True) p (fun _ _ _ => True) w :=
  All.safe (P := fun _ => True) (fun _ _ _ _ => trivial) (all_true p) w

theorem All.under {σ ι : Type} {exec : (o : Op) → ι → σ → Except ε (Res o) × σ}
    {A : Op → ι → σ → Prop} {I : σ → Prop} (hI : ∀ o, P o → ∀ i w, I w → I (exec o i w).2)
    {p : Prog Op Res ε α} (h : All P p) {w : σ} (hw : I w) : Under exec A p (fun _ w' => I w') w := by
  induction p generalizing w with
  | pure a => exact hw
  | throw e => exact hw
  | call o k ih => exact fun i _ => ih _ (h.2 _) (hI o h.1 i w hw)

/-- The calls of the trace are calls that the program can make. -/
theorem All.wp_trace {σ ι : Type} {exec : (o : Op) → ι → σ → Except ε (Res o) × σ}
    {R G : σ → σ → Prop} {Q : List (Moment Op ι σ) → Except ε α → σ → Prop} {w : σ}
    {p : Prog Op Res ε α} (hp : All P p) (h : wp exec R G p Q w) :
    wp exec R G p (fun tr r w' => (∀ m ∈ tr, P m.op) ∧ Q tr r w') w := by
  induction p generalizing Q w with
  | pure a => exact ⟨by simp, h⟩
  | throw e => exact ⟨by simp, h⟩
  | call o k ih =>
    intro w₁ hw i
    refine ⟨(h w₁ hw i).1, wp_mono ?_ (ih _ (hp.2 _) (h w₁ hw i).2)⟩
    rintro tr r w' ⟨hall, hQ⟩
    exact ⟨List.forall_mem_cons.mpr ⟨hp.1, hall⟩, hQ⟩

section Trace

variable {σ ι : Type} {exec : (o : Op) → ι → σ → Except ε (Res o) × σ} {I : σ → Prop}

theorem All.run_inv (hI : ∀ o, P o → ∀ i w, I w → I (exec o i w).2) {p : Prog Op Res ε α}
    (h : All P p) {inp : Nat → ι} {w : σ} (hw : I w) : I (run exec p inp w).2 := by
  induction p generalizing inp w with
  | pure a => exact hw
  | throw e => exact hw
  | call o k ih => exact ih _ (h.2 _) (hI o h.1 _ _ hw)

/-- What every call keeps holds at every call. -/
theorem All.trace_inv (hI : ∀ o, P o → ∀ i w, I w → I (exec o i w).2) {p : Prog Op Res ε α}
    (h : All P p) {inp : Nat → ι} {w : σ} (hw : I w) {m : Moment Op ι σ}
    (hm : m ∈ trace exec p inp w) : I m.state ∧ P m.op := by
  induction p generalizing inp w with
  | pure a => cases hm
  | throw e => cases hm
  | call o k ih =>
    rcases List.mem_cons.mp hm with rfl | hm
    · exact ⟨hw, h.1⟩
    · exact ih _ (h.2 _) (hI o h.1 _ _ hw) hm

/-- What one call of the run brings about and every call keeps holds at the end. -/
theorem All.run_of_mem_trace (hI : ∀ o, P o → ∀ i w, I w → I (exec o i w).2)
    {p : Prog Op Res ε α} (h : All P p) {inp : Nat → ι} {w : σ} {m : Moment Op ι σ}
    (hm : m ∈ trace exec p inp w) (hF : I (exec m.op m.input m.state).2) :
    I (run exec p inp w).2 := by
  induction p generalizing inp w with
  | pure a => cases hm
  | throw e => cases hm
  | call o k ih =>
    rcases List.mem_cons.mp hm with rfl | hm
    · exact All.run_inv hI (h.2 _) hF
    · exact ih _ (h.2 _) hm

end Trace

end Prog

end Concurrent
