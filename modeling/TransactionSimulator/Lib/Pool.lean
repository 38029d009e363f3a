import Mathlib.Algebra.BigOperators.Group.Finset.Basic
import Mathlib.Data.List.Chain
import TransactionSimulator.Lib.Prog

/-!
# Pools of running programs

A `System` starts programs for tasks and lets the calls of the running programs interleave in
any order.  At any moment a task may be started, a running program may make its next call, a
program may be lost (its process crashes, and nothing it did is undone), or the surroundings may
move (`shift`: time passes).  A run is a list of such events, so every run can be replayed.

* `Config.apply`, `Config.after`: one event, a whole run.
* `Respects S R E I ok`: every task that `ok` lets start makes only steps of `E` while the rest
  moves along `R`, and `I` is kept.  `Healthy.after`: then so does every run.
* `interleave`: one more program, watched on its own, between whose calls the pool runs on.
  `run_interleave_of_wp`: what `wp` promises of it.
* `Config.callsOf`: the calls that one program of the pool makes.  `procs_of_wp`, `calls_of_wp`:
  what `wp` promises of every program of the pool at once.  `after_steps`: a program of the pool
  that is stepped to its end.
-/

namespace Concurrent

/-- What can happen next in a pool. -/
inductive Event (τ ι δ : Type)
  | spawn (t : τ)
  | step (pid : Nat) (i : ι)
  | crash (pid : Nat)
  | shift (d : δ)

/-- Calls and their meaning, the program of each task, and how the surroundings move. -/
structure System (Op : Type) (Res : Op → Type) (ε σ ι τ δ : Type) where
  exec : (o : Op) → ι → σ → Except ε (Res o) × σ
  prog : τ → Prog Op Res ε Unit
  shift : δ → σ → σ

/-- The shared state and what is left of each started program; `none` after a crash. -/
structure Config (Op : Type) (Res : Op → Type) (ε σ : Type) where
  world : σ
  procs : List (Option (Prog Op Res ε Unit))

variable {Op : Type} {Res : Op → Type} {ε σ ι τ δ : Type}

namespace Config

/-- One event.  A `step` of a program that has ended or crashed does nothing. -/
def apply (S : System Op Res ε σ ι τ δ) (c : Config Op Res ε σ) :
    Event τ ι δ → Config Op Res ε σ
  | .spawn t => { c with procs := c.procs ++ [some (S.prog t)] }
  | .step pid i =>
    match c.procs[pid]? with
    | some (some (.call o k)) =>
      { world := (S.exec o i c.world).2,
        procs := c.procs.set pid (some (k (S.exec o i c.world).1)) }
    | _ => c
  | .crash pid => { c with procs := c.procs.set pid none }
  | .shift d => { c with world := S.shift d c.world }

/-- A run. -/
def after (S : System Op Res ε σ ι τ δ) (c : Config Op Res ε σ) (es : List (Event τ ι δ)) :
    Config Op Res ε σ :=
  es.foldl (apply S) c

/-- The states that the run passes through, the first and the last included. -/
def worlds (S : System Op Res ε σ ι τ δ) (c : Config Op Res ε σ) : List (Event τ ι δ) → List σ
  | [] => [c.world]
  | e :: es => c.world :: worlds S (c.apply S e) es

/-- The call that an event makes, if it makes one. -/
def moment (c : Config Op Res ε σ) : Event τ ι δ → Option (Moment Op ι σ)
  | .step pid i =>
    match c.procs[pid]? with
    | some (some (.call o _)) => some ⟨c.world, o, i⟩
    | _ => none
  | _ => none

/-- All programs that were started have returned. -/
def Returned (c : Config Op Res ε σ) : Prop := ∀ p ∈ c.procs, p.any Prog.returned = true

instance (c : Config Op Res ε σ) : Decidable c.Returned :=
  inferInstanceAs (Decidable (∀ p ∈ c.procs, p.any Prog.returned = true))

theorem Returned.getElem? {c : Config Op Res ε σ} (h : c.Returned) {pid : Nat}
    (hlt : pid < c.procs.length) : c.procs[pid]? = some (some (.pure ())) := by
  have hp := h _ (List.getElem_mem hlt)
  rw [List.getElem?_eq_getElem hlt]
  cases hproc : c.procs[pid] with
  | none => simp [hproc] at hp
  | some p =>
    cases p with
    | pure a => rfl
    | throw e => simp [hproc, Prog.returned] at hp
    | call o k => simp [hproc, Prog.returned] at hp

/-- The calls that the run makes, in order. -/
def moments (S : System Op Res ε σ ι τ δ) (c : Config Op Res ε σ) :
    List (Event τ ι δ) → List (Moment Op ι σ)
  | [] => []
  | e :: es => (c.moment e).toList ++ moments S (c.apply S e) es

variable {S : System Op Res ε σ ι τ δ}

@[simp] theorem after_nil (c : Config Op Res ε σ) : c.after S [] = c := rfl

@[simp] theorem after_cons (c : Config Op Res ε σ) (e : Event τ ι δ) (es : List (Event τ ι δ)) :
    c.after S (e :: es) = (c.apply S e).after S es := rfl

theorem after_append (c : Config Op Res ε σ) (es fs : List (Event τ ι δ)) :
    c.after S (es ++ fs) = (c.after S es).after S fs := List.foldl_append

theorem worlds_append_singleton (c : Config Op Res ε σ) (es : List (Event τ ι δ))
    (e : Event τ ι δ) :
    c.worlds S (es ++ [e]) = c.worlds S es ++ [((c.after S es).apply S e).world] := by
  induction es generalizing c with
  | nil => rfl
  | cons f es ih =>
    rw [List.cons_append, worlds, ih, worlds, List.cons_append]
    rfl

theorem moments_append (c : Config Op Res ε σ) (es fs : List (Event τ ι δ)) :
    c.moments S (es ++ fs) = c.moments S es ++ (c.after S es).moments S fs := by
  induction es generalizing c with
  | nil => rfl
  | cons e es ih => rw [List.cons_append, moments, ih, moments, List.append_assoc, after_cons]

/-- A state is passed through iff some initial part of the run ends in it. -/
theorem mem_worlds_iff {c : Config Op Res ε σ} {es : List (Event τ ι δ)} {w : σ} :
    w ∈ c.worlds S es ↔ ∃ fs, fs <+: es ∧ w = (c.after S fs).world := by
  induction es generalizing c with
  | nil => simp [worlds]
  | cons e es ih =>
    rw [worlds, List.mem_cons, ih]
    constructor
    · rintro (rfl | ⟨fs, hfs, rfl⟩)
      · exact ⟨[], List.nil_prefix, rfl⟩
      · exact ⟨e :: fs, List.prefix_cons_inj e |>.mpr hfs, rfl⟩
    · rintro ⟨fs, hfs, rfl⟩
      cases fs with
      | nil => exact .inl rfl
      | cons f fs =>
        obtain ⟨rfl, hrest⟩ := List.cons_prefix_cons.mp hfs
        exact .inr ⟨fs, hrest, rfl⟩

/-- A call of the run is made by one event, in the state that the events before it left. -/
theorem mem_moments_iff {c : Config Op Res ε σ} {es : List (Event τ ι δ)} {m : Moment Op ι σ} :
    m ∈ c.moments S es ↔
      ∃ fs e gs, es = fs ++ e :: gs ∧ (c.after S fs).moment e = some m := by
  induction es generalizing c with
  | nil => simp [moments]
  | cons f es ih =>
    rw [moments, List.mem_append, Option.mem_toList, ih]
    constructor
    · rintro (h | ⟨fs, e, gs, rfl, h⟩)
      · exact ⟨[], f, es, rfl, h⟩
      · exact ⟨f :: fs, e, gs, rfl, h⟩
    · rintro ⟨fs, e, gs, heq, h⟩
      cases fs with
      | nil =>
        obtain ⟨rfl, rfl⟩ := List.cons.inj heq
        exact .inl h
      | cons g fs =>
        obtain ⟨rfl, rfl⟩ := List.cons.inj heq
        exact .inr ⟨fs, e, gs, rfl, h⟩

/-- An event that makes a call leaves the state that the call leaves. -/
theorem apply_of_moment {c : Config Op Res ε σ} {e : Event τ ι δ} {m : Moment Op ι σ}
    (h : c.moment e = some m) :
    m.state = c.world ∧ (c.apply S e).world = (S.exec m.op m.input m.state).2 := by
  cases e with
  | step pid i =>
    simp only [moment] at h
    split at h
    · next o k hpid =>
      cases h
      refine ⟨rfl, ?_⟩
      simp only [apply, hpid]
    · cases h
  | spawn | crash | shift => cases h

/-- An event that makes no call leaves the state, or the surroundings move it. -/
theorem apply_of_moment_none {c : Config Op Res ε σ} {e : Event τ ι δ} (h : c.moment e = none) :
    (c.apply S e).world = c.world ∨ ∃ d, (c.apply S e).world = S.shift d c.world := by
  cases e with
  | step pid i =>
    simp only [moment] at h
    split at h
    · cases h
    · left
      simp only [apply]
  | spawn | crash => exact .inl rfl
  | shift d => exact .inr ⟨d, rfl⟩

end Config

open Prog

/-! ## The calls of a run -/

section Calls

variable {S : System Op Res ε σ ι τ δ} {P : Op → Prop}

/-- What is left of the programs makes only calls that satisfy `P`. -/
theorem all_procs (hP : ∀ t, Prog.All P (S.prog t)) {c : Config Op Res ε σ}
    (hc : ∀ p, some p ∈ c.procs → Prog.All P p) (es : List (Event τ ι δ)) :
    ∀ p, some p ∈ (c.after S es).procs → Prog.All P p := by
  induction es generalizing c with
  | nil => exact hc
  | cons e es ih =>
    refine ih (c := c.apply S e) ?_
    intro p hp
    cases e with
    | spawn t =>
      rcases List.mem_append.mp hp with hp | hp
      · exact hc p hp
      · rw [List.mem_singleton, Option.some.injEq] at hp
        rw [hp]
        exact hP t
    | crash pid =>
      rcases List.mem_or_eq_of_mem_set hp with hp | hp
      · exact hc p hp
      · cases hp
    | shift d => exact hc p hp
    | step pid i =>
      simp only [Config.apply] at hp
      split at hp
      · next o k hpid =>
        have hcall := hc _ (List.mem_of_getElem? hpid)
        rcases List.mem_or_eq_of_mem_set hp with hp | hp
        · exact hc p hp
        · rw [Option.some.injEq] at hp
          rw [hp]
          exact hcall.2 _
      · exact hc p hp

/-- **Every call of a run satisfies what every call of every task does.** -/
theorem all_moments (hP : ∀ t, Prog.All P (S.prog t)) (w : σ) {es : List (Event τ ι δ)}
    {e : Event τ ι δ} {m : Moment Op ι σ}
    (h : ((Config.mk w [] : Config Op Res ε σ).after S es).moment e = some m) : P m.op := by
  have hprocs := all_procs hP (c := ⟨w, []⟩) (by simp) es
  cases e with
  | step pid i =>
    simp only [Config.moment] at h
    split at h
    · next o k hpid =>
      cases h
      exact (hprocs _ (List.mem_of_getElem? hpid)).1
    · cases h
  | spawn | crash | shift => cases h

end Calls

/-- Every task that may start makes only steps of `E`, in whatever state it is started and
however the others move along `R`; `E` is part of `R` and keeps `I`. -/
structure Respects (S : System Op Res ε σ ι τ δ) (R E : σ → σ → Prop) (I : σ → Prop)
    (ok : Event τ ι δ → Prop) : Prop where
  refl : ∀ w, E w w
  sub : ∀ w w', E w w' → R w w'
  keeps : ∀ w w', I w → R w w' → I w'
  task : ∀ t, ok (.spawn t) → ∀ w, I w → Safe S.exec R E (S.prog t) w
  shift : ∀ d, ok (.shift d) → ∀ w, I w → E w (S.shift d w)

/-- The invariant holds, and what is left of every program is safe. -/
structure Healthy (S : System Op Res ε σ ι τ δ) (R E : σ → σ → Prop) (I : σ → Prop)
    (c : Config Op Res ε σ) : Prop where
  inv : I c.world
  procs : ∀ p, some p ∈ c.procs → Safe S.exec R E p c.world

section Runs

variable {S : System Op Res ε σ ι τ δ} {R E : σ → σ → Prop} {I : σ → Prop}
  {ok : Event τ ι δ → Prop} {c : Config Op Res ε σ}

theorem Healthy.moved (hS : Respects S R E I ok) (h : Healthy S R E I c) {w : σ}
    (hw : R c.world w) : Healthy S R E I { c with world := w } :=
  ⟨hS.keeps _ _ h.inv hw, fun p hp => (h.procs p hp).stable (.single hw)⟩

/-- **One event is one step of `E`**, and leaves the pool healthy. -/
theorem Healthy.apply (hS : Respects S R E I ok) (h : Healthy S R E I c) {e : Event τ ι δ}
    (he : ok e) : E c.world (c.apply S e).world ∧ Healthy S R E I (c.apply S e) := by
  cases e with
  | spawn t =>
    refine ⟨hS.refl _, h.inv, fun p hp => ?_⟩
    rcases List.mem_append.mp hp with hp | hp
    · exact h.procs p hp
    · rw [List.mem_singleton, Option.some.injEq] at hp
      subst hp
      exact hS.task t he _ h.inv
  | crash pid =>
    refine ⟨hS.refl _, h.inv, fun p hp => ?_⟩
    rcases List.mem_or_eq_of_mem_set hp with hp | hp
    · exact h.procs p hp
    · cases hp
  | shift d =>
    have hd := hS.shift d he _ h.inv
    exact ⟨hd, h.moved hS (hS.sub _ _ hd)⟩
  | step pid i =>
    simp only [Config.apply]
    split
    · next o k hpid =>
      have hmem : some (Prog.call o k) ∈ c.procs := List.mem_of_getElem? hpid
      obtain ⟨hE, hk⟩ := h.procs _ hmem c.world .refl i
      refine ⟨hE, hS.keeps _ _ h.inv (hS.sub _ _ hE), fun p hp => ?_⟩
      rcases List.mem_or_eq_of_mem_set hp with hp | hp
      · exact (h.procs p hp).stable (.single (hS.sub _ _ hE))
      · rw [Option.some.injEq] at hp
        subst hp
        exact hk
    · exact ⟨hS.refl _, h⟩

/-- **A whole run is a path of `E`**, and ends in a healthy pool. -/
theorem Healthy.after (hS : Respects S R E I ok) (h : Healthy S R E I c) {es : List (Event τ ι δ)}
    (hes : ∀ e ∈ es, ok e) :
    Relation.ReflTransGen E c.world (c.after S es).world ∧ Healthy S R E I (c.after S es) := by
  induction es generalizing c with
  | nil => exact ⟨.refl, h⟩
  | cons e es ih =>
    obtain ⟨hE, h'⟩ := h.apply hS (hes e (by simp))
    obtain ⟨hpath, hend⟩ := ih h' fun f hf => hes f (List.mem_cons_of_mem _ hf)
    exact ⟨.head hE hpath, hend⟩

theorem Healthy.isChain_worlds (hS : Respects S R E I ok) (h : Healthy S R E I c)
    {es : List (Event τ ι δ)} (hes : ∀ e ∈ es, ok e) : (c.worlds S es).IsChain E := by
  induction es generalizing c with
  | nil => exact .singleton _
  | cons e es ih =>
    obtain ⟨hE, h'⟩ := h.apply hS (hes e (by simp))
    have htail := ih h' fun f hf => hes f (List.mem_cons_of_mem _ hf)
    cases es with
    | nil => exact .cons_cons hE (.singleton _)
    | cons f es => exact .cons_cons hE htail

/-- Every call of a run is a step of `E`, made where the invariant holds, and a path leads on from there. -/
theorem Healthy.moments (hS : Respects S R E I ok) (h : Healthy S R E I c) {es : List (Event τ ι δ)}
    (hes : ∀ e ∈ es, ok e) {m : Moment Op ι σ} (hm : m ∈ c.moments S es) :
    I m.state ∧ E m.state (S.exec m.op m.input m.state).2 ∧
      Relation.ReflTransGen E m.state (c.after S es).world := by
  obtain ⟨fs, e, gs, rfl, hmoment⟩ := Config.mem_moments_iff.mp hm
  have hfs := (h.after hS fun f hf => hes f (List.mem_append_left _ hf)).2
  obtain ⟨hstate, hleft⟩ := Config.apply_of_moment (S := S) hmoment
  have hstep := (hfs.apply hS (hes e (by simp))).1
  have hpath := (hfs.after hS fun f hf => hes f (List.mem_append_right _ hf)).1
  rw [hleft] at hstep
  rw [Config.after_append, hstate]
  exact ⟨hfs.inv, hstate ▸ hstep, hpath⟩

theorem Healthy.init {w : σ} (hw : I w) : Healthy S R E I ⟨w, []⟩ :=
  ⟨hw, fun p hp => by simp at hp⟩

theorem inv_of_path (hE : ∀ w w', I w → E w w' → I w') {w w' : σ} (hw : I w)
    (h : Relation.ReflTransGen E w w') : I w' := by
  induction h with
  | refl => exact hw
  | tail _ hs ih => exact hE _ _ ih hs

/-! ## One program among the others -/

variable (S) in
/-- A call of a program that is watched on its own: first the pool runs on, then the call is
made in the state that it left. -/
def interleave (o : Op) (i : List (Event τ ι δ) × ι) (c : Config Op Res ε σ) :
    Except ε (Res o) × Config Op Res ε σ :=
  ((S.exec o i.2 (c.after S i.1).world).1,
    { c.after S i.1 with world := (S.exec o i.2 (c.after S i.1).world).2 })

variable (S) in
/-- The program's own calls in the states in which they were made. -/
def ownTrace {α : Type} (p : Prog Op Res ε α) (inp : Nat → List (Event τ ι δ) × ι)
    (c : Config Op Res ε σ) : List (Moment Op ι σ) :=
  (p.trace (interleave S) inp c).map fun m =>
    ⟨(m.state.after S m.input.1).world, m.op, m.input.2⟩

/-- **What `wp` promises of a program that runs among the others.** -/
theorem run_interleave_of_wp (hS : Respects S R E I ok) {α : Type} {p : Prog Op Res ε α}
    {Q : List (Moment Op ι σ) → Except ε α → σ → Prop} (h : Healthy S R E I c)
    (hp : wp S.exec E R p Q c.world) {inp : Nat → List (Event τ ι δ) × ι}
    (hinp : ∀ n, ∀ e ∈ (inp n).1, ok e) :
    Q (ownTrace S p inp c) (p.run (interleave S) inp c).1 (p.run (interleave S) inp c).2.world := by
  induction p generalizing Q c inp with
  | pure a => exact hp
  | throw e => exact hp
  | call o k ih =>
    obtain ⟨hpath, h₁⟩ := h.after hS (hinp 0)
    obtain ⟨hR, hk⟩ := hp _ hpath (inp 0).2
    exact ih _ (h₁.moved hS hR) hk fun n => hinp (n + 1)

end Runs

/-! ## Each program of the pool -/

/-- The tasks that a run starts, in order: the `n`-th of them is run by the program `n`. -/
def spawned (es : List (Event τ ι δ)) : List τ :=
  es.filterMap fun
    | .spawn t => some t
    | _ => none

theorem spawned_append (es fs : List (Event τ ι δ)) : spawned (es ++ fs) = spawned es ++ spawned fs :=
  List.filterMap_append

theorem mem_spawned {t : τ} {es : List (Event τ ι δ)} : t ∈ spawned es ↔ Event.spawn t ∈ es := by
  rw [spawned, List.mem_filterMap]
  constructor
  · rintro ⟨e, he, heq⟩
    cases e with
    | spawn t' => rwa [← Option.some.inj heq]
    | step | crash | shift => cases heq
  · exact fun h => ⟨_, h, rfl⟩

/-- The program `pid` was started by the event that `pid` other starts precede. -/
theorem exists_spawn_of_getElem? {t : τ} {es : List (Event τ ι δ)} {pid : Nat}
    (h : (spawned es)[pid]? = some t) :
    ∃ fs gs, es = fs ++ .spawn t :: gs ∧ (spawned fs).length = pid := by
  induction es generalizing pid with
  | nil => cases h
  | cons e es ih =>
    have hstarted : ∀ {q}, (spawned es)[q]? = some t → (spawned [e]).length + q = pid →
        ∃ fs gs, e :: es = fs ++ .spawn t :: gs ∧ (spawned fs).length = pid := by
      intro q hq hpid
      obtain ⟨fs, gs, rfl, hlen⟩ := ih hq
      refine ⟨e :: fs, gs, rfl, ?_⟩
      rw [← List.singleton_append, spawned_append, List.length_append, hlen, hpid]
    cases e with
    | spawn t' =>
      cases pid with
      | zero =>
        obtain rfl : t' = t := Option.some.inj h
        exact ⟨[], es, rfl, rfl⟩
      | succ q => exact hstarted h (Nat.add_comm 1 q)
    | step | crash | shift => exact hstarted h (Nat.zero_add pid)

/-- An entry that stands out marks one place of a list. -/
theorem append_cons_inj {γ : Type} {P : γ → Prop} {xs ys fs gs : List γ} {x y : γ} (hxs : ∀ z ∈ xs, ¬ P z)
    (hys : ∀ z ∈ ys, ¬ P z) (hy : P y) (h : xs ++ x :: ys = fs ++ y :: gs) : xs = fs ∧ x = y ∧ ys = gs := by
  induction xs generalizing fs with
  | nil =>
    cases fs with
    | nil => exact ⟨rfl, (List.cons.inj h).1, (List.cons.inj h).2⟩
    | cons f fs =>
      obtain ⟨-, hrest⟩ := List.cons.inj h
      exact absurd hy (hys y (by rw [show ys = fs ++ y :: gs from hrest]; simp))
  | cons z xs ih =>
    cases fs with
    | nil =>
      obtain ⟨rfl, -⟩ := List.cons.inj h
      exact absurd hy (hxs _ (by simp))
    | cons f fs =>
      obtain ⟨rfl, hrest⟩ := List.cons.inj h
      obtain ⟨rfl, hxy⟩ := ih (fun z hz => hxs z (List.mem_cons_of_mem _ hz)) hrest
      exact ⟨rfl, hxy⟩

/-- The program whose turn it is. -/
def Event.actor : Event τ ι δ → Option Nat
  | .step pid _ => some pid
  | _ => none

/-- The call that the event makes, if the program `pid` makes it. -/
def Config.callOf (c : Config Op Res ε σ) (pid : Nat) (e : Event τ ι δ) : List (Moment Op ι σ) :=
  if e.actor = some pid then (c.moment e).toList else []

/-- The calls that the program `pid` makes in the run. -/
def Config.callsOf (S : System Op Res ε σ ι τ δ) (pid : Nat) (c : Config Op Res ε σ) :
    List (Event τ ι δ) → List (Moment Op ι σ)
  | [] => []
  | e :: es => c.callOf pid e ++ callsOf S pid (c.apply S e) es

section Procs

variable {S : System Op Res ε σ ι τ δ} {c : Config Op Res ε σ}

theorem length_procs_after (es : List (Event τ ι δ)) :
    (c.after S es).procs.length = c.procs.length + (spawned es).length := by
  induction es generalizing c with
  | nil => rfl
  | cons e es ih =>
    rw [Config.after_cons, ih]
    cases e with
    | spawn t =>
      simp only [Config.apply, spawned, List.filterMap_cons, List.length_append, List.length_cons,
        List.length_nil]
      omega
    | crash pid => simp [Config.apply, spawned]
    | shift d => simp [Config.apply, spawned]
    | step pid i =>
      simp only [Config.apply, spawned, List.filterMap_cons]
      split <;> simp

variable {R E : σ → σ → Prop} {I : σ → Prop} {ok : Event τ ι δ → Prop}
  {Q : τ → List (Moment Op ι σ) → Except ε Unit → σ → Prop} {e : Event τ ι δ}
  {es : List (Event τ ι δ)} {ts : List τ} {calls : Nat → List (Moment Op ι σ)}

/-- The `n`-th program runs the `n`-th of the tasks `ts`, has made the calls `calls n`, and what is
left of it ends as its task is to end. -/
structure Tracked (S : System Op Res ε σ ι τ δ) (R E : σ → σ → Prop)
    (Q : τ → List (Moment Op ι σ) → Except ε Unit → σ → Prop) (ts : List τ)
    (calls : Nat → List (Moment Op ι σ)) (c : Config Op Res ε σ) : Prop where
  length : c.procs.length = ts.length
  idle : ∀ pid, ts.length ≤ pid → calls pid = []
  left : ∀ pid p, c.procs[pid]? = some (some p) →
    ∃ t, ts[pid]? = some t ∧ wp S.exec R E p (fun tr => Q t (calls pid ++ tr)) c.world

theorem callOf_eq_nil {pid : Nat} (h : e.actor = some pid → c.moment e = none) :
    c.callOf pid e = [] := by
  rw [Config.callOf]
  split
  · next he => rw [h he, Option.toList_none]
  · rfl

theorem callOf_of_le {pid : Nat} (h : c.procs.length ≤ pid) : c.callOf pid e = [] := by
  refine callOf_eq_nil ?_
  intro he
  cases e with
  | step pid' i =>
    obtain rfl : pid' = pid := by simpa [Event.actor] using he
    simp [Config.moment, List.getElem?_eq_none h]
  | spawn | crash | shift => cases he

/-- A program that the event leaves as it is. -/
theorem Tracked.kept (hQ : ∀ t tr r w w', R w w' → Q t tr r w → Q t tr r w')
    (h : Tracked S R E Q ts calls c) {pid : Nat} {p : Prog Op Res ε Unit}
    (hp : c.procs[pid]? = some (some p)) (hnone : c.callOf pid e = [])
    (hmoves : R c.world (c.apply S e).world) :
    ∃ t, (ts ++ spawned [e])[pid]? = some t ∧
      wp S.exec R E p (fun tr => Q t (calls pid ++ c.callOf pid e ++ tr)) (c.apply S e).world := by
  obtain ⟨t, ht, hwp⟩ := h.left pid p hp
  refine ⟨t, ?_, ?_⟩
  · rw [List.getElem?_append_left (List.getElem?_eq_some_iff.mp ht).1]
    exact ht
  · rw [hnone, List.append_nil]
    exact wp_moved (fun _ => hQ t _) hwp (.single hmoves)

/-- One event. -/
theorem Tracked.apply (hS : Respects S R E I ok)
    (hQ : ∀ t tr r w w', R w w' → Q t tr r w → Q t tr r w')
    (htask : ∀ t, ok (.spawn t) → ∀ w, I w → wp S.exec R E (S.prog t) (Q t) w)
    (hc : Healthy S R E I c) (h : Tracked S R E Q ts calls c) (he : ok e) :
    Tracked S R E Q (ts ++ spawned [e]) (fun pid => calls pid ++ c.callOf pid e) (c.apply S e) := by
  have hmoves : R c.world (c.apply S e).world := hS.sub _ _ (hc.apply hS he).1
  refine ⟨?_, ?_, ?_⟩
  · have hlen := length_procs_after (S := S) (c := c) [e]
    rw [Config.after_cons, Config.after_nil] at hlen
    rw [hlen, h.length, List.length_append]
  · intro pid hpid
    rw [List.length_append] at hpid
    have hle : ts.length ≤ pid := by omega
    rw [h.idle pid hle, callOf_of_le (h.length ▸ hle), List.append_nil]
  intro pid p hp
  cases e with
  | spawn t =>
    by_cases hlt : pid < c.procs.length
    · refine h.kept hQ ?_ (callOf_eq_nil fun _ => rfl) hmoves
      rwa [Config.apply, List.getElem?_append_left hlt] at hp
    · have hlen := (List.getElem?_eq_some_iff.mp hp).1
      simp only [Config.apply, List.length_append, List.length_singleton] at hlen
      obtain rfl : pid = c.procs.length := by omega
      rw [Config.apply, List.getElem?_concat_length, Option.some.injEq, Option.some.injEq] at hp
      refine ⟨t, ?_, ?_⟩
      · rw [h.length]
        exact List.getElem?_concat_length
      · rw [h.idle _ h.length.ge, callOf_of_le le_rfl, ← hp]
        exact htask t he _ hc.inv
  | crash pid' =>
    by_cases hpid : pid' = pid
    · subst hpid
      have hlt : pid' < c.procs.length := by
        simpa [Config.apply] using (List.getElem?_eq_some_iff.mp hp).1
      rw [Config.apply, List.getElem?_set_self hlt] at hp
      cases hp
    · refine h.kept hQ ?_ (callOf_eq_nil fun _ => rfl) hmoves
      rwa [Config.apply, List.getElem?_set_ne hpid] at hp
  | shift d => exact h.kept hQ hp (callOf_eq_nil fun _ => rfl) hmoves
  | step pid' i =>
    by_cases hcall : ∃ o k, c.procs[pid']? = some (some (.call o k))
    · obtain ⟨o, k, hcall⟩ := hcall
      by_cases hpid : pid' = pid
      · -- the program that moves: its promise is the rest of what it promised before
        subst hpid
        obtain ⟨t, ht, hwp⟩ := h.left pid' _ hcall
        simp only [Config.apply, hcall, List.getElem?_set_self (List.getElem?_eq_some_iff.mp hcall).1,
          Option.some.injEq] at hp
        refine ⟨t, by simpa [spawned] using ht, ?_⟩
        simp only [Config.callOf, Event.actor, Config.moment, hcall, Config.apply, if_true,
          Option.toList_some, List.append_assoc, List.singleton_append]
        rw [← hp]
        exact (hwp _ .refl i).2
      · refine h.kept hQ ?_ (callOf_eq_nil fun ha => absurd (Option.some.inj ha) hpid) hmoves
        simp only [Config.apply, hcall] at hp
        rwa [List.getElem?_set_ne hpid] at hp
    · have hnone : c.moment (.step pid' i : Event τ ι δ) = none := by
        simp only [Config.moment]
        split
        · next o k hpid => exact absurd ⟨o, k, hpid⟩ hcall
        · rfl
      refine h.kept hQ ?_ (callOf_eq_nil fun _ => hnone) hmoves
      simp only [Config.apply] at hp
      split at hp
      · next o k hpid => exact absurd ⟨o, k, hpid⟩ hcall
      · exact hp

/-- A whole run. -/
theorem Tracked.after (hS : Respects S R E I ok)
    (hQ : ∀ t tr r w w', R w w' → Q t tr r w → Q t tr r w')
    (htask : ∀ t, ok (.spawn t) → ∀ w, I w → wp S.exec R E (S.prog t) (Q t) w)
    (hc : Healthy S R E I c) (h : Tracked S R E Q ts calls c) (hes : ∀ e ∈ es, ok e) :
    Tracked S R E Q (ts ++ spawned es) (fun pid => calls pid ++ c.callsOf S pid es)
      (c.after S es) := by
  induction es generalizing c ts calls with
  | nil => simpa [spawned, Config.callsOf] using h
  | cons e es ih =>
    have he := hes e (by simp)
    have hnext := ih (hc.apply hS he).2 (h.apply hS hQ htask hc he)
      fun f hf => hes f (List.mem_cons_of_mem _ hf)
    rw [List.append_assoc, ← spawned_append, List.singleton_append] at hnext
    simpa [Config.callsOf, List.append_assoc] using hnext

theorem Tracked.init (w : σ) : Tracked S R E Q [] (fun _ => []) ⟨w, []⟩ :=
  ⟨rfl, fun _ _ => rfl, fun _ _ hp => by cases hp⟩

/-- **What is left of every program of the pool ends as its task is to end**, if the others keep
that end. -/
theorem procs_of_wp (hS : Respects S R E I ok)
    (hQ : ∀ t tr r w w', R w w' → Q t tr r w → Q t tr r w')
    (htask : ∀ t, ok (.spawn t) → ∀ w, I w → wp S.exec R E (S.prog t) (Q t) w) {w : σ} (hw : I w)
    (hes : ∀ e ∈ es, ok e) :
    Tracked S R E Q (spawned es) (fun pid => (⟨w, []⟩ : Config Op Res ε σ).callsOf S pid es)
      ((⟨w, []⟩ : Config Op Res ε σ).after S es) := by
  simpa using (Tracked.init w).after hS hQ htask (Healthy.init hw) hes

/-- A property of the calls so far holds of every program, crashed ones included, if every task ends
with it and the parts of a trace inherit it. -/
theorem calls_of_wp [Nonempty ι] {F : τ → List (Moment Op ι σ) → Prop} (hS : Respects S R E I ok)
    (hF : ∀ t tr tr', F t (tr ++ tr') → F t tr)
    (htask : ∀ t, ok (.spawn t) → ∀ w, I w → wp S.exec R E (S.prog t) (fun tr _ _ => F t tr) w)
    (hc : Healthy S R E I c) (h : Tracked S R E (fun t tr _ _ => F t tr) ts calls c)
    (hcalls : ∀ pid t, ts[pid]? = some t → F t (calls pid)) (hes : ∀ e ∈ es, ok e) :
    ∀ pid t, (ts ++ spawned es)[pid]? = some t → F t (calls pid ++ c.callsOf S pid es) := by
  induction es generalizing c ts calls with
  | nil => simpa [spawned, Config.callsOf] using hcalls
  | cons e es ih =>
    have he := hes e (by simp)
    have hnext := h.apply hS (fun _ _ _ _ _ _ h => h) htask hc he
    have hstep : ∀ pid t, (ts ++ spawned [e])[pid]? = some t → F t (calls pid ++ c.callOf pid e) := by
      intro pid t ht
      -- what is left of a live program promises the calls so far, and only live programs call
      have hlive : ∀ p, (c.apply S e).procs[pid]? = some (some p) →
          F t (calls pid ++ c.callOf pid e) := by
        intro p hp
        obtain ⟨t', ht', hwp⟩ := hnext.left pid p hp
        rw [ht, Option.some.injEq] at ht'
        subst ht'
        obtain ⟨i⟩ := ‹Nonempty ι›
        exact hF t _ _ (run_of_wp hwp fun _ => i)
      by_cases hnone : c.callOf pid e = []
      · by_cases hlt : pid < ts.length
        · rw [List.getElem?_append_left hlt] at ht
          rw [hnone, List.append_nil]
          exact hcalls pid t ht
        · cases e with
          | spawn t' =>
            have hpid : pid = c.procs.length := by
              have hlen := (List.getElem?_eq_some_iff.mp ht).1
              simp only [List.length_append, spawned, List.filterMap_cons, List.filterMap_nil,
                List.length_singleton] at hlen
              rw [h.length]
              omega
            refine hlive (S.prog t') ?_
            rw [hpid]
            exact List.getElem?_concat_length
          | step | crash | shift =>
            rw [List.getElem?_eq_none (by simpa [spawned] using hlt)] at ht
            cases ht
      · cases e with
        | step pid' i =>
          rw [Config.callOf] at hnone
          split at hnone
          · next ha =>
            obtain rfl : pid' = pid := by simpa [Event.actor] using ha
            by_cases hcall : ∃ o k, c.procs[pid']? = some (some (.call o k))
            · obtain ⟨o, k, hcall⟩ := hcall
              refine hlive (k (S.exec o i c.world).1) ?_
              simp only [Config.apply, hcall]
              exact List.getElem?_set_self (List.getElem?_eq_some_iff.mp hcall).1
            · refine absurd ?_ hnone
              simp only [Config.moment]
              split
              · next o k hpid => exact absurd ⟨o, k, hpid⟩ hcall
              · rfl
          · exact absurd rfl hnone
        | spawn | crash | shift => exact absurd (callOf_eq_nil fun _ => rfl) hnone
    intro pid t ht
    have hrest := ih (hc.apply hS he).2 hnext hstep (fun f hf => hes f (List.mem_cons_of_mem _ hf)) pid t
    rw [List.append_assoc, ← spawned_append, List.singleton_append] at hrest
    rw [Config.callsOf, ← List.append_assoc]
    exact hrest ht

theorem callsOf_append (pid : Nat) (es fs : List (Event τ ι δ)) :
    c.callsOf S pid (es ++ fs) = c.callsOf S pid es ++ (c.after S es).callsOf S pid fs := by
  induction es generalizing c with
  | nil => rfl
  | cons e es ih =>
    rw [List.cons_append, Config.callsOf, ih, Config.callsOf, List.append_assoc, Config.after_cons]

/-- Every call of a run is made by some program. -/
theorem exists_mem_callsOf {m : Moment Op ι σ} (h : m ∈ c.moments S es) :
    ∃ pid < (c.after S es).procs.length, m ∈ c.callsOf S pid es := by
  induction es generalizing c with
  | nil => cases h
  | cons e es ih =>
    rcases List.mem_append.mp h with hm | hm
    · cases e with
      | step pid i =>
        have hcall : m ∈ c.callOf pid (.step pid i : Event τ ι δ) := by
          rw [Config.callOf, if_pos (show (Event.step pid i : Event τ ι δ).actor = some pid from rfl)]
          exact hm
        refine ⟨pid, ?_, List.mem_append_left _ hcall⟩
        by_contra hle
        rw [length_procs_after] at hle
        rw [callOf_of_le (by omega)] at hcall
        cases hcall
      | spawn | crash | shift => cases hm
    · obtain ⟨pid, hlt, hpid⟩ := ih hm
      exact ⟨pid, hlt, List.mem_append_right _ hpid⟩

theorem mem_moments_of_mem_callsOf {m : Moment Op ι σ} {pid : Nat} (h : m ∈ c.callsOf S pid es) :
    m ∈ c.moments S es := by
  induction es generalizing c with
  | nil => cases h
  | cons e es ih =>
    rcases List.mem_append.mp h with hm | hm
    · rw [Config.callOf] at hm
      split at hm
      · exact List.mem_append_left _ hm
      · cases hm
    · exact List.mem_append_right _ (ih hm)

/-- What no call and no shift of the run breaks holds at its end. -/
theorem holds_after {K : σ → Prop} (hexec : ∀ o i w, K w → K (S.exec o i w).2)
    (hshift : ∀ d, .shift d ∈ es → ∀ w, K w → K (S.shift d w)) (hc : K c.world) :
    K (c.after S es).world := by
  induction es generalizing c with
  | nil => exact hc
  | cons e es ih =>
    refine ih (fun d hd => hshift d (List.mem_cons_of_mem _ hd)) ?_
    cases e with
    | spawn | crash => exact hc
    | shift d => exact hshift d (by simp) _ hc
    | step pid i =>
      simp only [Config.apply]
      split
      · exact hexec _ _ _ hc
      · exact hc

/-- What a call has brought about and nothing breaks holds at the end. -/
theorem holds_of_moment {K : σ → Prop} (hexec : ∀ o i w, K w → K (S.exec o i w).2)
    (hshift : ∀ d, .shift d ∈ es → ∀ w, K w → K (S.shift d w)) {m : Moment Op ι σ}
    (hm : m ∈ c.moments S es) (hK : K (S.exec m.op m.input m.state).2) : K (c.after S es).world := by
  obtain ⟨fs, e, gs, rfl, hmoment⟩ := Config.mem_moments_iff.mp hm
  obtain ⟨-, hw⟩ := Config.apply_of_moment (S := S) hmoment
  rw [Config.after_append, Config.after_cons]
  refine holds_after hexec (fun d hd => hshift d (by simp [hd])) ?_
  rw [hw]
  exact hK

theorem respects_anything : Respects S Anything Anything (fun _ => True) fun _ => True where
  refl _ := trivial
  sub _ _ h := h
  keeps _ _ _ _ := trivial
  task _ _ w _ := wp_any _ w
  shift _ _ _ _ := trivial

section Throughout

variable [Nonempty ι] {J : τ → List (Moment Op ι σ) → Moment Op ι σ → Prop} {w : σ}

/-- **What a task asks of the calls of its program** holds of those that the program makes in a run. -/
theorem throughout_callsOf
    (htask : ∀ t w, wp S.exec Anything Anything (S.prog t) (fun tr _ _ => Throughout (J t) [] tr) w)
    {pid : Nat} {t : τ} (ht : (spawned es)[pid]? = some t) :
    Throughout (J t) [] ((⟨w, []⟩ : Config Op Res ε σ).callsOf S pid es) :=
  calls_of_wp (F := fun t tr => Throughout (J t) [] tr) respects_anything
    (fun _ _ _ h => (throughout_append.mp h).1) (fun t _ w _ => htask t w) (Healthy.init trivial)
    (Tracked.init w) (fun _ _ h => by cases h) (fun e (_ : e ∈ es) => trivial) pid t ht

/-- Every call of a run, with its program, the task of the program, and what the program has called before. -/
theorem exists_callsOf_of_mem
    (htask : ∀ t w, wp S.exec Anything Anything (S.prog t) (fun tr _ _ => Throughout (J t) [] tr) w)
    {m : Moment Op ι σ} (hm : m ∈ (⟨w, []⟩ : Config Op Res ε σ).moments S es) :
    ∃ pid t past post, (spawned es)[pid]? = some t ∧
      (⟨w, []⟩ : Config Op Res ε σ).callsOf S pid es = past ++ m :: post ∧ J t past m := by
  obtain ⟨pid, hlt, hcall⟩ := exists_mem_callsOf hm
  have hlen : pid < (spawned es).length := by
    rw [length_procs_after] at hlt
    simpa using hlt
  have hcalls := throughout_callsOf htask (w := w) (List.getElem?_eq_getElem hlen)
  obtain ⟨past, post, heq⟩ := List.append_of_mem hcall
  exact ⟨pid, _, past, post, List.getElem?_eq_getElem hlen, heq, hcalls.at heq⟩

theorem exists_task_of_mem
    (htask : ∀ t w, wp S.exec Anything Anything (S.prog t) (fun tr _ _ => Throughout (J t) [] tr) w)
    {m : Moment Op ι σ} (hm : m ∈ (⟨w, []⟩ : Config Op Res ε σ).moments S es) :
    ∃ t past, (∀ m₀ ∈ past, m₀ ∈ (⟨w, []⟩ : Config Op Res ε σ).moments S es) ∧ J t past m := by
  obtain ⟨pid, t, past, post, -, heq, hJ⟩ := exists_callsOf_of_mem htask hm
  refine ⟨t, past, ?_, hJ⟩
  intro m₀ hm₀
  exact mem_moments_of_mem_callsOf (by rw [heq]; exact List.mem_append_left _ hm₀)

end Throughout

/-- What a run has changed, one of its calls has brought about. -/
theorem changed_by_moment {γ : Type} {f : σ → γ} (hshift : ∀ d w, f (S.shift d w) = f w)
    (h : f (c.after S es).world ≠ f c.world) :
    ∃ m ∈ c.moments S es, f m.state ≠ f (c.after S es).world ∧
      f (S.exec m.op m.input m.state).2 = f (c.after S es).world := by
  induction es generalizing c with
  | nil => exact absurd rfl h
  | cons e es ih =>
    by_cases hrest : f ((c.apply S e).after S es).world = f (c.apply S e).world
    · rw [Config.after_cons, hrest] at h ⊢
      cases hm : c.moment e with
      | none =>
        rcases Config.apply_of_moment_none (S := S) hm with hw | ⟨d, hw⟩
        · exact absurd (by rw [hw]) h
        · exact absurd (by rw [hw, hshift]) h
      | some m =>
        obtain ⟨hstate, hw⟩ := Config.apply_of_moment (S := S) hm
        refine ⟨m, ?_, ?_, ?_⟩
        · simp [Config.moments, hm]
        · rw [hstate]
          exact h.symm
        · rw [hw]
    · obtain ⟨m, hmem, hm⟩ := ih hrest
      exact ⟨m, List.mem_append_right _ hmem, hm⟩

/-- The calls of a run, counted program by program. -/
theorem countP_moments (P : Moment Op ι σ → Bool) {n : Nat} (hn : (c.after S es).procs.length ≤ n) :
    (c.moments S es).countP P = ∑ pid ∈ Finset.range n, (c.callsOf S pid es).countP P := by
  induction es generalizing c with
  | nil => simp [Config.moments, Config.callsOf]
  | cons e es ih =>
    have hhead : (c.moment e).toList.countP P =
        ∑ pid ∈ Finset.range n, (c.callOf pid e).countP P := by
      cases hactor : e.actor with
      | none =>
        cases e with
        | step pid i => cases hactor
        | spawn | crash | shift => simp [Config.callOf, Config.moment]
      | some pid =>
        have hother : ∀ pid' ∈ Finset.range n, pid' ≠ pid → (c.callOf pid' e).countP P = 0 := by
          intro pid' _ hne
          rw [Config.callOf, if_neg (by simpa [hactor] using hne.symm), List.countP_nil]
        have hout : pid ∉ Finset.range n → (c.callOf pid e).countP P = 0 := by
          intro hpid
          rw [length_procs_after] at hn
          rw [Finset.mem_range] at hpid
          rw [callOf_of_le (by omega), List.countP_nil]
        rw [Finset.sum_eq_single pid hother hout, Config.callOf, if_pos hactor]
    rw [Config.moments, List.countP_append, ih hn, hhead, ← Finset.sum_add_distrib]
    simp only [Config.callsOf, List.countP_append]

/-- What happens at most once, one program does. -/
theorem eq_of_countP_le_one {P : Moment Op ι σ → Bool} (h : (c.moments S es).countP P ≤ 1)
    {pid pid' : Nat} {m m' : Moment Op ι σ} (hm : m ∈ c.callsOf S pid es) (hP : P m = true)
    (hm' : m' ∈ c.callsOf S pid' es) (hP' : P m' = true) : pid = pid' := by
  by_contra hne
  have hpos : 0 < (c.callsOf S pid es).countP P := List.countP_pos_iff.mpr ⟨m, hm, hP⟩
  have hpos' : 0 < (c.callsOf S pid' es).countP P := List.countP_pos_iff.mpr ⟨m', hm', hP'⟩
  let n := max (c.after S es).procs.length (max (pid + 1) (pid' + 1))
  have hmem : pid ∈ Finset.range n := Finset.mem_range.mpr (by omega)
  have hmem' : pid' ∈ (Finset.range n).erase pid :=
    Finset.mem_erase.mpr ⟨Ne.symm hne, Finset.mem_range.mpr (by omega)⟩
  rw [countP_moments P (Nat.le_max_left _ _ : _ ≤ n), ← Finset.add_sum_erase _ _ hmem,
    ← Finset.add_sum_erase _ _ hmem'] at h
  omega

/-- **What happens at most once**: `P` picks out calls that are made outside `H` and lead into it, and
nothing leads out of it. -/
theorem countP_moments_le_one {P : Moment Op ι σ → Bool} {H : σ → Prop}
    (hexec : ∀ o i w, H w → H (S.exec o i w).2) (hshift : ∀ d w, H w → H (S.shift d w))
    (hbefore : ∀ m, P m = true → ¬ H m.state)
    (hafter : ∀ m, P m = true → H (S.exec m.op m.input m.state).2) :
    (c.moments S es).countP P ≤ 1 ∧ (H c.world → (c.moments S es).countP P = 0) := by
  induction es generalizing c with
  | nil => simp [Config.moments]
  | cons e es ih =>
    obtain ⟨hle, hzero⟩ := ih (c := c.apply S e)
    rw [Config.moments, List.countP_append]
    cases hm : c.moment e with
    | none =>
      rw [Option.toList_none, List.countP_nil, Nat.zero_add]
      refine ⟨hle, ?_⟩
      intro hH
      refine hzero ?_
      rcases Config.apply_of_moment_none (S := S) hm with hw | ⟨d, hw⟩
      · rw [hw]
        exact hH
      · rw [hw]
        exact hshift d _ hH
    | some m =>
      obtain ⟨hstate, hw⟩ := Config.apply_of_moment (S := S) hm
      rw [Option.toList_some, List.countP_singleton]
      by_cases hP : P m = true
      · rw [if_pos hP, hzero (by rw [hw]; exact hafter m hP)]
        refine ⟨by omega, ?_⟩
        intro hH
        exact absurd (hstate ▸ hH) (hbefore m hP)
      · rw [if_neg hP, Nat.zero_add]
        refine ⟨hle, ?_⟩
        intro hH
        refine hzero ?_
        rw [hw]
        exact hexec _ _ _ (hstate ▸ hH)

/-- A number that grows by one at the calls that `P` picks out grows by their number. -/
theorem measure_after {f : σ → Nat} {P : Moment Op ι σ → Bool} (es : List (Event τ ι δ))
    (hexec : ∀ m ∈ c.moments S es, f (S.exec m.op m.input m.state).2 = f m.state + (P m).toNat)
    (hshift : ∀ d w, f (S.shift d w) = f w) :
    f (c.after S es).world = f c.world + (c.moments S es).countP P := by
  induction es generalizing c with
  | nil => simp [Config.moments]
  | cons e es ih =>
    have hrest := ih (c := c.apply S e) fun m hm => hexec m (List.mem_append_right _ hm)
    rw [Config.after_cons, hrest, Config.moments, List.countP_append]
    cases hm : c.moment e with
    | none =>
      rw [Option.toList_none, List.countP_nil, Nat.zero_add]
      rcases Config.apply_of_moment_none (S := S) hm with hw | ⟨d, hw⟩
      · rw [hw]
      · rw [hw, hshift]
    | some m =>
      obtain ⟨hstate, hw⟩ := Config.apply_of_moment (S := S) hm
      rw [hw, hexec m (by simp [Config.moments, hm]), hstate, Option.toList_some,
        List.countP_singleton]
      cases P m <;> simp [Nat.add_assoc]

/-- A record that the calls append to holds what the calls of the run appended. -/
theorem log_after {γ : Type} {log : σ → List γ} {entry : Moment Op ι σ → Option γ}
    (hexec : ∀ o i w, log (S.exec o i w).2 = log w ++ (entry ⟨w, o, i⟩).toList)
    (hshift : ∀ d w, log (S.shift d w) = log w) :
    log (c.after S es).world = log c.world ++ (c.moments S es).filterMap entry := by
  induction es generalizing c with
  | nil => simp [Config.moments]
  | cons e es ih =>
    rw [Config.after_cons, ih, Config.moments, List.filterMap_append, ← List.append_assoc]
    congr 1
    cases hm : c.moment e with
    | none =>
      rw [Option.toList_none, List.filterMap_nil, List.append_nil]
      rcases Config.apply_of_moment_none (S := S) hm with hw | ⟨d, hw⟩
      · rw [hw]
      · rw [hw, hshift]
    | some m =>
      obtain ⟨hstate, hw⟩ := Config.apply_of_moment (S := S) hm
      rw [hw, hexec, ← hstate]
      cases hentry : entry m with
      | none => simp [hentry]
      | some a => simp [hentry]

/-! ### A program that is stepped to its end -/

variable {p : Prog Op Res ε Unit} {pid : Nat}

theorem after_spawning (ts : List τ) :
    c.after S (ts.map Event.spawn) = { c with procs := c.procs ++ ts.map (fun t => some (S.prog t)) } := by
  induction ts generalizing c with
  | nil => simp
  | cons t ts ih =>
    rw [List.map_cons, Config.after_cons, ih]
    simp [Config.apply]

theorem spawned_spawning (ts : List τ) : spawned (ts.map Event.spawn : List (Event τ ι δ)) = ts := by
  simp [spawned, List.filterMap_map]

/-- The program `pid` makes its next `n` calls. -/
def stepping (pid : Nat) (inp : Nat → ι) (n : Nat) : List (Event τ ι δ) :=
  (List.range n).map fun k => .step pid (inp k)

theorem stepping_succ (pid : Nat) (inp : Nat → ι) (n : Nat) :
    (stepping pid inp (n + 1) : List (Event τ ι δ)) =
      .step pid (inp 0) :: stepping pid (fun k => inp (k + 1)) n := by
  simp [stepping, List.range_succ_eq_map, Function.comp_def]

theorem spawned_stepping (pid : Nat) (inp : Nat → ι) (n : Nat) :
    spawned (stepping pid inp n : List (Event τ ι δ)) = [] := by
  simp [spawned, stepping, List.filterMap_map]

/-- **A program that is stepped alone runs as `run` and `trace` say.** -/
theorem after_stepping (h : c.procs[pid]? = some (some p)) (inp : Nat → ι) :
    c.after S (stepping pid inp (p.trace S.exec inp c.world).length) =
        ⟨(p.run S.exec inp c.world).2, c.procs.set pid (some (Prog.ofExcept (p.run S.exec inp c.world).1))⟩ ∧
      c.moments S (stepping pid inp (p.trace S.exec inp c.world).length) =
        p.trace S.exec inp c.world := by
  induction p generalizing c inp with
  | pure a =>
    obtain ⟨hlt, heq⟩ := List.getElem?_eq_some_iff.mp h
    refine ⟨?_, rfl⟩
    rw [run, Prog.ofExcept, ← heq, List.set_getElem_self]
    rfl
  | throw e =>
    obtain ⟨hlt, heq⟩ := List.getElem?_eq_some_iff.mp h
    refine ⟨?_, rfl⟩
    rw [run, Prog.ofExcept, ← heq, List.set_getElem_self]
    rfl
  | call o k ih =>
    have hnext : c.apply S (.step pid (inp 0)) =
        ⟨(S.exec o (inp 0) c.world).2, c.procs.set pid (some (k (S.exec o (inp 0) c.world).1))⟩ := by
      simp only [Config.apply, h]
    have hmoment : c.moment (.step pid (inp 0) : Event τ ι δ) = some ⟨c.world, o, inp 0⟩ := by
      simp only [Config.moment, h]
    obtain ⟨hafter, hmoments⟩ := ih _ (c := c.apply S (.step pid (inp 0)))
      (by rw [hnext]; exact List.getElem?_set_self (List.getElem?_eq_some_iff.mp h).1)
      (fun n => inp (n + 1))
    rw [hnext] at hafter hmoments
    simp only [trace, List.length_cons, stepping_succ, Config.after_cons, Config.moments, hmoment,
      hnext, run]
    refine ⟨?_, ?_⟩
    · rw [hafter]
      simp only [List.set_set]
    · rw [hmoments]
      rfl

/-- **A task that is started and stepped alone runs as `run` and `trace` say.** -/
theorem after_spawn_stepping (t : τ) (inp : Nat → ι) :
    c.after S (.spawn t :: stepping c.procs.length inp ((S.prog t).trace S.exec inp c.world).length) =
        ⟨((S.prog t).run S.exec inp c.world).2,
          c.procs ++ [some (Prog.ofExcept ((S.prog t).run S.exec inp c.world).1)]⟩ ∧
      c.moments S (.spawn t :: stepping c.procs.length inp ((S.prog t).trace S.exec inp c.world).length) =
        (S.prog t).trace S.exec inp c.world := by
  have hproc : (c.apply S (.spawn t)).procs[c.procs.length]? = some (some (S.prog t)) :=
    List.getElem?_concat_length
  obtain ⟨hafter, hmoments⟩ := after_stepping (S := S) hproc inp
  have hset : (c.procs ++ [some (S.prog t)]).set c.procs.length
      (some (Prog.ofExcept ((S.prog t).run S.exec inp c.world).1)) =
        c.procs ++ [some (Prog.ofExcept ((S.prog t).run S.exec inp c.world).1)] := by
    rw [List.set_append_right _ _ (Nat.le_refl _), Nat.sub_self]
    rfl
  constructor
  · rw [Config.after_cons]
    exact hafter.trans (congrArg _ hset)
  · exact hmoments

/-- **A program that can make a call makes it when it is stepped alone**; the other programs stay as they
are. -/
theorem exists_stepping [Inhabited ι] {A : Op → ι → σ → Prop} {N : Moment Op ι σ → Prop}
    (h : c.procs[pid]? = some (some p)) (hp : CanMake S.exec A N p c.world) :
    ∃ inp n, Found N (c.moments S (stepping pid inp n)) ∧
      ∀ pid', pid' ≠ pid → (c.after S (stepping pid inp n)).procs[pid']? = c.procs[pid']? := by
  obtain ⟨inp, hfound⟩ := hp.run
  obtain ⟨hafter, hmoments⟩ := after_stepping h inp
  refine ⟨inp, (p.trace S.exec inp c.world).length, ?_, ?_⟩
  · rw [hmoments]
    exact hfound
  · intro pid' hne
    rw [hafter]
    exact List.getElem?_set_ne hne.symm

end Procs

end Concurrent
