import Mathlib.Data.List.Perm.Basic
import TransactionSimulator.Lib.Prog

/-!
# Programs that run at once

`Prog.together turns ps` runs the programs `ps` at once: `turns` names the program that makes the
next call, and when the turns are used up, what is left runs program by program.  So the calls
come in the order of any schedule, and every program runs to its end.

* `wp_together`: what each program promises of its own calls and its outcome while the others move
  the state along `R`, all of them promise, if their own steps are steps of `R` too.  The calls of all are
  those of each, in some order (`Woven`).
* `promiseAll`: the values of all programs, or the error of the first one that threw.
-/

namespace Concurrent

namespace Prog

variable {Op : Type} {Res : Op → Type} {ε α : Type}

/-- The outcome of a program as a value. -/
def outcome (p : Prog Op Res ε α) : Prog Op Res ε (Except ε α) :=
  (p.bind fun a => .pure (Except.ok a)).tryCatch fun e => .pure (Except.error e)

/-- One program after the other, each to its end. -/
def outcomes : List (Prog Op Res ε α) → Prog Op Res ε (List (Except ε α))
  | [] => .pure []
  | p :: ps => p.outcome.bind fun r => (outcomes ps).bind fun rs => .pure (r :: rs)

def together : List Nat → List (Prog Op Res ε α) → Prog Op Res ε (List (Except ε α))
  | [], ps => outcomes ps
  | turn :: turns, ps =>
    match ps[turn]? with
    | some (.call o k) => .call o fun r => together turns (ps.set turn (k r))
    | _ => together turns ps

/-- The values, unless one of the outcomes is an error. -/
def settled : List (Except ε α) → Except ε (List α)
  | [] => .ok []
  | .error e :: _ => .error e
  | .ok a :: rs => (settled rs).map (a :: ·)

/-- `await Promise.all(ps)`. -/
def promiseAll (turns : List Nat) (ps : List (Prog Op Res ε α)) : Prog Op Res ε (List α) :=
  (together turns ps).bind fun rs => ofExcept (settled rs)

theorem settled_eq_ok {rs : List (Except ε α)} {as : List α} (h : settled rs = .ok as) :
    rs = as.map .ok := by
  induction rs generalizing as with
  | nil =>
    cases h
    rfl
  | cons r rs ih =>
    cases r with
    | error e => cases h
    | ok a =>
      rw [settled] at h
      cases hrs : settled rs with
      | error e =>
        rw [hrs] at h
        cases h
      | ok as' =>
        rw [hrs] at h
        cases h
        rw [ih hrs, List.map_cons]

theorem mem_of_settled_eq_error {rs : List (Except ε α)} {e : ε} (h : settled rs = .error e) :
    .error e ∈ rs := by
  induction rs with
  | nil => cases h
  | cons r rs ih =>
    cases r with
    | error e' =>
      cases h
      exact List.mem_cons_self
    | ok a =>
      rw [settled] at h
      cases hrs : settled rs with
      | error e' =>
        rw [hrs] at h
        cases h
        exact List.mem_cons_of_mem _ (ih hrs)
      | ok as =>
        rw [hrs] at h
        cases h

variable {σ ι : Type} {exec : (o : Op) → ι → σ → Except ε (Res o) × σ} {R G : σ → σ → Prop} {w : σ}

/-- The calls `tr` are those of `n` programs in some order; each program has made its own calls and has come
to its own outcome as `Q` says. -/
def Woven (Q : Nat → List (Moment Op ι σ) → Except ε α → Prop) (n : Nat) (tr : List (Moment Op ι σ))
    (rs : List (Except ε α)) : Prop :=
  ∃ trs : List (List (Moment Op ι σ)), trs.length = n ∧ rs.length = n ∧ tr.Perm trs.flatten ∧
    ∀ (j : Nat) (own : List (Moment Op ι σ)) (r : Except ε α), trs[j]? = some own → rs[j]? = some r → Q j own r

theorem wp_outcome {Q : List (Moment Op ι σ) → Except ε α → Prop} {p : Prog Op Res ε α}
    (h : wp exec R G p (fun tr r _ => Q tr r) w) :
    wp exec R G p.outcome (fun tr r _ => ∃ r', r = .ok r' ∧ Q tr r') w := by
  rw [outcome, wp_tryCatch, wp_bind]
  refine wp_mono ?_ h
  intro tr r w' hQ
  cases r with
  | ok a => exact ⟨_, rfl, by rwa [List.append_nil]⟩
  | error e => exact ⟨_, rfl, by rwa [List.append_nil]⟩

theorem stable_promise (hsub : ∀ w w', G w w' → R w w') (Q : List (Moment Op ι σ) → Except ε α → Prop)
    (p : Prog Op Res ε α) : Stable R G fun w => wp exec R G p (fun tr r _ => Q tr r) w where
  rely _ _ hw h := wp_moved (fun _ _ _ _ _ hQ => hQ) h (.single hw)
  guarantee _ _ hw h := wp_moved (fun _ _ _ _ _ hQ => hQ) h (.single (hsub _ _ hw))

theorem wp_outcomes (hsub : ∀ w w', G w w' → R w w')
    {Q : Nat → List (Moment Op ι σ) → Except ε α → Prop} {ps : List (Prog Op Res ε α)}
    (h : ∀ j p, ps[j]? = some p → wp exec R G p (fun tr r _ => Q j tr r) w) :
    wp exec R G (outcomes ps) (fun tr rs _ => ∃ l, rs = .ok l ∧ Woven Q ps.length tr l) w := by
  induction ps generalizing Q w with
  | nil => exact ⟨[], rfl, [], rfl, rfl, .nil, by simp⟩
  | cons p ps ih =>
    rw [outcomes, wp_bind]
    have hrest : Stable R G fun w => ∀ j q, ps[j]? = some q → wp exec R G q (fun tr r _ => Q (j + 1) tr r) w :=
      ⟨fun w w' hw hall j q hq => (stable_promise hsub (Q (j + 1)) q).rely w w' hw (hall j q hq),
        fun w w' hw hall j q hq => (stable_promise hsub (Q (j + 1)) q).guarantee w w' hw (hall j q hq)⟩
    refine wp_mono ?_ (wp_keeps hrest (wp_outcome (h 0 p rfl)) fun j q hq => h (j + 1) q hq)
    rintro tr r w₁ ⟨⟨r₀, rfl, hr₀⟩, hps⟩
    refine wp_bind.mpr (wp_mono ?_ (ih hps))
    rintro tr' rs w₂ ⟨l, rfl, trs, hlen, hlen', hperm, hall⟩
    refine ⟨r₀ :: l, rfl, tr :: trs, by simp [hlen], by simp [hlen'], ?_, ?_⟩
    · rw [List.append_nil, List.flatten_cons]
      exact hperm.append_left tr
    · intro j own r hown hr
      cases j with
      | zero =>
        cases hown
        cases hr
        exact hr₀
      | succ j => exact hall j own r hown hr

/-- **Programs that run at once.** -/
theorem wp_together (hsub : ∀ w w', G w w' → R w w')
    {Q : Nat → List (Moment Op ι σ) → Except ε α → Prop} (turns : List Nat) {ps : List (Prog Op Res ε α)}
    (h : ∀ j p, ps[j]? = some p → wp exec R G p (fun tr r _ => Q j tr r) w) :
    wp exec R G (together turns ps) (fun tr rs _ => ∃ l, rs = .ok l ∧ Woven Q ps.length tr l) w := by
  induction turns generalizing Q ps w with
  | nil => exact wp_outcomes hsub h
  | cons turn turns ih =>
    rw [together]
    split
    · next o k hturn =>
      intro w₁ hw₁ i
      have hlt := (List.getElem?_eq_some_iff.mp hturn).1
      obtain ⟨hG, hk⟩ := h turn _ hturn w₁ hw₁ i
      -- the program whose turn it is has made one call more
      have hnext : ∀ j p, (ps.set turn (k (exec o i w₁).1))[j]? = some p →
          wp exec R G p (fun tr r _ => Q j (if j = turn then ⟨w₁, o, i⟩ :: tr else tr) r) (exec o i w₁).2 := by
        intro j p hp
        by_cases hj : j = turn
        · subst hj
          rw [List.getElem?_set_self hlt, Option.some.injEq] at hp
          simp only [if_true]
          rw [← hp]
          exact hk
        · rw [List.getElem?_set_ne (Ne.symm hj)] at hp
          simp only [if_neg hj]
          exact wp_moved (fun _ _ _ _ _ hQ => hQ) (h j p hp) (hw₁.tail (hsub _ _ hG))
      refine ⟨hG, wp_mono ?_ (ih hnext)⟩
      rintro tr rs w₂ ⟨l, rfl, trs, hlen, hlen', hperm, hall⟩
      rw [List.length_set] at hlen hlen'
      have hturn' : turn < trs.length := hlen.symm ▸ hlt
      refine ⟨l, rfl, trs.set turn (⟨w₁, o, i⟩ :: trs[turn]), by simp [hlen], hlen', ?_, ?_⟩
      · rw [List.set_eq_take_append_cons_drop, if_pos hturn', List.flatten_append, List.flatten_cons,
          List.cons_append]
        refine (hperm.cons _).trans (.trans ?_ List.perm_middle.symm)
        refine .cons _ ?_
        conv_lhs => rw [← List.take_append_drop turn trs, List.drop_eq_getElem_cons hturn']
        rw [List.flatten_append, List.flatten_cons]
      · intro j own r hown hr
        by_cases hj : j = turn
        · subst hj
          rw [List.getElem?_set_self hturn', Option.some.injEq] at hown
          have hQ := hall j trs[j] r (List.getElem?_eq_getElem hturn') hr
          dsimp only at hQ
          rw [if_pos rfl] at hQ
          rw [← hown]
          exact hQ
        · rw [List.getElem?_set_ne (Ne.symm hj)] at hown
          have hQ := hall j own r hown hr
          dsimp only at hQ
          rwa [if_neg hj] at hQ
    · exact ih h

/-- **`Promise.all`**: if it returns, every program has returned. -/
theorem wp_promiseAll (hsub : ∀ w w', G w w' → R w w')
    {Q : Nat → List (Moment Op ι σ) → Except ε α → Prop} (turns : List Nat) {ps : List (Prog Op Res ε α)}
    (h : ∀ j p, ps[j]? = some p → wp exec R G p (fun tr r _ => Q j tr r) w) :
    wp exec R G (promiseAll turns ps) (fun tr r _ => ∃ l, Woven Q ps.length tr l ∧ r = settled l) w := by
  rw [promiseAll, wp_bind]
  refine wp_mono ?_ (wp_together hsub turns h)
  rintro tr rs w' ⟨l, rfl, hl⟩
  show wp exec R G (ofExcept (settled l)) _ w'
  cases hl' : settled l with
  | error e => exact ⟨l, by rwa [List.append_nil], hl'.symm⟩
  | ok as => exact ⟨l, by rwa [List.append_nil], hl'.symm⟩

/-- The programs of the family `xs` have made the calls `tr`: each has its own calls and its own outcome. -/
structure Joined {γ : Type} (Q : γ → List (Moment Op ι σ) → Except ε α → Prop) (xs : List γ)
    (tr : List (Moment Op ι σ)) (done : List (γ × List (Moment Op ι σ) × Except ε α)) : Prop where
  tasks : done.map (fun d => d.1) = xs
  calls : tr.Perm (done.map fun d => d.2.1).flatten
  each : ∀ d ∈ done, Q d.1 d.2.1 d.2.2

section Joined

variable {γ β : Type} {Q : γ → List (Moment Op ι σ) → Except ε α → Prop} {xs : List γ}
  {tr : List (Moment Op ι σ)} {done : List (γ × List (Moment Op ι σ) × Except ε α)}

theorem Joined.filterMap_perm (h : Joined Q xs tr done) (f : Moment Op ι σ → Option β) :
    (tr.filterMap f).Perm (done.map fun d => d.2.1.filterMap f).flatten := by
  have hperm := h.calls.filterMap f
  rwa [List.filterMap_flatten, List.map_map] at hperm

theorem Joined.mem_calls (h : Joined Q xs tr done) {m : Moment Op ι σ} :
    m ∈ tr ↔ ∃ d ∈ done, m ∈ d.2.1 := by
  rw [h.calls.mem_iff, List.mem_flatten]
  simp only [List.mem_map, exists_exists_and_eq_and]

end Joined

theorem joined_of_woven {γ : Type} {Q : γ → List (Moment Op ι σ) → Except ε α → Prop} {xs : List γ}
    {tr : List (Moment Op ι σ)} {rs : List (Except ε α)}
    (h : Woven (fun j own r => ∀ x, xs[j]? = some x → Q x own r) xs.length tr rs) :
    ∃ done, Joined Q xs tr done ∧ done.map (fun d => d.2.2) = rs := by
  obtain ⟨trs, hlen, hlen', hperm, hall⟩ := h
  have hzip : (trs.zip rs).length = xs.length := by rw [List.length_zip, hlen, hlen', Nat.min_self]
  have hrest : (xs.zip (trs.zip rs)).map (fun d => d.2) = trs.zip rs := List.map_snd_zip (Nat.le_of_eq hzip)
  have htrs : (xs.zip (trs.zip rs)).map (fun d => d.2.1) = trs := by
    rw [← Function.comp_def Prod.fst Prod.snd, ← List.map_map, hrest, List.map_fst_zip (by omega)]
  have hrs : (xs.zip (trs.zip rs)).map (fun d => d.2.2) = rs := by
    rw [← Function.comp_def Prod.snd Prod.snd, ← List.map_map, hrest, List.map_snd_zip (by omega)]
  refine ⟨xs.zip (trs.zip rs), ⟨List.map_fst_zip (Nat.le_of_eq hzip.symm), by rwa [htrs], ?_⟩, hrs⟩
  intro d hd
  obtain ⟨j, hj⟩ := List.getElem?_of_mem hd
  rw [List.getElem?_zip_eq_some] at hj
  obtain ⟨hx, hj⟩ := hj
  rw [List.getElem?_zip_eq_some] at hj
  exact hall j d.2.1 d.2.2 hj.1 hj.2 d.1 hx

/-- **`Promise.all` over a list.** -/
theorem wp_promiseAll_map {γ : Type} (hsub : ∀ w w', G w w' → R w w')
    {Q : γ → List (Moment Op ι σ) → Except ε α → Prop} (turns : List Nat) {f : γ → Prog Op Res ε α} {xs : List γ}
    (h : ∀ x ∈ xs, wp exec R G (f x) (fun tr r _ => Q x tr r) w) :
    wp exec R G (promiseAll turns (xs.map f))
      (fun tr r _ => ∃ done, Joined Q xs tr done ∧ r = settled (done.map fun d => d.2.2)) w := by
  have hprogs : ∀ (j : Nat) (p : Prog Op Res ε α), (xs.map f)[j]? = some p →
      wp exec R G p (fun tr r _ => ∀ x, xs[j]? = some x → Q x tr r) w := by
    intro j p hp
    rw [List.getElem?_map, Option.map_eq_some_iff] at hp
    obtain ⟨x, hx, rfl⟩ := hp
    refine wp_mono ?_ (h x (List.mem_of_getElem? hx))
    intro tr r w' hQ y hy
    rw [hx, Option.some.injEq] at hy
    rwa [← hy]
  refine wp_mono ?_ (wp_promiseAll hsub turns hprogs)
  rintro tr r w' ⟨l, hl, rfl⟩
  rw [List.length_map] at hl
  obtain ⟨done, hdone, hoc⟩ := joined_of_woven hl
  exact ⟨done, hdone, by rw [hoc]⟩

end Prog

end Concurrent
