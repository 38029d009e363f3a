import TransactionSimulator.Lib.Pool

/-!
# Programs that take turns

Some calls belong to a key, and the calls of a key move its phase.  A program plays for one key: it makes only
calls that the phase allows, and ends where it began, in the phase `idle`.  Where a program can leave `idle`
only while its key is idle (the gate), any number of programs may play for one key at once, and still the
calls of a key are those of one program after the other.

* `Turns.Plays`: what a program does for its key; `plays_bind` and `plays_tryCatch` cut it into its parts.
* `Turns.phase`: the phase of a key after some calls, if they were all allowed.
* `Guards`: the gate, and an invariant that allowed calls keep.  `Guards.after`: all calls of a run are
  allowed, and the invariant holds.
-/

namespace Concurrent

open Config

/-- The key of a call, the answers that it can get, and the phases that the calls of a key go through. -/
structure Turns (Op : Type) (Res : Op → Type) (ε κ φ : Type) where
  key : Op → Option κ
  answers : (o : Op) → Except ε (Res o) → Prop
  idle : φ
  next : φ → (o : Op) → Except ε (Res o) → Option φ

namespace Turns

variable {Op : Type} {Res : Op → Type} {ε σ ι τ δ κ φ α β : Type} {T : Turns Op Res ε κ φ}

/-! ## Programs -/

/-- What holds of a value, or of an error. -/
def OnResult (value : α → Prop) (error : ε → Prop) : Except ε α → Prop
  | .ok a => value a
  | .error e => error e

/-- Every call of the program that has a key has this one and is allowed, and the program ends in a phase
and with a result that `Q` accepts. -/
def Plays (T : Turns Op Res ε κ φ) (k : κ) (Q : φ → Except ε α → Prop) : Prog Op Res ε α → φ → Prop
  | .pure a, x => Q x (.ok a)
  | .throw e, x => Q x (.error e)
  | .call o c, x =>
    match T.key o with
    | none => ∀ r, Plays T k Q (c r) x
    | some k' => k' = k ∧ ∀ r, T.answers o r → ∃ y, T.next x o r = some y ∧ Plays T k Q (c r) y

section Plays

variable {k : κ} {x : φ} {Q : φ → Except ε α → Prop} {p : Prog Op Res ε α} {o : Op}

theorem plays_of_keyless {c : Except ε (Res o) → Prog Op Res ε α} (hkey : T.key o = none)
    (h : ∀ r, T.Plays k Q (c r) x) : T.Plays k Q (.call o c) x := by
  rw [Plays, hkey]
  exact h

theorem plays_of_key {c : Except ε (Res o) → Prog Op Res ε α} (hkey : T.key o = some k)
    (h : ∀ r, T.answers o r → ∃ y, T.next x o r = some y ∧ T.Plays k Q (c r) y) : T.Plays k Q (.call o c) x := by
  rw [Plays, hkey]
  exact ⟨rfl, h⟩

theorem plays_mono {Q' : φ → Except ε α → Prop} (hQ : ∀ y r, Q y r → Q' y r) (h : T.Plays k Q p x) :
    T.Plays k Q' p x := by
  induction p generalizing x with
  | pure a => exact hQ _ _ h
  | throw e => exact hQ _ _ h
  | call o c ih =>
    rw [Plays] at h ⊢
    cases hkey : T.key o with
    | none =>
      rw [hkey] at h
      exact fun r => ih r (h r)
    | some k' =>
      rw [hkey] at h
      refine ⟨h.1, fun r hr => ?_⟩
      obtain ⟨y, hnext, hrest⟩ := h.2 r hr
      exact ⟨y, hnext, ih r hrest⟩

/-- **Sequencing.** -/
theorem plays_bind {f : α → Prog Op Res ε β} {R : φ → Except ε β → Prop}
    (h : T.Plays k (fun y => OnResult (fun a => T.Plays k R (f a) y) fun e => R y (.error e)) p x) : T.Plays k R (p.bind f) x := by
  induction p generalizing x with
  | pure a => exact h
  | throw e => exact h
  | call o c ih =>
    rw [Prog.bind, Plays]
    rw [Plays] at h
    cases hkey : T.key o with
    | none =>
      rw [hkey] at h
      exact fun r => ih r (h r)
    | some k' =>
      rw [hkey] at h
      refine ⟨h.1, fun r hr => ?_⟩
      obtain ⟨y, hnext, hrest⟩ := h.2 r hr
      exact ⟨y, hnext, ih r hrest⟩

/-- **A handler.** -/
theorem plays_tryCatch {handler : ε → Prog Op Res ε α}
    (h : T.Plays k (fun y => OnResult (fun a => Q y (.ok a)) fun e => T.Plays k Q (handler e) y) p x) : T.Plays k Q (p.tryCatch handler) x := by
  induction p generalizing x with
  | pure a => exact h
  | throw e => exact h
  | call o c ih =>
    rw [Prog.tryCatch, Plays]
    rw [Plays] at h
    cases hkey : T.key o with
    | none =>
      rw [hkey] at h
      exact fun r => ih r (h r)
    | some k' =>
      rw [hkey] at h
      refine ⟨h.1, fun r hr => ?_⟩
      obtain ⟨y, hnext, hrest⟩ := h.2 r hr
      exact ⟨y, hnext, ih r hrest⟩

theorem plays_perform {Q : φ → Except ε (Res o) → Prop} (hkey : T.key o = some k)
    (h : ∀ r, T.answers o r → ∃ y, T.next x o r = some y ∧ Q y r) : T.Plays k Q (.perform o) x := by
  refine plays_of_key hkey fun r hr => ?_
  obtain ⟨y, hnext, hQ⟩ := h r hr
  refine ⟨y, hnext, ?_⟩
  cases r with
  | ok a => exact hQ
  | error e => exact hQ

theorem plays_perform_bind {f : Res o → Prog Op Res ε β} {R : φ → Except ε β → Prop} (hkey : T.key o = some k)
    (h : ∀ r, T.answers o r → ∃ y, T.next x o r = some y ∧
      OnResult (fun a => T.Plays k R (f a) y) (fun e => R y (.error e)) r) : T.Plays k R ((Prog.perform o).bind f) x :=
  plays_bind (plays_perform hkey h)

theorem plays_perform_tryCatch {Q : φ → Except ε (Res o) → Prop} {handler : ε → Prog Op Res ε (Res o)}
    (hkey : T.key o = some k)
    (h : ∀ r, T.answers o r → ∃ y, T.next x o r = some y ∧
      OnResult (fun a => Q y (.ok a)) (fun e => T.Plays k Q (handler e) y) r) : T.Plays k Q ((Prog.perform o).tryCatch handler) x :=
  plays_tryCatch (plays_perform hkey h)

/-- A program whose calls leave the phase as it is. -/
theorem plays_of_all
    (h : Prog.All (fun o => T.key o = none ∨ T.key o = some k ∧ ∀ r, T.next x o r = some x) p)
    (hQ : ∀ r, Q x r) : T.Plays k Q p x := by
  induction p with
  | pure a => exact hQ _
  | throw e => exact hQ _
  | call o c ih =>
    obtain ⟨hcall, hrest⟩ := h
    rcases hcall with hkey | ⟨hkey, hsame⟩
    · exact plays_of_keyless hkey fun r => ih r (hrest r)
    · exact plays_of_key hkey fun r _ => ⟨x, hsame r, ih r (hrest r)⟩

end Plays

/-! ## Phases -/

variable [DecidableEq κ]

/-- What a call does to the phase of a key. -/
def move (T : Turns Op Res ε κ φ) (exec : (o : Op) → ι → σ → Except ε (Res o) × σ) (k : κ) (x : Option φ)
    (m : Moment Op ι σ) : Option φ :=
  if T.key m.op = some k then x.bind fun y => T.next y m.op (exec m.op m.input m.state).1 else x

/-- **The phase of a key** after some calls; `none` if one of them was not allowed. -/
def phase (T : Turns Op Res ε κ φ) (exec : (o : Op) → ι → σ → Except ε (Res o) × σ) (k : κ)
    (past : List (Moment Op ι σ)) : Option φ :=
  past.foldl (T.move exec k) (some T.idle)

section Phase

variable {exec : (o : Op) → ι → σ → Except ε (Res o) × σ} {k : κ} {past tr : List (Moment Op ι σ)}
  {m : Moment Op ι σ}

@[simp] theorem phase_nil : T.phase exec k ([] : List (Moment Op ι σ)) = some T.idle := rfl

theorem phase_append_singleton : T.phase exec k (past ++ [m]) = T.move exec k (T.phase exec k past) m := by
  rw [phase, List.foldl_append]
  rfl

theorem phase_of_ne (h : T.key m.op ≠ some k) : T.phase exec k (past ++ [m]) = T.phase exec k past := by
  rw [phase_append_singleton, move, if_neg h]

theorem phase_of_eq {x : φ} (h : T.key m.op = some k) (hphase : T.phase exec k past = some x) :
    T.phase exec k (past ++ [m]) = T.next x m.op (exec m.op m.input m.state).1 := by
  rw [phase_append_singleton, move, if_pos h, hphase, Option.bind_some]

end Phase

end Turns

/-! ## Runs -/

section Guards

variable {Op : Type} {Res : Op → Type} {ε σ ι τ δ κ φ : Type} [DecidableEq κ] {T : Turns Op Res ε κ φ}
  {S : System Op Res ε σ ι τ δ} {I J : List (Moment Op ι σ) → σ → Prop} {role : τ → κ}

/-- The call is allowed after the others. -/
def Turns.Allowed (T : Turns Op Res ε κ φ) (exec : (o : Op) → ι → σ → Except ε (Res o) × σ)
    (past : List (Moment Op ι σ)) (m : Moment Op ι σ) : Prop :=
  ∀ k, T.key m.op = some k →
    ∃ x y, T.phase exec k past = some x ∧ T.next x m.op (exec m.op m.input m.state).1 = some y ∧
      T.phase exec k (past ++ [m]) = some y

/-- Every task plays for its key, every answer is one that its call can get, a call that keeps the phase `idle`
keeps every phase, the key of a call that leaves `idle` is idle, and allowed calls keep the invariant. -/
structure Guards (T : Turns Op Res ε κ φ) (S : System Op Res ε σ ι τ δ) (I : List (Moment Op ι σ) → σ → Prop)
    (role : τ → κ) : Prop where
  plays : ∀ t, T.Plays (role t) (fun x _ => x = T.idle) (S.prog t) T.idle
  answers : ∀ o i w, T.answers o (S.exec o i w).1
  neutral : ∀ o r, T.next T.idle o r = some T.idle → ∀ x, T.next x o r = some x
  gate : ∀ past w o i k x y, I past w → T.phase S.exec k past = some x → T.key o = some k →
    T.next T.idle o (S.exec o i w).1 = some y → y ≠ T.idle → x = T.idle
  call : ∀ past w o i, I past w → T.Allowed S.exec past ⟨w, o, i⟩ → I (past ++ [⟨w, o, i⟩]) (S.exec o i w).2
  shift : ∀ past w d, I past w → I past (S.shift d w)

/-- Where the programs of a pool stand: for each of them the key it plays for and the phase it has brought it
to.  At most one program has a key out of `idle`, and its phase is that of the key. -/
structure Turning (T : Turns Op Res ε κ φ) (S : System Op Res ε σ ι τ δ) (I : List (Moment Op ι σ) → σ → Prop)
    (past : List (Moment Op ι σ)) (c : Config Op Res ε σ) (roles : List (κ × φ)) : Prop where
  length : roles.length = c.procs.length
  plays : ∀ (pid : Nat) p k x, c.procs[pid]? = some (some p) → roles[pid]? = some (k, x) →
    T.Plays k (fun y _ => y = T.idle) p x
  legal : ∀ k, ∃ x, T.phase S.exec k past = some x
  turn : ∀ (pid : Nat) k x, roles[pid]? = some (k, x) → x ≠ T.idle → T.phase S.exec k past = some x
  alone : ∀ (pid pid' : Nat) k x x', roles[pid]? = some (k, x) → roles[pid']? = some (k, x') → x ≠ T.idle →
    x' ≠ T.idle → pid = pid'
  inv : I past c.world

variable {past : List (Moment Op ι σ)} {c : Config Op Res ε σ} {roles : List (κ × φ)}

theorem Turning.spawn (h : Guards T S I role) (ht : Turning T S I past c roles) (t : τ) :
    Turning T S I past (c.apply S (.spawn t)) (roles ++ [(role t, T.idle)]) := by
  have hrole : ∀ (pid : Nat) k x, (roles ++ [(role t, T.idle)])[pid]? = some (k, x) → x ≠ T.idle →
      roles[pid]? = some (k, x) := by
    intro pid k x hx hne
    rw [List.getElem?_append] at hx
    split at hx
    · exact hx
    · obtain ⟨-, hlast⟩ := List.mem_singleton.mp (List.mem_of_getElem? hx) |> Prod.mk.inj
      exact absurd hlast hne
  refine ⟨?_, ?_, ht.legal, ?_, ?_, ht.inv⟩
  · simp only [apply, List.length_append, List.length_singleton, ht.length]
  · intro pid p k x hp hx
    simp only [apply] at hp
    rw [List.getElem?_append] at hp hx
    rw [ht.length] at hx
    split at hp
    · next hlt =>
      rw [if_pos hlt] at hx
      exact ht.plays pid p k x hp hx
    · next hge =>
      rw [if_neg hge] at hx
      obtain rfl : p = S.prog t := by simpa using List.mem_of_getElem? hp
      obtain ⟨rfl, rfl⟩ : k = role t ∧ x = T.idle := by simpa using List.mem_of_getElem? hx
      exact h.plays t
  · intro pid k x hx hne
    exact ht.turn pid k x (hrole pid k x hx hne) hne
  · intro pid pid' k x x' hx hx' hne hne'
    exact ht.alone pid pid' k x x' (hrole pid k x hx hne) (hrole pid' k x' hx' hne') hne hne'

theorem Turning.crash (ht : Turning T S I past c roles) (pid : Nat) :
    Turning T S I past (c.apply S (.crash pid)) roles := by
  refine ⟨?_, ?_, ht.legal, ht.turn, ht.alone, ht.inv⟩
  · simp only [apply, List.length_set, ht.length]
  · intro pid' p k x hp hx
    simp only [apply, List.getElem?_set] at hp
    split at hp
    · split at hp <;> cases hp
    · exact ht.plays pid' p k x hp hx

theorem Turning.shift (h : Guards T S I role) (ht : Turning T S I past c roles) (d : δ) :
    Turning T S I past (c.apply S (.shift d)) roles :=
  ⟨ht.length, ht.plays, ht.legal, ht.turn, ht.alone, h.shift past c.world d ht.inv⟩

/-- **The call of a program that plays for a key.** -/
theorem Turning.called (h : Guards T S I role) (ht : Turning T S I past c roles) {pid : Nat} {o : Op} {i : ι} {k : κ}
    {x y : φ} (hrole : roles[pid]? = some (k, x)) (hkey : T.key o = some k)
    (hnext : T.next x o (S.exec o i c.world).1 = some y) :
    ∃ z, T.Allowed S.exec past ⟨c.world, o, i⟩ ∧ T.phase S.exec k (past ++ [⟨c.world, o, i⟩]) = some z ∧
      (y ≠ T.idle → z = y) ∧
      ∀ pid' x', pid' ≠ pid → roles[pid']? = some (k, x') → x' ≠ T.idle → z = x' ∧ y = T.idle := by
  have hallowed : ∀ {z z'}, T.phase S.exec k past = some z → T.next z o (S.exec o i c.world).1 = some z' →
      T.Allowed S.exec past ⟨c.world, o, i⟩ ∧ T.phase S.exec k (past ++ [⟨c.world, o, i⟩]) = some z' := by
    intro z z' hz hz'
    have hphase := (Turns.phase_of_eq (m := ⟨c.world, o, i⟩) hkey hz).trans hz'
    refine ⟨fun k' hk' => ?_, hphase⟩
    obtain rfl : k = k' := Option.some.inj (hkey.symm.trans hk')
    exact ⟨z, z', hz, hz', hphase⟩
  by_cases hx : x = T.idle
  · subst hx
    by_cases hy : y = T.idle
    · subst hy
      obtain ⟨z, hz⟩ := ht.legal k
      obtain ⟨hcall, hphase⟩ := hallowed hz (h.neutral o _ hnext z)
      refine ⟨z, hcall, hphase, fun hne => absurd rfl hne, fun pid' x' _ hx' hne => ⟨?_, rfl⟩⟩
      exact Option.some.inj (hz.symm.trans (ht.turn pid' k x' hx' hne))
    · obtain ⟨z, hz⟩ := ht.legal k
      obtain rfl : z = T.idle := h.gate past c.world o i k z y ht.inv hz hkey hnext hy
      obtain ⟨hcall, hphase⟩ := hallowed hz hnext
      refine ⟨y, hcall, hphase, fun _ => rfl, fun pid' x' _ hx' hne => ?_⟩
      exact absurd (Option.some.inj ((ht.turn pid' k x' hx' hne).symm.trans hz)) hne
  · obtain ⟨hcall, hphase⟩ := hallowed (ht.turn pid k x hrole hx) hnext
    refine ⟨y, hcall, hphase, fun _ => rfl, fun pid' x' hpid hx' hne => ?_⟩
    exact absurd (ht.alone pid' pid k x' x hx' hrole hne hx) hpid

/-- **One call of a run.** -/
theorem Turning.step (h : Guards T S I role) (ht : Turning T S I past c roles) {pid : Nat} {i : ι} {o : Op}
    {f : Except ε (Res o) → Prog Op Res ε Unit} (hproc : c.procs[pid]? = some (some (.call o f))) :
    T.Allowed S.exec past ⟨c.world, o, i⟩ ∧
      ∃ roles', Turning T S I (past ++ [⟨c.world, o, i⟩]) (c.apply S (.step pid i)) roles' := by
  have hlt : pid < roles.length := by
    rw [ht.length]
    exact (List.getElem?_eq_some_iff.mp hproc).1
  obtain ⟨⟨k, x⟩, hrole⟩ : ∃ role, roles[pid]? = some role := ⟨_, List.getElem?_eq_getElem hlt⟩
  have hplays := ht.plays pid _ k x hproc hrole
  have happly : c.apply S (.step pid i) =
      ⟨(S.exec o i c.world).2, c.procs.set pid (some (f (S.exec o i c.world).1))⟩ := by
    simp only [apply, hproc]
  rw [happly]
  rw [Turns.Plays] at hplays
  cases hkey : T.key o with
  | none =>
    rw [hkey] at hplays
    have hsame : ∀ k', T.phase S.exec k' (past ++ [⟨c.world, o, i⟩]) = T.phase S.exec k' past :=
      fun k' => Turns.phase_of_ne (m := ⟨c.world, o, i⟩) (by rw [hkey]; exact fun h => by cases h)
    have hallowed : T.Allowed S.exec past ⟨c.world, o, i⟩ := by
      intro k' hk'
      rw [hkey] at hk'
      cases hk'
    refine ⟨hallowed, roles, ?_, ?_, ?_, ?_, ht.alone, h.call past c.world o i ht.inv hallowed⟩
    · rw [List.length_set, ht.length]
    · intro pid' p k' x' hp hx'
      rw [List.getElem?_set] at hp
      split at hp
      · next hpid =>
        subst hpid
        split at hp
        · obtain rfl : f (S.exec o i c.world).1 = p := Option.some.inj (Option.some.inj hp)
          obtain ⟨rfl, rfl⟩ : k = k' ∧ x = x' := Prod.mk.inj (Option.some.inj (hrole.symm.trans hx'))
          exact hplays _
        · cases hp
      · exact ht.plays pid' p k' x' hp hx'
    · intro k'
      rw [hsame]
      exact ht.legal k'
    · intro pid' k' x' hx' hne
      rw [hsame]
      exact ht.turn pid' k' x' hx' hne
  | some k' =>
    rw [hkey] at hplays
    obtain ⟨rfl, hplays⟩ := hplays
    obtain ⟨y, hnext, hrest⟩ := hplays _ (h.answers o i c.world)
    obtain ⟨z, hallowed, hphase, hown, hothers⟩ := ht.called h hrole hkey hnext
    have hsame : ∀ k, k ≠ k' → T.phase S.exec k (past ++ [⟨c.world, o, i⟩]) = T.phase S.exec k past := by
      intro k hk
      refine Turns.phase_of_ne (m := ⟨c.world, o, i⟩) ?_
      rw [hkey, ne_eq, Option.some.injEq]
      exact fun h => hk h.symm
    -- the roles after the call: that of the program, and those of the others
    have hcases : ∀ {pid₁ : Nat} {k₁ x₁}, (roles.set pid (k', y))[pid₁]? = some (k₁, x₁) →
        (pid₁ = pid ∧ k₁ = k' ∧ x₁ = y) ∨ (pid₁ ≠ pid ∧ roles[pid₁]? = some (k₁, x₁)) := by
      intro pid₁ k₁ x₁ hx₁
      by_cases hpid : pid₁ = pid
      · rw [hpid, List.getElem?_set_self hlt] at hx₁
        obtain ⟨rfl, rfl⟩ := Prod.mk.inj (Option.some.inj hx₁)
        exact .inl ⟨hpid, rfl, rfl⟩
      · rw [List.getElem?_set_ne fun h => hpid h.symm] at hx₁
        exact .inr ⟨hpid, hx₁⟩
    refine ⟨hallowed, roles.set pid (k', y), ?_, ?_, ?_, ?_, ?_, h.call past c.world o i ht.inv hallowed⟩
    · rw [List.length_set, List.length_set, ht.length]
    · intro pid₁ p k₁ x₁ hp hx₁
      rcases hcases hx₁ with ⟨rfl, rfl, rfl⟩ | ⟨hpid, hold₁⟩
      · rw [List.getElem?_set_self (List.getElem?_eq_some_iff.mp hproc).1] at hp
        obtain rfl : f (S.exec o i c.world).1 = p := Option.some.inj (Option.some.inj hp)
        exact hrest
      · rw [List.getElem?_set_ne hpid.symm] at hp
        exact ht.plays pid₁ p k₁ x₁ hp hold₁
    · intro k
      by_cases hk : k = k'
      · exact ⟨z, hk ▸ hphase⟩
      · rw [hsame k hk]
        exact ht.legal k
    · intro pid₁ k₁ x₁ hx₁ hne
      rcases hcases hx₁ with ⟨-, rfl, rfl⟩ | ⟨hpid, hold₁⟩
      · rw [hphase, hown hne]
      · by_cases hk : k₁ = k'
        · subst hk
          rw [hphase, (hothers pid₁ x₁ hpid hold₁ hne).1]
        · rw [hsame k₁ hk]
          exact ht.turn pid₁ k₁ x₁ hold₁ hne
    · intro pid₁ pid₂ k₁ x₁ x₂ hx₁ hx₂ hne₁ hne₂
      rcases hcases hx₁ with ⟨rfl, rfl, rfl⟩ | ⟨hpid₁, hold₁⟩
      · rcases hcases hx₂ with ⟨rfl, -, -⟩ | ⟨hpid₂, hold₂⟩
        · rfl
        · exact absurd (hothers pid₂ x₂ hpid₂ hold₂ hne₂).2 hne₁
      · rcases hcases hx₂ with ⟨rfl, rfl, rfl⟩ | ⟨-, hold₂⟩
        · exact absurd (hothers pid₁ x₁ hpid₁ hold₁ hne₁).2 hne₂
        · exact ht.alone pid₁ pid₂ k₁ x₁ x₂ hold₁ hold₂ hne₁ hne₂

/-- **One event of a run.** -/
theorem Turning.apply (h : Guards T S I role) (ht : Turning T S I past c roles) (e : Event τ ι δ) :
    (∀ m, c.moment e = some m → T.Allowed S.exec past m) ∧
      ∃ roles', Turning T S I (past ++ (c.moment e).toList) (c.apply S e) roles' := by
  cases e with
  | spawn t => exact ⟨fun m hm => (by cases hm), _, (List.append_nil past).symm ▸ ht.spawn h t⟩
  | crash pid => exact ⟨fun m hm => (by cases hm), _, (List.append_nil past).symm ▸ ht.crash pid⟩
  | shift d => exact ⟨fun m hm => (by cases hm), _, (List.append_nil past).symm ▸ ht.shift h d⟩
  | step pid i =>
    cases hmoment : c.moment (.step pid i : Event τ ι δ) with
    | none =>
      refine ⟨fun m hm => (by cases hm), roles, ?_⟩
      have happly : c.apply S (.step pid i) = c := by
        simp only [moment] at hmoment
        simp only [Config.apply]
        split at hmoment
        · cases hmoment
        · rfl
      rw [happly, Option.toList_none, List.append_nil]
      exact ht
    | some m =>
      simp only [moment] at hmoment
      split at hmoment
      · next o f hproc =>
        obtain rfl := Option.some.inj hmoment
        obtain ⟨hallowed, hturning⟩ := ht.step h (i := i) hproc
        exact ⟨fun m hm => Option.some.inj hm ▸ hallowed, hturning⟩
      · cases hmoment

theorem Turning.after (h : Guards T S I role) (ht : Turning T S I past c roles) (es : List (Event τ ι δ)) :
    ∃ roles', Turning T S I (past ++ c.moments S es) (c.after S es) roles' := by
  induction es generalizing past c roles with
  | nil => exact ⟨roles, (List.append_nil past).symm ▸ ht⟩
  | cons e es ih =>
    obtain ⟨-, roles', ht'⟩ := ht.apply h e
    rw [moments, ← List.append_assoc]
    exact ih ht'

theorem Turning.init {w : σ} (hI : I [] w) : Turning T S I [] ⟨w, []⟩ [] where
  length := rfl
  plays pid p k x hp := by cases hp
  legal k := ⟨T.idle, Turns.phase_nil⟩
  turn pid k x hx := by cases hx
  alone pid pid' k x x' hx := by cases hx
  inv := hI

/-- **All calls of a run are allowed**, and the invariant holds. -/
theorem Guards.after (h : Guards T S I role) {w : σ} (hI : I [] w) (es : List (Event τ ι δ)) :
    (∀ k, ∃ x, T.phase S.exec k ((Config.mk w [] : Config Op Res ε σ).moments S es) = some x) ∧
      I ((Config.mk w [] : Config Op Res ε σ).moments S es) ((Config.mk w [] : Config Op Res ε σ).after S es).world := by
  obtain ⟨roles, ht⟩ := (Turning.init hI).after h es
  exact ⟨ht.legal, ht.inv⟩

/-- A second invariant may rest on the first. -/
theorem Guards.and (h : Guards T S I role)
    (hcall : ∀ past w o i, I past w → J past w → T.Allowed S.exec past ⟨w, o, i⟩ →
      J (past ++ [⟨w, o, i⟩]) (S.exec o i w).2)
    (hshift : ∀ past w d, I past w → J past w → J past (S.shift d w)) :
    Guards T S (fun past w => I past w ∧ J past w) role where
  plays := h.plays
  answers := h.answers
  neutral := h.neutral
  gate past w o i k x y hI := h.gate past w o i k x y hI.1
  call past w o i hIJ hallowed := ⟨h.call past w o i hIJ.1 hallowed, hcall past w o i hIJ.1 hIJ.2 hallowed⟩
  shift past w d hIJ := ⟨h.shift past w d hIJ.1, hshift past w d hIJ.1 hIJ.2⟩

/-- What holds at some time and is kept by the allowed calls from then on. -/
theorem Guards.later (h : Guards T S I role) {w : σ} (hI : I [] w) (es fs : List (Event τ ι δ))
    (hJ : J ((Config.mk w [] : Config Op Res ε σ).moments S es) ((Config.mk w [] : Config Op Res ε σ).after S es).world)
    (hcall : ∀ past w o i, I past w → J past w → T.Allowed S.exec past ⟨w, o, i⟩ →
      J (past ++ [⟨w, o, i⟩]) (S.exec o i w).2)
    (hshift : ∀ past w d, I past w → J past w → J past (S.shift d w)) :
    J ((Config.mk w [] : Config Op Res ε σ).moments S (es ++ fs))
      ((Config.mk w [] : Config Op Res ε σ).after S (es ++ fs)).world := by
  obtain ⟨roles, ht⟩ := (Turning.init hI).after h es
  have htJ : Turning T S (fun past w => I past w ∧ J past w) ([] ++ Config.moments S ⟨w, []⟩ es)
      (Config.after S ⟨w, []⟩ es) roles :=
    ⟨ht.length, ht.plays, ht.legal, ht.turn, ht.alone, ht.inv, hJ⟩
  obtain ⟨roles', hlater⟩ := htJ.after (h.and hcall hshift) fs
  rw [moments_append, after_append]
  exact hlater.inv.2

end Guards

end Concurrent
