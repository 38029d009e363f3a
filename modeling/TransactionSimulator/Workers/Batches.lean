import TransactionSimulator.Workers.Drift

/-!
# The batches of a page

`batches` is the loop of `checkBatches` without its calls: the slices that it takes of a page.

* `flatten_batches`, `length_le_of_batches_eq_none`: a step that is an integer from 1 on cuts the page into
  pieces and comes to the end of it.
* `mem_flatten_batches`: any loop that ends has taken every element, unless its step is no number.
* `batches_eq_none_iff`: a loop ends once the sums of its step reach the length of the page.
-/

namespace TransactionSimulator

namespace BalanceDriftProcessor

open Js (Number place slice)

variable {α : Type} {concurrency : Number} {page : List α}

/-- The batches of a page from `i` on; `none` if there are more than `rounds` of them. -/
def batches (concurrency : Number) (page : List α) : (rounds : Nat) → (i : Number) → Option (List (List α))
  | 0, _ => none
  | rounds + 1, i =>
    if i.lt (.finite page.length) then
      (batches concurrency page rounds (i.add concurrency)).map (slice page i (i.add concurrency) :: ·)
    else some []

/-! ## Steps -/

theorem place_natCast (length k : Nat) : place length (.finite k) = min k length := by
  have hneg : ¬ ((k : Rat) < 0) := by
    rw [not_lt]
    exact_mod_cast Nat.zero_le k
  have hfloor : (k : Rat).floor = k := Rat.floor_intCast k
  simp only [place, if_neg hneg, hfloor, if_neg (Int.not_lt.mpr (Int.natCast_nonneg k)), Int.toNat_natCast]

theorem lt_natCast (k n : Nat) : (Number.finite k).lt (.finite n) = decide (k < n) := by
  simp only [Number.lt, Nat.cast_lt]

/-- An index that is beyond the end of a page. -/
def Beyond (length : Nat) (i : Number) : Prop := i.lt (.finite length) = false ∧ place length i = length

theorem beyond_natCast {length k : Nat} (h : length ≤ k) : Beyond length (.finite k) := by
  constructor
  · rw [lt_natCast]
    exact decide_eq_false (by omega)
  · rw [place_natCast, Nat.min_eq_right h]

/-- **A step by an integer** leads to the next integer, or beyond the page. -/
theorem add_natCast (length k c : Nat) (hlength : length < 2 ^ 53) :
    (Number.finite k).add (.finite c) = .finite (k + c : Nat) ∨
      length ≤ k + c ∧ Beyond length ((Number.finite k).add (.finite c)) := by
  have hadd : (Number.finite k).add (.finite c) = Number.ofRat (k + c : Nat) := by
    rw [Number.add, Nat.cast_add]
  rw [hadd]
  by_cases hsmall : k + c < 2 ^ 53
  · exact .inl (Number.ofRat_natCast hsmall)
  · right
    refine ⟨by omega, ?_⟩
    rcases Number.ofRat_natCast_of_le (Nat.not_lt.mp hsmall) with hinf | ⟨m, hm, hle⟩
    · rw [hinf]
      exact ⟨rfl, rfl⟩
    · rw [hm]
      exact beyond_natCast (by omega)

theorem batches_of_beyond {rounds : Nat} {i : Number} (h : Beyond page.length i) :
    batches concurrency page (rounds + 1) i = some [] := by
  rw [batches, h.1, if_neg Bool.false_ne_true]

theorem slice_natCast (k m : Nat) : slice page (.finite k) (.finite m) = (page.take m).drop k := by
  rw [slice, place_natCast, place_natCast]
  rcases Nat.le_total k page.length with hk | hk
  · rw [Nat.min_eq_left hk, ← List.take_eq_take_min]
  · rw [Nat.min_eq_right hk, List.drop_eq_nil_of_le (by rw [List.length_take]; omega),
      List.drop_eq_nil_of_le (by rw [List.length_take]; omega)]

theorem slice_of_beyond {k : Nat} {i : Number} (hk : k ≤ page.length) (h : Beyond page.length i) :
    slice page (.finite k) i = page.drop k := by
  rw [slice, place_natCast, h.2, List.take_length, Nat.min_eq_left hk]

/-- **An integer step cuts the rest of the page into pieces.** -/
theorem flatten_batches {c : Nat} (hlength : page.length < 2 ^ 53) {rounds k : Nat} {bs : List (List α)}
    (h : batches (.finite c) page rounds (.finite k) = some bs) : bs.flatten = page.drop k := by
  induction rounds generalizing k bs with
  | zero => cases h
  | succ rounds ih =>
    by_cases hk : k < page.length
    · rw [batches, lt_natCast, decide_eq_true hk, if_pos rfl, Option.map_eq_some_iff] at h
      obtain ⟨bs, hbs, rfl⟩ := h
      rw [List.flatten_cons]
      rcases add_natCast page.length k c hlength with hnext | ⟨-, hnext⟩
      · rw [hnext] at hbs ⊢
        rw [ih hbs, slice_natCast]
        conv_rhs => rw [← List.take_append_drop (k + c) page]
        rw [List.drop_append]
        have hle : k ≤ (page.take (k + c)).length := by
          rw [List.length_take]
          omega
        rw [Nat.sub_eq_zero_of_le hle, List.drop_zero]
      · cases rounds with
        | zero => cases hbs
        | succ rounds =>
          rw [batches_of_beyond hnext, Option.some.injEq] at hbs
          rw [← hbs, List.flatten_nil, List.append_nil, slice_of_beyond (Nat.le_of_lt hk) hnext]
    · rw [batches_of_beyond (beyond_natCast (Nat.not_lt.mp hk)), Option.some.injEq] at h
      rw [← h, List.drop_eq_nil_of_le (Nat.not_lt.mp hk), List.flatten_nil]

/-- **An integer step from 1 on comes to the end** of the page. -/
theorem length_le_of_batches_eq_none {c : Nat} (hc : 1 ≤ c) (hlength : page.length < 2 ^ 53) {rounds k : Nat}
    (h : batches (.finite c) page rounds (.finite k) = none) : rounds ≤ page.length - k := by
  induction rounds generalizing k with
  | zero => exact Nat.zero_le _
  | succ rounds ih =>
    by_cases hk : k < page.length
    · rw [batches, lt_natCast, decide_eq_true hk, if_pos rfl, Option.map_eq_none_iff] at h
      rcases add_natCast page.length k c hlength with hnext | ⟨-, hnext⟩
      · rw [hnext] at h
        have hle := ih h
        omega
      · cases rounds with
        | zero => omega
        | succ rounds =>
          rw [batches_of_beyond hnext] at h
          cases h
    · rw [batches_of_beyond (beyond_natCast (Nat.not_lt.mp hk))] at h
      cases h

/-! ## Any step -/

/-- The index after `j` steps. -/
def stepped (concurrency : Number) (i : Number) (j : Nat) : Number := (fun i => i.add concurrency)^[j] i

theorem stepped_succ (i : Number) (j : Nat) :
    stepped concurrency i (j + 1) = stepped concurrency (i.add concurrency) j :=
  Function.iterate_succ_apply _ _ _

/-- **The loop does not end** while the sums of its step stay below the length of the page. -/
theorem batches_eq_none_iff {rounds : Nat} {i : Number} :
    batches concurrency page rounds i = none ↔
      ∀ j < rounds, (stepped concurrency i j).lt (.finite page.length) = true := by
  induction rounds generalizing i with
  | zero => exact ⟨fun _ j hj => absurd hj (Nat.not_lt_zero j), fun _ => rfl⟩
  | succ rounds ih =>
    rw [batches]
    by_cases hlt : i.lt (.finite page.length) = true
    · rw [if_pos hlt, Option.map_eq_none_iff, ih]
      constructor
      · intro h j hj
        cases j with
        | zero => exact hlt
        | succ j => exact stepped_succ i j ▸ h j (by omega)
      · intro h j hj
        exact stepped_succ i j ▸ h (j + 1) (by omega)
    · rw [if_neg hlt]
      constructor
      · intro h
        cases h
      · intro h
        exact absurd (h 0 (by omega)) hlt

/-- An index that no further step turns into no number. -/
def Along (concurrency : Number) (i : Number) : Prop :=
  (∃ q, i = .finite q) ∨ ∃ negative, i = .infinity negative ∧ concurrency ≠ .infinity !negative

theorem ite_ne_nan {p : Prop} [Decidable p] {negative : Bool} {q : Rat} :
    (if p then Number.infinity negative else .finite q) ≠ .nan := by
  split <;> nofun

theorem ofRat_ne_nan (q : Rat) : Number.ofRat q ≠ .nan := by
  rw [Number.ofRat]
  exact ite_ne_nan

theorem along_ofRat (q : Rat) {c : Rat} : Along (.finite c) (Number.ofRat q) := by
  cases h : Number.ofRat q with
  | nan => exact absurd h (ofRat_ne_nan q)
  | infinity negative => exact .inr ⟨negative, rfl, nofun⟩
  | finite q => exact .inl ⟨q, rfl⟩

theorem Along.add {i : Number} (hnan : concurrency ≠ .nan) (h : Along concurrency i) :
    Along concurrency (i.add concurrency) := by
  rcases h with ⟨q, rfl⟩ | ⟨negative, rfl, hne⟩
  · cases concurrency with
    | nan => exact absurd rfl hnan
    | infinity negative => exact .inr ⟨negative, rfl, by cases negative <;> nofun⟩
    | finite c => exact along_ofRat (q + c)
  · cases concurrency with
    | nan => exact absurd rfl hnan
    | infinity negative' =>
      have heq : negative = negative' := by
        cases negative <;> cases negative' <;> first | rfl | exact absurd rfl hne
      subst heq
      exact .inr ⟨negative, if_pos rfl, hne⟩
    | finite c => exact .inr ⟨negative, rfl, nofun⟩

theorem place_of_not_lt {i : Number} {length : Nat} (h : Along concurrency i)
    (hlt : ¬ i.lt (.finite length) = true) : place length i = length := by
  rcases h with ⟨q, rfl⟩ | ⟨negative, rfl, -⟩
  · have hle : (length : Rat) ≤ q := by
      simp only [Number.lt, decide_eq_true_eq, not_lt] at hlt
      exact hlt
    have hneg : ¬ q < 0 := not_lt.mpr (le_trans (by exact_mod_cast Nat.zero_le length) hle)
    have hfloor : (length : Int) ≤ q.floor := Rat.le_floor_iff.mpr (by exact_mod_cast hle)
    simp only [place, if_neg hneg, if_neg (show ¬ q.floor < 0 by omega)]
    omega
  · cases negative with
    | true => exact absurd rfl hlt
    | false => rfl

/-- **A loop that ends takes every element** from its start on, if its step is a number.  The slices may
overlap or come in any order, but the first begins at the start, and the last ends behind the end. -/
theorem mem_flatten_batches (hnan : concurrency ≠ .nan) {rounds : Nat} {i : Number} {bs : List (List α)}
    {x : α} (hi : Along concurrency i) (h : batches concurrency page rounds i = some bs)
    (hx : x ∈ page.drop (place page.length i)) : x ∈ bs.flatten := by
  induction rounds generalizing i bs with
  | zero => cases h
  | succ rounds ih =>
    rw [batches] at h
    by_cases hlt : i.lt (.finite page.length) = true
    · rw [if_pos hlt, Option.map_eq_some_iff] at h
      obtain ⟨bs, hbs, rfl⟩ := h
      rw [List.flatten_cons, List.mem_append]
      obtain ⟨n, hn⟩ := List.mem_iff_getElem?.mp hx
      rw [List.getElem?_drop] at hn
      by_cases hnext : place page.length (i.add concurrency) ≤ place page.length i + n
      · right
        refine ih (hi.add hnan) hbs (List.mem_of_getElem? (i := place page.length i + n -
          place page.length (i.add concurrency)) ?_)
        rw [List.getElem?_drop, Nat.add_sub_cancel' hnext, hn]
      · left
        refine List.mem_of_getElem? (i := n) ?_
        rw [slice, List.getElem?_drop, List.getElem?_take_of_lt (Nat.not_le.mp hnext), hn]
    · rw [place_of_not_lt hi hlt, List.drop_length] at hx
      cases hx

theorem mem_of_mem_batches {rounds : Nat} {i : Number} {bs : List (List α)}
    (h : batches concurrency page rounds i = some bs) {x : α} (hx : x ∈ bs.flatten) : x ∈ page := by
  induction rounds generalizing i bs with
  | zero => cases h
  | succ rounds ih =>
    rw [batches] at h
    split at h
    · obtain ⟨bs, hbs, rfl⟩ := Option.map_eq_some_iff.mp h
      rw [List.flatten_cons, List.mem_append] at hx
      rcases hx with hx | hx
      · exact List.mem_of_mem_take (List.mem_of_mem_drop hx)
      · exact ih hbs hx
    · rw [← Option.some.inj h] at hx
      cases hx

end BalanceDriftProcessor

end TransactionSimulator
