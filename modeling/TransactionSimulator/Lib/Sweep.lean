import Mathlib.Data.Set.Lattice
import Mathlib.Data.List.Nodup

/-!
# Sweeps over the front of a list

Items wait in a list, and a sweep visits the first `k` of them in turn.  An item that asks for a key leaves
the list if the key is not taken yet, and takes it; an item that asks for none leaves unless it is blocked.

* `left`: what is left of a list once all of it has been visited.
* `Sweep`: one sweep.  What is left of the items before a given one is the same before and after it
  (`Sweep.unreached`), so an item is reached if and only if fewer than `k` are left before it.
-/

namespace Sweeping

variable {α κ : Type} {key : α → Option κ} {blocked : α → Prop}

/-- The keys that the items ask for. -/
def keysOf (key : α → Option κ) (l : List α) : Set κ := { k | ∃ x ∈ l, key x = some k }

@[simp] theorem keysOf_nil : keysOf key [] = ∅ := by
  ext k
  simp [keysOf]

theorem keysOf_append (l l' : List α) : keysOf key (l ++ l') = keysOf key l ∪ keysOf key l' := by
  ext k
  simp only [keysOf, List.mem_append, Set.mem_ofPred_eq, Set.mem_union, or_and_right, exists_or]

theorem keysOf_cons (x : α) (l : List α) : keysOf key (x :: l) = keysOf key [x] ∪ keysOf key l :=
  keysOf_append [x] l

theorem keysOf_mono {l l' : List α} (h : l ⊆ l') : keysOf key l ⊆ keysOf key l' := by
  intro k hk
  obtain ⟨x, hx, hkey⟩ := hk
  exact ⟨x, h hx, hkey⟩

/-- A visit does not remove the item. -/
def Held (key : α → Option κ) (blocked : α → Prop) (taken : Set κ) (x : α) : Prop :=
  match key x with
  | some k => k ∈ taken
  | none => blocked x

open Classical in
/-- What is left of the items when they are visited in turn. -/
noncomputable def left (key : α → Option κ) (blocked : α → Prop) (taken : Set κ) : List α → List α
  | [] => []
  | x :: xs =>
    if Held key blocked taken x then x :: left key blocked (taken ∪ keysOf key [x]) xs
    else left key blocked (taken ∪ keysOf key [x]) xs

theorem left_append (taken : Set κ) (l l' : List α) :
    left key blocked taken (l ++ l') =
      left key blocked taken l ++ left key blocked (taken ∪ keysOf key l) l' := by
  induction l generalizing taken with
  | nil => simp [left]
  | cons x l ih =>
    rw [List.cons_append, left, left, ih, keysOf_cons x l, Set.union_assoc]
    split <;> rfl

theorem left_sublist (taken : Set κ) (l : List α) : (left key blocked taken l).Sublist l := by
  induction l generalizing taken with
  | nil => exact List.Sublist.refl _
  | cons x l ih =>
    rw [left]
    split
    · exact (ih _).cons_cons x
    · exact (ih _).cons x

/-- Only the keys that the items ask for matter. -/
theorem left_congr {taken taken' : Set κ} {l : List α}
    (h : ∀ k ∈ keysOf key l, (k ∈ taken ↔ k ∈ taken')) :
    left key blocked taken l = left key blocked taken' l := by
  induction l generalizing taken taken' with
  | nil => rfl
  | cons x l ih =>
    have hx : Held key blocked taken x ↔ Held key blocked taken' x := by
      unfold Held
      split
      · next k hk => exact h k ⟨x, by simp, hk⟩
      · rfl
    have hl : left key blocked (taken ∪ keysOf key [x]) l = left key blocked (taken' ∪ keysOf key [x]) l := by
      refine ih ?_
      intro k hk
      rw [Set.mem_union, Set.mem_union, h k (keysOf_mono (by simp) hk)]
    rw [left, left, hl]
    by_cases hheld : Held key blocked taken x
    · rw [if_pos hheld, if_pos (hx.mp hheld)]
    · rw [if_neg hheld, if_neg fun h => hheld (hx.mpr h)]

/-- What is left stays. -/
theorem left_left {taken taken' : Set κ} {l : List α} (h : taken ∪ keysOf key l ⊆ taken') :
    left key blocked taken' (left key blocked taken l) = left key blocked taken l := by
  induction l generalizing taken taken' with
  | nil => rfl
  | cons x l ih =>
    have hx : Held key blocked taken x → Held key blocked taken' x := by
      unfold Held
      split
      · exact fun hk => h (.inl hk)
      · exact id
    have hl : taken ∪ keysOf key [x] ∪ keysOf key l ⊆ taken' := by
      rw [Set.union_assoc, ← keysOf_cons]
      exact h
    rw [left]
    split
    · next hheld =>
      rw [left, if_pos (hx hheld), ih (hl.trans Set.subset_union_left)]
    · exact ih hl

/-- The item is one of those left: its key is taken, or an item before it asks for it too; or it is
blocked. -/
def Remains (key : α → Option κ) (blocked : α → Prop) (taken : Set κ) (l : List α) (x : α) : Prop :=
  match key x with
  | some k => k ∈ taken ∨ ∃ y, [y, x].Sublist l ∧ key y = some k
  | none => blocked x

open Classical in
/-- **What is left, item by item.** -/
theorem left_eq_filter (taken : Set κ) {l : List α} (hl : l.Nodup) :
    left key blocked taken l = l.filter fun x => Remains key blocked taken l x := by
  induction l generalizing taken with
  | nil => rfl
  | cons x l ih =>
    obtain ⟨hx, hl⟩ := List.nodup_cons.mp hl
    have hhead : Remains key blocked taken (x :: l) x ↔ Held key blocked taken x := by
      have hnone : ∀ y, ¬ [y, x].Sublist (x :: l) := by
        intro y hsub
        rcases List.cons_sublist_cons'.mp hsub with hsub | hsub
        · exact hx (hsub.subset (by simp))
        · exact hx (List.singleton_sublist.mp hsub.2)
      unfold Remains Held
      split
      · simp only [hnone, false_and, exists_false, or_false]
      · rfl
    have htail : ∀ z ∈ l, (Remains key blocked (taken ∪ keysOf key [x]) l z ↔
        Remains key blocked taken (x :: l) z) := by
      intro z hz
      unfold Remains
      split
      · next k hk =>
        constructor
        · intro h
          rcases h with (h | ⟨y, hy, hkey⟩) | ⟨y, hy, hkey⟩
          · exact .inl h
          · rw [List.mem_singleton.mp hy] at hkey
            exact .inr ⟨x, (List.singleton_sublist.mpr hz).cons_cons x, hkey⟩
          · exact .inr ⟨y, hy.cons x, hkey⟩
        · intro h
          rcases h with h | ⟨y, hy, hkey⟩
          · exact .inl (.inl h)
          · rcases List.cons_sublist_cons'.mp hy with hy | hy
            · exact .inr ⟨y, hy, hkey⟩
            · rw [hy.1] at hkey
              exact .inl (.inr ⟨x, by simp, hkey⟩)
      · rfl
    rw [left, List.filter_cons, ih _ hl]
    have hfilter : l.filter (fun z => decide (Remains key blocked (taken ∪ keysOf key [x]) l z)) =
        l.filter fun z => decide (Remains key blocked taken (x :: l) z) :=
      List.filter_congr fun z hz => decide_eq_decide.mpr (htail z hz)
    rw [hfilter]
    by_cases hheld : Held key blocked taken x
    · rw [if_pos hheld, if_pos (by simpa using hhead.mpr hheld)]
    · rw [if_neg hheld, if_neg (by simpa using fun h => hheld (hhead.mp h))]

/-! ## Sweeps -/

/-- **One sweep**: the first `k` items are visited; what they ask for is taken, and nothing else that an
item not visited asks for. -/
structure Sweep (key : α → Option κ) (blocked : α → Prop) (k : Nat) (taken : Set κ) (l : List α)
    (taken' : Set κ) (l' : List α) : Prop where
  rest : l' = left key blocked taken (l.take k) ++ l.drop k
  visited : taken ∪ keysOf key (l.take k) ⊆ taken'
  others : ∀ x ∈ l.drop k, ∀ c, key x = some c → c ∈ taken' → c ∈ taken ∪ keysOf key (l.take k)

section Sweep

variable {k : Nat} {taken taken' : Set κ} {l l' before after : List α} {t : α}

/-- An item among the first `k` that nothing holds is gone. -/
theorem Sweep.reached (h : Sweep key blocked k taken l taken' l') (hl : l = before ++ t :: after)
    (hnodup : l.Nodup) (hk : before.length < k) (hkey : key t = none) (hblocked : ¬ blocked t) : t ∉ l' := by
  have hsplit : l.take k = before ++ t :: after.take (k - before.length - 1) := by
    rw [hl, List.take_append, List.take_of_length_le hk.le]
    obtain ⟨n, hn⟩ : ∃ n, k - before.length = n + 1 := ⟨k - before.length - 1, by omega⟩
    rw [hn, List.take_succ_cons, Nat.add_sub_cancel]
  have hbefore : t ∉ before ∧ t ∉ after := by
    rw [hl, List.nodup_append, List.nodup_cons] at hnodup
    exact ⟨fun h => hnodup.2.2 t h t (by simp) rfl, hnodup.2.1.1⟩
  have hnot : ¬ Held key blocked (taken ∪ keysOf key before) t := by
    unfold Held
    rw [hkey]
    exact hblocked
  intro hmem
  rw [h.rest, List.mem_append] at hmem
  rcases hmem with hmem | hmem
  · rw [hsplit, left_append, left, if_neg hnot, List.mem_append] at hmem
    rcases hmem with hmem | hmem
    · exact hbefore.1 ((left_sublist _ _).subset hmem)
    · exact hbefore.2 (List.mem_of_mem_take ((left_sublist _ _).subset hmem))
  · have hdisjoint := List.disjoint_take_drop hnodup (le_refl k)
    refine hdisjoint (by rw [hsplit]; simp) hmem

/-- **What is left before an item that is not reached** does not change, and fewer items are before it if
fewer than `k` are left. -/
theorem Sweep.unreached (h : Sweep key blocked k taken l taken' l') (hl : l = before ++ t :: after)
    (hk : k ≤ before.length) : ∃ before', l' = before' ++ t :: after ∧
      left key blocked taken' before' = left key blocked taken before ∧
      ((left key blocked taken before).length < k → before'.length < before.length) := by
  have htake : l.take k = before.take k := by rw [hl, List.take_append_of_le_length hk]
  have hdrop : l.drop k = before.drop k ++ t :: after := by rw [hl, List.drop_append_of_le_length hk]
  have hparts : left key blocked taken before = left key blocked taken (before.take k) ++
      left key blocked (taken ∪ keysOf key (before.take k)) (before.drop k) := by
    rw [← left_append, List.take_append_drop]
  refine ⟨left key blocked taken (before.take k) ++ before.drop k, ?_, ?_, ?_⟩
  · rw [h.rest, htake, hdrop, List.append_assoc]
  · have hvisited := h.visited
    rw [htake] at hvisited
    rw [left_append, left_left hvisited, hparts]
    congr 1
    refine left_congr ?_
    intro c hc
    constructor
    · intro hmem
      obtain ⟨x, hx, hkey⟩ := hc
      rcases hmem with hmem | ⟨y, hy, hy'⟩
      · have := h.others x (by rw [hdrop]; simp [hx]) c hkey hmem
        rwa [htake] at this
      · exact .inr ⟨y, (left_sublist _ _).subset hy, hy'⟩
    · exact fun hmem => .inl (hvisited hmem)
  · intro hleft
    rw [hparts, List.length_append] at hleft
    rw [List.length_append, List.length_drop]
    omega

end Sweep

end Sweeping
