import Mathlib.Data.List.Sort
import Mathlib.Order.Basic

/-!
# Pages by key

The rows of a table are read page by page, in the order of their keys.  A page holds the first `n` rows
behind a key (`next`), or the last `n` before one (`previous`).  The key of the last row of a page leads on to
the next page.

* `mem_next_or_behind`: a row behind the key is on the page or behind the last row of it.
* `le_getLast_previous`: backwards, the last row of a page is the next one before the key.
-/

namespace Paging

variable {ρ κ : Type} [LinearOrder κ]

/-- No two rows share their key. -/
def Keyed (key : ρ → κ) (rows : List ρ) : Prop := ∀ a ∈ rows, ∀ b ∈ rows, key a = key b → a = b

/-- The rows of this kind in the order of their keys. -/
def inOrder (key : ρ → κ) (rows : List ρ) (kind : ρ → Bool) : List ρ :=
  (rows.filter kind).insertionSort fun a b => key a ≤ key b

/-- The first `n` rows behind a key; at first, of all. -/
def next (key : ρ → κ) (rows : List ρ) (after : Option κ) (n : Nat) : List ρ :=
  (inOrder key rows fun r => after.all fun k => k < key r).take n

/-- The last `n` rows before a key; at first, of all. -/
def previous (key : ρ → κ) (rows : List ρ) (before : Option κ) (n : Nat) : List ρ :=
  let found := inOrder key rows fun r => before.all fun k => key r < k
  found.drop (found.length - n)

section Order

variable {key : ρ → κ} {rows : List ρ} {kind : ρ → Bool} {r : ρ}

theorem mem_inOrder : r ∈ inOrder key rows kind ↔ r ∈ rows ∧ kind r = true := by
  rw [inOrder, List.mem_insertionSort, List.mem_filter]

theorem pairwise_inOrder : (inOrder key rows kind).Pairwise fun a b => key a ≤ key b := by
  have : Std.Total fun a b : ρ => key a ≤ key b := ⟨fun a b => le_total (key a) (key b)⟩
  have : IsTrans ρ fun a b => key a ≤ key b := ⟨fun _ _ _ hab hbc => hab.trans hbc⟩
  exact List.pairwise_insertionSort _ _

theorem length_inOrder : (inOrder key rows kind).length = rows.countP kind := by
  rw [inOrder, List.length_insertionSort, List.countP_eq_length_filter]

end Order

section Pages

variable {key : ρ → κ} {rows : List ρ} {after : Option κ} {n : Nat} {r last : ρ}

theorem mem_of_mem_next (h : r ∈ next key rows after n) : r ∈ rows ∧ ∀ k ∈ after, k < key r := by
  obtain ⟨hr, hkey⟩ := mem_inOrder.mp (List.mem_of_mem_take h)
  refine ⟨hr, ?_⟩
  intro k hk
  rw [Option.mem_def.mp hk] at hkey
  exact of_decide_eq_true hkey

theorem length_next : (next key rows after n).length =
    min n (rows.countP fun r => after.all fun k => k < key r) := by
  rw [next, List.length_take, length_inOrder]

/-- **A row behind the key** is on the page, or behind every row of it. -/
theorem mem_next_or_behind (hr : r ∈ rows) (hafter : ∀ k ∈ after, k < key r) :
    r ∈ next key rows after n ∨
      (next key rows after n).length = n ∧ ∀ a ∈ next key rows after n, key a ≤ key r := by
  have hmem : r ∈ inOrder key rows fun r => after.all fun k => k < key r := by
    refine mem_inOrder.mpr ⟨hr, ?_⟩
    cases after with
    | none => rfl
    | some k => exact decide_eq_true (hafter k rfl)
  rw [← List.take_append_drop n (inOrder key rows _)] at hmem
  rcases List.mem_append.mp hmem with hmem | hmem
  · exact .inl hmem
  · right
    refine ⟨?_, ?_⟩
    · rw [next, List.length_take]
      have hlt := List.length_pos_of_mem hmem
      rw [List.length_drop] at hlt
      omega
    · intro a ha
      have hpair : (inOrder key rows fun r => after.all fun k => k < key r).Pairwise fun a b => key a ≤ key b :=
        pairwise_inOrder
      rw [← List.take_append_drop n (inOrder key rows _)] at hpair
      exact (List.pairwise_append.mp hpair).2.2 a ha r hmem

/-- A page that is long enough for all rows holds every row behind the key. -/
theorem mem_next_of_le (hle : rows.length ≤ n) (hr : r ∈ rows) (hafter : ∀ k ∈ after, k < key r) :
    r ∈ next key rows after n := by
  have hlength : (inOrder key rows fun r => after.all fun k => k < key r).length ≤ n := by
    rw [length_inOrder]
    exact List.countP_le_length.trans hle
  rw [next, List.take_of_length_le hlength]
  refine mem_inOrder.mpr ⟨hr, ?_⟩
  cases after with
  | none => rfl
  | some k => exact decide_eq_true (hafter k rfl)

theorem le_getLast_next (h : (next key rows after n).getLast? = some last) :
    ∀ a ∈ next key rows after n, key a ≤ key last := by
  intro a ha
  have hpair : (next key rows after n).Pairwise fun a b => key a ≤ key b :=
    pairwise_inOrder.sublist (List.take_sublist _ _)
  obtain ⟨l, hl⟩ := List.getLast?_eq_some_iff.mp h
  rw [hl] at ha hpair
  rcases List.mem_append.mp ha with ha | ha
  · exact (List.pairwise_append.mp hpair).2.2 a ha last (List.mem_singleton_self _)
  · rw [List.mem_singleton.mp ha]

/-- **Once the last row of a page is passed**, so are all rows of it, and no other. -/
theorem mem_next_iff (hkeyed : Keyed key rows) (h : (next key rows after n).getLast? = some last)
    (hr : r ∈ rows) (hafter : ∀ k ∈ after, k < key r) :
    r ∈ next key rows after n ↔ key r ≤ key last := by
  constructor
  · exact le_getLast_next h r
  · intro hle
    rcases mem_next_or_behind (n := n) hr hafter with hmem | ⟨-, hbehind⟩
    · exact hmem
    · have hlast : last ∈ next key rows after n := List.mem_of_getLast? h
      have hkey := le_antisymm hle (hbehind last hlast)
      rw [hkeyed r hr last (mem_of_mem_next hlast).1 hkey]
      exact hlast

theorem nodup_next (hrows : rows.Nodup) : (next key rows after n).Nodup := by
  have hperm : (inOrder key rows fun r => after.all fun k => k < key r).Perm
      (rows.filter fun r => after.all fun k => k < key r) := List.perm_insertionSort _ _
  exact (hperm.nodup_iff.mpr (hrows.filter _)).sublist (List.take_sublist _ _)

variable {before : Option κ}

theorem mem_of_mem_previous (h : r ∈ previous key rows before n) : r ∈ rows ∧ ∀ k ∈ before, key r < k := by
  obtain ⟨hr, hkey⟩ := mem_inOrder.mp (List.mem_of_mem_drop h)
  refine ⟨hr, ?_⟩
  intro k hk
  rw [Option.mem_def.mp hk] at hkey
  exact of_decide_eq_true hkey

theorem length_previous : (previous key rows before n).length =
    min n (rows.countP fun r => before.all fun k => key r < k) := by
  rw [previous, List.length_drop, length_inOrder]
  omega

/-- A page that is not full holds every row before the key. -/
theorem mem_previous_of_lt (h : (previous key rows before n).length < n) (hr : r ∈ rows)
    (hbefore : ∀ k ∈ before, key r < k) : r ∈ previous key rows before n := by
  have hmem : r ∈ inOrder key rows fun r => before.all fun k => key r < k := by
    refine mem_inOrder.mpr ⟨hr, ?_⟩
    cases before with
    | none => rfl
    | some k => exact decide_eq_true (hbefore k rfl)
  have hcount : (inOrder key rows fun r => before.all fun k => key r < k).length =
      rows.countP fun r => before.all fun k => key r < k := length_inOrder
  rw [length_previous, ← hcount] at h
  rw [previous, Nat.sub_eq_zero_of_le (by omega), List.drop_zero]
  exact hmem

/-- **Backwards, every row before the key comes no later than the last row of the page.** -/
theorem le_getLast_previous (h : (previous key rows before n).getLast? = some last) (hr : r ∈ rows)
    (hbefore : ∀ k ∈ before, key r < k) : key r ≤ key last := by
  have hmem : r ∈ inOrder key rows fun r => before.all fun k => key r < k := by
    refine mem_inOrder.mpr ⟨hr, ?_⟩
    cases before with
    | none => rfl
    | some k => exact decide_eq_true (hbefore k rfl)
  have hlast : (inOrder key rows fun r => before.all fun k => key r < k).getLast? = some last := by
    rw [previous, List.getLast?_drop] at h
    split at h
    · cases h
    · exact h
  obtain ⟨l, hl⟩ := List.getLast?_eq_some_iff.mp hlast
  have hpair : (inOrder key rows fun r => before.all fun k => key r < k).Pairwise fun a b => key a ≤ key b :=
    pairwise_inOrder
  rw [hl] at hmem hpair
  rcases List.mem_append.mp hmem with hmem | hmem
  · exact (List.pairwise_append.mp hpair).2.2 r hmem last (List.mem_singleton_self _)
  · rw [List.mem_singleton.mp hmem]

end Pages

end Paging
