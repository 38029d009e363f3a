import Mathlib.Data.List.Sort
import Mathlib.Data.List.Pairwise

/-!
# Tables with unique keys

A relational table as the list of its rows.  A row `r` occupies the keys `keys r`, one for
every unique column (or unique combination of columns) that is not null in it, and no two rows
of a table share a key.  The constraint is a field of `Table`, so a table that breaks it cannot
be built: `insert` and `updateMany` answer `none` where the database would refuse the statement.

* `Table.get`: the row that occupies a key, if there is one (`get_eq_some_iff`).
* `Table.insert`, `Table.updateMany`, `Table.deleteMany`: the writing statements.
* `Table.findMany`, `Table.findFirst`: rows that satisfy a condition, in the order of a column.
-/

namespace Relational

section Sorting

variable {α : Type} {r : α → α → Prop}

theorem filter_orderedInsert [DecidableRel r] [IsTrans α r] (p : α → Bool) (a : α) {l : List α} (hl : l.Pairwise r) :
    (l.orderedInsert r a).filter p = if p a then (l.filter p).orderedInsert r a else l.filter p := by
  induction l with
  | nil => by_cases hp : p a <;> simp [hp]
  | cons b l ih =>
    obtain ⟨hb, hl⟩ := List.pairwise_cons.mp hl
    by_cases hab : r a b
    · -- everything in the list is above `a`
      have hall : ∀ c ∈ (b :: l).filter p, r a c := by
        intro c hc
        rcases List.mem_cons.mp (List.mem_filter.mp hc).1 with hc | hc
        · exact hc ▸ hab
        · exact trans_of r hab (hb c hc)
      rw [List.orderedInsert_cons_of_le r l hab, List.filter_cons]
      split
      · cases hfilter : (b :: l).filter p with
        | nil => rfl
        | cons c m =>
          rw [hfilter] at hall
          rw [List.orderedInsert_cons_of_le r m (hall c (by simp))]
      · rfl
    · rw [List.orderedInsert_of_not_le r l hab, List.filter_cons, ih hl, List.filter_cons]
      by_cases hp : p a <;> by_cases hpb : p b <;> simp [hp, hpb, hab]

theorem filter_insertionSort [DecidableRel r] [Std.Total r] [IsTrans α r] (p : α → Bool) (l : List α) :
    (l.insertionSort r).filter p = (l.filter p).insertionSort r := by
  induction l with
  | nil => rfl
  | cons a l ih =>
    rw [List.insertionSort_cons, filter_orderedInsert p a (List.pairwise_insertionSort r l), ih,
      List.filter_cons]
    split <;> rfl

/-- A sorted list, cut where a condition ends that holds below what it holds of. -/
theorem filter_append_filter_not {p : α → Bool} (hp : ∀ a b, r a b → p b = true → p a = true) {l : List α}
    (hl : l.Pairwise r) : l.filter p ++ l.filter (fun a => !p a) = l := by
  induction l with
  | nil => rfl
  | cons a l ih =>
    obtain ⟨ha, hl⟩ := List.pairwise_cons.mp hl
    cases hpa : p a with
    | true => simp [hpa, ih hl]
    | false =>
      have hnone : ∀ b ∈ l, p b = false := by
        intro b hb
        cases hpb : p b with
        | false => rfl
        | true => rw [hp a b (ha b hb) hpb] at hpa; cases hpa
      have hfilter : l.filter p = [] := List.filter_eq_nil_iff.mpr fun b hb => by simp [hnone b hb]
      have hfilter' : l.filter (fun a => !p a) = l := List.filter_eq_self.mpr fun b hb => by simp [hnone b hb]
      simp [hpa, hfilter, hfilter']

end Sorting

/-- A table of rows `ρ` in which the row `r` occupies the unique keys `keys r`. -/
structure Table (ρ κ : Type) (keys : ρ → List κ) where
  rows : List ρ
  unique : rows.Pairwise fun a b => List.Disjoint (keys a) (keys b)

namespace Table

variable {ρ κ : Type} {keys : ρ → List κ}

/-- The rows after `data` has been written to those that satisfy `cond`. -/
def written (t : Table ρ κ keys) (cond : ρ → Bool) (data : ρ → ρ) : List ρ :=
  t.rows.map fun r => if cond r then data r else r

/-- Ascending order, with null after every value. -/
def ascNullsLast : Option Nat → Option Nat → Prop
  | _, none => True
  | none, some _ => False
  | some a, some b => a ≤ b

instance (a b : Option Nat) : Decidable (ascNullsLast a b) :=
  match a, b with
  | _, none => .isTrue trivial
  | none, some _ => .isFalse id
  | some a, some b => inferInstanceAs (Decidable (a ≤ b))

instance : Std.Total ascNullsLast where
  total a b := by
    cases a <;> cases b <;> simp [ascNullsLast, Nat.le_total]

instance : IsTrans (Option Nat) ascNullsLast where
  trans a b c hab hbc := by
    cases a <;> cases b <;> cases c <;> simp_all [ascNullsLast]
    omega

instance (orderBy : ρ → Option Nat) : Std.Total fun a b => ascNullsLast (orderBy a) (orderBy b) :=
  ⟨fun a b => total_of ascNullsLast (orderBy a) (orderBy b)⟩

instance (orderBy : ρ → Option Nat) : IsTrans ρ fun a b => ascNullsLast (orderBy a) (orderBy b) :=
  ⟨fun _ _ _ hab hbc => trans_of ascNullsLast hab hbc⟩

/-- The rows that satisfy `cond`, by ascending `orderBy`. -/
def sorted (t : Table ρ κ keys) (cond : ρ → Bool) (orderBy : ρ → Option Nat) : List ρ :=
  (t.rows.filter cond).insertionSort fun a b => ascNullsLast (orderBy a) (orderBy b)

/-- The first `take` of these rows. -/
def findMany (t : Table ρ κ keys) (cond : ρ → Bool) (orderBy : ρ → Option Nat) (take : Nat) :
    List ρ :=
  (t.sorted cond orderBy).take take

/-- The first of them. -/
def findFirst (t : Table ρ κ keys) (cond : ρ → Bool) (orderBy : ρ → Option Nat) : Option ρ :=
  (t.sorted cond orderBy).head?

/-- The table without the rows that satisfy `cond`. -/
def deleteMany (t : Table ρ κ keys) (cond : ρ → Bool) : Table ρ κ keys :=
  ⟨t.rows.filter fun r => !cond r, t.unique.filter _⟩

/-- The same rows in another order. -/
def reordered (t : Table ρ κ keys) {rows : List ρ} (h : rows.Perm t.rows) : Table ρ κ keys :=
  ⟨rows, t.unique.perm h.symm fun hdisjoint _ hb ha => hdisjoint ha hb⟩

theorem nodup_rows (t : Table ρ κ keys) (hkeys : ∀ r, keys r ≠ []) : t.rows.Nodup := by
  refine t.unique.imp ?_
  rintro a b hdisjoint rfl
  obtain ⟨k, hk⟩ := List.exists_mem_of_ne_nil _ (hkeys a)
  exact hdisjoint hk hk

theorem mem_deleteMany {t : Table ρ κ keys} {cond : ρ → Bool} {r : ρ} :
    r ∈ (t.deleteMany cond).rows ↔ r ∈ t.rows ∧ cond r = false := by
  simp [deleteMany]

theorem mem_written {t : Table ρ κ keys} {cond : ρ → Bool} {data : ρ → ρ} {r : ρ} :
    r ∈ t.written cond data ↔ ∃ s ∈ t.rows, (if cond s then data s else s) = r := by
  rw [written, List.mem_map]

theorem mem_sorted (t : Table ρ κ keys) {cond : ρ → Bool} {orderBy : ρ → Option Nat} {r : ρ} :
    r ∈ t.sorted cond orderBy ↔ r ∈ t.rows ∧ cond r = true := by
  rw [sorted, List.mem_insertionSort, List.mem_filter]

theorem mem_findMany (t : Table ρ κ keys) {cond : ρ → Bool} {orderBy : ρ → Option Nat}
    {take : Nat} {r : ρ} (h : r ∈ t.findMany cond orderBy take) : r ∈ t.rows ∧ cond r = true :=
  t.mem_sorted.mp (List.mem_of_mem_take h)

theorem mem_findMany_of_length_le (t : Table ρ κ keys) {cond : ρ → Bool} (orderBy : ρ → Option Nat)
    {take : Nat} (hlen : (t.rows.filter cond).length ≤ take) {r : ρ} (hr : r ∈ t.rows)
    (hc : cond r = true) : r ∈ t.findMany cond orderBy take := by
  have htake : (t.sorted cond orderBy).length ≤ take := by
    rw [sorted, List.length_insertionSort]
    exact hlen
  rw [findMany, List.take_of_length_le htake, mem_sorted]
  exact ⟨hr, hc⟩

/-- The first row answers a search unless no row satisfies the condition. -/
theorem findFirst_isSome_iff (t : Table ρ κ keys) {cond : ρ → Bool}
    {orderBy : ρ → Option Nat} :
    (t.findFirst cond orderBy).isSome = true ↔ ∃ r ∈ t.rows, cond r = true := by
  rw [findFirst, List.isSome_head?]
  constructor
  · intro h
    obtain ⟨r, hr⟩ := List.exists_mem_of_ne_nil _ h
    exact ⟨r, t.mem_sorted.mp hr⟩
  · rintro ⟨r, hr⟩
    exact List.ne_nil_of_mem (t.mem_sorted.mpr hr)

theorem eq_of_mem_keys (t : Table ρ κ keys) {a b : ρ} (ha : a ∈ t.rows) (hb : b ∈ t.rows) {k : κ}
    (hka : k ∈ keys a) (hkb : k ∈ keys b) : a = b := by
  by_contra hne
  have hsymm : Std.Symm fun a b : ρ => List.Disjoint (keys a) (keys b) :=
    ⟨fun _ _ h _ hb ha => h ha hb⟩
  exact (t.unique.forall ha hb hne) hka hkb

/-! ## Statements -/

variable [DecidableEq κ]

instance decidableDisjoint (l m : List κ) : Decidable (List.Disjoint l m) :=
  decidable_of_iff (∀ a ∈ l, a ∉ m) ⟨fun h _ hl hm => h _ hl hm, fun h _ hl hm => h hl hm⟩

/-- The table without rows. -/
def empty : Table ρ κ keys := ⟨[], .nil⟩

/-- The row that occupies the key `k`. -/
def get (t : Table ρ κ keys) (k : κ) : Option ρ := t.rows.find? fun r => decide (k ∈ keys r)

/-- Adds a row, unless one of its keys is taken. -/
def insert (t : Table ρ κ keys) (r : ρ) : Option (Table ρ κ keys) :=
  if h : (t.rows ++ [r]).Pairwise fun a b => List.Disjoint (keys a) (keys b) then
    some ⟨t.rows ++ [r], h⟩
  else none

/-- Writes `data` to every row that satisfies `cond`, and counts them.  The statement is refused
as a whole if two rows would share a key afterwards. -/
def updateMany (t : Table ρ κ keys) (cond : ρ → Bool) (data : ρ → ρ) :
    Option (Table ρ κ keys × Nat) :=
  if h : (t.written cond data).Pairwise fun a b => List.Disjoint (keys a) (keys b) then
    some (⟨t.written cond data, h⟩, t.rows.countP cond)
  else none

/-! ## Lookup -/

@[simp] theorem get_empty (k : κ) : (empty : Table ρ κ keys).get k = none := rfl

theorem get_eq_some_iff (t : Table ρ κ keys) {k : κ} {r : ρ} :
    t.get k = some r ↔ r ∈ t.rows ∧ k ∈ keys r := by
  constructor
  · intro h
    exact ⟨List.mem_of_find?_eq_some h, by simpa using List.find?_some h⟩
  · rintro ⟨hr, hk⟩
    cases hf : t.get k with
    | none =>
      have := List.find?_eq_none.mp hf r hr
      simp [hk] at this
    | some s =>
      have hs : k ∈ keys s := by simpa using List.find?_some hf
      rw [t.eq_of_mem_keys (List.mem_of_find?_eq_some hf) hr hs hk]

theorem get_eq_none_iff (t : Table ρ κ keys) {k : κ} :
    t.get k = none ↔ ∀ r ∈ t.rows, k ∉ keys r := by
  simp [get]

/-! ## Insertion -/

theorem insert_rows {t t' : Table ρ κ keys} {r : ρ} (h : t.insert r = some t') :
    t'.rows = t.rows ++ [r] := by
  rw [insert] at h
  split at h
  · rw [← Option.some.inj h]
  · cases h

theorem get_insert {t t' : Table ρ κ keys} {r : ρ} (h : t.insert r = some t') (k : κ) :
    t'.get k = (t.get k).or (if k ∈ keys r then some r else none) := by
  rw [get, insert_rows h, List.find?_append, get, List.find?_singleton]
  simp

theorem get_of_insert {t t' : Table ρ κ keys} {r : ρ} (h : t.insert r = some t') {k : κ}
    (hk : k ∈ keys r) : t.get k = none := by
  have hu := t'.unique
  rw [insert_rows h, List.pairwise_append] at hu
  rw [get_eq_none_iff]
  intro s hs hks
  exact hu.2.2 s hs r (by simp) hks hk

theorem insert_isSome (t : Table ρ κ keys) {r : ρ} (h : ∀ k ∈ keys r, t.get k = none) :
    ∃ t', t.insert r = some t' := by
  have hu : (t.rows ++ [r]).Pairwise fun a b => List.Disjoint (keys a) (keys b) := by
    rw [List.pairwise_append]
    refine ⟨t.unique, List.pairwise_singleton _ _, ?_⟩
    intro a ha b hb k hka hkb
    rw [List.mem_singleton] at hb
    subst hb
    exact (t.get_eq_none_iff.mp (h k hkb)) a ha hka
  exact ⟨_, dif_pos hu⟩

/-! ## Updates -/

theorem updateMany_eq_some {t t' : Table ρ κ keys} {cond : ρ → Bool} {data : ρ → ρ} {n : Nat}
    (h : t.updateMany cond data = some (t', n)) :
    t'.rows = t.written cond data ∧ n = t.rows.countP cond := by
  rw [updateMany] at h
  split at h
  · cases h
    exact ⟨rfl, rfl⟩
  · cases h

/-- **An update seen through a key that it does not move**: the row under `k` is rewritten if it
satisfies the condition, and every other row is as it was. -/
theorem get_updateMany {t t' : Table ρ κ keys} {cond : ρ → Bool} {data : ρ → ρ} {n : Nat}
    (h : t.updateMany cond data = some (t', n)) {k : κ}
    (hk : ∀ r, k ∈ keys (data r) ↔ k ∈ keys r) :
    t'.get k = (t.get k).map fun r => if cond r then data r else r := by
  rw [get, (updateMany_eq_some h).1, written, List.find?_map, get]
  have hsame : (fun r => decide (k ∈ keys r)) ∘ (fun r => if cond r then data r else r)
      = fun r => decide (k ∈ keys r) := by
    funext r
    simp only [Function.comp]
    split
    · simp only [hk r]
    · rfl
  rw [hsame]

/-- An update that matches no row changes nothing. -/
theorem updateMany_of_forall_not (t : Table ρ κ keys) {cond : ρ → Bool} (data : ρ → ρ)
    (h : ∀ r ∈ t.rows, ¬ cond r = true) : t.updateMany cond data = some (t, 0) := by
  have hwritten : t.written cond data = t.rows := by
    rw [written]
    conv_rhs => rw [← List.map_id t.rows]
    refine List.map_congr_left ?_
    intro r hr
    rw [if_neg (h r hr)]
    rfl
  have hcount : t.rows.countP cond = 0 := List.countP_eq_zero.mpr h
  rw [updateMany, dif_pos (by rw [hwritten]; exact t.unique)]
  simp only [hwritten, hcount]

/-- Under a condition that names a key, an update matches at most the row under that key. -/
theorem countP_eq_of_key (t : Table ρ κ keys) {cond : ρ → Bool} {k : κ}
    (hcond : ∀ r, cond r = true → k ∈ keys r) :
    t.rows.countP cond = if (t.get k).any cond then 1 else 0 := by
  cases hg : t.get k with
  | none =>
    rw [get_eq_none_iff] at hg
    rw [if_neg (by simp), List.countP_eq_zero]
    intro r hr hc
    exact hg r hr (hcond r hc)
  | some r =>
    rw [get_eq_some_iff] at hg
    have hcount : ∀ l : List ρ, l.Pairwise (fun a b => List.Disjoint (keys a) (keys b)) →
        (∀ s ∈ l, cond s = true → s = r) → r ∈ l →
        l.countP cond = if cond r then 1 else 0 := by
      intro l
      induction l with
      | nil => intro _ _ hr; simp at hr
      | cons a l ih =>
        intro hp hs hr
        rw [List.pairwise_cons] at hp
        by_cases hra : a = r
        · -- the row itself: no later row shares its key, so none matches
          subst hra
          have hzero : l.countP cond = 0 := by
            rw [List.countP_eq_zero]
            intro s hsl hc
            have := hs s (List.mem_cons_of_mem _ hsl) hc
            subst this
            exact hp.1 s hsl hg.2 hg.2
          rw [List.countP_cons, hzero, Nat.zero_add]
        · have hca : cond a = false := by
            cases hc : cond a with
            | false => rfl
            | true => exact absurd (hs a (by simp) hc) hra
          have hrl : r ∈ l := by
            rcases List.mem_cons.mp hr with he | hl
            · exact absurd he.symm hra
            · exact hl
          rw [List.countP_cons, hca, ih hp.2 (fun s hs' => hs s (List.mem_cons_of_mem _ hs')) hrl]
          simp
    rw [hcount t.rows t.unique (fun s hs hc => t.eq_of_mem_keys hs hg.1 (hcond s hc) hg.2) hg.1]
    simp

/-- An update that moves no key is never refused. -/
theorem updateMany_isSome (t : Table ρ κ keys) (cond : ρ → Bool) (data : ρ → ρ)
    (hk : ∀ r, cond r = true → keys (data r) = keys r) :
    ∃ t' n, t.updateMany cond data = some (t', n) := by
  have hu : (t.written cond data).Pairwise fun a b => List.Disjoint (keys a) (keys b) := by
    rw [written, List.pairwise_map]
    refine t.unique.imp ?_
    intro a b hab
    have hkey : ∀ r, keys (if cond r then data r else r) = keys r := by
      intro r
      split
      · next hc => exact hk r hc
      · rfl
    rw [hkey a, hkey b]
    exact hab
  exact ⟨_, _, dif_pos hu⟩

/-- An update of the row under a key is refused exactly if another row has a key of the new row. -/
theorem updateMany_isSome_iff (t : Table ρ κ keys) {cond : ρ → Bool} {data : ρ → ρ} {k : κ} {r : ρ}
    (hcond : ∀ s, cond s = true ↔ k ∈ keys s) (hr : t.get k = some r) :
    (∃ t' n, t.updateMany cond data = some (t', n)) ↔
      ∀ s ∈ t.rows, s ≠ r → List.Disjoint (keys (data r)) (keys s) := by
  obtain ⟨hmem, hkey⟩ := t.get_eq_some_iff.mp hr
  have hrow : (if cond r = true then data r else r) = data r := if_pos ((hcond r).mpr hkey)
  have hother : ∀ s ∈ t.rows, s ≠ r → (if cond s = true then data s else s) = s := by
    intro s hs hne
    refine if_neg fun hc => hne ?_
    exact t.eq_of_mem_keys hs hmem ((hcond s).mp hc) hkey
  have hiff : (∃ t' n, t.updateMany cond data = some (t', n)) ↔ t.rows.Pairwise fun a b =>
      List.Disjoint (keys (if cond a = true then data a else a)) (keys (if cond b = true then data b else b)) := by
    rw [← List.pairwise_map (f := fun a => if cond a = true then data a else a)
      (R := fun a b => List.Disjoint (keys a) (keys b)), ← written, updateMany]
    constructor
    · intro h
      obtain ⟨t', n, h⟩ := h
      split at h
      · next hu => exact hu
      · cases h
    · intro hu
      exact ⟨_, _, dif_pos hu⟩
  rw [hiff]
  constructor
  · intro h s hs hne
    have : Std.Symm fun a b => List.Disjoint (keys (if cond a = true then data a else a))
        (keys (if cond b = true then data b else b)) := ⟨fun _ _ h k hb ha => h ha hb⟩
    have hpair := h.forall hmem hs (Ne.symm hne)
    rwa [hrow, hother s hs hne] at hpair
  · intro h
    refine t.unique.imp_of_mem ?_
    intro a b ha hb hab
    by_cases har : a = r
    · have hbr : b ≠ r := by
        intro hbr
        exact hab (har ▸ hkey) (hbr ▸ hkey)
      rw [har, hrow, hother b hb hbr]
      exact h b hb hbr
    · rw [hother a ha har]
      by_cases hbr : b = r
      · rw [hbr, hrow]
        exact fun k hka hkr => h a ha har hkr hka
      · rw [hother b hb hbr]
        exact hab

end Table

end Relational
