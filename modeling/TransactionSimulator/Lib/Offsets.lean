import Mathlib.Algebra.Order.BigOperators.Group.List
import Mathlib.Algebra.Order.Group.Nat
import Mathlib.Data.List.Lattice
import Mathlib.Data.List.Pairwise
import Mathlib.Data.List.Perm.Basic
import Mathlib.Data.List.Sort
import Mathlib.Order.Basic

/-!
# Pages by offset

Rows are read page by page in the order of a key, and each page is cut out at its own place.  Rows with the same
key come in any order, and in another one for the next page.

* `exists_arranged`: a row can stand at every place among those with its key.
* `listsOnce_iff`: the pages list every row once, whatever the orders, exactly if rows with the same key are
  together on a page.
-/

namespace Offsets

variable {ρ κ : Type}

/-- The rows of a page: how many come before it, and how many it has.  A request can be refused. -/
abbrev Cut := Option (Nat × Nat)

namespace Cut

/-- The page has the row at this place. -/
def Has (i : Nat) : Cut → Prop
  | none => False
  | some (skip, take) => skip ≤ i ∧ i < skip + take

def of : Cut → List ρ → List ρ
  | none, _ => []
  | some (skip, take), l => (l.drop skip).take take

theorem of_sublist (c : Cut) (l : List ρ) : (c.of l).Sublist l := by
  cases c with
  | none => exact List.nil_sublist l
  | some c => exact (List.take_sublist _ _).trans (List.drop_sublist _ _)

/-- A row that comes once is on the page that has its place. -/
theorem mem_of_iff {c : Cut} {l : List ρ} {i : Nat} {a : ρ} (hl : l.Nodup) (hi : l[i]? = some a) :
    a ∈ c.of l ↔ c.Has i := by
  cases c with
  | none => exact iff_of_false (by simp [of]) id
  | some c =>
    obtain ⟨skip, take⟩ := c
    have hlt := (List.getElem?_eq_some_iff.mp hi).1
    rw [of, Has, List.mem_iff_getElem?]
    simp only [List.getElem?_take, List.getElem?_drop]
    constructor
    · rintro ⟨j, hj⟩
      split at hj
      · have hsame := (List.getElem?_inj hlt hl).mp (hi.trans hj.symm)
        omega
      · cases hj
    · rintro ⟨hskip, htake⟩
      refine ⟨i - skip, ?_⟩
      rw [if_pos (by omega), Nat.add_sub_cancel' hskip, hi]

end Cut

/-- The first `n` pages, each cut out of an order of its own. -/
def listing (cuts : Nat → Cut) (orders : Nat → List ρ) (n : Nat) : List ρ :=
  (List.range' 1 n).flatMap fun p => (cuts p).of (orders p)

section Listing

variable {cuts : Nat → Cut} {orders : Nat → List ρ} {rows : List ρ} {n : Nat} {a : ρ}

theorem mem_listing : a ∈ listing cuts orders n ↔ ∃ p, (1 ≤ p ∧ p ≤ n) ∧ a ∈ (cuts p).of (orders p) := by
  simp only [listing, List.mem_flatMap, List.mem_range'_1]
  exact exists_congr fun p => and_congr_left fun _ => ⟨fun h => ⟨h.1, by omega⟩, fun h => ⟨h.1, by omega⟩⟩

/-- **A row that is listed once** is on one page. -/
theorem exists_page (hrows : rows.Nodup) (h : ∃ N, ∀ n, N ≤ n → (listing cuts orders n).Perm rows) (ha : a ∈ rows) :
    ∃ p, 1 ≤ p ∧ ∀ q, 1 ≤ q → (a ∈ (cuts q).of (orders q) ↔ q = p) := by
  obtain ⟨N, hN⟩ := h
  obtain ⟨p, ⟨hp, hle⟩, hmem⟩ := mem_listing.mp ((hN N le_rfl).mem_iff.mpr ha)
  refine ⟨p, hp, ?_⟩
  intro q hq
  constructor
  · intro hmem'
    have hnodup := (hN (N + q) (by omega)).nodup_iff.mpr hrows
    have hdisjoint := (List.nodup_flatMap.mp hnodup).2
    have hsymm : Std.Symm (Function.onFun List.Disjoint fun p => (cuts p).of (orders p)) := ⟨fun _ _ => List.Disjoint.symm⟩
    by_contra hne
    have hapart := hdisjoint.forall (List.mem_range'_1.mpr (⟨hq, by omega⟩ : 1 ≤ q ∧ q < 1 + (N + q)))
      (List.mem_range'_1.mpr ⟨hp, by omega⟩) hne
    exact hapart hmem' hmem
  · rintro rfl
    exact hmem

end Listing

/-! ## Orders -/

variable [LinearOrder κ] (key : ρ → κ) (rows : List ρ)

/-- The rows, in an order of their keys. -/
structure Arranged (l : List ρ) : Prop where
  perm : l.Perm rows
  pairwise : l.Pairwise fun a b => key a ≤ key b

/-- How many rows come before all that have the key of this one. -/
def before (a : ρ) : Nat := rows.countP fun b => key b < key a

/-- How many have its key. -/
def ties (a : ρ) : Nat := rows.countP fun b => key b = key a

section Places

variable {key rows} {l : List ρ} {i : Nat} {a : ρ}

/-- **The places of a row** are those of the rows with its key. -/
theorem Arranged.place (h : Arranged key rows l) (hi : l[i]? = some a) :
    before key rows a ≤ i ∧ i < before key rows a + ties key rows a := by
  obtain ⟨hlt, hget⟩ := List.getElem?_eq_some_iff.mp hi
  have hsplit : l = l.take i ++ a :: l.drop (i + 1) := by
    rw [← hget, List.getElem_cons_drop, List.take_append_drop]
  have hpairwise := h.pairwise
  rw [hsplit, List.pairwise_append, List.pairwise_cons] at hpairwise
  obtain ⟨-, ⟨habove, -⟩, hbelow⟩ := hpairwise
  have hlength : (l.take i).length = i := List.length_take_of_le hlt.le
  have hbefore : before key rows a = (l.take i).countP fun b => key b < key a := by
    have hnone : (l.drop (i + 1)).countP (fun b => key b < key a) = 0 :=
      List.countP_eq_zero.mpr fun b hb => by simpa using habove b hb
    rw [before, ← h.perm.countP_eq, congrArg (List.countP _) hsplit, List.countP_append,
      List.countP_cons_of_neg (by simp), hnone, Nat.add_zero]
  have hties : (l.take i).countP (fun b => key b = key a) + 1 ≤ ties key rows a := by
    rw [ties, ← h.perm.countP_eq, congrArg (List.countP _) hsplit, List.countP_append,
      List.countP_cons_of_pos (by simp)]
    omega
  have hall : (l.take i).countP (fun b => key b < key a) + (l.take i).countP (fun b => key b = key a) = i := by
    conv_rhs => rw [← hlength, List.length_eq_countP_add_countP fun b => decide (key b < key a)]
    congr 1
    refine List.countP_congr ?_
    intro b hb
    have hle := hbelow b hb a List.mem_cons_self
    simp only [decide_eq_true_eq, not_lt]
    exact ⟨fun h => h.ge, fun h => le_antisymm hle h⟩
  have hle : (l.take i).countP (fun b => key b < key a) ≤ (l.take i).length := List.countP_le_length
  omega

/-- **Every one of these places** can be taken. -/
theorem exists_arranged (ha : a ∈ rows) (hi : before key rows a ≤ i) (hlt : i < before key rows a + ties key rows a) :
    ∃ l, Arranged key rows l ∧ l[i]? = some a := by
  have htotal : Std.Total fun a b : ρ => key a ≤ key b := ⟨fun a b => le_total (key a) (key b)⟩
  have htrans : IsTrans ρ fun a b => key a ≤ key b := ⟨fun _ _ _ hab hbc => hab.trans hbc⟩
  let below := (rows.filter fun b => key b < key a).insertionSort fun a b => key a ≤ key b
  let rest := rows.filter fun b => !decide (key b < key a)
  let above := (rest.filter fun b => !decide (key b = key a)).insertionSort fun a b => key a ≤ key b
  have hbelow : ∀ b ∈ below, key b < key a := fun b hb => by
    simpa using (List.mem_filter.mp ((List.mem_insertionSort _).mp hb)).2
  have habove : ∀ b ∈ above, key a < key b := fun b hb => by
    have hb' := List.mem_filter.mp ((List.mem_insertionSort _).mp hb)
    have hle : key a ≤ key b := by simpa [rest] using (List.mem_filter.mp hb'.1).2
    have hne : key b ≠ key a := by simpa using hb'.2
    exact lt_of_le_of_ne hle (Ne.symm hne)
  have hmem : a ∈ rest.filter fun b => decide (key b = key a) := by simp [rest, ha]
  have hsame : ∀ b ∈ rest.filter fun b => decide (key b = key a), key b = key a := fun b hb => by
    simpa using (List.mem_filter.mp hb).2
  have hlength : (rest.filter fun b => decide (key b = key a)).length = ties key rows a := by
    rw [ties, List.countP_eq_length_filter, List.filter_filter]
    congr 1
    refine List.filter_congr ?_
    intro b _
    by_cases hb : key b = key a <;> simp [hb]
  -- the row is taken out of those with its key, and put in at its place
  obtain ⟨s, t, hst⟩ := List.append_of_mem hmem
  let others := s ++ t
  let same := others.take (i - before key rows a) ++ a :: others.drop (i - before key rows a)
  have hsamePerm : same.Perm (rest.filter fun b => decide (key b = key a)) := by
    rw [hst]
    refine List.perm_middle.trans (.trans ?_ List.perm_middle.symm)
    rw [List.take_append_drop]
  have hothers : others.length + 1 = ties key rows a := by
    rw [← hlength, hst]
    simp only [others, List.length_append, List.length_cons]
    omega
  have hbeforeLength : below.length = before key rows a := by
    rw [List.length_insertionSort, before, List.countP_eq_length_filter]
  have hkey : ∀ b ∈ same, key b = key a := fun b hb => hsame b (hsamePerm.mem_iff.mp hb)
  refine ⟨below ++ (same ++ above), ⟨?_, ?_⟩, ?_⟩
  · have hrest : (same ++ above).Perm rest :=
      (hsamePerm.append (List.perm_insertionSort _ _)).trans (List.filter_append_perm _ _)
    exact ((List.perm_insertionSort _ _).append hrest).trans (List.filter_append_perm _ _)
  · rw [List.pairwise_append, List.pairwise_append]
    refine ⟨List.pairwise_insertionSort _ _, ⟨?_, List.pairwise_insertionSort _ _, ?_⟩, ?_⟩
    · exact List.pairwise_of_forall_mem_list fun b hb c hc => ((hkey b hb).trans (hkey c hc).symm).le
    · exact fun b hb c hc => (hkey b hb).trans_le (habove c hc).le
    · intro b hb c hc
      rcases List.mem_append.mp hc with hc | hc
      · exact (hbelow b hb).le.trans (hkey c hc).ge
      · exact (hbelow b hb).le.trans (habove c hc).le
  · rw [List.getElem?_append_right (by omega), hbeforeLength, List.append_assoc, List.getElem?_append_right
      (by rw [List.length_take]; omega), List.length_take, Nat.min_eq_left (by omega), Nat.sub_self]
    rfl

end Places

/-! ## The pages -/

/-- The pages list every row exactly once, whatever the order of each. -/
def ListsOnce (cuts : Nat → Cut) : Prop :=
  ∀ orders : Nat → List ρ, (∀ p, Arranged key rows (orders p)) →
    ∃ N, ∀ n, N ≤ n → (listing cuts orders n).Perm rows

/-- All the places that rows with this key can take are on one page, and on no other. -/
def Together (cuts : Nat → Cut) (a : ρ) : Prop :=
  ∃ p, 1 ≤ p ∧ ∀ i, before key rows a ≤ i → i < before key rows a + ties key rows a →
    ∀ q, 1 ≤ q → ((cuts q).Has i ↔ q = p)

variable {key rows} {cuts : Nat → Cut}

theorem ties_pos (key : ρ → κ) {a : ρ} (ha : a ∈ rows) : 0 < ties key rows a :=
  List.countP_pos_iff.mpr ⟨a, ha, by simp⟩

theorem listsOnce_of_together (hrows : rows.Nodup) (h : ∀ a ∈ rows, Together key rows cuts a) :
    ListsOnce key rows cuts := by
  intro orders horders
  have hpage : ∀ a ∈ rows, ∃ p, 1 ≤ p ∧ ∀ q, 1 ≤ q → (a ∈ (cuts q).of (orders q) ↔ q = p) := by
    intro a ha
    obtain ⟨p, hp, hgroup⟩ := h a ha
    refine ⟨p, hp, ?_⟩
    intro q hq
    obtain ⟨i, hi⟩ := List.mem_iff_getElem?.mp ((horders q).perm.mem_iff.mpr ha)
    obtain ⟨hle, hlt⟩ := (horders q).place hi
    rw [Cut.mem_of_iff ((horders q).perm.nodup_iff.mpr hrows) hi, hgroup i hle hlt q hq]
  choose! page hpos hpage using hpage
  refine ⟨(rows.map page).sum, ?_⟩
  intro n hn
  have hmem : ∀ q, ∀ b ∈ (cuts q).of (orders q), b ∈ rows := fun q b hb =>
    (horders q).perm.mem_iff.mp (((cuts q).of_sublist _).mem hb)
  have hnodup : (listing cuts orders n).Nodup := by
    refine List.nodup_flatMap.mpr ⟨?_, ?_⟩
    · exact fun q _ => ((horders q).perm.nodup_iff.mpr hrows).sublist ((cuts q).of_sublist _)
    · refine List.Pairwise.imp_of_mem ?_ (List.nodup_range' (s := 1) (n := n))
      intro q q' hq hq' hne b hb hb'
      have hb₁ := (hpage b (hmem q b hb) q (List.mem_range'_1.mp hq).1).mp hb
      have hb₂ := (hpage b (hmem q b hb) q' (List.mem_range'_1.mp hq').1).mp hb'
      exact hne (hb₁.trans hb₂.symm)
  refine (List.perm_ext_iff_of_nodup hnodup hrows).mpr ?_
  intro b
  rw [mem_listing]
  constructor
  · rintro ⟨q, -, hb⟩
    exact hmem q b hb
  · intro hb
    have hle : page b ≤ (rows.map page).sum := List.single_le_sum (fun _ _ => Nat.zero_le _) _ (List.mem_map_of_mem hb)
    exact ⟨page b, ⟨hpos b hb, by omega⟩, (hpage b hb _ (hpos b hb)).mpr rfl⟩

/-- A row that could stand on two pages is listed twice by some orders. -/
theorem together_of_listsOnce (hrows : rows.Nodup) (h : ListsOnce key rows cuts) {a : ρ} (ha : a ∈ rows) :
    Together key rows cuts a := by
  have hplace : ∀ i, before key rows a ≤ i → i < before key rows a + ties key rows a →
      ∃ l, Arranged key rows l ∧ l[i]? = some a := fun i hle hlt => exists_arranged ha hle hlt
  obtain ⟨l₀, harr₀, hl₀⟩ := hplace (before key rows a) le_rfl (Nat.lt_add_of_pos_right (ties_pos key ha))
  have hnodup : ∀ l, Arranged key rows l → l.Nodup := fun l hl => hl.perm.nodup_iff.mpr hrows
  obtain ⟨p, hp, hpage⟩ := exists_page hrows (h (fun _ => l₀) fun _ => harr₀) ha
  refine ⟨p, hp, ?_⟩
  intro i hle hlt q hq
  obtain ⟨l, harr, hl⟩ := hplace i hle hlt
  -- the page of the first place sees the first order, all others the second
  let orders (q : Nat) : List ρ := if q = p then l₀ else l
  have horders : ∀ q, Arranged key rows (orders q) := fun q => by
    by_cases hqp : q = p
    · simpa only [orders, if_pos hqp] using harr₀
    · simpa only [orders, if_neg hqp] using harr
  obtain ⟨p', -, hpage'⟩ := exists_page hrows (h orders horders) ha
  have hfirst : a ∈ (cuts p).of (orders p) := by
    rw [show orders p = l₀ from if_pos rfl]
    exact (hpage p hp).mpr rfl
  have hp' : p = p' := (hpage' p hp).mp hfirst
  have hother : ∀ q, 1 ≤ q → (cuts q).Has i → q = p := by
    intro q hq hhas
    by_contra hne
    refine hne (((hpage' q hq).mp ?_).trans hp'.symm)
    rw [show orders q = l from if_neg hne]
    exact (Cut.mem_of_iff (hnodup l harr) hl).mpr hhas
  refine ⟨hother q hq, ?_⟩
  rintro rfl
  obtain ⟨r, hr, hpage''⟩ := exists_page hrows (h (fun _ => l) fun _ => harr) ha
  have hhas := (Cut.mem_of_iff (hnodup l harr) hl).mp ((hpage'' r hr).mpr rfl)
  rwa [hother r hr hhas] at hhas

/-- **Pages by offset** list every row once, whatever the orders, exactly if no tie is torn apart. -/
theorem listsOnce_iff (hrows : rows.Nodup) :
    ListsOnce key rows cuts ↔ ∀ a ∈ rows, Together key rows cuts a :=
  ⟨fun h _ ha => together_of_listsOnce hrows h ha, listsOnce_of_together hrows⟩

theorem before_add_ties_le (key : ρ → κ) (rows : List ρ) (a : ρ) : before key rows a + ties key rows a ≤ rows.length := by
  rw [before, ties, List.length_eq_countP_add_countP fun b => decide (key b < key a)]
  refine Nat.add_le_add_left (List.countP_mono_left ?_) _
  intro b _ hb
  rw [of_decide_eq_true hb]
  simp

/-- **Pages of one size**: rows with the same key are together if the first and the last of their places are. -/
theorem together_iff_div {size : Nat} (bound : Nat)
    (hcuts : ∀ p i, 1 ≤ p → i < bound → ((cuts p).Has i ↔ p = i / size + 1)) (hrows : rows.length ≤ bound) {a : ρ}
    (ha : a ∈ rows) :
    Together key rows cuts a ↔
      before key rows a / size = (before key rows a + ties key rows a - 1) / size := by
  have hpos := ties_pos key ha
  have hplaces := before_add_ties_le key rows a
  rw [Together]
  generalize before key rows a = first at hplaces ⊢
  generalize ties key rows a = n at hplaces hpos ⊢
  constructor
  · rintro ⟨p, hp, h⟩
    have hfirst := (hcuts p first hp (by omega)).mp ((h first le_rfl (by omega) p hp).mpr rfl)
    have hlast := (hcuts p (first + n - 1) hp (by omega)).mp ((h (first + n - 1) (by omega) (by omega) p hp).mpr rfl)
    omega
  · intro h
    refine ⟨first / size + 1, Nat.le_add_left 1 _, ?_⟩
    intro i hi hlt q hq
    have hle : first / size ≤ i / size := Nat.div_le_div_right hi
    have hge : i / size ≤ (first + n - 1) / size := Nat.div_le_div_right (by omega)
    rw [hcuts q i hq (by omega)]
    omega

end Offsets
