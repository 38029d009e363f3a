import Mathlib.Algebra.Ring.Rat
import Mathlib.Data.Nat.Cast.Basic
import TransactionSimulator.Api.Isolation
import TransactionSimulator.Lib.Offsets

/-!
# The pages of `GET /transactions`

`findAll` orders by `createdAt` alone, and skips the rows of the pages before.  Rows that were created at the same
time come in the order in which the database finds them, which need not be the same for two requests.

* `shown_list`: a page is cut out of the rows of the tenant, the newest first.
* `pages_listOnce_iff`: the pages list every transaction once exactly if no page ends between two rows that were
  created at the same time.
-/

namespace TransactionSimulator

open Concurrent Prog Relational

/-! ## Requests and replies -/

/-- The request for a page. -/
def HttpRequest.forPage (request : HttpRequest) (limit : String) (p : Nat) : HttpRequest :=
  { request with page := some (toString p), limit := some limit }

/-- The transactions of a reply. -/
def shown : Except JsError (HttpReply (List TransactionWithAll)) → List Transaction
  | .ok ⟨_, .data ts _⟩ => ts.map fun t => t.transaction
  | _ => []

/-- The rows that a query with these arguments asks for. -/
def cutOf : Except JsError (Int × Int) → Offsets.Cut
  | .ok (skip, take) => if skip < 0 then none else some (skip.toNat, take.toNat)
  | .error _ => none

/-- The rows that a page asks for. -/
def pageCut (limit : String) (p : Nat) : Offsets.Cut :=
  cutOf (TransactionRepository.pageArguments (TransactionRoutes.queryNumber (some (toString p)) 1)
    (TransactionRoutes.queryNumber (some limit) 20))

/-- The order of a list of transactions: the newest first. -/
def newestFirst (t : Transaction) : Natᵒᵈ := OrderDual.toDual t.createdAt

def Db.transactionsOf (db : Db) (tenantId : String) : List Transaction :=
  db.transactions.rows.filter fun t => t.tenantId = tenantId

/-- The pages list every transaction exactly once.  Each is asked for in a state of its own, with the same rows of
the tenant, in any order, and nothing else in common; no call fails. -/
def PagesListOnce (verifyToken : String → Option User) (request : HttpRequest) (tenantId limit : String)
    (rows : List Transaction) : Prop :=
  ∀ (worlds : Nat → World) (inp : Nat → Nat → Input), (∀ p, ((worlds p).db.transactionsOf tenantId).Perm rows) →
    (∀ p k, (inp p k).fault = none) →
    ∃ N, ∀ n, N ≤ n → ((List.range' 1 n).flatMap fun p => shown ((TransactionRoutes.list verifyToken
      (request.forPage limit p)).run exec (inp p) (worlds p)).1).Perm rows

section Replies

variable {verifyToken : String → Option User} {request : HttpRequest} {user : User} {w : World} {limit : String}

/-! ## A page -/

theorem map_withAll {ts : List Transaction} (hts : ∀ t ∈ ts, t ∈ w.db.transactions.rows) :
    (ts.filterMap w.db.withAll).map (fun t => t.transaction) = ts := by
  induction ts with
  | nil => rfl
  | cons t ts ih =>
    obtain ⟨ht, hts⟩ := List.forall_mem_cons.mp hts
    obtain ⟨a, ha⟩ := Option.isSome_iff_exists.mp (withAll_isSome ht)
    have hsame : a.transaction = t := by
      rw [Db.withAll] at ha
      split at ha
      · rw [← Option.some.inj ha]
      · cases ha
    rw [List.filterMap_cons_some ha, List.map_cons, ih hts, hsame]

theorem take_pos {number : Js.Number} {take : Int} (hlimit : number.lt (.finite 1) = false)
    (h : TransactionRepository.intArgument number = .ok take) : 0 < take := by
  replace h := TransactionRepository.trunc?_of_intArgument h
  cases number with
  | nan | infinity => cases h
  | finite q =>
    have hone : (1 : Rat) ≤ q := Rat.not_lt.mp (of_decide_eq_false hlimit)
    have hpos : ¬ q < 0 := Rat.not_lt.mpr (Rat.le_trans (by decide) hone)
    have hfloor : 1 ≤ q.floor := Rat.le_floor_iff.mpr (by exact_mod_cast hone)
    rw [Js.Number.trunc?, if_neg hpos, Option.some.injEq] at h
    omega

theorem shown_errorReply (request : HttpRequest) (error : JsError) (now : Date) :
    shown (.ok (errorReply request error now)) = [] := by
  unfold errorReply
  split <;> rfl

theorem pageArguments_eq_ok_iff {page number : Js.Number} {skip take : Int} :
    TransactionRepository.pageArguments page number = .ok (skip, take) ↔
      TransactionRepository.intArgument ((page.sub (.finite 1)).mul number) = .ok skip ∧
        TransactionRepository.intArgument number = .ok take := by
  rw [TransactionRepository.pageArguments]
  cases TransactionRepository.intArgument ((page.sub (.finite 1)).mul number) with
  | error e => exact iff_of_false (by rintro ⟨⟩) (by rintro ⟨⟨⟩, -⟩)
  | ok s =>
    cases TransactionRepository.intArgument number with
    | error e => exact iff_of_false (by rintro ⟨⟩) (by rintro ⟨-, ⟨⟩⟩)
    | ok t =>
      have hok : (do let skip ← Except.ok s; let take ← Except.ok t; return (skip, take) : Except JsError (Int × Int)) =
          .ok (s, t) := rfl
      rw [hok, Except.ok.injEq, Except.ok.injEq, Except.ok.injEq, Prod.mk.injEq]

/-- **A page** is cut out of the rows of the tenant. -/
theorem shown_list (huser : authenticate verifyToken request = .ok user) (hrole : user.role ≠ .SERVICE)
    (hlimit : (Js.toNumber limit).lt (.finite 1) = false) {inp : Nat → Input} (hinp : ∀ k, (inp k).fault = none) (p : Nat) :
    shown ((TransactionRoutes.list verifyToken (request.forPage limit p)).run exec inp w).1 =
      (pageCut limit p).of (w.db.newestTransactions user.tenantId) := by
  have huser' : authenticate verifyToken (request.forPage limit p) = .ok user := huser
  rw [TransactionRoutes.list, preHandler_eq huser', if_neg hrole, route]
  simp only [bind_eq, TransactionService.list, TransactionRepository.findAll, tryCatch_eq, pageCut]
  have hpage : (request.forPage limit p).page = some (toString p) := rfl
  have hlimit' : (request.forPage limit p).limit = some limit := rfl
  rw [hpage, hlimit']
  have hnumber : (TransactionRoutes.queryNumber (some limit) 20).lt (.finite 1) = false := hlimit
  revert hnumber
  generalize TransactionRoutes.queryNumber (some limit) 20 = number
  generalize TransactionRoutes.queryNumber (some (toString p)) 1 = page
  intro hnumber
  cases hargs : TransactionRepository.pageArguments page number with
  | error e => exact shown_errorReply _ e _
  | ok args =>
    obtain ⟨skip, take⟩ := args
    have hpos := take_pos hnumber (pageArguments_eq_ok_iff.mp hargs).2
    refine (congrArg (fun r => shown r.1) (run_stmt (s := .transactionFindPage user.tenantId skip take)
      (fun _ _ => rfl) _ _ inp)).trans ?_
    rw [faulted, hinp]
    dsimp only
    rw [Db.page, cutOf]
    by_cases hneg : skip < 0
    · rw [if_pos hneg, if_pos hneg]
      exact shown_errorReply _ _ _
    · rw [if_neg hneg, if_neg hneg, if_pos hpos.le]
      refine map_withAll ?_
      intro t ht
      exact (mem_newest.mp (List.mem_of_mem_drop (List.mem_of_mem_take ht))).1

end Replies

/-! ## Every order -/

theorem arranged_newest (db : Db) (tenantId : String) :
    Offsets.Arranged newestFirst (db.transactionsOf tenantId) (db.newestTransactions tenantId) := by
  have htotal : Std.Total fun a b : Transaction => b.createdAt ≤ a.createdAt := ⟨fun a b => Nat.le_total _ _⟩
  have htrans : IsTrans Transaction fun a b => b.createdAt ≤ a.createdAt := ⟨fun _ _ _ hab hbc => Nat.le_trans hbc hab⟩
  exact ⟨List.perm_insertionSort _ _, List.pairwise_insertionSort _ _⟩

/-- The state with the rows of the ledger in another order. -/
def World.reordered (w : World) {rows : List Transaction} (h : rows.Perm w.db.transactions.rows) : World :=
  { w with db := { w.db with
    transactions := w.db.transactions.reordered h
    references := fun t ht => w.db.references t (h.mem_iff.mp ht) } }

/-- **Every order** is the order of some table. -/
theorem exists_newest_eq (w : World) (tenantId : String) {l : List Transaction}
    (hl : Offsets.Arranged newestFirst (w.db.transactionsOf tenantId) l) :
    ∃ w' : World, w'.db.transactionsOf tenantId = l ∧ w'.db.newestTransactions tenantId = l := by
  let others := w.db.transactions.rows.filter fun t => !decide (t.tenantId = tenantId)
  have hperm : (l ++ others).Perm w.db.transactions.rows :=
    (hl.perm.append_right others).trans (List.filter_append_perm _ _)
  have hown : ((l ++ others).filter fun t => decide (t.tenantId = tenantId)) = l := by
    rw [List.filter_append, List.filter_eq_self.mpr, List.filter_eq_nil_iff.mpr, List.append_nil]
    · intro t ht
      simpa [others] using (List.mem_filter.mp ht).2
    · intro t ht
      exact (List.mem_filter.mp (hl.perm.mem_iff.mp ht)).2
  refine ⟨w.reordered hperm, hown, ?_⟩
  have hrows : (w.reordered hperm).db.newestTransactions tenantId =
      l.insertionSort fun a b => b.createdAt ≤ a.createdAt := congrArg (List.insertionSort _) hown
  rw [hrows]
  exact List.Pairwise.insertionSort_eq hl.pairwise

theorem nodup_transactionsOf (db : Db) (tenantId : String) : (db.transactionsOf tenantId).Nodup :=
  (db.transactions.nodup_rows fun _ => List.cons_ne_nil _ _).filter _

section Pages

variable {verifyToken : String → Option User} {request : HttpRequest} {user : User} {limit : String}

/-- The states of the requests are as good as the orders of the rows. -/
theorem pagesListOnce_iff_listsOnce (huser : authenticate verifyToken request = .ok user)
    (hrole : user.role ≠ .SERVICE) (w : World) (hlimit : (Js.toNumber limit).lt (.finite 1) = false) :
    PagesListOnce verifyToken request user.tenantId limit (w.db.transactionsOf user.tenantId) ↔
      Offsets.ListsOnce newestFirst (w.db.transactionsOf user.tenantId) (pageCut limit) := by
  constructor
  · intro h orders horders
    choose worlds hrows hnewest using fun p => exists_newest_eq w user.tenantId (horders p)
    have hinp : ∀ _ _ : Nat, ({} : Input).fault = none := fun _ _ => rfl
    have hlists := h worlds (fun _ _ => {}) (fun p => by rw [hrows p]; exact (horders p).perm) hinp
    simpa only [shown_list huser hrole hlimit (hinp 0), hnewest, Offsets.listing] using hlists
  · intro h worlds inp hsame hinp
    have hlists := h (fun p => (worlds p).db.newestTransactions user.tenantId) fun p =>
      ⟨(arranged_newest (worlds p).db user.tenantId).perm.trans (hsame p),
        (arranged_newest (worlds p).db user.tenantId).pairwise⟩
    simpa only [shown_list huser hrole hlimit (hinp _), Offsets.listing] using hlists

end Pages

/-! ## Numbers of pages -/

/-- A number that is at least `b`, and perhaps none. -/
def AtLeast (b : Nat) (x : Js.Number) : Prop := x = .infinity false ∨ ∃ k : Nat, x = .finite k ∧ b ≤ k

theorem atLeast_ofRat {b n : Nat} (hb : b ≤ 2 ^ 53) (h : b ≤ n) : AtLeast b (.ofRat n) := by
  by_cases hn : n < 2 ^ 53
  · exact .inr ⟨n, Js.Number.ofRat_natCast hn, h⟩
  · rcases Js.Number.ofRat_natCast_of_le (Nat.le_of_not_lt hn) with hinf | ⟨k, hk, hle⟩
    · exact .inl hinf
    · exact .inr ⟨k, hk, hb.trans hle⟩

theorem sub_one_natCast {k : Nat} (hk : 1 ≤ k) :
    (Js.Number.finite k).sub (.finite 1) = .ofRat ((k - 1 : Nat) : Rat) := by
  rw [Js.Number.sub, Nat.cast_sub hk, Nat.cast_one]

theorem mul_natCast (k l : Nat) : (Js.Number.finite k).mul (.finite l) = .ofRat ((k * l : Nat) : Rat) := by
  rw [Js.Number.mul, Nat.cast_mul]

theorem intArgument_finite (k : Nat) :
    TransactionRepository.intArgument (.finite k) = if fitsBigInt k = true then .ok (k : Int) else .error invalidArgument := by
  rw [TransactionRepository.intArgument, Js.Number.trunc?_natCast]

theorem intArgument_natCast {k : Nat} (hk : k < 2 ^ 63) : TransactionRepository.intArgument (.finite k) = .ok k := by
  rw [intArgument_finite, if_pos (fitsBigInt_iff.mpr ⟨by omega, by exact_mod_cast hk⟩)]

theorem queryNumber_toString (n fallback : Nat) :
    TransactionRoutes.queryNumber (some (toString n)) fallback = .ofRat n := by
  rw [TransactionRoutes.queryNumber, Option.elim_some, Js.toNumber_toString]

theorem intArgument_atLeast {b : Nat} {x : Js.Number} {skip : Int} (hx : AtLeast b x)
    (h : TransactionRepository.intArgument x = .ok skip) : (b : Int) ≤ skip := by
  rcases hx with rfl | ⟨k, rfl, hk⟩
  · cases h
  · rw [intArgument_finite] at h
    split at h
    · rw [← Except.ok.inj h]
      exact_mod_cast hk
    · cases h

section Numbers

variable {L p i : Nat}

theorem skip_exact (hp : 1 ≤ p) (hpmax : p < 2 ^ 53) (hL : L < 2 ^ 53) :
    ((TransactionRoutes.queryNumber (some (toString p)) 1).sub (.finite 1)).mul
      (TransactionRoutes.queryNumber (some (toString L)) 20) = .ofRat (((p - 1) * L : Nat) : Rat) := by
  rw [queryNumber_toString, queryNumber_toString, Js.Number.ofRat_natCast hpmax, Js.Number.ofRat_natCast hL,
    sub_one_natCast hp, Js.Number.ofRat_natCast (by omega), mul_natCast]

theorem skip_atLeast (hp : 2 ^ 53 ≤ p) (hL : 1 ≤ L) (hL' : L < 2 ^ 53) :
    AtLeast (2 ^ 53 - 1) (((TransactionRoutes.queryNumber (some (toString p)) 1).sub (.finite 1)).mul
      (TransactionRoutes.queryNumber (some (toString L)) 20)) := by
  have hpos : ¬ ((L : Nat) : Rat) = 0 := by
    rw [Nat.cast_eq_zero]
    omega
  have hsign : ¬ (((L : Nat) : Rat).num < 0) := by
    rw [Rat.num_natCast]
    omega
  have hinf : (Js.Number.infinity false).mul (.finite L) = .infinity false := by
    rw [Js.Number.mul, if_neg hpos, decide_eq_false hsign]
    rfl
  rw [queryNumber_toString, queryNumber_toString, Js.Number.ofRat_natCast hL']
  rcases Js.Number.ofRat_natCast_of_le hp with h | ⟨k, h, hk⟩
  · rw [h, Js.Number.sub, hinf]
    exact .inl rfl
  · rw [h, sub_one_natCast (by omega)]
    rcases atLeast_ofRat (b := 2 ^ 53 - 1) (by omega) (show 2 ^ 53 - 1 ≤ k - 1 by omega) with h' | ⟨m, h', hm⟩
    · rw [h', hinf]
      exact .inl rfl
    · rw [h', mul_natCast]
      exact atLeast_ofRat (by omega) (hm.trans (Nat.le_mul_of_pos_right m hL))

theorem cutOf_has {args : Except JsError (Int × Int)} (h : ∀ skip take, args = .ok (skip, take) → (i : Int) < skip) :
    ¬ (cutOf args).Has i := by
  cases args with
  | error e => exact id
  | ok args =>
    obtain ⟨skip, take⟩ := args
    have hskip := h skip take rfl
    rw [cutOf, if_neg (by omega), Offsets.Cut.Has]
    omega

/-- **The page of a place**, as long as no number is rounded. -/
theorem pageCut_has_iff (hL : 1 ≤ L) (hL' : L < 2 ^ 53) (hp : 1 ≤ p) (hi : i + 1 < 2 ^ 53) :
    (pageCut (toString L) p).Has i ↔ p = i / L + 1 := by
  have htake : TransactionRepository.intArgument (TransactionRoutes.queryNumber (some (toString L)) 20) = .ok (L : Int) := by
    rw [queryNumber_toString, Js.Number.ofRat_natCast hL']
    exact intArgument_natCast (by omega)
  by_cases hexact : p < 2 ^ 53 ∧ (p - 1) * L < 2 ^ 53
  · have hskip := skip_exact hp hexact.1 hL'
    rw [Js.Number.ofRat_natCast hexact.2] at hskip
    have hcut : pageCut (toString L) p = some ((p - 1) * L, L) := by
      rw [pageCut, pageArguments_eq_ok_iff.mpr ⟨by rw [hskip]; exact intArgument_natCast (by omega), htake⟩]
      rw [cutOf, if_neg (by omega), Int.toNat_natCast, Int.toNat_natCast]
    rw [hcut, Offsets.Cut.Has]
    have hdiv : i / L = p - 1 ↔ (p - 1) * L ≤ i ∧ i < (p - 1) * L + L := by
      rw [Nat.div_eq_iff (by omega)]
      omega
    omega
  · have hlarge : AtLeast (2 ^ 53 - 1) (((TransactionRoutes.queryNumber (some (toString p)) 1).sub (.finite 1)).mul
        (TransactionRoutes.queryNumber (some (toString L)) 20)) := by
      by_cases hpmax : p < 2 ^ 53
      · rw [skip_exact hp hpmax hL']
        have hle : 2 ^ 53 ≤ (p - 1) * L := Nat.le_of_not_lt fun h => hexact ⟨hpmax, h⟩
        exact atLeast_ofRat (by omega) (by omega)
      · exact skip_atLeast (Nat.le_of_not_lt hpmax) hL hL'
    refine iff_of_false (cutOf_has ?_) ?_
    · intro skip take hargs
      have hskip := intArgument_atLeast hlarge (pageArguments_eq_ok_iff.mp hargs).1
      omega
    · rintro rfl
      have hle := Nat.div_mul_le_self i L
      have hle' := Nat.div_le_self i L
      rw [Nat.add_sub_cancel] at hexact
      omega

end Numbers

/-- **When the pages are a partition.**  For every limit from 1 on, the pages list every transaction of the tenant
once, whatever the order of those created at the same time, exactly if all places that these can take are on one
page; while no number is rounded, if the first and the last of the places are. -/
theorem pages_listOnce_iff {verifyToken : String → Option User} {request : HttpRequest} {user : User}
    (huser : authenticate verifyToken request = .ok user) (hrole : user.role ≠ .SERVICE) (w : World) {limit : String}
    (hlimit : (Js.toNumber limit).lt (.finite 1) = false) :
    (PagesListOnce verifyToken request user.tenantId limit (w.db.transactionsOf user.tenantId) ↔
      ∀ t ∈ w.db.transactionsOf user.tenantId,
        Offsets.Together newestFirst (w.db.transactionsOf user.tenantId) (pageCut limit) t) ∧
    ∀ L : Nat, limit = toString L → 1 ≤ L → L < 2 ^ 53 → (w.db.transactionsOf user.tenantId).length < 2 ^ 53 →
      ∀ t ∈ w.db.transactionsOf user.tenantId,
        (Offsets.Together newestFirst (w.db.transactionsOf user.tenantId) (pageCut limit) t ↔
          Offsets.before newestFirst (w.db.transactionsOf user.tenantId) t / L =
            (Offsets.before newestFirst (w.db.transactionsOf user.tenantId) t +
              Offsets.ties newestFirst (w.db.transactionsOf user.tenantId) t - 1) / L) := by
  constructor
  · rw [pagesListOnce_iff_listsOnce huser hrole w hlimit]
    exact Offsets.listsOnce_iff (nodup_transactionsOf w.db user.tenantId)
  · rintro L rfl hL hL' hrows t ht
    exact Offsets.together_iff_div (2 ^ 53 - 1)
      (fun p i hp hi => pageCut_has_iff hL hL' hp (by omega)) (by omega) ht

/-! ## Two at the same time -/

def Transaction.first : Transaction := { Transaction.sample with id := "first" }

def Transaction.second : Transaction := { Transaction.sample with id := "second", txHash := some "0x02" }

/-- Two transactions of one tenant, created in the same millisecond. -/
def World.twoAtOnce : World :=
  { World.sample with db := { Db.sample with
    transactions := ⟨[.first, .second], by decide⟩
    references := by decide } }

theorem toNumber_one : (Js.toNumber "1").lt (.finite 1) = false := by
  rw [show "1" = toString 1 from rfl, Js.toNumber_toString, Js.Number.ofRat_natCast (by decide)]
  decide

theorem pages_listOnce_iff_twoAtOnce :
    (authenticate verifySample .sample = .ok .sample ∧ User.sample.role ≠ .SERVICE ∧
      (Js.toNumber "1").lt (.finite 1) = false) ∧
    (PagesListOnce verifySample .sample User.sample.tenantId "1" (World.twoAtOnce.db.transactionsOf User.sample.tenantId) ↔
      ∀ t ∈ World.twoAtOnce.db.transactionsOf User.sample.tenantId,
        Offsets.Together newestFirst (World.twoAtOnce.db.transactionsOf User.sample.tenantId) (pageCut "1") t) := by
  exact ⟨⟨authenticate_sample rfl, by decide, toNumber_one⟩,
    (pages_listOnce_iff (authenticate_sample rfl) (by decide) World.twoAtOnce toNumber_one).1⟩

/-- **One to a page**: neither is sure to be listed, or not to be listed twice. -/
theorem twoAtOnce_apart :
    authenticate verifySample .sample = .ok .sample ∧
      ¬ PagesListOnce verifySample .sample User.sample.tenantId "1" (World.twoAtOnce.db.transactionsOf User.sample.tenantId) := by
  refine ⟨authenticate_sample rfl, ?_⟩
  rw [pagesListOnce_iff_listsOnce (authenticate_sample rfl) (by decide) World.twoAtOnce toNumber_one,
    Offsets.listsOnce_iff (nodup_transactionsOf _ _)]
  intro h
  have htogether := h .first (by decide)
  rw [show "1" = toString 1 from rfl, Offsets.together_iff_div 2
    (fun p i hp hi => pageCut_has_iff le_rfl (by omega) hp (by omega)) (by decide) (by decide)] at htogether
  revert htogether
  decide

end TransactionSimulator
