import TransactionSimulator.Api.Routes
import TransactionSimulator.Ledger.Tenancy

/-!
# What a tenant can read

Two states that agree on the rows of a tenant, and one request of a user of that tenant.  The rows of other
tenants show in two places: a ledger row is sent with the wallet that receives, whoever owns it, and a
wallet of another tenant is refused with another code than one that does not exist.

* `AgreeOn`: the two states agree on the rows of a tenant.
* `alike_route`: a route runs alike in two states in which its handler does.
* `sameReply_iff`: for each of the five reads, when the replies are the same.
-/

namespace TransactionSimulator

open Concurrent Prog Relational

/-- The routes that read. -/
inductive ReadRoute
  | transactions
  | transaction
  | wallets
  | wallet
  | balances
  deriving DecidableEq, Repr

namespace ReadRoute

/-- The data of a reply. -/
@[reducible] def Data : ReadRoute → Type
  | transactions => List TransactionWithAll
  | transaction => TransactionWithAll
  | wallets => List Wallet
  | wallet => Wallet
  | balances => List (BalanceSnapshot × Token)

def serve (verifyToken : String → Option User) (request : HttpRequest) :
    (r : ReadRoute) → Program (HttpReply r.Data)
  | transactions => TransactionRoutes.list verifyToken request
  | transaction => TransactionRoutes.getById verifyToken request
  | wallets => WalletRoutes.list verifyToken request
  | wallet => WalletRoutes.getById verifyToken request
  | balances => WalletRoutes.getBalances verifyToken request

end ReadRoute

/-- The request is answered alike in both states: the same status and the same body, on any inputs. -/
def SameReply {α : Type} (p : Program (HttpReply α)) (w w' : World) : Prop :=
  ∀ inp, (p.run exec inp w).1 = (p.run exec inp w').1

/-- The snapshot is of a wallet of the tenant. -/
def Db.isSnapshotOf (db : Db) (tenantId : String) (b : BalanceSnapshot) : Bool :=
  (db.wallets.get (.id b.walletId)).any fun wallet => wallet.tenantId = tenantId

/-- **The states agree on what is the tenant's**: its users, its wallets, its ledger rows and the snapshots of its
wallets; and on the tokens, which are no tenant's, and the time. -/
structure AgreeOn (tenantId : String) (tenantOf tenantOf' : String → String) (w w' : World) : Prop where
  users : ∀ id, tenantOf id = tenantId ↔ tenantOf' id = tenantId
  wallets : w.db.wallets.rows.filter (fun wallet => wallet.tenantId = tenantId) =
    w'.db.wallets.rows.filter fun wallet => wallet.tenantId = tenantId
  transactions : w.db.transactions.rows.filter (fun t => t.tenantId = tenantId) =
    w'.db.transactions.rows.filter fun t => t.tenantId = tenantId
  balanceSnapshots : w.db.balanceSnapshots.rows.filter (w.db.isSnapshotOf tenantId) =
    w'.db.balanceSnapshots.rows.filter (w'.db.isSnapshotOf tenantId)
  tokens : w.db.tokens = w'.db.tokens
  clock : w.clock = w'.clock

/-! ## When replies are the same -/

/-- The wallet is the same row in both states. -/
def SameWallet (w w' : World) (id : String) : Prop :=
  w.db.wallets.get (.id id) = w'.db.wallets.get (.id id)

/-- The wallet exists in both states or in neither. -/
def SamePresence (w w' : World) (id : String) : Prop :=
  (w.db.wallets.get (.id id)).isSome ↔ (w'.db.wallets.get (.id id)).isSome

/-- The ledger row is on the page that the request asks for. -/
def Listed (db : Db) (tenantId : String) (request : HttpRequest) (t : Transaction) : Prop :=
  ∃ skip take ts, TransactionRepository.pageArguments (TransactionRoutes.queryNumber request.page 1)
      (TransactionRoutes.queryNumber request.limit 20) = .ok (skip, take) ∧
    Db.page skip take (db.newestTransactions tenantId) = .ok ts ∧ t ∈ ts

/-- **What the states have to share beyond the rows of the tenant** for a request to be answered alike: the
wallets that received from the listed ledger rows, and whether the wallet that is asked for exists. -/
def ReadRoute.Shared (user : User) (request : HttpRequest) (w w' : World) : ReadRoute → Prop
  | transactions => user.role ≠ .SERVICE →
      ∀ t, Listed w.db user.tenantId request t → SameWallet w w' t.toWalletId
  | transaction => user.role ≠ .SERVICE → isUuid request.param = true →
      ∀ t, w.db.transactions.get (.id request.param) = some t → t.tenantId = user.tenantId →
        SameWallet w w' t.toWalletId
  | wallets => True
  | wallet => user.role ≠ .SERVICE → isUuid request.param = true → SamePresence w w' request.param
  | balances => SamePresence w w' request.param

/-! ## The rows of a tenant -/

section Rows

variable {tenantId : String} {tenantOf tenantOf' : String → String} {w w' : World}

theorem AgreeOn.symm (h : AgreeOn tenantId tenantOf tenantOf' w w') : AgreeOn tenantId tenantOf' tenantOf w' w :=
  ⟨fun id => (h.users id).symm, h.wallets.symm, h.transactions.symm, h.balanceSnapshots.symm, h.tokens.symm,
    h.clock.symm⟩

theorem AgreeOn.wallet (h : AgreeOn tenantId tenantOf tenantOf' w w') {id : String} {wallet : Wallet}
    (hget : w.db.wallets.get (.id id) = some wallet) (htenant : wallet.tenantId = tenantId) :
    w'.db.wallets.get (.id id) = some wallet := by
  obtain ⟨hmem, hkey⟩ := w.db.wallets.get_eq_some_iff.mp hget
  have hfiltered : wallet ∈ w.db.wallets.rows.filter fun wallet => wallet.tenantId = tenantId :=
    List.mem_filter.mpr ⟨hmem, by simpa using htenant⟩
  rw [h.wallets] at hfiltered
  exact w'.db.wallets.get_eq_some_iff.mpr ⟨(List.mem_filter.mp hfiltered).1, hkey⟩

theorem AgreeOn.transaction (h : AgreeOn tenantId tenantOf tenantOf' w w') {id : String} {t : Transaction}
    (hget : w.db.transactions.get (.id id) = some t) (htenant : t.tenantId = tenantId) :
    w'.db.transactions.get (.id id) = some t := by
  obtain ⟨hmem, hkey⟩ := w.db.transactions.get_eq_some_iff.mp hget
  have hfiltered : t ∈ w.db.transactions.rows.filter fun t => t.tenantId = tenantId :=
    List.mem_filter.mpr ⟨hmem, by simpa using htenant⟩
  rw [h.transactions] at hfiltered
  exact w'.db.transactions.get_eq_some_iff.mpr ⟨(List.mem_filter.mp hfiltered).1, hkey⟩

/-- The wallets of one owner are the wallets of the owner among those of the tenant. -/
theorem AgreeOn.ownWallets (h : AgreeOn tenantId tenantOf tenantOf' w w') (hw : Tenancy tenantOf w)
    (hw' : Tenancy tenantOf' w') {userId : String} (huser : tenantOf userId = tenantId) :
    w.db.wallets.rows.filter (fun wallet => wallet.ownerId = userId) =
      w'.db.wallets.rows.filter fun wallet => wallet.ownerId = userId := by
  have hown : ∀ {tenantOf : String → String} {w : World}, Tenancy tenantOf w → tenantOf userId = tenantId →
      w.db.wallets.rows.filter (fun wallet => wallet.ownerId = userId) =
        (w.db.wallets.rows.filter fun wallet => wallet.tenantId = tenantId).filter
          fun wallet => wallet.ownerId = userId := by
    intro tenantOf w hw huser
    rw [List.filter_filter]
    refine List.filter_congr ?_
    intro wallet hmem
    by_cases howner : wallet.ownerId = userId
    · have htenant := hw.owner wallet hmem
      simp [howner, htenant, huser]
    · simp [howner]
  rw [hown hw huser, hown hw' ((h.users userId).mp huser), h.wallets]

theorem AgreeOn.newest (h : AgreeOn tenantId tenantOf tenantOf' w w') :
    w.db.newestTransactions tenantId = w'.db.newestTransactions tenantId := by
  rw [Db.newestTransactions, Db.newestTransactions, h.transactions]

/-- The snapshots of a wallet of the tenant. -/
theorem AgreeOn.snapshots (h : AgreeOn tenantId tenantOf tenantOf' w w') {id : String} {wallet : Wallet}
    (hget : w.db.wallets.get (.id id) = some wallet) (htenant : wallet.tenantId = tenantId) :
    w.db.snapshotsOfWallet id = w'.db.snapshotsOfWallet id := by
  have hown : ∀ {w : World}, w.db.wallets.get (.id id) = some wallet →
      w.db.balanceSnapshots.rows.filter (fun b => b.walletId = id) =
        (w.db.balanceSnapshots.rows.filter (w.db.isSnapshotOf tenantId)).filter fun b => b.walletId = id := by
    intro w hget
    rw [List.filter_filter]
    refine List.filter_congr ?_
    intro b _
    by_cases hid : b.walletId = id
    · simp [Db.isSnapshotOf, hid, hget, htenant]
    · simp [hid]
  rw [Db.snapshotsOfWallet, Db.snapshotsOfWallet, hown hget, hown (h.wallet hget htenant), h.balanceSnapshots,
    h.tokens]

theorem AgreeOn.sender (h : AgreeOn tenantId tenantOf tenantOf' w w') (hw : Tenancy tenantOf w) {t : Transaction}
    (ht : t ∈ w.db.transactions.rows) (htenant : t.tenantId = tenantId) : SameWallet w w' t.fromWalletId := by
  have hrow : w.db.transactions.get (.id t.id) = some t := w.db.transactions.get_eq_some_iff.mpr ⟨ht, by simp⟩
  obtain ⟨wallet, hmem, hid, hwallet⟩ := hw.sender t.id t hrow
  have hget : w.db.wallets.get (.id t.fromWalletId) = some wallet :=
    w.db.wallets.get_eq_some_iff.mpr ⟨hmem, by simp [hid]⟩
  exact hget.trans (h.wallet hget (hwallet.trans htenant)).symm

/-- **A ledger row of the tenant shows in a reply with the wallet that receives.** -/
theorem AgreeOn.withAll_eq_iff (h : AgreeOn tenantId tenantOf tenantOf' w w') (hw : Tenancy tenantOf w)
    {t : Transaction} (ht : t ∈ w.db.transactions.rows) (htenant : t.tenantId = tenantId) :
    w.db.withAll t = w'.db.withAll t ↔ SameWallet w w' t.toWalletId := by
  have ht' : t ∈ w'.db.transactions.rows := by
    have hfiltered : t ∈ w.db.transactions.rows.filter fun t => t.tenantId = tenantId :=
      List.mem_filter.mpr ⟨ht, by simpa using htenant⟩
    rw [h.transactions] at hfiltered
    exact (List.mem_filter.mp hfiltered).1
  obtain ⟨htoken, hfrom, hto⟩ := w.db.references t ht
  obtain ⟨token, htoken⟩ := Option.isSome_iff_exists.mp htoken
  obtain ⟨fromWallet, hfrom⟩ := Option.isSome_iff_exists.mp hfrom
  obtain ⟨toWallet, hto⟩ := Option.isSome_iff_exists.mp hto
  obtain ⟨toWallet', hto'⟩ := Option.isSome_iff_exists.mp (w'.db.references t ht').2.2
  have hfrom' := (h.sender hw ht htenant).symm.trans hfrom
  have htoken' := htoken
  rw [h.tokens] at htoken'
  simp [Db.withAll, SameWallet, htoken, htoken', hfrom, hfrom', hto, hto']

theorem withAll_isSome {t : Transaction} (ht : t ∈ w.db.transactions.rows) : (w.db.withAll t).isSome := by
  obtain ⟨htoken, hfrom, hto⟩ := w.db.references t ht
  obtain ⟨token, htoken⟩ := Option.isSome_iff_exists.mp htoken
  obtain ⟨fromWallet, hfrom⟩ := Option.isSome_iff_exists.mp hfrom
  obtain ⟨toWallet, hto⟩ := Option.isSome_iff_exists.mp hto
  simp [Db.withAll, htoken, hfrom, hto]

end Rows

/-! ## Replies -/

section Replies

variable {verifyToken : String → Option User} {request : HttpRequest} {user : User}
  {tenantOf tenantOf' : String → String} {w w' : World}

/-- What a call answers that may fail. -/
def faulted {α : Type} (i : Input) (answer : Except JsError α) : Except JsError α :=
  match i.fault with
  | none => answer
  | some f => .error (.error f.message)

/-- The reply that comes of a result. -/
def replyTo {α : Type} (request : HttpRequest) (now : Date) : Except JsError (HttpReply α) → HttpReply α
  | .ok reply => reply
  | .error e => errorReply request e now

/-- A handler that starts with a statement that only reads. -/
theorem run_stmt {α : Type} {s : Stmt} {answer : Db → Except JsError s.Res}
    (hs : ∀ env db, s.exec env db = (answer db, db)) (f : s.Res → Program α) (handler : JsError → Program α)
    (inp : Nat → Input) :
    (((prisma.stmt s).bind f).tryCatch handler).run exec inp w =
      (((Prog.ofExcept (faulted (inp 0) (answer w.db))).bind f).tryCatch handler).run exec
        (fun n => inp (n + 1)) w := by
  have hcall : exec (.stmt s) (inp 0) w = (faulted (inp 0) (answer w.db), w) := by
    have heffect : (Call.stmt s).effect (inp 0) w = (answer w.db, w) := by simp only [Call.effect, hs]
    simp only [exec, Call.inProcess, faulted, heffect, Bool.false_eq_true, if_false, ite_self]
    cases (inp 0).fault <;> rfl
  simp only [prisma, perform, Prog.bind, Prog.tryCatch, Prog.run, hcall]
  cases faulted (inp 0) (answer w.db) <;> rfl

theorem run_ofExcept {α : Type} (r : Except JsError (HttpReply α)) (inp : Nat → Input) :
    (((Prog.ofExcept r).tryCatch (errorHandler request)).run exec inp w).1 = .ok (replyTo request w.clock r) := by
  cases r <;> rfl

/-- **A route that makes one statement** is answered alike in two states if what it makes of the statement's
answer is the same. -/
theorem sameReply_stmt_iff {α : Type} {s : Stmt} {answer : Db → Except JsError s.Res}
    (hs : ∀ env db, s.exec env db = (answer db, db)) {f : s.Res → Program (HttpReply α)}
    {g : s.Res → Except JsError (HttpReply α)} (hf : ∀ a, f a = Prog.ofExcept (g a)) (hclock : w.clock = w'.clock) :
    SameReply (((prisma.stmt s).bind f).tryCatch (errorHandler request)) w w' ↔
      replyTo request w.clock ((answer w.db).bind g) = replyTo request w.clock ((answer w'.db).bind g) := by
  have hrun : ∀ inp w, ((((prisma.stmt s).bind f).tryCatch (errorHandler request)).run exec inp w).1 =
      .ok (replyTo request w.clock ((faulted (inp 0) (answer w.db)).bind g)) := by
    intro inp w
    rw [run_stmt hs, ← run_ofExcept]
    cases faulted (inp 0) (answer w.db) with
    | error e => rfl
    | ok a =>
      simp only [Prog.ofExcept, Prog.bind, hf, Except.bind]
  constructor
  · intro hsame
    have heq := hsame fun _ => {}
    rw [hrun, hrun, Except.ok.injEq, ← hclock] at heq
    exact heq
  · intro heq inp
    rw [hrun, hrun, ← hclock]
    cases hfault : (inp 0).fault with
    | none => simp only [faulted, hfault, heq]
    | some f => simp only [faulted, hfault, Except.bind]

theorem preHandler_eq (huser : authenticate verifyToken request = .ok user) :
    preHandler verifyToken request [.USER, .ADMIN] =
      if user.role = .SERVICE then .error ⟨403, "Forbidden"⟩ else .ok user := by
  obtain ⟨id, email, role, tenantId⟩ := user
  rw [preHandler, huser]
  cases role <;> rfl

/-- The user of a request comes from its token. -/
theorem verified_of_authenticate (huser : authenticate verifyToken request = .ok user) :
    ∃ token, verifyToken token = some user := by
  simp only [authenticate] at huser
  split at huser
  · cases huser
  split at huser
  · next scheme token rest hparts =>
    split at huser
    · cases huser
    cases hverified : verifyToken token with
    | none => simp [hverified] at huser
    | some verified =>
      simp only [hverified, Except.ok.injEq] at huser
      exact ⟨token, huser ▸ hverified⟩
  · cases huser

theorem sameReply_route_iff {α β : Type} (huser : authenticate verifyToken request = .ok user) {b : β}
    {handler : User → β → Program (HttpReply α)} :
    SameReply (route request (preHandler verifyToken request [.USER, .ADMIN]) (.ok b) handler) w w' ↔
      (user.role ≠ .SERVICE → SameReply ((handler user b).tryCatch (errorHandler request)) w w') := by
  rw [preHandler_eq huser]
  by_cases hrole : user.role = .SERVICE
  · rw [if_pos hrole]
    exact iff_of_true (fun _ => rfl) fun hne => absurd hrole hne
  · rw [if_neg hrole]
    exact ⟨fun hsame _ => hsame, fun h => h hrole⟩

/-- A route with an id in its path: where that is no UUID, the replies are the same. -/
theorem sameReply_id_iff {α : Type} (huser : authenticate verifyToken request = .ok user)
    {handler : User → String → Program (HttpReply α)} :
    SameReply (route request (preHandler verifyToken request [.USER, .ADMIN])
        (zodUuid "id" (some (.str request.param))) handler) w w' ↔
      (user.role ≠ .SERVICE → isUuid request.param = true →
        SameReply ((handler user request.param).tryCatch (errorHandler request)) w w') := by
  have hparam : zodUuid "id" (some (.str request.param)) =
      if isUuid request.param then .ok request.param else .error [("id", "Invalid UUID")] := rfl
  rw [hparam]
  by_cases huuid : isUuid request.param = true
  · rw [if_pos huuid, sameReply_route_iff huser]
    exact imp_congr_right fun _ => ⟨fun hsame _ => hsame, fun h => h huuid⟩
  · rw [if_neg huuid, preHandler_eq huser]
    refine iff_of_true ?_ fun _ h => absurd h huuid
    by_cases hrole : user.role = .SERVICE
    · rw [if_pos hrole]
      exact fun _ => rfl
    · rw [if_neg hrole]
      exact fun _ => rfl

/-! ### Transactions -/

theorem mem_of_page {α : Type} {skip take : Int} {xs ys : List α} (h : Db.page skip take xs = .ok ys) {x : α}
    (hx : x ∈ ys) : x ∈ xs := by
  simp only [Db.page] at h
  split at h
  · cases h
  split at h
  · rw [← Except.ok.inj h] at hx
    exact List.mem_of_mem_drop (List.mem_of_mem_take hx)
  · rw [← Except.ok.inj h, List.mem_reverse] at hx
    exact List.mem_reverse.mp (List.mem_of_mem_drop (List.mem_of_mem_take hx))

theorem mem_newest {db : Db} {tenantId : String} {t : Transaction} :
    t ∈ db.newestTransactions tenantId ↔ t ∈ db.transactions.rows ∧ t.tenantId = tenantId := by
  simp [Db.newestTransactions]

theorem filterMap_eq_iff {α β : Type} {f g : α → Option β} {xs : List α} (hf : ∀ x ∈ xs, (f x).isSome)
    (hg : ∀ x ∈ xs, (g x).isSome) : xs.filterMap f = xs.filterMap g ↔ ∀ x ∈ xs, f x = g x := by
  induction xs with
  | nil => simp
  | cons x xs ih =>
    obtain ⟨b, hb⟩ := Option.isSome_iff_exists.mp (hf x (by simp))
    obtain ⟨c, hc⟩ := Option.isSome_iff_exists.mp (hg x (by simp))
    have ih := ih (fun y hy => hf y (by simp [hy])) (fun y hy => hg y (by simp [hy]))
    rw [List.filterMap_cons_some hb, List.filterMap_cons_some hc, List.cons.injEq, ih, List.forall_mem_cons, hb, hc,
      Option.some.injEq]

/-- The rows of a page are sent alike if the wallets that receive are the same. -/
theorem AgreeOn.page_eq_iff (h : AgreeOn user.tenantId tenantOf tenantOf' w w') (hw : Tenancy tenantOf w)
    {skip take : Int} {ts : List Transaction}
    (hpage : Db.page skip take (w.db.newestTransactions user.tenantId) = .ok ts) :
    ts.filterMap w.db.withAll = ts.filterMap w'.db.withAll ↔ ∀ t ∈ ts, SameWallet w w' t.toWalletId := by
  have hmem : ∀ t ∈ ts, t ∈ w.db.transactions.rows ∧ t.tenantId = user.tenantId :=
    fun t ht => mem_newest.mp (mem_of_page hpage ht)
  have hmem' : ∀ t ∈ ts, t ∈ w'.db.transactions.rows ∧ t.tenantId = user.tenantId := by
    intro t ht
    have hnewest := mem_of_page hpage ht
    rw [h.newest] at hnewest
    exact mem_newest.mp hnewest
  rw [filterMap_eq_iff (fun t ht => withAll_isSome (hmem t ht).1) fun t ht => withAll_isSome (hmem' t ht).1]
  refine forall₂_congr ?_
  intro t ht
  exact h.withAll_eq_iff hw (hmem t ht).1 (hmem t ht).2

theorem sameReply_list_iff (h : AgreeOn user.tenantId tenantOf tenantOf' w w') (hw : Tenancy tenantOf w)
    (huser : authenticate verifyToken request = .ok user) :
    SameReply (TransactionRoutes.list verifyToken request) w w' ↔
      ReadRoute.transactions.Shared user request w w' := by
  refine (sameReply_route_iff huser).trans (imp_congr_right fun _ => ?_)
  simp only [bind_eq, TransactionService.list, TransactionRepository.findAll, Listed]
  cases TransactionRepository.pageArguments (TransactionRoutes.queryNumber request.page 1)
    (TransactionRoutes.queryNumber request.limit 20) with
  | error e =>
    refine iff_of_true ?_ (by simp)
    intro inp
    exact congrArg (fun now => Except.ok (errorReply request e now)) h.clock
  | ok args =>
    obtain ⟨skip, take⟩ := args
    refine (sameReply_stmt_iff (s := .transactionFindPage user.tenantId skip take) (fun _ _ => rfl)
      (g := fun ts => .ok (successResponse request ts)) (fun _ => rfl) h.clock).trans ?_
    rw [← h.newest]
    cases hpage : Db.page skip take (w.db.newestTransactions user.tenantId) with
    | error e => exact iff_of_true rfl (by simp [hpage])
    | ok ts =>
      simp [Except.map, Except.bind, replyTo, successResponse, h.page_eq_iff hw hpage, hpage]

/-- The row of the tenant is sent alike if the wallet that receives is the same. -/
theorem AgreeOn.findById_eq_iff (h : AgreeOn user.tenantId tenantOf tenantOf' w w') (hw : Tenancy tenantOf w)
    {id : String} :
    ((w.db.transactions.get (.id id)).filter fun t => t.tenantId = user.tenantId).bind w.db.withAll =
        ((w'.db.transactions.get (.id id)).filter fun t => t.tenantId = user.tenantId).bind w'.db.withAll ↔
      ∀ t, w.db.transactions.get (.id id) = some t → t.tenantId = user.tenantId → SameWallet w w' t.toWalletId := by
  by_cases hown : ∃ t, w.db.transactions.get (.id id) = some t ∧ t.tenantId = user.tenantId
  · obtain ⟨t, ht, htenant⟩ := hown
    have ht' := h.transaction ht htenant
    have hrow := h.withAll_eq_iff hw (w.db.transactions.get_eq_some_iff.mp ht).1 htenant
    simp [ht, ht', htenant, Option.filter_some, hrow]
  · have hnone : ∀ {w : World},
        (¬∃ t, w.db.transactions.get (.id id) = some t ∧ t.tenantId = user.tenantId) →
        (w.db.transactions.get (.id id)).filter (fun t => t.tenantId = user.tenantId) = none := by
      intro w hown
      rw [Option.filter_eq_none_iff]
      intro t ht
      simpa using fun htenant => hown ⟨t, ht, htenant⟩
    have hown' : ¬∃ t, w'.db.transactions.get (.id id) = some t ∧ t.tenantId = user.tenantId := by
      intro h'
      obtain ⟨t, ht, htenant⟩ := h'
      exact hown ⟨t, h.symm.transaction ht htenant, htenant⟩
    rw [hnone hown, hnone hown']
    exact iff_of_true rfl fun t ht htenant => absurd ⟨t, ht, htenant⟩ hown

/-- What `getById` makes of the row. -/
def foundReply (request : HttpRequest) :
    Option TransactionWithAll → Except JsError (HttpReply TransactionWithAll)
  | none => .ok ⟨404, .failure "NOT_FOUND" "Transaction not found" [] request.id none⟩
  | some transaction => .ok (successResponse request transaction)

theorem sameReply_getById_iff (h : AgreeOn user.tenantId tenantOf tenantOf' w w') (hw : Tenancy tenantOf w)
    (huser : authenticate verifyToken request = .ok user) :
    SameReply (TransactionRoutes.getById verifyToken request) w w' ↔
      ReadRoute.transaction.Shared user request w w' := by
  refine (sameReply_id_iff huser).trans (imp_congr_right fun _ => imp_congr_right fun _ => ?_)
  refine (sameReply_stmt_iff (s := .transactionFindByIdWithAll request.param user.tenantId) (fun _ _ => rfl)
    (g := foundReply request) (fun found => by cases found <;> rfl) h.clock).trans ?_
  refine Iff.trans ?_ (h.findById_eq_iff hw)
  generalize ((w.db.transactions.get (.id request.param)).filter _).bind w.db.withAll = found
  generalize ((w'.db.transactions.get (.id request.param)).filter _).bind w'.db.withAll = found'
  cases found <;> cases found' <;> simp [foundReply, Except.bind, replyTo, successResponse]

/-! ### Wallets -/

theorem sameReply_wallets (h : AgreeOn user.tenantId tenantOf tenantOf' w w') (hw : Tenancy tenantOf w)
    (hw' : Tenancy tenantOf' w') (huser : authenticate verifyToken request = .ok user)
    (htenant : tenantOf user.id = user.tenantId) : SameReply (WalletRoutes.list verifyToken request) w w' := by
  refine (sameReply_route_iff huser).mpr fun _ => ?_
  refine (sameReply_stmt_iff (s := .walletFindMany fun wallet => wallet.ownerId = user.id) (fun _ _ => rfl)
    (g := fun wallets => .ok (successResponse request wallets)) (fun _ => rfl) h.clock).mpr ?_
  rw [h.ownWallets hw hw' htenant]

/-- What `getWallet` makes of the row. -/
def granted (user : User) : Option Wallet → Except JsError Wallet
  | none => .error (.appError 404 "WALLET_NOT_FOUND" "Wallet not found" [])
  | some wallet =>
    if wallet.tenantId ≠ user.tenantId || (wallet.ownerId ≠ user.id && user.role ≠ .ADMIN) then
      .error (.appError 403 "FORBIDDEN" "You do not have access to this wallet" [])
    else .ok wallet

theorem getWallet_eq (user : User) (id : String) :
    WalletService.getWallet id user.id user.tenantId user.role =
      (prisma.stmt (.walletFindUnique id)).bind fun found => Prog.ofExcept (granted user found) := by
  refine congrArg _ (funext fun found => ?_)
  cases found with
  | none => rfl
  | some wallet =>
    simp only [granted]
    split <;> rfl

/-- **A wallet is granted alike if it exists in both states or in neither.** -/
theorem AgreeOn.granted_eq (h : AgreeOn user.tenantId tenantOf tenantOf' w w') {id : String}
    (hpresence : SamePresence w w' id) :
    granted user (w.db.wallets.get (.id id)) = granted user (w'.db.wallets.get (.id id)) := by
  rw [SamePresence] at hpresence
  cases hget : w.db.wallets.get (.id id) with
  | none =>
    rw [hget] at hpresence
    cases hget' : w'.db.wallets.get (.id id) with
    | none => rfl
    | some wallet' => simp [hget'] at hpresence
  | some wallet =>
    cases hget' : w'.db.wallets.get (.id id) with
    | none => simp [hget, hget'] at hpresence
    | some wallet' =>
      by_cases htenant : wallet.tenantId = user.tenantId
      · rw [← Option.some.inj (hget'.symm.trans (h.wallet hget htenant))]
      · have htenant' : wallet'.tenantId ≠ user.tenantId := by
          intro htenant'
          have hsame := Option.some.inj (hget.symm.trans (h.symm.wallet hget' htenant'))
          exact htenant (hsame ▸ htenant')
        simp [granted, htenant, htenant']

theorem AgreeOn.status_ne {α : Type} (h : AgreeOn user.tenantId tenantOf tenantOf' w w') {id : String}
    (hget : w.db.wallets.get (.id id) = none) {wallet : Wallet} (hget' : w'.db.wallets.get (.id id) = some wallet)
    (f f' : Wallet → Except JsError (HttpReply α)) (now : Date) :
    replyTo request now ((granted user (w.db.wallets.get (.id id))).bind f) ≠
      replyTo request now ((granted user (w'.db.wallets.get (.id id))).bind f') := by
  have htenant : wallet.tenantId ≠ user.tenantId := by
    intro htenant
    rw [h.symm.wallet hget' htenant] at hget
    cases hget
  rw [hget, hget']
  simp [granted, htenant, Except.bind, replyTo, errorReply]

/-- The replies to a request for a wallet tell whether it exists. -/
theorem AgreeOn.presence_of_reply {α : Type} (h : AgreeOn user.tenantId tenantOf tenantOf' w w') {id : String}
    {f f' : Wallet → Except JsError (HttpReply α)} {now : Date}
    (heq : replyTo request now ((granted user (w.db.wallets.get (.id id))).bind f) =
      replyTo request now ((granted user (w'.db.wallets.get (.id id))).bind f')) : SamePresence w w' id := by
  rw [SamePresence]
  cases hget : w.db.wallets.get (.id id) with
  | none =>
    cases hget' : w'.db.wallets.get (.id id) with
    | none => simp
    | some wallet => exact absurd heq (h.status_ne hget hget' f f' now)
  | some wallet =>
    cases hget' : w'.db.wallets.get (.id id) with
    | none => exact absurd heq.symm (h.symm.status_ne hget' hget f' f now)
    | some wallet => simp

theorem sameReply_wallet_iff (h : AgreeOn user.tenantId tenantOf tenantOf' w w')
    (huser : authenticate verifyToken request = .ok user) :
    SameReply (WalletRoutes.getById verifyToken request) w w' ↔ ReadRoute.wallet.Shared user request w w' := by
  refine (sameReply_id_iff huser).trans (imp_congr_right fun _ => imp_congr_right fun _ => ?_)
  rw [bind_eq, getWallet_eq, bind_bind]
  let g (found : Option Wallet) := (granted user found).bind fun wallet => .ok (successResponse request wallet)
  refine (sameReply_stmt_iff (s := .walletFindUnique request.param) (fun _ _ => rfl) (g := g) ?_ h.clock).trans ?_
  · intro found
    simp only [g]
    cases granted user found <;> rfl
  · constructor
    · intro heq
      exact h.presence_of_reply heq
    · intro hpresence
      simp only [Except.bind, g, h.granted_eq hpresence]

theorem granted_ok {found : Option Wallet} {wallet : Wallet} (hgranted : granted user found = .ok wallet) :
    found = some wallet ∧ wallet.tenantId = user.tenantId := by
  cases found with
  | none => cases hgranted
  | some row =>
    simp only [granted] at hgranted
    split at hgranted
    · cases hgranted
    · next hown =>
      simp only [ne_eq, Bool.or_eq_true, decide_eq_true_eq, not_or, not_not] at hown
      rw [← Except.ok.inj hgranted]
      exact ⟨rfl, hown.1⟩

/-- What the route makes of the snapshots. -/
def balancesReply (request : HttpRequest) (balances : List (BalanceSnapshot × Token)) :
    Except JsError (HttpReply (List (BalanceSnapshot × Token))) :=
  if balances.isEmpty then .ok (successResponse request balances)
  else .error (.error "Do not know how to serialize a BigInt")

theorem run_getBalances (huser : authenticate verifyToken request = .ok user) (inp : Nat → Input) (w : World) :
    ((WalletRoutes.getBalances verifyToken request).run exec inp w).1 =
      .ok (replyTo request w.clock ((faulted (inp 0) (.ok (w.db.wallets.get (.id request.param)))).bind fun found =>
        (granted user found).bind fun _ =>
          (faulted (inp 1) (.ok (w.db.snapshotsOfWallet request.param))).bind (balancesReply request))) := by
  rw [WalletRoutes.getBalances, huser]
  simp only [route, bind_eq, getWallet_eq, bind_bind, tryCatch_eq]
  rw [run_stmt (s := .walletFindUnique request.param) fun _ _ => rfl]
  cases faulted (inp 0) (.ok (w.db.wallets.get (.id request.param))) with
  | error e => rfl
  | ok found =>
    simp only [Prog.ofExcept, Prog.bind, Except.bind]
    cases granted user found with
    | error e => rfl
    | ok wallet =>
      simp only [Prog.bind, BalanceService.getWalletBalances, BalanceRepository.findByWallet]
      rw [run_stmt (s := .balanceSnapshotFindByWallet request.param) (fun _ _ => rfl), Nat.zero_add]
      cases faulted (inp 1) (.ok (w.db.snapshotsOfWallet request.param)) with
      | error e => rfl
      | ok balances =>
        simp only [Prog.ofExcept, Prog.bind, balancesReply]
        split <;> rfl

theorem sameReply_balances_iff (h : AgreeOn user.tenantId tenantOf tenantOf' w w')
    (huser : authenticate verifyToken request = .ok user) :
    SameReply (WalletRoutes.getBalances verifyToken request) w w' ↔
      ReadRoute.balances.Shared user request w w' := by
  constructor
  · intro hsame
    have heq := hsame fun _ => {}
    rw [run_getBalances huser, run_getBalances huser, Except.ok.injEq, ← h.clock] at heq
    exact h.presence_of_reply heq
  · intro hpresence inp
    rw [run_getBalances huser, run_getBalances huser, ← h.clock]
    cases hfault : (inp 0).fault with
    | some f => simp only [faulted, hfault, Except.bind]
    | none =>
      simp only [faulted, hfault, Except.bind]
      rw [← h.granted_eq hpresence]
      cases hgranted : granted user (w.db.wallets.get (.id request.param)) with
      | error e => rfl
      | ok wallet =>
        obtain ⟨hget, htenant⟩ := granted_ok hgranted
        simp only [h.snapshots hget htenant]

end Replies

/-- **When the reads of a tenant are isolated.**  For any two reachable states that agree on the rows of the
tenant, and any request of one of its users, each of the five routes sends the same status and body exactly
if the states share what the route shows of other tenants. -/
theorem sameReply_iff {verifyToken : String → Option User} {tenantOf tenantOf' : String → String} {w w' : World}
    (hw : Reachable tenantOf w) (hw' : Reachable tenantOf' w')
    (hverify : ∀ token user, verifyToken token = some user → tenantOf user.id = user.tenantId)
    {request : HttpRequest} {user : User} (huser : authenticate verifyToken request = .ok user)
    (hagree : AgreeOn user.tenantId tenantOf tenantOf' w w') (r : ReadRoute) :
    SameReply (r.serve verifyToken request) w w' ↔ r.Shared user request w w' := by
  cases r with
  | transactions => exact sameReply_list_iff hagree hw.tenancy huser
  | transaction => exact sameReply_getById_iff hagree hw.tenancy huser
  | wallets =>
    obtain ⟨token, htoken⟩ := verified_of_authenticate huser
    exact iff_of_true (sameReply_wallets hagree hw.tenancy hw'.tenancy huser (hverify token user htoken)) trivial
  | wallet => exact sameReply_wallet_iff hagree huser
  | balances => exact sameReply_balances_iff hagree huser

/-! ## Two states of another tenant -/

/-- The system in which the receiving wallet is another tenant's, under the given address. -/
def World.withStranger (address : String) (h : Wallet.sender.address ≠ address) : World :=
  { World.sample with db :=
    { Db.sample with
      wallets := ⟨[.sender, { Wallet.receiver with tenantId := "other", ownerId := "stranger", address }], by
        simp only [Wallet.sender] at h
        simp [Wallet.keys, Wallet.sender, Wallet.receiver, Ne.symm h]⟩
      tenants := ["tenant", "other"]
      users := ["user", "stranger"]
      owners := by simp [Wallet.sender, Wallet.receiver]
      references := by simp [Db.sample, Relational.Table.empty] } }

/-- The tenants of the two users. -/
def tenantOfSample (id : String) : String := if id = "user" then "tenant" else "other"

/-- The state after the user has sent to the stranger. -/
def sentTo (address : String) (h : Wallet.sender.address ≠ address) : World :=
  ((World.withStranger address h).start.after Deployment.defaults.system sampleTransfer).world

theorem sentTo_reachable (address : String) (h : Wallet.sender.address ≠ address) :
    Reachable tenantOfSample (sentTo address h) := by
  refine ⟨.defaults, .withStranger address h, sampleTransfer,
    ⟨List.cons_ne_nil _ _, rfl, rfl, rfl, rfl, rfl, rfl, rfl, fun _ => rfl⟩, ?_, ?_, rfl⟩
  · intro wallet hwallet
    simp only [World.withStranger, List.mem_cons, List.not_mem_nil, or_false] at hwallet
    rcases hwallet with rfl | rfl
    · decide
    · exact rfl
  · intro e he
    simp only [sampleTransfer, steps, List.mem_cons, List.mem_map] at he
    rcases he with rfl | ⟨i, _, rfl⟩ <;> exact trivial

def HttpRequest.sample : HttpRequest := { id := "req-1", authorization := some "Bearer jwt" }

theorem sentTo_agree :
    AgreeOn "tenant" tenantOfSample tenantOfSample (sentTo "0x01" (by decide)) (sentTo "0x02" (by decide)) :=
  ⟨fun _ => Iff.rfl, by decide +kernel, by decide +kernel, by decide +kernel, rfl, by decide +kernel⟩

/-- The user's own wallets are listed alike, whatever the address of the stranger. -/
theorem sameReply_iff_sent :
    (Reachable tenantOfSample (sentTo "0x01" (by decide)) ∧ Reachable tenantOfSample (sentTo "0x02" (by decide)) ∧
      AgreeOn User.sample.tenantId tenantOfSample tenantOfSample (sentTo "0x01" (by decide))
        (sentTo "0x02" (by decide))) ∧
    SameReply (ReadRoute.wallets.serve verifySample .sample) (sentTo "0x01" (by decide))
      (sentTo "0x02" (by decide)) := by
  refine ⟨⟨sentTo_reachable _ _, sentTo_reachable _ _, sentTo_agree⟩, ?_⟩
  refine (sameReply_iff (sentTo_reachable _ _) (sentTo_reachable _ _) ?_ (authenticate_sample rfl) sentTo_agree
    .wallets).mpr trivial
  intro token user huser
  simp only [verifySample, Option.ite_none_right_eq_some, Option.some.injEq] at huser
  rw [← huser.2]
  decide

/-- **The wallet of the stranger shows**: the list of the tenant's transactions has its address. -/
theorem stranger_shows :
    (Reachable tenantOfSample (sentTo "0x01" (by decide)) ∧ Reachable tenantOfSample (sentTo "0x02" (by decide)) ∧
      AgreeOn User.sample.tenantId tenantOfSample tenantOfSample (sentTo "0x01" (by decide))
        (sentTo "0x02" (by decide)) ∧
      authenticate verifySample .sample = .ok .sample) ∧
    ¬SameReply (ReadRoute.transactions.serve verifySample .sample) (sentTo "0x01" (by decide))
      (sentTo "0x02" (by decide)) := by
  refine ⟨⟨sentTo_reachable _ _, sentTo_reachable _ _, sentTo_agree, authenticate_sample rfl⟩, ?_⟩
  intro hsame
  have heq := hsame fun _ => {}
  revert heq
  decide +kernel

end TransactionSimulator
