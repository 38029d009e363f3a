import TransactionSimulator.Api.Routes
import TransactionSimulator.Ledger.Acceptance

/-!
# Retries of a transfer

A client that lost the reply to `POST /transactions` sends the request again, with the same
`Idempotency-Key`.  The route does not read the header: every copy that is admitted is a transfer of its
own, and can be broadcast.

* `wp_post`, `canMake_post`: what one request broadcasts, and that it can.
* `submitted_once_iff`: when a number of copies are broadcast at most once.
-/

namespace TransactionSimulator

open Concurrent Prog Texts

/-- The requests are by one tenant, under one key and with one body. -/
structure SameRequest (verifyToken : String → Option User) (tenantId key : String) (body : Json)
    (request : HttpRequest) : Prop where
  user : ∃ user, authenticate verifyToken request = .ok user ∧
    user.tenantId = tenantId
  idempotencyKey : request.idempotencyKey = some key
  sameBody : request.body = body

/-- The request with this body is let through to the adapter: its user may transfer, the body is valid,
and the transfer is accepted. -/
def Admitted (verifyToken : String → Option User) (registry : BlockchainAdapterRegistry) (db : Db)
    (body : Json) (request : HttpRequest) : Prop :=
  ∃ user transfer, preHandler verifyToken request [.USER, .ADMIN] = .ok user ∧
    transferSchema body = .ok transfer ∧
    Accepted registry db (TransactionRoutes.transferRequest user transfer)

/-- What the calls of one request come to. -/
def AtMostOne (verifyToken : String → Option User) (registry : BlockchainAdapterRegistry) (db : Db)
    (request : HttpRequest) (tr : List (Moment Call Input World)) : Prop :=
  (Found (fun m => m.op.isSubmission = true) tr → Admitted verifyToken registry db request.body request) ∧
    tr.countP (fun m => m.op.isSubmission) ≤ 1

/-- Requests to `POST /transactions`, any number of them at once. -/
def postSystem (verifyToken : String → Option User) (registry : BlockchainAdapterRegistry)
    (backoffDelayMs : Nat) : System Call Call.Res JsError World Input HttpRequest Shift where
  exec := exec
  prog request := (TransactionRoutes.post verifyToken registry backoffDelayMs request).void
  shift := World.shift

section Post

variable {verifyToken : String → Option User} {registry : BlockchainAdapterRegistry}
  {backoffDelayMs : Nat} {request : HttpRequest} {w₀ w : World}

theorem wp_errorHandler {α : Type} (request : HttpRequest) (error : JsError)
    {Q : List (Moment Call Input World) → Except JsError (HttpReply α) → World → Prop}
    (hQ : ∀ w' i, Books w w' → Q [⟨w', .now, i⟩] (.ok (errorReply request error w'.clock)) w') :
    wp exec Books Books (errorHandler request error) Q w := by
  refine wp_bind.mpr (wp_perform.mpr ?_)
  intro w₁ hpath i
  rw [exec_of_inProcess rfl]
  exact ⟨.refl w₁, hQ w₁ i (.star hpath)⟩

/-- **What a request broadcasts**, while others leave the tokens and wallets alone: nothing unless it is
admitted, and at most one transfer. -/
theorem wp_post (hw : Books w₀ w) :
    wp exec Books Books (TransactionRoutes.post verifyToken registry backoffDelayMs request)
      (fun tr _ _ => AtMostOne verifyToken registry w₀.db request tr) w := by
  unfold TransactionRoutes.post route
  cases hpre : preHandler verifyToken request [.USER, .ADMIN] with
  | error reply => exact ⟨fun h => absurd h found_nil, by simp⟩
  | ok user =>
    cases hbody : transferSchema request.body with
    | error issues => exact ⟨fun h => absurd h found_nil, by simp⟩
    | ok transfer =>
      have hadmitted : Accepted registry w₀.db (TransactionRoutes.transferRequest user transfer) →
          Admitted verifyToken registry w₀.db request.body request :=
        fun h => ⟨user, transfer, hpre, hbody, h⟩
      refine wp_tryCatch.mpr (wp_bind.mpr (wp_mono ?_ (wp_transfer_acts registry backoffDelayMs _ hw)))
      intro tr r w₁ h
      obtain ⟨hacts, hcount⟩ := h
      have hfound : Found (fun m => m.op.isSubmission = true) tr →
          Admitted verifyToken registry w₀.db request.body request := by
        intro h
        obtain ⟨m, hm, hsubmission⟩ := h
        exact hadmitted (hacts ⟨m, hm, .inr hsubmission⟩)
      cases r with
      | ok transaction =>
        simp only [pure_eq, wp, List.append_nil]
        exact ⟨hfound, hcount⟩
      | error e =>
        refine wp_errorHandler request e ?_
        intro w₂ i _
        have hclock : (Call.now).isSubmission = false := rfl
        simp only [AtMostOne, found_append, found_cons, found_nil, List.countP_append, List.countP_singleton,
          hclock]
        exact ⟨by simpa using hfound, by simpa using hcount⟩

/-- **An admitted request can be broadcast.** -/
theorem canMake_post (h : Admitted verifyToken registry w.db request.body request) :
    CanMake exec (fun _ _ _ => True) (fun m => m.op.isSubmission = true)
      ((TransactionRoutes.post verifyToken registry backoffDelayMs request).void) w := by
  obtain ⟨user, transfer, hpre, hbody, haccepted⟩ := h
  unfold TransactionRoutes.post route
  simp only [hpre, hbody]
  exact CanMake.bind _ (CanMake.tryCatch _ (CanMake.bind _ (canMake_submission backoffDelayMs haccepted)))

theorem admitted_of_books {body : Json} (hw : Books w w₀)
    (h : Admitted verifyToken registry w.db body request) :
    Admitted verifyToken registry w₀.db body request := by
  obtain ⟨user, transfer, hpre, hbody, ⟨token, fromWallet, toWallet, hrows⟩, hfits⟩ := h
  refine ⟨user, transfer, hpre, hbody, ⟨token, fromWallet, toWallet, ?_⟩, hfits⟩
  exact { hrows with
    tokenRow := by rw [hw.1]; exact hrows.tokenRow
    fromRow := by rw [hw.2]; exact hrows.fromRow
    toRow := by rw [hw.2]; exact hrows.toRow }

end Post

section Runs

variable {verifyToken : String → Option User} {registry : BlockchainAdapterRegistry} {backoffDelayMs : Nat}
  {rs : List HttpRequest} {w w' : World}

theorem wp_void_post (request : HttpRequest) (hw : Books w w') :
    wp exec Books Books ((TransactionRoutes.post verifyToken registry backoffDelayMs request).void)
      (fun tr _ _ => AtMostOne verifyToken registry w.db request tr) w' :=
  wp_void (wp_post hw)

variable (verifyToken registry backoffDelayMs w) in
theorem respects_post : Respects (postSystem verifyToken registry backoffDelayMs) Books Books (Books w)
    (fun _ => True) where
  refl := .refl
  sub _ _ h := h
  keeps _ _ h h' := h.trans h'
  task request _ w' hw' := wp_mono (fun _ _ _ _ => trivial) (wp_void_post request hw')
  shift d _ w' _ := by cases d <;> exact .refl w'

/-- Every request of a run, crashed ones included. -/
theorem atMostOne_callsOf {es : List (Event HttpRequest Input Shift)} {pid : Nat} {request : HttpRequest}
    (h : (spawned es)[pid]? = some request) :
    AtMostOne verifyToken registry w.db request
      (w.start.callsOf (postSystem verifyToken registry backoffDelayMs) pid es) := by
  have hcalls : ∀ pid request, ([] ++ spawned es)[pid]? = some request → AtMostOne verifyToken registry w.db
      request ([] ++ w.start.callsOf (postSystem verifyToken registry backoffDelayMs) pid es) := by
    refine calls_of_wp (F := AtMostOne verifyToken registry w.db) (c := w.start)
      (respects_post verifyToken registry backoffDelayMs w) ?_
      (fun request _ w' hw' => wp_void_post request hw') (Healthy.init (Books.refl w)) (Tracked.init w)
      (by simp) (fun _ _ => trivial)
    intro request tr tr' h
    refine ⟨fun hfound => h.1 (found_append.mpr (.inl hfound)), ?_⟩
    have hcount := h.2
    rw [List.countP_append] at hcount
    omega
  simpa using hcalls pid request (by simpa using h)

theorem countP_callsOf_eq_zero {es : List (Event HttpRequest Input Shift)} {pid : Nat}
    {request : HttpRequest} (h : (spawned es)[pid]? = some request)
    (hnot : ¬ Admitted verifyToken registry w.db request.body request) :
    (w.start.callsOf (postSystem verifyToken registry backoffDelayMs) pid es).countP
      (fun m => m.op.isSubmission) = 0 := by
  rw [List.countP_eq_zero]
  intro m hm hsubmission
  exact hnot ((atMostOne_callsOf h).1 ⟨m, hm, hsubmission⟩)

theorem exists_broadcast {c : SystemState} {pid : Nat} {request : HttpRequest}
    (hproc : c.procs[pid]? =
      some (some ((TransactionRoutes.post verifyToken registry backoffDelayMs request).void)))
    (h : Admitted verifyToken registry c.world.db request.body request) :
    ∃ inp n, 1 ≤ (c.moments (postSystem verifyToken registry backoffDelayMs) (stepping pid inp n)).countP
        (fun m => m.op.isSubmission) ∧
      ∀ pid', pid' ≠ pid → (c.after (postSystem verifyToken registry backoffDelayMs)
        (stepping pid inp n)).procs[pid']? = c.procs[pid']? := by
  obtain ⟨inp, n, ⟨m, hm, hsubmission⟩, hothers⟩ := exists_stepping
    (S := postSystem verifyToken registry backoffDelayMs) hproc (canMake_post h)
  exact ⟨inp, n, List.countP_pos_iff.mpr ⟨m, hm, hsubmission⟩, hothers⟩

variable (verifyToken registry backoffDelayMs) in
/-- **Two admitted requests can both be broadcast**, one after the other. -/
theorem exists_two_broadcasts {i j : Nat} {r r' : HttpRequest} (hij : i ≠ j) (hi : rs[i]? = some r)
    (hj : rs[j]? = some r') (h : Admitted verifyToken registry w.db r.body r)
    (h' : Admitted verifyToken registry w.db r'.body r') :
    ∃ es, spawned es = rs ∧ 2 ≤ (w.start.moments (postSystem verifyToken registry backoffDelayMs) es).countP
      (fun m => m.op.isSubmission) := by
  have hprocs : ∀ (k : Nat) (r : HttpRequest), rs[k]? = some r → (w.start.after (postSystem verifyToken registry backoffDelayMs)
      (rs.map Event.spawn)).procs[k]? =
      some (some ((TransactionRoutes.post verifyToken registry backoffDelayMs r).void)) := by
    intro k r hr
    rw [after_spawning]
    simp only [World.start, List.nil_append, List.getElem?_map, hr]
    rfl
  have hworld : (w.start.after (postSystem verifyToken registry backoffDelayMs)
      (rs.map Event.spawn)).world = w := by
    rw [after_spawning]
    rfl
  obtain ⟨inp, n, hfirst, hothers⟩ := exists_broadcast (hprocs i r hi) (by rw [hworld]; exact h)
  -- the tokens and wallets are still there when the second request is stepped
  have hbooks : Books w ((w.start.after (postSystem verifyToken registry backoffDelayMs)
      (rs.map Event.spawn)).after (postSystem verifyToken registry backoffDelayMs) (stepping i inp n)).world := by
    rw [← Config.after_append]
    exact (Healthy.after (respects_post verifyToken registry backoffDelayMs w)
      (Healthy.init (Books.refl w)) (by simp)).2.inv
  obtain ⟨inp', n', hsecond, -⟩ := exists_broadcast (hothers j hij.symm |>.trans (hprocs j r' hj))
    (admitted_of_books hbooks h')
  refine ⟨rs.map Event.spawn ++ (stepping i inp n ++ stepping j inp' n'), ?_, ?_⟩
  · rw [spawned_append, spawned_append, spawned_spawning, spawned_stepping, spawned_stepping,
      List.append_nil, List.append_nil]
  · rw [Config.moments_append, Config.moments_append, List.countP_append, List.countP_append]
    omega

end Runs

/-- **When copies of a request are broadcast at most once.**  Whatever the order of the steps, the crashes
and the faults: exactly if no two of the copies are admitted. -/
theorem submitted_once_iff (verifyToken : String → Option User) (registry : BlockchainAdapterRegistry)
    (backoffDelayMs : Nat) (w : World) {tenantId key : String} {body : Json} {rs : List HttpRequest}
    (hsame : ∀ r ∈ rs, SameRequest verifyToken tenantId key body r) :
    (∀ es, spawned es = rs →
      (w.start.moments (postSystem verifyToken registry backoffDelayMs) es).countP
        (fun m => m.op.isSubmission) ≤ 1) ↔
    rs.Pairwise fun r r' => ¬ (Admitted verifyToken registry w.db body r ∧
      Admitted verifyToken registry w.db body r') := by
  have hbody : ∀ {k : Nat} {r : HttpRequest}, rs[k]? = some r → r.body = body :=
    fun h => (hsame _ (List.mem_of_getElem? h)).sameBody
  constructor
  · intro hall
    rw [List.pairwise_iff_getElem]
    intro i j hi hj hij hboth
    have hri : rs[i]? = some rs[i] := List.getElem?_eq_getElem hi
    have hrj : rs[j]? = some rs[j] := List.getElem?_eq_getElem hj
    obtain ⟨es, hes, hcount⟩ := exists_two_broadcasts verifyToken registry backoffDelayMs (w := w)
      (by omega) hri hrj (by rw [hbody hri]; exact hboth.1) (by rw [hbody hrj]; exact hboth.2)
    have hle := hall es hes
    omega
  · intro hpairwise es hes
    subst hes
    rw [countP_moments _ (n := (spawned es).length) (by simp [length_procs_after, World.start])]
    by_cases hnone : ∃ (pid : Nat) (r : HttpRequest), (spawned es)[pid]? = some r ∧ Admitted verifyToken registry w.db body r
    · -- one request is admitted, and no other
      obtain ⟨pid, r, hr, hadmitted⟩ := hnone
      have hother : ∀ pid' ∈ Finset.range (spawned es).length, pid' ≠ pid →
          (w.start.callsOf (postSystem verifyToken registry backoffDelayMs) pid' es).countP
            (fun m => m.op.isSubmission) = 0 := by
        intro pid' hlt hne
        rw [Finset.mem_range] at hlt
        have hr' : (spawned es)[pid']? = some (spawned es)[pid'] := List.getElem?_eq_getElem hlt
        refine countP_callsOf_eq_zero hr' ?_
        rw [hbody hr']
        intro hadmitted'
        obtain ⟨hpid, rfl⟩ := List.getElem?_eq_some_iff.mp hr
        rw [List.pairwise_iff_getElem] at hpairwise
        rcases Nat.lt_or_gt_of_ne hne with hlt' | hlt'
        · exact hpairwise _ _ hlt hpid hlt' ⟨hadmitted', hadmitted⟩
        · exact hpairwise _ _ hpid hlt hlt' ⟨hadmitted, hadmitted'⟩
      rw [Finset.sum_eq_single pid hother (by
        intro hpid
        rw [Finset.mem_range] at hpid
        exact absurd (List.getElem?_eq_some_iff.mp hr).1 hpid)]
      exact (atMostOne_callsOf hr).2
    · rw [Finset.sum_eq_zero]
      · omega
      · intro pid hlt
        rw [Finset.mem_range] at hlt
        have hr : (spawned es)[pid]? = some (spawned es)[pid] := List.getElem?_eq_getElem hlt
        refine countP_callsOf_eq_zero hr ?_
        rw [hbody hr]
        exact fun hadmitted => hnone ⟨pid, _, hr, hadmitted⟩

/-! ## One client, two copies -/

/-- The sample system under ids that the schema accepts. -/
def World.withUuids : World :=
  { World.sample with db :=
    { Db.sample with
      wallets := ⟨[{ Wallet.sender with id := "22222222-2222-4222-8222-222222222222" },
        { Wallet.receiver with id := "33333333-3333-4333-8333-333333333333" }], by decide⟩
      tokens := ⟨[{ Token.sample with id := "11111111-1111-4111-8111-111111111111" }], by decide⟩
      owners := by decide
      references := by simp [Db.sample, Relational.Table.empty] } }

def transferBody : Json :=
  .obj [("tokenId", .str "11111111-1111-4111-8111-111111111111"),
    ("fromWalletId", .str "22222222-2222-4222-8222-222222222222"),
    ("toWalletId", .str "33333333-3333-4333-8333-333333333333"), ("amount", .str "7")]

/-- `POST /transactions` under the key `"key"`. -/
def HttpRequest.transfer (id : String) : HttpRequest :=
  { id, authorization := some "Bearer jwt", idempotencyKey := some "key", body := transferBody }

theorem sameRequest_transfer (id : String) :
    SameRequest verifySample "tenant" "key" transferBody (.transfer id) :=
  ⟨⟨.sample, authenticate_sample rfl, rfl⟩, rfl, rfl⟩

/-- A request that is sent once is broadcast at most once. -/
theorem submitted_once_iff_single :
    (∀ r ∈ [HttpRequest.transfer "req-1"], SameRequest verifySample "tenant" "key" transferBody r) ∧
    ∀ es, spawned es = [HttpRequest.transfer "req-1"] →
      (World.withUuids.start.moments (postSystem verifySample blockchainAdapterRegistry 5000) es).countP
        (fun m => m.op.isSubmission) ≤ 1 := by
  have hsame : ∀ r ∈ [HttpRequest.transfer "req-1"],
      SameRequest verifySample "tenant" "key" transferBody r := by
    intro r hr
    rw [List.mem_singleton] at hr
    rw [hr]
    exact sameRequest_transfer _
  exact ⟨hsame, (submitted_once_iff verifySample blockchainAdapterRegistry 5000 .withUuids hsame).mpr
    (List.pairwise_singleton _ _)⟩

/-- The client sends its request, loses the reply, and sends it again. -/
def retried : List (Event HttpRequest Input Shift) :=
  .spawn (.transfer "req-1") :: (transferInputs "tx-1" "0x01").map (.step 0) ++
    .spawn (.transfer "req-2") :: (transferInputs "tx-2" "0x02").map (.step 1)

/-- The transfer is broadcast twice. -/
theorem retried_twice :
    (∀ r ∈ spawned retried, SameRequest verifySample "tenant" "key" transferBody r) ∧
    (World.withUuids.start.moments (postSystem verifySample blockchainAdapterRegistry 5000) retried).countP
      (fun m => m.op.isSubmission) = 2 := by
  refine ⟨?_, by decide +kernel⟩
  intro r hr
  have hspawned : spawned retried = [.transfer "req-1", .transfer "req-2"] := rfl
  rw [hspawned, List.mem_cons, List.mem_singleton] at hr
  rcases hr with rfl | rfl <;> exact sameRequest_transfer _

end TransactionSimulator
