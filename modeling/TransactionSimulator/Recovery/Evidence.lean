import TransactionSimulator.Recovery.Health

/-!
# The evidence of pending recovery

`findMatchingTransfer` looks for the row that the event listener has written for a transfer.  The
listener keeps the addresses of a log as the RPC client spells them, in checksum case; the
services store the address of an EVM wallet in lower case; the lookup compares texts as they are
spelled.

* `registered_after`: a wallet that was not there at the start has a normalized address.
* `evidence_iff`: the lookup finds the row exactly if the two spellings agree.
-/

namespace TransactionSimulator

open Concurrent Prog Relational TransactionStatus

/-! ## Wallets that were registered -/

/-- The address of the wallet is stored in the normal form of its chain. -/
def Wallet.Normalized (env : ProcessEnv) (x : Wallet) : Prop :=
  ∃ raw, normalizeWalletAddress env x.chainId raw = .ok x.address

/-- Every new wallet is normalized. -/
def Registering (env : ProcessEnv) (w w' : World) : Prop :=
  ∀ x ∈ w'.db.wallets.rows, x ∈ w.db.wallets.rows ∨ x.Normalized env

theorem registering_of_eq {env : ProcessEnv} {w w' : World} (h : w'.db.wallets = w.db.wallets) :
    Registering env w w' := by
  intro x hx
  rw [h] at hx
  exact .inl hx

theorem Stmt.exec_wallets {s : Stmt} (h : ∀ data, s ≠ .walletCreate data) (env : StmtEnv) (db : Db) :
    (s.exec env db).2.wallets = db.wallets := by
  refine (s.exec_sameBut env db).wallets ?_
  cases s with
  | walletCreate data => exact absurd rfl (h data)
  | _ => simp [Stmt.target]

/-- **Every call that a process may make registers normalized wallets only.** -/
theorem registering_of_permitted {env : ProcessEnv} {A : List Right} {o : Call}
    (h : Permitted env A o) (i : Input) (w : World) : Registering env w (exec o i w).2 := by
  refine exec_snd (P := Registering env) (registering_of_eq rfl) ?_
  cases o with
  | stmt s =>
    by_cases hs : ∀ data, s ≠ .walletCreate data
    · exact registering_of_eq (Stmt.exec_wallets hs _ _)
    · push Not at hs
      obtain ⟨data, rfl⟩ := hs
      obtain ⟨-, raw, hraw⟩ := h
      intro x hx
      rcases Db.mem_createWallet hx with hx | rfl
      · exact .inl hx
      · exact .inr ⟨raw, hraw⟩
  | transaction body =>
    obtain ⟨_, tx, result, rfl⟩ := h
    have hp := persistBody_spec tx result ⟨w.clock, i.uuid⟩ w.db
    simp only [Call.effect]
    generalize ConfirmationProcessor.persistBody tx result ⟨w.clock, i.uuid⟩ w.db = r at hp
    cases hp <;> exact registering_of_eq rfl
  | queueTake =>
    simp only [Call.effect]
    split
    · split <;> exact registering_of_eq rfl
    · exact registering_of_eq rfl
  | getTransaction | submitTransfer | generateWallet | balanceOf | nativeBalance | processingAdd =>
    simp only [Call.effect]
    split <;> exact registering_of_eq rfl
  | _ => exact registering_of_eq rfl

theorem respects_wallets (D : Deployment) :
    Respects D.system (Registering D.processEnv) (Registering D.processEnv) (fun _ => True)
      fun _ => True where
  refl w := registering_of_eq rfl
  sub w w' h := h
  keeps w w' _ _ := trivial
  task t _ w _ := (permitted_prog D t).safe (fun _ ho i w => registering_of_permitted ho i w) w
  shift d _ w _ := by
    cases d <;> exact registering_of_eq rfl

/-- **A wallet that was not there at the start is normalized.** -/
theorem registered_after (D : Deployment) (w : World) (es : List SystemEvent) {x : Wallet}
    (hx : x ∈ (w.start.after D.system es).world.db.wallets.rows) (hnew : x ∉ w.db.wallets.rows) :
    x.Normalized D.processEnv := by
  have hinit : Healthy D.system (Registering D.processEnv) (Registering D.processEnv)
      (fun _ => True) w.start := Healthy.init trivial
  have hes : ∀ e ∈ es, True := fun _ _ => trivial
  have hpath := (hinit.after (respects_wallets D) hes).1
  generalize (w.start.after D.system es).world = w' at hpath hx
  induction hpath with
  | refl => exact absurd hx hnew
  | tail _ hstep ih =>
    rcases hstep x hx with hx | hx
    · exact ih hx
    · exact hx

theorem Wallet.Normalized.lower {env : ProcessEnv} {x : Wallet} (h : x.Normalized env)
    (hchain : isEvmChainId env x.chainId = .ok true) : Js.toLowerCase x.address = x.address := by
  obtain ⟨raw, hraw⟩ := h
  have hlower : normalizeWalletAddress env x.chainId raw = .ok (Js.toLowerCase raw) := by
    rw [normalizeWalletAddress, isCaseInsensitiveWalletAddress, hchain]
    rfl
  rw [hraw, Except.ok.injEq] at hlower
  rw [hlower, Js.toLowerCase_toLowerCase]

/-! ## Addresses in checksum case -/

/-- `getAddress` of viem: the EIP-55 spelling of an address.  It changes nothing but the case, and
does not depend on the case it is given. -/
structure Checksum where
  spell : String → String
  lower : ∀ s, Js.toLowerCase (spell s) = Js.toLowerCase s
  same : ∀ s s', Js.toLowerCase s = Js.toLowerCase s' → spell s = spell s'

/-- The RPC client delivers the addresses of every log in checksum case. -/
def World.Checksummed (w : World) (cs : Checksum) : Prop :=
  ∀ b ∈ w.chain, ∀ l ∈ b.logs,
    cs.spell l.fromAddress = l.fromAddress ∧ cs.spell l.toAddress = l.toAddress

theorem spell_row {cs : Checksum} {start : Nat} {w : World} (hcs : w.Checksummed cs)
    (hsound : w.index.Sound start) {r : TokenTransfer} (hr : r ∈ w.db.tokenTransfers.rows) :
    cs.spell r.fromAddress = r.fromAddress ∧ cs.spell r.toAddress = r.toAddress := by
  obtain ⟨l, n, ⟨b, hb, hl⟩, -, hcarries⟩ := hsound.observed r hr
  rw [hcarries.fromAddress, hcarries.toAddress]
  exact hcs b (List.mem_of_getElem? hb) l hl

/-- The wallet `id` was registered after the start, on the EVM chain, for the address in some
letter case. -/
structure RegisteredFor (env : ProcessEnv) (w₀ w : World) (x : Wallet) (id address : String) :
    Prop where
  row : x ∈ w.db.wallets.rows
  id : x.id = id
  new : x ∉ w₀.db.wallets.rows
  evm : isEvmChainId env x.chainId = .ok true
  address : Js.toLowerCase x.address = Js.toLowerCase address

/-- The row `r` of the listener is evidence for the pending transaction `t`, a transfer from the
wallet `a` to the wallet `b`. -/
structure Attests (env : ProcessEnv) (w₀ w : World) (r : TokenTransfer) (t : Transaction)
    (a b : Wallet) : Prop where
  recorded : r ∈ w.db.tokenTransfers.rows
  transaction : t ∈ w.db.transactions.rows
  pending : t.status = PENDING
  token : t.tokenId = r.tokenId
  amount : t.amount = r.amount
  created : t.createdAt ≤ r.createdAt
  sender : RegisteredFor env w₀ w a t.fromWalletId r.fromAddress
  receiver : RegisteredFor env w₀ w b t.toWalletId r.toAddress

/-- What `findMatchingTransfer` answers to `recoverOne`. -/
def World.evidence (w : World) (t : Transaction) (a b : Wallet) : Option TokenTransfer :=
  w.db.tokenTransfers.findFirst
    (TransferRepository.matchesTransfer t.tokenId a.address b.address t.amount t.createdAt)
    fun r => some r.createdAt

/-- **The lookup**, where the database answers. -/
theorem findMatchingTransfer_run {inp : Nat → Input} (hinp : (inp 0).fault = none) (w : World)
    (t : Transaction) (a b : Wallet) :
    ((TransferRepository.findMatchingTransfer t.tokenId a.address b.address t.amount
      t.createdAt).run exec inp w).1 = .ok (w.evidence t a b) := by
  simp only [TransferRepository.findMatchingTransfer, prisma, perform, run, exec_of_fault_none hinp]
  rfl

section Evidence

variable {D : Deployment} {w : World} {es : List SystemEvent} {cs : Checksum} {r : TokenTransfer}
  {t : Transaction} {a b : Wallet}

theorem RegisteredFor.lower {x : Wallet} {id address : String}
    (h : RegisteredFor D.processEnv w (w.start.after D.system es).world x id address) :
    x.address = Js.toLowerCase address := by
  rw [← (registered_after D w es h.row h.new).lower h.evm, h.address]

/-- The spelling of the listener and that of the wallets. -/
def Agree (cs : Checksum) (r : TokenTransfer) : Prop :=
  cs.spell r.fromAddress = Js.toLowerCase r.fromAddress ∧
    cs.spell r.toAddress = Js.toLowerCase r.toAddress

theorem Attests.matches (h : Attests D.processEnv w (w.start.after D.system es).world r t a b)
    (hr : cs.spell r.fromAddress = r.fromAddress ∧ cs.spell r.toAddress = r.toAddress)
    (hagree : Agree cs r) :
    TransferRepository.matchesTransfer t.tokenId a.address b.address t.amount t.createdAt r =
      true := by
  have hfrom : r.fromAddress = a.address := by rw [h.sender.lower, ← hagree.1, hr.1]
  have hto : r.toAddress = b.address := by rw [h.receiver.lower, ← hagree.2, hr.2]
  simp [TransferRepository.matchesTransfer, hfrom, hto, h.token, h.amount, h.created]

/-- **The lookup finds evidence exactly if the spellings agree.** -/
theorem evidence_isSome_iff (hw : w.Initial)
    (hcs : (w.start.after D.system es).world.Checksummed cs)
    (h : Attests D.processEnv w (w.start.after D.system es).world r t a b) :
    ((w.start.after D.system es).world.evidence t a b).isSome = true ↔ Agree cs r := by
  have hsound := indexSound_after D hw es
  rw [World.evidence, Table.findFirst_isSome_iff]
  constructor
  · rintro ⟨s, hs, hmatch⟩
    simp only [TransferRepository.matchesTransfer, Bool.and_eq_true, decide_eq_true_eq] at hmatch
    obtain ⟨⟨⟨⟨-, hfrom⟩, hto⟩, -⟩, -⟩ := hmatch
    obtain ⟨hsfrom, hsto⟩ := spell_row hcs hsound hs
    rw [h.sender.lower] at hfrom
    rw [h.receiver.lower] at hto
    -- the row found has the same addresses, so its spelling is that of `r`
    constructor
    · rw [cs.same r.fromAddress s.fromAddress (by rw [hfrom, Js.toLowerCase_toLowerCase]), hsfrom,
        hfrom]
    · rw [cs.same r.toAddress s.toAddress (by rw [hto, Js.toLowerCase_toLowerCase]), hsto, hto]
  · intro hagree
    exact ⟨r, h.recorded, h.matches (spell_row hcs hsound h.recorded) hagree⟩

end Evidence

/-- Pending recovery does not fail a transaction for which it finds evidence, and what has been
recorded stays. -/
theorem wp_recoverOne_matching (processor : PendingRecoveryProcessor) {start : Nat} {w : World}
    {r : TokenTransfer} {t : Transaction} {a b : Wallet} (hr : r ∈ w.db.tokenTransfers.rows)
    (hmatch : TransferRepository.matchesTransfer t.tokenId a.address b.address t.amount t.createdAt r =
      true) :
    wp exec (Indexing start) (Indexing start) (processor.recoverOne (t, a, b))
      (fun tr _ _ => ∀ m ∈ tr, ¬ MarksFailed m.op) w := by
  have hkept : Stable (Indexing start) (Indexing start) fun w => r ∈ w.index.transfers :=
    stable_index (F := fun x => r ∈ x.transfers) fun _ _ h hr => h.kept r hr
  have hlog : All (Permitted (fun _ => none) [])
      (perform (Call.emit (.log "transaction.pending.recovery.failed")) : Program Unit) :=
    permitted_emit _ rfl
  refine wp_tryCatch.mpr (wp_mono (Q := fun tr _ _ => ∀ m ∈ tr, ¬ MarksFailed m.op) ?_ ?_)
  · intro tr r w' hnone
    cases r with
    | ok a => exact hnone
    | error e =>
      refine wp_mono ?_ (hlog.wp_trace (safe_offIndex hlog (by simp) w'))
      rintro tr' r' w'' ⟨hcalls, -⟩
      exact List.forall_mem_append.mpr
        ⟨hnone, fun m hm => not_marksFailed (by simp) (hcalls m hm)⟩
  refine wp_bind.mpr (wp_perform.mpr ?_)
  intro w₁ hw₁ i
  refine ⟨indexing_stmt rfl i w₁, ?_⟩
  have hfirst : ¬ MarksFailed (Call.stmt (.tokenTransferFindFirst
      (TransferRepository.matchesTransfer t.tokenId a.address b.address t.amount t.createdAt))) := by
    rintro ⟨_, _, _, h, -⟩
    cases h
  have hr₁ := hkept.star hw₁ hr
  split
  · next found hok =>
    have heff := exec_ok hok
    rw [heff] at hok ⊢
    have hfound : w₁.evidence t a b = found := Except.ok.inj hok
    have hsome : (w₁.evidence t a b).isSome = true :=
      w₁.db.tokenTransfers.findFirst_isSome_iff.mpr ⟨r, hr₁, hmatch⟩
    rw [hfound] at hsome
    obtain ⟨transfer, rfl⟩ := Option.isSome_iff_exists.mp hsome
    have hadopt : All (Permitted (fun _ => none) [.write .submit, .queue])
        (PendingRecoveryProcessor.adopt t transfer.transactionHash) :=
      permitted_adopt (by simp) (by simp) _ _
    refine wp_mono ?_ (hadopt.wp_trace (safe_offIndex hadopt (by simp) _))
    rintro tr r' w' ⟨hcalls, -⟩
    exact List.forall_mem_cons.mpr
      ⟨hfirst, fun m hm => not_marksFailed (by simp) (hcalls m hm)⟩
  · exact List.forall_mem_singleton.mpr hfirst

/-- **When the evidence is found.**  Let the listener have recorded a transfer that is evidence
for a pending transaction, between wallets that the services have registered for its addresses.
The lookup of pending recovery returns a row exactly if the checksum spelling of both addresses is
the lower-case one; the transaction is then not failed. -/
theorem evidence_iff (D : Deployment) (w : World) (hw : w.Initial) (es : List SystemEvent)
    (cs : Checksum) (hcs : (w.start.after D.system es).world.Checksummed cs) (r : TokenTransfer)
    (t : Transaction) (a b : Wallet)
    (h : Attests D.processEnv w (w.start.after D.system es).world r t a b) :
    (∀ inp : Nat → Input, (inp 0).fault = none →
      ((∃ found, ((TransferRepository.findMatchingTransfer t.tokenId a.address b.address t.amount
          t.createdAt).run exec inp (w.start.after D.system es).world).1 = .ok (some found)) ↔
        Agree cs r)) ∧
    (Agree cs r → ∀ inp, ∀ u ∈ ownTrace D.system (D.pendingRecovery.recoverOne (t, a, b)) inp
      (w.start.after D.system es), ¬ MarksFailed u.op) := by
  constructor
  · intro inp hinp
    rw [← evidence_isSome_iff hw hcs h, Option.isSome_iff_exists, findMatchingTransfer_run hinp]
    simp only [Except.ok.injEq]
  · intro hagree inp
    have hhealthy := (index_path D hw es).2
    have hmatch := h.matches (spell_row hcs hhealthy.inv h.recorded) hagree
    have hinp : ∀ n, ∀ e ∈ (inp n).1, True := fun _ _ _ => trivial
    exact run_interleave_of_wp (respects_index D) hhealthy
      (wp_recoverOne_matching D.pendingRecovery h.recorded hmatch) hinp

/-! ## A request that is lost after its broadcast

Two wallets are registered, a transfer between them is requested, and the process is lost after the
broadcast.  The transfer is mined, and a listener records it when the recovery window has passed. -/

def World.unregistered : World :=
  { World.sample with
    db := { Db.sample with
      wallets := .empty
      owners := by simp [Table.empty]
      references := by simp [Db.sample, Table.empty] } }

theorem World.unregistered_initial : World.unregistered.Initial :=
  ⟨by decide, rfl, rfl, rfl, rfl, rfl, rfl, rfl, fun _ => rfl⟩

def lostRequest (fromAddress toAddress : String) : List SystemEvent :=
  .spawn (.createCustodialWallet ⟨"tenant", "user", 31337⟩) ::
    steps 0 [{ reply := .address fromAddress }, { uuid := "sender" }] ++
  .spawn (.createWallet ⟨"tenant", "user", 31337⟩ toAddress) ::
    steps 1 [{}, { uuid := "receiver" }] ++
  .spawn (.transfer .sample) :: steps 2 ((transferInputs "tx" "0x01").take 7) ++
  [.crash 2, .shift (.mine [{ TransferLog.sample with fromAddress, toAddress }]),
    .shift (.tick 900000)] ++
  .spawn (.processTokenEvents "listener" "token") ::
    steps 3 (List.replicate 13 { uuid := "a", reply := .balance 7 } ++
      List.replicate 12 { uuid := "b", reply := .balance 7 })

/-- The recovery pass that follows. -/
def recoveryPass : List SystemEvent :=
  .spawn .processOrphanedPending :: steps 4 (List.replicate 15 {})

def TokenTransfer.lost (fromAddress toAddress : String) : TokenTransfer :=
  ⟨"a", "token", fromAddress, toAddress, 7, "0x01", 0, 1, 1900000⟩

def Transaction.lost : Transaction :=
  { Transaction.sample with txHash := none, status := PENDING, submittedAt := none }

def Wallet.senderAt (address : String) : Wallet :=
  { Wallet.sender with address := Js.toLowerCase address }

def Wallet.receiverAt (address : String) : Wallet :=
  { Wallet.receiver with address := Js.toLowerCase address }

section Lost

variable {fromAddress toAddress : String}

/-- What the run leaves for it. -/
def Leaves (fromAddress toAddress : String) (w : World) : Prop :=
  w.chain = [⟨0, []⟩, ⟨1000000, [{ TransferLog.sample with fromAddress, toAddress }]⟩] ∧
  w.db.tokenTransfers.rows = [.lost fromAddress toAddress] ∧ w.db.transactions.rows = [.lost] ∧
  w.db.wallets.rows = [.senderAt fromAddress, .receiverAt toAddress]

instance (w : World) : Decidable (Leaves fromAddress toAddress w) :=
  inferInstanceAs (Decidable (_ ∧ _ ∧ _ ∧ _))

theorem Leaves.attests {w : World} (h : Leaves fromAddress toAddress w) :
    Attests Deployment.defaults.processEnv .unregistered w (.lost fromAddress toAddress) .lost
      (.senderAt fromAddress) (.receiverAt toAddress) := by
  obtain ⟨-, htransfers, htransactions, hwallets⟩ := h
  have hcreated : Transaction.lost.createdAt ≤ 1900000 := by decide
  refine ⟨by simp [htransfers], by simp [htransactions], rfl, rfl, rfl, hcreated, ?_, ?_⟩
  · exact ⟨by simp [hwallets], rfl, List.not_mem_nil, rfl, Js.toLowerCase_toLowerCase _⟩
  · exact ⟨by simp [hwallets], rfl, List.not_mem_nil, rfl, Js.toLowerCase_toLowerCase _⟩

theorem Leaves.checksummed {w : World} (h : Leaves fromAddress toAddress w) (cs : Checksum)
    (hfrom : cs.spell fromAddress = fromAddress) (hto : cs.spell toAddress = toAddress) :
    w.Checksummed cs := by
  intro b hb l hl
  rw [h.1] at hb
  simp only [List.mem_cons, List.not_mem_nil, or_false] at hb
  rcases hb with rfl | rfl
  · cases hl
  · rw [List.mem_singleton.mp hl]
    exact ⟨hfrom, hto⟩

end Lost

/-- The checksum spelling of the addresses used here. -/
def Checksum.vectors : Checksum where
  spell s :=
    if Js.toLowerCase s = Js.toLowerCase TransferLog.sample.fromAddress then
      TransferLog.sample.fromAddress
    else if Js.toLowerCase s = Js.toLowerCase TransferLog.sample.toAddress then
      TransferLog.sample.toAddress
    else Js.toLowerCase s
  lower s := by
    split
    · next h => exact h.symm
    · split
      · next h => exact h.symm
      · exact Js.toLowerCase_toLowerCase s
  same s s' h := by rw [h]

/-- **The evidence is missed**: the transfer is recorded, the lookup finds nothing, and the
transaction is failed although it was broadcast. -/
theorem lostRequest_missed :
    (World.unregistered.start.after Deployment.defaults.system (lostRequest
      TransferLog.sample.fromAddress TransferLog.sample.toAddress)).world.Checksummed .vectors ∧
    Attests Deployment.defaults.processEnv .unregistered (World.unregistered.start.after
        Deployment.defaults.system (lostRequest TransferLog.sample.fromAddress
          TransferLog.sample.toAddress)).world
      (.lost TransferLog.sample.fromAddress TransferLog.sample.toAddress) .lost
      (.senderAt TransferLog.sample.fromAddress) (.receiverAt TransferLog.sample.toAddress) ∧
    ((TransferRepository.findMatchingTransfer Transaction.lost.tokenId
      (Wallet.senderAt TransferLog.sample.fromAddress).address
      (Wallet.receiverAt TransferLog.sample.toAddress).address Transaction.lost.amount
      Transaction.lost.createdAt).run exec (fun _ => {}) (World.unregistered.start.after
        Deployment.defaults.system (lostRequest TransferLog.sample.fromAddress
          TransferLog.sample.toAddress)).world).1 = .ok none ∧
    ((World.unregistered.start.after Deployment.defaults.system (lostRequest
      TransferLog.sample.fromAddress TransferLog.sample.toAddress ++
        recoveryPass)).world.db.transactions.rows.map (·.status)) = [FAILED] := by
  have hleaves : Leaves TransferLog.sample.fromAddress TransferLog.sample.toAddress
      (World.unregistered.start.after Deployment.defaults.system (lostRequest
        TransferLog.sample.fromAddress TransferLog.sample.toAddress)).world := by
    decide +kernel
  have hcs := hleaves.checksummed .vectors (by decide) (by decide)
  refine ⟨hcs, hleaves.attests, ?_, ?_⟩
  · have hagree : ¬ Agree .vectors
        (.lost TransferLog.sample.fromAddress TransferLog.sample.toAddress) := by
      rintro ⟨hfrom, -⟩
      exact absurd hfrom (by decide)
    rw [← evidence_isSome_iff World.unregistered_initial hcs hleaves.attests] at hagree
    rw [findMatchingTransfer_run rfl, Option.not_isSome_iff_eq_none.mp hagree]
  · decide +kernel

/-- Two addresses whose checksum spelling has no capitals: the evidence is found. -/
theorem evidence_iff_lower :
    ∃ found, ((TransferRepository.findMatchingTransfer Transaction.lost.tokenId
      (Wallet.senderAt "0xde709f2102306220921060314715629080e2fb77").address
      (Wallet.receiverAt "0x27b1fdb04752bbc536007a920d24acb045561c26").address
      Transaction.lost.amount Transaction.lost.createdAt).run exec (fun _ => {})
        (World.unregistered.start.after Deployment.defaults.system (lostRequest
          "0xde709f2102306220921060314715629080e2fb77"
          "0x27b1fdb04752bbc536007a920d24acb045561c26")).world).1 = .ok (some found) := by
  have hleaves : Leaves "0xde709f2102306220921060314715629080e2fb77"
      "0x27b1fdb04752bbc536007a920d24acb045561c26"
      (World.unregistered.start.after Deployment.defaults.system (lostRequest
        "0xde709f2102306220921060314715629080e2fb77"
        "0x27b1fdb04752bbc536007a920d24acb045561c26")).world := by
    decide +kernel
  have hcs := hleaves.checksummed .vectors (by decide) (by decide)
  refine ((evidence_iff .defaults .unregistered World.unregistered_initial _ .vectors hcs _ _ _ _
    hleaves.attests).1 (fun _ => {}) rfl).mpr ?_
  exact ⟨by decide, by decide⟩

end TransactionSimulator
