import Mathlib.Logic.Function.Basic
import TransactionSimulator.Workers.Confirmation

/-!
# The ledger as a state machine

What the ledger is for, apart from statements, clients and processes: rows that move along the
table of transitions, an outbox that announces confirmations, and the answers of the chains that
justify a move.

* `Ledger.Moves k t t'`: what a write of kind `k` does to a row.
* `Ledger.Step`, `Ledger.Change`: what can happen to the ledger at once.
* `Ledger.History t h`: the row `t` was made by the moves that `h` lists.
* `Ledger.Sound`: the invariant, kept by every change (`Sound.change`).
-/

namespace TransactionSimulator

open TransactionStatus TransactionStateMachine

/-- The rows by id, the outbox, what the adapters have answered, and the chain of each token. -/
structure Ledger where
  row : String → Option Transaction
  events : List OutboxEvent
  answers : List Answer
  chainOf : String → Option Blockchain

namespace Ledger

/-- The kinds of writes.  `revert` and `fail` both end in FAILED: the first because a chain
answered so, the second for any other reason. -/
inductive Kind
  | create
  | submit
  | claim
  | confirm
  | revert
  | fail
  | expire
  deriving DecidableEq, Repr

/-- The adapter of the row's chain has answered `result` for the row's hash. -/
def Answered (l : Ledger) (t : Transaction) (result : BlockchainTransaction) : Prop :=
  ∃ a ∈ l.answers, l.chainOf t.tokenId = some a.chain ∧ t.txHash = some a.txHash ∧
    a.result = result

/-- The adapter of the row's chain has answered with this status for the row's hash. -/
def AnsweredWith (l : Ledger) (t : Transaction) (status : ConfirmationStatus) : Prop :=
  ∃ result, l.Answered t result ∧ result.status = status

/-- A row as it is created: every column that a later write sets is null. -/
structure Fresh (t : Transaction) : Prop where
  status : t.status = PENDING
  txHash : t.txHash = none
  submittedAt : t.submittedAt = none
  confirmationStartedAt : t.confirmationStartedAt = none
  blockNumber : t.blockNumber = none
  confirmedAt : t.confirmedAt = none
  failureReason : t.failureReason = none
  failedAt : t.failedAt = none

/-- What a write of each kind asks of a row and does to it. -/
inductive Moves : Kind → Transaction → Transaction → Prop
  | submit {t : Transaction} (hash : String) (at_ : Date) (h : t.status = PENDING) :
      Moves .submit t { t with status := SUBMITTED, txHash := some hash, submittedAt := some at_ }
  | claim {t : Transaction} (at_ : Date) (h : t.status = SUBMITTED) :
      Moves .claim t { t with status := CONFIRMING, confirmationStartedAt := some at_ }
  | confirm {t : Transaction} (blockNumber : Nat) (gasUsed : Option Nat) (at_ : Date)
      (h : t.status = CONFIRMING) :
      Moves .confirm t
        { t with
          status := CONFIRMED, blockNumber := some blockNumber, gasUsed := gasUsed,
          confirmedAt := some at_ }
  | revert {t : Transaction} (reason : String) (at_ : Date)
      (h : t.status = PENDING ∨ t.status = CONFIRMING) :
      Moves .revert t { t with status := FAILED, failureReason := some reason, failedAt := some at_ }
  | fail {t : Transaction} (reason : String) (at_ : Date)
      (h : t.status = PENDING ∨ t.status = CONFIRMING) :
      Moves .fail t { t with status := FAILED, failureReason := some reason, failedAt := some at_ }
  | expire {t : Transaction} (reason : String) (at_ : Date) (h : t.status = CONFIRMING) :
      Moves .expire t
        { t with status := EXPIRED, failureReason := some reason, failedAt := some at_ }

/-- The answer that a write of this kind needs. -/
def Evidence (l : Ledger) (t : Transaction) : Kind → Prop
  | .claim => l.AnsweredWith t .confirmed
  | .revert => l.AnsweredWith t .failed
  | _ => True

/-- The event announces the confirmation of the row. -/
structure Announces (e : OutboxEvent) (t : Transaction) : Prop where
  aggregateId : e.aggregateId = t.id
  type : e.type = "transaction.confirmed"
  payload : e.payload = ConfirmationProcessor.confirmedPayload t

/-- The ledger with the row written under its id. -/
def put (l : Ledger) (t : Transaction) : Ledger :=
  { l with row := Function.update l.row t.id (some t) }

/-- One write to the row `id`.  A confirmation writes the row and its event at once. -/
inductive Step : Kind → String → Ledger → Ledger → Prop
  | create {l : Ledger} {t : Transaction} (free : l.row t.id = none) (fresh : Fresh t) :
      Step .create t.id l (l.put t)
  | move {l : Ledger} {k : Kind} {t t' : Transaction} (hk : k ≠ .confirm)
      (found : l.row t.id = some t) (moves : Moves k t t') (evidence : l.Evidence t k) :
      Step k t.id l (l.put t')
  | confirm {l : Ledger} {t t' : Transaction} {e : OutboxEvent} {result : BlockchainTransaction}
      (found : l.row t.id = some t) (moves : Moves .confirm t t') (announces : Announces e t')
      (answered : l.Answered t result) (confirmed : result.status = .confirmed)
      (blockNumber : t'.blockNumber = result.blockNumber.map Js.number)
      (gasUsed : t'.gasUsed = result.gasUsed) :
      Step .confirm t.id l { l.put t' with events := l.events ++ [e] }

/-- What can happen to the ledger at once, where writes are of the kinds `K` only. -/
inductive Change (K : List Kind) : Ledger → Ledger → Prop
  | refl (l : Ledger) : Change K l l
  | answer (l : Ledger) (a : Answer) : Change K l { l with answers := a :: l.answers }
  | step {k : Kind} {id : String} {l l' : Ledger} (hk : k ∈ K) (h : Step k id l l') : Change K l l'

theorem Change.mono {K K' : List Kind} (hK : ∀ k ∈ K, k ∈ K') {l l' : Ledger} (h : Change K l l') :
    Change K' l l' := by
  cases h with
  | refl => exact .refl _
  | answer => exact .answer _ _
  | step hk h => exact .step (hK _ hk) h

/-! ## One move of a row -/

/-- **Every move is an edge of the table of transitions.** -/
theorem Moves.canTransition {k : Kind} {t t' : Transaction} (h : Moves k t t') :
    canTransition t.status t'.status = true := by
  cases h with
  | submit hash at_ h => rw [h]; rfl
  | claim at_ h => rw [h]; rfl
  | confirm blockNumber gasUsed at_ h => rw [h]; rfl
  | revert reason at_ h => rcases h with h | h <;> rw [h] <;> rfl
  | fail reason at_ h => rcases h with h | h <;> rw [h] <;> rfl
  | expire reason at_ h => rw [h]; rfl

theorem Moves.not_terminal {k : Kind} {t t' : Transaction} (h : Moves k t t') :
    t.status.isTerminal = false := by
  cases h with
  | submit hash at_ h => rw [h]; rfl
  | claim at_ h => rw [h]; rfl
  | confirm blockNumber gasUsed at_ h => rw [h]; rfl
  | revert reason at_ h => rcases h with h | h <;> rw [h] <;> rfl
  | fail reason at_ h => rcases h with h | h <;> rw [h] <;> rfl
  | expire reason at_ h => rw [h]; rfl

theorem Moves.frame {k : Kind} {t t' : Transaction} (h : Moves k t t') :
    t'.id = t.id ∧ t'.tenantId = t.tenantId ∧ t'.tokenId = t.tokenId ∧ t'.amount = t.amount := by
  cases h <;> exact ⟨rfl, rfl, rfl, rfl⟩

theorem Moves.ne_pending {k : Kind} {t t' : Transaction} (h : Moves k t t') :
    t'.status ≠ PENDING := by
  cases h <;> simp

theorem Moves.txHash {k : Kind} {t t' : Transaction} (h : Moves k t t')
    (hp : t.status ≠ PENDING) : t'.txHash = t.txHash := by
  cases h with
  | submit hash at_ h => exact absurd h hp
  | claim | confirm | revert | fail | expire => rfl

/-! ## Histories -/

/-- The row `t` was created PENDING and has since moved through the statuses that `h` lists. -/
inductive History : Transaction → List TransactionStatus → Prop
  | created {t : Transaction} (h : Fresh t) : History t [PENDING]
  | moved {k : Kind} {t t' : Transaction} {h : List TransactionStatus} (prior : History t h)
      (hm : Moves k t t') : History t' (h ++ [t'.status])

namespace History

variable {t : Transaction} {h : List TransactionStatus}

theorem head_eq (H : History t h) : h.head? = some PENDING := by
  induction H with
  | created => rfl
  | moved prior hm ih => rw [List.head?_append, ih]; rfl

theorem getLast_eq (H : History t h) : h.getLast? = some t.status := by
  cases H with
  | created hf => rw [hf.status]; rfl
  | moved prior hm => exact List.getLast?_concat

/-- **A history is a path of the table of transitions.** -/
theorem isChain (H : History t h) : h.IsChain fun a b => canTransition a b = true := by
  induction H with
  | created => exact .singleton _
  | moved prior hm ih =>
    refine List.IsChain.append ih (.singleton _) ?_
    intro a ha b hb
    rw [prior.getLast_eq, Option.mem_some_iff] at ha
    rw [List.head?_singleton, Option.mem_some_iff] at hb
    rw [← ha, ← hb]
    exact hm.canTransition

/-- **A terminal status is the last one**, so there is at most one. -/
theorem terminal_count (H : History t h) :
    h.countP (·.isTerminal) = if t.status.isTerminal then 1 else 0 := by
  induction H with
  | created hf => rw [hf.status]; rfl
  | moved prior hm ih =>
    rw [List.countP_append, ih, hm.not_terminal, List.countP_singleton]
    simp

/-- The row is PENDING exactly while it has not moved. -/
theorem pending_iff (H : History t h) : t.status = PENDING ↔ SUBMITTED ∉ h ∧ t.status ≠ FAILED := by
  induction H with
  | created hf => simp [hf.status]
  | moved prior hm ih =>
    have hne := hm.ne_pending
    cases hm with
    | submit hash at_ h => simp
    | revert | fail => simp
    | claim at_ h | confirm blockNumber gasUsed at_ h | expire reason at_ h =>
      rw [h] at ih
      simp at ih ⊢
      exact ih

/-- **The hash and the time of submission are set iff the row was SUBMITTED.** -/
theorem submitted_iff (H : History t h) :
    (t.txHash.isSome ↔ SUBMITTED ∈ h) ∧ (t.submittedAt.isSome ↔ SUBMITTED ∈ h) := by
  induction H with
  | created hf => simp [hf.txHash, hf.submittedAt]
  | moved prior hm ih =>
    cases hm with
    | submit => simp
    | claim | confirm | revert | fail | expire => simpa using ih

/-- **The start of the confirmation is set iff the row was CONFIRMING.** -/
theorem confirming_iff (H : History t h) :
    t.confirmationStartedAt.isSome ↔ CONFIRMING ∈ h := by
  induction H with
  | created hf => simp [hf.confirmationStartedAt]
  | moved prior hm ih =>
    cases hm with
    | claim => simp
    | submit | confirm | revert | fail | expire => simpa using ih

/-- **The block and the time of the confirmation are set iff the row is CONFIRMED.** -/
theorem confirmed_iff (H : History t h) :
    (t.blockNumber.isSome ↔ t.status = CONFIRMED) ∧
      (t.confirmedAt.isSome ↔ t.status = CONFIRMED) := by
  induction H with
  | created hf => simp [hf.blockNumber, hf.confirmedAt, hf.status]
  | moved prior hm ih =>
    cases hm with
    | confirm => simp
    | submit hash at_ h | claim at_ h | expire reason at_ h => simpa [h] using ih
    | revert reason at_ h | fail reason at_ h => rcases h with h | h <;> simpa [h] using ih

/-- **The reason and the time of a failure are set iff the row is FAILED or EXPIRED.** -/
theorem failed_iff (H : History t h) :
    (t.failedAt.isSome ↔ t.status = FAILED ∨ t.status = EXPIRED) ∧
      (t.failureReason.isSome ↔ t.status = FAILED ∨ t.status = EXPIRED) := by
  induction H with
  | created hf => simp [hf.failedAt, hf.failureReason, hf.status]
  | moved prior hm ih =>
    cases hm with
    | revert | fail | expire => simp
    | submit hash at_ h | claim at_ h | confirm blockNumber gasUsed at_ h => simpa [h] using ih

theorem submitted_mem (H : History t h) (hp : t.status ≠ PENDING) (hf : t.status ≠ FAILED) :
    SUBMITTED ∈ h := by
  by_contra hn
  exact hp (H.pending_iff.mpr ⟨hn, hf⟩)

theorem ne_pending_of_txHash (H : History t h) (hh : t.txHash.isSome) : t.status ≠ PENDING :=
  fun hp => (H.pending_iff.mp hp).1 (H.submitted_iff.1.mp hh)

end History

/-! ## One change, seen from one row -/

/-- What a change can do to the row under one id. -/
inductive RowChange (K : List Kind) (l : Ledger) (id : String) :
    Option Transaction → Option Transaction → Prop
  | same (r : Option Transaction) : RowChange K l id r r
  | created {t : Transaction} (hk : Kind.create ∈ K) (fresh : Fresh t) (hid : t.id = id) :
      RowChange K l id none (some t)
  | moved {k : Kind} {t t' : Transaction} (hk : k ∈ K) (moves : Moves k t t')
      (evidence : l.Evidence t k) : RowChange K l id (some t) (some t')

variable {K : List Kind} {l l' : Ledger}

theorem put_row (l : Ledger) (t : Transaction) (id : String) :
    (l.put t).row id = if id = t.id then some t else l.row id := by
  show Function.update l.row t.id (some t) id = _
  rw [Function.update_apply]

theorem RowChange.put {t t' : Transaction} (hid : t'.id = t.id)
    (h : RowChange K l t.id (l.row t.id) (some t')) (id : String) :
    RowChange K l id (l.row id) ((l.put t').row id) := by
  rw [put_row, hid]
  by_cases he : id = t.id
  · rw [if_pos he, he]
    exact h
  · rw [if_neg he]
    exact .same _

/-- **The inversion of a change**: each row stays, is created, or makes one move. -/
theorem Change.row (h : Change K l l') (id : String) :
    RowChange K l id (l.row id) (l'.row id) := by
  cases h with
  | refl => exact .same _
  | answer => exact .same _
  | step hk h =>
    cases h with
    | @create _ t free fresh =>
      refine RowChange.put rfl ?_ id
      rw [free]
      exact .created hk fresh rfl
    | move _ found moves evidence =>
      refine RowChange.put moves.frame.1 ?_ id
      rw [found]
      exact .moved hk moves evidence
    | confirm found moves =>
      refine RowChange.put moves.frame.1 ?_ id
      rw [found]
      exact .moved hk moves trivial

theorem Change.answers (h : Change K l l') {a : Answer} (ha : a ∈ l.answers) : a ∈ l'.answers := by
  cases h with
  | refl => exact ha
  | answer => exact List.mem_cons_of_mem _ ha
  | step _ h => cases h <;> exact ha

theorem Change.chainOf (h : Change K l l') : l'.chainOf = l.chainOf := by
  cases h with
  | refl | answer => rfl
  | step _ h => cases h <;> rfl

theorem AnsweredWith.change (h : Change K l l') {t t' : Transaction} {status : ConfirmationStatus}
    (htoken : t'.tokenId = t.tokenId) (hhash : t'.txHash = t.txHash)
    (ha : l.AnsweredWith t status) : l'.AnsweredWith t' status := by
  obtain ⟨result, ⟨a, ha, hchain, htx, hresult⟩, hs⟩ := ha
  refine ⟨result, ⟨a, h.answers ha, ?_, ?_, hresult⟩, hs⟩
  · rw [h.chainOf, htoken]
    exact hchain
  · rw [hhash]
    exact htx

/-! ## The invariant -/

/-- The events that announce the confirmation of the row `id`. -/
def confirmations (l : Ledger) (id : String) : List OutboxEvent :=
  l.events.filter fun e => e.type = "transaction.confirmed" && e.aggregateId = id

/-- A CONFIRMED row has its one event, and no other id has any. -/
def Announced (l : Ledger) (id : String) : Prop :=
  (∃ t e, l.row id = some t ∧ t.status = CONFIRMED ∧ l.confirmations id = [e] ∧ Announces e t) ∨
    ((∀ t, l.row id = some t → t.status ≠ CONFIRMED) ∧ l.confirmations id = [])

structure Sound (l : Ledger) : Prop where
  ids : ∀ id t, l.row id = some t → t.id = id
  history : ∀ id t, l.row id = some t → ∃ h, History t h
  claimed : ∀ id t, l.row id = some t → t.confirmationStartedAt.isSome →
    l.AnsweredWith t .confirmed
  announced : ∀ id, l.Announced id

theorem Sound.init (hrow : ∀ id, l.row id = none) (hevents : l.events = []) : Sound l where
  ids id t h := by rw [hrow] at h; cases h
  history id t h := by rw [hrow] at h; cases h
  claimed id t h := by rw [hrow] at h; cases h
  announced id := by
    refine .inr ⟨?_, ?_⟩
    · intro t h
      rw [hrow] at h
      cases h
    · rw [confirmations, hevents]
      rfl

/-- A move that is backed by its answer leaves a row whose claim is backed. -/
theorem claimed_moved (h : Change K l l') {k : Kind} {t t' : Transaction} {hist}
    (H : History t hist) (moves : Moves k t t') (evidence : l.Evidence t k)
    (hc : t.confirmationStartedAt.isSome → l.AnsweredWith t .confirmed)
    (hc' : t'.confirmationStartedAt.isSome) : l'.AnsweredWith t' .confirmed := by
  have htoken := moves.frame.2.2.1
  cases moves with
  | claim at_ hs => exact evidence.change h htoken rfl
  | submit hash at_ hs =>
    -- a row whose claim is backed has a hash, and a PENDING row has none
    obtain ⟨result, ⟨a, _, _, htx, _⟩, _⟩ := hc hc'
    exact absurd hs (H.ne_pending_of_txHash (by rw [htx]; rfl))
  | confirm | revert | fail | expire => exact (hc hc').change h htoken rfl

theorem Change.events (h : Change K l l') (hK : Kind.confirm ∉ K) : l'.events = l.events := by
  cases h with
  | refl | answer => rfl
  | step hk h =>
    cases h with
    | create | move => rfl
    | confirm => exact absurd hk hK

/-- A change without a confirmation announces nothing and confirms nothing. -/
theorem Announced.change (h : Change K l l') (hK : Kind.confirm ∉ K) {id : String}
    (ha : l.Announced id) : l'.Announced id := by
  have hconf : l'.confirmations id = l.confirmations id := by
    rw [confirmations, h.events hK, confirmations]
  have hr := h.row id
  rcases ha with ⟨t, e, ht, hs, he, hann⟩ | ⟨hn, he⟩
  · refine .inl ⟨t, e, ?_, hs, hconf.trans he, hann⟩
    generalize l'.row id = r' at hr
    rw [ht] at hr
    cases hr with
    | same => rfl
    | moved hk moves =>
      have := moves.not_terminal
      rw [hs] at this
      cases this
  · refine .inr ⟨?_, hconf.trans he⟩
    intro t' ht' hs'
    generalize hg : l.row id = r at hr
    rw [ht'] at hr
    cases hr with
    | same => exact hn t' hg hs'
    | created hk fresh =>
      rw [fresh.status] at hs'
      cases hs'
    | moved hk moves =>
      cases moves with
      | confirm => exact hK hk
      | submit | claim | revert | fail | expire => cases hs'

/-- A confirmation announces the row that it confirms, and no other. -/
theorem Announced.confirm {t t' : Transaction} {e : OutboxEvent} (found : l.row t.id = some t)
    (moves : Moves .confirm t t') (announces : Announces e t') {id : String}
    (ha : l.Announced id) : Announced { l.put t' with events := l.events ++ [e] } id := by
  have hid := moves.frame.1
  have hagg : e.aggregateId = t.id := announces.aggregateId.trans hid
  by_cases he : id = t.id
  · subst he
    refine .inl ⟨t', e, ?_, ?_, ?_, announces⟩
    · show (l.put t').row t.id = some t'
      rw [put_row, hid, if_pos rfl]
    · cases moves
      rfl
    · -- the row was CONFIRMING, so nothing announced it before
      have hnone : l.confirmations t.id = [] := by
        rcases ha with ⟨s, _, hs, hc, _⟩ | ⟨_, hnone⟩
        · rw [found, Option.some.injEq] at hs
          subst hs
          cases moves with
          | confirm b g a h => rw [h] at hc; cases hc
        · exact hnone
      show (l.events ++ [e]).filter _ = [e]
      rw [List.filter_append]
      rw [confirmations] at hnone
      rw [hnone]
      simp [hagg, announces.type]
  · have hconf : confirmations { l.put t' with events := l.events ++ [e] } id
        = l.confirmations id := by
      show (l.events ++ [e]).filter _ = l.events.filter _
      rw [List.filter_append]
      simp [hagg, Ne.symm he]
    have hrow : ({ l.put t' with events := l.events ++ [e] } : Ledger).row id = l.row id := by
      show (l.put t').row id = _
      rw [put_row, hid, if_neg he]
    rw [Announced, hconf, hrow]
    exact ha

/-- **Every change keeps the ledger sound.** -/
theorem Sound.change (hl : Sound l) (h : Change K l l') : Sound l' where
  ids id t' ht' := by
    have hr := h.row id
    have hids := hl.ids id
    generalize l.row id = r at hr hids
    rw [ht'] at hr
    cases hr with
    | same => exact hids t' rfl
    | created hk fresh hid => exact hid
    | moved hk moves => exact moves.frame.1.trans (hids _ rfl)
  history id t' ht' := by
    have hr := h.row id
    have hh := hl.history id
    generalize l.row id = r at hr hh
    rw [ht'] at hr
    cases hr with
    | same => exact hh t' rfl
    | created hk fresh => exact ⟨_, .created fresh⟩
    | moved hk moves =>
      obtain ⟨hist, H⟩ := hh _ rfl
      exact ⟨_, H.moved moves⟩
  claimed id t' ht' hc' := by
    have hr := h.row id
    have hh := hl.history id
    have hc := hl.claimed id
    generalize l.row id = r at hr hh hc
    rw [ht'] at hr
    cases hr with
    | same => exact (hc t' rfl hc').change h rfl rfl
    | created hk fresh =>
      rw [fresh.confirmationStartedAt] at hc'
      cases hc'
    | moved hk moves evidence =>
      obtain ⟨hist, H⟩ := hh _ rfl
      exact claimed_moved h H moves evidence (hc _ rfl) hc'
  announced id := by
    have ha := hl.announced id
    cases h with
    | refl | answer => exact ha
    | @step k i _ _ hk h =>
      by_cases hc : k = .confirm
      · subst hc
        cases h with
        | move hne => exact absurd rfl hne
        | confirm found moves announces => exact ha.confirm found moves announces
      · exact ha.change (.step (List.mem_singleton_self k) h) (by simpa using Ne.symm hc)

/-! ## Where the block of a confirmation comes from -/

/-- The block and the gas of a row are those of one answer for its hash, with the status `confirmed`. -/
def ConfirmedBy (l : Ledger) (t : Transaction) : Prop :=
  ∃ result, l.Answered t result ∧ result.status = .confirmed ∧
    t.blockNumber = result.blockNumber.map Js.number ∧ t.gasUsed = result.gasUsed

/-- Every CONFIRMED row has such an answer. -/
def Attested (l : Ledger) : Prop := ∀ id t, l.row id = some t → t.status = CONFIRMED → l.ConfirmedBy t

theorem Attested.init (hrow : ∀ id, l.row id = none) : Attested l := by
  intro id t h
  rw [hrow] at h
  cases h

theorem ConfirmedBy.change (h : Change K l l') {t : Transaction} (ht : l.ConfirmedBy t) : l'.ConfirmedBy t := by
  obtain ⟨result, ⟨a, ha, hchain, hrest⟩, hresult⟩ := ht
  refine ⟨result, ⟨a, h.answers ha, ?_, hrest⟩, hresult⟩
  rw [h.chainOf]
  exact hchain

/-- **Only a confirmation makes a row CONFIRMED**, and it writes the block and the gas of its answer. -/
theorem Attested.change (hl : Attested l) (h : Change K l l') : Attested l' := by
  intro id t' ht' hs'
  have hchange := h
  cases h with
  | refl => exact hl id t' ht' hs'
  | answer => exact (hl id t' ht' hs').change hchange
  | @step k i _ _ hk hstep =>
    cases hstep with
    | @create _ t free fresh =>
      rw [put_row] at ht'
      split at ht'
      · rw [← Option.some.inj ht', fresh.status] at hs'
        cases hs'
      · exact (hl id t' ht' hs').change hchange
    | @move _ _ t s hne found moves evidence =>
      rw [put_row] at ht'
      split at ht'
      · rw [← Option.some.inj ht'] at hs'
        cases moves with
        | confirm => exact absurd rfl hne
        | submit | claim | revert | fail | expire => cases hs'
      · exact (hl id t' ht' hs').change hchange
    | @confirm _ t s e result found moves announces answered confirmed blockNumber gasUsed =>
      have hrow : (if id = s.id then some s else l.row id) = some t' := by
        rw [← put_row]
        exact ht'
      split at hrow
      · rw [← Option.some.inj hrow]
        obtain ⟨a, ha, hchain, htx, hresult⟩ := answered
        have htoken : s.tokenId = t.tokenId := moves.frame.2.2.1
        have hhash : s.txHash = t.txHash := by cases moves; rfl
        refine ⟨result, ⟨a, ha, ?_, ?_, hresult⟩, confirmed, blockNumber, gasUsed⟩
        · rw [htoken]
          exact hchain
        · rw [hhash]
          exact htx
      · exact (hl id t' hrow hs').change hchange

end Ledger

end TransactionSimulator
