import TransactionSimulator.Ledger.Lifecycle
import TransactionSimulator.Ledger.Transitions

/-!
# Expiry

What an expiration pass does to the rows it finds, and what it does to a transaction that the
chain has confirmed.

* `expires_iff`: a call expires a row only if it is the update of `expire` on a CONFIRMING row.
* `confirmed_expires_iff`: a run expires a transaction that its chain answered `confirmed` for,
  exactly if it expires any transaction at all.
* `processExpiredTransactions_spec`: the pass expires the CONFIRMING candidates and nothing else.
-/

namespace TransactionSimulator

open Concurrent Prog TransactionStatus Ledger

/-! ## The call that expires a row -/

/-- The input lets the call take effect: it does not fail, or fails after it took effect. -/
def Input.applies (i : Input) : Bool := i.fault.all (·.applied)

/-- The call is an update to EXPIRED that finds its row CONFIRMING. -/
def Expires (m : Moment Call Input World) : Prop :=
  ∃ id status data t, m.op = .stmt (.transactionUpdateMany id status data) ∧
    data.status = some EXPIRED ∧ m.input.applies = true ∧
    m.state.db.transactions.get (.id id) = some t ∧ t.status = CONFIRMING

/-- A durable call whose input lets it take effect leaves what its effect leaves. -/
theorem exec_snd_of_applies {o : Call} {i : Input} (h : i.applies = true) (ho : o.durable = true)
    (w : World) : (exec o i w).2 = (o.effect i w).2 := by
  rw [exec]
  split
  · rfl
  · next f hf =>
    have hfault : i.fault = some f := by
      split at hf
      · cases hf
      · exact hf
    have happ : f.applied = true := by
      rw [Input.applies, hfault] at h
      exact h
    dsimp only
    rw [happ, ho]
    rfl

/-- A statement whose input does not let it take effect leaves the world as it is. -/
theorem exec_snd_of_not_applies {s : Stmt} {i : Input} (h : i.applies = false) (w : World) :
    (exec (.stmt s) i w).2 = w := by
  cases hf : i.fault with
  | none =>
    rw [Input.applies, hf] at h
    cases h
  | some f =>
    have happ : f.applied = false := by
      rw [Input.applies, hf] at h
      exact h
    rw [exec, hf]
    show (if (f.applied && true) = true then _ else w) = w
    rw [happ]
    rfl

/-- **A row expires only by an update that finds it CONFIRMING.** -/
theorem expires_of_exec {D : Deployment} {o : Call} {i : Input} {w : World} {id : String}
    {t' : Transaction} (ho : Issued D o) (hs' : t'.status = EXPIRED)
    (hnew : (exec o i w).2.ledger.row id = some t')
    (hold : ∀ t, w.ledger.row id = some t → t.status ≠ EXPIRED) : Expires ⟨w, o, i⟩ := by
  obtain ⟨A, hA⟩ := ho
  -- the row is not as it was, so the call took effect
  have hchanged : (exec o i w).2.ledger.row id ≠ w.ledger.row id := by
    intro he
    rw [hnew] at he
    exact hold t' he.symm hs'
  have heff : (exec o i w).2 = (o.effect i w).2 := by
    rcases exec_snd_cases o i w with he | he
    · rw [he] at hchanged
      exact absurd rfl hchanged
    · exact he
  have hkeep : (o.effect i w).2.ledger.row id ≠ w.ledger.row id := heff ▸ hchanged
  cases o with
  | stmt s =>
    have happ : i.applies = true := by
      by_contra hn
      rw [exec_snd_of_not_applies (by simpa using hn)] at hchanged
      exact hchanged rfl
    rw [heff] at hnew
    cases s with
    | transactionUpdateMany i' status data =>
      obtain ⟨k, _, hw⟩ := hA
      have hu := w.db.updateTransactions_spec i' status data
      simp only [Call.effect, Stmt.exec] at hnew
      generalize w.db.updateTransactions i' status data = r at hu hnew
      cases hu with
      | missed | refused | outOfRange => exact absurd hs' (hold t' hnew)
      | matched found hs free rows references =>
        have hrow := rows id
        by_cases hid : id = i'
        · rw [if_pos hid] at hrow
          have ht' := hrow.symm.trans hnew
          rw [Option.some.injEq] at ht'
          subst ht'
          cases hw with
          | submit | claim | fail => cases hs'
          | expire reason at_ =>
            exact ⟨i', _, _, _, rfl, rfl, happ, found, List.mem_singleton.mp hs⟩
        · rw [if_neg hid] at hrow
          exact absurd hs' (hold t' (hrow.symm.trans hnew))
    | transactionCreate data =>
      have hc := w.db.createTransaction_spec ⟨w.clock, i.uuid⟩ data
      simp only [Call.effect, Stmt.exec] at hnew
      generalize w.db.createTransaction ⟨w.clock, i.uuid⟩ data = r at hc hnew
      cases hc with
      | refused => exact absurd hs' (hold t' hnew)
      | done free rows references =>
        have hrow := rows id
        split at hrow
        · have ht' := hrow.symm.trans hnew
          rw [Option.some.injEq] at ht'
          subst ht'
          have hp : data.status = EXPIRED := hs'
          rw [hA.2] at hp
          cases hp
        · exact absurd hs' (hold t' (hrow.symm.trans hnew))
    | outboxEventCreate => exact hA.elim
    | _ => exact absurd (congrArg (fun l => Ledger.row l id) (ledger_stmt rfl i w)) hkeep
  | transaction body =>
    obtain ⟨_, tx, result, rfl⟩ := hA
    have hp := persistBody_spec tx result ⟨w.clock, i.uuid⟩ w.db
    rw [heff] at hnew
    simp only [Call.effect] at hnew
    generalize ConfirmationProcessor.persistBody tx result ⟨w.clock, i.uuid⟩ w.db = r at hp hnew
    cases hp with
    | noBlock | notFound | conflict | outOfRange | duplicate => exact absurd hs' (hold t' hnew)
    | done hblock found hs rows hevents references =>
      have hrow := rows id
      split at hrow
      · have ht' := hrow.symm.trans hnew
        rw [Option.some.injEq] at ht'
        subst ht'
        cases hs'
      · exact absurd hs' (hold t' (hrow.symm.trans hnew))
  | getTransaction chain txHash =>
    refine absurd ?_ hkeep
    simp only [Call.effect]
    split <;> rfl
  | _ => exact absurd (congrArg (fun l => Ledger.row l id) (ledger_offLedger rfl i w)) hkeep

/-! ## Transactions that the chain has confirmed -/

/-- A row is EXPIRED although the adapter of its chain answered `confirmed` for its hash. -/
def World.LosesConfirmation (w : World) : Prop :=
  ∃ t ∈ w.db.transactions.rows, t.status = EXPIRED ∧ w.ledger.AnsweredWith t .confirmed

/-- Without such a call no row ever expires. -/
theorem not_expired_of_moments (D : Deployment) {w : World} (hw : w.Initial)
    {es : List SystemEvent} (h : ∀ m ∈ w.start.moments D.system es, ¬ Expires m) {id : String}
    {t : Transaction} (ht : (w.start.after D.system es).world.ledger.row id = some t) :
    t.status ≠ EXPIRED := by
  induction es using List.reverseRecOn generalizing t with
  | nil =>
    have hnone : w.ledger.row id = none := by
      show w.db.transactions.get (.id id) = none
      rw [Relational.Table.get_eq_none_iff, hw.transactions]
      simp
    cases hnone.symm.trans ht
  | append_singleton es e ih =>
    have hmoments : ∀ m ∈ w.start.moments D.system es, ¬ Expires m := by
      intro m hm
      obtain ⟨fs, f, gs, rfl, hf⟩ := Config.mem_moments_iff.mp hm
      exact h m (Config.mem_moments_iff.mpr ⟨fs, f, gs ++ [e], by simp, hf⟩)
    rw [Config.after_append] at ht
    change ((w.start.after D.system es).apply D.system e).world.ledger.row id = some t at ht
    have hold : ∀ s, (w.start.after D.system es).world.ledger.row id = some s →
        s.status ≠ EXPIRED := fun s hs => ih hmoments hs
    intro hexp
    cases hm : (w.start.after D.system es).moment e with
    | none =>
      rcases Config.apply_of_moment_none (S := D.system) hm with he | ⟨d, he⟩
      · rw [he] at ht
        exact hold t ht hexp
      · rw [he] at ht
        have hsame : (D.system.shift d (w.start.after D.system es).world).ledger =
            (w.start.after D.system es).world.ledger := by
          cases d <;> rfl
        rw [hsame] at ht
        exact hold t ht hexp
    | some m =>
      obtain ⟨hstate, he⟩ := Config.apply_of_moment (S := D.system) hm
      rw [he] at ht
      have hexpires := expires_of_exec (issued_moment D w hm) hexp ht (hstate ▸ hold)
      exact h m (Config.mem_moments_iff.mpr ⟨es, e, [], rfl, hm⟩) hexpires

theorem answered_of_confirming {l : Ledger} (hl : Sound l) {id : String} {t : Transaction}
    (ht : l.row id = some t) (hs : t.status = CONFIRMING) : l.AnsweredWith t .confirmed := by
  obtain ⟨h, H⟩ := hl.history id t ht
  refine hl.claimed id t ht (H.confirming_iff.mpr ?_)
  have hlast := H.getLast_eq
  rw [hs] at hlast
  exact List.mem_of_getLast? hlast

/-- Such a call expires a transaction that the chain has confirmed. -/
theorem losesConfirmation_of_expires (D : Deployment) {w : World} (hw : w.Initial)
    {es : List SystemEvent} {e : SystemEvent} {m : Moment Call Input World}
    (hm : (w.start.after D.system es).moment e = some m) (h : Expires m) :
    ((w.start.after D.system es).apply D.system e).world.LosesConfirmation := by
  obtain ⟨id, status, data, t, hop, hdata, happ, found, hs⟩ := h
  obtain ⟨hstate, he⟩ := Config.apply_of_moment (S := D.system) hm
  have hstep := ((healthy_after D hw es).apply (respects_ledger D allKinds) (limited_allKinds e)).1
  have hanswered := answered_of_confirming (hstate ▸ sound_after D hw es) found hs
  have hw' := issued_moment D w hm
  obtain ⟨v, o, i⟩ := m
  cases hop
  obtain ⟨_, k, _, hwrites⟩ := hw'
  cases hwrites with
  | submit | claim | fail => cases hdata
  | expire reason at_ =>
    have heff := he.trans (exec_snd_of_applies happ rfl v)
    have hu := v.db.updateTransactions_spec id [CONFIRMING]
      { status := some EXPIRED, failureReason := some reason, failedAt := some at_ }
    simp only [Call.effect, Stmt.exec] at heff
    generalize v.db.updateTransactions id _ _ = r at hu heff
    cases hu with
    | missed hmiss => exact absurd (List.mem_singleton.mpr hs) (hmiss t found)
    | refused _ _ taken => exact absurd (fun hash h => by cases h) taken
    | outOfRange large => cases large
    | matched found' _ _ rows references =>
      rw [found, Option.some.injEq] at found'
      subst found'
      have hrow := rows id
      rw [if_pos rfl] at hrow
      have hmem : ({ status := some EXPIRED, failureReason := some reason, failedAt := some at_ } :
          TransactionUpdateInput).apply t ∈
          ((w.start.after D.system es).apply D.system e).world.db.transactions.rows := by
        rw [Db.mem_transactions, heff, Db.apply_id, Db.id_of_get found]
        exact hrow
      change v = _ at hstate
      rw [hstate] at hanswered
      exact ⟨_, hmem, rfl, hanswered.change hstep rfl rfl⟩

/-- **Whether a run loses a confirmation**: no state of it has an EXPIRED row whose adapter
answered `confirmed`, exactly if no call of it is an update to EXPIRED that finds its row
CONFIRMING. -/
theorem losesConfirmation_iff (D : Deployment) (w : World) (hw : w.Initial)
    (es : List SystemEvent) :
    (∀ v ∈ w.start.worlds D.system es, ¬ v.LosesConfirmation) ↔
      ∀ m ∈ w.start.moments D.system es, ¬ Expires m := by
  constructor
  · intro h m hm hexp
    obtain ⟨fs, e, gs, rfl, hf⟩ := Config.mem_moments_iff.mp hm
    refine h _ (Config.mem_worlds_iff.mpr ⟨fs ++ [e], ?_, rfl⟩) ?_
    · exact ⟨gs, by simp⟩
    · rw [Config.after_append]
      exact losesConfirmation_of_expires D hw hf hexp
  · rintro h v hv ⟨t, ht, hs, _⟩
    obtain ⟨fs, ⟨gs, rfl⟩, rfl⟩ := Config.mem_worlds_iff.mp hv
    have hfs : ∀ m ∈ w.start.moments D.system fs, ¬ Expires m := by
      intro m hm
      obtain ⟨as, e, bs, rfl, he⟩ := Config.mem_moments_iff.mp hm
      exact h m (Config.mem_moments_iff.mpr ⟨as, e, bs ++ gs, by simp, he⟩)
    exact not_expired_of_moments D hw hfs (Db.mem_transactions.mp ht) hs

/-- The confirmation worker is answered `confirmed`, claims the row and is lost; five minutes later
an expiration pass finds the row. -/
def lostConfirmation : List SystemEvent :=
  sampleTransfer ++
    [.spawn (.confirmationJob "1")] ++
    steps 1 [{}, {}, { reply := .transaction ⟨"0x01", some 3, 1, .confirmed, some 21000⟩ }, {}, {}] ++
    [.crash 1, .shift (.tick 300000), .spawn (.processExpiredTransactions 1000000)] ++
    steps 2 [{}, {}, {}]

theorem lostConfirmation_loses :
    ¬ ∀ v ∈ World.sample.start.worlds Deployment.defaults.system lostConfirmation,
      ∀ t ∈ v.db.transactions.rows, t.status = EXPIRED → ¬ v.ledger.AnsweredWith t .confirmed := by
  intro h
  have hlast : (World.sample.start.after Deployment.defaults.system lostConfirmation).world ∈
      World.sample.start.worlds Deployment.defaults.system lostConfirmation :=
    Config.mem_worlds_iff.mpr ⟨lostConfirmation, List.prefix_rfl, rfl⟩
  obtain ⟨t, ht, hs, hhash, htoken⟩ : ∃ t ∈ (World.sample.start.after Deployment.defaults.system
      lostConfirmation).world.db.transactions.rows, t.status = EXPIRED ∧ t.txHash = some "0x01" ∧
      t.tokenId = "token" := by
    decide
  refine h _ hlast t ht hs ⟨⟨"0x01", some 3, 1, .confirmed, some 21000⟩,
    ⟨⟨.EVM, "0x01", ⟨"0x01", some 3, 1, .confirmed, some 21000⟩⟩, by decide, ?_, hhash, rfl⟩, rfl⟩
  rw [htoken]
  decide

/-- A run that confirms its transaction expires nothing and loses nothing. -/
theorem losesConfirmation_iff_sampleConfirmation :
    World.sample.Initial ∧
    ((∀ v ∈ World.sample.start.worlds Deployment.defaults.system sampleConfirmation,
      ¬ v.LosesConfirmation) ↔
    ∀ m ∈ World.sample.start.moments Deployment.defaults.system sampleConfirmation, ¬ Expires m) :=
  ⟨World.sample_initial, losesConfirmation_iff .defaults .sample World.sample_initial _⟩

/-! ## A pass on its own -/

/-- One row of a pass that nobody disturbs: it is EXPIRED afterwards, and only it is written. -/
theorem ends_expire {P : Input → Prop} (hP : Faultless P) {w : World} {x t : Transaction}
    (hrow : w.ledger.row x.id = some t) (hs : t.status = CONFIRMING ∨ t.status = EXPIRED) :
    Ends exec P Alone (ExpirationProcessor.expire x) (fun r w' => r = .ok () ∧
      (∃ t', w'.ledger.row x.id = some t' ∧ t'.status = EXPIRED) ∧
      ∀ id, id ≠ x.id → w'.ledger.row id = w.ledger.row id) w := by
  refine ends_tryCatch.mpr (ends_bind.mpr (ends_bind.mpr (ends_now ?_)))
  intro w₁ hw₁
  rw [eq_of_alone hw₁]
  show Ends exec P Alone (TransactionRepository.transition prisma x.id _ _ _) _ _
  rw [transition_eq (by decide)]
  refine ends_updateThen hP rfl ?_ ?_ ?_
  · -- the row is CONFIRMING
    intro w₂ hw₂ s found hsource _ table references rows w₃ hw₃
    have hw₂ := eq_of_alone hw₂
    subst hw₂
    have hw₃ := eq_of_alone hw₃
    subst hw₃
    have hexp := rows x.id
    rw [if_pos rfl] at hexp
    have hread : orThrow ((World.withTransactions _ table references).ledger.row x.id) = .ok _ :=
      congrArg orThrow hexp
    rw [hread]
    refine ends_emit ?_
    intro w₄ hw₄
    rw [eq_of_alone hw₄]
    refine ⟨rfl, ⟨_, hexp, rfl⟩, ?_⟩
    intro id hid
    have hother := rows id
    rw [if_neg hid] at hother
    exact hother
  · -- it was EXPIRED before
    intro w₂ hw₂ hmiss w₃ hw₃
    have hw₂ := eq_of_alone hw₂
    subst hw₂
    have hw₃ := eq_of_alone hw₃
    subst hw₃
    have hexp : t.status = EXPIRED := by
      rcases hs with hs | hs
      · exact absurd (List.mem_singleton.mpr hs) (hmiss t hrow)
      · exact hs
    rw [hrow]
    refine ends_emit ?_
    intro w₄ hw₄
    rw [eq_of_alone hw₄]
    exact ⟨rfl, ⟨t, hrow, hexp⟩, fun _ _ => rfl⟩
  · intro w₂ _ _ _ _ htaken
    exact absurd (fun hash h => by cases h) htaken

/-- **An expiration pass on its own**, over rows that are CONFIRMING when it starts: afterwards
they are EXPIRED, and no other row has been written. -/
theorem ends_forEach_expire {P : Input → Prop} (hP : Faultless P) {w : World}
    {xs : List Transaction} (hxs : ∀ x ∈ xs, w.ledger.row x.id = some x ∧ x.status = CONFIRMING) :
    Ends exec P Alone (Prog.forEach ExpirationProcessor.expire xs) (fun r w' => r = .ok () ∧
      (∀ x ∈ xs, ∃ t', w'.ledger.row x.id = some t' ∧ t'.status = EXPIRED) ∧
      ∀ id, (∀ x ∈ xs, id ≠ x.id) → w'.ledger.row id = w.ledger.row id) w := by
  -- the rows that are still to come are CONFIRMING or, if a row is listed twice, EXPIRED
  let F : List Transaction → World → Prop := fun rest w' =>
    (∀ x ∈ xs, ∃ t, w'.ledger.row x.id = some t ∧
      (t.status = EXPIRED ∨ (t.status = CONFIRMING ∧ x ∈ rest))) ∧
    (∀ x ∈ rest, x ∈ xs) ∧
    ∀ id, (∀ x ∈ xs, id ≠ x.id) → w'.ledger.row id = w.ledger.row id
  have hround : ∀ x rest w', F (x :: rest) w' → Ends exec P Alone (ExpirationProcessor.expire x)
      (fun r w'' => ∃ a, r = .ok a ∧ F rest w'') w' := by
    rintro x rest w' ⟨hrows, hsub, hother⟩
    have hx : x ∈ xs := hsub x (by simp)
    obtain ⟨t, ht, hs⟩ := hrows x hx
    refine (ends_expire hP ht (hs.symm.imp_left And.left)).mono ?_
    rintro r w'' ⟨hr, hexp, hframe⟩
    refine ⟨(), hr, ?_, fun y hy => hsub y (List.mem_cons_of_mem _ hy), ?_⟩
    · intro y hy
      by_cases hid : y.id = x.id
      · obtain ⟨t', ht', hs'⟩ := hexp
        exact ⟨t', hid ▸ ht', .inl hs'⟩
      · obtain ⟨s, hs, hor⟩ := hrows y hy
        refine ⟨s, (hframe y.id hid).trans hs, hor.imp_right ?_⟩
        rintro ⟨hc, hmem⟩
        refine ⟨hc, ?_⟩
        rcases List.mem_cons.mp hmem with rfl | hmem
        · exact absurd rfl hid
        · exact hmem
    · intro id hid
      exact (hframe id (hid x hx)).trans (hother id hid)
  have hstart : F xs w := ⟨fun x hx => ⟨x, (hxs x hx).1, .inr ⟨(hxs x hx).2, hx⟩⟩,
    fun x hx => hx, fun _ _ => rfl⟩
  refine (Ends.forEach hround hstart).mono ?_
  rintro r w' ⟨hr, hrows, _, hother⟩
  refine ⟨hr, ?_, hother⟩
  intro x hx
  obtain ⟨t, ht, hs⟩ := hrows x hx
  rcases hs with hs | ⟨_, hmem⟩
  · exact ⟨t, ht, hs⟩
  · cases hmem

/-- What a pass leaves of the rows. -/
structure Passed (expirationBefore : Date) (w w' : World) : Prop where
  candidates : ∀ t ∈ w.db.transactions.rows,
    TransactionRepository.isExpiredCandidate expirationBefore t = true →
    ∃ t', w'.ledger.row t.id = some t' ∧ t'.status = EXPIRED
  others : ∀ id, (∀ t, w.ledger.row id = some t →
    TransactionRepository.isExpiredCandidate expirationBefore t = false) →
    w'.ledger.row id = w.ledger.row id

/-- **A whole pass on its own.**  A page holds 100 rows, so no candidate is left out. -/
theorem ends_processExpiredTransactions {P : Input → Prop} (hP : Faultless P) {w : World}
    {expirationBefore : Date} (hlen : (w.db.transactions.rows.filter
      (TransactionRepository.isExpiredCandidate expirationBefore)).length ≤ 100) :
    Ends exec P Alone (ExpirationProcessor.processExpiredTransactions expirationBefore)
      (fun r w' => (∃ n, r = .ok n) ∧ Passed expirationBefore w w') w := by
  refine ends_bind.mpr (ends_stmt hP ?_)
  intro w₁ hw₁ i _
  have hw₁ := eq_of_alone hw₁
  subst hw₁
  have hmem : ∀ t, t ∈ w₁.db.transactions.findMany
      (TransactionRepository.isExpiredCandidate expirationBefore)
      (fun t => t.confirmationStartedAt) 100 ↔
      t ∈ w₁.db.transactions.rows ∧
        TransactionRepository.isExpiredCandidate expirationBefore t = true := by
    intro t
    constructor
    · exact w₁.db.transactions.mem_findMany
    · rintro ⟨hrow, hc⟩
      exact w₁.db.transactions.mem_findMany_of_length_le _ hlen hrow hc
  refine ends_bind.mpr ((ends_forEach_expire hP ?_).mono ?_)
  · intro t ht
    obtain ⟨hrow, hc⟩ := (hmem t).mp ht
    refine ⟨Db.mem_transactions.mp hrow, ?_⟩
    simp only [TransactionRepository.isExpiredCandidate, Bool.and_eq_true, decide_eq_true_eq] at hc
    exact hc.1
  · rintro r w' ⟨rfl, hexp, hother⟩
    refine ⟨⟨_, rfl⟩, ?_, ?_⟩
    · intro t hrow hc
      exact hexp t ((hmem t).mpr ⟨hrow, hc⟩)
    · intro id hid
      refine hother id ?_
      intro t ht he
      obtain ⟨hrow, hc⟩ := (hmem t).mp ht
      have hfound : w₁.ledger.row id = some t := by
        rw [he]
        exact Db.mem_transactions.mp hrow
      rw [hid t hfound] at hc
      cases hc

/-- The row entered SUBMITTED or CONFIRMING at or before the cutoff and is still in one of the
two. -/
def Overdue (cutoff : Date) (t : Transaction) : Bool :=
  (t.status = SUBMITTED || t.status = CONFIRMING) &&
    (t.submittedAt.any (· ≤ cutoff) || t.confirmationStartedAt.any (· ≤ cutoff))

/-- The row has been in its present status, SUBMITTED or CONFIRMING, since the cutoff. -/
def Stuck (cutoff : Date) (t : Transaction) : Bool :=
  (t.status = SUBMITTED && t.submittedAt.any (· ≤ cutoff)) ||
    (t.status = CONFIRMING && t.confirmationStartedAt.any (· ≤ cutoff))

/-- A sense in which rows may be late: it covers the candidates of a pass, and an EXPIRED row is
not late. -/
theorem passed_clears_iff {cutoff : Date} {w w' : World} (h : Passed cutoff w w')
    {late : Transaction → Bool} (hexp : ∀ t, t.status = EXPIRED → late t = false) :
    (∀ t ∈ w'.db.transactions.rows, late t = false) ↔
      ∀ t ∈ w.db.transactions.rows, late t = true →
        TransactionRepository.isExpiredCandidate cutoff t = true := by
  constructor
  · intro hclear t ht hlate
    by_contra hc
    have hrow := Db.mem_transactions.mp ht
    have hsame := h.others t.id (by
      intro s hs
      rw [show w.ledger.row t.id = some t from hrow, Option.some.injEq] at hs
      rw [← hs]
      simpa using hc)
    have ht' : t ∈ w'.db.transactions.rows := Db.mem_transactions.mpr (hsame.trans hrow)
    rw [hclear t ht'] at hlate
    cases hlate
  · intro hcand t' ht'
    have hrow' : w'.ledger.row t'.id = some t' := Db.mem_transactions.mp ht'
    by_cases hc : ∃ t, w.ledger.row t'.id = some t ∧
        TransactionRepository.isExpiredCandidate cutoff t = true
    · obtain ⟨t, ht, hc⟩ := hc
      have hid : t.id = t'.id := World.ledger_id ht
      obtain ⟨s, hs, hsexp⟩ := h.candidates t (Db.mem_transactions.mpr (hid ▸ ht)) hc
      rw [hid, hrow', Option.some.injEq] at hs
      rw [hs]
      exact hexp s hsexp
    · have hsame := h.others t'.id (by
        intro t ht
        cases hct : TransactionRepository.isExpiredCandidate cutoff t with
        | false => rfl
        | true => exact absurd ⟨t, ht, hct⟩ hc)
      rw [hrow'] at hsame
      cases hlate : late t' with
      | false => rfl
      | true =>
        have hmem : t' ∈ w.db.transactions.rows := Db.mem_transactions.mpr hsame.symm
        exact absurd ⟨t', hsame.symm, hcand t' hmem hlate⟩ hc

theorem overdue_of_candidate {cutoff : Date} {t : Transaction}
    (h : TransactionRepository.isExpiredCandidate cutoff t = true) :
    Overdue cutoff t = true ∧ Stuck cutoff t = true := by
  simp only [TransactionRepository.isExpiredCandidate, Bool.and_eq_true, decide_eq_true_eq] at h
  simp only [Overdue, Stuck, h.1, h.2]
  simp

theorem length_candidates_le {rows : List Transaction} {cutoff : Date} {late : Transaction → Bool}
    (hlate : ∀ t, TransactionRepository.isExpiredCandidate cutoff t = true → late t = true)
    (hlen : (rows.filter late).length ≤ 100) :
    (rows.filter (TransactionRepository.isExpiredCandidate cutoff)).length ≤ 100 := by
  rw [← List.countP_eq_length_filter] at hlen ⊢
  exact (List.countP_mono_left fun t _ => hlate t).trans hlen

/-- **When a pass clears the ledger.**  With at most 100 late rows, no fault and no other writer it
completes; no late row is left exactly if every late row was CONFIRMING since the cutoff.  A row
that has been SUBMITTED since the cutoff is never cleared. -/
theorem processExpiredTransactions_clears_iff (w : World) (cutoff : Date) (inp : Nat → Input)
    (hinp : ∀ n, (inp n).fault = none) :
    ((w.db.transactions.rows.filter (Overdue cutoff)).length ≤ 100 →
      (∃ n, ((ExpirationProcessor.processExpiredTransactions cutoff).run exec inp w).1 = .ok n) ∧
      ((∀ t ∈ ((ExpirationProcessor.processExpiredTransactions cutoff).run exec inp
          w).2.db.transactions.rows, Overdue cutoff t = false) ↔
        ∀ t ∈ w.db.transactions.rows, Overdue cutoff t = true →
          t.status = CONFIRMING ∧ t.confirmationStartedAt.any (· ≤ cutoff) = true)) ∧
    ((w.db.transactions.rows.filter (Stuck cutoff)).length ≤ 100 →
      (∃ n, ((ExpirationProcessor.processExpiredTransactions cutoff).run exec inp w).1 = .ok n) ∧
      ((∀ t ∈ ((ExpirationProcessor.processExpiredTransactions cutoff).run exec inp
          w).2.db.transactions.rows, Stuck cutoff t = false) ↔
        ∀ t ∈ w.db.transactions.rows, t.status = SUBMITTED →
          t.submittedAt.any (· ≤ cutoff) = false)) := by
  have hfaultless : Faultless fun i => i.fault = none := fun _ h => h
  constructor
  · intro hlen
    obtain ⟨hok, hpass⟩ := (ends_processExpiredTransactions hfaultless
      (length_candidates_le (fun t h => (overdue_of_candidate h).1) hlen)).run hinp
    refine ⟨hok, ?_⟩
    rw [passed_clears_iff hpass (by
      intro t hs
      simp [Overdue, hs])]
    simp only [TransactionRepository.isExpiredCandidate, Bool.and_eq_true, decide_eq_true_eq]
  · intro hlen
    obtain ⟨hok, hpass⟩ := (ends_processExpiredTransactions hfaultless
      (length_candidates_le (fun t h => (overdue_of_candidate h).2) hlen)).run hinp
    refine ⟨hok, ?_⟩
    rw [passed_clears_iff hpass (by
      intro t hs
      simp [Stuck, hs])]
    refine forall_congr' fun t => forall_congr' fun _ => ?_
    cases hs : t.status <;> simp [Stuck, TransactionRepository.isExpiredCandidate, hs]

/-- A transaction that stays SUBMITTED is not expired by a pass with any later cutoff. -/
theorem submitted_not_cleared :
    ((World.sample.start.after Deployment.defaults.system
      sampleTransfer).world.db.transactions.rows.filter (Overdue 2000000)).length ≤ 100 ∧
    ¬ ∀ t ∈ ((ExpirationProcessor.processExpiredTransactions 2000000).run exec (fun _ => {})
        (World.sample.start.after Deployment.defaults.system
          sampleTransfer).world).2.db.transactions.rows, Overdue 2000000 t = false := by
  decide

/-- A transaction that was claimed at the cutoff is cleared. -/
theorem processExpiredTransactions_clears_iff_claimed :
    (∀ n : Nat, ((fun _ => {} : Nat → Input) n).fault = none) ∧
    ∀ t ∈ ((ExpirationProcessor.processExpiredTransactions 1000000).run exec (fun _ => {})
      (World.sample.start.after Deployment.defaults.system
        (lostConfirmation.take 20)).world).2.db.transactions.rows, Stuck 1000000 t = false := by
  have h := (processExpiredTransactions_clears_iff (World.sample.start.after
    Deployment.defaults.system (lostConfirmation.take 20)).world 1000000 (fun _ => {})
    fun _ => rfl).2
  exact ⟨fun _ => rfl, (h (by decide)).2.mpr (by decide)⟩

end TransactionSimulator
