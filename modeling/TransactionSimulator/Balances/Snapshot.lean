import TransactionSimulator.System

/-!
# Balance snapshots

The snapshot of a wallet and a token is an observation: a balance and the block at which it was
read.  `BalanceRepository.upsert` writes it in up to three statements, and any number of them may
run at once.

* `Db.updateBalanceSnapshots_spec`, `Db.createBalanceSnapshot_spec`: what the statements do.
* `upserts`: a pool of calls of `upsert` for one wallet and one token.
* `snapshot_largest_iff`: the block never decreases, and when the largest block is kept.
-/

namespace TransactionSimulator

open Concurrent Prog Relational

/-! ## The statements -/

@[simp] theorem BalanceSnapshot.pair_mem_keys {b : BalanceSnapshot} {walletId tokenId : String} :
    BalanceSnapshotKey.walletId_tokenId walletId tokenId ∈ b.keys ↔
      walletId = b.walletId ∧ tokenId = b.tokenId := by
  simp [BalanceSnapshot.keys]

/-- The snapshot of a wallet and a token. -/
def Db.snapshot (db : Db) (walletId tokenId : String) : Option BalanceSnapshot :=
  db.balanceSnapshots.get (.walletId_tokenId walletId tokenId)

/-- What an update of the snapshot can come to. -/
inductive SnapshotUpdated (db : Db) (walletId tokenId : String) (balance blockNumber : Nat) :
    Except JsError Nat × Db → Prop
  | moved {b : BalanceSnapshot} {table : Table BalanceSnapshot BalanceSnapshotKey BalanceSnapshot.keys}
      (row : db.snapshot walletId tokenId = some b) (older : b.blockNumber < blockNumber)
      (get : ∀ w t, table.get (.walletId_tokenId w t) =
        if w = walletId ∧ t = tokenId then some { b with balance, blockNumber } else db.snapshot w t) :
      SnapshotUpdated db walletId tokenId balance blockNumber
        (.ok 1, { db with balanceSnapshots := table })
  | unmoved (current : ∀ b, db.snapshot walletId tokenId = some b → blockNumber ≤ b.blockNumber) :
      SnapshotUpdated db walletId tokenId balance blockNumber (.ok 0, db)
  | refused (range : snapshotFits balance blockNumber = false) :
      SnapshotUpdated db walletId tokenId balance blockNumber (.error valueOutOfRange, db)

theorem Db.updateBalanceSnapshots_spec (db : Db) (walletId tokenId : String)
    (balance blockNumber : Nat) : SnapshotUpdated db walletId tokenId balance blockNumber
      (db.updateBalanceSnapshots walletId tokenId balance blockNumber) := by
  rw [Db.updateBalanceSnapshots]
  by_cases hfits : snapshotFits balance blockNumber = true
  swap
  · rw [if_pos (by simp [hfits])]
    exact .refused (by simpa using hfits)
  rw [if_neg (by simp [hfits])]
  generalize hcond : (fun b : BalanceSnapshot => decide (b.walletId = walletId) &&
    decide (b.tokenId = tokenId) && decide (b.blockNumber < blockNumber)) = cond
  have hcond_iff : ∀ b, cond b = true ↔
      (b.walletId = walletId ∧ b.tokenId = tokenId) ∧ b.blockNumber < blockNumber := by
    intro b
    rw [← hcond]
    simp
  by_cases hmatch : ∃ b, db.snapshot walletId tokenId = some b ∧ b.blockNumber < blockNumber
  · obtain ⟨b, row, older⟩ := hmatch
    obtain ⟨hmem, hkey⟩ := (db.balanceSnapshots.get_eq_some_iff).mp row
    rw [BalanceSnapshot.pair_mem_keys] at hkey
    obtain ⟨table, n, hu⟩ := db.balanceSnapshots.updateMany_isSome cond
      (fun b => { b with balance, blockNumber }) fun _ _ => rfl
    have hn : n = 1 := by
      rw [(Table.updateMany_eq_some hu).2,
        db.balanceSnapshots.countP_eq_of_key (k := .walletId_tokenId walletId tokenId)]
      · rw [show db.balanceSnapshots.get (.walletId_tokenId walletId tokenId) = some b from row]
        simp [hcond_iff, hkey, older]
      · intro r hr
        rw [hcond_iff] at hr
        simp [hr.1.1, hr.1.2]
    rw [hu, hn]
    refine .moved row older ?_
    intro w t
    rw [Table.get_updateMany hu fun _ => Iff.rfl]
    by_cases hpair : w = walletId ∧ t = tokenId
    · rw [if_pos hpair, hpair.1, hpair.2, show db.balanceSnapshots.get _ = some b from row,
        Option.map_some, if_pos ((hcond_iff b).mpr ⟨⟨hkey.1.symm, hkey.2.symm⟩, older⟩)]
    · rw [if_neg hpair, Db.snapshot]
      cases hother : db.balanceSnapshots.get (.walletId_tokenId w t) with
      | none => rfl
      | some r =>
        have hr := ((db.balanceSnapshots.get_eq_some_iff).mp hother).2
        rw [BalanceSnapshot.pair_mem_keys] at hr
        have hnot : ¬ cond r = true := by
          rw [hcond_iff, ← hr.1, ← hr.2]
          exact fun h => hpair h.1
        rw [Option.map_some, if_neg hnot]
  · have hnone : ∀ r ∈ db.balanceSnapshots.rows, ¬ cond r = true := by
      intro r hr hc
      rw [hcond_iff] at hc
      refine hmatch ⟨r, ?_, hc.2⟩
      exact (db.balanceSnapshots.get_eq_some_iff).mpr ⟨hr, by simp [hc.1.1, hc.1.2]⟩
    rw [db.balanceSnapshots.updateMany_of_forall_not _ hnone]
    refine .unmoved ?_
    intro b hb
    by_contra hlt
    exact hmatch ⟨b, hb, by omega⟩

/-- The row that a creation writes. -/
def newSnapshot (env : StmtEnv) (walletId tokenId : String) (balance blockNumber : Nat) :
    BalanceSnapshot :=
  { id := env.uuid, walletId, tokenId, balance, blockNumber }

/-- What the creation of a snapshot can come to. -/
inductive SnapshotCreated (db : Db) (env : StmtEnv) (walletId tokenId : String)
    (balance blockNumber : Nat) : Except JsError BalanceSnapshot × Db → Prop
  | done {table : Table BalanceSnapshot BalanceSnapshotKey BalanceSnapshot.keys}
      (free : db.snapshot walletId tokenId = none)
      (get : ∀ w t, table.get (.walletId_tokenId w t) = if w = walletId ∧ t = tokenId then
        some (newSnapshot env walletId tokenId balance blockNumber) else db.snapshot w t) :
      SnapshotCreated db env walletId tokenId balance blockNumber
        (.ok (newSnapshot env walletId tokenId balance blockNumber),
          { db with balanceSnapshots := table })
  | taken (keys : db.snapshot walletId tokenId = none →
        ∃ b ∈ db.balanceSnapshots.rows, b.id = env.uuid) :
      SnapshotCreated db env walletId tokenId balance blockNumber (.error uniqueViolation, db)
  | refused (range : snapshotFits balance blockNumber = false) :
      SnapshotCreated db env walletId tokenId balance blockNumber (.error valueOutOfRange, db)

theorem Db.createBalanceSnapshot_spec (db : Db) (env : StmtEnv) (walletId tokenId : String)
    (balance blockNumber : Nat) : SnapshotCreated db env walletId tokenId balance blockNumber
      (db.createBalanceSnapshot env walletId tokenId balance blockNumber) := by
  simp only [Db.createBalanceSnapshot]
  by_cases hfits : snapshotFits balance blockNumber = true
  swap
  · rw [if_pos (by simp [hfits])]
    exact .refused (by simpa using hfits)
  rw [if_neg (by simp [hfits])]
  rw [show ({ id := env.uuid, walletId, tokenId, balance, blockNumber } : BalanceSnapshot) =
    newSnapshot env walletId tokenId balance blockNumber from rfl]
  cases hi : db.balanceSnapshots.insert (newSnapshot env walletId tokenId balance blockNumber) with
  | some table =>
    have hpair : BalanceSnapshotKey.walletId_tokenId walletId tokenId ∈
        (newSnapshot env walletId tokenId balance blockNumber).keys := by
      simp [newSnapshot]
    have free : db.snapshot walletId tokenId = none := Table.get_of_insert hi hpair
    refine .done free ?_
    intro w t
    rw [Table.get_insert hi]
    by_cases hwt : w = walletId ∧ t = tokenId
    · rw [if_pos hwt, hwt.1, hwt.2, show db.balanceSnapshots.get _ = none from free,
        if_pos (by simp [newSnapshot])]
      rfl
    · rw [if_neg hwt, if_neg (by simpa [newSnapshot] using hwt), Option.or_none]
      rfl
  | none =>
    refine .taken ?_
    intro hfree
    by_contra hnew
    have hfree' : ∀ k ∈ (newSnapshot env walletId tokenId balance blockNumber).keys,
        db.balanceSnapshots.get k = none := by
      intro k hk
      simp only [BalanceSnapshot.keys, newSnapshot, List.mem_cons, List.not_mem_nil, or_false] at hk
      rcases hk with rfl | rfl
      · rw [Table.get_eq_none_iff]
        intro b hb hid
        refine hnew ⟨b, hb, ?_⟩
        simp only [BalanceSnapshot.keys, List.mem_cons, BalanceSnapshotKey.id.injEq, reduceCtorEq,
          List.not_mem_nil, or_false] at hid
        exact hid.symm
      · exact hfree
    obtain ⟨table, ht⟩ := db.balanceSnapshots.insert_isSome hfree'
    rw [hi] at ht
    cases ht

/-! ## Observations -/

/-- A balance that was read at a block. -/
structure Observation where
  balance : Nat
  blockNumber : Nat
  deriving DecidableEq, Repr

def BalanceSnapshot.observation (b : BalanceSnapshot) : Observation := ⟨b.balance, b.blockNumber⟩

/-- The observation that is stored for a wallet and a token. -/
def World.observation (w : World) (walletId tokenId : String) : Option Observation :=
  (w.db.snapshot walletId tokenId).map BalanceSnapshot.observation

/-- The observation stays, or one of `T` at a later block takes its place. -/
def Raised (T : Observation → Prop) (s s' : Option Observation) : Prop :=
  s' = s ∨ ∃ o, T o ∧ s' = some o ∧ ∀ o', s = some o' → o'.blockNumber < o.blockNumber

/-- The observation is at the block `n` or a later one. -/
def Reached (n : Nat) (s : Option Observation) : Prop := ∃ o, s = some o ∧ n ≤ o.blockNumber

theorem Reached.raised {T : Observation → Prop} {n : Nat} {s s' : Option Observation}
    (h : Reached n s) (hs : Raised T s s') : Reached n s' := by
  obtain ⟨o, rfl, hn⟩ := h
  rcases hs with rfl | ⟨o', -, rfl, hlt⟩
  · exact ⟨o, rfl, hn⟩
  · have hblock := hlt o rfl
    exact ⟨o', rfl, by omega⟩

/-- What an update of the observation `s` to `o` can come to. -/
inductive Updating (o : Observation) (s : Option Observation) :
    Except JsError Nat → Option Observation → Prop
  | moves {o' : Observation} (row : s = some o') (older : o'.blockNumber < o.blockNumber)
      (r : Except JsError Nat) (count : ∀ n, r = .ok n → 0 < n) : Updating o s r (some o)
  | current (reached : ∀ o', s = some o' → o.blockNumber ≤ o'.blockNumber) : Updating o s (.ok 0) s
  | fails (e : JsError) : Updating o s (.error e) s

/-- What the creation of the observation `o` can come to. -/
inductive Creating (o : Observation) (s : Option Observation) :
    Except JsError BalanceSnapshot → Option Observation → Prop
  | creates (free : s = none) (r : Except JsError BalanceSnapshot)
      (other : ∀ message, r ≠ .error (.prisma "P2002" message)) : Creating o s r (some o)
  | taken : Creating o s (.error uniqueViolation) s
  | fails (e : JsError) (other : ∀ message, e ≠ .prisma "P2002" message) : Creating o s (.error e) s

section Statements

variable (walletId tokenId : String) (o : Observation) (i : Input) (w : World)

theorem updating_exec : Updating o (w.observation walletId tokenId)
    (exec (.stmt (.balanceSnapshotUpdateMany walletId tokenId o.balance o.blockNumber)) i w).1
    ((exec (.stmt (.balanceSnapshotUpdateMany walletId tokenId o.balance o.blockNumber)) i
      w).2.observation walletId tokenId) := by
  have hspec := w.db.updateBalanceSnapshots_spec walletId tokenId o.balance o.blockNumber
  have heffect : ∀ r, (∀ n, r = .ok n →
      r = ((Call.stmt (.balanceSnapshotUpdateMany walletId tokenId o.balance o.blockNumber)).effect i w).1) →
      Updating o (w.observation walletId tokenId) r
        (((Call.stmt (.balanceSnapshotUpdateMany walletId tokenId o.balance o.blockNumber)).effect i
          w).2.observation walletId tokenId) := by
    intro r hr
    simp only [Call.effect, Stmt.exec] at hr ⊢
    generalize w.db.updateBalanceSnapshots walletId tokenId o.balance o.blockNumber = result at hspec hr
    cases hspec with
    | @moved b table row older get =>
      have hrow : w.observation walletId tokenId = some b.observation := by
        rw [World.observation, row, Option.map_some]
      have hnew : ({ w with db := { w.db with balanceSnapshots := table } } : World).observation walletId
          tokenId = some o := by
        rw [World.observation, Db.snapshot, get, if_pos ⟨rfl, rfl⟩]
        rfl
      rw [hnew]
      refine .moves hrow older r ?_
      intro n hn
      have hone := hr n hn
      rw [hn, Except.ok.injEq] at hone
      omega
    | unmoved current =>
      have hreached : ∀ o', w.observation walletId tokenId = some o' →
          o.blockNumber ≤ o'.blockNumber := by
        intro o' ho'
        obtain ⟨b, hb, rfl⟩ := Option.map_eq_some_iff.mp ho'
        exact current b hb
      cases r with
      | ok n =>
        rw [hr n rfl]
        exact .current hreached
      | error e => exact .fails e
    | refused range =>
      cases r with
      | ok n => cases hr n rfl
      | error e => exact .fails e
  rcases exec_cases (.stmt (.balanceSnapshotUpdateMany walletId tokenId o.balance o.blockNumber)) i w with
    heff | ⟨message, hnot | heff⟩
  · rw [heff]
    exact heffect _ fun _ _ => rfl
  · rw [hnot]
    exact .fails _
  · rw [heff]
    exact heffect _ fun _ h => by cases h

theorem creating_exec : Creating o (w.observation walletId tokenId)
    (exec (.stmt (.balanceSnapshotCreate walletId tokenId o.balance o.blockNumber)) i w).1
    ((exec (.stmt (.balanceSnapshotCreate walletId tokenId o.balance o.blockNumber)) i
      w).2.observation walletId tokenId) := by
  have hspec := w.db.createBalanceSnapshot_spec ⟨w.clock, i.uuid⟩ walletId tokenId o.balance o.blockNumber
  have hnew : ∀ table : Table BalanceSnapshot BalanceSnapshotKey BalanceSnapshot.keys,
      (∀ w' t, table.get (.walletId_tokenId w' t) = if w' = walletId ∧ t = tokenId then
        some (newSnapshot ⟨w.clock, i.uuid⟩ walletId tokenId o.balance o.blockNumber)
        else w.db.snapshot w' t) →
      ({ w with db := { w.db with balanceSnapshots := table } } : World).observation walletId tokenId =
        some o := by
    intro table get
    rw [World.observation, Db.snapshot, get, if_pos ⟨rfl, rfl⟩]
    rfl
  have hother : ∀ message, valueOutOfRange ≠ .prisma "P2002" message := by simp [valueOutOfRange]
  rcases exec_cases (.stmt (.balanceSnapshotCreate walletId tokenId o.balance o.blockNumber)) i w with
    heff | ⟨message, hnot | heff⟩
  · rw [heff]
    simp only [Call.effect, Stmt.exec]
    generalize w.db.createBalanceSnapshot ⟨w.clock, i.uuid⟩ walletId tokenId o.balance o.blockNumber =
      result at hspec
    cases hspec with
    | @done table free get =>
      rw [hnew table get]
      exact .creates (by rw [World.observation, free]; rfl) _ (by simp)
    | taken keys => exact .taken
    | refused range => exact .fails _ hother
  · rw [hnot]
    exact .fails _ (by simp)
  · rw [heff]
    simp only [Call.effect, Stmt.exec]
    generalize w.db.createBalanceSnapshot ⟨w.clock, i.uuid⟩ walletId tokenId o.balance o.blockNumber =
      result at hspec
    cases hspec with
    | @done table free get =>
      rw [hnew table get]
      exact .creates (by rw [World.observation, free]; rfl) _ (by simp)
    | taken keys => exact .fails _ (by simp)
    | refused range => exact .fails _ (by simp)

theorem observation_read :
    (exec (.stmt (.balanceSnapshotFindUniqueOrThrow walletId tokenId)) i w).2.observation walletId
      tokenId = w.observation walletId tokenId :=
  exec_snd (P := fun w w' => w'.observation walletId tokenId = w.observation walletId tokenId) rfl rfl

end Statements

/-! ## Concurrent calls -/

/-- Calls of `upsert` for one wallet and one token, each with an observation. -/
def upserts (walletId tokenId : String) :
    System Call Call.Res JsError World Input Observation Shift where
  exec := exec
  prog o := (BalanceRepository.upsert walletId tokenId o.balance o.blockNumber).void
  shift := World.shift

theorem Raised.refl (T : Observation → Prop) (s : Option Observation) : Raised T s s := .inl rfl

theorem Raised.trans {T : Observation → Prop} {s s' s'' : Option Observation} (h : Raised T s s')
    (h' : Raised T s' s'') : Raised T s s'' := by
  rcases h' with rfl | ⟨o, hT, rfl, hlater⟩
  · exact h
  rcases h with rfl | ⟨o', -, rfl, hlater'⟩
  · exact .inr ⟨o, hT, rfl, hlater⟩
  · refine .inr ⟨o, hT, rfl, ?_⟩
    intro o'' ho''
    have h₁ := hlater' o'' ho''
    have h₂ := hlater o' rfl
    omega

section Upserts

variable (walletId tokenId : String) {T : Observation → Prop} {o : Observation}

/-- The call changes the stored observation. -/
def Rewrites (m : Moment Call Input World) : Prop :=
  (exec m.op m.input m.state).2.observation walletId tokenId ≠ m.state.observation walletId tokenId

/-- A creation that is refused because there is a row, while that row is at an older block: the call
that makes it returns all the same. -/
def Overtaken (m : Moment Call Input World) : Prop :=
  ∃ balance blockNumber, m.op = .stmt (.balanceSnapshotCreate walletId tokenId balance blockNumber) ∧
    (exec (.stmt (.balanceSnapshotCreate walletId tokenId balance blockNumber)) m.input m.state).1 =
      .error uniqueViolation ∧ ¬ Reached blockNumber (m.state.observation walletId tokenId)

/-- What a call of `upsert` ends with. -/
structure Upserts (o : Observation) {α : Type} (tr : List (Moment Call Input World))
    (r : Except JsError α) (w : World) : Prop where
  reached : ∀ a, r = .ok a → Reached o.blockNumber (w.observation walletId tokenId) ∨
    Found (Overtaken walletId tokenId) tr
  silent : Found (Overtaken walletId tokenId) tr → ¬ Found (Rewrites walletId tokenId) tr
  own : ∀ m ∈ tr, Rewrites walletId tokenId m →
    (exec m.op m.input m.state).2.observation walletId tokenId = some o

/-- The observation is raised, or stays. -/
def Raises (T : Observation → Prop) (w w' : World) : Prop :=
  Raised T (w.observation walletId tokenId) (w'.observation walletId tokenId)

variable {walletId tokenId}

instance : Trans (Raises walletId tokenId T) (Raises walletId tokenId T) (Raises walletId tokenId T) where
  trans := Raised.trans

theorem Raises.star {w w' : World} (h : Relation.ReflTransGen (Raises walletId tokenId T) w w') :
    Raises walletId tokenId T w w' := by
  induction h with
  | refl => exact Raised.refl T _
  | tail _ hs ih => exact Raised.trans ih hs

theorem Raises.of_eq {w w' : World}
    (h : w'.observation walletId tokenId = w.observation walletId tokenId) :
    Raises walletId tokenId T w w' := .inl h

theorem not_overtaken_update {balance blockNumber : Nat} {i : Input} {w : World} : ¬ Overtaken walletId
    tokenId ⟨w, .stmt (.balanceSnapshotUpdateMany walletId tokenId balance blockNumber), i⟩ := by
  intro h
  obtain ⟨_, _, h, -⟩ := h
  cases h

/-- The last statement, which only reads. -/
theorem wp_reread {Q : List (Moment Call Input World) → Except JsError BalanceSnapshot → World → Prop}
    {w : World} (hQ : ∀ w' m r w'', Raises walletId tokenId T w w' →
      w''.observation walletId tokenId = w'.observation walletId tokenId →
      ¬ Overtaken walletId tokenId m → ¬ Rewrites walletId tokenId m → Q [m] r w'') :
    wp exec (Raises walletId tokenId T) (Raises walletId tokenId T)
      (prisma.stmt (.balanceSnapshotFindUniqueOrThrow walletId tokenId)) Q w := by
  refine wp_perform.mpr ?_
  intro w' hw i
  have hread := observation_read walletId tokenId i w'
  refine ⟨.of_eq hread, hQ w' _ _ _ (.star hw) hread ?_ (fun h => h hread)⟩
  intro h
  obtain ⟨_, _, h, -⟩ := h
  cases h

theorem Upserts.of_not_overtaken {α : Type} {tr : List (Moment Call Input World)} {r : Except JsError α}
    {w : World} (hnot : ¬ Found (Overtaken walletId tokenId) tr)
    (hreached : ∀ a, r = .ok a → Reached o.blockNumber (w.observation walletId tokenId))
    (hown : ∀ m ∈ tr, Rewrites walletId tokenId m →
      (exec m.op m.input m.state).2.observation walletId tokenId = some o) :
    Upserts walletId tokenId o tr r w :=
  ⟨fun a ha => .inl (hreached a ha), fun h => absurd h hnot, hown⟩

theorem Upserts.of_not_rewrites {α : Type} {tr : List (Moment Call Input World)} {r : Except JsError α}
    {w : World} (hnot : ¬ Found (Rewrites walletId tokenId) tr)
    (hreached : ∀ a, r = .ok a → Reached o.blockNumber (w.observation walletId tokenId) ∨
      Found (Overtaken walletId tokenId) tr) :
    Upserts walletId tokenId o tr r w :=
  ⟨hreached, fun _ => hnot, fun m hm h => absurd ⟨m, hm, h⟩ hnot⟩

theorem reached_self : Reached o.blockNumber (some o) := ⟨o, rfl, le_rfl⟩

/-- The second part of a call, after an update that changed nothing: a creation, and its handler. -/
theorem wp_create (hT : T o) {handler : JsError → Program BalanceSnapshot} {m₀ : Moment Call Input World}
    (htaken : handler uniqueViolation = prisma.stmt (.balanceSnapshotFindUniqueOrThrow walletId tokenId))
    (hother : ∀ e, (∀ message, e ≠ .prisma "P2002" message) → handler e = .throw e)
    (h₀ : ¬ Overtaken walletId tokenId m₀) (h₀' : ¬ Rewrites walletId tokenId m₀) (w : World) :
    wp exec (Raises walletId tokenId T) (Raises walletId tokenId T)
      ((prisma.stmt (.balanceSnapshotCreate walletId tokenId o.balance o.blockNumber)).tryCatch handler)
      (fun tr => Upserts walletId tokenId o (m₀ :: tr)) w := by
  rw [wp_tryCatch]
  refine wp_perform.mpr ?_
  intro w₁ _ i
  have hcreate := creating_exec walletId tokenId o i w₁
  generalize hm : (⟨w₁, .stmt (.balanceSnapshotCreate walletId tokenId o.balance o.blockNumber), i⟩ :
    Moment Call Input World) = m
  have hrewrites : Rewrites walletId tokenId m ↔
      (exec (.stmt (.balanceSnapshotCreate walletId tokenId o.balance o.blockNumber)) i
        w₁).2.observation walletId tokenId ≠ w₁.observation walletId tokenId := by
    rw [← hm, Rewrites]
  have hovertaken : Overtaken walletId tokenId m ↔
      (exec (.stmt (.balanceSnapshotCreate walletId tokenId o.balance o.blockNumber)) i
        w₁).1 = .error uniqueViolation ∧ ¬ Reached o.blockNumber (w₁.observation walletId tokenId) := by
    rw [← hm]
    constructor
    · intro h
      obtain ⟨balance, blockNumber, hop, h⟩ := h
      cases hop
      exact h
    · exact fun h => ⟨_, _, rfl, h⟩
  have hown : (exec m.op m.input m.state).2 =
      (exec (.stmt (.balanceSnapshotCreate walletId tokenId o.balance o.blockNumber)) i w₁).2 := by
    rw [← hm]
  generalize exec (.stmt (.balanceSnapshotCreate walletId tokenId o.balance o.blockNumber)) i w₁ = result
    at hcreate hrewrites hovertaken hown ⊢
  obtain ⟨r, w₂⟩ := result
  generalize hs : w₂.observation walletId tokenId = s at hcreate
  cases hcreate with
  | creates free r other =>
    have hraises : Raises walletId tokenId T w₁ w₂ := by
      rw [Raises, hs, free]
      exact .inr ⟨o, hT, rfl, by simp⟩
    have hend : ∀ r' : Except JsError BalanceSnapshot,
        Upserts walletId tokenId o [m₀, m] r' w₂ := by
      intro r'
      refine .of_not_overtaken ?_ ?_ ?_
      · have hnot : r ≠ .error uniqueViolation := other _
        simp [h₀, hovertaken, hnot]
      · rw [hs]
        exact fun _ _ => reached_self
      · intro m' hm' hw
        rcases List.mem_cons.mp hm' with rfl | hm'
        · exact absurd hw h₀'
        · rw [List.mem_singleton.mp hm', hown, hs]
    refine ⟨hraises, ?_⟩
    cases r with
    | ok b => exact hend _
    | error e =>
      simp only
      rw [hother e fun message h => other message (by rw [h])]
      exact hend _
  | taken =>
    refine ⟨.of_eq hs, ?_⟩
    simp only
    rw [htaken]
    refine wp_reread ?_
    intro w' m' r' w'' hraised hread hnot hnot'
    refine .of_not_rewrites ?_ ?_
    · simp [h₀', hrewrites, hs, hnot']
    · intro _ _
      by_cases hreached : Reached o.blockNumber (w₁.observation walletId tokenId)
      · rw [hread]
        exact .inl (Reached.raised (hs ▸ hreached) hraised)
      · exact .inr ⟨m, by simp, hovertaken.mpr ⟨rfl, hreached⟩⟩
  | fails e other =>
    refine ⟨.of_eq hs, ?_⟩
    simp only
    rw [hother e other]
    refine .of_not_rewrites ?_ ?_
    · simp [h₀', hrewrites, hs]
    · intro a ha
      cases ha

/-- **What one call does among the others.** -/
theorem wp_upsert (hT : T o) (w : World) :
    wp exec (Raises walletId tokenId T) (Raises walletId tokenId T)
      (BalanceRepository.upsert walletId tokenId o.balance o.blockNumber) (Upserts walletId tokenId o)
      w := by
  rw [BalanceRepository.upsert, bind_eq, wp_bind]
  refine wp_perform.mpr ?_
  intro w₁ _ i
  have hupdate := updating_exec walletId tokenId o i w₁
  generalize hm : (⟨w₁, .stmt (.balanceSnapshotUpdateMany walletId tokenId o.balance o.blockNumber), i⟩ :
    Moment Call Input World) = m
  have hnot : ¬ Overtaken walletId tokenId m := hm ▸ not_overtaken_update
  have hrewrites : Rewrites walletId tokenId m ↔
      (exec (.stmt (.balanceSnapshotUpdateMany walletId tokenId o.balance o.blockNumber)) i
        w₁).2.observation walletId tokenId ≠ w₁.observation walletId tokenId := by
    rw [← hm, Rewrites]
  have hown : (exec m.op m.input m.state).2 =
      (exec (.stmt (.balanceSnapshotUpdateMany walletId tokenId o.balance o.blockNumber)) i w₁).2 := by
    rw [← hm]
  generalize exec (.stmt (.balanceSnapshotUpdateMany walletId tokenId o.balance o.blockNumber)) i w₁ =
    result at hupdate hrewrites hown ⊢
  obtain ⟨r, w₂⟩ := result
  generalize hs : w₂.observation walletId tokenId = s at hupdate
  cases hupdate with
  | moves row older r count =>
    have hraises : Raises walletId tokenId T w₁ w₂ := by
      rw [Raises, hs]
      refine .inr ⟨o, hT, rfl, ?_⟩
      intro o'' ho''
      rw [row, Option.some.injEq] at ho''
      exact ho'' ▸ older
    refine ⟨hraises, ?_⟩
    cases r with
    | ok n =>
      simp only
      rw [if_pos (count n rfl)]
      refine wp_reread ?_
      intro w' m' r' w'' hraised hread hnot' hnot''
      refine .of_not_overtaken (by simp [hnot, hnot']) ?_ ?_
      · intro _ _
        rw [hread]
        exact Reached.raised (hs ▸ reached_self) hraised
      · intro m'' hm'' hw
        rcases List.mem_cons.mp hm'' with rfl | hm''
        · rw [hown, hs]
        · rw [List.mem_singleton.mp hm''] at hw
          exact absurd hw hnot''
    | error e =>
      refine .of_not_overtaken (by simp [hnot]) (fun _ h => by cases h) ?_
      intro m' hm' _
      rw [List.mem_singleton.mp hm', hown, hs]
  | current reached =>
    refine ⟨.of_eq hs, ?_⟩
    simp only [gt_iff_lt, lt_self_iff_false, if_false]
    refine wp_create hT rfl ?_ hnot (by simp [hrewrites, hs]) _
    intro e he
    split
    · next message => exact absurd rfl (he message)
    · rfl
  | fails e =>
    refine ⟨.of_eq hs, .of_not_rewrites (by simp [hrewrites, hs]) fun _ h => by cases h⟩

end Upserts

/-- The observation `s'` is one of `os` or the earlier `s`, and none of these is at a later block. -/
def Latest (os : List Observation) (s s' : Option Observation) : Prop :=
  ∃ o, s' = some o ∧ (o ∈ os ∨ s = some o) ∧ (∀ o' ∈ os, o'.blockNumber ≤ o.blockNumber) ∧
    ∀ o', s = some o' → o'.blockNumber ≤ o.blockNumber

/-- The calls before anything has been started. -/
def World.idle (w : World) : Config Call Call.Res JsError World := ⟨w, []⟩

section Runs

variable {walletId tokenId : String} {w : World} {es : List (Event Observation Input Shift)}

theorem observation_shift (d : Shift) (w : World) :
    (w.shift d).observation walletId tokenId = w.observation walletId tokenId := by
  cases d <;> rfl

theorem wp_prog {T : Observation → Prop} {o : Observation} (hT : T o) (w : World) :
    wp exec (Raises walletId tokenId T) (Raises walletId tokenId T) ((upserts walletId tokenId).prog o)
      (Upserts walletId tokenId o) w := by
  refine wp_void (wp_mono ?_ (wp_upsert hT w))
  intro tr r w' h
  refine ⟨?_, h.silent, h.own⟩
  intro _ hr
  cases r with
  | ok a => exact h.reached a rfl
  | error e => cases hr

theorem respects_upserts (walletId tokenId : String) (T : Observation → Prop) :
    Respects (upserts walletId tokenId) (Raises walletId tokenId T) (Raises walletId tokenId T)
      (fun _ => True) (fun e => ∀ o, e = .spawn o → T o) where
  refl _ := Raised.refl T _
  sub _ _ h := h
  keeps _ _ _ _ := trivial
  task o ho w _ := wp_mono (fun _ _ _ _ => trivial) (wp_prog (ho o rfl) w)
  shift d _ w _ := .of_eq (observation_shift d w)

theorem spawn_mem_spawned : ∀ e ∈ es, ∀ o, e = .spawn o → o ∈ spawned es := by
  intro e he o heq
  exact List.mem_filterMap.mpr ⟨e, he, by rw [heq]⟩

theorem raises_after (walletId tokenId : String) (w : World) (es : List (Event Observation Input Shift)) :
    Raises walletId tokenId (· ∈ spawned es) w (w.idle.after (upserts walletId tokenId) es).world :=
  .star ((Healthy.init (w := w) trivial).after (respects_upserts walletId tokenId _) spawn_mem_spawned).1

theorem pairwise_reached :
    (w.idle.worlds (upserts walletId tokenId) es).Pairwise fun w w' => ∀ n,
      Reached n (w.observation walletId tokenId) → Reached n (w'.observation walletId tokenId) := by
  have hchain := (Healthy.init (w := w) trivial).isChain_worlds
    (respects_upserts walletId tokenId (· ∈ spawned es)) spawn_mem_spawned
  refine List.Pairwise.imp ?_ (hchain.pairwise)
  intro w w' hw n hn
  exact hn.raised hw

/-- What the calls that have returned have come to. -/
theorem upserts_of_returned (hdone : (w.idle.after (upserts walletId tokenId) es).Returned) {pid : Nat}
    {o : Observation} (ho : (spawned es)[pid]? = some o) :
    Upserts walletId tokenId o (w.idle.callsOf (upserts walletId tokenId) pid es) (.ok ())
      (w.idle.after (upserts walletId tokenId) es).world := by
  have htracked := procs_of_wp (respects_upserts walletId tokenId (· ∈ spawned es))
    (Q := fun o => Upserts walletId tokenId o) ?_ (fun o ho w _ => wp_prog (ho o rfl) w) (w := w) trivial
    spawn_mem_spawned
  · have hlen : (w.idle.after (upserts walletId tokenId) es).procs.length = (spawned es).length :=
      htracked.length
    have hlt : pid < (w.idle.after (upserts walletId tokenId) es).procs.length := by
      rw [hlen]
      exact (List.getElem?_eq_some_iff.mp ho).1
    obtain ⟨o', ho', hend⟩ := htracked.left pid _ (hdone.getElem? hlt)
    rw [ho, Option.some.injEq] at ho'
    subst ho'
    rw [wp, List.append_nil] at hend
    exact hend
  · intro o tr r w w' hw h
    refine ⟨?_, h.silent, h.own⟩
    intro a ha
    exact (h.reached a ha).imp_left fun hreached => hreached.raised hw

end Runs

/-- **The block of the snapshot never decreases.  Once all calls have returned, the snapshot is the
latest observation iff the earlier one was, or some call with the largest block did not find, when
it tried to create the row, a row at an older block.** -/
theorem snapshot_largest_iff (walletId tokenId : String) (w : World)
    (es : List (Event Observation Input Shift)) :
    (w.idle.worlds (upserts walletId tokenId) es).Pairwise (fun w w' => ∀ n,
        Reached n (w.observation walletId tokenId) → Reached n (w'.observation walletId tokenId)) ∧
      ((w.idle.after (upserts walletId tokenId) es).Returned →
        (Latest (spawned es) (w.observation walletId tokenId)
            ((w.idle.after (upserts walletId tokenId) es).world.observation walletId tokenId) ↔
          (∃ o, w.observation walletId tokenId = some o ∧
            ∀ o' ∈ spawned es, o'.blockNumber ≤ o.blockNumber) ∨
          ∃ pid o, (spawned es)[pid]? = some o ∧
            (∀ o' ∈ spawned es, o'.blockNumber ≤ o.blockNumber) ∧
            ¬ Found (Overtaken walletId tokenId)
              (w.idle.callsOf (upserts walletId tokenId) pid es))) := by
  constructor
  · exact pairwise_reached
  intro hdone
  have hraises := raises_after walletId tokenId w es
  constructor
  · intro hlatest
    obtain ⟨o, ho, -, hcalls, hearlier⟩ := hlatest
    by_cases hsame : (w.idle.after (upserts walletId tokenId) es).world.observation walletId tokenId =
        w.observation walletId tokenId
    · exact .inl ⟨o, by rw [← hsame, ho], hcalls⟩
    · -- the call that wrote the snapshot last wrote its own observation, and was not overtaken
      obtain ⟨m, hm, hbefore, hafter⟩ := changed_by_moment (S := upserts walletId tokenId)
        (f := fun w => w.observation walletId tokenId) observation_shift hsame
      obtain ⟨pid, hlt, hmem⟩ := exists_mem_callsOf hm
      rw [length_procs_after] at hlt
      obtain ⟨own, hown⟩ : ∃ own, (spawned es)[pid]? = some own :=
        ⟨_, List.getElem?_eq_getElem (by simpa [World.idle] using hlt)⟩
      have hpid := upserts_of_returned hdone hown
      have hwrites : Rewrites walletId tokenId m := fun h => hbefore (h.symm.trans hafter)
      have heq : own = o := by
        have hsome := (hpid.own m hmem hwrites).symm.trans (hafter.trans ho)
        exact Option.some.inj hsome
      refine .inr ⟨pid, own, hown, by rwa [heq], ?_⟩
      exact fun h => hpid.silent h ⟨m, hmem, hwrites⟩
  · intro hcond
    rcases hcond with ⟨o, ho, hcalls⟩ | ⟨pid, o, ho, hcalls, hnot⟩
    · -- no call could raise the earlier snapshot
      refine ⟨o, ?_, .inr ho, hcalls, by simp [ho]⟩
      rcases hraises with heq | ⟨o', hmem, -, hlater⟩
      · exact heq.trans ho
      · have h₁ := hlater o ho
        have h₂ := hcalls o' hmem
        omega
    · have hreached := (upserts_of_returned hdone ho).reached () rfl
      obtain ⟨o', ho', hblock⟩ := hreached.resolve_right hnot
      refine ⟨o', ho', ?_, ?_, ?_⟩
      · rcases hraises with heq | ⟨o'', hmem, heq, -⟩
        · exact .inr (heq.symm.trans ho')
        · exact .inl (Option.some.inj (heq.symm.trans ho') ▸ hmem)
      · intro o'' ho''
        exact (hcalls o'' ho'').trans hblock
      · intro o'' ho''
        obtain ⟨o₁, ho₁, hle⟩ := Reached.raised ⟨o'', ho'', le_rfl⟩ hraises
        rw [ho', Option.some.injEq] at ho₁
        rwa [ho₁]

/-- Two calls, one after the other: the later block is written first. -/
def upsertsInTurn : List (Event Observation Input Shift) :=
  [.spawn ⟨9, 2⟩, .step 0 {}, .step 0 { uuid := "a" }, .spawn ⟨5, 1⟩, .step 1 {},
    .step 1 { uuid := "b" }, .step 1 {}]

theorem snapshot_largest_iff_inTurn :
    Latest [⟨9, 2⟩, ⟨5, 1⟩] none ((World.sample.idle.after (upserts "receiver" "token")
      upsertsInTurn).world.observation "receiver" "token") := by
  refine ((snapshot_largest_iff "receiver" "token" .sample upsertsInTurn).2
    (by decide +kernel)).mpr (.inr ⟨0, ⟨9, 2⟩, rfl, by decide, ?_⟩)
  intro h
  obtain ⟨⟨state, op, input⟩, hm, _, _, hop, herror, -⟩ := h
  have hok : ∀ m ∈ World.sample.idle.callsOf (upserts "receiver" "token") 0 upsertsInTurn,
      (exec m.op m.input m.state).1.isOk = true := by decide +kernel
  cases hop
  have hcreated := hok _ hm
  rw [herror] at hcreated
  cases hcreated

/-- Two first calls whose updates find no row; the one with the older block creates it. -/
def overtakenUpserts : List (Event Observation Input Shift) :=
  [.spawn ⟨9, 2⟩, .spawn ⟨5, 1⟩, .step 0 {}, .step 1 {}, .step 1 { uuid := "a" },
    .step 0 { uuid := "b" }, .step 0 {}]

/-- Both calls return, and the snapshot stays at the block 1. -/
theorem overtaken_stays : (World.sample.idle.after (upserts "receiver" "token") overtakenUpserts).Returned ∧
    spawned overtakenUpserts = [⟨9, 2⟩, ⟨5, 1⟩] ∧
    ¬ Latest (spawned overtakenUpserts) (World.sample.observation "receiver" "token")
      ((World.sample.idle.after (upserts "receiver" "token")
        overtakenUpserts).world.observation "receiver" "token") := by
  refine ⟨by decide +kernel, by decide, ?_⟩
  intro h
  obtain ⟨o, ho, -, hlargest, -⟩ := h
  have hfinal : (World.sample.idle.after (upserts "receiver" "token")
      overtakenUpserts).world.observation "receiver" "token" = some ⟨5, 1⟩ := by decide +kernel
  rw [hfinal, Option.some.injEq] at ho
  have htwo := hlargest ⟨9, 2⟩ (by decide)
  subst ho
  exact absurd htwo (by decide)

end TransactionSimulator
