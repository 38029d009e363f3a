import TransactionSimulator.Indexer.Refinement

/-!
# The index is complete and has every log once

What a sound index says about the rows of one token.  A log at or below the cursor has a row
(`Index.Covers`), every row was written for some log (`Index.Observed`), and a log is named by its
transaction hash and its index in the block; so the row that was found for a log is the row that
was written for it.

* `indexed_exactly_once`: below a cursor that has been moved every log of the token has exactly one
  row, and every row of the token is a log.
-/

namespace TransactionSimulator

open Concurrent Prog Relational

/-- The contracts of two tokens differ, also when case is ignored. -/
def Db.DistinctContracts (db : Db) : Prop :=
  ∀ s ∈ db.tokens.rows, ∀ t ∈ db.tokens.rows, ∀ a b, s.contractAddress = some a →
    t.contractAddress = some b → Js.toLowerCase a = Js.toLowerCase b → s.id = t.id

/-- Two logs of the chain that agree in hash and index are one log. -/
def Chain.UniqueLogs (chain : Chain) : Prop :=
  ∀ l n l' n', chain.Mined l n → chain.Mined l' n' → l.transactionHash = l'.transactionHash →
    l.logIndex = l'.logIndex → l = l' ∧ n = n'

/-- The row has the hash and the index of the log. -/
def TokenTransfer.isRowOf (l : TransferLog) (r : TokenTransfer) : Bool :=
  r.transactionHash = l.transactionHash && r.logIndex = l.logIndex

/-- The log has one row, that of the token, and the row carries the log. -/
structure Db.IndexedOnce (db : Db) (tokenId : String) (l : TransferLog) (n : Nat) : Prop where
  once : db.tokenTransfers.rows.countP (TokenTransfer.isRowOf l) = 1
  row : ∃ r ∈ db.tokenTransfers.rows, r.tokenId = tokenId ∧ r.Carries l n

section Sound

variable {start : Nat} {w : World}

theorem token_of_contract {tokenId address : String}
    (h : w.index.contract tokenId = some (some address)) :
    ∃ t ∈ w.db.tokens.rows, t.id = tokenId ∧ t.contractAddress = some address := by
  obtain ⟨t, ht, haddress⟩ := Option.map_eq_some_iff.mp h
  obtain ⟨hmem, hid⟩ := (w.db.tokens.get_eq_some_iff).mp ht
  rw [Token.id_mem_keys] at hid
  exact ⟨t, hmem, hid.symm, haddress⟩

theorem eq_of_emits (hdistinct : w.db.DistinctContracts) {a b : String} {l : TransferLog}
    (ha : w.index.Emits a l) (hb : w.index.Emits b l) : a = b := by
  obtain ⟨address, hcontract, haddress⟩ := ha
  obtain ⟨address', hcontract', haddress'⟩ := hb
  obtain ⟨s, hs, rfl, hsa⟩ := token_of_contract hcontract
  obtain ⟨t, ht, rfl, hta⟩ := token_of_contract hcontract'
  exact hdistinct s hs t ht _ _ hsa hta (haddress.symm.trans haddress')

/-- **The row that is found for a log was written for it**: it carries the log and belongs to the
token whose contract emitted it. -/
theorem carries_of_recorded (hsound : w.index.Sound start) (hunique : w.chain.UniqueLogs)
    (hdistinct : w.db.DistinctContracts) {tokenId : String} {l : TransferLog} {n : Nat}
    (hmined : w.chain.Mined l n) (hemits : w.index.Emits tokenId l) {r : TokenTransfer}
    (hr : r ∈ w.db.tokenTransfers.rows) (hhash : r.transactionHash = l.transactionHash)
    (hindex : r.logIndex = l.logIndex) : r.tokenId = tokenId ∧ r.Carries l n := by
  obtain ⟨l', n', hmined', hemits', hcarries⟩ := hsound.observed r hr
  obtain ⟨rfl, rfl⟩ := hunique l n l' n' hmined hmined'
    (hhash.symm.trans hcarries.transactionHash) (hindex.symm.trans hcarries.logIndex)
  exact ⟨eq_of_emits hdistinct hemits' hemits, hcarries⟩

theorem countP_isRowOf {db : Db} {l : TransferLog} {r : TokenTransfer}
    (hr : r ∈ db.tokenTransfers.rows) (hhash : r.transactionHash = l.transactionHash)
    (hindex : r.logIndex = l.logIndex) :
    db.tokenTransfers.rows.countP (TokenTransfer.isRowOf l) = 1 := by
  have hget : db.tokenTransfers.get (.transactionHash_logIndex l.transactionHash l.logIndex) =
      some r := by
    rw [Table.get_eq_some_iff, TokenTransfer.event_mem_keys]
    exact ⟨hr, hhash.symm, hindex.symm⟩
  have hkey : ∀ s, TokenTransfer.isRowOf l s = true →
      .transactionHash_logIndex l.transactionHash l.logIndex ∈ s.keys := by
    intro s hs
    simp only [TokenTransfer.isRowOf, Bool.and_eq_true, decide_eq_true_eq] at hs
    rw [TokenTransfer.event_mem_keys]
    exact ⟨hs.1.symm, hs.2.symm⟩
  rw [Table.countP_eq_of_key _ hkey, hget, if_pos]
  simp [TokenTransfer.isRowOf, hhash, hindex]

/-- A log of the token at or below a cursor that has been moved. -/
theorem indexedOnce_of_sound (hsound : w.index.Sound start) (hunique : w.chain.UniqueLogs)
    (hdistinct : w.db.DistinctContracts) {tokenId address : String}
    (hcontract : w.index.contract tokenId = some (some address)) {c : TokenEventCursor}
    (hc : w.db.tokenEventCursors.get tokenId = some c) (hmoved : 0 < c.lastProcessedBlock)
    {l : TransferLog} {n : Nat} (hstart : start ≤ n) (hlast : n ≤ c.lastProcessedBlock)
    (hmined : w.chain.Mined l n) (hemitted : Chain.emittedBy (some address) l = true) :
    w.db.IndexedOnce tokenId l n := by
  have hcovers : w.index.Covers tokenId start (c.lastProcessedBlock + 1) := by
    rcases hsound.cursors tokenId c hc with hfresh | hcovers
    · have hzero := hfresh.1
      omega
    · exact hcovers
  have hemits : w.index.Emits tokenId l :=
    ⟨address, hcontract, by simpa [Chain.emittedBy] using hemitted⟩
  obtain ⟨r, hr, hhash, hindex⟩ := hcovers.2 _ hcontract n hstart (by omega) (l, n)
    (Chain.mem_logsOf.mpr ⟨hmined, hemitted, rfl⟩)
  exact ⟨countP_isRowOf hr hhash hindex, r, hr,
    carries_of_recorded hsound hunique hdistinct hmined hemits hr hhash hindex⟩

end Sound

/-- Tokens are neither added nor changed. -/
theorem distinctContracts_after (D : Deployment) (w : World) (hw : w.Initial) (es : List SystemEvent)
    (h : w.db.DistinctContracts) : (w.start.after D.system es).world.db.DistinctContracts := by
  have hkeep : ∀ s ∈ (w.start.after D.system es).world.db.tokens.rows, ∀ a,
      s.contractAddress = some a → ∃ t ∈ w.db.tokens.rows, t.id = s.id ∧ t.contractAddress = some a := by
    intro s hs a ha
    have hget : (w.start.after D.system es).world.index.contract s.id = some (some a) := by
      have hrow : (w.start.after D.system es).world.db.tokens.get (.id s.id) = some s := by
        rw [Table.get_eq_some_iff, Token.id_mem_keys]
        exact ⟨hs, rfl⟩
      show Option.map Token.contractAddress _ = _
      rw [hrow, Option.map_some, ha]
    have hsame : Stable (Indexing D.startBlock) (Indexing D.startBlock)
        fun v => v.index.contract = w.index.contract :=
      stable_index (F := fun x => x.contract = w.index.contract)
        fun _ _ hp hx => hp.contract.trans hx
    rw [hsame.star (index_path D hw es).1 rfl] at hget
    exact token_of_contract hget
  intro s hs t ht a b ha hb hab
  obtain ⟨s', hs', hsid, hsa⟩ := hkeep s hs a ha
  obtain ⟨t', ht', htid, htb⟩ := hkeep t ht b hb
  rw [← hsid, ← htid]
  exact h s' hs' t' ht' a b hsa htb hab

/-- **Indexing is complete and exactly once.**  In every reachable state, whatever listeners and
other processes have run, failed and crashed before: below a cursor that has been moved every log
of the token from the first block to index on has exactly one row, which carries it, and every row
of the token carries a log of the token. -/
theorem indexed_exactly_once (D : Deployment) (w : World) (hw : w.Initial) (es : List SystemEvent)
    (token : Token) (address : String) (htoken : w.db.tokens.get (.id token.id) = some token)
    (haddress : token.contractAddress = some address) (hdistinct : w.db.DistinctContracts)
    (hunique : (w.start.after D.system es).world.chain.UniqueLogs) :
    (∀ c, (w.start.after D.system es).world.db.tokenEventCursors.get token.id = some c →
      0 < c.lastProcessedBlock → ∀ n, D.startBlock ≤ n → n ≤ c.lastProcessedBlock →
      ∀ l, (w.start.after D.system es).world.chain.Mined l n →
        Chain.emittedBy (some address) l = true →
        (w.start.after D.system es).world.db.IndexedOnce token.id l n) ∧
    ∀ r ∈ (w.start.after D.system es).world.db.tokenTransfers.rows, r.tokenId = token.id →
      ∃ l n, (w.start.after D.system es).world.chain.Mined l n ∧
        Chain.emittedBy (some address) l = true ∧ r.Carries l n := by
  have hsound := indexSound_after D hw es
  have hcontract := contract_after D hw es htoken
  rw [haddress] at hcontract
  refine ⟨?_, ?_⟩
  · intro c hc hmoved n hstart hlast l hmined hemitted
    exact indexedOnce_of_sound hsound hunique (distinctContracts_after D w hw es hdistinct) hcontract hc
      hmoved hstart hlast hmined hemitted
  · intro r hr hid
    obtain ⟨l, n, hmined, ⟨address', hcontract', hemits⟩, hcarries⟩ := hsound.observed r hr
    rw [hid, hcontract, Option.some.injEq, Option.some.injEq] at hcontract'
    subst hcontract'
    exact ⟨l, n, hmined, by simpa [Chain.emittedBy] using hemits, hcarries⟩

/-- The transfer that a listener has come across. -/
theorem indexed_exactly_once_catchUp :
    (World.withTransfer.start.after Deployment.defaults.system catchUp).world.db.IndexedOnce
      Token.sample.id .sample 1 := by
  have hmined : ∀ l n, (World.withTransfer.start.after Deployment.defaults.system
      catchUp).world.chain.Mined l n → l = .sample ∧ n = 1 := by
    have hchain : (World.withTransfer.start.after Deployment.defaults.system catchUp).world.chain =
        [⟨0, []⟩, ⟨0, [.sample]⟩] := by
      decide +kernel
    rw [hchain]
    intro l n h
    obtain ⟨b, hb, hl⟩ := h
    match n with
    | 0 =>
      cases hb
      cases hl
    | 1 =>
      cases hb
      exact ⟨List.mem_singleton.mp hl, rfl⟩
    | n + 2 => cases hb
  refine (indexed_exactly_once .defaults .withTransfer (World.onChain_initial (by simp)) catchUp .sample
    "0x5fbdb2315678afecb367f032d93f642f64180aa3" (by decide) rfl ?_ ?_).1
    ⟨"token", 1, some 1000000, none, 0⟩ (by decide +kernel) (by decide) 1 (by decide) (by decide) _
    ⟨⟨0, [.sample]⟩, by decide +kernel, by simp⟩ (by decide)
  · intro s hs t ht _ _ _ _ _
    rw [List.mem_singleton.mp hs, List.mem_singleton.mp ht]
  · intro l n l' n' hl hl' _ _
    obtain ⟨rfl, rfl⟩ := hmined l n hl
    obtain ⟨rfl, rfl⟩ := hmined l' n' hl'
    exact ⟨rfl, rfl⟩

end TransactionSimulator
