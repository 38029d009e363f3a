import Mathlib.Logic.Function.Basic
import TransactionSimulator.World

/-!
# The index of a chain

What the event listeners build, apart from scans and windows: rows for the `Transfer` logs of the
chain, and for each token a cursor that says how far the rows are complete.

* `Index.Covers x tokenId a b`: the logs of the token in the blocks from `a` to before `b` all
  have their rows.
* `Index.Progress`: what can happen to the index at once.  Blocks and rows are only ever added, so
  what is covered stays covered.
* `Index.Sound`: the invariant, kept by every progress: a cursor that has been moved is at a
  block up to which the index is complete.
-/

namespace TransactionSimulator

/-- The row carries the log `l` of the block `n`. -/
structure TokenTransfer.Carries (r : TokenTransfer) (l : TransferLog) (n : Nat) : Prop where
  fromAddress : r.fromAddress = l.fromAddress
  toAddress : r.toAddress = l.toAddress
  amount : r.amount = l.value
  transactionHash : r.transactionHash = l.transactionHash
  logIndex : r.logIndex = l.logIndex
  blockNumber : r.blockNumber = n

/-- The log is one of the block `n`. -/
def Chain.Mined (chain : Chain) (l : TransferLog) (n : Nat) : Prop :=
  ∃ b, chain[n]? = some b ∧ l ∈ b.logs

/-- The chain, the contract of each token, the rows, the cursors, and the window size that each
listener has learned. -/
structure Index where
  chain : Chain
  contract : String → Option (Option String)
  transfers : List TokenTransfer
  cursor : String → Option TokenEventCursor
  learned : String → Option Int

namespace Index

/-- The log has a row. -/
def Recorded (x : Index) (l : TransferLog) : Prop :=
  ∃ r ∈ x.transfers, r.transactionHash = l.transactionHash ∧ r.logIndex = l.logIndex

/-- The contract of the token emitted the log. -/
def Emits (x : Index) (tokenId : String) (l : TransferLog) : Prop :=
  ∃ address, x.contract tokenId = some (some address) ∧
    Js.toLowerCase l.address = Js.toLowerCase address

/-- The row was written for a log of the chain that the contract of its token emitted. -/
def Observed (x : Index) (r : TokenTransfer) : Prop :=
  ∃ l n, x.chain.Mined l n ∧ x.Emits r.tokenId l ∧ r.Carries l n

/-- The blocks before `b` are mined, and from `a` on all logs of the token in them have rows. -/
def Covers (x : Index) (tokenId : String) (a b : Nat) : Prop :=
  b ≤ x.chain.length ∧ ∀ contract, x.contract tokenId = some contract → ∀ n, a ≤ n → n < b →
    ∀ l ∈ x.chain.logsOf contract n, x.Recorded l.1

/-- A cursor as it is created. -/
def Fresh (c : TokenEventCursor) : Prop := c.lastProcessedBlock = 0 ∧ c.lastSuccessfulSync = none

/-- Two cursors at the same place. -/
def SamePlace (c c' : TokenEventCursor) : Prop :=
  c'.lastProcessedBlock = c.lastProcessedBlock ∧ c'.lastSuccessfulSync = c.lastSuccessfulSync

/-- What can happen to the index at once, where tokens are indexed from the block `start`. -/
structure Progress (start : Nat) (x x' : Index) : Prop where
  chain : x.chain <+: x'.chain
  contract : x'.contract = x.contract
  kept : ∀ r ∈ x.transfers, r ∈ x'.transfers
  observed : ∀ r ∈ x'.transfers, r ∈ x.transfers ∨ x'.Observed r
  cursors : ∀ tokenId c', x'.cursor tokenId = some c' →
    (∃ c, x.cursor tokenId = some c ∧ SamePlace c c') ∨ Fresh c' ∨
      x'.Covers tokenId start (c'.lastProcessedBlock + 1)
  learned : ∀ listener range, x'.learned listener = some range →
    x.learned listener = some range ∨ 1 ≤ range

structure Sound (start : Nat) (x : Index) : Prop where
  genesis : x.chain ≠ []
  observed : ∀ r ∈ x.transfers, x.Observed r
  cursors : ∀ tokenId c, x.cursor tokenId = some c →
    Fresh c ∨ x.Covers tokenId start (c.lastProcessedBlock + 1)
  learned : ∀ listener range, x.learned listener = some range → 1 ≤ range

variable {start : Nat} {x x' : Index}

theorem Progress.refl (start : Nat) (x : Index) : Progress start x x where
  chain := List.prefix_rfl
  contract := rfl
  kept _ hr := hr
  observed _ hr := .inl hr
  cursors _ c hc := .inl ⟨c, hc, rfl, rfl⟩
  learned _ _ h := .inl h

theorem Progress.mine (b : Block) : Progress start x { x with chain := x.chain ++ [b] } where
  chain := List.prefix_append _ _
  contract := rfl
  kept _ hr := hr
  observed _ hr := .inl hr
  cursors _ c hc := .inl ⟨c, hc, rfl, rfl⟩
  learned _ _ h := .inl h

/-- A log is recorded. -/
theorem Progress.record {r : TokenTransfer} (hr : x.Observed r) :
    Progress start x { x with transfers := x.transfers ++ [r] } where
  chain := List.prefix_rfl
  contract := rfl
  kept _ hs := List.mem_append_left _ hs
  observed s hs := by
    rcases List.mem_append.mp hs with hs | hs
    · exact .inl hs
    · rw [List.mem_singleton.mp hs]
      exact .inr hr
  cursors _ c hc := .inl ⟨c, hc, rfl, rfl⟩
  learned _ _ h := .inl h

/-- A cursor is written: it stays where it is, is created, or is moved to a block up to which the
index is complete. -/
theorem Progress.putCursor {tokenId : String} {c' : TokenEventCursor}
    (h : (∃ c, x.cursor tokenId = some c ∧ SamePlace c c') ∨ Fresh c' ∨
      x.Covers tokenId start (c'.lastProcessedBlock + 1)) :
    Progress start x { x with cursor := Function.update x.cursor tokenId (some c') } where
  chain := List.prefix_rfl
  contract := rfl
  kept _ hr := hr
  observed _ hr := .inl hr
  cursors id c hc := by
    change Function.update x.cursor tokenId (some c') id = some c at hc
    by_cases hid : id = tokenId
    · subst hid
      rw [Function.update_self, Option.some.injEq] at hc
      subst hc
      exact h
    · rw [Function.update_of_ne hid] at hc
      exact .inl ⟨c, hc, rfl, rfl⟩
  learned _ _ h := .inl h

theorem Progress.learn {learned : String → Option Int}
    (h : ∀ listener range, learned listener = some range →
      x.learned listener = some range ∨ 1 ≤ range) :
    Progress start x { x with learned } where
  chain := List.prefix_rfl
  contract := rfl
  kept _ hr := hr
  observed _ hr := .inl hr
  cursors _ c hc := .inl ⟨c, hc, rfl, rfl⟩
  learned := h

/-! ## What progress keeps -/

theorem Recorded.progress (h : Progress start x x') {l : TransferLog} (hl : x.Recorded l) :
    x'.Recorded l := by
  obtain ⟨r, hr, hkey⟩ := hl
  exact ⟨r, h.kept r hr, hkey⟩

theorem Progress.mined (h : Progress start x x') {l : TransferLog} {n : Nat}
    (hl : x.chain.Mined l n) : x'.chain.Mined l n := by
  obtain ⟨b, hb, hmem⟩ := hl
  obtain ⟨rest, hrest⟩ := h.chain
  refine ⟨b, ?_, hmem⟩
  rw [← hrest, List.getElem?_append_left (List.getElem?_eq_some_iff.mp hb).1]
  exact hb

theorem Emits.progress (h : Progress start x x') {tokenId : String} {l : TransferLog}
    (hl : x.Emits tokenId l) : x'.Emits tokenId l := by
  rw [Emits, h.contract]
  exact hl

theorem Observed.progress (h : Progress start x x') {r : TokenTransfer} (hr : x.Observed r) :
    x'.Observed r := by
  obtain ⟨l, n, hmined, hemits, hcarries⟩ := hr
  exact ⟨l, n, h.mined hmined, hemits.progress h, hcarries⟩

theorem Progress.logsOf (h : Progress start x x') {n : Nat} (hn : n < x.chain.length)
    (address : Option String) : x'.chain.logsOf address n = x.chain.logsOf address n := by
  have hget : x'.chain[n]? = x.chain[n]? := by
    obtain ⟨rest, hrest⟩ := h.chain
    rw [← hrest, List.getElem?_append_left hn]
  rw [Chain.logsOf, hget, Chain.logsOf]

/-- **What is covered stays covered.** -/
theorem Covers.progress (h : Progress start x x') {tokenId : String} {a b : Nat}
    (hc : x.Covers tokenId a b) : x'.Covers tokenId a b := by
  obtain ⟨hmined, hlogs⟩ := hc
  refine ⟨hmined.trans h.chain.length_le, ?_⟩
  intro contract hcontract n ha hb l hl
  rw [h.contract] at hcontract
  rw [h.logsOf (by omega)] at hl
  exact (hlogs contract hcontract n ha hb l hl).progress h

/-- **Every progress keeps the index sound.** -/
theorem Sound.progress (hx : Sound start x) (h : Progress start x x') : Sound start x' where
  genesis := by
    intro hnil
    have hlen := h.chain.length_le
    rw [hnil] at hlen
    exact hx.genesis (List.eq_nil_of_length_eq_zero (by simpa using hlen))
  observed r hr := by
    rcases h.observed r hr with hr | hr
    · exact (hx.observed r hr).progress h
    · exact hr
  cursors tokenId c' hc' := by
    rcases h.cursors tokenId c' hc' with ⟨c, hc, hblock, hsync⟩ | hnew
    · rw [Fresh, hblock, hsync]
      rcases hx.cursors tokenId c hc with hfresh | hcovers
      · exact .inl hfresh
      · exact .inr (hcovers.progress h)
    · exact hnew
  learned listener range hr := by
    rcases h.learned listener range hr with hr | hr
    · exact hx.learned listener range hr
    · exact hr

/-! ## Windows -/

theorem Covers.mono {tokenId : String} {a b b' : Nat} (hb : b' ≤ b) (hc : x.Covers tokenId a b) :
    x.Covers tokenId a b' :=
  ⟨hb.trans hc.1, fun contract hcontract n ha hn => hc.2 contract hcontract n ha (by omega)⟩

theorem Covers.extend {tokenId : String} {a b c : Nat} (hc : x.Covers tokenId a b)
    (hmined : c ≤ x.chain.length)
    (h : ∀ contract, x.contract tokenId = some contract → ∀ n, b ≤ n → n < c →
      ∀ l ∈ x.chain.logsOf contract n, x.Recorded l.1) : x.Covers tokenId a c := by
  refine ⟨hmined, ?_⟩
  intro contract hcontract n ha hn
  by_cases hb : n < b
  · exact hc.2 contract hcontract n ha hb
  · exact h contract hcontract n (by omega) hn

theorem covers_start {tokenId : String} {a : Nat} (h : a ≤ x.chain.length) :
    x.Covers tokenId a a :=
  ⟨h, fun _ _ n ha hn => by omega⟩

end Index

theorem Chain.mem_getLogs {chain : Chain} {address : Option String} {fromBlock toBlock : Int}
    {l : TransferLog × Nat} : l ∈ chain.getLogs address fromBlock toBlock ↔
      ∃ n : Nat, n < chain.length ∧ fromBlock ≤ n ∧ (n : Int) ≤ toBlock ∧
        l ∈ chain.logsOf address n := by
  simp only [Chain.getLogs, List.mem_flatMap, List.mem_filter, List.mem_range, Bool.and_eq_true,
    decide_eq_true_eq, and_assoc]

/-- The logs of a block that pass the filter are logs of the block. -/
theorem Chain.mem_logsOf {chain : Chain} {address : Option String} {n : Nat}
    {l : TransferLog × Nat} :
    l ∈ chain.logsOf address n ↔
      chain.Mined l.1 n ∧ Chain.emittedBy address l.1 = true ∧ l.2 = n := by
  obtain ⟨log, number⟩ := l
  rw [Chain.logsOf, Chain.Mined]
  cases chain[n]? with
  | none => simp
  | some b =>
    simp only [List.mem_map, List.mem_filter, Prod.mk.injEq, Option.some.injEq, exists_eq_left']
    constructor
    · intro h
      obtain ⟨log', ⟨hmem, hemitted⟩, rfl, rfl⟩ := h
      exact ⟨hmem, hemitted, rfl⟩
    · intro h
      obtain ⟨hmem, hemitted, rfl⟩ := h
      exact ⟨log, ⟨hmem, hemitted⟩, rfl, rfl⟩

end TransactionSimulator
