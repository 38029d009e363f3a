import TransactionSimulator.Blockchain.WalletAddress
import TransactionSimulator.Lib.Pool

/-!
# Token registration

`token-identifier.ts`, `TokenRepository` and `TokenService.registerToken`.  A registration looks for the
token and then creates it.  Between the two others may write; what is left then is the unique constraint on
the contract address, which tells letter cases apart and lets any number of rows have none.

* `Unambiguous`: an address of an event names at most one row, and a native asset has at most one.
* `unambiguous_after`: it holds in every run whose writes keep to the normal form and whose native tokens are
  not registered in each other's midst.
-/

namespace TransactionSimulator

open Concurrent Relational

abbrev Tokens := Table Token TokenKey Token.keys

/-! ## Calls -/

structure TokenCreateInput where
  symbol : String
  contractAddress : Option String
  blockchain : Blockchain
  deriving DecidableEq, Repr

inductive TokenOp
  | findFirst (cond : Token → Bool)
  | findUnique (contractAddress : String)
  | create (data : TokenCreateInput)
  | update (id : String) (contractAddress : String)

@[reducible] def TokenOp.Res : TokenOp → Type
  | findFirst _ => Option Token
  | findUnique _ => Option Token
  | create _ => Token
  | update _ _ => Token

/-- A fault of the database, and a fresh `uuid()`. -/
structure TokenInput where
  fault : Option Fault := none
  uuid : String := ""
  deriving DecidableEq, Repr

/-- The row that `create` writes. -/
def newToken (id : String) (data : TokenCreateInput) : Token where
  id := id
  symbol := data.symbol
  contractAddress := data.contractAddress
  blockchain := data.blockchain

def createToken (tokens : Tokens) (id : String) (data : TokenCreateInput) : Except JsError Token × Tokens :=
  match tokens.insert (newToken id data) with
  | some tokens => (.ok (newToken id data), tokens)
  | none => (.error uniqueViolation, tokens)

/-- `token.update` with `where: { id }`. -/
def updateToken (tokens : Tokens) (id contractAddress : String) : Except JsError Token × Tokens :=
  match tokens.get (.id id) with
  | none => (.error recordNotFound, tokens)
  | some token =>
    match tokens.updateMany (fun t => t.id = id) (fun t => { t with contractAddress := some contractAddress }) with
    | some (tokens, _) => (.ok { token with contractAddress := some contractAddress }, tokens)
    | none => (.error uniqueViolation, tokens)

def TokenOp.effect (i : TokenInput) (w : Tokens) : (o : TokenOp) → Except JsError o.Res × Tokens
  | findFirst cond => (.ok (w.rows.find? cond), w)
  | findUnique contractAddress => (.ok (w.get (.contractAddress contractAddress)), w)
  | create data => createToken w i.uuid data
  | update id contractAddress => updateToken w id contractAddress

def TokenOp.exec (o : TokenOp) (i : TokenInput) (w : Tokens) : Except JsError o.Res × Tokens :=
  match i.fault with
  | none => o.effect i w
  | some f => (.error (.error f.message), if f.applied then (o.effect i w).2 else w)

abbrev TokenProgram (α : Type) := Prog TokenOp TokenOp.Res JsError α

/-! ## The repository and the service -/

def isCaseInsensitiveAssetIdentifier (blockchain : Blockchain) : Bool := blockchain = .EVM

def normalizeContractAddress (blockchain : Blockchain) (contractAddress : String) : String :=
  if isCaseInsensitiveAssetIdentifier blockchain then Js.toLowerCase contractAddress else contractAddress

namespace TokenRepository

/-- The data of a registration; the other fields go to the row as they are. -/
def create (symbol : String) (contractAddress : Option String) (blockchain : Blockchain) : TokenProgram Token :=
  Prog.perform (TokenOp.create
    { symbol, blockchain
      contractAddress := if Js.isFalsy contractAddress then none
        else contractAddress.map (normalizeContractAddress blockchain) })

/-- `exists`. -/
def exists_ (contractAddress : Option String) (blockchain : Blockchain) : TokenProgram Bool := do
  if Js.isFalsy contractAddress then
    let token ← Prog.perform (TokenOp.findFirst fun t => t.blockchain = blockchain && t.contractAddress.isNone)
    return token.isSome
  else
    let token ← Prog.perform (TokenOp.findUnique (normalizeContractAddress blockchain (contractAddress.getD "")))
    return token.isSome

def updateContractAddress (id contractAddress : String) : TokenProgram Token :=
  Prog.perform (TokenOp.update id contractAddress)

end TokenRepository

/-- `validateAssetIdentifier` of the adapters. -/
def BlockchainAdapter.validateAssetIdentifier (lib : AddressLibraries) (adapter : BlockchainAdapter)
    (identifier : String) : Bool :=
  match adapter.chain with
  | .EVM => lib.isAddress identifier
  | .BITCOIN => false
  | .SOLANA => false

def invalidAssetIdentifier (chain : Blockchain) (identifier : String) : JsError :=
  .appError 400 "INVALID_ASSET_IDENTIFIER"
    ("'" ++ identifier ++ "' is not a valid asset identifier for " ++ chain.name)
    [("chain", chain.name), ("identifier", identifier)]

namespace TokenService

def registerToken (lib : AddressLibraries) (registry : BlockchainAdapterRegistry) (symbol : String)
    (contractAddress : Option String) (blockchain : Blockchain) : TokenProgram Token := do
  let adapter ← Prog.ofExcept (registry.get blockchain)
  if blockchain = .EVM then
    if Js.isFalsy contractAddress || !(adapter.validateAssetIdentifier lib (contractAddress.getD "")) then
      throw (invalidAssetIdentifier blockchain (contractAddress.getD ""))
  else if contractAddress.isSome then
    throw (invalidAssetIdentifier blockchain (contractAddress.getD ""))
  let registered ← TokenRepository.exists_ contractAddress blockchain
  if registered then throw (.error "Token already registered")
  TokenRepository.create symbol contractAddress blockchain

end TokenService

inductive TokenTask
  | registerToken (symbol : String) (contractAddress : Option String) (blockchain : Blockchain)
  | updateContractAddress (id contractAddress : String)
  deriving DecidableEq, Repr

/-- Registrations and updates, any number of them at once. -/
def tokenSystem (lib : AddressLibraries) (registry : BlockchainAdapterRegistry) :
    System TokenOp TokenOp.Res JsError Tokens TokenInput TokenTask Empty where
  exec := TokenOp.exec
  prog
    | .registerToken symbol contractAddress blockchain =>
      (TokenService.registerToken lib registry symbol contractAddress blockchain).void
    | .updateContractAddress id contractAddress => (TokenRepository.updateContractAddress id contractAddress).void
  shift d _ := d.elim

abbrev TokenEvent := Event TokenTask TokenInput Empty

abbrev TokenMoment := Moment TokenOp TokenInput Tokens

/-! ## What a lookup can answer -/

/-- The condition of `findByContractAddress`: the token has the address, in whatever letter case. -/
def Token.named (contractAddress : String) (token : Token) : Bool :=
  token.contractAddress.any fun a => Js.toLowerCase a = Js.toLowerCase contractAddress

/-- The native asset of the chain. -/
def Token.isNative (blockchain : Blockchain) (token : Token) : Bool :=
  token.blockchain = blockchain && token.contractAddress.isNone

theorem Token.isNative_iff {blockchain : Blockchain} {token : Token} :
    token.isNative blockchain = true ↔ token.blockchain = blockchain ∧ token.contractAddress = none := by
  simp [Token.isNative]

/-- **A lookup has one possible answer**: no two rows have addresses that differ in letter case only, and a
chain other than the EVM one has at most one native token; so an address names at most one row. -/
structure Unambiguous (tokens : Tokens) : Prop where
  addresses : ∀ a ∈ tokens.rows, ∀ b ∈ tokens.rows, ∀ x y, a.contractAddress = some x → b.contractAddress = some y →
    Js.toLowerCase x = Js.toLowerCase y → a = b
  native : ∀ blockchain, blockchain ≠ .EVM → ∀ a ∈ tokens.rows, ∀ b ∈ tokens.rows, a.isNative blockchain = true →
    b.isNative blockchain = true → a = b
  answer : ∀ contractAddress, ∀ a ∈ tokens.rows, ∀ b ∈ tokens.rows, a.named contractAddress = true →
    b.named contractAddress = true → a = b

/-- The addresses are in lower case, and a chain has at most one native token. -/
structure Clean (tokens : Tokens) : Prop where
  lower : ∀ t ∈ tokens.rows, ∀ x, t.contractAddress = some x → Js.toLowerCase x = x
  native : ∀ blockchain, ∀ a ∈ tokens.rows, ∀ b ∈ tokens.rows, a.isNative blockchain = true →
    b.isNative blockchain = true → a = b

section Clean

variable {w : Tokens}

theorem Clean.addresses (h : Clean w) : ∀ a ∈ w.rows, ∀ b ∈ w.rows, ∀ x y, a.contractAddress = some x →
    b.contractAddress = some y → Js.toLowerCase x = Js.toLowerCase y → a = b := by
  intro a ha b hb x y hx hy hsame
  rw [h.lower a ha x hx, h.lower b hb y hy] at hsame
  refine w.eq_of_mem_keys ha hb (k := .contractAddress x) ?_ ?_
  · simp [Token.keys, hx]
  · simp [Token.keys, hy, hsame]

theorem Clean.unambiguous (h : Clean w) : Unambiguous w := by
  refine ⟨h.addresses, fun blockchain _ => h.native blockchain, ?_⟩
  intro contractAddress a ha b hb hnamed hnamed'
  simp only [Token.named, Option.any_eq_true, decide_eq_true_eq] at hnamed hnamed'
  obtain ⟨x, hx, hx'⟩ := hnamed
  obtain ⟨y, hy, hy'⟩ := hnamed'
  exact h.addresses a ha b hb x y hx hy (hx'.trans hy'.symm)

/-- When a write keeps the table clean: an update writes an address in lower case, and a native token is
created where its chain has none. -/
def Regular (m : TokenMoment) : Prop :=
  match m.op with
  | .update _ contractAddress => Js.toLowerCase contractAddress = contractAddress
  | .create data => data.contractAddress = none → ∀ t ∈ m.state.rows, t.isNative data.blockchain = false
  | _ => True

instance (m : TokenMoment) : Decidable (Regular m) :=
  match m with
  | ⟨_, .findFirst _, _⟩ => .isTrue trivial
  | ⟨_, .findUnique _, _⟩ => .isTrue trivial
  | ⟨w, .create data, _⟩ => inferInstanceAs (Decidable
      (data.contractAddress = none → ∀ t ∈ w.rows, t.isNative data.blockchain = false))
  | ⟨_, .update _ contractAddress, _⟩ => inferInstanceAs (Decidable (Js.toLowerCase contractAddress = contractAddress))

/-- The repository creates addresses in lower case. -/
def TokenOp.Normal : TokenOp → Prop
  | .create data => ∀ x, data.contractAddress = some x → Js.toLowerCase x = x
  | _ => True

theorem TokenOp.exec_snd {P : Tokens → Tokens → Prop} {o : TokenOp} {i : TokenInput} (hrefl : P w w)
    (heff : P w (o.effect i w).2) : P w (o.exec i w).2 := by
  rw [TokenOp.exec]
  split
  · exact heff
  · dsimp only
    split
    · exact heff
    · exact hrefl

/-- A creation. -/
theorem Clean.create (h : Clean w) {id : String} {data : TokenCreateInput}
    (hlower : ∀ x, data.contractAddress = some x → Js.toLowerCase x = x)
    (hnative : data.contractAddress = none → ∀ t ∈ w.rows, t.isNative data.blockchain = false) :
    Clean (createToken w id data).2 := by
  rw [createToken]
  split
  · next tokens hinsert =>
    have hrows : ∀ t, t ∈ tokens.rows ↔ t ∈ w.rows ∨ t = newToken id data := by
      intro t
      rw [Table.insert_rows hinsert, List.mem_append, List.mem_singleton]
    -- the new row and a row that was there are not both native to one chain
    have hnew : ∀ blockchain, ∀ t ∈ w.rows, t.isNative blockchain = true →
        ¬ (newToken id data).isNative blockchain = true := by
      intro blockchain t ht htnative hdata
      obtain ⟨rfl, hnone⟩ := Token.isNative_iff.mp hdata
      rw [show (newToken id data).blockchain = data.blockchain from rfl, hnative hnone t ht] at htnative
      cases htnative
    refine ⟨?_, ?_⟩
    · intro t ht x hx
      rcases (hrows t).mp ht with ht | rfl
      · exact h.lower t ht x hx
      · exact hlower x hx
    · intro blockchain a ha b hb hanative hbnative
      rcases (hrows a).mp ha with ha | rfl
      · rcases (hrows b).mp hb with hb | rfl
        · exact h.native blockchain a ha b hb hanative hbnative
        · exact absurd hbnative (hnew blockchain a ha hanative)
      · rcases (hrows b).mp hb with hb | rfl
        · exact absurd hanative (hnew blockchain b hb hbnative)
        · rfl
  · exact h

/-- An update. -/
theorem Clean.update (h : Clean w) {id contractAddress : String} (hlower : Js.toLowerCase contractAddress = contractAddress) :
    Clean (updateToken w id contractAddress).2 := by
  rw [updateToken]
  split
  · exact h
  split
  · next tokens n hupdate =>
    have hrows : ∀ t ∈ tokens.rows, (∃ s ∈ w.rows, t = { s with contractAddress := some contractAddress }) ∨ t ∈ w.rows := by
      intro t ht
      rw [(Table.updateMany_eq_some hupdate).1, Table.mem_written] at ht
      obtain ⟨s, hs, rfl⟩ := ht
      split
      · exact .inl ⟨s, hs, rfl⟩
      · exact .inr hs
    -- a row that is native was not written
    have hnative : ∀ blockchain, ∀ t ∈ tokens.rows, t.isNative blockchain = true → t ∈ w.rows := by
      intro blockchain t ht hnative
      rcases hrows t ht with ⟨s, hs, rfl⟩ | ht
      · simp [Token.isNative] at hnative
      · exact ht
    refine ⟨?_, ?_⟩
    · intro t ht x hx
      rcases hrows t ht with ⟨s, hs, rfl⟩ | ht
      · rw [← Option.some.inj hx]
        exact hlower
      · exact h.lower t ht x hx
    · intro blockchain a ha b hb hanative hbnative
      exact h.native blockchain a (hnative blockchain a ha hanative) b (hnative blockchain b hb hbnative) hanative hbnative
  · exact h

/-- **One call.** -/
theorem Clean.exec (h : Clean w) {o : TokenOp} {i : TokenInput} (hnormal : o.Normal) (hregular : Regular ⟨w, o, i⟩) :
    Clean (o.exec i w).2 := by
  refine TokenOp.exec_snd (P := fun _ w' => Clean w') h ?_
  cases o with
  | findFirst cond => exact h
  | findUnique contractAddress => exact h
  | create data => exact h.create hnormal hregular
  | update id contractAddress => exact h.update hregular

end Clean

/-! ## Every run -/

section Runs

open Prog (All)

variable {lib : AddressLibraries} {registry : BlockchainAdapterRegistry}

/-- A registration creates normal addresses only. -/
theorem normal_create {symbol : String} {contractAddress : Option String} {blockchain : Blockchain}
    (h : blockchain ≠ .EVM → contractAddress = none) :
    All TokenOp.Normal (TokenRepository.create symbol contractAddress blockchain) := by
  refine Prog.all_perform ?_
  intro x hx
  dsimp only at hx
  split at hx
  · cases hx
  · obtain ⟨address, haddress, rfl⟩ := Option.map_eq_some_iff.mp hx
    have hevm : blockchain = .EVM := by
      by_contra hother
      rw [h hother] at haddress
      cases haddress
    rw [hevm]
    exact Js.toLowerCase_toLowerCase address

theorem normal_exists (contractAddress : Option String) (blockchain : Blockchain) :
    All TokenOp.Normal (TokenRepository.exists_ contractAddress blockchain) := by
  rw [TokenRepository.exists_]
  split
  · exact All.perform_bind trivial fun _ => trivial
  · exact All.perform_bind trivial fun _ => trivial

theorem normal_prog (t : TokenTask) : All TokenOp.Normal ((tokenSystem lib registry).prog t) := by
  cases t with
  | updateContractAddress id contractAddress => exact All.perform_bind trivial fun _ => trivial
  | registerToken symbol contractAddress blockchain =>
    refine All.bind ?_ fun _ => trivial
    refine All.bind ?_ fun adapter => ?_
    · cases registry.get blockchain <;> exact trivial
    have hrest : (blockchain ≠ .EVM → contractAddress = none) → All TokenOp.Normal (do
        let registered ← TokenRepository.exists_ contractAddress blockchain
        if registered then throw (.error "Token already registered")
        TokenRepository.create symbol contractAddress blockchain : TokenProgram Token) := by
      intro h
      refine All.bind (normal_exists contractAddress blockchain) fun registered => ?_
      cases registered with
      | true => exact trivial
      | false => exact normal_create h
    split
    · next hevm =>
      split
      · exact trivial
      · exact hrest fun hother => absurd hevm hother
    · split
      · exact trivial
      · next hnone => exact hrest fun _ => by simpa using hnone

/-- **A whole run.** -/
theorem Clean.after {w : Tokens} (h : Clean w) {es : List TokenEvent}
    (hes : ∀ m ∈ (⟨w, []⟩ : Config _ _ _ _).moments (tokenSystem lib registry) es, Regular m) :
    Clean ((⟨w, []⟩ : Config _ _ _ _).after (tokenSystem lib registry) es).world := by
  induction es using List.reverseRecOn with
  | nil => exact h
  | append_singleton es e ih =>
    rw [Config.moments_append] at hes
    have hbefore := ih fun m hm => hes m (List.mem_append_left _ hm)
    rw [Config.after_append, Config.after_cons, Config.after_nil]
    cases hmoment : ((⟨w, []⟩ : Config _ _ _ _).after (tokenSystem lib registry) es).moment e with
    | none =>
      rcases Config.apply_of_moment_none (S := tokenSystem lib registry) hmoment with hsame | ⟨d, -⟩
      · rw [hsame]
        exact hbefore
      · exact d.elim
    | some m =>
      obtain ⟨hstate, hleft⟩ := Config.apply_of_moment (S := tokenSystem lib registry) hmoment
      have hregular : Regular m := by
        refine hes m (List.mem_append_right _ ?_)
        simp [Config.moments, hmoment]
      have hnormal : m.op.Normal := all_moments normal_prog w hmoment
      rw [hleft]
      rw [← hstate] at hbefore
      exact hbefore.exec hnormal hregular

/-- **When a lookup has one possible answer.**  In every run of registrations and updates, in whatever order
their calls, faults and crashes come, in which each update writes an address in lower case and no native
token is created while its chain has one. -/
theorem unambiguous_after (lib : AddressLibraries) (registry : BlockchainAdapterRegistry) {w : Tokens} (hw : Clean w)
    (es : List TokenEvent)
    (hes : ∀ m ∈ (⟨w, []⟩ : Config _ _ _ _).moments (tokenSystem lib registry) es, Regular m) :
    Unambiguous ((⟨w, []⟩ : Config _ _ _ _).after (tokenSystem lib registry) es).world :=
  (hw.after hes).unambiguous

end Runs

theorem clean_empty : Clean .empty :=
  ⟨fun _ h => (by cases h), fun _ _ h => (by cases h)⟩

/-- Addresses in lower case only, which need no checksum. -/
def plainLibraries : AddressLibraries where
  isAddress s := s.length = 42 && s.toList.take 2 = ['0', 'x'] &&
    (s.toList.drop 2).all fun c => "0123456789abcdef".toList.contains c
  isOnCurve _ := false

/-- The tokens that a run from an empty table leaves. -/
def tokensAfter (es : List TokenEvent) : List Token :=
  ((⟨.empty, []⟩ : Config _ _ _ _).after (tokenSystem plainLibraries blockchainAdapterRegistry) es).world.rows

def contract : String := "0xaaaaaaaaaaaaaaaaaaaaaaaaaaaaaaaaaaaaaaaa"

/-- A token of each kind is registered; a second native one is refused. -/
def registered : List TokenEvent :=
  [.spawn (.registerToken "USDC" (some contract) .EVM), .step 0 {}, .step 0 { uuid := "a" },
    .spawn (.registerToken "BTC" none .BITCOIN), .step 1 {}, .step 1 { uuid := "b" },
    .spawn (.registerToken "BTC" none .BITCOIN), .step 2 {}]

theorem unambiguous_after_registered : Clean .empty ∧
    tokensAfter registered = [⟨"a", "USDC", some contract, .EVM⟩, ⟨"b", "BTC", none, .BITCOIN⟩] ∧
    Unambiguous ((⟨.empty, []⟩ : Config _ _ _ _).after (tokenSystem plainLibraries blockchainAdapterRegistry)
      registered).world := by
  refine ⟨clean_empty, by decide +kernel, unambiguous_after _ _ clean_empty registered ?_⟩
  decide +kernel

/-- Two registrations of one native token look for it before either creates it. -/
def registeredAtOnce : List TokenEvent :=
  [.spawn (.registerToken "BTC" none .BITCOIN), .spawn (.registerToken "BTC" none .BITCOIN), .step 0 {}, .step 1 {},
    .step 0 { uuid := "a" }, .step 1 { uuid := "b" }]

/-- A token gets the address of another one in capital letters. -/
def misspelt : List TokenEvent :=
  [.spawn (.registerToken "USDC" (some contract) .EVM), .step 0 {}, .step 0 { uuid := "a" },
    .spawn (.registerToken "EURC" (some "0xbbbbbbbbbbbbbbbbbbbbbbbbbbbbbbbbbbbbbbbb") .EVM), .step 1 {},
    .step 1 { uuid := "b" },
    .spawn (.updateContractAddress "b" "0xAAAAAAAAAAAAAAAAAAAAAAAAAAAAAAAAAAAAAAAA"), .step 2 {}]

/-- **Two rows for one native asset, and two for one contract.** -/
theorem tokens_ambiguous :
    ¬ Unambiguous ((⟨.empty, []⟩ : Config _ _ _ _).after (tokenSystem plainLibraries blockchainAdapterRegistry)
      registeredAtOnce).world ∧
    ¬ Unambiguous ((⟨.empty, []⟩ : Config _ _ _ _).after (tokenSystem plainLibraries blockchainAdapterRegistry)
      misspelt).world := by
  have hnative : tokensAfter registeredAtOnce = [⟨"a", "BTC", none, .BITCOIN⟩, ⟨"b", "BTC", none, .BITCOIN⟩] := by
    decide +kernel
  have haddress : tokensAfter misspelt = [⟨"a", "USDC", some contract, .EVM⟩,
      ⟨"b", "EURC", some "0xAAAAAAAAAAAAAAAAAAAAAAAAAAAAAAAAAAAAAAAA", .EVM⟩] := by decide +kernel
  rw [tokensAfter] at hnative haddress
  constructor
  · intro h
    have hsame := h.native .BITCOIN (by decide) ⟨"a", "BTC", none, .BITCOIN⟩ (by rw [hnative]; simp)
      ⟨"b", "BTC", none, .BITCOIN⟩ (by rw [hnative]; simp) (by decide) (by decide)
    exact absurd hsame (by decide)
  · intro h
    have hsame := h.addresses ⟨"a", "USDC", some contract, .EVM⟩ (by rw [haddress]; simp)
      ⟨"b", "EURC", some "0xAAAAAAAAAAAAAAAAAAAAAAAAAAAAAAAAAAAAAAAA", .EVM⟩ (by rw [haddress]; simp) _ _ rfl rfl
      (by decide +kernel)
    exact absurd hsame (by decide)

end TransactionSimulator
