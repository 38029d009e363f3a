import TransactionSimulator.Recovery.Evidence

/-!
# Addresses of wallets

A wallet is stored under the normal form of its address.  Two spellings have one normal form exactly if
they are one address by the rule of the chain, so that the unique column keeps every address of a
chain to one wallet, and a wallet is found under every spelling of its address.

* `same_iff_normalize`: the rule of the chain and the normal form.
* `wallets_after`: what a run leaves of the wallets.
* `wallet_addresses`: the lookup and the registration, in every reachable state.
-/

namespace TransactionSimulator

open Concurrent Prog Relational

/-! ## Spellings -/

/-- One address of a chain, in two spellings: case does not count on the EVM chain and in bech32, and
counts elsewhere. -/
def sameAddressOn : Option Blockchain → String → String → Prop
  | some .EVM, a, b => Js.toLowerCase a = Js.toLowerCase b
  | some .BITCOIN, a, b =>
    a = b ∨ (hasBech32Start a = true ∧ hasBech32Start b = true ∧ Js.toLowerCase a = Js.toLowerCase b)
  | _, a, b => a = b

/-- The rule of the chain that has the id. -/
def SameAddress (env : ProcessEnv) (chainId : Nat) (a b : String) : Prop :=
  ∃ chain, blockchainForChainId env chainId = .ok chain ∧ sameAddressOn chain a b

section Spellings

variable {env : ProcessEnv} {chainId : Nat} {a b : String}

theorem hasBech32Start_eq (a : String) :
    hasBech32Start a = decide (((Js.toLowerCase a).toList.take 5) = "bcrt1".toList) := by
  simp [hasBech32Start, Js.toLowerCase, List.map_take]

theorem hasBech32Start_congr (h : Js.toLowerCase a = Js.toLowerCase b) :
    hasBech32Start a = hasBech32Start b := by
  rw [hasBech32Start_eq, hasBech32Start_eq, h]

theorem hasBech32Start_lower (a : String) : hasBech32Start (Js.toLowerCase a) = hasBech32Start a :=
  hasBech32Start_congr (Js.toLowerCase_toLowerCase a)

/-- Whether the case of an address is ignored, on the EVM chain or another. -/
def foldsCase (evm : Bool) (chainId : Nat) (a : String) : Bool :=
  evm || (decide (chainId = BITCOIN_REGTEST_CHAIN_ID) && hasBech32Start a)

theorem foldsCase_congr {evm : Bool} (h : Js.toLowerCase a = Js.toLowerCase b) :
    foldsCase evm chainId a = foldsCase evm chainId b := by
  rw [foldsCase, foldsCase, hasBech32Start_congr h]

theorem isCaseInsensitive_of_evm {evm : Bool} (h : isEvmChainId env chainId = .ok evm) (a : String) :
    isCaseInsensitiveWalletAddress env chainId a = .ok (foldsCase evm chainId a) := by
  rw [isCaseInsensitiveWalletAddress, h, foldsCase]
  cases evm with
  | true => rfl
  | false =>
    show (if chainId = BITCOIN_REGTEST_CHAIN_ID then _ else _) = _
    by_cases hbitcoin : chainId = BITCOIN_REGTEST_CHAIN_ID
    · rw [if_pos hbitcoin, decide_eq_true hbitcoin]
      rfl
    · rw [if_neg hbitcoin, decide_eq_false hbitcoin]
      rfl

theorem normalize_of_evm {evm : Bool} (h : isEvmChainId env chainId = .ok evm) (a : String) :
    normalizeWalletAddress env chainId a =
      .ok (if foldsCase evm chainId a then Js.toLowerCase a else a) := by
  rw [normalizeWalletAddress, isCaseInsensitive_of_evm h]
  cases foldsCase evm chainId a <;> rfl

theorem evm_of_normalize {n : String} (h : normalizeWalletAddress env chainId a = .ok n) :
    ∃ evm, isEvmChainId env chainId = .ok evm := by
  cases hevm : isEvmChainId env chainId with
  | ok evm => exact ⟨evm, rfl⟩
  | error e =>
    rw [normalizeWalletAddress, isCaseInsensitiveWalletAddress, hevm] at h
    cases h

theorem blockchainForChainId_of_evm {evm : Bool} (h : isEvmChainId env chainId = .ok evm) :
    blockchainForChainId env chainId = .ok (if evm then some .EVM
      else if chainId = BITCOIN_REGTEST_CHAIN_ID then some .BITCOIN
      else if chainId = SOLANA_LOCALNET_CHAIN_ID then some .SOLANA else none) := by
  rw [blockchainForChainId, h]
  cases evm with
  | true => rfl
  | false =>
    show (if chainId = BITCOIN_REGTEST_CHAIN_ID then _ else _) = _
    split
    · rfl
    · split <;> rfl

/-- The rule of the chain, by the case that it ignores. -/
theorem same_of_evm {evm : Bool} (h : isEvmChainId env chainId = .ok evm) :
    SameAddress env chainId a b ↔
      a = b ∨ (foldsCase evm chainId a = true ∧ foldsCase evm chainId b = true ∧
        Js.toLowerCase a = Js.toLowerCase b) := by
  simp only [SameAddress, blockchainForChainId_of_evm h, Except.ok.injEq, exists_eq_left', foldsCase]
  cases evm with
  | true =>
    simp only [Bool.true_or, true_and]
    exact ⟨.inr, fun h => h.elim (congrArg _) id⟩
  | false =>
    by_cases hbitcoin : chainId = BITCOIN_REGTEST_CHAIN_ID
    · simp [hbitcoin, sameAddressOn]
    · by_cases hsolana : chainId = SOLANA_LOCALNET_CHAIN_ID
      · have hne : SOLANA_LOCALNET_CHAIN_ID ≠ BITCOIN_REGTEST_CHAIN_ID := by decide
        simp [hsolana, hne, sameAddressOn]
      · simp [hbitcoin, hsolana, sameAddressOn]

/-- **Two spellings are one address exactly if they have one normal form.** -/
theorem same_iff_normalize {n : String} (h : normalizeWalletAddress env chainId a = .ok n) :
    SameAddress env chainId a b ↔ normalizeWalletAddress env chainId b = .ok n := by
  obtain ⟨evm, hevm⟩ := evm_of_normalize h
  rw [normalize_of_evm hevm, Except.ok.injEq] at h
  rw [same_of_evm hevm, normalize_of_evm hevm, Except.ok.injEq, ← h]
  constructor
  · rintro (rfl | ⟨ha, hb, hlower⟩)
    · rfl
    · rw [if_pos ha, if_pos hb, hlower]
  · intro heq
    by_cases ha : foldsCase evm chainId a = true
    · by_cases hb : foldsCase evm chainId b = true
      · rw [if_pos ha, if_pos hb] at heq
        exact .inr ⟨ha, hb, heq.symm⟩
      · -- a text in lower case that folds: so does the other
        rw [if_pos ha, if_neg hb] at heq
        rw [heq, foldsCase_congr (Js.toLowerCase_toLowerCase a)] at hb
        exact absurd ha hb
    · by_cases hb : foldsCase evm chainId b = true
      · rw [if_neg ha, if_pos hb] at heq
        rw [← heq, foldsCase_congr (Js.toLowerCase_toLowerCase b)] at ha
        exact absurd hb ha
      · rw [if_neg ha, if_neg hb] at heq
        exact .inl heq.symm

theorem normalize_normalize {n : String} (h : normalizeWalletAddress env chainId a = .ok n) :
    normalizeWalletAddress env chainId n = .ok n := by
  obtain ⟨evm, hevm⟩ := evm_of_normalize h
  rw [normalize_of_evm hevm, Except.ok.injEq] at h
  rw [normalize_of_evm hevm, ← h]
  split
  · rw [foldsCase_congr (Js.toLowerCase_toLowerCase a), Js.toLowerCase_toLowerCase, ite_self]
  · rfl

/-- The two encodings of a Bitcoin address do not start alike. -/
theorem not_bech32_of_base58 (h : hasBech32Start a = true) :
    ["m", "n", "2"].contains (String.ofList (a.toList.take 1)) = false := by
  simp only [hasBech32Start, decide_eq_true_eq] at h
  cases hchars : a.toList with
  | nil =>
    rw [hchars] at h
    simp at h
  | cons c cs =>
    rw [hchars] at h
    have hc : c.toLower = 'b' := by
      have hhead := congrArg List.head? h
      simpa using hhead
    have hne : ∀ d : Char, d.toLower ≠ 'b' → String.ofList [c] ≠ String.ofList [d] := by
      intro d hd heq
      rw [String.ofList_inj, List.cons.injEq] at heq
      exact hd (heq.1 ▸ hc)
    have hm : String.ofList [c] ≠ "m" := hne 'm' (by decide)
    have hn : String.ofList [c] ≠ "n" := hne 'n' (by decide)
    have h2 : String.ofList [c] ≠ "2" := hne '2' (by decide)
    rw [List.take_succ_cons, List.take_zero, List.contains_eq_mem, decide_eq_false_iff_not]
    simp only [List.mem_cons, List.not_mem_nil, or_false, not_or]
    exact ⟨hm, hn, h2⟩

theorem isBitcoinRegtestAddress_lower (h : isBitcoinRegtestAddress a = true)
    (hstart : hasBech32Start a = true) : isBitcoinRegtestAddress (Js.toLowerCase a) = true := by
  have hbase58 := not_bech32_of_base58 hstart
  simp only [isBitcoinRegtestAddress, hbase58, Bool.false_and, Bool.or_false] at h
  have hchars : (Js.toLowerCase a).toList.drop 5 = (a.toList.drop 5).map Char.toLower := by
    simp [Js.toLowerCase]
  simp only [isBitcoinRegtestAddress, Bool.or_eq_true]
  left
  rw [hasBech32Start_lower, hchars, List.length_map, List.all_map]
  simp only [Function.comp_def, Js.toLower_toLower]
  exact h

/-- **The normal form of a valid address is valid.** -/
theorem valid_normalize {lib : AddressLibraries}
    (hlib : ∀ a, lib.isAddress a = true → lib.isAddress (Js.toLowerCase a) = true) {n : String}
    (h : normalizeWalletAddress env chainId a = .ok n)
    (hvalid : isValidWalletAddress env lib chainId a = .ok true) :
    isValidWalletAddress env lib chainId n = .ok true := by
  obtain ⟨evm, hevm⟩ := evm_of_normalize h
  rw [normalize_of_evm hevm, Except.ok.injEq] at h
  split at h
  · next hfold =>
    subst h
    rw [isValidWalletAddress, hevm] at hvalid ⊢
    cases evm with
    | true => exact congrArg Except.ok (hlib a (Except.ok.inj hvalid))
    | false =>
      obtain ⟨hbitcoin, hstart⟩ : chainId = BITCOIN_REGTEST_CHAIN_ID ∧ hasBech32Start a = true := by
        simpa [foldsCase] using hfold
      subst hbitcoin
      exact congrArg Except.ok (isBitcoinRegtestAddress_lower (Except.ok.inj hvalid) hstart)
  · rw [← h]
    exact hvalid

end Spellings

/-! ## The table of wallets -/

/-- The wallet may have been registered under the spelling: it is stored as its normal form. -/
def Wallet.RegisteredAs (env : ProcessEnv) (x : Wallet) (raw : String) : Prop :=
  normalizeWalletAddress env x.chainId raw = .ok x.address

section Rows

variable {env : ProcessEnv} {db : Db} {x y : Wallet} {chainId : Nat} {a raw : String}

/-- **A chain has an address once**, if the wallets are stored under normal forms. -/
theorem eq_of_same (hdb : ∀ x ∈ db.wallets.rows, x.Normalized env) (hx : x ∈ db.wallets.rows)
    (hy : y ∈ db.wallets.rows) (hchain : x.chainId = y.chainId)
    (hsame : SameAddress env x.chainId x.address y.address) : x = y := by
  obtain ⟨rawx, hrawx⟩ := hdb x hx
  obtain ⟨rawy, hrawy⟩ := hdb y hy
  have hnx := normalize_normalize hrawx
  have hny := normalize_normalize hrawy
  rw [← hchain, (same_iff_normalize hnx).mp hsame, Except.ok.injEq] at hny
  exact db.wallets.eq_of_mem_keys hx hy (k := .address x.address) (by simp [Wallet.keys])
    (by simp [Wallet.keys, hny])

/-- What `findByAddress` looks for. -/
def matchesAddress (ignoring : Bool) (address : String) (x : Wallet) : Bool :=
  if ignoring then Js.toLowerCase x.address = Js.toLowerCase address else x.address = address

theorem matchesAddress_eq_true {ignoring : Bool} {address : String} {x : Wallet} :
    matchesAddress ignoring address x = true ↔
      if ignoring then Js.toLowerCase x.address = Js.toLowerCase address else x.address = address := by
  cases ignoring <;> simp [matchesAddress]

/-- What the lookup finds is the address that was asked for. -/
theorem same_of_matches {ignoring : Bool}
    (hcase : isCaseInsensitiveWalletAddress env chainId a = .ok ignoring)
    (h : matchesAddress ignoring a x = true) : SameAddress env chainId x.address a := by
  cases hevm : isEvmChainId env chainId with
  | error e =>
    rw [isCaseInsensitiveWalletAddress, hevm] at hcase
    cases hcase
  | ok evm =>
    rw [isCaseInsensitive_of_evm hevm, Except.ok.injEq] at hcase
    rw [matchesAddress_eq_true] at h
    rw [same_of_evm hevm]
    split at h
    · next hfold =>
      rw [hfold] at hcase
      exact .inr ⟨(foldsCase_congr h).trans hcase, hcase, h⟩
    · exact .inl h

/-- **A wallet is found under every spelling of its address.** -/
theorem matches_of_same (hreg : x.RegisteredAs env raw) (hsame : SameAddress env x.chainId raw a) :
    ∃ ignoring, isCaseInsensitiveWalletAddress env x.chainId a = .ok ignoring ∧
      matchesAddress ignoring a x = true := by
  obtain ⟨evm, hevm⟩ := evm_of_normalize hreg
  have hn := (same_iff_normalize hreg).mp hsame
  rw [normalize_of_evm hevm, Except.ok.injEq] at hn
  refine ⟨_, isCaseInsensitive_of_evm hevm a, ?_⟩
  rw [matchesAddress_eq_true]
  split
  · next hfold => rw [← hn, if_pos hfold, Js.toLowerCase_toLowerCase]
  · next hfold => rw [← hn, if_neg hfold]

/-- **Where case counts, nothing else of the chain is found.** -/
theorem registered_exactly (hcase : isCaseInsensitiveWalletAddress env x.chainId a = .ok false)
    (h : matchesAddress false a x = true) (hreg : x.RegisteredAs env raw) : raw = a := by
  obtain ⟨evm, hevm⟩ := evm_of_normalize hreg
  rw [isCaseInsensitive_of_evm hevm, Except.ok.injEq] at hcase
  rw [matchesAddress_eq_true] at h
  have hn := hreg
  rw [Wallet.RegisteredAs, normalize_of_evm hevm, Except.ok.injEq] at hn
  split at hn
  · next hfold =>
    -- the normal form would fold too
    rw [← foldsCase_congr (Js.toLowerCase_toLowerCase raw), hn, h] at hfold
    rw [hfold] at hcase
    cases hcase
  · exact hn.trans h

end Rows

/-! ## The services -/

section Services

variable {env : ProcessEnv} {x : Wallet} {a raw : String}

theorem findByAddress_eq {chainId : Nat} {ignoring : Bool}
    (hcase : isCaseInsensitiveWalletAddress env chainId a = .ok ignoring) :
    WalletRepository.findByAddress env chainId a =
      prisma.stmt (.walletFindFirst (matchesAddress ignoring a)) := by
  rw [WalletRepository.findByAddress, hcase]
  cases ignoring <;> rfl

theorem findByAddress_run {chainId : Nat} {ignoring : Bool}
    (hcase : isCaseInsensitiveWalletAddress env chainId a = .ok ignoring) (inp : Nat → Input)
    (w : World) :
    (WalletRepository.findByAddress env chainId a).run exec inp w =
      exec (.stmt (.walletFindFirst (matchesAddress ignoring a))) (inp 0) w := by
  rw [findByAddress_eq hcase]
  exact run_perform

/-- A call that creates a wallet. -/
def CreatesWallet (o : Call) : Prop := ∃ data, o = .stmt (.walletCreate data)

/-- **A registered address is refused** under every spelling, whatever the others do that leaves the
wallet there. -/
theorem wp_createWallet_refused {R : World → World → Prop}
    (hR : ∀ w w', R w w' → x ∈ w.db.wallets.rows → x ∈ w'.db.wallets.rows)
    (hreg : x.RegisteredAs env raw) (hsame : SameAddress env x.chainId raw a)
    (lib : AddressLibraries) (data : WalletRequest) (hchain : data.chainId = x.chainId) {w : World}
    (hx : x ∈ w.db.wallets.rows) :
    wp exec R (fun _ _ => True) (WalletService.createWallet env lib data a)
      (fun tr r _ => (∃ e, r = .error e) ∧ ∀ m ∈ tr, ¬ CreatesWallet m.op) w := by
  obtain ⟨ignoring, hcase, hmatch⟩ := matches_of_same hreg hsame
  rw [← hchain] at hcase
  have hkept : ∀ {w₁ : World}, Relation.ReflTransGen R w w₁ → x ∈ w₁.db.wallets.rows := by
    intro w₁ hw₁
    induction hw₁ with
    | refl => exact hx
    | tail _ hstep ih => exact hR _ _ hstep ih
  rw [WalletService.createWallet]
  cases hvalid : isValidWalletAddress env lib data.chainId a with
  | error e => exact ⟨⟨e, rfl⟩, List.forall_mem_nil _⟩
  | ok valid =>
    cases valid with
    | false => exact ⟨⟨_, rfl⟩, List.forall_mem_nil _⟩
    | true =>
      show wp exec R _ (Prog.bind (WalletRepository.findByAddress env data.chainId a) _) _ w
      rw [findByAddress_eq hcase]
      refine wp_bind.mpr (wp_perform.mpr ?_)
      intro w₁ hw₁ i
      refine ⟨trivial, ?_⟩
      have hlookup : ¬ CreatesWallet (Call.stmt (.walletFindFirst (matchesAddress ignoring a))) := by
        rintro ⟨_, h⟩
        cases h
      split
      · next found hok =>
        rw [exec_ok hok] at hok
        have hfound : w₁.db.wallets.rows.find? (matchesAddress ignoring a) = found := Except.ok.inj hok
        cases found with
        | none => exact absurd hmatch (List.find?_eq_none.mp hfound x (hkept hw₁))
        | some y => exact ⟨⟨_, rfl⟩, List.forall_mem_singleton.mpr hlookup⟩
      · next e _ => exact ⟨⟨e, rfl⟩, List.forall_mem_singleton.mpr hlookup⟩

end Services

/-! ## Runs -/

/-- Wallets are only added, under normal forms. -/
structure Enrolling (env : ProcessEnv) (w w' : World) : Prop where
  kept : w.db.wallets.rows <+: w'.db.wallets.rows
  normalized : Registering env w w'

theorem enrolling_of_eq {env : ProcessEnv} {w w' : World} (h : w'.db.wallets = w.db.wallets) :
    Enrolling env w w' :=
  ⟨by rw [h], registering_of_eq h⟩

theorem enrolling_of_permitted {env : ProcessEnv} {A : List Right} {o : Call}
    (h : Permitted env A o) (i : Input) (w : World) : Enrolling env w (exec o i w).2 := by
  refine ⟨?_, registering_of_permitted h i w⟩
  refine exec_snd (P := fun w w' => w.db.wallets.rows <+: w'.db.wallets.rows) List.prefix_rfl ?_
  cases o with
  | stmt s =>
    by_cases hs : ∀ data, s ≠ .walletCreate data
    · have hsame := Stmt.exec_wallets hs ⟨w.clock, i.uuid⟩ w.db
      simp only [Call.effect, hsame]
      exact List.prefix_rfl
    · push Not at hs
      obtain ⟨data, rfl⟩ := hs
      exact Db.createWallet_prefix _ _ _
  | transaction body =>
    obtain ⟨_, tx, result, rfl⟩ := h
    have hp := persistBody_spec tx result ⟨w.clock, i.uuid⟩ w.db
    simp only [Call.effect]
    generalize ConfirmationProcessor.persistBody tx result ⟨w.clock, i.uuid⟩ w.db = r at hp
    cases hp <;> exact List.prefix_rfl
  | queueTake =>
    simp only [Call.effect]
    split
    · split <;> exact List.prefix_rfl
    · exact List.prefix_rfl
  | getTransaction | submitTransfer | generateWallet | balanceOf | nativeBalance | processingAdd =>
    simp only [Call.effect]
    split <;> exact List.prefix_rfl
  | _ => exact List.prefix_rfl

/-- All wallets are stored under normal forms. -/
def World.Enrolled (env : ProcessEnv) (w : World) : Prop :=
  ∀ x ∈ w.db.wallets.rows, x.Normalized env

theorem respects_enrolling (D : Deployment) :
    Respects D.system (Enrolling D.processEnv) (Enrolling D.processEnv)
      (World.Enrolled D.processEnv) fun _ => True where
  refl w := enrolling_of_eq rfl
  sub w w' h := h
  keeps w w' hw h := fun x hx => (h.normalized x hx).elim (hw x) id
  task t _ w _ := (permitted_prog D t).safe (fun _ ho i w => enrolling_of_permitted ho i w) w
  shift d _ w _ := by
    cases d <;> exact enrolling_of_eq rfl

/-- **All wallets of a run are stored under normal forms.** -/
theorem wallets_after (D : Deployment) {w : World} (hw : w.Enrolled D.processEnv)
    (es : List SystemEvent) :
    Healthy D.system (Enrolling D.processEnv) (Enrolling D.processEnv)
      (World.Enrolled D.processEnv) (w.start.after D.system es) :=
  ((Healthy.init hw : Healthy D.system _ _ _ w.start).after (respects_enrolling D)
    fun _ _ => trivial).2

/-- **Addresses and their spellings**, in every reachable state.  A chain has an address once.  A valid
address has a normal form, which is valid and its own normal form.  A wallet is found under every
spelling of the address it was registered for, and a registration under any of them is refused.  Where
case counts, no wallet of the chain that was registered for another spelling is found. -/
theorem wallet_addresses (D : Deployment)
    (hlib : ∀ a, D.libraries.isAddress a = true →
      D.libraries.isAddress (Js.toLowerCase a) = true)
    (w : World) (hw : w.Enrolled D.processEnv) (es : List SystemEvent) :
    (∀ x ∈ (w.start.after D.system es).world.db.wallets.rows,
      ∀ y ∈ (w.start.after D.system es).world.db.wallets.rows, x.chainId = y.chainId →
        SameAddress D.processEnv x.chainId x.address y.address → x = y) ∧
    (∀ chainId a, isValidWalletAddress D.processEnv D.libraries chainId a = .ok true →
      ∃ n, normalizeWalletAddress D.processEnv chainId a = .ok n ∧
        normalizeWalletAddress D.processEnv chainId n = .ok n ∧
        isValidWalletAddress D.processEnv D.libraries chainId n = .ok true) ∧
    (∀ x ∈ (w.start.after D.system es).world.db.wallets.rows, ∀ raw a,
      x.RegisteredAs D.processEnv raw → SameAddress D.processEnv x.chainId raw a →
      (∀ inp : Nat → Input, (inp 0).fault = none → ∃ y,
        ((WalletRepository.findByAddress D.processEnv x.chainId a).run exec inp
          (w.start.after D.system es).world).1 = .ok (some y) ∧
        SameAddress D.processEnv x.chainId y.address a) ∧
      (∀ data inp, data.chainId = x.chainId →
        (∃ e, ((WalletService.createWallet D.processEnv D.libraries data a).run
          (interleave D.system) inp (w.start.after D.system es)).1 = .error e) ∧
        ∀ m ∈ ownTrace D.system (WalletService.createWallet D.processEnv D.libraries data a) inp
          (w.start.after D.system es), ¬ CreatesWallet m.op)) ∧
    (∀ chainId a, isCaseInsensitiveWalletAddress D.processEnv chainId a = .ok false →
      ∀ (inp : Nat → Input) (y : Wallet),
        ((WalletRepository.findByAddress D.processEnv chainId a).run exec inp
          (w.start.after D.system es).world).1 = .ok (some y) → y.chainId = chainId →
        ∀ raw, y.RegisteredAs D.processEnv raw → raw = a) := by
  have hhealthy := wallets_after D hw es
  generalize w.start.after D.system es = c at hhealthy
  refine ⟨fun x hx y hy => eq_of_same hhealthy.inv hx hy, ?_, ?_, ?_⟩
  · intro chainId a hvalid
    cases hevm : isEvmChainId D.processEnv chainId with
    | error e =>
      rw [isValidWalletAddress, hevm] at hvalid
      cases hvalid
    | ok evm =>
      have hn := normalize_of_evm hevm a
      exact ⟨_, hn, normalize_normalize hn, valid_normalize hlib hn hvalid⟩
  · intro x hx raw a hreg hsame
    constructor
    · intro inp hinp
      obtain ⟨ignoring, hcase, hmatch⟩ := matches_of_same hreg hsame
      obtain ⟨y, hy⟩ := Option.isSome_iff_exists.mp (List.find?_isSome.mpr ⟨x, hx, hmatch⟩)
      refine ⟨y, ?_, same_of_matches hcase (List.find?_some hy)⟩
      rw [findByAddress_run hcase, exec_of_fault_none hinp]
      exact congrArg Except.ok hy
    · intro data inp hchain
      have hwp := wp_createWallet_refused (R := Enrolling D.processEnv)
        (fun _ _ h hx => h.kept.mem hx) hreg hsame D.libraries data hchain hx
      have hsafe : Safe exec (Enrolling D.processEnv) (Enrolling D.processEnv)
          (WalletService.createWallet D.processEnv D.libraries data a) c.world :=
        (permitted_createWallet (A := [.wallet]) (by simp) D.libraries data a).safe
          (fun _ ho i w => enrolling_of_permitted ho i w) _
      exact run_interleave_of_wp (respects_enrolling D) hhealthy (wp_of_safe hsafe hwp)
        fun n e (_ : e ∈ (inp n).1) => trivial
  · intro chainId a hcase inp y hfound hchain raw hreg
    subst hchain
    rw [findByAddress_run hcase] at hfound
    have hok := hfound
    rw [exec_ok hfound] at hok
    exact registered_exactly hcase (List.find?_some (Except.ok.inj hok)) hreg

/-- A wallet is registered under the checksum spelling of its address. -/
def registration : List SystemEvent :=
  .spawn (.createWallet ⟨"tenant", "user", 31337⟩ TransferLog.sample.toAddress) ::
    steps 0 [{}, { uuid := "receiver" }]

/-- It is found under another spelling. -/
theorem wallet_addresses_registration : ∃ y,
    ((WalletRepository.findByAddress Deployment.defaults.processEnv 31337
      "0xFB6916095CA1DF60BB79CE92CE3EA74C37C5D359").run exec (fun _ => {})
        (World.unregistered.start.after Deployment.defaults.system registration).world).1 =
      .ok (some y) ∧
    SameAddress Deployment.defaults.processEnv 31337 y.address
      "0xFB6916095CA1DF60BB79CE92CE3EA74C37C5D359" := by
  have hlib : ∀ a, Deployment.defaults.libraries.isAddress a = true →
      Deployment.defaults.libraries.isAddress (Js.toLowerCase a) = true := by
    intro a ha
    have hlen : (Js.toLowerCase a).length = a.length := by
      rw [Js.toLowerCase, String.length_ofList, List.length_map, String.length_toList]
    simpa [Deployment.defaults, hlen] using ha
  have hempty : World.unregistered.Enrolled Deployment.defaults.processEnv := fun x hx => by cases hx
  have hrow : Wallet.receiver ∈ (World.unregistered.start.after Deployment.defaults.system
      registration).world.db.wallets.rows := by decide +kernel
  have hreg : Wallet.receiver.RegisteredAs Deployment.defaults.processEnv
      TransferLog.sample.toAddress := by
    rw [Wallet.RegisteredAs]
    decide +kernel
  have hsame : SameAddress Deployment.defaults.processEnv Wallet.receiver.chainId
      TransferLog.sample.toAddress "0xFB6916095CA1DF60BB79CE92CE3EA74C37C5D359" :=
    ⟨some .EVM, rfl, by rw [sameAddressOn]; decide +kernel⟩
  exact ((wallet_addresses .defaults hlib .unregistered hempty registration).2.2.1 .receiver hrow _ _
    hreg hsame).1 (fun _ => {}) rfl

end TransactionSimulator
