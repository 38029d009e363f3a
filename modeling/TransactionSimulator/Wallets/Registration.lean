import TransactionSimulator.Auth.Tokens
import TransactionSimulator.Wallets.Proofs

/-!
# Which wallets are registered

Where proofs of ownership are required, a wallet of a user is registered exactly for a challenge that was handed
out to that user for that address, and a signature over its message.

* `under_checkProof`, `under_createWallet`: the two halves of `POST /wallets`, run by themselves.
* `accepted_iff`: an accepted proof, in terms of the challenges that were handed out.
* `wallet_created_iff`: exactly when a request by itself is granted, in any reachable state.
* `registered_with_proof`: what the wallets of a run rest on, whatever runs at once.
-/

namespace TransactionSimulator

open Concurrent Prog Relational Texts

/-! ## The proof -/

section Halves

variable (O : OwnershipPlatform) {w : World} {A : OwnershipOp → OwnershipInput → World → Prop}

/-- **What `open` makes of a token**, at the time of the world. -/
theorem under_opened (token : String) :
    Under OwnershipOp.exec A (WalletOwnershipService.opened O token)
      (fun r w' => w' = w ∧ ∀ claims, r = .ok claims ↔
        WalletOwnershipService.readClaims O token = .ok claims ∧ (w.clock : Rat) < claims.exp) w := by
  refine under_bind.mpr (under_ofExcept.mpr ?_)
  cases hread : WalletOwnershipService.readClaims O token with
  | error e => exact ⟨rfl, fun claims => ⟨(fun h => by cases h), fun h => by cases h.1⟩⟩
  | ok claims =>
    refine under_bind.mpr (under_perform.mpr ?_)
    intro i _
    rw [exec_ownershipNow]
    dsimp only
    split
    · next hdead =>
      refine ⟨rfl, fun claims' => ⟨(fun h => by cases h), ?_⟩⟩
      rintro ⟨⟨⟩, hlive⟩
      exact absurd hdead (Rat.not_le.mpr hlive)
    · next hlive =>
      refine ⟨rfl, fun claims' => ⟨?_, ?_⟩⟩
      · rintro ⟨⟩
        exact ⟨rfl, Rat.not_le.mp hlive⟩
      · rintro ⟨⟨⟩, -⟩
        rfl

theorem assertOwnership_eq (hrequired : isOwnershipProofRequired O.deployment.processEnv = .ok true)
    {subject : OwnershipSubject} {blockchain : Blockchain}
    (hchain : blockchainForChainId O.deployment.processEnv subject.chainId = .ok (some blockchain))
    (challenge signature : Option String) :
    WalletOwnershipService.assertOwnership O subject challenge signature =
      WalletOwnershipService.checkProof O blockchain subject
        (challenge.bind fun challenge => signature.map fun signature => (challenge, signature)) := by
  rw [WalletOwnershipService.assertOwnership]
  simp only [hchain, hrequired, Prog.ofExcept, Prog.bind_eq, Prog.bind, Bool.not_true, Bool.false_and,
    Bool.false_eq_true, if_false]

/-- The part of `checkProof` that the EVM chain reaches. -/
theorem checkProof_eq (hregistry : O.deployment.registry = blockchainAdapterRegistry)
    (subject : OwnershipSubject) (token signature : String) :
    WalletOwnershipService.checkProof O .EVM subject (some (token, signature)) =
      (WalletOwnershipService.opened O token).bind fun claims =>
        (Prog.ofExcept (normalizeWalletAddress O.deployment.processEnv subject.chainId subject.address)).bind fun addr =>
          if claims.tid = subject.tenantId && claims.uid = subject.userId && claims.cid = subject.chainId &&
              claims.addr = addr then
            (Prog.ofExcept (buildOwnershipMessage claims)).bind fun message =>
              if (O.lib.verifyMessage claims.addr message signature).toOption.getD false then .pure ()
              else .throw Errors.invalidOwnershipSignature
          else .throw Errors.invalidOwnershipChallenge := by
  rw [WalletOwnershipService.checkProof, hregistry]
  rfl

/-- **What `assertOwnership` lets pass on the EVM chain**, if proofs are required. -/
theorem under_checkProof (hregistry : O.deployment.registry = blockchainAdapterRegistry) (subject : OwnershipSubject)
    (hchain : blockchainForChainId O.deployment.processEnv subject.chainId = .ok (some .EVM))
    (token signature : String) :
    Under OwnershipOp.exec A (WalletOwnershipService.checkProof O .EVM subject (some (token, signature)))
      (fun r w' => w' = w ∧ (r = .ok () ↔ ∃ claims, ProofAccepted O subject token signature w.clock claims)) w := by
  rw [checkProof_eq O hregistry]
  refine under_bind.mpr ((under_opened O token).mono ?_)
  rintro r w' ⟨rfl, hopened⟩
  cases r with
  | error e =>
    refine ⟨rfl, (fun h => by cases h), ?_⟩
    rintro ⟨claims, h⟩
    cases (hopened claims).mpr ⟨h.read, h.live⟩
  | ok claims =>
    obtain ⟨hread, hlive⟩ := (hopened claims).mp rfl
    -- the token has no other claims
    have honly : ∀ {claims'}, ProofAccepted O subject token signature w'.clock claims' → claims' = claims :=
      fun h => Except.ok.inj (h.read.symm.trans hread)
    dsimp only
    refine under_bind.mpr (under_ofExcept.mpr ?_)
    cases haddr : normalizeWalletAddress O.deployment.processEnv subject.chainId subject.address with
    | error e =>
      refine ⟨rfl, (fun h => by cases h), ?_⟩
      rintro ⟨claims', h⟩
      have hsome := h.addr
      rw [haddr] at hsome
      cases hsome
    | ok addr =>
      dsimp only
      split
      · next hmatches =>
        simp only [Bool.and_eq_true, decide_eq_true_eq] at hmatches
        obtain ⟨⟨⟨htid, huid⟩, hcid⟩, rfl⟩ := hmatches
        refine under_bind.mpr (under_ofExcept.mpr ?_)
        cases hmessage : buildOwnershipMessage claims with
        | error e =>
          refine ⟨rfl, (fun h => by cases h), ?_⟩
          rintro ⟨claims', h⟩
          obtain ⟨message, hbuilt, -⟩ := h.signed
          rw [honly h, hmessage] at hbuilt
          cases hbuilt
        | ok message =>
          dsimp only
          split
          · next hproven =>
            refine ⟨rfl, fun _ => ⟨claims, hchain, hread, hlive, htid, huid, hcid, haddr, message, hmessage, ?_⟩,
              fun _ => rfl⟩
            exact verified_of_toOption hproven
          · next hrefused =>
            refine ⟨rfl, (fun h => by cases h), ?_⟩
            rintro ⟨claims', h⟩
            obtain ⟨message', hbuilt, hverified⟩ := h.signed
            rw [honly h] at hbuilt hverified
            obtain rfl : message = message' := Except.ok.inj (hmessage.symm.trans hbuilt)
            rw [hverified] at hrefused
            exact absurd rfl hrefused
      · next hmatches =>
        refine ⟨rfl, (fun h => by cases h), ?_⟩
        rintro ⟨claims', h⟩
        obtain rfl := honly h
        have haddr' : claims'.addr = addr := Except.ok.inj (h.addr.symm.trans haddr)
        simp [h.tid, h.uid, h.cid, haddr'] at hmatches

end Halves

/-! ## The row -/

theorem evm_of_chain {env : ProcessEnv} {chainId : Nat}
    (h : blockchainForChainId env chainId = .ok (some .EVM)) : isEvmChainId env chainId = .ok true := by
  cases hevm : isEvmChainId env chainId with
  | error e =>
    rw [blockchainForChainId, hevm] at h
    cases h
  | ok evm =>
    cases evm with
    | true => rfl
    | false =>
      rw [blockchainForChainId_of_evm hevm, Except.ok.injEq, if_neg Bool.false_ne_true] at h
      split at h
      · cases h
      · split at h <;> cases h

theorem under_calling {A : OwnershipOp → OwnershipInput → World → Prop} {B : Call → Input → World → Prop}
    (hA : ∀ o i w, A (.call o) i w → B o i.input w) {α : Type} {p : Program α}
    {Q : Except JsError α → World → Prop} {w : World} (h : Under exec B p Q w) :
    Under OwnershipOp.exec A (calling p) Q w := by
  induction p generalizing w with
  | pure a => exact h
  | throw e => exact h
  | call o k ih => exact fun i hi => ih _ (h i.input (hA o i w hi))

/-- No wallet has the address, in any case of its letters. -/
def FreeAddress (w : World) (address : String) : Prop :=
  ∀ x ∈ w.db.wallets.rows, Js.toLowerCase x.address ≠ Js.toLowerCase address

/-- The wallets are the old ones and a new one with these columns. -/
def Registers (w : World) (row : WalletCreateInput) (r : Except JsError Wallet) (w' : World) : Prop :=
  ∃ x, r = .ok x ∧ x.Of row ∧ w'.db.wallets.rows = w.db.wallets.rows ++ [x]

/-- The request failed, and the wallets are as before. -/
def Declined (w : World) (r : Except JsError Wallet) (w' : World) : Prop :=
  (∃ e, r = .error e) ∧ w'.db.wallets.rows = w.db.wallets.rows

/-- The chain id fits its column, and the tenant and the owner exist. -/
def Fitting (w : World) (data : WalletRequest) : Prop :=
  fitsInt data.chainId = true ∧ data.tenantId ∈ w.db.tenants ∧ data.ownerId ∈ w.db.users

/-- **A fitting row is inserted** if its id and its address are new. -/
theorem insert_registers {w : World} {row : WalletCreateInput} {i : Input} (hfault : i.fault = none)
    (hfits : Fitting w ⟨row.tenantId, row.ownerId, row.chainId⟩)
    (hid : ∀ x ∈ w.db.wallets.rows, x.id ≠ i.uuid) (haddress : ∀ x ∈ w.db.wallets.rows, x.address ≠ row.address) :
    Registers w row (exec (.stmt (.walletCreate row)) i w).1 (exec (.stmt (.walletCreate row)) i w).2 := by
  rw [exec_of_fault_none hfault]
  obtain ⟨hok, hrows⟩ := Db.createWallet_of_fits ⟨w.clock, i.uuid⟩ hfits.1 hfits.2 hid haddress
  exact ⟨_, hok, ⟨rfl, rfl, rfl, rfl, rfl⟩, hrows⟩

theorem insert_declined {w : World} {row : WalletCreateInput} {i : Input} (hfault : i.fault = none)
    (hfits : ¬ Fitting w ⟨row.tenantId, row.ownerId, row.chainId⟩) :
    Declined w (exec (.stmt (.walletCreate row)) i w).1 (exec (.stmt (.walletCreate row)) i w).2 := by
  rw [exec_of_fault_none hfault]
  obtain ⟨herror, hdb⟩ := Db.createWallet_of_not_fits ⟨w.clock, i.uuid⟩ hfits
  exact ⟨herror, congrArg (fun db : Db => db.wallets.rows) hdb⟩

/-- **What `createWallet` does on the EVM chain**: it registers a valid address that is free, if the row is
fitting. -/
theorem under_createWallet {env : ProcessEnv} {lib : AddressLibraries} {data : WalletRequest} {address : String}
    (hevm : isEvmChainId env data.chainId = .ok true) (w : World) :
    Under exec (fun _ i _ => i.fault = none ∧ ∀ x ∈ w.db.wallets.rows, x.id ≠ i.uuid)
      (WalletService.createWallet env lib data address)
      (fun r w' => (isValidWalletAddress env lib data.chainId address = .ok true ∧ FreeAddress w address ∧
            Fitting w data →
          Registers w ⟨data.tenantId, data.ownerId, data.chainId, Js.toLowerCase address, .EXTERNAL, false⟩ r w') ∧
        (¬ (isValidWalletAddress env lib data.chainId address = .ok true ∧ FreeAddress w address ∧
            Fitting w data) →
          Declined w r w')) w := by
  have hvalid : isValidWalletAddress env lib data.chainId address = .ok (lib.isAddress address) := by
    rw [isValidWalletAddress, hevm]
    rfl
  have hcase : isCaseInsensitiveWalletAddress env data.chainId address = .ok true := by
    rw [isCaseInsensitive_of_evm hevm]
    rfl
  have hnormal : normalizeWalletAddress env data.chainId address = .ok (Js.toLowerCase address) := by
    rw [normalize_of_evm hevm]
    rfl
  rw [WalletService.createWallet, hvalid]
  refine under_bind.mpr (under_ofExcept.mpr ?_)
  cases haddress : lib.isAddress address with
  | false =>
    refine ⟨?_, fun _ => ⟨⟨_, rfl⟩, rfl⟩⟩
    rintro ⟨h, -⟩
    cases h
  | true =>
    show Under _ _ (Prog.bind (WalletRepository.findByAddress env data.chainId address) _) _ _
    rw [findByAddress_eq hcase]
    refine under_bind.mpr (under_perform.mpr ?_)
    rintro i ⟨hfault, -⟩
    have hfind : exec (.stmt (.walletFindFirst (matchesAddress true address))) i w =
        (.ok (w.db.wallets.rows.find? (matchesAddress true address)), w) := exec_of_fault_none hfault
    rw [hfind]
    dsimp only
    cases hfound : w.db.wallets.rows.find? (matchesAddress true address) with
    | some y =>
      refine ⟨?_, fun _ => ⟨⟨_, rfl⟩, rfl⟩⟩
      rintro ⟨-, hfree, -⟩
      have hmatch := matchesAddress_eq_true.mp (List.find?_some hfound)
      rw [if_pos rfl] at hmatch
      exact absurd hmatch (hfree y (List.mem_of_find?_eq_some hfound))
    | none =>
      have hfree : FreeAddress w address := by
        intro x hx hsame
        refine List.find?_eq_none.mp hfound x hx (matchesAddress_eq_true.mpr ?_)
        rw [if_pos rfl]
        exact hsame
      show Under _ _ (WalletRepository.create env data address) _ _
      rw [WalletRepository.create, hnormal]
      refine under_bind.mpr (under_ofExcept.mpr (under_perform.mpr ?_))
      rintro i' ⟨hfault', hid⟩
      by_cases hfits : Fitting w data
      swap
      · exact ⟨fun h => absurd h.2.2 hfits, fun _ => insert_declined hfault' hfits⟩
      refine ⟨fun _ => insert_registers hfault' hfits hid ?_, fun h => absurd ⟨rfl, hfree, hfits⟩ h⟩
      intro x hx hsame
      refine hfree x hx ?_
      rw [hsame, Js.toLowerCase_toLowerCase]

/-! ## The request -/

section Requests

variable {O : OwnershipPlatform} {w : World} {es : List OwnershipEvent}

/-- The token is that of a challenge that was handed out to the subject and is still good, and the signature is
one of its message. -/
structure BehindChallenge (O : OwnershipPlatform) (w : World) (es : List OwnershipEvent) (subject : OwnershipSubject)
    (token signature : String) (now : Date) : Prop where
  short : Js.length token ≤ MAX_CHALLENGE_LENGTH
  challenge : ∃ reply ∈ O.moments w es, ∃ address issued issuedAt claims addr,
    reply.op = .reply ⟨subject.tenantId, subject.userId, subject.chainId, address⟩ issued ∧
    IssuedAs O ⟨subject.tenantId, subject.userId, subject.chainId, address⟩ issuedAt claims issued ∧
    now < issuedAt + CHALLENGE_TTL_MS ∧
    normalizeWalletAddress O.deployment.processEnv subject.chainId address = .ok addr ∧
    normalizeWalletAddress O.deployment.processEnv subject.chainId subject.address = .ok addr ∧
    O.lib.verifyMessage addr issued.message signature = .ok true ∧
    ∃ payload tag tag', Js.split issued.challenge '.' = [payload, tag] ∧ Js.split token '.' = [payload, tag'] ∧
      O.lib.fromBase64url tag' = WalletOwnershipService.mac O payload

/-- **A proof is accepted exactly if a challenge is behind it**, where its MAC is not forged. -/
theorem accepted_iff (hlib : O.lib.Lawful)
    (hrequired : isOwnershipProofRequired O.deployment.processEnv = .ok true) {subject : OwnershipSubject}
    (hchain : blockchainForChainId O.deployment.processEnv subject.chainId = .ok (some .EVM))
    {token signature : String} {now : Date}
    (hunforged : ∀ payload tag, Js.split token '.' = [payload, tag] →
      O.lib.fromBase64url tag = WalletOwnershipService.mac O payload → HandedOut O w es payload) :
    (∃ claims, ProofAccepted O subject token signature now claims) ↔ BehindChallenge O w es subject token signature now := by
  constructor
  · rintro ⟨claims, h⟩
    obtain ⟨hlength, payload, tag', hsplit', hmac⟩ := split_of_readClaims h.read
    obtain ⟨reply, hreply, asker, issued, tag, hreplied, hsplit⟩ := hunforged payload tag' hsplit' hmac
    obtain ⟨-, -, issuedAt, claims₀, -, hissued⟩ := issued_of_reply hrequired hreply hreplied
    obtain rfl : claims = claims₀ := claims_of_payload hlib hissued hsplit hsplit' h.read
    obtain ⟨addr, nonce, haddr, rfl⟩ := id hissued.made
    have htid : asker.tenantId = subject.tenantId := h.tid
    have huid : asker.userId = subject.userId := h.uid
    have hcid : asker.chainId = subject.chainId := Rat.natCast_inj.mp h.cid
    have hasker : asker = ⟨subject.tenantId, subject.userId, subject.chainId, asker.address⟩ := by
      rw [← htid, ← huid, ← hcid]
    obtain ⟨message, hmessage, hverified⟩ := h.signed
    obtain rfl : issued.message = message := Except.ok.inj (hissued.message.symm.trans hmessage)
    refine ⟨hlength, reply, hreply, asker.address, issued, issuedAt,
      asker.claims addr nonce issuedAt, addr, ?_, ?_,
      Rat.natCast_lt_natCast.mp h.live, hcid ▸ haddr, h.addr, hverified, payload, tag, tag', hsplit, hsplit', hmac⟩
    · rw [← hasker]
      exact hreplied
    · rw [← hasker]
      exact hissued
  · rintro ⟨hlength, reply, hreply, address, issued, issuedAt, claims, addr, hreplied, hissued, hlive, haddr, hown,
      hverified, payload, tag, tag', hsplit, hsplit', hmac⟩
    obtain ⟨addr', nonce, haddr', rfl⟩ := id hissued.made
    obtain rfl : addr = addr' := Except.ok.inj (haddr.symm.trans haddr')
    rw [hissued.challenge, split_sealed] at hsplit
    obtain ⟨rfl, -⟩ : WalletOwnershipService.payloadOf O _ = payload ∧ _ := by simpa using hsplit
    exact ⟨_, hchain, readClaims_payloadOf hlib rfl hlength hsplit' hmac, Rat.natCast_lt_natCast.mpr hlive,
      rfl, rfl, rfl, hown, issued.message, hissued.message, hverified⟩

/-- The request is for a valid address of the EVM chain that no wallet has, with a challenge behind it; the
chain id fits its column, and the user and the tenant still exist. -/
def Provable (O : OwnershipPlatform) (w : World) (es : List OwnershipEvent) (user : User)
    (body : CreateWalletBody) : Prop :=
  blockchainForChainId O.deployment.processEnv body.chainId = .ok (some .EVM) ∧
    isValidWalletAddress O.deployment.processEnv O.deployment.libraries body.chainId body.address = .ok true ∧
    FreeAddress (O.after w es).world body.address ∧
    Fitting (O.after w es).world ⟨user.tenantId, user.id, body.chainId⟩ ∧
    ∃ token signature, body.challenge = some token ∧ body.signature = some signature ∧
      BehindChallenge O w es ⟨user.tenantId, user.id, body.chainId, body.address⟩ token signature
        (O.after w es).world.clock

/-- Off the EVM chain nothing is registered. -/
theorem under_postWallet_refuses {A : OwnershipOp → OwnershipInput → World → Prop}
    (hrequired : isOwnershipProofRequired O.deployment.processEnv = .ok true)
    (hregistry : O.deployment.registry = blockchainAdapterRegistry) (user : User) (body : CreateWalletBody)
    (hchain : blockchainForChainId O.deployment.processEnv body.chainId ≠ .ok (some .EVM)) :
    Under OwnershipOp.exec A (postWallet O user body) (Declined w) w := by
  refine under_bind.mpr ?_
  cases hfound : blockchainForChainId O.deployment.processEnv body.chainId with
  | error e =>
    rw [WalletOwnershipService.assertOwnership, hfound]
    exact ⟨⟨e, rfl⟩, rfl⟩
  | ok blockchain =>
    cases blockchain with
    | none =>
      rw [WalletOwnershipService.assertOwnership, hfound]
      refine under_calling (B := fun _ _ _ => True) (fun _ _ _ _ => trivial) ?_
      have hinvalid := invalid_of_unknown O.deployment.libraries body.address hfound
      rw [WalletService.createWallet]
      dsimp only
      cases hvalid : isValidWalletAddress O.deployment.processEnv O.deployment.libraries body.chainId body.address with
      | error e => exact ⟨⟨e, rfl⟩, rfl⟩
      | ok valid =>
        cases valid with
        | true => exact absurd hvalid hinvalid
        | false => exact ⟨⟨_, rfl⟩, rfl⟩
    | some blockchain =>
      rw [assertOwnership_eq O hrequired hfound, WalletOwnershipService.checkProof, hregistry]
      cases blockchain with
      | EVM => exact absurd hfound hchain
      | BITCOIN | SOLANA => exact ⟨⟨_, rfl⟩, rfl⟩

/-- What comes of a request in a reachable state. -/
def Treated (O : OwnershipPlatform) (w : World) (es : List OwnershipEvent) (user : User) (body : CreateWalletBody)
    (r : Except JsError Wallet) (w' : World) : Prop :=
  (Provable O w es user body →
    Registers (O.after w es).world
      ⟨user.tenantId, user.id, body.chainId, Js.toLowerCase body.address, .EXTERNAL, false⟩ r w') ∧
  (¬ Provable O w es user body → Declined (O.after w es).world r w')

theorem under_postWallet (hlib : O.lib.Lawful)
    (hrequired : isOwnershipProofRequired O.deployment.processEnv = .ok true)
    (hregistry : O.deployment.registry = blockchainAdapterRegistry) (user : User) (body : CreateWalletBody)
    (hunforged : MacUnforged O w es body) :
    Under OwnershipOp.exec
      (fun _ i _ => i.input.fault = none ∧ ∀ x ∈ (O.after w es).world.db.wallets.rows, x.id ≠ i.input.uuid)
      (postWallet O user body) (Treated O w es user body) (O.after w es).world := by
  by_cases hchain : blockchainForChainId O.deployment.processEnv body.chainId = .ok (some .EVM)
  · have hdeclined : ∀ e : JsError, ¬ Provable O w es user body →
        Treated O w es user body (.error e) (O.after w es).world :=
      fun e hno => ⟨fun h => absurd h hno, fun _ => ⟨⟨e, rfl⟩, rfl⟩⟩
    refine under_bind.mpr ?_
    rw [assertOwnership_eq O hrequired hchain]
    cases htoken : body.challenge with
    | none =>
      rw [Option.bind_none, WalletOwnershipService.checkProof, hregistry]
      refine hdeclined Errors.ownershipProofRequired ?_
      rintro ⟨-, -, -, -, token, signature, hsome, -⟩
      rw [htoken] at hsome
      cases hsome
    | some token =>
      cases hsignature : body.signature with
      | none =>
        have htogether := body.together
        rw [htoken, hsignature] at htogether
        cases htogether
      | some signature =>
        refine (under_checkProof O hregistry ⟨user.tenantId, user.id, body.chainId, body.address⟩ hchain token
          signature).mono ?_
        rintro r w' ⟨rfl, haccepted⟩
        rw [accepted_iff hlib hrequired hchain (hunforged token · · htoken)] at haccepted
        -- with this token and this signature, the request is provable if the address is valid and free
        have hprovable : Provable O w es user body ↔
            (isValidWalletAddress O.deployment.processEnv O.deployment.libraries body.chainId body.address = .ok true ∧
              FreeAddress (O.after w es).world body.address ∧
              Fitting (O.after w es).world ⟨user.tenantId, user.id, body.chainId⟩) ∧
            BehindChallenge O w es ⟨user.tenantId, user.id, body.chainId, body.address⟩ token signature
              (O.after w es).world.clock := by
          constructor
          · rintro ⟨-, hvalid, hfree, hfits, token', signature', htoken', hsignature', hbehind⟩
            rw [htoken, Option.some.injEq] at htoken'
            rw [hsignature, Option.some.injEq] at hsignature'
            subst htoken' hsignature'
            exact ⟨⟨hvalid, hfree, hfits⟩, hbehind⟩
          · rintro ⟨⟨hvalid, hfree, hfits⟩, hbehind⟩
            exact ⟨hchain, hvalid, hfree, hfits, token, signature, htoken, hsignature, hbehind⟩
        cases r with
        | error e =>
          refine hdeclined e fun h => ?_
          cases haccepted.mpr (hprovable.mp h).2
        | ok =>
          have hbehind := haccepted.mp rfl
          refine under_calling (fun _ _ _ h => h) ((under_createWallet (evm_of_chain hchain) _).mono ?_)
          rintro r w' ⟨hregisters, hdeclined⟩
          exact ⟨fun h => hregisters (hprovable.mp h).1, fun h => hdeclined fun hok => h (hprovable.mpr ⟨hok, hbehind⟩)⟩
  · refine (under_postWallet_refuses hrequired hregistry user body hchain).mono ?_
    exact fun r w' h => ⟨fun hprovable => absurd hprovable.1 hchain, fun _ => h⟩

theorem treated_postWallet (hlib : O.lib.Lawful)
    (hrequired : isOwnershipProofRequired O.deployment.processEnv = .ok true)
    (hregistry : O.deployment.registry = blockchainAdapterRegistry) (user : User) (body : CreateWalletBody)
    (hunforged : MacUnforged O w es body) (inp : Nat → OwnershipInput)
    (hinp : ∀ n, (inp n).input.fault = none ∧
      ∀ x ∈ (O.after w es).world.db.wallets.rows, x.id ≠ (inp n).input.uuid) :
    Treated O w es user body ((postWallet O user body).run OwnershipOp.exec inp (O.after w es).world).1
      ((postWallet O user body).run OwnershipOp.exec inp (O.after w es).world).2 := by
  refine (under_postWallet hlib hrequired hregistry user body hunforged).run inp ?_
  intro m hm
  obtain ⟨n, hn⟩ := input_of_mem_trace hm
  rw [hn]
  exact hinp n

end Requests

/-! ## Registered wallets -/

/-- The proof of the challenge `issued` that the row `x` rests on: it was made for the owner and the address at
`issuedAt`, and the program that wrote the row had read the clock, and accepted the proof, within the lifetime. -/
structure ProvenInTime (O : OwnershipPlatform) (x : Wallet) (body : CreateWalletBody) (token signature : String)
    (address : String) (issued : IssuedChallenge) (issuedAt now : Date) : Prop where
  made : ∃ claims, IssuedAs O ⟨x.tenantId, x.ownerId, x.chainId, address⟩ issuedAt claims issued ∧
    ProofAccepted O ⟨x.tenantId, x.ownerId, x.chainId, body.address⟩ token signature now claims
  signed : O.lib.verifyMessage x.address issued.message signature = .ok true
  inTime : now < issuedAt + CHALLENGE_TTL_MS

/-- The wallet was written by the program of a request behind a challenge: the challenge was handed out before
the request, to the same user and for the same address, and the program had accepted the proof before it wrote
the row, by a clock that it had read within the lifetime of the challenge. -/
def RegisteredBehindChallenge (O : OwnershipPlatform) (w : World) (es : List OwnershipEvent) (x : Wallet) : Prop :=
  blockchainForChainId O.deployment.processEnv x.chainId = .ok (some .EVM) ∧
    ∃ fs gs user, ∃ body : CreateWalletBody, ∃ token signature,
      es = fs ++ .spawn (.postWallet user body) :: gs ∧
      user.tenantId = x.tenantId ∧ user.id = x.ownerId ∧ body.chainId = x.chainId ∧
      normalizeWalletAddress O.deployment.processEnv x.chainId body.address = .ok x.address ∧
      body.challenge = some token ∧ body.signature = some signature ∧
      ∃ reply ∈ O.moments w fs, ∃ address issued,
        reply.op = .reply ⟨x.tenantId, x.ownerId, x.chainId, address⟩ issued ∧
        normalizeWalletAddress O.deployment.processEnv x.chainId address = .ok x.address ∧
        (∃ payload tag tag', Js.split issued.challenge '.' = [payload, tag] ∧
          Js.split token '.' = [payload, tag']) ∧
        ∃ asked ∈ O.moments w fs, ∃ past write post row,
          O.callsOf w es (spawned fs).length = past ++ write :: post ∧
          write.op = .call (.stmt (.walletCreate row)) ∧ x.Of row ∧
          ∃ checked ∈ past, ∃ issuedAt now, ReadsClock issuedAt asked ∧ ReadsClock now checked ∧
            ProvenInTime O x body token signature address issued issuedAt now

/-- **What the wallets of users rest on**, where proofs are required and nobody can compute the MAC: every
wallet of a run that is not custodial was there before, or was registered behind a challenge. -/
theorem registered_with_proof (O : OwnershipPlatform) (hlib : O.lib.Lawful)
    (hrequired : isOwnershipProofRequired O.deployment.processEnv = .ok true) (w : World)
    (es : List OwnershipEvent) (hroutes : ∀ data address, .spawn (.task (.createWallet data address)) ∉ es)
    (hunforged : MacsUnforged O w es) :
    ∀ x ∈ (O.after w es).world.db.wallets.rows,
      x ∈ w.db.wallets.rows ∨ x.custodyType = .CUSTODIAL ∨ RegisteredBehindChallenge O w es x := by
  intro x hx
  by_cases hnew : x ∈ w.db.wallets.rows
  · exact .inl hnew
  obtain ⟨pid, t, past, m, post, row, ht, hcalls, hown, hop, hof⟩ := created_by_call hrequired hx hnew
  obtain ⟨fs, gs, hes, rfl⟩ := exists_spawn_of_getElem? ht
  right
  rcases hown.created row hop with hcustodial | ⟨data, address, rfl⟩ |
    ⟨user, body, token, signature, rfl, htoken, hsignature, hwallet, checked, hchecked, now, claims, hnow, hproof⟩
  · exact .inl (hof.custodyType.trans hcustodial)
  · exact absurd (mem_spawned.mp (List.mem_of_getElem? ht)) (hroutes data address)
  · right
    obtain ⟨-, payload, tag', hsplit', hmac⟩ := split_of_readClaims hproof.read
    obtain ⟨reply, hreply, subject, issued, tag, hreplied, hsplit⟩ :=
      hunforged fs gs user body hes token payload tag' htoken hsplit' hmac
    obtain ⟨asked, hasked, issuedAt, claims₀, hissuedAt, hissued⟩ := issued_of_reply hrequired hreply hreplied
    obtain rfl : claims = claims₀ := claims_of_payload hlib hissued hsplit hsplit' hproof.read
    obtain ⟨addr, nonce, haddr, rfl⟩ := id hissued.made
    obtain ⟨htenant, howner, hchain, hrow⟩ := hwallet
    have htid : subject.tenantId = user.tenantId := hproof.tid
    have huid : subject.userId = user.id := hproof.uid
    have hcid : subject.chainId = body.chainId := Rat.natCast_inj.mp hproof.cid
    have haddress : x.address = addr := by
      have hbody := hproof.addr
      rw [hrow, Except.ok.injEq] at hbody
      exact hof.address.trans hbody
    have hxtenant : x.tenantId = user.tenantId := hof.tenantId.trans htenant
    have hxowner : x.ownerId = user.id := hof.ownerId.trans howner
    have hxchain : x.chainId = body.chainId := hof.chainId.trans hchain
    have hsubject : subject = ⟨x.tenantId, x.ownerId, x.chainId, subject.address⟩ := by
      rw [hxtenant, hxowner, hxchain, ← htid, ← huid, ← hcid]
    have hproven : ProvenInTime O x body token signature subject.address issued issuedAt now := by
      obtain ⟨message, hmessage, hverified⟩ := hproof.signed
      obtain rfl : issued.message = message := Except.ok.inj (hissued.message.symm.trans hmessage)
      refine ⟨⟨subject.claims addr nonce issuedAt, ?_, ?_⟩, ?_, Rat.natCast_lt_natCast.mp hproof.live⟩
      · rw [← hsubject]
        exact hissued
      · rw [hxtenant, hxowner, hxchain]
        exact hproof
      · rw [haddress]
        exact hverified
    refine ⟨hxchain ▸ hproof.chain, fs, gs, user, body, token, signature, hes, hxtenant.symm, hxowner.symm,
      hxchain.symm, ?_, htoken, hsignature, reply, hreply, subject.address, issued, ?_, ?_,
      ⟨payload, tag, tag', hsplit, hsplit'⟩, asked, hasked, past, m, post, row, hcalls, hop, hof, checked,
      hchecked, issuedAt, now, hissuedAt, hnow, hproven⟩
    · rw [hxchain, haddress]
      exact hproof.addr
    · rw [← hsubject]
      exact hreplied
    · rw [hxchain, ← hcid, haddress]
      exact haddr

/-! ## A run -/

section HandingOut

variable (O : OwnershipPlatform)

theorem isoText_natCast {time : Date} (h : time ≤ MAX_DATE) : isoText (time : Rat) = .ok (Js.toISOString time) := by
  have hbounds : (0 : Rat) ≤ time ∧ (time : Rat) ≤ MAX_DATE :=
    ⟨Rat.natCast_nonneg, Rat.natCast_le_natCast.mpr h⟩
  have hfloor : (time : Rat).floor = time := by rw [← Rat.intCast_natCast, Rat.floor_intCast]
  rw [isoText, if_pos hbounds, hfloor, Int.toNat_natCast]

/-- **Claims make a challenge** as long as their dates can be written. -/
theorem exists_challenge (subject : OwnershipSubject) (addr nonce : String) (issuedAt : Date)
    (h : issuedAt + CHALLENGE_TTL_MS ≤ MAX_DATE) :
    ∃ issued, WalletOwnershipService.challengeOf O (subject.claims addr nonce issuedAt) = .ok issued := by
  have hiat : isoText (subject.claims addr nonce issuedAt).iat = .ok (Js.toISOString issuedAt) :=
    isoText_natCast (le_trans (Nat.le_add_right _ _) h)
  have hexp : isoText (subject.claims addr nonce issuedAt).exp =
      .ok (Js.toISOString (issuedAt + CHALLENGE_TTL_MS)) := isoText_natCast h
  rw [WalletOwnershipService.challengeOf, buildOwnershipMessage, hiat, hexp]
  exact ⟨_, rfl⟩

/-- **A valid address is handed a challenge**: the calls of the route. -/
theorem trace_postChallenge (hregistry : O.deployment.registry = blockchainAdapterRegistry) (user : User)
    {chainId : Nat} {address addr : String}
    (hchain : blockchainForChainId O.deployment.processEnv chainId = .ok (some .EVM))
    (hvalid : isValidWalletAddress O.deployment.processEnv O.deployment.libraries chainId address = .ok true)
    (haddr : normalizeWalletAddress O.deployment.processEnv chainId address = .ok addr) (w : World)
    (inp : Nat → OwnershipInput) {issued : IssuedChallenge}
    (hissued : WalletOwnershipService.challengeOf O ((⟨user.tenantId, user.id, chainId, address⟩ :
      OwnershipSubject).claims addr (Bytes.toHex (List.ofFn (inp 1).bytes)) w.clock) = .ok issued) :
    (postChallenge O user chainId address).trace OwnershipOp.exec inp w =
        [⟨w, .call .now, inp 0⟩, ⟨w, .randomBytes, inp 1⟩,
          ⟨w, .reply ⟨user.tenantId, user.id, chainId, address⟩ issued, inp 2⟩] ∧
      ((postChallenge O user chainId address).run OwnershipOp.exec inp w).2 = w := by
  have hget : O.deployment.registry.get .EVM = .ok evmAdapter := by
    rw [hregistry]
    rfl
  have hissue : WalletOwnershipService.issueChallenge O ⟨user.tenantId, user.id, chainId, address⟩ =
      ownershipNow.bind fun issuedAt => (Prog.perform OwnershipOp.randomBytes).bind fun bytes =>
        Prog.ofExcept (WalletOwnershipService.challengeOf O ((⟨user.tenantId, user.id, chainId, address⟩ :
          OwnershipSubject).claims addr (Bytes.toHex (List.ofFn bytes)) issuedAt)) := by
    rw [WalletOwnershipService.issueChallenge]
    simp only [hchain, hvalid, haddr, hget, Prog.ofExcept, Prog.bind_eq, Prog.bind]
    rfl
  rw [postChallenge, hissue]
  simp only [ownershipNow, Prog.perform, Prog.bind_eq, Prog.bind, Prog.trace, Prog.run, exec_ownershipNow]
  simp only [OwnershipOp.exec, hissued, Prog.ofExcept, Prog.bind, Prog.trace, Prog.run]
  exact ⟨trivial, trivial⟩

end HandingOut

section Samples

/-- Claims as packed texts; the version and the expiry are the same for all. -/
def packClaims : Json → String
  | .obj [(_, .num _), (_, .str tid), (_, .str uid), (_, .num cid), (_, .str addr), (_, .str nonce),
      (_, .num iat), (_, .num _)] =>
    String.ofList (packed [tid.toList, uid.toList, Nat.toDigits 10 cid.num.toNat, addr.toList, nonce.toList,
      Nat.toDigits 10 iat.num.toNat])
  | _ => ""

def unpackClaims (text : String) : Except JsError Json :=
  match unpacked text.toList with
  | [tid, uid, cid, addr, nonce, iat] =>
    .ok ((⟨String.ofList tid, String.ofList uid, Nat.ofDigitChars 10 cid 0, ""⟩ : OwnershipSubject).claims
      (String.ofList addr) (String.ofList nonce) (Nat.ofDigitChars 10 iat 0)).json
  | _ => .error (.error "Unexpected token")

/-- Libraries that trust everybody: a MAC is the length of a text, a signature names its address. -/
def trustingOwnership : OwnershipLibraries where
  hmac _ message := [UInt8.ofNat message.length]
  stringify := packClaims
  parse := unpackClaims
  fromBase64url := Bytes.ofBase64url
  replaced _ := ""
  verifyMessage address _ signature := .ok (signature = "by " ++ address)

theorem packClaims_claims (subject : OwnershipSubject) (addr nonce : String) (issuedAt : Date) :
    packClaims (subject.claims addr nonce issuedAt).json =
      String.ofList (packed [subject.tenantId.toList, subject.userId.toList, Nat.toDigits 10 subject.chainId,
        addr.toList, nonce.toList, Nat.toDigits 10 issuedAt]) := by
  simp only [packClaims, ChallengeClaims.json, OwnershipSubject.claims, Rat.num_natCast, Int.toNat_natCast]

theorem trustingOwnership_lawful : trustingOwnership.Lawful where
  fromBase64url_written := Bytes.ofBase64url_toBase64url
  parse_stringify subject addr nonce issuedAt := by
    show unpackClaims (packClaims _) = _
    rw [packClaims_claims]
    simp only [unpackClaims, String.toList_ofList, unpacked_packed, String.ofList_toList,
      Nat.ofDigitChars_ten_toDigits]
    rfl

/-- **A challenge that was handed out is good for its subject.** -/
theorem behind_sealed {O : OwnershipPlatform} (hlib : O.lib.Lawful) {w : World} {es : List OwnershipEvent}
    {reply : OwnershipMoment} (hreply : reply ∈ O.moments w es) {subject : OwnershipSubject}
    {issued : IssuedChallenge} (hop : reply.op = .reply subject issued) {addr nonce signature : String}
    {issuedAt now : Date} (haddr : normalizeWalletAddress O.deployment.processEnv subject.chainId subject.address = .ok addr)
    (hissued : WalletOwnershipService.challengeOf O (subject.claims addr nonce issuedAt) = .ok issued)
    (hlive : now < issuedAt + CHALLENGE_TTL_MS)
    (hshort : Js.length (WalletOwnershipService.sealed O (subject.claims addr nonce issuedAt)) ≤ MAX_CHALLENGE_LENGTH)
    (hverified : O.lib.verifyMessage addr issued.message signature = .ok true) :
    BehindChallenge O w es subject (WalletOwnershipService.sealed O (subject.claims addr nonce issuedAt)) signature
      now := by
  obtain ⟨hmessage, hchallenge⟩ := challengeOf_eq_ok O hissued
  refine ⟨hshort, reply, hreply, subject.address, issued, issuedAt, _, addr, hop, ⟨⟨addr, nonce, haddr, rfl⟩, hmessage,
    hchallenge⟩, hlive, haddr, haddr, hverified, ?_⟩
  rw [hchallenge]
  exact ⟨_, _, _, split_sealed _, split_sealed _, hlib.fromBase64url_written _⟩

/-- Proofs are required. -/
def guardedPlatform : OwnershipPlatform where
  deployment := { Deployment.defaults with
    processEnv := fun name => if name = "REQUIRE_WALLET_OWNERSHIP_PROOF" then some "true" else none }
  lib := trustingOwnership
  JWT_SECRET := "secret"

theorem guardedPlatform_requires :
    isOwnershipProofRequired guardedPlatform.deployment.processEnv = .ok true := by decide +kernel

def annWallet : String := "0xDbF03B407c01E7cD3CBea99509d93f8DDDC8C6FB"

def annSubject : OwnershipSubject := ⟨"tenant", "user", 31337, annWallet⟩

theorem annWallet_facts :
    blockchainForChainId guardedPlatform.deployment.processEnv 31337 = .ok (some .EVM) ∧
      isValidWalletAddress guardedPlatform.deployment.processEnv guardedPlatform.deployment.libraries 31337
        annWallet = .ok true ∧
      normalizeWalletAddress guardedPlatform.deployment.processEnv 31337 annWallet =
        .ok (Js.toLowerCase annWallet) ∧
      ∀ x ∈ World.sample.db.wallets.rows, Js.toLowerCase x.address ≠ Js.toLowerCase annWallet := by
  decide +kernel

/-- The claims that are handed out to her. -/
def annClaims : ChallengeClaims :=
  annSubject.claims (Js.toLowerCase annWallet) (Bytes.toHex (List.ofFn fun _ : Fin 16 => 0)) 1000000

theorem sealed_ne (O : OwnershipPlatform) (claims : ChallengeClaims) :
    WalletOwnershipService.sealed O claims ≠ "" := by
  intro h
  have hlength := congrArg String.length h
  rw [WalletOwnershipService.sealed, String.length_append, String.length_append] at hlength
  simp at hlength

/-- A token is made of characters that take one unit each. -/
theorem length_sealed (O : OwnershipPlatform) (claims : ChallengeClaims) :
    Js.length (WalletOwnershipService.sealed O claims) = (WalletOwnershipService.sealed O claims).length := by
  have halphabet : ∀ c ∈ Bytes.alphabet64, c.toNat < 0x10000 := by
    have hall : (Bytes.alphabet64.all fun c => decide (c.toNat < 0x10000)) = true := by decide
    exact fun c hc => of_decide_eq_true (List.all_eq_true.mp hall c hc)
  refine Js.length_eq ?_
  intro c hc
  rw [WalletOwnershipService.sealed, String.toList_append, String.toList_append] at hc
  rcases List.mem_append.mp hc with hc | hc
  · rcases List.mem_append.mp hc with hc | hc
    · exact halphabet c (Bytes.mem_alphabet64 hc)
    · obtain rfl : c = '.' := List.mem_singleton.mp hc
      decide
  · exact halphabet c (Bytes.mem_alphabet64 hc)

/-- Tokens of short claims are short enough. -/
theorem length_sealed_le {O : OwnershipPlatform} (hlib : O.lib = trustingOwnership) {claims : ChallengeClaims}
    {chars : List Char} (hchars : packClaims claims.json = String.ofList chars) (h : chars.length ≤ 250) :
    Js.length (WalletOwnershipService.sealed O claims) ≤ MAX_CHALLENGE_LENGTH := by
  have hpayload : (WalletOwnershipService.payloadOf O claims).length ≤ 2 * (4 * 250) := by
    refine le_trans (Bytes.length_toBase64url_le _) (Nat.mul_le_mul_left 2 ?_)
    rw [hlib]
    show (Bytes.utf8 (packClaims claims.json)).length ≤ 4 * 250
    rw [hchars]
    exact le_trans (Bytes.length_utf8_le _) (Nat.mul_le_mul_left 4 h)
  have hmac := Bytes.length_toBase64url_le
    (WalletOwnershipService.mac O (WalletOwnershipService.payloadOf O claims))
  have hone : (WalletOwnershipService.mac O (WalletOwnershipService.payloadOf O claims)).length = 1 := by
    rw [WalletOwnershipService.mac, hlib]
    rfl
  rw [hone] at hmac
  rw [length_sealed, WalletOwnershipService.sealed, String.length_append, String.length_append, MAX_CHALLENGE_LENGTH]
  have hdot : ".".length = 1 := rfl
  omega

theorem annToken_short :
    Js.length (WalletOwnershipService.sealed guardedPlatform annClaims) ≤ MAX_CHALLENGE_LENGTH := by
  refine length_sealed_le rfl (packClaims_claims _ _ _ _) ?_
  decide +kernel

def annBody : CreateWalletBody where
  chainId := 31337
  address := annWallet
  challenge := some (WalletOwnershipService.sealed guardedPlatform annClaims)
  signature := some ("by " ++ Js.toLowerCase annWallet)
  nonempty := ⟨fun h => sealed_ne _ _ (Option.some.inj h), by decide +kernel⟩
  together := by rw [Option.isNone_some, Option.isNone_some]

/-- Ann asks for a challenge. -/
def annAsks : List OwnershipEvent :=
  .spawn (.postChallenge User.sample 31337 annWallet) :: stepping 0 (fun _ => {}) 3

/-- **What a request for a challenge leaves**: a challenge, and the world as it was. -/
theorem asks_run (O : OwnershipPlatform) (hregistry : O.deployment.registry = blockchainAdapterRegistry)
    {chainId : Nat} {address addr : String}
    (hchain : blockchainForChainId O.deployment.processEnv chainId = .ok (some .EVM))
    (hvalid : isValidWalletAddress O.deployment.processEnv O.deployment.libraries chainId address = .ok true)
    (haddr : normalizeWalletAddress O.deployment.processEnv chainId address = .ok addr) : ∃ issued,
    WalletOwnershipService.challengeOf O ((⟨"tenant", "user", chainId, address⟩ : OwnershipSubject).claims addr
      (Bytes.toHex (List.ofFn fun _ : Fin 16 => 0)) 1000000) = .ok issued ∧
    (∃ reply ∈ O.moments World.sample
        (.spawn (.postChallenge User.sample chainId address) :: stepping 0 (fun _ => {}) 3),
      reply.op = .reply ⟨"tenant", "user", chainId, address⟩ issued) ∧
    (O.after World.sample
      (.spawn (.postChallenge User.sample chainId address) :: stepping 0 (fun _ => {}) 3)).world = World.sample ∧
    (O.after World.sample
      (.spawn (.postChallenge User.sample chainId address) :: stepping 0 (fun _ => {}) 3)).procs.length = 1 := by
  obtain ⟨issued, hissued⟩ := exists_challenge O ⟨"tenant", "user", chainId, address⟩ addr
    (Bytes.toHex (List.ofFn fun _ : Fin 16 => 0)) 1000000 (by decide)
  obtain ⟨htrace, hrun⟩ := trace_postChallenge O hregistry User.sample hchain hvalid haddr World.sample
    (fun _ => {}) hissued
  obtain ⟨hafter, hmoments⟩ := after_spawn_stepping (S := ownershipSystem O) (c := ⟨World.sample, []⟩)
    (.postChallenge User.sample chainId address) fun _ => ({} : OwnershipInput)
  have hsteps : (((ownershipSystem O).prog (.postChallenge User.sample chainId address)).trace
      (ownershipSystem O).exec (fun _ => {}) World.sample).length = 3 := congrArg List.length htrace
  rw [hsteps] at hafter hmoments
  have hall : O.moments World.sample
      (.spawn (.postChallenge User.sample chainId address) :: stepping 0 (fun _ => {}) 3) = _ := hmoments.trans htrace
  refine ⟨issued, hissued, ⟨⟨World.sample, .reply ⟨"tenant", "user", chainId, address⟩ issued, {}⟩, ?_, rfl⟩, ?_, ?_⟩
  · rw [hall]
    exact .tail _ (.tail _ (.head _))
  · exact (congrArg Config.world hafter).trans hrun
  · exact congrArg (fun c => c.procs.length) hafter

theorem annAsks_run : ∃ issued,
    WalletOwnershipService.challengeOf guardedPlatform annClaims = .ok issued ∧
    (∃ reply ∈ guardedPlatform.moments World.sample annAsks, reply.op = .reply annSubject issued) ∧
    (guardedPlatform.after World.sample annAsks).world = World.sample ∧
    (guardedPlatform.after World.sample annAsks).procs.length = 1 := by
  obtain ⟨hchain, hvalid, haddr, -⟩ := annWallet_facts
  exact asks_run guardedPlatform rfl hchain hvalid haddr

/-- Her request for the wallet is provable. -/
theorem annBody_provable : Provable guardedPlatform World.sample annAsks User.sample annBody := by
  obtain ⟨issued, hissued, ⟨reply, hreply, hop⟩, hworld, -⟩ := annAsks_run
  obtain ⟨hchain, hvalid, haddr, hfree⟩ := annWallet_facts
  have hverified : trustingOwnership.verifyMessage (Js.toLowerCase annWallet) issued.message
      ("by " ++ Js.toLowerCase annWallet) = .ok true := congrArg Except.ok (decide_eq_true rfl)
  refine ⟨hchain, hvalid, ?_, ?_, _, _, rfl, rfl, ?_⟩
  · rw [FreeAddress, hworld]
    exact hfree
  · rw [Fitting, hworld]
    decide
  · refine behind_sealed trustingOwnership_lawful hreply hop haddr hissued ?_ annToken_short hverified
    rw [hworld]
    decide

theorem annBody_unforged : MacUnforged guardedPlatform World.sample annAsks annBody := by
  obtain ⟨issued, hissued, ⟨reply, hreply, hop⟩, -, -⟩ := annAsks_run
  obtain ⟨-, hchallenge⟩ := challengeOf_eq_ok guardedPlatform hissued
  intro token payload tag htoken hsplit _
  obtain rfl : WalletOwnershipService.sealed guardedPlatform annClaims = token := Option.some.inj htoken
  exact ⟨reply, hreply, annSubject, issued, tag, hop, by rw [hchallenge, hsplit]⟩

def annInputs (_ : Nat) : OwnershipInput := { input := { uuid := "ann" } }

theorem annInputs_new (n : Nat) : (annInputs n).input.fault = none ∧
    ∀ x ∈ (guardedPlatform.after World.sample annAsks).world.db.wallets.rows, x.id ≠ (annInputs n).input.uuid := by
  obtain ⟨-, -, -, hworld, -⟩ := annAsks_run
  have hids : ∀ x ∈ World.sample.db.wallets.rows, x.id ≠ "ann" := by decide
  rw [hworld]
  exact ⟨rfl, hids⟩

theorem after_postWallet (O : OwnershipPlatform) (w : World) (es : List OwnershipEvent) (user : User)
    (body : CreateWalletBody) (inp : Nat → OwnershipInput) :
    (O.after w (es ++ .spawn (.postWallet user body) :: stepping (O.after w es).procs.length inp
      ((postWallet O user body).void.trace OwnershipOp.exec inp (O.after w es).world).length)).world =
      ((postWallet O user body).run OwnershipOp.exec inp (O.after w es).world).2 := by
  obtain ⟨hafter, -⟩ := after_spawn_stepping (S := ownershipSystem O) (c := O.after w es) (.postWallet user body) inp
  rw [← run_void_snd, OwnershipPlatform.after, Config.after_append]
  exact congrArg Config.world hafter

/-- She sends the challenge back with a signature. -/
def annRegisters : List OwnershipEvent :=
  .spawn (.postWallet User.sample annBody) :: stepping 1 annInputs
    ((postWallet guardedPlatform User.sample annBody).void.trace OwnershipOp.exec annInputs World.sample).length

/-- **What her registration leaves**: one wallet more, hers. -/
theorem annRegisters_run : ∃ x ∈ (guardedPlatform.after World.sample (annAsks ++ annRegisters)).world.db.wallets.rows,
    x.Of ⟨"tenant", "user", 31337, Js.toLowerCase annWallet, .EXTERNAL, false⟩ := by
  obtain ⟨-, -, -, hworld, hprocs⟩ := annAsks_run
  have hregisters : Registers (guardedPlatform.after World.sample annAsks).world
      ⟨"tenant", "user", 31337, Js.toLowerCase annWallet, .EXTERNAL, false⟩
      ((postWallet guardedPlatform User.sample annBody).run OwnershipOp.exec annInputs
        (guardedPlatform.after World.sample annAsks).world).1
      ((postWallet guardedPlatform User.sample annBody).run OwnershipOp.exec annInputs
        (guardedPlatform.after World.sample annAsks).world).2 :=
    (treated_postWallet trustingOwnership_lawful guardedPlatform_requires rfl User.sample annBody annBody_unforged
      annInputs annInputs_new).1 annBody_provable
  obtain ⟨x, -, hof, hrows⟩ := hregisters
  have hleft := after_postWallet guardedPlatform World.sample annAsks User.sample annBody annInputs
  rw [hprocs, hworld] at hleft
  rw [hworld] at hrows
  refine ⟨x, ?_, hof⟩
  rw [annRegisters, hleft, hrows]
  exact List.mem_append_right _ (List.mem_singleton_self x)

/-- Her wallet rests on her challenge. -/
theorem registered_with_proof_ann :
    ∃ x ∈ (guardedPlatform.after World.sample (annAsks ++ annRegisters)).world.db.wallets.rows,
      x.address = Js.toLowerCase annWallet ∧
        RegisteredBehindChallenge guardedPlatform World.sample (annAsks ++ annRegisters) x := by
  obtain ⟨x, hx, hof⟩ := annRegisters_run
  have hroutes : ∀ data address, .spawn (.task (.createWallet data address)) ∉ annAsks ++ annRegisters := by
    simp [annAsks, annRegisters, stepping]
  have hunforged : MacsUnforged guardedPlatform World.sample (annAsks ++ annRegisters) := by
    intro fs gs user body hes
    obtain ⟨rfl, hspawn, -⟩ := append_cons_inj (P := fun e => ∃ user body, e = .spawn (.postWallet user body))
      (by simp [annAsks, stepping]) (by simp [stepping]) ⟨user, body, rfl⟩ hes
    obtain ⟨-, rfl⟩ : User.sample = user ∧ annBody = body := by simpa using hspawn
    exact annBody_unforged
  refine ⟨x, hx, hof.address, ?_⟩
  rcases registered_with_proof guardedPlatform trustingOwnership_lawful guardedPlatform_requires World.sample
    (annAsks ++ annRegisters) hroutes hunforged x hx with hold | hcustodial | hproof
  · have hother : ∀ x ∈ World.sample.db.wallets.rows, x.address ≠ Js.toLowerCase annWallet := by decide +kernel
    exact absurd hof.address (hother x hold)
  · rw [hof.custodyType] at hcustodial
    cases hcustodial
  · exact hproof

end Samples

end TransactionSimulator
