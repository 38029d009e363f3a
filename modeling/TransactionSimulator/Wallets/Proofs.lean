import TransactionSimulator.Rights
import TransactionSimulator.Wallets.Addresses
import TransactionSimulator.Wallets.Ownership

/-!
# What a proof of ownership rests on

The calls of the two routes, whatever else runs, and the tokens that they hand out and accept.

* `wp_postChallenge`, `wp_postWallet`: what a route has done before it answers, or before it writes the row.
* `created_by_call`: every new wallet of a run was written by such a call.
* `issued_of_reply`, `claims_of_payload`: a token with the payload of a challenge carries its claims.
-/

namespace TransactionSimulator

open Concurrent Prog Relational Texts

namespace OwnershipPlatform

variable (O : OwnershipPlatform)

def after (w : World) (es : List OwnershipEvent) : Config OwnershipOp OwnershipOp.Res JsError World :=
  Config.after (ownershipSystem O) ⟨w, []⟩ es

def moments (w : World) (es : List OwnershipEvent) : List OwnershipMoment :=
  Config.moments (ownershipSystem O) ⟨w, []⟩ es

/-- The calls of one program. -/
def callsOf (w : World) (es : List OwnershipEvent) (pid : Nat) : List OwnershipMoment :=
  Config.callsOf (ownershipSystem O) pid ⟨w, []⟩ es

end OwnershipPlatform

/-- The clock was read, at this time. -/
def ReadsClock (now : Date) (m : OwnershipMoment) : Prop :=
  m.op = .call .now ∧ m.state.clock = now

/-- The challenge that the service makes for a subject. -/
structure IssuedAs (O : OwnershipPlatform) (subject : OwnershipSubject) (issuedAt : Date)
    (claims : ChallengeClaims) (issued : IssuedChallenge) : Prop where
  made : ∃ addr nonce, normalizeWalletAddress O.deployment.processEnv subject.chainId subject.address = .ok addr ∧
    claims = subject.claims addr nonce issuedAt
  message : buildOwnershipMessage claims = .ok issued.message
  challenge : issued.challenge = WalletOwnershipService.sealed O claims

/-- What `assertOwnership` accepts at a time. -/
structure ProofAccepted (O : OwnershipPlatform) (subject : OwnershipSubject) (token signature : String) (now : Date)
    (claims : ChallengeClaims) : Prop where
  chain : blockchainForChainId O.deployment.processEnv subject.chainId = .ok (some .EVM)
  read : WalletOwnershipService.readClaims O token = .ok claims
  live : (now : Rat) < claims.exp
  tid : claims.tid = subject.tenantId
  uid : claims.uid = subject.userId
  cid : claims.cid = subject.chainId
  addr : normalizeWalletAddress O.deployment.processEnv subject.chainId subject.address = .ok claims.addr
  signed : ∃ message, buildOwnershipMessage claims = .ok message ∧
    O.lib.verifyMessage claims.addr message signature = .ok true

section Programs

variable (O : OwnershipPlatform)

theorem all_calling {P : OwnershipOp → Prop} {α : Type} {p : Program α} (h : All (fun o => P (.call o)) p) :
    All P (calling p) := by
  induction p with
  | pure a => exact trivial
  | throw e => exact trivial
  | call o k ih => exact ⟨h.1, fun r => ih r (h.2 r)⟩

/-- The row that `createWallet` writes. -/
def IsWalletOf (env : ProcessEnv) (data : WalletRequest) (address : String) (row : WalletCreateInput) : Prop :=
  row.tenantId = data.tenantId ∧ row.ownerId = data.ownerId ∧ row.chainId = data.chainId ∧
    normalizeWalletAddress env data.chainId address = .ok row.address

theorem creates_createWallet (env : ProcessEnv) (lib : AddressLibraries) (data : WalletRequest)
    (address : String) :
    All (fun o => ∀ row, o = .stmt (.walletCreate row) → isValidWalletAddress env lib data.chainId address = .ok true ∧
      IsWalletOf env data address row) (WalletService.createWallet env lib data address) := by
  refine All.ofExcept_bind ?_
  intro valid hvalid
  cases valid with
  | false => exact trivial
  | true =>
    refine All.bind (All.ofExcept_bind ?_) ?_
    · intro insensitive _
      split
      all_goals
        refine all_perform ?_
        intro row hrow
        cases hrow
    · intro found
      split
      · exact trivial
      · refine All.ofExcept_bind ?_
        intro normalized hnormalized
        refine all_perform ?_
        rintro row ⟨⟩
        exact ⟨hvalid, rfl, rfl, rfl, hnormalized⟩

/-- A custodial wallet is no wallet of a user. -/
theorem creates_custodial (env : ProcessEnv) (registry : BlockchainAdapterRegistry) (data : WalletRequest) :
    All (fun o => ∀ row, o = .stmt (.walletCreate row) → row.custodyType = .CUSTODIAL)
      (CustodialWalletService.createCustodialWallet env registry data) := by
  refine All.ofExcept_bind ?_
  intro blockchain _
  cases blockchain with
  | none => exact trivial
  | some blockchain =>
    refine All.ofExcept_bind ?_
    intro adapter _
    split
    · refine All.perform_bind ?_ ?_
      · intro row hrow
        cases hrow
      · intro address
        refine All.ofExcept_bind ?_
        intro normalized _
        refine all_perform ?_
        rintro row ⟨⟩
        rfl
    · exact trivial

/-- The other tasks create custodial wallets only. -/
theorem creates_prog (D : Deployment) {t : Task} (ht : ∀ data address, t ≠ .createWallet data address) :
    All (fun o => ∀ row, o = .stmt (.walletCreate row) → row.custodyType = .CUSTODIAL) (D.prog t) := by
  by_cases hcustodial : ∃ data, t = .createCustodialWallet data
  · obtain ⟨data, rfl⟩ := hcustodial
    exact All.bind (creates_custodial _ _ data) fun _ => trivial
  · refine (permitted_prog D t).mono ?_
    rintro o ho row rfl
    have hright : Right.wallet ∈ t.rights := ho.1
    cases t with
    | createWallet data address => exact absurd rfl (ht data address)
    | createCustodialWallet data => exact absurd ⟨data, rfl⟩ hcustodial
    | _ => simp [Task.rights] at hright

/-- **What a call of a task rests on.**  An answer carries a challenge of its subject.  A wallet is custodial, or
is written for a request whose proof was accepted, or by a registration without a route. -/
structure OwnershipOwn (t : OwnershipTask) (past : List OwnershipMoment) (m : OwnershipMoment) : Prop where
  replied : ∀ subject issued, m.op = .reply subject issued →
    ∃ asked ∈ past, ∃ issuedAt claims, ReadsClock issuedAt asked ∧ IssuedAs O subject issuedAt claims issued
  created : ∀ row, m.op = .call (.stmt (.walletCreate row)) →
    row.custodyType = .CUSTODIAL ∨ (∃ data address, t = .task (.createWallet data address)) ∨
      ∃ user body token signature, t = .postWallet user body ∧ body.challenge = some token ∧
        body.signature = some signature ∧
        IsWalletOf O.deployment.processEnv ⟨user.tenantId, user.id, body.chainId⟩ body.address row ∧
        ∃ checked ∈ past, ∃ now claims, ReadsClock now checked ∧
          ProofAccepted O ⟨user.tenantId, user.id, body.chainId, body.address⟩ token signature now claims

/-- A call that neither answers nor writes. -/
def OwnershipOp.Idle (o : OwnershipOp) : Prop := o = .call .now ∨ o = .randomBytes

theorem own_of_idle {t : OwnershipTask} {past : List OwnershipMoment} {m : OwnershipMoment} (h : m.op.Idle) :
    OwnershipOwn O t past m := by
  refine ⟨?_, ?_⟩
  · intro subject issued hop
    rcases h with h | h <;> (rw [h] at hop; cases hop)
  · intro row hop
    rcases h with h | h <;> (rw [h] at hop; cases hop)

theorem exec_ownershipNow (i : OwnershipInput) (w : World) :
    OwnershipOp.exec (.call .now) i w = (.ok w.clock, w) := rfl

theorem idle_issueChallenge (subject : OwnershipSubject) :
    All OwnershipOp.Idle (WalletOwnershipService.issueChallenge O subject) := by
  refine All.ofExcept_bind ?_
  intro blockchain _
  cases blockchain with
  | none => exact trivial
  | some blockchain =>
    refine All.ofExcept_bind ?_
    intro adapter _
    split
    · exact trivial
    · refine All.ofExcept_bind ?_
      intro valid _
      split
      · refine All.perform_bind (.inl rfl) ?_
        intro issuedAt
        refine All.ofExcept_bind ?_
        intro addr _
        exact All.perform_bind (.inr rfl) fun _ => all_ofExcept _
      · exact trivial

theorem challengeOf_eq_ok {claims : ChallengeClaims} {issued : IssuedChallenge}
    (h : WalletOwnershipService.challengeOf O claims = .ok issued) :
    buildOwnershipMessage claims = .ok issued.message ∧
      issued.challenge = WalletOwnershipService.sealed O claims := by
  rw [WalletOwnershipService.challengeOf] at h
  cases hmessage : buildOwnershipMessage claims with
  | error e =>
    rw [hmessage] at h
    cases h
  | ok message =>
    rw [hmessage] at h
    cases hexpires : isoText claims.exp with
    | error e =>
      rw [hexpires] at h
      cases h
    | ok expiresAt =>
      rw [hexpires] at h
      cases h
      exact ⟨rfl, rfl⟩

/-- **What `issueChallenge` returns** is a challenge of its subject. -/
theorem wp_issueChallenge (subject : OwnershipSubject) (w : World) :
    wp OwnershipOp.exec Anything Anything (WalletOwnershipService.issueChallenge O subject)
      (fun tr r _ => ∀ issued, r = .ok issued → ∃ asked ∈ tr, ∃ issuedAt claims,
        ReadsClock issuedAt asked ∧ IssuedAs O subject issuedAt claims issued) w := by
  refine wp_ofExcept_bind ?_ (fun _ _ _ h => by cases h)
  intro blockchain _
  cases blockchain with
  | none =>
    intro _ h
    cases h
  | some blockchain =>
    refine wp_ofExcept_bind ?_ (fun _ _ _ h => by cases h)
    intro adapter _
    split
    · intro _ h
      cases h
    · refine wp_ofExcept_bind ?_ (fun _ _ _ h => by cases h)
      intro valid _
      split
      · refine wp_bind.mpr (wp_perform.mpr ?_)
        intro w₁ _ i₁
        rw [exec_ownershipNow]
        refine ⟨trivial, ?_⟩
        refine wp_ofExcept_bind ?_ (fun _ _ _ h => by cases h)
        intro addr haddr
        refine wp_bind.mpr (wp_perform.mpr ?_)
        intro w₂ _ i₂
        refine ⟨trivial, wp_ofExcept.mpr ?_⟩
        intro issued hissued
        obtain ⟨hmessage, hchallenge⟩ := challengeOf_eq_ok O hissued
        exact ⟨⟨w₁, _, i₁⟩, by simp, w₁.clock, _, ⟨rfl, rfl⟩, ⟨⟨_, _, haddr, rfl⟩, hmessage, hchallenge⟩⟩
      · intro _ h
        cases h

/-- Only the adapter of the EVM chain verifies signatures. -/
theorem chain_of_verifyOwnership {blockchain : Blockchain} {adapter : BlockchainAdapter}
    {verify : (address message signature : String) → Bool}
    (hget : O.deployment.registry.get blockchain = .ok adapter)
    (hverify : adapter.verifyOwnership? O.lib = some verify) : blockchain = .EVM ∧
      verify = fun address message signature => (O.lib.verifyMessage address message signature).toOption.getD false := by
  have hchain : adapter.chain = blockchain := by
    rw [BlockchainAdapterRegistry.get] at hget
    split at hget
    · next found hfound =>
      rw [← Except.ok.inj hget]
      simpa using List.find?_some hfound
    · cases hget
  rw [BlockchainAdapter.verifyOwnership?, hchain] at hverify
  cases blockchain with
  | EVM => exact ⟨rfl, (Option.some.inj hverify).symm⟩
  | BITCOIN | SOLANA => cases hverify

theorem verified_of_toOption {result : Except JsError Bool} (h : result.toOption.getD false = true) :
    result = .ok true := by
  cases result with
  | error e => cases h
  | ok proven => exact congrArg Except.ok h

theorem idle_opened (token : String) : All OwnershipOp.Idle (WalletOwnershipService.opened O token) := by
  refine All.ofExcept_bind ?_
  intro claims _
  refine All.perform_bind (.inl rfl) ?_
  intro now
  split <;> exact trivial

theorem idle_checkProof (blockchain : Blockchain) (subject : OwnershipSubject)
    (proof : Option (String × String)) :
    All OwnershipOp.Idle (WalletOwnershipService.checkProof O blockchain subject proof) := by
  refine All.ofExcept_bind ?_
  intro adapter _
  split
  · exact trivial
  · cases proof with
    | none => exact trivial
    | some proof =>
      refine All.bind (idle_opened O _) ?_
      intro claims
      refine All.ofExcept_bind ?_
      intro addr _
      dsimp only
      split
      · refine All.ofExcept_bind ?_
        intro message _
        split <;> exact trivial
      · exact trivial

theorem idle_assertOwnership (subject : OwnershipSubject) (challenge signature : Option String) :
    All OwnershipOp.Idle (WalletOwnershipService.assertOwnership O subject challenge signature) := by
  refine All.ofExcept_bind ?_
  intro blockchain _
  cases blockchain with
  | none => exact trivial
  | some blockchain =>
    dsimp only
    generalize isOwnershipProofRequired O.deployment.processEnv = required
    refine All.ofExcept_bind ?_
    intro required _
    split
    · exact trivial
    · exact idle_checkProof O _ _ _

/-- **What `open` accepts** at the time that it reads. -/
theorem wp_opened (token : String) (w : World) :
    wp OwnershipOp.exec Anything Anything (WalletOwnershipService.opened O token)
      (fun tr r _ => ∀ claims, r = .ok claims → WalletOwnershipService.readClaims O token = .ok claims ∧
        ∃ checked ∈ tr, ∃ now : Date, ReadsClock now checked ∧ (now : Rat) < claims.exp) w := by
  refine wp_ofExcept_bind ?_ (fun _ _ _ h => by cases h)
  intro claims hclaims
  refine wp_bind.mpr (wp_perform.mpr ?_)
  intro w₁ _ i₁
  rw [exec_ownershipNow]
  refine ⟨trivial, ?_⟩
  dsimp only
  split
  · intro _ h
    cases h
  · next hlive =>
    rintro _ ⟨⟩
    exact ⟨hclaims, ⟨w₁, _, i₁⟩, by simp, w₁.clock, ⟨rfl, rfl⟩, Rat.not_le.mp hlive⟩

theorem wp_checkProof {blockchain : Blockchain} (subject : OwnershipSubject)
    (hchain : blockchainForChainId O.deployment.processEnv subject.chainId = .ok (some blockchain))
    (proof : Option (String × String)) (w : World) :
    wp OwnershipOp.exec Anything Anything (WalletOwnershipService.checkProof O blockchain subject proof)
      (fun tr r _ => r = .ok () → ∃ token signature, proof = some (token, signature) ∧
        ∃ checked ∈ tr, ∃ now claims, ReadsClock now checked ∧
          ProofAccepted O subject token signature now claims) w := by
  refine wp_ofExcept_bind ?_ (fun _ _ h => by cases h)
  intro adapter hadapter
  split
  · intro h
    cases h
  · next verify hverify =>
    obtain ⟨rfl, rfl⟩ := chain_of_verifyOwnership O hadapter hverify
    cases proof with
    | none =>
      intro h
      cases h
    | some proof =>
      obtain ⟨token, signature⟩ := proof
      refine wp_bind.mpr (wp_mono ?_ (wp_opened O token w))
      intro tr r w₁ hopened
      cases r with
      | error e =>
        intro h
        cases h
      | ok claims =>
        obtain ⟨hread, checked, hchecked, now, hnow, hlive⟩ := hopened claims rfl
        refine wp_ofExcept_bind ?_ (fun _ _ h => by cases h)
        intro addr haddr
        dsimp only
        split
        · next hmatches =>
          simp only [Bool.and_eq_true, decide_eq_true_eq] at hmatches
          obtain ⟨⟨⟨htid, huid⟩, hcid⟩, rfl⟩ := hmatches
          refine wp_ofExcept_bind ?_ (fun _ _ h => by cases h)
          intro message hmessage
          split
          · next hproven =>
            intro _
            refine ⟨token, signature, rfl, checked, by simp [hchecked], now, claims, hnow, ?_⟩
            refine ⟨hchain, hread, hlive, htid, huid, hcid, haddr, message, hmessage, ?_⟩
            exact verified_of_toOption hproven
          · intro h
            cases h
        · intro h
          cases h

/-- **What `assertOwnership` lets pass**, if proofs are required: an unknown chain, and an accepted proof. -/
theorem wp_assertOwnership (hrequired : isOwnershipProofRequired O.deployment.processEnv = .ok true)
    (subject : OwnershipSubject) (challenge signature : Option String) (w : World) :
    wp OwnershipOp.exec Anything Anything
      (WalletOwnershipService.assertOwnership O subject challenge signature)
      (fun tr r _ => r = .ok () →
        blockchainForChainId O.deployment.processEnv subject.chainId = .ok none ∨
          ∃ token given, challenge = some token ∧ signature = some given ∧
            ∃ checked ∈ tr, ∃ now claims, ReadsClock now checked ∧
              ProofAccepted O subject token given now claims) w := by
  refine wp_ofExcept_bind ?_ (fun _ _ h => by cases h)
  intro blockchain hblockchain
  cases blockchain with
  | none => exact fun _ => .inl hblockchain
  | some blockchain =>
    dsimp only
    rw [hrequired]
    refine wp_mono ?_ (wp_checkProof O subject hblockchain _ w)
    intro tr r w' haccepted hr
    obtain ⟨token, given, hproof, hchecked⟩ := haccepted hr
    refine .inr ⟨token, given, ?_, ?_, hchecked⟩
    all_goals
      cases challenge <;> cases signature <;> simp_all

/-- No address is valid on an unknown chain. -/
theorem invalid_of_unknown {env : ProcessEnv} {chainId : Nat} (lib : AddressLibraries) (address : String)
    (h : blockchainForChainId env chainId = .ok none) :
    isValidWalletAddress env lib chainId address ≠ .ok true := by
  intro hvalid
  cases hevm : isEvmChainId env chainId with
  | error e =>
    rw [isValidWalletAddress, hevm] at hvalid
    cases hvalid
  | ok evm =>
    rw [blockchainForChainId_of_evm hevm, Except.ok.injEq] at h
    cases evm with
    | true => cases h
    | false =>
      rw [if_neg Bool.false_ne_true] at h
      rw [isValidWalletAddress, hevm] at hvalid
      change (if chainId = BITCOIN_REGTEST_CHAIN_ID then _ else _) = _ at hvalid
      split at h
      · cases h
      · next hbitcoin =>
        split at h
        · cases h
        · next hsolana =>
          rw [if_neg hbitcoin, if_neg hsolana] at hvalid
          cases hvalid

theorem throughout_of_idle {t : OwnershipTask} {past tr : List OwnershipMoment}
    (h : ∀ m ∈ tr, m.op.Idle) : Throughout (OwnershipOwn O t) past tr :=
  throughout_of_forall fun m hm _ => own_of_idle O (h m hm)

theorem wp_postChallenge (t : OwnershipTask) (user : User) (chainId : Nat) (address : String) (w : World) :
    wp OwnershipOp.exec Anything Anything (postChallenge O user chainId address)
      (fun tr _ _ => Throughout (OwnershipOwn O t) [] tr) w := by
  refine wp_bind.mpr (wp_mono ?_ ((idle_issueChallenge O _).wp_trace (wp_issueChallenge O _ w)))
  rintro tr r w₁ ⟨hidle, hissued⟩
  cases r with
  | error e => exact throughout_of_idle O hidle
  | ok issued =>
    refine wp_perform.mpr ?_
    intro w₂ _ i₂
    refine ⟨trivial, throughout_append.mpr ⟨throughout_of_idle O hidle, ⟨?_, ?_⟩, trivial⟩⟩
    · rintro _ _ ⟨⟩
      exact hissued issued rfl
    · intro row h
      cases h

/-- **A registration writes its row behind an accepted proof.** -/
theorem wp_postWallet (hrequired : isOwnershipProofRequired O.deployment.processEnv = .ok true) (user : User)
    (body : CreateWalletBody) (w : World) :
    wp OwnershipOp.exec Anything Anything (postWallet O user body)
      (fun tr _ _ => Throughout (OwnershipOwn O (.postWallet user body)) [] tr) w := by
  refine wp_bind.mpr (wp_mono ?_ ((idle_assertOwnership O _ _ _).wp_trace
    (wp_assertOwnership O hrequired _ _ _ w)))
  rintro tr r w₁ ⟨hidle, haccepted⟩
  cases r with
  | error e => exact throughout_of_idle O hidle
  | ok =>
    have hcreates := all_calling (P := fun o => (∀ subject issued, o ≠ .reply subject issued) ∧
        ∀ row, o = .call (.stmt (.walletCreate row)) →
          isValidWalletAddress O.deployment.processEnv O.deployment.libraries body.chainId body.address = .ok true ∧
            IsWalletOf O.deployment.processEnv ⟨user.tenantId, user.id, body.chainId⟩ body.address row)
      ((creates_createWallet O.deployment.processEnv O.deployment.libraries
        ⟨user.tenantId, user.id, body.chainId⟩ body.address).mono fun o ho =>
          ⟨(fun _ _ h => by cases h), fun row h => ho row (OwnershipOp.call.inj h)⟩)
    refine wp_mono ?_ (hcreates.wp_trace (wp_any _ w₁))
    rintro tr' _ _ ⟨hcalls, -⟩
    refine throughout_append.mpr ⟨throughout_of_idle O hidle, throughout_of_since ?_⟩
    intro m hm since
    obtain ⟨hreply, hcreate⟩ := hcalls m hm
    refine ⟨fun _ _ h => absurd h (hreply _ _), ?_⟩
    intro row hrow
    obtain ⟨hvalid, hwallet⟩ := hcreate row hrow
    rcases haccepted rfl with hunknown | ⟨token, signature, htoken, hsignature, checked, hchecked, hproof⟩
    · exact absurd hvalid (invalid_of_unknown _ _ hunknown)
    · exact .inr (.inr ⟨user, body, token, signature, rfl, htoken, hsignature, hwallet, checked,
        by simp [hchecked], hproof⟩)

theorem wp_ownershipOwn (hrequired : isOwnershipProofRequired O.deployment.processEnv = .ok true)
    (t : OwnershipTask) (w : World) :
    wp (ownershipSystem O).exec Anything Anything ((ownershipSystem O).prog t)
      (fun tr _ _ => Throughout (OwnershipOwn O t) [] tr) w := by
  cases t with
  | postChallenge user chainId address => exact wp_postChallenge O _ user chainId address w
  | postWallet user body => exact wp_void (wp_postWallet O hrequired user body w)
  | task t =>
    by_cases ht : ∃ data address, t = .createWallet data address
    · obtain ⟨data, address, rfl⟩ := ht
      refine wp_mono ?_ (All.wp_trace (all_calling (P := fun o => ∀ subject issued, o ≠ .reply subject issued)
        ((all_true _).mono fun o _ => (fun _ _ h => by cases h))) (wp_any _ w))
      rintro tr _ _ ⟨hcalls, -⟩
      refine throughout_of_forall ?_
      intro m hm past
      exact ⟨fun _ _ h => absurd h (hcalls m hm _ _), fun _ _ => .inr (.inl ⟨data, address, rfl⟩)⟩
    · have hcustodial := creates_prog O.deployment (t := t) fun data address h => ht ⟨data, address, h⟩
      refine wp_mono ?_ (All.wp_trace (all_calling (P := fun o => (∀ subject issued, o ≠ .reply subject issued) ∧
          ∀ row, o = .call (.stmt (.walletCreate row)) → row.custodyType = .CUSTODIAL)
        (hcustodial.mono fun o ho => ⟨(fun _ _ h => by cases h), fun row h => ho row (OwnershipOp.call.inj h)⟩))
        (wp_any _ w))
      rintro tr _ _ ⟨hcalls, -⟩
      refine throughout_of_forall ?_
      intro m hm past
      exact ⟨fun _ _ h => absurd h ((hcalls m hm).1 _ _), fun row h => .inl ((hcalls m hm).2 row h)⟩

/-- The calls of the other processes keep to the rights of a task. -/
theorem permitted_ownership (t : OwnershipTask) :
    All (fun o => ∀ c, o = .call c → ∃ A, Permitted O.deployment.processEnv A c) ((ownershipSystem O).prog t) := by
  have hidle : ∀ o : OwnershipOp, o.Idle → ∀ c, o = .call c → ∃ A, Permitted O.deployment.processEnv A c := by
    rintro _ (rfl | rfl) c hc
    · cases hc
      exact ⟨[], trivial⟩
    · cases hc
  cases t with
  | postChallenge user chainId address =>
    refine All.bind ((idle_issueChallenge O _).mono hidle) ?_
    intro issued
    refine all_perform ?_
    intro c hc
    cases hc
  | postWallet user body =>
    refine All.bind (All.bind ((idle_assertOwnership O _ _ _).mono hidle) ?_) fun _ => trivial
    intro _
    refine all_calling ((permitted_createWallet (A := [.wallet]) (by simp) _ _ _).mono ?_)
    rintro o ho c ⟨⟩
    exact ⟨_, ho⟩
  | task t =>
    refine all_calling ((permitted_prog O.deployment t).mono ?_)
    rintro o ho c ⟨⟩
    exact ⟨_, ho⟩

end Programs

/-! ## The table of wallets -/

theorem wallets_of_other {env : ProcessEnv} {A : List Right} {o : Call} (h : Permitted env A o)
    (hother : ∀ row, o ≠ .stmt (.walletCreate row)) (i : Input) (w : World) :
    (exec o i w).2.db.wallets = w.db.wallets := by
  refine exec_snd (P := fun w w' => w'.db.wallets = w.db.wallets) rfl ?_
  cases o with
  | stmt s => exact Stmt.exec_wallets (fun data hs => hother data (by rw [hs])) _ _
  | transaction body =>
    obtain ⟨_, tx, result, rfl⟩ := h
    have hp := persistBody_spec tx result ⟨w.clock, i.uuid⟩ w.db
    simp only [Call.effect]
    generalize ConfirmationProcessor.persistBody tx result ⟨w.clock, i.uuid⟩ w.db = r at hp
    cases hp <;> rfl
  | queueTake =>
    simp only [Call.effect]
    split
    · split <;> rfl
    · rfl
  | getTransaction | submitTransfer | generateWallet | balanceOf | nativeBalance | processingAdd =>
    simp only [Call.effect]
    split <;> rfl
  | _ => rfl

/-- The wallet has the columns of the row. -/
structure Wallet.Of (x : Wallet) (row : WalletCreateInput) : Prop where
  tenantId : x.tenantId = row.tenantId
  ownerId : x.ownerId = row.ownerId
  chainId : x.chainId = row.chainId
  address : x.address = row.address
  custodyType : x.custodyType = row.custodyType

/-- **A new wallet was written by a call that creates one.** -/
theorem created_of_mem {env : ProcessEnv} {A : List Right} {o : Call} (h : Permitted env A o) (i : Input)
    (w : World) {x : Wallet} (hx : x ∈ (exec o i w).2.db.wallets.rows) :
    x ∈ w.db.wallets.rows ∨ ∃ row, o = .stmt (.walletCreate row) ∧ x.Of row := by
  by_cases hcreates : ∃ row, o = .stmt (.walletCreate row)
  · obtain ⟨row, rfl⟩ := hcreates
    revert hx
    refine exec_snd (P := fun w w' => x ∈ w'.db.wallets.rows → x ∈ w.db.wallets.rows ∨
      ∃ row', Call.stmt (.walletCreate row) = .stmt (.walletCreate row') ∧ x.Of row') .inl ?_
    intro hx
    rcases Db.mem_createWallet hx with hx | rfl
    · exact .inl hx
    · exact .inr ⟨row, rfl, rfl, rfl, rfl, rfl, rfl⟩
  · rw [wallets_of_other h (fun row hrow => hcreates ⟨row, hrow⟩)] at hx
    exact .inl hx

section Runs

variable {O : OwnershipPlatform} {w : World} {es : List OwnershipEvent}

/-- **A new wallet of a run was written by a call of one of its programs**, with what the program had
called before. -/
theorem created_by_call (hrequired : isOwnershipProofRequired O.deployment.processEnv = .ok true) {x : Wallet}
    (hx : x ∈ (O.after w es).world.db.wallets.rows) (hnew : x ∉ w.db.wallets.rows) :
    ∃ pid t past m post row, (spawned es)[pid]? = some t ∧ O.callsOf w es pid = past ++ m :: post ∧
      OwnershipOwn O t past m ∧ m.op = .call (.stmt (.walletCreate row)) ∧ x.Of row := by
  have hshift : ∀ d (w : World), decide (x ∈ ((ownershipSystem O).shift d w).db.wallets.rows) =
      decide (x ∈ w.db.wallets.rows) := by
    intro d w
    cases d <;> rfl
  have hchanged : decide (x ∈ (Config.after (ownershipSystem O) ⟨w, []⟩ es).world.db.wallets.rows) ≠
      decide (x ∈ w.db.wallets.rows) := by
    rw [decide_eq_false hnew]
    exact ne_of_eq_of_ne (decide_eq_true hx) (by decide)
  obtain ⟨m, hm, hbefore, hafter⟩ := changed_by_moment (S := ownershipSystem O) (c := ⟨w, []⟩)
    (f := fun w => decide (x ∈ w.db.wallets.rows)) hshift hchanged
  have hpermitted : ∀ c, m.op = .call c → ∃ A, Permitted O.deployment.processEnv A c := by
    obtain ⟨fs, e, gs, -, hmoment⟩ := Config.mem_moments_iff.mp hm
    exact all_moments (permitted_ownership O) w hmoment
  obtain ⟨pid, t, past, post, ht, hcalls, hown⟩ := exists_callsOf_of_mem (wp_ownershipOwn O hrequired) hm
  have hx' : x ∈ (OwnershipOp.exec m.op m.input m.state).2.db.wallets.rows :=
    of_decide_eq_true (hafter.trans (decide_eq_true hx))
  have hold : x ∉ m.state.db.wallets.rows := by
    intro hold
    exact hbefore ((decide_eq_true hold).trans (decide_eq_true hx).symm)
  cases hop : m.op with
  | call c =>
    obtain ⟨A, hA⟩ := hpermitted c hop
    rw [hop] at hx'
    rcases created_of_mem hA m.input.input m.state hx' with hx' | ⟨row, rfl, hof⟩
    · exact absurd hx' hold
    · exact ⟨pid, t, past, m, post, row, ht, hcalls, hown, hop, hof⟩
  | randomBytes | reply =>
    rw [hop] at hx'
    exact absurd hx' hold

end Runs

/-! ## Tokens -/

section Tokens

variable {O : OwnershipPlatform} {token payload tag : String} {claims : ChallengeClaims}

theorem dot_not_mem (bytes : List UInt8) : '.' ∉ (Bytes.toBase64url bytes).toList := by
  intro h
  exact absurd (Bytes.mem_alphabet64 h) (by decide)

/-- The two parts of a token. -/
theorem split_sealed (claims : ChallengeClaims) : Js.split (WalletOwnershipService.sealed O claims) '.' =
    [WalletOwnershipService.payloadOf O claims,
      Bytes.toBase64url (WalletOwnershipService.mac O (WalletOwnershipService.payloadOf O claims))] := by
  have hchars : (WalletOwnershipService.sealed O claims).toList =
      (WalletOwnershipService.payloadOf O claims).toList ++ '.' ::
        (Bytes.toBase64url (WalletOwnershipService.mac O (WalletOwnershipService.payloadOf O claims))).toList := by
    rw [WalletOwnershipService.sealed, String.toList_append, String.toList_append, List.append_assoc]
    rfl
  have hpayload : '.' ∉ (WalletOwnershipService.payloadOf O claims).toList := dot_not_mem _
  rw [Js.split, hchars, List.splitOn_append_cons_self_of_not_mem hpayload,
    List.splitOn_eq_singleton (dot_not_mem _)]
  simp

theorem ofJson?_json (subject : OwnershipSubject) (addr nonce : String) (issuedAt : Date) :
    ChallengeClaims.ofJson? (subject.claims addr nonce issuedAt).json =
      some (subject.claims addr nonce issuedAt) := by
  have hint : ((subject.chainId : Nat) : Rat).isInt = true := by simp [Rat.isInt]
  simp [ChallengeClaims.ofJson?, ChallengeClaims.json, OwnershipSubject.claims, Json.field?, Json.num?,
    Json.str?, hint]

/-- **The claims of a payload that was made here are read back.** -/
theorem readClaims_payloadOf (hlib : O.lib.Lawful) {subject : OwnershipSubject} {addr nonce : String}
    {issuedAt : Date} (hclaims : claims = subject.claims addr nonce issuedAt)
    (hlength : Js.length token ≤ MAX_CHALLENGE_LENGTH)
    (hsplit : Js.split token '.' = [WalletOwnershipService.payloadOf O claims, tag])
    (htag : O.lib.fromBase64url tag = WalletOwnershipService.mac O (WalletOwnershipService.payloadOf O claims)) :
    WalletOwnershipService.readClaims O token = .ok claims := by
  subst hclaims
  have htext : ∀ claims, WalletOwnershipService.textOf O
      (O.lib.fromBase64url (WalletOwnershipService.payloadOf O claims)) = O.lib.stringify claims.json := by
    intro claims
    rw [WalletOwnershipService.payloadOf, hlib.fromBase64url_written, WalletOwnershipService.textOf,
      Bytes.text?_utf8]
    rfl
  have hread := ofJson?_json subject addr nonce issuedAt
  rw [WalletOwnershipService.readClaims, if_neg (Nat.not_lt.mpr hlength), hsplit]
  dsimp only
  rw [htag, htext, hlib.parse_stringify]
  simp only [ne_eq, not_true_eq_false, decide_false, Bool.or_false, Bool.false_eq_true, if_false]
  rw [ChallengeClaims.json] at hread ⊢
  dsimp only
  rw [hread]

/-- What `open` checks before it reads the claims. -/
theorem split_of_readClaims (h : WalletOwnershipService.readClaims O token = .ok claims) :
    Js.length token ≤ MAX_CHALLENGE_LENGTH ∧ ∃ payload tag, Js.split token '.' = [payload, tag] ∧
      O.lib.fromBase64url tag = WalletOwnershipService.mac O payload := by
  rw [WalletOwnershipService.readClaims] at h
  split at h
  · cases h
  · next hlength =>
    split at h
    · next payload tag hsplit =>
      dsimp only at h
      split at h
      · cases h
      · next hmac =>
        refine ⟨Nat.not_lt.mp hlength, payload, tag, hsplit, ?_⟩
        simp only [Bool.or_eq_true, decide_eq_true_eq, not_or, ne_eq, not_not] at hmac
        exact hmac.2
    · cases h

end Tokens

/-! ## Challenges that were handed out -/

section HandedOut

variable {O : OwnershipPlatform} {w : World} {es : List OwnershipEvent}

/-- A challenge with this payload was handed out. -/
def HandedOut (O : OwnershipPlatform) (w : World) (es : List OwnershipEvent) (payload : String) : Prop :=
  ∃ m ∈ O.moments w es, ∃ subject issued tag, m.op = .reply subject issued ∧
    Js.split issued.challenge '.' = [payload, tag]

/-- Nobody else can compute the MAC: where the token of a request has the MAC of its payload, a challenge with
the payload was handed out before. -/
def MacUnforged (O : OwnershipPlatform) (w : World) (es : List OwnershipEvent) (body : CreateWalletBody) : Prop :=
  ∀ token payload tag, body.challenge = some token → Js.split token '.' = [payload, tag] →
    O.lib.fromBase64url tag = WalletOwnershipService.mac O payload → HandedOut O w es payload

/-- No request of the run has a forged MAC. -/
def MacsUnforged (O : OwnershipPlatform) (w : World) (es : List OwnershipEvent) : Prop :=
  ∀ fs gs user body, es = fs ++ .spawn (.postWallet user body) :: gs → MacUnforged O w fs body

/-- **What an answered challenge is**: it was made for its subject. -/
theorem issued_of_reply (hrequired : isOwnershipProofRequired O.deployment.processEnv = .ok true)
    {m : OwnershipMoment} (hm : m ∈ O.moments w es) {subject : OwnershipSubject} {issued : IssuedChallenge}
    (hop : m.op = .reply subject issued) :
    ∃ asked ∈ O.moments w es, ∃ issuedAt claims, ReadsClock issuedAt asked ∧
      IssuedAs O subject issuedAt claims issued := by
  obtain ⟨t, past, hpast, hown⟩ := exists_task_of_mem (wp_ownershipOwn O hrequired) hm
  obtain ⟨asked, hasked, hissued⟩ := hown.replied subject issued hop
  exact ⟨asked, hpast asked hasked, hissued⟩

/-- **A token with the payload of a challenge carries its claims.** -/
theorem claims_of_payload (hlib : O.lib.Lawful) {subject : OwnershipSubject} {issuedAt : Date}
    {claims claims' : ChallengeClaims} {issued : IssuedChallenge} {token payload tag tag' : String}
    (hissued : IssuedAs O subject issuedAt claims issued)
    (hsplit : Js.split issued.challenge '.' = [payload, tag]) (htoken : Js.split token '.' = [payload, tag'])
    (hread : WalletOwnershipService.readClaims O token = .ok claims') : claims' = claims := by
  obtain ⟨hlength, payload', tag'', hsplit', hmac⟩ := split_of_readClaims hread
  rw [htoken] at hsplit'
  obtain ⟨rfl, rfl⟩ : payload = payload' ∧ tag' = tag'' := by simpa using hsplit'
  rw [hissued.challenge, split_sealed] at hsplit
  obtain ⟨rfl, -⟩ : WalletOwnershipService.payloadOf O claims = payload ∧ _ := by simpa using hsplit
  obtain ⟨addr, nonce, -, hclaims⟩ := hissued.made
  rw [readClaims_payloadOf hlib hclaims hlength htoken hmac] at hread
  exact (Except.ok.inj hread).symm

end HandedOut

end TransactionSimulator
