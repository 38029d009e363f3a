import TransactionSimulator.Wallets.Custody

/-!
# What the signers recover

The secret of a custodial wallet goes through the string format of its chain, the layout of the envelope
and the table of custody keys, and the signer of the chain gets it back.

* `decryptLocal_envelope`: the envelope, both ways.
* `provisioned_of_mem`: what a custodial wallet was made of.
* `custodial_wallets`: what the signers recover, what they refuse, and which wallets have a key.
-/

namespace TransactionSimulator

open Concurrent Prog Relational

abbrev CustodyMoment := Moment CustodyOp CustodyInput CustodyWorld

/-! ## The envelope -/

section Envelope

variable {lib : CustodyLibraries} {env : ProcessEnv}

/-- The bytes that are stored for a secret. -/
def envelope (lib : CustodyLibraries) (key iv : List UInt8) (secret : String) : List UInt8 :=
  iv ++ (lib.encrypt key iv (Bytes.utf8 secret)).2 ++ (lib.encrypt key iv (Bytes.utf8 secret)).1

theorem parts_append {iv tag : List UInt8} (hiv : iv.length = 12) (htag : tag.length = 16)
    (ciphertext : List UInt8) :
    (iv ++ tag ++ ciphertext).take 12 = iv ∧ ((iv ++ tag ++ ciphertext).drop 12).take 16 = tag ∧
      (iv ++ tag ++ ciphertext).drop 28 = ciphertext := by
  have hlen : (iv ++ tag).length = 28 := by rw [List.length_append, hiv, htag]
  refine ⟨?_, ?_, ?_⟩
  · rw [List.append_assoc, ← hiv, List.take_left]
  · rw [List.append_assoc, ← hiv, List.drop_left, ← htag, List.take_left]
  · rw [← hlen, List.drop_left]

theorem textOf_utf8 (text : String) : textOf lib (Bytes.utf8 text) = text := by
  rw [textOf, Bytes.text?_utf8, Option.getD_some]

theorem textOf_nil : textOf lib [] = "" := textOf_utf8 ""

theorem decryptLocal_of_none {key blob : List UInt8} (hkey : getLocalMasterKey env = .ok key)
    (h : lib.decrypt key (blob.take 12) ((blob.drop 12).take 16) (blob.drop 28) = none) :
    decryptLocal lib env blob = .error (.error "Unsupported state or unable to authenticate data") := by
  rw [decryptLocal, hkey]
  show (Except.bind (.ok key) _ : Except JsError String) = _
  rw [Except.bind, h]
  rfl

theorem decryptLocal_of_some {key blob plaintext : List UInt8} (hkey : getLocalMasterKey env = .ok key)
    (h : lib.decrypt key (blob.take 12) ((blob.drop 12).take 16) (blob.drop 28) = some plaintext) :
    decryptLocal lib env blob = .ok (textOf lib plaintext) := by
  rw [decryptLocal, hkey]
  show (Except.bind (.ok key) _ : Except JsError String) = _
  rw [Except.bind, h]
  rfl

/-- **The envelope is opened again**, with the same master key. -/
theorem decryptLocal_envelope (hlib : lib.Lawful) {key iv : List UInt8} (hiv : iv.length = 12)
    (hkey : getLocalMasterKey env = .ok key) (secret : String) :
    decryptLocal lib env (envelope lib key iv secret) = .ok secret := by
  obtain ⟨htake, htag, hdrop⟩ := parts_append hiv (hlib.length_tag key iv (Bytes.utf8 secret))
    (lib.encrypt key iv (Bytes.utf8 secret)).1
  have hplain : lib.decrypt key ((envelope lib key iv secret).take 12)
      (((envelope lib key iv secret).drop 12).take 16) ((envelope lib key iv secret).drop 28) =
        some (Bytes.utf8 secret) := by
    rw [envelope, htake, htag, hdrop, hlib.decrypt_encrypt]
  rw [decryptLocal_of_some hkey hplain, textOf_utf8]

/-- What `decryptLocal` returns, the cipher has opened. -/
theorem decryptLocal_eq_ok {blob : List UInt8} {secret : String} (h : decryptLocal lib env blob = .ok secret) :
    ∃ key plaintext, getLocalMasterKey env = .ok key ∧ textOf lib plaintext = secret ∧
      lib.decrypt key (blob.take 12) ((blob.drop 12).take 16) (blob.drop 28) = some plaintext := by
  cases hkey : getLocalMasterKey env with
  | error e =>
    rw [decryptLocal, hkey] at h
    cases h
  | ok key =>
    cases hplain : lib.decrypt key (blob.take 12) ((blob.drop 12).take 16) (blob.drop 28) with
    | none =>
      rw [decryptLocal_of_none hkey hplain] at h
      cases h
    | some plaintext =>
      rw [decryptLocal_of_some hkey hplain] at h
      exact ⟨key, plaintext, rfl, Except.ok.inj h, hplain⟩

end Envelope

/-! ## The tables -/

section Rows

variable (lib : CustodyLibraries)

theorem create_rows (w : CustodyWorld) (row : StoredWallet) :
    (w.create row).2 = w ∨
      w.wallets.insert row = some (w.create row).2.wallets ∧ (w.create row).2.custodyKeys = w.custodyKeys := by
  rw [CustodyWorld.create]
  split
  · next t h => exact .inr ⟨h, rfl⟩
  · exact .inl rfl

theorem createCustodial_rows (w : CustodyWorld) (row : StoredWallet) (key : WalletCustodyKey)
    (hkey : key.walletId = row.id) :
    (w.createCustodial row key hkey).2 = w ∨
      w.wallets.insert row = some (w.createCustodial row key hkey).2.wallets ∧
        w.custodyKeys.insert key = some (w.createCustodial row key hkey).2.custodyKeys := by
  rw [CustodyWorld.createCustodial]
  split
  · next t t' h h' => exact .inr ⟨h, h'⟩
  · exact .inl rfl

/-- **What a call does to the tables**: nothing, or it adds a wallet, with or without a key. -/
inductive CustodyChange (m : CustodyMoment) (w' : CustodyWorld) : Prop
  | none (h : w' = m.state)
  | create (data : StoredWalletInput) (hop : m.op = .walletCreate data)
      (hwallet : m.state.wallets.insert (newWallet m.input.uuid data .EXTERNAL) = some w'.wallets)
      (hkeys : w'.custodyKeys = m.state.custodyKeys)
  | createCustodial (data : StoredWalletInput) (encryptedKey : List UInt8) (kmsKeyId : String)
      (hop : m.op = .walletCreateCustodial data encryptedKey kmsKeyId)
      (hwallet : m.state.wallets.insert (newWallet m.input.uuid data .CUSTODIAL) = some w'.wallets)
      (hkey : m.state.custodyKeys.insert ⟨m.input.keyUuid, m.input.uuid, encryptedKey, kmsKeyId⟩ =
        some w'.custodyKeys)

theorem CustodyOp.exec_snd (o : CustodyOp) (i : CustodyInput) (w : CustodyWorld) :
    (o.exec lib i w).2 = w ∨ (o.exec lib i w).2 = (o.effect lib i w).2 := by
  rw [CustodyOp.exec]
  split
  · exact .inr rfl
  · split
    · exact .inr rfl
    · exact .inl rfl

theorem exec_change (o : CustodyOp) (i : CustodyInput) (w : CustodyWorld) :
    CustodyChange ⟨w, o, i⟩ (o.exec lib i w).2 := by
  rcases CustodyOp.exec_snd lib o i w with h | h
  · exact .none h
  · rw [h]
    cases o with
    | walletCreate data =>
      rcases create_rows w (newWallet i.uuid data .EXTERNAL) with h | ⟨hwallet, hkeys⟩
      · exact .none h
      · exact .create data rfl hwallet hkeys
    | walletCreateCustodial data encryptedKey kmsKeyId =>
      rcases createCustodial_rows w (newWallet i.uuid data .CUSTODIAL)
        ⟨i.keyUuid, i.uuid, encryptedKey, kmsKeyId⟩ rfl with h | ⟨hwallet, hkey⟩
      · exact .none h
      · exact .createCustodial data encryptedKey kmsKeyId rfl hwallet hkey
    | randomBytes | generatePrivateKey | generateKeypair | encrypt | kmsEncrypt | kmsDecrypt |
      walletFindFirst | walletFindFirstWithCustody => exact .none rfl

variable {lib} {w : CustodyWorld} {x : StoredWallet}

theorem wallet_of_id {x' : StoredWallet} (hx : x ∈ w.wallets.rows) (hx' : x' ∈ w.wallets.rows)
    (hid : x.id = x'.id) : x = x' :=
  w.wallets.eq_of_mem_keys hx hx' (k := .id x.id) (by simp [StoredWallet.keys])
    (by simp [StoredWallet.keys, hid])

/-- The wallets that are custodial, and those that have a key. -/
def CustodyWorld.Keyed (w : CustodyWorld) : Prop :=
  ∀ x ∈ w.wallets.rows, x.custodyType = .CUSTODIAL ↔ (w.custodyKeys.get (.walletId x.id)).isSome

theorem get_key_of_free {id : String} (h : w.wallets.get (.id id) = none) :
    w.custodyKeys.get (.walletId id) = none := by
  rw [Table.get_eq_none_iff]
  intro k hk hmem
  have hid : k.walletId = id := by simpa [WalletCustodyKey.keys, eq_comm] using hmem
  have hsome := w.references k hk
  rw [hid, h] at hsome
  cases hsome

theorem exec_keyed (o : CustodyOp) (i : CustodyInput) (h : w.Keyed) : (o.exec lib i w).2.Keyed := by
  intro x hx
  cases exec_change lib o i w with
  | none heq =>
    rw [heq] at hx ⊢
    exact h x hx
  | create data hop hwallet hkeys =>
    rw [hkeys]
    rw [Table.insert_rows hwallet] at hx
    rcases List.mem_append.mp hx with hx | hx
    · exact h x hx
    · rw [List.mem_singleton.mp hx]
      have hfree := get_key_of_free (Table.get_of_insert hwallet (k := .id i.uuid)
        (by simp [StoredWallet.keys, newWallet]))
      rw [show (newWallet i.uuid data .EXTERNAL).id = i.uuid from rfl, hfree]
      exact ⟨nofun, nofun⟩
  | createCustodial data encryptedKey kmsKeyId hop hwallet hkey =>
    rw [Table.get_insert hkey]
    rw [Table.insert_rows hwallet] at hx
    rcases List.mem_append.mp hx with hx' | hx'
    · have hne : x.id ≠ i.uuid := by
        intro hid
        have hfree := Table.get_of_insert hwallet (k := .id i.uuid) (by simp [StoredWallet.keys, newWallet])
        exact (Table.get_eq_none_iff _).mp hfree x hx' (by simp [StoredWallet.keys, hid])
      rw [if_neg (by simpa [WalletCustodyKey.keys] using hne), Option.or_none]
      exact h x hx'
    · rw [List.mem_singleton.mp hx', if_pos (by simp [WalletCustodyKey.keys, newWallet])]
      simp [newWallet]

theorem tampered_keyed (t : Tampering) (h : w.Keyed) : (w.tampered t).Keyed := by
  intro x hx
  have hget : ((w.tampered t).custodyKeys.get (.walletId x.id)).isSome =
      (w.custodyKeys.get (.walletId x.id)).isSome := by
    simp only [CustodyWorld.tampered, Table.get, Table.written, List.find?_map, Option.isSome_map]
    congr 2
    funext k
    simp only [Function.comp]
    split <;> rfl
  rw [hget]
  exact h x hx

end Rows

/-! ## The calls of the programs -/

/-- The call generates a key. -/
def CustodyOp.generates : CustodyOp → Bool
  | generatePrivateKey | generateKeypair => true
  | _ => false

/-- The call generates a key of the chain, with this address and this secret. -/
inductive Generated (lib : CustodyLibraries) (g : CustodyMoment) : Blockchain → CustodialWalletMaterial → Prop
  | evm (address : String) (hop : g.op = .generatePrivateKey)
      (haddress : lib.privateKeyToAddress (lib.generatePrivateKey g.input.entropy) = .ok address) :
      Generated lib g .EVM ⟨address, lib.generatePrivateKey g.input.entropy⟩
  | solana (hop : g.op = .generateKeypair) :
      Generated lib g .SOLANA ⟨(lib.generateKeypair g.input.entropy).publicKey,
        Bytes.toHex (lib.generateKeypair g.input.entropy).secretKey⟩

section Calls

variable (P : CustodyPlatform) {es : List CustodyEvent}

/-- What a custodial wallet is made of: a key generated before, its normal address and its envelope. -/
def Provisioned (data : WalletRequest) (past : List CustodyMoment) (input : StoredWalletInput)
    (encryptedKey : List UInt8) : Prop :=
  ∃ blockchain material, blockchainForChainId P.env data.chainId = .ok (some blockchain) ∧
    (∃ g ∈ past, Generated P.lib g blockchain material) ∧
    (∃ key iv, getLocalMasterKey P.env = .ok key ∧ iv.length = 12 ∧
      encryptedKey = envelope P.lib key iv material.secret) ∧
    CustodyRepository.walletInput P.env data material.address = .ok input

/-- What the program of a task has called before a call. -/
structure CustodyOwn (t : CustodyTask) (past : List CustodyMoment) (m : CustodyMoment) : Prop where
  once : m.op.generates = true → ∀ m₀ ∈ past, m₀.op.generates = false
  iv : ∀ key iv plaintext, m.op = .encrypt key iv plaintext → iv.length = 12
  created : ∀ data, t = .createCustodialWallet data → ∀ input, m.op ≠ .walletCreate input
  provisioned : ∀ input encryptedKey kmsKeyId, m.op = .walletCreateCustodial input encryptedKey kmsKeyId →
    ∃ data, t = .createCustodialWallet data ∧ Provisioned P data past input encryptedKey

/-- A call that neither generates nor encrypts a key, and creates no custodial wallet. -/
structure CustodyOp.Outer (o : CustodyOp) : Prop where
  generates : o.generates = false
  encrypt : ∀ key iv plaintext, o ≠ .encrypt key iv plaintext
  createCustodial : ∀ input encryptedKey kmsKeyId, o ≠ .walletCreateCustodial input encryptedKey kmsKeyId

variable {P} in
theorem own_of_outer {t : CustodyTask} {past : List CustodyMoment} {m : CustodyMoment} (h : m.op.Outer)
    (hcreate : ∀ input, m.op ≠ .walletCreate input) : CustodyOwn P t past m :=
  ⟨fun hgen => absurd hgen (by simp [h.generates]), fun _ _ _ hop => absurd hop (h.encrypt _ _ _),
    fun _ _ => hcreate,
    fun _ _ _ hop => absurd hop (h.createCustodial _ _ _)⟩

theorem wp_outer {α : Type} {t : CustodyTask} (ht : ∀ data, t ≠ .createCustodialWallet data)
    {p : CustodyProgram α} (h : All CustodyOp.Outer p) (w : CustodyWorld) :
    wp P.system.exec Anything Anything p (fun tr _ _ => Throughout (CustodyOwn P t) [] tr) w := by
  refine wp_mono ?_ (All.wp_trace h (wp_any p w))
  rintro tr r w' ⟨houter, -⟩
  refine throughout_of_forall ?_
  intro m hm past
  exact ⟨fun hgen => absurd hgen (by simp [(houter m hm).generates]),
    fun _ _ _ hop => absurd hop ((houter m hm).encrypt _ _ _), fun data hdata => absurd hdata (ht data),
    fun _ _ _ hop => absurd hop ((houter m hm).createCustodial _ _ _)⟩

theorem outer_registerWallet (data : WalletRequest) (address : String) :
    All CustodyOp.Outer (registerWallet P.env P.addresses data address) := by
  have hfind : ∀ cond, (CustodyOp.walletFindFirst cond).Outer := fun _ => ⟨rfl, nofun, nofun⟩
  have hcreate : ∀ input, (CustodyOp.walletCreate input).Outer := fun _ => ⟨rfl, nofun, nofun⟩
  rw [registerWallet]
  cases isValidWalletAddress P.env P.addresses data.chainId address with
  | error e => exact trivial
  | ok valid =>
    cases valid with
    | false => exact trivial
    | true =>
      refine All.bind (p := CustodyRepository.findByAddress P.env data.chainId address) ?_ ?_
      · rw [CustodyRepository.findByAddress]
        cases isCaseInsensitiveWalletAddress P.env data.chainId address with
        | error e => exact trivial
        | ok insensitive =>
          cases insensitive with
          | false => exact all_perform (hfind _)
          | true => exact all_perform (hfind _)
      · intro found
        cases found with
        | some x => exact trivial
        | none =>
          rw [CustodyRepository.create]
          cases CustodyRepository.walletInput P.env data address with
          | error e => exact trivial
          | ok input => exact all_perform (hcreate input)

theorem outer_decryptedKey (walletId tenantId : String) :
    All CustodyOp.Outer (decryptedKey P.lib P.env walletId tenantId) := by
  have hfind : (CustodyOp.walletFindFirstWithCustody walletId tenantId).Outer := ⟨rfl, nofun, nofun⟩
  have hdecrypt : ∀ ciphertext keyId, (CustodyOp.kmsDecrypt ciphertext keyId).Outer :=
    fun _ _ => ⟨rfl, nofun, nofun⟩
  refine All.perform_bind hfind ?_
  intro found
  cases found with
  | none => exact trivial
  | some row =>
    dsimp only
    split
    · rw [decryptWalletKey]
      split
      · cases decryptLocal P.lib P.env _ <;> exact trivial
      · refine All.perform_bind (hdecrypt _ _) ?_
        intro plaintext
        cases plaintext <;> exact trivial
    · exact trivial

/-- **The generated key** of an adapter's chain. -/
theorem wp_createCustodialWallet {adapter : BlockchainAdapter} {p : CustodyProgram CustodialWalletMaterial}
    (h : adapter.createCustodialWallet P.lib = some p) (t : CustodyTask) (past : List CustodyMoment)
    (hpast : ∀ m₀ ∈ past, m₀.op.generates = false) (w : CustodyWorld) :
    wp P.system.exec Anything Anything p (fun tr r _ => Throughout (CustodyOwn P t) past tr ∧
      ∀ material, r = .ok material → ∃ g ∈ tr, Generated P.lib g adapter.chain material) w := by
  have hprivate : ∀ w i, CustodyOwn P t past ⟨w, .generatePrivateKey, i⟩ :=
    fun _ _ => ⟨fun _ => hpast, nofun, fun _ _ => nofun, nofun⟩
  have hkeypair : ∀ w i, CustodyOwn P t past ⟨w, .generateKeypair, i⟩ :=
    fun _ _ => ⟨fun _ => hpast, nofun, fun _ _ => nofun, nofun⟩
  rw [BlockchainAdapter.createCustodialWallet] at h
  split at h
  · split at h
    · next hchain =>
      cases h
      rw [hchain]
      refine wp_bind.mpr (wp_perform.mpr ?_)
      intro w₁ _ i
      refine ⟨trivial, ?_⟩
      cases haddress : P.lib.privateKeyToAddress (P.lib.generatePrivateKey i.entropy) with
      | error e =>
        simp only [CustodyPlatform.system, CustodyOp.exec, CustodyOp.inProcess, if_true, CustodyOp.effect,
          haddress]
        exact ⟨⟨hprivate w₁ i, trivial⟩, nofun⟩
      | ok address =>
        simp only [CustodyPlatform.system, CustodyOp.exec, CustodyOp.inProcess, if_true, CustodyOp.effect,
          haddress]
        refine ⟨⟨hprivate w₁ i, trivial⟩, ?_⟩
        rintro material ⟨⟩
        exact ⟨_, List.mem_singleton_self _, .evm address rfl haddress⟩
    · next hchain =>
      cases h
      rw [hchain]
      refine wp_bind.mpr (wp_perform.mpr ?_)
      intro w₁ _ i
      refine ⟨trivial, ⟨hkeypair w₁ i, trivial⟩, ?_⟩
      rintro material ⟨⟩
      exact ⟨_, List.mem_singleton_self _, .solana rfl⟩
    · cases h
  · cases h

/-- **The envelope of a secret**, under the local provider. -/
theorem wp_encryptWalletKey (hlocal : P.env "KMS_PROVIDER" = some "local") (secret kmsKeyId : String)
    (t : CustodyTask) (past : List CustodyMoment) (w : CustodyWorld) :
    wp P.system.exec Anything Anything (encryptWalletKey P.env secret kmsKeyId)
      (fun tr r _ => Throughout (CustodyOwn P t) past tr ∧ ∀ encryptedKey, r = .ok encryptedKey →
        ∃ key iv, getLocalMasterKey P.env = .ok key ∧ iv.length = 12 ∧
          encryptedKey = envelope P.lib key iv secret) w := by
  rw [encryptWalletKey, isLocalProvider, decide_eq_true hlocal, if_pos rfl]
  refine wp_bind.mpr (wp_perform.mpr ?_)
  intro w₁ _ i₁
  have hrandom : CustodyOwn P t past ⟨w₁, .randomBytes 12, i₁⟩ := own_of_outer ⟨rfl, nofun, nofun⟩ nofun
  have hlen : (List.ofFn fun k : Fin 12 => i₁.entropy k).length = 12 := List.length_ofFn
  refine ⟨trivial, ?_⟩
  dsimp only [CustodyPlatform.system, CustodyOp.exec, CustodyOp.inProcess, CustodyOp.effect]
  cases hkey : getLocalMasterKey P.env with
  | error e => exact ⟨⟨hrandom, trivial⟩, nofun⟩
  | ok key =>
    show wp _ _ _ (Prog.bind (perform (CustodyOp.encrypt key _ (Bytes.utf8 secret))) _) _ _
    refine wp_bind.mpr (wp_perform.mpr ?_)
    intro w₂ _ i₂
    refine ⟨trivial, ⟨hrandom, ⟨nofun, ?_, fun _ _ => nofun, nofun⟩, trivial⟩, ?_⟩
    · rintro key' iv plaintext ⟨⟩
      exact hlen
    · rintro encryptedKey ⟨⟩
      exact ⟨key, _, rfl, hlen, rfl⟩

/-- **A custodial wallet is made of what was generated for it.** -/
theorem wp_provisionWallet (hlocal : P.env "KMS_PROVIDER" = some "local") (data : WalletRequest)
    (w : CustodyWorld) :
    wp P.system.exec Anything Anything (provisionWallet P.lib P.env P.registry data)
      (fun tr _ _ => Throughout (CustodyOwn P (.createCustodialWallet data)) [] tr) w := by
  rw [provisionWallet]
  cases hblockchain : blockchainForChainId P.env data.chainId with
  | error e => exact trivial
  | ok found =>
    cases found with
    | none => exact trivial
    | some blockchain =>
      dsimp only [Prog.ofExcept, bind_eq, Prog.bind]
      cases hget : P.registry.get blockchain with
      | error e => exact trivial
      | ok adapter =>
        have hchain : adapter.chain = blockchain := by
          rw [BlockchainAdapterRegistry.get] at hget
          split at hget
          · next hfind =>
            cases hget
            simpa using List.find?_some hfind
          · cases hget
        dsimp only [Prog.ofExcept, Prog.bind]
        cases hcreate : adapter.createCustodialWallet P.lib with
        | none => exact trivial
        | some createCustodialWallet =>
          cases hkeyId : getWalletKmsKeyId P.env with
          | error e => exact trivial
          | ok kmsKeyId =>
            show wp _ _ _ (Prog.bind createCustodialWallet _) _ _
            refine wp_bind.mpr (wp_mono ?_ (wp_createCustodialWallet P hcreate
              (.createCustodialWallet data) [] (by simp) w))
            rintro tr r w₁ ⟨htr, hgenerated⟩
            cases r with
            | error e => exact htr
            | ok material =>
              obtain ⟨g, hg, hgenerated⟩ := hgenerated material rfl
              refine wp_bind.mpr (wp_mono ?_ (wp_encryptWalletKey P hlocal material.secret kmsKeyId
                (.createCustodialWallet data) tr w₁))
              rintro tr' r w₂ ⟨htr', hencrypted⟩
              have hboth := throughout_append.mpr ⟨htr, htr'⟩
              cases r with
              | error e => exact hboth
              | ok encryptedKey =>
                dsimp only
                rw [CustodyRepository.createCustodial]
                cases hinput : CustodyRepository.walletInput P.env data material.address with
                | error e =>
                  show Throughout _ _ (tr ++ (tr' ++ []))
                  rw [List.append_nil]
                  exact hboth
                | ok input =>
                  refine wp_perform.mpr ?_
                  intro w₃ _ i
                  refine ⟨trivial, ?_⟩
                  rw [← List.append_assoc]
                  refine throughout_append.mpr ⟨hboth, ⟨nofun, nofun, fun _ _ => nofun, ?_⟩, trivial⟩
                  rintro input' encryptedKey' kmsKeyId' ⟨⟩
                  refine ⟨data, rfl, blockchain, material, hblockchain, ?_, hencrypted _ rfl, hinput⟩
                  exact ⟨g, by simp [hg], hchain ▸ hgenerated⟩

theorem wp_custodyOwn (hlocal : P.env "KMS_PROVIDER" = some "local") (t : CustodyTask) (w : CustodyWorld) :
    wp P.system.exec Anything Anything (P.system.prog t)
      (fun tr _ _ => Throughout (CustodyOwn P t) [] tr) w := by
  cases t with
  | createWallet data address => exact wp_void (wp_outer P (fun _ h => by cases h) (outer_registerWallet P data address) w)
  | createCustodialWallet data => exact wp_void (wp_provisionWallet P hlocal data w)
  | signEvm walletId tenantId =>
    refine wp_void (wp_outer P (fun _ h => by cases h) ?_ w)
    exact (outer_decryptedKey P walletId tenantId).bind fun _ => by
      cases getWalletClient P.lib _ <;> exact trivial
  | signSolana walletId tenantId =>
    refine wp_void (wp_outer P (fun _ h => by cases h) ?_ w)
    exact (outer_decryptedKey P walletId tenantId).bind fun _ => by
      cases P.lib.fromSecretKey _ <;> exact trivial

end Calls

/-! ## The signers -/

section Signing

variable {lib : CustodyLibraries} {env : ProcessEnv} {w : CustodyWorld} {x : StoredWallet} {α : Type}

/-- What both signers do: they decrypt the stored key, and read it. -/
def signerOf (lib : CustodyLibraries) (env : ProcessEnv) (read : String → Except JsError α)
    (walletId tenantId : String) : CustodyProgram α :=
  (decryptedKey lib env walletId tenantId).bind fun secret => Prog.ofExcept (read secret)

theorem getWalletClientFor_eq (walletId tenantId : String) :
    SignerService.getWalletClientFor lib env walletId tenantId =
      signerOf lib env (getWalletClient lib) walletId tenantId := rfl

theorem getKeypairFor_eq (walletId tenantId : String) :
    SolanaSignerService.getKeypairFor lib env walletId tenantId =
      signerOf lib env (fun secret => lib.fromSecretKey (Bytes.ofHex secret)) walletId tenantId := rfl

theorem run_answer {r : Except JsError α} {inp : Nat → CustodyInput} :
    ((Prog.ofExcept r : CustodyProgram α).run (CustodyOp.exec lib) inp w).1 = r := by
  cases r <;> rfl

/-- **A signer gets back what the envelope of the stored key holds.** -/
theorem signerOf_run (hlocal : env "KMS_PROVIDER" = some "local") (hx : x ∈ w.wallets.rows)
    (htype : x.custodyType = .CUSTODIAL) {k : WalletCustodyKey} (hk : k ∈ w.custodyKeys.rows)
    (hwallet : k.walletId = x.id) {secret : String} (hsecret : decryptLocal lib env k.encryptedKey = .ok secret)
    (read : String → Except JsError α) {inp : Nat → CustodyInput} (hinp : (inp 0).fault = none) :
    ((signerOf lib env read x.id x.tenantId).run (CustodyOp.exec lib) inp w).1 = read secret := by
  have hfind : w.wallets.rows.find? (fun y => y.id = x.id && y.tenantId = x.tenantId) = some x := by
    cases hfound : w.wallets.rows.find? (fun y => y.id = x.id && y.tenantId = x.tenantId) with
    | none => simpa using List.find?_eq_none.mp hfound x hx
    | some y =>
      have hy := List.find?_some hfound
      rw [Bool.and_eq_true, decide_eq_true_eq] at hy
      rw [wallet_of_id (List.mem_of_find?_eq_some hfound) hx hy.1]
  have hget : w.custodyKeys.get (.walletId x.id) = some k :=
    (Table.get_eq_some_iff _).mpr ⟨hk, by simp [WalletCustodyKey.keys, hwallet]⟩
  have hexec : (CustodyOp.walletFindFirstWithCustody x.id x.tenantId).exec lib (inp 0) w =
      (.ok (some (x, some k)), w) := by
    simp only [CustodyOp.exec, CustodyOp.inProcess, hinp, CustodyOp.effect, hfind, Option.map_some, hget]
    rfl
  rw [signerOf, decryptedKey, CustodyRepository.findByIdForTenantWithCustody, bind_eq, bind_bind,
    (run_perform_bind hexec).1]
  dsimp only
  rw [htype]
  dsimp only
  rw [decryptWalletKey, isLocalProvider, decide_eq_true hlocal, if_pos rfl, hsecret]
  exact run_answer

/-- **A signer returns nothing else.** -/
theorem signerOf_eq_ok (hlocal : env "KMS_PROVIDER" = some "local") {read : String → Except JsError α}
    {walletId tenantId : String} {inp : Nat → CustodyInput} {a : α}
    (h : ((signerOf lib env read walletId tenantId).run (CustodyOp.exec lib) inp w).1 = .ok a) :
    ∃ y ∈ w.wallets.rows, y.id = walletId ∧ y.tenantId = tenantId ∧
      ∃ k ∈ w.custodyKeys.rows, k.walletId = walletId ∧
        ∃ secret, decryptLocal lib env k.encryptedKey = .ok secret ∧ read secret = .ok a := by
  rw [signerOf, decryptedKey, CustodyRepository.findByIdForTenantWithCustody, bind_eq, bind_bind] at h
  obtain ⟨found, hfound, h⟩ := run_perform_bind_ok h
  have hrow : (w.wallets.rows.find? fun y => y.id = walletId && y.tenantId = tenantId).map
      (fun y => (y, w.custodyKeys.get (.walletId y.id))) = found := by
    rw [CustodyOp.exec] at hfound
    split at hfound
    · exact Except.ok.inj hfound
    · cases hfound
  cases hfind : w.wallets.rows.find? (fun y => y.id = walletId && y.tenantId = tenantId) with
  | none =>
    rw [← hrow, hfind] at h
    cases h
  | some y =>
    rw [← hrow, hfind] at h
    have hy := List.find?_some hfind
    rw [Bool.and_eq_true, decide_eq_true_eq, decide_eq_true_eq] at hy
    refine ⟨y, List.mem_of_find?_eq_some hfind, hy.1, hy.2, ?_⟩
    dsimp only [Option.map_some] at h
    split at h
    · next key htype hkey =>
      obtain ⟨hmem, hkeys⟩ := (Table.get_eq_some_iff _).mp hkey
      refine ⟨key, hmem, by simpa [WalletCustodyKey.keys, hy.1, eq_comm] using hkeys, ?_⟩
      rw [decryptWalletKey, isLocalProvider, decide_eq_true hlocal, if_pos rfl] at h
      cases hsecret : decryptLocal lib env key.encryptedKey with
      | error e =>
        rw [hsecret] at h
        cases h
      | ok secret =>
        rw [hsecret] at h
        exact ⟨secret, rfl, run_answer.symm.trans h⟩
    · cases h

end Signing

/-! ## Runs -/

namespace CustodyPlatform

variable (P : CustodyPlatform)

def after (es : List CustodyEvent) : Config CustodyOp CustodyOp.Res JsError CustodyWorld :=
  Config.after P.system ⟨.empty, []⟩ es

def moments (es : List CustodyEvent) : List CustodyMoment := Config.moments P.system ⟨.empty, []⟩ es

/-- The calls of one program. -/
def calls (pid : Nat) (es : List CustodyEvent) : List CustodyMoment :=
  Config.callsOf P.system pid ⟨.empty, []⟩ es

/-- The call makes the wallet. -/
def Makes (m : CustodyMoment) (x : StoredWallet) : Prop :=
  x ∉ m.state.wallets.rows ∧ x ∈ (m.op.exec P.lib m.input m.state).2.wallets.rows

/-- The signer of the chain gets back the key that the call generated, and its normal address is that of the
wallet. -/
def Recovers (w : CustodyWorld) (x : StoredWallet) (tenantId : String) (g : CustodyMoment) :
    Blockchain → Prop
  | .EVM =>
    g.op = .generatePrivateKey ∧
      ∃ address, P.lib.privateKeyToAddress (P.lib.generatePrivateKey g.input.entropy) = .ok address ∧
        normalizeWalletAddress P.env x.chainId address = .ok x.address ∧
        ∀ inp : Nat → CustodyInput, (inp 0).fault = none →
          ((SignerService.getWalletClientFor P.lib P.env x.id tenantId).run (CustodyOp.exec P.lib) inp w).1 =
            .ok ⟨P.lib.generatePrivateKey g.input.entropy, address⟩
  | .SOLANA =>
    g.op = .generateKeypair ∧
      normalizeWalletAddress P.env x.chainId (P.lib.generateKeypair g.input.entropy).publicKey =
        .ok x.address ∧
      ∀ inp : Nat → CustodyInput, (inp 0).fault = none →
        ((SolanaSignerService.getKeypairFor P.lib P.env x.id tenantId).run (CustodyOp.exec P.lib) inp w).1 =
          .ok (P.lib.generateKeypair g.input.entropy)
  | .BITCOIN => False

/-- Neither signer returns a key. -/
def Refuses (w : CustodyWorld) (walletId tenantId : String) : Prop :=
  ∀ inp : Nat → CustodyInput,
    (∀ client, ((SignerService.getWalletClientFor P.lib P.env walletId tenantId).run
      (CustodyOp.exec P.lib) inp w).1 ≠ .ok client) ∧
    ∀ keypair, ((SolanaSignerService.getKeypairFor P.lib P.env walletId tenantId).run
      (CustodyOp.exec P.lib) inp w).1 ≠ .ok keypair

/-- Nobody writes to the key of the wallet. -/
def Untampered (es : List CustodyEvent) (walletId : String) : Prop :=
  ∀ t : Tampering, .shift t ∈ es → t.walletId ≠ walletId

/-- `encryptLocal` made these bytes. -/
def Produced (es : List CustodyEvent) (blob : List UInt8) : Prop :=
  ∃ m ∈ P.moments es, ∃ key iv plaintext, m.op = .encrypt key iv plaintext ∧
    blob = iv ++ (P.lib.encrypt key iv plaintext).2 ++ (P.lib.encrypt key iv plaintext).1

/-- The cipher is ideal: what it opens was encrypted in the run.  A tag may be cut short. -/
def Authentic (es : List CustodyEvent) (iv tag ciphertext : List UInt8) : Prop :=
  ∀ key plaintext, P.lib.decrypt key iv tag ciphertext = some plaintext →
    ∃ m ∈ P.moments es, m.op = .encrypt key iv plaintext ∧
      (P.lib.encrypt key iv plaintext).1 = ciphertext ∧ tag <+: (P.lib.encrypt key iv plaintext).2

end CustodyPlatform

section Runs

variable {P : CustodyPlatform} {es : List CustodyEvent} {x : StoredWallet} {m : CustodyMoment}

/-- **The custodial wallets are those with a key**, in every state that a run reaches. -/
theorem keyed_after (es : List CustodyEvent) : (P.after es).world.Keyed :=
  holds_after (fun o i _ h => exec_keyed o i h) (fun t _ _ h => tampered_keyed t h) nofun

theorem mem_wallets_exec (o : CustodyOp) (i : CustodyInput) {w : CustodyWorld} (hx : x ∈ w.wallets.rows) :
    x ∈ (o.exec P.lib i w).2.wallets.rows := by
  cases exec_change P.lib o i w with
  | none h =>
    rw [h]
    exact hx
  | create data hop hwallet hkeys =>
    rw [Table.insert_rows hwallet]
    exact List.mem_append_left _ hx
  | createCustodial data encryptedKey kmsKeyId hop hwallet hkey =>
    rw [Table.insert_rows hwallet]
    exact List.mem_append_left _ hx

theorem mem_keys_exec (o : CustodyOp) (i : CustodyInput) {w : CustodyWorld} {k : WalletCustodyKey}
    (hk : k ∈ w.custodyKeys.rows) : k ∈ (o.exec P.lib i w).2.custodyKeys.rows := by
  cases exec_change P.lib o i w with
  | none h =>
    rw [h]
    exact hk
  | create data hop hwallet hkeys =>
    rw [hkeys]
    exact hk
  | createCustodial data encryptedKey kmsKeyId hop hwallet hkey =>
    rw [Table.insert_rows hkey]
    exact List.mem_append_left _ hk

theorem mem_keys_tampered {w : CustodyWorld} {k : WalletCustodyKey} (hk : k ∈ w.custodyKeys.rows)
    {t : Tampering} (ht : t.walletId ≠ k.walletId) : k ∈ (w.tampered t).custodyKeys.rows :=
  Table.mem_written.mpr ⟨k, hk, by rw [if_neg (by simpa using Ne.symm ht)]⟩

/-- **What a custodial wallet was made of**, and the rows it was made as. -/
theorem made_custodial (hlocal : P.env "KMS_PROVIDER" = some "local") {pid : Nat} {data : WalletRequest}
    (ht : (spawned es)[pid]? = some (.createCustodialWallet data)) (hm : m ∈ P.calls pid es)
    (hmakes : P.Makes m x) :
    ∃ input encryptedKey kmsKeyId, x = newWallet m.input.uuid input .CUSTODIAL ∧
      Provisioned P data (P.calls pid es) input encryptedKey ∧
      ⟨m.input.keyUuid, m.input.uuid, encryptedKey, kmsKeyId⟩ ∈
        (m.op.exec P.lib m.input m.state).2.custodyKeys.rows := by
  have hcalls := throughout_callsOf (wp_custodyOwn P hlocal) (w := CustodyWorld.empty) ht
  obtain ⟨past, post, heq⟩ := List.append_of_mem hm
  have hown := hcalls.at heq
  obtain ⟨hnew, hx⟩ := hmakes
  cases exec_change P.lib m.op m.input m.state with
  | none h =>
    rw [h] at hx
    exact absurd hx hnew
  | create input hop hwallet hkeys => exact absurd hop (hown.created data rfl input)
  | createCustodial input encryptedKey kmsKeyId hop hwallet hkey =>
    refine ⟨input, encryptedKey, kmsKeyId, ?_, ?_, ?_⟩
    · rw [Table.insert_rows hwallet] at hx
      rcases List.mem_append.mp hx with hx | hx
      · exact absurd hx hnew
      · exact List.mem_singleton.mp hx
    · obtain ⟨data', hdata, blockchain, material, hblockchain, ⟨g, hg, hgenerated⟩, hrest⟩ :=
        hown.provisioned input encryptedKey kmsKeyId hop
      cases hdata
      exact ⟨blockchain, material, hblockchain, ⟨g, by rw [heq]; simp [hg], hgenerated⟩, hrest⟩
    · rw [Table.insert_rows hkey]
      exact List.mem_append_right _ (List.mem_singleton_self _)

/-- A program generates one key. -/
theorem eq_of_generates (hlocal : P.env "KMS_PROVIDER" = some "local") {pid : Nat} {t : CustodyTask}
    (ht : (spawned es)[pid]? = some t) {g : CustodyMoment} (hg : g ∈ P.calls pid es)
    (hgen : g.op.generates = true) : ∀ m ∈ P.calls pid es, m.op.generates = true → m = g := by
  have hcalls := throughout_callsOf (wp_custodyOwn P hlocal) (w := CustodyWorld.empty) ht
  intro m hm hgen'
  obtain ⟨past, post, heq⟩ := List.append_of_mem hg
  rw [show P.calls pid es = past ++ g :: post from heq] at hm
  rcases List.mem_append.mp hm with hm | hm
  · rw [(hcalls.at heq).once hgen m hm] at hgen'
    cases hgen'
  · rcases List.mem_cons.mp hm with rfl | hm
    · rfl
    · obtain ⟨between, post', rfl⟩ := List.append_of_mem hm
      have heq' : P.calls pid es = (past ++ g :: between) ++ m :: post' := by
        rw [show P.calls pid es = _ from heq, List.append_assoc, List.cons_append]
      rw [(hcalls.at heq').once hgen' g (by simp)] at hgen
      cases hgen

theorem walletInput_eq_ok {data : WalletRequest} {address : String} {input : StoredWalletInput}
    (h : CustodyRepository.walletInput P.env data address = .ok input) :
    input.tenantId = data.tenantId ∧ input.chainId = data.chainId ∧
      normalizeWalletAddress P.env data.chainId address = .ok input.address := by
  rw [CustodyRepository.walletInput] at h
  cases hnormal : normalizeWalletAddress P.env data.chainId address with
  | error e =>
    rw [hnormal] at h
    cases h
  | ok normalized =>
    rw [hnormal] at h
    cases h
    exact ⟨rfl, rfl, rfl⟩

theorem getWalletClient_eq {lib : CustodyLibraries} {secret address : String} (hne : secret ≠ "")
    (h : lib.privateKeyToAddress secret = .ok address) : getWalletClient lib secret = .ok ⟨secret, address⟩ := by
  rw [getWalletClient, if_neg hne, h]
  rfl

/-- **The signer of the chain gets back what was generated**, as long as nobody writes to the key. -/
theorem recovers_of_made (hlib : P.lib.Lawful) (hlocal : P.env "KMS_PROVIDER" = some "local") {pid : Nat}
    {data : WalletRequest} (ht : (spawned es)[pid]? = some (.createCustodialWallet data))
    (hm : m ∈ P.calls pid es) (hmakes : P.Makes m x) (huntampered : CustodyPlatform.Untampered es x.id) :
    ∃ blockchain, blockchainForChainId P.env data.chainId = .ok (some blockchain) ∧
      ∃ g ∈ P.calls pid es, (∀ g' ∈ P.calls pid es, g'.op.generates = true → g' = g) ∧
        P.Recovers (P.after es).world x data.tenantId g blockchain := by
  obtain ⟨input, encryptedKey, kmsKeyId, rfl, hprovisioned, hkey⟩ := made_custodial hlocal ht hm hmakes
  obtain ⟨blockchain, material, hblockchain, ⟨g, hg, hgenerated⟩, ⟨key, iv, hmaster, hiv, hblob⟩, hinput⟩ :=
    hprovisioned
  obtain ⟨htenant, hchain, hnormal⟩ := walletInput_eq_ok hinput
  have hmem := mem_moments_of_mem_callsOf hm
  -- both rows are there at the end
  have hx : newWallet m.input.uuid input .CUSTODIAL ∈ (P.after es).world.wallets.rows :=
    holds_of_moment (K := fun w => newWallet m.input.uuid input .CUSTODIAL ∈ w.wallets.rows)
      (fun o i _ h => mem_wallets_exec o i h) (fun _ _ _ h => h) hmem hmakes.2
  have hk : ⟨m.input.keyUuid, m.input.uuid, encryptedKey, kmsKeyId⟩ ∈
      (P.after es).world.custodyKeys.rows :=
    holds_of_moment
      (K := fun w => ⟨m.input.keyUuid, m.input.uuid, encryptedKey, kmsKeyId⟩ ∈ w.custodyKeys.rows)
      (fun o i _ h => mem_keys_exec o i h) (fun t ht _ h => mem_keys_tampered h (huntampered t ht)) hmem hkey
  have hsecret : decryptLocal P.lib P.env encryptedKey = .ok material.secret := by
    rw [hblob]
    exact decryptLocal_envelope hlib hiv hmaster material.secret
  have hgen : g.op.generates = true := by
    cases hgenerated with
    | evm address hop haddress => rw [hop, CustodyOp.generates]
    | solana hop => rw [hop, CustodyOp.generates]
  refine ⟨blockchain, hblockchain, g, hg, eq_of_generates hlocal ht hg hgen, ?_⟩
  rw [← htenant]
  rw [← hchain] at hnormal
  cases hgenerated with
  | evm address hop haddress =>
    refine ⟨hop, address, haddress, hnormal, ?_⟩
    intro inp hinp
    rw [getWalletClientFor_eq]
    have hrun := signerOf_run hlocal hx rfl hk rfl hsecret (getWalletClient P.lib) hinp
    exact hrun.trans (getWalletClient_eq (hlib.generatePrivateKey_ne g.input.entropy) haddress)
  | solana hop =>
    refine ⟨hop, hnormal, ?_⟩
    intro inp hinp
    rw [getKeypairFor_eq]
    have hrun := signerOf_run hlocal hx rfl hk rfl hsecret
      (fun secret => P.lib.fromSecretKey (Bytes.ofHex secret)) hinp
    refine hrun.trans ?_
    rw [Bytes.ofHex_toHex]
    exact hlib.fromSecretKey_generated g.input.entropy

/-- **No other tenant's signer returns a key.** -/
theorem refuses_other (hlocal : P.env "KMS_PROVIDER" = some "local") {w : CustodyWorld}
    (hx : x ∈ w.wallets.rows) {tenantId : String} (hne : tenantId ≠ x.tenantId) :
    P.Refuses w x.id tenantId := by
  have hother : ∀ y ∈ w.wallets.rows, y.id = x.id → y.tenantId ≠ tenantId := by
    intro y hy hid htenant
    rw [wallet_of_id hy hx hid] at htenant
    exact hne htenant.symm
  intro inp
  refine ⟨?_, ?_⟩
  · intro client h
    rw [getWalletClientFor_eq] at h
    obtain ⟨y, hy, hid, htenant, -⟩ := signerOf_eq_ok hlocal h
    exact hother y hy hid htenant
  · intro keypair h
    rw [getKeypairFor_eq] at h
    obtain ⟨y, hy, hid, htenant, -⟩ := signerOf_eq_ok hlocal h
    exact hother y hy hid htenant

/-- Of bytes that `encryptLocal` did not make, no secret is decrypted but an empty one: the ciphertext was
made for another tag, cut short here. -/
theorem eq_empty_of_unproduced (hlib : P.lib.Lawful) (hlocal : P.env "KMS_PROVIDER" = some "local")
    {blob : List UInt8} (hauth : P.Authentic es (blob.take 12) ((blob.drop 12).take 16) (blob.drop 28))
    (hnot : ¬ P.Produced es blob) {secret : String} (h : decryptLocal P.lib P.env blob = .ok secret) :
    secret = "" := by
  obtain ⟨key, plaintext, -, rfl, hplain⟩ := decryptLocal_eq_ok h
  obtain ⟨m, hm, hop, hciphertext, htag⟩ := hauth key plaintext hplain
  obtain ⟨t, past, -, hown⟩ := exists_task_of_mem (wp_custodyOwn P hlocal) hm
  have hiv : (blob.take 12).length = 12 := hown.iv _ _ _ hop
  rw [List.length_take] at hiv
  by_cases hlen : 28 ≤ blob.length
  · -- the whole tag is there
    have htagLen := hlib.length_tag key (blob.take 12) plaintext
    have hfull : (blob.drop 12).take 16 = (P.lib.encrypt key (blob.take 12) plaintext).2 :=
      htag.eq_of_length (by rw [htagLen, List.length_take, List.length_drop]; omega)
    refine absurd ⟨m, hm, key, blob.take 12, plaintext, hop, ?_⟩ hnot
    have hdrop : blob.drop 28 = (blob.drop 12).drop 16 := by rw [List.drop_drop]
    rw [← hfull, hciphertext, hdrop, List.append_assoc, List.take_append_drop, List.take_append_drop]
  · have hnil : plaintext.length = 0 := by
      rw [← hlib.length_ciphertext key (blob.take 12) plaintext, hciphertext, List.length_drop]
      omega
    rw [List.eq_nil_of_length_eq_zero hnil, textOf_nil]

/-- **No signer returns a key that `encryptLocal` has not encrypted.** -/
theorem refuses_unproduced (hlib : P.lib.Lawful) (hlocal : P.env "KMS_PROVIDER" = some "local")
    {walletId : String} {blob : List UInt8}
    (hblob : ∀ k ∈ (P.after es).world.custodyKeys.rows, k.walletId = walletId → k.encryptedKey = blob)
    (hauth : P.Authentic es (blob.take 12) ((blob.drop 12).take 16) (blob.drop 28))
    (hnot : ¬ P.Produced es blob) (tenantId : String) : P.Refuses (P.after es).world walletId tenantId := by
  intro inp
  refine ⟨?_, ?_⟩
  · intro client h
    rw [getWalletClientFor_eq] at h
    obtain ⟨y, -, -, -, k, hk, hwallet, secret, hsecret, hread⟩ := signerOf_eq_ok hlocal h
    rw [hblob k hk hwallet] at hsecret
    rw [eq_empty_of_unproduced hlib hlocal hauth hnot hsecret] at hread
    cases hread
  · intro keypair h
    rw [getKeypairFor_eq] at h
    obtain ⟨y, -, -, -, k, hk, hwallet, secret, hsecret, hread⟩ := signerOf_eq_ok hlocal h
    rw [hblob k hk hwallet] at hsecret
    rw [eq_empty_of_unproduced hlib hlocal hauth hnot hsecret] at hread
    exact hlib.fromSecretKey_nil keypair hread

/-- **Custodial wallets**, in every run under the local provider.  The signer of the chain gets back, for the
owning tenant, the key that was generated for the wallet, and the address of that key is the wallet's; it
returns no key to another tenant, nor one from bytes that `encryptLocal` did not make; and the custodial
wallets are those with a key. -/
theorem custodial_wallets (P : CustodyPlatform) (hlib : P.lib.Lawful)
    (hlocal : P.env "KMS_PROVIDER" = some "local") (es : List CustodyEvent) :
    (∀ pid data m x, (spawned es)[pid]? = some (.createCustodialWallet data) → m ∈ P.calls pid es →
      P.Makes m x →
      (CustodyPlatform.Untampered es x.id →
        ∃ blockchain, blockchainForChainId P.env data.chainId = .ok (some blockchain) ∧
          ∃ g ∈ P.calls pid es, (∀ g' ∈ P.calls pid es, g'.op.generates = true → g' = g) ∧
            P.Recovers (P.after es).world x data.tenantId g blockchain) ∧
      (∀ tenantId, tenantId ≠ data.tenantId → P.Refuses (P.after es).world x.id tenantId) ∧
      ∀ k ∈ (P.after es).world.custodyKeys.rows, k.walletId = x.id →
        P.Authentic es (k.encryptedKey.take 12) ((k.encryptedKey.drop 12).take 16) (k.encryptedKey.drop 28) →
        ¬ P.Produced es k.encryptedKey → ∀ tenantId, P.Refuses (P.after es).world x.id tenantId) ∧
    ∀ x ∈ (P.after es).world.wallets.rows, x.custodyType = .CUSTODIAL ↔
      ((P.after es).world.custodyKeys.get (.walletId x.id)).isSome := by
  refine ⟨?_, keyed_after es⟩
  intro pid data m x ht hm hmakes
  refine ⟨recovers_of_made hlib hlocal ht hm hmakes, ?_, ?_⟩
  · intro tenantId hne
    obtain ⟨input, encryptedKey, kmsKeyId, hx, hprovisioned, -⟩ := made_custodial hlocal ht hm hmakes
    obtain ⟨blockchain, material, -, -, -, hinput⟩ := hprovisioned
    have hmem : x ∈ (P.after es).world.wallets.rows :=
      holds_of_moment (K := fun w => x ∈ w.wallets.rows) (fun o i _ h => mem_wallets_exec o i h)
        (fun _ _ _ h => h) (mem_moments_of_mem_callsOf hm) hmakes.2
    refine refuses_other hlocal hmem ?_
    rw [hx]
    exact fun h => hne (h.trans (walletInput_eq_ok hinput).1)
  · intro k hk hwallet hauth hnot tenantId
    refine refuses_unproduced hlib hlocal ?_ hauth hnot tenantId
    intro k' hk' hwallet'
    have hsame : k' = k := (P.after es).world.custodyKeys.eq_of_mem_keys hk' hk (k := .walletId x.id)
      (by simp [WalletCustodyKey.keys, hwallet']) (by simp [WalletCustodyKey.keys, hwallet])
    rw [hsame]

theorem not_produced_nil (hlib : P.lib.Lawful) : ¬ P.Produced es [] := by
  rintro ⟨m, -, key, iv, plaintext, -, hnil⟩
  have hlen := congrArg List.length hnil
  rw [List.length_append, List.length_append, hlib.length_tag, List.length_nil] at hlen
  omega

end Runs

/-! ## A run -/

section Samples

/-- The sum of the bytes. -/
def checksum (bytes : List UInt8) : UInt8 := bytes.foldl (· + ·) 0

/-- The tag of a cipher that hides nothing. -/
def checksums (key iv ciphertext : List UInt8) : List UInt8 :=
  List.replicate 16 (checksum (key ++ iv ++ ciphertext))

/-- Libraries whose ciphertext is the plaintext.  The address of a private key is made of its digits, and a
secret key of Solana is its own public key. -/
def openLibraries : CustodyLibraries where
  encrypt key iv plaintext := (plaintext, checksums key iv plaintext)
  decrypt key iv tag ciphertext := if tag = checksums key iv ciphertext then some ciphertext else none
  generatePrivateKey entropy := "0x" ++ Bytes.toHex (List.ofFn fun k : Fin 32 => entropy k)
  privateKeyToAddress privateKey := .ok ("0xA" ++ String.ofList ((privateKey.toList.drop 2).take 39))
  generateKeypair entropy :=
    ⟨List.ofFn fun k : Fin 64 => entropy k, Bytes.toHex (List.ofFn fun k : Fin 64 => entropy k)⟩
  fromSecretKey
    | [] => .error (.error "bad secret key size")
    | b :: bytes => .ok ⟨b :: bytes, Bytes.toHex (b :: bytes)⟩
  replaced _ := "�"

theorem openLibraries_lawful : openLibraries.Lawful where
  length_ciphertext _ _ _ := rfl
  length_tag _ _ _ := List.length_replicate
  decrypt_encrypt _ _ _ := if_pos rfl
  generatePrivateKey_ne entropy h := by
    have hlen := congrArg String.length h
    rw [openLibraries, String.length_append, Bytes.length_toHex, List.length_ofFn] at hlen
    cases hlen
  fromSecretKey_generated entropy := by
    dsimp only [openLibraries]
    rw [List.ofFn_succ]
  fromSecretKey_nil _ := nofun

/-- The local provider with a master key. -/
def localEnv : ProcessEnv
  | "KMS_PROVIDER" => some "local"
  | "LOCAL_KMS_MASTER_KEY" => some (Bytes.toHex (List.replicate 32 7))
  | _ => none

def localPlatform : CustodyPlatform :=
  ⟨openLibraries, ⟨fun _ => true, fun _ => true⟩, localEnv, blockchainAdapterRegistry⟩

/-- Two wallets are created, one on each chain. -/
def provisioning : List CustodyEvent :=
  [.spawn (.createCustodialWallet ⟨"acme", "ann", 31337⟩), .step 0 { entropy := fun _ => 10 }, .step 0 {},
    .step 0 {}, .step 0 { uuid := "evm", keyUuid := "evm-key" },
    .spawn (.createCustodialWallet ⟨"acme", "ann", 900⟩), .step 1 { entropy := fun _ => 11 }, .step 1 {},
    .step 1 {}, .step 1 { uuid := "solana", keyUuid := "solana-key" }]

/-- Then the key of the first is wiped. -/
def wiping : List CustodyEvent := provisioning ++ [.shift ⟨"evm", []⟩]

/-- The wallet of this id, without others. -/
def madeBy (m : CustodyMoment) (id tenantId : String) : Bool :=
  m.state.wallets.rows.all (fun x => x.id ≠ id) &&
    (m.op.exec localPlatform.lib m.input m.state).2.wallets.rows.any fun x => x.id = id && x.tenantId = tenantId

theorem makes_of_madeBy {m : CustodyMoment} {id tenantId : String} (h : madeBy m id tenantId = true) :
    ∃ x, localPlatform.Makes m x ∧ x.id = id ∧ x.tenantId = tenantId := by
  rw [madeBy, Bool.and_eq_true] at h
  obtain ⟨x, hx, hid⟩ := List.any_eq_true.mp h.2
  rw [Bool.and_eq_true, decide_eq_true_eq, decide_eq_true_eq] at hid
  refine ⟨x, ⟨?_, hx⟩, hid⟩
  intro hold
  exact absurd hid.1 (by simpa using List.all_eq_true.mp h.1 x hold)

theorem provisioning_made :
    ((localPlatform.calls 0 provisioning).any fun m => madeBy m "evm" "acme") = true ∧
      ((localPlatform.calls 1 provisioning).any fun m => madeBy m "solana" "acme") = true := by
  decide +kernel

/-- Both signers get their keys back; when the key of one wallet has been wiped, its signer refuses. -/
theorem custodial_wallets_provisioned :
    (∃ x, x.id = "evm" ∧ ∃ g, localPlatform.Recovers (localPlatform.after provisioning).world x "acme" g .EVM) ∧
    (∃ x, x.id = "solana" ∧
      ∃ g, localPlatform.Recovers (localPlatform.after provisioning).world x "acme" g .SOLANA) ∧
    ∀ tenantId, localPlatform.Refuses (localPlatform.after wiping).world "evm" tenantId := by
  obtain ⟨hevm, hsolana⟩ := provisioning_made
  obtain ⟨m, hm, hmade⟩ := List.any_eq_true.mp hevm
  obtain ⟨x, hmakes, hid, htenant⟩ := makes_of_madeBy hmade
  obtain ⟨m', hm', hmade'⟩ := List.any_eq_true.mp hsolana
  obtain ⟨x', hmakes', hid', htenant'⟩ := makes_of_madeBy hmade'
  have hquiet : ∀ id, CustodyPlatform.Untampered provisioning id := by
    intro id t ht
    simp [provisioning] at ht
  refine ⟨⟨x, hid, ?_⟩, ⟨x', hid', ?_⟩, ?_⟩
  · obtain ⟨blockchain, hblockchain, g, -, -, hrecovers⟩ := ((custodial_wallets localPlatform
      openLibraries_lawful rfl provisioning).1 0 ⟨"acme", "ann", 31337⟩ m x rfl hm hmakes).1 (hquiet _)
    cases (show Except.ok (some Blockchain.EVM) = Except.ok (some blockchain) from hblockchain)
    exact ⟨g, hrecovers⟩
  · obtain ⟨blockchain, hblockchain, g, -, -, hrecovers⟩ := ((custodial_wallets localPlatform
      openLibraries_lawful rfl provisioning).1 1 ⟨"acme", "ann", 900⟩ m' x' rfl hm' hmakes').1 (hquiet _)
    cases (show Except.ok (some Blockchain.SOLANA) = Except.ok (some blockchain) from hblockchain)
    exact ⟨g, hrecovers⟩
  · have hcall : m ∈ localPlatform.calls 0 wiping := by
      rw [wiping, CustodyPlatform.calls, callsOf_append]
      exact List.mem_append_left _ hm
    have hwiped : ∃ k ∈ (localPlatform.after wiping).world.custodyKeys.rows,
        k.walletId = "evm" ∧ k.encryptedKey = [] := by decide +kernel
    obtain ⟨k, hk, hwallet, hblob⟩ := hwiped
    have htask : (spawned wiping)[0]? = some (.createCustodialWallet ⟨"acme", "ann", 31337⟩) := rfl
    have hkey : k.walletId = x.id := by rw [hwallet, hid]
    have hrefuses := ((custodial_wallets localPlatform openLibraries_lawful rfl wiping).1 0 _ m x htask hcall
      hmakes).2.2 k hk hkey
    rw [hblob, hid] at hrefuses
    refine hrefuses ?_ (not_produced_nil openLibraries_lawful)
    intro key plaintext h
    cases h

end Samples

end TransactionSimulator
