import TransactionSimulator.Auth.KeyStore

/-!
# Issued and revoked keys

A key is issued once, with a digest of its own, and only the owner's revocation changes what it is good
for.  So `verifyKey` accepts a text exactly as long as the key that was issued with it is live.

* `exec_rows`: what a call does to the rows of the keys.
* `issues_after`, `revocations_after`: the rows as a record of what the calls of a run issued and revoked.
* `verifyKey_iff`: the verdict on a text, among any other programs.
* `revocation`: which of the revocations of a key succeeds.
-/

namespace TransactionSimulator

open Concurrent Prog Relational

/-! ## What a call does to the keys -/

/-- What is fixed when a key is issued. -/
structure KeyIssue where
  keyId : String
  tenantId : String
  keyHash : String
  keyPrefix : String
  expiresAt : Option Date
  deriving DecidableEq, Repr

def ApiKey.issue (k : ApiKey) : KeyIssue := ⟨k.id, k.tenantId, k.keyHash, k.keyPrefix, k.expiresAt⟩

def KeyWorld.issues (w : KeyWorld) : List KeyIssue := w.apiKeys.rows.map ApiKey.issue

def KeyWorld.revoked (w : KeyWorld) (keyId : String) : Bool :=
  w.apiKeys.rows.any fun k => k.id = keyId && k.revokedAt.isSome

/-- The row that a call asks for. -/
def KeyOp.created : KeyOp → Option ApiKeyCreateInput
  | tenantCreate _ data => some data
  | apiKeyCreate _ data => some data
  | _ => none

abbrev KeyMoment := Moment KeyOp KeyInput KeyWorld

section Rows

variable {o : KeyOp} {i : KeyInput} {w : KeyWorld} {k : ApiKey} {keyId : String}

theorem KeyOp.exec_snd (o : KeyOp) (i : KeyInput) (w : KeyWorld) :
    (o.exec i w).2 = w ∨ (o.exec i w).2 = (o.effect i w).2 := by
  rw [KeyOp.exec]
  split
  · exact .inr rfl
  · split
    · exact .inr rfl
    · exact .inl rfl

theorem KeyOp.exec_of_fault_none (h : i.fault = none) (o : KeyOp) (w : KeyWorld) :
    o.exec i w = o.effect i w := by
  rw [KeyOp.exec, h, ite_self]

theorem KeyOp.exec_ok {a : o.Res} (h : (o.exec i w).1 = .ok a) : o.exec i w = o.effect i w := by
  rw [KeyOp.exec] at h ⊢
  split at h
  · rfl
  · cases h

theorem createApiKey_rows (w : KeyWorld) (id tenantId : String) (data : ApiKeyCreateInput) :
    (w.createApiKey id tenantId data).2 = w ∨
      (w.createApiKey id tenantId data).2.apiKeys.rows =
        w.apiKeys.rows ++ [newApiKey id tenantId w.clock data] := by
  rw [KeyWorld.createApiKey]
  split
  · split
    · next t h => exact .inr (Table.insert_rows h)
    · exact .inl rfl
  · exact .inl rfl

theorem createTenant_keys (w : KeyWorld) (id name : String) :
    (w.createTenant id name).2.apiKeys = w.apiKeys ∧ (w.createTenant id name).2.clock = w.clock := by
  rw [KeyWorld.createTenant]
  split <;> exact ⟨rfl, rfl⟩

theorem createTenantWithKey_rows (w : KeyWorld) (id name keyId : String) (data : ApiKeyCreateInput) :
    (w.createTenantWithKey id name keyId data).2.apiKeys.rows = w.apiKeys.rows ∨
      (w.createTenantWithKey id name keyId data).2.apiKeys.rows =
        w.apiKeys.rows ++ [newApiKey keyId id w.clock data] := by
  obtain ⟨hkeys, hclock⟩ := createTenant_keys w id name
  rw [KeyWorld.createTenantWithKey]
  split
  · exact .inl rfl
  · next tenant w' hw' =>
    rw [hw'] at hkeys hclock
    rcases createApiKey_rows w' keyId id data with h | h
    · split
      · exact .inl rfl
      · next w'' hw'' =>
        rw [hw''] at h
        left
        rw [show w'' = w' from h, hkeys]
    · split
      · exact .inl rfl
      · next w'' hw'' =>
        rw [hw''] at h
        right
        rw [h, hkeys, hclock]

/-- **What a call does to the keys**: nothing, or it adds one, notes its use, or revokes it. -/
theorem exec_rows (o : KeyOp) (i : KeyInput) (w : KeyWorld) :
    (o.exec i w).2.apiKeys.rows = w.apiKeys.rows ∨
    (∃ tenantId data, o.created = some data ∧
      (o.exec i w).2.apiKeys.rows = w.apiKeys.rows ++ [newApiKey i.keyUuid tenantId w.clock data]) ∨
    (∃ id d, o = .apiKeyTouch id d ∧ (o.exec i w).2.apiKeys.rows =
      w.apiKeys.written (fun k => k.id = id) fun k => { k with lastUsedAt := some d }) ∨
    ∃ id tenantId d, o = .apiKeyRevoke id tenantId d ∧ (o.exec i w).2.apiKeys.rows =
      w.apiKeys.written (fun k => k.id = id && k.tenantId = tenantId && k.revokedAt.isNone)
        fun k => { k with active := false, revokedAt := some d } := by
  rcases KeyOp.exec_snd o i w with h | h
  · exact .inl (by rw [h])
  · rw [h]
    cases o with
    | randomBytes | now | apiKeyFindActive | apiKeyFindFirst | auditLogCreate | logError =>
      exact .inl rfl
    | tenantCreate name data =>
      exact (createTenantWithKey_rows w i.uuid name i.keyUuid data).imp_right fun h =>
        .inl ⟨i.uuid, data, rfl, h⟩
    | apiKeyCreate tenantId data =>
      rcases createApiKey_rows w i.keyUuid tenantId data with h | h
      · exact .inl (congrArg (fun w => w.apiKeys.rows) h)
      · exact .inr (.inl ⟨tenantId, data, rfl, h⟩)
    | apiKeyTouch id d =>
      simp only [KeyOp.effect]
      split
      · exact .inl rfl
      · exact .inr (.inr (.inl ⟨id, d, rfl, rfl⟩))
    | apiKeyRevoke id tenantId d => exact .inr (.inr (.inr ⟨id, tenantId, d, rfl, rfl⟩))

/-- The issue that a call writes down, if it writes one. -/
def issuedBy (m : KeyMoment) : Option KeyIssue :=
  (m.op.exec m.input m.state).2.issues[m.state.issues.length]?

/-- The call revokes the key. -/
def revokes (keyId : String) (m : KeyMoment) : Bool :=
  !m.state.revoked keyId && (m.op.exec m.input m.state).2.revoked keyId

theorem map_issue_written (cond : ApiKey → Bool) {data : ApiKey → ApiKey}
    (hdata : ∀ k, (data k).issue = k.issue) :
    (w.apiKeys.written cond data).map ApiKey.issue = w.issues := by
  rw [Table.written, List.map_map, KeyWorld.issues]
  refine List.map_congr_left ?_
  intro k _
  simp only [Function.comp]
  split
  · exact hdata k
  · rfl

theorem exec_issues (o : KeyOp) (i : KeyInput) (w : KeyWorld) :
    (o.exec i w).2.issues = w.issues ++ (issuedBy ⟨w, o, i⟩).toList := by
  -- nothing or one issue is added, and the one is found behind the others
  have hadded : ∀ l : List KeyIssue, l.length ≤ 1 → (o.exec i w).2.issues = w.issues ++ l →
      (o.exec i w).2.issues = w.issues ++ (issuedBy ⟨w, o, i⟩).toList := by
    intro l hlen h
    rw [h, issuedBy, h]
    cases l with
    | nil => simp
    | cons a l =>
      cases l with
      | nil => simp
      | cons b l => simp at hlen
  rcases exec_rows o i w with h | ⟨tenantId, data, -, h⟩ | ⟨id, d, -, h⟩ | ⟨id, tenantId, d, -, h⟩
  · refine hadded [] (by simp) ?_
    rw [KeyWorld.issues, h, List.append_nil]
    rfl
  · refine hadded [(newApiKey i.keyUuid tenantId w.clock data).issue] (by simp) ?_
    rw [KeyWorld.issues, h, List.map_append]
    rfl
  · refine hadded [] (by simp) ?_
    rw [KeyWorld.issues, h, List.append_nil]
    exact map_issue_written _ fun _ => rfl
  · refine hadded [] (by simp) ?_
    rw [KeyWorld.issues, h, List.append_nil]
    exact map_issue_written _ fun _ => rfl

/-- Only the creation of a key adds an issue: that of the row it asks for. -/
theorem issue_of_issuedBy {m : KeyMoment} {x : KeyIssue} (h : issuedBy m = some x) :
    ∃ tenantId data, m.op.created = some data ∧
      x = (newApiKey m.input.keyUuid tenantId m.state.clock data).issue := by
  have hnone : (m.op.exec m.input m.state).2.issues = m.state.issues → False := by
    intro heq
    rw [issuedBy, heq] at h
    simp at h
  rcases exec_rows m.op m.input m.state with hrows | ⟨tenantId, data, hdata, hrows⟩ |
    ⟨id, d, -, hrows⟩ | ⟨id, tenantId, d, -, hrows⟩
  · exact absurd (congrArg (List.map ApiKey.issue) hrows) hnone
  · refine ⟨tenantId, data, hdata, ?_⟩
    rw [issuedBy, KeyWorld.issues, hrows, List.map_append, KeyWorld.issues] at h
    simpa using h.symm
  · refine absurd ?_ hnone
    rw [KeyWorld.issues, hrows]
    exact map_issue_written _ fun _ => rfl
  · refine absurd ?_ hnone
    rw [KeyWorld.issues, hrows]
    exact map_issue_written _ fun _ => rfl

/-- How the keys of a world may have changed in a later one: an issue stays, a revocation stays as it is. -/
def KeysEvolve (w w' : KeyWorld) : Prop :=
  ∀ k ∈ w.apiKeys.rows, ∃ k' ∈ w'.apiKeys.rows, k'.issue = k.issue ∧
    (k.revokedAt.isSome → k'.revokedAt = k.revokedAt)

theorem KeysEvolve.refl (w : KeyWorld) : KeysEvolve w w := fun k hk => ⟨k, hk, rfl, fun _ => rfl⟩

theorem KeysEvolve.trans {w₁ w₂ w₃ : KeyWorld} (h : KeysEvolve w₁ w₂) (h' : KeysEvolve w₂ w₃) :
    KeysEvolve w₁ w₃ := by
  intro k hk
  obtain ⟨k₂, hk₂, hissue, hrevoked⟩ := h k hk
  obtain ⟨k₃, hk₃, hissue', hrevoked'⟩ := h' k₂ hk₂
  refine ⟨k₃, hk₃, hissue'.trans hissue, ?_⟩
  intro hsome
  rw [← hrevoked hsome]
  exact hrevoked' (by rw [hrevoked hsome]; exact hsome)

theorem evolves_of_rows {w' : KeyWorld} (h : w'.apiKeys.rows = w.apiKeys.rows) : KeysEvolve w w' := by
  intro k hk
  exact ⟨k, by rw [h]; exact hk, rfl, fun _ => rfl⟩

theorem evolves_of_written {w' : KeyWorld} {cond : ApiKey → Bool} {data : ApiKey → ApiKey}
    (h : w'.apiKeys.rows = w.apiKeys.written cond data) (hdata : ∀ k, (data k).issue = k.issue)
    (hrevoked : ∀ k, cond k = true → k.revokedAt.isSome → (data k).revokedAt = k.revokedAt) :
    KeysEvolve w w' := by
  intro k hk
  refine ⟨if cond k then data k else k, by rw [h]; exact Table.mem_written.mpr ⟨k, hk, rfl⟩, ?_, ?_⟩
  · split
    · exact hdata k
    · rfl
  · intro hsome
    split
    · next hcond => exact hrevoked k hcond hsome
    · rfl

theorem exec_evolves (o : KeyOp) (i : KeyInput) (w : KeyWorld) : KeysEvolve w (o.exec i w).2 := by
  rcases exec_rows o i w with h | ⟨tenantId, data, -, h⟩ | ⟨id, d, -, h⟩ | ⟨id, tenantId, d, -, h⟩
  · exact evolves_of_rows h
  · intro k hk
    exact ⟨k, by rw [h]; exact List.mem_append_left _ hk, rfl, fun _ => rfl⟩
  · exact evolves_of_written h (fun _ => rfl) fun _ _ _ => rfl
  · refine evolves_of_written h (fun _ => rfl) ?_
    intro k hcond hsome
    rw [Bool.and_eq_true, Option.isNone_iff_eq_none] at hcond
    rw [hcond.2] at hsome
    cases hsome

theorem revoked_iff : w.revoked keyId = true ↔
    ∃ k ∈ w.apiKeys.rows, k.id = keyId ∧ k.revokedAt.isSome = true := by
  simp [KeyWorld.revoked]

theorem KeysEvolve.revoked {w' : KeyWorld} (h : KeysEvolve w w') (hrevoked : w.revoked keyId = true) :
    w'.revoked keyId = true := by
  obtain ⟨k, hk, hid, hsome⟩ := revoked_iff.mp hrevoked
  obtain ⟨k', hk', hissue, hkept⟩ := h k hk
  refine revoked_iff.mpr ⟨k', hk', ?_, by rw [hkept hsome]; exact hsome⟩
  rw [← hid]
  exact congrArg KeyIssue.keyId hissue

theorem exec_revoked (o : KeyOp) (i : KeyInput) (w : KeyWorld) (keyId : String) :
    ((o.exec i w).2.revoked keyId).toNat =
      (w.revoked keyId).toNat + (revokes keyId ⟨w, o, i⟩).toNat := by
  rw [revokes]
  cases hw : w.revoked keyId with
  | false => simp
  | true => simp [(exec_evolves o i w).revoked hw]

theorem key_of_id {k' : ApiKey} (hk : k ∈ w.apiKeys.rows) (hk' : k' ∈ w.apiKeys.rows)
    (hid : k.id = k'.id) : k = k' :=
  w.apiKeys.eq_of_mem_keys hk hk' (k := .id k.id) (by simp [ApiKey.keys]) (by simp [ApiKey.keys, hid])

theorem revokedAt_of_revoked (hk : k ∈ w.apiKeys.rows) :
    w.revoked k.id = k.revokedAt.isSome := by
  cases hsome : k.revokedAt.isSome with
  | true => exact revoked_iff.mpr ⟨k, hk, rfl, hsome⟩
  | false =>
    rw [Bool.eq_false_iff]
    intro h
    obtain ⟨k', hk', hid, hsome'⟩ := revoked_iff.mp h
    rw [key_of_id hk' hk hid, hsome] at hsome'
    cases hsome'

/-- A revoked key is not active, and no other. -/
def KeyWorld.Sound (w : KeyWorld) : Prop := ∀ k ∈ w.apiKeys.rows, k.active = k.revokedAt.isNone

theorem exec_sound (o : KeyOp) (i : KeyInput) (h : w.Sound) : (o.exec i w).2.Sound := by
  intro k hk
  rcases exec_rows o i w with hrows | ⟨tenantId, data, -, hrows⟩ | ⟨id, d, -, hrows⟩ |
    ⟨id, tenantId, d, -, hrows⟩
  · exact h k (hrows ▸ hk)
  · rw [hrows] at hk
    rcases List.mem_append.mp hk with hk | hk
    · exact h k hk
    · rw [List.mem_singleton.mp hk]
      rfl
  · rw [hrows] at hk
    obtain ⟨s, hs, rfl⟩ := Table.mem_written.mp hk
    split <;> exact h s hs
  · rw [hrows] at hk
    obtain ⟨s, hs, rfl⟩ := Table.mem_written.mp hk
    split
    · rfl
    · exact h s hs

end Rows

/-! ## Runs -/

section Runs

variable (sha256 : String → List UInt8) {es : List KeyEvent}

/-- One step of a run. -/
def KeyStep (w w' : KeyWorld) : Prop := KeysEvolve w w' ∧ (w.Sound → w'.Sound)

theorem respects_keyStep : Respects (keySystem sha256) KeyStep KeyStep KeyWorld.Sound fun _ => True where
  refl w := ⟨.refl w, id⟩
  sub _ _ h := h
  keeps _ _ hw h := h.2 hw
  task _ _ w _ := All.safe (P := fun _ => True)
    (fun o _ i _ => ⟨exec_evolves o i _, exec_sound o i⟩) (all_true _) w
  shift _ _ _ _ := ⟨evolves_of_rows rfl, id⟩

theorem evolves_of_path {w w' : KeyWorld} (h : Relation.ReflTransGen KeyStep w w') : KeysEvolve w w' := by
  induction h with
  | refl => exact .refl _
  | tail _ hstep ih => exact ih.trans hstep.1

theorem keys_after {c : Config KeyOp KeyOp.Res JsError KeyWorld}
    (hc : Healthy (keySystem sha256) KeyStep KeyStep KeyWorld.Sound c) (es : List KeyEvent) :
    KeysEvolve c.world (c.after (keySystem sha256) es).world ∧
      Healthy (keySystem sha256) KeyStep KeyStep KeyWorld.Sound (c.after (keySystem sha256) es) := by
  obtain ⟨hpath, hafter⟩ := hc.after (respects_keyStep sha256) fun e (_ : e ∈ es) => trivial
  exact ⟨evolves_of_path hpath, hafter⟩

/-- The run of a platform from its first day. -/
def keysAfter (es : List KeyEvent) : Config KeyOp KeyOp.Res JsError KeyWorld :=
  KeyWorld.empty.start.after (keySystem sha256) es

/-- The calls of that run. -/
def keyMoments (es : List KeyEvent) : List KeyMoment :=
  KeyWorld.empty.start.moments (keySystem sha256) es

theorem sound_empty : KeyWorld.empty.Sound := by simp [KeyWorld.Sound, KeyWorld.empty, Table.empty]

theorem healthy_keysAfter (es : List KeyEvent) :
    Healthy (keySystem sha256) KeyStep KeyStep KeyWorld.Sound (keysAfter sha256 es) := by
  exact (keys_after sha256 (.init sound_empty) es).2

/-- **The issues of a run**, in the order of its calls. -/
theorem issues_after (es : List KeyEvent) :
    (keysAfter sha256 es).world.issues = (keyMoments sha256 es).filterMap issuedBy := by
  have h : (KeyWorld.empty.start.after (keySystem sha256) es).world.issues =
      KeyWorld.empty.issues ++ (KeyWorld.empty.start.moments (keySystem sha256) es).filterMap issuedBy :=
    log_after exec_issues fun _ _ => rfl
  exact h

/-- **The revocations of a run**: a key is revoked exactly if one of the calls revoked it, and at most one
does. -/
theorem revocations_after (es : List KeyEvent) (keyId : String) :
    (keyMoments sha256 es).countP (revokes keyId) =
      ((keysAfter sha256 es).world.revoked keyId).toNat := by
  have h := measure_after (S := keySystem sha256) (c := KeyWorld.empty.start) es
    (f := fun w => (w.revoked keyId).toNat) (P := revokes keyId)
    (fun m _ => exec_revoked m.op m.input m.state keyId) fun _ _ => rfl
  refine Eq.trans ?_ h.symm
  simp [keyMoments, KeyWorld.start, KeyWorld.empty, KeyWorld.revoked, Table.empty]

/-! ### What each program calls -/

/-- The tasks that issue keys. -/
def KeyTask.issuing : KeyTask → Bool
  | .createTenant _ => true
  | .createKey _ _ => true
  | _ => false

/-- What a program of the task calls.  It takes random bytes first, if it takes any, and asks for a row
with the digest and the prefix of the key that they spell. -/
structure Own (t : KeyTask) (past : List KeyMoment) (m : KeyMoment) : Prop where
  random : m.op = .randomBytes → past = []
  created : ∀ data, m.op.created = some data → t.issuing = true ∧ ∃ m₀, past = [m₀] ∧
    m₀.op = .randomBytes ∧ data.keyHash = hashToken sha256 (rawKeyOf m₀.input.bytes) ∧
    data.keyPrefix = keyPrefixOf (rawKeyOf m₀.input.bytes)
  touched : ∀ id d, m.op = .apiKeyTouch id d → ∃ rawKey, t = .verifyKey rawKey
  revoked : ∀ id tenantId d, m.op = .apiKeyRevoke id tenantId d → t = .revokeKey tenantId id

/-- The calls that have nothing to do with the issue of a key. -/
structure KeyTask.Calls (t : KeyTask) (o : KeyOp) : Prop where
  random : o ≠ .randomBytes
  created : o.created = none
  touched : ∀ id d, o = .apiKeyTouch id d → ∃ rawKey, t = .verifyKey rawKey
  revoked : ∀ id tenantId d, o = .apiKeyRevoke id tenantId d → t = .revokeKey tenantId id

theorem calls_record (t : KeyTask) (entry : AuditEntry) :
    All t.Calls (AuditLogService.record entry) := by
  refine All.tryCatch (all_perform ⟨nofun, rfl, nofun, nofun⟩) ?_
  intro _
  exact all_perform ⟨nofun, rfl, nofun, nofun⟩

theorem calls_verifyKey (rawKey : String) :
    All (KeyTask.verifyKey rawKey).Calls (ApiKeyService.verifyKey sha256 rawKey) := by
  rw [ApiKeyService.verifyKey]
  split
  · exact trivial
  · refine All.bind (All.bind (all_perform ⟨nofun, rfl, nofun, nofun⟩) ?_) ?_
    · intro now
      exact all_perform ⟨nofun, rfl, nofun, nofun⟩
    · intro candidates
      split
      · exact trivial
      · refine All.bind (All.bind (all_perform ⟨nofun, rfl, nofun, nofun⟩) ?_) fun _ => trivial
        intro now
        exact all_perform ⟨nofun, rfl, fun _ _ _ => ⟨rawKey, rfl⟩, nofun⟩

theorem calls_revokeKey (tenantId keyId : String) :
    All (KeyTask.revokeKey tenantId keyId).Calls (ApiKeyService.revokeKey tenantId keyId) := by
  rw [ApiKeyService.revokeKey]
  refine All.bind (all_perform ⟨nofun, rfl, nofun, nofun⟩) ?_
  intro existing
  split
  · exact trivial
  · refine All.bind (All.bind (all_perform ⟨nofun, rfl, nofun, nofun⟩) ?_) ?_
    · intro now
      refine All.bind (all_perform ⟨nofun, rfl, nofun, ?_⟩) fun _ => trivial
      rintro id tenantId' d ⟨⟩
      rfl
    · intro revoked
      split
      · exact calls_record _ _
      · exact trivial

theorem throughout_calls {t : KeyTask} {past tr : List KeyMoment} (h : ∀ m ∈ tr, t.Calls m.op) :
    Throughout (Own sha256 t) past tr := by
  refine throughout_of_forall ?_
  intro m hm past
  have hcall := h m hm
  refine ⟨fun hop => absurd hop hcall.random, ?_, hcall.touched, hcall.revoked⟩
  intro data hdata
  rw [hcall.created] at hdata
  cases hdata

theorem keyStep_exec (o : KeyOp) (i : KeyInput) (w : KeyWorld) : KeyStep w (o.exec i w).2 :=
  ⟨exec_evolves o i w, exec_sound o i⟩

theorem wp_calls {α : Type} {t : KeyTask} (past : List KeyMoment) {p : KeyProgram α}
    (h : All t.Calls p) (w : KeyWorld) :
    wp KeyOp.exec KeyStep KeyStep p (fun tr _ _ => Throughout (Own sha256 t) past tr) w := by
  have hsafe : Safe KeyOp.exec KeyStep KeyStep p w :=
    h.safe (fun o _ i w => keyStep_exec o i w) w
  refine wp_mono ?_ (All.wp_trace h hsafe)
  rintro tr r w' ⟨hcalls, -⟩
  exact throughout_calls sha256 hcalls

/-- Both ways of issuing a key. -/
theorem wp_issuing {α : Type} {t : KeyTask} (ht : t.issuing = true)
    (o : (Fin 32 → UInt8) → KeyOp) (data : (Fin 32 → UInt8) → ApiKeyCreateInput)
    {rest : (bytes : Fin 32 → UInt8) → (o bytes).Res → KeyProgram α}
    (ho : ∀ bytes, (o bytes).created = some (data bytes))
    (hhash : ∀ bytes, (data bytes).keyHash = hashToken sha256 (rawKeyOf bytes))
    (hstart : ∀ bytes, (data bytes).keyPrefix = keyPrefixOf (rawKeyOf bytes))
    (hrest : ∀ bytes a, All t.Calls (rest bytes a)) (w : KeyWorld) :
    wp KeyOp.exec KeyStep KeyStep ((perform KeyOp.randomBytes).bind fun bytes =>
        (perform (o bytes)).bind (rest bytes))
      (fun tr _ _ => Throughout (Own sha256 t) [] tr) w := by
  refine wp_bind.mpr (wp_perform.mpr ?_)
  intro w₁ _ i
  refine ⟨keyStep_exec _ i w₁, ?_⟩
  have hfirst : Own sha256 t [] ⟨w₁, .randomBytes, i⟩ := ⟨fun _ => rfl, nofun, nofun, nofun⟩
  show wp _ _ _ ((perform (o i.bytes)).bind (rest i.bytes)) _ _
  refine wp_bind.mpr (wp_perform.mpr ?_)
  intro w₂ _ j
  refine ⟨keyStep_exec _ j w₂, ?_⟩
  have hne : ∀ o' : KeyOp, o'.created = none → o i.bytes ≠ o' := by
    intro o' hnone heq
    rw [← heq, ho] at hnone
    cases hnone
  have hsecond : Own sha256 t [⟨w₁, .randomBytes, i⟩] ⟨w₂, o i.bytes, j⟩ := by
    refine ⟨fun hop => absurd hop (hne _ rfl), ?_, fun _ _ hop => absurd hop (hne _ rfl),
      fun _ _ _ hop => absurd hop (hne _ rfl)⟩
    intro d hd
    obtain rfl : data i.bytes = d := Option.some.inj ((ho i.bytes).symm.trans hd)
    exact ⟨ht, _, rfl, rfl, hhash i.bytes, hstart i.bytes⟩
  split
  · next a _ =>
    have hcalls := wp_calls sha256 [⟨w₁, .randomBytes, i⟩, ⟨w₂, o i.bytes, j⟩] (hrest i.bytes a)
      ((o i.bytes).exec j w₂).2
    refine wp_mono ?_ hcalls
    intro tr r w' htr
    exact ⟨hfirst, hsecond, htr⟩
  · exact ⟨hfirst, hsecond, trivial⟩

theorem wp_own (t : KeyTask) (w : KeyWorld) :
    wp KeyOp.exec KeyStep KeyStep ((keySystem sha256).prog t)
      (fun tr _ _ => Throughout (Own sha256 t) [] tr) w := by
  cases t with
  | createTenant name =>
    refine wp_void (wp_issuing sha256 rfl
      (fun bytes => .tenantCreate name (TenantService.createData sha256 (rawKeyOf bytes)))
      (fun bytes => TenantService.createData sha256 (rawKeyOf bytes))
      (fun _ => rfl) (fun _ => rfl) (fun _ => rfl) ?_ w)
    intro bytes tenant
    exact (calls_record _ _).bind fun _ => trivial
  | createKey tenantId input =>
    refine wp_void ?_
    show wp _ _ _ (Prog.bind (Prog.bind (perform KeyOp.randomBytes) _) _) _ _
    rw [bind_bind]
    refine wp_issuing sha256 rfl
      (fun bytes => .apiKeyCreate tenantId (ApiKeyService.createData sha256 input (rawKeyOf bytes)))
      (fun bytes => ApiKeyService.createData sha256 input (rawKeyOf bytes))
      (fun _ => rfl) (fun _ => rfl) (fun _ => rfl) ?_ w
    intro bytes created
    exact (calls_record _ _).bind fun _ => trivial
  | verifyKey rawKey => exact wp_void (wp_calls sha256 [] (calls_verifyKey sha256 rawKey) w)
  | revokeKey tenantId keyId => exact wp_calls sha256 [] (calls_revokeKey tenantId keyId) w

/-- The calls of the program `pid`. -/
def keyCalls (pid : Nat) (es : List KeyEvent) : List KeyMoment :=
  KeyWorld.empty.start.callsOf (keySystem sha256) pid es

theorem own_calls {pid : Nat} {t : KeyTask} (ht : (spawned es)[pid]? = some t) :
    Throughout (Own sha256 t) [] (keyCalls sha256 pid es) := by
  have h := calls_of_wp (F := fun t tr => Throughout (Own sha256 t) [] tr) (respects_keyStep sha256)
    (fun _ _ _ h => (throughout_append.mp h).1) (fun t _ w _ => wp_own sha256 t w)
    (Healthy.init sound_empty) (Tracked.init KeyWorld.empty) (fun _ _ h => by cases h)
    (fun e (_ : e ∈ es) => trivial) pid t
  exact h ht

theorem own_of_mem {pid : Nat} {t : KeyTask} (ht : (spawned es)[pid]? = some t) {m : KeyMoment}
    (hm : m ∈ keyCalls sha256 pid es) :
    ∃ pre post, keyCalls sha256 pid es = pre ++ m :: post ∧ Own sha256 t pre m := by
  obtain ⟨pre, post, heq⟩ := List.append_of_mem hm
  exact ⟨pre, post, heq, (own_calls sha256 ht).at heq⟩

theorem exists_mem_keyCalls {m : KeyMoment} (hm : m ∈ keyMoments sha256 es) :
    ∃ pid t, (spawned es)[pid]? = some t ∧ m ∈ keyCalls sha256 pid es := by
  obtain ⟨pid, hlt, hcall⟩ := exists_mem_callsOf hm
  have hlen : pid < (spawned es).length := by
    rw [length_procs_after] at hlt
    simpa [KeyWorld.start] using hlt
  exact ⟨pid, _, List.getElem?_eq_getElem hlen, hcall⟩

/-! ### Issued keys -/

/-- A program of the run took `raw` from its random bytes and issued `x` with it. -/
def IssuedIn (es : List KeyEvent) (raw : String) (x : KeyIssue) : Prop :=
  ∃ pid t, (spawned es)[pid]? = some t ∧ t.issuing = true ∧
    (∃ m ∈ keyCalls sha256 pid es, m.op = .randomBytes ∧ rawKeyOf m.input.bytes = raw) ∧
    ∃ m ∈ keyCalls sha256 pid es, issuedBy m = some x

/-- Both ways of issuing a key store the same of it. -/
theorem hash_of_issued {raw : String} {x : KeyIssue} (h : IssuedIn sha256 es raw x) :
    x.keyHash = hashToken sha256 raw ∧ x.keyPrefix = keyPrefixOf raw := by
  obtain ⟨pid, t, ht, -, ⟨m₁, hm₁, hop₁, rfl⟩, m₂, hm₂, hx⟩ := h
  obtain ⟨tenantId, data, hdata, rfl⟩ := issue_of_issuedBy hx
  obtain ⟨pre₁, post₁, heq₁, hown₁⟩ := own_of_mem sha256 ht hm₁
  obtain ⟨pre₂, post₂, heq₂, hown₂⟩ := own_of_mem sha256 ht hm₂
  obtain ⟨-, m₀, hpre, -, hhash, hstart⟩ := hown₂.created data hdata
  -- the random bytes were taken first, and once
  have hsame : m₁ = m₀ := by
    rw [hown₁.random hop₁, List.nil_append] at heq₁
    rw [hpre, heq₁] at heq₂
    exact (List.cons.inj heq₂).1
  subst hsame
  exact ⟨hhash, hstart⟩

theorem mem_issues_of_issued {raw : String} {x : KeyIssue} (h : IssuedIn sha256 es raw x) :
    x ∈ (keysAfter sha256 es).world.issues := by
  obtain ⟨pid, t, -, -, -, m, hm, hx⟩ := h
  rw [issues_after, List.mem_filterMap]
  exact ⟨m, mem_moments_of_mem_callsOf hm, hx⟩

theorem exists_issued {x : KeyIssue} (h : x ∈ (keysAfter sha256 es).world.issues) :
    ∃ raw, IssuedIn sha256 es raw x := by
  rw [issues_after, List.mem_filterMap] at h
  obtain ⟨m, hm, hx⟩ := h
  obtain ⟨pid, t, ht, hcall⟩ := exists_mem_keyCalls sha256 hm
  obtain ⟨pre, post, heq, hown⟩ := own_of_mem sha256 ht hcall
  obtain ⟨tenantId, data, hdata, -⟩ := issue_of_issuedBy hx
  obtain ⟨hissuing, m₀, hpre, hop, -⟩ := hown.created data hdata
  have hm₀ : m₀ ∈ keyCalls sha256 pid es := by
    rw [heq, hpre]
    exact List.mem_append_left _ (List.mem_singleton_self m₀)
  exact ⟨rawKeyOf m₀.input.bytes, pid, t, ht, hissuing, ⟨m₀, hm₀, hop, rfl⟩, m, hcall, hx⟩

end Runs

/-! ## The verdict on a text -/

section Verification

variable {sha256 : String → List UInt8} {es : List KeyEvent} {w : KeyWorld} {k : ApiKey}
  {raw : String} {x : KeyIssue}

theorem length_rawKeyOf (bytes : Fin 32 → UInt8) : (rawKeyOf bytes).length = 71 := by
  rw [rawKeyOf, String.length_append, Bytes.length_toHex, List.length_ofFn]
  decide

theorem length_of_issued (h : IssuedIn sha256 es raw x) : raw.length = 71 := by
  obtain ⟨pid, t, -, -, ⟨m, -, -, rfl⟩, -⟩ := h
  exact length_rawKeyOf _

theorem id_of_tenant {id : String} {tenant : Tenant} (h : w.tenants.get (.id id) = some tenant) :
    tenant.id = id := by
  have hid := ((Table.get_eq_some_iff _).mp h).2
  simp only [Tenant.keys, List.mem_cons, TenantUnique.id.injEq, reduceCtorEq, List.not_mem_nil,
    or_false] at hid
  exact hid.symm

/-- The keys that `findActiveByPrefix` finds. -/
def candidates (keyPrefix : String) (now : Date) (w : KeyWorld) : List (ApiKey × Tenant) :=
  (w.apiKeys.rows.filter (ApiKey.isActive keyPrefix now)).filterMap fun k =>
    (w.tenants.get (.id k.tenantId)).map (k, ·)

theorem mem_candidates {keyPrefix : String} {now : Date} {found : ApiKey × Tenant} :
    found ∈ candidates keyPrefix now w ↔ found.1 ∈ w.apiKeys.rows ∧
      ApiKey.isActive keyPrefix now found.1 = true ∧
      w.tenants.get (.id found.1.tenantId) = some found.2 := by
  rw [candidates, List.mem_filterMap]
  constructor
  · rintro ⟨k, hk, hfound⟩
    rw [List.mem_filter] at hk
    rw [Option.map_eq_some_iff] at hfound
    obtain ⟨tenant, htenant, rfl⟩ := hfound
    exact ⟨hk.1, hk.2, htenant⟩
  · rintro ⟨hk, hactive, htenant⟩
    exact ⟨found.1, List.mem_filter.mpr ⟨hk, hactive⟩, by rw [htenant]; rfl⟩

theorem isActive_iff (hw : w.Sound) (hk : k ∈ w.apiKeys.rows) {keyPrefix : String} {now : Date} :
    ApiKey.isActive keyPrefix now k = true ↔
      k.keyPrefix = keyPrefix ∧ w.revoked k.id = false ∧ ∀ e, k.expiresAt = some e → now < e := by
  rw [revokedAt_of_revoked hk, ApiKey.isActive, hw k hk]
  cases k.revokedAt <;> cases k.expiresAt <;> simp

theorem sameHash_iff (hsha : Function.Injective sha256) {raw' : String} {tenant : Tenant}
    (hk : k.keyHash = hashToken sha256 raw') :
    ApiKeyService.sameHash (Bytes.ofHex (hashToken sha256 raw)) (k, tenant) = true ↔ raw' = raw := by
  simp only [ApiKeyService.sameHash, hk, hashToken, Bytes.ofHex_toHex, Bool.and_eq_true,
    decide_eq_true_eq]
  constructor
  · intro h
    exact hsha h.2
  · rintro rfl
    exact ⟨rfl, rfl⟩

/-- When a key is good: it is looked up after `history`, with the time read before. -/
structure LiveIn (sha256 : String → List UInt8) (history : List KeyEvent) (now : Date) (x : KeyIssue) :
    Prop where
  unrevoked : ∀ m ∈ keyMoments sha256 history, revokes x.keyId m = false
  unexpired : ∀ e, x.expiresAt = some e → now < e

theorem revoked_eq_false_iff {keyId : String} :
    (keysAfter sha256 es).world.revoked keyId = false ↔
      ∀ m ∈ keyMoments sha256 es, revokes keyId m = false := by
  have h := revocations_after sha256 es keyId
  constructor
  · intro hfalse m hm
    rw [hfalse, Bool.toNat_false, List.countP_eq_zero] at h
    exact Bool.eq_false_iff.mpr (h m hm)
  · intro hall
    rw [List.countP_eq_zero.mpr fun m hm => by simp [hall m hm]] at h
    cases hrevoked : (keysAfter sha256 es).world.revoked keyId with
    | false => rfl
    | true =>
      rw [hrevoked] at h
      cases h

/-- **What the lookup finds**: the key that was issued with the text, if it is live. -/
theorem find_candidates (hsha : Function.Injective sha256) (now : Date) {found : ApiKey × Tenant} :
    (candidates (keyPrefixOf raw) now (keysAfter sha256 es).world).find?
        (ApiKeyService.sameHash (Bytes.ofHex (hashToken sha256 raw))) = some found ↔
      IssuedIn sha256 es raw found.1.issue ∧ LiveIn sha256 es now found.1.issue ∧
        found.1 ∈ (keysAfter sha256 es).world.apiKeys.rows ∧
        (keysAfter sha256 es).world.tenants.get (.id found.1.tenantId) = some found.2 := by
  have hsound := (healthy_keysAfter sha256 es).inv
  -- what is found was issued with the text
  have hfound : ∀ f ∈ candidates (keyPrefixOf raw) now (keysAfter sha256 es).world,
      ApiKeyService.sameHash (Bytes.ofHex (hashToken sha256 raw)) f = true →
        IssuedIn sha256 es raw f.1.issue ∧ LiveIn sha256 es now f.1.issue := by
    intro f hf hsame
    obtain ⟨hk, hactive, -⟩ := mem_candidates.mp hf
    obtain ⟨raw', hraw'⟩ := exists_issued sha256 (List.mem_map_of_mem hk)
    have hhash := (hash_of_issued sha256 hraw').1
    rw [sameHash_iff hsha hhash] at hsame
    obtain ⟨-, hrevoked, hexpires⟩ := (isActive_iff hsound hk).mp hactive
    exact ⟨hsame ▸ hraw', revoked_eq_false_iff.mp hrevoked, hexpires⟩
  constructor
  · intro h
    have hmem := List.mem_of_find?_eq_some h
    obtain ⟨hissued, hlive⟩ := hfound found hmem (List.find?_some h)
    obtain ⟨hk, -, htenant⟩ := mem_candidates.mp hmem
    exact ⟨hissued, hlive, hk, htenant⟩
  · rintro ⟨hissued, hlive, hk, htenant⟩
    obtain ⟨hhash, hstart⟩ := hash_of_issued sha256 hissued
    have hmem : found ∈ candidates (keyPrefixOf raw) now (keysAfter sha256 es).world := by
      refine mem_candidates.mpr ⟨hk, (isActive_iff hsound hk).mpr ?_, htenant⟩
      exact ⟨hstart, revoked_eq_false_iff.mpr hlive.unrevoked, hlive.unexpired⟩
    have hsame : ApiKeyService.sameHash (Bytes.ofHex (hashToken sha256 raw)) found = true :=
      (sameHash_iff hsha hhash).mpr rfl
    obtain ⟨f, hf⟩ := Option.isSome_iff_exists.mp (List.find?_isSome.mpr ⟨found, hmem, hsame⟩)
    obtain ⟨hkf, -, htenantf⟩ := mem_candidates.mp (List.mem_of_find?_eq_some hf)
    -- a digest is stored once
    have hkey : f.1 = found.1 := by
      have hhashf := (hash_of_issued sha256 (hfound f (List.mem_of_find?_eq_some hf)
        (List.find?_some hf)).1).1
      refine (keysAfter sha256 es).world.apiKeys.eq_of_mem_keys hkf hk
        (k := .keyHash (hashToken sha256 raw)) ?_ ?_
      · rw [← hhashf]
        simp [ApiKey.keys, ApiKey.issue]
      · rw [← hhash]
        simp [ApiKey.keys, ApiKey.issue]
    rw [hkey] at htenantf
    rw [hf, Prod.ext hkey (Option.some.inj (htenantf.symm.trans htenant))]

variable {inp : Nat → List KeyEvent × KeyInput}

theorem keysAfter_append (es fs : List KeyEvent) :
    keysAfter sha256 (es ++ fs) = (keysAfter sha256 es).after (keySystem sha256) fs :=
  Config.after_append _ es fs

theorem exec_now (i : List KeyEvent × KeyInput) (c : Config KeyOp KeyOp.Res JsError KeyWorld) :
    interleave (keySystem sha256) KeyOp.now i c =
      (.ok (c.after (keySystem sha256) i.1).world.clock, c.after (keySystem sha256) i.1) := rfl

theorem exec_findActive {i : List KeyEvent × KeyInput} (hi : i.2.fault = none) (keyPrefix : String)
    (now : Date) (c : Config KeyOp KeyOp.Res JsError KeyWorld) :
    interleave (keySystem sha256) (KeyOp.apiKeyFindActive keyPrefix now) i c =
      (.ok (candidates keyPrefix now (c.after (keySystem sha256) i.1).world),
        c.after (keySystem sha256) i.1) := by
  have hexec : ∀ w, KeyOp.exec (.apiKeyFindActive keyPrefix now) i.2 w =
      (.ok (candidates keyPrefix now w), w) := fun w => KeyOp.exec_of_fault_none hi _ w
  exact congrArg (fun r : Except JsError _ × KeyWorld =>
    (r.1, { c.after (keySystem sha256) i.1 with world := r.2 })) (hexec _)

theorem exec_touch {i : KeyInput} (hi : i.fault = none) {id : String} (d : Date)
    (hget : w.apiKeys.get (.id id) = some k) :
    (KeyOp.exec (.apiKeyTouch id d) i w).1 = .ok { k with lastUsedAt := some d } := by
  rw [KeyOp.exec_of_fault_none hi, KeyOp.effect, hget]

theorem touchLastUsed_run {α : Type} (a : α) {c : Config KeyOp KeyOp.Res JsError KeyWorld}
    (hc : Healthy (keySystem sha256) KeyStep KeyStep KeyWorld.Sound c) (hk : k ∈ c.world.apiKeys.rows)
    (hinp : ∀ n, (inp n).2.fault = none) :
    (((ApiKeyRepository.touchLastUsed k.id).bind fun _ => .pure a).run
      (interleave (keySystem sha256)) inp c).1 = .ok a := by
  obtain ⟨hnow, hc₁⟩ := keys_after sha256 hc (inp 0).1
  obtain ⟨htouch, -⟩ := keys_after sha256 hc₁ (inp 1).1
  obtain ⟨k', hk', hissue, -⟩ := hnow.trans htouch k hk
  have hget : ((c.after (keySystem sha256) (inp 0).1).after (keySystem sha256) (inp 1).1).world.apiKeys.get
      (.id k.id) = some k' := by
    refine (Table.get_eq_some_iff _).mpr ⟨hk', ?_⟩
    rw [← show k'.id = k.id from congrArg KeyIssue.keyId hissue]
    simp [ApiKey.keys]
  have hnoted := exec_touch (hinp 1) (c.after (keySystem sha256) (inp 0).1).world.clock hget
  show ((Prog.bind (Prog.bind (perform KeyOp.now) _) _).run _ inp c).1 = .ok a
  rw [bind_bind, (run_perform_bind (exec_now _ c)).1, (run_perform_bind (Prod.ext hnoted rfl)).1]
  rfl

/-- **The answer of `verifyKey`** is what its lookup finds. -/
theorem verifyKey_run (hlen : 8 ≤ raw.length) (hinp : ∀ n, (inp n).2.fault = none) :
    ((ApiKeyService.verifyKey sha256 raw).run (interleave (keySystem sha256)) inp
        (keysAfter sha256 es)).1.toOption =
      ((candidates (keyPrefixOf raw) (keysAfter sha256 (es ++ (inp 0).1)).world.clock
          (keysAfter sha256 (es ++ (inp 0).1 ++ (inp 1).1)).world).find?
        (ApiKeyService.sameHash (Bytes.ofHex (hashToken sha256 raw)))).map Prod.swap := by
  have hshort : ¬ (raw = "" || raw.length < KEY_PREFIX_LENGTH) = true := by
    rw [Bool.or_eq_true, decide_eq_true_eq, decide_eq_true_eq, KEY_PREFIX_LENGTH]
    rintro (rfl | hlt)
    · simp at hlen
    · omega
  rw [ApiKeyService.verifyKey, if_neg hshort]
  show ((Prog.bind (Prog.bind (perform KeyOp.now) _) _).run _ inp _).1.toOption = _
  rw [bind_bind, (run_perform_bind (exec_now _ _)).1, ← keysAfter_append,
    (run_perform_bind (exec_findActive (hinp 1) _ _ _)).1, ← keysAfter_append]
  cases hfind : (candidates (keyPrefixOf raw) (keysAfter sha256 (es ++ (inp 0).1)).world.clock
      (keysAfter sha256 (es ++ (inp 0).1 ++ (inp 1).1)).world).find?
        (ApiKeyService.sameHash (Bytes.ofHex (hashToken sha256 raw))) with
  | none => rfl
  | some found =>
    have hk := (mem_candidates.mp (List.mem_of_find?_eq_some hfind)).1
    have hnoted := touchLastUsed_run found.swap
      (healthy_keysAfter sha256 (es ++ (inp 0).1 ++ (inp 1).1)) hk fun n => hinp (n + 2)
    exact congrArg Except.toOption hnoted

/-- **The verdict on a text**, among any other programs.  It is accepted exactly if a key was issued with
it that is live, and then as that key, of the tenant it was issued to. -/
theorem verifyKey_iff (hsha : Function.Injective sha256) (es : List KeyEvent) (raw : String)
    (inp : Nat → List KeyEvent × KeyInput) (hinp : ∀ n, (inp n).2.fault = none) (tenantId keyId : String) :
    (∃ tenant key, ((ApiKeyService.verifyKey sha256 raw).run (interleave (keySystem sha256)) inp
        (keysAfter sha256 es)).1 = .ok (tenant, key) ∧ tenant.id = tenantId ∧ key.id = keyId) ↔
      ∃ x, IssuedIn sha256 (es ++ (inp 0).1 ++ (inp 1).1) raw x ∧
        LiveIn sha256 (es ++ (inp 0).1 ++ (inp 1).1)
          (keysAfter sha256 (es ++ (inp 0).1)).world.clock x ∧
        x.tenantId = tenantId ∧ x.keyId = keyId := by
  by_cases hlen : 8 ≤ raw.length
  · have hrun := @verifyKey_run sha256 es raw inp hlen hinp
    constructor
    · rintro ⟨tenant, key, hok, rfl, rfl⟩
      rw [hok] at hrun
      obtain ⟨found, hfound, heq⟩ := Option.map_eq_some_iff.mp hrun.symm
      obtain ⟨rfl, rfl⟩ := Prod.mk.inj heq
      obtain ⟨hissued, hlive, -, htenant⟩ := (find_candidates hsha _).mp hfound
      exact ⟨found.1.issue, hissued, hlive, (id_of_tenant htenant).symm, rfl⟩
    · rintro ⟨x, hissued, hlive, rfl, rfl⟩
      obtain ⟨k, hk, rfl⟩ := List.mem_map.mp (mem_issues_of_issued sha256 hissued)
      obtain ⟨tenant, htenant⟩ := Option.isSome_iff_exists.mp
        ((keysAfter sha256 (es ++ (inp 0).1 ++ (inp 1).1)).world.references k hk)
      rw [(@find_candidates sha256 _ _ hsha _ (k, tenant)).mpr ⟨hissued, hlive, hk, htenant⟩] at hrun
      refine ⟨tenant, k, ?_, id_of_tenant htenant, rfl⟩
      cases hresult : ((ApiKeyService.verifyKey sha256 raw).run (interleave (keySystem sha256)) inp
          (keysAfter sha256 es)).1 with
      | error e =>
        rw [hresult] at hrun
        cases hrun
      | ok a =>
        rw [hresult] at hrun
        rw [Option.some.inj hrun]
        rfl
  · have hshort : (raw = "" || raw.length < KEY_PREFIX_LENGTH) = true := by
      rw [Bool.or_eq_true, decide_eq_true_eq (p := raw.length < _), KEY_PREFIX_LENGTH]
      exact .inr (by omega)
    constructor
    · rintro ⟨tenant, key, hok, -⟩
      rw [ApiKeyService.verifyKey, if_pos hshort] at hok
      cases hok
    · rintro ⟨x, hissued, -⟩
      have := length_of_issued hissued
      omega

end Verification

/-! ## Revocations -/

section Revocation

variable {sha256 : String → List UInt8} {es : List KeyEvent} {w : KeyWorld} {k : ApiKey}
  {tenantId keyId : String} {m : KeyMoment}

/-- **Who revokes a key**: the update of its tenant that finds it unrevoked. -/
theorem revokes_cases (h : revokes keyId m = true) :
    ∃ tenantId d, m.op = .apiKeyRevoke keyId tenantId d ∧
      ∃ k ∈ m.state.apiKeys.rows, k.id = keyId ∧ k.tenantId = tenantId ∧ k.revokedAt = none := by
  rw [revokes, Bool.and_eq_true, Bool.not_eq_true'] at h
  obtain ⟨hbefore, hafter⟩ := h
  have hunrevoked : ∀ s ∈ m.state.apiKeys.rows, s.id = keyId → s.revokedAt = none := by
    intro s hs hid
    rw [← hid, revokedAt_of_revoked hs] at hbefore
    exact Option.not_isSome_iff_eq_none.mp (by rw [hbefore]; decide)
  obtain ⟨k, hk, hid, hsome⟩ := revoked_iff.mp hafter
  rcases exec_rows m.op m.input m.state with hrows | ⟨tenantId, data, -, hrows⟩ |
    ⟨id, d, -, hrows⟩ | ⟨id, tenantId, d, hop, hrows⟩
  · rw [hunrevoked k (hrows ▸ hk) hid] at hsome
    cases hsome
  · rw [hrows] at hk
    rcases List.mem_append.mp hk with hk | hk
    · rw [hunrevoked k hk hid] at hsome
      cases hsome
    · rw [List.mem_singleton.mp hk] at hsome
      cases hsome
  · rw [hrows] at hk
    obtain ⟨s, hs, rfl⟩ := Table.mem_written.mp hk
    have hs' : s.id = keyId ∧ s.revokedAt.isSome = true := by
      split at hid <;> split at hsome <;> exact ⟨hid, hsome⟩
    rw [hunrevoked s hs hs'.1] at hs'
    cases hs'.2
  · rw [hrows] at hk
    obtain ⟨s, hs, rfl⟩ := Table.mem_written.mp hk
    split at hid
    · next hcond =>
      simp only [Bool.and_eq_true, decide_eq_true_eq, Option.isNone_iff_eq_none] at hcond
      refine ⟨tenantId, d, ?_, s, hs, hid, hcond.1.2, hcond.2⟩
      rw [hop, ← hcond.1.1, show s.id = keyId from hid]
    · next hcond =>
      rw [if_neg hcond, hunrevoked s hs hid] at hsome
      cases hsome

/-- The keys of another tenant stay as they are. -/
theorem kept_of_other {t : KeyTask} (ht : t = .revokeKey tenantId keyId) {pre : List KeyMoment}
    (hown : Own sha256 t pre m) (hk : k ∈ m.state.apiKeys.rows) (hother : k.tenantId ≠ tenantId) :
    k ∈ (m.op.exec m.input m.state).2.apiKeys.rows := by
  subst ht
  rcases exec_rows m.op m.input m.state with hrows | ⟨_, data, -, hrows⟩ | ⟨id, d, hop, -⟩ |
    ⟨id, tenantId', d, hop, hrows⟩
  · rw [hrows]
    exact hk
  · rw [hrows]
    exact List.mem_append_left _ hk
  · obtain ⟨rawKey, h⟩ := hown.touched id d hop
    cases h
  · obtain ⟨rfl, rfl⟩ : tenantId = tenantId' ∧ keyId = id := by
      simpa using hown.revoked id tenantId' d hop
    rw [hrows]
    exact Table.mem_written.mpr ⟨k, hk, if_neg (by simp [hother])⟩

/-- How `revokeKey` ends, if the calls of `tr` were its own. -/
structure RevokeOutcome (tenantId keyId : String) (tr : List KeyMoment) (r : Except JsError Unit)
    (w : KeyWorld) : Prop where
  returned : r = .ok () → ∃ m ∈ tr, revokes keyId m = true
  refused : ∀ e, r = .error e → (∀ m ∈ tr, m.input.fault = none) →
    (∀ m ∈ tr, revokes keyId m = false) ∧ ∃ m ∈ tr,
      (∃ k ∈ m.state.apiKeys.rows, k.id = keyId ∧ k.tenantId = tenantId) → w.revoked keyId = true

theorem RevokeOutcome.evolves {tr : List KeyMoment} {r : Except JsError Unit} {w' : KeyWorld}
    (hw : KeysEvolve w w') (h : RevokeOutcome tenantId keyId tr r w) :
    RevokeOutcome tenantId keyId tr r w' := by
  refine ⟨h.returned, ?_⟩
  intro e he hfault
  obtain ⟨hnone, m, hm, hrevoked⟩ := h.refused e he hfault
  exact ⟨hnone, m, hm, fun hrow => hw.revoked (hrevoked hrow)⟩

/-- What `revoke` looks for. -/
def isUnrevoked (keyId tenantId : String) (k : ApiKey) : Bool :=
  k.id = keyId && k.tenantId = tenantId && k.revokedAt.isNone

theorem isUnrevoked_iff :
    isUnrevoked keyId tenantId k = true ↔ k.id = keyId ∧ k.tenantId = tenantId ∧ k.revokedAt = none := by
  simp [isUnrevoked, and_assoc]

theorem apiKeyRevoke_effect (keyId tenantId : String) (i : KeyInput) (d : Date) (w : KeyWorld) :
    ((KeyOp.apiKeyRevoke keyId tenantId d).effect i w).1 =
        .ok (w.apiKeys.rows.countP (isUnrevoked keyId tenantId)) ∧
      ((KeyOp.apiKeyRevoke keyId tenantId d).effect i w).2.apiKeys.rows =
        w.apiKeys.written (isUnrevoked keyId tenantId) fun k =>
          { k with active := false, revokedAt := some d } := ⟨rfl, rfl⟩

/-- The outcome of the update tells whether it revoked the key. -/
theorem exec_apiKeyRevoke {i : KeyInput} {d : Date} {count : Nat}
    (h : (KeyOp.exec (.apiKeyRevoke keyId tenantId d) i w).1 = .ok count) :
    (count = 1 → revokes keyId ⟨w, .apiKeyRevoke keyId tenantId d, i⟩ = true) ∧
      (count ≠ 1 → revokes keyId ⟨w, .apiKeyRevoke keyId tenantId d, i⟩ = false ∧
        ∀ k ∈ w.apiKeys.rows, k.id = keyId → k.tenantId = tenantId → w.revoked keyId = true) := by
  obtain ⟨hcount, hrows⟩ := apiKeyRevoke_effect keyId tenantId i d w
  have heffect := KeyOp.exec_ok h
  rw [heffect, hcount, Except.ok.injEq] at h
  constructor
  · rintro rfl
    obtain ⟨k, hk, hcond⟩ := List.countP_pos_iff.mp (by rw [h]; exact Nat.one_pos)
    obtain ⟨hid, -, hnone⟩ := isUnrevoked_iff.mp hcond
    have hbefore : w.revoked keyId = false := by
      rw [← hid, revokedAt_of_revoked hk, hnone]
      rfl
    have hafter : ((KeyOp.apiKeyRevoke keyId tenantId d).exec i w).2.revoked keyId = true := by
      refine revoked_iff.mpr ⟨{ k with active := false, revokedAt := some d }, ?_, hid, rfl⟩
      rw [heffect, hrows]
      exact Table.mem_written.mpr ⟨k, hk, if_pos hcond⟩
    rw [revokes, hbefore, hafter]
    rfl
  · intro hne
    have hnone : ∀ k ∈ w.apiKeys.rows, ¬ isUnrevoked keyId tenantId k = true := by
      have hle : w.apiKeys.rows.countP (isUnrevoked keyId tenantId) =
          if (w.apiKeys.get (.id keyId)).any (isUnrevoked keyId tenantId) then 1 else 0 := by
        refine w.apiKeys.countP_eq_of_key ?_
        intro r hr
        simp [ApiKey.keys, (isUnrevoked_iff.mp hr).1]
      rw [← List.countP_eq_zero]
      rw [h] at hle ⊢
      split at hle
      · exact absurd hle hne
      · exact hle
    refine ⟨?_, ?_⟩
    · rw [Bool.eq_false_iff]
      intro hrevokes
      obtain ⟨tenantId', d', hop, k, hk, hid, htenant, hrevokedAt⟩ := revokes_cases hrevokes
      cases hop
      exact hnone k hk (isUnrevoked_iff.mpr ⟨hid, htenant, hrevokedAt⟩)
    · intro k hk hid htenant
      rw [← hid, revokedAt_of_revoked hk]
      cases hrevokedAt : k.revokedAt with
      | none => exact absurd (isUnrevoked_iff.mpr ⟨hid, htenant, hrevokedAt⟩) (hnone k hk)
      | some d' => rfl

theorem revokes_eq_false (h : ∀ keyId tenantId d, m.op ≠ .apiKeyRevoke keyId tenantId d)
    (keyId : String) : revokes keyId m = false := by
  rw [Bool.eq_false_iff]
  intro hrevokes
  obtain ⟨tenantId, d, hop, -⟩ := revokes_cases hrevokes
  exact h _ _ _ hop

theorem wp_record (entry : AuditEntry) (w : KeyWorld) :
    wp KeyOp.exec KeyStep KeyStep (AuditLogService.record entry) (fun _ r _ => r = .ok ()) w := by
  refine wp_tryCatch.mpr (wp_perform.mpr ?_)
  intro w₁ _ i
  refine ⟨keyStep_exec _ i w₁, ?_⟩
  split
  · rfl
  · refine wp_perform.mpr ?_
    intro w₂ _ j
    exact ⟨keyStep_exec _ j w₂, rfl⟩

theorem RevokeOutcome.of_throw {tr : List KeyMoment} {e : JsError} {w : KeyWorld}
    (h : (∀ m ∈ tr, m.input.fault = none) → (∀ m ∈ tr, revokes keyId m = false) ∧ ∃ m ∈ tr,
      (∃ k ∈ m.state.apiKeys.rows, k.id = keyId ∧ k.tenantId = tenantId) → w.revoked keyId = true) :
    RevokeOutcome tenantId keyId tr (.error e) w :=
  ⟨nofun, fun _ _ => h⟩

/-- The part of `revokeKey` behind the lookup. -/
theorem wp_revokeFound {past : List KeyMoment} (hpast : ∀ m ∈ past, revokes keyId m = false)
    (entry : AuditEntry) (e : JsError) (w : KeyWorld) :
    wp KeyOp.exec KeyStep KeyStep ((ApiKeyRepository.revoke tenantId keyId).bind fun revoked =>
        if revoked then AuditLogService.record entry else .throw e)
      (fun tr => RevokeOutcome tenantId keyId (past ++ tr)) w := by
  show wp _ _ _ (Prog.bind (Prog.bind (perform KeyOp.now) _) _) _ _
  rw [bind_bind]
  refine wp_bind.mpr (wp_perform.mpr ?_)
  intro w₁ _ i₁
  refine ⟨keyStep_exec _ i₁ w₁, ?_⟩
  have hnow : revokes keyId ⟨w₁, .now, i₁⟩ = false := revokes_eq_false (m := ⟨w₁, .now, i₁⟩) nofun keyId
  show wp _ _ _ (Prog.bind (Prog.bind (perform (KeyOp.apiKeyRevoke keyId tenantId w₁.clock)) _) _) _ _
  rw [bind_bind]
  refine wp_bind.mpr (wp_perform.mpr ?_)
  intro w₂ _ i₂
  refine ⟨keyStep_exec _ i₂ w₂, ?_⟩
  split
  · next count hcount =>
    obtain ⟨hone, hother⟩ := exec_apiKeyRevoke hcount
    by_cases h1 : count = 1
    · show wp _ _ _ (if decide (count = 1) = true then _ else _) _ _
      rw [if_pos (decide_eq_true h1)]
      refine wp_mono ?_ (wp_record entry _)
      rintro tr r w' rfl
      exact ⟨fun _ => ⟨_, by simp, hone h1⟩, nofun⟩
    · show wp _ _ _ (if decide (count = 1) = true then _ else _) _ _
      rw [if_neg (by simpa using h1)]
      obtain ⟨hnone, hrevoked⟩ := hother h1
      refine .of_throw fun _ => ⟨?_, ⟨w₂, .apiKeyRevoke keyId tenantId w₁.clock, i₂⟩, by simp, ?_⟩
      · intro m hm
        simp only [List.append_nil, List.mem_append, List.mem_singleton] at hm
        rcases hm with hm | rfl | rfl
        · exact hpast m hm
        · exact hnow
        · exact hnone
      · rintro ⟨k, hk, hid, htenant⟩
        exact (exec_evolves _ i₂ w₂).revoked (hrevoked k hk hid htenant)
  · next e' he =>
    refine .of_throw fun hfault => ?_
    rw [KeyOp.exec_of_fault_none (hfault ⟨w₂, .apiKeyRevoke keyId tenantId w₁.clock, i₂⟩ (by simp))] at he
    cases he

/-- **How `revokeKey` ends**, among any other programs. -/
theorem wp_revokeKey (tenantId keyId : String) (w : KeyWorld) :
    wp KeyOp.exec KeyStep KeyStep (ApiKeyService.revokeKey tenantId keyId)
      (RevokeOutcome tenantId keyId) w := by
  refine wp_bind.mpr (wp_perform.mpr ?_)
  intro w₁ _ i
  refine ⟨keyStep_exec _ i w₁, ?_⟩
  have hlookup : ∀ m ∈ [(⟨w₁, .apiKeyFindFirst keyId tenantId, i⟩ : KeyMoment)],
      revokes keyId m = false := by
    intro m hm
    rw [List.mem_singleton.mp hm]
    exact revokes_eq_false (m := ⟨w₁, .apiKeyFindFirst keyId tenantId, i⟩) nofun keyId
  split
  · next existing hexisting =>
    have heffect := KeyOp.exec_ok hexisting
    rw [heffect] at hexisting ⊢
    obtain rfl := Except.ok.inj hexisting
    split
    · next hnone =>
      -- no key of the tenant has the id
      refine .of_throw fun _ => ⟨hlookup, _, List.mem_singleton_self _, ?_⟩
      rintro ⟨k, hk, hid, htenant⟩
      have hfind := List.find?_eq_none.mp hnone k hk
      simp [hid, htenant] at hfind
    · exact wp_revokeFound hlookup _ _ _
  · next e he =>
    refine .of_throw fun hfault => ?_
    rw [KeyOp.exec_of_fault_none (hfault _ (List.mem_singleton_self _))] at he
    cases he

/-- A program that has ended, by returning or throwing. -/
def EndedAs (sha256 : String → List UInt8) (es : List KeyEvent) (pid : Nat) (r : Except JsError Unit) :
    Prop :=
  (keysAfter sha256 es).procs[pid]? = some (some (Prog.ofExcept r))

theorem tracked_revocations (es : List KeyEvent) :
    Tracked (keySystem sha256) KeyStep KeyStep (fun t tr r w => ∀ tenantId keyId,
        t = .revokeKey tenantId keyId → RevokeOutcome tenantId keyId tr r w)
      (spawned es) (fun pid => keyCalls sha256 pid es) (keysAfter sha256 es) := by
  refine procs_of_wp (respects_keyStep sha256) ?_ ?_ sound_empty fun e (_ : e ∈ es) => trivial
  · intro t tr r w w' hw h tenantId keyId ht
    exact (h tenantId keyId ht).evolves hw.1
  · intro t _ w _
    cases t with
    | revokeKey tenantId keyId =>
      refine wp_mono ?_ (wp_revokeKey tenantId keyId w)
      rintro tr r w' h _ _ ⟨⟩
      exact h
    | createTenant | createKey | verifyKey =>
      refine wp_mono ?_ ((respects_keyStep sha256).task _ trivial w ‹_›)
      intro tr r w' _
      exact nofun

theorem outcome_of_ended {pid : Nat} (ht : (spawned es)[pid]? = some (.revokeKey tenantId keyId))
    {r : Except JsError Unit} (hr : EndedAs sha256 es pid r) :
    RevokeOutcome tenantId keyId (keyCalls sha256 pid es) r (keysAfter sha256 es).world := by
  obtain ⟨t, ht', hwp⟩ := (tracked_revocations es).left pid _ hr
  rw [ht] at ht'
  have houtcome : RevokeOutcome tenantId keyId (keyCalls sha256 pid es ++ []) r
      (keysAfter sha256 es).world := by
    cases r with
    | ok a => exact hwp _ _ (Option.some.inj ht').symm
    | error e => exact hwp _ _ (Option.some.inj ht').symm
  rwa [List.append_nil] at houtcome

theorem task_of_revokes {pid : Nat} {t : KeyTask} (ht : (spawned es)[pid]? = some t)
    (hm : m ∈ keyCalls sha256 pid es) (h : revokes keyId m = true) :
    ∃ tenantId, t = .revokeKey tenantId keyId ∧
      ∃ k ∈ m.state.apiKeys.rows, k.id = keyId ∧ k.tenantId = tenantId := by
  obtain ⟨tenantId, d, hop, k, hk, hid, htenant, -⟩ := revokes_cases h
  obtain ⟨pre, post, -, hown⟩ := own_of_mem sha256 ht hm
  exact ⟨tenantId, hown.revoked keyId tenantId d hop, k, hk, hid, htenant⟩

theorem evolves_of_call {fs : List KeyEvent} {pid : Nat}
    (hm : m ∈ (keysAfter sha256 es).callsOf (keySystem sha256) pid fs) :
    KeysEvolve (keysAfter sha256 es).world m.state := by
  obtain ⟨gs, e, hs, rfl, hmoment⟩ := Config.mem_moments_iff.mp (mem_moments_of_mem_callsOf hm)
  rw [(Config.apply_of_moment (S := keySystem sha256) hmoment).1]
  exact (keys_after sha256 (healthy_keysAfter sha256 es) gs).1

theorem evolves_of_moment (hm : m ∈ keyMoments sha256 es) :
    KeysEvolve m.state (keysAfter sha256 es).world := by
  have h := (Healthy.init sound_empty).moments (respects_keyStep sha256) (fun e (_ : e ∈ es) => trivial) hm
  exact evolves_of_path h.2.2

/-- Every revocation of the key has come to its end, and none of its calls failed. -/
def RevocationsEnded (sha256 : String → List UInt8) (es : List KeyEvent) (keyId : String) : Prop :=
  ∀ pid tenantId, (spawned es)[pid]? = some (.revokeKey tenantId keyId) →
    (∃ r, EndedAs sha256 es pid r) ∧ ∀ m ∈ keyCalls sha256 pid es, m.input.fault = none

/-- The program `pid` was a revocation of the key, and succeeded. -/
def Revoked (sha256 : String → List UInt8) (es : List KeyEvent) (keyId : String) (pid : Nat) : Prop :=
  ∃ tenantId, (spawned es)[pid]? = some (.revokeKey tenantId keyId) ∧ EndedAs sha256 es pid (.ok ())

theorem exists_revokes_of_revoked (h : (keysAfter sha256 es).world.revoked keyId = true) :
    ∃ m ∈ keyMoments sha256 es, revokes keyId m = true := by
  have hcount := revocations_after sha256 es keyId
  rw [h] at hcount
  exact List.countP_pos_iff.mp (by rw [hcount]; exact Nat.one_pos)

/-- **Of all revocations of a key, one succeeds**, if its tenant asked for one. -/
theorem existsUnique_revoked (es fs : List KeyEvent) (hk : k ∈ (keysAfter sha256 es).world.apiKeys.rows)
    (hasked : ∃ pid, (spawned es).length ≤ pid ∧
      (spawned (es ++ fs))[pid]? = some (.revokeKey k.tenantId k.id))
    (hended : RevocationsEnded sha256 (es ++ fs) k.id) :
    ∃! pid, Revoked sha256 (es ++ fs) k.id pid := by
  have hle : (keyMoments sha256 (es ++ fs)).countP (revokes k.id) ≤ 1 := by
    rw [revocations_after]
    exact Bool.toNat_le _
  -- the program that makes the revoking call is the one that succeeds
  have hsucceeds : ∀ {pid m t}, (spawned (es ++ fs))[pid]? = some t →
      m ∈ keyCalls sha256 pid (es ++ fs) → revokes k.id m = true →
      Revoked sha256 (es ++ fs) k.id pid := by
    intro pid m t ht hm hrevokes
    obtain ⟨tenantId, rfl, -⟩ := task_of_revokes ht hm hrevokes
    obtain ⟨⟨r, hr⟩, hfault⟩ := hended pid tenantId ht
    cases r with
    | ok a => exact ⟨tenantId, ht, hr⟩
    | error e =>
      have hnone := ((outcome_of_ended ht hr).refused e rfl hfault).1 m hm
      rw [hnone] at hrevokes
      cases hrevokes
  have hexists : ∃ pid, Revoked sha256 (es ++ fs) k.id pid := by
    obtain ⟨pid, hpid, ht⟩ := hasked
    obtain ⟨⟨r, hr⟩, hfault⟩ := hended pid k.tenantId ht
    cases r with
    | ok a => exact ⟨pid, k.tenantId, ht, hr⟩
    | error e =>
      -- it found its key, which was revoked then
      obtain ⟨-, m, hm, hrevoked⟩ := (outcome_of_ended ht hr).refused e rfl hfault
      have hcalls : keyCalls sha256 pid (es ++ fs) =
          (keysAfter sha256 es).callsOf (keySystem sha256) pid fs := by
        have hidle : keyCalls sha256 pid es = [] := (tracked_revocations es).idle pid hpid
        rw [keyCalls, callsOf_append]
        exact (congrArg (· ++ _) hidle).trans (List.nil_append _)
      obtain ⟨k', hk', hissue, -⟩ := evolves_of_call (hcalls ▸ hm) k hk
      obtain ⟨m', hm', hrevokes⟩ := exists_revokes_of_revoked (hrevoked
        ⟨k', hk', congrArg KeyIssue.keyId hissue, congrArg KeyIssue.tenantId hissue⟩)
      obtain ⟨pid', t, ht', hcall⟩ := exists_mem_keyCalls sha256 hm'
      exact ⟨pid', hsucceeds ht' hcall hrevokes⟩
  obtain ⟨pid, hpid⟩ := hexists
  refine ⟨pid, hpid, ?_⟩
  intro pid' hpid'
  obtain ⟨tenantId, ht, hr⟩ := hpid
  obtain ⟨tenantId', ht', hr'⟩ := hpid'
  obtain ⟨m, hm, hP⟩ := (outcome_of_ended ht hr).returned rfl
  obtain ⟨m', hm', hP'⟩ := (outcome_of_ended ht' hr').returned rfl
  exact eq_of_countP_le_one hle hm' hP' hm hP

/-- **A revoked key is not accepted**, by a `verifyKey` that starts when it is revoked. -/
theorem wp_verifyKey_revoked (raw : String) (hrevoked : w.revoked keyId = true) :
    wp KeyOp.exec KeyStep KeyStep (ApiKeyService.verifyKey sha256 raw)
      (fun _ r _ => ∀ tenant key, r = .ok (tenant, key) → key.id ≠ keyId) w := by
  rw [ApiKeyService.verifyKey]
  split
  · exact nofun
  · show wp _ _ _ (Prog.bind (Prog.bind (perform KeyOp.now) _) _) _ _
    rw [bind_bind]
    refine wp_bind.mpr (wp_perform.mpr ?_)
    intro w₁ hw₁ i₁
    refine ⟨keyStep_exec _ i₁ w₁, ?_⟩
    show wp _ _ _ (Prog.bind (perform (KeyOp.apiKeyFindActive _ w₁.clock)) _) _ _
    refine wp_bind.mpr (wp_perform.mpr ?_)
    intro w₂ hw₂ i₂
    refine ⟨keyStep_exec _ i₂ w₂, ?_⟩
    split
    · next found hfound =>
      rw [KeyOp.exec_ok hfound] at hfound
      obtain rfl : candidates (keyPrefixOf raw) w₁.clock w₂ = found := Except.ok.inj hfound
      cases hfind : (candidates (keyPrefixOf raw) w₁.clock w₂).find?
          (ApiKeyService.sameHash (Bytes.ofHex (hashToken sha256 raw))) with
      | none => exact nofun
      | some f =>
        obtain ⟨hk, hactive, -⟩ := mem_candidates.mp (List.mem_of_find?_eq_some hfind)
        have hunrevoked : w₂.revoked f.1.id = false := by
          simp only [ApiKey.isActive, Bool.and_eq_true, Option.isNone_iff_eq_none] at hactive
          rw [revokedAt_of_revoked hk, hactive.1.2]
          rfl
        have hstill : w₂.revoked keyId = true :=
          ((evolves_of_path hw₁).trans (evolves_of_path hw₂)).revoked hrevoked
        have hsafe : Safe KeyOp.exec KeyStep KeyStep (ApiKeyRepository.touchLastUsed f.1.id) _ :=
          All.safe (P := fun _ => True) (fun o _ i w => keyStep_exec o i w) (all_true _)
            (KeyOp.exec (.apiKeyFindActive (keyPrefixOf raw) w₁.clock) i₂ w₂).2
        refine wp_bind.mpr (wp_mono ?_ hsafe)
        intro tr r w' _
        cases r with
        | error e => exact nofun
        | ok touched =>
          rintro tenant key ⟨⟩ rfl
          rw [hunrevoked] at hstill
          cases hstill
    · exact nofun

end Revocation

/-- **Keys**, in every run of the platform.  A text is accepted exactly if a key was issued with it that
has not been revoked and whose `expiresAt` is ahead, and then as that key, of the tenant it was issued to.
A revoked key is never accepted again, and the time of its revocation stays.  Of the revocations of a key
one succeeds, if its tenant asked for one.  A revocation leaves the keys of other tenants as they are,
and fails for them. -/
theorem api_keys {sha256 : String → List UInt8} (hsha : Function.Injective sha256) (es : List KeyEvent) :
    (∀ raw inp, (∀ n, (inp n).2.fault = none) → ∀ tenantId keyId,
      (∃ tenant key, ((ApiKeyService.verifyKey sha256 raw).run (interleave (keySystem sha256)) inp
          (keysAfter sha256 es)).1 = .ok (tenant, key) ∧ tenant.id = tenantId ∧ key.id = keyId) ↔
        ∃ x, IssuedIn sha256 (es ++ (inp 0).1 ++ (inp 1).1) raw x ∧
          LiveIn sha256 (es ++ (inp 0).1 ++ (inp 1).1)
            (keysAfter sha256 (es ++ (inp 0).1)).world.clock x ∧
          x.tenantId = tenantId ∧ x.keyId = keyId) ∧
    (∀ k ∈ (keysAfter sha256 es).world.apiKeys.rows, ∀ d, k.revokedAt = some d →
      (∀ raw inp tenant key, ((ApiKeyService.verifyKey sha256 raw).run (interleave (keySystem sha256))
        inp (keysAfter sha256 es)).1 = .ok (tenant, key) → key.id ≠ k.id) ∧
      ∀ fs, ∃ k' ∈ (keysAfter sha256 (es ++ fs)).world.apiKeys.rows, k'.issue = k.issue ∧
        k'.revokedAt = some d) ∧
    (∀ k ∈ (keysAfter sha256 es).world.apiKeys.rows, ∀ fs,
      (∃ pid, (spawned es).length ≤ pid ∧
        (spawned (es ++ fs))[pid]? = some (.revokeKey k.tenantId k.id)) →
      RevocationsEnded sha256 (es ++ fs) k.id → ∃! pid, Revoked sha256 (es ++ fs) k.id pid) ∧
    (∀ pid tenantId keyId, (spawned es)[pid]? = some (.revokeKey tenantId keyId) →
      (∀ m ∈ keyCalls sha256 pid es, ∀ k ∈ m.state.apiKeys.rows, k.tenantId ≠ tenantId →
        k ∈ (m.op.exec m.input m.state).2.apiKeys.rows) ∧
      ∀ k ∈ (keysAfter sha256 es).world.apiKeys.rows, k.id = keyId → k.tenantId ≠ tenantId →
        ¬ EndedAs sha256 es pid (.ok ())) := by
  refine ⟨?_, ?_, ?_, ?_⟩
  · intro raw inp hinp tenantId keyId
    exact verifyKey_iff hsha es raw inp hinp tenantId keyId
  · intro k hk d hd
    have hrevoked : (keysAfter sha256 es).world.revoked k.id = true := by
      rw [revokedAt_of_revoked hk, hd]
      rfl
    refine ⟨?_, ?_⟩
    · intro raw inp tenant key hok
      exact run_interleave_of_wp (respects_keyStep sha256) (healthy_keysAfter sha256 es)
        (wp_verifyKey_revoked raw hrevoked) (fun _ _ _ => trivial) tenant key hok
    · intro fs
      rw [keysAfter_append]
      obtain ⟨k', hk', hissue, hkept⟩ := (keys_after sha256 (healthy_keysAfter sha256 es) fs).1 k hk
      exact ⟨k', hk', hissue, by rw [hkept (by rw [hd]; rfl), hd]⟩
  · intro k hk fs hasked hended
    exact existsUnique_revoked es fs hk hasked hended
  · intro pid tenantId keyId ht
    refine ⟨?_, ?_⟩
    · intro m hm k hk hother
      obtain ⟨pre, post, -, hown⟩ := own_of_mem sha256 ht hm
      exact kept_of_other rfl hown hk hother
    · intro k hk hid hother hended
      obtain ⟨m, hm, hrevokes⟩ := (outcome_of_ended ht hended).returned rfl
      obtain ⟨_, ⟨⟩, k₁, hk₁, hid₁, htenant₁⟩ := task_of_revokes ht hm hrevokes
      obtain ⟨k₂, hk₂, hissue, -⟩ := evolves_of_moment (mem_moments_of_mem_callsOf hm) k₁ hk₁
      have hid₂ : k₂.id = k.id := (congrArg KeyIssue.keyId hissue).trans (hid₁.trans hid.symm)
      rw [key_of_id hk₂ hk hid₂] at hissue
      exact hother ((congrArg KeyIssue.tenantId hissue).trans htenant₁)

section Samples

/-- A tenant is created, with a key, and creates another that expires at 5.  In the samples a text is its
own digest. -/
def issuingKeys : List KeyEvent :=
  [.spawn (.createTenant "acme"), .step 0 {}, .step 0 { uuid := "acme-id", keyUuid := "first" },
    .step 0 {}, .spawn (.createKey "acme-id" { name := "ci", expiresAt := some 5 }),
    .step 1 { bytes := fun _ => 1 }, .step 1 { keyUuid := "second" }, .step 1 {}]

/-- The issue of the second key. -/
def secondIssue : KeyIssue :=
  ⟨"second", "acme-id", hashToken Bytes.utf8 (rawKeyOf fun _ => 1), keyPrefixOf (rawKeyOf fun _ => 1),
    some 5⟩

theorem issuingKeys_world :
    secondIssue ∈ (keysAfter Bytes.utf8 issuingKeys).world.issues ∧
      (keysAfter Bytes.utf8 issuingKeys).world.revoked "second" = false ∧
      (keysAfter Bytes.utf8 issuingKeys).world.clock = 0 := by decide +kernel

theorem shifted_world (es : List KeyEvent) (now : Nat) :
    (keysAfter Bytes.utf8 (es ++ [.shift now])).world.issues = (keysAfter Bytes.utf8 es).world.issues ∧
      (keysAfter Bytes.utf8 (es ++ [.shift now])).world.revoked =
        (keysAfter Bytes.utf8 es).world.revoked ∧
      (keysAfter Bytes.utf8 (es ++ [.shift now])).world.clock =
        (keysAfter Bytes.utf8 es).world.clock + now := by
  rw [keysAfter_append]
  exact ⟨rfl, rfl, rfl⟩

theorem secondIssue_of_time (now : Nat) :
    IssuedIn Bytes.utf8 (issuingKeys ++ [.shift now]) (rawKeyOf fun _ => 1) secondIssue ∧
      (∀ m ∈ keyMoments Bytes.utf8 (issuingKeys ++ [.shift now]), revokes "second" m = false) ∧
      (keysAfter Bytes.utf8 (issuingKeys ++ [.shift now])).world.clock = now := by
  obtain ⟨hissues, hrevoked, hclock⟩ := shifted_world issuingKeys now
  obtain ⟨hmem, hfalse, hzero⟩ := issuingKeys_world
  rw [← hissues] at hmem
  rw [← hrevoked, revoked_eq_false_iff] at hfalse
  rw [hzero, Nat.zero_add] at hclock
  obtain ⟨raw, hraw⟩ := exists_issued Bytes.utf8 hmem
  have hhash := (hash_of_issued Bytes.utf8 hraw).1
  rw [← Bytes.utf8_injective (Bytes.toHex_injective hhash)] at hraw
  exact ⟨hraw, hfalse, hclock⟩

/-- The key is accepted while it has not expired. -/
theorem api_keys_unexpired :
    ∃ tenant key, ((ApiKeyService.verifyKey Bytes.utf8 (rawKeyOf fun _ => 1)).run
        (interleave (keySystem Bytes.utf8)) (fun _ => ([], {}))
        (keysAfter Bytes.utf8 (issuingKeys ++ [.shift 4]))).1 = .ok (tenant, key) ∧
      tenant.id = "acme-id" ∧ key.id = "second" := by
  obtain ⟨hissued, hunrevoked, hclock⟩ := secondIssue_of_time 4
  have hverdict := (api_keys Bytes.utf8_injective (issuingKeys ++ [.shift 4])).1
    (rawKeyOf fun _ => 1) (fun _ => ([], {})) (fun _ => rfl) "acme-id" "second"
  simp only [List.append_nil] at hverdict
  refine hverdict.mpr ⟨secondIssue, hissued, ⟨hunrevoked, ?_⟩, rfl, rfl⟩
  rintro e ⟨⟩
  rw [hclock]
  decide

/-- At the time of its `expiresAt` a key is refused already. -/
theorem expiring_refused :
    ¬ ∀ (sha256 : String → List UInt8), Function.Injective sha256 → ∀ es raw,
      ∀ inp : Nat → List KeyEvent × KeyInput, (∀ n, (inp n).2.fault = none) →
      ((∃ found, ((ApiKeyService.verifyKey sha256 raw).run (interleave (keySystem sha256)) inp
          (keysAfter sha256 es)).1 = .ok found) ↔
        ∃ x, IssuedIn sha256 (es ++ (inp 0).1 ++ (inp 1).1) raw x ∧
          (∀ m ∈ keyMoments sha256 (es ++ (inp 0).1 ++ (inp 1).1), revokes x.keyId m = false) ∧
          ∀ e, x.expiresAt = some e → (keysAfter sha256 (es ++ (inp 0).1)).world.clock ≤ e) := by
  intro h
  obtain ⟨hissued, hunrevoked, hclock⟩ := secondIssue_of_time 5
  have haccepted := (h Bytes.utf8 Bytes.utf8_injective (issuingKeys ++ [.shift 5])
    (rawKeyOf fun _ => 1) (fun _ => ([], {})) fun _ => rfl).mpr ⟨secondIssue, ?_⟩
  · obtain ⟨⟨tenant, key⟩, hfound⟩ := haccepted
    have hverdict := verifyKey_iff Bytes.utf8_injective (issuingKeys ++ [.shift 5])
      (rawKeyOf fun _ => 1) (fun _ => ([], {})) (fun _ => rfl) tenant.id key.id
    simp only [List.append_nil] at hverdict
    obtain ⟨x, hx, hlive, -⟩ := hverdict.mp ⟨tenant, key, hfound, rfl, rfl⟩
    -- the digest is that of the one key
    have hsame : x = secondIssue := by
      obtain ⟨k, hk, rfl⟩ := List.mem_map.mp (mem_issues_of_issued Bytes.utf8 hx)
      obtain ⟨k', hk', heq⟩ := List.mem_map.mp (mem_issues_of_issued Bytes.utf8 hissued)
      have hhash : k.keyHash = k'.keyHash :=
        (hash_of_issued Bytes.utf8 hx).1.trans (congrArg KeyIssue.keyHash heq).symm
      rw [← heq, Table.eq_of_mem_keys _ hk hk' (k := .keyHash k.keyHash) (by simp [ApiKey.keys])
        (by simp [ApiKey.keys, hhash])]
    have hlt := hlive.unexpired 5 (by rw [hsame]; rfl)
    rw [hclock] at hlt
    exact absurd hlt (by decide)
  · simp only [List.append_nil]
    refine ⟨hissued, hunrevoked, ?_⟩
    rintro e ⟨⟩
    rw [hclock]

end Samples

end TransactionSimulator
