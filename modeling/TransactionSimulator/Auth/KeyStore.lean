import TransactionSimulator.Lib.Bytes
import TransactionSimulator.World

/-!
# API keys

`ApiKeyService` and `TenantService`, with the repositories and the audit log under them.  The calls
they await are a system of their own: the tables of tenants, keys and audit entries, the clock and the
source of random bytes.  The digest of a key, SHA-256, is a parameter.
-/

namespace TransactionSimulator

open Concurrent Relational

/-! ## The tables -/

structure Tenant where
  id : String
  name : String
  deriving DecidableEq, Repr

inductive TenantUnique
  | id (id : String)
  | name (name : String)
  deriving DecidableEq, Repr

def Tenant.keys (t : Tenant) : List TenantUnique := [.id t.id, .name t.name]

structure ApiKey where
  id : String
  tenantId : String
  keyHash : String
  keyPrefix : String
  name : String
  active : Bool
  scopes : List String
  lastUsedAt : Option Date
  expiresAt : Option Date
  createdAt : Date
  revokedAt : Option Date
  deriving DecidableEq, Repr

inductive ApiKeyUnique
  | id (id : String)
  | keyHash (keyHash : String)
  deriving DecidableEq, Repr

def ApiKey.keys (k : ApiKey) : List ApiKeyUnique := [.id k.id, .keyHash k.keyHash]

/-- What is given for a new key; the other columns have their defaults. -/
structure ApiKeyCreateInput where
  keyHash : String
  keyPrefix : String
  name : String
  scopes : List String
  expiresAt : Option Date := none
  deriving DecidableEq, Repr

/-- `RecordAuditEntry`; every value of the metadata is a list of texts. -/
structure AuditEntry where
  tenantId : Option String := none
  userId : Option String := none
  action : String
  resource : String
  resourceId : Option String := none
  metadata : List (String × List String) := []
  deriving DecidableEq, Repr

structure KeyWorld where
  tenants : Table Tenant TenantUnique Tenant.keys
  apiKeys : Table ApiKey ApiKeyUnique ApiKey.keys
  /-- The foreign key of `ApiKey`. -/
  references : ∀ k ∈ apiKeys.rows, (tenants.get (.id k.tenantId)).isSome
  auditLogs : List AuditEntry
  clock : Date

/-- The row that `create` writes. -/
def newApiKey (id tenantId : String) (createdAt : Date) (data : ApiKeyCreateInput) : ApiKey where
  id := id
  tenantId := tenantId
  keyHash := data.keyHash
  keyPrefix := data.keyPrefix
  name := data.name
  active := true
  scopes := data.scopes
  lastUsedAt := none
  expiresAt := data.expiresAt
  createdAt := createdAt
  revokedAt := none

/-- `apiKey.create`. -/
def KeyWorld.createApiKey (w : KeyWorld) (id tenantId : String) (data : ApiKeyCreateInput) :
    Except JsError ApiKey × KeyWorld :=
  if htenant : (w.tenants.get (.id tenantId)).isSome then
    match h : w.apiKeys.insert (newApiKey id tenantId w.clock data) with
    | some t =>
      (.ok (newApiKey id tenantId w.clock data),
        { w with
          apiKeys := t
          references := by
            intro k hk
            rw [Table.insert_rows h] at hk
            rcases List.mem_append.mp hk with hk | hk
            · exact w.references k hk
            · rw [List.mem_singleton.mp hk]
              exact htenant })
    | none => (.error uniqueViolation, w)
  else (.error foreignKeyViolation, w)

/-- `tenant.create`. -/
def KeyWorld.createTenant (w : KeyWorld) (id name : String) : Except JsError Tenant × KeyWorld :=
  match h : w.tenants.insert ⟨id, name⟩ with
  | some t =>
    (.ok ⟨id, name⟩,
      { w with
        tenants := t
        references := by
          intro k hk
          rw [Table.get_insert h, Option.isSome_or, w.references k hk]
          rfl })
  | none => (.error uniqueViolation, w)

/-- `tenant.create` with a nested key: both rows or neither. -/
def KeyWorld.createTenantWithKey (w : KeyWorld) (id name keyId : String) (data : ApiKeyCreateInput) :
    Except JsError Tenant × KeyWorld :=
  match w.createTenant id name with
  | (.error e, _) => (.error e, w)
  | (.ok tenant, w') =>
    match w'.createApiKey keyId id data with
    | (.error e, _) => (.error e, w)
    | (.ok _, w'') => (.ok tenant, w'')

/-- `apiKey.updateMany`, of columns that are neither unique nor refer to another table. -/
def KeyWorld.updateApiKeys (w : KeyWorld) (cond : ApiKey → Bool) (data : ApiKey → ApiKey)
    (hdata : ∀ k, (data k).keys = k.keys ∧ (data k).tenantId = k.tenantId) : Nat × KeyWorld :=
  (w.apiKeys.rows.countP cond,
    { w with
      apiKeys :=
        ⟨w.apiKeys.written cond data, by
          rw [Table.written, List.pairwise_map]
          refine w.apiKeys.unique.imp ?_
          intro a b hab
          split <;> split <;> simpa only [(hdata _).1] using hab⟩
      references := by
        intro k hk
        obtain ⟨s, hs, rfl⟩ := Table.mem_written.mp hk
        split
        · rw [(hdata s).2]
          exact w.references s hs
        · exact w.references s hs })

/-- The `where` of `findActiveByPrefix`. -/
def ApiKey.isActive (keyPrefix : String) (now : Date) (k : ApiKey) : Bool :=
  k.keyPrefix = keyPrefix && k.active && k.revokedAt.isNone && k.expiresAt.all fun e => now < e

/-! ## Calls -/

inductive KeyOp
  | randomBytes
  | now
  | tenantCreate (name : String) (data : ApiKeyCreateInput)
  | apiKeyCreate (tenantId : String) (data : ApiKeyCreateInput)
  | apiKeyFindActive (keyPrefix : String) (at' : Date)
  | apiKeyTouch (id : String) (lastUsedAt : Date)
  | apiKeyFindFirst (id tenantId : String)
  | apiKeyRevoke (id tenantId : String) (revokedAt : Date)
  | auditLogCreate (entry : AuditEntry)
  | logError (message : String)

@[reducible] def KeyOp.Res : KeyOp → Type
  | randomBytes => Fin 32 → UInt8
  | now => Date
  | tenantCreate _ _ => Tenant
  | apiKeyCreate _ _ => ApiKey
  | apiKeyFindActive _ _ => List (ApiKey × Tenant)
  | apiKeyTouch _ _ => ApiKey
  | apiKeyFindFirst _ _ => Option ApiKey
  | apiKeyRevoke _ _ _ => Nat
  | auditLogCreate _ => Unit
  | logError _ => Unit

/-- All that the outside decides at a call: a fault of the database, the `uuid()` of new rows, random
bytes. -/
structure KeyInput where
  fault : Option Fault := none
  uuid : String := ""
  keyUuid : String := ""
  bytes : Fin 32 → UInt8 := fun _ => 0

instance : Inhabited KeyInput := ⟨{}⟩

def KeyOp.effect (i : KeyInput) (w : KeyWorld) : (o : KeyOp) → Except JsError o.Res × KeyWorld
  | randomBytes => (.ok i.bytes, w)
  | now => (.ok w.clock, w)
  | tenantCreate name data => w.createTenantWithKey i.uuid name i.keyUuid data
  | apiKeyCreate tenantId data => w.createApiKey i.keyUuid tenantId data
  | apiKeyFindActive keyPrefix at' =>
    (.ok ((w.apiKeys.rows.filter (ApiKey.isActive keyPrefix at')).filterMap fun k =>
      (w.tenants.get (.id k.tenantId)).map (k, ·)), w)
  | apiKeyTouch id lastUsedAt =>
    match w.apiKeys.get (.id id) with
    | none => (.error recordNotFound, w)
    | some k =>
      (.ok { k with lastUsedAt := some lastUsedAt },
        (w.updateApiKeys (fun k => k.id = id) (fun k => { k with lastUsedAt := some lastUsedAt })
          fun _ => ⟨rfl, rfl⟩).2)
  | apiKeyFindFirst id tenantId =>
    (.ok (w.apiKeys.rows.find? fun k => k.id = id && k.tenantId = tenantId), w)
  | apiKeyRevoke id tenantId revokedAt =>
    let (count, w') := w.updateApiKeys
      (fun k => k.id = id && k.tenantId = tenantId && k.revokedAt.isNone)
      (fun k => { k with active := false, revokedAt := some revokedAt }) fun _ => ⟨rfl, rfl⟩
    (.ok count, w')
  | auditLogCreate entry => (.ok (), { w with auditLogs := w.auditLogs ++ [entry] })
  | logError _ => (.ok (), w)

/-- The calls that stay inside the process and cannot fail. -/
def KeyOp.inProcess : KeyOp → Bool
  | randomBytes | now | logError _ => true
  | _ => false

def KeyOp.exec (o : KeyOp) (i : KeyInput) (w : KeyWorld) : Except JsError o.Res × KeyWorld :=
  match if o.inProcess then none else i.fault with
  | none => o.effect i w
  | some f => (.error (.error f.message), if f.applied then (o.effect i w).2 else w)

abbrev KeyProgram (α : Type) := Prog KeyOp KeyOp.Res JsError α

/-! ## Repositories -/

namespace AuditLogService

/-- A failure to write the trail does not fail what is audited. -/
def bestEffort {Op : Type} {Res : Op → Type} (write log : Prog Op Res JsError Unit) :
    Prog Op Res JsError Unit :=
  tryCatch write fun _ => log

def record (entry : AuditEntry) : KeyProgram Unit :=
  bestEffort (.perform (KeyOp.auditLogCreate entry))
    (.perform (KeyOp.logError "audit_log.write.failed"))

end AuditLogService

namespace ApiKeyRepository

def findActiveByPrefix (keyPrefix : String) : KeyProgram (List (ApiKey × Tenant)) := do
  let now ← Prog.perform KeyOp.now
  Prog.perform (KeyOp.apiKeyFindActive keyPrefix now)

def touchLastUsed (id : String) : KeyProgram ApiKey := do
  let now ← Prog.perform KeyOp.now
  Prog.perform (KeyOp.apiKeyTouch id now)

def findByIdForTenant (tenantId id : String) : KeyProgram (Option ApiKey) :=
  .perform (KeyOp.apiKeyFindFirst id tenantId)

def revoke (tenantId id : String) : KeyProgram Bool := do
  let now ← Prog.perform KeyOp.now
  let count ← Prog.perform (KeyOp.apiKeyRevoke id tenantId now)
  return count = 1

end ApiKeyRepository

/-! ## Services -/

section Services

variable (sha256 : String → List UInt8)

/-- The digest in hexadecimal digits. -/
def hashToken (token : String) : String := Bytes.toHex (sha256 token)

def KEY_PREFIX_LENGTH : Nat := 8

/-- `rawKey.substring(0, KEY_PREFIX_LENGTH)`. -/
def keyPrefixOf (rawKey : String) : String := String.ofList (rawKey.toList.take KEY_PREFIX_LENGTH)

/-- A key in the format of the platform, of random bytes. -/
def rawKeyOf (bytes : Fin 32 → UInt8) : String := "tenant_" ++ Bytes.toHex (List.ofFn bytes)

namespace ApiKeyService

def generateRawKey : KeyProgram String := do
  let bytes ← Prog.perform KeyOp.randomBytes
  return rawKeyOf bytes

structure CreateApiKeyInput where
  name : String
  scopes : Option (List String) := none
  expiresAt : Option Date := none
  deriving DecidableEq, Repr

/-- The row that is asked for. -/
def createData (input : CreateApiKeyInput) (rawKey : String) : ApiKeyCreateInput where
  keyHash := hashToken sha256 rawKey
  keyPrefix := keyPrefixOf rawKey
  name := input.name
  scopes := if (input.scopes.getD []).length > 0 then input.scopes.getD [] else ["*"]
  expiresAt := input.expiresAt

/-- The row, and the raw key, which is presented only here. -/
def createKey (tenantId : String) (input : CreateApiKeyInput) : KeyProgram (ApiKey × String) := do
  let rawKey ← generateRawKey
  let created ← Prog.perform (KeyOp.apiKeyCreate tenantId (createData sha256 input rawKey))
  AuditLogService.record
    { tenantId := some tenantId, action := "api_key.created", resource := "ApiKey",
      resourceId := some created.id, metadata := [("name", [created.name]), ("scopes", created.scopes)] }
  return (created, rawKey)

def invalidTenantKey {α : Type} : KeyProgram α :=
  throw (.appError 401 "INVALID_TENANT_KEY" "Invalid tenant API key" [])

/-- The comparison of the digests, as bytes. -/
def sameHash (presentedHash : List UInt8) (candidate : ApiKey × Tenant) : Bool :=
  (Bytes.ofHex candidate.1.keyHash).length = presentedHash.length &&
    Bytes.ofHex candidate.1.keyHash = presentedHash

def verifyKey (rawKey : String) : KeyProgram (Tenant × ApiKey) := do
  if rawKey = "" || rawKey.length < KEY_PREFIX_LENGTH then invalidTenantKey
  else
    let candidates ← ApiKeyRepository.findActiveByPrefix (keyPrefixOf rawKey)
    match candidates.find? (sameHash (Bytes.ofHex (hashToken sha256 rawKey))) with
    | none => invalidTenantKey
    | some found =>
      let _ ← ApiKeyRepository.touchLastUsed found.1.id
      return (found.2, found.1)

def revokeKey (tenantId keyId : String) : KeyProgram Unit := do
  match ← ApiKeyRepository.findByIdForTenant tenantId keyId with
  | none => throw (.appError 404 "API_KEY_NOT_FOUND" "API key not found" [])
  | some _ =>
    let revoked ← ApiKeyRepository.revoke tenantId keyId
    if revoked then
      AuditLogService.record
        { tenantId := some tenantId, action := "api_key.revoked", resource := "ApiKey",
          resourceId := some keyId }
    else throw (.appError 409 "API_KEY_ALREADY_REVOKED" "API key already revoked" [])

end ApiKeyService

namespace TenantService

/-- `TenantRepository.create`: the key of a new tenant. -/
def createData (apiKey : String) : ApiKeyCreateInput where
  keyHash := hashToken sha256 apiKey
  keyPrefix := keyPrefixOf apiKey
  name := "default"
  scopes := ["*"]

def createTenant (name : String) : KeyProgram (Tenant × String) := do
  let bytes ← Prog.perform KeyOp.randomBytes
  let apiKey := rawKeyOf bytes
  let tenant ← Prog.perform (KeyOp.tenantCreate name (createData sha256 apiKey))
  AuditLogService.record
    { tenantId := some tenant.id, action := "tenant.created", resource := "Tenant",
      resourceId := some tenant.id, metadata := [("name", [name])] }
  return (tenant, apiKey)

end TenantService

/-! ## The system -/

inductive KeyTask
  | createTenant (name : String)
  | createKey (tenantId : String) (input : ApiKeyService.CreateApiKeyInput)
  | verifyKey (rawKey : String)
  | revokeKey (tenantId keyId : String)
  deriving DecidableEq

/-- Each call in a process of its own; time passes. -/
def keySystem : System KeyOp KeyOp.Res JsError KeyWorld KeyInput KeyTask Nat where
  exec := KeyOp.exec
  prog
    | .createTenant name => (TenantService.createTenant sha256 name).void
    | .createKey tenantId input => (ApiKeyService.createKey sha256 tenantId input).void
    | .verifyKey rawKey => (ApiKeyService.verifyKey sha256 rawKey).void
    | .revokeKey tenantId keyId => ApiKeyService.revokeKey tenantId keyId
  shift milliseconds w := { w with clock := w.clock + milliseconds }

abbrev KeyEvent := Event KeyTask KeyInput Nat

/-- A platform without tenants. -/
def KeyWorld.empty : KeyWorld := ⟨.empty, .empty, by simp [Table.empty], [], 0⟩

def KeyWorld.start (w : KeyWorld) : Config KeyOp KeyOp.Res JsError KeyWorld := ⟨w, []⟩

end Services

end TransactionSimulator
