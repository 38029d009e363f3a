import TransactionSimulator.Api.Http
import TransactionSimulator.Auth.KeyStore

/-!
# Sessions

`AuthService` with the tokens of `jwt.service.ts` and the repositories of users and refresh tokens.  The
library that signs and verifies the tokens, and the one that compares passwords, are parameters.
-/

namespace TransactionSimulator

open Concurrent Relational

/-! ## Libraries -/

/-- `JwtPayload`. -/
structure JwtPayload where
  id : String
  email : String
  role : Role
  tenantId : String
  jti : Option String := none
  deriving DecidableEq, Repr

/-- `request.user`. -/
def JwtPayload.user (payload : JwtPayload) : User :=
  ⟨payload.id, payload.email, payload.role, payload.tenantId⟩

/-- `@fastify/jwt`, with the one secret of the application, and `bcrypt`. -/
structure AuthLibraries where
  sign : JwtPayload → (expiresIn : String) → (now : Date) → Except JsError String
  verify : (token : String) → (now : Date) → Except JsError JwtPayload
  /-- The milliseconds that `expiresIn` stands for. -/
  duration : (expiresIn : String) → Nat
  /-- The time of the claim `exp`, in whole seconds. -/
  expiry : (expiresIn : String) → (now : Date) → Date
  compare : (password passwordHash : String) → Bool

/-- What is known of `@fastify/jwt`: a token that was signed verifies as its payload up to its `exp`, and
not after it; it is not good for longer than `expiresIn`. -/
structure AuthLibraries.Lawful (lib : AuthLibraries) : Prop where
  verify_signed : ∀ {payload expiresIn signed token}, lib.sign payload expiresIn signed = .ok token →
    ∀ now ≤ lib.expiry expiresIn signed, lib.verify token now = .ok payload
  verify_expired : ∀ {payload expiresIn signed token}, lib.sign payload expiresIn signed = .ok token →
    ∀ now, lib.expiry expiresIn signed < now → ∀ payload', lib.verify token now ≠ .ok payload'
  expiry_le : ∀ expiresIn signed, lib.expiry expiresIn signed ≤ signed + lib.duration expiresIn

/-- The settings of the two kinds of tokens. -/
structure JwtEnv where
  JWT_ACCESS_EXPIRES : String := "15m"
  JWT_REFRESH_EXPIRES : String := "7d"

/-! ## The tables -/

/-- A row of the table `User`. -/
structure UserRow where
  id : String
  email : String
  passwordHash : String
  role : Role
  tenantId : String
  deriving DecidableEq, Repr

inductive UserUnique
  | id (id : String)
  | email (email : String)
  deriving DecidableEq, Repr

def UserRow.keys (u : UserRow) : List UserUnique := [.id u.id, .email u.email]

structure RefreshToken where
  id : String
  userId : String
  tokenHash : String
  expiresAt : Date
  deriving DecidableEq, Repr

inductive RefreshTokenUnique
  | id (id : String)
  | tokenHash (tokenHash : String)
  deriving DecidableEq, Repr

def RefreshToken.keys (t : RefreshToken) : List RefreshTokenUnique := [.id t.id, .tokenHash t.tokenHash]

structure AuthWorld where
  /-- The ids of the tenants. -/
  tenants : List String
  users : Table UserRow UserUnique UserRow.keys
  refreshTokens : Table RefreshToken RefreshTokenUnique RefreshToken.keys
  auditLogs : List AuditEntry
  clock : Date

/-- The last date of ECMAScript; a later one is invalid, and Prisma does not take it. -/
def MAX_DATE : Date := 8640000000000000

def invalidDate : JsError := .error "Invalid value for argument: Provided Date object is invalid"

/-! ## Calls -/

inductive AuthOp
  | randomUUID
  | now
  | hashPassword (password : String)
  | verifyPassword (password passwordHash : String)
  | sign (payload : JwtPayload) (expiresIn : String)
  | verify (token : String)
  | userCreate (email passwordHash : String) (role : Role) (tenantId : String)
  | userFindUnique (email : String)
  | refreshTokenCreate (userId tokenHash : String) (expiresAt : Date)
  | refreshTokenFindUnique (tokenHash : String)
  | refreshTokenDelete (tokenHash : String)
  | auditLogCreate (entry : AuditEntry)
  | logError (message : String)
  deriving DecidableEq

@[reducible] def AuthOp.Res : AuthOp → Type
  | randomUUID => String
  | now => Date
  | hashPassword _ => String
  | verifyPassword _ _ => Bool
  | sign _ _ => String
  | verify _ => JwtPayload
  | userCreate _ _ _ _ => UserRow
  | userFindUnique _ => Option UserRow
  | refreshTokenCreate _ _ _ => RefreshToken
  | refreshTokenFindUnique _ => Option RefreshToken
  | refreshTokenDelete _ => RefreshToken
  | auditLogCreate _ => Unit
  | logError _ => Unit

/-- All that the outside decides at a call: a fault of the database, random ids, the salted hash of a
password. -/
structure AuthInput where
  fault : Option Fault := none
  uuid : String := ""
  passwordHash : String := ""

instance : Inhabited AuthInput := ⟨{}⟩

section Calls

variable (lib : AuthLibraries)

def AuthOp.effect (i : AuthInput) (w : AuthWorld) : (o : AuthOp) → Except JsError o.Res × AuthWorld
  | randomUUID => (.ok i.uuid, w)
  | now => (.ok w.clock, w)
  | hashPassword _ => (.ok i.passwordHash, w)
  | verifyPassword password passwordHash => (.ok (lib.compare password passwordHash), w)
  | sign payload expiresIn => (lib.sign payload expiresIn w.clock, w)
  | verify token => (lib.verify token w.clock, w)
  | userCreate email passwordHash role tenantId =>
    if w.tenants.contains tenantId then
      match w.users.insert ⟨i.uuid, email, passwordHash, role, tenantId⟩ with
      | some t => (.ok ⟨i.uuid, email, passwordHash, role, tenantId⟩, { w with users := t })
      | none => (.error uniqueViolation, w)
    else (.error recordNotFound, w)
  | userFindUnique email => (.ok (w.users.get (.email email)), w)
  | refreshTokenCreate userId tokenHash expiresAt =>
    if expiresAt ≤ MAX_DATE then
      if (w.users.get (.id userId)).isSome then
        match w.refreshTokens.insert ⟨i.uuid, userId, tokenHash, expiresAt⟩ with
        | some t => (.ok ⟨i.uuid, userId, tokenHash, expiresAt⟩, { w with refreshTokens := t })
        | none => (.error uniqueViolation, w)
      else (.error foreignKeyViolation, w)
    else (.error invalidDate, w)
  | refreshTokenFindUnique tokenHash => (.ok (w.refreshTokens.get (.tokenHash tokenHash)), w)
  | refreshTokenDelete tokenHash =>
    match w.refreshTokens.get (.tokenHash tokenHash) with
    | none => (.error recordNotFound, w)
    | some t =>
      (.ok t, { w with refreshTokens := w.refreshTokens.deleteMany fun t => t.tokenHash = tokenHash })
  | auditLogCreate entry => (.ok (), { w with auditLogs := w.auditLogs ++ [entry] })
  | logError _ => (.ok (), w)

/-- The calls that stay inside the process. -/
def AuthOp.inProcess : AuthOp → Bool
  | randomUUID | now | hashPassword _ | verifyPassword _ _ | sign _ _ | verify _ | logError _ => true
  | _ => false

def AuthOp.exec (o : AuthOp) (i : AuthInput) (w : AuthWorld) : Except JsError o.Res × AuthWorld :=
  match if o.inProcess then none else i.fault with
  | none => o.effect lib i w
  | some f => (.error (.error f.message), if f.applied then (o.effect lib i w).2 else w)

end Calls

abbrev AuthProgram (α : Type) := Prog AuthOp AuthOp.Res JsError α

/-! ## Tokens -/

section Jwt

variable (env : JwtEnv)

def createAccessToken (payload : JwtPayload) : AuthProgram String :=
  .perform (AuthOp.sign payload env.JWT_ACCESS_EXPIRES)

/-- The id makes each token another text. -/
def createRefreshToken (payload : JwtPayload) : AuthProgram String := do
  let jti ← Prog.perform AuthOp.randomUUID
  Prog.perform (AuthOp.sign { payload with jti := some jti } env.JWT_REFRESH_EXPIRES)

def verifyToken (token : String) : AuthProgram JwtPayload :=
  .perform (AuthOp.verify token)

/-- The unit of a lifetime, in milliseconds. -/
def multiplier : Char → Option Nat
  | 's' => some 1000
  | 'm' => some (60 * 1000)
  | 'h' => some (60 * 60 * 1000)
  | 'd' => some (24 * 60 * 60 * 1000)
  | _ => none

/-- What `/^(\d+)([smhd])$/` reads. -/
def refreshLifetime (expires : String) : Option Nat :=
  match expires.toList.getLast?.bind multiplier with
  | none => none
  | some unit =>
    let digits := String.ofList expires.toList.dropLast
    if Js.isDigits digits then some (Js.bigInt digits * unit) else none

def getRefreshTokenExpiry : AuthProgram Date := do
  let now ← Prog.perform AuthOp.now
  match refreshLifetime env.JWT_REFRESH_EXPIRES with
  | none => throw (.error ("Invalid JWT_REFRESH_EXPIRES format: " ++ env.JWT_REFRESH_EXPIRES))
  | some lifetime => return now + lifetime

end Jwt

/-! ## Services -/

namespace Errors

def invalidCredentials (message : String) : JsError := .appError 401 "INVALID_CREDENTIALS" message []

def invalidToken (message : String) : JsError := .appError 401 "FORBIDDEN" message []

end Errors

namespace RefreshTokenRepository

variable (sha256 : String → List UInt8)

def create (userId token : String) (expiresAt : Date) : AuthProgram RefreshToken :=
  .perform (AuthOp.refreshTokenCreate userId (hashToken sha256 token) expiresAt)

def findByToken (token : String) : AuthProgram (Option RefreshToken) :=
  .perform (AuthOp.refreshTokenFindUnique (hashToken sha256 token))

def deleteByToken (token : String) : AuthProgram RefreshToken :=
  .perform (AuthOp.refreshTokenDelete (hashToken sha256 token))

end RefreshTokenRepository

namespace AuthService

/-- `auditLogService.record`. -/
def record (entry : AuditEntry) : AuthProgram Unit :=
  AuditLogService.bestEffort (.perform (AuthOp.auditLogCreate entry))
    (.perform (AuthOp.logError "audit_log.write.failed"))

def register (email password tenantId : String) : AuthProgram UserRow := do
  let passwordHash ← Prog.perform (AuthOp.hashPassword password)
  let user ← Prog.perform (AuthOp.userCreate email passwordHash .USER tenantId)
  record
    { tenantId := some tenantId, userId := some user.id, action := "user.registered",
      resource := "User", resourceId := some user.id, metadata := [("email", [user.email])] }
  return user

structure LoginResult where
  accessToken : String
  refreshToken : String
  expiresIn : Nat := 900
  deriving DecidableEq, Repr

structure RefreshResult where
  accessToken : String
  expiresIn : Nat := 900
  deriving DecidableEq, Repr

section Tokens

variable (env : JwtEnv) (sha256 : String → List UInt8)

/-- The tokens of a user whose password was right. -/
def issueTokens (user : UserRow) : AuthProgram LoginResult := do
  let payload : JwtPayload := ⟨user.id, user.email, user.role, user.tenantId, none⟩
  let accessToken ← createAccessToken env payload
  let refreshToken ← createRefreshToken env payload
  let expiresAt ← getRefreshTokenExpiry env
  let _ ← RefreshTokenRepository.create sha256 user.id refreshToken expiresAt
  return { accessToken := accessToken, refreshToken := refreshToken }

def login (email password : String) : AuthProgram LoginResult := do
  match ← Prog.perform (AuthOp.userFindUnique email) with
  | none =>
    record
      { action := "auth.login.failed", resource := "User",
        metadata := [("email", [email]), ("reason", ["user_not_found"])] }
    throw (Errors.invalidCredentials "Invalid email or password")
  | some user =>
    let validPassword ← Prog.perform (AuthOp.verifyPassword password user.passwordHash)
    if validPassword then
      record
        { tenantId := some user.tenantId, userId := some user.id, action := "auth.login.succeeded",
          resource := "User", resourceId := some user.id }
      issueTokens env sha256 user
    else
      record
        { tenantId := some user.tenantId, userId := some user.id, action := "auth.login.failed",
          resource := "User", resourceId := some user.id, metadata := [("reason", ["invalid_password"])] }
      throw (Errors.invalidCredentials "Invalid email or password")

def refresh (token : String) : AuthProgram RefreshResult := do
  let payload ← verifyToken token
  match ← RefreshTokenRepository.findByToken sha256 token with
  | none => throw (Errors.invalidToken "Invalid refresh token")
  | some stored =>
    let now ← Prog.perform AuthOp.now
    if stored.expiresAt < now then throw (Errors.invalidToken "Refresh token expired")
    else
      let accessToken ← createAccessToken env ⟨payload.id, payload.email, payload.role, payload.tenantId, none⟩
      return { accessToken := accessToken }

end Tokens

end AuthService

/-! ## The system -/

inductive AuthTask
  | register (email password tenantId : String)
  | login (email password : String)
  | refresh (token : String)
  | deleteByToken (token : String)
  deriving DecidableEq

/-- Each call in a process of its own; time passes. -/
def authSystem (lib : AuthLibraries) (env : JwtEnv) (sha256 : String → List UInt8) :
    System AuthOp AuthOp.Res JsError AuthWorld AuthInput AuthTask Nat where
  exec := AuthOp.exec lib
  prog
    | .register email password tenantId => (AuthService.register email password tenantId).void
    | .login email password => (AuthService.login env sha256 email password).void
    | .refresh token => (AuthService.refresh env sha256 token).void
    | .deleteByToken token => (RefreshTokenRepository.deleteByToken sha256 token).void
  shift milliseconds w := { w with clock := w.clock + milliseconds }

abbrev AuthEvent := Event AuthTask AuthInput Nat

/-- A platform with these tenants, without users. -/
def AuthWorld.init (tenants : List String) : AuthWorld := ⟨tenants, .empty, .empty, [], 0⟩

/-- `authenticate` of a request that arrives at the time `now`. -/
def authenticateAt (lib : AuthLibraries) (now : Date) (request : HttpRequest) : Except Rejection User :=
  authenticate (fun token => (lib.verify token now).toOption.map JwtPayload.user) request

end TransactionSimulator
