import TransactionSimulator.Lib.Json
import TransactionSimulator.Lib.Regex
import TransactionSimulator.World

/-!
# Requests and replies

What the routes have in common: the request with its verified user, the two middlewares, the checks
of `zod`, and the error handler that turns an error into a reply.
-/

namespace TransactionSimulator

open Concurrent Texts

/-- `request.user`: the claims of the access token. -/
structure User where
  id : String
  email : String
  role : Role
  tenantId : String
  deriving DecidableEq, Repr

/-- A request: its id, the headers that are read or sent, `:id` of its path, its query and its body. -/
structure HttpRequest where
  id : String
  authorization : Option String
  idempotencyKey : Option String := none
  param : String := ""
  page : Option String := none
  limit : Option String := none
  body : Json := .null

/-- The JSON of a reply.  `error` is what the middlewares send, `failure` what the error handler
does. -/
inductive Body (α : Type)
  | data (data : α) (requestId : String)
  | error (message requestId : String)
  | failure (code message : String) (details : List (String × String)) (requestId : String)
      (timestamp : Option String)
  deriving DecidableEq, Repr

structure HttpReply (α : Type) where
  statusCode : Nat
  body : Body α
  deriving DecidableEq, Repr

/-- `successResponse`. -/
def successResponse {α : Type} (request : HttpRequest) (data : α) (statusCode : Nat := 200) : HttpReply α :=
  ⟨statusCode, .data data request.id⟩

/-- What a middleware sends instead of going on. -/
structure Rejection where
  statusCode : Nat
  error : String
  deriving DecidableEq, Repr

section Middleware

variable (verifyToken : String → Option User) (request : HttpRequest)

/-- `auth.middleware.ts`; `verifyToken` is the check of the JWT library. -/
def authenticate : Except Rejection User :=
  if Js.isFalsy request.authorization then .error ⟨401, "Missing Authorization header"⟩
  else
    match Js.split (request.authorization.getD "") ' ' with
    | scheme :: token :: _ =>
      if scheme ≠ "Bearer" || token = "" then .error ⟨401, "Invalid Authorization header"⟩
      else
        match verifyToken token with
        | some user => .ok user
        | none => .error ⟨401, "Invalid or expired token"⟩
    | _ => .error ⟨401, "Invalid Authorization header"⟩

/-- `role.middleware.ts`. -/
def authorize (allowedRoles : List Role) (user : User) : Except Rejection Unit :=
  if allowedRoles.contains user.role then .ok () else .error ⟨403, "Forbidden"⟩

/-- `preHandler: [authenticate, authorize(allowedRoles)]`. -/
def preHandler (allowedRoles : List Role) : Except Rejection User := do
  let user ← authenticate verifyToken request
  authorize allowedRoles user
  return user

end Middleware

/-! ## Validation -/

/-- An issue of `zod`: the field and the message. -/
abbrev Issue := String × String

/-- The reply to a `ZodError`. -/
def validationError {α : Type} (request : HttpRequest) (issues : List Issue) : HttpReply α :=
  ⟨400, .failure "VALIDATION_ERROR" "Invalid request payload" issues request.id none⟩

/-- A schema: what it makes of a value, or its issues. -/
abbrev Parsed := Except (List Issue)

/-- The issues of two fields are reported together. -/
def Parsed.both {α β : Type} : Parsed α → Parsed β → Parsed (α × β)
  | .ok a, .ok b => .ok (a, b)
  | .ok _, .error issues => .error issues
  | .error issues, .ok _ => .error issues
  | .error issues, .error issues' => .error (issues ++ issues')

/-- `z.string()`. -/
def zodString (path : String) : Option Json → Parsed String
  | some (.str s) => .ok s
  | value => .error [(path, "Invalid input: expected string, received " ++ Json.typeName value)]

/-- The texts that `z.string().uuid()` accepts: versions 1 to 8 of the RFC, and the two extreme values. -/
def isUuid (s : String) : Bool :=
  let hex := Regex.char fun c => c.isDigit || ('a' ≤ c && c ≤ 'f') || ('A' ≤ c && c ≤ 'F')
  let times (n : Nat) := Regex.inOrder (List.replicate n hex)
  let dash := Regex.text "-"
  let version := Regex.char fun c => '1' ≤ c && c ≤ '8'
  let variant := Regex.char fun c => ['8', '9', 'a', 'b', 'A', 'B'].contains c
  let rfc := Regex.inOrder [times 8, dash, times 4, dash, version, times 3, dash, variant, times 3, dash,
    times 12]
  rfc.accepts s.toList || s = "00000000-0000-0000-0000-000000000000" ||
    s = "ffffffff-ffff-ffff-ffff-ffffffffffff"

/-- `z.string().uuid()`. -/
def zodUuid (path : String) (value : Option Json) : Parsed String := do
  let s ← zodString path value
  if isUuid s then return s else .error [(path, "Invalid UUID")]

/-- `z.object(…)` takes objects only. -/
def zodObject {α : Type} (value : Json) (fields : Parsed α) : Parsed α :=
  match value with
  | .obj _ => fields
  | _ => .error [("", "Invalid input: expected object, received " ++ Json.typeName (some value))]

/-! ## Errors -/

/-- The reply of `error-handler.ts` to an error that is not a validation error.  The `meta` of a Prisma
error is left out. -/
def errorReply {α : Type} (request : HttpRequest) (error : JsError) (now : Date) : HttpReply α :=
  let reply (statusCode : Nat) (code message : String) (details : List (String × String)) : HttpReply α :=
    ⟨statusCode, .failure code message details request.id (some (Js.toISOString now))⟩
  match error with
  | .appError statusCode code message details => reply statusCode code message details
  | .prisma "P2002" _ => reply 409 "RESOURCE_ALREADY_EXISTS" "Resource already exists" []
  | .prisma "P2025" _ => reply 404 "RESOURCE_NOT_FOUND" "Resource not found" []
  | .prisma "P2003" _ => reply 400 "INVALID_REFERENCE" "Invalid resource reference" []
  | .prisma _ _ => reply 500 "DATABASE_ERROR" "Database operation failed" []
  | _ => reply 500 "INTERNAL_SERVER_ERROR" "Unexpected error" []

def errorHandler {α : Type} (request : HttpRequest) (error : JsError) : Program (HttpReply α) := do
  let now ← prisma.now
  return errorReply request error now

/-- A route: the middlewares, the check of the input, and the handler, whose errors become replies. -/
def route {α β : Type} (request : HttpRequest) (user : Except Rejection User) (input : Parsed β)
    (handler : User → β → Program (HttpReply α)) : Program (HttpReply α) :=
  match user with
  | .error rejection => return ⟨rejection.statusCode, .error rejection.error request.id⟩
  | .ok user =>
    match input with
    | .error issues => return validationError request issues
    | .ok input => tryCatch (handler user input) (errorHandler request)

/-! ## A sample user -/

def User.sample : User := ⟨"user", "user@example.com", .USER, "tenant"⟩

/-- A library that knows one token. -/
def verifySample (token : String) : Option User := if token = "jwt" then some .sample else none

theorem authenticate_sample {request : HttpRequest} (h : request.authorization = some "Bearer jwt") :
    authenticate verifySample request = .ok .sample := by
  have hparts : Js.split "Bearer jwt" ' ' = ["Bearer", "jwt"] := by decide +kernel
  simp [authenticate, h, Js.isFalsy, hparts, verifySample]

end TransactionSimulator
