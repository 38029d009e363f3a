import Mathlib.Algebra.Order.BigOperators.Group.Finset
import TransactionSimulator.Lib.Json
import TransactionSimulator.World

/-!
# The idempotency guard

`withIdempotency`, with the service and the repository under it.  The guard looks for a row of the key,
and if there is none it inserts one and runs the handler.  The lookup alone decides nothing: between it
and the insertion others may insert the row, and then the unique constraint on the tenant and the key
refuses the insertion.

The calls of the guard and of the handler it is given are a system of their own.  When a handler returns,
and what, is decided outside (`GuardInput.outcome`); the world keeps a record of the handlers that were
started, of those that returned, and of what the calls returned.

* `covered_prog`: no handler starts without an insertion of its own call.
* `safe_prog`: what is stored under a key and replayed comes from a handler that returned.
* `handled_once`: what holds in every run.
-/

namespace TransactionSimulator

open Concurrent Relational Texts

/-! ## The table -/

/-- `IDEMPOTENCY_STATUS`. -/
inductive IdempotencyStatus
  | PROCESSING
  | COMPLETED
  | FAILED
  deriving DecidableEq, Repr

structure IdempotencyKey where
  id : String
  tenantId : String
  key : String
  requestHash : String
  transactionId : Option String
  response : Option Json
  status : IdempotencyStatus
  expiresAt : Date

/-- The unique columns. -/
inductive IdempotencyUnique
  | id (id : String)
  | tenantId_key (tenantId key : String)
  | transactionId (transactionId : String)
  deriving DecidableEq, Repr

def IdempotencyKey.keys (r : IdempotencyKey) : List IdempotencyUnique :=
  .id r.id :: .tenantId_key r.tenantId r.key ::
    (r.transactionId.map IdempotencyUnique.transactionId).toList

@[simp] theorem IdempotencyKey.id_mem_keys {r : IdempotencyKey} {id : String} :
    IdempotencyUnique.id id ∈ r.keys ↔ id = r.id := by
  simp [IdempotencyKey.keys]

@[simp] theorem IdempotencyKey.tenantId_key_mem_keys {r : IdempotencyKey} {tenantId key : String} :
    IdempotencyUnique.tenantId_key tenantId key ∈ r.keys ↔ tenantId = r.tenantId ∧ key = r.key := by
  simp [IdempotencyKey.keys]

structure IdempotencyKeyCreateInput where
  tenantId : String
  key : String
  requestHash : String
  status : IdempotencyStatus
  expiresAt : Date

/-- The columns an update sets; `none` leaves a column as it is. -/
structure IdempotencyKeyUpdateInput where
  transactionId : Option String := none
  response : Option Json := none
  status : IdempotencyStatus

def IdempotencyKeyUpdateInput.apply (data : IdempotencyKeyUpdateInput) (r : IdempotencyKey) :
    IdempotencyKey :=
  { r with
    transactionId := data.transactionId <|> r.transactionId
    response := data.response <|> r.response
    status := data.status }

abbrev IdempotencyTable := Table IdempotencyKey IdempotencyUnique IdempotencyKey.keys

/-- The row that `create` writes. -/
def newIdempotencyKey (id : String) (data : IdempotencyKeyCreateInput) : IdempotencyKey where
  id := id
  tenantId := data.tenantId
  key := data.key
  requestHash := data.requestHash
  transactionId := none
  response := none
  status := data.status
  expiresAt := data.expiresAt

/-- `idempotencyKey.create`. -/
def createIdempotencyKey (t : IdempotencyTable) (id : String) (data : IdempotencyKeyCreateInput) :
    Except JsError IdempotencyKey × IdempotencyTable :=
  match t.insert (newIdempotencyKey id data) with
  | some t' => (.ok (newIdempotencyKey id data), t')
  | none => (.error uniqueViolation, t)

/-- `idempotencyKey.update` with `where: { id }`. -/
def updateIdempotencyKey (t : IdempotencyTable) (id : String) (data : IdempotencyKeyUpdateInput) :
    Except JsError IdempotencyKey × IdempotencyTable :=
  match t.get (.id id) with
  | none => (.error recordNotFound, t)
  | some r =>
    match t.updateMany (fun r => r.id = id) data.apply with
    | some (t', _) => (.ok (data.apply r), t')
    | none => (.error uniqueViolation, t)

/-! ## Calls -/

/-- The arguments of a call of `withIdempotency`. -/
structure GuardedCall where
  tenantId : String
  idempotencyKey : Option String
  requestHash : String
  ttlMs : Option Nat := none
  deriving DecidableEq, Repr

/-- The call is made by the tenant under the key. -/
def GuardedCall.under (tenantId key : String) (call : GuardedCall) : Bool :=
  call.tenantId = tenantId && call.idempotencyKey = some key

/-- A handler that returned. -/
structure Execution where
  call : GuardedCall
  transactionId : String
  response : Json

/-- `{ response, replayed }`. -/
structure IdempotentResult where
  response : Json
  replayed : Bool

structure GuardWorld where
  keys : IdempotencyTable
  clock : Date
  started : List GuardedCall
  completed : List Execution
  returned : List (GuardedCall × IdempotentResult)

/-- What the guard awaits; `startHandler` and `awaitHandler` are the handler it is given, and `resolve` is
the return to the caller. -/
inductive GuardOp
  | now
  | findUnique (tenantId key : String)
  | create (data : IdempotencyKeyCreateInput)
  | update (id : String) (data : IdempotencyKeyUpdateInput)
  | startHandler (call : GuardedCall)
  | awaitHandler (call : GuardedCall)
  | resolve (call : GuardedCall) (result : IdempotentResult)

@[reducible] def GuardOp.Res : GuardOp → Type
  | now => Date
  | findUnique _ _ => Option IdempotencyKey
  | create _ => IdempotencyKey
  | update _ _ => IdempotencyKey
  | startHandler _ => Unit
  | awaitHandler _ => String × Json
  | resolve _ _ => Unit

/-- All that the outside decides at a call: a fault of the database (the foreign key to the transaction
included), a fresh `uuid()`, the end of a handler. -/
structure GuardInput where
  fault : Option Fault := none
  uuid : String := ""
  outcome : Except JsError (String × Json) := .error noReply

instance : Inhabited GuardInput := ⟨{}⟩

def GuardOp.effect (i : GuardInput) (w : GuardWorld) : (o : GuardOp) → Except JsError o.Res × GuardWorld
  | now => (.ok w.clock, w)
  | findUnique tenantId key => (.ok (w.keys.get (.tenantId_key tenantId key)), w)
  | create data =>
    ((createIdempotencyKey w.keys i.uuid data).1,
      { w with keys := (createIdempotencyKey w.keys i.uuid data).2 })
  | update id data =>
    ((updateIdempotencyKey w.keys id data).1, { w with keys := (updateIdempotencyKey w.keys id data).2 })
  | startHandler call => (.ok (), { w with started := w.started ++ [call] })
  | awaitHandler call =>
    match i.outcome with
    | .ok (transactionId, response) =>
      (.ok (transactionId, response),
        { w with completed := w.completed ++ [⟨call, transactionId, response⟩] })
    | .error e => (.error e, w)
  | resolve call result => (.ok (), { w with returned := w.returned ++ [(call, result)] })

/-- The statements of the database, which can fail. -/
def GuardOp.isStatement : GuardOp → Bool
  | findUnique _ _ | create _ | update _ _ => true
  | _ => false

def GuardOp.exec (o : GuardOp) (i : GuardInput) (w : GuardWorld) : Except JsError o.Res × GuardWorld :=
  match if o.isStatement then i.fault else none with
  | none => o.effect i w
  | some f => (.error (.error f.message), if f.applied then (o.effect i w).2 else w)

abbrev GuardProgram (α : Type) := Prog GuardOp GuardOp.Res JsError α

/-! ## The guard -/

namespace IdempotencyKeyRepository

def findByKey (tenantId key : String) : GuardProgram (Option IdempotencyKey) :=
  .perform (GuardOp.findUnique tenantId key)

def create (data : IdempotencyKeyCreateInput) : GuardProgram IdempotencyKey :=
  .perform (GuardOp.create data)

def markCompleted (id transactionId : String) (response : Json) : GuardProgram IdempotencyKey :=
  .perform (GuardOp.update id
    { transactionId := some transactionId, response := some response, status := .COMPLETED })

def markFailed (id : String) (response : Option Json) : GuardProgram IdempotencyKey :=
  .perform (GuardOp.update id { response, status := .FAILED })

end IdempotencyKeyRepository

namespace IdempotencyService

def find (tenantId key : String) : GuardProgram (Option IdempotencyKey) :=
  IdempotencyKeyRepository.findByKey tenantId key

def acquire (tenantId key requestHash : String) (ttlMs : Nat) : GuardProgram IdempotencyKey := do
  let now ← Prog.perform GuardOp.now
  IdempotencyKeyRepository.create
    { tenantId, key, requestHash, status := .PROCESSING, expiresAt := now + ttlMs }

def markCompleted (id transactionId : String) (response : Json) : GuardProgram IdempotencyKey :=
  IdempotencyKeyRepository.markCompleted id transactionId response

def markFailed (id : String) (response : Option Json) : GuardProgram IdempotencyKey :=
  IdempotencyKeyRepository.markFailed id response

end IdempotencyService

def DEFAULT_TTL_MS : Nat := 24 * 60 * 60 * 1000

/-- What the guard does with the row it found. -/
def replay (requestHash : String) (existing : IdempotencyKey) : Except JsError IdempotentResult :=
  if existing.requestHash ≠ requestHash then
    .error (.appError 409 "IDEMPOTENCY_KEY_REUSED"
      "This idempotency key was already used with a different request payload" [])
  else
    match existing.status with
    | .COMPLETED => .ok ⟨existing.response.getD .null, true⟩
    | .PROCESSING =>
      .error (.appError 409 "IDEMPOTENCY_KEY_IN_PROGRESS"
        "A request with this idempotency key is already being processed" [])
    | .FAILED =>
      .error (.appError 409 "IDEMPOTENCY_KEY_FAILED"
        "A previous request with this idempotency key failed; use a new key to retry" [])

def withIdempotency (call : GuardedCall) (handler : GuardProgram (String × Json)) :
    GuardProgram IdempotentResult := do
  if Js.isFalsy call.idempotencyKey then
    let (_, response) ← handler
    return ⟨response, false⟩
  else
    let idempotencyKey := call.idempotencyKey.getD ""
    match ← IdempotencyService.find call.tenantId idempotencyKey with
    | some existing => Prog.ofExcept (replay call.requestHash existing)
    | none =>
      let acquired ← IdempotencyService.acquire call.tenantId idempotencyKey call.requestHash
        (call.ttlMs.getD DEFAULT_TTL_MS)
      tryCatch
        (do
          let (transactionId, response) ← handler
          let _ ← IdempotencyService.markCompleted acquired.id transactionId response
          return ⟨response, false⟩)
        fun error => do
          let _ ← IdempotencyService.markFailed acquired.id (some (.obj [("error", .str error.message)]))
          throw error

/-- The handler of a call. -/
def handler (call : GuardedCall) : GuardProgram (String × Json) := do
  Prog.perform (GuardOp.startHandler call)
  Prog.perform (GuardOp.awaitHandler call)

/-- Calls of the guard, any number of them at once; the clock runs. -/
def guardSystem : System GuardOp GuardOp.Res JsError GuardWorld GuardInput GuardedCall Nat where
  exec := GuardOp.exec
  prog call := do
    let result ← withIdempotency call (handler call)
    Prog.perform (GuardOp.resolve call result)
  shift milliseconds w := { w with clock := w.clock + milliseconds }

/-- No call has been made under the key yet. -/
structure GuardWorld.Fresh (tenantId key : String) (w : GuardWorld) : Prop where
  row : w.keys.get (.tenantId_key tenantId key) = none
  started : w.started = []
  completed : w.completed = []
  returned : w.returned = []

/-- The state of the guard before anything has been started. -/
def GuardWorld.start (w : GuardWorld) : Config GuardOp GuardOp.Res JsError GuardWorld := ⟨w, []⟩

/-! ## What one call can do -/

open Prog (wp wp_bind wp_perform wp_tryCatch wp_mono Safe Yields Stable)

theorem GuardOp.exec_snd {P : GuardWorld → GuardWorld → Prop} {o : GuardOp} {i : GuardInput} {w : GuardWorld}
    (hrefl : P w w) (heff : P w (o.effect i w).2) : P w (o.exec i w).2 := by
  rw [GuardOp.exec]
  split
  · exact heff
  · dsimp only
    split
    · exact heff
    · exact hrefl

theorem GuardOp.exec_ok {o : GuardOp} {i : GuardInput} {w : GuardWorld} {a : o.Res}
    (h : (o.exec i w).1 = .ok a) : o.exec i w = o.effect i w := by
  rw [GuardOp.exec] at h ⊢
  split at h
  · rfl
  · cases h

theorem GuardOp.exec_of_not_isStatement {o : GuardOp} {i : GuardInput} {w : GuardWorld}
    (h : o.isStatement = false) : o.exec i w = o.effect i w := by
  rw [GuardOp.exec, h]
  rfl

namespace Guard

theorem updateIdempotencyKey_rows (t : IdempotencyTable) (id : String) (data : IdempotencyKeyUpdateInput) :
    (updateIdempotencyKey t id data).2 = t ∨
      (updateIdempotencyKey t id data).2.rows = t.written (fun r => r.id = id) data.apply := by
  rw [updateIdempotencyKey]
  split
  · exact .inl rfl
  split
  · next t' n h => exact .inr (Table.updateMany_eq_some h).1
  · exact .inl rfl

theorem createIdempotencyKey_rows (t : IdempotencyTable) (id : String) (data : IdempotencyKeyCreateInput) :
    (createIdempotencyKey t id data).2 = t ∨
      (createIdempotencyKey t id data).2.rows = t.rows ++ [newIdempotencyKey id data] := by
  rw [createIdempotencyKey]
  split
  · next t' h => exact .inr (Table.insert_rows h)
  · exact .inl rfl

/-- Some row of `w'` has the names and the hash of the row. -/
def Kept (w' : GuardWorld) (r : IdempotencyKey) : Prop :=
  ∃ r' ∈ w'.keys.rows, r'.id = r.id ∧ r'.tenantId = r.tenantId ∧ r'.key = r.key ∧
    r'.requestHash = r.requestHash

/-- **No call drops a row or renames it.** -/
theorem kept_effect (o : GuardOp) (i : GuardInput) (w : GuardWorld) :
    ∀ r ∈ w.keys.rows, Kept (o.effect i w).2 r := by
  intro r hr
  have hsame : Kept w r := ⟨r, hr, rfl, rfl, rfl, rfl⟩
  cases o with
  | create data =>
    rcases createIdempotencyKey_rows w.keys i.uuid data with heq | heq
    · simp only [GuardOp.effect, heq]
      exact hsame
    · simp only [GuardOp.effect, Kept, heq]
      exact ⟨r, List.mem_append_left _ hr, rfl, rfl, rfl, rfl⟩
  | update id data =>
    rcases updateIdempotencyKey_rows w.keys id data with heq | heq
    · simp only [GuardOp.effect, heq]
      exact hsame
    · simp only [GuardOp.effect, Kept, heq]
      refine ⟨_, Table.mem_written.mpr ⟨r, hr, rfl⟩, ?_⟩
      split <;> exact ⟨rfl, rfl, rfl, rfl⟩
  | awaitHandler call =>
    simp only [GuardOp.effect]
    split <;> exact hsame
  | _ => exact hsame

theorem kept_exec (o : GuardOp) (i : GuardInput) (w : GuardWorld) :
    ∀ r ∈ w.keys.rows, Kept (o.exec i w).2 r :=
  GuardOp.exec_snd (P := fun w w' => ∀ r ∈ w.keys.rows, Kept w' r)
    (fun r hr => ⟨r, hr, rfl, rfl, rfl, rfl⟩) (kept_effect o i w)

/-! ## What a key stands for -/

section Key

variable (tenantId key : String)

/-- The key is taken, by a call with the hash of this one. -/
def Acquired (w : GuardWorld) (call : GuardedCall) : Prop :=
  ∃ r ∈ w.keys.rows, r.tenantId = tenantId ∧ r.key = key ∧ r.requestHash = call.requestHash

/-- A handler of the key returned the response. -/
def Produced (w : GuardWorld) (response : Json) : Prop :=
  ∃ e ∈ w.completed, e.call.under tenantId key = true ∧ e.response = response

/-- What is stored under the key, started for it and replayed from it. -/
structure Sound (w : GuardWorld) : Prop where
  rows : ∀ r ∈ w.keys.rows, r.tenantId = tenantId → r.key = key → r.status = .COMPLETED →
    ∃ response, r.response = some response ∧ Produced tenantId key w response
  started : ∀ call ∈ w.started, call.under tenantId key = true → Acquired tenantId key w call
  returned : ∀ call result, (call, result) ∈ w.returned → call.under tenantId key = true →
    result.replayed = true → Acquired tenantId key w call ∧ Produced tenantId key w result.response

/-- What no call undoes: a row keeps its names and its hash, an execution stays on record. -/
structure Evolves (w w' : GuardWorld) : Prop where
  rows : ∀ r ∈ w.keys.rows, Kept w' r
  completed : ∀ e ∈ w.completed, e ∈ w'.completed
  sound : Sound tenantId key w → Sound tenantId key w'

/-- When a call may be made: what is completed, started or replayed is backed by a row and a handler. -/
def Backed (w : GuardWorld) : GuardOp → Prop
  | .create data => data.status ≠ .COMPLETED
  | .update id data => data.status = .COMPLETED → ∀ r ∈ w.keys.rows, r.id = id → r.tenantId = tenantId →
      r.key = key → ∃ response, data.response = some response ∧ Produced tenantId key w response
  | .startHandler call => call.under tenantId key = true → Acquired tenantId key w call
  | .resolve call result => call.under tenantId key = true → result.replayed = true →
      Acquired tenantId key w call ∧ Produced tenantId key w result.response
  | _ => True

end Key

section Evolution

variable {tenantId key : String} {w w' w'' : GuardWorld}

theorem Evolves.refl (w : GuardWorld) : Evolves tenantId key w w :=
  ⟨fun r hr => ⟨r, hr, rfl, rfl, rfl, rfl⟩, fun _ h => h, fun h => h⟩

theorem Evolves.trans (h : Evolves tenantId key w w') (h' : Evolves tenantId key w' w'') :
    Evolves tenantId key w w'' := by
  refine ⟨?_, fun e he => h'.completed e (h.completed e he), fun hs => h'.sound (h.sound hs)⟩
  intro r hr
  obtain ⟨r', hr', hid, htenant, hkey, hhash⟩ := h.rows r hr
  obtain ⟨r'', hr'', hid', htenant', hkey', hhash'⟩ := h'.rows r' hr'
  exact ⟨r'', hr'', hid'.trans hid, htenant'.trans htenant, hkey'.trans hkey, hhash'.trans hhash⟩

theorem Evolves.star (h : Relation.ReflTransGen (Evolves tenantId key) w w') :
    Evolves tenantId key w w' := by
  induction h with
  | refl => exact .refl w
  | tail _ hs ih => exact ih.trans hs

theorem Acquired.mono {call : GuardedCall} (hrows : ∀ r ∈ w.keys.rows, Kept w' r)
    (h : Acquired tenantId key w call) : Acquired tenantId key w' call := by
  obtain ⟨r, hr, htenant, hkey, hhash⟩ := h
  obtain ⟨r', hr', -, htenant', hkey', hhash'⟩ := hrows r hr
  exact ⟨r', hr', htenant'.trans htenant, hkey'.trans hkey, hhash'.trans hhash⟩

theorem Produced.mono {response : Json} (hcompleted : ∀ e ∈ w.completed, e ∈ w'.completed)
    (h : Produced tenantId key w response) : Produced tenantId key w' response := by
  obtain ⟨e, he, hunder, hresponse⟩ := h
  exact ⟨e, hcompleted e he, hunder, hresponse⟩

/-- Rows and executions are kept; what is new in the three records is backed. -/
theorem Evolves.mk_of (hrows : ∀ r ∈ w.keys.rows, Kept w' r)
    (hcompleted : ∀ e ∈ w.completed, e ∈ w'.completed)
    (hnewRows : Sound tenantId key w → ∀ r ∈ w'.keys.rows, r.tenantId = tenantId → r.key = key →
      r.status = .COMPLETED → ∃ response, r.response = some response ∧ Produced tenantId key w response)
    (hstarted : ∀ call ∈ w'.started, call ∈ w.started ∨
      (call.under tenantId key = true → Acquired tenantId key w call))
    (hreturned : ∀ call result, (call, result) ∈ w'.returned → (call, result) ∈ w.returned ∨
      (call.under tenantId key = true → result.replayed = true →
        Acquired tenantId key w call ∧ Produced tenantId key w result.response)) :
    Evolves tenantId key w w' := by
  refine ⟨hrows, hcompleted, fun hw => ⟨?_, ?_, ?_⟩⟩
  · intro r hr htenant hkey hstatus
    obtain ⟨response, hresponse, hproduced⟩ := hnewRows hw r hr htenant hkey hstatus
    exact ⟨response, hresponse, hproduced.mono hcompleted⟩
  · intro call hcall hunder
    rcases hstarted call hcall with h | h
    · exact (hw.started call h hunder).mono hrows
    · exact (h hunder).mono hrows
  · intro call result hcall hunder hreplayed
    have hold : Acquired tenantId key w call ∧ Produced tenantId key w result.response := by
      rcases hreturned call result hcall with h | h
      · exact hw.returned call result h hunder hreplayed
      · exact h hunder hreplayed
    exact ⟨hold.1.mono hrows, hold.2.mono hcompleted⟩

/-- **A call that is backed undoes nothing.** -/
theorem evolves_exec {o : GuardOp} (h : Backed tenantId key w o) (i : GuardInput) :
    Evolves tenantId key w (o.exec i w).2 := by
  refine GuardOp.exec_snd (P := Evolves tenantId key) (.refl w) ?_
  have hkept := kept_effect o i w
  cases o with
  | now => exact .refl w
  | findUnique tenantId' key' => exact .refl w
  | create data =>
    refine Evolves.mk_of hkept (fun _ he => he) ?_ (fun _ hc => .inl hc) (fun _ _ hc => .inl hc)
    intro hw r hr htenant hkey hstatus
    rcases createIdempotencyKey_rows w.keys i.uuid data with heq | heq
    · simp only [GuardOp.effect, heq] at hr
      exact hw.rows r hr htenant hkey hstatus
    · simp only [GuardOp.effect, heq, List.mem_append, List.mem_singleton] at hr
      rcases hr with hr | rfl
      · exact hw.rows r hr htenant hkey hstatus
      · exact absurd hstatus h
  | update id data =>
    refine Evolves.mk_of hkept (fun _ he => he) ?_ (fun _ hc => .inl hc) (fun _ _ hc => .inl hc)
    intro hw r hr htenant hkey hstatus
    rcases updateIdempotencyKey_rows w.keys id data with heq | heq
    · simp only [GuardOp.effect, heq] at hr
      exact hw.rows r hr htenant hkey hstatus
    · simp only [GuardOp.effect, heq, Table.mem_written] at hr
      obtain ⟨s, hs, rfl⟩ := hr
      by_cases hid : s.id = id
      · rw [if_pos (by simpa using hid)] at htenant hkey hstatus ⊢
        obtain ⟨response, hresponse, hproduced⟩ := h hstatus s hs hid htenant hkey
        refine ⟨response, ?_, hproduced⟩
        simp only [IdempotencyKeyUpdateInput.apply, hresponse]
        rfl
      · rw [if_neg (by simpa using hid)] at htenant hkey hstatus ⊢
        exact hw.rows s hs htenant hkey hstatus
  | startHandler call =>
    refine Evolves.mk_of hkept (fun _ he => he) (fun hw => hw.rows) ?_ (fun _ _ hc => .inl hc)
    intro call' hcall
    simp only [GuardOp.effect, List.mem_append, List.mem_singleton] at hcall
    rcases hcall with hcall | rfl
    · exact .inl hcall
    · exact .inr h
  | awaitHandler call =>
    simp only [GuardOp.effect] at hkept ⊢
    split
    · exact Evolves.mk_of (fun r hr => ⟨r, hr, rfl, rfl, rfl, rfl⟩) (fun e he => List.mem_append_left _ he)
        (fun hw => hw.rows) (fun _ hc => .inl hc) (fun _ _ hc => .inl hc)
    · exact .refl w
  | resolve call result =>
    refine Evolves.mk_of hkept (fun _ he => he) (fun hw => hw.rows) (fun _ hc => .inl hc) ?_
    intro call' result' hcall
    simp only [GuardOp.effect, List.mem_append, List.mem_singleton, Prod.mk.injEq] at hcall
    rcases hcall with hcall | ⟨rfl, rfl⟩
    · exact .inl hcall
    · exact .inr h

theorem stable_sound :
    Stable (Evolves tenantId key) (Evolves tenantId key) (Sound tenantId key) :=
  ⟨fun _ _ h hw => h.sound hw, fun _ _ h hw => h.sound hw⟩

/-! ## The guard step by step -/

theorem yields_op {o : GuardOp} {F : o.Res → GuardWorld → Prop}
    (hop : ∀ w₁, Evolves tenantId key w w₁ → Backed tenantId key w₁ o)
    (hF : ∀ w₁ i a, Evolves tenantId key w w₁ → (o.effect i w₁).1 = .ok a → F a (o.effect i w₁).2) :
    Yields GuardOp.exec (Evolves tenantId key) (Evolves tenantId key) (.perform o) F w := by
  refine wp_perform.mpr ?_
  intro w₁ hpath i
  refine ⟨evolves_exec (hop w₁ (.star hpath)) i, ?_⟩
  intro a ha
  have heffect := GuardOp.exec_ok ha
  rw [heffect] at ha ⊢
  exact hF w₁ i a (.star hpath) ha

/-- The row `id` is the one that the call inserted. -/
def Holds (call : GuardedCall) (id : String) (w : GuardWorld) : Prop :=
  ∃ r ∈ w.keys.rows, r.id = id ∧ r.tenantId = call.tenantId ∧ call.idempotencyKey = some r.key ∧
    r.requestHash = call.requestHash

theorem stable_holds (call : GuardedCall) (id : String) :
    Stable (Evolves tenantId key) (Evolves tenantId key) (Holds call id) := by
  have hkeep : ∀ w w', Evolves tenantId key w w' → Holds call id w → Holds call id w' := by
    intro w w' h hw
    obtain ⟨r, hr, hid, htenant, hkey, hhash⟩ := hw
    obtain ⟨r', hr', hid', htenant', hkey', hhash'⟩ := h.rows r hr
    exact ⟨r', hr', hid'.trans hid, htenant'.trans htenant, hkey' ▸ hkey, hhash'.trans hhash⟩
  exact ⟨hkeep, hkeep⟩

theorem Holds.acquired {call : GuardedCall} {id : String} (h : Holds call id w)
    (hunder : call.under tenantId key = true) : Acquired tenantId key w call := by
  obtain ⟨r, hr, -, htenant, hkey, hhash⟩ := h
  simp only [GuardedCall.under, Bool.and_eq_true, decide_eq_true_eq] at hunder
  refine ⟨r, hr, htenant.trans hunder.1, ?_, hhash⟩
  rw [hunder.2, Option.some.injEq] at hkey
  exact hkey.symm

theorem yields_acquire (call : GuardedCall) {k : String} (hk : call.idempotencyKey = some k) (ttlMs : Nat) :
    Yields GuardOp.exec (Evolves tenantId key) (Evolves tenantId key)
      (IdempotencyService.acquire call.tenantId k call.requestHash ttlMs)
      (fun r w' => Holds call r.id w') w := by
  refine Yields.bind (F := fun _ _ => True) (yields_op (fun _ _ => trivial) fun _ _ _ _ _ => trivial) ?_
  intro now w₁ _
  refine yields_op (fun _ _ => by simp [Backed]) ?_
  intro w₂ i r _ hr
  simp only [GuardOp.effect, createIdempotencyKey] at hr ⊢
  split at hr
  · next t hinsert =>
    cases hr
    exact ⟨_, by rw [Table.insert_rows hinsert]; simp, rfl, rfl, hk, rfl⟩
  · cases hr

theorem yields_handler (call : GuardedCall)
    (h : ∀ w₁, Evolves tenantId key w w₁ → Backed tenantId key w₁ (.startHandler call)) :
    Yields GuardOp.exec (Evolves tenantId key) (Evolves tenantId key) (handler call)
      (fun a w' => ⟨call, a.1, a.2⟩ ∈ w'.completed) w := by
  refine Yields.bind (F := fun _ _ => True) (yields_op h fun _ _ _ _ _ => trivial) ?_
  intro _ w₁ _
  refine yields_op (fun _ _ => trivial) ?_
  intro w₂ i a _ ha
  simp only [GuardOp.effect] at ha ⊢
  split at ha
  · cases ha
    simp
  · cases ha

/-- What the guard returns may be returned. -/
def Returnable (tenantId key : String) (call : GuardedCall) (result : IdempotentResult)
    (w : GuardWorld) : Prop :=
  Backed tenantId key w (.resolve call result)

theorem returnable_of_not_replayed {call : GuardedCall} {response : Json} :
    Returnable tenantId key call ⟨response, false⟩ w :=
  fun _ h => by cases h

/-- A row that is replayed. -/
theorem returnable_of_replay {call : GuardedCall} {existing : IdempotencyKey} {result : IdempotentResult}
    {k : String} (hw : Sound tenantId key w) (hk : call.idempotencyKey = some k)
    (hexisting : w.keys.get (.tenantId_key call.tenantId k) = some existing)
    (hreplay : replay call.requestHash existing = .ok result) : Returnable tenantId key call result w := by
  obtain ⟨hmem, hnames⟩ := w.keys.get_eq_some_iff.mp hexisting
  rw [IdempotencyKey.tenantId_key_mem_keys] at hnames
  intro hunder _
  simp only [GuardedCall.under, Bool.and_eq_true, decide_eq_true_eq, hk, Option.some.injEq] at hunder
  have htenant : existing.tenantId = tenantId := hnames.1.symm.trans hunder.1
  have hkey : existing.key = key := hnames.2.symm.trans hunder.2
  rw [replay] at hreplay
  split at hreplay
  · cases hreplay
  · next hhash =>
    split at hreplay
    · next hstatus =>
      cases hreplay
      obtain ⟨response, hresponse, hproduced⟩ := hw.rows existing hmem htenant hkey hstatus
      refine ⟨⟨existing, hmem, htenant, hkey, not_not.mp hhash⟩, ?_⟩
      rw [hresponse]
      exact hproduced
    · cases hreplay
    · cases hreplay

/-- **The guard starts, stores and replays only what is backed.** -/
theorem yields_withIdempotency (hkey : key ≠ "") (call : GuardedCall) (hw : Sound tenantId key w) :
    Yields GuardOp.exec (Evolves tenantId key) (Evolves tenantId key)
      (withIdempotency call (handler call)) (fun result w' => Returnable tenantId key call result w') w := by
  unfold withIdempotency
  by_cases hfalsy : Js.isFalsy call.idempotencyKey = true
  · -- without a key the handler runs unprotected
    rw [if_pos hfalsy]
    have hnot : ¬ call.under tenantId key = true := by
      intro hunder
      simp only [GuardedCall.under, Bool.and_eq_true, decide_eq_true_eq] at hunder
      simp only [Js.isFalsy, hunder.2, Option.getD_some, decide_eq_true_eq] at hfalsy
      exact hkey hfalsy
    refine Yields.bind (yields_handler call fun _ _ hunder => absurd hunder hnot) ?_
    intro a w' _ b hb
    cases hb
    exact returnable_of_not_replayed
  · rw [if_neg hfalsy]
    obtain ⟨k, hk⟩ : ∃ k, call.idempotencyKey = some k := by
      cases hkey' : call.idempotencyKey with
      | none => simp [Js.isFalsy, hkey'] at hfalsy
      | some k => exact ⟨k, rfl⟩
    rw [hk, Option.getD_some]
    refine Yields.bind (F := fun found w' => Sound tenantId key w' ∧
      found = w'.keys.get (.tenantId_key call.tenantId k)) ?_ ?_
    · refine yields_op (fun _ _ => trivial) ?_
      intro w₁ i found hpath hfound
      exact ⟨hpath.sound hw, (Except.ok.inj hfound).symm⟩
    intro found w₁ hfound
    obtain ⟨hw₁, hfound⟩ := hfound
    cases found with
    | some existing =>
      dsimp only
      cases hreplay : replay call.requestHash existing with
      | ok result =>
        intro b hb
        cases hb
        exact returnable_of_replay hw₁ hk hfound.symm hreplay
      | error e =>
        intro b hb
        cases hb
    | none =>
      refine Yields.bind (yields_acquire call hk _) ?_
      intro acquired w₂ hholds
      refine Yields.tryCatch (stable_holds call acquired.id) ?_ hholds ?_
      · refine Yields.bind ((yields_handler call ?_).keeps (stable_holds call acquired.id) hholds) ?_
        · intro w₃ hpath hunder
          exact ((stable_holds call acquired.id).rely _ _ hpath hholds).acquired hunder
        intro a w₃ h
        obtain ⟨hcompleted, hholds₃⟩ := h
        refine Yields.bind (F := fun _ _ => True) (yields_op ?_ fun _ _ _ _ _ => trivial) ?_
        · -- the row that is completed is the call's own
          intro w₄ hpath _ r hr hid htenant hkey'
          obtain ⟨s, hs, hsid, hstenant, hskey, -⟩ :=
            (stable_holds call acquired.id).rely _ _ hpath hholds₃
          have hrs : r = s := w₄.keys.eq_of_mem_keys hr hs (k := .id acquired.id)
            (IdempotencyKey.id_mem_keys.mpr hid.symm) (IdempotencyKey.id_mem_keys.mpr hsid.symm)
          refine ⟨a.2, rfl, ⟨call, a.1, a.2⟩, hpath.completed _ hcompleted, ?_, rfl⟩
          simp only [GuardedCall.under, Bool.and_eq_true, decide_eq_true_eq]
          exact ⟨by rw [← hstenant, ← hrs]; exact htenant, by rw [hskey, ← hrs, hkey']⟩
        · intro _ w₄ _ b hb
          cases hb
          exact returnable_of_not_replayed
      · intro e w₃ _
        refine Yields.bind (F := fun _ _ => True) (yields_op ?_ fun _ _ _ _ _ => trivial) ?_
        · intro w₄ _ hstatus
          cases hstatus
        · intro _ w₄ _ b hb
          cases hb

theorem safe_prog (hkey : key ≠ "") (call : GuardedCall) (hw : Sound tenantId key w) :
    Safe GuardOp.exec (Evolves tenantId key) (Evolves tenantId key) (guardSystem.prog call) w := by
  refine Yields.safe (F := fun _ _ => True) (Yields.bind (yields_withIdempotency hkey call hw) ?_)
  intro result w₁ hreturnable
  refine yields_op ?_ fun _ _ _ _ _ => trivial
  intro w₂ hpath hunder hreplayed
  obtain ⟨hacquired, hproduced⟩ := hreturnable hunder hreplayed
  exact ⟨hacquired.mono hpath.rows, hproduced.mono hpath.completed⟩

end Evolution

variable (tenantId key : String) in
theorem respects_guard (hkey : key ≠ "") : Respects guardSystem (Evolves tenantId key)
    (Evolves tenantId key) (Sound tenantId key) (fun _ => True) where
  refl := .refl
  sub _ _ h := h
  keeps _ _ hw h := h.sound hw
  task call _ _ hw := safe_prog hkey call hw
  shift _ _ _ _ := ⟨fun r hr => ⟨r, hr, rfl, rfl, rfl, rfl⟩, fun _ he => he,
    fun hw => ⟨hw.rows, hw.started, hw.returned⟩⟩

/-! ## How often a handler runs -/

section Counting

variable (tenantId key : String)

abbrev GuardMoment := Moment GuardOp GuardInput GuardWorld

/-- A handler of the key is started. -/
def starts (m : GuardMoment) : Bool :=
  match m.op with
  | .startHandler call => call.under tenantId key
  | _ => false

/-- A handler of the key returns. -/
def completes (m : GuardMoment) : Bool :=
  match m.op with
  | .awaitHandler call => call.under tenantId key && m.input.outcome.isOk
  | _ => false

/-- A row of the key is inserted, and the guard is told so. -/
def inserts (m : GuardMoment) : Bool :=
  match m.op with
  | .create data => data.tenantId = tenantId && data.key = key &&
      ((GuardOp.create data).exec m.input m.state).1.isOk
  | _ => false

/-- A call starts one handler at most, and not before it has inserted the row. -/
structure Covered (tr : List GuardMoment) : Prop where
  preceded : Preceded (fun m => starts tenantId key m = true ∨ completes tenantId key m = true)
    (fun m => inserts tenantId key m = true) tr
  starts : tr.countP (starts tenantId key) ≤ 1
  completes : tr.countP (completes tenantId key) ≤ 1

/-- The call is no handler of the key. -/
def Silent (o : GuardOp) : Prop :=
  match o with
  | .startHandler call => ¬ call.under tenantId key = true
  | .awaitHandler call => ¬ call.under tenantId key = true
  | _ => True

variable {tenantId key} {tr : List GuardMoment} {w : GuardWorld}

theorem starts_of_silent {m : GuardMoment} (h : Silent tenantId key m.op) :
    starts tenantId key m = false ∧ completes tenantId key m = false := by
  obtain ⟨w, o, i⟩ := m
  cases o with
  | startHandler call => exact ⟨Bool.eq_false_iff.mpr h, rfl⟩
  | awaitHandler call =>
    have hnot : call.under tenantId key = false := Bool.eq_false_iff.mpr h
    refine ⟨rfl, ?_⟩
    simp only [completes, hnot, Bool.false_and]
  | _ => exact ⟨rfl, rfl⟩

theorem countP_of_silent (h : ∀ m ∈ tr, Silent tenantId key m.op) :
    tr.countP (starts tenantId key) = 0 ∧ tr.countP (completes tenantId key) = 0 := by
  refine ⟨List.countP_eq_zero.mpr ?_, List.countP_eq_zero.mpr ?_⟩
  · intro m hm
    simp [(starts_of_silent (h m hm)).1]
  · intro m hm
    simp [(starts_of_silent (h m hm)).2]

theorem covered_of_silent (h : ∀ m ∈ tr, Silent tenantId key m.op) : Covered tenantId key tr := by
  obtain ⟨hstarts, hcompletes⟩ := countP_of_silent h
  refine ⟨?_, by omega, by omega⟩
  clear hstarts hcompletes
  induction tr with
  | nil => exact trivial
  | cons m tr ih =>
    obtain ⟨hs, hc⟩ := starts_of_silent (h m (by simp))
    refine ⟨by simp [hs, hc], .inr (ih fun m' hm' => h m' (List.mem_cons_of_mem _ hm'))⟩

theorem Covered.of_append {tr' : List GuardMoment} (h : Covered tenantId key (tr ++ tr')) :
    Covered tenantId key tr := by
  have hstarts := h.starts
  have hcompletes := h.completes
  rw [List.countP_append] at hstarts hcompletes
  exact ⟨h.preceded.of_append, by omega, by omega⟩

theorem Covered.cons {m : GuardMoment} (hm : Silent tenantId key m.op) (h : Covered tenantId key tr) :
    Covered tenantId key (m :: tr) := by
  obtain ⟨hs, hc⟩ := starts_of_silent hm
  have hstarts := h.starts
  have hcompletes := h.completes
  exact ⟨⟨by simp [hs, hc], .inr h.preceded⟩, by simpa [List.countP_cons, hs] using hstarts,
    by simpa [List.countP_cons, hc] using hcompletes⟩

variable (tenantId key) in
theorem wp_silent {α : Type} {p : GuardProgram α} (h : Prog.All (Silent tenantId key) p) (w : GuardWorld) :
    wp GuardOp.exec (fun _ _ => True) (fun _ _ => True) p
      (fun tr _ _ => ∀ m ∈ tr, Silent tenantId key m.op) w :=
  wp_mono (fun _ _ _ h => h.1) (h.wp_trace (Prog.All.safe (P := fun _ => True) (fun _ _ _ _ => trivial)
    (Prog.all_true _) w))

variable (tenantId key) in
/-- The rest of a call that holds the row. -/
theorem wp_handle (call : GuardedCall) (acquired : IdempotencyKey) (w : GuardWorld) :
    wp GuardOp.exec (fun _ _ => True) (fun _ _ => True)
      ((Prog.tryCatch
        ((handler call).bind fun a => (IdempotencyService.markCompleted acquired.id a.1 a.2).bind fun _ =>
          .pure (IdempotentResult.mk a.2 false))
        fun error => (IdempotencyService.markFailed acquired.id
          (some (.obj [("error", .str error.message)]))).bind fun _ => .throw error).bind
        fun result => .perform (GuardOp.resolve call result))
      (fun tr _ _ => tr.countP (starts tenantId key) ≤ 1 ∧ tr.countP (completes tenantId key) ≤ 1) w := by
  intro w₁ _ i
  refine ⟨trivial, ?_⟩
  intro w₂ _ j
  refine ⟨trivial, wp_mono ?_ (wp_silent tenantId key ?_ _)⟩
  · intro tr _ _ h
    obtain ⟨hstarts, hcompletes⟩ := countP_of_silent h
    have hawait : starts tenantId key ⟨w₂, .awaitHandler call, j⟩ = false := rfl
    have hstart : completes tenantId key ⟨w₁, .startHandler call, i⟩ = false := rfl
    simp only [List.countP_cons, hstarts, hcompletes, hawait, hstart]
    refine ⟨?_, ?_⟩
    · cases starts tenantId key ⟨w₁, .startHandler call, i⟩ <;> decide
    · cases completes tenantId key ⟨w₂, .awaitHandler call, j⟩ <;> decide
  · cases ((GuardOp.awaitHandler call).exec j w₂).1 with
    | ok a =>
      refine Prog.All.bind (Prog.All.tryCatch (Prog.All.perform_bind trivial fun _ => trivial) ?_) ?_
      · intro e
        exact Prog.All.perform_bind trivial fun _ => trivial
      · intro result
        exact Prog.all_perform trivial
    | error e =>
      refine Prog.All.bind (Prog.All.perform_bind trivial fun _ => trivial) ?_
      intro result
      exact Prog.all_perform trivial

theorem covered_call {o : GuardOp} {k : Except JsError o.Res → GuardProgram Unit}
    (ho : Silent tenantId key o)
    (hk : ∀ w₁ i, wp GuardOp.exec (fun _ _ => True) (fun _ _ => True) (k (o.exec i w₁).1)
      (fun tr _ _ => Covered tenantId key tr) (o.exec i w₁).2) :
    wp GuardOp.exec (fun _ _ => True) (fun _ _ => True) (.call o k)
      (fun tr _ _ => Covered tenantId key tr) w := by
  intro w₁ _ i
  exact ⟨trivial, wp_mono (fun _ _ _ h => h.cons ho) (hk w₁ i)⟩

theorem covered_nil : Covered tenantId key [] := covered_of_silent (by simp)

/-- **No handler of the key starts without an insertion of its own call.** -/
theorem covered_prog (hkey : key ≠ "") (call : GuardedCall) (w : GuardWorld) :
    wp GuardOp.exec (fun _ _ => True) (fun _ _ => True) (guardSystem.prog call)
      (fun tr _ _ => Covered tenantId key tr) w := by
  show wp GuardOp.exec _ _ ((withIdempotency call (handler call)).bind fun result =>
    .perform (GuardOp.resolve call result)) _ w
  by_cases hunder : call.under tenantId key = true
  · have hcall := hunder
    simp only [GuardedCall.under, Bool.and_eq_true, decide_eq_true_eq] at hcall
    have hfalsy : ¬ Js.isFalsy call.idempotencyKey = true := by simpa [Js.isFalsy, hcall.2] using hkey
    rw [withIdempotency, if_neg hfalsy, hcall.1, hcall.2, Option.getD_some]
    refine covered_call trivial ?_
    intro w₁ i
    cases ((GuardOp.findUnique tenantId key).exec i w₁).1 with
    | error e => exact covered_nil
    | ok found =>
      cases found with
      | some existing =>
        refine wp_mono (fun _ _ _ h => covered_of_silent h) (wp_silent tenantId key (Prog.All.bind ?_ ?_) _)
        · show Prog.All _ (Prog.ofExcept (replay call.requestHash existing))
          cases replay call.requestHash existing <;> exact trivial
        · intro result
          exact Prog.all_perform trivial
      | none =>
        refine covered_call trivial ?_
        intro w₂ i'
        rw [GuardOp.exec_of_not_isStatement rfl]
        intro w₃ _ j
        refine ⟨trivial, ?_⟩
        cases hcreate : ((GuardOp.create _).exec j w₃).1 with
        | error e => exact covered_of_silent (by simp [Silent])
        | ok acquired =>
          refine wp_mono ?_ (wp_handle tenantId key call acquired _)
          intro tr _ _ h
          -- the row is inserted: whatever follows is covered
          refine ⟨⟨by simp [starts, completes], .inl ?_⟩, ?_, ?_⟩
          · simp [inserts, hcreate, Except.isOk, Except.toBool]
          · simpa [List.countP_cons, starts] using h.1
          · simpa [List.countP_cons, completes] using h.2
  · refine wp_mono (fun _ _ _ h => covered_of_silent h) (wp_silent tenantId key (Prog.All.bind ?_ ?_) _)
    · have hhandler : Prog.All (Silent tenantId key) (handler call) :=
        Prog.All.perform_bind hunder fun _ => Prog.all_perform hunder
      rw [withIdempotency]
      split
      · exact Prog.All.bind hhandler fun _ => trivial
      · refine Prog.All.perform_bind trivial ?_
        intro found
        cases found with
        | some existing =>
          show Prog.All _ (Prog.ofExcept (replay call.requestHash existing))
          cases replay call.requestHash existing <;> exact trivial
        | none =>
          refine Prog.All.bind (Prog.All.perform_bind trivial fun _ => Prog.all_perform trivial) ?_
          intro acquired
          refine Prog.All.tryCatch (Prog.All.bind hhandler ?_) ?_
          · intro a
            exact Prog.All.perform_bind trivial fun _ => trivial
          · intro error
            exact Prog.All.perform_bind trivial fun _ => trivial
    · intro result
      exact Prog.all_perform trivial

/-- An insertion that the guard is told of stands for the handler that it covers. -/
theorem Covered.le_inserts (h : Covered tenantId key tr) :
    tr.countP (Guard.starts tenantId key) ≤ tr.countP (inserts tenantId key) ∧
      tr.countP (Guard.completes tenantId key) ≤ tr.countP (inserts tenantId key) := by
  have hpos : ∀ m ∈ tr, Guard.starts tenantId key m = true ∨
      Guard.completes tenantId key m = true → 0 < tr.countP (inserts tenantId key) := by
    intro m hm hN
    obtain ⟨m', hm', hinserts⟩ := h.preceded.found ⟨m, hm, hN⟩
    exact List.countP_pos_iff.mpr ⟨m', hm', hinserts⟩
  refine ⟨?_, ?_⟩
  · rcases Nat.eq_zero_or_pos (tr.countP (Guard.starts tenantId key)) with h0 | h0
    · omega
    · obtain ⟨m, hm, hs⟩ := List.countP_pos_iff.mp h0
      have hstarts := h.starts
      have hinserts := hpos m hm (.inl hs)
      omega
  · rcases Nat.eq_zero_or_pos (tr.countP (Guard.completes tenantId key)) with h0 | h0
    · omega
    · obtain ⟨m, hm, hs⟩ := List.countP_pos_iff.mp h0
      have hcompletes := h.completes
      have hinserts := hpos m hm (.inr hs)
      omega

/-- The key has a row. -/
def Taken (tenantId key : String) (w : GuardWorld) : Prop :=
  ∃ r ∈ w.keys.rows, r.tenantId = tenantId ∧ r.key = key

/-- An insertion that succeeds finds the key free and takes it. -/
theorem taken_of_inserts {m : GuardMoment} (h : inserts tenantId key m = true) :
    ¬ Taken tenantId key m.state ∧ Taken tenantId key (m.op.exec m.input m.state).2 := by
  obtain ⟨w, o, i⟩ := m
  cases o with
  | create data =>
    simp only [inserts, Bool.and_eq_true, decide_eq_true_eq] at h
    obtain ⟨⟨htenant, hkey⟩, hok⟩ := h
    cases hres : ((GuardOp.create data).exec i w).1 with
    | error e => simp [hres, Except.isOk, Except.toBool] at hok
    | ok r =>
      have heffect := GuardOp.exec_ok hres
      rw [heffect] at hres ⊢
      simp only [GuardOp.effect, createIdempotencyKey] at hres ⊢
      split at hres
      · next t hinsert =>
        have hfree := Table.get_of_insert hinsert (k := .tenantId_key data.tenantId data.key)
          (IdempotencyKey.tenantId_key_mem_keys.mpr ⟨rfl, rfl⟩)
        refine ⟨?_, newIdempotencyKey i.uuid data, ?_, htenant, hkey⟩
        · intro htaken
          obtain ⟨s, hs, hstenant, hskey⟩ := htaken
          refine (w.keys.get_eq_none_iff.mp hfree) s hs ?_
          rw [IdempotencyKey.tenantId_key_mem_keys]
          exact ⟨htenant.trans hstenant.symm, hkey.trans hskey.symm⟩
        · rw [Table.insert_rows hinsert]
          simp
      · cases hres
  | _ => cases h

variable (tenantId key) in
/-- **The constraint lets one insertion through.** -/
theorem countP_inserts_le (w : GuardWorld) (es : List (Event GuardedCall GuardInput Nat)) :
    (w.start.moments guardSystem es).countP (inserts tenantId key) ≤ 1 := by
  refine (countP_moments_le_one (H := Taken tenantId key) ?_ (fun _ _ h => h)
    (fun m hm => (taken_of_inserts hm).1) fun m hm => (taken_of_inserts hm).2).1
  intro o i w hw
  obtain ⟨r, hr, htenant, hkey⟩ := hw
  obtain ⟨r', hr', -, htenant', hkey', -⟩ := kept_exec o i w r hr
  exact ⟨r', hr', htenant'.trans htenant, hkey'.trans hkey⟩

/-- Every call of a run, crashed ones included. -/
theorem covered_callsOf (hkey : key ≠ "") (w : GuardWorld) {es : List (Event GuardedCall GuardInput Nat)}
    {pid : Nat} (hpid : pid < (spawned es).length) :
    Covered tenantId key (w.start.callsOf guardSystem pid es) := by
  have hrespects : Respects guardSystem (fun _ _ => True) (fun _ _ => True) (fun _ => True)
      (fun _ => True) :=
    { refl := fun _ => trivial
      sub := fun _ _ _ => trivial
      keeps := fun _ _ _ _ => trivial
      task := fun _ _ w _ => Prog.All.safe (P := fun _ => True) (fun _ _ _ _ => trivial) (Prog.all_true _) w
      shift := fun _ _ _ _ => trivial }
  have hcalls : ∀ pid call, ([] ++ spawned es)[pid]? = some call →
      Covered tenantId key ([] ++ w.start.callsOf guardSystem pid es) :=
    calls_of_wp (F := fun _ tr => Covered tenantId key tr) (c := w.start) hrespects
      (fun _ _ _ h => h.of_append) (fun call _ w _ => covered_prog hkey call w) (Healthy.init trivial)
      (Tracked.init w) (by simp) (fun _ _ => trivial)
  exact hcalls pid _ (List.getElem?_eq_getElem hpid)

variable (tenantId) in
/-- **A handler of the key is started at most once in a run, and returns at most once.** -/
theorem countP_starts_le (hkey : key ≠ "") (w : GuardWorld) (es : List (Event GuardedCall GuardInput Nat)) :
    (w.start.moments guardSystem es).countP (starts tenantId key) ≤ 1 ∧
      (w.start.moments guardSystem es).countP (completes tenantId key) ≤ 1 := by
  have hlen : (w.start.after guardSystem es).procs.length ≤ (spawned es).length := by
    simp [length_procs_after, GuardWorld.start]
  have hinserts := countP_inserts_le tenantId key w es
  rw [countP_moments _ hlen] at hinserts
  refine ⟨?_, ?_⟩
  · rw [countP_moments _ hlen]
    refine le_trans (Finset.sum_le_sum ?_) hinserts
    intro pid hpid
    exact (covered_callsOf hkey w (Finset.mem_range.mp hpid)).le_inserts.1
  · rw [countP_moments _ hlen]
    refine le_trans (Finset.sum_le_sum ?_) hinserts
    intro pid hpid
    exact (covered_callsOf hkey w (Finset.mem_range.mp hpid)).le_inserts.2

/-! ## The records -/

/-- The handler that a call starts. -/
def startedBy (m : GuardMoment) : Option GuardedCall :=
  match m.op with
  | .startHandler call => some call
  | _ => none

/-- The handler whose end a call sees. -/
def completedBy (m : GuardMoment) : Option Execution :=
  match m.op, m.input.outcome with
  | .awaitHandler call, .ok (transactionId, response) => some ⟨call, transactionId, response⟩
  | _, _ => none

theorem started_exec (o : GuardOp) (i : GuardInput) (w : GuardWorld) :
    (o.exec i w).2.started = w.started ++ (startedBy ⟨w, o, i⟩).toList := by
  cases o with
  | startHandler call => rfl
  | awaitHandler call =>
    rw [GuardOp.exec_of_not_isStatement rfl]
    simp only [GuardOp.effect, startedBy, Option.toList_none, List.append_nil]
    split <;> rfl
  | _ =>
    refine GuardOp.exec_snd (P := fun w w' => w'.started = w.started ++ []) ?_ ?_ <;> simp [GuardOp.effect]

theorem completed_exec (o : GuardOp) (i : GuardInput) (w : GuardWorld) :
    (o.exec i w).2.completed = w.completed ++ (completedBy ⟨w, o, i⟩).toList := by
  cases o with
  | awaitHandler call =>
    rw [GuardOp.exec_of_not_isStatement rfl]
    cases houtcome : i.outcome with
    | ok a => simp [GuardOp.effect, completedBy, houtcome]
    | error e => simp [GuardOp.effect, completedBy, houtcome]
  | _ =>
    refine GuardOp.exec_snd (P := fun w w' => w'.completed = w.completed ++ []) ?_ ?_ <;>
      simp [GuardOp.effect]

theorem countP_record {γ : Type} {record : GuardWorld → List γ} {entry : GuardMoment → Option γ}
    (hexec : ∀ o i w, record (GuardOp.exec o i w).2 = record w ++ (entry ⟨w, o, i⟩).toList)
    (hshift : ∀ (d : Nat) w, record (guardSystem.shift d w) = record w) (hw : record w = [])
    {p : γ → Bool} {q : GuardMoment → Bool} (hq : ∀ m, ((entry m).map p).getD false = q m)
    (es : List (Event GuardedCall GuardInput Nat)) :
    (record (w.start.after guardSystem es).world).countP p = (w.start.moments guardSystem es).countP q := by
  have hlog : record (w.start.after guardSystem es).world =
      record w ++ (w.start.moments guardSystem es).filterMap entry := log_after hexec hshift
  rw [hlog, hw, List.nil_append, List.countP_filterMap]
  exact List.countP_congr fun m _ => by rw [hq m]

end Counting

/-- **The guard in every run.**  Under one tenant and key, however many calls with whatever hashes are made,
in whatever order their steps, crashes and faults come: at most one handler is started; what is replayed is
the response of the one handler that returned; and a call whose hash is not the one the key was acquired
with neither starts its handler nor is answered from the row. -/
theorem handled_once {tenantId key : String} (hkey : key ≠ "") {w : GuardWorld}
    (hw : w.Fresh tenantId key) (es : List (Event GuardedCall GuardInput Nat)) :
    (w.start.after guardSystem es).world.started.countP (GuardedCall.under tenantId key) ≤ 1 ∧
    (∀ call result, (call, result) ∈ (w.start.after guardSystem es).world.returned →
      call.under tenantId key = true → result.replayed = true →
      ∃ e, (w.start.after guardSystem es).world.completed.filter (fun e => e.call.under tenantId key) = [e] ∧
        result.response = e.response) ∧
    (∀ call r, (w.start.after guardSystem es).world.keys.get (.tenantId_key tenantId key) = some r →
      call.under tenantId key = true → call.requestHash ≠ r.requestHash →
      call ∉ (w.start.after guardSystem es).world.started ∧
      ∀ result, (call, result) ∈ (w.start.after guardSystem es).world.returned →
        result.replayed = false) := by
  have hsound : Sound tenantId key (w.start.after guardSystem es).world := by
    refine (Healthy.after (respects_guard tenantId key hkey) (Healthy.init ⟨?_, ?_, ?_⟩)
      (fun _ _ => trivial)).2.inv
    · intro r hr htenant hkey' _
      exact absurd (IdempotencyKey.tenantId_key_mem_keys.mpr ⟨htenant.symm, hkey'.symm⟩)
        (w.keys.get_eq_none_iff.mp hw.row r hr)
    · simp [hw.started]
    · simp [hw.returned]
  obtain ⟨hstarts, hcompletes⟩ := countP_starts_le tenantId hkey w es
  have hstarted : (w.start.after guardSystem es).world.started.countP (GuardedCall.under tenantId key) ≤ 1 := by
    rw [countP_record started_exec (fun _ _ => rfl) hw.started (q := starts tenantId key)]
    · exact hstarts
    · intro m
      obtain ⟨w, o, i⟩ := m
      cases o <;> rfl
  have hcompleted : ((w.start.after guardSystem es).world.completed.filter
      (fun e => e.call.under tenantId key)).length ≤ 1 := by
    rw [← List.countP_eq_length_filter,
      countP_record completed_exec (fun _ _ => rfl) hw.completed (q := completes tenantId key)]
    · exact hcompletes
    · intro m
      obtain ⟨w, o, i⟩ := m
      cases o with
      | awaitHandler call =>
        cases houtcome : i.outcome <;> simp [completedBy, completes, houtcome, Except.isOk, Except.toBool]
      | _ => rfl
  refine ⟨hstarted, ?_, ?_⟩
  · intro call result hreturned hunder hreplayed
    obtain ⟨-, e, he, hunder', hresponse⟩ := hsound.returned call result hreturned hunder hreplayed
    have hmem : e ∈ (w.start.after guardSystem es).world.completed.filter
        (fun e => e.call.under tenantId key) := List.mem_filter.mpr ⟨he, hunder'⟩
    refine ⟨e, ?_, hresponse.symm⟩
    obtain ⟨e', hsingle⟩ := List.length_eq_one_iff.mp
      (Nat.le_antisymm hcompleted (List.length_pos_of_mem hmem))
    rw [hsingle, List.mem_singleton] at hmem
    rw [hsingle, hmem]
  · intro call r hr hunder hhash
    obtain ⟨hmem, hnames⟩ := (Table.get_eq_some_iff _).mp hr
    -- the row of the key is the one that every acquired call has
    have hnot : ¬ Acquired tenantId key (w.start.after guardSystem es).world call := by
      intro h
      obtain ⟨s, hs, htenant, hkey', hshash⟩ := h
      have hrs : r = s := Table.eq_of_mem_keys _ hmem hs hnames
        (IdempotencyKey.tenantId_key_mem_keys.mpr ⟨htenant.symm, hkey'.symm⟩)
      exact hhash (by rw [hrs, hshash])
    refine ⟨fun hstart => hnot (hsound.started call hstart hunder), ?_⟩
    intro result hreturned
    cases hreplayed : result.replayed with
    | false => rfl
    | true => exact absurd (hsound.returned call result hreturned hunder hreplayed).1 hnot

end Guard

def GuardWorld.sample : GuardWorld := ⟨.empty, 0, [], [], []⟩

theorem GuardWorld.sample_fresh : GuardWorld.sample.Fresh "tenant" "key" := ⟨rfl, rfl, rfl, rfl⟩

def GuardedCall.sample : GuardedCall := ⟨"tenant", some "key", "hash", none⟩

/-- Two calls find no row; the first inserts it, the second is refused, the first goes through, and a third
call is answered from the row. -/
def raced : List (Event GuardedCall GuardInput Nat) :=
  [.spawn .sample, .spawn .sample, .step 0 {}, .step 1 {}, .step 0 {}, .step 1 {}, .step 0 { uuid := "a" },
    .step 1 { uuid := "b" }, .step 0 {}, .step 0 { outcome := .ok ("tx", .str "created") }, .step 0 {},
    .step 0 {}, .spawn .sample, .step 2 {}, .step 2 {}]

theorem handled_once_raced :
    "key" ≠ "" ∧ GuardWorld.sample.Fresh "tenant" "key" ∧
    (GuardWorld.sample.start.after guardSystem raced).world.returned.map (fun r => r.2.replayed) =
      [false, true] ∧
    (GuardWorld.sample.start.after guardSystem raced).world.started.countP
      (GuardedCall.under "tenant" "key") ≤ 1 :=
  ⟨by decide, GuardWorld.sample_fresh, by decide +kernel,
    (Guard.handled_once (by decide) GuardWorld.sample_fresh raced).1⟩

end TransactionSimulator
