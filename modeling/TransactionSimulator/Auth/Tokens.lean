import TransactionSimulator.Auth.Sessions

/-!
# The two kinds of tokens

Access and refresh tokens are signed with one secret and verified by one function.  A refresh is granted
only for a token that `createRefreshToken` issued and that is stored; but nothing tells `authenticate` the
kinds apart, and it accepts a refresh token for as long as that is good.

* `refresh_granted`: what a refreshed session rests on.
* `onlyAccess_iff`: the requests that `authenticate` treats as it should.
-/

namespace TransactionSimulator

open Concurrent Prog Relational

/-- An installation: its libraries, its settings and its tenants. -/
structure AuthPlatform where
  lib : AuthLibraries
  env : JwtEnv
  sha256 : String → List UInt8
  tenants : List String

abbrev AuthMoment := Moment AuthOp AuthInput AuthWorld

namespace AuthPlatform

variable (P : AuthPlatform)

def system : System AuthOp AuthOp.Res JsError AuthWorld AuthInput AuthTask Nat :=
  authSystem P.lib P.env P.sha256

def after (es : List AuthEvent) : Config AuthOp AuthOp.Res JsError AuthWorld :=
  Config.after P.system ⟨.init P.tenants, []⟩ es

def moments (es : List AuthEvent) : List AuthMoment := Config.moments P.system ⟨.init P.tenants, []⟩ es

theorem after_append (es fs : List AuthEvent) : P.after (es ++ fs) = (P.after es).after P.system fs :=
  Config.after_append _ es fs

/-- The call signs `token`, good for `expiresIn`. -/
def Signs (expiresIn token : String) (payload : JwtPayload) (m : AuthMoment) : Prop :=
  m.op = .sign payload expiresIn ∧ P.lib.sign payload expiresIn m.state.clock = .ok token

/-- The call of `createAccessToken`. -/
def SignsAccess (token : String) (m : AuthMoment) : Prop :=
  ∃ payload, payload.jti = none ∧ P.Signs P.env.JWT_ACCESS_EXPIRES token payload m

/-- The call of `createRefreshToken`. -/
def SignsRefresh (token : String) (m : AuthMoment) : Prop :=
  ∃ payload jti, payload.jti = some jti ∧ P.Signs P.env.JWT_REFRESH_EXPIRES token payload m

end AuthPlatform

/-! ## The calls of the programs -/

section Calls

variable (P : AuthPlatform) {es : List AuthEvent}

/-- A token is signed as one of the two kinds; a row is written for a refresh token that the program has
signed before. -/
structure TokensOwn (past : List AuthMoment) (m : AuthMoment) : Prop where
  signed : ∀ payload expiresIn, m.op = .sign payload expiresIn →
    (payload.jti = none ∧ expiresIn = P.env.JWT_ACCESS_EXPIRES) ∨
      ∃ jti, payload.jti = some jti ∧ expiresIn = P.env.JWT_REFRESH_EXPIRES
  stored : ∀ userId tokenHash expiresAt, m.op = .refreshTokenCreate userId tokenHash expiresAt →
    ∃ m₀ ∈ past, ∃ token, P.SignsRefresh token m₀ ∧ tokenHash = hashToken P.sha256 token

/-- A call that issues at most an access token. -/
structure AuthOp.Modest (o : AuthOp) : Prop where
  signed : ∀ payload expiresIn, o = .sign payload expiresIn →
    payload.jti = none ∧ expiresIn = P.env.JWT_ACCESS_EXPIRES
  stored : ∀ userId tokenHash expiresAt, o ≠ .refreshTokenCreate userId tokenHash expiresAt

theorem tokensOwn_of_modest {past : List AuthMoment} {m : AuthMoment} (h : m.op.Modest P) :
    TokensOwn P past m :=
  ⟨fun _ _ hop => .inl (h.signed _ _ hop), fun _ _ _ hop => absurd hop (h.stored _ _ _)⟩

theorem modest_record (entry : AuditEntry) : All (AuthOp.Modest P) (AuthService.record entry) := by
  refine All.tryCatch (all_perform ⟨nofun, nofun⟩) ?_
  intro _
  exact all_perform ⟨nofun, nofun⟩

theorem modest_createAccessToken (payload : JwtPayload) (h : payload.jti = none) :
    All (AuthOp.Modest P) (createAccessToken P.env payload) := by
  refine all_perform ⟨?_, nofun⟩
  rintro payload' expiresIn ⟨⟩
  exact ⟨h, rfl⟩

theorem modest_register (email password tenantId : String) :
    All (AuthOp.Modest P) (AuthService.register email password tenantId) := by
  refine All.perform_bind ⟨nofun, nofun⟩ ?_
  intro passwordHash
  refine All.perform_bind ⟨nofun, nofun⟩ ?_
  intro user
  exact (modest_record P _).bind fun _ => trivial

theorem modest_refresh (token : String) :
    All (AuthOp.Modest P) (AuthService.refresh P.env P.sha256 token) := by
  refine All.perform_bind ⟨nofun, nofun⟩ ?_
  intro payload
  refine All.perform_bind ⟨nofun, nofun⟩ ?_
  intro stored
  split
  · exact trivial
  · refine All.perform_bind ⟨nofun, nofun⟩ ?_
    intro now
    split
    · exact trivial
    · exact (modest_createAccessToken P _ rfl).bind fun _ => trivial

theorem wp_modest {α : Type} {p : AuthProgram α} (h : All (AuthOp.Modest P) p)
    (past : List AuthMoment) (w : AuthWorld) :
    wp (AuthOp.exec P.lib) Anything Anything p (fun tr _ _ => Throughout (TokensOwn P) past tr) w := by
  refine wp_mono ?_ (All.wp_trace h (wp_any p w))
  rintro tr r w' ⟨hmodest, -⟩
  exact throughout_of_forall fun m hm _ => tokensOwn_of_modest P (hmodest m hm)

/-- A modest part of a program, and the rest. -/
theorem wp_modest_bind {α β : Type} {p : AuthProgram α} (h : All (AuthOp.Modest P) p)
    {f : α → AuthProgram β} (past : List AuthMoment)
    (hf : ∀ a tr w, wp (AuthOp.exec P.lib) Anything Anything (f a)
      (fun tr' _ _ => Throughout (TokensOwn P) (past ++ tr) tr') w) (w : AuthWorld) :
    wp (AuthOp.exec P.lib) Anything Anything (p.bind f)
      (fun tr _ _ => Throughout (TokensOwn P) past tr) w := by
  refine wp_bind.mpr (wp_mono ?_ (wp_modest P h past w))
  intro tr r w' htr
  cases r with
  | error e => exact htr
  | ok a =>
    refine wp_mono ?_ (hf a tr w')
    intro tr' r' w'' htr'
    exact throughout_append.mpr ⟨htr, htr'⟩

/-- **What `createRefreshToken` signs** is signed as a refresh token. -/
theorem wp_createRefreshToken (payload : JwtPayload) (past : List AuthMoment) (w : AuthWorld) :
    wp (AuthOp.exec P.lib) Anything Anything (createRefreshToken P.env payload)
      (fun tr r _ => Throughout (TokensOwn P) past tr ∧
        ∀ token, r = .ok token → ∃ m ∈ tr, P.SignsRefresh token m) w := by
  refine wp_bind.mpr (wp_perform.mpr ?_)
  intro w₁ _ i₁
  refine ⟨trivial, ?_⟩
  have hfirst : TokensOwn P past ⟨w₁, .randomUUID, i₁⟩ := tokensOwn_of_modest P ⟨nofun, nofun⟩
  show wp _ _ _ (perform (AuthOp.sign { payload with jti := some i₁.uuid } P.env.JWT_REFRESH_EXPIRES)) _ _
  refine wp_perform.mpr ?_
  intro w₂ _ i₂
  refine ⟨trivial, ⟨hfirst, ⟨?_, nofun⟩, trivial⟩, ?_⟩
  · rintro payload' expiresIn ⟨⟩
    exact .inr ⟨_, rfl, rfl⟩
  · intro token htoken
    exact ⟨⟨w₂, _, i₂⟩, by simp, _, _, rfl, rfl, htoken⟩

theorem modest_getRefreshTokenExpiry : All (AuthOp.Modest P) (getRefreshTokenExpiry P.env) := by
  refine All.perform_bind ⟨nofun, nofun⟩ ?_
  intro now
  split <;> exact trivial

theorem wp_issueTokens (user : UserRow) (past : List AuthMoment) (w : AuthWorld) :
    wp (AuthOp.exec P.lib) Anything Anything (AuthService.issueTokens P.env P.sha256 user)
      (fun tr _ _ => Throughout (TokensOwn P) past tr) w := by
  refine wp_modest_bind P (modest_createAccessToken P _ rfl) past ?_ w
  intro accessToken past₁ w
  refine wp_bind.mpr (wp_mono ?_ (wp_createRefreshToken P _ (past ++ past₁) w))
  rintro tr r w' ⟨htr, hsigned⟩
  cases r with
  | error e => exact htr
  | ok refreshToken =>
    obtain ⟨m₀, hm₀, hsigns⟩ := hsigned refreshToken rfl
    refine wp_mono ?_ (wp_modest_bind P (modest_getRefreshTokenExpiry P) (past ++ past₁ ++ tr) ?_ w')
    · intro tr' r' w'' htr'
      exact throughout_append.mpr ⟨htr, htr'⟩
    · intro expiresAt past₂ w₂
      -- the row is that of the token
      refine wp_bind.mpr (wp_perform.mpr ?_)
      intro w₃ _ i
      have hcreate : TokensOwn P (past ++ past₁ ++ tr ++ past₂)
          ⟨w₃, .refreshTokenCreate user.id (hashToken P.sha256 refreshToken) expiresAt, i⟩ := by
        refine ⟨nofun, ?_⟩
        rintro userId tokenHash expiresAt' ⟨⟩
        exact ⟨m₀, by simp [hm₀], refreshToken, hsigns, rfl⟩
      refine ⟨trivial, ?_⟩
      split <;> exact ⟨hcreate, trivial⟩

theorem wp_login (email password : String) (w : AuthWorld) :
    wp (AuthOp.exec P.lib) Anything Anything (AuthService.login P.env P.sha256 email password)
      (fun tr _ _ => Throughout (TokensOwn P) [] tr) w := by
  have hfind : (AuthOp.userFindUnique email).Modest P := ⟨nofun, nofun⟩
  refine wp_modest_bind P (all_perform hfind) [] ?_ w
  intro found past w
  cases found with
  | none =>
    refine wp_modest P ?_ _ w
    exact (modest_record P _).bind fun _ => trivial
  | some user =>
    have hverify : (AuthOp.verifyPassword password user.passwordHash).Modest P := ⟨nofun, nofun⟩
    refine wp_modest_bind P (all_perform hverify) _ ?_ w
    intro validPassword past₁ w
    cases validPassword with
    | false =>
      refine wp_modest P ?_ _ w
      exact (modest_record P _).bind fun _ => trivial
    | true =>
      refine wp_modest_bind P (modest_record P _) _ ?_ w
      intro _ past₂ w
      exact wp_issueTokens P user _ w

theorem wp_tokensOwn (t : AuthTask) (w : AuthWorld) :
    wp P.system.exec Anything Anything (P.system.prog t)
      (fun tr _ _ => Throughout (TokensOwn P) [] tr) w := by
  cases t with
  | register email password tenantId =>
    exact wp_void (wp_modest P (modest_register P email password tenantId) [] w)
  | login email password => exact wp_void (wp_login P email password w)
  | refresh token => exact wp_void (wp_modest P (modest_refresh P token) [] w)
  | deleteByToken token =>
    have hdelete : (AuthOp.refreshTokenDelete (hashToken P.sha256 token)).Modest P := ⟨nofun, nofun⟩
    exact wp_void (wp_modest P (all_perform hdelete) [] w)

theorem tokensOwn_of_mem {m : AuthMoment} (hm : m ∈ P.moments es) :
    ∃ past, (∀ m₀ ∈ past, m₀ ∈ P.moments es) ∧ TokensOwn P past m := by
  obtain ⟨-, past, hpast, hown⟩ := exists_task_of_mem (J := fun _ => TokensOwn P) (wp_tokensOwn P) hm
  exact ⟨past, hpast, hown⟩

/-- **A signed token is of one of the two kinds.** -/
theorem kind_of_signs {m : AuthMoment} (hm : m ∈ P.moments es) {expiresIn token : String}
    {payload : JwtPayload} (h : P.Signs expiresIn token payload m) :
    (expiresIn = P.env.JWT_ACCESS_EXPIRES ∧ P.SignsAccess token m) ∨
      (expiresIn = P.env.JWT_REFRESH_EXPIRES ∧ P.SignsRefresh token m) := by
  obtain ⟨past, -, hown⟩ := tokensOwn_of_mem P hm
  rcases hown.signed _ _ h.1 with ⟨hjti, rfl⟩ | ⟨jti, hjti, rfl⟩
  · exact .inl ⟨rfl, payload, hjti, h⟩
  · exact .inr ⟨rfl, payload, jti, hjti, h⟩

end Calls

/-! ## What the kinds have in common -/

section Kinds

variable {P : AuthPlatform} {es : List AuthEvent} {token : String}

/-- **No text is a token of both kinds**: a verified token tells its payload. -/
theorem not_signsRefresh_of_signsAccess (hlib : P.lib.Lawful) {m m' : AuthMoment}
    (h : P.SignsAccess token m) : ¬ P.SignsRefresh token m' := by
  rintro ⟨payload', jti, hjti, -, hsign'⟩
  obtain ⟨payload, hnone, -, hsign⟩ := h
  have hverify := hlib.verify_signed hsign 0 (Nat.zero_le _)
  rw [hlib.verify_signed hsign' 0 (Nat.zero_le _), Except.ok.injEq] at hverify
  rw [← hverify, hjti] at hnone
  cases hnone

/-- The token that `authenticate` verifies. -/
def bearer (request : HttpRequest) : Option String :=
  match Js.split (request.authorization.getD "") ' ' with
  | scheme :: token :: _ => if scheme ≠ "Bearer" || token = "" then none else some token
  | _ => none

theorem authenticate_ok_iff {verifyToken : String → Option User} {request : HttpRequest} {user : User} :
    authenticate verifyToken request = .ok user ↔
      ∃ token, bearer request = some token ∧ verifyToken token = some user := by
  have hempty : Js.split "" ' ' = [""] := by decide +kernel
  rw [authenticate, bearer]
  by_cases hfalsy : Js.isFalsy request.authorization = true
  · have hnone : request.authorization.getD "" = "" := of_decide_eq_true hfalsy
    rw [if_pos hfalsy, hnone, hempty]
    simp
  · rw [if_neg hfalsy]
    rcases Js.split (request.authorization.getD "") ' ' with _ | ⟨scheme, _ | ⟨token, rest⟩⟩
    · simp
    · simp
    · by_cases hscheme : (scheme ≠ "Bearer" || token = "") = true
      · simp only [if_pos hscheme]
        simp
      · simp only [if_neg hscheme]
        cases hverify : verifyToken token <;> simp [hverify]

theorem authenticateAt_ok_iff {lib : AuthLibraries} {now : Date} {request : HttpRequest} {user : User} :
    authenticateAt lib now request = .ok user ↔ ∃ token payload, bearer request = some token ∧
      lib.verify token now = .ok payload ∧ payload.user = user := by
  rw [authenticateAt, authenticate_ok_iff]
  constructor
  · rintro ⟨token, hbearer, hverify⟩
    obtain ⟨payload, hpayload, huser⟩ := Option.map_eq_some_iff.mp hverify
    cases hresult : lib.verify token now with
    | error e =>
      rw [hresult] at hpayload
      cases hpayload
    | ok payload' =>
      rw [hresult] at hpayload
      obtain rfl : payload' = payload := Option.some.inj hpayload
      exact ⟨token, payload', hbearer, hresult, huser⟩
  · rintro ⟨token, payload, hbearer, hverify, huser⟩
    refine ⟨token, hbearer, ?_⟩
    rw [hverify, ← huser]
    rfl

end Kinds

/-! ## Refreshing -/

section Refreshing

variable {P : AuthPlatform} {es : List AuthEvent} {token : String}

theorem AuthOp.exec_ok {lib : AuthLibraries} {o : AuthOp} {i : AuthInput} {w : AuthWorld} {a : o.Res}
    (h : (o.exec lib i w).1 = .ok a) : o.exec lib i w = o.effect lib i w := by
  rw [AuthOp.exec] at h ⊢
  split at h
  · rfl
  · cases h

/-- Only `refreshTokenCreate` adds a row. -/
theorem mem_refreshTokens_effect {lib : AuthLibraries} (o : AuthOp) (i : AuthInput) (w : AuthWorld)
    {t : RefreshToken} (ht : t ∈ (o.effect lib i w).2.refreshTokens.rows) :
    t ∈ w.refreshTokens.rows ∨ ∃ userId expiresAt, o = .refreshTokenCreate userId t.tokenHash expiresAt := by
  cases o with
  | userCreate email passwordHash role tenantId =>
    rw [AuthOp.effect] at ht
    split at ht
    · split at ht <;> exact .inl ht
    · exact .inl ht
  | refreshTokenCreate userId tokenHash expiresAt =>
    rw [AuthOp.effect] at ht
    split at ht
    · split at ht
      · split at ht
        · next hinsert =>
          dsimp only at ht
          rw [Table.insert_rows hinsert] at ht
          rcases List.mem_append.mp ht with ht | ht
          · exact .inl ht
          · rw [List.mem_singleton.mp ht]
            exact .inr ⟨userId, expiresAt, rfl⟩
        · exact .inl ht
      · exact .inl ht
    · exact .inl ht
  | refreshTokenDelete tokenHash =>
    rw [AuthOp.effect] at ht
    split at ht
    · exact .inl ht
    · exact .inl (Table.mem_deleteMany.mp ht).1
  | randomUUID | now | hashPassword | verifyPassword | sign | verify | userFindUnique
  | refreshTokenFindUnique | auditLogCreate | logError => exact .inl ht

theorem mem_refreshTokens_exec {lib : AuthLibraries} (o : AuthOp) (i : AuthInput) (w : AuthWorld)
    {t : RefreshToken} (ht : t ∈ (o.exec lib i w).2.refreshTokens.rows) :
    t ∈ w.refreshTokens.rows ∨ ∃ userId expiresAt, o = .refreshTokenCreate userId t.tokenHash expiresAt := by
  rw [AuthOp.exec] at ht
  split at ht
  · exact mem_refreshTokens_effect o i w ht
  · split at ht
    · exact mem_refreshTokens_effect o i w ht
    · exact .inl ht

/-- A token with this digest is stored. -/
def AuthWorld.stores (tokenHash : String) (w : AuthWorld) : Bool :=
  w.refreshTokens.rows.any fun t => t.tokenHash = tokenHash

/-- **A stored token was issued** by `createRefreshToken`. -/
theorem issued_of_stored (hsha : Function.Injective P.sha256)
    (h : (P.after es).world.stores (hashToken P.sha256 token) = true) :
    ∃ m ∈ P.moments es, P.SignsRefresh token m := by
  have hchanged : (P.after es).world.stores (hashToken P.sha256 token) ≠
      (AuthWorld.init P.tenants).stores (hashToken P.sha256 token) := by
    rw [h]
    exact (by decide : true ≠ false)
  obtain ⟨m, hm, hbefore, hafter⟩ := changed_by_moment
    (f := AuthWorld.stores (hashToken P.sha256 token)) (fun _ _ => rfl) hchanged
  rw [show (Config.after P.system _ es).world.stores _ = true from h] at hbefore hafter
  obtain ⟨t, ht, hhash⟩ := List.any_eq_true.mp hafter
  rw [decide_eq_true_eq] at hhash
  rcases mem_refreshTokens_exec m.op m.input m.state ht with hbefore' | ⟨userId, expiresAt, hop⟩
  · exact absurd (List.any_eq_true.mpr ⟨t, hbefore', decide_eq_true hhash⟩) hbefore
  · obtain ⟨past, hpast, hown⟩ := tokensOwn_of_mem P hm
    obtain ⟨m₀, hm₀, token', hsigns, heq⟩ := hown.stored userId t.tokenHash expiresAt hop
    rw [hhash] at heq
    rw [← hsha (Bytes.toHex_injective heq)] at hsigns
    exact ⟨m₀, hpast m₀ hm₀, hsigns⟩

/-- What `refresh` has to be sure of, to issue an access token: a refresh token that is stored and has not
expired, and not an access token. -/
def OnlyStored (P : AuthPlatform) (es : List AuthEvent) : Prop :=
  ∀ token (inp : Nat → List AuthEvent × AuthInput) result,
    ((AuthService.refresh P.env P.sha256 token).run (interleave P.system) inp (P.after es)).1 =
      .ok result →
    ∃ stored ∈ (P.after (es ++ (inp 0).1 ++ (inp 1).1)).world.refreshTokens.rows,
      stored.tokenHash = hashToken P.sha256 token ∧
      (P.after (es ++ (inp 0).1 ++ (inp 1).1 ++ (inp 2).1)).world.clock ≤ stored.expiresAt ∧
      (∃ m ∈ P.moments (es ++ (inp 0).1 ++ (inp 1).1), P.SignsRefresh token m) ∧
      ∀ m ∈ P.moments (es ++ (inp 0).1 ++ (inp 1).1), ¬ P.SignsAccess token m

theorem interleave_reads {o : AuthOp} (ho : ∀ i w, (o.exec P.lib i w).2 = w)
    (i : List AuthEvent × AuthInput) (c : Config AuthOp AuthOp.Res JsError AuthWorld) :
    interleave P.system o i c = ((o.exec P.lib i.2 (c.after P.system i.1).world).1, c.after P.system i.1) := by
  have hworld : (P.system.exec o i.2 (c.after P.system i.1).world).2 = (c.after P.system i.1).world :=
    ho _ _
  rw [interleave, hworld]
  rfl

/-- **What a refreshed session rests on.** -/
theorem refresh_granted (hlib : P.lib.Lawful) (hsha : Function.Injective P.sha256)
    (es : List AuthEvent) : OnlyStored P es := by
  intro token inp result hok
  have hverify : ∀ i w, ((AuthOp.verify token).exec P.lib i w).2 = w := fun _ _ => rfl
  have hlookup : ∀ i w,
      ((AuthOp.refreshTokenFindUnique (hashToken P.sha256 token)).exec P.lib i w).2 = w := by
    intro i w
    rw [AuthOp.exec]
    split
    · rfl
    · split <;> rfl
  have hnow : ∀ i w, (AuthOp.now.exec P.lib i w).2 = w := fun _ _ => rfl
  obtain ⟨payload, -, hok⟩ := run_perform_bind_ok hok
  rw [interleave_reads hverify, ← P.after_append] at hok
  obtain ⟨found, hfound, hok⟩ := run_perform_bind_ok hok
  rw [interleave_reads hlookup, ← P.after_append] at hok hfound
  cases found with
  | none => cases hok
  | some stored =>
    obtain ⟨now, hclock, hok⟩ := run_perform_bind_ok hok
    rw [interleave_reads hnow, ← P.after_append] at hok hclock
    have hstored : (P.after (es ++ (inp 0).1 ++ (inp 1).1)).world.refreshTokens.get
        (.tokenHash (hashToken P.sha256 token)) = some stored := by
      rw [AuthOp.exec_ok hfound] at hfound
      exact Except.ok.inj hfound
    obtain ⟨hmem, hkey⟩ := (Table.get_eq_some_iff _).mp hstored
    have hhash : stored.tokenHash = hashToken P.sha256 token := by
      simpa [RefreshToken.keys, eq_comm] using hkey
    have hissued : ∃ m ∈ P.moments (es ++ (inp 0).1 ++ (inp 1).1), P.SignsRefresh token m :=
      issued_of_stored hsha (List.any_eq_true.mpr ⟨stored, hmem, decide_eq_true hhash⟩)
    refine ⟨stored, hmem, hhash, ?_, hissued, ?_⟩
    · obtain rfl : (P.after (es ++ (inp 0).1 ++ (inp 1).1 ++ (inp 2).1)).world.clock = now :=
        Except.ok.inj hclock
      by_contra hlt
      dsimp only at hok
      rw [if_pos (Nat.lt_of_not_le hlt)] at hok
      cases hok
    · obtain ⟨m₀, -, hrefresh⟩ := hissued
      intro m _ haccess
      exact not_signsRefresh_of_signsAccess hlib haccess hrefresh

end Refreshing

/-! ## Authenticating -/

section Authenticating

variable {P : AuthPlatform} {es : List AuthEvent} {request : HttpRequest}

/-- What `authenticate` has to be sure of: an access token that was issued no longer ago than its lifetime. -/
def OnlyAccess (P : AuthPlatform) (es : List AuthEvent) (request : HttpRequest) : Prop :=
  ∀ user, authenticateAt P.lib (P.after es).world.clock request = .ok user →
    ∃ token, bearer request = some token ∧ ∃ m ∈ P.moments es, P.SignsAccess token m ∧
      (P.after es).world.clock ≤ m.state.clock + P.lib.duration P.env.JWT_ACCESS_EXPIRES

/-- The request carries a refresh token that is still good. -/
def CarriesRefresh (P : AuthPlatform) (es : List AuthEvent) (request : HttpRequest) : Prop :=
  ∃ token, bearer request = some token ∧ ∃ m ∈ P.moments es, P.SignsRefresh token m ∧
    (P.after es).world.clock ≤ P.lib.expiry P.env.JWT_REFRESH_EXPIRES m.state.clock

/-- Nobody else can sign: a token that verifies was signed by the application. -/
def Unforged (P : AuthPlatform) (es : List AuthEvent) (request : HttpRequest) : Prop :=
  ∀ token payload, bearer request = some token →
    P.lib.verify token (P.after es).world.clock = .ok payload →
    ∃ m ∈ P.moments es, ∃ payload expiresIn, P.Signs expiresIn token payload m

theorem le_expiry_of_verify (hlib : P.lib.Lawful) {m : AuthMoment} {expiresIn token : String}
    {payload payload' : JwtPayload} {now : Date} (h : P.Signs expiresIn token payload m)
    (hverify : P.lib.verify token now = .ok payload') : now ≤ P.lib.expiry expiresIn m.state.clock := by
  by_contra hlt
  exact hlib.verify_expired h.2 now (Nat.lt_of_not_le hlt) _ hverify

/-- **`authenticate` is right about a request exactly if it carries no refresh token.** -/
theorem onlyAccess_iff (hlib : P.lib.Lawful) (hunforged : Unforged P es request) :
    OnlyAccess P es request ↔ ¬ CarriesRefresh P es request := by
  constructor
  · rintro honly ⟨token, hbearer, m, hm, hrefresh, hlive⟩
    obtain ⟨payload, jti, hjti, hsigns⟩ := hrefresh
    have hverify := hlib.verify_signed hsigns.2 _ hlive
    obtain ⟨token', hbearer', m', -, haccess, -⟩ :=
      honly payload.user (authenticateAt_ok_iff.mpr ⟨token, payload, hbearer, hverify, rfl⟩)
    obtain rfl : token = token' := Option.some.inj (hbearer.symm.trans hbearer')
    exact not_signsRefresh_of_signsAccess hlib haccess ⟨payload, jti, hjti, hsigns⟩
  · intro hcarries user huser
    obtain ⟨token, payload, hbearer, hverify, -⟩ := authenticateAt_ok_iff.mp huser
    obtain ⟨m, hm, payload', expiresIn, hsigns⟩ := hunforged token payload hbearer hverify
    have hlive := le_expiry_of_verify hlib hsigns hverify
    rcases kind_of_signs P hm hsigns with ⟨rfl, haccess⟩ | ⟨rfl, hrefresh⟩
    · exact ⟨token, hbearer, m, hm, haccess, hlive.trans (hlib.expiry_le _ _)⟩
    · exact absurd ⟨token, hbearer, m, hm, hrefresh, hlive⟩ hcarries

/-- **The two kinds of tokens**, in every run and for every request.  A refresh is granted only for a stored
refresh token that has not expired.  A request is accepted only for an access token within its lifetime,
exactly unless it carries a refresh token that is still good. -/
theorem token_kinds (P : AuthPlatform) (hlib : P.lib.Lawful) (hsha : Function.Injective P.sha256)
    (es : List AuthEvent) (request : HttpRequest) (hunforged : Unforged P es request) :
    OnlyAccess P es request ∧ OnlyStored P es ↔ ¬ CarriesRefresh P es request := by
  constructor
  · rintro ⟨honly, -⟩
    exact (onlyAccess_iff hlib hunforged).mp honly
  · intro hcarries
    exact ⟨(onlyAccess_iff hlib hunforged).mpr hcarries, refresh_granted hlib hsha es⟩

end Authenticating

/-! ## A run -/

section Samples

/-- A text for a list of texts: each letter after a `+`, each text before a `.`. -/
def packed : List (List Char) → List Char
  | [] => []
  | text :: texts => text.flatMap (fun c => ['+', c]) ++ '.' :: packed texts

def unpacked : List Char → List (List Char)
  | '+' :: c :: rest =>
    match unpacked rest with
    | text :: texts => (c :: text) :: texts
    | [] => []
  | '.' :: rest => [] :: unpacked rest
  | _ => []

theorem unpacked_packed (texts : List (List Char)) : unpacked (packed texts) = texts := by
  induction texts with
  | nil => rfl
  | cons text texts ih =>
    rw [packed]
    induction text with
    | nil => rw [List.flatMap_nil, List.nil_append, unpacked, ih]
    | cons c text ih' =>
      rw [List.flatMap_cons, List.append_assoc, List.cons_append, List.cons_append, List.nil_append,
        unpacked, ih']

def roleOf (text : List Char) : Role :=
  if text = "ADMIN".toList then .ADMIN else if text = "USER".toList then .USER else .SERVICE

def roleText : Role → List Char
  | .ADMIN => "ADMIN".toList
  | .USER => "USER".toList
  | .SERVICE => "SERVICE".toList

/-- The claims of a token, with its `exp`. -/
def claimsOf (payload : JwtPayload) (exp : Date) : List (List Char) :=
  [payload.id.toList, payload.email.toList, roleText payload.role, payload.tenantId.toList,
    Nat.toDigits 10 exp] ++ payload.jti.toList.map String.toList

def readClaims : List (List Char) → Option (JwtPayload × Date)
  | id :: email :: role :: tenantId :: exp :: jti =>
    some (⟨String.ofList id, String.ofList email, roleOf role, String.ofList tenantId,
      jti.head?.map String.ofList⟩, Nat.ofDigitChars 10 exp 0)
  | _ => none

theorem readClaims_claimsOf (payload : JwtPayload) (exp : Date) :
    readClaims (claimsOf payload exp) = some (payload, exp) := by
  have hrole : roleOf (roleText payload.role) = payload.role := by
    cases payload.role <;> decide
  have hjti : (payload.jti.toList.map String.toList).head?.map String.ofList = payload.jti := by
    cases payload.jti <;> simp
  simp only [claimsOf, List.cons_append, List.nil_append, readClaims, hrole, hjti,
    String.ofList_toList, Nat.ofDigitChars_ten_toDigits]

/-- Libraries that trust everybody: a token spells its claims, a password is its own hash. -/
def trustingLibraries : AuthLibraries where
  sign payload expiresIn signed :=
    .ok (String.ofList (packed (claimsOf payload
      ((signed + if expiresIn = "15m" then 900000 else 604800000) / 1000 * 1000))))
  verify token now :=
    match readClaims (unpacked token.toList) with
    | none => .error (.error "The token is malformed.")
    | some (payload, exp) => if now ≤ exp then .ok payload else .error (.error "The token has expired.")
  duration expiresIn := if expiresIn = "15m" then 900000 else 604800000
  expiry expiresIn signed :=
    (signed + if expiresIn = "15m" then 900000 else 604800000) / 1000 * 1000
  compare password passwordHash := password = passwordHash

theorem trustingLibraries_verify {payload : JwtPayload} {expiresIn token : String} {signed : Date}
    (h : trustingLibraries.sign payload expiresIn signed = .ok token) (now : Date) :
    trustingLibraries.verify token now =
      if now ≤ trustingLibraries.expiry expiresIn signed then .ok payload
      else .error (.error "The token has expired.") := by
  rw [← Except.ok.inj h]
  simp only [trustingLibraries, String.toList_ofList, unpacked_packed, readClaims_claimsOf]
  rfl

theorem trustingLibraries_lawful : trustingLibraries.Lawful where
  verify_signed h now hle := by rw [trustingLibraries_verify h, if_pos hle]
  verify_expired h now hlt payload' := by
    rw [trustingLibraries_verify h, if_neg (Nat.not_le_of_lt hlt)]
    exact nofun
  expiry_le expiresIn signed := Nat.div_mul_le_self _ _

/-- One tenant. -/
def acmePlatform : AuthPlatform := ⟨trustingLibraries, {}, Bytes.utf8, ["acme"]⟩

/-- A user registers and logs in. -/
def firstLogin : List AuthEvent :=
  [.spawn (.register "ann@acme" "secret" "acme"), .step 0 { passwordHash := "secret" },
    .step 0 { uuid := "ann" }, .step 0 {}, .spawn (.login "ann@acme" "secret"), .step 1 {}, .step 1 {},
    .step 1 {}, .step 1 {}, .step 1 { uuid := "jti" }, .step 1 {}, .step 1 {}, .step 1 { uuid := "row" }]

def annAccess : JwtPayload := ⟨"ann", "ann@acme", .USER, "acme", none⟩

def annRefresh : JwtPayload := ⟨"ann", "ann@acme", .USER, "acme", some "jti"⟩

/-- The token of these claims. -/
def annToken (payload : JwtPayload) (exp : Date) : String := String.ofList (packed (claimsOf payload exp))

/-- A request with a token. -/
def annRequest (token : String) : HttpRequest := { id := "req", authorization := some ("Bearer " ++ token) }

theorem firstLogin_signs :
    (∃ m ∈ acmePlatform.moments firstLogin, acmePlatform.SignsAccess (annToken annAccess 900000) m ∧
      m.state.clock = 0) ∧
    (∃ m ∈ acmePlatform.moments firstLogin, acmePlatform.SignsRefresh (annToken annRefresh 604800000) m ∧
      m.state.clock = 0) ∧
    (acmePlatform.after firstLogin).world.clock = 0 := by
  have hmoments : ((acmePlatform.moments firstLogin).any fun m =>
        m.op = .sign annAccess "15m" && m.state.clock = 0) = true ∧
      ((acmePlatform.moments firstLogin).any fun m =>
        m.op = .sign annRefresh "7d" && m.state.clock = 0) = true ∧
      (acmePlatform.after firstLogin).world.clock = 0 := by decide +kernel
  obtain ⟨haccess, hrefresh, hclock⟩ := hmoments
  obtain ⟨m, hm, hop⟩ := List.any_eq_true.mp haccess
  obtain ⟨m', hm', hop'⟩ := List.any_eq_true.mp hrefresh
  rw [Bool.and_eq_true, decide_eq_true_eq, decide_eq_true_eq] at hop hop'
  refine ⟨⟨m, hm, ⟨annAccess, rfl, hop.1, ?_⟩, hop.2⟩,
    ⟨m', hm', ⟨annRefresh, "jti", rfl, hop'.1, ?_⟩, hop'.2⟩, hclock⟩
  · rw [hop.2]
    rfl
  · rw [hop'.2]
    rfl

theorem bearer_annRequest :
    bearer (annRequest (annToken annAccess 900000)) = some (annToken annAccess 900000) ∧
      bearer (annRequest (annToken annRefresh 604800000)) = some (annToken annRefresh 604800000) := by
  decide +kernel

theorem acmePlatform_sha256 : Function.Injective acmePlatform.sha256 := Bytes.utf8_injective

theorem unforged_of_signs {token : String} (hbearer : bearer (annRequest token) = some token)
    {m : AuthMoment} (hm : m ∈ acmePlatform.moments firstLogin) {payload : JwtPayload} {expiresIn : String}
    (h : acmePlatform.Signs expiresIn token payload m) :
    Unforged acmePlatform firstLogin (annRequest token) := by
  intro token' payload' hbearer' _
  obtain rfl : token = token' := Option.some.inj (hbearer.symm.trans hbearer')
  exact ⟨m, hm, payload, expiresIn, h⟩

/-- The access token of the session is treated as it should be. -/
theorem token_kinds_access :
    OnlyAccess acmePlatform firstLogin (annRequest (annToken annAccess 900000)) ∧
      OnlyStored acmePlatform firstLogin := by
  obtain ⟨⟨m, hm, haccess, -⟩, -, -⟩ := firstLogin_signs
  obtain ⟨payload, hjti, hsigns⟩ := haccess
  have hbearer := bearer_annRequest.1
  refine (token_kinds acmePlatform trustingLibraries_lawful acmePlatform_sha256 firstLogin
    (annRequest (annToken annAccess 900000)) (unforged_of_signs hbearer hm hsigns)).mpr ?_
  rintro ⟨token, hbearer', m', -, hrefresh, -⟩
  obtain rfl := Option.some.inj (hbearer.symm.trans hbearer')
  exact not_signsRefresh_of_signsAccess trustingLibraries_lawful ⟨payload, hjti, hsigns⟩ hrefresh

/-- The refresh token of the session is accepted in place of an access token. -/
theorem refreshToken_accepted :
    ¬ ∀ P : AuthPlatform, P.lib.Lawful → Function.Injective P.sha256 → ∀ es request,
      Unforged P es request → OnlyAccess P es request ∧ OnlyStored P es := by
  intro h
  obtain ⟨-, ⟨m, hm, hrefresh, hsigned⟩, hclock⟩ := firstLogin_signs
  obtain ⟨payload, jti, hjti, hsigns⟩ := hrefresh
  have hbearer := bearer_annRequest.2
  have hunforged := unforged_of_signs hbearer hm hsigns
  have honly := (h acmePlatform trustingLibraries_lawful acmePlatform_sha256 firstLogin _ hunforged).1
  refine (onlyAccess_iff trustingLibraries_lawful hunforged).mp honly
    ⟨_, hbearer, m, hm, ⟨payload, jti, hjti, hsigns⟩, ?_⟩
  rw [hclock]
  exact Nat.zero_le _

end Samples

end TransactionSimulator
