import TransactionSimulator.Blockchain.RpcAttempts
import TransactionSimulator.Lib.Bytes

/-!
# The error for a missing receipt

`classifyRpcError` looks for texts in the message of an error, for three-digit numbers among them.  The error that
`viem` raises for a missing receipt quotes the hash.

* `infix_append_cons_iff`: a text without a character is found on one side of it or on the other.
* `classifyRpcError_receiptNotFound`: the class of the error, from the digits of the hash.
* `sameTreatment_iff`: two hashes are treated alike exactly if they have the same of these numbers in them.
-/

namespace TransactionSimulator

open Concurrent Prog Retry

/-! ## Texts in texts -/

theorem includes_iff {s part : String} : Js.includes s part = true ↔ part.toList <:+: s.toList := by
  rw [Js.includes, List.any_eq_true]
  constructor
  · rintro ⟨t, ht, hpart⟩
    exact (List.isPrefixOf_iff_prefix.mp hpart).isInfix.trans ((List.mem_tails _ _).mp ht).isInfix
  · rintro ⟨s₁, s₂, h⟩
    refine ⟨part.toList ++ s₂, ?_, List.isPrefixOf_iff_prefix.mpr (List.prefix_append _ _)⟩
    rw [List.mem_tails, ← h, List.append_assoc]
    exact List.suffix_append _ _

section Infix

variable {γ : Type} {k l l' : List γ} {c : γ}

/-- **A text without the separator** lies before it or behind it. -/
theorem infix_append_cons_iff (hc : c ∉ k) : k <:+: l ++ c :: l' ↔ k <:+: l ∨ k <:+: l' := by
  constructor
  · rintro ⟨s, t, h⟩
    rw [List.append_assoc] at h
    rcases List.append_eq_append_iff.mp h with ⟨u, hl, hrest⟩ | ⟨u, hs, hrest⟩
    · -- the text begins in the first part, and cannot reach over the separator
      rcases List.append_eq_append_iff.mp hrest with ⟨v, hu, -⟩ | ⟨v, hk, hv⟩
      · left
        exact ⟨s, v, by rw [hl, hu, List.append_assoc]⟩
      · cases v with
        | nil =>
          left
          exact ⟨s, [], by rw [hl, hk, List.append_nil, List.append_nil]⟩
        | cons d v =>
          obtain ⟨rfl, -⟩ := List.cons.inj hv
          exact absurd (hk ▸ List.mem_append_right _ (List.mem_cons_self)) hc
    · cases u with
      | nil =>
        cases k with
        | nil => exact .inl (List.nil_infix)
        | cons d k =>
          obtain ⟨rfl, -⟩ := List.cons.inj hrest
          exact absurd List.mem_cons_self hc
      | cons d u =>
        obtain ⟨-, hrest⟩ := List.cons.inj hrest
        right
        refine ⟨u, t, ?_⟩
        rw [List.append_assoc]
        exact hrest.symm
  · rintro (h | h)
    · exact h.trans (List.prefix_append _ _).isInfix
    · exact h.trans ((List.suffix_cons c l').trans (List.suffix_append _ _)).isInfix

end Infix

/-! ## The error -/

/-- The hash of a transaction: 32 bytes. -/
structure TxHash where
  bytes : List UInt8
  length : bytes.length = 32

/-- The digits of a hash, behind `0x`. -/
def TxHash.digits (hash : TxHash) : String := Bytes.toHex hash.bytes

def beforeHash : String := "Transaction receipt with hash \"0x"

/-- The version is the one that `package-lock.json` names. -/
def behindHash : String :=
  "\" could not be found. The Transaction may not be processed on a block yet.\n\nVersion: viem@2.56.8"

/-- The message of `TransactionReceiptNotFoundError`. -/
def receiptNotFound (hash : TxHash) : String := beforeHash ++ hash.digits ++ behindHash

/-- What stands before the digits and behind them, in lower case, without the characters next to them. -/
def beforeDigits : List Char :=
  ['t', 'r', 'a', 'n', 's', 'a', 'c', 't', 'i', 'o', 'n', ' ', 'r', 'e', 'c', 'e', 'i', 'p', 't', ' ', 'w', 'i', 't',
    'h', ' ', 'h', 'a', 's', 'h', ' ', '"', '0']

def behindDigits : List Char :=
  [' ', 'c', 'o', 'u', 'l', 'd', ' ', 'n', 'o', 't', ' ', 'b', 'e', ' ', 'f', 'o', 'u', 'n', 'd', '.', ' ', 't', 'h',
    'e', ' ', 't', 'r', 'a', 'n', 's', 'a', 'c', 't', 'i', 'o', 'n', ' ', 'm', 'a', 'y', ' ', 'n', 'o', 't', ' ',
    'b', 'e', ' ', 'p', 'r', 'o', 'c', 'e', 's', 's', 'e', 'd', ' ', 'o', 'n', ' ', 'a', ' ', 'b', 'l', 'o', 'c',
    'k', ' ', 'y', 'e', 't', '.', '\n', '\n', 'v', 'e', 'r', 's', 'i', 'o', 'n', ':', ' ', 'v', 'i', 'e', 'm', '@',
    '2', '.', '5', '6', '.', '8']

def hexDigits : List Char := ['0', '1', '2', '3', '4', '5', '6', '7', '8', '9', 'a', 'b', 'c', 'd', 'e', 'f']

theorem digits_hex (hash : TxHash) : ∀ c ∈ hash.digits.toList, c ∈ hexDigits := by
  have hdigit : ∀ n : Fin 16, Bytes.hexDigit n ∈ hexDigits := by decide
  intro c hc
  rw [TxHash.digits, Bytes.toHex, String.toList_ofList, List.mem_flatMap] at hc
  obtain ⟨b, -, hc⟩ := hc
  rcases List.mem_pair.mp hc with rfl | rfl
  · exact hdigit _
  · exact hdigit _

theorem map_toLower_digits (hash : TxHash) : hash.digits.toList.map Char.toLower = hash.digits.toList := by
  have hall : (hexDigits.all fun c => c.toLower = c) = true := by decide
  conv_rhs => rw [← List.map_id hash.digits.toList]
  exact List.map_congr_left fun c hc => of_decide_eq_true (List.all_eq_true.mp hall c (digits_hex hash c hc))

theorem map_toLower_beforeHash : beforeHash.toList.map Char.toLower = beforeDigits ++ ['x'] := by
  have hchars : beforeHash.toList = _ := String.toList_ofList
  rw [hchars]
  decide

theorem map_toLower_behindHash : behindHash.toList.map Char.toLower = '"' :: behindDigits := by
  have hchars : behindHash.toList = _ := String.toList_ofList
  rw [hchars]
  decide

theorem toLowerCase_receiptNotFound (hash : TxHash) :
    (Js.toLowerCase (receiptNotFound hash)).toList =
      beforeDigits ++ 'x' :: (hash.digits.toList ++ '"' :: behindDigits) := by
  rw [Js.toLowerCase, String.toList_ofList, receiptNotFound, String.toList_append, String.toList_append,
    List.map_append, List.map_append, map_toLower_beforeHash, map_toLower_digits, map_toLower_behindHash,
    List.append_assoc, List.append_assoc, List.singleton_append]

/-- A text of the cascade that can be found in the digits only. -/
abbrev InDigitsOnly (part : String) : Prop :=
  'x' ∉ part.toList ∧ '"' ∉ part.toList ∧ ¬ part.toList <:+: beforeDigits ∧ ¬ part.toList <:+: behindDigits

theorem includes_receiptNotFound (hash : TxHash) {part : String} (h : InDigitsOnly part) :
    Js.includes (Js.toLowerCase (receiptNotFound hash)) part = Js.includes hash.digits part := by
  obtain ⟨hx, hquote, hbefore, hbehind⟩ := h
  rw [Bool.eq_iff_iff, includes_iff, includes_iff, toLowerCase_receiptNotFound, infix_append_cons_iff hx,
    infix_append_cons_iff hquote]
  constructor
  · rintro (h | h | h)
    · exact absurd h hbefore
    · exact h
    · exact absurd h hbehind
  · exact fun h => .inr (.inl h)

/-- The texts of the cascade that are no numbers; every text about a revert has the last one in it. -/
def words : List (List String) :=
  [["timeout", "timed out", "abort"],
    ["network", "socket", "fetch failed", "failed to fetch", "econnreset", "econnrefused", "enetunreach", "ehostunreach"],
    ["rate limit", "too many requests"],
    ["service unavailable", "temporarily unavailable"],
    ["invalid params", "invalid argument", "invalid request", "parse error", "method not found"],
    ["revert"]]

theorem inDigitsOnly :
    (∀ parts ∈ words, ∀ part ∈ parts, InDigitsOnly part ∧ (part.toList.any fun c => !hexDigits.contains c) = true) ∧
      ∀ number ∈ ["429", "503", "502", "504"], InDigitsOnly number := by
  decide +kernel

theorem any_includes_words (hash : TxHash) {parts : List String} (h : parts ∈ words) :
    parts.any (Js.includes (Js.toLowerCase (receiptNotFound hash))) = false := by
  rw [List.any_eq_false]
  intro part hpart
  obtain ⟨honly, hletter⟩ := inDigitsOnly.1 parts h part hpart
  obtain ⟨c, hc, hletter⟩ := List.any_eq_true.mp hletter
  rw [includes_receiptNotFound hash honly, includes_iff]
  intro hfound
  have hdigit := digits_hex hash c (hfound.subset hc)
  simp [hdigit] at hletter

theorem any_includes_revert (hash : TxHash) :
    ["execution reverted", "reverted", "revert"].any (Js.includes (Js.toLowerCase (receiptNotFound hash))) = false := by
  have hnone : ["revert"].any (Js.includes (Js.toLowerCase (receiptNotFound hash))) = false :=
    any_includes_words hash (by simp [words])
  rw [List.any_cons, List.any_nil, Bool.or_false, ← Bool.not_eq_true, includes_iff] at hnone
  have hin : ∀ part ∈ ["execution reverted", "reverted", "revert"], Js.includes part "revert" = true := by
    decide +kernel
  rw [List.any_eq_false]
  intro part hpart
  rw [includes_iff]
  exact fun h => hnone ((includes_iff.mp (hin part hpart)).trans h)

/-! ## The class -/

/-- The digits have this number in them. -/
def hasNumber (hash : TxHash) (number : String) : Bool := Js.includes hash.digits number

/-- They have one of the numbers of an unavailable service in them. -/
def hasUnavailable (hash : TxHash) : Bool := ["503", "502", "504"].any (hasNumber hash)

theorem any_includes_rateLimit (hash : TxHash) :
    ["429", "rate limit", "too many requests"].any (Js.includes (Js.toLowerCase (receiptNotFound hash))) =
      hasNumber hash "429" := by
  have hwords : ["rate limit", "too many requests"].any (Js.includes (Js.toLowerCase (receiptNotFound hash))) = false :=
    any_includes_words hash (by simp [words])
  rw [List.any_cons, hwords, Bool.or_false, includes_receiptNotFound hash (inDigitsOnly.2 "429" (by simp))]
  rfl

theorem any_includes_unavailable (hash : TxHash) :
    ["503", "502", "504", "service unavailable", "temporarily unavailable"].any
      (Js.includes (Js.toLowerCase (receiptNotFound hash))) = hasUnavailable hash := by
  have hwords : ["service unavailable", "temporarily unavailable"].any
      (Js.includes (Js.toLowerCase (receiptNotFound hash))) = false := any_includes_words hash (by simp [words])
  rw [List.any_cons, List.any_cons, List.any_cons, hwords,
    includes_receiptNotFound hash (inDigitsOnly.2 "503" (by simp)),
    includes_receiptNotFound hash (inDigitsOnly.2 "502" (by simp)),
    includes_receiptNotFound hash (inDigitsOnly.2 "504" (by simp))]
  rfl

/-- **The class of the error** depends on these numbers. -/
theorem classifyRpcError_receiptNotFound (hash : TxHash) :
    classifyRpcError (.error (receiptNotFound hash)) =
      ⟨if hasNumber hash "429" = true then .rateLimit
        else if hasUnavailable hash = true then .unavailable
        else .unknown, receiptNotFound hash⟩ := by
  have htimeout : ["timeout", "timed out", "abort"].any (Js.includes (Js.toLowerCase (receiptNotFound hash))) = false :=
    any_includes_words hash (by simp [words])
  have hnetwork : ["network", "socket", "fetch failed", "failed to fetch", "econnreset", "econnrefused", "enetunreach",
      "ehostunreach"].any (Js.includes (Js.toLowerCase (receiptNotFound hash))) = false :=
    any_includes_words hash (by simp [words])
  have hinvalid : ["invalid params", "invalid argument", "invalid request", "parse error", "method not found"].any
      (Js.includes (Js.toLowerCase (receiptNotFound hash))) = false := any_includes_words hash (by simp [words])
  rw [classifyRpcError, htimeout, hnetwork, any_includes_rateLimit, any_includes_unavailable, any_includes_revert,
    hinvalid]
  simp only [Bool.false_eq_true, if_false]
  split
  · rfl
  · split <;> rfl

/-! ## Two hashes -/

/-- What becomes of the attempts of a call: where nothing else happens, the receipt of this transaction is missing. -/
def missing {α : Type} (hash : TxHash) (others : Nat → Option (RaceEnd α)) (_ k : Nat) : RaceEnd α :=
  (others k).getD (.rejected (.error (receiptNotFound hash)))

/-- The error for a missing receipt is the same to the two: in its class, in its flag, and in the attempts and
pauses of every call that waits for the receipt. -/
structure SameTreatment (α : Type) (hash hash' : TxHash) : Prop where
  errorClass : (classifyRpcError (.error (receiptNotFound hash))).errorClass =
    (classifyRpcError (.error (receiptNotFound hash'))).errorClass
  retryable : (classifyRpcError (.error (receiptNotFound hash))).retryable =
    (classifyRpcError (.error (receiptNotFound hash'))).retryable
  calls : ∀ (others : Nat → Option (RaceEnd α)) (config : RpcConfig) (call : Nat) (metrics : RpcMetrics)
    (inp inp' : Nat → Rat) (ops ops' : List RpcOp),
    ops = (trace (RpcOp.exec (missing hash others)) (executeRpc config "getTransactionReceipt" call) inp
      { metrics }).map Moment.op →
    ops' = (trace (RpcOp.exec (missing hash' others)) (executeRpc config "getTransactionReceipt" call) inp'
      { metrics }).map Moment.op →
    ops.count (.attempt call) = ops'.count (.attempt call) ∧ ops.filterMap pauseOf = ops'.filterMap pauseOf

/-- The digits of the two have 429 in them or not, and without it, one of the numbers of an unavailable service. -/
def SameNumbers (hash hash' : TxHash) : Prop :=
  hasNumber hash "429" = hasNumber hash' "429" ∧
    (hasNumber hash "429" = false → hasUnavailable hash = hasUnavailable hash')

section Treatment

variable {α : Type} {hash hash' : TxHash}

theorem errorClass_eq_iff :
    (classifyRpcError (.error (receiptNotFound hash))).errorClass =
      (classifyRpcError (.error (receiptNotFound hash'))).errorClass ↔ SameNumbers hash hash' := by
  rw [classifyRpcError_receiptNotFound, classifyRpcError_receiptNotFound, SameNumbers]
  dsimp only
  cases hasNumber hash "429" <;> cases hasNumber hash' "429" <;> cases hasUnavailable hash <;>
    cases hasUnavailable hash' <;> decide

theorem IsLast.unique {shouldRetry : Thrown → Bool} {outcomes outcomes' : Nat → Except Thrown α} {attempt left k k' : Nat}
    (hstops : ∀ i, stops shouldRetry (outcomes i) = stops shouldRetry (outcomes' i))
    (h : IsLast shouldRetry outcomes attempt left k) (h' : IsLast shouldRetry outcomes' attempt left k') : k = k' := by
  rw [IsLast] at h h'
  simp only [hstops] at h
  exact h.unique h'

theorem stops_rejected (error : Thrown) :
    stops shouldRetry (attemptOutcome (.rejected error) : Except Thrown α) = !(classifyRpcError error).retryable := rfl

theorem stops_missing
    (h : (classifyRpcError (.error (receiptNotFound hash))).retryable =
      (classifyRpcError (.error (receiptNotFound hash'))).retryable)
    (others : Nat → Option (RaceEnd α)) (call i : Nat) :
    stops shouldRetry (seen (missing hash others) call i) = stops shouldRetry (seen (missing hash' others) call i) := by
  rw [seen, seen, missing, missing]
  cases others i with
  | some settled => rfl
  | none => rw [Option.getD_none, Option.getD_none, stops_rejected, stops_rejected, h]

/-- **A receipt that stays missing**: the error decides between one attempt and all of them. -/
theorem attempts_of_missing (hash : TxHash) (config : RpcConfig) (call : Nat) (metrics : RpcMetrics) (inp : Nat → Rat) :
    ((trace (RpcOp.exec (missing hash fun _ => (none : Option (RaceEnd α))))
      (executeRpc config "getTransactionReceipt" call) inp { metrics }).map Moment.op).count (.attempt call) =
      if (classifyRpcError (.error (receiptNotFound hash))).retryable = true then config.maxRetries + 1 else 1 := by
  obtain ⟨k, hlast, hdone⟩ := run_executeRpc (missing hash fun _ => (none : Option (RaceEnd α))) config
    "getTransactionReceipt" call metrics inp
  have hstops : ∀ i, stops shouldRetry (seen (missing hash fun _ => (none : Option (RaceEnd α))) call i) =
      !(classifyRpcError (.error (receiptNotFound hash))).retryable := fun i => stops_rejected _
  rw [hdone.attempts]
  have hpos := hlast.1.1
  cases hretryable : (classifyRpcError (.error (receiptNotFound hash))).retryable with
  | true =>
    rw [if_pos rfl]
    rcases hlast.1.2 with h | h
    · rw [hstops, hretryable] at h
      cases h
    · omega
  | false =>
    rw [if_neg Bool.false_ne_true]
    have hle := hlast.2 ⟨le_rfl, .inl (by rw [hstops, hretryable]; rfl)⟩
    omega

end Treatment

/-- **Two hashes** are treated alike exactly if the same numbers are in their digits. -/
theorem sameTreatment_iff (α : Type) (hash hash' : TxHash) :
    SameTreatment α hash hash' ↔ SameNumbers hash hash' := by
  constructor
  · exact fun h => errorClass_eq_iff.mp h.errorClass
  · intro h
    have hclass := errorClass_eq_iff.mpr h
    have hretryable : (classifyRpcError (.error (receiptNotFound hash))).retryable =
        (classifyRpcError (.error (receiptNotFound hash'))).retryable := by
      rw [RpcError.retryable, RpcError.retryable, hclass]
    refine ⟨hclass, hretryable, ?_⟩
    rintro others config call metrics inp inp' ops ops' rfl rfl
    obtain ⟨k, hlast, hdone⟩ := run_executeRpc (missing hash others) config "getTransactionReceipt" call metrics inp
    obtain ⟨k', hlast', hdone'⟩ := run_executeRpc (missing hash' others) config "getTransactionReceipt" call metrics inp'
    have hk : k = k' := IsLast.unique (stops_missing hretryable others call) hlast hlast'
    constructor
    · rw [hdone.attempts, hdone'.attempts, hk]
    · rw [hdone.pauses, hdone'.pauses, hk]

def zeroHash : TxHash := ⟨List.replicate 32 0, rfl⟩

/-- A hash whose digits begin with `4290`. -/
def rateLimitHash : TxHash := ⟨0x42 :: 0x90 :: List.replicate 30 0, rfl⟩

/-- The receipt of one transaction is asked for once, that of the other four times. -/
theorem rateLimitHash_retried :
    ¬ SameTreatment Unit zeroHash rateLimitHash ∧
      ((trace (RpcOp.exec (missing zeroHash fun _ => (none : Option (RaceEnd Unit))))
        (executeRpc {} "getTransactionReceipt" 0) (fun _ => 0) {}).map Moment.op).count (.attempt 0) = 1 ∧
      ((trace (RpcOp.exec (missing rateLimitHash fun _ => (none : Option (RaceEnd Unit))))
        (executeRpc {} "getTransactionReceipt" 0) (fun _ => 0) {}).map Moment.op).count (.attempt 0) = 4 := by
  have hzero : hasNumber zeroHash "429" = false ∧ hasUnavailable zeroHash = false := by decide +kernel
  have hrate : hasNumber rateLimitHash "429" = true := by decide +kernel
  refine ⟨fun h => ?_, ?_, ?_⟩
  · have hsame := errorClass_eq_iff.mp h.errorClass
    rw [SameNumbers, hzero.1, hrate] at hsame
    exact absurd hsame.1 Bool.false_ne_true
  · rw [attempts_of_missing, classifyRpcError_receiptNotFound, hzero.1, hzero.2]
    rfl
  · rw [attempts_of_missing, classifyRpcError_receiptNotFound, hrate]
    rfl

end TransactionSimulator
