import Mathlib.Algebra.Group.Int.Defs
import Mathlib.Algebra.Group.Nat.Defs
import Mathlib.Data.List.Infix
import Mathlib.Data.List.TakeWhile
import Mathlib.Data.Nat.Log
import Mathlib.Data.Rat.Defs

/-!
# The parts of JavaScript that the source uses

Strings, numbers and dates as the runtime has them, where Lean's own differ or are missing.
A `bigint` is an `Int` or, where it cannot be negative, a `Nat`.
-/

namespace TransactionSimulator

/-- A `Date`: milliseconds since 1970-01-01T00:00:00Z. -/
abbrev Date := Nat

namespace Js

/-- `s.toLowerCase()` on the ASCII texts that addresses are. -/
def toLowerCase (s : String) : String := String.ofList (s.toList.map Char.toLower)

theorem toLower_toLower (c : Char) : c.toLower.toLower = c.toLower := by
  unfold Char.toLower
  split
  · next hupper =>
    split
    · next hupper' =>
      -- a letter that has been lowered is beyond the capitals
      simp only [ge_iff_le, UInt32.le_iff_toNat_le, UInt32.toNat_add, UInt32.reduceToNat, Char.reduceVal,
        UInt32.reduceSub] at hupper hupper'
      omega
    · rfl
  · rfl

@[simp] theorem toLowerCase_toLowerCase (s : String) : toLowerCase (toLowerCase s) = toLowerCase s := by
  have hcomp : Char.toLower ∘ Char.toLower = Char.toLower := funext toLower_toLower
  simp [toLowerCase, hcomp]

/-- `!s` for a string that may be null: null and the empty text are falsy. -/
def isFalsy (s : Option String) : Bool := s.getD "" = ""

/-- The UTF-16 code units of a text: a character beyond U+FFFF takes two. -/
def units (s : List Char) : List Nat :=
  s.flatMap fun c =>
    if c.toNat < 0x10000 then [c.toNat]
    else [0xd800 + (c.toNat - 0x10000) / 0x400, 0xdc00 + (c.toNat - 0x10000) % 0x400]

/-- `s.length`. -/
def length (s : String) : Nat := (units s.toList).length

theorem length_eq {s : String} (h : ∀ c ∈ s.toList, c.toNat < 0x10000) : length s = s.length := by
  have hunits : ∀ cs : List Char, (∀ c ∈ cs, c.toNat < 0x10000) → (units cs).length = cs.length := by
    intro cs hcs
    induction cs with
    | nil => rfl
    | cons c cs ih =>
      have hc := hcs c (.head _)
      rw [units, List.flatMap_cons, if_pos hc, List.length_append]
      have hrest := ih fun d hd => hcs d (.tail _ hd)
      rw [units] at hrest
      rw [hrest]
      exact Nat.add_comm 1 cs.length
  rw [length, hunits _ h, String.length_toList]

/-- `s.includes(part)`. -/
def includes (s part : String) : Bool := s.toList.tails.any fun t => part.toList.isPrefixOf t

/-- `s.split(separator)` for a separator of one character. -/
def split (s : String) (separator : Char) : List String := (s.toList.splitOn separator).map String.ofList

/-- White space in the sense of `trim`. -/
def isSpace (c : Char) : Bool :=
  [9, 10, 11, 12, 13, 32, 0xa0, 0x1680, 0x2028, 0x2029, 0x202f, 0x205f, 0x3000, 0xfeff].contains
    c.toNat || (0x2000 ≤ c.toNat && c.toNat ≤ 0x200a)

/-- `s.trim()`. -/
def trim (s : String) : String :=
  String.ofList ((s.toList.dropWhile isSpace).reverse.dropWhile isSpace).reverse

/-- `/^\d+$/.test(s)`. -/
def isDigits (s : String) : Bool :=
  !s.toList.isEmpty && s.toList.all fun c => '0' ≤ c && c ≤ '9'

/-- `BigInt(s)` for a text of digits. -/
def bigInt (s : String) : Nat := s.toList.foldl (fun n c => 10 * n + (c.toNat - 48)) 0

/-- `Number(n)` for a `bigint` in the range of a double: exact below `2 ^ 53`, above it rounded
to 53 binary digits, ties to even. -/
def number (n : Nat) : Nat :=
  if n < 2 ^ 53 then n
  else
    let shift := Nat.log2 n - 52
    let quotient := n / 2 ^ shift
    let rest := n % 2 ^ shift
    let half := 2 ^ (shift - 1)
    if half < rest || (rest = half && quotient % 2 = 1) then (quotient + 1) * 2 ^ shift
    else quotient * 2 ^ shift

theorem number_of_lt {n : Nat} (h : n < 2 ^ 53) : number n = n := by rw [number, if_pos h]

theorem number_pos {n : Nat} (h : 0 < n) : 0 < number n := by
  rw [number]
  split
  · exact h
  · have hpow : 2 ^ (Nat.log2 n - 52) ≤ n :=
      (Nat.pow_le_pow_right (by decide) (Nat.sub_le _ _)).trans (Nat.log2_self_le (by omega))
    have hquotient : 0 < n / 2 ^ (Nat.log2 n - 52) := Nat.div_pos hpow (Nat.two_pow_pos _)
    dsimp only
    split
    · exact Nat.mul_pos (by omega) (Nat.two_pow_pos _)
    · exact Nat.mul_pos hquotient (Nat.two_pow_pos _)

/-! ## Numbers -/

/-- A double; a finite one stands for its exact value. -/
inductive Number
  | nan
  | infinity (negative : Bool)
  | finite (value : Rat)
  deriving DecidableEq, Repr

namespace Number

/-- `n / d`, rounded to an integer, ties to even. -/
def nearest (n d : Nat) : Nat :=
  if d < 2 * (n % d) || (2 * (n % d) = d && n / d % 2 = 1) then n / d + 1 else n / d

/-- The double nearest to a rational: 53 binary digits, the last of them not below `2 ^ -1074`. -/
def ofRat (q : Rat) : Number :=
  let n := q.num.natAbs
  let scaled (exponent : Int) : Nat × Nat := (n * 2 ^ (-exponent).toNat, q.den * 2 ^ exponent.toNat)
  let guess : Int := Nat.log2 n - Nat.log2 q.den - 52
  let exponent := max (-1074) (if (scaled guess).1 / (scaled guess).2 < 2 ^ 52 then guess - 1 else guess)
  let digits := nearest (scaled exponent).1 (scaled exponent).2
  if 2 ^ 1024 ≤ digits * 2 ^ exponent.toNat then infinity (q.num < 0)
  else finite (mkRat (q.num.sign * digits * 2 ^ exponent.toNat) (2 ^ (-exponent).toNat))

/-- `a + b`. -/
def add : Number → Number → Number
  | finite a, finite b => ofRat (a + b)
  | infinity a, finite _ => infinity a
  | finite _, infinity b => infinity b
  | infinity a, infinity b => if a = b then infinity a else nan
  | _, _ => nan

/-- `a < b`. -/
def lt : Number → Number → Bool
  | finite a, finite b => a < b
  | infinity a, finite _ => a
  | finite _, infinity b => !b
  | infinity a, infinity b => a && !b
  | _, _ => false

/-- `a - b`. -/
def sub : Number → Number → Number
  | finite a, finite b => ofRat (a - b)
  | infinity a, finite _ => infinity a
  | finite _, infinity b => infinity !b
  | infinity a, infinity b => if a = b then nan else infinity a
  | _, _ => nan

/-- `a * b`. -/
def mul : Number → Number → Number
  | finite a, finite b => ofRat (a * b)
  | infinity a, finite b => if b = 0 then nan else infinity (a != (b.num < 0))
  | finite a, infinity b => if a = 0 then nan else infinity (b != (a.num < 0))
  | infinity a, infinity b => infinity (a != b)
  | _, _ => nan

/-- The integer that is left of a finite number without its fraction. -/
def trunc? : Number → Option Int
  | finite q => some (if q < 0 then q.ceil else q.floor)
  | _ => none

theorem trunc?_natCast (n : Nat) : (finite n).trunc? = some (n : Int) := by
  have hpos : ¬ ((n : Rat) < 0) := Rat.not_lt.mpr Rat.natCast_nonneg
  rw [trunc?, if_neg hpos, ← Rat.intCast_natCast, Rat.floor_intCast]

/-- The milliseconds that `setTimeout` waits: it drops the fraction, and takes 1 for what is not between 1 and
`2 ^ 31 - 1`. -/
def timeout : Number → Nat
  | finite q => if 1 ≤ q ∧ q ≤ 2147483647 then q.floor.toNat else 1
  | _ => 1

theorem timeout_natCast {n : Nat} (hpos : 1 ≤ n) (h : n < 2 ^ 31) : (finite n).timeout = n := by
  have hone : (1 : Rat) ≤ n := by exact_mod_cast hpos
  have hmax : (n : Rat) ≤ 2147483647 := by exact_mod_cast (show n ≤ 2147483647 by omega)
  rw [timeout, if_pos ⟨hone, hmax⟩, ← Rat.intCast_natCast, Rat.floor_intCast, Int.toNat_natCast]

theorem nearest_one (n : Nat) : nearest n 1 = n := by
  simp [nearest, Nat.mod_one]

theorem div_le_nearest (n d : Nat) : n / d ≤ nearest n d := by
  rw [nearest]
  split <;> omega

/-- An integer below `2 ^ 53` is a double. -/
theorem ofRat_natCast {n : Nat} (h : n < 2 ^ 53) : ofRat n = finite n := by
  by_cases hn : n = 0
  · subst hn
    decide +kernel
  · have hlog : Nat.log2 n < 53 := (Nat.log2_lt hn).mpr h
    have hself : 2 ^ Nat.log2 n ≤ n := Nat.log2_self_le hn
    have hguess : (Nat.log2 n : Int) - Nat.log2 1 - 52 = -((52 - Nat.log2 n : Nat) : Int) := by
      rw [show Nat.log2 1 = 0 by decide]
      omega
    have hpow : 2 ^ 52 ≤ n * 2 ^ (52 - Nat.log2 n) := by
      calc 2 ^ 52 = 2 ^ Nat.log2 n * 2 ^ (52 - Nat.log2 n) := by rw [← Nat.pow_add]; congr 1; omega
        _ ≤ n * 2 ^ (52 - Nat.log2 n) := Nat.mul_le_mul_right _ hself
    have hexp : max (-1074) (-((52 - Nat.log2 n : Nat) : Int)) = -((52 - Nat.log2 n : Nat) : Int) := by omega
    simp only [ofRat, Rat.num_natCast, Int.natAbs_natCast, Rat.den_natCast, hguess, Int.neg_neg,
      Int.toNat_natCast]
    have hz : (-((52 - Nat.log2 n : Nat) : Int)).toNat = 0 := by omega
    rw [hz]
    simp only [Nat.pow_zero, Nat.mul_one, Nat.div_one]
    rw [if_neg (Nat.not_lt.mpr hpow), hexp, hz]
    simp only [Int.neg_neg, Int.toNat_natCast, Nat.pow_zero, Nat.mul_one, nearest_one]
    have hlt : n * 2 ^ (52 - Nat.log2 n) < 2 ^ 53 := by
      calc n * 2 ^ (52 - Nat.log2 n) < 2 ^ (Nat.log2 n + 1) * 2 ^ (52 - Nat.log2 n) :=
            Nat.mul_lt_mul_of_pos_right Nat.lt_log2_self (Nat.two_pow_pos _)
        _ = 2 ^ 53 := by rw [← Nat.pow_add]; congr 1; omega
    have hscale := Rat.mkRat_mul_right (n := (n : Int)) (d := 1) (Nat.two_pow_pos (52 - Nat.log2 n)).ne'
    rw [if_neg (by omega), Int.sign_eq_one_of_pos (by omega), Int.one_mul, Int.pow_zero, Int.mul_one,
      Int.natCast_mul]
    rw [Nat.one_mul] at hscale
    rw [hscale, Rat.mkRat_one]
    rfl

/-- An integer from there on is rounded to a number that is as large. -/
theorem ofRat_natCast_of_le {n : Nat} (h : 2 ^ 53 ≤ n) :
    ofRat n = infinity false ∨ ∃ k : Nat, ofRat n = finite k ∧ 2 ^ 53 ≤ k := by
  have hn : n ≠ 0 := by omega
  have hlog : 53 ≤ Nat.log2 n := (Nat.le_log2 hn).mpr h
  have hself : 2 ^ Nat.log2 n ≤ n := Nat.log2_self_le hn
  have hguess : (Nat.log2 n : Int) - Nat.log2 1 - 52 = ((Nat.log2 n - 52 : Nat) : Int) := by
    rw [show Nat.log2 1 = 0 by decide]
    omega
  simp only [ofRat, Rat.num_natCast, Int.natAbs_natCast, Rat.den_natCast, hguess, Int.toNat_natCast]
  have hz : (-((Nat.log2 n - 52 : Nat) : Int)).toNat = 0 := by omega
  have hexp : max (-1074) ((Nat.log2 n - 52 : Nat) : Int) = ((Nat.log2 n - 52 : Nat) : Int) := by omega
  have hq : 2 ^ 52 ≤ n / 2 ^ (Nat.log2 n - 52) := by
    rw [Nat.le_div_iff_mul_le (Nat.two_pow_pos _), ← Nat.pow_add]
    exact (Nat.pow_le_pow_right (by decide) (by omega)).trans hself
  rw [hz]
  simp only [Nat.pow_zero, Nat.mul_one, Nat.one_mul]
  rw [if_neg (Nat.not_lt.mpr hq), hexp, hz]
  simp only [Int.toNat_natCast, Nat.pow_zero, Nat.mul_one]
  have hle : 2 ^ 53 ≤ nearest n (2 ^ (Nat.log2 n - 52)) * 2 ^ (Nat.log2 n - 52) := by
    calc 2 ^ 53 ≤ 2 ^ 52 * 2 ^ (Nat.log2 n - 52) := by
          rw [← Nat.pow_add]
          exact Nat.pow_le_pow_right (by decide) (by omega)
      _ ≤ _ := Nat.mul_le_mul_right _ (hq.trans (div_le_nearest _ _))
  split
  · left
    exact congrArg infinity (decide_eq_false (by simp))
  · right
    refine ⟨_, ?_, hle⟩
    rw [Int.sign_eq_one_of_pos (by omega), Int.one_mul, Rat.mkRat_one]
    push_cast
    rfl

end Number

/-- The place in an array of this length that an argument of `slice` stands for. -/
def place (length : Nat) : Number → Nat
  | .nan => 0
  | .infinity negative => if negative then 0 else length
  | .finite q =>
    let i := if q < 0 then q.ceil else q.floor
    if i < 0 then (length + i).toNat else min i.toNat length

/-- `xs.slice(start, end)`. -/
def slice {α : Type} (xs : List α) (start finish : Number) : List α :=
  (xs.take (place xs.length finish)).drop (place xs.length start)

example : [slice [1, 2, 3, 4, 5] (.finite 1) (.finite 3), slice [1, 2, 3] (.finite (1 / 2)) (.finite (3 / 2)),
    slice [1, 2, 3] (.finite (-2)) .nan, slice [1, 2, 3] (.finite (-2)) (.infinity false)] =
    [[2, 3], [1], [], [2, 3]] := by decide +kernel

/-- A decimal literal without its sign: digits, perhaps with a point and an exponent. -/
def decimal? (s : List Char) : Option Rat :=
  let isDigit (c : Char) : Bool := '0' ≤ c && c ≤ '9'
  let mantissa := s.takeWhile fun c => c ≠ 'e' && c ≠ 'E'
  let integer := mantissa.takeWhile (· ≠ '.')
  let fraction := (mantissa.dropWhile (· ≠ '.')).drop 1
  let exponent? : Option Int :=
    match s.drop mantissa.length with
    | [] => some 0
    | _ :: '-' :: ds => if isDigits (String.ofList ds) then some (-bigInt (String.ofList ds)) else none
    | _ :: '+' :: ds => if isDigits (String.ofList ds) then some (bigInt (String.ofList ds)) else none
    | _ :: ds => if isDigits (String.ofList ds) then some (bigInt (String.ofList ds)) else none
  if (integer ++ fraction).isEmpty || !(integer ++ fraction).all isDigit then none
  else
    exponent?.map fun exponent =>
      let scale : Int := exponent - fraction.length
      mkRat (bigInt (String.ofList (integer ++ fraction)) * 10 ^ scale.toNat) (10 ^ (-scale).toNat)

/-- The value of a digit in bases up to 16. -/
def digit? (base : Nat) (c : Char) : Option Nat :=
  let value := if '0' ≤ c && c ≤ '9' then c.toNat - 48
    else if 'a' ≤ c.toLower && c.toLower ≤ 'f' then c.toLower.toNat - 87 else base
  if value < base then some value else none

/-- The digits of a literal such as `0xff`. -/
def based? (base : Nat) (digits : List Char) : Option Rat :=
  if digits.isEmpty then none
  else (digits.mapM (digit? base)).map fun values => (values.foldl (fun n d => base * n + d) 0 : Nat)

/-- `Number(s)` for a text. -/
def toNumber (s : String) : Number :=
  let signed (negative : Bool) (rest : List Char) : Number :=
    if rest = "Infinity".toList then .infinity negative
    else (decimal? rest).elim .nan fun q => .ofRat (if negative then -q else q)
  match (trim s).toList with
  | [] => .finite 0
  | '0' :: 'x' :: ds | '0' :: 'X' :: ds => (based? 16 ds).elim .nan .ofRat
  | '0' :: 'o' :: ds | '0' :: 'O' :: ds => (based? 8 ds).elim .nan .ofRat
  | '0' :: 'b' :: ds | '0' :: 'B' :: ds => (based? 2 ds).elim .nan .ofRat
  | '-' :: rest => signed true rest
  | '+' :: rest => signed false rest
  | rest => signed false rest

example : [toNumber "", toNumber " 20 ", toNumber "-2.50e1", toNumber "0x1F", toNumber "1,2"] =
    [.finite 0, .finite 20, .finite (-25), .finite 31, .nan] := by decide +kernel

/-! ## Decimal digits -/

theorem isDigit_of_mem_toString {n : Nat} {c : Char} (hc : c ∈ (toString n).toList) : '0' ≤ c ∧ c ≤ '9' := by
  rw [Nat.toString_eq_ofList_toDigits, String.toList_ofList] at hc
  have hdigit := Nat.isDigit_of_mem_toDigits (by decide) (by decide) hc
  rw [Char.isDigit, Bool.and_eq_true, decide_eq_true_eq, decide_eq_true_eq] at hdigit
  exact hdigit

theorem bigInt_toString (n : Nat) : bigInt (toString n) = n := by
  rw [bigInt, Nat.toString_eq_ofList_toDigits, String.toList_ofList]
  exact Nat.ofDigitChars_ten_toDigits

theorem isSpace_of_isDigit {c : Char} (h : '0' ≤ c ∧ c ≤ '9') : isSpace c = false := by
  obtain ⟨hle, hge⟩ := h
  have hle' : 48 ≤ c.toNat := hle
  have hge' : c.toNat ≤ 57 := hge
  simp only [isSpace, List.contains_eq_mem, List.mem_cons, List.not_mem_nil, or_false, Bool.or_eq_false_iff,
    Bool.and_eq_false_iff, decide_eq_false_iff_not]
  omega

theorem trim_of_digits {s : String} (h : ∀ c ∈ s.toList, '0' ≤ c ∧ c ≤ '9') : trim s = s := by
  have hkeep : ∀ l : List Char, (∀ c ∈ l, '0' ≤ c ∧ c ≤ '9') → l.dropWhile isSpace = l := by
    intro l hl
    cases l with
    | nil => rfl
    | cons c l =>
      rw [List.dropWhile_cons, isSpace_of_isDigit (hl c List.mem_cons_self)]
      rfl
  rw [trim, hkeep _ h, hkeep _ fun c hc => h c (List.mem_reverse.mp hc), List.reverse_reverse, String.ofList_toList]

theorem decimal?_of_digits {l : List Char} (hne : l ≠ []) (h : ∀ c ∈ l, '0' ≤ c ∧ c ≤ '9') :
    decimal? l = some (bigInt (String.ofList l) : Rat) := by
  have hletter : l.takeWhile (fun c => c ≠ 'e' && c ≠ 'E') = l := by
    rw [List.takeWhile_eq_self_iff]
    intro c hc
    have hge : c.toNat ≤ 57 := (h c hc).2
    have he : c ≠ 'e' := fun he => by rw [he] at hge; exact absurd hge (by decide)
    have hE : c ≠ 'E' := fun he => by rw [he] at hge; exact absurd hge (by decide)
    simp [he, hE]
  have hpoint : ∀ c ∈ l, (c ≠ '.') := by
    rintro c hc rfl
    exact absurd (h _ hc).1 (by decide)
  have hinteger : l.takeWhile (fun c => decide (c ≠ '.')) = l := by
    rw [List.takeWhile_eq_self_iff]
    exact fun c hc => decide_eq_true (hpoint c hc)
  have hfraction : l.dropWhile (fun c => decide (c ≠ '.')) = [] := by
    rw [List.dropWhile_eq_nil_iff]
    exact fun c hc => decide_eq_true (hpoint c hc)
  have hall : l.all (fun c => decide ('0' ≤ c) && decide (c ≤ '9')) = true := by
    rw [List.all_eq_true]
    intro c hc
    simp [h c hc]
  have hempty : l.isEmpty = false := by
    cases l with
    | nil => exact absurd rfl hne
    | cons c l => rfl
  have hvalue : mkRat ((bigInt (String.ofList l) : Int) * 10 ^ 0) (10 ^ 0) = (bigInt (String.ofList l) : Rat) := by
    rw [Int.pow_zero, Int.mul_one, Nat.pow_zero, Rat.mkRat_one]
    rfl
  simp only [decimal?, hletter, hinteger, hfraction, List.drop_nil, List.append_nil, List.drop_length, hall, hempty,
    Bool.not_true, Bool.or_self, Bool.false_eq_true, if_false, Option.map_some]
  exact congrArg some hvalue

theorem toNumber_toString (n : Nat) : toNumber (toString n) = .ofRat n := by
  have hdigits : ∀ c ∈ (toString n).toList, '0' ≤ c ∧ c ≤ '9' := fun c hc => isDigit_of_mem_toString hc
  have hne : (toString n).toList ≠ [] := by
    rw [Nat.toString_eq_ofList_toDigits, String.toList_ofList]
    exact Nat.toDigits_ne_nil
  have hdecimal := decimal?_of_digits hne hdigits
  rw [String.ofList_toList, bigInt_toString] at hdecimal
  have hinfinity : (toString n).toList ≠ "Infinity".toList := by
    intro h
    exact absurd (hdigits 'I' (by rw [h]; decide)) (by decide)
  have hfirst : ∀ c rest, (toString n).toList = c :: rest → '0' ≤ c ∧ c ≤ '9' := fun c rest h =>
    hdigits c (by rw [h]; exact List.mem_cons_self)
  have hsecond : ∀ b c rest, (toString n).toList = b :: c :: rest → '0' ≤ c ∧ c ≤ '9' := fun b c rest h =>
    hdigits c (by rw [h]; exact List.mem_cons_of_mem _ List.mem_cons_self)
  rw [toNumber, trim_of_digits hdigits]
  split
  · next h => exact absurd h hne
  · next h => exact absurd (hsecond _ _ _ h) (by decide)
  · next h => exact absurd (hsecond _ _ _ h) (by decide)
  · next h => exact absurd (hsecond _ _ _ h) (by decide)
  · next h => exact absurd (hsecond _ _ _ h) (by decide)
  · next h => exact absurd (hsecond _ _ _ h) (by decide)
  · next h => exact absurd (hsecond _ _ _ h) (by decide)
  · next h => exact absurd (hfirst _ _ h) (by decide)
  · next h => exact absurd (hfirst _ _ h) (by decide)
  · dsimp only
    rw [if_neg hinfinity, hdecimal, Option.elim_some, if_neg Bool.false_ne_true]

/-! ## Dates -/

/-- Decimal digits, padded with zeros to `width`. -/
def pad (width n : Nat) : String :=
  String.ofList (List.replicate (width - (toString n).length) '0') ++ toString n

/-- The year, month and day of the `days`-th day after 1970-01-01, by counting in cycles of 400
years that start on March 1st. -/
def civil (days : Nat) : Nat × Nat × Nat :=
  let z := days + 719468
  let dayOfEra := z % 146097
  let yearOfEra := (dayOfEra - dayOfEra / 1460 + dayOfEra / 36524 - dayOfEra / 146096) / 365
  let dayOfYear := dayOfEra - (365 * yearOfEra + yearOfEra / 4 - yearOfEra / 100)
  let shifted := (5 * dayOfYear + 2) / 153
  let day := dayOfYear - (153 * shifted + 2) / 5 + 1
  let month := if shifted < 10 then shifted + 3 else shifted - 9
  let year := yearOfEra + z / 146097 * 400
  (if month ≤ 2 then year + 1 else year, month, day)

/-- `date.toISOString()`. -/
def toISOString (date : Date) : String :=
  let (year, month, day) := civil (date / 86400000)
  let rest := date % 86400000
  (if year ≤ 9999 then pad 4 year else "+" ++ pad 6 year)
    ++ "-" ++ pad 2 month ++ "-" ++ pad 2 day ++ "T" ++ pad 2 (rest / 3600000) ++ ":"
    ++ pad 2 (rest / 60000 % 60) ++ ":" ++ pad 2 (rest / 1000 % 60) ++ "." ++ pad 3 (rest % 1000)
    ++ "Z"

example : toISOString 1785319200123 = "2026-07-29T10:00:00.123Z" := by decide

end Js

end TransactionSimulator
