import Mathlib.Data.List.Basic

/-!
# Regular expressions

Expressions over characters and a matcher by derivatives: `deriv c r` matches what may follow
`c` in a text that `r` matches.  `search` is `RegExp.prototype.test` of an expression that is not
anchored.
-/

namespace Texts

inductive Regex
  | empty
  | epsilon
  | char (p : Char → Bool)
  | seq (a b : Regex)
  | alt (a b : Regex)
  | star (a : Regex)

namespace Regex

/-- A literal text. -/
def text (s : String) : Regex := s.toList.foldr (fun c r => .seq (.char (· = c)) r) .epsilon

def any : Regex := .char fun _ => true

def digit : Regex := .char fun c => '0' ≤ c && c ≤ '9'

/-- `\w`. -/
def isWord (c : Char) : Bool := c.isAlphanum || c = '_'

def opt (a : Regex) : Regex := .alt .epsilon a

def plus (a : Regex) : Regex := .seq a (.star a)

/-- `a{0,n}`. -/
def upTo (a : Regex) : Nat → Regex
  | 0 => .epsilon
  | n + 1 => .opt (.seq a (upTo a n))

def oneOf : List Regex → Regex
  | [] => .empty
  | [a] => a
  | a :: as => .alt a (oneOf as)

def inOrder (as : List Regex) : Regex := as.foldr .seq .epsilon

def nullable : Regex → Bool
  | empty => false
  | epsilon => true
  | char _ => false
  | seq a b => a.nullable && b.nullable
  | alt a b => a.nullable || b.nullable
  | star _ => true

def deriv (c : Char) : Regex → Regex
  | empty => .empty
  | epsilon => .empty
  | char p => if p c then .epsilon else .empty
  | seq a b =>
    if a.nullable then .alt (.seq (a.deriv c) b) (b.deriv c) else .seq (a.deriv c) b
  | alt a b => .alt (a.deriv c) (b.deriv c)
  | star a => .seq (a.deriv c) (.star a)

/-- The whole text matches. -/
def accepts : Regex → List Char → Bool
  | r, [] => r.nullable
  | r, c :: cs => (r.deriv c).accepts cs

/-- Some part of the text matches. -/
def search (r : Regex) (s : String) : Bool :=
  (Regex.seq (.star any) (.seq r (.star any))).accepts s.toList

example : search (inOrder [text "max", opt (text "imum"), text " range"]) "the maximum range" = true := by
  decide

end Regex

end Texts
