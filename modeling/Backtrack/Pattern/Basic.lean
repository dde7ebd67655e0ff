import Backtrack.Text.Basic
import Backtrack.Text.Blank
import Backtrack.Text.Case
import Backtrack.Text.UpperCase
import Backtrack.Text.Word

/-!
# Patterns

A pattern tests how a text begins. It has branches, each a row of pieces, and every piece stands for
one character. A text is accepted if one branch matches its first characters, whatever follows.

Characters of a pattern are code points, which need not be those of a character: a surrogate may be
written, and matches nothing. If letters match in either case, a single character matches all its
variants, but in a set this holds on the basic plane only. A character of a set beyond it matches an
input whose folded form it is, and a range that reaches beyond it also matches an input whose folded
form, or the upper-case form of that, lies in the range.
-/

namespace Backtrack

structure Flags where
  /-- Letters match in either case. -/
  ignoreCase : Bool := false
  /-- Classes and case know the letters of ASCII only. -/
  ascii : Bool := false
  /-- The dot matches a line feed too. -/
  dotAll : Bool := false

namespace Flags

/-- The code points of which `n` is a form under the flags. -/
def variants (flags : Flags) (n : Nat) : List Nat :=
  if flags.ignoreCase then
    if flags.ascii then Text.asciiVariants n else Text.caseVariants n
  else [n]

/-- The form in which `n` is looked up in a set. -/
def fold (flags : Flags) (n : Nat) : Nat :=
  if flags.ignoreCase then
    if flags.ascii then Text.asciiLower n else Text.lowerForm n
  else n

/-- The forms of `n` that are looked up in a range reaching beyond the basic plane. The upper-case
form is the one of Unicode under all flags. -/
def wideForms (flags : Flags) (n : Nat) : List Nat :=
  if flags.ignoreCase then [flags.fold n, Text.upperForm (flags.fold n)] else [n]

end Flags

namespace Pattern

/-- The last code point of the basic plane. -/
def lastBasic : Nat := 0xFFFF

/-- A class of characters that a letter stands for. -/
inductive Category
  | digit
  | word
  | blank
  deriving DecidableEq

def Category.holds (flags : Flags) : Category → Char → Bool
  | .digit, c => if flags.ascii then c.isDigit else Text.isDigit c
  | .word, c => if flags.ascii then Text.isAsciiWord c else Text.isWord c
  | .blank, c => if flags.ascii then Text.isAsciiBlank c else Text.isBlank c

/-- A member of a set in brackets. -/
inductive Item
  | letter (code : Nat)
  | range (first last : Nat)
  | category (k : Category) (negated : Bool)
  deriving DecidableEq

def Item.holds (flags : Flags) : Item → Char → Bool
  | .letter code, c =>
    if code ≤ lastBasic then (flags.variants c.toNat).contains code
    else flags.fold c.toNat == code
  | .range first last, c =>
    (flags.variants c.toNat).any (fun n => first ≤ n && n ≤ min last lastBasic)
      || (lastBasic < last && (flags.wideForms c.toNat).any (fun n => first ≤ n && n ≤ last))
  | .category k negated, c => k.holds flags c != negated

inductive Piece
  | any
  | letter (negated : Bool) (code : Nat)
  | set (negated : Bool) (items : List Item)
  deriving DecidableEq

namespace Piece

/-- The piece of a bracketed set. Repeated members count once, and a set of a single character is
that character. -/
def ofItems (negated : Bool) (items : List Item) : Piece :=
  match items.eraseDups with
  | [.letter code] => .letter negated code
  | members => .set negated members

def accepts (flags : Flags) : Piece → Char → Bool
  | .any, c => flags.dotAll || c != '\n'
  | .letter negated code, c => (flags.variants c.toNat).contains code != negated
  | .set negated items, c => items.any (·.holds flags c) != negated

end Piece

abbrev Branch := List Piece

/-- Whether a branch matches the first characters of a text. -/
def Branch.accepts (flags : Flags) : Branch → Text → Bool
  | [], _ => true
  | _ :: _, [] => false
  | p :: ps, c :: cs => p.accepts flags c && Branch.accepts flags ps cs

end Pattern

structure Pattern where
  branches : List Pattern.Branch

namespace Pattern

def accepts (flags : Flags) (p : Pattern) (t : Text) : Bool :=
  p.branches.any fun b => b.accepts flags t

theorem Branch.accepts_append (flags : Flags) {b : Branch} {t : Text} (u : Text)
    (h : b.accepts flags t = true) : b.accepts flags (t ++ u) = true := by
  induction b generalizing t with
  | nil => rfl
  | cons p ps ih =>
    cases t with
    | nil => simp [Branch.accepts] at h
    | cons c cs =>
      simp only [Branch.accepts, Bool.and_eq_true, List.cons_append] at h ⊢
      exact ⟨h.1, ih h.2⟩

/-- The members that a branch gives to a set, if it is one character or a set that is not
negated. -/
def Branch.members? : Branch → Option (List Item)
  | [.letter false code] => some [.letter code]
  | [.set false items] => some items
  | _ => none

/-- Branches that all give members to a set are one set; any others stay as they are. -/
def uniteMembers (branches : List Branch) : List Branch :=
  match branches.mapM Branch.members? with
  | some members => [[.set false members.flatten.eraseDups]]
  | none => branches

/-- Joins alternatives: what they begin with in common is put in front, and the remainders are
united if they can be. The first branch is given apart from the others. -/
def joinWith : Branch → List Branch → List Branch
  | [], others => [] :: others
  | p :: ps, others =>
    if others.all (fun b => b.head? == some p) then
      (joinWith ps (others.map List.tail)).map (p :: ·)
    else uniteMembers ((p :: ps) :: others)

def joinBranches : List Branch → List Branch
  | [] => []
  | b :: others => joinWith b others

/-- The pattern of alternative branches. -/
def ofBranches (branches : List Branch) : Pattern := ⟨joinBranches branches⟩

theorem joinWith_nil (b : Branch) : joinWith b [] = [b] := by
  induction b with
  | nil => rfl
  | cons p ps ih => simp [joinWith, ih]

end Pattern

end Backtrack
