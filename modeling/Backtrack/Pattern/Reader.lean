import Backtrack.Pattern.Sign

/-!
# Reading a pattern

Branches are separated by bars. Outside brackets a dot is any character and a bracket opens a set.
In a set a caret at the very beginning negates, a closing bracket at the beginning is a member, and
a hyphen between two characters makes a range; at either end of the set it is a member. Repetition,
groups and anchors are no part of the language and are refused.

The signs are taken one by one. The state keeps what has been completed, so that reading a longer
text continues where reading its beginning has ended. At the very end the branches are joined, so
that alternatives of one character each count as a set.
-/

namespace Backtrack.Pattern

/-- Where in the pattern the next sign stands. -/
inductive Mode
  | outside
  /-- Right behind the bracket that opens a set. -/
  | opened
  /-- In a set, where a member begins. -/
  | member (negated : Bool) (items : List Item)
  /-- In a set, behind a member that a hyphen may extend to a range. -/
  | behind (negated : Bool) (items : List Item) (last : Item)
  /-- In a set, behind such a member and a hyphen. -/
  | hyphen (negated : Bool) (items : List Item) (last : Item)

structure ReadState where
  branches : List Branch
  branch : Branch
  mode : Mode

namespace ReadState

def start : ReadState := ⟨[], [], .outside⟩

def addPiece (s : ReadState) (p : Piece) : ReadState :=
  { s with branch := s.branch ++ [p], mode := .outside }

def closeBranch (s : ReadState) : ReadState :=
  { s with branches := s.branches ++ [s.branch], branch := [] }

def withMode (s : ReadState) (m : Mode) : ReadState := { s with mode := m }

end ReadState

/-- What a sign is as a member of a set. -/
def Sign.item : Sign → Item
  | .bare c => .letter c.toNat
  | .escaped code | .member code => .letter code
  | .category k negated => .category k negated

/-- The range between two members, if both are characters and in order. -/
def Item.span? : Item → Item → Option Item
  | .letter first, .letter last => if first ≤ last then some (.range first last) else none
  | _, _ => none

def isReserved (c : Char) : Bool :=
  ['*', '+', '?', '{', '(', ')', '^', '$'].contains c

/-- A sign outside brackets. -/
def ReadState.readOutside (s : ReadState) : Sign → Option ReadState
  | .bare c =>
    if c = '|' then some s.closeBranch
    else if c = '[' then some (s.withMode .opened)
    else if c = '.' then some (s.addPiece .any)
    else if isReserved c then none
    else some (s.addPiece (.letter false c.toNat))
  | .escaped code => some (s.addPiece (.letter false code))
  | .member _ => none
  | .category k negated => some (s.addPiece (.set false [.category k negated]))

/-- A sign where a member of the set begins. -/
def ReadState.readMember (s : ReadState) (negated : Bool) (items : List Item) (sign : Sign) :
    ReadState :=
  match sign, items with
  | .bare ']', _ :: _ => s.addPiece (.ofItems negated items)
  | _, _ => s.withMode (.behind negated items sign.item)

def ReadState.read (s : ReadState) (sign : Sign) : Option ReadState :=
  match s.mode with
  | .outside => s.readOutside sign
  | .opened =>
    match sign with
    | .bare '^' => some (s.withMode (.member true []))
    | _ => some (s.readMember false [] sign)
  | .member negated items => some (s.readMember negated items sign)
  | .behind negated items last =>
    match sign with
    | .bare '-' => some (s.withMode (.hyphen negated items last))
    | _ => some (s.readMember negated (items ++ [last]) sign)
  | .hyphen negated items last =>
    match sign with
    | .bare ']' => some (s.addPiece (.ofItems negated (items ++ [last, .letter '-'.toNat])))
    | _ => (last.span? sign.item).map fun r => s.withMode (.member negated (items ++ [r]))

/-- The pattern that has been read, if no set is left open. -/
def ReadState.finish? (s : ReadState) : Option Pattern :=
  match s.mode with
  | .outside => some (.ofBranches (s.branches ++ [s.branch]))
  | _ => none

/-- The pattern that a text writes. -/
def parse? (t : Text) : Option Pattern := do
  let signs ← Sign.ofText t
  let last ← signs.foldlM ReadState.read ReadState.start
  last.finish?

end Backtrack.Pattern
