import Backtrack.Literal
import Backtrack.Pattern.Basic
import Backtrack.Trie.Basic

/-!
# Parsers

A parser is an expression that is ready to run: its literals and words have been spelled and its
sequences are not empty.
-/

namespace Backtrack

/-- Which items a parser of one item takes. -/
inductive Test
  | all
  | nothing
  | same (v : Value)
  /-- Items whose displayed form a pattern accepts. -/
  | matching (pattern : Pattern) (flags : Flags)
  /-- The characters of a text. -/
  | within (letters : Text)
  /-- Everything but the characters of a text. -/
  | outside (letters : Text)

namespace Test

def isOneOf (letters : Text) (v : Value) : Bool :=
  match v.letter? with
  | some c => letters.contains c
  | none => false

def accepts : Test → Value → Bool
  | .all, _ => true
  | .nothing, _ => false
  | .same w, v => v.sameChar w
  | .matching pattern flags, v => pattern.accepts flags v.unbox.display
  | .within letters, v => isOneOf letters v
  | .outside letters, v => !isOneOf letters v

end Test

/-- How the refusal of an item is reported. -/
inductive Report
  | expect (what : String)
  | plain (msg : Option String)

inductive Parser
  /-- Takes one item that passes the test. -/
  | token (test : Test) (report : Report)
  /-- Yields a value without reading. -/
  | always (value : Value) (type : Option String)
  | never (msg : Option String)
  /-- Succeeds at the end of the input only. -/
  | eof
  | literal (l : Literal)
  /-- Takes the longest word of the trie. -/
  | trie (words : Trie)
  /-- Runs one parser behind the other and yields what the last one does. -/
  | sequence (first : Parser) (rest : List Parser)
  /-- Yields what the first parser does that succeeds or moves the position. -/
  | choice (alternatives : List Parser)
  /-- Goes back to the start unless the body succeeds. -/
  | attempt (body : Parser)
  | label (name : String) (body : Parser)
  /-- Hides the name of the body. -/
  | anonymous (body : Parser)
  /-- Moves to a position, wherever it is, and succeeds or fails there. -/
  | seek (target : Int) (succeeds : Bool)
  | raise (msg : String)

namespace Parser

/-- Induction with a hypothesis for every part. -/
@[induction_eliminator]
theorem induct {motive : Parser → Prop}
    (token : ∀ test report, motive (.token test report))
    (always : ∀ value type, motive (.always value type))
    (never : ∀ msg, motive (.never msg))
    (eof : motive .eof)
    (literal : ∀ l, motive (.literal l))
    (trie : ∀ words, motive (.trie words))
    (sequence : ∀ first rest, (∀ p ∈ first :: rest, motive p) → motive (.sequence first rest))
    (choice : ∀ alternatives, (∀ p ∈ alternatives, motive p) → motive (.choice alternatives))
    (attempt : ∀ body, motive body → motive (.attempt body))
    (label : ∀ name body, motive body → motive (.label name body))
    (anonymous : ∀ body, motive body → motive (.anonymous body))
    (seek : ∀ target succeeds, motive (.seek target succeeds))
    (raise : ∀ msg, motive (.raise msg))
    (p : Parser) : motive p :=
  have all : ∀ (p : Parser) (ps : List Parser), motive p → (∀ q ∈ ps, motive q) →
      ∀ q ∈ p :: ps, motive q :=
    fun _ _ hp hps _ hq => (List.mem_cons.mp hq).elim (fun h => h ▸ hp) (hps _)
  @Parser.rec motive (fun ps => ∀ q ∈ ps, motive q) token always never eof literal trie
    (fun first rest hfirst hrest => sequence first rest (all first rest hfirst hrest))
    choice attempt label anonymous seek raise (fun _ hq => by cases hq) all p

/-- The name that diagnostics use. Combinators share the name `inner`, and an anonymous parser has
none. -/
def name : Parser → Option String
  | .token .. | .sequence .. | .choice _ | .attempt _ => some "inner"
  | .always .. | .never _ => some "<lambda>"
  | .eof => some "eof"
  | .literal l => some s!"string({String.ofList l.letters.quoted})"
  | .trie _ => some "trie"
  | .label name _ => some name
  | .anonymous _ => none
  | .seek .. => some "seek"
  | .raise _ => some "raise"

end Parser

end Backtrack
