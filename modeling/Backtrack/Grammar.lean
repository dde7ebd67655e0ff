import Backtrack.Event
import Backtrack.Parser.Basic
import Backtrack.Trie.Loop
import Backtrack.Trie.OfWords

/-!
# Grammars

A grammar is a parser as it is written down, with arguments that have not been checked. Building it
finds the first misuse, inner parts before outer ones and arguments from left to right, and records
an event for every trie on the way.
-/

namespace Backtrack

/-- A construction, with the events it has recorded even if it is given up. -/
structure Build (α : Type) where
  events : List Event
  result : Except Misuse α

namespace Build

def ofExcept {α : Type} (result : Except Misuse α) : Build α := ⟨[], result⟩

def record (e : Event) : Build Unit := ⟨[e], .ok ()⟩

instance : Monad Build where
  pure a := ⟨[], .ok a⟩
  bind b f :=
    match b.result with
    | .error e => ⟨b.events, .error e⟩
    | .ok a => ⟨b.events ++ (f a).events, (f a).result⟩

end Build

namespace Parser

/-- One character, in whatever form the input has it; yields `v` itself. -/
def character (v : Value) : Except Misuse Parser := do
  let c ← v.letter
  return .label s!"character({String.ofList (Text.quoted [c])})"
    (.sequence (.token (.same (.text [c])) (.expect (String.singleton c)))
      [.always v (some "character")])

def string (s : Sequence) : Except Misuse Parser := do
  return .literal (← Literal.ofSequence s)

def oneOf (s : Sequence) : Except Misuse Parser := do
  let letters ← s.spell
  return .label s!"one_of({String.ofList letters.quoted})"
    (.token (.within letters) (.expect s!"one of '{String.ofList letters}'"))

def noneOf (s : Sequence) : Except Misuse Parser := do
  let letters ← s.spell
  return .label s!"none_of({String.ofList letters.quoted})"
    (.token (.outside letters) (.expect s!"none of '{String.ofList letters}'"))

/-- One item whose displayed form a pattern accepts. -/
def matching (pattern : Pattern) (expected : String) (flags : Flags) : Parser :=
  .token (.matching pattern flags) (.expect expected)

/-- Anything that does not begin with a line feed. -/
def anyChar : Parser := .label "any_char" (matching ⟨[[.any]]⟩ "any character" {})

def letter : Parser :=
  .label "letter"
    (matching ⟨[[.set false [.range 'a'.toNat 'z'.toNat]]]⟩ "any letter"
      { ignoreCase := true, ascii := true })

def space : Parser :=
  .label "space" (matching ⟨[[.set false [.category .blank false]]]⟩ "any space" { ignoreCase := true })

def digit : Parser :=
  .label "digit" (matching ⟨[[.set false [.range '0'.toNat '9'.toNat]]]⟩ "any digit" {})

/-- The longest of some words. -/
def ofWords (words : List Sequence) : Build Parser := do
  let root ← Build.ofExcept (Trie.ofWords words)
  Build.record (.trieBuilt root.depth (root.words []).length)
  return .trie root

def ofSequence : List Parser → Except Misuse Parser
  | [] => .error .emptySequence
  | first :: rest => .ok (.sequence first rest)

end Parser

inductive Grammar
  | anyChar
  | letter
  | space
  | digit
  | eof
  | character (v : Value)
  | string (s : Sequence)
  | trie (words : List Sequence)
  | oneOf (s : Sequence)
  | noneOf (s : Sequence)
  | matching (pattern : Pattern) (expected : String) (flags : Flags)
  | token (test : Test) (report : Report)
  | always (value : Value) (type : Option String)
  | never (msg : Option String)
  | sequence (parts : List Grammar)
  | choice (alternatives : List Grammar)
  | attempt (body : Grammar)
  | label (name : String) (body : Grammar)
  | anonymous (body : Grammar)
  | seek (target : Int) (succeeds : Bool)
  | raise (msg : String)

namespace Grammar

/-- The grammars that a grammar is put together from. -/
def parts : Grammar → List Grammar
  | .sequence gs | .choice gs => gs
  | .attempt g | .label _ g | .anonymous g => [g]
  | _ => []

theorem sizeOf_lt_of_mem_parts {g part : Grammar} (h : part ∈ g.parts) :
    sizeOf part < sizeOf g := by
  cases g with
  | sequence gs =>
    have hlt := List.sizeOf_lt_of_mem h
    rw [sequence.sizeOf_spec]
    exact Nat.lt_add_left 1 hlt
  | choice gs =>
    have hlt := List.sizeOf_lt_of_mem h
    rw [choice.sizeOf_spec]
    exact Nat.lt_add_left 1 hlt
  | attempt body =>
    cases List.mem_singleton.mp h
    rw [attempt.sizeOf_spec]
    omega
  | label name body =>
    cases List.mem_singleton.mp h
    rw [label.sizeOf_spec]
    omega
  | anonymous body =>
    cases List.mem_singleton.mp h
    rw [anonymous.sizeOf_spec]
    omega
  | _ => cases h

/-- Induction with a hypothesis for every part. -/
@[induction_eliminator]
theorem induct {motive : Grammar → Prop}
    (step : ∀ g, (∀ part ∈ g.parts, motive part) → motive g) (g : Grammar) : motive g :=
  step g fun part _ => induct step part
termination_by sizeOf g
decreasing_by exact sizeOf_lt_of_mem_parts ‹_›

mutual

def build : Grammar → Build Parser
  | .anyChar => pure .anyChar
  | .letter => pure .letter
  | .space => pure .space
  | .digit => pure .digit
  | .eof => pure .eof
  | .character v => Build.ofExcept (Parser.character v)
  | .string s => Build.ofExcept (Parser.string s)
  | .trie words => Parser.ofWords words
  | .oneOf s => Build.ofExcept (Parser.oneOf s)
  | .noneOf s => Build.ofExcept (Parser.noneOf s)
  | .matching pattern expected flags => pure (.matching pattern expected flags)
  | .token test report => pure (.token test report)
  | .always value type => pure (.always value type)
  | .never msg => pure (.never msg)
  | .sequence parts => do
    let ps ← buildAll parts
    Build.ofExcept (Parser.ofSequence ps)
  | .choice alternatives => do
    let ps ← buildAll alternatives
    return .choice ps
  | .attempt body => do
    let p ← build body
    return .attempt p
  | .label name body => do
    let p ← build body
    return .label name p
  | .anonymous body => do
    let p ← build body
    return .anonymous p
  | .seek target succeeds => pure (.seek target succeeds)
  | .raise msg => pure (.raise msg)
termination_by structural g => g

def buildAll : List Grammar → Build (List Parser)
  | [] => pure []
  | g :: rest => do
    let p ← build g
    let ps ← buildAll rest
    return p :: ps
termination_by structural gs => gs

end

end Grammar

end Backtrack
