import Backtrack.Value

/-!
# Tokens and results

What a parser yields when it succeeds. A token has a type, which may be missing, and the range of
positions that was read; a result adds the parsed value.
-/

namespace Backtrack

structure Token where
  type : Option String
  range : Option (Int × Int) := none

structure Result extends Token where
  value : Value

namespace Token

/-- The token between angle brackets. A missing type is written `None`. -/
def display (t : Token) : String :=
  let type := t.type.getD "None"
  match t.range with
  | none => s!"<{type}>"
  | some (start, stop) => s!"<{type} {start}..{stop}>"

end Token

namespace Result

/-- The result of reading `value` between two positions. -/
def spanning (type : Option String) (start stop : Int) (value : Value) : Result :=
  { type, range := some (start, stop), value }

/-- The token followed by the quoted value in braces. -/
def display (r : Result) : String :=
  s!"{r.toToken.display} \x7b{String.ofList r.value.quoted}\x7d"

end Result

end Backtrack
