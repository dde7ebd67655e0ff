/-!
# Diagnostic events
-/

namespace Backtrack

inductive Event
  /-- A trie was built, with the length of its longest word and the number of its words. -/
  | trieBuilt (depth : Nat) (words : Nat)
  /-- A parse ended with the failure of the named parser. -/
  | parseFailed (name : String) (pos : Int) (msg : Option String)

def Event.message : Event → String
  | .trieBuilt depth words => s!"Built trie: depth {depth}, {words} words"
  | .parseFailed name pos msg =>
    let reason := msg.getD "None"
    s!"{name} failed at position {pos}: {reason}"

end Backtrack
