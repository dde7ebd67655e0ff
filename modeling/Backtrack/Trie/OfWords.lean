import Backtrack.Sequence
import Backtrack.Trie.Arrange

/-!
# Tries from words
-/

namespace Backtrack.Trie

/-- The arranged trie of some texts. Their order and repetitions leave no trace in it. -/
def ofTexts (texts : List Text) : Trie := (texts.foldl insert empty).arrange

/-- The arranged trie of some words, in which every item has to be a character. -/
def ofWords (words : List Sequence) : Except Misuse Trie := do
  let texts ← words.mapM Sequence.spell
  return ofTexts texts

end Backtrack.Trie
