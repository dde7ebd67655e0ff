import Backtrack.Text.Quoted

/-!
# Items and their unboxing

A parser reads items of any kind. A character may come as a text, as a tagged or wrapped text, or in
a box; unboxing removes one such layer and comparison looks at unboxed items only. A wrapper hands out
the text that it keeps as it is, so a tagged text inside comes out tagged.

Items are ideal in two ways: they nest to any depth, and a number is written in full however many
digits it has.
-/

namespace Backtrack

/-- A text of a derived kind is not a plain one, but has the same characters and compares by them. -/
inductive TextKind
  | plain
  | derived

/-- Boxes are objects with an identity of their own: two of them are the same object exactly if
their `id`s are equal. -/
inductive Value
  | text (t : Text)
  /-- A text of a derived kind. -/
  | tagged (t : Text)
  /-- A text of either kind, kept by a wrapper that compares as the text. -/
  | wrapped (kind : TextKind) (t : Text)
  | int (n : Int)
  | bool (b : Bool)
  | null
  | list (vs : List Value)
  | box (id : Nat) (content : Value)
  /-- A box whose content is the box itself. -/
  | selfBox (id : Nat)

namespace Value

/-- A text on its own. -/
def ofText : TextKind → Text → Value
  | .plain, t => .text t
  | .derived, t => .tagged t

/-- Makes a tagged text plain and takes a text out of its wrapper, where it keeps its kind. -/
def unwrap : Value → Value
  | .tagged t => .text t
  | .wrapped kind t => ofText kind t
  | v => v

/-- Removes one box and unwraps what is left. What a box inside a box holds stays boxed. -/
def unbox : Value → Value
  | .box _ content => content.unwrap
  | v => v.unwrap

/-- A text of any kind as a plain text; any other item as it is. -/
def plain : Value → Value
  | .tagged t | .wrapped _ t => .text t
  | v => v

/-- What comparison sees of the unboxed item, in which a tagged text counts as a plain one. -/
def bare (v : Value) : Value := v.unbox.plain

/-- What tells apart two items that are not lists. Texts of every kind compare by their characters,
truth values as the numbers 0 and 1, and boxes by identity. -/
inductive Key
  | text (t : Text)
  | number (n : Int)
  | null
  | object (id : Nat)
  deriving DecidableEq

def key? : Value → Option Key
  | .text t | .tagged t | .wrapped _ t => some (.text t)
  | .int n => some (.number n)
  | .bool b => some (.number (if b then 1 else 0))
  | .null => some .null
  | .box id _ | .selfBox id => some (.object id)
  | .list _ => none

mutual

/-- Equality of items: lists item by item, anything else by its key. -/
def same : Value → Value → Bool
  | .list vs, .list ws => sameAll vs ws
  | v, w =>
    match v.key?, w.key? with
    | some a, some b => a = b
    | _, _ => false
termination_by structural v => v

def sameAll : List Value → List Value → Bool
  | [], [] => true
  | v :: vs, w :: ws => same v w && sameAll vs ws
  | _, _ => false
termination_by structural vs => vs

end

/-- Whether two items are the same character once both are unboxed. -/
def sameChar (v w : Value) : Bool := same v.unbox w.unbox

/-- The text that an item is once unboxed, if it is one. -/
def text? (v : Value) : Option Text :=
  match v.unbox with
  | .text t | .tagged t => some t
  | _ => none

/-- The character that an item is once unboxed, if it is one. -/
def letter? (v : Value) : Option Char :=
  match v.text? with
  | some [c] => some c
  | _ => none

mutual

/-- The unambiguous form: texts in quotes, lists in brackets, boxes around the form of their
content. -/
def quoted : Value → Text
  | .text t => t.quoted
  | .tagged t => t.quoted
  | .wrapped _ t => t.quoted
  | .int n => (toString n).toList
  | .bool b => (if b then "True" else "False").toList
  | .null => "None".toList
  | .list vs => '[' :: (List.intercalate [',', ' '] (quotedAll vs) ++ [']'])
  | .box _ content => "Boxed(".toList ++ quoted content ++ [')']
  | .selfBox _ => "Loop()".toList
termination_by structural v => v

def quotedAll : List Value → List Text
  | [] => []
  | v :: vs => quoted v :: quotedAll vs
termination_by structural vs => vs

end

/-- The form for a reader: the characters of a text, and the quoted form of anything else. -/
def display : Value → Text
  | .text t | .tagged t | .wrapped _ t => t
  | v => v.quoted

@[simp] theorem unbox_text (t : Text) : (Value.text t).unbox = .text t := rfl

@[simp] theorem unbox_wrapped (kind : TextKind) (t : Text) :
    (Value.wrapped kind t).unbox = ofText kind t := rfl

theorem bare_wrapped (kind : TextKind) (t : Text) : (Value.wrapped kind t).bare = .text t := by
  cases kind <;> rfl

theorem display_plain (v : Value) : v.plain.display = v.display := by cases v <;> rfl

/-- The displayed form of an unboxed item is that of the bare one. -/
theorem display_congr {v w : Value} (h : v.bare = w.bare) : v.unbox.display = w.unbox.display := by
  rw [← display_plain v.unbox, ← display_plain w.unbox]
  exact congrArg display h

theorem unwrap_ne_wrapped (v : Value) (kind : TextKind) (t : Text) : v.unwrap ≠ .wrapped kind t := by
  intro h
  cases v with
  | wrapped k s => cases k <;> cases h
  | _ => cases h

/-- No unboxed item is wrapped. -/
theorem unbox_ne_wrapped (v : Value) (kind : TextKind) (t : Text) : v.unbox ≠ .wrapped kind t := by
  cases v with
  | box id content => exact content.unwrap_ne_wrapped kind t
  | wrapped k s => exact (Value.wrapped k s).unwrap_ne_wrapped kind t
  | _ => intro h; cases h

theorem text?_eq_some {v : Value} {t : Text} : v.text? = some t ↔ v.bare = .text t := by
  unfold text? bare
  cases h : v.unbox with
  | wrapped kind s => exact absurd h (v.unbox_ne_wrapped kind s)
  | _ => simp [plain]

theorem text?_congr {v w : Value} (h : v.bare = w.bare) : v.text? = w.text? := by
  ext t
  rw [text?_eq_some, text?_eq_some, h]

theorem letter?_congr {v w : Value} (h : v.bare = w.bare) : v.letter? = w.letter? := by
  rw [letter?, letter?, text?_congr h]

theorem letter?_eq_some {v : Value} {c : Char} : v.letter? = some c ↔ v.bare = .text [c] := by
  rw [← text?_eq_some, letter?]
  split
  · next d h => simp [h]
  · next h =>
    constructor
    · intro hc
      cases hc
    · intro hc
      exact absurd hc (h c)

/-- An item is the same as a text exactly if it is a text of these characters. -/
theorem same_text (v : Value) (t : Text) : v.same (.text t) ↔ v.plain = .text t := by
  cases v <;> simp [same, key?, plain]

theorem same_plain (v w : Value) : v.plain.same w = v.same w := by cases v <;> rfl

/-- Comparison sees the bare item only. -/
theorem sameChar_congr {v w : Value} (h : v.bare = w.bare) (u : Value) :
    v.sameChar u = w.sameChar u := by
  rw [sameChar, sameChar, ← same_plain v.unbox, ← same_plain w.unbox]
  exact congrArg (same · u.unbox) h

theorem sameChar_text {v : Value} {c : Char} :
    v.sameChar (.text [c]) ↔ v.bare = .text [c] :=
  same_text v.unbox [c]

end Value

end Backtrack
