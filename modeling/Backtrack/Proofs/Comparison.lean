import Backtrack.Misuse

/-!
# Comparison of items

Comparison sees an item through its form: the key, or the forms of the members of a list. Items are
the same exactly if their forms are equal, so comparison is an equivalence, and so is comparison of
characters, which unboxes both sides first. An unboxed item is never wrapped. It is tagged only where a
wrapper has handed out a tagged text, but comparison does not tell this text from a plain one, so what
compares as a character is that character.
-/

namespace Backtrack.Value

/-- What comparison sees of an item. A list has no key, and any other item has no members. -/
inductive Form
  | mk (key : Option Key) (members : List Form)

mutual

def form : Value → Form
  | .list vs => .mk none (forms vs)
  | v => .mk v.key? []
termination_by structural v => v

def forms : List Value → List Form
  | [] => []
  | v :: vs => form v :: forms vs
termination_by structural vs => vs

end

/-- Induction as comparison sees it: an item has a key, or it is a list. -/
theorem key_induct {motive : Value → Prop} (key : ∀ v k, v.key? = some k → motive v)
    (list : ∀ vs, (∀ v ∈ vs, motive v) → motive (.list vs)) (v : Value) : motive v :=
  @Value.rec motive (fun vs => ∀ v ∈ vs, motive v)
    (fun t => key (.text t) _ rfl) (fun t => key (.tagged t) _ rfl)
    (fun kind t => key (.wrapped kind t) _ rfl) (fun n => key (.int n) _ rfl) (fun b => key (.bool b) _ rfl) (key .null _ rfl) list
    (fun id content _ => key (.box id content) _ rfl) (fun id => key (.selfBox id) _ rfl)
    (fun _ hv => by cases hv)
    (fun _ _ hv hvs _ hw => (List.mem_cons.mp hw).elim (fun h => h ▸ hv) (hvs _)) v

theorem form_of_key {v : Value} {k : Key} (h : v.key? = some k) : v.form = .mk (some k) [] := by
  cases v with
  | list vs => cases h
  | _ => cases h; rfl

theorem same_of_key {v : Value} {k : Key} (h : v.key? = some k) (w : Value) :
    v.same w = true ↔ w.key? = some k := by
  unfold same
  split
  · cases h
  · rw [h]
    cases w.key? with
    | none => simp
    | some l => simp [eq_comm]

theorem sameAll_iff {vs : List Value}
    (h : ∀ v ∈ vs, ∀ w : Value, v.same w = true ↔ v.form = w.form) (ws : List Value) :
    sameAll vs ws = true ↔ forms vs = forms ws := by
  induction vs generalizing ws with
  | nil => cases ws <;> simp [sameAll, forms]
  | cons v vs ih =>
    have hv := h v List.mem_cons_self
    have hvs := ih fun u hu => h u (List.mem_cons_of_mem v hu)
    cases ws with
    | nil => simp [sameAll, forms]
    | cons w ws => rw [sameAll, Bool.and_eq_true, forms, forms, List.cons.injEq, hv, hvs]

/-- Comparison is equality of forms. -/
theorem same_iff_form (v w : Value) : v.same w = true ↔ v.form = w.form := by
  induction v using key_induct generalizing w with
  | key v k hk =>
    rw [same_of_key hk, form_of_key hk]
    cases w with
    | list ws => simp [key?, form]
    | _ => simp [form, eq_comm]
  | list vs ih =>
    cases w with
    | list ws => rw [same, form, form, Form.mk.injEq, eq_self, true_and, sameAll_iff ih]
    | _ => simp [same, key?, form]

theorem sameChar_iff_form (v w : Value) : v.sameChar w = true ↔ v.unbox.form = w.unbox.form :=
  same_iff_form v.unbox w.unbox

theorem letter_eq_ok_iff {v : Value} {c : Char} : v.letter = .ok c ↔ v.bare = .text [c] :=
  letter_eq_ok.trans letter?_eq_some

/-- What compares as a character is that character. -/
theorem sameChar_of_letter {v : Value} {c : Char} (h : v.letter = .ok c) (w : Value) :
    v.sameChar w = true ↔ w.letter = .ok c := by
  have hv : v.bare = (Value.text [c]).bare := letter_eq_ok_iff.mp h
  calc v.sameChar w = true
      ↔ w.sameChar (.text [c]) = true := by
        rw [sameChar_congr hv, sameChar_iff_form, sameChar_iff_form, eq_comm]
    _ ↔ w.bare = .text [c] := sameChar_text
    _ ↔ w.letter = .ok c := letter_eq_ok_iff.symm

end Backtrack.Value

namespace Backtrack

end Backtrack
