/-!
# Splitting text

A text is cut at a separator: into all its pieces, at the first separator, or at the last.

* `join_split`: joined by the separator, the pieces give the text again.
* `split_append`: the first piece ends at the first separator.
* `cut_eq_some`, `cutLast_eq_some`: what stands around the separator at which a text is cut.
-/

namespace PklAnalysis.Text

/-- The pieces between the separators; there is one more of them than there are separators. -/
def split (sep : Char) : List Char → List (List Char)
  | [] => [[]]
  | c :: cs =>
    if c = sep then [] :: split sep cs
    else match split sep cs with
      | [] => [[c]]
      | piece :: pieces => (c :: piece) :: pieces

/-- Put a separator between the pieces. -/
def join (sep : Char) : List (List Char) → List Char
  | [] => []
  | [piece] => piece
  | piece :: pieces => piece ++ sep :: join sep pieces

/-- What stands before and after the first separator. -/
def cut (sep : Char) : List Char → Option (List Char × List Char)
  | [] => none
  | c :: cs => if c = sep then some ([], cs) else (cut sep cs).map fun (a, b) => (c :: a, b)

/-- What stands before and after the last separator. -/
def cutLast (sep : Char) : List Char → Option (List Char × List Char)
  | [] => none
  | c :: cs => match cutLast sep cs with
    | some (a, b) => some (c :: a, b)
    | none => if c = sep then some ([], cs) else none

/-- The rest of a text that starts with a part. -/
def dropStart? (part : String) (cs : List Char) : Option (List Char) := part.toList.isPrefixOf? cs

theorem split_ne_nil (sep : Char) (cs : List Char) : split sep cs ≠ [] := by
  cases cs with
  | nil => simp [split]
  | cons c cs =>
    rw [split]
    split
    · simp
    · split <;> simp

theorem join_split (sep : Char) (cs : List Char) : join sep (split sep cs) = cs := by
  induction cs with
  | nil => rfl
  | cons c cs ih =>
    rw [split]
    have ne := split_ne_nil sep cs
    split
    · subst c
      cases h : split sep cs with
      | nil => exact absurd h ne
      | cons piece pieces => rw [h] at ih; simp [join, ih]
    · cases h : split sep cs with
      | nil => exact absurd h ne
      | cons piece pieces =>
        rw [h] at ih
        cases pieces <;> simp_all [join]

theorem split_of_notMem {sep : Char} {cs : List Char} (h : sep ∉ cs) : split sep cs = [cs] := by
  induction cs with
  | nil => rfl
  | cons c cs ih =>
    rw [List.mem_cons, not_or] at h
    rw [split, if_neg (Ne.symm h.1), ih h.2]

theorem split_append {sep : Char} {piece : List Char} (rest : List Char) (h : sep ∉ piece) :
    split sep (piece ++ sep :: rest) = piece :: split sep rest := by
  induction piece with
  | nil => simp [split]
  | cons c cs ih =>
    rw [List.mem_cons, not_or] at h
    rw [List.cons_append, split, if_neg (Ne.symm h.1), ih h.2]

theorem cut_eq_some {sep : Char} {cs a b : List Char} :
    cut sep cs = some (a, b) ↔ cs = a ++ sep :: b ∧ sep ∉ a := by
  induction cs generalizing a with
  | nil => simp [cut]
  | cons c cs ih =>
    rw [cut]
    split
    · subst c; cases a <;> grind
    · cases a with
      | nil => simp; grind
      | cons x a => simp [ih]; grind

theorem cutLast_eq_none {sep : Char} {cs : List Char} : cutLast sep cs = none ↔ sep ∉ cs := by
  induction cs with
  | nil => simp [cutLast]
  | cons c cs ih => rw [cutLast]; split <;> grind

theorem cutLast_eq_some {sep : Char} {cs a b : List Char} :
    cutLast sep cs = some (a, b) ↔ cs = a ++ sep :: b ∧ sep ∉ b := by
  induction cs generalizing a with
  | nil => simp [cutLast]
  | cons c cs ih =>
    rw [cutLast]
    split
    · rename_i a' b' h
      have found : sep ∈ cs := by
        by_cases m : sep ∈ cs
        · exact m
        · simp [cutLast_eq_none.2 m] at h
      cases a with
      | nil => grind
      | cons x a => have := @ih a; grind
    · rename_i h
      have := cutLast_eq_none.1 h
      cases a <;> grind

end PklAnalysis.Text
