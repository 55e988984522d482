import PklAnalysis.Text.Split
import Mathlib.Data.List.Basic

/-!
# Pieces of text

What splitting and cutting undo, what stands in the pieces, and which characters numbers are written
with.
-/

namespace PklAnalysis.Text

variable {sep : Char}

/-! ## Splitting -/

theorem notMem_of_mem_split {cs piece : List Char} (h : piece ∈ split sep cs) : sep ∉ piece := by
  induction cs generalizing piece with
  | nil => rw [List.mem_singleton.1 h]; exact List.not_mem_nil
  | cons c cs ih =>
    rw [split] at h
    split at h
    · rcases List.mem_cons.1 h with rfl | h
      · exact List.not_mem_nil
      · exact ih h
    · next hc =>
      split at h
      · rw [List.mem_singleton.1 h, List.mem_singleton]
        exact Ne.symm hc
      · next first rest hs =>
        rcases List.mem_cons.1 h with rfl | h
        · rw [List.mem_cons, not_or]
          exact ⟨Ne.symm hc, ih (hs ▸ List.mem_cons_self)⟩
        · exact ih (hs ▸ List.mem_cons_of_mem first h)

theorem split_join {pieces : List (List Char)} (hn : pieces ≠ []) (h : ∀ p ∈ pieces, sep ∉ p) :
    split sep (join sep pieces) = pieces := by
  induction pieces with
  | nil => exact absurd rfl hn
  | cons p ps ih =>
    have hp := h p List.mem_cons_self
    cases ps with
    | nil => exact split_of_notMem hp
    | cons q qs =>
      rw [join, split_append _ hp, ih (List.cons_ne_nil q qs) (fun x hx => h x (List.mem_cons_of_mem p hx))]
      exact List.cons_ne_nil q qs

theorem split_append_cons (sep : Char) (a b : List Char) :
    split sep (a ++ sep :: b) = split sep a ++ split sep b := by
  induction a with
  | nil =>
    show split sep (sep :: b) = [] :: split sep b
    rw [split, if_pos rfl]
  | cons c a ih =>
    rw [List.cons_append, split, split]
    split
    · rw [ih]; rfl
    · rw [ih]
      cases pieces : split sep a with
      | nil => exact absurd pieces (split_ne_nil sep a)
      | cons piece pieces => rfl

/-! ## Cutting -/

theorem dropStart?_eq_some {part : String} {cs rest : List Char} :
    dropStart? part cs = some rest ↔ part.toList ++ rest = cs :=
  List.isPrefixOf?_eq_some_iff_append_eq

theorem dropStart?_append (part : String) (rest : List Char) :
    dropStart? part (part.toList ++ rest) = some rest := dropStart?_eq_some.2 rfl

theorem cut_append {sep : Char} {a : List Char} (b : List Char) (h : sep ∉ a) :
    cut sep (a ++ sep :: b) = some (a, b) := cut_eq_some.2 ⟨rfl, h⟩

theorem cut_eq_none {sep : Char} {cs : List Char} : cut sep cs = none ↔ sep ∉ cs := by
  constructor
  · intro h hm
    obtain ⟨a, b, rfl, ha⟩ := List.eq_append_cons_of_mem hm
    rw [cut_append b ha] at h
    cases h
  · intro h
    cases hc : cut sep cs with
    | none => rfl
    | some ab =>
      rw [(cut_eq_some.1 hc).1] at h
      exact absurd (List.mem_append_right _ List.mem_cons_self) h

/-! ## Numbers -/

theorem isDigit_of_mem_number {n : Nat} {c : Char} (h : c ∈ (toString n).toList) :
    c.isDigit = true := by
  rw [Nat.toString_eq_repr, Nat.toList_repr] at h
  exact Nat.isDigit_of_mem_toDigits (by decide) (by decide) h

/-- A number has none of the signs that stand between numbers or behind them. -/
theorem notMem_number {n : Nat} {c : Char} (h : c.isDigit = false) : c ∉ (toString n).toList :=
  fun hc => Bool.false_ne_true (h.symm.trans (isDigit_of_mem_number hc))

end PklAnalysis.Text
