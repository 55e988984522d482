import PklAnalysis.Proofs.Syntax.Reader
import PklAnalysis.Proofs.Syntax.WellFormed

/-!
# Printed expressions

What is printed for an expression is the text of its tree with parentheses added around operands
(`SyntaxTree.print_eq_text`). With them no operand needs any more, so the text is read as the same
tree. Without one of the pairs around a binary operand some operand does need them, so the text is
read as another tree (`SyntaxTree.read_print`).
-/

namespace PklAnalysis

namespace ExprTree

/-! ## The parentheses that are added -/

/-- Whether an operand is put in parentheses beside an operator of the given precedence. -/
def needsParens (e : ExprTree) (precedence : Nat) (right : Bool) : Bool :=
  match e with
  | binary o _ _ => o.precedence < precedence || (right && o.precedence == precedence)
  | ifElse _ _ _ | letIn _ _ _ | lambda _ _ => true
  | _ => false

def groupIf (b : Bool) (e : ExprTree) : ExprTree := if b then group e else e

/-- The tree with the parentheses that printing adds. -/
def dressed : ExprTree → ExprTree
  | name s => name s
  | unary o e => unary o (groupIf (e.needsParens SyntaxTree.tightest false) e.dressed)
  | binary o l r =>
    binary o (groupIf (l.needsParens o.precedence false) l.dressed)
      (groupIf (r.needsParens o.precedence true) r.dressed)
  | group e => group e.dressed
  | ifElse c a b => ifElse c.dressed a.dressed b.dressed
  | letIn x v b => letIn x v.dressed b.dressed
  | lambda xs b => lambda xs b.dressed

section

variable {b : Bool} {e a : ExprTree}

theorem bare_groupIf (b : Bool) (e : ExprTree) : (groupIf b e).bare = e.bare := by
  cases b <;> rfl

theorem readable_groupIf : (groupIf b e).Readable ↔ e.Readable := by
  cases b <;> exact Iff.rfl

theorem named_groupIf : (groupIf b e).Named ↔ e.Named := by
  cases b <;> exact Iff.rfl

theorem enclosed_groupIf : (groupIf b e).Enclosed ↔ e.Enclosed := by
  cases b <;> exact Iff.rfl

theorem text_groupIf (b : Bool) (e : ExprTree) :
    (groupIf b e).text = if b then SyntaxTree.inParens e.text else e.text := by
  cases b <;> rfl

theorem isOpen_groupIf (h : e.isOpen = true → b = true) : (groupIf b e).isOpen = false := by
  cases b with
  | true => rfl
  | false =>
    rw [Bool.eq_false_iff]
    exact fun he => Bool.false_ne_true (h he)

theorem needsParens_of_isOpen (h : e.isOpen = true) (p : Nat) (right : Bool) :
    e.needsParens p right = true := by
  cases e with
  | ifElse | letIn | lambda => rfl
  | _ => cases h

theorem isOpen_dressed (e : ExprTree) : e.dressed.isOpen = e.isOpen := by
  cases e <;> rfl

theorem isBinary_dressed (e : ExprTree) : e.dressed.isBinary = e.isBinary := by
  cases e <;> rfl

/-- Beside an operator an operand stays whole exactly if it is printed in parentheses where that is
asked for. -/
theorem bindsTo_dressed (e : ExprTree) (p : Nat) (right : Bool) :
    e.dressed.BindsTo p right ↔ e.isBinary = false ∨ e.needsParens p right = false := by
  cases e with
  | binary o l r =>
    simp only [dressed, BindsTo, needsParens, isBinary, Bool.true_eq_false, false_or,
      Bool.or_eq_false_iff, Bool.and_eq_false_iff, decide_eq_false_iff_not, beq_eq_false_iff_ne]
    cases right
    · simp only [true_and, true_or, and_true]
      omega
    · simp only [Bool.true_eq_false, false_and, or_false, false_or]
      omega
  | _ => exact iff_of_true trivial (.inl rfl)

theorem bindsTo_groupIf (e : ExprTree) (p : Nat) (right : Bool) :
    (groupIf (e.needsParens p right) e.dressed).BindsTo p right := by
  cases h : e.needsParens p right with
  | true => trivial
  | false => exact (bindsTo_dressed e p right).2 (.inr h)

/-- Every binary operand of a prefix operator is put in parentheses. -/
theorem isBinary_groupIf (e : ExprTree) :
    (groupIf (e.needsParens SyntaxTree.tightest false) e.dressed).isBinary = false := by
  cases e with
  | binary o l r => cases o <;> rfl
  | _ => rfl

end

theorem bare_dressed (e : ExprTree) : e.dressed.bare = e.bare := by
  induction e with
  | name s => rfl
  | unary o e ih => simp only [dressed, bare, bare_groupIf, ih]
  | binary o l r ihl ihr => simp only [dressed, bare, bare_groupIf, ihl, ihr]
  | group e ih => exact ih
  | ifElse c a b ihc iha ihb => simp only [dressed, bare, ihc, iha, ihb]
  | letIn x v b ihv ihb => simp only [dressed, bare, ihv, ihb]
  | lambda xs b ih => simp only [dressed, bare, ih]

theorem named_dressed {e : ExprTree} (h : e.Named) : e.dressed.Named := by
  induction e with
  | name s => exact h
  | unary o e ih => exact named_groupIf.2 (ih h)
  | binary o l r ihl ihr => exact ⟨named_groupIf.2 (ihl h.1), named_groupIf.2 (ihr h.2)⟩
  | group e ih => exact ih h
  | ifElse c a b ihc iha ihb => exact ⟨ihc h.1, iha h.2.1, ihb h.2.2⟩
  | letIn x v b ihv ihb => exact ⟨h.1, ihv h.2.1, ihb h.2.2⟩
  | lambda xs b ih => exact ⟨h.1, ih h.2⟩

/-- With the parentheses of the printer no operand goes on to the right without end. -/
theorem enclosed_dressed (e : ExprTree) : e.dressed.Enclosed := by
  have closed : ∀ (e : ExprTree) (p : Nat) (right : Bool),
      (groupIf (e.needsParens p right) e.dressed).isOpen = false :=
    fun e p right => isOpen_groupIf fun h => needsParens_of_isOpen (e.isOpen_dressed ▸ h) p right
  induction e with
  | name s => trivial
  | unary o e ih => exact ⟨closed e _ _, enclosed_groupIf.2 ih⟩
  | binary o l r ihl ihr =>
    exact ⟨closed l _ _, closed r _ _, enclosed_groupIf.2 ihl, enclosed_groupIf.2 ihr⟩
  | group e ih => exact ih
  | ifElse c a b ihc iha ihb => exact ⟨ihc, iha, ihb⟩
  | letIn x v b ihv ihb => exact ⟨ihv, ihb⟩
  | lambda xs b ih => exact ih

/-- With the parentheses of the printer no operand needs any more. -/
theorem readable_dressed (e : ExprTree) : e.dressed.Readable := by
  induction e with
  | name s => trivial
  | unary o e ih => exact ⟨isBinary_groupIf e, readable_groupIf.2 ih⟩
  | binary o l r ihl ihr =>
    exact ⟨bindsTo_groupIf l _ _, bindsTo_groupIf r _ _, readable_groupIf.2 ihl,
      readable_groupIf.2 ihr⟩
  | group e ih => exact ih
  | ifElse c a b ihc iha ihb => exact ⟨ihc, iha, ihb⟩
  | letIn x v b ihv ihb => exact ⟨ihv, ihb⟩
  | lambda xs b ih => exact ih

/-- The dressed tree is read back from its text. -/
theorem read_dressed {e : ExprTree} (h : e.Named) : read e.dressed.text = some e.dressed := by
  rw [read_text (named_dressed h) e.enclosed_dressed, e.readable_dressed.regrouped_eq]

/-! ## One pair fewer -/

/-- The dressed tree of the first expression, without one of the pairs of parentheses that printing
adds around an operand that is a binary expression. -/
inductive Loosened : ExprTree → ExprTree → Prop
  | unary {o e} (hb : e.isBinary = true) (hp : e.needsParens SyntaxTree.tightest false = true) :
    Loosened (unary o e) (unary o e.dressed)
  | left {o l r} (hb : l.isBinary = true) (hp : l.needsParens o.precedence false = true) :
    Loosened (binary o l r)
      (binary o l.dressed (groupIf (r.needsParens o.precedence true) r.dressed))
  | right {o l r} (hb : r.isBinary = true) (hp : r.needsParens o.precedence true = true) :
    Loosened (binary o l r)
      (binary o (groupIf (l.needsParens o.precedence false) l.dressed) r.dressed)
  | inUnary {o e a} (h : Loosened e a) :
    Loosened (.unary o e) (.unary o (groupIf (e.needsParens SyntaxTree.tightest false) a))
  | inLeft {o l r a} (h : Loosened l a) :
    Loosened (binary o l r) (binary o (groupIf (l.needsParens o.precedence false) a)
      (groupIf (r.needsParens o.precedence true) r.dressed))
  | inRight {o l r a} (h : Loosened r a) :
    Loosened (binary o l r) (binary o (groupIf (l.needsParens o.precedence false) l.dressed)
      (groupIf (r.needsParens o.precedence true) a))
  | inGroup {e a} (h : Loosened e a) : Loosened (group e) (group a)
  | inCondition {c x y a} (h : Loosened c a) :
    Loosened (ifElse c x y) (ifElse a x.dressed y.dressed)
  | inThen {c x y a} (h : Loosened x a) : Loosened (ifElse c x y) (ifElse c.dressed a y.dressed)
  | inElse {c x y a} (h : Loosened y a) : Loosened (ifElse c x y) (ifElse c.dressed x.dressed a)
  | inValue {x v b a} (h : Loosened v a) : Loosened (letIn x v b) (letIn x a b.dressed)
  | inLet {x v b a} (h : Loosened b a) : Loosened (letIn x v b) (letIn x v.dressed a)
  | inLambda {xs b a} (h : Loosened b a) : Loosened (lambda xs b) (lambda xs a)

namespace Loosened

variable {e a : ExprTree}

theorem bare (h : Loosened e a) : a.bare = e.bare := by
  induction h with
  | unary | left | right => simp only [ExprTree.bare, bare_groupIf, bare_dressed]
  | inGroup _ ih => exact ih
  | _ _ ih => simp only [ExprTree.bare, bare_groupIf, bare_dressed, ih]

theorem isOpen (h : Loosened e a) : a.isOpen = e.isOpen := by
  cases h <;> rfl

theorem named (h : Loosened e a) (he : e.Named) : a.Named := by
  induction h with
  | unary => exact named_dressed he
  | left => exact ⟨named_dressed he.1, named_groupIf.2 (named_dressed he.2)⟩
  | right => exact ⟨named_groupIf.2 (named_dressed he.1), named_dressed he.2⟩
  | inUnary _ ih => exact named_groupIf.2 (ih he)
  | inLeft _ ih => exact ⟨named_groupIf.2 (ih he.1), named_groupIf.2 (named_dressed he.2)⟩
  | inRight _ ih => exact ⟨named_groupIf.2 (named_dressed he.1), named_groupIf.2 (ih he.2)⟩
  | inGroup _ ih => exact ih he
  | inCondition _ ih => exact ⟨ih he.1, named_dressed he.2.1, named_dressed he.2.2⟩
  | inThen _ ih => exact ⟨named_dressed he.1, ih he.2.1, named_dressed he.2.2⟩
  | inElse _ ih => exact ⟨named_dressed he.1, named_dressed he.2.1, ih he.2.2⟩
  | inValue _ ih => exact ⟨he.1, ih he.2.1, named_dressed he.2.2⟩
  | inLet _ ih => exact ⟨he.1, named_dressed he.2.1, ih he.2.2⟩
  | inLambda _ ih => exact ⟨he.1, ih he.2⟩

theorem isOpen_of_isBinary (h : e.isBinary = true) : e.dressed.isOpen = false := by
  cases e with
  | binary => rfl
  | _ => cases h

theorem isOpen_groupIf (h : Loosened e a) (p : Nat) (right : Bool) :
    (groupIf (e.needsParens p right) a).isOpen = false :=
  ExprTree.isOpen_groupIf fun ha => needsParens_of_isOpen (h.isOpen ▸ ha) p right

theorem enclosed (h : Loosened e a) : a.Enclosed := by
  have dressed : ∀ (e : ExprTree) (p : Nat) (right : Bool),
      (groupIf (e.needsParens p right) e.dressed).isOpen = false :=
    fun e p right =>
      ExprTree.isOpen_groupIf fun h => needsParens_of_isOpen (e.isOpen_dressed ▸ h) p right
  have inside : ∀ {b : Bool} (e : ExprTree), (groupIf b e.dressed).Enclosed :=
    fun e => enclosed_groupIf.2 e.enclosed_dressed
  induction h with
  | unary hb => exact ⟨isOpen_of_isBinary hb, enclosed_dressed _⟩
  | left hb => exact ⟨isOpen_of_isBinary hb, dressed _ _ _, enclosed_dressed _, inside _⟩
  | right hb => exact ⟨dressed _ _ _, isOpen_of_isBinary hb, inside _, enclosed_dressed _⟩
  | inUnary h ih => exact ⟨h.isOpen_groupIf _ _, enclosed_groupIf.2 ih⟩
  | inLeft h ih =>
    exact ⟨h.isOpen_groupIf _ _, dressed _ _ _, enclosed_groupIf.2 ih, inside _⟩
  | inRight h ih =>
    exact ⟨dressed _ _ _, h.isOpen_groupIf _ _, inside _, enclosed_groupIf.2 ih⟩
  | inGroup _ ih => exact ih
  | inCondition _ ih => exact ⟨ih, enclosed_dressed _, enclosed_dressed _⟩
  | inThen _ ih => exact ⟨enclosed_dressed _, ih, enclosed_dressed _⟩
  | inElse _ ih => exact ⟨enclosed_dressed _, enclosed_dressed _, ih⟩
  | inValue _ ih => exact ⟨ih, enclosed_dressed _⟩
  | inLet _ ih => exact ⟨enclosed_dressed _, ih⟩
  | inLambda _ ih => exact ih

/-- The operand that has lost its parentheses needs them. -/
theorem not_readable (h : Loosened e a) : ¬a.Readable := by
  have apart : ∀ {e : ExprTree} {p : Nat} {right : Bool}, e.isBinary = true →
      e.needsParens p right = true → ¬e.dressed.BindsTo p right := by
    intro e p right hb hp
    rw [bindsTo_dressed, hb, hp]
    simp
  induction h with
  | unary hb =>
    intro h
    rw [Readable, isBinary_dressed, hb] at h
    cases h.1
  | left hb hp => exact fun h => apart hb hp h.1
  | right hb hp => exact fun h => apart hb hp h.2.1
  | inUnary _ ih => exact fun h => ih (readable_groupIf.1 h.2)
  | inLeft _ ih => exact fun h => ih (readable_groupIf.1 h.2.2.1)
  | inRight _ ih => exact fun h => ih (readable_groupIf.1 h.2.2.2)
  | inGroup _ ih => exact ih
  | inCondition _ ih => exact fun h => ih h.1
  | inThen _ ih => exact fun h => ih h.2.1
  | inElse _ ih => exact fun h => ih h.2.2
  | inValue _ ih => exact fun h => ih h.1
  | inLet _ ih => exact fun h => ih h.2
  | inLambda _ ih => exact ih

/-- What is read without the parentheses differs in more than parentheses. -/
theorem read (h : Loosened e a) (he : e.Named) :
    ∃ y, ExprTree.read a.text = some y ∧ y.bare ≠ e.bare := by
  refine ⟨a.regrouped, read_text (h.named he) h.enclosed, fun same => ?_⟩
  exact h.not_readable (.of_bare_regrouped (same.trans h.bare.symm))

end Loosened

/-- The second text is the first one without a pair of parentheses. -/
def Unwrapped (s s' : String) : Prop :=
  ∃ u v w, s = u ++ SyntaxTree.inParens v ++ w ∧ s' = u ++ v ++ w

theorem Unwrapped.around {s s' : String} (h : Unwrapped s s') (p q : String) :
    Unwrapped (p ++ s ++ q) (p ++ s' ++ q) := by
  obtain ⟨u, v, w, rfl, rfl⟩ := h
  refine ⟨p ++ u, v, w ++ q, ?_, ?_⟩ <;> simp only [String.append_assoc]

theorem unwrapped_inParens (s p q : String) :
    Unwrapped (p ++ SyntaxTree.inParens s ++ q) (p ++ s ++ q) := ⟨p, s, q, rfl, rfl⟩

/-- Removing the parentheses from the tree removes them from the text. -/
theorem Loosened.text {e a : ExprTree} (h : Loosened e a) : Unwrapped e.dressed.text a.text := by
  have inside : ∀ {b : Bool} {e a : ExprTree}, Unwrapped e.text a.text →
      Unwrapped (groupIf b e).text (groupIf b a).text := by
    intro b e a h
    cases b with
    | true => exact h.around "(" ")"
    | false => exact h
  induction h with
  | @unary o e hb hp =>
    have := unwrapped_inParens e.dressed.text o.symbol ""
    simpa only [dressed, ExprTree.text, text_groupIf, hp, if_true, String.append_empty] using this
  | @left o l r hb hp =>
    have := unwrapped_inParens l.dressed.text "" (" " ++ o.symbol ++ " " ++
      (groupIf (r.needsParens o.precedence true) r.dressed).text)
    simpa only [dressed, ExprTree.text, text_groupIf, hp, if_true, String.empty_append,
      String.append_assoc] using this
  | @right o l r hb hp =>
    have := unwrapped_inParens r.dressed.text
      ((groupIf (l.needsParens o.precedence false) l.dressed).text ++ " " ++ o.symbol ++ " ") ""
    simpa only [dressed, ExprTree.text, text_groupIf, hp, if_true, String.append_empty] using this
  | @inUnary o e a _ ih =>
    have := (inside (b := e.needsParens SyntaxTree.tightest false) ih).around o.symbol ""
    simpa only [dressed, ExprTree.text, String.append_empty] using this
  | @inLeft o l r a _ ih =>
    have := (inside (b := l.needsParens o.precedence false) ih).around "" (" " ++ o.symbol ++ " " ++
      (groupIf (r.needsParens o.precedence true) r.dressed).text)
    simpa only [dressed, ExprTree.text, String.empty_append, String.append_assoc] using this
  | @inRight o l r a _ ih =>
    have := (inside (b := r.needsParens o.precedence true) ih).around
      ((groupIf (l.needsParens o.precedence false) l.dressed).text ++ " " ++ o.symbol ++ " ") ""
    simpa only [dressed, ExprTree.text, String.append_empty] using this
  | inGroup _ ih => exact ih.around "(" ")"
  | @inCondition c x y a _ ih =>
    have := ih.around "if (" (") " ++ x.dressed.text ++ " else " ++ y.dressed.text)
    simpa only [dressed, ExprTree.text, String.append_assoc] using this
  | @inThen c x y a _ ih =>
    have := ih.around ("if (" ++ c.dressed.text ++ ") ") (" else " ++ y.dressed.text)
    simpa only [dressed, ExprTree.text, String.append_assoc] using this
  | @inElse c x y a _ ih =>
    have := ih.around ("if (" ++ c.dressed.text ++ ") " ++ x.dressed.text ++ " else ") ""
    simpa only [dressed, ExprTree.text, String.append_empty] using this
  | @inValue x v b a _ ih =>
    have := ih.around ("let (" ++ x ++ " = ") (") " ++ b.dressed.text)
    simpa only [dressed, ExprTree.text, String.append_assoc] using this
  | @inLet x v b a _ ih =>
    have := ih.around ("let (" ++ x ++ " = " ++ v.dressed.text ++ ") ") ""
    simpa only [dressed, ExprTree.text, String.append_empty] using this
  | @inLambda xs b a _ ih =>
    have := ih.around (SyntaxTree.inParens (", ".intercalate xs) ++ " -> ") ""
    simpa only [dressed, ExprTree.text, String.append_empty] using this

end ExprTree

/-! ## Expressions in a syntax tree -/

namespace SyntaxTree

open ExprTree (dressed text read Loosened Unwrapped)

/-- The node is the root of an expression of names, operators, parentheses, `if`, `let` and lambdas,
whose binders have no types. -/
inductive Spells (t : SyntaxTree) : NodeIndex → ExprTree → Prop
  | name {i s} (hc : t.construct? i = some (.access s none)) (hs : IsName s) : Spells t i (.name s)
  | unary {i j o e} (hc : t.construct? i = some (.unary o j)) (he : Spells t j e) :
    Spells t i (.unary o e)
  | binary {i j k o l r} (hc : t.construct? i = some (.binary o j k)) (hl : Spells t j l)
    (hr : Spells t k r) : Spells t i (.binary o l r)
  | group {i j e} (hc : t.construct? i = some (.grouped j)) (he : Spells t j e) :
    Spells t i (.group e)
  | ifElse {i j k m c a b} (hi : t.construct? i = some (.ifElse j k m)) (hc : Spells t j c)
    (ha : Spells t k a) (hb : Spells t m b) : Spells t i (.ifElse c a b)
  | letIn {i p j k x v b} (hc : t.construct? i = some (.letIn p j k))
    (hp : t.construct? p = some (.param ⟨x, none⟩)) (hx : IsName x) (hv : Spells t j v)
    (hb : Spells t k b) : Spells t i (.letIn x v b)
  | lambda {i ps j xs b} (hc : t.construct? i = some (.lambda ps j))
    (hp : ps.map t.construct? = xs.map (fun x => some (.param ⟨x, none⟩)))
    (hx : ∀ x ∈ xs, IsName x) (hb : Spells t j b) : Spells t i (.lambda xs b)

variable {t : SyntaxTree} {i : NodeIndex} {e : ExprTree}

namespace Spells

theorem named (h : t.Spells i e) : e.Named := by
  induction h with
  | name _ hs => exact hs
  | unary _ _ ih => exact ih
  | binary _ _ _ ihl ihr => exact ⟨ihl, ihr⟩
  | group _ _ ih => exact ih
  | ifElse _ _ _ _ ihc iha ihb => exact ⟨ihc, iha, ihb⟩
  | letIn _ _ hx _ _ ihv ihb => exact ⟨hx, ihv, ihb⟩
  | lambda _ _ hx _ ih => exact ⟨hx, ih⟩

theorem needsParens_eq (h : t.Spells i e) (p : Nat) (right : Bool) :
    needsParens (t.construct? i) p right = e.needsParens p right := by
  cases h with
  | name hc | unary hc | binary hc | group hc | ifElse hc | letIn hc | lambda hc =>
    rw [hc]
    rfl

/-- A node is the root of one expression only. -/
theorem unique {e' : ExprTree} (h : t.Spells i e) (h' : t.Spells i e') : e = e' := by
  induction h generalizing e' with
  | name hc => cases h' with
    | name hc' => cases hc.symm.trans hc'; rfl
    | unary hc' | binary hc' | group hc' | ifElse hc' | letIn hc' | lambda hc' =>
      cases hc.symm.trans hc'
  | unary hc _ ih => cases h' with
    | unary hc' he' => cases hc.symm.trans hc'; rw [ih he']
    | name hc' | binary hc' | group hc' | ifElse hc' | letIn hc' | lambda hc' =>
      cases hc.symm.trans hc'
  | binary hc _ _ ihl ihr => cases h' with
    | binary hc' hl' hr' => cases hc.symm.trans hc'; rw [ihl hl', ihr hr']
    | name hc' | unary hc' | group hc' | ifElse hc' | letIn hc' | lambda hc' =>
      cases hc.symm.trans hc'
  | group hc _ ih => cases h' with
    | group hc' he' => cases hc.symm.trans hc'; rw [ih he']
    | name hc' | unary hc' | binary hc' | ifElse hc' | letIn hc' | lambda hc' =>
      cases hc.symm.trans hc'
  | ifElse hc _ _ _ ihc iha ihb => cases h' with
    | ifElse hc' h1 h2 h3 => cases hc.symm.trans hc'; rw [ihc h1, iha h2, ihb h3]
    | name hc' | unary hc' | binary hc' | group hc' | letIn hc' | lambda hc' =>
      cases hc.symm.trans hc'
  | letIn hc hp _ _ _ ihv ihb => cases h' with
    | letIn hc' hp' _ hv' hb' =>
      cases hc.symm.trans hc'
      cases hp.symm.trans hp'
      rw [ihv hv', ihb hb']
    | name hc' | unary hc' | binary hc' | group hc' | ifElse hc' | lambda hc' =>
      cases hc.symm.trans hc'
  | lambda hc hp _ _ ih => cases h' with
    | lambda hc' hp' _ hb' =>
      cases hc.symm.trans hc'
      have param : Function.Injective (fun x : String => some (Construct.param ⟨x, none⟩)) := by
        intro x y h
        cases h
        rfl
      rw [List.map_injective_iff.2 param (hp.symm.trans hp'), ih hb']
    | name hc' | unary hc' | binary hc' | group hc' | ifElse hc' | letIn hc' =>
      cases hc.symm.trans hc'

theorem lt_size (h : t.Spells i e) : i < t.size := by
  cases h with
  | name hc | unary hc | binary hc | group hc | ifElse hc | letIn hc | lambda hc =>
    exact lt_size_of_construct hc

/-- Below the root there is an expression of every smaller height. -/
theorem exists_height (h : t.Spells i e) {n : Nat} (hn : n < e.height) :
    ∃ j x, t.Spells j x ∧ x.height = n + 1 := by
  have here : ∀ {i e}, t.Spells i e → ∀ {m}, e.height = m + 1 →
      (n < m → ∃ j x, t.Spells j x ∧ x.height = n + 1) → n < e.height →
      ∃ j x, t.Spells j x ∧ x.height = n + 1 := by
    intro i e h m hm below hn
    rcases Nat.lt_or_eq_of_le (Nat.le_of_lt_succ (hm ▸ hn)) with hn | rfl
    · exact below hn
    · exact ⟨i, e, h, hm⟩
  induction h with
  | name hc hs => exact here (.name hc hs) rfl (fun h => absurd h (Nat.not_lt_zero _)) hn
  | unary hc he ih => exact here (.unary hc he) rfl ih hn
  | binary hc hl hr ihl ihr =>
    refine here (.binary hc hl hr) rfl (fun h => ?_) hn
    rcases lt_max_iff.1 h with h | h
    · exact ihl h
    · exact ihr h
  | group hc he ih => exact here (.group hc he) rfl ih hn
  | ifElse hi hc ha hb ihc iha ihb =>
    refine here (.ifElse hi hc ha hb) rfl (fun h => ?_) hn
    rcases lt_max_iff.1 h with h | h
    · exact ihc h
    · rcases lt_max_iff.1 h with h | h
      · exact iha h
      · exact ihb h
  | letIn hc hp hx hv hb ihv ihb =>
    refine here (.letIn hc hp hx hv hb) rfl (fun h => ?_) hn
    rcases lt_max_iff.1 h with h | h
    · exact ihv h
    · exact ihb h
  | lambda hc hp hx hb ih => exact here (.lambda hc hp hx hb) rfl ih hn

/-- An expression has no more levels than the tree has nodes, since a node has only one height. -/
theorem height_le_size (h : t.Spells i e) : e.height ≤ t.size := by
  let level (n : Nat) (j : NodeIndex) : Prop := ∃ x, t.Spells j x ∧ x.height = n + 1
  have inside : ∀ {n j}, level n j → j < t.size := fun ⟨_, hx, _⟩ => hx.lt_size
  have unique : ∀ {m n j}, level m j → level n j → m = n := by
    rintro m n j ⟨x, hx, hm⟩ ⟨y, hy, hn⟩
    rw [hx.unique hy] at hm
    omega
  exact le_size_of_levels inside unique fun n hn => h.exists_height hn

end Spells

/-! ## What is printed -/

theorem printUpTo_param {n : Nat} (hn : 0 < n) {x : String}
    (h : t.construct? i = some (.param ⟨x, none⟩)) : t.printUpTo n i = x := by
  obtain ⟨m, rfl⟩ := Nat.exists_eq_succ_of_ne_zero (Nat.ne_of_gt hn)
  rw [printUpTo, h]
  exact String.append_empty

theorem map_printUpTo_params {n : Nat} (hn : 0 < n) {ps : List NodeIndex} {xs : List String}
    (h : ps.map t.construct? = xs.map (fun x => some (.param ⟨x, none⟩))) :
    ps.map (t.printUpTo n) = xs := by
  induction ps generalizing xs with
  | nil =>
    cases xs with
    | nil => rfl
    | cons => cases h
  | cons p ps ih =>
    cases xs with
    | nil => cases h
    | cons x xs =>
      obtain ⟨hp, hps⟩ := List.cons.inj h
      rw [List.map_cons, printUpTo_param hn hp, ih hps]

theorem printUpTo_eq_text (h : t.Spells i e) :
    ∀ {n : Nat}, e.height ≤ n → t.printUpTo n i = e.dressed.text := by
  have operand : ∀ {n : Nat} {i : NodeIndex} {e : ExprTree} (p : Nat) (right : Bool),
      t.Spells i e → t.printUpTo n i = e.dressed.text →
      (if needsParens (t.construct? i) p right then inParens (t.printUpTo n i)
        else t.printUpTo n i) = (ExprTree.groupIf (e.needsParens p right) e.dressed).text := by
    intro n i e p right h hp
    rw [h.needsParens_eq, hp, ExprTree.text_groupIf]
  have succ : ∀ {e : ExprTree} {n : Nat}, e.height ≤ n → ∃ m, n = m + 1 := by
    intro e n h
    exact Nat.exists_eq_succ_of_ne_zero (Nat.ne_of_gt (Nat.lt_of_lt_of_le e.height_pos h))
  induction h with
  | name hc hs =>
    intro n hn
    obtain ⟨m, rfl⟩ := succ hn
    rw [printUpTo, hc]
    exact String.append_empty
  | @unary i j o e hc he ih =>
    intro n hn
    obtain ⟨m, rfl⟩ := succ hn
    have hm : e.height ≤ m := Nat.le_of_succ_le_succ hn
    rw [printUpTo, hc]
    simp only [printConstruct]
    rw [operand tightest false he (ih hm)]
    rfl
  | @binary i j k o l r hc hl hr ihl ihr =>
    intro n hn
    obtain ⟨m, rfl⟩ := succ hn
    have hm : max l.height r.height ≤ m := Nat.le_of_succ_le_succ hn
    rw [printUpTo, hc]
    simp only [printConstruct]
    rw [operand o.precedence false hl (ihl (Nat.le_trans (Nat.le_max_left _ _) hm)),
      operand o.precedence true hr (ihr (Nat.le_trans (Nat.le_max_right _ _) hm))]
    rfl
  | @group i j e hc he ih =>
    intro n hn
    obtain ⟨m, rfl⟩ := succ hn
    have hm : e.height ≤ m := Nat.le_of_succ_le_succ hn
    rw [printUpTo, hc]
    show inParens (t.printUpTo m j) = _
    rw [ih hm]
    rfl
  | @ifElse i j k l c a b hi hc ha hb ihc iha ihb =>
    intro n hn
    obtain ⟨m, rfl⟩ := succ hn
    have hm : max c.height (max a.height b.height) ≤ m := Nat.le_of_succ_le_succ hn
    have hab := Nat.le_trans (Nat.le_max_right _ _) hm
    rw [printUpTo, hi]
    show "if (" ++ t.printUpTo m j ++ ") " ++ t.printUpTo m k ++ " else " ++ t.printUpTo m l = _
    rw [ihc (Nat.le_trans (Nat.le_max_left _ _) hm), iha (Nat.le_trans (Nat.le_max_left _ _) hab),
      ihb (Nat.le_trans (Nat.le_max_right _ _) hab)]
    rfl
  | @letIn i p j k x v b hc hp hx hv hb ihv ihb =>
    intro n hn
    obtain ⟨m, rfl⟩ := succ hn
    have hm : max v.height b.height ≤ m := Nat.le_of_succ_le_succ hn
    have hvm := Nat.le_trans (Nat.le_max_left _ _) hm
    rw [printUpTo, hc]
    show "let (" ++ t.printUpTo m p ++ " = " ++ t.printUpTo m j ++ ") " ++ t.printUpTo m k = _
    rw [printUpTo_param (Nat.lt_of_lt_of_le v.height_pos hvm) hp, ihv hvm,
      ihb (Nat.le_trans (Nat.le_max_right _ _) hm)]
    rfl
  | @lambda i ps j xs b hc hp hx hb ih =>
    intro n hn
    obtain ⟨m, rfl⟩ := succ hn
    have hm : b.height ≤ m := Nat.le_of_succ_le_succ hn
    rw [printUpTo, hc]
    show inParens (", ".intercalate (ps.map (t.printUpTo m))) ++ " -> " ++ t.printUpTo m j = _
    rw [map_printUpTo_params (Nat.lt_of_lt_of_le b.height_pos hm) hp, ih hm]
    rfl

/-- What is printed is the text of the tree with the parentheses that its operands need. -/
theorem print_eq_text (h : t.Spells i e) : t.print i = e.dressed.text :=
  printUpTo_eq_text h (Nat.le_succ_of_le h.height_le_size)

/-- The text that is printed for an expression is read as the same tree, parentheses aside. Without
one of the pairs of parentheses around a binary operand that printing adds, it is read as another
tree. -/
theorem read_print (h : t.Spells i e) :
    (∃ y, ExprTree.read (t.print i) = some y ∧ y.bare = e.bare) ∧
    ∀ a, e.Loosened a → Unwrapped (t.print i) a.text ∧
      ∃ y, ExprTree.read a.text = some y ∧ y.bare ≠ e.bare := by
  rw [print_eq_text h]
  refine ⟨⟨e.dressed, ExprTree.read_dressed h.named, e.bare_dressed⟩, fun a ha => ?_⟩
  exact ⟨ha.text, ha.read h.named⟩

/-- The expression `-(a - b) ** if (c) d else e`, without its parentheses. -/
def powerTree : SyntaxTree where
  uri := "file:///power.pkl"
  module := 1
  nodes := #[⟨.access "a" none, .nowhere, some 2⟩, ⟨.access "b" none, .nowhere, some 2⟩,
    ⟨.binary .sub 0 1, .nowhere, some 3⟩, ⟨.unary .neg 2, .nowhere, some 8⟩,
    ⟨.access "c" none, .nowhere, some 7⟩, ⟨.access "d" none, .nowhere, some 7⟩,
    ⟨.access "e" none, .nowhere, some 7⟩, ⟨.ifElse 4 5 6, .nowhere, some 8⟩,
    ⟨.binary .pow 3 7, .nowhere, none⟩]
  root := 8

/-- The difference of the expression needs its parentheses, below the minus sign and below the
power. -/
theorem read_print_power :
    powerTree.print 8 = "-(a - b) ** (if (c) d else e)" ∧
    (∃ y, ExprTree.read (powerTree.print 8) = some y ∧
      y.bare = .binary .pow (.unary .neg (.binary .sub (.name "a") (.name "b")))
        (.ifElse (.name "c") (.name "d") (.name "e"))) ∧
    ∃ y, ExprTree.read "-a - b ** (if (c) d else e)" = some y ∧
      y.bare ≠ .binary .pow (.unary .neg (.binary .sub (.name "a") (.name "b")))
        (.ifElse (.name "c") (.name "d") (.name "e")) := by
  have spells : powerTree.Spells 8
      (.binary .pow (.unary .neg (.binary .sub (.name "a") (.name "b")))
        (.ifElse (.name "c") (.name "d") (.name "e"))) :=
    .binary (j := 3) (k := 7) rfl
      (.unary (j := 2) rfl (.binary (j := 0) (k := 1) rfl (.name rfl (by decide))
        (.name rfl (by decide))))
      (.ifElse (j := 4) (k := 5) (m := 6) rfl (.name rfl (by decide)) (.name rfl (by decide))
        (.name rfl (by decide)))
  obtain ⟨same, other⟩ := read_print spells
  exact ⟨rfl, same, (other _ (.inLeft (.unary rfl rfl))).2⟩

end SyntaxTree

end PklAnalysis
