import PklAnalysis.Proofs.Syntax.Expression

/-!
# The tree that the precedences give

A chain of operands with operators between them is made a tree one operand after the other
(`ExprTree.push`): an operator takes over the right operand of an operator before it that binds less
tightly. `ExprTree.regrouped` does this to every chain of a tree whose parentheses are too few.

In what comes out no operand needs parentheses (`Readable.regrouped`), and where none did before,
nothing changes (`Readable.regrouped_eq`). So a tree with an operand that needs parentheses has the
lexemes of another one.
-/

namespace PklAnalysis

namespace ExprTree

/-! ## Chains of operands -/

/-- An operator and the operand after it. -/
abbrev Link := BinaryOp × ExprTree

/-- One more operator and operand behind an expression. -/
def push : ExprTree → BinaryOp → ExprTree → ExprTree
  | binary q l r, o, x =>
    if q.precedence < o.precedence then binary q l (push r o x) else binary o (binary q l r) x
  | e, o, x => binary o e x

def pushAll (e : ExprTree) (links : List Link) : ExprTree :=
  links.foldl (fun e p => e.push p.1 p.2) e

/-- The first operand of a chain and what comes after it. The operands are regrouped inside. -/
def chain : ExprTree → ExprTree × List Link
  | name s => (name s, [])
  | unary op e => (unary op e.chain.1, e.chain.2)
  | binary op l r => (l.chain.1, l.chain.2 ++ (op, r.chain.1) :: r.chain.2)
  | group e => (group (e.chain.1.pushAll e.chain.2), [])
  | ifElse c a b =>
    (ifElse (c.chain.1.pushAll c.chain.2) (a.chain.1.pushAll a.chain.2)
      (b.chain.1.pushAll b.chain.2), [])
  | letIn x v b => (letIn x (v.chain.1.pushAll v.chain.2) (b.chain.1.pushAll b.chain.2), [])
  | lambda xs b => (lambda xs (b.chain.1.pushAll b.chain.2), [])

/-- The tree for the same lexemes in which only the parentheses and the precedences say what belongs
together. -/
def regrouped (e : ExprTree) : ExprTree := e.chain.1.pushAll e.chain.2

/-- What the links of a chain are written with. -/
def linked (links : List Link) : List Lexeme := links.flatMap (fun p => .op p.1 :: p.2.lexemes)

theorem linked_cons (o : BinaryOp) (x : ExprTree) (links : List Link) :
    linked ((o, x) :: links) = .op o :: (x.lexemes ++ linked links) := rfl

theorem linked_append (ls ms : List Link) : linked (ls ++ ms) = linked ls ++ linked ms :=
  List.flatMap_append

theorem pushAll_cons (e : ExprTree) (o : BinaryOp) (x : ExprTree) (links : List Link) :
    e.pushAll ((o, x) :: links) = (e.push o x).pushAll links := rfl

theorem pushAll_append (e : ExprTree) (ls ms : List Link) :
    e.pushAll (ls ++ ms) = (e.pushAll ls).pushAll ms := List.foldl_append

theorem push_of_lt {q o : BinaryOp} (h : q.precedence < o.precedence) (l r x : ExprTree) :
    (binary q l r).push o x = binary q l (r.push o x) := if_pos h

theorem push_of_le {q o : BinaryOp} (h : o.precedence ≤ q.precedence) (l r x : ExprTree) :
    (binary q l r).push o x = binary o (binary q l r) x := if_neg (Nat.not_lt.2 h)

theorem push_of_not_binary {e : ExprTree} (h : e.isBinary = false) (o : BinaryOp) (x : ExprTree) :
    e.push o x = binary o e x := by
  cases e with
  | binary => cases h
  | _ => rfl

/-! ## The lexemes stay -/

theorem lexemes_push (e : ExprTree) (o : BinaryOp) (x : ExprTree) :
    (e.push o x).lexemes = e.lexemes ++ .op o :: x.lexemes := by
  induction e with
  | binary q l r _ ih =>
    by_cases h : q.precedence < o.precedence
    · rw [push_of_lt h]
      simp only [lexemes, ih, List.append_assoc, List.cons_append]
    · rw [push_of_le (Nat.not_lt.1 h)]
      rfl
  | _ => rfl

theorem lexemes_pushAll (e : ExprTree) (links : List Link) :
    (e.pushAll links).lexemes = e.lexemes ++ linked links := by
  induction links generalizing e with
  | nil => exact (List.append_nil _).symm
  | cons p links ih =>
    obtain ⟨o, x⟩ := p
    rw [pushAll_cons, ih, lexemes_push, linked_cons, List.append_assoc, List.cons_append]

theorem lexemes_chain (e : ExprTree) : e.chain.1.lexemes ++ linked e.chain.2 = e.lexemes := by
  induction e with
  | name s => rfl
  | unary op e ih =>
    simp only [chain, lexemes, List.cons_append, ih]
  | binary op l r ihl ihr =>
    simp only [chain, lexemes, linked_append, linked_cons]
    rw [← List.append_assoc, ihl, ihr]
  | group e ih =>
    simp only [chain, lexemes, lexemes_pushAll, ih]
    exact List.append_nil _
  | ifElse c a b ihc iha ihb =>
    simp only [chain, lexemes, lexemes_pushAll, ihc, iha, ihb]
    exact List.append_nil _
  | letIn x v b ihv ihb =>
    simp only [chain, lexemes, lexemes_pushAll, ihv, ihb]
    exact List.append_nil _
  | lambda xs b ih =>
    simp only [chain, lexemes, lexemes_pushAll, ih]
    exact List.append_nil _

/-- Regrouping keeps every lexeme, parentheses included. -/
theorem lexemes_regrouped (e : ExprTree) : e.regrouped.lexemes = e.lexemes := by
  rw [regrouped, lexemes_pushAll, lexemes_chain]

/-! ## Operands that need no parentheses -/

/-- Whether an expression stays together beside an operator of the given precedence. The operator of
a binary expression has to bind tighter, to the left of the other one at least as tight. -/
def BindsTo (precedence : Nat) (right : Bool) : ExprTree → Prop
  | binary q _ _ => precedence < q.precedence ∨ right = false ∧ precedence = q.precedence
  | _ => True

/-- No binary expression that is an operand needs parentheses. -/
def Readable : ExprTree → Prop
  | name _ => True
  | unary _ e => e.isBinary = false ∧ e.Readable
  | binary o l r =>
    l.BindsTo o.precedence false ∧ r.BindsTo o.precedence true ∧ l.Readable ∧ r.Readable
  | group e => e.Readable
  | ifElse c a b => c.Readable ∧ a.Readable ∧ b.Readable
  | letIn _ v b => v.Readable ∧ b.Readable
  | lambda _ b => b.Readable

theorem bindsTo_of_not_binary {e : ExprTree} (h : e.isBinary = false) (p : Nat) (right : Bool) :
    e.BindsTo p right := by
  cases e with
  | binary => cases h
  | _ => trivial

/-- What binds tighter than an operator still does so with a tight operand behind it. -/
theorem bindsTo_push {e : ExprTree} {p : Nat} {right : Bool} (he : e.BindsTo p right) {o : BinaryOp}
    (ho : p < o.precedence) (x : ExprTree) : (e.push o x).BindsTo p right := by
  cases e with
  | binary q l r =>
    by_cases h : q.precedence < o.precedence
    · rw [push_of_lt h]
      exact he
    · rw [push_of_le (Nat.not_lt.1 h)]
      exact .inl ho
  | _ => exact .inl ho

theorem Readable.push {e x : ExprTree} (he : e.Readable) (hx : x.Readable)
    (hb : x.isBinary = false) (o : BinaryOp) : (e.push o x).Readable := by
  induction e with
  | binary q l r _ ih =>
    obtain ⟨hl, hr, hlr, hrr⟩ := he
    by_cases h : q.precedence < o.precedence
    · rw [push_of_lt h]
      exact ⟨hl, bindsTo_push hr h x, hlr, ih hrr⟩
    · rw [push_of_le (Nat.not_lt.1 h)]
      refine ⟨?_, bindsTo_of_not_binary hb _ _, ⟨hl, hr, hlr, hrr⟩, hx⟩
      show o.precedence < q.precedence ∨ _ ∧ o.precedence = q.precedence
      have := Nat.not_lt.1 h
      rcases Nat.lt_or_eq_of_le this with h | h
      · exact .inl h
      · exact .inr ⟨rfl, h⟩
  | _ =>
    rw [push_of_not_binary rfl]
    exact ⟨trivial, bindsTo_of_not_binary hb _ _, he, hx⟩

/-- An operand of a chain that is regrouped. -/
def Atomic (e : ExprTree) : Prop := e.isBinary = false ∧ e.Readable

theorem Readable.pushAll {e : ExprTree} (he : e.Readable) {links : List Link}
    (hl : ∀ p ∈ links, p.2.Atomic) : (e.pushAll links).Readable := by
  induction links generalizing e with
  | nil => exact he
  | cons p links ih =>
    obtain ⟨hb, hx⟩ := hl p List.mem_cons_self
    exact ih (he.push hx hb p.1) (fun q hq => hl q (List.mem_cons_of_mem p hq))

theorem atomic_chain (e : ExprTree) : e.chain.1.Atomic ∧ ∀ p ∈ e.chain.2, p.2.Atomic := by
  have whole : ∀ {e : ExprTree}, (e.chain.1.Atomic ∧ ∀ p ∈ e.chain.2, p.2.Atomic) →
      (e.chain.1.pushAll e.chain.2).Readable := fun h => h.1.2.pushAll h.2
  induction e with
  | name s => exact ⟨⟨rfl, trivial⟩, List.forall_mem_nil _⟩
  | unary op e ih => exact ⟨⟨rfl, ih.1⟩, ih.2⟩
  | binary op l r ihl ihr =>
    refine ⟨ihl.1, fun p hp => ?_⟩
    rcases List.mem_append.1 hp with hp | hp
    · exact ihl.2 p hp
    · rcases List.mem_cons.1 hp with rfl | hp
      · exact ihr.1
      · exact ihr.2 p hp
  | group e ih => exact ⟨⟨rfl, whole ih⟩, List.forall_mem_nil _⟩
  | ifElse c a b ihc iha ihb =>
    exact ⟨⟨rfl, whole ihc, whole iha, whole ihb⟩, List.forall_mem_nil _⟩
  | letIn x v b ihv ihb => exact ⟨⟨rfl, whole ihv, whole ihb⟩, List.forall_mem_nil _⟩
  | lambda xs b ih => exact ⟨⟨rfl, whole ih⟩, List.forall_mem_nil _⟩

/-- In a regrouped tree no operand needs parentheses. -/
theorem Readable.regrouped (e : ExprTree) : e.regrouped.Readable :=
  e.atomic_chain.1.2.pushAll e.atomic_chain.2

/-! ## Trees that stay -/

/-- Operators that bind tighter than the outermost one belong to its right operand. -/
theorem pushAll_binary {o : BinaryOp} (l : ExprTree) {links : List Link}
    (h : ∀ p ∈ links, o.precedence < p.1.precedence) (b : ExprTree) :
    (binary o l b).pushAll links = binary o l (b.pushAll links) := by
  induction links generalizing b with
  | nil => rfl
  | cons p links ih =>
    obtain ⟨q, x⟩ := p
    rw [pushAll_cons, pushAll_cons, push_of_lt (h _ List.mem_cons_self)]
    exact ih (fun p hp => h p (List.mem_cons_of_mem _ hp)) _

theorem push_of_bindsTo {e : ExprTree} {o : BinaryOp} (h : e.BindsTo o.precedence false)
    (x : ExprTree) : e.push o x = binary o e x := by
  cases e with
  | binary q l r =>
    apply push_of_le
    rcases h with h | h
    · exact Nat.le_of_lt h
    · exact Nat.le_of_eq h.2
  | _ => rfl

theorem Readable.links_eq_nil {e : ExprTree} (he : e.Readable) (hb : e.isBinary = false) :
    e.chain.2 = [] := by
  induction e with
  | unary op e ih => exact ih he.2 he.1
  | binary => cases hb
  | _ => rfl

/-- Where an expression stays together to the right of an operator, all operators of its chain bind
tighter than that one. -/
theorem Readable.lt_of_mem_links {e : ExprTree} (he : e.Readable) {p : Nat}
    (hp : e.BindsTo p true) : ∀ q ∈ e.chain.2, p < q.1.precedence := by
  induction e generalizing p with
  | binary o l r ihl ihr =>
    obtain ⟨hl, hr, hlr, hrr⟩ := he
    have ho : p < o.precedence := by
      rcases hp with hp | hp
      · exact hp
      · cases hp.1
    intro q hq
    rcases List.mem_append.1 hq with hq | hq
    · apply ihl hlr ?_ q hq
      cases l with
      | binary o' =>
        rcases hl with hl | hl
        · exact .inl (Nat.lt_trans ho hl)
        · exact .inl (hl.2 ▸ ho)
      | _ => trivial
    · rcases List.mem_cons.1 hq with rfl | hq
      · exact ho
      · exact Nat.lt_trans ho (ihr hrr hr q hq)
  | unary op e ih =>
    intro q hq
    rw [Readable.links_eq_nil he rfl] at hq
    cases hq
  | _ => exact List.forall_mem_nil _

/-- A tree in which no operand needs parentheses stays as it is. -/
theorem Readable.regrouped_eq {e : ExprTree} (he : e.Readable) : e.regrouped = e := by
  unfold ExprTree.regrouped
  induction e with
  | name s => rfl
  | unary op e ih =>
    have h := ih he.2
    rw [Readable.links_eq_nil he.2 he.1] at h
    show (unary op e.chain.1).pushAll e.chain.2 = _
    rw [Readable.links_eq_nil he.2 he.1]
    exact congrArg (unary op) h
  | binary o l r ihl ihr =>
    obtain ⟨hl, hr, hlr, hrr⟩ := he
    show l.chain.1.pushAll (l.chain.2 ++ (o, r.chain.1) :: r.chain.2) = _
    rw [pushAll_append, ihl hlr, pushAll_cons, push_of_bindsTo hl,
      pushAll_binary l (hrr.lt_of_mem_links hr), ihr hrr]
  | group e ih => exact congrArg group (ih he)
  | ifElse c a b ihc iha ihb =>
    show ifElse _ _ _ = _
    rw [ihc he.1, iha he.2.1, ihb he.2.2]
  | letIn x v b ihv ihb =>
    show letIn x _ _ = _
    rw [ihv he.1, ihb he.2]
  | lambda xs b ih => exact congrArg (lambda xs) (ih he)

/-- Regrouping changes the tree below the parentheses, or nothing. -/
theorem Readable.of_bare_regrouped {e : ExprTree} (h : e.regrouped.bare = e.bare) : e.Readable := by
  rw [← eq_of_lexemes h (lexemes_regrouped e)]
  exact Readable.regrouped e

end ExprTree

end PklAnalysis
