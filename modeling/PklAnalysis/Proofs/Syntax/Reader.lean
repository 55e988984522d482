import PklAnalysis.Proofs.Syntax.Lexemes
import PklAnalysis.Proofs.Syntax.Precedence

/-!
# Reading expressions

An expression is a chain of operands that the precedences of the operators make a tree. A prefix
operator takes one operand. `if`, `let` and lambdas take whole expressions, the last one as far as
it goes.

Reading the text of a tree gives the tree that its parentheses and the precedences ask for
(`ExprTree.read_text`), provided no operand goes on to the right without end.
-/

namespace PklAnalysis

namespace ExprTree

/-! ## The reader -/

/-- The lexemes after the expected one. -/
def skip (l : Lexeme) : List Lexeme → Option (List Lexeme)
  | [] => none
  | m :: ls => if m = l then some ls else none

/-- One name or more, up to the arrow of the lambda. -/
def laterParams : List Lexeme → Option (List String × List Lexeme)
  | .name x :: .closing :: .arrow :: ls => some ([x], ls)
  | .name x :: .comma :: ls => (laterParams ls).map (fun p => (x :: p.1, p.2))
  | _ => none

/-- The parameters behind an opening parenthesis, if a lambda begins with it. -/
def params : List Lexeme → Option (List String × List Lexeme)
  | .closing :: .arrow :: ls => some ([], ls)
  | ls => laterParams ls

section

variable (operand : List Lexeme → Option (ExprTree × List Lexeme))

/-- The operators and operands after an expression, at most `k` of them. -/
def links : Nat → ExprTree → List Lexeme → Option (ExprTree × List Lexeme)
  | k + 1, e, .op o :: ls => do
    let (x, ls) ← operand ls
    links k (e.push o x) ls
  | _, e, ls => some (e, ls)

/-- An operand with all operators and operands after it. -/
def expressionOf (ls : List Lexeme) : Option (ExprTree × List Lexeme) := do
  let (e, ls) ← operand ls
  links operand ls.length e ls

end

/-- One operand whose constructs nest at most `n` deep. -/
def operand : Nat → List Lexeme → Option (ExprTree × List Lexeme)
  | 0, _ => none
  | n + 1, ls =>
    match ls with
    | .name x :: ls => some (name x, ls)
    | .op .sub :: ls => do
      let (e, ls) ← operand n ls
      return (unary .neg e, ls)
    | .bang :: ls => do
      let (e, ls) ← operand n ls
      return (unary .not e, ls)
    | .ifWord :: .opening :: ls => do
      let (c, ls) ← expressionOf (operand n) ls
      let ls ← skip .closing ls
      let (a, ls) ← expressionOf (operand n) ls
      let ls ← skip .elseWord ls
      let (b, ls) ← expressionOf (operand n) ls
      return (ifElse c a b, ls)
    | .letWord :: .opening :: .name x :: .assign :: ls => do
      let (v, ls) ← expressionOf (operand n) ls
      let ls ← skip .closing ls
      let (b, ls) ← expressionOf (operand n) ls
      return (letIn x v b, ls)
    | .opening :: ls =>
      match params ls with
      | some (xs, ls) => do
        let (b, ls) ← expressionOf (operand n) ls
        return (lambda xs b, ls)
      | none => do
        let (e, ls) ← expressionOf (operand n) ls
        let ls ← skip .closing ls
        return (group e, ls)
    | _ => none

/-- The expression that a text is, as a whole. -/
def read (text : String) : Option ExprTree :=
  let ls := lexemesOf text.toList
  match expressionOf (operand ls.length) ls with
  | some (e, []) => some e
  | _ => none

/-! ## Parameters -/

theorem laterParams_names {xs : List String} (h : xs ≠ []) (ls : List Lexeme) :
    laterParams (Lexeme.names xs ++ .closing :: .arrow :: ls) = some (xs, ls) := by
  induction xs using Lexeme.names.induct with
  | case1 => exact absurd rfl h
  | case2 x => rfl
  | case3 x xs hx ih =>
    rw [Lexeme.names.eq_3 x xs hx]
    show (laterParams (Lexeme.names xs ++ _)).map _ = _
    rw [ih hx]
    rfl

theorem params_names (xs : List String) (ls : List Lexeme) :
    params (Lexeme.names xs ++ .closing :: .arrow :: ls) = some (xs, ls) := by
  match xs with
  | [] => rfl
  | [x] => rfl
  | x :: y :: xs =>
    show laterParams (Lexeme.names (x :: y :: xs) ++ _) = _
    exact laterParams_names (List.cons_ne_nil x (y :: xs)) ls

/-- An expression that no parameter list can go on with is no parameter list. -/
theorem params_lexemes (e : ExprTree) {ls : List Lexeme}
    (h : ∀ x, laterParams (.name x :: ls) = none) : params (e.lexemes ++ ls) = none := by
  induction e generalizing ls with
  | name x => exact h x
  | unary op e => cases op <;> rfl
  | binary op l r ihl _ =>
    simp only [lexemes, List.append_assoc]
    exact ihl (fun x => rfl)
  | group e => rfl
  | ifElse c a b => rfl
  | letIn x v b => rfl
  | lambda xs b => rfl

/-! ## Reading what a tree stands for -/

/-- The lexemes that can stand behind an expression, with or without parentheses to the right of it.
An arrow is none of them, and neither is an operator if the expression would go on with it. -/
def Follows (e : ExprTree) (ls : List Lexeme) : Prop :=
  ls.head? ≠ some .arrow ∧ (e.isOpen = true → ∀ o, ls.head? ≠ some (.op o))

/-- Whether the operand is read back before whatever can follow it. -/
def ReadBack (n : Nat) (e : ExprTree) : Prop :=
  ∀ ls, e.Follows ls → operand n (e.lexemes ++ ls) = some (e, ls)

/-- No operand of an operator goes on as far to the right as it can. -/
def Enclosed : ExprTree → Prop
  | name _ => True
  | unary _ e => e.isOpen = false ∧ e.Enclosed
  | binary _ l r => l.isOpen = false ∧ r.isOpen = false ∧ l.Enclosed ∧ r.Enclosed
  | group e => e.Enclosed
  | ifElse c a b => c.Enclosed ∧ a.Enclosed ∧ b.Enclosed
  | letIn _ v b => v.Enclosed ∧ b.Enclosed
  | lambda _ b => b.Enclosed

theorem links_of_not_op (n k : Nat) (e : ExprTree) {ls : List Lexeme}
    (h : ∀ o, ls.head? ≠ some (.op o)) : links (operand n) k e ls = some (e, ls) := by
  unfold links
  split
  · exact absurd rfl (h _)
  · rfl

/-- Operands that are read back one by one are read back as a chain. -/
theorem links_linked {n k : Nat} {e : ExprTree} {ps : List Link}
    (h : ∀ p ∈ ps, p.2.isOpen = false ∧ ReadBack n p.2) (hk : ps.length ≤ k) {ls : List Lexeme}
    (arrow : ls.head? ≠ some .arrow) (op : ∀ o, ls.head? ≠ some (.op o)) :
    links (operand n) k e (linked ps ++ ls) = some (e.pushAll ps, ls) := by
  induction ps generalizing k e with
  | nil => exact links_of_not_op n k e op
  | cons p ps ih =>
    obtain ⟨o, x⟩ := p
    obtain ⟨closed, hx⟩ := h _ List.mem_cons_self
    cases k with
    | zero => exact absurd hk (Nat.not_succ_le_zero _)
    | succ k =>
      have follows : x.Follows (linked ps ++ ls) := by
        refine ⟨?_, fun hopen => absurd (closed.symm.trans hopen) Bool.false_ne_true⟩
        cases ps with
        | nil => exact arrow
        | cons p ps => exact fun h => nomatch h
      rw [linked_cons, List.cons_append, List.append_assoc, links, hx _ follows]
      exact ih (fun p hp => h p (List.mem_cons_of_mem _ hp)) (Nat.le_of_succ_le_succ hk)

theorem length_le_linked (ps : List Link) : ps.length ≤ (linked ps).length := by
  induction ps with
  | nil => exact Nat.le_refl 0
  | cons p ps ih =>
    obtain ⟨o, x⟩ := p
    simp only [linked_cons, List.length_cons, List.length_append]
    omega

/-- Whether the operands of the regrouped chain are read back. -/
def ChainReadBack (n : Nat) (e : ExprTree) : Prop :=
  ReadBack n e.chain.1 ∧ ∀ p ∈ e.chain.2, p.2.isOpen = false ∧ ReadBack n p.2

theorem chain_of_isOpen {e : ExprTree} (h : e.isOpen = true) : e.chain.2 = [] := by
  cases e with
  | ifElse | letIn | lambda => rfl
  | _ => cases h

theorem Enclosed.isOpen_chain {e : ExprTree} (he : e.Enclosed) : e.chain.1.isOpen = e.isOpen := by
  induction e with
  | binary o l r ihl _ => exact (ihl he.2.2.1).trans he.1
  | _ => rfl

/-- A chain whose operands are read back is read as the regrouped tree. -/
theorem ChainReadBack.expression {n : Nat} {e : ExprTree} (h : ChainReadBack n e) (he : e.Enclosed)
    {ls : List Lexeme} (arrow : ls.head? ≠ some .arrow) (op : ∀ o, ls.head? ≠ some (.op o)) :
    expressionOf (operand n) (e.lexemes ++ ls) = some (e.regrouped, ls) := by
  have follows : e.chain.1.Follows (linked e.chain.2 ++ ls) := by
    constructor
    · cases e.chain.2 with
      | nil => exact arrow
      | cons p ps => exact fun h => nomatch h
    · intro hopen
      rw [chain_of_isOpen (he.isOpen_chain.symm.trans hopen)]
      exact op
  rw [expressionOf, ← lexemes_chain, List.append_assoc, h.1 _ follows]
  apply links_linked h.2 _ arrow op
  rw [List.length_append]
  exact Nat.le_add_right_of_le (length_le_linked e.chain.2)

theorem operand_lambda (n : Nat) {ls rest : List Lexeme} {xs : List String}
    (h : params ls = some (xs, rest)) :
    operand (n + 1) (.opening :: ls) = (do
      let (b, ls) ← expressionOf (operand n) rest
      return (lambda xs b, ls)) := by
  simp only [operand, h]

theorem operand_group (n : Nat) {ls : List Lexeme} (h : params ls = none) :
    operand (n + 1) (.opening :: ls) = (do
      let (e, ls) ← expressionOf (operand n) ls
      let ls ← skip .closing ls
      return (group e, ls)) := by
  simp only [operand, h]

/-- Every operand of a chain is read back by a reader that goes as deep as it nests. -/
theorem chainReadBack {e : ExprTree} (he : e.Enclosed) :
    ∀ {n : Nat}, e.height ≤ n → ChainReadBack n e := by
  have whole : ∀ {n : Nat} {e : ExprTree}, e.Enclosed → ChainReadBack n e → ∀ (l : Lexeme) {ls},
      l = .closing ∨ l = .elseWord →
      expressionOf (operand n) (e.lexemes ++ l :: ls) = some (e.regrouped, l :: ls) := by
    intro n e he h l ls hl
    apply h.expression he
    · rcases hl with rfl | rfl <;> exact fun h => nomatch h
    · rcases hl with rfl | rfl <;> exact fun _ h => nomatch h
  induction e with
  | name s =>
    intro n hn
    obtain ⟨m, rfl⟩ := Nat.exists_eq_succ_of_ne_zero (Nat.ne_of_gt hn)
    exact ⟨fun ls _ => rfl, List.forall_mem_nil _⟩
  | unary op e ih =>
    obtain ⟨closed, he⟩ := he
    intro n hn
    obtain ⟨m, rfl⟩ := Nat.exists_eq_succ_of_ne_zero (Nat.ne_of_gt (Nat.zero_lt_of_lt hn))
    refine ⟨fun ls hls => ?_, (ih he (Nat.le_of_succ_le hn)).2⟩
    have follows : e.chain.1.Follows ls := by
      refine ⟨hls.1, fun hopen => ?_⟩
      rw [he.isOpen_chain, closed] at hopen
      cases hopen
    have back := (ih he (Nat.le_of_succ_le_succ hn)).1 ls follows
    cases op with
    | neg =>
      show (operand m (e.chain.1.lexemes ++ ls) >>= _) = _
      rw [back]
      rfl
    | not =>
      show (operand m (e.chain.1.lexemes ++ ls) >>= _) = _
      rw [back]
      rfl
  | binary op l r ihl ihr =>
    obtain ⟨hl, hr, hle, hre⟩ := he
    intro n hn
    have hn' := Nat.le_of_succ_le hn
    have left := ihl hle (Nat.le_trans (Nat.le_max_left _ _) hn')
    have right := ihr hre (Nat.le_trans (Nat.le_max_right _ _) hn')
    refine ⟨left.1, fun p hp => ?_⟩
    rcases List.mem_append.1 hp with hp | hp
    · exact left.2 p hp
    · rcases List.mem_cons.1 hp with rfl | hp
      · exact ⟨hre.isOpen_chain.trans hr, right.1⟩
      · exact right.2 p hp
  | group e ih =>
    have he : e.Enclosed := he
    intro n hn
    obtain ⟨m, rfl⟩ := Nat.exists_eq_succ_of_ne_zero (Nat.ne_of_gt (Nat.zero_lt_of_lt hn))
    refine ⟨fun ls hls => ?_, List.forall_mem_nil _⟩
    have inner : expressionOf (operand m) (e.lexemes ++ .closing :: ls) =
        some (e.regrouped, .closing :: ls) :=
      whole he (ih he (Nat.le_of_succ_le_succ hn)) .closing (.inl rfl)
    have none : params (e.lexemes ++ .closing :: ls) = none := by
      apply params_lexemes
      intro x
      cases ls with
      | nil => rfl
      | cons l ls =>
        cases l with
        | arrow => exact absurd rfl hls.1
        | _ => rfl
    show operand (m + 1) (.opening :: (e.regrouped.lexemes ++ [.closing]) ++ ls) = _
    rw [lexemes_regrouped, List.cons_append, List.append_assoc]
    show operand (m + 1) (.opening :: (e.lexemes ++ .closing :: ls)) = _
    rw [operand_group m none, inner]
    rfl
  | ifElse c a b ihc iha ihb =>
    obtain ⟨hc, ha, hb⟩ := he
    intro n hn
    obtain ⟨m, rfl⟩ := Nat.exists_eq_succ_of_ne_zero (Nat.ne_of_gt (Nat.zero_lt_of_lt hn))
    have hm := Nat.le_of_succ_le_succ hn
    have hab := Nat.le_trans (Nat.le_max_right _ _) hm
    refine ⟨fun ls hls => ?_, List.forall_mem_nil _⟩
    show operand (m + 1) (.ifWord :: .opening :: (c.regrouped.lexemes ++ .closing ::
      (a.regrouped.lexemes ++ .elseWord :: b.regrouped.lexemes)) ++ ls) = _
    rw [lexemes_regrouped, lexemes_regrouped, lexemes_regrouped]
    simp only [List.cons_append, List.append_assoc]
    show (expressionOf (operand m) (c.lexemes ++ .closing :: (a.lexemes ++ .elseWord ::
      (b.lexemes ++ ls))) >>= _) = _
    rw [whole hc (ihc hc (Nat.le_trans (Nat.le_max_left _ _) hm)) .closing (.inl rfl)]
    show (expressionOf (operand m) (a.lexemes ++ .elseWord :: (b.lexemes ++ ls)) >>= _) = _
    rw [whole ha (iha ha (Nat.le_trans (Nat.le_max_left _ _) hab)) .elseWord (.inr rfl)]
    show (expressionOf (operand m) (b.lexemes ++ ls) >>= _) = _
    rw [(ihb hb (Nat.le_trans (Nat.le_max_right _ _) hab)).expression hb hls.1 (hls.2 rfl)]
    rfl
  | letIn x v b ihv ihb =>
    obtain ⟨hv, hb⟩ := he
    intro n hn
    obtain ⟨m, rfl⟩ := Nat.exists_eq_succ_of_ne_zero (Nat.ne_of_gt (Nat.zero_lt_of_lt hn))
    have hm := Nat.le_of_succ_le_succ hn
    refine ⟨fun ls hls => ?_, List.forall_mem_nil _⟩
    show operand (m + 1) (.letWord :: .opening :: .name x :: .assign :: (v.regrouped.lexemes ++
      .closing :: b.regrouped.lexemes) ++ ls) = _
    rw [lexemes_regrouped, lexemes_regrouped]
    simp only [List.cons_append, List.append_assoc]
    show (expressionOf (operand m) (v.lexemes ++ .closing :: (b.lexemes ++ ls)) >>= _) = _
    rw [whole hv (ihv hv (Nat.le_trans (Nat.le_max_left _ _) hm)) .closing (.inl rfl)]
    show (expressionOf (operand m) (b.lexemes ++ ls) >>= _) = _
    rw [(ihb hb (Nat.le_trans (Nat.le_max_right _ _) hm)).expression hb hls.1 (hls.2 rfl)]
    rfl
  | lambda xs b ih =>
    have he : b.Enclosed := he
    intro n hn
    obtain ⟨m, rfl⟩ := Nat.exists_eq_succ_of_ne_zero (Nat.ne_of_gt (Nat.zero_lt_of_lt hn))
    refine ⟨fun ls hls => ?_, List.forall_mem_nil _⟩
    show operand (m + 1) (.opening :: (Lexeme.names xs ++ .closing :: .arrow ::
      b.regrouped.lexemes) ++ ls) = _
    rw [lexemes_regrouped]
    simp only [List.cons_append, List.append_assoc]
    rw [operand_lambda m (params_names xs _),
      (ih he (Nat.le_of_succ_le_succ hn)).expression he hls.1 (hls.2 rfl)]
    rfl

/-- The text of a tree is read as the tree with its operands regrouped by precedence. -/
theorem read_text {e : ExprTree} (named : e.Named) (he : e.Enclosed) :
    read e.text = some e.regrouped := by
  have split : lexemesOf e.text.toList = e.lexemes := by
    have ends : Lexeme.Ends [] := fun _ h => nomatch h
    have h := lexemesOf_text named ends
    rw [List.append_nil] at h
    rw [h]
    exact List.append_nil _
  have whole : expressionOf (operand e.lexemes.length) (e.lexemes ++ []) = some (e.regrouped, []) :=
    (chainReadBack he e.height_le_length).expression he (fun h => nomatch h) (fun _ h => nomatch h)
  rw [List.append_nil] at whole
  unfold read
  rw [split]
  simp only [whole]

end ExprTree

end PklAnalysis
