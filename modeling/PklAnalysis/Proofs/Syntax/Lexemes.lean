import PklAnalysis.Proofs.Syntax.Expression

/-!
# Lexemes of a text

A text is split from left to right: letters are collected as long as they come, two characters that
form a sign are taken before one, and blanks separate. The text of an expression is split into its
lexemes (`ExprTree.lexemesOf_text`), also before other text that does not go on with a letter.
-/

namespace PklAnalysis

namespace Lexeme

/-! ## Splitting a text -/

/-- The characters that signs are made of. -/
def signs : List Char := "+-*/~%=!<>&|?(),".toList

/-- Whether the character belongs to a word. -/
def isLetter (c : Char) : Bool := !c.isWhitespace && !signs.contains c

/-- The sign of two characters. -/
def double? : Char → Char → Option Lexeme
  | '-', '>' => some .arrow
  | c, d => (BinaryOp.all.find? (fun o => o.symbol.toList == [c, d])).map .op

/-- The sign of one character; a blank is none. -/
def single (c : Char) : List Lexeme :=
  if c.isWhitespace then []
  else if c = '!' then [.bang]
  else if c = '=' then [.assign]
  else if c = ',' then [.comma]
  else if c = '(' then [.opening]
  else if c = ')' then [.closing]
  else match BinaryOp.all.find? (fun o => o.symbol.toList == [c]) with
    | some o => [.op o]
    | none => [.stray c]

def ofWord (s : String) : Lexeme :=
  if s = "if" then .ifWord
  else if s = "else" then .elseWord
  else if s = "let" then .letWord
  else .name s

/-- The word of the letters collected so far, if there are any, before the lexemes that come after
it. -/
def afterWord (letters : List Char) (ls : List Lexeme) : List Lexeme :=
  if letters.isEmpty then ls else ofWord (String.ofList letters) :: ls

/-- The lexemes of a text behind the letters of a word that has begun. -/
def scan (letters : List Char) : List Char → List Lexeme
  | [] => afterWord letters []
  | [c] => if isLetter c then afterWord (letters ++ [c]) [] else afterWord letters (single c)
  | c :: d :: cs =>
    if isLetter c then scan (letters ++ [c]) (d :: cs)
    else match double? c d with
      | some l => afterWord letters (l :: scan [] cs)
      | none => afterWord letters (single c ++ scan [] (d :: cs))

end Lexeme

/-- The lexemes of a text. -/
def lexemesOf (cs : List Char) : List Lexeme := Lexeme.scan [] cs

/-- A word that is a name: it has letters only, and it is no word that begins or goes on with a
construct. -/
def IsName (s : String) : Prop :=
  (∀ c ∈ s.toList, Lexeme.isLetter c = true) ∧ s ≠ "" ∧ s ≠ "if" ∧ s ≠ "else" ∧ s ≠ "let"

instance (s : String) : Decidable (IsName s) :=
  @instDecidableAnd _ _ (List.decidableBAll (Lexeme.isLetter · = true) s.toList) inferInstance

namespace Lexeme

variable {c d : Char} {letters cs : List Char}

theorem scan_letter (h : isLetter c = true) (letters cs : List Char) :
    scan letters (c :: cs) = scan (letters ++ [c]) cs := by
  cases cs with
  | nil => simp only [scan, h, if_true]
  | cons d cs => simp only [scan, h, if_true]

theorem scan_letters (h : ∀ c ∈ cs, isLetter c = true) (letters rest : List Char) :
    scan letters (cs ++ rest) = scan (letters ++ cs) rest := by
  induction cs generalizing letters with
  | nil => rw [List.append_nil, List.nil_append]
  | cons c cs ih =>
    rw [List.cons_append, scan_letter (h c List.mem_cons_self),
      ih (fun c hc => h c (List.mem_cons_of_mem _ hc)), List.append_assoc]
    rfl

/-- Whether the text does not go on with a letter. -/
def Ends (cs : List Char) : Prop := ∀ c ∈ cs.head?, isLetter c = false

theorem ends_cons (h : isLetter c = false) (cs : List Char) : Ends (c :: cs) := by
  intro d hd
  cases hd
  exact h

theorem scan_of_ends (h : Ends cs) (letters : List Char) :
    scan letters cs = afterWord letters (lexemesOf cs) := by
  unfold lexemesOf
  match cs with
  | [] => rfl
  | [c] =>
    have hc : isLetter c = false := h c rfl
    simp only [scan, hc, Bool.false_eq_true, if_false]
    rfl
  | c :: d :: cs =>
    have hc : isLetter c = false := h c rfl
    simp only [scan, hc, Bool.false_eq_true, if_false]
    cases double? c d <;> rfl

theorem lexemesOf_word {s : String} (letters : ∀ c ∈ s.toList, isLetter c = true) (hs : s ≠ "")
    {rest : List Char} (h : Ends rest) :
    lexemesOf (s.toList ++ rest) = ofWord s :: lexemesOf rest := by
  have nonempty : s.toList.isEmpty = false := by
    rw [List.isEmpty_eq_false_iff]
    intro h
    exact hs (String.toList_eq_nil_iff.1 h)
  rw [lexemesOf, scan_letters letters, List.nil_append, scan_of_ends h, afterWord, nonempty,
    String.ofList_toList]
  rfl

theorem lexemesOf_name {s : String} (hs : IsName s) {rest : List Char} (h : Ends rest) :
    lexemesOf (s.toList ++ rest) = .name s :: lexemesOf rest := by
  obtain ⟨letters, nonempty, noIf, noElse, noLet⟩ := hs
  rw [lexemesOf_word letters nonempty h, ofWord, if_neg noIf, if_neg noElse, if_neg noLet]

theorem lexemesOf_single (hc : isLetter c = false) (hd : ∀ d ∈ cs.head?, double? c d = none) :
    lexemesOf (c :: cs) = single c ++ lexemesOf cs := by
  unfold lexemesOf
  cases cs with
  | nil =>
    simp only [scan, hc, Bool.false_eq_true, if_false]
    exact (List.append_nil _).symm
  | cons d cs =>
    have := hd d rfl
    simp only [scan, hc, Bool.false_eq_true, if_false, this]
    rfl

theorem lexemesOf_double {l : Lexeme} (hc : isLetter c = false) (h : double? c d = some l) :
    lexemesOf (c :: d :: cs) = l :: lexemesOf cs := by
  unfold lexemesOf
  simp only [scan, hc, Bool.false_eq_true, if_false, h]
  rfl

/-! ## Signs -/

theorem lexemesOf_blank (cs : List Char) : lexemesOf (' ' :: cs) = lexemesOf cs := by
  rw [lexemesOf_single rfl]
  · rfl
  · intro d _
    simp [double?, BinaryOp.all, BinaryOp.symbol]

theorem lexemesOf_opening (cs : List Char) : lexemesOf ('(' :: cs) = .opening :: lexemesOf cs := by
  rw [lexemesOf_single rfl]
  · rfl
  · intro d _
    simp [double?, BinaryOp.all, BinaryOp.symbol]

theorem lexemesOf_closing (cs : List Char) : lexemesOf (')' :: cs) = .closing :: lexemesOf cs := by
  rw [lexemesOf_single rfl]
  · rfl
  · intro d _
    simp [double?, BinaryOp.all, BinaryOp.symbol]

theorem lexemesOf_comma (cs : List Char) : lexemesOf (',' :: cs) = .comma :: lexemesOf cs := by
  rw [lexemesOf_single rfl]
  · rfl
  · intro d _
    simp [double?, BinaryOp.all, BinaryOp.symbol]

theorem lexemesOf_assign (cs : List Char) :
    lexemesOf ('=' :: ' ' :: cs) = .assign :: lexemesOf cs := by
  rw [lexemesOf_single rfl]
  · exact congrArg _ (lexemesOf_blank cs)
  · intro d hd
    cases hd
    rfl

theorem lexemesOf_arrow (cs : List Char) : lexemesOf ('-' :: '>' :: cs) = .arrow :: lexemesOf cs :=
  lexemesOf_double rfl rfl

/-- An operator between blanks. -/
theorem lexemesOf_op (o : BinaryOp) (cs : List Char) :
    lexemesOf (o.symbol.toList ++ ' ' :: cs) = .op o :: lexemesOf cs := by
  have one : ∀ {c : Char}, isLetter c = false → double? c ' ' = none → single c = [.op o] →
      lexemesOf (c :: ' ' :: cs) = .op o :: lexemesOf cs := by
    intro c hc hd hs
    rw [lexemesOf_single hc, hs, lexemesOf_blank]
    · rfl
    · intro d hd'
      cases hd'
      exact hd
  have two : ∀ {c d : Char}, isLetter c = false → double? c d = some (.op o) →
      lexemesOf (c :: d :: ' ' :: cs) = .op o :: lexemesOf cs := by
    intro c d hc hd
    rw [lexemesOf_double hc hd, lexemesOf_blank]
  cases o with
  | add | sub | mul | div | rem | lt | gt => exact one rfl rfl rfl
  | _ => exact two rfl rfl

/-- Whether a text begins as an expression does. -/
def Begins (cs : List Char) : Prop :=
  ∃ c, cs.head? = some c ∧ (isLetter c = true ∨ c = '-' ∨ c = '!' ∨ c = '(')

theorem Begins.append (h : Begins cs) (rest : List Char) : Begins (cs ++ rest) := by
  obtain ⟨c, hc, h⟩ := h
  refine ⟨c, ?_, h⟩
  rw [List.head?_append, hc]
  rfl

/-- A prefix operator makes no longer sign with what it stands before. -/
theorem lexemesOf_unary (o : UnaryOp) (h : Begins cs) :
    lexemesOf (o.symbol.toList ++ cs) = ofUnary o :: lexemesOf cs := by
  have none_of_begins : ∀ d ∈ cs.head?, d ≠ '>' ∧ d ≠ '=' := by
    intro d hd
    obtain ⟨c, hc, h⟩ := h
    cases hc.symm.trans hd
    constructor
    all_goals
      rintro rfl
      rcases h with h | h | h | h <;> cases h
  cases o with
  | neg =>
    show lexemesOf ('-' :: cs) = _
    rw [lexemesOf_single rfl]
    · rfl
    intro d hd
    have hne := (none_of_begins d hd).1
    unfold double?
    split
    · exact absurd rfl hne
    · simp [BinaryOp.all, BinaryOp.symbol]
  | not =>
    show lexemesOf ('!' :: cs) = _
    rw [lexemesOf_single rfl]
    · rfl
    intro d hd
    have hne : ¬ '=' = d := fun h => (none_of_begins d hd).2 h.symm
    simpa [double?, BinaryOp.all, BinaryOp.symbol] using hne

end Lexeme

/-! ## The text of an expression -/

namespace ExprTree

open Lexeme (isLetter ofWord Begins Ends ends_cons lexemesOf_word lexemesOf_name lexemesOf_blank
  lexemesOf_op lexemesOf_opening lexemesOf_closing lexemesOf_comma lexemesOf_assign lexemesOf_arrow
  lexemesOf_unary)

/-- The text of an expression with the parentheses of the tree and no others. -/
def text : ExprTree → String
  | name s => s
  | unary op e => op.symbol ++ e.text
  | binary op l r => l.text ++ " " ++ op.symbol ++ " " ++ r.text
  | group e => SyntaxTree.inParens e.text
  | ifElse c a b => "if (" ++ c.text ++ ") " ++ a.text ++ " else " ++ b.text
  | letIn x v b => "let (" ++ x ++ " = " ++ v.text ++ ") " ++ b.text
  | lambda xs b => SyntaxTree.inParens (", ".intercalate xs) ++ " -> " ++ b.text

/-- All names of the tree are names. -/
def Named : ExprTree → Prop
  | name s => IsName s
  | unary _ e => e.Named
  | binary _ l r => l.Named ∧ r.Named
  | group e => e.Named
  | ifElse c a b => c.Named ∧ a.Named ∧ b.Named
  | letIn x v b => IsName x ∧ v.Named ∧ b.Named
  | lambda xs b => (∀ x ∈ xs, IsName x) ∧ b.Named

theorem begins_text {e : ExprTree} (h : e.Named) : Begins e.text.toList := by
  induction e with
  | name s =>
    obtain ⟨letters, nonempty, -⟩ := h
    cases hs : s.toList with
    | nil => exact absurd (String.toList_eq_nil_iff.1 hs) nonempty
    | cons c cs => exact ⟨c, congrArg List.head? hs, .inl (letters c (hs ▸ List.mem_cons_self))⟩
  | unary op e =>
    cases op with
    | neg => exact ⟨'-', by simp [text, UnaryOp.symbol], .inr (.inl rfl)⟩
    | not => exact ⟨'!', by simp [text, UnaryOp.symbol], .inr (.inr (.inl rfl))⟩
  | binary op l r ihl _ =>
    simp only [text, String.toList_append, List.append_assoc]
    exact (ihl h.1).append _
  | group e => exact ⟨'(', by simp [text, SyntaxTree.inParens], .inr (.inr (.inr rfl))⟩
  | ifElse c a b => exact ⟨'i', by simp [text], .inl rfl⟩
  | letIn x v b => exact ⟨'l', by simp [text], .inl rfl⟩
  | lambda xs b => exact ⟨'(', by simp [text, SyntaxTree.inParens], .inr (.inr (.inr rfl))⟩

theorem lexemesOf_names {xs : List String} (h : ∀ x ∈ xs, IsName x) (rest : List Char) :
    lexemesOf ((", ".intercalate xs).toList ++ ')' :: rest) =
      Lexeme.names xs ++ lexemesOf (')' :: rest) := by
  induction xs using Lexeme.names.induct with
  | case1 => rfl
  | case2 x =>
    rw [String.intercalate_singleton]
    exact lexemesOf_name (h x List.mem_cons_self) (ends_cons rfl rest)
  | case3 x xs hx ih =>
    rw [String.intercalate_cons_of_ne_nil hx, Lexeme.names.eq_3 x xs hx]
    simp only [String.toList_append, List.append_assoc]
    show lexemesOf (x.toList ++ ',' :: ' ' :: ((", ".intercalate xs).toList ++ ')' :: rest)) = _
    rw [lexemesOf_name (h x List.mem_cons_self) (ends_cons rfl _), lexemesOf_comma, lexemesOf_blank,
      ih (fun y hy => h y (List.mem_cons_of_mem x hy))]
    rfl

/-- The text of an expression is split into the lexemes of the tree. -/
theorem lexemesOf_text {e : ExprTree} (he : e.Named) {rest : List Char} (h : Ends rest) :
    lexemesOf (e.text.toList ++ rest) = e.lexemes ++ lexemesOf rest := by
  have word : ∀ {s : String}, (∀ c ∈ s.toList, isLetter c = true) → s ≠ "" → ∀ rest : List Char,
      lexemesOf (s.toList ++ ' ' :: rest) = ofWord s :: lexemesOf rest := by
    intro s letters hs rest
    rw [lexemesOf_word letters hs (ends_cons rfl rest), lexemesOf_blank]
  induction e generalizing rest with
  | name s => exact lexemesOf_name he h
  | unary op e ih =>
    simp only [text, String.toList_append, List.append_assoc]
    have begins : Begins e.text.toList := begins_text he
    rw [lexemesOf_unary op (begins.append rest), ih he h]
    rfl
  | binary op l r ihl ihr =>
    simp only [text, String.toList_append, List.append_assoc]
    show lexemesOf (l.text.toList ++ ' ' :: (op.symbol.toList ++ ' ' ::
      (r.text.toList ++ rest))) = _
    rw [ihl he.1 (ends_cons rfl _), lexemesOf_blank, lexemesOf_op, ihr he.2 h, lexemes,
      List.append_assoc, List.cons_append]
  | group e ih =>
    simp only [text, SyntaxTree.inParens, String.toList_append, List.append_assoc]
    show lexemesOf ('(' :: (e.text.toList ++ ')' :: rest)) = _
    rw [lexemesOf_opening, ih he (ends_cons rfl _), lexemesOf_closing, lexemes, List.cons_append,
      List.append_assoc]
    rfl
  | ifElse c a b ihc iha ihb =>
    obtain ⟨hc, ha, hb⟩ := he
    simp only [text, String.toList_append, List.append_assoc]
    show lexemesOf ("if".toList ++ ' ' :: '(' :: (c.text.toList ++ ')' :: ' ' :: (a.text.toList ++
      ' ' :: ("else".toList ++ ' ' :: (b.text.toList ++ rest))))) = _
    rw [word (List.all_eq_true.1 (by decide)) (by decide), lexemesOf_opening, ihc hc (ends_cons rfl _),
      lexemesOf_closing, lexemesOf_blank, iha ha (ends_cons rfl _), lexemesOf_blank,
      word (List.all_eq_true.1 (by decide)) (by decide), ihb hb h]
    simp only [lexemes, List.append_assoc, List.cons_append]
    rfl
  | letIn x v b ihv ihb =>
    obtain ⟨hx, hv, hb⟩ := he
    simp only [text, String.toList_append, List.append_assoc]
    show lexemesOf ("let".toList ++ ' ' :: '(' :: (x.toList ++ ' ' :: '=' :: ' ' ::
      (v.text.toList ++ ')' :: ' ' :: (b.text.toList ++ rest)))) = _
    rw [word (List.all_eq_true.1 (by decide)) (by decide), lexemesOf_opening, lexemesOf_name hx (ends_cons rfl _),
      lexemesOf_blank, lexemesOf_assign, ihv hv (ends_cons rfl _), lexemesOf_closing,
      lexemesOf_blank, ihb hb h]
    simp only [lexemes, List.append_assoc, List.cons_append]
    rfl
  | lambda xs b ih =>
    obtain ⟨hxs, hb⟩ := he
    simp only [text, SyntaxTree.inParens, String.toList_append, List.append_assoc]
    show lexemesOf ('(' :: ((", ".intercalate xs).toList ++ ')' :: ' ' :: '-' :: '>' :: ' ' ::
      (b.text.toList ++ rest))) = _
    rw [lexemesOf_opening, lexemesOf_names hxs, lexemesOf_closing, lexemesOf_blank, lexemesOf_arrow,
      lexemesOf_blank, ih hb h]
    simp only [lexemes, List.append_assoc, List.cons_append]

end ExprTree

end PklAnalysis
