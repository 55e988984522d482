import Mathlib.Data.List.Nodup
import PklAnalysis.Proofs.Session.Depth
import PklAnalysis.Proofs.Session.Rendered
import PklAnalysis.Proofs.Session.Sealed
import PklAnalysis.Proofs.Session.Stage
import PklAnalysis.Proofs.Session.Substitution

/-!
# Texts with full names tell types apart

Types with one text are below each other, in every session in which what an alias stands for does
not hang on what was asked before (`isSubtype_of_text`). In the session `sides` it does: the two
functions in
```
typealias Side = (("a") -> unknown) -> (nothing) -> (nothing) -> unknown | (first.A) -> middle.A
```
mention two aliases of the chain. When nothing of the chain is remembered, both are too far from its
end, and `Side` comes to the first function. Once an alias further on is remembered, `middle.A` is
near but `first.A` is not, and `Side` comes to the second one. In between the first function was asked
for, so a union with `Side` in it is not below the same union grouped differently
(`not_isSubtype_of_text`).
-/

namespace PklAnalysis

open Session

/-! ## Distinct names -/

namespace Standard

/-- The classes and aliases of the standard library have names without marks, and different ones. -/
theorem sound_names :
    (∀ p ∈ std.tree.nodes.toList.zipIdx, (p.1.construct.isClass || p.1.construct.isAlias) = true →
      Form.Plain (p.1.construct.name?.getD "?").toList) ∧
    ((std.tree.nodes.toList.zipIdx.filter
      (fun p => p.1.construct.isClass || p.1.construct.isAlias)).map
        (fun p => p.1.construct.name?.getD "?")).Nodup ∧
    std.tree.moduleName? = some "base" := by
  decide +kernel

end Standard

namespace ModuleSource.DistinctNames

variable {src : ModuleSource}

theorem label_base (src : ModuleSource) : src.label ModuleId.base = "base" := by
  have tree : src.treeOf ModuleId.base = some std.tree := if_pos rfl
  unfold label
  rw [tree]
  dsimp only
  rw [Standard.sound_names.2.2]
  rfl

theorem nameOf_eq {d : NodeRef} {c : Construct} (h : src.construct? d = some c) :
    src.nameOf d = c.name?.getD "?" := by
  unfold nameOf
  rw [h]
  rfl

/-- Only the names outside of the standard library are in question. -/
theorem of_modules (labels : ∀ {m t}, m ≠ ModuleId.base → src.treeOf m = some t →
      Form.Plain (src.label m).toList ∧ src.label m ≠ "base" ∧
        ∀ {n s}, n ≠ ModuleId.base → src.treeOf n = some s → src.label m = src.label n → m = n)
    (plain : ∀ {d c}, d.module ≠ ModuleId.base → src.construct? d = some c →
      (c.isClass || c.isAlias) = true → Form.Plain (src.nameOf d).toList)
    (different : ∀ {m i j b c}, m ≠ ModuleId.base → src.construct? ⟨m, i⟩ = some b →
      src.construct? ⟨m, j⟩ = some c → (b.isClass || b.isAlias) = true →
      (c.isClass || c.isAlias) = true → src.nameOf ⟨m, i⟩ = src.nameOf ⟨m, j⟩ → i = j) :
    src.DistinctNames where
  label_plain {m t} ht := by
    by_cases hm : m = ModuleId.base
    · rw [hm, label_base]
      decide
    · exact (labels hm ht).1
  label_injective {m n s t} hs ht e := by
    by_cases hm : m = ModuleId.base
    · by_cases hn : n = ModuleId.base
      · rw [hm, hn]
      · rw [hm, label_base] at e
        exact absurd e.symm (labels hn ht).2.1
    · by_cases hn : n = ModuleId.base
      · rw [hn, label_base] at e
        exact absurd e (labels hm hs).2.1
      · exact (labels hm hs).2.2 hn ht e
  name_plain {d c} hc hn := by
    by_cases hd : d.module = ModuleId.base
    · obtain ⟨i, rfl⟩ := exists_base hd
      rw [nameOf_eq hc]
      rw [construct?_base] at hc
      obtain ⟨n, rfl, hmem⟩ := SyntaxTree.mem_nodes hc
      exact Standard.sound_names.1 (n, i) hmem hn
    · exact plain hd hc hn
  name_injective {m i j b c} hb hc nb nc e := by
    by_cases hm : m = ModuleId.base
    · subst hm
      rw [nameOf_eq hb, nameOf_eq hc] at e
      rw [construct?_base] at hb hc
      obtain ⟨x, rfl, hx⟩ := SyntaxTree.mem_nodes hb
      obtain ⟨y, rfl, hy⟩ := SyntaxTree.mem_nodes hc
      have same := List.inj_on_of_nodup_map Standard.sound_names.2.1
        (List.mem_filter.2 ⟨hx, nb⟩) (List.mem_filter.2 ⟨hy, nc⟩) e
      exact congrArg Prod.snd same
    · exact different hm hb hc nb nc e

end ModuleSource.DistinctNames

namespace Session

variable {src : ModuleSource}

/-- Types with one text are below each other, as long as aliases always stand for the same types. -/
theorem isSubtype_of_text (names : src.DistinctNames) (settled : ∀ d, Settled src (.expansion d [] []))
    {t u : Ty} (ht : Written src t) (hu : Written src u) {m m' : Memory} (hm : Reachable src m)
    (hm' : Reachable src m')
    (e : (run src (t.render .full) m).1 = (run src (u.render .full) m').1) :
    Gives src (t.isSubtype u) true ∧ Gives src (u.isSubtype t) true := by
  rw [ht.gives_render m hm, hu.gives_render m' hm'] at e
  have text : (t.form src).text = (u.form src).text := String.ofList_injective e
  have form := (ht.readable_form names).text_injective (hu.readable_form names) text
  obtain ⟨there, back⟩ := ht.mutual_of_form names (uniform_sealed settled) hu form
  exact ⟨gives_isSubtype_of_below settled there, gives_isSubtype_of_below settled back⟩

end Session

/-! ## Unions grouped differently -/

section

variable {src : ModuleSource}

/-- The text of a union does not tell how it is grouped. -/
theorem Ty.form_union_assoc {x y z : Ty} (hx : std.isNullClass x = false)
    (hy : std.isNullClass y = false) (hz : std.isNullClass z = false) (c k : Constraints) :
    (Ty.union (.union x y c) z k).form src = (Ty.union x (.union y z c) k).form src := by
  have union : ∀ {t u : Ty} {c : Constraints}, std.isNullClass t = false →
      std.isNullClass u = false → (Ty.union t u c).form src =
        .choice ((t.form src).alternatives ++ (u.form src).alternatives) := by
    intro t u c ht hu
    rw [Ty.form, ht, hu, Bool.false_and, if_neg Bool.false_ne_true, if_neg Bool.false_ne_true]
  rw [union rfl hz, union hx hy, union hx rfl, union hy hz]
  exact congrArg Form.choice (List.append_assoc ..)

/-- A class of the standard library can be written with as many arguments as it has parameters. -/
theorem Written.of_isClass {d : NodeRef} {as : List Ty} (h : Standard.IsClass d as.length)
    (ha : ∀ a ∈ as, Written src a) : Written src (.cls d as []) := by
  obtain ⟨m, i⟩ := d
  obtain ⟨rfl, hc, hn⟩ := h
  obtain ⟨c, hc, class_⟩ := Option.map_eq_some_iff.1 hc
  cases c with
  | classDecl c =>
    rw [SyntaxTree.params, hc] at hn
    exact .cls ((src.construct?_base i).trans hc) (hn.trans (List.length_map _)) ha
  | _ => cases class_

end

namespace Session

theorem distinctNames_nowhere : Check.nowhere.DistinctNames := by
  have nothing : ∀ {m t}, m ≠ ModuleId.base → Check.nowhere.treeOf m ≠ some t := by
    intro m t hm h
    unfold ModuleSource.treeOf at h
    rw [if_neg hm] at h
    cases h
  exact .of_modules (fun hm ht => absurd ht (nothing hm)) (fun hd hc => absurd hc (Check.nowhere_empty hd))
    (fun hm hb => absurd hb (Check.nowhere_empty hm))

/-- Texts, and two texts, in two groupings. -/
theorem isSubtype_of_text_nowhere :
    let x : Ty := .union (.union std.stringTy (.literal "a" []) []) (.literal "b" []) []
    let y : Ty := .union std.stringTy (.union (.literal "a" []) (.literal "b" []) []) []
    Check.nowhere.DistinctNames ∧ (∀ d, Settled Check.nowhere (.expansion d [] [])) ∧
      Written Check.nowhere x ∧ Written Check.nowhere y ∧ Reachable Check.nowhere {} ∧
      (run Check.nowhere (x.render .full) {}).1 = (run Check.nowhere (y.render .full) {}).1 ∧
      Gives Check.nowhere (x.isSubtype y) true ∧ Gives Check.nowhere (y.isSubtype x) true := by
  intro x y
  have settled := fun d => (scopedDeclarations_nowhere.settled_expansion d).1
  have string : Written Check.nowhere std.stringTy := .of_isClass Standard.isClass_string nofun
  have hx : Written Check.nowhere x := .union (.union string (.literal "a")) (.literal "b")
  have hy : Written Check.nowhere y := .union string (.union (.literal "a") (.literal "b"))
  have text : std.isNullClass std.stringTy = false :=
    beq_eq_false_iff_ne.2 (fun e => Standard.null_apart.2.1 (Option.some.inj e).symm)
  have same : (run Check.nowhere (x.render .full) {}).1 =
      (run Check.nowhere (y.render .full) {}).1 := by
    rw [hx.gives_render {} .fresh, hy.gives_render {} .fresh]
    exact congrArg Form.string (Ty.form_union_assoc text rfl rfl [] [])
  exact ⟨distinctNames_nowhere, settled, hx, hy, .fresh, same,
    isSubtype_of_text distinctNames_nowhere settled hx hy .fresh .fresh same⟩

/-! ## A text that does not tell -/

def letter (i : Nat) : Char := Char.ofNat ('a'.toNat + i)

/-- The name of a module of the chain: `maa`, `mab`, and so on. -/
def linkName (i : Nat) : String := String.ofList ['m', letter (i / 26), letter (i % 26)]

theorem letters : (∀ i < 26, Form.isPlain (letter i) = true) ∧
    ∀ i < 26, ∀ j < 26, letter i = letter j → i = j := by
  decide

def sidesTree : SyntaxTree where
  uri := "file:///sides.pkl"
  module := 601
  nodes := #[⟨.importClause { uri := "first.pkl", localName := some "first" }, .nowhere, some 16⟩,
    ⟨.importClause { uri := "middle.pkl", localName := some "middle" }, .nowhere, some 16⟩,
    ⟨.literalType "a", .nowhere, some 4⟩,
    ⟨.unknownType, .nowhere, some 4⟩,
    ⟨.functionType [2] 3, .nowhere, some 10⟩,
    ⟨.nothingType, .nowhere, some 9⟩,
    ⟨.nothingType, .nowhere, some 8⟩,
    ⟨.unknownType, .nowhere, some 8⟩,
    ⟨.functionType [6] 7, .nowhere, some 9⟩,
    ⟨.functionType [5] 8, .nowhere, some 10⟩,
    ⟨.functionType [4] 9, .nowhere, some 14⟩,
    ⟨.declaredType (some "first") "A" [], .nowhere, some 13⟩,
    ⟨.declaredType (some "middle") "A" [], .nowhere, some 13⟩,
    ⟨.functionType [11] 12, .nowhere, some 14⟩,
    ⟨.unionType 10 13, .nowhere, some 15⟩,
    ⟨.aliasDecl { name := "Side", target := 14 }, .nowhere, some 16⟩,
    ⟨.module { name := some "sides", imports := [0, 1], members := [15] }, .nowhere, none⟩]
  root := 16

/-- The chain of aliases, with names for its modules, and one more module. -/
def sides : ModuleSource where
  tree m := if m = 601 then some sidesTree else
    match m with
    | 0 => none
    | i + 1 => if i < 600 then some (linkTree (some (linkName i)) i) else none
  resolve m uri := if m = 601 then (if uri = "first.pkl" then some 1 else some 51)
    else chain.resolve m uri

theorem hasChain_sides : HasChain sides (fun i => some (linkName i)) where
  tree hi := (if_neg (Nat.ne_of_lt (Nat.succ_lt_succ hi))).trans (if_pos hi)
  resolve hi := (if_neg (Nat.ne_of_lt (Nat.succ_lt_succ (Nat.lt_succ_of_lt hi)))).trans
    (hasChain_chain.resolve hi)

namespace Sides

def side : NodeRef := ⟨601, 15⟩

def sideTy : Ty := .typeAlias side [] []

/-- `(nothing) -> (nothing) -> unknown` -/
def curried : Ty := arrow .nothing last

/-- `(("a") -> unknown) -> (nothing) -> (nothing) -> unknown` -/
def left : Ty := arrow taker curried

/-- `(first.A) -> middle.A` -/
def right : Ty := arrow (linkTy 0) (linkTy 50)

/-! ### The modules -/

theorem treeOf_sides {m : ModuleId} {t : SyntaxTree} (hm : m ≠ ModuleId.base)
    (h : sides.treeOf m = some t) :
    (m = 601 ∧ t = sidesTree) ∨
      ∃ i < 600, m = i + 1 ∧ t = linkTree (some (linkName i)) i := by
  unfold ModuleSource.treeOf at h
  rw [if_neg hm] at h
  by_cases hs : m = 601
  · exact .inl ⟨hs, (Option.some.inj ((if_pos hs).symm.trans h)).symm⟩
  · obtain ⟨i, rfl⟩ := Nat.exists_eq_succ_of_ne_zero hm
    have rest : (if i < 600 then some (linkTree (some (linkName i)) i) else none) = some t :=
      (if_neg hs).symm.trans h
    split at rest
    · next hi => exact .inr ⟨i, hi, rfl, (Option.some.inj rest).symm⟩
    · cases rest

theorem label_side : sides.label 601 = "sides" := rfl

theorem label_link {i : Nat} (hi : i < 600) : sides.label (i + 1) = linkName i := by
  unfold ModuleSource.label
  rw [hasChain_sides.treeOf hi]
  rfl

/-- Nothing but the alias is declared in a module of the chain. -/
theorem declares_link {i : Nat} {n : NodeIndex} {c : Construct} (name : Option String)
    (h : (linkTree name i).construct? n = some c) (hc : (c.isClass || c.isAlias) = true) :
    n = 10 ∧ c.name? = some "A" := by
  match n with
  | 10 => cases h; exact ⟨rfl, rfl⟩
  | 0 | 1 | 2 | 3 | 4 | 5 | 6 | 7 | 8 | 9 | 11 | 12 => cases h; cases hc
  | n + 13 => simp [SyntaxTree.construct?, SyntaxTree.node?, linkTree, chainTree] at h

/-- Nor in the module with `Side`. -/
theorem declares_side {n : NodeIndex} {c : Construct} (h : sidesTree.construct? n = some c)
    (hc : (c.isClass || c.isAlias) = true) : n = 15 ∧ c.name? = some "Side" := by
  match n with
  | 15 => cases h; exact ⟨rfl, rfl⟩
  | 0 | 1 | 2 | 3 | 4 | 5 | 6 | 7 | 8 | 9 | 10 | 11 | 12 | 13 | 14 | 16 => cases h; cases hc
  | n + 17 => simp [SyntaxTree.construct?, SyntaxTree.node?, sidesTree] at h

theorem declares {d : NodeRef} {c : Construct} (hd : d.module ≠ ModuleId.base)
    (h : sides.construct? d = some c) (hc : (c.isClass || c.isAlias) = true) :
    (d.module = 601 ∧ d.node = 15 ∧ c.name? = some "Side") ∨
      (d.module ≠ 601 ∧ d.node = 10 ∧ c.name? = some "A") := by
  obtain ⟨m, n⟩ := d
  obtain ⟨t, ht, hn⟩ := Option.bind_eq_some_iff.1 h
  rcases treeOf_sides hd ht with ⟨rfl, rfl⟩ | ⟨i, hi, rfl, rfl⟩
  · exact .inl ⟨rfl, declares_side hn hc⟩
  · exact .inr ⟨fun e => absurd (Nat.succ.inj e) (Nat.ne_of_lt hi), declares_link _ hn hc⟩

theorem linkName_inj {i j : Nat} (hi : i < 600) (hj : j < 600) (h : linkName i = linkName j) :
    i = j := by
  obtain ⟨-, rest⟩ := List.cons.inj (String.ofList_injective h)
  obtain ⟨high, rest⟩ := List.cons.inj rest
  obtain ⟨low, -⟩ := List.cons.inj rest
  have quotient := letters.2 _ (by omega) _ (by omega) high
  have remainder := letters.2 _ (by omega) _ (by omega) low
  omega

theorem plain_linkName {i : Nat} (hi : i < 600) : Form.Plain (linkName i).toList := by
  rw [linkName, String.toList_ofList]
  exact List.forall_mem_cons.2 ⟨by decide, List.forall_mem_cons.2
    ⟨letters.1 _ (by omega), List.forall_mem_singleton.2 (letters.1 _ (by omega))⟩⟩

theorem linkName_ne {s : String} (hs : s.toList.head? ≠ some 'm') (i : Nat) : linkName i ≠ s := by
  rintro rfl
  rw [linkName, String.toList_ofList] at hs
  exact hs rfl

theorem distinctNames_sides : sides.DistinctNames := by
  refine .of_modules (fun {m t} hm ht => ?_) (fun {d c} hd hc hn => ?_)
    (fun {m i j b c} hm hb hc nb nc e => ?_)
  · rcases treeOf_sides hm ht with ⟨rfl, -⟩ | ⟨i, hi, rfl, -⟩
    · rw [label_side]
      refine ⟨by decide, by decide, fun {n s} hn hs e => ?_⟩
      rcases treeOf_sides hn hs with ⟨rfl, -⟩ | ⟨j, hj, rfl, -⟩
      · rfl
      · rw [label_link hj] at e
        exact absurd e.symm (linkName_ne (by decide) j)
    · rw [label_link hi]
      refine ⟨plain_linkName hi, linkName_ne (by decide) i, fun {n s} hn hs e => ?_⟩
      rcases treeOf_sides hn hs with ⟨rfl, -⟩ | ⟨j, hj, rfl, -⟩
      · exact absurd e (linkName_ne (by decide) i)
      · rw [label_link hj] at e
        rw [linkName_inj hi hj e]
  · rw [ModuleSource.DistinctNames.nameOf_eq hc]
    rcases declares hd hc hn with ⟨-, -, name⟩ | ⟨-, -, name⟩ <;> rw [name] <;> decide
  · rcases declares hm hb nb with ⟨h, hi, -⟩ | ⟨h, hi, -⟩
    · rcases declares hm hc nc with ⟨-, hj, -⟩ | ⟨h', -, -⟩
      · exact hi.trans hj.symm
      · exact absurd h h'
    · rcases declares hm hc nc with ⟨h', -, -⟩ | ⟨-, hj, -⟩
      · exact absurd h' h
      · exact hi.trans hj.symm

/-! ### Comparing the sides -/

theorem reads_left : (typeOfNodeUpTo sidesTree .empty 601 17 10).Reads sides (pure left) :=
  .of_settle rfl

theorem reads_right : (typeOfNodeUpTo sidesTree .empty 601 17 13).Reads sides (pure right) :=
  .of_settle rfl

theorem reads_target : (aliasTarget side).Reads sides (left.either right) := by
  refine (Query.Reads.construct (d := side) (t := sidesTree) rfl rfl).bind ?_
  refine (Query.Reads.tree (t := sidesTree) rfl).bind ?_
  exact reads_left.bind (reads_right.bind (.here _))

theorem isSubtypeUpTo_self (n : Nat) (t : Ty) : Ty.isSubtypeUpTo (n + 1) t t = pure true := by
  rw [Ty.isSubtypeUpTo.eq_def]
  exact if_pos rfl

theorem left_isSubtypeUpTo_right (n : Nat) : Ty.isSubtypeUpTo (n + 2) left right = (do
    let e ← Query.expansion (link 0) [] []
    if ← Ty.isSubtypeUpTo n e taker then do
      let e ← Query.expansion (link 50) [] []
      Ty.isSubtypeUpTo n curried e
    else pure false) := by
  have hne : ¬ (taker = linkTy 0 ∧ curried = linkTy 50) := fun h => arrow_ne_linkTy _ _ _ h.1
  rw [left, right, isSubtypeUpTo_arrow hne, taker, linkTy_isSubtypeUpTo, curried,
    isSubtypeUpTo_linkTy, bind_assoc]

theorem right_isSubtypeUpTo_left (n : Nat) : Ty.isSubtypeUpTo (n + 2) right left = (do
    let e ← Query.expansion (link 0) [] []
    if ← Ty.isSubtypeUpTo n taker e then do
      let e ← Query.expansion (link 50) [] []
      Ty.isSubtypeUpTo n e curried
    else pure false) := by
  have hne : ¬ (linkTy 0 = taker ∧ linkTy 50 = curried) := fun h => arrow_ne_linkTy _ _ _ h.1.symm
  rw [left, right, isSubtypeUpTo_arrow hne, taker, isSubtypeUpTo_linkTy, curried,
    linkTy_isSubtypeUpTo, bind_assoc]

theorem curried_isSubtypeUpTo_second (n : Nat) :
    Ty.isSubtypeUpTo (n + 3) curried second = pure false := by
  rw [curried, second, isSubtypeUpTo_arrow, isSubtypeUpTo_unknown_left, last,
    not_isSubtypeUpTo_taker]
  · rfl
  · rintro ⟨⟨⟩, -⟩

theorem taker_isSubtypeUpTo_second (n : Nat) :
    Ty.isSubtypeUpTo (n + 1) taker second = pure true := by
  rw [second]
  nth_rewrite 1 [taker]
  rw [isSubtypeUpTo_arrow, isSubtypeUpTo_unknown_left, isSubtypeUpTo_unknown_left]
  · rfl
  · rintro ⟨⟨⟩, -⟩

theorem second_isSubtypeUpTo_curried (n : Nat) :
    Ty.isSubtypeUpTo (n + 2) second curried = pure true := by
  rw [curried, second, isSubtypeUpTo_arrow, isSubtypeUpTo_nothing_left, last, taker_isSubtypeUpTo]
  · rfl
  · rintro ⟨⟨⟩, -⟩

theorem curried_isSubtypeUpTo_first (n i : Nat) :
    Ty.isSubtypeUpTo (n + 2) curried (first i) =
      Query.expansion (link (i + 1)) [] [] >>= fun e => Ty.isSubtypeUpTo n last e := by
  have hne : ¬ (Ty.nothing = .nothing ∧ last = linkTy (i + 1)) := fun h => arrow_ne_linkTy _ _ _ h.2
  rw [curried, first, isSubtypeUpTo_arrow hne, isSubtypeUpTo_nothing_left, last,
    isSubtypeUpTo_linkTy]
  rfl

theorem last_isSubtypeUpTo_first (n i : Nat) :
    Ty.isSubtypeUpTo (n + 1) last (first i) = pure true := by
  rw [last, first, isSubtypeUpTo_arrow, isSubtypeUpTo_nothing_left, isSubtypeUpTo_unknown_left]
  · rfl
  · rintro ⟨-, ⟨⟩⟩

theorem left_either_right : left.either right = (do
    if ← left.isSubtype right then pure right
    else if ← right.isSubtype left then pure left
    else pure (.union left right [])) := by
  have hne : left ≠ right := fun h => arrow_ne_linkTy _ _ _ (arrow_inj h).1
  unfold Ty.either
  rw [if_neg hne, left, right, arrow_eq, arrow_eq]
  rfl

/-! ### What `Side` stands for -/

section

variable {m : Memory}

/-- While `Side` is expanded, and nothing of the chain is remembered up to the last alias but one
hundred, the aliases at its beginning are too far from its end. -/
theorem answer_link_far {i : Nat} (hi : i ≤ 100) (hm : (derivedOnly sides).Holds [.expansion side] m)
    (none : ∀ j < i + 499, m.aliased[link j]? = none) : ∃ m',
      answer sides 1504 (.expansion (link i) [] []) m = (second, m') ∧
      (derivedOnly sides).Holds [.expansion side] m' ∧ m'.aliased = m.aliased ∧
      m.guard.fallbacks < m'.guard.fallbacks := by
  have before : Before i [.expansion side] := fun j _ h => nomatch List.mem_singleton.1 h
  obtain ⟨far, aliased, refused⟩ := answer_far hasChain_sides (i := i) (k := 499) (n := 1504) hm rfl
    before none (by omega) (by decide)
  have hold := ((derivedOnly sides).answer_bounded 1504 _ (.expansion (link i) [] []) m hm).2.1
  exact ⟨_, Prod.ext (far.trans (if_neg (by decide))) rfl, hold, aliased, refused⟩

/-- Between two questions, or while `Side` is expanded, an alias that is near enough to the last one
or to one that is remembered stands for what it means. -/
theorem answer_link_near {ks : List GuardKey} {i k n : Nat} (hk : ks = [] ∨ ks = [.expansion side])
    (hm : (derivedOnly sides).Holds ks m) (near : Stored m (i + k) ∨ i + k = 599)
    (hi : i + k ≤ 599) (room : k < 499) (hn : 1504 ≤ n) : ∃ m',
      answer sides n (.expansion (link i) [] []) m = (meant i, m') ∧
      (derivedOnly sides).Holds ks m' ∧ Expanded i m m' := by
  have before : Before i ks := by
    rcases hk with rfl | rfl
    · exact fun _ _ => List.not_mem_nil
    · exact fun _ _ h => nomatch List.mem_singleton.1 h
  have len : ks.length ≤ 1 := by rcases hk with rfl | rfl <;> decide
  obtain ⟨m', answered, expanded⟩ := answer_near hasChain_sides (i := i) (k := k) (n := n) hm
    (by omega) before near hi (by omega)
  have hold := ((derivedOnly sides).answer_bounded n _ (.expansion (link i) [] []) m hm).2.1
  rw [answered] at hold
  exact ⟨m', answered, hold, expanded⟩

/-- As long as nothing of the chain is remembered, `Side` comes to the first function, and nothing is
remembered of it. -/
theorem answer_side_far (hm : (derivedOnly sides).Holds [] m) (none : m.aliased = {}) :
    ∃ m', answer sides fuel (.expansion side [] []) m = (left, m') ∧ m'.aliased = {} := by
  obtain ⟨m₁, m₂, hm₁, -, aliased₁, expanded, -, aliased₂⟩ :=
    answer_expansion_nil (d := side) (.of_settle rfl) hm (by decide) List.not_mem_nil 1505
  obtain ⟨m₃, quiet, target⟩ := run_reads reads_target 1504 hm₁
  have none₃ : m₃.aliased = {} := (quiet.aliased.trans aliased₁).trans none
  have empty : ∀ {m' : Memory}, m'.aliased = {} → ∀ d : NodeRef, m'.aliased[d]? = Option.none := by
    intro m' h d
    rw [h]
    exact Std.HashMap.getElem?_empty
  obtain ⟨m₄, h₄, hm₄, aliased₄, refused₄⟩ :=
    answer_link_far (i := 0) (by decide) quiet.holds (fun j _ => empty none₃ _)
  have none₄ := aliased₄.trans none₃
  obtain ⟨m₅, h₅, hm₅, aliased₅, refused₅⟩ :=
    answer_link_far (i := 50) (by decide) hm₄ (fun j _ => empty none₄ _)
  have none₅ := aliased₅.trans none₄
  obtain ⟨m₆, h₆, hm₆, aliased₆, refused₆⟩ :=
    answer_link_far (i := 0) (by decide) hm₅ (fun j _ => empty none₅ _)
  have none₆ := aliased₆.trans none₅
  obtain ⟨m₇, h₇, -, aliased₇, refused₇⟩ :=
    answer_link_far (i := 50) (by decide) hm₆ (fun j _ => empty none₆ _)
  have none₇ := aliased₇.trans none₆
  have there : (left.isSubtype right).run (answer sides 1504) m₃ = (false, m₅) := by
    show (Ty.isSubtypeUpTo (99 + 2) left right).run (answer sides 1504) m₃ = _
    rw [left_isSubtypeUpTo_right, run_expansion, h₄, second_isSubtypeUpTo_taker 98]
    show (Query.expansion (link 50) [] [] >>= _).run (answer sides 1504) m₄ = _
    rw [run_expansion, h₅, curried_isSubtypeUpTo_second 96]
    rfl
  have back : (right.isSubtype left).run (answer sides 1504) m₅ = (true, m₇) := by
    show (Ty.isSubtypeUpTo (99 + 2) right left).run (answer sides 1504) m₅ = _
    rw [right_isSubtypeUpTo_left, run_expansion, h₆, taker_isSubtypeUpTo_second 98]
    show (Query.expansion (link 50) [] [] >>= _).run (answer sides 1504) m₆ = _
    rw [run_expansion, h₇, second_isSubtypeUpTo_curried 97]
    rfl
  have computed : (aliasTarget side).run (answer sides 1504) m₁ = (left, m₇) := by
    rw [target, left_either_right, Stage.run_bind, there]
    show (right.isSubtype left >>= _).run (answer sides 1504) m₅ = _
    rw [Stage.run_bind, back]
    rfl
  have refused : m₇.guard.fallbacks ≠ m₁.guard.fallbacks := by
    have same : m₃.guard.fallbacks = m₁.guard.fallbacks := congrArg (·.fallbacks) quiet.guard
    omega
  have forgotten : answer sides 1505 (.aliased side) m₁ = (left, m₇) := by
    have none₁ : m₁.aliased[side]? = Option.none := empty (aliased₁.trans none) side
    rw [answer_aliased, memoized_none none₁, computed, if_neg refused]
  rw [forgotten] at expanded aliased₂
  exact ⟨m₂, expanded, aliased₂.trans none₇⟩

/-- Once an alias is remembered that is near to the second one in `Side` but not to the first one,
`Side` comes to the second function. -/
theorem answer_side_near (hm : (derivedOnly sides).Holds [] m)
    (none : ∀ j < 499, m.aliased[link j]? = none) (fresh : m.aliased[side]? = Option.none)
    (stored : Stored m 499) : ∃ m', answer sides fuel (.expansion side [] []) m = (right, m') ∧
      Stored m' 50 := by
  obtain ⟨m₁, m₂, hm₁, -, aliased₁, expanded, -, aliased₂⟩ :=
    answer_expansion_nil (d := side) (.of_settle rfl) hm (by decide) List.not_mem_nil 1505
  obtain ⟨m₃, quiet, target⟩ := run_reads reads_target 1504 hm₁
  have same : m₃.aliased = m.aliased := quiet.aliased.trans aliased₁
  obtain ⟨m₄, h₄, hm₄, aliased₄, -⟩ := answer_link_far (i := 0) (by decide) quiet.holds
    (fun j hj => by rw [same]; exact none j (by omega))
  have stored₄ : Stored m₄ (50 + 449) := by
    unfold Stored
    rw [aliased₄, same]
    exact stored
  obtain ⟨m₅, h₅, hm₅, e₅⟩ := answer_link_near (i := 50) (n := 1504) (.inr rfl) hm₄
    (.inl stored₄) (by decide) (by decide) (by decide)
  obtain ⟨m₆, h₆, -, e₆⟩ := answer_link_near (i := 51) (k := 448) (n := 1504) (.inr rfl) hm₅
    (.inl (e₅.keeps _ stored₄)) (by decide) (by decide) (by decide)
  have there : (left.isSubtype right).run (answer sides 1504) m₃ = (true, m₆) := by
    have here : meant 50 = first 50 := meant_of_ne (by decide)
    have next : meant 51 = first 51 := meant_of_ne (by decide)
    show (Ty.isSubtypeUpTo (99 + 2) left right).run (answer sides 1504) m₃ = _
    rw [left_isSubtypeUpTo_right, run_expansion, h₄, second_isSubtypeUpTo_taker 98]
    show (Query.expansion (link 50) [] [] >>= _).run (answer sides 1504) m₄ = _
    rw [run_expansion, h₅, here, curried_isSubtypeUpTo_first 97, run_expansion, h₆, next,
      last_isSubtypeUpTo_first 96]
    rfl
  have computed : (aliasTarget side).run (answer sides 1504) m₁ = (right, m₆) := by
    rw [target, left_either_right, Stage.run_bind, there]
    rfl
  have stored₆ : Stored m₆ 50 := e₆.keeps 50 e₅.stored
  have kept : ∃ m₇, answer sides 1505 (.aliased side) m₁ = (right, m₇) ∧ Stored m₇ 50 := by
    have none₁ : m₁.aliased[side]? = Option.none := by rw [aliased₁, fresh]
    rw [answer_aliased, memoized_none none₁, computed]
    refine ⟨_, rfl, ?_⟩
    split
    · unfold Stored
      rw [Std.HashMap.getElem?_insert, if_neg (by decide)]
      exact stored₆
    · exact stored₆
  obtain ⟨m₇, h₇, stored₇⟩ := kept
  rw [h₇] at expanded aliased₂
  refine ⟨m₂, expanded, ?_⟩
  unfold Stored
  rw [aliased₂]
  exact stored₇

/-- Asked for again when an alias further on has been remembered, `Side` is another function, and
the alias it mentions first is near by then. -/
theorem exists_answers : ∃ m₁ m₂ m₃ m₄,
    answer sides fuel (.expansion side [] []) {} = (left, m₁) ∧
    answer sides fuel (.expansion (link 499) [] []) m₁ = (meant 499, m₂) ∧
    answer sides fuel (.expansion side [] []) m₂ = (right, m₃) ∧
    answer sides fuel (.expansion (link 0) [] []) m₃ = (meant 0, m₄) := by
  have hold : ∀ {m}, Reachable sides m → (derivedOnly sides).Holds [] m :=
    (derivedOnly sides).holds_of_reachable
  obtain ⟨m₁, h₁, aliased₁⟩ := answer_side_far (hold .fresh) rfl
  have hm₁ : Reachable sides (answer sides fuel (.expansion side [] []) {}).2 :=
    Reachable.fresh.answer _
  rw [h₁] at hm₁
  have none₁ : ∀ d : NodeRef, m₁.aliased[d]? = none := by
    intro d
    rw [aliased₁]
    exact Std.HashMap.getElem?_empty
  obtain ⟨m₂, h₂, hm₂, e₂⟩ := answer_link_near (i := 499) (k := 100) (n := fuel) (.inl rfl)
    (hold hm₁) (.inr rfl) (by decide) (by decide) (by decide)
  have earlier : ∀ j < 499, m₂.aliased[link j]? = none := by
    intro j hj
    rw [e₂.others, none₁]
    intro k hk e
    have same : j + 1 = k + 1 := congrArg NodeRef.module e
    omega
  have fresh : m₂.aliased[side]? = none := by
    rw [e₂.others, none₁]
    exact fun k _ e => absurd (congrArg NodeRef.node e) (show (15 : Nat) ≠ 10 by decide)
  obtain ⟨m₃, h₃, stored⟩ := answer_side_near hm₂ earlier fresh e₂.stored
  have hm₃ := ((derivedOnly sides).answer_bounded fuel [] (.expansion side [] []) m₂ hm₂).2.1
  rw [h₃] at hm₃
  obtain ⟨m₄, h₄, -⟩ := answer_link_near (i := 0) (k := 50) (n := fuel) (.inl rfl) hm₃
    (.inl stored) (by decide) (by decide) (by decide)
  exact ⟨m₁, m₂, m₃, m₄, h₁, h₂, h₃, h₄⟩

end

/-! ### Two groupings -/

/-- `(A) -> nothing`, with an alias near the end of the chain -/
def lateTy : Ty := arrow (linkTy 499) .nothing

/-- `((A) -> nothing) | Side | "b"`, grouped from the left -/
def leftUnion : Ty := .union (.union lateTy sideTy []) (.literal "b" []) []

/-- The same, grouped from the right. -/
def rightUnion : Ty := .union lateTy (.union sideTy (.literal "b" []) []) []

theorem written_lateTy : Written sides lateTy := by
  have two : Standard.IsClass function1 2 := Standard.isClass_functions function1_spec.1
  have link : Written sides (linkTy 499) :=
    .typeAlias (c := { name := "A", target := chainTarget 499 }) rfl rfl nofun
  rw [lateTy, arrow_eq]
  exact .of_isClass two (List.forall_mem_cons.2 ⟨link, List.forall_mem_singleton.2 .nothing⟩)

theorem written_sideTy : Written sides sideTy :=
  .typeAlias (c := { name := "Side", target := 14 }) rfl rfl nofun

theorem form_eq : leftUnion.form sides = rightUnion.form sides := by
  have function : std.isNullClass lateTy = false := by
    rw [lateTy, arrow_eq]
    refine beq_eq_false_iff_ne.2 (fun e => ?_)
    have null : Standard.IsClass function1 0 := Option.some.inj e ▸ Standard.isClass_null
    have two := Standard.isClass_functions function1_spec.1
    exact absurd (null.2.2.trans two.2.2.symm) (by decide)
  exact Ty.form_union_assoc function rfl rfl [] []

theorem arrow_isSubtypeUpTo_union (n : Nat) (x y a b : Ty) :
    Ty.isSubtypeUpTo (n + 1) (arrow x y) (.union a b []) = (do
      if ← Ty.isSubtypeUpTo n (arrow x y) a then pure true
      else Ty.isSubtypeUpTo n (arrow x y) b) := by
  rw [arrow_eq]
  rfl

theorem arrow_isSubtypeUpTo_sideTy (n : Nat) (x y : Ty) :
    Ty.isSubtypeUpTo (n + 1) (arrow x y) sideTy =
      Query.expansion side [] [] >>= fun e => Ty.isSubtypeUpTo n (arrow x y) e := by
  rw [arrow_eq]
  rfl

theorem arrow_isSubtypeUpTo_literal (n : Nat) (x y : Ty) (s : String) :
    Ty.isSubtypeUpTo (n + 1) (arrow x y) (.literal s []) = pure false := by
  rw [arrow_eq]
  rfl

theorem left_isSubtypeUpTo_lateTy (n : Nat) : Ty.isSubtypeUpTo (n + 2) left lateTy = (do
    let e ← Query.expansion (link 499) [] []
    if ← Ty.isSubtypeUpTo n e taker then Ty.isSubtypeUpTo (n + 1) curried .nothing
    else pure false) := by
  have hne : ¬ (taker = linkTy 499 ∧ curried = .nothing) := fun h => arrow_ne_linkTy _ _ _ h.1
  rw [left, lateTy, isSubtypeUpTo_arrow hne, taker, linkTy_isSubtypeUpTo, bind_assoc]

/-- The function is the first alternative of both unions, and behind it `Side` is expanded. -/
theorem leftUnion_isSubtype_rightUnion : leftUnion.isSubtype rightUnion = (do
    let e ← Query.expansion side [] []
    if ← Ty.isSubtypeUpTo 98 e rightUnion then Ty.isSubtypeUpTo 100 (.literal "b" []) rightUnion
    else pure false) := by
  have apart : ∀ t, lateTy ≠ .union t sideTy [] := by
    intro t
    rw [lateTy, arrow_eq]
    exact nofun
  have outer : leftUnion ≠ rightUnion := by
    intro h
    injection h with h
    exact apart _ h.symm
  have inner : Ty.union lateTy sideTy [] ≠ rightUnion := by
    intro h
    injection h with _ h
    cases h
  have first : Ty.isSubtypeUpTo 99 lateTy rightUnion = pure true := by
    rw [lateTy, rightUnion, arrow_isSubtypeUpTo_union, ← lateTy, isSubtypeUpTo_self]
    rfl
  have sides : Ty.isSubtypeUpTo 100 (.union lateTy sideTy []) rightUnion =
      Query.expansion side [] [] >>= fun e => Ty.isSubtypeUpTo 98 e rightUnion := by
    rw [Ty.isSubtypeUpTo.eq_def]
    refine (if_neg inner).trans ?_
    show (do if ← Ty.isSubtypeUpTo 99 lateTy rightUnion then _ else pure false) = _
    rw [first]
    rfl
  show Ty.isSubtypeUpTo 101 leftUnion rightUnion = _
  rw [Ty.isSubtypeUpTo.eq_def]
  refine (if_neg outer).trans ?_
  show (do if ← Ty.isSubtypeUpTo 100 (.union lateTy sideTy []) rightUnion then _ else pure false) = _
  rw [sides, bind_assoc]
  rfl

end Sides

open Sides

/-- A union with `Side` in it is not below the same union grouped differently, though there is one
text for both. -/
theorem not_isSubtype_of_text : sides.DistinctNames ∧ ∃ t u : Ty, Written sides t ∧ Written sides u ∧
    (run sides (t.render .full) {}).1 = (run sides (u.render .full) {}).1 ∧
    (run sides (t.isSubtype u) {}).1 = false := by
  have ht : Written sides leftUnion := .union (.union written_lateTy written_sideTy) (.literal "b")
  have hu : Written sides rightUnion := .union written_lateTy (.union written_sideTy (.literal "b"))
  have text : (run sides (leftUnion.render .full) {}).1 =
      (run sides (rightUnion.render .full) {}).1 := by
    rw [ht.gives_render {} .fresh, hu.gives_render {} .fresh, form_eq]
  refine ⟨distinctNames_sides, leftUnion, rightUnion, ht, hu, text, ?_⟩
  obtain ⟨m₁, m₂, m₃, m₄, h₁, h₂, h₃, h₄⟩ := exists_answers
  obtain ⟨z, hz⟩ := exists_meant 499
  obtain ⟨y, hy⟩ := exists_meant 0
  have late : run sides (Ty.isSubtypeUpTo 97 left lateTy) m₁ = (false, m₂) := by
    rw [left_isSubtypeUpTo_lateTy 95, run, run_expansion, h₂, hz, not_isSubtypeUpTo_taker 93]
    rfl
  have side : run sides (Ty.isSubtypeUpTo 96 left sideTy) m₂ = (false, m₄) := by
    rw [left, arrow_isSubtypeUpTo_sideTy 95, run, run_expansion, h₃, ← left,
      left_isSubtypeUpTo_right 93, run_expansion, h₄, hy, not_isSubtypeUpTo_taker 91]
    rfl
  have right : run sides (Ty.isSubtypeUpTo 97 left (.union sideTy (.literal "b" []) [])) m₂ =
      (false, m₄) := by
    rw [left, arrow_isSubtypeUpTo_union 96, ← left, run_bind, side]
    show run sides (Ty.isSubtypeUpTo (95 + 1) (arrow taker curried) (.literal "b" [])) m₄ = _
    rw [arrow_isSubtypeUpTo_literal]
    rfl
  have union : run sides (Ty.isSubtypeUpTo 98 left rightUnion) m₁ = (false, m₄) := by
    rw [left, rightUnion, arrow_isSubtypeUpTo_union 97, ← left, run_bind, late]
    exact right
  rw [leftUnion_isSubtype_rightUnion, run, run_expansion, h₁]
  show (run sides (Ty.isSubtypeUpTo 98 left rightUnion >>= _) m₁).1 = false
  rw [run_bind, union]
  rfl

end Session

end PklAnalysis
