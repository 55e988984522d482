import PklAnalysis.Proofs.Session.Ledger
import PklAnalysis.Proofs.Types.Sides
import PklAnalysis.Proofs.Typing.Inferred

/-!
# The normal form of unions

`unknown` absorbs what it is united with, and `nothing` is neutral. A type is in normal form if no
union in it, at any depth, has one of the two on a side (`Ty.Normal`). What an annotation says is
always in normal form. In the types of expressions, of `this`, and in expected types, every union
that is not was one in the type of a declaration before a type parameter on one of its sides was
replaced (`normal_or_replaced`).

Only substitution does not normalise the unions it changes, and it is only ever applied to types of
declarations. So a union that is not in normal form is always an instance of one in the type of a
declaration (`ModuleSource.Accounted`), and typing keeps it so (`ModuleSource.tame`).
-/

namespace PklAnalysis

open Session

/-- No union in the type has `unknown` or `nothing` on a side. -/
abbrev Ty.Normal (t : Ty) : Prop := Ty.Sides (fun l r => l.Proper ∧ r.Proper) t

/-! ## Accounting for the sides of unions -/

namespace Ty

/-- Nothing but a type parameter is replaced by `unknown` or `nothing`. -/
theorem exists_var_of_bind {t : Ty} {b : Bindings} (ht : t.Proper) (h : ¬ (t.bind b).Proper) :
    ∃ p c, t = .var p c := by
  cases t with
  | var p c => exact ⟨p, c, rfl⟩
  | unknown => exact absurd rfl ht.1
  | nothing => exact absurd rfl ht.2
  | _ => exact absurd ⟨nofun, nofun⟩ h

end Ty

namespace ModuleSource

variable (src : ModuleSource)

/-- The sides of a union in the type of a declaration, with something put in for the type
parameters. -/
inductive Instantiated : Ty → Ty → Prop
  | bind {t l r : Ty} {c : Constraints} (b : Bindings) :
      src.Declares t → Ty.Part (.union l r c) t → l.Proper → r.Proper →
        Instantiated (l.bind b) (r.bind b)

/-- Two types that may be the sides of a union. -/
def Accounted (l r : Ty) : Prop := l.Proper ∧ r.Proper ∨ src.Instantiated l r

/-- The sides of all unions in a type are accounted for. -/
abbrev Tame (t : Ty) : Prop := Ty.Sides src.Accounted t

variable {src}

theorem accounted {l r : Ty} (hl : l.Proper) (hr : r.Proper) : src.Accounted l r := .inl ⟨hl, hr⟩

/-- Types are built tame, and what is put into the type of a declaration leaves it tame. -/
theorem tame (src : ModuleSource) : src.Kept src.Tame where
  toBuilt := Ty.Sides.built accounted
  args h := h.of_cls
  aliasArgs h := h.of_typeAlias
  left h := h.of_left
  right h := h.of_right
  bind {q a _ b} hq ha ht h hb := by
    refine Ty.Sides.bind (fun p x hx => hb.get? hx) (fun l r c hp => ?_)
    rcases h l r c hp with ⟨hl, hr⟩ | ⟨b₀, hu, hp₀, hl₀, hr₀⟩
    · exact .inr (.bind b ⟨q, a, hq, ha, ht⟩ hp hl hr)
    · rw [← Ty.bind_compose, ← Ty.bind_compose]
      exact .inr (.bind (b₀.compose b) hu hp₀ hl₀ hr₀)

/-- The sides of a union in the type of a declaration, of which at least one is a type parameter,
with something put in for the type parameters. -/
inductive Replaced (src : ModuleSource) : Ty → Ty → Prop
  | bind {t l r : Ty} {c : Constraints} (b : Bindings) :
      src.Declares t → Ty.Part (.union l r c) t → l.Proper → r.Proper →
        (∃ p c, l = .var p c ∨ r = .var p c) → Replaced src (l.bind b) (r.bind b)

/-- Only the instance of a type parameter can be `unknown` or `nothing`. -/
theorem proper_or_replaced {l r : Ty} (h : src.Accounted l r) :
    (l.Proper ∧ r.Proper) ∨ src.Replaced l r := by
  by_cases proper : l.Proper ∧ r.Proper
  · exact .inl proper
  rcases h.resolve_left proper with @⟨t, l, r, c, b, ht, part, hl, hr⟩
  refine .inr (.bind b ht part hl hr ?_)
  by_cases left : (l.bind b).Proper
  · obtain ⟨p, c, e⟩ := Ty.exists_var_of_bind hr (fun right => proper ⟨left, right⟩)
    exact ⟨p, c, .inr e⟩
  · obtain ⟨p, c, e⟩ := Ty.exists_var_of_bind hl left
    exact ⟨p, c, .inl e⟩

end ModuleSource

/-! ## Runs -/

namespace Session

variable {src : ModuleSource}

/-- What an annotation says is in normal form. In the types of expressions, of `this`, and in
expected types, a union with `unknown` or `nothing` on a side comes from replacing a type parameter
in the type of a declaration. -/
theorem normal_or_replaced {m : Memory} (hm : Reachable src m) (site : NodeRef) :
    (run src (typeOfNode site .empty) m).1.Normal ∧
      ∀ x ∈ [Query.expr site .empty, thisType site, Query.expected site],
        (run src x m).1.Sides (fun l r => (l.Proper ∧ r.Proper) ∨ src.Replaced l r) := by
  have declared : (run src (typeOfNode site .empty) m).1.Normal :=
    src.tame.run ((Ty.Sides.built (fun hl hr => ⟨hl, hr⟩)).within_typeOfNode
      Bindings.holds_empty site) hm
  have tame : ∀ {x : Query Ty}, x.Within (src.KeptAnswer src.Tame) src.Tame →
      (run src x m).1.Sides (fun l r => (l.Proper ∧ r.Proper) ∨ src.Replaced l r) :=
    fun h => (src.tame.run h hm).mono (fun _ _ => ModuleSource.proper_or_replaced)
  refine ⟨declared, fun x hx => ?_⟩
  simp only [List.mem_cons, List.not_mem_nil, or_false] at hx
  rcases hx with rfl | rfl | rfl
  · exact tame (ModuleSource.Kept.within_expr site Bindings.holds_empty)
  · exact tame (src.tame.within_thisType site)
  · exact tame (ModuleSource.Kept.within_expected site)

/-! ### A raw generic class -/

/-- The module `class Box<T> { item: T|Int }`, `box: Box`, `x = box.item`. -/
def boxTree : SyntaxTree where
  uri := "file:///box.pkl"
  module := 1
  nodes := #[⟨.typeParam { name := "T" }, .nowhere, some 5⟩,
    ⟨.declaredType none "T" [], .nowhere, some 3⟩,
    ⟨.declaredType none "Int" [], .nowhere, some 3⟩,
    ⟨.unionType 1 2, .nowhere, some 4⟩,
    ⟨.property { name := "item", type := some 3 }, .nowhere, some 5⟩,
    ⟨.classDecl { name := "Box", typeParams := [0], members := [4] }, .nowhere, some 11⟩,
    ⟨.declaredType none "Box" [], .nowhere, some 7⟩,
    ⟨.property { name := "box", type := some 6 }, .nowhere, some 11⟩,
    ⟨.access "box" none, .nowhere, some 9⟩,
    ⟨.memberAccess 8 "item" none false, .nowhere, some 10⟩,
    ⟨.property { name := "x", value := some 9 }, .nowhere, some 11⟩,
    ⟨.module { members := [5, 7, 10] }, .nowhere, none⟩]
  root := 11

/-- A session with this module only. -/
def box : ModuleSource where
  tree i := if i = 1 then some boxTree else none
  resolve _ _ := none

/-- The item of a box of unknown content: the union of `T` and `Int` with `unknown` for `T`. -/
theorem run_item : (run box (Query.expr ⟨1, 9⟩ .empty) {}).1 = .union .unknown std.intTy [] :=
  (Ledger.run_eq Ledger.mirrors_empty _).1.trans (by decide +kernel)

/-- The annotation of the item is in normal form; in the type of `box.item` its type parameter has
been replaced. -/
theorem normal_or_replaced_box :
    (run box (typeOfNode ⟨1, 3⟩ .empty) {}).1.Normal ∧
      ((Ty.Proper .unknown ∧ std.intTy.Proper) ∨ box.Replaced .unknown std.intTy) := by
  refine ⟨(normal_or_replaced .fresh ⟨1, 3⟩).1, ?_⟩
  refine (normal_or_replaced .fresh ⟨1, 9⟩).2 _ List.mem_cons_self .unknown std.intTy [] ?_
  rw [run_item]
  exact .self

/-- The type of `box.item` is not in normal form. -/
theorem not_normal_box : ¬ ∀ (src : ModuleSource) (m : Memory) (site : NodeRef), Reachable src m →
    (run src (Query.expr site .empty) m).1.Normal := by
  intro normal
  have item := normal box {} ⟨1, 9⟩ .fresh
  rw [run_item] at item
  exact (item _ _ _ .self).1.1 rfl

end Session

end PklAnalysis
