import PklAnalysis.Proofs.Typing.Unions

/-!
# Argument lists

A class or an alias has a list of type parameters, and a type of it has an argument for each of them
and no more (`ModuleSource.Full`). Annotations may say less or more; arguments are fitted when a
type is built from its declaration, and the classes of the standard library that typing uses
directly are given as many as they declare. So every type that a session comes out with has full argument lists
(`full_answers`).
-/

namespace PklAnalysis

open Session

namespace ModuleSource

variable {src : ModuleSource}

/-- At any depth, the types of classes and aliases have as many arguments as these have type
parameters. -/
abbrev Full (src : ModuleSource) : Ty → Prop :=
  Ty.Formed (fun d n => n = (src.params d).length) (fun d n => n = (src.params d).length)

theorem eq_tree_of_keptAnswer {K : Ty → Prop} (i : ModuleId) (a : Option SyntaxTree)
    (h : src.KeptAnswer K (.tree i) a) : a = src.tree i := by
  cases h.1 with
  | tree h => cases h; rfl
  | ask hs | refused hs => cases hs

theorem within_fitArgs_full (d : NodeRef) {as : List Ty} (h : ∀ a ∈ as, src.Full a) :
    (Ty.fitArgs d as).Within (src.KeptAnswer src.Full)
      (fun bs => bs.length = (src.params d).length ∧ ∀ b ∈ bs, src.Full b) :=
  Query.within_fitArgs eq_tree_of_keptAnswer .unknown d h

/-- Types are built with full argument lists, and substitution leaves them full. -/
theorem full (src : ModuleSource) : src.Kept src.Full where
  unknown := .unknown
  nothing := .nothing
  var p := .var p []
  module m name := .module m name []
  literal s := .literal s []
  standard hd h := .cls [] (hd.source src).2 h
  union _ _ hl hr := .union [] hl hr
  withConstraints c h := h.withConstraints c
  ofClass d _ h :=
    (within_fitArgs_full d h).bind (fun _ hbs => Query.within_pure (.cls [] hbs.1 hbs.2))
  ofAlias d _ h :=
    (within_fitArgs_full d h).bind (fun _ hbs => Query.within_pure (.typeAlias [] hbs.1 hbs.2))
  args h := h.args.2
  aliasArgs h := h.aliasArgs.2
  left h := by cases h with | union _ hl _ => exact hl
  right h := by cases h with | union _ _ hr => exact hr
  bind _ _ _ h hb := h.bind (fun p x hx => hb.get? hx)

end ModuleSource

namespace Session

variable {src : ModuleSource}

/-- Whatever it was asked before, a session comes out with full argument lists, if the types that it
is handed have them: what type parameters stand for, and the type whose superclass or contents are
asked for. -/
theorem full_answers {m : Memory} (hm : Reachable src m) :
    (∀ site b, b.Holds src.Full →
      ∀ x ∈ [Query.expr site b, typeOfNode site b, typeOfDeclaration site b],
        src.Full (run src x m).1) ∧
    (∀ site, ∀ x ∈ [thisType site, Query.expected site, Query.property site, Query.aliased site],
      src.Full (run src x m).1) ∧
    (∀ d, ∀ t ∈ (run src (Query.supertype d) m).1, src.Full t) ∧
    (∀ (c : ClassTy) target, src.Full c.toTy →
      ∀ p ∈ (run src (c.projectTo target) m).1, src.Full p.toTy) ∧
    (∀ t, src.Full t → ∀ x ∈ [iterationTypes t, entryTypes t],
      src.Full (run src x m).1.1 ∧ src.Full (run src x m).1.2) ∧
    ∀ method outer call, outer.Holds src.Full →
      (run src (callBindings method outer call) m).1.Holds src.Full := by
  have full : ∀ {α : Type} {S : α → Prop} {x : Query α}, x.Within (src.KeptAnswer src.Full) S →
      S (run src x m).1 := fun h => src.full.run h hm
  refine ⟨fun site b hb x hx => ?_, fun site x hx => ?_, fun d => ?_, fun c target hc => ?_,
    fun t ht x hx => ?_, fun method outer call ho => ?_⟩
  · simp only [List.mem_cons, List.not_mem_nil, or_false] at hx
    rcases hx with rfl | rfl | rfl
    · exact full (ModuleSource.Kept.within_expr site hb)
    · exact full (src.full.within_typeOfNode hb site)
    · exact full (src.full.within_typeOfDeclaration site hb)
  · simp only [List.mem_cons, List.not_mem_nil, or_false] at hx
    rcases hx with rfl | rfl | rfl | rfl
    · exact full (src.full.within_thisType site)
    · exact full (ModuleSource.Kept.within_expected site)
    · exact full (ModuleSource.Kept.within_property site)
    · exact full (ModuleSource.Kept.within_aliased site)
  · exact full (ModuleSource.Kept.within_supertype d)
  · exact full (src.full.within_projectTo hc target)
  · simp only [List.mem_cons, List.not_mem_nil, or_false] at hx
    rcases hx with rfl | rfl
    · exact full (src.full.within_iterationTypes ht)
    · exact full (src.full.within_entryTypes ht)
  · exact full (src.full.within_callBindings method ho call)

/-- The class `Box` has one type parameter, and so the type of `box` has one argument, although its
annotation has none. -/
theorem full_answers_box :
    (run box (Query.expr ⟨1, 8⟩ .empty) {}).1 = .cls ⟨1, 5⟩ [.unknown] [] ∧
      box.Full (run box (Query.expr ⟨1, 8⟩ .empty) {}).1 :=
  ⟨(Ledger.run_eq Ledger.mirrors_empty _).1.trans (by decide +kernel),
    (full_answers .fresh).1 ⟨1, 8⟩ .empty Bindings.holds_empty _ List.mem_cons_self⟩

end Session

end PklAnalysis
