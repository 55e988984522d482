import PklAnalysis.Proofs.Scope.Walks
import PklAnalysis.Proofs.Session.Fixed

/-!
# What the walks of a scope ask

Besides the source, the walks ask what classes extend and what aliases stand for, and nothing else
(`Scope.asks_visible`, `Scope.asks_members`). Where declarations are fixed, all of these questions
are settled, and so is what is looked up.
-/

namespace PklAnalysis

namespace Query

variable {r : Reading}

theorem asks_fullyUnaliased (t : Ty) : t.fullyUnaliased.Asks r Question.OfScope := by
  have upTo : ∀ n t, (Ty.expandUpTo n t).Asks r Question.OfScope := by
    intro n
    induction n with
    | zero => exact fun _ => trivial
    | succ n ih =>
      intro t
      unfold Ty.expandUpTo
      split
      · exact (asks_bind ..).2 ⟨asks_unaliased t, ih _⟩
      · trivial
  exact (asks_bind ..).2 ⟨upTo _ t, trivial⟩

theorem asks_moduleChainFrom (n : Nat) (chain : List ModuleId) (m : ModuleId) :
    (moduleChainFrom n chain m).Asks r Question.IsSource := by
  induction n generalizing chain m with
  | zero => trivial
  | succ n ih =>
    refine (asks_bind ..).2 ⟨asks_supermodule r m, ?_⟩
    cases (supermodule m).value r with
    | none => trivial
    | some next =>
      dsimp only
      split
      · trivial
      · exact ih ..

theorem asks_tree_ofScope (m : ModuleId) : (tree m).Asks r Question.OfScope :=
  asks_mono (fun _ h => h.ofScope) (asks_tree r m)

end Query

namespace Scope

open Walk Query

variable {r : Reading} {mode : LookupMode}

theorem asks_offers (t : SyntaxTree) (b : Bindings) (skip : Bool) (is : List NodeIndex) :
    (offers t mode b skip is).Asks r Question.OfScope := asks_ofList _

theorem asks_classMembers (skip : Bool) (c : ClassTy) :
    (classMembers mode skip c).Asks r Question.OfScope := by
  have from' : ∀ n seen skip c, (classMembersFrom mode n seen skip c).Asks r Question.OfScope := by
    intro n
    induction n with
    | zero => exact fun _ _ _ => trivial
    | succ n ih =>
      intro seen skip c
      unfold classMembersFrom
      split
      · trivial
      refine asks_after (asks_tree_ofScope _) (fun t => ?_)
      cases t with
      | none => trivial
      | some t =>
        refine asks_after (asks_mono (fun _ h => h.ofScope) (asks_forDeclaration r _ _)) (fun b => ?_)
        refine asks_append (asks_offers ..) (asks_after (asks_superclass c) (fun parent => ?_))
        cases parent with
        | none => trivial
        | some parent => exact ih ..
  exact from' ..

theorem asks_moduleMembers (skip : Bool) (m : ModuleId) :
    (moduleMembers mode skip m).Asks r Question.OfScope := by
  have along : ∀ ms skip, (moduleMembersAlong mode skip ms).Asks r Question.OfScope := by
    intro ms
    induction ms with
    | nil => exact fun _ => trivial
    | cons m ms ih =>
      refine fun skip => asks_after (asks_tree_ofScope m) (fun t => ?_)
      cases t with
      | none => exact ih true
      | some t => exact asks_append (asks_offers ..) (ih true)
  exact asks_after (asks_mono (fun _ h => h.ofScope) (asks_moduleChainFrom ..))
    (fun chain => along ..)

theorem asks_members (t : Ty) : (members mode t).Asks r Question.OfScope := by
  have step : ∀ {expand : Ty → Walk Candidate}, (∀ t, (expand t).Asks r Question.OfScope) →
      ∀ t, (membersWith mode expand true t).Asks r Question.OfScope := by
    intro expand he t
    fun_induction membersWith mode expand true t with
    | case1 | case2 => trivial
    | case3 | case4 | case7 => exact asks_classMembers ..
    | case5 => exact asks_append (asks_moduleMembers ..) (asks_classMembers ..)
    | case6 => exact he _
    | case8 l r c ihl ihr => exact asks_append ihl ihr
  have upTo : ∀ n t, (membersUpTo mode true n t).Asks r Question.OfScope := by
    intro n
    induction n with
    | zero => exact step (fun _ => trivial)
    | succ n ih => exact step (fun t => asks_after (asks_fullyUnaliased t) ih)
  exact upTo _ t

theorem asks_around (t : SyntaxTree) (this : Ty) (innermost : Bool) (i child : NodeIndex)
    (c : Construct) : (around t mode this innermost i child c).Asks r Question.OfScope := by
  have none : (Walk.done : Walk Candidate).Asks r Question.OfScope := trivial
  cases c with
  | letIn | lambda | forGenerator => exact asks_ite (asks_offers ..) none
  | method | aliasDecl => exact asks_offers ..
  | objectBody => exact asks_append (asks_offers ..) (asks_ite (asks_members this) none)
  | classDecl => exact asks_append (asks_classMembers ..) (asks_offers ..)
  | constrainedType => exact asks_ite (asks_members this) none
  | _ => trivial

theorem asks_outward (t : SyntaxTree) (this : Ty) (innermost : Bool) (child : NodeIndex)
    (is : List NodeIndex) : (outward t mode this innermost child is).Asks r Question.OfScope := by
  induction is generalizing innermost child with
  | nil => trivial
  | cons i is ih =>
    unfold outward
    cases t.construct? i with
    | none => trivial
    | some c =>
      dsimp only
      split
      · trivial
      · exact asks_append (asks_around ..) (ih ..)

theorem asks_visible (site : NodeRef) (this : Ty) :
    (visible site this mode).Asks r Question.OfScope := by
  refine asks_after (asks_tree_ofScope _) (fun t => ?_)
  cases t with
  | none => trivial
  | some t =>
    refine asks_append (asks_outward ..) (asks_append (asks_moduleMembers ..)
      (asks_append (asks_offers ..) (asks_ite trivial (asks_moduleMembers ..))))

end Scope

/-! ## Looking up under a reading -/

namespace Walk

variable {r : Reading} {Q : Question → Prop} {w : Walk Candidate}

/-- Looking a name up finds the first candidate of that name in the list. -/
theorem value_firstNamed (r : Reading) (w : Walk Candidate) (name : String) :
    (w.firstNamed name).value r = (w.list r).find? (·.name == name) := by
  induction w with
  | done => rfl
  | offer c rest ih =>
    show ((if c.name == name then _ else _ : Walk Candidate).head?).value r =
      (c :: rest.list r).find? _
    rw [List.find?_cons]
    cases c.name == name
    · exact ih
    · rfl
  | ask q next ih => exact ih (r q)

theorem asks_firstNamed (h : w.Asks r Q) (name : String) : (w.firstNamed name).Asks r Q := by
  induction w with
  | done => trivial
  | offer c rest ih =>
    show ((if c.name == name then _ else _ : Walk Candidate).head?).Asks r Q
    split
    · trivial
    · exact ih h
  | ask q next ih => exact ⟨h.1, ih _ h.2⟩

end Walk

namespace Session

variable {src : ModuleSource}

variable (src) in
/-- What the walks at a place ask has one answer, whatever was asked before. -/
def SettledScope (site : NodeRef) (this : Ty) : Prop :=
  ∀ mode, (Scope.visible site this mode).Asks (reading src) (Settled src)

theorem FixedDeclarations.settledScope (h : FixedDeclarations src) (site : NodeRef) (this : Ty) :
    SettledScope src site this :=
  fun _ => (Scope.asks_visible site this).mono (fun _ => h.settled)

end Session

end PklAnalysis
