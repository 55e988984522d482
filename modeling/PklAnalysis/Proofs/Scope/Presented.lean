import PklAnalysis.Scope.Visit

/-!
# What visitors are shown

Each part of a walk that reports to a visitor is tied to a walk of candidates: it shows them in their
order, begins nothing after the visitor stopped, and goes on with the next part otherwise
(`Presents`). The tie is for all visitors at once. `Visitor.resolveUnqualified` presents
`Scope.visible` (`Presents.visible`), and `Visitor.resolveQualified` presents `Scope.members`
(`Presents.members`).

`Presents.append` and `Presents.after` say how parts are put together; from them there is one lemma
for each function that a walk is made of.
-/

namespace PklAnalysis

def Candidate.sight (c : Candidate) : Sight := (c.name, c.decl, c.bindings)

namespace Report

variable {σ : Type} {α : Type}

theorem goOn_andAlso (x : Report σ) : goOn.andAlso x = x := rfl

theorem andAlso_assoc (x y z : Report σ) :
    (x.andAlso y).andAlso z = x.andAlso (y.andAlso z) := by
  funext s
  unfold andAlso
  rw [bind_assoc]
  refine bind_congr (fun r => ?_)
  obtain ⟨s, _ | _ | _⟩ := r <;> rfl

theorem andAlso_goOn (x : Report σ) : x.andAlso goOn = x := by
  funext s
  unfold andAlso
  refine (bind_congr (fun r => ?_)).trans (bind_pure _)
  obtain ⟨s, _ | _ | _⟩ := r <;> rfl

variable {v : Visitor σ} {s s' : σ} {c : Sight}

theorem shown_andAlso_of_stop (h : v.step s c = (s', false)) (x : Report σ) :
    (v.shown c).andAlso x s = pure (s', some false) := by
  unfold andAlso Visitor.shown
  rw [h]
  rfl

theorem shown_andAlso_of_goOn (h : v.step s c = (s', true)) (x : Report σ) :
    (v.shown c).andAlso x s = x s' := by
  unfold andAlso Visitor.shown
  rw [h]
  rfl

end Report

theorem Walk.ofList_append {β : Type} (xs ys : List β) :
    ofList (xs ++ ys) = ofList xs ++ ofList ys := by
  induction xs with
  | nil => rfl
  | cons x xs ih => exact congrArg (offer x) ih

theorem Scope.offers_append (t : SyntaxTree) (mode : LookupMode) (b : Bindings) (skipLocal : Bool)
    (is js : List NodeIndex) :
    offers t mode b skipLocal (is ++ js) =
      offers t mode b skipLocal is ++ offers t mode b skipLocal js := by
  unfold offers
  rw [List.filter_append, List.filterMap_append, Walk.ofList_append]

/-- What is reported to every visitor. -/
abbrev Reporter : Type 1 := ∀ σ : Type, Visitor σ → Report σ

/-- A reporter shows every visitor what a walk offers, in its order and up to where the visitor stops
or the reporter is lost. -/
inductive Presents : Walk Candidate → Reporter → Prop
  | done : Presents .done (fun _ _ => .goOn)
  | lost (w : Walk Candidate) : Presents w (fun _ _ => .lost)
  | offer (c : Candidate) {w : Walk Candidate} {x : Reporter} :
      Presents w x → Presents (.offer c w) (fun σ v => (v.shown c.sight).andAlso (x σ v))
  | ask (q : Question) {next : q.Answer → Walk Candidate} {x : q.Answer → Reporter} :
      (∀ a, Presents (next a) (x a)) →
        Presents (.ask q next) (fun σ v s => .ask q (fun a => x a σ v s))

namespace Presents

open Scope

variable {w w' : Walk Candidate} {x x' : Reporter}

theorem append (h : Presents w x) (h' : Presents w' x') :
    Presents (w ++ w') (fun σ v => (x σ v).andAlso (x' σ v)) := by
  induction h with
  | done => exact h'
  | lost w => exact .lost (w ++ w')
  | offer c _ ih =>
    simp only [Report.andAlso_assoc]
    exact .offer c ih
  | ask q _ ih => exact .ask q ih

theorem after {α : Type} {f : α → Walk Candidate} {y : α → Reporter} (q : Query α)
    (h : ∀ a, Presents (f a) (y a)) :
    Presents (.after q f) (fun σ v => Report.after q (fun a => y a σ v)) := by
  induction q with
  | done a => exact h a
  | ask q next ih => exact .ask q ih

variable {mode : LookupMode} {t : SyntaxTree} {b : Bindings}

theorem offer_of_none {i : NodeIndex} (h : candidate? t mode b i = none) {σ : Type}
    (v : Visitor σ) : v.offer mode t b i = .goOn := by
  unfold candidate? at h
  unfold Visitor.offer
  cases hc : t.construct? i with
  | none => rfl
  | some c =>
    simp only [hc] at h ⊢
    split at h
    · rename_i accepted
      rw [if_pos accepted]
      cases hn : c.name? with
      | none => rfl
      | some name => rw [hn] at h; cases h
    · rename_i refused
      exact if_neg refused

theorem offer_of_some {i : NodeIndex} {c : Candidate} (h : candidate? t mode b i = some c)
    {σ : Type} (v : Visitor σ) : v.offer mode t b i = v.shown c.sight := by
  unfold candidate? at h
  unfold Visitor.offer
  cases hc : t.construct? i with
  | none => rw [hc] at h; cases h
  | some d =>
    simp only [hc] at h ⊢
    split at h
    · rename_i accepted
      rw [if_pos accepted]
      cases hn : d.name? with
      | none => rw [hn] at h; cases h
      | some name =>
        rw [hn] at h
        cases h
        rfl
    · cases h

theorem offers {skipLocal : Bool} (is : List NodeIndex) :
    Presents (Scope.offers t mode b skipLocal is)
      (fun _ v => v.offerAll mode t b skipLocal is) := by
  unfold Scope.offers
  induction is with
  | nil => exact .done
  | cons i is ih =>
    cases isLeftOut : skipLocal && t.hasModifier i .localKw with
    | true =>
      simpa only [Visitor.offerAll, List.filter_cons, isLeftOut, Bool.not_true, if_true,
        Bool.false_eq_true, if_false] using ih
    | false =>
      simp only [Visitor.offerAll, List.filter_cons, isLeftOut, Bool.not_false, if_true,
        Bool.false_eq_true, if_false]
      cases hc : candidate? t mode b i with
      | none =>
        simp only [List.filterMap_cons, hc, offer_of_none hc, Report.goOn_andAlso]
        exact ih
      | some c =>
        simp only [List.filterMap_cons, hc, offer_of_some hc]
        exact .offer c ih

theorem offers_append (is js : List NodeIndex) :
    Presents (Scope.offers t mode b false (is ++ js))
      (fun _ v => (v.offerAll mode t b false is).andAlso (v.offerAll mode t b false js)) := by
  rw [Scope.offers_append]
  exact (offers is).append (offers js)

/-- A single node. -/
theorem node (i : NodeIndex) :
    Presents (Scope.offers t mode b false [i]) (fun _ v => v.offer mode t b i) := by
  have alone : ∀ {σ : Type} (v : Visitor σ),
      v.offer mode t b i = v.offerAll mode t b false [i] := by
    intro σ v
    exact (Report.andAlso_goOn _).symm
  simp only [alone]
  exact offers [i]

theorem classMembersFrom (n : Nat) (seen : List NodeRef) (skipLocal : Bool) (c : ClassTy) :
    Presents (Scope.classMembersFrom mode n seen skipLocal c)
      (fun _ v => v.classMembersFrom mode n seen skipLocal c) := by
  induction n generalizing seen skipLocal c with
  | zero => exact .done
  | succ n ih =>
    simp only [Scope.classMembersFrom, Visitor.classMembersFrom]
    split
    · exact .done
    · refine .after _ (fun t => ?_)
      cases t with
      | none => exact .done
      | some t =>
        refine .after _ (fun b => (offers _).append (.after _ (fun parent => ?_)))
        cases parent with
        | none => exact .done
        | some parent => exact ih _ _ parent

theorem classMembers (skipLocal : Bool) (c : ClassTy) :
    Presents (Scope.classMembers mode skipLocal c) (fun _ v => v.classMembers mode skipLocal c) :=
  classMembersFrom ..

theorem moduleMembersAlong (skipLocal : Bool) (ms : List ModuleId) :
    Presents (Scope.moduleMembersAlong mode skipLocal ms)
      (fun _ v => v.moduleMembersAlong mode skipLocal ms) := by
  induction ms generalizing skipLocal with
  | nil => exact .done
  | cons m ms ih =>
    refine .after _ (fun t => ?_)
    cases t with
    | none => exact ih true
    | some t => exact (offers _).append (ih true)

theorem moduleMembers (skipLocal : Bool) (m : ModuleId) :
    Presents (Scope.moduleMembers mode skipLocal m)
      (fun _ v => v.moduleMembers mode skipLocal m) :=
  .after _ (fun _ => moduleMembersAlong ..)

theorem typeMembersWith {expand : Ty → Walk Candidate} {expand' : Ty → Reporter}
    (h : ∀ t, Presents (expand t) (expand' t)) (skipLocal : Bool) : ∀ t : Ty,
    Presents (Scope.membersWith mode expand skipLocal t)
      (fun σ v => v.typeMembersWith mode (fun t => expand' t σ v) skipLocal t)
  | .unknown => .done
  | .nothing => .done
  | .cls _ _ _ => classMembers ..
  | .literal _ _ => classMembers ..
  | .var _ _ => classMembers ..
  | .module _ _ _ => (moduleMembers ..).append (classMembers ..)
  | .typeAlias _ _ _ => h _
  | .union l r _ => (typeMembersWith h skipLocal l).append (typeMembersWith h skipLocal r)

theorem typeMembersUpTo (skipLocal : Bool) (n : Nat) (t : Ty) :
    Presents (Scope.membersUpTo mode skipLocal n t)
      (fun _ v => v.typeMembersUpTo mode skipLocal n t) := by
  induction n generalizing t with
  | zero => exact typeMembersWith (fun _ => .lost .done) skipLocal t
  | succ n ih => exact typeMembersWith (fun t => .after t.fullyUnaliased ih) skipLocal t

theorem members (t : Ty) :
    Presents (Scope.members mode t) (fun _ v => v.typeMembers mode true t) :=
  typeMembersUpTo ..

/-- Where a place is not inside the part, nothing is offered. -/
theorem ite {p : Prop} [Decidable p] (h : Presents w x) :
    Presents (if p then w else .done) (fun σ v => if p then x σ v else .goOn) := by
  split
  · exact h
  · exact .done

theorem around (this : Ty) (innermost : Bool) (i child : NodeIndex) (c : Construct) :
    Presents (Scope.around t mode this innermost i child c)
      (fun _ v => v.around mode t this innermost i child c) := by
  cases c with
  | letIn => exact (node _).ite
  | lambda => exact (offers _).ite
  | forGenerator key value =>
    refine Presents.ite ?_
    cases key with
    | none => exact node value
    | some key =>
      show Presents (Scope.offers t mode .empty false ([key] ++ [value])) _
      rw [Scope.offers_append]
      exact (node key).append (node value)
  | method => exact offers_append ..
  | objectBody => exact (offers_append ..).append (members this).ite
  | classDecl => exact (classMembers ..).append (offers _)
  | aliasDecl => exact offers _
  | constrainedType => exact (members this).ite
  | _ => exact .done

theorem outward (this : Ty) (innermost : Bool) (child : NodeIndex) (is : List NodeIndex) :
    Presents (Scope.outward t mode this innermost child is)
      (fun _ v => v.outward mode t this innermost child is) := by
  induction is generalizing innermost child with
  | nil => exact .done
  | cons i is ih =>
    simp only [Scope.outward, Visitor.outward]
    cases t.construct? i with
    | none => exact .done
    | some c =>
      dsimp only
      split
      · exact .done
      · exact (around this innermost i child c).append (ih _ i)

theorem visible (site : NodeRef) (this : Ty) :
    Presents (Scope.visible site this mode)
      (fun _ v => v.resolveUnqualified mode site this) := by
  refine .after _ (fun t => ?_)
  cases t with
  | none => exact .done
  | some t =>
    refine (outward ..).append ((moduleMembers ..).append ((offers _).append ?_))
    split
    · exact .done
    · exact moduleMembers ..

end Presents

end PklAnalysis
