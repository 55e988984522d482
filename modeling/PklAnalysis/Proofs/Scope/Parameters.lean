import PklAnalysis.Proofs.Scope.Bounds
import PklAnalysis.Proofs.Standard.Lexical

/-!
# Parameters in scope

A look-up of a property is offered parameters among other things. In a session of lexical trees
these are exactly the parameters of the constructs around the site that lie inside the innermost
module around it, the innermost construct first: those of a `let`, a lambda and a generator where
their body holds the site, those of a method and of an object body anywhere inside
(`Session.parameters_offered`). This holds for every visitor that never stops, whatever it asks and
whatever was asked before.

`Walk.Sifts` says which part of a walk passes a test, whatever the answers on the way. There is one
lemma for each kind of walk.
-/

namespace PklAnalysis

/-! ## What passes a test -/

namespace Walk

variable {α β σ : Type} {P : (q : Question) → q.Answer → Prop} {p : β → Bool}

/-- What is offered and passes the test is the list, if every answer on the way lies in `P`. -/
def Sifts (P : (q : Question) → q.Answer → Prop) (p : β → Bool) : Walk β → List β → Prop
  | done, bs => bs = []
  | offer b rest, bs => if p b then ∃ cs, bs = b :: cs ∧ rest.Sifts P p cs else rest.Sifts P p bs
  | ask q next, bs => ∀ a, P q a → (next a).Sifts P p bs

variable {w x y : Walk β} {bs cs : List β}

theorem sifts_append (hx : x.Sifts P p bs) (hy : y.Sifts P p cs) : (x ++ y).Sifts P p (bs ++ cs) := by
  induction x generalizing bs with
  | done =>
    cases hx
    exact hy
  | offer b rest ih =>
    show (offer b (rest ++ y)).Sifts P p (bs ++ cs)
    rw [Sifts] at hx ⊢
    split at hx
    · next hb =>
      obtain ⟨ds, rfl, hd⟩ := hx
      rw [if_pos hb]
      exact ⟨ds ++ cs, rfl, ih hd⟩
    · next hb =>
      rw [if_neg hb]
      exact ih hx
  | ask q next ih => exact fun a ha => ih a (hx a ha)

theorem sifts_ofList (bs : List β) : (ofList bs).Sifts P p (bs.filter p) := by
  induction bs with
  | nil => rfl
  | cons b bs ih =>
    rw [ofList, Sifts, List.filter_cons]
    split
    · exact ⟨_, rfl, ih⟩
    · exact ih

theorem sifts_after {z : Query α} {A : α → Prop} {f : α → Walk β} (hz : z.Within P A)
    (hf : ∀ a, A a → (f a).Sifts P p bs) : (after z f).Sifts P p bs := by
  induction z with
  | done a => exact hf a hz
  | ask q next ih => exact fun a ha => ih a (hz a ha)

theorem sifts_of_within (h : w.Within P (p · = false)) : w.Sifts P p [] := by
  induction w with
  | done => rfl
  | offer b rest ih =>
    rw [Sifts, h.1, if_neg Bool.false_ne_true]
    exact ih h.2
  | ask q next ih => exact fun a ha => ih a (h a ha)

theorem sifts_filter (h : w.Sifts P p bs) (k : β → Bool) : (w.filter k).Sifts P p (bs.filter k) := by
  induction w generalizing bs with
  | done =>
    cases h
    rfl
  | offer b rest ih =>
    rw [filter]
    rw [Sifts] at h
    split at h
    · next hp =>
      obtain ⟨cs, rfl, hc⟩ := h
      rw [List.filter_cons]
      split
      · rw [Sifts, if_pos hp]
        exact ⟨_, rfl, ih hc⟩
      · exact ih hc
    · next hp =>
      split
      · rw [Sifts, if_neg hp]
        exact ih h
      · exact ih h
  | ask q next ih => exact fun a ha => ih a (h a ha)

/-- A visitor that never stops, and what it was offered so far. -/
def recorded (visit : σ → β → Query σ) (x : σ × List β) (b : β) : Query ((σ × List β) × Bool) := do
  let s ← visit x.1 b
  pure ((s, x.2 ++ [b]), true)

/-- A walk as it is offered to a visitor that may want one name only. -/
def wanted (name? : Option String) (w : Walk Candidate) : Walk Candidate :=
  match name? with
  | none => w
  | some name => w.named name

theorem sifts_wanted {w : Walk Candidate} {p : Candidate → Bool} {cs : List Candidate}
    (h : w.Sifts P p cs) (name? : Option String) :
    (w.wanted name?).Sifts P p (cs.filter (fun c => name?.all (c.name == ·))) := by
  cases name? with
  | none =>
    have all : cs.filter (fun c => (none : Option String).all (c.name == ·)) = cs :=
      List.filter_eq_self.2 (fun _ _ => rfl)
    rwa [all]
  | some name => exact sifts_filter h _

end Walk

namespace Session

/-- A visitor that never stops follows a walk to its end, and what passes the test is the list. -/
theorem run_recorded {β σ : Type} {src : ModuleSource} {P : (q : Question) → q.Answer → Prop}
    {p : β → Bool} {n : Nat} (hP : ∀ q m, P q (answer src n q m).1) {w : Walk β} {bs : List β}
    (h : w.Sifts P p bs) (visit : σ → β → Query σ) (s : σ) (seen : List β) (m : Memory) :
    ∃ s' cs m', (w.fold (Walk.recorded visit) (s, seen)).run (answer src n) m =
      (((s', seen ++ cs), true), m') ∧ cs.filter p = bs := by
  induction w generalizing bs s seen m with
  | done =>
    cases h
    exact ⟨s, [], m, by rw [List.append_nil]; rfl, rfl⟩
  | offer b rest ih =>
    -- The visitor puts its own queries; then the rest of the walk is followed.
    have step : ((Walk.offer b rest).fold (Walk.recorded visit) (s, seen)).run (answer src n) m =
        (rest.fold (Walk.recorded visit)
            (((visit s b).run (answer src n) m).1, seen ++ [b])).run (answer src n)
          ((visit s b).run (answer src n) m).2 := by
      rw [Walk.fold, Query.run_bind, Walk.recorded, Query.run_bind]
      rfl
    rw [step]
    have tail : ∃ ds, rest.Sifts P p ds ∧ bs = [b].filter p ++ ds := by
      rw [Walk.Sifts] at h
      rw [List.filter_cons, List.filter_nil]
      split at h
      · next hb =>
        obtain ⟨ds, rfl, hd⟩ := h
        exact ⟨ds, hd, by rw [if_pos hb]; rfl⟩
      · next hb => exact ⟨bs, h, by rw [if_neg hb]; rfl⟩
    obtain ⟨ds, hd, rfl⟩ := tail
    obtain ⟨s', cs, m', run, sift⟩ := ih hd ((visit s b).run (answer src n) m).1 (seen ++ [b])
      ((visit s b).run (answer src n) m).2
    exact ⟨s', b :: cs, m', by rw [run, List.append_assoc]; rfl, by
      rw [← List.singleton_append, List.filter_append, sift]⟩
  | ask q next ih => exact ih _ (h _ (hP q m)) s seen _

end Session

/-! ## Lexical trees -/

/-- The candidate at a node that is a parameter. -/
def SyntaxTree.parameter? (t : SyntaxTree) (i : NodeIndex) : Option Candidate :=
  match t.construct? i with
  | some (.param d) => some ⟨d.name, t.ref i, .param d, .empty⟩
  | _ => none

theorem SyntaxTree.construct_of_parameter {t : SyntaxTree} {i : NodeIndex} {c : Candidate}
    (h : t.parameter? i = some c) : c.decl = t.ref i ∧ t.construct? i = some c.construct := by
  unfold parameter? at h
  split at h
  · next d hd =>
    cases h
    exact ⟨rfl, hd⟩
  · cases h

def Candidate.isParam (c : Candidate) : Bool := c.construct.isParam

namespace ModuleSource

variable (src : ModuleSource)

/-- The tree of every module is lexical and knows its module. -/
def Lexical : Prop := ∀ m t, src.tree m = some t → t.module = m ∧ t.Lexical

variable {src}

theorem Lexical.treeOf (h : src.Lexical) {m : ModuleId} {t : SyntaxTree}
    (ht : src.treeOf m = some t) : t.Lexical := by
  unfold ModuleSource.treeOf at ht
  split at ht
  · cases ht
    exact Standard.lexical_std
  · exact (h m t ht).2

/-- A session with one module. -/
def only (t : SyntaxTree) : ModuleSource where
  tree i := if i = t.module then some t else none
  resolve _ _ := none

theorem lexical_only {t : SyntaxTree} (h : t.Lexical) : (only t).Lexical := by
  intro m u hu
  change (if m = t.module then some t else none) = some u at hu
  split at hu
  · next hm =>
    cases hu
    exact ⟨hm.symm, h⟩
  · cases hu

end ModuleSource

namespace Scope

open ModuleSource Walk

variable {src : ModuleSource} {S : Candidate → Prop} {mode : LookupMode}

/-! ### Members -/

section

variable (hS : ∀ {m t i j b c}, src.treeOf m = some t → j ∈ t.membersOf i →
  candidate? t mode b j = some c → S c)

include hS

theorem within_listed {m : ModuleId} {t : SyntaxTree} (ht : src.treeOf m = some t) {i : NodeIndex}
    {b : Bindings} {skip : Bool} {js : List NodeIndex} (hjs : ∀ j ∈ js, j ∈ t.membersOf i) :
    (offers t mode b skip js).Within src.TellsTrees S := by
  refine within_ofList (fun c hc => ?_)
  obtain ⟨j, hj, hcj⟩ := List.mem_filterMap.1 hc
  exact hS ht (hjs j (List.mem_of_mem_filter hj)) hcj

theorem within_classListed (skip : Bool) (k : ClassTy) :
    (classMembers mode skip k).Within src.TellsTrees S := by
  have from' : ∀ n seen skip k, (classMembersFrom mode n seen skip k).Within src.TellsTrees S := by
    intro n
    induction n with
    | zero => exact fun _ _ _ => trivial
    | succ n ih =>
      intro seen skip k
      unfold classMembersFrom
      refine within_ite trivial (within_after (within_tellsTrees k.decl.module) (fun t ht => ?_))
      cases t with
      | none => trivial
      | some t =>
        refine within_after Query.within_true (fun b _ => within_append ?_ ?_)
        · exact within_listed hS ht.symm (fun _ hj => hj)
        · refine within_after Query.within_true (fun parent _ => ?_)
          cases parent with
          | none => trivial
          | some parent => exact ih ..
  exact from' ..

theorem within_moduleListed (skip : Bool) (m : ModuleId) :
    (moduleMembers mode skip m).Within src.TellsTrees S := by
  have along : ∀ ms skip, (moduleMembersAlong mode skip ms).Within src.TellsTrees S := by
    intro ms
    induction ms with
    | nil => exact fun _ => trivial
    | cons k ms ih =>
      refine fun skip => within_after (within_tellsTrees k) (fun t ht => ?_)
      cases t with
      | none => exact ih true
      | some t =>
        refine within_append (within_listed hS ht.symm (i := t.root) ?_) (ih true)
        exact fun _ hj => SyntaxTree.mem_membersOf_root_of_mem_moduleMembers hj
  exact within_after Query.within_true (fun chain _ => along ..)

theorem within_membersListed (t : Ty) : (members mode t).Within src.TellsTrees S := by
  have step : ∀ {expand : Ty → Walk Candidate}, (∀ t, (expand t).Within src.TellsTrees S) →
      ∀ t, (membersWith mode expand true t).Within src.TellsTrees S := by
    intro expand he t
    fun_induction membersWith mode expand true t with
    | case1 | case2 => exact within_done
    | case3 | case4 | case7 => exact within_classListed hS ..
    | case5 => exact within_append (within_moduleListed hS ..) (within_classListed hS ..)
    | case6 => exact he _
    | case8 l r c ihl ihr => exact within_append ihl ihr
  have upTo : ∀ n t, (membersUpTo mode true n t).Within src.TellsTrees S := by
    intro n
    induction n with
    | zero => exact step (fun _ => within_done)
    | succ n ih => exact step (fun t => within_after Query.within_true (fun u _ => ih u))
  exact upTo _ t

end

theorem construct_of_candidate {t : SyntaxTree} {b : Bindings} {j : NodeIndex} {c : Candidate}
    (h : candidate? t mode b j = some c) : t.construct? j = some c.construct := by
  unfold candidate? at h
  cases hd : t.construct? j with
  | none =>
    rw [hd] at h
    cases h
  | some d =>
    rw [hd] at h
    dsimp only at h
    split at h
    · obtain ⟨_, _, rfl⟩ := Option.map_eq_some_iff.1 h
      rfl
    · cases h

section

variable (lexical : src.Lexical)

include lexical

/-- No member is a parameter. -/
theorem not_isParam_of_listed {m : ModuleId} {t : SyntaxTree} {i j : NodeIndex} {b : Bindings}
    {c : Candidate} (ht : src.treeOf m = some t) (hj : j ∈ t.membersOf i)
    (hc : candidate? t mode b j = some c) : c.isParam = false :=
  (lexical.treeOf ht).not_isParam_of_mem_membersOf hj (construct_of_candidate hc)

theorem sifts_members (t : Ty) : (members mode t).Sifts src.TellsTrees Candidate.isParam [] :=
  sifts_of_within (within_membersListed (not_isParam_of_listed lexical) t)

theorem sifts_classMembers (skip : Bool) (k : ClassTy) :
    (classMembers mode skip k).Sifts src.TellsTrees Candidate.isParam [] :=
  sifts_of_within (within_classListed (not_isParam_of_listed lexical) skip k)

theorem sifts_moduleMembers (skip : Bool) (m : ModuleId) :
    (moduleMembers mode skip m).Sifts src.TellsTrees Candidate.isParam [] :=
  sifts_of_within (within_moduleListed (not_isParam_of_listed lexical) skip m)

end

/-! ### Around a place -/

variable {t : SyntaxTree}

theorem filter_candidate (t : SyntaxTree) (i : NodeIndex) :
    (candidate? t .property .empty i).filter Candidate.isParam = t.parameter? i := by
  unfold candidate? SyntaxTree.parameter?
  cases t.construct? i with
  | none => rfl
  | some c => cases c <;> rfl

theorem sifts_offers {P : (q : Question) → q.Answer → Prop} (t : SyntaxTree) (is : List NodeIndex) :
    (offers t .property .empty false is).Sifts P Candidate.isParam
      (is.filterMap t.parameter?) := by
  have all : is.filter (fun i => !(false && t.hasModifier i .localKw)) = is :=
    List.filter_eq_self.2 (fun _ _ => rfl)
  unfold offers
  rw [all, ← funext (filter_candidate t), ← List.filter_filterMap]
  exact sifts_ofList _

theorem filterMap_parameter {js : List NodeIndex}
    (h : ∀ j ∈ js, ∀ d, t.construct? j = some d → d.isParam = false) :
    js.filterMap t.parameter? = [] := by
  refine List.filterMap_eq_nil_iff.2 (fun j hj => ?_)
  unfold SyntaxTree.parameter?
  split
  · next d hd => cases h j hj _ hd
  · rfl

section

variable (h : t.Lexical) {m : ModuleId} {i child : NodeIndex} {site : NodeRef} {c : Construct}

include h

/-- What a construct lists besides the parameters it binds offers no parameter. -/
theorem filterMap_parameter_beside (hc : t.construct? i = some c) {js : List NodeIndex}
    (hj : ∀ j ∈ js, j ∈ c.children) (hb : ∀ j ∈ js, j ∈ c.boundParams → 2 ≤ c.children.count j) :
    js.filterMap t.parameter? = [] :=
  filterMap_parameter (fun j hjs _ hd => h.not_isParam hc (hj j hjs) (hb j hjs) hd)

variable (lexical : src.Lexical)

include lexical

/-- A construct offers the parameters that it binds around the site, and no other ones. -/
theorem sifts_around {this : Ty} {innermost : Bool} (hc : t.construct? i = some c)
    (hpart : ∀ body ∈ c.boundIn?,
      (body = child ↔ Relation.ReflTransGen t.Lists body site.node)) :
    (around t .property this innermost i child c).Sifts src.TellsTrees Candidate.isParam
      ((t.boundAround site.node i).filterMap t.parameter?) := by
  have nothing : ∀ {js : List NodeIndex}, (∀ j ∈ js, j ∈ c.children) → c.boundParams = [] →
      js.filterMap t.parameter? = [] := by
    intro js hj hb
    refine filterMap_parameter_beside h hc hj (fun j _ hj => ?_)
    rw [hb] at hj
    cases hj
  have part : ∀ {body : NodeIndex}, c.boundIn? = some body →
      (if body = child then offers t .property .empty false c.boundParams else .done).Sifts
        src.TellsTrees Candidate.isParam ((t.boundAround site.node i).filterMap t.parameter?) := by
    intro body hb
    rw [SyntaxTree.boundAround_of_part hc hb (hpart body hb)]
    split
    · exact sifts_offers t _
    · exact rfl
  have members : (if innermost then members .property this else .done).Sifts src.TellsTrees
      Candidate.isParam [] := by
    split
    · exact sifts_members lexical this
    · exact rfl
  cases c with
  | letIn | lambda | forGenerator => exact part rfl
  | method d =>
    have twice : d.typeParams.filterMap t.parameter? = [] := by
      refine filterMap_parameter_beside h hc (fun j hj => ?_) (fun j hj hb => ?_)
      · simp only [Construct.children, List.mem_append]
        tauto
      · have ht : 1 ≤ d.typeParams.count j := List.count_pos_iff.2 hj
        have hp : 1 ≤ d.params.count j := List.count_pos_iff.2 hb
        simp only [Construct.children, List.count_append]
        omega
    rw [SyntaxTree.boundAround_of_everywhere hc rfl]
    have all := sifts_offers (P := src.TellsTrees) t (d.params ++ d.typeParams)
    rwa [List.filterMap_append, twice, List.append_nil] at all
  | objectBody ps ms =>
    have twice : ms.filterMap t.parameter? = [] := by
      refine filterMap_parameter_beside h hc (fun j hj => List.mem_append_right _ hj)
        (fun j hj hb => ?_)
      have hm : 1 ≤ ms.count j := List.count_pos_iff.2 hj
      have hp : 1 ≤ ps.count j := List.count_pos_iff.2 hb
      simp only [Construct.children, List.count_append]
      omega
    rw [SyntaxTree.boundAround_of_everywhere hc rfl]
    have all := sifts_append (sifts_offers (P := src.TellsTrees) t (ps ++ ms)) members
    rwa [List.filterMap_append, twice, List.append_nil, List.append_nil] at all
  | classDecl d =>
    rw [SyntaxTree.boundAround_of_everywhere hc rfl]
    have own : (classMembers .property false
        ⟨t.ref i, d.typeParams.map (fun p => .var (t.ref p) []), []⟩).Sifts src.TellsTrees
        Candidate.isParam [] := sifts_classMembers lexical false _
    have all := sifts_append own (sifts_offers (P := src.TellsTrees) t d.typeParams)
    rwa [nothing (fun j hj => List.mem_append_left _ (List.mem_append_left _ hj)) rfl] at all
  | aliasDecl d =>
    rw [SyntaxTree.boundAround_of_everywhere hc rfl]
    have all := sifts_offers (P := src.TellsTrees) t d.typeParams
    rwa [nothing (fun j hj => List.mem_append_left _ hj) rfl] at all
  | constrainedType inner cs =>
    rw [SyntaxTree.boundAround_of_everywhere hc rfl]
    show (if cs.contains child then _ else _ : Walk Candidate).Sifts _ _ _
    split
    · exact sifts_members lexical this
    · exact rfl
  | _ =>
    rw [SyntaxTree.boundAround_of_everywhere hc rfl]
    exact rfl

/-- On the way up from the site, the constructs inside the innermost module offer the parameters that
they bind around it. -/
theorem sifts_outward (this : Ty) (hs : site.node < t.size) (n : Nat) (innermost : Bool)
    (hchild : Relation.ReflTransGen t.Lists child site.node) :
    (outward t .property this innermost child (t.chainUp n (t.parent? child))).Sifts src.TellsTrees
      Candidate.isParam
      ((((t.chainUp n (t.parent? child)).takeWhile
        (fun a => !t.holdsAt a Construct.isModule)).flatMap (t.boundAround site.node)).filterMap
          t.parameter?) := by
  induction n generalizing child innermost with
  | zero => exact rfl
  | succ n ih =>
    cases hp : t.parent? child with
    | none => exact rfl
    | some i =>
      have hl := h.listed hp
      obtain ⟨c, hc, _⟩ := hl.exists_construct
      have holds : t.holdsAt i Construct.isModule = c.isModule := by
        rw [SyntaxTree.holdsAt, hc]
        rfl
      rw [SyntaxTree.chainUp, outward, hc, List.takeWhile_cons, holds]
      dsimp only
      cases c.isModule with
      | true => exact rfl
      | false =>
        rw [if_neg Bool.false_ne_true, Bool.not_false, if_pos rfl, List.flatMap_cons,
          List.filterMap_append]
        refine sifts_append (sifts_around h lexical hc (fun body hb => ?_))
          (ih _ (.head hl hchild))
        exact h.part_eq_iff hp hs hchild
          (SyntaxTree.lists_of_construct hc (Construct.mem_children_of_boundIn? hb))

end

theorem sifts_moduleLevel (lexical : src.Lexical) {m : ModuleId} (ht : src.treeOf m = some t) :
    (moduleLevel t .property m).Sifts src.TellsTrees Candidate.isParam [] := by
  have imports : (offers t .property .empty false t.imports).Sifts src.TellsTrees
      Candidate.isParam [] := by
    have all := sifts_offers (P := src.TellsTrees) t t.imports
    rwa [filterMap_parameter (fun j hj d hd => ?_)] at all
    have h := lexical.treeOf ht
    obtain ⟨md, hmd, hjm⟩ := SyntaxTree.exists_moduleDecl_of_mem_imports hj
    exact h.not_isParam hmd (List.mem_append_left _ hjm) (fun hb => nomatch hb) hd
  have library : (if m = ModuleId.base then .done
      else moduleMembers .property true ModuleId.base : Walk Candidate).Sifts src.TellsTrees
      Candidate.isParam [] := by
    split
    · exact rfl
    · exact sifts_moduleMembers lexical true _
  exact sifts_append (sifts_moduleMembers lexical false m) (sifts_append imports library)

/-- A look-up is offered the parameters of the constructs around the site, and no other ones. -/
theorem sifts_visible (lexical : src.Lexical) (site : NodeRef)
    (ht : src.treeOf site.module = some t) (hs : site.node < t.size) (this : Ty) :
    (visible site this .property).Sifts src.TellsTrees Candidate.isParam
      (((t.enclosing site.node).flatMap (t.boundAround site.node)).filterMap t.parameter?) := by
  refine sifts_after (within_tellsTrees site.module) (fun u hu => ?_)
  rw [ht] at hu
  subst hu
  have all := sifts_append
    (sifts_outward (lexical.treeOf ht) lexical this hs Limits.treeWalk true .refl)
    (sifts_moduleLevel lexical ht)
  rwa [List.append_nil] at all

end Scope

/-! ## Looking up a property -/

namespace Session

variable {src : ModuleSource}

/-- A look-up of a property is offered the parameters of the constructs around the site inside the
innermost module, the innermost construct first: those of a `let`, a lambda and a generator where the
body holds the site, those of a method and an object body anywhere inside. None of the first three is
offered in another part of the construct that binds it, nor outside. -/
theorem parameters_offered {σ : Type} (lexical : src.Lexical) (site : NodeRef) {t : SyntaxTree}
    (ht : src.treeOf site.module = some t) (hs : site.node < t.size) (this : Ty)
    (name? : Option String) (visit : σ → Candidate → Query σ) (s : σ) (n : Nat) (m : Memory) :
    ∃ s' seen m',
      (((Scope.visible site this .property).wanted name?).fold (Walk.recorded visit)
        (s, [])).run (answer src n) m = (((s', seen), true), m') ∧
      seen.filter Candidate.isParam =
        (((t.enclosing site.node).flatMap (t.boundAround site.node)).filterMap
          t.parameter?).filter (fun c => name?.all (c.name == ·)) ∧
      (site.node :: t.enclosing site.node).IsChain (fun j i => t.Lists i j) ∧
      (∀ i, i ∈ t.enclosing site.node ↔ Relation.TransGen t.Lists i site.node ∧
        ∀ k d, t.construct? k = some (.module d) → Relation.TransGen t.Lists k site.node →
          Relation.TransGen t.Lists k i) ∧
      ∀ i c p, t.construct? i = some c → p ∈ c.boundParams →
        (∃ k ∈ seen, k.isParam = true ∧ k.decl = t.ref p) →
          Relation.TransGen t.Lists i site.node ∧
          ∀ body ∈ c.boundIn?, ∀ part ∈ c.children,
            Relation.ReflTransGen t.Lists part site.node → part = body := by
  have h := lexical.treeOf ht
  have sifts := Walk.sifts_wanted (Scope.sifts_visible lexical site ht hs this) name?
  obtain ⟨s', seen, m', run, filtered⟩ :=
    run_recorded (ModuleSource.tellsTrees_answer n) sifts visit s [] m
  refine ⟨s', seen, m', run, filtered, h.isChain_enclosing _, fun i => h.mem_enclosing_iff hs, ?_⟩
  rintro i c p hc hp ⟨k, hk, param, decl⟩
  have spec := List.mem_of_mem_filter (filtered ▸ List.mem_filter.2 ⟨hk, param⟩)
  obtain ⟨q, hq, hqk⟩ := List.mem_filterMap.1 spec
  obtain ⟨j, hj, hqj⟩ := List.mem_flatMap.1 hq
  obtain ⟨d, hd, hqd, bound⟩ := SyntaxTree.mem_boundAround.1 hqj
  obtain ⟨qdecl, hqc⟩ := SyntaxTree.construct_of_parameter hqk
  -- The parameter is listed once, so it was offered for the construct that binds it.
  obtain rfl : q = p := congrArg NodeRef.node (qdecl.symm.trans decl)
  obtain rfl : i = j := (h.once
    (SyntaxTree.lists_of_construct hd (Construct.mem_children_of_boundParams hqd))
    (SyntaxTree.lists_of_construct hc (Construct.mem_children_of_boundParams hp))
    (SyntaxTree.lt_size_of_construct hqc)).1
  cases hc.symm.trans hd
  refine ⟨((h.mem_enclosing_iff hs).1 hj).1, fun body hb part hpart inside => ?_⟩
  exact h.part_unique (SyntaxTree.lists_of_construct hc hpart)
    (SyntaxTree.lists_of_construct hc (Construct.mem_children_of_boundIn? hb)) hs inside
    (bound body hb)

/-! ### Three modules -/

/-- The module `p = let (x = 1) x`. -/
def letTree : SyntaxTree where
  uri := "file:///let.pkl"
  module := 1
  nodes := #[⟨.param { name := "x" }, .nowhere, some 3⟩, ⟨.intLit 1, .nowhere, some 3⟩,
    ⟨.access "x" none, .nowhere, some 3⟩, ⟨.letIn 0 1 2, .nowhere, some 4⟩,
    ⟨.property { name := "p", value := some 3 }, .nowhere, some 5⟩,
    ⟨.module { members := [4] }, .nowhere, none⟩]
  root := 5

/-- A `let` around a module. -/
def annexTree : SyntaxTree where
  uri := "file:///annex.pkl"
  module := 1
  nodes := #[⟨.access "x" none, .nowhere, some 1⟩,
    ⟨.property { name := "p", value := some 0 }, .nowhere, some 2⟩,
    ⟨.module { members := [1] }, .nowhere, some 5⟩, ⟨.param { name := "x" }, .nowhere, some 5⟩,
    ⟨.intLit 1, .nowhere, some 5⟩, ⟨.letIn 3 4 2, .nowhere, some 6⟩,
    ⟨.property { name := "q", value := some 5 }, .nowhere, some 7⟩,
    ⟨.module { members := [6] }, .nowhere, none⟩]
  root := 7

/-- The module `function f(x: Int(x)) = 1`. -/
def annotatedTree : SyntaxTree where
  uri := "file:///annotated.pkl"
  module := 1
  nodes := #[⟨.access "x" none, .nowhere, some 2⟩, ⟨.declaredType none "Int" [], .nowhere, some 2⟩,
    ⟨.constrainedType 1 [0], .nowhere, some 3⟩,
    ⟨.param { name := "x", type := some 2 }, .nowhere, some 5⟩, ⟨.intLit 1, .nowhere, some 5⟩,
    ⟨.method { name := "f", params := [3], body := some 4 }, .nowhere, some 6⟩,
    ⟨.module { members := [5] }, .nowhere, none⟩]
  root := 6

theorem lexical_let : letTree.Lexical :=
  SyntaxTree.lexical_of_ordered
    (SyntaxTree.wellFormed_of_ordered (by decide) (by decide) (by decide)).toLinked
    (by decide) (by decide) (by decide) (by decide)

theorem lexical_annex : annexTree.Lexical :=
  SyntaxTree.lexical_of_ordered
    (SyntaxTree.wellFormed_of_ordered (by decide) (by decide) (by decide)).toLinked
    (by decide) (by decide) (by decide) (by decide)

theorem lexical_annotated : annotatedTree.Lexical :=
  SyntaxTree.lexical_of_ordered
    (SyntaxTree.wellFormed_of_ordered (by decide) (by decide) (by decide)).toLinked
    (by decide) (by decide) (by decide) (by decide)

/-- What a visitor that asks nothing is offered for a property at a node of the only module. -/
def Seen (t : SyntaxTree) (i : NodeIndex) (seen : List Candidate) : Prop :=
  ∃ m', ((Scope.visible ⟨1, i⟩ .unknown .property).fold (Walk.recorded (fun _ _ => pure ()))
    ((), [])).run (answer (ModuleSource.only t) fuel) {} = ((((), seen), true), m')

theorem enclosing_let : (letTree.enclosing 2).flatMap (letTree.boundAround 2) = [0] := by
  have inside : letTree.boundAround 2 3 = [0] :=
    SyntaxTree.boundAround_of_part (a := 2) (c := .letIn 0 1 2) rfl rfl (iff_of_true rfl .refl)
  have outside : letTree.boundAround 2 4 = [] :=
    (SyntaxTree.boundAround_of_everywhere (t := letTree) (i := 4) rfl rfl).trans rfl
  show [3, 4].flatMap _ = _
  rw [List.flatMap_cons, inside, List.flatMap_cons, outside, List.flatMap_nil]
  rfl

/-- The binder of a `let` is offered in its body. -/
theorem parameters_offered_let :
    (ModuleSource.only letTree).Lexical ∧ (ModuleSource.only letTree).treeOf 1 = some letTree ∧
    2 < letTree.size ∧
    ∃ seen, Seen letTree 2 seen ∧
      seen.filter Candidate.isParam = [⟨"x", ⟨1, 0⟩, .param { name := "x" }, .empty⟩] := by
  have lexical := ModuleSource.lexical_only lexical_let
  refine ⟨lexical, rfl, by decide, ?_⟩
  obtain ⟨_, seen, m', run, params, -⟩ := parameters_offered lexical ⟨1, 2⟩ rfl
    (by decide) .unknown none (fun _ _ => pure ()) () fuel {}
  refine ⟨seen, ⟨m', run⟩, ?_⟩
  rw [params, enclosing_let]
  rfl

/-- A module in the body of a `let` hides the binder, and the parameter of a method is offered in its
own annotation. -/
theorem parameters_not_lexical :
    (ModuleSource.only annexTree).Lexical ∧ annexTree.construct? 5 = some (.letIn 3 4 2) ∧
    Relation.ReflTransGen annexTree.Lists 2 0 ∧
    (∃ seen, Seen annexTree 0 seen ∧ seen.filter Candidate.isParam = []) ∧
    (ModuleSource.only annotatedTree).Lexical ∧ Relation.ReflTransGen annotatedTree.Lists 3 0 ∧
    ∃ seen, Seen annotatedTree 0 seen ∧
      (seen.filter Candidate.isParam).map Candidate.decl = [⟨1, 3⟩] := by
  have sees : ∀ {t : SyntaxTree} {i : NodeIndex}, t.Lexical → t.module = 1 → i < t.size →
      ∃ seen, Seen t i seen ∧ seen.filter Candidate.isParam =
        ((t.enclosing i).flatMap (t.boundAround i)).filterMap t.parameter? := by
    intro t i h ht hi
    have tree : (ModuleSource.only t).treeOf 1 = some t := if_pos ht.symm
    obtain ⟨_, seen, m', run, params⟩ := run_recorded (ModuleSource.tellsTrees_answer fuel)
      (Scope.sifts_visible (ModuleSource.lexical_only h) ⟨1, i⟩ tree hi .unknown)
      (fun _ _ => pure ()) () [] {}
    exact ⟨seen, ⟨m', run⟩, params⟩
  have annex : (annexTree.enclosing 0).flatMap (annexTree.boundAround 0) = [] := by
    have none : annexTree.boundAround 0 1 = [] :=
      (SyntaxTree.boundAround_of_everywhere (t := annexTree) (i := 1) rfl rfl).trans rfl
    show [1].flatMap _ = _
    rw [List.flatMap_cons, none, List.flatMap_nil]
    rfl
  have annotated : (annotatedTree.enclosing 0).flatMap (annotatedTree.boundAround 0) = [3] := by
    have type : annotatedTree.boundAround 0 2 = [] :=
      (SyntaxTree.boundAround_of_everywhere (t := annotatedTree) (i := 2) rfl rfl).trans rfl
    have param : annotatedTree.boundAround 0 3 = [] :=
      (SyntaxTree.boundAround_of_everywhere (t := annotatedTree) (i := 3) rfl rfl).trans rfl
    have method : annotatedTree.boundAround 0 5 = [3] :=
      (SyntaxTree.boundAround_of_everywhere (t := annotatedTree) (i := 5) rfl rfl).trans rfl
    show [2, 3, 5].flatMap _ = _
    rw [List.flatMap_cons, type, List.flatMap_cons, param, List.flatMap_cons, method,
      List.flatMap_nil]
    rfl
  have lists : annexTree.Lists 2 1 ∧ annexTree.Lists 1 0 ∧ annotatedTree.Lists 3 2 ∧
      annotatedTree.Lists 2 0 := by
    unfold SyntaxTree.Lists
    decide
  obtain ⟨hidden, seen₁, none⟩ := sees lexical_annex rfl (show 0 < annexTree.size by decide)
  obtain ⟨offered, seen₂, some⟩ :=
    sees lexical_annotated rfl (show 0 < annotatedTree.size by decide)
  rw [annex] at none
  rw [annotated] at some
  exact ⟨ModuleSource.lexical_only lexical_annex, rfl, .head lists.1 (.single lists.2.1),
    ⟨hidden, seen₁, none⟩, ModuleSource.lexical_only lexical_annotated, .head lists.2.2.1 (.single lists.2.2.2),
    ⟨offered, seen₂, by rw [some]; rfl⟩⟩

end Session

end PklAnalysis
