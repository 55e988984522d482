import PklAnalysis.Proofs.Session.Classes

/-!
# Well-formed answers

Type annotations denote well-formed types: every class type in them is of a class, every alias type
of an alias, and all of them have full argument lists. So the declared supertypes and the right-hand
sides of aliases that a session answers are well-formed, refused computations included
(`Envelope.formed`).
-/

namespace PklAnalysis

open Session

namespace ModuleSource

variable (src : ModuleSource)

/-- The type parameters of a declaration as the source has them. -/
def params (d : NodeRef) : List (NodeRef × Variance) :=
  ((src.treeOf d.module).map (·.params d)).getD []

theorem params_base {d : NodeRef} (h : d.module = ModuleId.base) :
    src.params d = std.tree.params d := by
  rw [params, treeOf, if_pos h, Option.map_some, Option.getD_some]

/-- A class with that many type parameters. -/
def IsClass (d : NodeRef) (n : Nat) : Prop :=
  (∃ c, src.construct? d = some (.classDecl c)) ∧ n = (src.params d).length

/-- An alias with that many type parameters. -/
def IsAlias (d : NodeRef) (n : Nat) : Prop :=
  (∃ a, src.construct? d = some (.aliasDecl a)) ∧ n = (src.params d).length

/-- Types of classes and aliases that there are, with full argument lists. -/
abbrev Formed : Ty → Prop := Ty.Formed src.IsClass src.IsAlias

end ModuleSource

namespace Standard

theorem IsClass.source {d : NodeRef} {n : Nat} (h : IsClass d n) (src : ModuleSource) :
    src.IsClass d n := by
  obtain ⟨hm, hc, hn⟩ := h
  have ht : src.treeOf d.module = some std.tree := if_pos hm
  refine ⟨?_, hn.trans (congrArg List.length (src.params_base hm).symm)⟩
  obtain ⟨c, hd, hc⟩ := Option.map_eq_some_iff.1 hc
  unfold ModuleSource.construct?
  rw [ht, Option.bind_some, hd]
  cases c <;> first | exact ⟨_, rfl⟩ | cases hc

end Standard

namespace Query

variable {src : ModuleSource} {P : (q : Question) → q.Answer → Prop} {α β : Type}

theorem within_mapM {f : α → Query β} {S : β → Prop} {l : List α}
    (h : ∀ a ∈ l, (f a).Within P S) : (l.mapM f).Within P (fun bs => ∀ b ∈ bs, S b) := by
  induction l with
  | nil => exact within_pure (fun _ h => absurd h List.not_mem_nil)
  | cons a l ih =>
    rw [List.mapM_cons]
    refine (h a List.mem_cons_self).bind (fun b hb => ?_)
    refine (ih (fun a ha => h a (List.mem_cons_of_mem _ ha))).bind (fun bs hbs => ?_)
    refine within_pure (fun x hx => ?_)
    rcases List.mem_cons.1 hx with rfl | hx
    · exact hb
    · exact hbs x hx

variable (hP : ∀ i a, P (.tree i) a → a = src.tree i)
include hP

theorem within_typeParams (d : NodeRef) : (typeParams d).Within P (· = src.params d) := by
  refine (within_construct hP d).bind (fun a ha => ?_)
  subst ha
  unfold ModuleSource.params
  cases src.treeOf d.module with
  | none => exact within_pure rfl
  | some t =>
    rw [Option.bind_some, Option.map_some, Option.getD_some]
    unfold SyntaxTree.params
    cases t.construct? d.node <;> exact within_pure rfl

/-- Fitted arguments are as many as there are parameters. -/
theorem within_fitArgs {K : Ty → Prop} (hK : K .unknown) (d : NodeRef) {as : List Ty}
    (h : ∀ a ∈ as, K a) : (Ty.fitArgs d as).Within P
      (fun bs => bs.length = (src.params d).length ∧ ∀ b ∈ bs, K b) := by
  refine (within_typeParams hP d).bind (fun ps hps => ?_)
  subst hps
  refine within_pure ⟨?_, fun b hb => ?_⟩
  · rw [List.length_append, List.length_take, List.length_replicate]
    omega
  · rcases List.mem_append.1 hb with hb | hb
    · exact h b (List.mem_of_mem_take hb)
    · exact List.eq_of_mem_replicate hb ▸ hK

theorem within_typeOfTypeDecl (d : NodeRef) {as : List Ty} (h : ∀ a ∈ as, src.Formed a) :
    (typeOfTypeDecl d as .empty).Within P src.Formed := by
  refine (within_construct hP d).bind (fun a ha => ?_)
  subst ha
  have fit := within_fitArgs hP (K := src.Formed) .unknown d h
  have hc : src.construct? d = (src.treeOf d.module).bind (·.construct? d.node) := rfl
  cases ht : src.treeOf d.module with
  | none => exact within_pure .unknown
  | some t =>
    rw [ht, Option.bind_some] at hc
    rw [Option.bind_some]
    cases hd : t.construct? d.node with
    | none => exact within_pure .unknown
    | some c =>
      rw [hd] at hc
      cases c with
      | classDecl c =>
        exact fit.bind (fun bs hbs => within_pure (.cls [] ⟨⟨c, hc⟩, hbs.1⟩ hbs.2))
      | aliasDecl a =>
        exact fit.bind (fun bs hbs => within_pure (.typeAlias [] ⟨⟨a, hc⟩, hbs.1⟩ hbs.2))
      | typeParam p => exact within_pure (.var d [])
      | module m =>
        exact Within.bind (T := fun _ => True) within_true
          (fun i _ => within_pure (.module i m.name []))
      | _ => exact within_pure .unknown

omit hP in
theorem within_either {t u : Ty} (ht : src.Formed t) (hu : src.Formed u) :
    (Ty.either t u).Within P src.Formed := by
  unfold Ty.either
  split
  · exact within_pure .unknown
  split
  · exact within_pure hu
  split
  · exact within_pure ht
  split
  · exact within_pure ht
  split
  · exact within_pure (.union [] ht hu)
  refine Within.bind (T := fun _ => True) within_true (fun b _ => ?_)
  cases b with
  | true => exact within_pure hu
  | false =>
    refine Within.bind (T := fun _ => True) within_true (fun b _ => ?_)
    cases b with
    | true => exact within_pure ht
    | false => exact within_pure (.union [] ht hu)

omit hP in
theorem formed_functionTy {ps : List Ty} {t : Ty} (hps : ∀ p ∈ ps, src.Formed p)
    (ht : src.Formed t) : src.Formed (std.functionTy ps t) := by
  obtain ⟨d, as, eq, hd, has⟩ := Standard.functionTy_cls ps t
  rw [eq]
  refine .cls [] (hd.source src) (fun a ha => ?_)
  rcases has a ha with ha | rfl
  · exact hps a ha
  · exact ht

theorem within_typeOfTypeConstruct (r : NodeRef) {part : NodeIndex → Query Ty}
    (hpart : ∀ i, (part i).Within P src.Formed) (c : Construct) :
    (typeOfTypeConstruct .empty r part c).Within P src.Formed := by
  have parts : ∀ is : List NodeIndex, (is.mapM part).Within P (fun ts => ∀ t ∈ ts, src.Formed t) :=
    fun is => within_mapM (fun i _ => hpart i)
  cases c with
  | declaredType qualifier name args =>
    refine Within.bind (T := fun _ => True) within_true (fun found _ => ?_)
    cases found with
    | none => exact within_pure .unknown
    | some found => exact (parts args).bind (fun ts hts => within_typeOfTypeDecl hP found.decl hts)
  | literalType s => exact within_pure (.literal s [])
  | nullableType i =>
    refine (hpart i).bind (fun t ht => within_either ?_ ht)
    exact .cls [] (Standard.isClass_null.source src) (fun _ h => absurd h List.not_mem_nil)
  | unionType i j => exact (hpart i).bind (fun t ht => (hpart j).bind (fun u hu => within_either ht hu))
  | constrainedType i cs => exact (hpart i).bind (fun t ht => within_pure (ht.addConstraints _))
  | functionType is i =>
    exact (parts is).bind (fun ts hts => (hpart i).bind (fun t ht =>
      within_pure (formed_functionTy hts ht)))
  | groupedType i => exact hpart i
  | nothingType => exact within_pure .nothing
  | moduleType =>
    exact Within.bind (T := fun _ => True) within_true (fun i _ => within_pure (.module i none []))
  | _ => exact within_pure .unknown

/-- Type annotations denote well-formed types. -/
theorem within_typeOfNode (r : NodeRef) : (typeOfNode r .empty).Within P src.Formed := by
  refine (within_tree hP r.module).bind (fun t _ => ?_)
  cases t with
  | none => exact within_pure .unknown
  | some t =>
    have nodes : ∀ n i, (typeOfNodeUpTo t .empty r.module n i).Within P src.Formed := by
      intro n
      induction n with
      | zero => exact fun _ => within_pure .unknown
      | succ n ih =>
        intro i
        unfold typeOfNodeUpTo
        cases t.construct? i with
        | none => exact within_pure .unknown
        | some c => exact within_typeOfTypeConstruct hP _ ih c
    exact nodes _ _

theorem within_aliasTarget (d : NodeRef) :
    (aliasTarget d).Within P (fun t => src.Formed t ∧
      ((∀ a, src.construct? d ≠ some (.aliasDecl a)) → t = .unknown)) := by
  refine (within_construct hP d).bind (fun a ha => ?_)
  subst ha
  have unknown : (pure .unknown : Query Ty).Within P (fun t => src.Formed t ∧
      ((∀ a, src.construct? d ≠ some (.aliasDecl a)) → t = .unknown)) :=
    within_pure ⟨.unknown, fun _ => rfl⟩
  have hc : src.construct? d = (src.treeOf d.module).bind (·.construct? d.node) := rfl
  cases ht : src.treeOf d.module with
  | none => exact unknown
  | some t =>
    rw [ht, Option.bind_some] at hc
    rw [Option.bind_some]
    cases hd : t.construct? d.node with
    | none => exact unknown
    | some c =>
      rw [hd] at hc
      cases c with
      | aliasDecl a =>
        exact (within_typeOfNode hP _).mono (fun t ht => ⟨ht, fun h => absurd hc (h a)⟩)
      | _ => exact unknown

theorem within_declaredSupertype_formed
    (hs : ∀ d k a, P (.superclause d k) a → ∀ t ∈ a, src.Formed t) (d : NodeRef) :
    (declaredSupertype d).Within P (fun a => ∀ t ∈ a, src.Formed t) := by
  have nothing : (pure .none : Query (Option Ty)).Within P (fun a => ∀ t ∈ a, src.Formed t) :=
    within_pure nofun
  have typed : src.Formed std.typedTy :=
    .cls [] (Standard.isClass_typed.source src) (fun _ h => absurd h List.not_mem_nil)
  unfold declaredSupertype
  split
  · exact nothing
  refine (within_construct hP d).bind (fun a ha => ?_)
  subst ha
  cases src.treeOf d.module with
  | none => exact nothing
  | some t =>
    rw [Option.bind_some]
    cases t.construct? d.node with
    | none => exact nothing
    | some c =>
      cases c with
      | classDecl c =>
        obtain ⟨_, _, _, _ | clause, _⟩ := c
        · exact within_pure (fun t ht => Option.some.inj ht ▸ typed)
        · exact within_ask (hs d _)
      | _ => exact nothing

end Query

namespace ModuleSource

/-- What the answers about declared types have in common. -/
def FormedAnswer (src : ModuleSource) : (q : Question) → q.Answer → Prop
  | .tree i, a => a = src.tree i
  | .reference m uri, a => a = src.resolve m uri
  | .supertype _, a => ∀ t ∈ a, src.Formed t
  | .superclause _ _, a => ∀ t ∈ a, src.Formed t
  | .aliased d, t => src.Formed t ∧ ((∀ a, src.construct? d ≠ some (.aliasDecl a)) → t = .unknown)
  | .expansion d _ _, t => (∀ a, src.construct? d ≠ some (.aliasDecl a)) → t = .unknown
  | _, _ => True

variable {src : ModuleSource}

theorem formedAnswer_fallback {q : Question} (hq : q.isSource = false) :
    src.FormedAnswer q (fallback q) := by
  cases q with
  | tree | reference => cases hq
  | supertype | superclause => exact nofun
  | aliased => exact ⟨.unknown, fun _ => rfl⟩
  | expansion => exact fun _ => rfl
  | _ => trivial

theorem formedAnswer_tree (i : ModuleId) : src.FormedAnswer (.tree i) (src.tree i) := rfl

theorem formedAnswer_reference (m : ModuleId) (uri : String) :
    src.FormedAnswer (.reference m uri) (src.resolve m uri) := rfl

theorem formedAnswer_refused {q : Question} {ks : List GuardKey} (h : q.Refused ks) :
    src.FormedAnswer q (fallback q) := by
  obtain ⟨k, hk, _⟩ := h
  exact formedAnswer_fallback (by cases q <;> first | rfl | cases hk)

theorem within_formedAnswer {q : Question} (hq : q.isSource = false) :
    (body q).Within src.FormedAnswer (src.FormedAnswer q) := by
  have tree : ∀ i a, src.FormedAnswer (.tree i) a → a = src.tree i := fun _ _ h => h
  cases q with
  | tree | reference => cases hq
  | supertype d => exact Query.within_declaredSupertype_formed tree (fun _ _ _ h => h) d
  | superclause d k =>
    refine (Query.within_typeOfNode tree k).bind (fun t ht => Query.within_pure (fun u hu => ?_))
    exact Option.some.inj hu ▸ ht
  | aliased d => exact Query.within_aliasTarget tree d
  | expansion d as c =>
    refine Query.Within.bind (Query.within_ask (fun t ht => ht.2)) (fun t ht => ?_)
    refine Query.Within.bind (T := fun _ => True) Query.within_true (fun b _ => ?_)
    refine Query.within_pure (fun ha => ?_)
    rw [ht ha]
    rfl
  | _ => exact Query.within_true

end ModuleSource

/-- Refused or not, the answers about declared types are well-formed. -/
def Envelope.formed (src : ModuleSource) : Envelope src where
  stored := src.FormedAnswer
  given _ _ := src.FormedAnswer
  given_of_stored h := h
  stored_tree := ModuleSource.formedAnswer_tree
  stored_reference := ModuleSource.formedAnswer_reference
  given_zero _ _ hq := ModuleSource.formedAnswer_fallback hq
  given_refused _ _ _ h := ModuleSource.formedAnswer_refused h
  given_succ _ _ _ hq _ := ModuleSource.within_formedAnswer hq
  stored_body _ hq := ModuleSource.within_formedAnswer hq

namespace Session

variable (src : ModuleSource)

theorem formed_supertype {d : NodeRef} {t : Ty} (h : reading src (.supertype d) = some t) :
    src.Formed t := (Envelope.formed src).given_answer .fresh (.supertype d) t h

/-- What declares no alias stands for nothing known. -/
theorem settled_expansion_of_not_alias {d : NodeRef}
    (h : ∀ a, src.construct? d ≠ some (.aliasDecl a)) (as : List Ty) (c : Constraints) :
    Settled src (.expansion d as c) ∧ reading src (.expansion d as c) = .unknown :=
  (Envelope.formed src).settled_of_unique (fun _ hb => hb h)

/-- An alias stands for a well-formed type with the arguments put in. -/
theorem exists_expansion (d : NodeRef) : ∃ t : Ty, src.Formed t ∧ ∀ as c,
    reading src (.expansion d as c) =
      (t.bind ((reading src).bindings d as)).addConstraints c := by
  obtain ⟨k, hk, h⟩ := @answer_expansion src _ .fresh d
  have hE := (Envelope.formed src).answer_bounded 1505 [.expansion d] (.aliased d) k (hk _)
  exact ⟨_, hE.1.1, h⟩

end Session

end PklAnalysis
