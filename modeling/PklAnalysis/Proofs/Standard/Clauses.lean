import PklAnalysis.Proofs.Types.Hierarchy
import PklAnalysis.Proofs.Types.Substitution

/-!
# The clauses of the standard library

Resolving the `extends` clause of a class puts one kind of question: the name is looked up among the
members of the class itself first, which asks for the supertype that is being resolved. Inside the
standard library that question comes to nothing, and the clause denotes a class applied to
parameters of the same variance (`resolves_of_clause`). An alias asks for supertypes only, and it
mentions its own parameters only (`resolves_of_alias`).

`Standard.supertype?` and `Standard.target` are what the clauses and the aliases come to.
-/

namespace PklAnalysis

namespace Query

variable {α : Type}

/-- Whether a query asks nothing. -/
def isDone : Query α → Bool
  | .done _ => true
  | .ask _ _ => false

instance decidableAsks (r : Reading) (P : Question → Prop) [DecidablePred P] :
    (x : Query α) → Decidable (x.Asks r P)
  | .done _ => isTrue trivial
  | .ask q next =>
    have : Decidable ((next (r q)).Asks r P) := decidableAsks r P (next (r q))
    inferInstanceAs (Decidable (P q ∧ (next (r q)).Asks r P))

end Query

namespace Question

/-- Whether the supertype of a class of interest is asked for. -/
def IsSupertype (p : NodeRef → Bool) : Question → Prop
  | .supertype d => p d = true
  | _ => False

instance (p : NodeRef → Bool) : DecidablePred (IsSupertype p)
  | .supertype d => inferInstanceAs (Decidable (p d = true))
  | .tree _ | .reference _ _ | .superclause _ _ | .aliased _ | .expansion _ _ _ | .declared _
  | .member _ | .expr _ _ | .bodyThis _ | .property _ | .expected _ => isFalse id

end Question

namespace Base

variable {b : Base} {ps : List Ty}

theorem functionTy_some {d : NodeRef} (h : b.functions[ps.length]? = some d) (t : Ty) :
    b.functionTy ps t = .cls d (ps ++ [t]) [] := by
  unfold functionTy
  rw [h]
  rfl

theorem functionTy_none (h : b.functions[ps.length]? = none) (t : Ty) :
    b.functionTy ps t = .cls b.function [t] [] := by
  unfold functionTy
  rw [h]
  rfl

end Base

/-- The type parameters of a declaration as its tree has them. -/
def SyntaxTree.params (t : SyntaxTree) (d : NodeRef) : List (NodeRef × Variance) :=
  match t.construct? d.node with
  | none => []
  | some c => c.typeParams.map (fun p => (d.sibling p, match t.construct? p with
      | some (.typeParam d) => d.variance
      | _ => .invariant))

/-- Every argument is a parameter of the same variance as the one it is put in for. -/
def Aligned (ps qs : List (NodeRef × Variance)) (args : List Ty) : Prop :=
  args.length = qs.length ∧
    ∀ x ∈ args.zip qs, ∃ p ∈ ps, p.2 = x.2.2 ∧ x.1 = .var p.1 []

instance (ps qs : List (NodeRef × Variance)) (args : List Ty) : Decidable (Aligned ps qs args) :=
  inferInstanceAs (Decidable (_ ∧ _))

theorem SyntaxTree.mem_nodes {t : SyntaxTree} {i : NodeIndex} {c : Construct}
    (h : t.construct? i = some c) : ∃ n, n.construct = c ∧ (n, i) ∈ t.nodes.toList.zipIdx := by
  obtain ⟨n, hn, hc⟩ := Option.map_eq_some_iff.1 h
  refine ⟨n, hc, ?_⟩
  rw [List.mem_zipIdx_iff_getElem?, Array.getElem?_toList]
  exact hn

namespace Standard

/-- The node in the `extends` clause of a class. -/
def clause? (i : NodeIndex) : Option NodeIndex :=
  if (⟨ModuleId.base, i⟩ : NodeRef) = std.any then none
  else match std.tree.construct? i with
    | some (.classDecl d) => d.superclass
    | _ => none

/-- The type in a clause, where the class itself has no supertype yet. -/
def clauseTy (clause : NodeIndex) : Ty :=
  (typeOfNode ⟨ModuleId.base, clause⟩ .empty).value Session.fallback

/-- The declared supertype of a class of the standard library. -/
def supertype? (i : NodeIndex) : Option Ty :=
  if (⟨ModuleId.base, i⟩ : NodeRef) = std.any then none
  else match std.tree.construct? i with
    | some (.classDecl d) => match d.superclass with
      | none => some std.typedTy
      | some clause => some (clauseTy clause)
    | _ => none

/-- The classes of the standard library have their supertypes, and nothing else is answered. -/
def hierarchy : Reading
  | .supertype d => if d.module = ModuleId.base then supertype? d.node else none
  | q => Session.fallback q

/-- The right-hand side of an alias of the standard library. -/
def target (i : NodeIndex) : Ty := (aliasTarget ⟨ModuleId.base, i⟩).value hierarchy

/-- How far a class of the standard library is from `Any`. -/
def rank (i : NodeIndex) : Nat :=
  match supertype? i with
  | some (.cls d _ _) => match supertype? d.node with
    | some (.cls e _ _) => if (⟨ModuleId.base, e.node⟩ : NodeRef) = std.any then 2 else 3
    | _ => 1
  | _ => 0

/-- A class applied to parameters of the class at `i`, closer to `Any` than that class. -/
def Ascent (i : NodeIndex) (d : NodeRef) (args : List Ty) (c : Constraints) : Prop :=
  d.module = ModuleId.base ∧ c = [] ∧ rank d.node < rank i ∧
    Aligned (std.tree.params ⟨ModuleId.base, i⟩) (std.tree.params d) args

instance (i : NodeIndex) (d : NodeRef) (args : List Ty) (c : Constraints) :
    Decidable (Ascent i d args c) := by
  unfold Ascent
  infer_instance

/-- The supertype of a class is such a class. -/
def Extends (i : NodeIndex) : Ty → Prop
  | .cls d args c => Ascent i d args c
  | _ => False

instance (i : NodeIndex) : DecidablePred (Extends i)
  | .cls d args c => inferInstanceAs (Decidable (Ascent i d args c))
  | .unknown | .nothing | .var _ _ | .module _ _ _ | .typeAlias _ _ _ | .literal _ _
  | .union _ _ _ => isFalse id

/-- Resolving the clause of a class asks for the supertype of this class, and for nothing else. -/
def AsksItself (i : NodeIndex) : Prop :=
  ∀ clause ∈ clause? i, (typeOfNode ⟨ModuleId.base, clause⟩ .empty).isDone = false ∧
    (typeOfNode ⟨ModuleId.base, clause⟩ .empty).Asks Session.fallback
      (Question.IsSupertype (· == ⟨ModuleId.base, i⟩))

instance (i : NodeIndex) : Decidable (AsksItself i) := by
  unfold AsksItself
  infer_instance

/-- What is known of a class. None extends the class of `null`. -/
def SoundClass (i : NodeIndex) : Prop :=
  AsksItself i ∧ (∀ s ∈ supertype? i, Extends i s ∧ s.classDecl? ≠ some std.null) ∧
    ((std.tree.params ⟨ModuleId.base, i⟩).map (·.1)).Nodup

instance (i : NodeIndex) : Decidable (SoundClass i) := by
  unfold SoundClass
  infer_instance

/-- What is known of an alias: resolving it asks for supertypes of the standard library only, and it
mentions its own parameters only. -/
def SoundAlias (i : NodeIndex) : Prop :=
  (aliasTarget ⟨ModuleId.base, i⟩).Asks hierarchy
    (Question.IsSupertype (·.module == ModuleId.base)) ∧
  ∀ p ∈ (target i).vars, p ∈ (std.tree.params ⟨ModuleId.base, i⟩).map (·.1)

instance (i : NodeIndex) : Decidable (SoundAlias i) := by
  unfold SoundAlias
  infer_instance

/-- A class of the standard library with that many type parameters. -/
def IsClass (d : NodeRef) (n : Nat) : Prop :=
  d.module = ModuleId.base ∧ (std.tree.construct? d.node).map Construct.isClass = some true ∧
    n = (std.tree.params d).length

instance (d : NodeRef) (n : Nat) : Decidable (IsClass d n) := by
  unfold IsClass
  infer_instance

/-- Classes with a special role, and how many type parameters they have. -/
def special : List (NodeRef × Nat) :=
  [(std.any, 0), (std.null, 0), (std.boolean, 0), (std.number, 0), (std.int, 0), (std.float, 0),
    (std.string, 0), (std.regex, 0), (std.typed, 0), (std.module, 0), (std.list, 1),
    (std.collection, 1), (std.function, 1)] ++ std.functions.zipIdx.map (fun p => (p.1, p.2 + 1))

/-! The table of the standard library is gone through, the classes in two halves. -/

theorem sound_special :
    (∀ p ∈ special, IsClass p.1 p.2) ∧ std.classes.Nodup ∧ std.tree.clause? = none := by
  decide +kernel

theorem sound_aliases : ∀ p ∈ std.tree.nodes.toList.zipIdx,
    p.1.construct.isAlias = true → SoundAlias p.2 := by
  decide +kernel

theorem sound_classes_front : ∀ p ∈ std.tree.nodes.toList.zipIdx.take 440,
    p.1.construct.isClass = true → SoundClass p.2 := by
  decide +kernel

theorem sound_classes_back : ∀ p ∈ std.tree.nodes.toList.zipIdx.drop 440,
    p.1.construct.isClass = true → SoundClass p.2 := by
  decide +kernel

theorem sound_classes : ∀ p ∈ std.tree.nodes.toList.zipIdx,
    p.1.construct.isClass = true → SoundClass p.2 := by
  intro p hp
  rw [← List.take_append_drop 440 std.tree.nodes.toList.zipIdx] at hp
  exact (List.mem_append.1 hp).elim (sound_classes_front p) (sound_classes_back p)

theorem isClass_special {d : NodeRef} {n : Nat} (h : (d, n) ∈ special) : IsClass d n :=
  sound_special.1 (d, n) h

theorem classes_nodup : std.classes.Nodup := sound_special.2.1

/-- The class of `null` is none of the classes that other types stand for, or that classes
extend. -/
theorem null_apart : std.null ≠ std.any ∧ std.null ≠ std.string ∧ std.null ≠ std.typed ∧
    std.null ≠ std.module := by
  have h := classes_nodup
  simp only [Base.classes, List.nodup_cons, List.mem_cons, not_or] at h
  obtain ⟨⟨any, -⟩, ⟨-, -, -, -, string, -, -, -, -, typed, module, -⟩, -⟩ := h
  exact ⟨fun e => any e.symm, string, typed, module⟩

theorem no_clause : std.tree.clause? = none := sound_special.2.2

theorem IsClass.params {d : NodeRef} (h : IsClass d 0) : std.tree.params d = [] :=
  List.eq_nil_of_length_eq_zero h.2.2.symm

theorem isClass_typed : IsClass std.typed 0 := isClass_special (by simp [special])
theorem isClass_any : IsClass std.any 0 := isClass_special (by simp [special])
theorem isClass_string : IsClass std.string 0 := isClass_special (by simp [special])
theorem isClass_module : IsClass std.module 0 := isClass_special (by simp [special])
theorem isClass_null : IsClass std.null 0 := isClass_special (by simp [special])
theorem isClass_list : IsClass std.list 1 := isClass_special (by simp [special])
theorem isClass_collection : IsClass std.collection 1 := isClass_special (by simp [special])
theorem isClass_function : IsClass std.function 1 := isClass_special (by simp [special])

/-- A class of another module is not `Any`. -/
theorem ne_any {d : NodeRef} (h : d.module ≠ ModuleId.base) : d ≠ std.any :=
  fun e => h (e ▸ isClass_any.1)

theorem isClass_functions {d : NodeRef} {n : Nat} (h : std.functions[n]? = some d) :
    IsClass d (n + 1) := by
  refine isClass_special (List.mem_append_right _ (List.mem_map.2 ⟨(d, n), ?_, rfl⟩))
  exact List.mem_zipIdx_iff_getElem?.2 h

/-- Functions of `n` parameters have one class. Its arguments are the parameters and the result, or
the result alone. -/
theorem exists_functionTy (n : Nat) : ∃ d k, IsClass d (n + 1 - k) ∧
    ∀ (ps : List Ty) (t : Ty), ps.length = n →
      std.functionTy ps t = .cls d ((ps ++ [t]).drop k) [] := by
  cases hd : std.functions[n]? with
  | some d =>
    refine ⟨d, 0, isClass_functions hd, fun ps t hn => ?_⟩
    subst hn
    exact Base.functionTy_some hd t
  | none =>
    refine ⟨std.function, n, ?_, fun ps t hn => ?_⟩
    · rw [Nat.add_sub_cancel_left]
      exact isClass_function
    · subst hn
      rw [List.drop_left]
      exact Base.functionTy_none hd t

theorem functionTy_cls (ps : List Ty) (t : Ty) : ∃ d as, std.functionTy ps t = .cls d as [] ∧
    IsClass d as.length ∧ ∀ a ∈ as, a ∈ ps ∨ a = t := by
  obtain ⟨d, k, hd, eq⟩ := exists_functionTy ps.length
  refine ⟨d, _, eq ps t rfl, ?_, fun a ha => ?_⟩
  · rw [List.length_drop, List.length_append]
    exact hd
  · exact (List.mem_append.1 (List.mem_of_mem_drop ha)).imp_right List.mem_singleton.1

theorem soundClass {i : NodeIndex} {d : ClassDecl}
    (h : std.tree.construct? i = some (.classDecl d)) : SoundClass i := by
  obtain ⟨n, hc, hn⟩ := SyntaxTree.mem_nodes h
  exact sound_classes (n, i) hn (congrArg Construct.isClass hc)

theorem asksItself {i c : NodeIndex} (h : clause? i = some c) : AsksItself i := by
  unfold clause? at h
  split at h
  · cases h
  · split at h
    · next hc => exact (soundClass hc).1
    · cases h

theorem soundClass_of_supertype {i : NodeIndex} {s : Ty} (h : supertype? i = some s) :
    SoundClass i := by
  unfold supertype? at h
  split at h
  · cases h
  · split at h
    · next hc => exact soundClass hc
    · cases h

theorem supertype?_any {i : NodeIndex} (h : (⟨ModuleId.base, i⟩ : NodeRef) = std.any) :
    supertype? i = none := by
  unfold supertype?
  rw [if_pos h]

theorem soundAlias {i : NodeIndex} {d : AliasDecl}
    (h : std.tree.construct? i = some (.aliasDecl d)) : SoundAlias i := by
  obtain ⟨n, hc, hn⟩ := SyntaxTree.mem_nodes h
  exact sound_aliases (n, i) hn (congrArg Construct.isAlias hc)

end Standard

end PklAnalysis
