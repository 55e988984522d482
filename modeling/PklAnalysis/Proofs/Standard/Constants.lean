import PklAnalysis.Proofs.Session.Classes
import PklAnalysis.Proofs.Standard.Members
import PklAnalysis.Typing.Call

/-!
# Constants in the standard library

The type of a constant is below a class exactly if that is the class of its kind or a superclass of
it (`Constant.below_of_mem_classes`, `Constant.mem_classes_of_below`). Where such a class declares
a member that is understood, what it is declared as covers what constants have there
(`property_declared`, `method_declared`).
-/

namespace PklAnalysis

open Session

namespace Standard

variable {src : ModuleSource} {r : Reading} {k : Kind} {d : NodeRef}

/-- In every session the standard library answers as its clauses say. -/
theorem value_hierarchy (src : ModuleSource) {α : Type} {x : Query α}
    (h : x.Asks hierarchy Stage.IsBaseSupertype) : x.value (reading src) = x.value hierarchy := by
  induction x with
  | done a => rfl
  | ask q next ih =>
    have same : reading src q = hierarchy q := by
      cases q with
      | supertype d =>
        obtain ⟨m, i⟩ := d
        obtain rfl : m = ModuleId.base := beq_iff_eq.1 h.1
        rw [hierarchy_supertype]
        exact (settled_supertype src i).2
      | _ => cases h.1
    rw [Query.value_ask, Query.value_ask, same]
    exact ih _ h.2

/-! ## Members -/

/-- The first member of the name that a class or one of its superclasses declares. -/
def firstMember (mode : LookupMode) (d : NodeRef) (name : String) : Query (Option Candidate) :=
  (Scope.classMembers mode true ⟨d, [], []⟩).firstNamed name

/-- A property of the standard library whose annotation is a class above a kind of constants. -/
def CoversProperty (k : Kind) (c : Candidate) : Prop :=
  c.bindings.entries = [] ∧ c.decl.module = ModuleId.base ∧
    (std.tree.construct? c.decl.node).map Construct.isProperty = some true ∧
    (requiredType c.decl).Asks hierarchy Stage.IsBaseSupertype ∧
    ∃ d ∈ k.classes, (requiredType c.decl).value hierarchy = Base.simple d

/-- A method of the standard library without type parameters whose result type is a class above a
kind of constants. -/
def CoversMethod (k : Kind) (c : Candidate) : Prop :=
  c.bindings.entries = [] ∧ c.decl.module = ModuleId.base ∧ c.construct.isMethod = true ∧
    (std.tree.construct? c.decl.node).map (fun c => c.isMethod && c.typeParams.isEmpty) = some true ∧
    (methodReturnType c.decl .empty).Asks hierarchy Stage.IsBaseSupertype ∧
    ∃ d ∈ k.classes, (methodReturnType c.decl .empty).value hierarchy = Base.simple d

instance (k : Kind) (c : Candidate) : Decidable (CoversProperty k c) := by
  unfold CoversProperty
  infer_instance

instance (k : Kind) (c : Candidate) : Decidable (CoversMethod k c) := by
  unfold CoversMethod
  infer_instance

/-- What is known of a class of the constants of a kind. -/
structure SoundKind (k : Kind) (d : NodeRef) : Prop where
  isClass : IsClass d 0
  superclass : (ClassTy.superclass ⟨d, [], []⟩).Asks hierarchy Stage.IsBaseSupertype ∧
    ∀ p ∈ (ClassTy.superclass ⟨d, [], []⟩).value hierarchy,
      p.args = [] ∧ p.constraints = [] ∧ p.decl ∈ k.classes
  above : (ClassTy.projectTo ⟨k.cls, [], []⟩ d).Asks hierarchy Stage.IsBaseSupertype ∧
    ((ClassTy.projectTo ⟨k.cls, [], []⟩ d).value hierarchy).isSome = true
  properties : ∀ p ∈ k.properties, (firstMember .property d p.1).Asks hierarchy Stage.IsBaseSupertype ∧
    ∀ c ∈ (firstMember .property d p.1).value hierarchy, CoversProperty p.2 c
  methods : ∀ p ∈ k.methods, (firstMember .method d p.1).Asks hierarchy Stage.IsBaseSupertype ∧
    ∀ c ∈ (firstMember .method d p.1).value hierarchy, CoversMethod p.2 c

instance (k : Kind) (d : NodeRef) : Decidable (SoundKind k d) :=
  decidable_of_iff (_ ∧ _ ∧ _ ∧ _ ∧ _) ⟨fun ⟨a, b, c, p, m⟩ => ⟨a, b, c, p, m⟩,
    fun ⟨a, b, c, p, m⟩ => ⟨a, b, c, p, m⟩⟩

/-- Which kinds of constants belong to a class that is treated specially. -/
structure Apart (k : Kind) : Prop where
  null : std.null ∈ k.classes → k = .null
  string : std.string ∈ k.classes → k = .string
  int : std.int ∈ k.classes → k = .int
  float : std.float ∈ k.classes → k = .float
  number : std.number ∈ k.classes → k = .int ∨ k = .float
  duration : std.duration ∉ k.classes
  dataSize : std.dataSize ∉ k.classes

instance (k : Kind) : Decidable (Apart k) :=
  decidable_of_iff (_ ∧ _ ∧ _ ∧ _ ∧ _ ∧ _ ∧ _) ⟨fun ⟨a, b, c, d, e, f, g⟩ => ⟨a, b, c, d, e, f, g⟩,
    fun ⟨a, b, c, d, e, f, g⟩ => ⟨a, b, c, d, e, f, g⟩⟩

/-- What the standard library itself offers under a name. -/
def offered (mode : LookupMode) (name : String) : Option Candidate :=
  ((Scope.moduleMembers mode true ModuleId.base).firstNamed name).value hierarchy

/-- The classes of constants are gone through once. -/
theorem sound_kinds : (∀ k ∈ Kind.all, Apart k ∧ ∀ d ∈ k.classes, SoundKind k d) ∧
    (offered .method "Regex").isSome = true ∧
    ∀ c ∈ offered .method "Regex", CoversMethod .regex c := by
  decide +kernel

theorem apart (k : Kind) : Apart k := (sound_kinds.1 k k.mem_all).1

theorem soundKind (h : d ∈ k.classes) : SoundKind k d := (sound_kinds.1 k k.mem_all).2 d h

theorem exists_offered_regex : ∃ c, offered .method "Regex" = some c ∧ CoversMethod .regex c := by
  obtain ⟨c, hc⟩ := Option.isSome_iff_exists.1 sound_kinds.2.1
  exact ⟨c, hc, sound_kinds.2.2 c hc⟩

/-! ## Classes -/

theorem mem_classes_of_ascends {n : Nat} {c p : ClassTy} (h : (reading src).Ascends n c p)
    (args : c.args = []) (constraints : c.constraints = []) (hc : c.decl ∈ k.classes) :
    p.decl ∈ k.classes := by
  induction h with
  | here => exact hc
  | @up _ c q _ hq _ ih =>
    obtain ⟨decl, _, _⟩ := c
    cases args
    cases constraints
    obtain ⟨asks, up⟩ := (soundKind hc).superclass
    obtain ⟨args, constraints, mem⟩ := up q ((value_hierarchy src asks).symm.trans hq)
    exact ih args constraints mem

theorem mem_classes_of_below {as : List Ty} {c : Constraints}
    (h : (reading src).Below k.ty (.cls d as c)) : d ∈ k.classes := by
  obtain ⟨p, hp, -⟩ := Reading.below_cls_cls.1 h
  obtain ⟨n, up, rfl⟩ := Reading.ascends_of_projectFrom hp
  exact mem_classes_of_ascends up rfl rfl k.cls_mem_classes

theorem below_of_mem_classes (h : d ∈ k.classes) : (reading src).Below k.ty (Base.simple d) := by
  obtain ⟨asks, found⟩ := (soundKind h).above
  obtain ⟨p, hp⟩ := Option.isSome_iff_exists.1 found
  refine Reading.below_cls_cls.2 ⟨p, (value_hierarchy src asks).trans hp, ?_⟩
  rw [reading_params_of_isClass (soundKind h).isClass]
  trivial

end Standard

namespace Constant

variable {src : ModuleSource} {v : Constant} {d : NodeRef}

theorem isSimple_ty (v : Constant) : v.ty.isSimple = true := by
  cases v <;> rfl

theorem below_of_mem_classes (h : d ∈ v.kind.classes) :
    (reading src).Below v.ty (Base.simple d) := by
  cases v with
  | string s =>
    intro n
    refine Reading.sub_of_succ ?_
    show (reading src).sub (n + 1) (.literal s []) (.cls d [] []) = true
    rw [Reading.sub_literal_cls, ← Kind.ty_string]
    exact Standard.below_of_mem_classes (k := .string) h n
  | _ => exact Standard.below_of_mem_classes h

theorem mem_classes_of_below {as : List Ty} {c : Constraints}
    (h : (reading src).Below v.ty (.cls d as c)) : d ∈ v.kind.classes := by
  cases v with
  | string s =>
    have string : (reading src).Below (Kind.ty .string) (.cls d as c) := fun n => by
      have below : (reading src).sub (n + 1) (.literal s []) (.cls d as c) = true := h (n + 1)
      rwa [Reading.sub_literal_cls, ← Kind.ty_string] at below
    exact Standard.mem_classes_of_below string
  | _ => exact Standard.mem_classes_of_below h

end Constant

/-! ## Looking members up -/

namespace Session.Stage

variable {src : ModuleSource} {d : Nat} {a v : Constant} {e : NodeRef} {name : String} {c : Candidate}

/-- A property that is understood and that a class of the constant offers has an annotation above
the type of the value. -/
theorem coversProperty (hd : d < Limits.exprTypeDepth) (hv : (name, v.kind) ∈ a.kind.properties)
    (he : e ∈ a.kind.classes)
    (found : (typing src d).Admits (Standard.firstMember .property e name) (some c)) :
    Standard.CoversProperty v.kind c := by
  obtain ⟨asks, covers⟩ := (Standard.soundKind he).properties _ hv
  exact covers c ((gives_base hd asks).eq_of_admits found).symm

theorem coversMethod (hd : d < Limits.exprTypeDepth) (hv : (name, v.kind) ∈ a.kind.methods)
    (he : e ∈ a.kind.classes)
    (found : (typing src d).Admits (Standard.firstMember .method e name) (some c)) :
    Standard.CoversMethod v.kind c := by
  obtain ⟨asks, covers⟩ := (Standard.soundKind he).methods _ hv
  exact covers c ((gives_base hd asks).eq_of_admits found).symm

/-- While expressions are typed, such a property has the type of its annotation. -/
theorem gives_property (hd : d + 2 < Limits.exprTypeDepth) {k : Kind}
    (h : Standard.CoversProperty k c) : (typing src d).Gives (typeOfDeclaration c.decl c.bindings)
      ((requiredType c.decl).value Standard.hierarchy) := by
  obtain ⟨unbound, hm, property, asks, e, -, value⟩ := h
  obtain ⟨i, hi⟩ := exists_base hm
  rw [hi] at property asks value
  have empty : c.bindings = .empty := congrArg Bindings.mk unbound
  rw [hi, empty, value]
  refine (gives_declared hd (t := Base.simple e) ⟨property, asks, value, rfl⟩).bind ?_
  rw [Ty.bind_empty]
  exact gives_pure _

/-- So has a method the type of its result, whatever it is called with. -/
theorem gives_method (hd : d < Limits.exprTypeDepth) {k : Kind} (h : Standard.CoversMethod k c)
    (call : CallSite) : ∃ e ∈ k.classes, (typing src d).Gives (do
      let b ← callBindings c.decl c.bindings call
      methodReturnType c.decl b) (Base.simple e) := by
  obtain ⟨unbound, hm, -, method, asks, e, he, value⟩ := h
  have empty : c.bindings = .empty := congrArg Bindings.mk unbound
  have bindings : callBindings c.decl c.bindings call = pure .empty := by
    obtain ⟨k, hk, method⟩ := Option.map_eq_some_iff.1 method
    unfold callBindings
    rw [Standard.construct_base hm, hk, empty]
    cases k with
    | method m => exact if_pos method
    | _ => rfl
  refine ⟨e, he, ?_⟩
  rw [bindings]
  exact value ▸ gives_base hd asks

end Session.Stage

end PklAnalysis
