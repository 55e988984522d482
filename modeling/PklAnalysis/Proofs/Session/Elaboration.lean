import PklAnalysis.Proofs.Scope.Inheritance
import PklAnalysis.Proofs.Session.Union
import PklAnalysis.Proofs.Types.Built
import PklAnalysis.Proofs.Types.Instances
import PklAnalysis.Proofs.Typing.Parts

/-!
# Type annotations under substitution

Reading a type node with type parameters bound and substituting in what it is read as without them
come to types below each other (`ScopedDeclarations.typeOfNode_bind`), although unions are put in
normal form before the substitution in the one case and after it in the other.

They need not where a side of a union disappears because a question is broken off or because of
`unknown`, or where classes extend each other, so that they are not below `Any`
(`Session.typeOfNode_not_bind`).
-/

namespace PklAnalysis

open Session

/-! ## What is asked -/

namespace Query

section

variable {r : Reading} {P : Question → Prop} {α β : Type}

theorem asks_mapM {f : α → Query β} {l : List α} (h : ∀ a ∈ l, (f a).Asks r P) :
    (l.mapM f).Asks r P := by
  induction l with
  | nil => trivial
  | cons a l ih =>
    rw [List.mapM_cons]
    refine (asks_bind ..).2 ⟨h a List.mem_cons_self, (asks_bind ..).2 ⟨?_, trivial⟩⟩
    exact ih (fun a ha => h a (List.mem_cons_of_mem _ ha))

theorem value_mapM (r : Reading) (f : α → Query β) (l : List α) :
    (l.mapM f).value r = l.map (fun a => (f a).value r) := by
  induction l with
  | nil => rfl
  | cons a l ih => rw [List.mapM_cons, value_bind, value_bind, ih, value_pure, List.map_cons]

end

variable (r : Reading)

theorem asks_ofModule (m : ModuleId) (name : Option String) :
    (Ty.ofModule m name).Asks r Question.IsSource := by
  have up : ∀ n seen m, (amendsRootFrom n seen m).Asks r Question.IsSource := by
    intro n
    induction n with
    | zero => exact fun _ _ => trivial
    | succ n ih =>
      intro seen m
      unfold amendsRootFrom
      split
      · trivial
      refine (asks_bind ..).2 ⟨(asks_bind ..).2 ⟨asks_tree r m, trivial⟩, ?_⟩
      split
      · trivial
      refine (asks_bind ..).2 ⟨asks_supermodule r m, ?_⟩
      cases (supermodule m).value r with
      | none => trivial
      | some next => exact ih ..
  exact (asks_bind ..).2 ⟨up _ _ m, trivial⟩

theorem asks_fitArgs (d : NodeRef) (as : List Ty) : (Ty.fitArgs d as).Asks r Question.IsSource :=
  (asks_bind ..).2 ⟨asks_typeParams r d, trivial⟩

theorem asks_typeOfTypeDecl (d : NodeRef) (as : List Ty) (b : Bindings) :
    (typeOfTypeDecl d as b).Asks r Question.IsSource := by
  refine (asks_bind ..).2 ⟨asks_construct r d, ?_⟩
  split
  · exact (asks_bind ..).2 ⟨asks_fitArgs r d as, trivial⟩
  · exact (asks_bind ..).2 ⟨asks_fitArgs r d as, trivial⟩
  · trivial
  · exact asks_ofModule ..
  · trivial

theorem asks_resolved (c : Candidate) : c.resolved.Asks r Question.IsSource := by
  unfold Candidate.resolved
  split
  · refine (asks_bind ..).2 ⟨(asks_bind ..).2 ⟨asks_construct r c.decl, ?_⟩, ?_⟩
    · split
      · unfold reference
        split
        · exact trivial
        · exact ⟨rfl, trivial⟩
      · trivial
    · split
      · trivial
      · exact (asks_bind ..).2 ⟨(asks_bind ..).2 ⟨asks_tree r _, trivial⟩, trivial⟩
  · split <;> trivial

theorem asks_resolve {w : Walk Candidate} (h : w.Asks r Question.OfScope) (name : String) :
    (w.resolve name).Asks r Question.OfScope := by
  refine (asks_bind ..).2 ⟨Walk.asks_firstNamed h name, ?_⟩
  split
  · trivial
  · rw [← bind_pure_comp]
    exact (asks_bind ..).2 ⟨asks_mono (fun _ h => h.ofScope) (asks_resolved r _), trivial⟩

theorem asks_resolveType (site : NodeRef) (qualifier : Option String) (name : String) :
    (resolveType site qualifier name).Asks r Question.OfScope := by
  cases qualifier with
  | none => exact asks_resolve r (Scope.asks_visible ..) name
  | some qualifier =>
    refine (asks_bind ..).2 ⟨asks_resolve r (Scope.asks_visible ..) qualifier, ?_⟩
    split
    · trivial
    refine (asks_bind ..).2 ⟨asks_mono (fun _ h => h.ofScope) (asks_construct r _), ?_⟩
    split
    · refine (asks_bind ..).2 ⟨asks_mono (fun _ h => h.ofScope) (asks_ofModule r _ _), ?_⟩
      exact asks_resolve r (Scope.asks_members _) name
    · trivial

theorem asks_typeOfTypeConstruct (b : Bindings) (n : NodeRef) {part : NodeIndex → Query Ty}
    (hpart : ∀ i, (part i).Asks r Question.OfScope) (c : Construct) :
    (typeOfTypeConstruct b n part c).Asks r Question.OfScope := by
  have parts : ∀ is : List NodeIndex, (is.mapM part).Asks r Question.OfScope :=
    fun is => asks_mapM (fun i _ => hpart i)
  cases c with
  | declaredType qualifier name args =>
    refine (asks_bind ..).2 ⟨asks_resolveType r n qualifier name, ?_⟩
    split
    · trivial
    refine (asks_bind ..).2 ⟨parts args, ?_⟩
    exact asks_mono (fun _ h => h.ofScope) (asks_typeOfTypeDecl ..)
  | literalType | nothingType => trivial
  | nullableType i => exact (asks_bind ..).2 ⟨hpart i, asks_either _ _⟩
  | unionType i j => exact (asks_bind ..).2 ⟨hpart i, (asks_bind ..).2 ⟨hpart j, asks_either _ _⟩⟩
  | constrainedType i cs => exact (asks_bind ..).2 ⟨hpart i, trivial⟩
  | functionType is i => exact (asks_bind ..).2 ⟨parts is, (asks_bind ..).2 ⟨hpart i, trivial⟩⟩
  | groupedType i => exact hpart i
  | moduleType => exact asks_mono (fun _ h => h.ofScope) (asks_ofModule ..)
  | _ => trivial

/-- What a type node denotes hangs on the source, on supertypes and on expansions only. -/
theorem asks_typeOfNode (n : NodeRef) (b : Bindings) :
    (typeOfNode n b).Asks r Question.OfScope := by
  refine (asks_bind ..).2 ⟨asks_mono (fun _ h => h.ofScope) (asks_tree ..), ?_⟩
  cases (tree n.module).value r with
  | none => trivial
  | some t =>
    have upTo : ∀ k i, (typeOfNodeUpTo t b n.module k i).Asks r Question.OfScope := by
      intro k
      induction k with
      | zero => exact fun _ => trivial
      | succ k ih =>
        intro i
        unfold typeOfNodeUpTo
        split
        · trivial
        · exact asks_typeOfTypeConstruct r b _ ih _
    exact upTo ..

end Query

namespace Session

variable {src : ModuleSource}

/-- The type that a type node denotes does not hang on what was asked before. -/
theorem FixedDeclarations.gives_typeOfNode (h : FixedDeclarations src) (n : NodeRef) (b : Bindings) :
    Gives src (typeOfNode n b) ((typeOfNode n b).value (reading src)) :=
  gives_value (h.asks (Query.asks_typeOfNode _ n b))

/-! ## What type nodes denote -/

section

variable (src)

/-- The type that a type node denotes. -/
def denoted (b : Bindings) (n : NodeRef) : Ty := (typeOfNode n b).value (reading src)

/-- No `unknown` comes up in the types that are united at or below a type node, and none of them is
below the other one just for the limit, be it without parameters bound or with them. -/
structure ClearUnions (t : SyntaxTree) (n : NodeRef) (s : Bindings) : Prop where
  known : ∀ {i c e f}, t.TypeReach n.node i → t.construct? i = some c →
    c.united (fun j => denoted src .empty ⟨n.module, j⟩) = some (e, f) →
      (reading src).Known e ∧ (reading src).Known f
  before : ∀ {i c e f}, t.TypeReach n.node i → t.construct? i = some c →
    c.united (fun j => denoted src .empty ⟨n.module, j⟩) = some (e, f) → (reading src).Certain e f
  after : ∀ {i c x y}, t.TypeReach n.node i → t.construct? i = some c →
    c.united (fun j => denoted src s ⟨n.module, j⟩) = some (x, y) → (reading src).Certain x y

end

theorem denoted_eq {n : NodeRef} {t : SyntaxTree} (ht : src.treeOf n.module = some t) (b : Bindings) :
    denoted src b n = (typeOfNodeUpTo t b n.module (t.size + 1) n.node).value (reading src) := by
  unfold denoted typeOfNode
  rw [Query.value_bind, value_tree, ht]

/-! ## Binding before and after -/

section

variable {s : Bindings}

theorem instance_functionTy {l : List (Ty × Ty)} {e x : Ty}
    (hl : ∀ q ∈ l, (reading src).Instance s q.1 q.2) (h : (reading src).Instance s e x) :
    (reading src).Instance s (std.functionTy (l.map (·.1)) e) (std.functionTy (l.map (·.2)) x) := by
  have all : ∀ q ∈ l ++ [(e, x)], (reading src).Instance s q.1 q.2 := by
    intro q hq
    rcases List.mem_append.1 hq with hq | hq
    · exact hl q hq
    · exact List.mem_singleton.1 hq ▸ h
  obtain ⟨d, k, hd, eq⟩ := Standard.exists_functionTy l.length
  have count : ((l ++ [(e, x)]).drop k).length = ((reading src).params d).length := by
    rw [List.length_drop, List.length_append]
    exact length_params_of_isClass hd
  have both := Reading.Instance.cls count (fun q hq => all q (List.mem_of_mem_drop hq)) []
  rw [List.map_drop, List.map_drop, List.map_append, List.map_append] at both
  rw [eq _ _ (List.length_map _), eq _ _ (List.length_map _)]
  exact both

variable (h : ScopedDeclarations src)
include h

theorem ScopedDeclarations.instance_typeOfTypeDecl
    (known : ∀ p x, s.get? p = some x → (reading src).Known x) (d : NodeRef) {l : List (Ty × Ty)}
    (hl : ∀ q ∈ l, (reading src).Instance s q.1 q.2) :
    (reading src).Instance s ((typeOfTypeDecl d (l.map (·.1)) .empty).value (reading src))
      ((typeOfTypeDecl d (l.map (·.2)) s).value (reading src)) := by
  unfold typeOfTypeDecl
  rw [Query.value_bind, Query.value_bind]
  split
  · exact .ofClass d hl
  · exact .ofAlias h.stable d hl
  · exact .var (known d)
  · exact .ofModule _ _
  · exact .unknown

/-- A type node keeps its parts' types together: with the parameters bound in all of them, they make
a type that stands for what they made without. -/
theorem ScopedDeclarations.instance_typeOfTypeConstruct
    (composes : ∀ b, (reading src).Known b → (reading src).Composes b)
    (hs : (reading src).Replaces s) (known : ∀ p x, s.get? p = some x → (reading src).Known x)
    (n : NodeRef) {f g : NodeIndex → Query Ty} {c : Construct}
    (parts : ∀ j ∈ c.typeParts,
      (reading src).Instance s ((f j).value (reading src)) ((g j).value (reading src)))
    (sides : ∀ {e e'}, c.united (fun j => (f j).value (reading src)) = some (e, e') →
      ((reading src).Known e ∧ (reading src).Known e') ∧ (reading src).Certain e e')
    (after : ∀ {x x'}, c.united (fun j => (g j).value (reading src)) = some (x, x') →
      (reading src).Certain x x') :
    (reading src).Instance s ((typeOfTypeConstruct .empty n f c).value (reading src))
      ((typeOfTypeConstruct s n g c).value (reading src)) := by
  have pairs : ∀ {l : List NodeIndex}, (∀ j ∈ l, j ∈ c.typeParts) → ∃ k : List (Ty × Ty),
      (∀ q ∈ k, (reading src).Instance s q.1 q.2) ∧
        (l.mapM f).value (reading src) = k.map (·.1) ∧
        (l.mapM g).value (reading src) = k.map (·.2) := by
    intro l hl
    refine ⟨l.map (fun j => ((f j).value (reading src), (g j).value (reading src))),
      fun q hq => ?_, ?_, ?_⟩
    · obtain ⟨j, hj, rfl⟩ := List.mem_map.1 hq
      exact parts j (hl j hj)
    · rw [Query.value_mapM, List.map_map]
      rfl
    · rw [Query.value_mapM, List.map_map]
      rfl
  have unite : ∀ {e e' x x'}, (reading src).Instance s e x → (reading src).Instance s e' x' →
      c.united (fun j => (f j).value (reading src)) = some (e, e') →
      c.united (fun j => (g j).value (reading src)) = some (x, x') →
        (reading src).Instance s ((reading src).join e e') ((reading src).join x x') := by
    intro e e' x x' he he' hf hg
    obtain ⟨⟨ke, ke'⟩, certain⟩ := sides hf
    exact .join h.stable composes hs known he he' ke ke' certain (after hg)
  cases c with
  | declaredType qualifier name args =>
    obtain ⟨l, hl, left, right⟩ := pairs (l := args) (fun _ hj => hj)
    simp only [typeOfTypeConstruct, Query.value_bind]
    split
    · exact .unknown
    · rw [Query.value_bind, Query.value_bind, left, right]
      exact h.instance_typeOfTypeDecl known _ hl
  | literalType text => exact .closed (.literal text []) rfl
  | nothingType => exact .closed .nothing rfl
  | moduleType => exact .ofModule _ _
  | nullableType i =>
    simp only [typeOfTypeConstruct, Query.value_bind]
    have null : (reading src).Instance s std.nullTy std.nullTy :=
      Reading.Instance.cls (l := []) (length_params_of_isClass Standard.isClass_null)
        (List.forall_mem_nil _) []
    exact unite null (parts i List.mem_cons_self) rfl rfl
  | unionType i j =>
    simp only [typeOfTypeConstruct, Query.value_bind]
    exact unite (parts i List.mem_cons_self) (parts j (List.mem_cons_of_mem i List.mem_cons_self))
      rfl rfl
  | constrainedType i cs =>
    simp only [typeOfTypeConstruct, Query.value_bind, Query.value_pure]
    exact (parts i List.mem_cons_self).addConstraints (lawful_reading src) _
  | functionType is i =>
    obtain ⟨l, hl, left, right⟩ := pairs (l := is) (fun _ hj => List.mem_append_left [i] hj)
    rw [typeOfTypeConstruct, typeOfTypeConstruct, Query.value_bind, Query.value_bind,
      Query.value_bind, Query.value_bind, Query.value_pure, Query.value_pure, left, right]
    exact instance_functionTy hl (parts i (List.mem_append_right is List.mem_cons_self))
  | groupedType i => exact parts i List.mem_cons_self
  | _ => exact .unknown

/-- With parameters bound while it is read, a type node denotes a type that stands for what it
denotes without. -/
theorem ScopedDeclarations.instance_denoted
    (composes : ∀ b, (reading src).Known b → (reading src).Composes b)
    (hs : (reading src).Replaces s) (known : ∀ p x, s.get? p = some x → (reading src).Known x)
    {n : NodeRef} {t : SyntaxTree} (ht : src.treeOf n.module = some t)
    (unlooped : t.Unlooped n.node) (unions : ClearUnions src t n s) :
    (reading src).Instance s (denoted src .empty n) (denoted src s n) := by
  have upTo : ∀ k i, t.TypeReach n.node i → t.Nests k i → k ≤ t.size + 1 →
      (reading src).Instance s ((typeOfNodeUpTo t .empty n.module k i).value (reading src))
        ((typeOfNodeUpTo t s n.module k i).value (reading src)) := by
    intro k
    induction k with
    | zero => exact fun _ _ hk => hk.elim
    | succ k ih =>
      intro i hi nests hk
      unfold typeOfNodeUpTo
      split
      · exact .unknown
      next c hc =>
      have part : ∀ {j}, j ∈ c.typeParts → t.TypePart i j := fun hj => ⟨c, hc, hj⟩
      -- what a part denotes does not hang on the depth that is left
      have same : ∀ b, c.united (fun j => (typeOfNodeUpTo t b n.module k j).value (reading src)) =
          c.united (fun j => denoted src b ⟨n.module, j⟩) := by
        intro b
        refine Construct.united_congr (fun j hj => ?_)
        rw [denoted_eq (n := ⟨n.module, j⟩) ht,
          typeOfNodeUpTo_of_nests (nests j (part hj)) (Nat.le_of_succ_le hk)]
      refine h.instance_typeOfTypeConstruct composes hs known ⟨n.module, i⟩
        (fun j hj => ih j (hi.tail (part hj)) (nests j (part hj)) (Nat.le_of_succ_le hk)) ?_ ?_
      · intro e e' he
        rw [same] at he
        exact ⟨unions.known hi hc he, unions.before hi hc he⟩
      · intro x x' hx
        rw [same] at hx
        exact unions.after hi hc hx
  rw [denoted_eq ht, denoted_eq ht]
  exact upTo _ _ .refl unlooped.nests (Nat.le_refl _)

end

/-- Reading a type node with parameters bound and binding them in what it is read as without come to
types that are below each other. -/
theorem ScopedDeclarations.typeOfNode_bind (h : ScopedDeclarations src)
    (composes : ∀ b, (reading src).Known b → (reading src).Composes b) {n : NodeRef} {t : SyntaxTree}
    (ht : src.treeOf n.module = some t) (unlooped : t.Unlooped n.node) {s : Bindings}
    (hs : ∀ p x, s.get? p = some x → x ≠ .nothing ∧ src.Classed x ∧ (reading src).Known x)
    (unions : ClearUnions src t n s) :
    ∃ e x, Gives src (typeOfNode n .empty) e ∧ Gives src (typeOfNode n s) x ∧
      Gives src (x.isSubtype (e.bind s)) true ∧ Gives src ((e.bind s).isSubtype x) true := by
  have replaces : (reading src).Replaces s :=
    fun p x hx => ⟨(hs p x hx).1, h.rising (hs p x hx).2.1⟩
  have same := (h.instance_denoted composes replaces (fun p x hx => (hs p x hx).2.2) ht unlooped
    unions).same
  exact ⟨_, _, h.fixed.gives_typeOfNode n .empty, h.fixed.gives_typeOfNode n s,
    h.fixed.gives_true (same.1 _), h.fixed.gives_true (same.2 _)⟩

/-! ### Unions of several kinds -/

/-- The types of the first parameter of `blend`: `("a"|Same<…<U>…>)|("c"|"d")`, with `Same` a hundred
times. -/
def gapNodes : List Node :=
  [⟨.literalType "a", .nowhere, some 106⟩, ⟨.declaredType none "U" [], .nowhere, some 6⟩] ++
  (List.range 100).map (fun k => ⟨.declaredType none "Same" [5 + k], .nowhere, some (7 + k)⟩) ++
  [⟨.unionType 4 105, .nowhere, some 110⟩, ⟨.literalType "c", .nowhere, some 109⟩,
    ⟨.literalType "d", .nowhere, some 109⟩, ⟨.unionType 107 108, .nowhere, some 110⟩,
    ⟨.unionType 106 109, .nowhere, some 130⟩]

/-- The type of the second one: `((Pair<unknown, U>|Pair<Int, String>) -> Int)|((Pair<String, U>) -> Int)`. -/
def pickNodes : List Node :=
  [⟨.unknownType, .nowhere, some 113⟩, ⟨.declaredType none "U" [], .nowhere, some 113⟩,
    ⟨.declaredType none "Pair" [111, 112], .nowhere, some 117⟩,
    ⟨.declaredType none "Int" [], .nowhere, some 116⟩,
    ⟨.declaredType none "String" [], .nowhere, some 116⟩,
    ⟨.declaredType none "Pair" [114, 115], .nowhere, some 117⟩,
    ⟨.unionType 113 116, .nowhere, some 119⟩, ⟨.declaredType none "Int" [], .nowhere, some 119⟩,
    ⟨.functionType [117] 118, .nowhere, some 125⟩,
    ⟨.declaredType none "String" [], .nowhere, some 122⟩,
    ⟨.declaredType none "U" [], .nowhere, some 122⟩,
    ⟨.declaredType none "Pair" [120, 121], .nowhere, some 124⟩,
    ⟨.declaredType none "Int" [], .nowhere, some 124⟩,
    ⟨.functionType [122] 123, .nowhere, some 125⟩, ⟨.unionType 119 124, .nowhere, some 131⟩]

/-- A type alias `Same<T> = T` and a method `blend<U>(gap, pick, words: U|List<String>)`. -/
def blendNodes : List Node :=
  [⟨.typeParam { name := "T" }, .nowhere, some 2⟩,
    ⟨.declaredType none "T" [], .nowhere, some 2⟩,
    ⟨.aliasDecl { name := "Same", typeParams := [0], target := 1 }, .nowhere, some 134⟩,
    ⟨.typeParam { name := "U" }, .nowhere, some 133⟩] ++ gapNodes ++ pickNodes ++
    [⟨.declaredType none "U" [], .nowhere, some 129⟩,
      ⟨.declaredType none "String" [], .nowhere, some 128⟩,
      ⟨.declaredType none "List" [127], .nowhere, some 129⟩,
      ⟨.unionType 126 128, .nowhere, some 132⟩,
      ⟨.param { name := "gap", type := some 110 }, .nowhere, some 133⟩,
      ⟨.param { name := "pick", type := some 125 }, .nowhere, some 133⟩,
      ⟨.param { name := "words", type := some 129 }, .nowhere, some 133⟩,
      ⟨.method { name := "blend", typeParams := [3], params := [130, 131, 132] }, .nowhere, some 134⟩,
      ⟨.module { members := [2, 133] }, .nowhere, none⟩]

def blendTree : SyntaxTree where
  uri := "file:///blend.pkl"
  module := 1
  nodes := blendNodes.toArray
  root := 134

def blend : ModuleSource where
  tree i := if i = 1 then some blendTree else none
  resolve _ _ := none

/-- Of classes and aliases there is `Same` only, and the parts of a type node stand before it. -/
theorem blend_nodes : (∀ i < blendTree.size, ∀ c ∈ blendTree.construct? i,
      (c.isClass = false ∧ (c.isAlias = true → i = 2)) ∧ ∀ j ∈ c.typeParts, j < i) ∧
    blendTree.clause?.isNone = true ∧ blend.params ⟨1, 2⟩ = [(⟨1, 0⟩, .invariant)] := by
  decide +kernel

theorem blend_construct {d : NodeRef} {c : Construct} (hd : d.module ≠ ModuleId.base)
    (h : blend.construct? d = some c) : c.isClass = false ∧ (c.isAlias = true → d = ⟨1, 2⟩) := by
  obtain ⟨i, rfl, hc⟩ := construct?_only (fun _ => rfl) hd h
  obtain ⟨none, only⟩ := (blend_nodes.1 i (SyntaxTree.lt_size_of_construct hc) c hc).1
  exact ⟨none, fun ha => by rw [only ha]⟩

theorem blend_target : (aliasTarget ⟨1, 2⟩).Reads blend (pure (.var ⟨1, 0⟩ [])) := by
  have target : (aliasTarget ⟨1, 2⟩).Asks blend.table (·.isSource = true) ∧
      (aliasTarget ⟨1, 2⟩).value blend.table = .var ⟨1, 0⟩ [] := by
    decide +kernel
  exact target.2 ▸ .of_asks target.1

theorem blend_params : blend.params ⟨1, 2⟩ = [(⟨1, 0⟩, .invariant)] := blend_nodes.2.2

theorem scopedDeclarations_blend : ScopedDeclarations blend where
  supertype hd hc := absurd (blend_construct hd hc).1 nofun
  chain hd hc := absurd (blend_construct hd hc).1 nofun
  expansion hd ha := by
    cases (blend_construct hd ha).2 rfl
    obtain ⟨settled, value⟩ := gives_ask_iff.1 (gives_expansion_of_reads blend_target [] [])
    refine ⟨settled, ?_⟩
    rw [value, Reading.bindings_nil, Ty.bind_empty, Ty.addConstraints_nil, blend_params]
    exact fun p hp => hp

theorem plainClasses_blend : PlainClasses blend := by
  refine .of_no_class (fun hd hc => absurd (blend_construct hd hc).1 nofun)
    (modulesRooted_of_no_clause (fun h => ?_))
  obtain ⟨-, h⟩ := Option.ite_none_right_eq_some.1 h
  exact Option.some.inj h ▸ Option.isNone_iff_eq_none.1 blend_nodes.2.1

theorem gives_sames_blend (t : Ty) : Gives blend (Query.expansion ⟨1, 2⟩ [t] []) t :=
  gives_sames_of ((reading_params_eq _).trans blend_params) blend_target t

/-- With `x` for `U`. -/
def blended (x : Ty) : Bindings := Bindings.empty.insert ⟨1, 3⟩ x

/-- `("a"|Same<…<x>…>)` -/
def gapped (x : Ty) : Ty := .union (.literal "a" []) (sames x 100) []

/-- `(Pair<x, y>) -> Int` -/
def picker (x y : Ty) : Ty := std.functionTy [std.pairTy x y] std.intTy

/-- `"c"|"d"` -/
def textChoice : Ty := .union (.literal "c" []) (.literal "d" []) []

/-- `List<String>` -/
def wordList : Ty := std.listTy std.stringTy

/-- What the source and the alias say. -/
abbrev BlendAnswers {α : Type} (x : Query α) (a : α) : Prop := Answered blend sameAnswers x a

theorem gives_blend {α : Type} {x : Query α} {a : α} (h : BlendAnswers x a) : Gives blend x a :=
  gives_known (sound_sameAnswers gives_sames_blend) h

/-- What the parameters have for types, without `U` bound and with it, and how these types compare. -/
theorem blend_types :
    (BlendAnswers (typeOfNode ⟨1, 110⟩ .empty) textChoice ∧
      BlendAnswers (typeOfNode ⟨1, 110⟩ (blended (.literal "b" []))) (gapped (.literal "b" [])) ∧
      BlendAnswers ((gapped (.literal "b" [])).isSubtype textChoice) false) ∧
    (BlendAnswers (typeOfNode ⟨1, 125⟩ .empty) (picker std.stringTy (.var ⟨1, 3⟩ [])) ∧
      BlendAnswers (typeOfNode ⟨1, 125⟩ (blended std.stringTy))
        (.union (picker std.intTy std.stringTy) (picker std.stringTy std.stringTy) []) ∧
      BlendAnswers ((Ty.union (picker std.intTy std.stringTy)
        (picker std.stringTy std.stringTy) []).isSubtype (picker std.stringTy std.stringTy)) false ∧
      (picker std.stringTy (.var ⟨1, 3⟩ [])).bind (blended std.stringTy) =
        picker std.stringTy std.stringTy) ∧
    (BlendAnswers (typeOfNode ⟨1, 126⟩ .empty) (.var ⟨1, 3⟩ []) ∧
      BlendAnswers (typeOfNode ⟨1, 126⟩ (blended wordList)) wordList ∧
      BlendAnswers (typeOfNode ⟨1, 128⟩ .empty) wordList ∧
      BlendAnswers (typeOfNode ⟨1, 128⟩ (blended wordList)) wordList ∧
      BlendAnswers (typeOfNode ⟨1, 129⟩ .empty) (.union (.var ⟨1, 3⟩ []) wordList []) ∧
      BlendAnswers (typeOfNode ⟨1, 129⟩ (blended wordList)) wordList) ∧
    BlendAnswers (Ty.isSubtype (.var ⟨1, 3⟩ []) wordList) false ∧
    BlendAnswers (wordList.isSubtype (.var ⟨1, 3⟩ [])) false := by
  decide +kernel

theorem composes_blend (b : Ty) (hb : (reading blend).Known b) : (reading blend).Composes b :=
  plainClasses_blend.regular.composes hb

theorem known_baseClass {d : NodeRef} (hd : Standard.IsClass d 0) :
    (reading src).Known (Base.simple d) :=
  .cls [] (length_params_of_isClass hd) (fun _ h => absurd h List.not_mem_nil)

theorem known_functionTy {ts : List Ty} {t : Ty} (hts : ∀ u ∈ ts, (reading src).Known u)
    (ht : (reading src).Known t) : (reading src).Known (std.functionTy ts t) := by
  obtain ⟨d, as, eq, hd, has⟩ := Standard.functionTy_cls ts t
  rw [eq]
  refine .cls [] (length_params_of_isClass hd) (fun a ha => ?_)
  rcases has a ha with ha | rfl
  · exact hts a ha
  · exact ht

theorem known_picker {x y : Ty} (hx : (reading src).Known x) (hy : (reading src).Known y) :
    (reading src).Known (picker x y) := by
  refine known_functionTy (fun u hu => ?_) (known_baseClass Standard.isClass_int)
  cases List.mem_singleton.1 hu
  refine .cls [] (length_params_of_isClass Standard.isClass_pair) (fun a ha => ?_)
  rcases List.mem_cons.1 ha with rfl | ha
  · exact hx
  · exact List.mem_singleton.1 ha ▸ hy

/-! ### Two classes that extend each other -/

/-- The module
```
class A extends B
class B extends A
function link<U>(x: U|Any)
```
-/
def ringTree : SyntaxTree where
  uri := "file:///ring.pkl"
  module := 1
  nodes := #[⟨.declaredType none "B" [], .nowhere, some 1⟩,
    ⟨.classDecl { name := "A", superclass := some 0 }, .nowhere, some 10⟩,
    ⟨.declaredType none "A" [], .nowhere, some 3⟩,
    ⟨.classDecl { name := "B", superclass := some 2 }, .nowhere, some 10⟩,
    ⟨.typeParam { name := "U" }, .nowhere, some 9⟩,
    ⟨.declaredType none "U" [], .nowhere, some 7⟩,
    ⟨.declaredType none "Any" [], .nowhere, some 7⟩, ⟨.unionType 5 6, .nowhere, some 8⟩,
    ⟨.param { name := "x", type := some 7 }, .nowhere, some 9⟩,
    ⟨.method { name := "link", typeParams := [4], params := [8] }, .nowhere, some 10⟩,
    ⟨.module { members := [1, 3, 9] }, .nowhere, none⟩]
  root := 10

/-- A session with this module only. -/
def ring : ModuleSource where
  tree i := if i = 1 then some ringTree else none
  resolve _ _ := none

def linkA : Ty := .cls ⟨1, 1⟩ [] []

def linkB : Ty := .cls ⟨1, 3⟩ [] []

/-- `A|Any` -/
def linkOrAny : Ty := .union linkA std.anyTy []

theorem gives_supertype_ring : Gives ring (Query.supertype ⟨1, 1⟩) (some linkB) ∧
    Gives ring (Query.supertype ⟨1, 3⟩) (some linkA) :=
  ⟨gives_supertype_of_clause (t := ringTree) (Standard.ne_any nofun) rfl rfl rfl
      ⟨_, .of_settle rfl⟩ (by decide +kernel),
    gives_supertype_of_clause (t := ringTree) (Standard.ne_any nofun) rfl rfl rfl
      ⟨_, .of_settle rfl⟩ (by decide +kernel)⟩

/-- What the classes extend. -/
def ringAnswers : (q : Question) → Option q.Answer
  | .supertype d =>
    if d = ⟨1, 1⟩ then some (some linkB) else if d = ⟨1, 3⟩ then some (some linkA) else none
  | _ => none

theorem sound_ringAnswers {q : Question} {a : q.Answer} (h : ringAnswers q = some a) :
    Gives ring (.ask q .done) a := by
  unfold ringAnswers at h
  split at h
  · split at h
    · next e => exact e ▸ Option.some.inj h ▸ gives_supertype_ring.1
    · split at h
      · next e => exact e ▸ Option.some.inj h ▸ gives_supertype_ring.2
      · cases h
  · cases h

/-- The types that come up when `link` is read with `A` for `U`. -/
def ringTypes : List Ty := [linkA, linkB, std.anyTy, linkOrAny]

/-- Whether two of these types are one below the other: no class but `Any` leads to `Any`. -/
def linked (t u : Ty) : Bool :=
  u == linkOrAny || (t != linkOrAny && (t == std.anyTy) == (u == std.anyTy))

/-- What the source and the classes say. -/
abbrev RingAnswers {α : Type} (x : Query α) (a : α) : Prop := Answered ring ringAnswers x a

theorem ring_types :
    (RingAnswers (typeOfNode ⟨1, 7⟩ .empty) std.anyTy ∧
      RingAnswers (typeOfNode ⟨1, 7⟩ (Bindings.empty.insert ⟨1, 4⟩ linkA)) linkOrAny) ∧
    (∀ t ∈ ringTypes, ∀ u ∈ ringTypes, RingAnswers (t.isSubtype u) (linked t u)) ∧
    (∀ t ∈ ringTypes, ∀ u ∈ ringTypes, ∀ v ∈ ringTypes,
      linked t u = true → linked u v = true → linked t v = true) ∧
    linked linkOrAny std.anyTy = false := by
  decide +kernel

theorem gives_ring {α : Type} {x : Query α} {a : α} (h : RingAnswers x a) : Gives ring x a :=
  gives_known sound_ringAnswers h

/-! ### Where reading and binding come apart -/

/-- Without parameters bound a type node denotes `e`, in which no `unknown` comes up, and with them
`x`, but `x` is not below what `e` turns into. -/
structure Strays (src : ModuleSource) (n : NodeRef) (s : Bindings) (e x : Ty) : Prop where
  known : (reading src).Known e
  before : Gives src (typeOfNode n .empty) e
  after : Gives src (typeOfNode n s) x
  apart : Gives src (x.isSubtype (e.bind s)) false

/-- A side may disappear because a question is not reached to the end, and a side may disappear in
which there is an `unknown`. A parameter disappears beside `Any`, but a class whose chain does not
reach `Any` stays there, and is not below it. -/
theorem typeOfNode_not_bind :
    (ScopedDeclarations blend ∧ ∀ b, (reading blend).Known b → (reading blend).Composes b) ∧
    ((reading blend).Known (.literal "b" []) ∧ (reading blend).Known std.stringTy) ∧
    Strays blend ⟨1, 110⟩ (blended (.literal "b" [])) textChoice (gapped (.literal "b" [])) ∧
    Strays blend ⟨1, 125⟩ (blended std.stringTy) (picker std.stringTy (.var ⟨1, 3⟩ []))
      (.union (picker std.intTy std.stringTy) (picker std.stringTy std.stringTy) []) ∧
    (∀ t ∈ ringTypes, ∀ u ∈ ringTypes, ∀ v ∈ ringTypes, Gives ring (t.isSubtype u) true →
      Gives ring (u.isSubtype v) true → Gives ring (t.isSubtype v) true) ∧
    (reading ring).Known linkA ∧
    Strays ring ⟨1, 7⟩ (Bindings.empty.insert ⟨1, 4⟩ linkA) std.anyTy linkOrAny := by
  have known : (reading blend).Known std.stringTy := known_baseClass Standard.isClass_string
  obtain ⟨⟨gap, gapBound, gapApart⟩, ⟨pick, pickBound, pickApart, bound⟩, -⟩ := blend_types
  obtain ⟨⟨link, linkBound⟩, compared, trans, apart⟩ := ring_types
  have below : ∀ {t u}, t ∈ ringTypes → u ∈ ringTypes → Gives ring (t.isSubtype u) (linked t u) :=
    fun ht hu => gives_ring (compared _ ht _ hu)
  refine ⟨⟨scopedDeclarations_blend, composes_blend⟩, ⟨.literal "b" [], known⟩,
    ⟨.union [] (.literal "c" []) (.literal "d" []), gives_blend gap, gives_blend gapBound,
      gives_blend gapApart⟩,
    ⟨known_picker known (.var _ _), gives_blend pick, gives_blend pickBound,
      bound.symm ▸ gives_blend pickApart⟩,
    fun t ht u hu v hv htu huv => ?_, ?_, ?_⟩
  · exact trans t ht u hu v hv ((below ht hu).unique htu) ((below hu hv).unique huv) ▸ below ht hv
  · exact .cls [] (by rw [reading_params_eq]; rfl) (fun _ h => absurd h List.not_mem_nil)
  · have union : linkOrAny ∈ ringTypes := by simp [ringTypes]
    have any : std.anyTy ∈ ringTypes := by simp [ringTypes]
    exact ⟨known_baseClass Standard.isClass_any, gives_ring link, gives_ring linkBound,
      apart ▸ below union any⟩

theorem denoted_blend {n : NodeRef} {b : Bindings} {t : Ty} (h : Gives blend (typeOfNode n b) t) :
    denoted blend b n = t :=
  (scopedDeclarations_blend.fixed.gives_typeOfNode n b).unique h

theorem blend_unlooped (i : NodeIndex) : blendTree.Unlooped i :=
  SyntaxTree.unlooped_of_ordered (fun i hi c hc => (blend_nodes.1 i hi c hc).2) i

set_option maxRecDepth 2000 in
theorem word_nodes : blendTree.construct? 129 = some (.unionType 126 128) ∧
    blendTree.construct? 126 = some (.declaredType none "U" []) ∧
    blendTree.construct? 128 = some (.declaredType none "List" [127]) ∧
    blendTree.construct? 127 = some (.declaredType none "String" []) :=
  ⟨rfl, rfl, rfl, rfl⟩

/-- Of the nodes at and below `U|List<String>` only this one unites types. -/
theorem word_united {b : Bindings} {i : NodeIndex} {c : Construct} {e f x y : Ty}
    (hi : blendTree.TypeReach 129 i) (hc : blendTree.construct? i = some c)
    (hx : denoted blend b ⟨1, 126⟩ = x) (hy : denoted blend b ⟨1, 128⟩ = y)
    (h : c.united (fun j => denoted blend b ⟨1, j⟩) = some (e, f)) : e = x ∧ f = y := by
  obtain ⟨words, var, list, text⟩ := word_nodes
  have closed : ∀ i ∈ [129, 126, 128, 127], ∀ c ∈ blendTree.construct? i, ∀ j ∈ c.typeParts,
      j ∈ [129, 126, 128, 127] := by
    decide +kernel
  have mem := hi.mem closed (.head _)
  simp only [List.mem_cons, List.not_mem_nil, or_false] at mem
  rcases mem with rfl | rfl | rfl | rfl
  · cases words.symm.trans hc
    obtain ⟨rfl, rfl⟩ := Prod.mk.inj (Option.some.inj h)
    exact ⟨hx, hy⟩
  · cases var.symm.trans hc
    cases h
  · cases list.symm.trans hc
    cases h
  · cases text.symm.trans hc
    cases h

theorem known_texts : (reading src).Known wordList :=
  .cls [] (length_params_of_isClass Standard.isClass_list)
    (fun _ ha => List.mem_singleton.1 ha ▸ known_baseClass Standard.isClass_string)

/-- `U|List<String>` becomes `List<String>|List<String>` or `List<String>`, which are below each
other. -/
theorem typeOfNode_bind_words :
    Gives blend (typeOfNode ⟨1, 129⟩ .empty) (.union (.var ⟨1, 3⟩ []) wordList []) ∧
    Gives blend (typeOfNode ⟨1, 129⟩ (blended wordList)) wordList ∧
    Gives blend (wordList.isSubtype (.union wordList wordList [])) true ∧
    Gives blend ((Ty.union wordList wordList []).isSubtype wordList) true := by
  obtain ⟨-, -, ⟨var, varBound, list, listBound, words, wordsBound⟩, below, above⟩ := blend_types
  have fixed := scopedDeclarations_blend.fixed
  have classed : blend.Classed wordList := by
    have list : ∃ c, blend.construct? std.list = some (.classDecl c) :=
      (Standard.isClass_list.source blend).1
    have string : ∃ c, blend.construct? std.string = some (.classDecl c) :=
      (Standard.isClass_string.source blend).1
    refine .cls [] list (fun a ha => ?_)
    cases List.mem_singleton.1 ha
    exact .cls [] string (fun _ h => absurd h List.not_mem_nil)
  have unions : ClearUnions blend blendTree ⟨1, 129⟩ (blended wordList) := by
    have left := denoted_blend (gives_blend var)
    have right := denoted_blend (gives_blend list)
    refine ⟨fun hi hc h => ?_, fun hi hc h => ?_, fun hi hc h => ?_⟩
    · obtain ⟨rfl, rfl⟩ := word_united hi hc left right h
      exact ⟨.var _ _, known_texts⟩
    · obtain ⟨rfl, rfl⟩ := word_united hi hc left right h
      exact ⟨fun hs => (nomatch (fixed.gives_true hs).unique (gives_blend below)),
        fun hs => (nomatch (fixed.gives_true hs).unique (gives_blend above))⟩
    · obtain ⟨rfl, rfl⟩ := word_united hi hc (denoted_blend (gives_blend varBound))
        (denoted_blend (gives_blend listBound)) h
      exact ⟨fun _ => Reading.below_self _, fun _ => Reading.below_self _⟩
  obtain ⟨e, x, he, hx, below, above⟩ := scopedDeclarations_blend.typeOfNode_bind composes_blend
    (n := ⟨1, 129⟩) (t := blendTree) rfl (blend_unlooped 129)
    (fun p x hx => by
      rw [Bindings.eq_of_get?_single hx]
      exact ⟨nofun, classed, known_texts⟩) unions
  cases he.unique (gives_blend words)
  cases hx.unique (gives_blend wordsBound)
  exact ⟨he, hx, below, above⟩

end Session

end PklAnalysis
