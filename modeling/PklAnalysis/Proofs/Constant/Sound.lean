import PklAnalysis.Proofs.Constant.Arithmetic
import PklAnalysis.Proofs.Session.Ledger
import PklAnalysis.Proofs.Session.Subtype
import PklAnalysis.Proofs.Types.Built

/-!
# Types of constant expressions

The type of an expression covers its constant value, unless it is unknown (`constant_below_type`).
This takes more than an orderly session: typing looks a member up in the alternatives of the
receiver's type, one after the other, while the value has the members of its class; and the rules
for arithmetic look at whole types. What is asked of the parts of an expression is collected in
`Faithful`; without it, the type may miss the value (`constant_not_below_type`).
-/

namespace PklAnalysis

open Session Reading

namespace Session

variable {src : ModuleSource} {K : Ty → Prop} {m : ModuleId} {t : SyntaxTree} {e i : NodeIndex}
  {v : Constant} {c : Construct}

theorem Stage.gives_construct {C : Stage src} {d : NodeRef} (ht : src.treeOf d.module = some t)
    (hc : t.construct? d.node = some c) : C.Gives (Query.construct d) (some (t, c)) := by
  have tree : C.Gives (Query.tree d.module) (some t) := by
    unfold Query.tree
    unfold ModuleSource.treeOf at ht
    split
    · next h =>
      rw [if_pos h] at ht
      exact ht ▸ gives_pure _
    · next h =>
      rw [if_neg h] at ht
      intro n k _
      show (Session.answer src n (.tree d.module) k).1 = some t
      rw [← ht]
      cases n <;> rfl
  refine tree.bind ?_
  dsimp only
  rw [hc]
  exact gives_pure _

/-- A member that is found in a union is found on one of its sides. -/
theorem Stage.admits_members_union {C : Stage src} {mode : LookupMode} {l r : Ty} {cs : Constraints}
    {name : String} {k : Candidate}
    (h : C.Admits ((Scope.members mode (.union l r cs)).firstNamed name) (some k)) :
    C.Admits ((Scope.members mode l).firstNamed name) (some k) ∨
      C.Admits ((Scope.members mode r).firstNamed name) (some k) := by
  obtain ⟨n, memory, hm, h⟩ := h
  have sides : Scope.members mode (.union l r cs) = Scope.members mode l ++ Scope.members mode r := by
    unfold Scope.members
    cases Limits.aliasNesting <;> rfl
  rw [sides, Walk.firstNamed_append, run_bind] at h
  cases found : (((Scope.members mode l).firstNamed name).run (Session.answer src n) memory).1 with
  | none =>
    rw [found] at h
    exact .inr ⟨n, _, at_run hm _, h⟩
  | some k' =>
    rw [found] at h
    cases h
    exact .inl ⟨n, memory, hm, found⟩

/-- An expression is typed one key further in, or its type is `unknown`. -/
theorem Stage.ensures_expr_typing {d : Nat} (hd : d < fuel) {e : NodeRef} {b : Bindings}
    {S : Ty → Prop} (hu : S .unknown) (h : (typing src (d + 1)).Ensures (exprType e b) S) :
    (typing src d).Ensures (Query.expr e b) S := by
  rintro n memory ⟨ks, hks, hm⟩
  exact ensures_expr hks hd hu (h.restrict (under_le_typing (hks.cons e))) n memory hm

variable (src) in
/-- The moments at which the parts of an expression with a value are typed. -/
abbrev partly : Stage src := .typing src Limits.constantDepth

/-- What the type of an expression must be like to cover its value, where `K` are the types that come
up: the type and the value must be computed with the same members, and the rules of arithmetic must
hold for the alternatives of the types. -/
structure Faithful (src : ModuleSource) (K : Ty → Prop) (m : ModuleId) (t : SyntaxTree)
    (e : NodeIndex) : Prop where
  tree : src.treeOf m = some t
  orderly : Orderly (partly src) K
  complete : Complete (partly src) K
  standard : ∀ u ∈ standardTypes, K u
  values : ∀ {i v}, t.Part e i → t.Computes i v → K v.ty
  types : ∀ {i T}, t.Typed e i → (partly src).Admits (Query.expr ⟨m, i⟩ .empty) T →
    T = .unknown ∨ K T
  /-- Whole numbers have no negative powers. -/
  powers : ∀ {i l r x y}, t.Part e i → t.construct? i = some (.binary .pow l r) →
    t.Computes l (.int x) → t.Computes r (.int y) → 0 ≤ y.toInt
  /-- What is added to a text is added to something that is typed as one. -/
  texts : ∀ {i l r s L}, t.Part e i → t.construct? i = some (.binary .add l r) →
    t.Computes l (.string s) → (partly src).Admits (Query.expr ⟨m, l⟩ .empty) L → L ≠ .unknown →
    (partly src).Admits (L.isSubtype std.stringTy) true
  /-- What a double is added to is typed as a number, and so is the double. -/
  sums : ∀ {i l r x y L R}, t.Part e i → t.construct? i = some (.binary .add l r) →
    t.Computes l (.int x) → t.Computes r (.float y) →
    (partly src).Admits (Query.expr ⟨m, l⟩ .empty) L → L ≠ .unknown →
    (partly src).Admits (Query.expr ⟨m, r⟩ .empty) R → R ≠ .unknown →
    (partly src).Admits (L.isSubtype std.numberTy) true ∧
      (partly src).Admits (R.isSubtype std.numberTy) true
  /-- The member that is found in the type of a receiver is one of a class of its value. -/
  members : ∀ {i j name args nullSafe a T U k}, t.Part e i →
    t.construct? i = some (.memberAccess j name args nullSafe) → t.Computes j a →
    (nullSafe && a.isNull) = false → (partly src).Admits (Query.expr ⟨m, j⟩ .empty) T →
    (partly src).Admits (if nullSafe then T.nonNull else pure T) U →
    (partly src).Admits ((Scope.members (.ofArgs args) U).firstNamed name) (some k) →
    ∃ d ∈ a.kind.classes, (partly src).Admits (Standard.firstMember (.ofArgs args) d name) (some k)
  /-- `Regex` is the method of the standard library. -/
  regex : ∀ {i args this}, t.Part e i → t.construct? i = some (.access "Regex" (some args)) →
    (partly src).Admits (thisType ⟨m, i⟩) this →
    (partly src).Gives ((Scope.visible ⟨m, i⟩ this .method).firstNamed "Regex")
      (Standard.offered .method "Regex")

/-- A type that comes up, or `unknown`, and that covers a constant. -/
abbrev CoversAmong (src : ModuleSource) (K : Ty → Prop) (v : Constant) (T : Ty) : Prop :=
  (T = .unknown ∨ K T) ∧ Covers src v T

/-! ## Members -/

theorem Standard.nullable_class : ∀ k ∈ Kind.all, ∀ d ∈ k.classes,
    (Ty.nullable (Base.simple d)).Asks Standard.hierarchy Stage.IsBaseSupertype ∧
      ((Ty.nullable (Base.simple d)).value Standard.hierarchy = Base.simple d ∨
        (Ty.nullable (Base.simple d)).value Standard.hierarchy =
          .union std.nullTy (Base.simple d) []) := by
  decide +kernel

/-- With `Null` a class of a constant still covers it. -/
theorem ensures_nullable_class (v : Constant) {d : NodeRef} (hd : d ∈ v.kind.classes) :
    (partly src).Ensures (Ty.nullable (Base.simple d)) (Covers src v) := by
  obtain ⟨asks, value⟩ := Standard.nullable_class _ v.kind.mem_all d hd
  have below : (reading src).Below v.ty (Base.simple d) := Constant.below_of_mem_classes hd
  refine (Stage.gives_base (by decide) asks).ensures (.inr ?_)
  rcases value with value | value <;> rw [value]
  · exact below
  · exact (below_union v.isSimple_ty).2 (.inr below)

/-- With `Null` a type covers `null`. -/
theorem Orderly.ensures_nullable (hK : Orderly (partly src) K) (null : K std.nullTy) (T : Ty) :
    (partly src).Ensures T.nullable (fun U => U = .unknown ∨ K U → Covers src .null U) := by
  have same : Constant.null.ty = std.nullTy := Kind.ty_null
  have self : Covers src .null std.nullTy := .inr (same ▸ below_self _)
  have union : Covers src .null (.union std.nullTy T []) :=
    .inr ((below_union rfl).2 (.inl (same ▸ below_self _)))
  unfold Ty.nullable Ty.either
  split
  · exact Stage.ensures_pure (fun _ => .inl rfl)
  split
  · next hn => cases Ty.eq_nothing_of_isNothing hn
  split
  · exact Stage.ensures_pure (fun _ => self)
  split
  · exact Stage.ensures_pure (fun _ => self)
  split
  · exact Stage.ensures_pure (fun _ => union)
  refine (Stage.ensures_admits (std.nullTy.isSubtype T)).bind (fun yes hy => ?_)
  cases yes with
  | true =>
    refine Stage.ensures_pure (fun known => known.imp_right (fun hT => ?_))
    exact same ▸ (hK.decides null hT).below hy
  | false =>
    refine (Stage.ensures_admits (T.collapsesInto std.nullTy)).bind (fun yes _ => ?_)
    cases yes with
    | true => exact Stage.ensures_pure (fun _ => self)
    | false => exact Stage.ensures_pure (fun _ => union)

/-- The type of a reference is `unknown`, or that of the first candidate. -/
theorem Stage.ensures_typeOf {C : Stage src} {S : Ty → Prop} {w : Walk Candidate} {name : String}
    {r : Reference} (unknown : S .unknown)
    (h : ∀ k, C.Admits (w.firstNamed name) (some k) → C.Ensures (k.typeFor r) S) :
    C.Ensures (w.typeOf name r) S := by
  refine Ensures.bind (S := fun found => ∀ f, found = some f → S f.2) ?_ (fun found hf => ?_)
  · refine (ensures_admits _).bind (fun found hf => ?_)
    cases found with
    | none => exact ensures_pure nofun
    | some k => exact (h k hf).bind (fun u hu => ensures_pure (fun f hf => Option.some.inj hf ▸ hu))
  · cases found with
    | none => exact ensures_pure unknown
    | some f => exact ensures_pure (hf f rfl)

/-- The type of a member that covers a constant still does so where `null` may come instead. -/
theorem ensures_reference {v : Constant} {x : Query Ty} {nullSafe : Bool} {decl : NodeRef}
    (hx : ∃ d ∈ v.kind.classes, (partly src).Gives x (Base.simple d)) :
    (partly src).Ensures (do
      let u ← x
      let u ← FlowFacts.narrow [] decl u
      if nullSafe then u.nullable else pure u) (Covers src v) := by
  obtain ⟨d, hd, gives⟩ := hx
  refine gives.bind_ensures ((Stage.gives_pure (Base.simple d)).bind_ensures ?_)
  cases nullSafe with
  | true =>
    rw [if_pos rfl]
    exact ensures_nullable_class v hd
  | false => exact Stage.ensures_pure (.inr (Constant.below_of_mem_classes hd))

theorem ensures_call {v : Constant} {k : Candidate} (h : Standard.CoversMethod v.kind k)
    (call : CallSite) (nullSafe : Bool) :
    (partly src).Ensures (k.typeFor { call := some call, nullSafe := nullSafe }) (Covers src v) := by
  have reference := @ensures_reference src v _ nullSafe k.decl
    (Stage.gives_method (d := Limits.constantDepth) (by decide) h call)
  rw [bind_assoc] at reference
  have method := h.2.2.1
  unfold Candidate.typeFor
  cases hm : k.construct with
  | method _ => exact reference
  | _ => rw [hm] at method; cases method

theorem Orderly.ensures_missing (hK : Orderly (partly src) K) (null : K std.nullTy) {r : Reference}
    (nullSafe : r.nullSafe = true) (k : Candidate) :
    (partly src).Ensures (k.typeFor r) (fun U => U = .unknown ∨ K U → Covers src .null U) := by
  have narrowed : ∀ u, (partly src).Ensures (do
      let u ← r.facts.narrow k.decl u
      if r.nullSafe then u.nullable else pure u)
      (fun U => U = .unknown ∨ K U → Covers src .null U) := by
    refine fun u => (Stage.ensures_admits _).bind (fun u _ => ?_)
    rw [if_pos nullSafe]
    exact hK.ensures_nullable null u
  unfold Candidate.typeFor
  dsimp only
  split
  · exact (Stage.ensures_admits _).bind (fun b _ =>
      (Stage.ensures_admits _).bind (fun u _ => narrowed u))
  · exact (Stage.ensures_admits _).bind (fun u _ => narrowed u)

namespace Faithful

variable (h : Faithful src K m t e)
include h

theorem ensures_expr (hi : t.Typed e i) :
    (partly src).Ensures (Query.expr ⟨m, i⟩ .empty) (fun T => T = .unknown ∨ K T) :=
  (Stage.ensures_admits _).mono (fun _ ht => h.types hi ht)

/-- The type of a property or method of a constant covers its value. -/
theorem ensures_member {j : NodeIndex} {name : String} {args : Option (List NodeIndex)}
    {nullSafe : Bool} {a : Constant} {T U : Ty} (hi : t.Part e i)
    (hc : t.construct? i = some (.memberAccess j name args nullSafe)) (ha : t.Computes j a)
    (there : (nullSafe && a.isNull) = false)
    (hT : (partly src).Admits (Query.expr ⟨m, j⟩ .empty) T)
    (hU : (partly src).Admits (if nullSafe then T.nonNull else pure T) U)
    (known : (args = none ∧ (name, v.kind) ∈ a.kind.properties) ∨
      (∃ as, args = some as) ∧ (name, v.kind) ∈ a.kind.methods) :
    (partly src).Ensures (memberType m U name args nullSafe) (Covers src v) := by
  refine Stage.ensures_typeOf (.inl rfl) (fun k hk => ?_)
  obtain ⟨d, hd, found⟩ := h.members hi hc ha there hT hU hk
  rcases known with ⟨rfl, known⟩ | ⟨⟨as, rfl⟩, known⟩
  · have covers := Stage.coversProperty (by decide) known hd found
    obtain ⟨e, he, value⟩ := covers.2.2.2.2
    exact ensures_reference ⟨e, he, value ▸ Stage.gives_property (by decide) covers⟩
  · have covers := Stage.coversMethod (by decide) known hd found
    exact ensures_call covers ⟨m, as⟩ nullSafe

theorem ensures_binaryType {op : BinaryOp} {l r : NodeIndex} {a b : Constant} {ks : List GuardKey}
    (hi : t.Part e i) (hc : t.construct? i = some (.binary op l r))
    (hks : Stage.TypesOnly Limits.constantDepth ks) (ha : t.Computes l a) (hb : t.Computes r b)
    (computed : Constant.binary op a b = some v)
    (left : op.isArithmetic = true → (Stage.under src ks).Ensures (Query.expr ⟨m, l⟩ .empty)
      (fun T => (partly src).Admits (Query.expr ⟨m, l⟩ .empty) T ∧ CoversAmong src K a T))
    (right : op.isArithmetic = true → (Stage.under src ks).Ensures (Query.expr ⟨m, r⟩ .empty)
      (fun T => (partly src).Admits (Query.expr ⟨m, r⟩ .empty) T ∧ CoversAmong src K b T)) :
    (Stage.under src ks).Ensures (binaryType op ⟨m, l⟩ ⟨m, r⟩ .empty) (Covers src v) := by
  have string : K std.stringTy := h.standard _ (by simp [standardTypes])
  have number : K std.numberTy := h.standard _ (by simp [standardTypes])
  have arithmetic : op.isArithmetic = true → (Stage.under src ks).Ensures (do
      let L ← Query.expr ⟨m, l⟩ .empty
      let R ← Query.expr ⟨m, r⟩ .empty
      arithmeticType op L R) (Covers src v) := by
    intro hop
    refine (left hop).bind (fun L typedL => (right hop).bind (fun R typedR => ?_))
    obtain ⟨hL, amongL, coversL⟩ := typedL
    obtain ⟨hR, amongR, coversR⟩ := typedR
    refine Stage.Ensures.restrict (C := partly src) (Stage.under_le_typing hks) ?_
    by_cases unknown : L = .unknown ∨ R = .unknown
    · exact ensures_arithmetic_of_unknown unknown
    obtain ⟨knownL, knownR⟩ := not_or.1 unknown
    have among := amongL.resolve_left knownL
    have among' := amongR.resolve_left knownR
    refine h.orderly.ensures_arithmeticType h.standard
      ⟨h.values (hi.used hc (.left _ _ hop)) ha, h.values (hi.used hc (.right _ _ hop)) hb,
        among, among', coversL.below knownL, coversR.below knownR⟩
      (Constant.kind_binary hop computed) ?_ ?_ ?_
    · rintro rfl x y rfl rfl
      exact h.powers hi hc ha hb
    · rintro rfl hs
      cases a with
      | string s => exact (h.orderly.decides among string).below (h.texts hi hc ha hL knownL)
      | _ => cases hs
    · rintro rfl hx hy
      cases a with
      | int x =>
        cases b with
        | float y =>
          obtain ⟨yes, yes'⟩ := h.sums hi hc ha hb hL knownL hR knownR
          exact ⟨(h.orderly.decides among number).below yes,
            (h.orderly.decides among' number).below yes'⟩
        | _ => cases hy
      | _ => cases hx
  cases op with
  | add | sub | mul | div | rem | pow => exact arithmetic rfl
  | intDiv => exact Stage.ensures_pure (Kind.ty_int ▸ covers_of_kind (Constant.kind_intDiv computed))
  | eq | notEq | lt | le | gt | ge =>
    exact Stage.ensures_pure
      (Kind.ty_bool ▸ covers_of_kind (Constant.kind_comparison rfl computed))
  | _ => cases computed

/-- Where the types of the parts of an expression cover their values, and the type of the expression
is one of those that come up, it covers the value. -/
theorem ensures_exprType {val : NodeIndex → Constant → Prop} {ks : List GuardKey}
    (hi : t.Part e i) (hc : t.construct? i = some c) (hv : K v.ty)
    (hks : Stage.TypesOnly Limits.constantDepth ks) (hval : ∀ {j w}, val j w → t.Computes j w)
    (covers : ∀ {j w}, t.Part e j → val j w → (Stage.under src ks).Ensures
      (Query.expr ⟨m, j⟩ .empty) (fun T => (partly src).Admits (Query.expr ⟨m, j⟩ .empty) T ∧
        CoversAmong src K w T))
    (comes : ComesTo val c v) : (Stage.under src ks).Ensures (exprType ⟨m, i⟩ .empty)
      (fun T => T = .unknown ∨ K T → Covers src v T) := by
  have here : ∀ n k, (Stage.under src ks).At n k → (partly src).At n k := Stage.under_le_typing hks
  have null : K std.nullTy := h.standard _ (by simp [standardTypes])
  have int : K std.intTy := h.standard _ (by simp [standardTypes])
  have simple : ∀ {k : Kind} {U : Ty}, k.ty = U → v.kind = k → (Stage.under src ks).Ensures (pure U)
      (fun T => T = .unknown ∨ K T → Covers src v T) :=
    fun hU hk => Stage.ensures_pure (fun _ => hU ▸ covers_of_kind hk)
  have beside : ∀ {j}, j ∈ c.operands → (Stage.under src ks).Ensures (Query.expr ⟨m, j⟩ .empty)
      (fun T => T = .unknown ∨ K T) := fun hj => (h.ensures_expr (.operand hi hc hj)).restrict here
  have member : ∀ {j name args nullSafe a}, c = .memberAccess j name args nullSafe → val j a →
      (args = none ∧ (name, v.kind) ∈ a.kind.properties) ∨
        (∃ as, args = some as) ∧ (name, v.kind) ∈ a.kind.methods →
      (Stage.under src ks).Ensures (do
        let T ← Query.expr ⟨m, j⟩ .empty
        let U ← if nullSafe then T.nonNull else pure T
        memberType m U name args nullSafe) (fun T => T = .unknown ∨ K T → Covers src v T) := by
    rintro j name args nullSafe a rfl ha known
    have there : a.isNull = false := by
      cases a with
      | null => rcases known with ⟨-, known⟩ | ⟨-, known⟩ <;> cases known
      | _ => rfl
    refine (covers (hi.used hc (.receiver ..)) ha).bind (fun T hT => ?_)
    have typed : ∀ U, (Stage.under src ks).Admits (if nullSafe then T.nonNull else pure T) U →
        (Stage.under src ks).Ensures (memberType m U name args nullSafe)
          (fun T => T = .unknown ∨ K T → Covers src v T) := fun U hU =>
      ((h.ensures_member hi hc (hval ha) (by rw [there, Bool.and_false]) hT.1 (hU.extend here)
        known).restrict here).mono (fun _ hT _ => hT)
    cases nullSafe with
    | true | false => exact (Stage.ensures_admits _).bind typed
  unfold exprType
  refine (Stage.gives_construct h.tree hc).bind_ensures ?_
  dsimp only
  cases comes with
  | stringLit s => exact Stage.ensures_pure (fun _ => .inr (below_self _))
  | intLit => exact simple Kind.ty_int rfl
  | floatLit => exact simple Kind.ty_float rfl
  | boolLit => exact simple Kind.ty_bool rfl
  | nullLit => exact simple Kind.ty_null rfl
  | grouped hw =>
    exact (covers (hi.used hc (.grouped _)) hw).mono (fun T hT _ => hT.2.2)
  | unary hw hu =>
    rename_i op j a
    cases op with
    | not => exact simple Kind.ty_bool (Constant.kind_not hu)
    | neg =>
      obtain ⟨same, notText⟩ := Constant.kind_neg hu
      have ty : v.ty = a.ty := by
        rw [Constant.ty_of_kind notText, Constant.ty_of_kind (same ▸ notText), same]
      refine (covers (hi.used hc (.negated _)) hw).mono (fun T hT _ => ?_)
      unfold Covers
      rw [ty]
      exact hT.2.2
  | condition b hop =>
    rcases hop with rfl | rfl <;> exact simple Kind.ty_bool rfl
  | present hw hn =>
    refine (covers (hi.used hc (.perhaps _ _)) hw).bind (fun L typed => ?_)
    obtain ⟨-, hL, coversL⟩ := typed
    refine ((h.orderly.ensures_nonNull h.complete int hv hL).restrict here).bind
      (fun L' rest => ?_)
    obtain ⟨hL', stays⟩ := rest
    refine (beside (by simp [Construct.operands])).bind (fun R hR => ?_)
    have coversL' := stays (by rintro hk; cases v <;> first | cases hk; done | cases hn) coversL
    exact ((h.orderly.ensures_either hv hL' hR (.inl coversL')).restrict here).mono
      (fun _ hT _ => hT)
  | absent hn hw =>
    refine (beside (by simp [Construct.operands])).bind (fun L hL => ?_)
    refine ((h.orderly.ensures_nonNull h.complete int hv hL).restrict here).bind
      (fun L' hL' => ?_)
    refine (covers (hi.used hc (.absent (hval hn))) hw).bind (fun R hR => ?_)
    exact ((h.orderly.ensures_either hv hL'.1 hR.2.1 (.inr hR.2.2)).restrict here).mono
      (fun _ hT _ => hT)
  | binary ha hb computed =>
    exact (h.ensures_binaryType hi hc hks (hval ha) (hval hb) computed
      (fun hop => covers (hi.used hc (.left _ _ hop)) ha)
      (fun hop => covers (hi.used hc (.right _ _ hop)) hb)).mono (fun _ hT _ => hT)
  | whenTrue hk hw =>
    refine (covers (hi.used hc (.whenTrue (hval hk))) hw).bind (fun L hL => ?_)
    refine (beside (by simp [Construct.operands])).bind (fun R hR => ?_)
    exact ((h.orderly.ensures_either hv hL.2.1 hR (.inl hL.2.2)).restrict here).mono
      (fun _ hT _ => hT)
  | whenFalse hk hw =>
    refine (beside (by simp [Construct.operands])).bind (fun L hL => ?_)
    refine (covers (hi.used hc (.whenFalse (hval hk))) hw).bind (fun R hR => ?_)
    exact ((h.orderly.ensures_either hv hL hR.2.1 (.inr hR.2.2)).restrict here).mono
      (fun _ hT _ => hT)
  | regex source =>
    obtain ⟨k, hk, offered⟩ := Standard.exists_offered_regex
    refine (Stage.ensures_admits (thisType ⟨m, i⟩)).bind (fun this hthis => ?_)
    refine (Stage.gives_pure []).bind_ensures ?_
    refine Stage.Ensures.restrict here (Stage.ensures_typeOf (fun _ => .inl rfl) (fun k' hk' => ?_))
    cases hk.symm.trans ((h.regex hi hc (hthis.extend here)).eq_of_admits hk').symm
    exact (ensures_call (v := .regex source) offered _ false).mono (fun _ hT _ => hT)
  | missing hw =>
    refine (Stage.ensures_admits _).bind (fun T _ => (Stage.ensures_admits _).bind (fun U _ => ?_))
    refine Stage.Ensures.restrict here (Stage.ensures_typeOf (fun _ => .inl rfl) (fun k _ => ?_))
    exact h.orderly.ensures_missing null rfl k
  | property ha hp => exact member rfl ha (.inl ⟨rfl, Constant.kind_property hp⟩)
  | method ha hm => exact member rfl ha (.inr ⟨⟨_, rfl⟩, Constant.kind_method hm⟩)

/-- The type of a part covers its value, at any moment while the expression is typed. -/
theorem ensures_covers {n : Nat} {ks : List GuardKey} (hi : t.Part e i)
    (hv : Eval.value t {} n i = pure v) (hn : n ≤ Limits.constantDepth)
    (hks : Stage.TypesOnly (Limits.constantDepth - n) ks) :
    (Stage.under src ks).Ensures (Query.expr ⟨m, i⟩ .empty)
      (fun T => (partly src).Admits (Query.expr ⟨m, i⟩ .empty) T ∧ CoversAmong src K v T) := by
  -- the parts are typed further in, by as much as they nest less deep
  induction n generalizing i v ks with
  | zero => exact (Eval.failure_ne_pure hv).elim
  | succ n ih =>
    obtain ⟨_, c, ⟨rfl⟩, hc, comes⟩ := Eval.comesTo_of_value hv
    have inner : Stage.TypesOnly (Limits.constantDepth - n) (.expr ⟨m, i⟩ :: ks) :=
      (hks.cons ⟨m, i⟩).mono (by omega)
    have typed := h.ensures_exprType hi hc (h.values hi ⟨_, hv⟩) (inner.mono (Nat.sub_le ..))
      (fun hw => ⟨n, hw⟩) (fun hj hw => ih hj hw (by omega) inner) comes
    have covers := Stage.ensures_expr hks (Nat.lt_of_le_of_lt (Nat.sub_le ..) (by decide))
      (fun _ => .inl rfl) typed
    refine (covers.and (Stage.ensures_admits _)).mono (fun T ⟨hT, admitted⟩ => ?_)
    have admitted := admitted.extend (Stage.under_le_typing (hks.mono (Nat.sub_le ..)))
    have among := h.types (.part hi) admitted
    exact ⟨admitted, among, hT among⟩

end Faithful

/-- The type of an expression is above the type of its constant value, if it is known at all. -/
theorem constant_below_type (h : Faithful src K m t e) (hv : t.constant? e = .ok (some v))
    {memory : Memory} (hm : Reachable src memory)
    (known : (run src (Query.expr ⟨m, e⟩ .empty) memory).1 ≠ .unknown) :
    Gives src (v.ty.isSubtype (run src (Query.expr ⟨m, e⟩ .empty) memory).1) true := by
  have value : Eval.value t {} Limits.constantDepth e = pure v := hv
  have idle : Stage.TypesOnly (Limits.constantDepth - Limits.constantDepth) [] :=
    ⟨Nat.zero_le _, nofun⟩
  obtain ⟨-, among, covers⟩ :=
    h.ensures_covers .self value (Nat.le_refl _) idle _ memory ⟨rfl, .idle hm⟩
  obtain ⟨yes, gives, below⟩ := h.orderly.decides (h.values .self ⟨_, value⟩)
    (among.resolve_left known)
  have gives := gives.restrict (Stage.between_le_typing _)
  rw [below.2 (covers.below known)] at gives
  exact Stage.gives_between.1 gives

/-! ### Of a text -/

/-- The module `answer = (if (true) "a" else "bc").length + 1`. -/
def measuredTree : SyntaxTree where
  uri := "file:///measured.pkl"
  module := 1
  nodes := #[⟨.boolLit true, .nowhere, some 3⟩,
    ⟨.stringLit "a", .nowhere, some 3⟩,
    ⟨.stringLit "bc", .nowhere, some 3⟩,
    ⟨.ifElse 0 1 2, .nowhere, some 4⟩,
    ⟨.grouped 3, .nowhere, some 5⟩,
    ⟨.memberAccess 4 "length" none false, .nowhere, some 7⟩,
    ⟨.intLit 1, .nowhere, some 7⟩,
    ⟨.binary .add 5 6, .nowhere, some 8⟩,
    ⟨.property { name := "answer", value := some 7 }, .nowhere, some 9⟩,
    ⟨.module { members := [8] }, .nowhere, none⟩]
  root := 9

/-- A session with this module only. -/
def measured : ModuleSource where
  tree i := if i = 1 then some measuredTree else none
  resolve _ _ := none

/-- `"a"|"bc"` -/
def eitherText : Ty := .union (.literal "a" []) (.literal "bc" []) []

/-- The types that come up. -/
def measuredTypes : List Ty :=
  [.nothing, std.booleanTy, .literal "a" [], .literal "bc" [], eitherText] ++ standardTypes

/-- The types of the expressions. -/
def measuredType : NodeIndex → Ty
  | 0 => std.booleanTy
  | 1 => .literal "a" []
  | 2 => .literal "bc" []
  | 3 | 4 => eitherText
  | 5 | 6 | 7 => std.intTy
  | _ => .unknown

theorem measured_answers :
    (∀ u ∈ measuredTypes, ∀ w ∈ measuredTypes,
      (u.isSubtype w).Asks Standard.hierarchy Stage.IsBaseSupertype) ∧
    (∀ u ∈ measuredTypes, (u.nonNullUpTo 0).Asks Standard.hierarchy Stage.IsBaseSupertype ∧
      (u.nonNullUpTo 0).value Standard.hierarchy ∈ measuredTypes) ∧
    (((Ty.literal "a" []).either (.literal "bc" [])).Asks Standard.hierarchy Stage.IsBaseSupertype ∧
      ((Ty.literal "a" []).either (.literal "bc" [])).value Standard.hierarchy = eitherText) ∧
    ((arithmeticType .add std.intTy std.intTy).Asks Standard.hierarchy Stage.IsBaseSupertype ∧
      (arithmeticType .add std.intTy std.intTy).value Standard.hierarchy = std.intTy) ∧
    (Standard.firstMember .property std.string "length").Asks
      Standard.hierarchy Stage.IsBaseSupertype ∧
    ∀ k ∈ (Standard.firstMember .property std.string "length").value Standard.hierarchy,
      Standard.CoversProperty .int k ∧ (requiredType k.decl).value Standard.hierarchy = std.intTy := by
  decide +kernel

theorem measured_construct {c : Construct} (h : measuredTree.construct? i = some c) :
    c ∈ measuredTree.nodes.toList.map (·.construct) := by
  obtain ⟨n, hn, rfl⟩ := Option.map_eq_some_iff.1 h
  exact List.mem_map_of_mem (Array.mem_toList_iff.2 (Array.mem_of_getElem? hn))

theorem plainClasses_measured : PlainClasses measured := by
  refine .of_no_class (fun {d c} hd h => ?_) (modulesRooted_of_no_clause (fun h => ?_))
  · obtain ⟨i, rfl, hc⟩ := construct?_only (fun _ => rfl) hd h
    simpa [measuredTree] using measured_construct hc
  · obtain ⟨-, h⟩ := Option.ite_none_right_eq_some.1 h
    cases h
    rfl

theorem expands_measured {u : Ty} (h : u ∈ measuredTypes) : Expands measured 2 u := by
  have plain : ∀ {d}, Standard.IsClass d 0 → Expands measured 2 (Base.simple d) :=
    fun hd => .plain 2 [] (reading_params_of_isClass hd)
  simp only [measuredTypes, standardTypes, List.cons_append, List.nil_append, List.mem_cons,
    List.not_mem_nil, or_false] at h
  rcases h with rfl | rfl | rfl | rfl | rfl | rfl | rfl | rfl | rfl | rfl | rfl | rfl
  · exact .nothing 2
  · exact plain Standard.isClass_boolean
  · exact .literal 1 "a" []
  · exact .literal 1 "bc" []
  · exact .union [] (.literal 0 "a" []) (.literal 0 "bc" [])
  · exact plain Standard.isClass_string
  · exact plain Standard.isClass_number
  · exact plain Standard.isClass_int
  · exact plain Standard.isClass_float
  · exact plain Standard.isClass_quantities.1
  · exact plain Standard.isClass_quantities.2
  · exact plain Standard.isClass_null

theorem orderly_measured : Orderly (partly measured) (· ∈ measuredTypes) where
  known h := (expands_measured h).known.ne_unknown
  expansion h := by
    simp [measuredTypes, standardTypes, eitherText, Base.booleanTy, Base.stringTy, Base.numberTy,
      Base.intTy, Base.floatTy, Base.durationTy, Base.dataSizeTy, Base.nullTy, Base.simple] at h
  decides ht hu := by
    have asks := measured_answers.1 _ ht _ hu
    refine ⟨_, Stage.gives_base (by decide) asks, ?_⟩
    rw [← Standard.value_hierarchy measured asks]
    exact ⟨plainClasses_measured.regular.below_of_height (expands_measured ht) (expands_measured hu)
      (by decide), fun below => below _⟩
  trans ha hb hc := plainClasses_measured.regular.below_trans (expands_measured ha).known
    (expands_measured hb).known (expands_measured hc).known

theorem complete_measured : Complete (partly measured) (· ∈ measuredTypes) where
  part {u p} h hp := by
    simp only [measuredTypes, standardTypes, List.cons_append, List.nil_append, List.mem_cons,
      List.not_mem_nil, or_false] at h
    rcases h with rfl | rfl | rfl | rfl | rfl | h
    case inr.inr.inr.inr.inl =>
      rcases List.mem_cons.1 hp with rfl | hp
      · simp [measuredTypes]
      · simp [measuredTypes, List.mem_singleton.1 hp]
    case inr.inr.inr.inr.inr => rcases h with rfl | rfl | rfl | rfl | rfl | rfl | rfl <;> cases hp
    all_goals cases hp
  nonNull {u w} n h hw := by
    obtain ⟨asks, mem⟩ := measured_answers.2.1 u h
    have same : u.nonNullUpTo n = u.nonNullUpTo 0 := by
      simp only [measuredTypes, standardTypes, List.cons_append, List.nil_append, List.mem_cons,
        List.not_mem_nil, or_false] at h
      rcases h with rfl | rfl | rfl | rfl | rfl | rfl | rfl | rfl | rfl | rfl | rfl | rfl <;>
        cases n <;> rfl
    rw [same] at hw
    have given : (partly measured).Gives (u.nonNullUpTo 0) _ := Stage.gives_base (by decide) asks
    have equal := (Stage.gives_between.1 (hw.restrict (Stage.between_le_typing _))).unique
      (Stage.gives_between.1 (given.restrict (Stage.between_le_typing _)))
    exact equal ▸ mem

/-- The members of either text are those of `String`. -/
theorem admits_length {C : Stage src} {k : Candidate}
    (h : C.Admits ((Scope.members .property eitherText).firstNamed "length") (some k)) :
    C.Admits (Standard.firstMember .property std.string "length") (some k) :=
  (Stage.admits_members_union h).elim id id

/-- While few expressions are typed, each has its type or comes out as `unknown`. -/
theorem measured_types {d i : Nat} (hd : d + i < 300) (hi : i ≤ 7) :
    (Stage.typing measured d).Ensures (Query.expr ⟨1, i⟩ .empty)
      (fun T => T = .unknown ∨ T = measuredType i) := by
  -- the operands come before the expression
  induction i using Nat.strongRecOn generalizing d with
  | ind i ih =>
    have operand : ∀ j, j < i → (Stage.typing measured (d + 1)).Ensures (Query.expr ⟨1, j⟩ .empty)
        (fun T => T = .unknown ∨ T = measuredType j) :=
      fun j hj => ih j hj (by omega) (by omega)
    have room : d + 1 + 2 < 500 := by omega
    refine Stage.ensures_expr_typing (Nat.lt_of_lt_of_le (by omega : d < 300) (by decide)) (.inl rfl) ?_
    unfold exprType
    obtain rfl | rfl | rfl | rfl | rfl | rfl | rfl | rfl : i = 0 ∨ i = 1 ∨ i = 2 ∨ i = 3 ∨ i = 4 ∨
      i = 5 ∨ i = 6 ∨ i = 7 := by omega
    all_goals refine (Stage.gives_construct (t := measuredTree) rfl rfl).bind_ensures ?_
    case inr.inr.inr.inl =>
      refine (operand 1 (by decide)).bind (fun L hL => (operand 2 (by decide)).bind (fun R hR => ?_))
      rcases hL with rfl | rfl
      · exact Stage.ensures_pure (.inl rfl)
      rcases hR with rfl | rfl
      · exact Stage.ensures_pure (.inl rfl)
      obtain ⟨asks, value⟩ := measured_answers.2.2.1
      exact (Stage.gives_base (Nat.lt_of_add_right_lt room) asks).ensures (.inr value)
    case inr.inr.inr.inr.inl => exact operand 3 (by decide)
    case inr.inr.inr.inr.inr.inl =>
      refine (operand 4 (by decide)).bind (fun T hT => (Stage.gives_pure T).bind_ensures ?_)
      refine Stage.ensures_typeOf (.inl rfl) (fun k hk => ?_)
      rcases hT with rfl | rfl
      · obtain ⟨n, memory, -, hk⟩ := hk
        cases hk
      obtain ⟨asks, covers⟩ := measured_answers.2.2.2.2
      have found := (Stage.gives_base (Nat.lt_of_add_right_lt room) asks).eq_of_admits (admits_length hk)
      obtain ⟨covers, value⟩ := covers k found.symm
      refine (Stage.gives_property room covers).bind_ensures ?_
      exact Stage.ensures_pure (.inr value)
    case inr.inr.inr.inr.inr.inr.inr =>
      refine (operand 5 (by decide)).bind (fun L hL => (operand 6 (by decide)).bind (fun R hR => ?_))
      rcases hL with rfl | rfl
      · exact Stage.ensures_pure (.inl rfl)
      rcases hR with rfl | rfl
      · exact Stage.ensures_pure (.inl rfl)
      obtain ⟨asks, value⟩ := measured_answers.2.2.2.1
      exact (Stage.gives_base (Nat.lt_of_add_right_lt room) asks).ensures (.inr value)
    all_goals exact Stage.ensures_pure (.inr rfl)

theorem measured_typed (h : measuredTree.Typed 7 i) : i ≤ 7 := by
  have operands : ∀ c ∈ measuredTree.nodes.toList.map (·.construct), ∀ j ∈ c.operands, j ≤ 7 := by
    decide
  cases h with
  | part h =>
    induction h with
    | self => exact Nat.le_refl 7
    | used _ hc hj => exact operands _ (measured_construct hc) _ hj.mem_operands
  | operand _ hc hj => exact operands _ (measured_construct hc) _ hj

/-- The values of the texts. -/
def measuredTexts : List Constant := [.string "a", .string "bc"]

theorem measured_choice {w : Constant} (h : measuredTree.Computes 3 w) : w ∈ measuredTexts := by
  cases h.comesTo (c := .ifElse 0 1 2) rfl with
  | whenTrue _ h => cases h.comesTo (c := .stringLit "a") rfl; simp [measuredTexts]
  | whenFalse _ h => cases h.comesTo (c := .stringLit "bc") rfl; simp [measuredTexts]

theorem measured_grouped {w : Constant} (h : measuredTree.Computes 4 w) : w ∈ measuredTexts := by
  cases h.comesTo (c := .grouped 3) rfl with
  | grouped h => exact measured_choice h

theorem kind_measuredTexts {w : Constant} (h : w ∈ measuredTexts) : w.kind = .string := by
  simp only [measuredTexts, List.mem_cons, List.not_mem_nil, or_false] at h
  rcases h with rfl | rfl <;> rfl

theorem measured_length {w : Constant} (h : measuredTree.Computes 5 w) : w.kind = .int := by
  cases h.comesTo (c := .memberAccess 4 "length" none false) rfl with
  | property ha hv =>
    have known := Constant.kind_property hv
    rw [kind_measuredTexts (measured_grouped ha)] at known
    simpa [Kind.properties] using known

theorem measured_one {w : Constant} (h : measuredTree.Computes 6 w) : w.kind = .int := by
  cases h.comesTo (c := .intLit 1) rfl
  rfl

theorem measured_sum {w : Constant} (h : measuredTree.Computes 7 w) : w.kind = .int := by
  cases h.comesTo (c := .binary .add 5 6) rfl with
  | binary ha hb hv =>
    exact (Constant.kind_binary rfl hv).of_ints (measured_length ha) (measured_one hb) nofun nofun
  | condition b hop => rcases hop with hop | hop <;> cases hop

theorem measured_values {i : Nat} (hi : i ≤ 7) {w : Constant} (h : measuredTree.Computes i w) :
    w.ty ∈ measuredTypes := by
  have int : w.kind = .int → w.ty ∈ measuredTypes := by
    intro hk
    rw [Constant.ty_of_kind (by rw [hk]; nofun), hk, Kind.ty_int]
    simp [measuredTypes, standardTypes]
  have text : w ∈ measuredTexts → w.ty ∈ measuredTypes := by
    intro hw
    simp only [measuredTexts, List.mem_cons, List.not_mem_nil, or_false] at hw
    rcases hw with rfl | rfl <;> simp [measuredTypes, Constant.ty]
  obtain rfl | rfl | rfl | rfl | rfl | rfl | rfl | rfl : i = 0 ∨ i = 1 ∨ i = 2 ∨ i = 3 ∨ i = 4 ∨
    i = 5 ∨ i = 6 ∨ i = 7 := by omega
  · cases h.comesTo (c := .boolLit true) rfl
    simp [measuredTypes, Constant.ty, Constant.kind, Kind.ty_bool]
  · cases h.comesTo (c := .stringLit "a") rfl
    exact text (by simp [measuredTexts])
  · cases h.comesTo (c := .stringLit "bc") rfl
    exact text (by simp [measuredTexts])
  · exact text (measured_choice h)
  · exact text (measured_grouped h)
  · exact int (measured_length h)
  · exact int (measured_one h)
  · exact int (measured_sum h)

theorem measuredType_mem {i : Nat} (hi : i ≤ 7) : measuredType i ∈ measuredTypes := by
  obtain rfl | rfl | rfl | rfl | rfl | rfl | rfl | rfl : i = 0 ∨ i = 1 ∨ i = 2 ∨ i = 3 ∨ i = 4 ∨
    i = 5 ∨ i = 6 ∨ i = 7 := by omega
  all_goals simp [measuredType, measuredTypes, standardTypes]

theorem faithful_measured : Faithful measured (· ∈ measuredTypes) 1 measuredTree 7 where
  tree := rfl
  orderly := orderly_measured
  complete := complete_measured
  standard u hu := List.mem_append_right _ hu
  values hi hv := measured_values (measured_typed (.part hi)) hv
  types hi hT := by
    have hi := measured_typed hi
    have room : Limits.constantDepth + 7 < 300 := by decide
    have typed := measured_types (Nat.lt_of_le_of_lt (Nat.add_le_add_left hi _) room) hi
    refine (typed.of_admits hT).imp_right (fun same => ?_)
    rw [same]
    exact measuredType_mem hi
  powers _ hc := by simpa [measuredTree] using measured_construct hc
  texts {i l r s L} hi hc hl := by
    obtain ⟨rfl, rfl⟩ : l = 5 ∧ r = 6 := by simpa [measuredTree] using measured_construct hc
    cases measured_length hl
  sums {i l r x y L R} hi hc _ hr := by
    obtain ⟨rfl, rfl⟩ : l = 5 ∧ r = 6 := by simpa [measuredTree] using measured_construct hc
    cases measured_one hr
  members {i j name args nullSafe a T U k} hi hc ha _ hT hU found := by
    obtain ⟨rfl, rfl, rfl, rfl⟩ : j = 4 ∧ name = "length" ∧ args = none ∧ nullSafe = false := by
      simpa [measuredTree] using measured_construct hc
    have typed := (measured_types (i := 4) (by decide) (by decide)).of_admits hT
    obtain rfl : U = T := (Stage.gives_pure T).eq_of_admits hU
    rcases typed with rfl | rfl
    · obtain ⟨n, memory, -, found⟩ := found
      cases found
    · refine ⟨std.string, ?_, admits_length found⟩
      rw [kind_measuredTexts (measured_grouped ha)]
      exact List.mem_cons_self
  regex _ hc := by simpa [measuredTree] using measured_construct hc

/-- The length of either text and one more is a whole number. -/
theorem constant_below_type_measured :
    measuredTree.constant? 7 = .ok (some (.int 2)) ∧
    (run measured (Query.expr ⟨1, 7⟩ .empty) {}).1 ≠ .unknown ∧
    Gives measured ((Constant.int 2).ty.isSubtype (run measured (Query.expr ⟨1, 7⟩ .empty) {}).1)
      true := by
  have value : measuredTree.constant? 7 = .ok (some (.int 2)) := rfl
  have typed : (run measured (Query.expr ⟨1, 7⟩ .empty) {}).1 = std.intTy :=
    (Ledger.run_eq Ledger.mirrors_empty _).1.trans (by decide +kernel)
  have known : (run measured (Query.expr ⟨1, 7⟩ .empty) {}).1 ≠ .unknown := typed ▸ nofun
  exact ⟨value, known, constant_below_type faithful_measured value .fresh known⟩

/-! ### Where the types are not faithful -/

/-- The module
```
power = 2 ** -1
absolute = (if (false) 1 else 2.5).abs
text = (if (true) "a" else 1) + "b"
sum = (if (true) 1 else "a") + 2.5
absent = if (true) (if (true) 1 else List().firstOrNull) else null
```
-/
def mismatchTree : SyntaxTree where
  uri := "file:///mismatch.pkl"
  module := 1
  nodes := #[⟨.intLit 2, .nowhere, some 3⟩,
    ⟨.intLit 1, .nowhere, some 2⟩,
    ⟨.unary .neg 1, .nowhere, some 3⟩,
    ⟨.binary .pow 0 2, .nowhere, some 33⟩,
    ⟨.boolLit false, .nowhere, some 7⟩,
    ⟨.intLit 1, .nowhere, some 7⟩,
    ⟨.floatLit 2.5, .nowhere, some 7⟩,
    ⟨.ifElse 4 5 6, .nowhere, some 8⟩,
    ⟨.grouped 7, .nowhere, some 9⟩,
    ⟨.memberAccess 8 "abs" none false, .nowhere, some 34⟩,
    ⟨.boolLit true, .nowhere, some 13⟩,
    ⟨.stringLit "a", .nowhere, some 13⟩,
    ⟨.intLit 1, .nowhere, some 13⟩,
    ⟨.ifElse 10 11 12, .nowhere, some 14⟩,
    ⟨.grouped 13, .nowhere, some 16⟩,
    ⟨.stringLit "b", .nowhere, some 16⟩,
    ⟨.binary .add 14 15, .nowhere, some 35⟩,
    ⟨.boolLit true, .nowhere, some 20⟩,
    ⟨.intLit 1, .nowhere, some 20⟩,
    ⟨.stringLit "a", .nowhere, some 20⟩,
    ⟨.ifElse 17 18 19, .nowhere, some 21⟩,
    ⟨.grouped 20, .nowhere, some 23⟩,
    ⟨.floatLit 2.5, .nowhere, some 23⟩,
    ⟨.binary .add 21 22, .nowhere, some 36⟩,
    ⟨.boolLit true, .nowhere, some 32⟩,
    ⟨.boolLit true, .nowhere, some 29⟩,
    ⟨.intLit 1, .nowhere, some 29⟩,
    ⟨.access "List" (some []), .nowhere, some 28⟩,
    ⟨.memberAccess 27 "firstOrNull" none false, .nowhere, some 29⟩,
    ⟨.ifElse 25 26 28, .nowhere, some 30⟩,
    ⟨.grouped 29, .nowhere, some 32⟩,
    ⟨.nullLit, .nowhere, some 32⟩,
    ⟨.ifElse 24 30 31, .nowhere, some 37⟩,
    ⟨.property { name := "power", value := some 3 }, .nowhere, some 38⟩,
    ⟨.property { name := "absolute", value := some 9 }, .nowhere, some 38⟩,
    ⟨.property { name := "text", value := some 16 }, .nowhere, some 38⟩,
    ⟨.property { name := "sum", value := some 23 }, .nowhere, some 38⟩,
    ⟨.property { name := "absent", value := some 32 }, .nowhere, some 38⟩,
    ⟨.module { members := [33, 34, 35, 36, 37] }, .nowhere, none⟩]
  root := 38

/-- A session with this module only. -/
def mismatch : ModuleSource where
  tree i := if i = 1 then some mismatchTree else none
  resolve _ _ := none

/-- The values of the properties, the types of these, and the types of the expressions. -/
def mismatches : List (NodeIndex × Ty × Ty) :=
  [(3, std.floatTy, std.intTy), (9, std.floatTy, std.intTy),
    (16, .literal "ab" [], .union (.literal "a" []) std.intTy []),
    (23, std.floatTy, .union std.intTy (.literal "a" []) []), (32, std.intTy, std.nullTy)]

theorem mismatch_answers : ∀ p ∈ mismatches,
    (Ledger.run mismatch (Query.expr ⟨1, p.1⟩ .empty) {}).1 = p.2.2 ∧
      (Ledger.run mismatch (p.2.1.isSubtype p.2.2) {}).1 = false := by
  decide +kernel

/-- The expression `i` has a value of the type `v`, but is said to be of the type `t`, which `v` is
not below. -/
structure Mismatched (i : NodeIndex) (v t : Ty) : Prop where
  value : ∃ c, mismatchTree.constant? i = .ok (some c) ∧ c.ty = v
  typed : (run mismatch (Query.expr ⟨1, i⟩ .empty) {}).1 = t
  known : t ≠ .unknown
  not_below : (run mismatch (v.isSubtype t) {}).1 = false

theorem mismatched {p : NodeIndex × Ty × Ty} (hp : p ∈ mismatches)
    (value : ∃ c, mismatchTree.constant? p.1 = .ok (some c) ∧ c.ty = p.2.1)
    (known : p.2.2 ≠ .unknown) : Mismatched p.1 p.2.1 p.2.2 where
  value := value
  typed := (Ledger.run_eq Ledger.mirrors_empty _).1.trans (mismatch_answers p hp).1
  known := known
  not_below := (Ledger.run_eq Ledger.mirrors_empty _).1.trans (mismatch_answers p hp).2

/-- The value of a power may be no whole number, the member of another alternative may be found, a
sum may have the type of its left operand, and a union may lose an alternative beside `unknown`. -/
theorem constant_not_below_type :
    Mismatched 3 std.floatTy std.intTy ∧ Mismatched 9 std.floatTy std.intTy ∧
    Mismatched 16 (.literal "ab" []) (.union (.literal "a" []) std.intTy []) ∧
    Mismatched 23 std.floatTy (.union std.intTy (.literal "a" []) []) ∧
    Mismatched 32 std.intTy std.nullTy :=
  ⟨mismatched (.head _) ⟨_, rfl, rfl⟩ nofun,
    mismatched (.tail _ (.head _)) ⟨_, rfl, rfl⟩ nofun,
    mismatched (.tail _ (.tail _ (.head _))) ⟨_, rfl, rfl⟩ nofun,
    mismatched (.tail _ (.tail _ (.tail _ (.head _)))) ⟨_, rfl, rfl⟩ nofun,
    mismatched (.tail _ (.tail _ (.tail _ (.tail _ (.head _))))) ⟨_, rfl, rfl⟩ nofun⟩

end Session

end PklAnalysis
