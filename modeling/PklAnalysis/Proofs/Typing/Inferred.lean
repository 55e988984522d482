import PklAnalysis.Proofs.Typing.Kept

/-!
# Properties of inferred types

What typing keeps, all answers of a session have (`Envelope.kept`). There is one lemma for each part
of the typing of expressions.
-/

namespace PklAnalysis

open Session

namespace ModuleSource

variable {src : ModuleSource} {K : Ty → Prop} {t : Ty} {w : Walk Candidate} {mode : LookupMode}

namespace Kept

open Query Ty Scope

variable (hK : src.Kept K)
include hK

/-! ## Accesses -/

theorem within_resolveAccess (access : NodeRef) :
    (resolveAccess access).Within (src.KeptAnswer K) (fun f => ∀ f' ∈ f, f'.bindings.Holds K) := by
  refine .after (fun c => ?_)
  split
  · refine (hK.within_thisType access).bind (fun this hthis => ?_)
    exact within_resolve (hK.within_visible access hthis) _
  · refine (within_expr _ Bindings.holds_empty).bind (fun t ht => ?_)
    refine (hK.within_nonNull ht).bind (fun u hu => ?_)
    exact within_resolve (hK.within_members hu) _
  · exact within_pure nofun

theorem within_overriddenProperty (p : NodeRef) : (overriddenProperty p).Within (src.KeptAnswer K)
    (fun f => ∀ f' ∈ f, f'.bindings.Holds K) := by
  have container : ∀ t c, (overriddenIn t c).Within (src.KeptAnswer K) (fun u => ∀ u' ∈ u, K u') := by
    intro t c
    unfold overriddenIn
    split
    · exact within_supertype c
    · refine .after (fun m => ?_)
      cases m with
      | none => exact within_pure nofun
      | some m =>
        refine Within.bind (T := K) (hK.within_ofModule m none) (fun u hu => ?_)
        exact within_pure (fun v hv => Option.some.inj hv ▸ hu)
    · refine Within.bind (hK.within_thisType c) (fun u hu => ?_)
      exact within_pure (fun v hv => Option.some.inj hv ▸ hu)
    · exact within_pure nofun
  refine .after (fun t => ?_)
  cases t with
  | none => exact within_pure nofun
  | some t =>
    dsimp only
    split
    · refine (container t _).bind (fun u hu => ?_)
      cases u with
      | none => exact within_pure nofun
      | some u =>
        refine (within_resolve (hK.within_members (hu u rfl)) _).bind (fun f hf => ?_)
        exact within_pure (fun f' hf' => hf f' ((Option.mem_filter_iff.1 hf').1))
    · exact within_pure nofun

theorem within_requiredType (p : NodeRef) :
    (requiredType p).Within (src.KeptAnswer K) K := by
  refine .after (fun c => ?_)
  split
  · exact hK.within_typeOfNode Bindings.holds_empty _
  · refine (hK.within_overriddenProperty p).bind (fun f hf => ?_)
    cases f with
    | none => exact within_pure hK.unknown
    | some f =>
      refine Within.bind (within_ask (fun _ ha => ha)) (fun t ht => within_pure ?_)
      exact hK.bind_answer (q := .property f.decl) rfl ht (List.mem_singleton.2 rfl) (hf f rfl)

/-! ## Flow facts -/

/-- The types that conditions state have the property. -/
def KeptFacts (K : Ty → Prop) (fs : FlowFacts) : Prop :=
  ∀ f ∈ fs, ∀ t, f.2 = .is t ∨ f.2 = .isNot t → K t

omit hK in
theorem KeptFacts.append {fs gs : FlowFacts} (hf : KeptFacts K fs) (hg : KeptFacts K gs) :
    KeptFacts K (fs ++ gs) := by
  intro f h
  rcases List.mem_append.1 h with h | h
  · exact hf f h
  · exact hg f h

omit hK in
theorem within_notNull (t : SyntaxTree) (m : ModuleId) (n : Nat) (l r : NodeIndex) :
    (FlowFacts.notNull t m n l r).Within (src.KeptAnswer K) (KeptFacts K) := by
  have marked : ∀ d : Option NodeRef, (pure (d.toList.map (fun d => (d, .nonNull))) :
      Query FlowFacts).Within (src.KeptAnswer K) (KeptFacts K) := by
    refine fun d => within_pure (fun f hf u hu => ?_)
    obtain ⟨d, _, rfl⟩ := List.mem_map.1 hf
    rcases hu with hu | hu <;> cases hu
  unfold FlowFacts.notNull
  dsimp only
  split
  · exact .after marked
  split
  · exact .after marked
  · exact .after marked

theorem within_tested (t : SyntaxTree) (m : ModuleId) (n : Nat) {fact : Ty → FlowFact}
    (hfact : ∀ u v, fact u = .is v ∨ fact u = .isNot v → u = v) (operand type : NodeIndex) :
    (FlowFacts.tested t m n fact operand type).Within (src.KeptAnswer K) (KeptFacts K) := by
  refine .after (fun d => ?_)
  cases d with
  | none => exact within_pure nofun
  | some d =>
    refine (hK.within_typeOfNode Bindings.holds_empty _).bind (fun u hu => within_pure ?_)
    intro f hf v hv
    cases List.mem_singleton.1 hf
    exact hfact u v hv ▸ hu

theorem within_ofCondition (t : SyntaxTree) (m : ModuleId) (n : Nat) (holds : Bool)
    (i : NodeIndex) : (FlowFacts.ofCondition t m n holds i).Within (src.KeptAnswer K) (KeptFacts K) := by
  have none : (pure [] : Query FlowFacts).Within (src.KeptAnswer K) (KeptFacts K) := within_pure nofun
  induction n generalizing holds i with
  | zero => exact none
  | succ n ih =>
    have both : ∀ h l r, (do
        let right ← FlowFacts.ofCondition t m n h r
        let left ← FlowFacts.ofCondition t m n h l
        pure (right ++ left) : Query FlowFacts).Within (src.KeptAnswer K) (KeptFacts K) :=
      fun h l r => (ih h r).bind (fun fs hf => (ih h l).bind (fun gs hg => within_pure (hf.append hg)))
    unfold FlowFacts.ofCondition
    split
    · split
      · exact within_notNull ..
      · exact none
    · split
      · exact none
      · exact within_notNull ..
    · split
      · exact both true _ _
      · exact none
    · split
      · exact none
      · exact both false _ _
    · refine hK.within_tested t m n (fun u v h => ?_) _ _
      cases holds <;> rcases h with h | h <;> cases h <;> rfl
    · exact ih _ _
    · exact ih _ _
    · exact none

theorem within_collect (site : NodeRef) :
    (FlowFacts.collect site).Within (src.KeptAnswer K) (KeptFacts K) := by
  have none : (pure [] : Query FlowFacts).Within (src.KeptAnswer K) (KeptFacts K) := within_pure nofun
  have along : ∀ (t : SyntaxTree) m is child,
      (FlowFacts.collectFrom t m child is).Within (src.KeptAnswer K) (KeptFacts K) := by
    intro t m is
    induction is with
    | nil => exact fun _ => none
    | cons i is ih =>
      intro child
      unfold FlowFacts.collectFrom
      split
      · exact ih i
      · split
        · exact none
        have further : ∀ fs, KeptFacts K fs → (do
            let gs ← FlowFacts.collectFrom t m i is
            pure (fs ++ gs) : Query FlowFacts).Within (src.KeptAnswer K) (KeptFacts K) :=
          fun fs hf => (ih i).bind (fun gs hg => within_pure (hf.append hg))
        dsimp only
        split
        · exact (hK.within_ofCondition ..).bind further
        · exact none.bind further
  refine .after (fun t => ?_)
  cases t with
  | none => exact none
  | some t =>
    refine (along t _ _ _).bind (fun fs hf => within_pure (fun f h => ?_))
    exact hf f (List.mem_reverse.1 h)

theorem within_narrowBy (h : K t) {f : FlowFact}
    (hf : ∀ u, f = .is u ∨ f = .isNot u → K u) :
    (FlowFacts.narrowBy t f).Within (src.KeptAnswer K) K := by
  cases f with
  | nonNull => exact hK.within_nonNull h
  | is u =>
    have hu : K u := hf u (.inl rfl)
    rw [FlowFacts.narrowBy]
    split
    · exact within_pure hu
    refine .after (fun b => ?_)
    split
    · exact within_pure hu
    refine .after (fun b => ?_)
    split
    · exact within_pure h
    · exact within_pure hu
  | isNot u =>
    have remaining : ∀ ts : List Ty, (∀ t ∈ ts, K t) →
        (FlowFacts.withoutBelow u ts).Within (src.KeptAnswer K) (fun us => ∀ t ∈ us, K t) := by
      intro ts
      induction ts with
      | nil => exact fun _ => within_pure nofun
      | cons t ts ih =>
        intro hts
        refine .after (fun b => (ih (fun t ht => hts t (List.mem_cons_of_mem _ ht))).bind
          (fun us hus => within_pure ?_))
        split
        · exact hus
        · exact List.forall_mem_cons.2 ⟨hts t List.mem_cons_self, hus⟩
    rw [FlowFacts.narrowBy]
    split
    · exact within_pure h
    · refine (hK.within_fullyUnaliased h).bind (fun v hv => ?_)
      refine (remaining _ (hK.of_mem_members hv)).bind (fun us hus => ?_)
      exact hK.within_anyOf hus

theorem within_narrow {fs : FlowFacts} (hfs : KeptFacts K fs) (d : NodeRef)
    (h : K t) : (fs.narrow d t).Within (src.KeptAnswer K) K := by
  have all : ∀ (gs : List FlowFact) t, (∀ f ∈ gs, ∀ u, f = .is u ∨ f = .isNot u → K u) →
      K t → (FlowFacts.narrowByAll t gs).Within (src.KeptAnswer K) K := by
    intro gs
    induction gs with
    | nil => exact fun _ _ h => within_pure h
    | cons f gs ih =>
      refine fun t hgs h => (hK.within_narrowBy h (hgs f List.mem_cons_self)).bind (fun u hu => ?_)
      exact ih u (fun g hg => hgs g (List.mem_cons_of_mem _ hg)) hu
  refine all _ t (fun f hf => ?_) h
  obtain ⟨e, he, rfl⟩ := List.mem_map.1 hf
  exact hfs e (List.mem_filter.1 he).1

/-! ## Calls -/

theorem within_addEvidence {b : Bindings} (hb : b.Holds K) (p : NodeRef)
    (h : K t) : (b.addEvidence p t).Within (src.KeptAnswer K) (Bindings.Holds K) := by
  have insert : ∀ u, K u →
      (pure (b.insert p u) : Query Bindings).Within (src.KeptAnswer K) (Bindings.Holds K) :=
    fun u hu => within_pure (hb.insert p hu)
  unfold Bindings.addEvidence
  dsimp only
  split
  · next known hk => exact (hK.within_either (hb.get? hk) h).bind insert
  · exact insert t h

set_option linter.unusedSectionVars false in
mutual
theorem within_unifyWith (params : List NodeRef) {expand : Ty → Ty → Bindings → Query Bindings}
    (he : ∀ e a b, K e → K a → b.Holds K →
      (expand e a b).Within (src.KeptAnswer K) (Bindings.Holds K)) :
    ∀ {e a : Ty} {b : Bindings}, K e → K a → b.Holds K →
      (unifyWith params expand e a b).Within (src.KeptAnswer K) (Bindings.Holds K)
  | .var p _, a, b, _, ha, hb => by
    rw [unifyWith]
    split
    · exact hK.within_addEvidence hb p ha
    · exact within_pure hb
  | .cls d as _, a, b, hd, ha, hb => by
    rw [unifyWith]
    split
    · exact within_pure hb
    refine (hK.within_fullyUnaliased ha).bind (fun u hu => ?_)
    split
    · exact within_pure hb
    · next c hc =>
      refine (hK.within_projectTo (toTy_of_class? hu hc) d).bind (fun p hp => ?_)
      cases p with
      | none => exact within_pure hb
      | some p => exact within_unifyAllWith params he (hK.args hd) (hK.args (hp p rfl)) hb
  | .typeAlias d as c, a, b, hd, ha, hb => by
    rw [unifyWith]
    split
    · exact within_pure hb
    · exact he _ _ _ hd ha hb
  | .unknown, _, _, _, _, hb => within_pure hb
  | .nothing, _, _, _, _, hb => within_pure hb
  | .module _ _ _, _, _, _, _, hb => within_pure hb
  | .literal _ _, _, _, _, _, hb => within_pure hb
  | .union _ _ _, _, _, _, _, hb => within_pure hb
theorem within_unifyAllWith (params : List NodeRef)
    {expand : Ty → Ty → Bindings → Query Bindings}
    (he : ∀ e a b, K e → K a → b.Holds K →
      (expand e a b).Within (src.KeptAnswer K) (Bindings.Holds K)) :
    ∀ {es as : List Ty} {b : Bindings}, (∀ e ∈ es, K e) → (∀ a ∈ as, K a) →
      b.Holds K →
        (unifyAllWith params expand es as b).Within (src.KeptAnswer K) (Bindings.Holds K)
  | [], _, _, _, _, hb => within_pure hb
  | _ :: _, [], _, _, _, hb => within_pure hb
  | _ :: _, _ :: _, _, hes, has, hb =>
    (within_unifyWith params he (hes _ List.mem_cons_self) (has _ List.mem_cons_self) hb).bind
      (fun _ hb => within_unifyAllWith params he (fun e h => hes e (List.mem_cons_of_mem _ h))
        (fun a h => has a (List.mem_cons_of_mem _ h)) hb)
end

theorem within_unify (params : List NodeRef) {e a : Ty} {b : Bindings} (he : K e)
    (ha : K a) (hb : b.Holds K) :
    (unify params e a b).Within (src.KeptAnswer K) (Bindings.Holds K) := by
  have upTo : ∀ n (e a : Ty) (b : Bindings), K e → K a → b.Holds K →
      (unifyUpTo params n e a b).Within (src.KeptAnswer K) (Bindings.Holds K) := by
    intro n
    induction n with
    | zero =>
      exact fun _ _ _ => hK.within_unifyWith params (fun _ _ _ _ _ hb => within_pure hb)
    | succ n ih =>
      refine fun _ _ _ => hK.within_unifyWith params (fun e a b he ha hb => ?_)
      exact (hK.within_unaliased he).bind (fun u hu => ih u a b hu ha hb)
  exact upTo _ e a b he ha hb

theorem within_callBindings (method : NodeRef) {outer : Bindings} (ho : outer.Holds K)
    (call : CallSite) :
    (callBindings method outer call).Within (src.KeptAnswer K) (Bindings.Holds K) := by
  have infer : ∀ t params ps as (b : Bindings), b.Holds K →
      (inferFrom t method outer call.module params ps as b).Within (src.KeptAnswer K)
        (Bindings.Holds K) := by
    intro t params ps
    induction ps with
    | nil => exact fun _ _ hb => within_pure hb
    | cons p ps ih =>
      intro as b hb
      cases as with
      | nil => exact within_pure hb
      | cons a as =>
        unfold inferFrom
        split
        · refine (hK.within_typeOfNode ho _).bind (fun e he => ?_)
          refine (within_expr _ Bindings.holds_empty).bind (fun u hu => ?_)
          exact (hK.within_unify params he hu hb).bind (fun b hb => ih as b hb)
        · exact ih as b hb
  have assign : ∀ (ps : List NodeRef) (b inferred : Bindings), b.Holds K →
      inferred.Holds K → (b.assign inferred ps).Holds K := by
    intro ps
    induction ps with
    | nil => exact fun _ _ hb _ => hb
    | cons p ps ih =>
      exact fun b inferred hb hi => ih _ _ (hb.insert p (hi.getD p hK.unknown)) (hi.erase p)
  refine .after (fun c => ?_)
  split
  · split
    · exact within_pure ho
    · exact (infer _ _ _ _ _ Bindings.holds_empty).bind (fun b hb => within_pure (assign _ _ _ ho hb))
  · exact within_pure ho

theorem within_typeOfDeclaration (d : NodeRef) {b : Bindings} (hb : b.Holds K) :
    (typeOfDeclaration d b).Within (src.KeptAnswer K) K :=
  Within.bind (within_ask (fun _ ha => ha)) (fun _ ht =>
    within_pure (hK.bind_answer (q := .declared d) rfl ht (List.mem_singleton.2 rfl) hb))

theorem within_methodReturnType (method : NodeRef) {b : Bindings} (hb : b.Holds K) :
    (methodReturnType method b).Within (src.KeptAnswer K) K := by
  refine .after (fun c => ?_)
  split
  · exact hK.within_typeOfNode hb _
  · exact within_expr _ hb
  · exact within_pure hK.unknown

theorem within_typeOf (hw : w.Within (src.KeptAnswer K) (KeptCandidate K)) (name : String)
    {r : Reference} (hr : KeptFacts K r.facts) :
    (w.typeOf name r).Within (src.KeptAnswer K) K := by
  have candidate : ∀ c : Candidate, KeptCandidate K c →
      (c.typeFor r).Within (src.KeptAnswer K) K := by
    intro c hc
    have narrowed : ∀ u, K u → (do
        let u ← r.facts.narrow c.decl u
        if r.nullSafe then u.nullable else pure u : Query Ty).Within (src.KeptAnswer K) K := by
      refine fun u hu => (hK.within_narrow hr c.decl hu).bind (fun v hv => ?_)
      split
      · exact hK.within_nullable hv
      · exact within_pure hv
    unfold Candidate.typeFor
    dsimp only
    split
    · exact (hK.within_callBindings c.decl hc _).bind (fun b hb =>
        (hK.within_methodReturnType c.decl hb).bind narrowed)
    · exact (hK.within_typeOfDeclaration c.decl hc).bind narrowed
  have found : (w.typed name r).Within (src.KeptAnswer K) (fun f => ∀ f' ∈ f, K f'.2) := by
    refine (within_firstNamed hw name).bind (fun c hc => ?_)
    cases c with
    | none => exact within_pure nofun
    | some c =>
      refine (candidate c (hc c rfl)).bind (fun u hu => within_pure (fun f hf => ?_))
      exact Option.some.inj hf ▸ hu
  refine found.bind (fun f hf => within_pure ?_)
  cases f with
  | none => exact hK.unknown
  | some f => exact hf f rfl

/-! ## Expected types -/

theorem within_argumentType (call : NodeRef) (position : Nat) :
    (argumentType call position).Within (src.KeptAnswer K) K := by
  refine (hK.within_resolveAccess call).bind (fun f hf => ?_)
  cases f with
  | none => exact within_pure hK.unknown
  | some f =>
    refine .after (fun c => ?_)
    split
    · split
      · refine hK.within_typeOfNode ((hf f rfl).extend (fun e he => ?_)) _
        obtain ⟨p, _, rfl⟩ := List.mem_map.1 he
        exact hK.unknown
      · exact within_pure hK.unknown
    · exact within_pure hK.unknown

theorem getLastD {as : List Ty} (h : ∀ a ∈ as, K a) : K (as.getLastD .unknown) := by
  rw [List.getLastD_eq_getLast?]
  cases hx : as.getLast? with
  | none => exact hK.unknown
  | some x => exact h x (List.mem_of_getLast? hx)

theorem within_expectedType (e : NodeRef) :
    (expectedType e).Within (src.KeptAnswer K) K := by
  have unknown : (pure .unknown : Query Ty).Within (src.KeptAnswer K) K := within_pure hK.unknown
  have argument : ∀ owner i args,
      (expectedWithin.argument owner i args).Within (src.KeptAnswer K) K := by
    intro owner i args
    unfold expectedWithin.argument
    split
    · exact hK.within_argumentType _ _
    · exact unknown
  have within : ∀ owner i c, (expectedWithin owner i c).Within (src.KeptAnswer K) K := by
    intro owner i c
    have same : ∀ (p : Prop) [Decidable p], (if p then Query.expected owner else pure .unknown).Within
        (src.KeptAnswer K) K := by
      intro p _
      split
      · exact within_expected owner
      · exact unknown
    cases c with
    | property d =>
      show (if d.value = some i then Query.property owner else pure .unknown).Within _ _
      split
      · exact within_property owner
      · exact unknown
    | element v =>
      show (if v = i then _ else pure .unknown : Query Ty).Within _ _
      split
      · exact (hK.within_thisType owner).bind (fun u hu => hK.within_elementType hu)
      · exact unknown
    | entry k v bodies =>
      refine (hK.within_thisType owner).bind (fun u hu => ?_)
      refine (hK.within_entryTypes hu).bind (fun kv hkv => ?_)
      dsimp only
      split
      · exact within_pure hkv.1
      · split
        · exact within_pure hkv.2
        · exact unknown
    | method d =>
      rw [expectedWithin]
      split
      · split
        · exact hK.within_typeOfNode Bindings.holds_empty _
        · exact unknown
      · exact unknown
    | grouped => exact within_expected owner
    | ifElse c a b => exact same _
    | letIn p v body => exact same (body = i)
    | lambda ps body =>
      show (if body = i then _ else pure .unknown : Query Ty).Within _ _
      split
      · refine (within_expected owner).bind (fun u hu => ?_)
        refine (hK.within_nonNull hu).bind (fun v hv => ?_)
        refine (hK.within_fullyUnaliased hv).bind (fun w hw => ?_)
        split
        · split
          · exact within_pure (hK.getLastD (hK.args hw))
          · exact unknown
        · exact unknown
      · exact unknown
    | access name args => cases args <;> first | exact argument .. | exact unknown
    | memberAccess r name args => cases args <;> first | exact argument .. | exact unknown
    | _ => exact unknown
  refine .after (fun t => ?_)
  cases t with
  | none => exact unknown
  | some t =>
    dsimp only
    split
    · exact unknown
    split
    · exact unknown
    · exact within _ _ _

theorem within_lambdaParamTypes (lambda : NodeRef) :
    (lambdaParamTypes lambda).Within (src.KeptAnswer K) (fun ts => ∀ t ∈ ts, K t) := by
  refine .after (fun c => ?_)
  split
  · next t params body =>
    refine (within_expected lambda).bind (fun u hu => ?_)
    refine (hK.within_nonNull hu).bind (fun v hv => ?_)
    refine (hK.within_fullyUnaliased hv).bind (fun w hw => ?_)
    dsimp only
    have suggested : ∀ (ts : List Ty) (i : Nat), (∀ t ∈ ts, K t) →
        K ((ts[i]?).getD .unknown) := by
      intro ts i h
      cases hx : ts[i]? with
      | none => exact hK.unknown
      | some x => exact h x (List.mem_of_getElem? hx)
    refine within_mapM (fun p _ => ?_)
    split
    · exact hK.within_typeOfNode Bindings.holds_empty _
    · refine within_pure (suggested _ _ (fun x hx => ?_))
      split at hx
      · split at hx
        · exact (hK.args hw) x (List.mem_of_mem_take hx)
        · cases hx
      · cases hx
  · exact within_pure nofun

/-! ## Declarations -/

theorem within_paramType (p : NodeRef) :
    (paramType p).Within (src.KeptAnswer K) K := by
  refine .after (fun c => ?_)
  split
  · exact hK.within_typeOfNode Bindings.holds_empty _
  refine .after (fun t => ?_)
  cases t with
  | none => exact within_pure hK.unknown
  | some t =>
    dsimp only
    split
    · exact within_pure hK.unknown
    split
    · exact within_expr _ Bindings.holds_empty
    · refine (hK.within_lambdaParamTypes _).bind (fun ts hts => within_pure ?_)
      cases hx : (List.findIdx? (· == p.node) _).bind (fun i => ts[i]?) with
      | none => exact hK.unknown
      | some x =>
        obtain ⟨i, -, hi⟩ := Option.bind_eq_some_iff.1 hx
        exact hts x (List.mem_of_getElem? hi)
    · refine (within_expr _ Bindings.holds_empty).bind (fun u hu => ?_)
      refine (hK.within_iterationTypes hu).bind (fun kv hkv => within_pure ?_)
      split
      · exact hkv.1
      · exact hkv.2
    · exact within_pure hK.unknown

theorem within_declarationType (d : NodeRef) :
    (declarationType d).Within (src.KeptAnswer K) K := by
  refine .after (fun c => ?_)
  cases c with
  | none => exact within_pure hK.unknown
  | some tc =>
    dsimp only
    split
    · refine (within_property d).bind (fun t ht => ?_)
      split
      · exact within_pure ht
      · split
        · exact within_expr _ Bindings.holds_empty
        · refine within_pure ?_
          split
          · exact hK.unknown
          · exact hK.simple Standard.isClass_dynamic
    · exact hK.within_methodReturnType d Bindings.holds_empty
    · exact hK.within_paramType d
    · refine Within.bind (T := K) (hK.ofClass d nofun) (fun t ht => within_pure ?_)
      exact hK.standard Standard.isClass_class (fun a ha => List.mem_singleton.1 ha ▸ ht)
    · exact hK.ofClass _ nofun
    · exact within_pure (hK.var d)
    · refine .after (fun m => ?_)
      split
      · exact hK.within_ofModule _ _
      · exact within_pure hK.unknown
    · exact hK.within_ofModule _ _
    · exact within_pure hK.unknown

/-! ## Expressions -/

theorem within_quantityType (op : BinaryOp) (l r : Ty) {qs : List Ty}
    (hqs : ∀ q ∈ qs, K q) :
    (quantityType op l r qs).Within (src.KeptAnswer K) (fun t => ∀ t' ∈ t, K t') := by
  induction qs with
  | nil => exact within_pure nofun
  | cons q qs ih =>
    have own : ∀ t' ∈ some q, K t' :=
      fun t' ht => Option.some.inj ht ▸ hqs q List.mem_cons_self
    have float : ∀ t' ∈ some std.floatTy, K t' :=
      fun t' ht => Option.some.inj ht ▸ hK.simple Standard.isClass_float
    refine .after (fun b => within_ite (within_ite (.after (fun b => ?_)) (within_pure own)) ?_)
    · exact within_ite (within_pure float) (within_pure own)
    · exact ih (fun q hq => hqs q (List.mem_cons_of_mem _ hq))

theorem within_numericType (op : BinaryOp) (l r : Ty) :
    (numericType op l r).Within (src.KeptAnswer K) K := by
  have int : (pure std.intTy : Query Ty).Within (src.KeptAnswer K) K :=
    within_pure (hK.simple Standard.isClass_int)
  have float : (pure std.floatTy : Query Ty).Within (src.KeptAnswer K) K :=
    within_pure (hK.simple Standard.isClass_float)
  have number : (pure std.numberTy : Query Ty).Within (src.KeptAnswer K) K :=
    within_pure (hK.simple Standard.isClass_number)
  refine .after (fun _ => within_ite (.after (fun _ => ?_)) (.after (fun _ => ?_)))
  all_goals
    refine within_ite float (within_ite int (.after (fun _ => ?_)))
    exact within_ite float (.after (fun _ => within_ite float number))

theorem within_arithmeticType (op : BinaryOp) {l : Ty} (r : Ty) (hl : K l) :
    (arithmeticType op l r).Within (src.KeptAnswer K) K := by
  have left : K (if op = .add then l.withoutConstraints else .unknown) := by
    split
    · exact hK.withConstraints [] hl
    · exact hK.unknown
  have quantity : ∀ {f : Option Ty → Query Ty}, (∀ t, f (some t) = pure t) →
      f none = pure (if op = .add then l.withoutConstraints else .unknown) →
      (quantityType op l r [std.durationTy, std.dataSizeTy] >>= f).Within (src.KeptAnswer K) K := by
    intro f some none
    refine (hK.within_quantityType op l r (fun q hq => ?_)).bind (fun t ht => ?_)
    · simp only [List.mem_cons, List.not_mem_nil, or_false] at hq
      rcases hq with rfl | rfl
      · exact hK.simple Standard.isClass_quantities.1
      · exact hK.simple Standard.isClass_quantities.2
    cases t with
    | some t => exact some t ▸ within_pure (ht t rfl)
    | none => exact none ▸ within_pure left
  have numeric := (hK.within_numericType op l r : (numericType op l r).Within (src.KeptAnswer K) _)
  refine within_ite (within_pure hK.unknown) (within_ite (.after (fun _ => ?_)) ?_)
  · refine within_ite (within_pure (hK.simple Standard.isClass_string)) (.after (fun _ => ?_))
    exact within_ite (.after (fun _ => within_ite numeric (quantity (fun _ => rfl) rfl)))
      (.after (fun _ => within_ite numeric (quantity (fun _ => rfl) rfl)))
  · refine .after (fun _ => ?_)
    exact within_ite (.after (fun _ => within_ite numeric (quantity (fun _ => rfl) rfl)))
      (.after (fun _ => within_ite numeric (quantity (fun _ => rfl) rfl)))

theorem within_binaryType (op : BinaryOp) (l r : NodeRef) {b : Bindings}
    (hb : b.Holds K) :
    (binaryType op l r b).Within (src.KeptAnswer K) K := by
  have result : ∀ f, K f → K (functionResult f) := by
    intro f hf
    unfold functionResult
    split
    · split
      · exact hK.getLastD (hK.args hf)
      · exact hK.unknown
    · exact hK.unknown
  cases op with
  | coalesce =>
    refine (within_expr l hb).bind (fun t ht => (hK.within_nonNull ht).bind (fun u hu => ?_))
    exact (within_expr r hb).bind (fun v hv => hK.within_either hu hv)
  | pipe =>
    refine (within_expr r hb).bind (fun t ht => (hK.within_fullyUnaliased ht).bind (fun u hu => ?_))
    exact within_pure (result u hu)
  | add | sub | mul | div | rem | pow =>
    exact (within_expr l hb).bind (fun t ht => (within_expr r hb).bind (fun u hu =>
      hK.within_arithmeticType _ u ht))
  | intDiv => exact within_pure (hK.simple Standard.isClass_int)
  | _ => exact within_pure (hK.simple Standard.isClass_boolean)

theorem within_accessType (site : NodeRef) (name : String) (args : Option (List NodeIndex)) :
    (accessType site name args).Within (src.KeptAnswer K) K := by
  refine (hK.within_thisType site).bind (fun this hthis => ?_)
  have access : ∀ fs, KeptFacts K fs → ((Scope.visible site this (.ofArgs args)).typeOf name
      { call := args.map (fun as => ⟨site.module, as⟩), facts := fs }).Within (src.KeptAnswer K) K :=
    fun fs hfs => hK.within_typeOf (hK.within_visible site hthis) name hfs
  exact within_ite ((hK.within_collect site).bind access) (Within.bind (within_pure nofun) access)

theorem within_memberType (m : ModuleId) (h : K t) (name : String)
    (args : Option (List NodeIndex)) (nullSafe : Bool) :
    (memberType m t name args nullSafe).Within (src.KeptAnswer K) K :=
  hK.within_typeOf (hK.within_members h) name nofun

theorem within_exprType (e : NodeRef) (b : Bindings) (hb : b.Holds K) :
    (exprType e b).Within (src.KeptAnswer K) K := by
  have unknown : (pure .unknown : Query Ty).Within (src.KeptAnswer K) K := within_pure hK.unknown
  refine .after (fun c => ?_)
  cases c with
  | none => exact unknown
  | some tc =>
    obtain ⟨t, c⟩ := tc
    cases c with
    | stringLit s => exact within_pure (hK.literal s)
    | intLit => exact within_pure (hK.simple Standard.isClass_int)
    | floatLit => exact within_pure (hK.simple Standard.isClass_float)
    | boolLit | typeTest => exact within_pure (hK.simple Standard.isClass_boolean)
    | nullLit => exact within_pure (hK.simple Standard.isClass_null)
    | this => exact hK.within_thisType e
    | outer => exact hK.within_outerType e
    | moduleExpr => exact hK.within_ofModule _ _
    | access name args => exact hK.within_accessType e name args
    | memberAccess receiver name args nullSafe =>
      refine (within_expr _ hb).bind (fun u hu => ?_)
      have member : ∀ v, K v →
          (memberType e.module v name args nullSafe).Within (src.KeptAnswer K) K :=
        fun v hv => hK.within_memberType _ hv name args nullSafe
      exact within_ite ((hK.within_nonNull hu).bind member) (Within.bind (within_pure hu) member)
    | superAccess name args =>
      refine (hK.within_superType? e).bind (fun u hu => ?_)
      cases u with
      | none => exact unknown
      | some u => exact hK.within_memberType _ (hu u rfl) name args false
    | newObject type body =>
      cases type with
      | some type =>
        exact (hK.within_typeOfNode hb _).bind (fun u hu => hK.within_instantiated hu)
      | none =>
        refine (within_expected e).bind (fun u hu => ?_)
        refine within_ite (within_pure (hK.simple Standard.isClass_dynamic)) ?_
        exact (hK.within_nonNull hu).bind (fun v hv => hK.within_amending hv)
    | amend source body =>
      exact (within_expr _ hb).bind (fun u hu => hK.within_amended hu)
    | binary op l r => exact hK.within_binaryType op _ _ hb
    | unary op operand =>
      cases op with
      | neg => exact within_expr _ hb
      | not => exact within_pure (hK.simple Standard.isClass_boolean)
    | nonNull operand => exact (within_expr _ hb).bind (fun u hu => hK.within_nonNull hu)
    | typeCast operand type => exact hK.within_typeOfNode hb _
    | ifElse c l r =>
      exact (within_expr _ hb).bind (fun u hu => (within_expr _ hb).bind (fun v hv =>
        hK.within_either hu hv))
    | letIn | grouped => exact within_expr _ hb
    | lambda ps body =>
      refine (hK.within_lambdaParamTypes e).bind (fun ts hts => ?_)
      exact (within_expr _ hb).bind (fun u hu => within_pure (hK.functionTy hts hu))
    | importExpr uri =>
      refine .after (fun m => ?_)
      cases m with
      | some m => exact hK.within_ofModule _ _
      | none => exact unknown
    | subscript receiver index =>
      exact (within_expr _ hb).bind (fun u hu => hK.within_subscriptType hu)
    | throwExpr => exact within_pure hK.nothing
    | _ => exact unknown

/-! ## Answers -/

omit hK in
theorem within_superclause (d clause : NodeRef) :
    (Query.superclause d clause).Within (src.KeptAnswer K) (fun t => ∀ t' ∈ t, K t') :=
  within_ask (fun _ ha t ht => ha.2 trivial t (Option.mem_toList.2 ht))

theorem within_declaredSupertype (d : NodeRef) :
    (declaredSupertype d).Within (src.KeptAnswer K) (fun t => ∀ t' ∈ t, K t') := by
  refine within_ite (within_pure nofun) (.after (fun c => ?_))
  split
  · split
    · exact within_pure (fun t ht => Option.some.inj ht ▸ hK.simple Standard.isClass_typed)
    · exact within_superclause _ _
  · exact within_pure nofun

theorem within_aliasTarget (d : NodeRef) :
    (aliasTarget d).Within (src.KeptAnswer K) K := by
  refine .after (fun c => ?_)
  split
  · exact hK.within_typeOfNode Bindings.holds_empty _
  · exact within_pure hK.unknown

theorem within_expandAlias (d : NodeRef) {as : List Ty} (h : ∀ a ∈ as, K a)
    (c : Constraints) : (expandAlias d as c).Within (src.KeptAnswer K) K := by
  refine Within.bind (within_ask (fun _ ha => ha)) (fun t ht => ?_)
  refine (within_forDeclaration d h).bind (fun b hb => within_pure ?_)
  exact hK.addConstraints (hK.bind_answer (q := .aliased d) rfl ht (List.mem_singleton.2 rfl) hb) c

/-- The answer to a question has the property as long as those to the questions it leads to do. -/
theorem within_keptAnswer {q : Question} (hq : q.isSource = false) :
    (body q).Within (src.KeptAnswer K) (src.KeptAnswer K q) := by
  have possible : (body q).Within (src.KeptAnswer K) (src.MayAnswer q) :=
    (within_mayAnswer hq).weaken (fun _ _ h => h.1)
  have single : ∀ {x : Query Ty}, x.Within (src.KeptAnswer K) K →
      x.Within (src.KeptAnswer K) (fun t => ∀ u ∈ [t], K u) :=
    fun h => h.mono (fun t ht u hu => List.mem_singleton.1 hu ▸ ht)
  have kept : KeptInput K q →
      (body q).Within (src.KeptAnswer K) (fun a => ∀ t ∈ q.types a, K t) := by
    intro h
    cases q with
    | tree | reference => cases hq
    | supertype d =>
      exact (hK.within_declaredSupertype d).mono (fun a ha t ht => ha t (Option.mem_toList.1 ht))
    | superclause d clause =>
      refine (hK.within_typeOfNode Bindings.holds_empty clause).bind (fun t ht => ?_)
      exact Query.within_pure (fun u hu => List.mem_singleton.1 hu ▸ ht)
    | aliased d => exact single (hK.within_aliasTarget d)
    | expansion d as c => exact single (hK.within_expandAlias d h c)
    | declared d =>
      exact Query.within_ask (fun _ ha => ha.2 trivial)
    | member d => exact single (hK.within_declarationType d)
    | expr e b => exact single (hK.within_exprType e b h)
    | bodyThis b => exact single (hK.within_objectType b)
    | property p => exact single (hK.within_requiredType p)
    | expected e => exact single (hK.within_expectedType e)
  by_cases h : KeptInput K q
  · exact (possible.and (kept h)).mono (fun a ha => ⟨ha.1, fun _ => ha.2⟩)
  · exact possible.mono (fun a ha => ⟨ha, fun k => absurd k h⟩)

end Kept

end ModuleSource

/-- All that a session answers has the property, refused computations included. -/
def Envelope.kept {src : ModuleSource} {K : Ty → Prop} (hK : src.Kept K) : Envelope src :=
  .uniform src (src.KeptAnswer K) (fun _ => ⟨.tree (.done _), fun _ => nofun⟩)
    (fun _ _ => ⟨.reference (.done _), fun _ => nofun⟩)
    (fun {q} hq => ⟨.refused hq (.done _), fun _ t ht => by
      cases q with
      | tree | reference => cases hq
      | supertype | superclause => cases ht
      | _ => exact List.mem_singleton.1 ht ▸ hK.unknown⟩)
    hK.within_keptAnswer

namespace ModuleSource.Kept

variable {src : ModuleSource} {K : Ty → Prop}

/-- What typing leads to from answers with the property, a session comes out with. -/
theorem run (hK : src.Kept K) {α : Type} {S : α → Prop} {x : Query α}
    (h : x.Within (src.KeptAnswer K) S) {m : Memory} (hm : Reachable src m) : S (Session.run src x m).1 := (Envelope.kept hK).within_run h hm

end ModuleSource.Kept

end PklAnalysis
