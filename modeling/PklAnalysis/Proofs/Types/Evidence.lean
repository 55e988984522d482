import PklAnalysis.Proofs.Types.Folding
import PklAnalysis.Proofs.Types.Substitution
import PklAnalysis.Typing.Call

/-!
# Evidence for type parameters

Laying a type over an annotation records what the type parameters in the annotation must stand for:
`r.evidence params k e a` lists it when `r` answers, and `value_unifyUpTo` says that nothing else is
recorded. Where the recorded types are below what the parameters are bound to, binding them keeps the
type below the annotation, unless a parameter that is bound anew stands where laying over did not look
(`sub_bind_of_evidence`).
-/

namespace PklAnalysis

namespace Reading

variable (r : Reading) (params : List NodeRef)

/-! ## What is recorded -/

/-- The arguments with which the class `d` is met above a type, if the type is a class type or an alias
for one. -/
def argsAt (a : Ty) (d : NodeRef) : Option (List Ty) :=
  (a.fullyUnaliased.value r).class?.bind (fun c => ((c.projectTo d).value r).map (·.args))

mutual
/-- What is recorded where a type is laid over an annotation; `expand` tells it for an alias. -/
def evidenceWith (expand : Ty → Ty → List (NodeRef × Ty)) : Ty → Ty → List (NodeRef × Ty)
  | .var p _, a => if !a.isUnknown && params.contains p then [(p, a)] else []
  | .cls d es _, a => ((r.argsAt a d).map (evidenceAllWith expand es)).getD []
  | .typeAlias d es c, a => if a.isUnknown then [] else expand (.typeAlias d es c) a
  | _, _ => []
/-- The same for argument lists. -/
def evidenceAllWith (expand : Ty → Ty → List (NodeRef × Ty)) :
    List Ty → List Ty → List (NodeRef × Ty)
  | e :: es, a :: as => evidenceWith expand e a ++ evidenceAllWith expand es as
  | _, _ => []
end

/-- What is recorded with at most `k` aliases expanded one inside the other. -/
def evidence : Nat → Ty → Ty → List (NodeRef × Ty)
  | 0 => r.evidenceWith params (fun _ _ => [])
  | k + 1 => r.evidenceWith params (fun e a => evidence k (e.unaliased.value r) a)

/-- One more piece of evidence. -/
def record (b : Bindings) (x : NodeRef × Ty) : Bindings := (b.addEvidence x.1 x.2).value r

variable {r params}

mutual
theorem value_unifyWith {expand : Ty → Ty → Bindings → Query Bindings}
    {expand' : Ty → Ty → List (NodeRef × Ty)}
    (h : ∀ e a b, (expand e a b).value r = (expand' e a).foldl r.record b) :
    ∀ (e a : Ty) (b : Bindings), (unifyWith params expand e a b).value r =
      (r.evidenceWith params expand' e a).foldl r.record b
  | .var p _, a, b => by
    rw [unifyWith, evidenceWith]
    split <;> rfl
  | .cls d es _, a, b => by
    rw [unifyWith, evidenceWith]
    by_cases ha : a.isUnknown = true
    · cases a with
      | unknown => rfl
      | _ => cases ha
    · rw [if_neg ha, Query.value_bind, argsAt]
      cases (a.fullyUnaliased.value r).class? with
      | none => rfl
      | some c =>
        dsimp only [Option.bind_some]
        rw [Query.value_bind]
        cases (c.projectTo d).value r with
        | none => rfl
        | some q => exact value_unifyAllWith h es q.args b
  | .typeAlias d es c, a, b => by
    rw [unifyWith, evidenceWith, Query.value_ite]
    split
    · rfl
    · exact h _ a b
  | .unknown, _, _ => rfl
  | .nothing, _, _ => rfl
  | .module _ _ _, _, _ => rfl
  | .literal _ _, _, _ => rfl
  | .union _ _ _, _, _ => rfl
theorem value_unifyAllWith {expand : Ty → Ty → Bindings → Query Bindings}
    {expand' : Ty → Ty → List (NodeRef × Ty)}
    (h : ∀ e a b, (expand e a b).value r = (expand' e a).foldl r.record b) :
    ∀ (es as : List Ty) (b : Bindings), (unifyAllWith params expand es as b).value r =
      (r.evidenceAllWith params expand' es as).foldl r.record b
  | e :: es, a :: as, b => by
    rw [unifyAllWith, evidenceAllWith, Query.value_bind, value_unifyWith h e a b,
      value_unifyAllWith h es as, List.foldl_append]
  | [], _, _ => by rw [unifyAllWith, evidenceAllWith]; rfl; all_goals nofun
  | _ :: _, [], _ => by rw [unifyAllWith, evidenceAllWith]; rfl; all_goals nofun
end

theorem value_unifyUpTo (k : Nat) (e a : Ty) (b : Bindings) :
    (unifyUpTo params k e a b).value r = (r.evidence params k e a).foldl r.record b := by
  induction k generalizing e a b with
  | zero => exact value_unifyWith (fun _ _ _ => rfl) e a b
  | succ k ih =>
    refine value_unifyWith (fun e a b => ?_) e a b
    rw [Query.value_bind, ih]

/-- Arguments are met where the type is a class type with this class among its ancestors. -/
theorem exists_of_argsAt {a : Ty} {d : NodeRef} {as : List Ty} (h : r.argsAt a d = some as) :
    ∃ (k q : ClassTy),
      (a.expandUpTo Limits.moduleChain).value r = .cls k.decl k.args k.constraints ∧
      (k.projectTo d).value r = some q ∧ q.args = as := by
  obtain ⟨k, hk, found⟩ := Option.bind_eq_some_iff.1 h
  obtain ⟨q, hq, rfl⟩ := Option.map_eq_some_iff.1 found
  refine ⟨k, q, ?_, hq, rfl⟩
  unfold Ty.fullyUnaliased at hk
  rw [Query.value_bind, Query.value_pure] at hk
  cases he : (a.expandUpTo Limits.moduleChain).value r with
  | cls =>
    rw [he] at hk
    cases hk
    rfl
  | _ =>
    rw [he] at hk
    cases hk

section

variable {K : Ty → Prop}

mutual
theorem kept_evidenceWith (hK : ∀ {a d as}, K a → r.argsAt a d = some as → ∀ x ∈ as, K x)
    {expand : Ty → Ty → List (NodeRef × Ty)}
    (h : ∀ e a, K a → ∀ x ∈ expand e a, x.1 ∈ params ∧ K x.2) :
    ∀ (e : Ty) {a : Ty}, K a → ∀ x ∈ r.evidenceWith params expand e a, x.1 ∈ params ∧ K x.2
  | .var p _, a, ha, x, hx => by
    rw [evidenceWith] at hx
    split at hx
    · next hp =>
      cases List.mem_singleton.1 hx
      rw [Bool.and_eq_true] at hp
      exact ⟨List.contains_iff_mem.1 hp.2, ha⟩
    · cases hx
  | .cls d es _, a, ha, x, hx => by
    rw [evidenceWith] at hx
    cases hd : r.argsAt a d with
    | none =>
      rw [hd] at hx
      cases hx
    | some as =>
      rw [hd] at hx
      exact kept_evidenceAllWith hK h es (hK ha hd) x hx
  | .typeAlias d es c, a, ha, x, hx => by
    rw [evidenceWith] at hx
    split at hx
    · cases hx
    · exact h _ a ha x hx
  | .unknown, _, _, _, hx => nomatch hx
  | .nothing, _, _, _, hx => nomatch hx
  | .module _ _ _, _, _, _, hx => nomatch hx
  | .literal _ _, _, _, _, hx => nomatch hx
  | .union _ _ _, _, _, _, hx => nomatch hx
theorem kept_evidenceAllWith (hK : ∀ {a d as}, K a → r.argsAt a d = some as → ∀ x ∈ as, K x)
    {expand : Ty → Ty → List (NodeRef × Ty)}
    (h : ∀ e a, K a → ∀ x ∈ expand e a, x.1 ∈ params ∧ K x.2) :
    ∀ (es : List Ty) {as : List Ty}, (∀ a ∈ as, K a) →
      ∀ x ∈ r.evidenceAllWith params expand es as, x.1 ∈ params ∧ K x.2
  | e :: es, a :: as, ha, x, hx => by
    rw [evidenceAllWith] at hx
    rcases List.mem_append.1 hx with hx | hx
    · exact kept_evidenceWith hK h e (ha a List.mem_cons_self) x hx
    · exact kept_evidenceAllWith hK h es (fun b hb => ha b (List.mem_cons_of_mem a hb)) x hx
  | [], _, _, _, hx => by
    rw [evidenceAllWith] at hx
    · cases hx
    · nofun
  | _ :: _, [], _, _, hx => by
    rw [evidenceAllWith] at hx
    · cases hx
    · nofun
end

/-- Evidence is about the parameters, and it consists of types that the type laid over leads to. -/
theorem kept_evidence (hK : ∀ {a d as}, K a → r.argsAt a d = some as → ∀ x ∈ as, K x) (k : Nat)
    (e : Ty) {a : Ty} (ha : K a) :
    ∀ x ∈ r.evidence params k e a, x.1 ∈ params ∧ K x.2 := by
  induction k generalizing e a with
  | zero => exact kept_evidenceWith hK (fun _ _ _ _ hx => absurd hx List.not_mem_nil) e ha
  | succ k ih => exact kept_evidenceWith hK (fun e a ha => ih _ ha) e ha

end

theorem mem_params_of_evidence {k : Nat} {e a : Ty} {x : NodeRef × Ty}
    (hx : x ∈ r.evidence params k e a) : x.1 ∈ params :=
  (kept_evidence (K := fun _ => True) (fun _ _ _ _ => trivial) k e trivial x hx).1

/-- Evidence is not higher than the type that was laid over. -/
theorem Height.evidence (hr : r.Regular) {P : Question → Prop} {n k : Nat} {e a : Ty}
    (ha : r.Height P n a) : ∀ x ∈ r.evidence params k e a, r.Height P n x.2 := by
  have expanded : ∀ {j m : Nat} {b : Ty}, r.Height P m b →
      ∃ i ≤ m, r.Height P i ((b.expandUpTo j).value r) := by
    intro j
    induction j with
    | zero => exact fun h => ⟨_, Nat.le_refl _, h⟩
    | succ j ih =>
      intro m b h
      cases h with
      | typeAlias _ h =>
        obtain ⟨i, hi, h⟩ := ih h
        exact ⟨i, Nat.le_succ_of_le hi, h⟩
      | _ => exact ⟨_, Nat.le_refl _, by first | exact .nothing _ | constructor <;> assumption⟩
  refine fun x hx =>
    (kept_evidence (K := r.Height P n) (fun {b d as} hb hd y hy => ?_) k e ha x hx).2
  obtain ⟨c, q, class_, hq, rfl⟩ := exists_of_argsAt hd
  obtain ⟨i, hi, hc⟩ := expanded (j := Limits.moduleChain) hb
  rw [class_] at hc
  obtain ⟨m, rfl, hm⟩ := hc.arg (hr.args_of_projectTo hc.length_args hq y hy)
  obtain ⟨l, rfl⟩ := Nat.exists_eq_add_of_le (Nat.le_of_succ_le hi)
  exact hm.add l

/-! ## What parameters are bound to -/

/-- The types recorded for one parameter. -/
def proofs (p : NodeRef) (xs : List (NodeRef × Ty)) : List Ty :=
  (xs.filter (fun x => x.1 == p)).map (·.2)

theorem mem_proofs {p : NodeRef} {x : Ty} {xs : List (NodeRef × Ty)} :
    x ∈ proofs p xs ↔ (p, x) ∈ xs := by
  unfold proofs
  rw [List.mem_map]
  constructor
  · rintro ⟨⟨q, y⟩, hq, rfl⟩
    obtain ⟨hq, he⟩ := List.mem_filter.1 hq
    rwa [← eq_of_beq he]
  · intro h
    exact ⟨(p, x), List.mem_filter.2 ⟨h, beq_self_eq_true p⟩, rfl⟩

theorem record_eq (b : Bindings) (p : NodeRef) (t : Ty) :
    r.record b (p, t) = b.insert p (((b.get? p).map (r.join · t)).getD t) := by
  show (b.addEvidence p t).value r = _
  unfold Bindings.addEvidence
  cases b.get? p with
  | none => rfl
  | some known =>
    show ((do
      let merged ← known.either t
      pure (b.insert p merged) : Query Bindings)).value r = _
    rw [Query.value_bind]
    rfl

theorem join_nothing (t : Ty) : r.join .nothing t = t := by
  cases t <;> rfl

/-- A parameter is bound to the union of what was recorded for it. -/
theorem get?_foldl_record (p : NodeRef) (xs : List (NodeRef × Ty)) :
    (xs.foldl r.record .empty).get? p =
      if proofs p xs = [] then none else some (r.joinAll (proofs p xs)) := by
  induction xs using List.reverseRecOn with
  | nil => rfl
  | append_singleton xs x ih =>
    obtain ⟨q, t⟩ := x
    rw [List.foldl_append]
    show (r.record (xs.foldl r.record .empty) (q, t)).get? p = _
    have proofs_append : proofs p (xs ++ [(q, t)]) =
        proofs p xs ++ if q = p then [t] else [] := by
      unfold proofs
      rw [List.filter_append, List.map_append]
      by_cases hq : q = p
      · simp [hq]
      · simp [hq]
    rw [record_eq, proofs_append]
    by_cases hq : q = p
    · subst hq
      rw [Bindings.get?_insert, if_pos rfl, if_neg (by simp), joinAll_concat, ih]
      by_cases hp : proofs q xs = []
      · rw [if_pos hp, hp]
        exact congrArg some (join_nothing t).symm
      · rw [if_neg hp]
        rfl
    · rw [Bindings.get?_insert_of_ne _ _ hq, if_neg hq, List.append_nil]
      exact ih

/-! ## Types below annotations -/

variable (r params)

/-- Annotations that mention the type parameters bare, beside `null` and as arguments of covariant
class parameters only. -/
inductive Inferable : Ty → Prop
  | closed {e} (h : ∀ p ∈ e.vars, p ∉ params) : Inferable e
  | var (p c) : Inferable (.var p c)
  | nullable {e} (c) : Inferable e → Inferable (.union std.nullTy e c)
  | cls {d es} (c)
      (h : ∀ q ∈ (r.params d).zip es, q.1.2 = .covariant ∨ ∀ p ∈ q.2.vars, p ∉ params) :
      (∀ e ∈ es, Inferable e) → Inferable (.cls d es c)

/-- The type parameter stands in a part of the annotation that laying a type over it passes by: in a
union, or among the arguments of a class that the type is not seen to be one of. -/
inductive Skips (p : NodeRef) : Ty → Ty → Prop
  | union {e f c a} (hp : p ∈ (Ty.union e f c).vars) (ha : a.Proper) : Skips p (.union e f c) a
  | cls {d es c a} (hp : p ∈ Ty.varsAll es) (ha : a.Proper) (hd : r.argsAt a d = none) :
      Skips p (.cls d es c) a
  | arg {d es c a as} (hd : r.argsAt a d = some as) {q : Ty × Ty} (hq : q ∈ es.zip as)
      (h : Skips p q.1 q.2) : Skips p (.cls d es c) a

variable {r params}

/-- Expanding an alias takes as many questions as it has to be expanded. -/
theorem exists_sub_expanded (k n : Nat) (a : Ty) : ∃ m ≤ n, ∀ d as c,
    r.sub n a (.cls d as c) = true ↔ r.sub m ((a.expandUpTo k).value r) (.cls d as c) = true := by
  induction k generalizing n a with
  | zero => exact ⟨n, Nat.le_refl n, fun _ _ _ => Iff.rfl⟩
  | succ k ih =>
    cases a with
    | typeAlias e es k =>
      cases n with
      | zero => exact ⟨0, Nat.le_refl 0, fun _ _ _ => iff_of_true rfl rfl⟩
      | succ n =>
        obtain ⟨m, hm, same⟩ := ih n (r (.expansion e es k))
        refine ⟨m, Nat.le_succ_of_le hm, fun d as c => ?_⟩
        rw [sub_compound_left r n (t := .typeAlias e es k) (u := .cls d as c) rfl ⟨nofun, nofun⟩
          nofun]
        show (r.sub n (r (.expansion e es k)) _ && true) = true ↔ _
        rw [Bool.and_true]
        exact same d as c
    | _ => exact ⟨n, Nat.le_refl n, fun _ _ _ => Iff.rfl⟩

/-- A type is below a class type exactly if the arguments with which it is met there conform. -/
theorem exists_sub_of_argsAt {a : Ty} {d : NodeRef} {as : List Ty} (h : r.argsAt a d = some as)
    (n : Nat) : ∃ m ≤ n, ∀ es c, r.sub n a (.cls d es c) = true ↔
      m = 0 ∨ ∃ i, m = i + 1 ∧ Conform (fun x y => r.sub i x y = true) (r.params d) as es := by
  obtain ⟨k, q, expanded, hq, rfl⟩ := exists_of_argsAt h
  obtain ⟨m, hm, same⟩ := r.exists_sub_expanded Limits.moduleChain n a
  refine ⟨m, hm, fun es c => ?_⟩
  rw [same, expanded]
  cases m with
  | zero => exact iff_of_true rfl (.inl rfl)
  | succ i =>
    rw [sub_cls_cls]
    constructor
    · rintro ⟨p, hp, conform⟩
      cases hq.symm.trans hp
      exact .inr ⟨i, rfl, conform⟩
    · rintro (hm | ⟨j, hj, conform⟩)
      · cases hm
      · cases hj
        exact ⟨q, hq, conform⟩

theorem mem_evidenceAllWith {expand : Ty → Ty → List (NodeRef × Ty)} {es as : List Ty}
    {q : Ty × Ty} (hq : q ∈ es.zip as) {x : NodeRef × Ty}
    (hx : x ∈ r.evidenceWith params expand q.1 q.2) :
    x ∈ r.evidenceAllWith params expand es as := by
  induction es generalizing as with
  | nil => cases hq
  | cons e es ih =>
    cases as with
    | nil => cases hq
    | cons a as =>
      rw [evidenceAllWith]
      rcases List.mem_cons.1 hq with rfl | hq
      · exact List.mem_append_left _ hx
      · exact List.mem_append_right _ (ih hq)

/-- Arguments go on to conform where each one does. -/
theorem conform_bindAll_of {R : Ty → Ty → Prop} {b b' : Bindings} :
    ∀ {ps : List (NodeRef × Variance)} {xs es : List Ty},
      (∀ q ∈ ps.zip (xs.zip es), q.1.2.Relates R q.2.1 (q.2.2.bind b) →
        q.1.2.Relates R q.2.1 (q.2.2.bind b')) →
      Conform R ps xs (Ty.bindAll b es) → Conform R ps xs (Ty.bindAll b' es)
  | _ :: _, _ :: _, _ :: _, h, hc =>
    ⟨h _ List.mem_cons_self hc.1,
      conform_bindAll_of (fun q hq => h q (List.mem_cons_of_mem _ hq)) hc.2⟩
  | [], _, _, _, _ => trivial
  | _ :: _, [], _, _, _ => trivial
  | _ :: _, _ :: _, [], _, _ => trivial

theorem mem_zip_of_mem_zip {α β γ : Type} {ps : List α} {xs : List β} {es : List γ}
    {q : α × β × γ} (hq : q ∈ ps.zip (xs.zip es)) :
    (q.1, q.2.2) ∈ ps.zip es ∧ (q.2.2, q.2.1) ∈ es.zip xs := by
  obtain ⟨i, hi⟩ := List.mem_iff_getElem?.1 hq
  obtain ⟨hp, hq⟩ := List.getElem?_zip_eq_some.1 hi
  obtain ⟨hx, he⟩ := List.getElem?_zip_eq_some.1 hq
  exact ⟨List.mem_iff_getElem?.2 ⟨i, List.getElem?_zip_eq_some.2 ⟨hp, he⟩⟩,
    List.mem_iff_getElem?.2 ⟨i, List.getElem?_zip_eq_some.2 ⟨he, hx⟩⟩⟩

/-- What is below an annotation stays so if its parameters are bound anew, where the parameters are
bound to something above all that was recorded for them, or as before where nothing was looked at. -/
theorem sub_bind_of_evidence (hr : r.Lawful) {b b' : Bindings} {e : Ty} (he : r.Inferable params e)
    (others : ∀ p ∉ params, b.get? p = b'.get? p) {k n : Nat} {a : Ty}
    (recorded : ∀ x ∈ r.evidence params k e a, ∃ t, b'.get? x.1 = some t ∧ r.sub n x.2 t = true)
    (skipped : ∀ p ∈ params, r.Skips p e a → b.get? p = b'.get? p)
    (h : r.sub n a (e.bind b) = true) : r.sub n a (e.bind b') = true := by
  obtain ⟨expand, hk⟩ : ∃ expand, ∀ e a, r.evidence params k e a =
      r.evidenceWith params expand e a := by
    cases k with
    | zero => exact ⟨_, fun _ _ => rfl⟩
    | succ k => exact ⟨_, fun _ _ => rfl⟩
  simp only [hk] at recorded
  have unbound : ∀ {e : Ty}, (∀ p ∈ e.vars, p ∉ params) → e.bind b = e.bind b' :=
    fun h => Ty.bind_congr (fun p hp => others p (h p hp))
  -- Where nothing was looked at, the type has to be compared with the same annotation.
  have passed : ∀ {e a : Ty} {n : Nat}, (∀ p ∈ params, p ∈ e.vars → a.Proper →
      b.get? p = b'.get? p) → r.sub n a (e.bind b) = true → r.sub n a (e.bind b') = true := by
    intro e a n h hs
    rcases a.proper_or with ha | rfl | rfl
    · have same : e.bind b = e.bind b' := by
        refine Ty.bind_congr (fun p hp => ?_)
        by_cases hm : p ∈ params
        · exact h p hm hp ha
        · exact others p hm
      rwa [← same]
    · exact sub_unknown_left ..
    · exact sub_nothing_left ..
  induction he generalizing n a with
  | closed hc => rwa [← unbound hc]
  | var p c =>
    by_cases hp : p ∈ params
    · rcases Bool.eq_false_or_eq_true a.isUnknown with ha | ha
      · rw [show a = .unknown by cases a <;> first | rfl | cases ha]
        exact sub_unknown_left ..
      · have mem : (p, a) ∈ r.evidenceWith params expand (.var p c) a := by
          rw [evidenceWith, ha, List.contains_iff_mem.2 hp]
          exact List.mem_singleton_self _
        obtain ⟨t, ht, hs⟩ := recorded _ mem
        rw [Ty.bind, ht]
        exact sub_of_fits hr (.alike (Ty.withoutConstraints_addConstraints t c).symm) hs
    · rwa [← unbound (e := .var p c) (fun q hq => List.mem_singleton.1 hq ▸ hp)]
  | nullable c _ _ =>
    exact passed (fun p hp hv ha => skipped p hp (.union hv ha)) h
  | @cls d es c covariant _ ih =>
    cases hd : r.argsAt a d with
    | none => exact passed (fun p hp hv ha => skipped p hp (.cls hv ha hd)) h
    | some as =>
      obtain ⟨m, hm, same⟩ := exists_sub_of_argsAt hd n
      rw [Ty.bind, same] at h ⊢
      refine h.imp_right ?_
      rintro ⟨i, rfl, conform⟩
      refine ⟨i, rfl, conform_bindAll_of (fun q hq hrel => ?_) conform⟩
      obtain ⟨hpe, hex⟩ := mem_zip_of_mem_zip hq
      have hin : i ≤ n := Nat.le_of_succ_le hm
      rcases covariant _ hpe with hv | hv
      · rw [hv] at hrel ⊢
        refine ih _ (List.of_mem_zip hex).1 (fun p hp hs => skipped p hp (.arg hd hex hs)) hrel
          (fun x hx => ?_)
        have mem : x ∈ r.evidenceWith params expand (.cls d es c) a := by
          rw [evidenceWith, hd]
          exact mem_evidenceAllWith hex hx
        obtain ⟨t, ht, hs⟩ := recorded x mem
        exact ⟨t, ht, sub_of_le hin hs⟩
      · rwa [← unbound hv]

end Reading

end PklAnalysis
