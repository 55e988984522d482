import PklAnalysis.Proofs.Scope.Inheritance
import PklAnalysis.Proofs.Session.Union

/-!
# Aliases in subtype queries

To a subtype query an alias is what it stands for: an answer about the alias is an answer about its
expansion with one nested question less, since it takes one to expand the alias (`sub_alias_left`,
`sub_alias_right`). So the two answers differ only where the limit on nested questions is the reason
for a yes (`isSubtype_unaliased`), and where `nothing` comes into it: the rules about `nothing`
itself stand before the one about aliases, so a type that stands for `nothing` is not below
`nothing`.

`isSubtype_not_unaliased` shows the exceptions.
-/

namespace PklAnalysis

namespace Reading

variable {r : Reading} {d : NodeRef} {as : List Ty} {c : Constraints}

/-- An alias is below the types that its expansion is below. -/
theorem sub_alias_left (hr : r.Lawful) {u : Ty} (h : u = .nothing → (r (.expansion d as c)).Proper)
    (n : Nat) :
    r.sub (n + 2) (.typeAlias d as c) u = r.sub (n + 1) (r (.expansion d as c)) u := by
  by_cases hu : u = .nothing
  · subst hu
    rw [sub_nothing_right _ _ (Ty.proper_of_isCompound rfl), sub_nothing_right _ _ (h rfl)]
  · refine Bool.eq_iff_iff.2 ⟨sub_of_mem_parts hr hu (List.mem_singleton.2 rfl), fun below => ?_⟩
    exact sub_succ_of_parts rfl hu (fun p hp => List.mem_singleton.1 hp ▸ below)

/-- What is below an alias is what is below its expansion. -/
theorem sub_alias_right (hr : r.Lawful) (hb : r (.expansion d as c) ≠ .nothing) (n : Nat) (t : Ty) :
    r.sub (n + 1) t (.typeAlias d as c) = r.sub n t (r (.expansion d as c)) := by
  induction n generalizing t with
  | zero =>
    rcases t.shape with rfl | rfl | ht | ht
    · exact sub_unknown_left ..
    · exact sub_nothing_left ..
    · exact r.sub_compound_right 0 ht rfl
    · exact sub_succ_of_parts ht nofun (fun _ _ => rfl)
  | succ n ih =>
    rcases t.shape with rfl | rfl | ht | ht
    · rw [sub_unknown_left, sub_unknown_left]
    · rw [sub_nothing_left, sub_nothing_left]
    · rw [sub_compound_right _ _ ht rfl]
      exact Bool.or_false _
    · -- both sides are split into the parts of the type
      refine Bool.eq_iff_iff.2 ⟨fun below => ?_, fun below => ?_⟩
      · refine sub_succ_of_parts ht hb (fun p hp => ?_)
        rw [← ih]
        exact sub_of_mem_parts hr nofun hp below
      · refine sub_succ_of_parts ht nofun (fun p hp => ?_)
        rw [ih]
        exact sub_of_mem_parts hr hb hp below

/-- Only aliases and unions can have `nothing` hidden in them. -/
theorem sub_alias_right_of_nothing (hr : r.Lawful) {t : Ty}
    (h : r (.expansion d as c) = .nothing → ¬ t.isCompound = true) (n : Nat) :
    r.sub (n + 1) t (.typeAlias d as c) = r.sub n t (r (.expansion d as c)) := by
  by_cases hb : r (.expansion d as c) = .nothing
  · rcases t.shape with rfl | rfl | ht | ht
    · rw [sub_unknown_left, sub_unknown_left]
    · rw [sub_nothing_left, sub_nothing_left]
    · rw [sub_compound_right _ _ ht rfl]
      exact Bool.or_false _
    · exact absurd ht (h hb)
  · exact sub_alias_right hr hb n t

end Reading

namespace Session

variable {src : ModuleSource}

theorem sub_subtypeDepth_iff (t u : Ty) : (reading src).sub Limits.subtypeDepth t u = true ↔
    (reading src).sub (Limits.subtypeDepth + 1) t u = true ∨ ¬ Tells src 1 t u := by
  unfold Tells
  cases h : (reading src).sub (Limits.subtypeDepth + 1) t u with
  | true => exact iff_of_true (Reading.sub_of_succ h) (.inl rfl)
  | false => simp

/-- On either side of a subtype query an alias can be replaced by what it stands for, except that it
takes one of the nested questions to expand it. This leaves `nothing` out where it is compared as it
is on one way and behind an alias on the other. -/
theorem isSubtype_unaliased {d : NodeRef} {as : List Ty} {c : Constraints}
    (expansion : Settled src (.expansion d as c)) (u : Ty) :
    ∃ t, Gives src (Ty.typeAlias d as c).unaliased t ∧
      ((u = .nothing → t.Proper) → Steady src ((Ty.typeAlias d as c).isSubtype u) →
        Steady src (t.isSubtype u) → ∀ m₁ m₂, Reachable src m₁ → Reachable src m₂ →
          ((run src ((Ty.typeAlias d as c).isSubtype u) m₁).1 = true ↔
            (run src (t.isSubtype u) m₂).1 = true ∨ ¬ Tells src 1 t u)) ∧
      ((t = .nothing → ¬ u.isCompound = true) → Steady src (u.isSubtype (.typeAlias d as c)) →
        Steady src (u.isSubtype t) → ∀ m₁ m₂, Reachable src m₁ → Reachable src m₂ →
          ((run src (u.isSubtype (.typeAlias d as c)) m₁).1 = true ↔
            (run src (u.isSubtype t) m₂).1 = true ∨ ¬ Tells src 1 u t)) := by
  have hr := lawful_reading src
  refine ⟨reading src (.expansion d as c), gives_ask_iff.2 ⟨expansion, rfl⟩, ?_, ?_⟩
  · intro proper steady steady' m₁ m₂ h₁ h₂
    rw [steady.gives_isSubtype m₁ h₁, steady'.gives_isSubtype m₂ h₂, ← sub_subtypeDepth_iff]
    exact Bool.eq_iff_iff.1 (Reading.sub_alias_left hr proper 99)
  · intro simple steady steady' m₁ m₂ h₁ h₂
    rw [steady.gives_isSubtype m₁ h₁, steady'.gives_isSubtype m₂ h₂, ← sub_subtypeDepth_iff]
    exact Bool.eq_iff_iff.1 (Reading.sub_alias_right_of_nothing hr simple _)

/-! ### An alias for its parameter -/

theorem alias_of_same {d : NodeRef} {a : AliasDecl} (hd : d.module ≠ ModuleId.base)
    (h : same.construct? d = some (.aliasDecl a)) : d = ⟨1, 2⟩ := by
  obtain ⟨i, rfl, hc⟩ := construct?_only (t := sameTree) (fun _ => rfl) hd h
  rcases i with _ | _ | _ | _ | i
  · cases hc
  · cases hc
  · rfl
  · cases hc
  · simp [SyntaxTree.construct?, SyntaxTree.node?, sameTree] at hc

theorem fixedDeclarations_same : FixedDeclarations same where
  supertype := plainClasses_same.hierarchy.settled_supertype
  expansion d := by
    by_cases hc : ∃ a, same.construct? d = some (.aliasDecl a)
    · obtain ⟨a, ha⟩ := hc
      by_cases hd : d.module = ModuleId.base
      · obtain ⟨i, rfl⟩ := exists_base hd
        rw [same.construct?_base] at ha
        exact (Session.settled_expansion same ha [] []).1
      · obtain rfl := alias_of_same hd ha
        exact (gives_ask_iff.1 (gives_expansion_of_reads reads_same [] [])).1
    · exact (settled_expansion_of_not_alias same (fun a ha => hc ⟨a, ha⟩) [] []).1

theorem reading_sames (t : Ty) : reading same (.expansion ⟨1, 2⟩ [t] []) = t :=
  (gives_ask_iff.1 (gives_sames t)).2

/-- As many aliases as there are nested questions keep a type from being compared. -/
theorem sub_sames {u : Ty} (hu : u ≠ .nothing) (n : Nat) (t : Ty) :
    (reading same).sub n (sames t n) u = true := by
  induction n with
  | zero => rfl
  | succ n ih =>
    refine Reading.sub_succ_of_parts rfl hu (fun p hp => ?_)
    rw [List.mem_singleton.1 hp, reading_sames]
    exact ih

/-- With a question more it is compared. -/
theorem sub_sames_add {u : Ty} (hu : u ≠ .nothing) (n k : Nat) (t : Ty) :
    (reading same).sub (n + 1 + k) (sames t k) u = (reading same).sub (n + 1) t u := by
  induction k with
  | zero => rfl
  | succ k ih =>
    have expanded : (reading same).sub (n + k + 2) (sames t (k + 1)) u = _ :=
      Reading.sub_alias_left (lawful_reading same) (fun h => absurd h hu) (n + k)
    rw [reading_sames, Nat.add_right_comm n k 1, ih] at expanded
    rwa [Nat.add_right_comm n 1 (k + 1)]

/-- A text is a `Same<String>`, and the other way round. -/
theorem isSubtype_unaliased_same :
    Settled same (.expansion ⟨1, 2⟩ [std.stringTy] []) ∧
    Gives same (sames std.stringTy 1).unaliased std.stringTy ∧
    ∀ m, Reachable same m → (run same ((sames std.stringTy 1).isSubtype std.stringTy) m).1 = true ∧
      (run same (std.stringTy.isSubtype (sames std.stringTy 1)) m).1 = true := by
  have gives := gives_sames std.stringTy
  have settled := (gives_ask_iff.1 gives).1
  have steady := fixedDeclarations_same.asks_isSubtypeUpTo (Limits.subtypeDepth + 1)
  have self : (run same (std.stringTy.isSubtype std.stringTy) {}).1 = true := by
    rw [fixedDeclarations_same.gives_isSubtype _ _ {} .fresh, Reading.sub_self]
  obtain ⟨t, ht, left, right⟩ := isSubtype_unaliased settled std.stringTy
  cases ht.unique gives
  refine ⟨settled, gives, fun m hm => ⟨?_, ?_⟩⟩
  · exact (left nofun (steady ..) (steady ..) m {} hm .fresh).2 (.inl self)
  · exact (right nofun (steady ..) (steady ..) m {} hm .fresh).2 (.inl self)

/-! ### Where it matters -/

/-- Once the last alias but one is expanded, an alias that was too far from the last one stands for
the first side of its union, and it is a supertype of it. -/
theorem linkTy_isSubtype_linkTy : (run chain ((linkTy 598).isSubtype (linkTy 99)) {}).1 = true := by
  obtain ⟨m₁, h₁, hm₁, e₁⟩ := expand_near .fresh (i := 598) (k := 1) (by decide) (.inr rfl) (by decide)
  obtain ⟨m₂, h₂, hm₂, -⟩ := expand_near hm₁ (i := 99) (k := 499) (by decide) (.inl e₁.stored) (by decide)
  obtain ⟨m₃, h₃, hm₃, -⟩ := expand_near hm₂ (i := 599) (k := 0) (by decide) (.inr rfl) (by decide)
  obtain ⟨m₄, h₄, -⟩ := expand_near hm₃ (i := 100) (k := 499) (by decide) (.inr rfl) (by decide)
  have proper : ∀ i, (linkTy i).Proper := fun _ => Ty.proper_of_isCompound rfl
  have ne : ∀ {i j}, i ≠ j → linkTy i ≠ linkTy j := fun h e => by cases e; exact h rfl
  have apart : ¬ (Ty.nothing = .nothing ∧ Ty.unknown = linkTy (100 + 1)) := fun h => nomatch h.2
  have hl : meant 599 = last := if_pos rfl
  show (run chain (Ty.isSubtypeUpTo (100 + 1) (linkTy 598) (linkTy 99)) {}).1 = true
  rw [linkTy, Ty.isSubtypeUpTo_alias_left (proper 99) (ne (by decide)), run, run_expansion, h₁,
    meant_of_ne (by decide), first, isSubtypeUpTo_linkTy, run_expansion, h₂, meant_of_ne (by decide),
    first, isSubtypeUpTo_arrow (fun h => ne (by decide) h.2), isSubtypeUpTo_nothing_left]
  show ((Ty.isSubtypeUpTo 98 (linkTy 599) (linkTy 100)).run (answer chain fuel) m₂).1 = true
  rw [linkTy, Ty.isSubtypeUpTo_alias_left (proper 100) (ne (by decide)), run_expansion, h₃, hl, last,
    isSubtypeUpTo_linkTy, run_expansion, h₄, meant_of_ne (by decide), first,
    isSubtypeUpTo_arrow apart, isSubtypeUpTo_nothing_left]
  show ((Ty.isSubtypeUpTo 95 .unknown (linkTy 101)).run (answer chain fuel) m₄).1 = true
  rw [isSubtypeUpTo_unknown_left]
  rfl

/-- In a fresh session it stands for the second side. -/
theorem first_not_isSubtype_linkTy : (run chain ((first 598).isSubtype (linkTy 99)) {}).1 = false := by
  obtain ⟨m₁, h₁, hm₁⟩ := expand_far (i := 99) (by decide)
  obtain ⟨m₂, h₂, -⟩ := expand_near hm₁ (i := 599) (k := 0) (by decide) (.inr rfl) (by decide)
  have hl : meant 599 = last := if_pos rfl
  have apart : ¬ (Ty.nothing = .unknown ∧ linkTy (598 + 1) = taker) := fun h => nomatch h.1
  show (run chain (Ty.isSubtypeUpTo (100 + 1) (first 598) (linkTy 99)) {}).1 = false
  rw [first, isSubtypeUpTo_linkTy, run, run_expansion, h₁, second,
    isSubtypeUpTo_arrow apart, isSubtypeUpTo_unknown_left]
  show ((Ty.isSubtypeUpTo 99 (linkTy 599) (arrow (.literal "a" []) .unknown)).run (answer chain fuel)
    m₁).1 = false
  rw [linkTy_isSubtypeUpTo, run_expansion, h₂, hl, last]
  show ((Ty.isSubtypeUpTo 98 (arrow .nothing .unknown) taker).run (answer chain fuel) m₂).1 = false
  rw [not_isSubtypeUpTo_taker]
  rfl

/-- Behind a hundred aliases a text is compared to another one, but behind one alias more it is not.
Behind an alias `nothing` is not below `nothing`, and what is below an alias for `nothing` need not
be below `nothing`. Where aliases depend on each other in a long row, what other aliases stand for
hangs on whether an alias or its expansion is compared. In neither session does an alias lead back
to itself. -/
theorem isSubtype_not_unaliased :
    (FixedDeclarations same ∧ (∀ t, Gives same (sames t 1).unaliased t) ∧
      (run same ((sames (.literal "a" []) 101).isSubtype (.literal "b" [])) {}).1 = true ∧
      (run same ((sames (.literal "a" []) 100).isSubtype (.literal "b" [])) {}).1 = false ∧
      (run same ((sames .nothing 1).isSubtype .nothing) {}).1 = false ∧
      (run same (Ty.nothing.isSubtype .nothing) {}).1 = true ∧
      (run same ((sames .nothing 2).isSubtype (sames .nothing 1)) {}).1 = true ∧
      (run same ((sames .nothing 2).isSubtype .nothing) {}).1 = false) ∧
    (∀ d a, d.module ≠ ModuleId.base → chain.construct? d = some (.aliasDecl a) →
      ∃ t, Derives chain (.expansion d [] []) t ∧ Later d.module t) ∧
    (run chain (linkTy 598).unaliased {}).1 = first 598 ∧
    (run chain ((linkTy 598).isSubtype (linkTy 99)) {}).1 = true ∧
    (run chain ((first 598).isSubtype (linkTy 99)) {}).1 = false := by
  have answered := fixedDeclarations_same.gives_isSubtype
  have text : Ty.literal "b" [] ≠ .nothing := nofun
  have proper : ∀ {t n}, (sames t (n + 1)).Proper := Ty.proper_of_isCompound rfl
  refine ⟨⟨fixedDeclarations_same, gives_sames, ?_, ?_, ?_, ?_, ?_, ?_⟩, ?_, ?_,
    linkTy_isSubtype_linkTy, first_not_isSubtype_linkTy⟩
  · rw [answered _ _ {} .fresh]
    exact sub_sames text 101 _
  · rw [answered _ _ {} .fresh]
    exact (sub_sames_add text 0 100 _).trans (Reading.sub_literal_literal _ 0 "a" "b" [] [])
  · rw [answered _ _ {} .fresh, Reading.sub_nothing_right _ _ proper]
  · rw [answered _ _ {} .fresh, Reading.sub_self]
  · rw [answered _ _ {} .fresh]
    exact (sub_sames_add proper.2 99 1 (sames .nothing 1)).trans (Reading.sub_self ..)
  · rw [answered _ _ {} .fresh, Reading.sub_nothing_right _ _ proper]
  · intro d a hd h
    obtain ⟨i, hi, rfl⟩ := exists_link hd h
    exact ⟨meant i, derives_link hasChain_chain hi, later_meant i⟩
  · obtain ⟨m, h, -⟩ := expand_near .fresh (i := 598) (k := 1) (by decide) (.inr rfl) (by decide)
    exact (congrArg Prod.fst h).trans (meant_of_ne (i := 598) (by decide))

end Session

end PklAnalysis
