import PklAnalysis.Proofs.Scope.Presented
import PklAnalysis.Proofs.Session.Table
import PklAnalysis.Scope.Lookup

/-!
# Visitors

All visitors that put no questions of their own go through one sequence of candidates
(`Session.visitors_follow_candidates`). For a place it is `Scope.visible`, for a type it is
`Scope.members`. Each visitor is shown the candidates that it does not pass over, from the first one
up to the one at which it asks to stop, and the walk says that it was stopped if and only if this
happened.

A walk goes through the members of one type that is not known from the source: that of `this`, or the
receiver. If the aliases of this type come to an end (`Session.Ends`), the walk comes to an end.
Otherwise it may be lost in them; then the candidates before this place are the sequence.

* `Visitor.Tour` says what a visitor is shown of a list.
* `Session.ComesOut` says that a walk is never lost, with one lemma for each function that a walk is
  made of.
* `Session.exists_sweep` evaluates a walk that is presented to visitors in a session.
* `Session.resolve_eq_fold`: a walk that reports to a visitor comes to the same as following the lazy
  sequence of candidates (`Walk.fold`) with the visitor's steps.
* `Session.run_firstMatch`: a look-up by name is a walk with a visitor that stops at once.
-/

namespace PklAnalysis

namespace Visitor

variable {σ : Type} (v : Visitor σ)

/-- The same visitor, which also writes down what it has looked at. -/
def recording : Visitor (σ × List Sight) where
  exactName s := v.exactName s.1
  visit s c := (((v.visit s.1 c).1, s.2 ++ [c]), (v.visit s.1 c).2)

/-- A visitor goes through candidates: what it has looked at, the state it ends with, and whether it
got to the end without asking to stop. -/
inductive Tour : σ → List Sight → List Sight → σ → Bool → Prop
  | finish (s : σ) : Tour s [] [] s true
  | skip {s s' : σ} {c : Sight} {cs seen : List Sight} {finished : Bool} :
      v.skips s c.1 = true → Tour s cs seen s' finished → Tour s (c :: cs) seen s' finished
  | stop {s s' : σ} {c : Sight} (cs : List Sight) :
      ¬ v.skips s c.1 = true → v.visit s c = (s', false) → Tour s (c :: cs) [c] s' false
  | goOn {s s₁ s' : σ} {c : Sight} {cs seen : List Sight} {finished : Bool} :
      ¬ v.skips s c.1 = true → v.visit s c = (s₁, true) → Tour s₁ cs seen s' finished →
        Tour s (c :: cs) (c :: seen) s' finished

/-- The candidates that are not passed over where the name is this one. -/
def matching (exact : Option String) (cs : List Sight) : List Sight :=
  cs.filter (fun c => !exact.any (· != c.1))

variable {v} {s s' : σ} {cs seen : List Sight} {finished : Bool}

/-- A visitor whose name does not change sees the candidates of this name from the first one on, and
all of them if it does not stop. -/
theorem Tour.isPrefix {exact : Option String} (h : v.Tour s cs seen s' finished)
    (he : ∀ s, v.exactName s = exact) :
    seen <+: matching exact cs ∧ (finished = true → seen = matching exact cs) := by
  have skips : ∀ s name, v.skips s name = exact.any (· != name) := by
    intro s name
    rw [Visitor.skips, he]
  unfold matching
  induction h with
  | finish => exact ⟨List.prefix_rfl, fun _ => rfl⟩
  | skip passed _ ih =>
    rw [skips] at passed
    rwa [List.filter_cons, passed]
  | stop cs kept _ =>
    rw [skips, Bool.not_eq_true] at kept
    rw [List.filter_cons, kept]
    exact ⟨⟨_, rfl⟩, fun hf => absurd hf Bool.false_ne_true⟩
  | goOn kept _ _ ih =>
    rw [skips, Bool.not_eq_true] at kept
    rw [List.filter_cons, kept]
    exact ⟨(List.prefix_cons_inj _).2 ih.1, fun hf => congrArg _ (ih.2 hf)⟩

end Visitor

namespace Visitor

variable {σ : Type} (v : Visitor σ)

/-- A step of the visitor along a walk of candidates. -/
def along (s : σ) (c : Candidate) : Query (σ × Bool) := pure (v.step s c.sight)

/-- Show candidates one after the other, until the visitor stops. -/
def sweep (s : σ) : List Sight → σ × Bool
  | [] => (s, true)
  | c :: cs => if (v.step s c).2 then sweep (v.step s c).1 cs else ((v.step s c).1, false)

/-- To be shown a list is a tour, and a visitor that writes it down takes the same one. -/
theorem tour_sweep (s : σ) (before cs : List Sight) : ∃ seen s' finished,
    v.sweep s cs = (s', finished) ∧
    v.recording.sweep (s, before) cs = ((s', before ++ seen), finished) ∧
    v.Tour s cs seen s' finished := by
  induction cs generalizing s before with
  | nil => exact ⟨[], s, true, rfl, by rw [List.append_nil]; rfl, .finish s⟩
  | cons c cs ih =>
    by_cases skips : v.skips s c.1 = true
    · have passed : v.step s c = (s, true) := if_pos skips
      have passed' : v.recording.step (s, before) c = ((s, before), true) := if_pos skips
      obtain ⟨seen, s', finished, swept, recorded, tour⟩ := ih s before
      refine ⟨seen, s', finished, ?_, ?_, .skip skips tour⟩
      · rw [sweep, passed]
        exact swept
      · rw [sweep, passed']
        exact recorded
    · have visit : v.step s c = v.visit s c := if_neg skips
      have visit' : v.recording.step (s, before) c =
          (((v.visit s c).1, before ++ [c]), (v.visit s c).2) := if_neg skips
      rw [sweep, sweep, visit, visit']
      cases visited : v.visit s c with
      | mk s₁ more =>
        cases more with
        | false => exact ⟨[c], s₁, false, rfl, rfl, .stop _ skips visited⟩
        | true =>
          obtain ⟨seen, s', finished, swept, recorded, tour⟩ := ih s₁ (before ++ [c])
          rw [List.append_assoc, List.singleton_append] at recorded
          exact ⟨c :: seen, s', finished, swept, recorded, .goOn skips visited tour⟩

/-- A visitor that stops at the first candidate of a name and keeps it. -/
def firstMatch (name : String) : Visitor (Option Sight) where
  exactName _ := some name
  visit _ c := (some c, false)

theorem sweep_firstMatch (name : String) (cs : List Sight) :
    ((firstMatch name).sweep none cs).1 = cs.find? (·.1 == name) := by
  induction cs with
  | nil => rfl
  | cons c cs ih =>
    rw [sweep, List.find?_cons]
    cases same : c.1 == name with
    | true =>
      have visited : (firstMatch name).step none c = (some c, false) := by
        rw [beq_iff_eq] at same
        simp [step, skips, firstMatch, same]
      rw [visited]
      rfl
    | false =>
      have passed : (firstMatch name).step none c = (none, true) := by
        rw [beq_eq_false_iff_ne] at same
        simp [step, skips, firstMatch, same.symm]
      rw [passed]
      exact ih

end Visitor

namespace Session

open Report

variable {src : ModuleSource} {σ α : Type}

/-! ## Walks that come to an end -/

variable (src) in
/-- The aliases of a type come to an end, with at most `n` of them one inside the other, whatever the
session was asked before. -/
inductive Ends : Nat → Ty → Prop
  | leaf (n : Nat) {t : Ty} : t.isCompound = false → Ends n t
  | union {n : Nat} {l r : Ty} (c : Constraints) : Ends n l → Ends n r → Ends n (.union l r c)
  | expand {n : Nat} {d : NodeRef} {as : List Ty} {c : Constraints} :
      (∀ m, Reachable src m →
        Ends n (run src (Ty.fullyUnaliased (.typeAlias d as c)) m).1) → Ends (n + 1) (.typeAlias d as c)

variable (src) in
/-- A part of a walk is never lost, whatever the session was asked before. -/
structure ComesOut (x : Report σ) : Prop where
  tells : ∀ s m, Reachable src m → (run src (x s) m).1.2 ≠ none

theorem comesOut_goOn : ComesOut src (goOn : Report σ) := ⟨fun _ _ _ => Option.some_ne_none true⟩

theorem comesOut_shown (v : Visitor σ) (c : Sight) : ComesOut src (v.shown c) :=
  ⟨fun _ _ _ => Option.some_ne_none _⟩

theorem ComesOut.andAlso {x y : Report σ} (hx : ComesOut src x) (hy : ComesOut src y) :
    ComesOut src (x.andAlso y) := by
  refine ⟨fun s m hm => ?_⟩
  unfold Report.andAlso
  rw [run_bind]
  have out := hx.tells s m hm
  have reached := hm.query (x s)
  generalize run src (x s) m = r at out reached
  obtain ⟨⟨s, _ | _ | _⟩, m⟩ := r
  · exact absurd rfl out
  · exact Option.some_ne_none false
  · exact hy.tells s m reached

theorem comesOut_after {q : Query α} {x : α → Report σ}
    (h : ∀ m, Reachable src m → ComesOut src (x (run src q m).1)) :
    ComesOut src (after q x) := by
  refine ⟨fun s m hm => ?_⟩
  unfold after
  rw [run_bind]
  exact (h m hm).tells s _ (hm.query q)

section

variable (v : Visitor σ) (mode : LookupMode)

theorem comesOut_offer (t : SyntaxTree) (b : Bindings) (i : NodeIndex) :
    ComesOut src (v.offer mode t b i) := by
  cases h : Scope.candidate? t mode b i with
  | none => exact Presents.offer_of_none h v ▸ comesOut_goOn
  | some c => exact Presents.offer_of_some h v ▸ comesOut_shown v c.sight

theorem comesOut_offerAll (t : SyntaxTree) (b : Bindings) (skipLocal : Bool)
    (is : List NodeIndex) : ComesOut src (v.offerAll mode t b skipLocal is) := by
  induction is with
  | nil => exact comesOut_goOn
  | cons i is ih =>
    unfold Visitor.offerAll
    split
    · exact ih
    · exact (comesOut_offer v mode t b i).andAlso ih

theorem comesOut_classMembers (skipLocal : Bool) (c : ClassTy) :
    ComesOut src (v.classMembers mode skipLocal c) := by
  have from' : ∀ n seen skipLocal c,
      ComesOut src (v.classMembersFrom mode n seen skipLocal c) := by
    intro n
    induction n with
    | zero => exact fun _ _ _ => comesOut_goOn
    | succ n ih =>
      intro seen skipLocal c
      unfold Visitor.classMembersFrom
      split
      · exact comesOut_goOn
      refine comesOut_after (fun m _ => ?_)
      cases (run src (Query.tree c.decl.module) m).1 with
      | none => exact comesOut_goOn
      | some t =>
        refine comesOut_after (fun m _ => (comesOut_offerAll ..).andAlso (comesOut_after ?_))
        intro m _
        cases (run src c.superclass m).1 with
        | none => exact comesOut_goOn
        | some parent => exact ih ..
  exact from' ..

theorem comesOut_moduleMembers (skipLocal : Bool) (i : ModuleId) :
    ComesOut src (v.moduleMembers mode skipLocal i) := by
  have along : ∀ is skipLocal, ComesOut src (v.moduleMembersAlong mode skipLocal is) := by
    intro is
    induction is with
    | nil => exact fun _ => comesOut_goOn
    | cons i is ih =>
      refine fun skipLocal => comesOut_after (fun m _ => ?_)
      cases (run src (Query.tree i) m).1 with
      | none => exact ih true
      | some t => exact (comesOut_offerAll ..).andAlso (ih true)
  exact comesOut_after (fun _ _ => along ..)

/-- The walk through the members of a type comes out of its aliases if they come to an end. -/
theorem comesOut_typeMembersUpTo (skipLocal : Bool) {n : Nat} {t : Ty} (h : Ends src n t) :
    ComesOut src (v.typeMembersUpTo mode skipLocal n t) := by
  have leaf : ∀ (expand : Ty → Report σ) (t : Ty), t.isCompound = false →
      ComesOut src (v.typeMembersWith mode expand skipLocal t) := by
    intro expand t ht
    cases t with
    | unknown | nothing => exact comesOut_goOn
    | cls | literal | var => exact comesOut_classMembers ..
    | module => exact (comesOut_moduleMembers ..).andAlso (comesOut_classMembers ..)
    | typeAlias | union => cases ht
  induction h with
  | leaf n ht => cases n <;> exact leaf _ _ ht
  | @union n _ _ _ _ _ ihl ihr => cases n <;> exact ihl.andAlso ihr
  | expand _ ih => exact comesOut_after ih

theorem comesOut_typeMembers {t : Ty} (h : Ends src Limits.aliasNesting t) :
    ComesOut src (v.typeMembers mode true t) := comesOut_typeMembersUpTo v mode true h

variable {this : Ty} (h : Ends src Limits.aliasNesting this)

include h

theorem comesOut_around (t : SyntaxTree) (innermost : Bool) (i child : NodeIndex) (c : Construct) :
    ComesOut src (v.around mode t this innermost i child c) := by
  have ite : ∀ {p : Prop} [Decidable p] {x : Report σ}, ComesOut src x →
      ComesOut src (if p then x else goOn) := by
    intro p _ x hx
    split
    · exact hx
    · exact comesOut_goOn
  cases c with
  | letIn => exact ite (comesOut_offer ..)
  | lambda => exact ite (comesOut_offerAll ..)
  | forGenerator key value =>
    refine ite (ComesOut.andAlso ?_ (comesOut_offer ..))
    cases key with
    | none => exact comesOut_goOn
    | some key => exact comesOut_offer ..
  | method => exact (comesOut_offerAll ..).andAlso (comesOut_offerAll ..)
  | objectBody =>
    exact ((comesOut_offerAll ..).andAlso (comesOut_offerAll ..)).andAlso
      (ite (comesOut_typeMembers v mode h))
  | classDecl => exact (comesOut_classMembers ..).andAlso (comesOut_offerAll ..)
  | aliasDecl => exact comesOut_offerAll ..
  | constrainedType => exact ite (comesOut_typeMembers v mode h)
  | _ => exact comesOut_goOn

theorem comesOut_outward (t : SyntaxTree) (innermost : Bool) (child : NodeIndex)
    (is : List NodeIndex) : ComesOut src (v.outward mode t this innermost child is) := by
  induction is generalizing innermost child with
  | nil => exact comesOut_goOn
  | cons i is ih =>
    unfold Visitor.outward
    cases t.construct? i with
    | none => exact comesOut_goOn
    | some c =>
      dsimp only
      split
      · exact comesOut_goOn
      · exact (comesOut_around v mode h ..).andAlso (ih ..)

theorem comesOut_resolveUnqualified (site : NodeRef) :
    ComesOut src (v.resolveUnqualified mode site this) := by
  refine comesOut_after (fun m _ => ?_)
  cases (run src (Query.tree site.module) m).1 with
  | none => exact comesOut_goOn
  | some t =>
    refine (comesOut_outward v mode h ..).andAlso ((comesOut_moduleMembers ..).andAlso
      ((comesOut_offerAll ..).andAlso ?_))
    split
    · exact comesOut_goOn
    · exact comesOut_moduleMembers ..

end

/-! ## One sequence for all visitors -/

variable (src)

/-- What a walk tells in the end: whether the visitor let it go on. It tells nothing if the visitor
did so and the walk is lost. -/
def ending (complete finished : Bool) : Option Bool :=
  if finished then (if complete then some true else none) else some false

theorem run_toList_offer {β : Type} (b : β) (rest : Walk β) (m : Memory) :
    (run src (Walk.offer b rest).toList m).1 = b :: (run src rest.toList m).1 := by
  rw [Walk.toList, run_bind]
  rfl

/-- What is presented to visitors shows all of them one list: what the walk offers, up to the place
where the reporter is lost. -/
theorem exists_sweep {w : Walk Candidate} {x : Reporter} (h : Presents w x) (m : Memory) :
    ∃ cs complete, cs <+: (run src w.toList m).1 ∧
      (complete = true → cs = (run src w.toList m).1) ∧
      ∀ {σ : Type} (v : Visitor σ) (s : σ), (run src (x σ v s) m).1 =
        ((v.sweep s (cs.map Candidate.sight)).1,
          ending complete (v.sweep s (cs.map Candidate.sight)).2) := by
  induction h generalizing m with
  | done => exact ⟨[], true, List.nil_prefix, fun _ => rfl, fun _ _ => rfl⟩
  | lost w =>
    exact ⟨[], false, List.nil_prefix, fun e => absurd e Bool.false_ne_true, fun _ _ => rfl⟩
  | @offer c w x _ ih =>
    obtain ⟨cs, complete, isPrefix, all, swept⟩ := ih m
    refine ⟨c :: cs, complete, ?_, fun e => ?_, fun v s => ?_⟩
    · rw [run_toList_offer]
      exact (List.prefix_cons_inj c).2 isPrefix
    · rw [run_toList_offer, ← all e]
    · rw [List.map_cons, Visitor.sweep]
      show (run src ((v.shown c.sight).andAlso (x _ v) s) m).1 = _
      cases stepped : v.step s c.sight with
      | mk s' more =>
        cases more with
        | false =>
          rw [shown_andAlso_of_stop stepped]
          rfl
        | true =>
          rw [shown_andAlso_of_goOn stepped]
          exact swept v s'
  | ask q _ ih => exact ih _ _

/-- All visitors are shown these candidates by a walk. The walk tells that it was stopped if and only
if the visitor stopped it, and otherwise that it came to its end, if it does. -/
def Shows (m : Memory) (x : Reporter) (cs : List Sight) (complete : Bool) : Prop :=
  ∀ {σ : Type} (v : Visitor σ) (s : σ), ∃ seen s' finished,
    (run src (x σ v s) m).1 = (s', ending complete finished) ∧
    (run src (x _ v.recording (s, [])) m).1 = ((s', seen), ending complete finished) ∧
    v.Tour s cs seen s' finished ∧
    ∀ exact, (∀ s, v.exactName s = exact) → seen <+: Visitor.matching exact cs ∧
      (finished = true → seen = Visitor.matching exact cs)

/-- All visitors go through one sequence of candidates, which a walk offers. It is all that the walk
offers unless they are lost, and they are not if `ends` holds. -/
def FollowedBy (m : Memory) (w : Walk Candidate) (x : Reporter) (ends : Prop) : Prop :=
  ∃ cs complete, cs <+: (run src w.toList m).1 ∧
    (complete = true → cs = (run src w.toList m).1) ∧ (ends → complete = true) ∧
    Shows src m x (cs.map Candidate.sight) complete

variable {src}

/-- If a report is never lost, it gets to the end of what it presents. -/
theorem complete_of_comesOut {m : Memory} (hm : Reachable src m) {x : Reporter} {cs : List Sight}
    {complete : Bool} (out : ∀ {σ : Type} (v : Visitor σ), ComesOut src (x σ v))
    (swept : ∀ {σ : Type} (v : Visitor σ) (s : σ),
      (run src (x σ v s) m).1 = ((v.sweep s cs).1, ending complete (v.sweep s cs).2)) :
    complete = true := by
  -- a visitor that never stops would be lost
  let patient : Visitor Unit := ⟨fun _ => none, fun s _ => (s, true)⟩
  have goesOn : (patient.sweep () cs).2 = true := by
    clear swept
    induction cs with
    | nil => rfl
    | cons c cs ih => exact ih
  have tells := (out patient).tells () m hm
  rw [swept, goesOn] at tells
  cases complete with
  | true => rfl
  | false => exact absurd rfl tells

theorem followedBy {m : Memory} (hm : Reachable src m) {w : Walk Candidate} {x : Reporter}
    {ends : Prop} (h : Presents w x)
    (comesOut : ends → ∀ {σ : Type} (v : Visitor σ), ComesOut src (x σ v)) :
    FollowedBy src m w x ends := by
  obtain ⟨cs, complete, isPrefix, all, swept⟩ := exists_sweep src h m
  refine ⟨cs, complete, isPrefix, all, fun he => complete_of_comesOut hm (comesOut he) swept, ?_⟩
  intro σ v s
  obtain ⟨seen, s', finished, plain, recorded, tour⟩ :=
    v.tour_sweep s [] (cs.map Candidate.sight)
  refine ⟨seen, s', finished, ?_, ?_, tour, fun _ he => tour.isPrefix he⟩
  · rw [swept, plain]
  · rw [swept, recorded, List.nil_append]

/-- All visitors go through one sequence of candidates for what is visible at a place, and through
one for the members of a type. -/
theorem visitors_follow_candidates {m : Memory} (hm : Reachable src m) (mode : LookupMode) :
    (∀ site this, FollowedBy src m (Scope.visible site this mode)
      (fun _ v => v.resolveUnqualified mode site this) (Ends src Limits.aliasNesting this)) ∧
    ∀ t, FollowedBy src m (Scope.members mode t) (fun _ v => v.resolveQualified mode t)
      (Ends src Limits.aliasNesting t) :=
  ⟨fun site this => followedBy hm (Presents.visible site this)
      (fun h _ v => comesOut_resolveUnqualified v mode h site),
    fun t => followedBy hm (Presents.members t) (fun h _ v => comesOut_typeMembers v mode h)⟩

/-! ### Following a walk -/

/-- Following a walk with the steps of a visitor shows it all that the walk offers. -/
theorem run_fold_along (v : Visitor σ) (s : σ) (w : Walk Candidate) (m : Memory) :
    (run src (w.fold v.along s) m).1 = v.sweep s ((run src w.toList m).1.map Candidate.sight) := by
  induction w generalizing s m with
  | done => rfl
  | offer c rest ih =>
    rw [run_toList_offer, List.map_cons, Visitor.sweep, Walk.fold, run_bind]
    show (run src (if (v.step s c.sight).2 then _ else _) m).1 = _
    split
    · exact ih ..
    · rfl
  | ask q next ih => exact ih ..

/-- A walk that reports to a visitor and is not lost comes to what following the walk comes to. -/
theorem run_eq_fold {m : Memory} (hm : Reachable src m) {w : Walk Candidate} {x : Reporter}
    (h : Presents w x) (out : ∀ {σ : Type} (v : Visitor σ), ComesOut src (x σ v)) (v : Visitor σ)
    (s : σ) : (run src (x σ v s) m).1 = Prod.map id some (run src (w.fold v.along s) m).1 := by
  obtain ⟨cs, complete, -, all, swept⟩ := exists_sweep src h m
  have ends := complete_of_comesOut hm out swept
  rw [swept, run_fold_along, ← all ends, ends]
  obtain ⟨s', finished⟩ := v.sweep s (cs.map Candidate.sight)
  cases finished <;> rfl

/-- Reporting what is visible at a place, and the members of a type, is following their walks. -/
theorem resolve_eq_fold {m : Memory} (hm : Reachable src m) (mode : LookupMode) {t : Ty}
    (ends : Ends src Limits.aliasNesting t) (v : Visitor σ) (s : σ) :
    (∀ site, (run src (v.resolveUnqualified mode site t s) m).1 =
      Prod.map id some (run src ((Scope.visible site t mode).fold v.along s) m).1) ∧
    (run src (v.resolveQualified mode t s) m).1 =
      Prod.map id some (run src ((Scope.members mode t).fold v.along s) m).1 :=
  ⟨fun site => run_eq_fold hm (Presents.visible site t)
      (fun v => comesOut_resolveUnqualified v mode ends site) v s,
    run_eq_fold hm (Presents.members t) (fun v => comesOut_typeMembers v mode ends) v s⟩

/-! ### Looking up a name -/

/-- A look-up by name takes the first candidate of the name. -/
theorem run_firstNamed (name : String) (w : Walk Candidate) (m : Memory) :
    (run src (w.firstNamed name) m).1 = (run src w.toList m).1.find? (·.name == name) := by
  induction w generalizing m with
  | done => rfl
  | offer c rest ih =>
    rw [run_toList_offer, List.find?_cons, ← ih]
    unfold Walk.firstNamed Walk.named
    rw [Walk.filter]
    cases c.name == name <;> rfl
  | ask q next ih => exact ih _ _

/-- It is what a visitor finds that stops at this candidate. -/
theorem run_firstMatch {m : Memory} (hm : Reachable src m) {w : Walk Candidate} {x : Reporter}
    (h : Presents w x) (out : ∀ {σ : Type} (v : Visitor σ), ComesOut src (x σ v)) (name : String) :
    (run src (x _ (.firstMatch name) none) m).1.1 =
      (run src (w.firstNamed name) m).1.map Candidate.sight := by
  rw [run_eq_fold hm h out, run_fold_along, run_firstNamed]
  exact (Visitor.sweep_firstMatch name _).trans (List.find?_map ..)

/-! ### Three declarations of one name -/

/-- A class `Bird` with a property `x` and a method with a parameter `x`, whose body binds another `x`
around a new object, in which the place `x` stands. -/
def nestlingTree : SyntaxTree where
  uri := "file:///nest.pkl"
  module := 1
  nodes := #[⟨.property { name := "x" }, .nowhere, some 10⟩,
    ⟨.param { name := "x" }, .nowhere, some 7⟩, ⟨.nullLit, .nowhere, some 7⟩,
    ⟨.access "x" none, .nowhere, some 4⟩, ⟨.element 3, .nowhere, some 5⟩,
    ⟨.objectBody [] [4], .nowhere, some 6⟩, ⟨.newObject none 5, .nowhere, some 7⟩,
    ⟨.letIn 1 2 6, .nowhere, some 9⟩, ⟨.param { name := "x" }, .nowhere, some 9⟩,
    ⟨.method { name := "sing", params := [8], body := some 7 }, .nowhere, some 10⟩,
    ⟨.classDecl { name := "Bird", members := [0, 9] }, .nowhere, some 11⟩,
    ⟨.module { members := [10] }, .nowhere, none⟩]
  root := 11

/-- A session with this module only. -/
def nest : ModuleSource where
  tree i := if i = 1 then some nestlingTree else none
  resolve _ _ := none

/-- The class as a type. -/
def nestling : Ty := .cls ⟨1, 10⟩ [] []

/-- A visitor that looks for `x` and stops after as many candidates as it still wants. -/
def finder : Visitor Nat where
  exactName _ := some "x"
  visit n _ := (n - 1, decide (1 < n))

/-- In a body whose object is a bird, the property of the bird comes first, then the binding of the
`let` and then the parameter of the method; a visitor that wants three is not shown the property
again that the class around the place declares. -/
theorem visitors_follow_candidates_nest :
    Reachable nest {} ∧ Ends nest Limits.aliasNesting nestling ∧
    ∃ cs seen, cs = (run nest (Scope.visible ⟨1, 3⟩ nestling .property).toList {}).1 ∧
      finder.Tour 3 (cs.map Candidate.sight) seen 0 false ∧
      seen.map (·.2.1) = [⟨1, 0⟩, ⟨1, 1⟩, ⟨1, 8⟩] ∧
      (run nest (finder.resolveUnqualified .property ⟨1, 3⟩ nestling 3) {}).1 = (0, some false) := by
  have ends : Ends nest Limits.aliasNesting nestling := .leaf _ rfl
  have start : Reachable nest {} := .fresh
  obtain ⟨cs, complete, -, all, comes, shows⟩ :=
    (visitors_follow_candidates start .property).1 ⟨1, 3⟩ nestling
  obtain ⟨seen, s', finished, plain, recorded, tour, -⟩ := shows finder 3
  have answer : (finder.recording.resolveUnqualified .property ⟨1, 3⟩ nestling (3, [])).Asks
        nest.table nest.Tabled ∧
      (fun r => (r.1.1, r.1.2.map (·.2.1), r.2)) ((finder.recording.resolveUnqualified .property
        ⟨1, 3⟩ nestling (3, [])).value nest.table) =
          (0, [⟨1, 0⟩, ⟨1, 1⟩, ⟨1, 8⟩], some false) := by
    decide +kernel
  obtain ⟨asks, value⟩ := answer
  rw [← run_of_table ⟨asks, rfl⟩, recorded] at value
  obtain ⟨rfl, decls, told⟩ : s' = 0 ∧ seen.map (·.2.1) = [⟨1, 0⟩, ⟨1, 1⟩, ⟨1, 8⟩] ∧
      ending complete finished = some false := by simpa using value
  obtain rfl : finished = false := by
    rw [comes ends] at told
    cases finished with
    | false => rfl
    | true => cases told
  exact ⟨start, ends, cs, seen, all (comes ends), tour, decls, plain⟩

end Session

end PklAnalysis
