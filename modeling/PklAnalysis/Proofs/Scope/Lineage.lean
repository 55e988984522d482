import PklAnalysis.Proofs.Session.Ledger
import PklAnalysis.Proofs.Scope.Walks
import PklAnalysis.Proofs.Session.Subtype
import PklAnalysis.Proofs.Types.Arguments
import PklAnalysis.Proofs.Typing.Arity

/-!
# Members along superclasses

`c.lineage` lists the class types met from a class type upwards. Two walks go along it: the one that
offers the members of a class type, and the one that looks for an ancestor. They are cut off and stop
at repetitions each by itself, and between two classes the first one asks for trees and type
parameters besides. These questions change nothing that decides an answer, so the two walks stay in
step whatever the session was asked before (`Session.members_along_lineage`).
-/

namespace PklAnalysis

namespace ClassTy

theorem toTy_mk (d : NodeRef) (as : List Ty) (c : Constraints) : toTy ⟨d, as, c⟩ = .cls d as c := rfl

/-- The class types met within `n` steps from a class type upwards, itself the first, up to one whose
declaration was met before. -/
def lineageFrom : Nat → List NodeRef → ClassTy → Query (List ClassTy)
  | 0, _, _ => pure []
  | n + 1, seen, c =>
    if seen.contains c.decl then pure []
    else do
      match ← c.superclass with
      | none => pure [c]
      | some parent => do
        let above ← lineageFrom n (c.decl :: seen) parent
        pure (c :: above)

/-- A class type with its superclasses, as far as walks go. -/
def lineage (c : ClassTy) : Query (List ClassTy) := lineageFrom Limits.supertypeChain [] c

end ClassTy

namespace Walk

variable {α β : Type}

theorem toList_ofList (bs : List β) : (ofList bs).toList = pure bs := by
  induction bs with
  | nil => rfl
  | cons b bs ih => rw [ofList, toList, ih, pure_bind]

theorem toList_after (x : Query α) (f : α → Walk β) :
    (after x f).toList = x >>= fun a => (f a).toList := by
  induction x with
  | done a => rfl
  | ask q next ih => exact congrArg (Query.ask q) (funext ih)

theorem toList_append (x y : Walk β) :
    (x ++ y).toList = (do
      let bs ← x.toList
      let cs ← y.toList
      pure (bs ++ cs)) := by
  induction x with
  | done => exact (bind_pure y.toList).symm
  | offer b rest ih =>
    show (rest ++ y).toList >>= _ = (rest.toList >>= _) >>= _
    rw [ih]
    simp only [bind_assoc, pure_bind, List.cons_append]
  | ask q next ih => exact congrArg (Query.ask q) (funext ih)

end Walk

theorem Scope.members_class (mode : LookupMode) (c : ClassTy) :
    members mode c.toTy = classMembers mode true c := by
  unfold members
  cases Limits.aliasNesting <;> rfl

/-! ## Bindings by position -/

/-- Parameters stand for the arguments at their positions, and nothing else is bound. One that is
listed again stands for the later argument. -/
structure BindsByPosition (ps : List NodeRef) (as : List Ty) (b : Bindings) : Prop where
  bound : ∀ {i : Nat} {p : NodeRef} {a : Ty}, ps[i]? = some p → as[i]? = some a →
    (∀ j, i < j → j < as.length → ps[j]? ≠ some p) → b.get? p = some a
  only : ∀ {p : NodeRef} {a : Ty}, b.get? p = some a → ∃ i : Nat, ps[i]? = some p ∧ as[i]? = some a

namespace Bindings

theorem mem_of_get?_extend {b : Bindings} {es : List (NodeRef × Ty)} {p : NodeRef} {a : Ty}
    (h : (b.extend es).get? p = some a) : (p, a) ∈ es ∨ b.get? p = some a := by
  induction es generalizing b with
  | nil => exact .inr h
  | cons e es ih =>
    rcases ih (b := b.insert e.1 e.2) h with h | h
    · exact .inl (List.mem_cons_of_mem _ h)
    · by_cases he : e.1 = p
      · subst he
        rw [get?_insert] at h
        exact .inl (Option.some.inj h ▸ List.mem_cons_self)
      · rw [get?_insert_of_ne _ _ he] at h
        exact .inr h

theorem bindsByPosition (ps : List NodeRef) (as : List Ty) :
    BindsByPosition ps as (empty.extend (ps.zip as)) where
  bound {i p a} hp ha last := by
    have here : (ps.zip as)[i]? = some (p, a) := List.getElem?_zip_eq_some.2 ⟨hp, ha⟩
    obtain ⟨hi, he⟩ := List.getElem?_eq_some_iff.1 here
    have split : ps.zip as = (ps.zip as).take i ++ (p, a) :: (ps.zip as).drop (i + 1) := by
      rw [← he, List.getElem_cons_drop, List.take_append_drop]
    have later : p ∉ ((ps.zip as).drop (i + 1)).map (·.1) := by
      intro h
      obtain ⟨⟨q, x⟩, hq, rfl⟩ := List.mem_map.1 h
      obtain ⟨j, hj⟩ := List.mem_iff_getElem?.1 hq
      rw [List.getElem?_drop] at hj
      obtain ⟨hps, has⟩ := List.getElem?_zip_eq_some.1 hj
      exact last _ (by omega) (List.getElem?_eq_some_iff.1 has).1 hps
    rw [split, extend, List.foldl_append]
    exact (get?_extend_of_not_mem later).trans (get?_insert ..)
  only {p a} h := by
    rcases mem_of_get?_extend h with h | h
    · obtain ⟨i, hi⟩ := List.mem_iff_getElem?.1 h
      exact ⟨i, List.getElem?_zip_eq_some.1 hi⟩
    · cases h

end Bindings

namespace ModuleSource

variable (src : ModuleSource)

/-- The type parameters of a declaration bound to arguments. -/
def bindings (d : NodeRef) (as : List Ty) : Bindings :=
  Bindings.empty.extend (((src.params d).map (·.1)).zip as)

/-- What a class itself declares, without what is local, in the order of its declarations. -/
def ownMembers (mode : LookupMode) (c : ClassTy) : List Candidate :=
  match src.treeOf c.decl.module with
  | none => []
  | some t => ((t.membersOf c.decl.node).filter (fun i => !t.hasModifier i .localKw)).filterMap
      (Scope.candidate? t mode (src.bindings c.decl c.args))

end ModuleSource

/-! ## Sessions on lists -/

namespace Ledger

open Session

variable {src : ModuleSource} {α β : Type}

theorem run_bind (x : Query α) (f : α → Query β) (l : Ledger) :
    run src (x >>= f) l = run src (f (run src x l).1) (run src x l).2 := by
  show (x >>= f).run (answer src fuel) l = _
  rw [Query.run_bind]
  rfl

/-- Questions about the source leave everything as it is. -/
theorem run_source {x : Query α} (h : x.Asks (reading src) Question.IsSource) (l : Ledger) :
    run src x l = (x.value (reading src), l) := by
  induction x with
  | done a => rfl
  | ask q next ih =>
    have answered : answer src fuel q l = (reading src q, l) := by
      cases q with
      | tree i =>
        rw [(settled_tree src i).2]
        rfl
      | reference m uri =>
        rw [(settled_reference src m uri).2]
        rfl
      | _ => exact nomatch h.1
    show run src (next (answer src fuel q l).1) (answer src fuel q l).2 = _
    rw [answered]
    exact ih _ h.2

theorem exists_mirrors {m : Memory} (h : Session.Reachable src m) : ∃ l, Mirrors src m l := by
  induction h with
  | fresh => exact ⟨{}, mirrors_empty⟩
  | query x _ ih =>
    obtain ⟨l, hl⟩ := ih
    exact ⟨_, (run_eq hl x).2⟩

/-- What some session can have written down between two queries. -/
def Reachable (src : ModuleSource) (l : Ledger) : Prop :=
  ∃ m, Session.Reachable src m ∧ Mirrors src m l

theorem Reachable.query {l : Ledger} (h : Reachable src l) (x : Query α) :
    Reachable src (run src x l).2 := by
  obtain ⟨m, hm, mirrors⟩ := h
  exact ⟨_, hm.query x, (run_eq mirrors x).2⟩

theorem Reachable.gives {l : Ledger} (h : Reachable src l) {x : Query α} {a : α} (hx : Gives src x a) :
    (run src x l).1 = a := by
  obtain ⟨m, hm, mirrors⟩ := h
  rw [← (run_eq mirrors x).1, hx m hm]

end Ledger

namespace Session

variable {src : ModuleSource} {mode : LookupMode}

/-- A class without a tree has no superclass. -/
theorem gives_superclass_of_no_tree {c : ClassTy} (h : src.treeOf c.decl.module = none) :
    Gives src c.superclass none := by
  have notClass : ∀ d, src.construct? c.decl ≠ some (.classDecl d) := by
    intro d e
    rw [ModuleSource.construct?, h] at e
    cases e
  have settled := settled_plainSupertype (plainSupertype_of_not_class notClass)
  exact (gives_ask_iff.2 settled).bind (gives_pure none)

theorem value_forDeclaration (d : NodeRef) (as : List Ty) :
    (Bindings.forDeclaration d as).value (reading src) = src.bindings d as := by
  show (reading src).bindings d as = _
  rw [Reading.bindings_eq, reading_params]
  rfl

/-- The members offered are those of the lineage. -/
theorem run_classMembersFrom {l : Ledger} (hl : Ledger.Reachable src l) (n : Nat)
    (seen : List NodeRef) (c : ClassTy) :
    (Ledger.run src (Scope.classMembersFrom mode n seen true c).toList l).1 =
      (Ledger.run src (c.lineageFrom n seen) l).1.flatMap (src.ownMembers mode) := by
  induction n generalizing seen c l with
  | zero => rfl
  | succ n ih =>
    unfold Scope.classMembersFrom ClassTy.lineageFrom
    split
    · rfl
    rw [Walk.toList_after, Ledger.run_bind, Ledger.run_source (Query.asks_tree ..), value_tree,
      Ledger.run_bind (x := c.superclass)]
    cases ht : src.treeOf c.decl.module with
    | none =>
      rw [hl.gives (gives_superclass_of_no_tree ht)]
      show [] = [c].flatMap (src.ownMembers mode)
      rw [List.flatMap_singleton, ModuleSource.ownMembers, ht]
    | some t =>
      have own : (Scope.offers t mode (src.bindings c.decl c.args) true
          (t.membersOf c.decl.node)).toList = pure (src.ownMembers mode c) := by
        rw [ModuleSource.ownMembers, ht, Scope.offers, Walk.toList_ofList]
        rfl
      dsimp only
      rw [Walk.toList_after, Ledger.run_bind, Ledger.run_source (Query.asks_forDeclaration ..),
        value_forDeclaration, Walk.toList_append, own, pure_bind, Walk.toList_after, Ledger.run_bind,
        Ledger.run_bind (x := c.superclass)]
      cases (Ledger.run src c.superclass l).1 with
      | none =>
        show src.ownMembers mode c ++ [] = [c].flatMap (src.ownMembers mode)
        rw [List.flatMap_singleton, List.append_nil]
      | some parent =>
        show src.ownMembers mode c ++ (Ledger.run src _ _).1 = _
        rw [ih (hl.query c.superclass), Ledger.run_bind]
        rfl

theorem run_lineageFrom_succ (n : Nat) (seen : List NodeRef) (c : ClassTy) (m : Memory) :
    (run src (c.lineageFrom (n + 1) seen) m).1 =
      if seen.contains c.decl then []
      else c :: match (run src c.superclass m).1 with
        | none => []
        | some parent =>
          (run src (parent.lineageFrom n (c.decl :: seen)) (run src c.superclass m).2).1 := by
  rw [ClassTy.lineageFrom]
  split
  · rfl
  · rw [run_bind]
    cases (run src c.superclass m).1 with
    | none => rfl
    | some parent =>
      show (run src (parent.lineageFrom n _ >>= _) _).1 = _
      rw [run_bind]
      rfl

/-- The search for an ancestor finds what the lineage lists. What it looks for is not among the
declarations that it has passed. -/
theorem run_projectFrom {d : NodeRef} (n : Nat) {seen : List NodeRef} (hd : d ∉ seen) (c : ClassTy)
    (m : Memory) : (run src (ClassTy.projectFrom d n seen c) m).1 =
      (run src (c.lineageFrom n seen) m).1.find? (·.decl == d) := by
  induction n generalizing seen c m with
  | zero => rfl
  | succ n ih =>
    rw [run_lineageFrom_succ, ClassTy.projectFrom]
    by_cases found : c.decl = d
    · have fresh : ¬ seen.contains c.decl = true := fun h => hd (found ▸ List.contains_iff_mem.1 h)
      rw [if_pos found, if_neg fresh, List.find?_cons, beq_iff_eq.2 found]
      rfl
    rw [if_neg found]
    split
    · rfl
    rw [List.find?_cons, beq_eq_false_iff_ne.2 found, run_bind]
    have passed : d ∉ c.decl :: seen := fun h => (List.mem_cons.1 h).elim (Ne.symm found) hd
    cases (run src c.superclass m).1 with
    | none => rfl
    | some parent => exact ih passed parent _

/-- A lineage lists no declaration twice. -/
theorem nodup_lineageFrom (n : Nat) (seen : List NodeRef) (c : ClassTy) (m : Memory) :
    ((run src (c.lineageFrom n seen) m).1.map (·.decl)).Nodup ∧
      ∀ p ∈ (run src (c.lineageFrom n seen) m).1, p.decl ∉ seen := by
  induction n generalizing seen c m with
  | zero => exact ⟨List.nodup_nil, nofun⟩
  | succ n ih =>
    rw [run_lineageFrom_succ]
    split
    · exact ⟨List.nodup_nil, nofun⟩
    next fresh =>
    have fresh : c.decl ∉ seen := fun h => fresh (List.contains_iff_mem.2 h)
    cases (run src c.superclass m).1 with
    | none =>
      exact ⟨List.nodup_cons.2 ⟨List.not_mem_nil, List.nodup_nil⟩,
        fun p hp => List.mem_singleton.1 hp ▸ fresh⟩
    | some parent =>
      obtain ⟨nodup, unseen⟩ := ih (c.decl :: seen) parent (run src c.superclass m).2
      refine ⟨List.nodup_cons.2 ⟨fun h => ?_, nodup⟩, fun p hp => ?_⟩
      · obtain ⟨p, hp, e⟩ := List.mem_map.1 h
        exact unseen p hp (e ▸ List.mem_cons_self)
      · rcases List.mem_cons.1 hp with rfl | hp
        · exact fresh
        · exact fun h => unseen p hp (List.mem_cons_of_mem _ h)

/-- What a lineage lists is found by its declaration. -/
theorem find?_of_mem_of_nodup {line : List ClassTy} (h : (line.map (·.decl)).Nodup) {p : ClassTy}
    (hp : p ∈ line) : line.find? (·.decl == p.decl) = some p := by
  induction line with
  | nil => cases hp
  | cons q line ih =>
    rw [List.map_cons, List.nodup_cons] at h
    rcases List.mem_cons.1 hp with rfl | hp
    · rw [List.find?_cons, beq_self_eq_true]
    · have apart : q.decl ≠ p.decl := fun e => h.1 (e ▸ List.mem_map_of_mem hp)
      rw [List.find?_cons, beq_eq_false_iff_ne.2 apart, ih h.2 hp]

theorem bindings_of_mem_ownMembers {c : ClassTy} {x : Candidate} (h : x ∈ src.ownMembers mode c) :
    x.bindings = src.bindings c.decl c.args := by
  unfold ModuleSource.ownMembers at h
  split at h
  · cases h
  · obtain ⟨i, -, hi⟩ := List.mem_filterMap.1 h
    unfold Scope.candidate? at hi
    split at hi
    · cases hi
    · split at hi
      · obtain ⟨name, -, rfl⟩ := Option.map_eq_some_iff.1 hi
        rfl
      · cases hi

/-- The members of a class type, as they are offered to a visitor that does not stop, are those of
the classes of its lineage, each with what is not local in the order of its declarations. These
classes are the ones that the search for an ancestor finds at the same moment, with the arguments
that their type parameters stand for. -/
theorem members_along_lineage {m : Memory} (hm : Reachable src m) (c : ClassTy) :
    ∃ line, (run src c.lineage m).1 = line ∧
      (∀ mode, (run src (Scope.members mode c.toTy).toList m).1 =
        line.flatMap (src.ownMembers mode)) ∧
      (∀ d, (run src (c.projectTo d) m).1 = line.find? (·.decl == d)) ∧
      ∀ p ∈ line, (run src (c.projectTo p.decl) m).1 = some p ∧
        (∀ mode, ∀ x ∈ src.ownMembers mode p,
          BindsByPosition ((src.params p.decl).map (·.1)) p.args x.bindings) ∧
        (src.Full c.toTy → p.args.length = (src.params p.decl).length) := by
  obtain ⟨l, mirrors⟩ := Ledger.exists_mirrors hm
  have found : ∀ d, (run src (c.projectTo d) m).1 = (run src c.lineage m).1.find? (·.decl == d) :=
    fun d => run_projectFrom _ List.not_mem_nil c m
  have self : ∀ p ∈ (run src c.lineage m).1, (run src (c.projectTo p.decl) m).1 = some p := by
    intro p hp
    rw [found]
    exact find?_of_mem_of_nodup (nodup_lineageFrom ..).1 hp
  refine ⟨_, rfl, fun mode => ?_, found, fun p hp => ⟨self p hp, fun mode x hx => ?_, fun full => ?_⟩⟩
  · have reachable : Ledger.Reachable src l := ⟨m, hm, mirrors⟩
    rw [Scope.members_class, (Ledger.run_eq mirrors _).1, (Ledger.run_eq mirrors _).1]
    exact run_classMembersFrom reachable Limits.supertypeChain [] c
  · rw [bindings_of_mem_ownMembers hx]
    exact Bindings.bindsByPosition _ _
  · have kept := src.full.run (src.full.within_projectTo full p.decl) hm
    exact (kept p (self p hp)).args.1

/-- The class type of lists of texts. -/
def textList : ClassTy := ⟨std.list, [std.stringTy], []⟩

theorem full_textList : aviary.Full textList.toTy := by
  rw [textList, ClassTy.toTy_mk]
  refine .cls [] (Standard.isClass_list.source aviary).2 (fun a ha => ?_)
  rw [List.mem_singleton.1 ha]
  exact .cls [] (Standard.isClass_string.source aviary).2 nofun

/-- A list of texts has the members of a collection, in which the element type is `String`. -/
theorem members_along_lineage_texts :
    aviary.Full textList.toTy ∧
    ∃ p, (run aviary (textList.projectTo std.collection) {}).1 = some p ∧
      p.args = [std.stringTy] ∧ p.args.length = (aviary.params std.collection).length ∧
      ∀ x ∈ aviary.ownMembers .method p,
        x ∈ (run aviary (Scope.members .method textList.toTy).toList {}).1 ∧
        BindsByPosition ((aviary.params std.collection).map (·.1)) [std.stringTy] x.bindings := by
  have hm : Reachable aviary {} := .fresh
  obtain ⟨line, -, offered, found, each⟩ := members_along_lineage hm textList
  have answers : (textList.projectTo std.collection).Asks aviary.table aviary.Tabled ∧
      ((textList.projectTo std.collection).value aviary.table).map (·.toTy) =
        some (.cls std.collection [std.stringTy] []) := by
    decide +kernel
  obtain ⟨⟨_, _, _⟩, value, same⟩ := Option.map_eq_some_iff.1 answers.2
  cases same
  have ancestor := run_of_table ⟨answers.1, value⟩
  have listed := List.mem_of_find?_eq_some ((found std.collection).symm.trans ancestor)
  obtain ⟨-, binds, args⟩ := each _ listed
  refine ⟨full_textList, _, ancestor, rfl, args full_textList, fun x hx => ⟨?_, binds .method x hx⟩⟩
  rw [offered]
  exact List.mem_flatMap.2 ⟨_, listed, hx⟩

end Session

end PklAnalysis
